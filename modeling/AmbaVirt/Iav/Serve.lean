/-
An idle broker and one guest: its requests are served, and leave the
broker idle again.

The other modules say what every run keeps. Here a run is built, for any
idle broker: an OPEN whose real open succeeds or fails, and requests on
the session it made.
-/
import AmbaVirt.Iav.Ops

namespace AmbaVirt.Iav

open Lib Function

namespace Broker

variable {b : Broker} {cid : UInt32} {k : Fin 16} {n : UInt32} {now : UInt64}

/-- Entry `k` is the one of `cid` and counts `n` sessions. -/
structure Entry (b : Broker) (cid : UInt32) (k : Fin 16) (n : UInt32) :
    Prop where
  find : (Fin.find? fun k => (b.cids k).any (·.cid == cid)) = some k
  sessions : b.sessions k = n

section

variable (h : b.Entry cid k n)

include h

theorem Entry.cidState (now : UInt64) : b.cidState cid now = some (k, b) := by
  unfold Broker.cidState
  rw [h.find]

theorem Entry.setSessions (f : UInt32 → UInt32) :
    (b.setSessions k f).Entry cid k (f n) := by
  have hk := Fin.eq_true_of_find?_eq_some h.find
  have hsome : ∃ c, b.cids k = some c := by
    cases hc : b.cids k with
    | none =>
      rw [hc] at hk
      cases hk
    | some c => exact ⟨c, rfl⟩
  obtain ⟨c, hc⟩ := hsome
  have hany : (fun j => ((b.setSessions k f).cids j).any (·.cid == cid))
      = fun j => (b.cids j).any (·.cid == cid) := by
    funext j
    show (update b.cids k _ j).any _ = _
    by_cases hj : j = k
    · subst hj
      rw [update_self, Option.any_map]
    · rw [update_of_ne hj]
  refine ⟨by rw [hany]; exact h.find, ?_⟩
  have hs := h.sessions
  unfold Broker.sessions at hs ⊢
  show (update b.cids k _ k).elim 0 _ = _
  rw [update_self, hc]
  rw [hc] at hs
  exact congrArg f hs

theorem Entry.setSess (i : Fin 64) (x : Session) :
    (b.setSess i x).Entry cid k n :=
  ⟨h.find, h.sessions⟩

theorem Entry.openReserve (hn : n < b.maxSessionsPerCid) (hfree : (b.sess 0).inUse = false)
    (now : UInt64) : b.openReserve cid now
      = ((b.setSess 0 ((b.sess 0).reserve cid)).setSessions k (· + 1), some 0) := by
  have hfind : (Fin.find? fun i => !(b.sess i).inUse) = some 0 := by
    rw [Fin.find?_eq_some_iff]
    refine ⟨by rw [hfree]; rfl, fun j hj => absurd hj (Fin.not_lt_zero j)⟩
  unfold Broker.openReserve
  rw [h.cidState now]
  dsimp only
  rw [h.sessions, if_neg (UInt32.not_le.mpr hn), hfind]

/-- What freeing a session of `cid` does to its entry. -/
theorem Entry.sessionFreeLocked {i : Fin 64} (hcid : (b.sess i).cid = cid) (now : UInt64) :
    (b.sessionFreeLocked i now).1.Entry cid k (if n > 0 then n - 1 else n) := by
  unfold Broker.sessionFreeLocked
  dsimp only
  rw [hcid, h.cidState now]
  exact (h.setSessions fun n => if n > 0 then n - 1 else n).setSess i _

theorem Entry.settle {i : Fin 64} {x : Session}
    (hcid : x.cid = cid) {last : Prop} [Decidable last] (now : UInt64) :
    (b.settle i x last now).1.Entry cid k (if last ∧ n > 0 then n - 1 else n) := by
  unfold Broker.settle
  split
  · rename_i hl
    simp only [hl, true_and]
    refine (h.setSess i x).sessionFreeLocked ?_ now
    rw [setSess_sess, update_self]
    exact hcid
  · rename_i hl
    rw [if_neg fun hc => hl hc.1]
    exact h.setSess i x

end

end Broker

-- ==== one slot, one guest

/-- The broker with the operations `ops` and session `x` in slot 0, where
entry `k` counts `n` sessions of the guest. -/
structure Serves (s : State) (epoch cid : UInt32) (k : Fin 16) (n : UInt32)
    (ops : List Op) (x : Session) : Prop where
  ops : s.ops = ops
  slot : s.sess 0 = x
  entry : s.Entry cid k n
  epoch : s.epoch = epoch
  rate : s.ratePerSec = 0
  perCid : 0 < s.maxSessionsPerCid

namespace Serves

variable {s : State} {epoch cid : UInt32} {k : Fin 16} {n : UInt32}
  {ops : List Op} {x : Session} {op : Op}

theorem head (h : Serves s epoch cid k n (op :: ops) x) : op ∈ s.ops := by
  rw [h.ops]
  exact List.mem_cons_self ..

theorem act (h : Serves s epoch cid k n (op :: ops) x) {b : Broker} {pc : Pc}
    {y : Session} {n' : UInt32} (hw : s.Writes 0 y b)
    (he : b.Entry cid k n') :
    Serves (s.act op b pc) epoch cid k n' ({ op with pc := pc } :: ops) y where
  ops := by rw [State.act, h.ops, move_head]
  slot := by
    show b.sess 0 = y
    rw [hw.sess, update_self]
  entry := he
  epoch := hw.cfg.epoch.trans h.epoch
  rate := hw.cfg.rate.trans h.rate
  perCid := by
    show 0 < b.maxSessionsPerCid
    rw [hw.cfg.perCid]
    exact h.perCid

theorem goto (h : Serves s epoch cid k n (op :: ops) x) (pc : Pc) :
    Serves (s.act op s.toBroker pc) epoch cid k n ({ op with pc := pc } :: ops) x := by
  have hw := Broker.Writes.of_eq (b := s.toBroker) rfl (.refl _) 0
  rw [h.slot] at hw
  exact h.act hw h.entry

theorem enter (h : Serves s epoch cid k n ops x) : ∃ s', Step s (.enter cid) s' ∧
      Serves s' epoch cid k n (⟨cid, .entered⟩ :: ops) x := by
  refine ⟨_, .enter (h.entry.cidState 0), ?_⟩
  rw [Broker.rateCheck, if_pos h.rate]
  exact ⟨congrArg _ h.ops, h.slot, h.entry, h.epoch, h.rate, h.perCid⟩

theorem reserve (h : Serves s epoch cid k 0 (⟨cid, .entered⟩ :: ops) x) (hfree : x.inUse = false) :
    ∃ s', Step s (.reserve cid 0) s' ∧
      Serves s' epoch cid k 1 (⟨cid, .opening 0⟩ :: ops) (x.reserve cid) := by
  have hr := h.entry.openReserve h.perCid (by rw [h.slot]; exact hfree) 0
  rw [h.slot] at hr
  have hw := (Broker.openReserve_some hr).2
  rw [h.slot] at hw
  exact ⟨_, @Step.reserve s ⟨cid, .entered⟩ 0 _ 0 h.head rfl hr,
    h.act hw ((h.entry.setSess 0 _).setSessions (· + 1))⟩

theorem openFails (h : Serves s epoch cid k n (⟨cid, .opening 0⟩ :: ops) x) :
    ∃ s', Step s .openFails s' ∧ Serves s' epoch cid k n (⟨cid, .openFailed 0⟩ :: ops) x :=
  ⟨_, @Step.openFails s ⟨cid, .opening 0⟩ 0 h.head rfl, h.goto _⟩

theorem abandon (h : Serves s epoch cid k 1 (⟨cid, .openFailed 0⟩ :: ops) x) (hcid : x.cid = cid) :
    ∃ s', Step s (.abandon 0) s' ∧ Serves s' epoch cid k 0 (⟨cid, .go .done⟩ :: ops)
      ({ x with refs := 0 } : Session).free := by
  have hb : s.openFailed 0 0 = (s.settle 0 { x with refs := 0 } True 0).1 := by
    rw [Broker.openFailed, h.slot]
  have hw := @Broker.settle_writes s.toBroker 0 0 { x with refs := 0 } True _
  have he := @Broker.Entry.settle _ _ _ _ h.entry 0 { x with refs := 0 } hcid True _ 0
  rw [if_pos trivial, ← hb] at hw
  rw [← hb] at he
  exact ⟨_, @Step.abandon s ⟨cid, .openFailed 0⟩ 0 0 h.head rfl, h.act hw he⟩

/-- The one operation that also moves behind another. -/
theorem openReturns (h : Serves s epoch cid k n ops x) (hop : ⟨cid, .opening 0⟩ ∈ ops) :
    ∃ s', Step s (.openReturns s.opened) s' ∧ Serves s' epoch cid k n
      (move ops ⟨cid, .opening 0⟩ ⟨cid, .opened 0 s.opened⟩) x := by
  rw [← h.ops] at hop
  exact ⟨_, @Step.openReturns s ⟨cid, .opening 0⟩ 0 hop rfl, congrArg (move · _ _) h.ops, h.slot,
    h.entry, h.epoch, h.rate, h.perCid⟩

theorem publish {fd : Fd} (h : Serves s epoch cid k n (⟨cid, .opened 0 fd⟩ :: ops) x)
    (hcl : x.closing = false) (hcid : x.cid = cid) :
    ∃ s', Step s (.publish 0) s' ∧ Serves s' epoch cid k n (⟨cid, .published 0⟩ :: ops)
      { x with fd := some fd, lastUsedMs := 0, refs := 0 } := by
  generalize hy : ({ x with fd := some fd, lastUsedMs := 0, refs := 0 } : Session) = y
  have hyc : ¬ y.closing = true := by
    rw [← hy]
    exact (Bool.not_eq_true _).mpr hcl
  have hb : s.openDone 0 fd 0 = s.settle 0 y (y.closing = true) 0 := by
    rw [Broker.openDone, h.slot, hy]
  have hw := @Broker.settle_writes s.toBroker 0 0 y (y.closing = true) _
  have hfd := @Broker.settle_fd s.toBroker 0 0 y (y.closing = true) _
  have he := @Broker.Entry.settle _ _ _ _ h.entry 0 y (by rw [← hy]; exact hcid)
    (y.closing = true) _ 0
  rw [if_neg hyc] at hw hfd
  rw [if_neg fun hc => hyc hc.1] at he
  refine ⟨_, @Step.publish s ⟨cid, .opened 0 fd⟩ 0 fd 0 _ h.head rfl ?_, h.act hw he⟩
  rw [hb, ← hfd]

theorem handle (h : Serves s epoch cid k n (⟨cid, .published 0⟩ :: ops) x) :
    ∃ s', Step s (.handle cid (makeHandle epoch 0 x.gen)) s' ∧
      Serves s' epoch cid k n (⟨cid, .go .done⟩ :: ops) x := by
  have hs := @Step.handle s ⟨cid, .published 0⟩ 0 h.head rfl
  rw [h.slot, h.epoch] at hs
  exact ⟨_, hs, h.goto _⟩

theorem finish (h : Serves s epoch cid k n (⟨cid, .go .done⟩ :: ops) x) :
    ∃ s', Step s .finish s' ∧ Serves s' epoch cid k n ops x := by
  refine ⟨_, @Step.finish s ⟨cid, .go .done⟩ .done h.head rfl (.inl rfl), ?_⟩
  exact ⟨by rw [h.ops, List.erase_cons_head], h.slot, h.entry, h.epoch, h.rate, h.perCid⟩

theorem acquire (h : Serves s epoch cid k n (⟨cid, .entered⟩ :: ops) x) (closes : Bool)
    (hin : x.inUse = true) (hcl : x.closing = false) (hcid : x.cid = cid) :
    ∃ s', Step s (.acquire cid (makeHandle epoch 0 x.gen) 0) s' ∧
      Serves s' epoch cid k n (⟨cid, .held 0 x.frees closes⟩ :: ops)
        { x with refs := x.refs + 1, lastUsedMs := 0 } := by
  have hacc : s.Accepts cid (makeHandle epoch 0 x.gen) 0 := by
    rw [← h.slot] at hin hcl hcid ⊢
    exact .of_live h.epoch hin hcl hcid
  have hr := hacc.sessionAcquire 0
  have hw : s.Writes 0 { x with refs := x.refs + 1, lastUsedMs := 0 }
      (s.setSess 0 { x with refs := x.refs + 1, lastUsedMs := 0 }) :=
    ⟨rfl, rfl, rfl, rfl⟩
  have hs := @Step.acquire s ⟨cid, .entered⟩ (makeHandle epoch 0 x.gen) 0 0 _ closes h.head rfl hr
  rw [h.slot] at hs
  exact ⟨_, hs, h.act hw (h.entry.setSess 0 _)⟩

/-- An operation that is the last to leave slot 0 closes its descriptor. -/
theorem settle {pc : Pc} (h : Serves s epoch cid k n (⟨cid, pc⟩ :: ops) x) (y : Session)
    (hcid : y.cid = cid) {last : Prop} [Decidable last] (hl : last) {fd : Fd}
    (hfd : y.fd = some fd) (c : Cont) :
    Serves (s.act ⟨cid, pc⟩ (s.settle 0 y last 0).1
        (.after 0 x (s.settle 0 y last 0).2 c)) epoch cid k
      (if n > 0 then n - 1 else n) (⟨cid, .closing ⟨fd, 0, x.frees⟩ c⟩ :: ops) y.free := by
  have hw := @Broker.settle_writes s.toBroker 0 0 y last _
  have he := @Broker.Entry.settle _ _ _ _ h.entry 0 y hcid last _ 0
  have hif : (if last ∧ n > 0 then n - 1 else n) = if n > 0 then n - 1 else n :=
    if_congr (and_iff_right hl) rfl rfl
  rw [if_pos hl] at hw
  rw [hif] at he
  rw [Broker.settle_fd, if_pos hl, hfd]
  exact h.act hw he

theorem close {m : Nat} (h : Serves s epoch cid k n (⟨cid, .held 0 m true⟩ :: ops) x)
    (hcid : x.cid = cid) (hrefs : x.refs = 1) {fd : Fd} (hfd : x.fd = some fd) :
    ∃ s', Step s (.close 0) s' ∧ Serves s' epoch cid k (if n > 0 then n - 1 else n)
      (⟨cid, .closing ⟨fd, 0, x.frees⟩ .done⟩ :: ops)
      ({ x with closing := true, refs := x.refs - 1 } : Session).free := by
  have hs := @Step.close s ⟨cid, .held 0 m true⟩ 0 m 0 h.head rfl
  have hlast : x.refs - 1 = 0 := by omega
  have hsettle := h.settle { x with closing := true, refs := x.refs - 1 } hcid hlast hfd .done
  rw [Broker.sessionClose, h.slot] at hs
  exact ⟨_, hs, hsettle⟩

theorem clientGone (h : Serves s epoch cid k n ops x) : ∃ s', Step s (.clientGone cid) s' ∧
      Serves s' epoch cid k n (⟨cid, .go (.gone 0)⟩ :: ops) x :=
  ⟨_, .clientGone cid,
    congrArg _ h.ops, h.slot, h.entry, h.epoch, h.rate, h.perCid⟩

theorem goneSlot (h : Serves s epoch cid k n (⟨cid, .go (.gone 0)⟩ :: ops) x)
    (hin : x.inUse = true) (hcl : x.closing = false) (hcid : x.cid = cid) (hrefs : x.refs = 0)
    {fd : Fd} (hfd : x.fd = some fd) :
    ∃ s', Step s (.goneSlot 0) s' ∧ Serves s' epoch cid k (if n > 0 then n - 1 else n)
      (⟨cid, .closing ⟨fd, 0, x.frees⟩ (.gone 1)⟩ :: ops)
      ({ x with closing := true } : Session).free := by
  have hs := @Step.goneSlot s ⟨cid, .go (.gone 0)⟩ 0 0 h.head rfl
  have hsettle := h.settle { x with closing := true } hcid hrefs hfd (.gone 1)
  rw [Broker.goneSlot, h.slot, if_pos ⟨hin, hcl, hcid⟩] at hs
  exact ⟨_, hs, hsettle⟩

theorem closeFd {c : Closing} {next : Cont}
    (h : Serves s epoch cid k n (⟨cid, .closing c next⟩ :: ops) x) :
    ∃ s', Step s (.closeFd c.fd) s' ∧ Serves s' epoch cid k n (⟨cid, .go next⟩ :: ops) x ∧
      s'.closed = c :: s.closed := by
  obtain ⟨hops, hslot, hentry, hepoch, hrate, hper⟩ := h.goto (.go next)
  exact ⟨_, @Step.closeFd s ⟨cid, .closing c next⟩ c next h.head rfl,
    ⟨hops, hslot, hentry, hepoch, hrate, hper⟩, rfl⟩

/-- The first request of a guest, right after `iav_broker_init`. -/
theorem start (epoch perCid cid : UInt32) (hepoch : epoch ≠ 0) :
    ∃ s', Step (.start (.init epoch perCid 0)) (.enter cid) s' ∧
      Serves s' epoch cid 0 0 [⟨cid, .entered⟩] .init := by
  have hcid : (Broker.init epoch perCid 0).cidState cid 0
      = some (0, { Broker.init epoch perCid 0 with
          cids := update (fun _ => none) 0 (some ⟨cid, 0, 0⟩) }) := by
    unfold Broker.cidState
    rfl
  refine ⟨_, .enter hcid, rfl, rfl, ⟨?_, rfl⟩, if_neg hepoch, rfl, ?_⟩
  · rw [Fin.find?_eq_some_iff]
    refine ⟨?_, fun j hj => absurd hj (Fin.not_lt_zero j)⟩
    exact beq_self_eq_true cid
  · show 0 < if perCid = 0 then IAV_BROKER_DEFAULT_PER_CID else perCid
    split
    · decide
    · rename_i hz
      exact Nat.pos_of_ne_zero fun he => hz (UInt32.toNat_inj.mp he)

end Serves

end AmbaVirt.Iav
