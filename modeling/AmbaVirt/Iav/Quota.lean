/-
The sessions of a guest: the counter of its entry, and the slots in use.

`Counts` says that the two agree. Every section keeps it so, and takes an
entry from its guest only when the counter is 0 (`Sound`); the entry of a
guest with a session is therefore there when the session is freed, and
the decrement finds it.

A slot can be freed a second time: an OPEN goes on with its slot after a
request that guessed the handle has closed it. The slot has cid 0 by then.
No guest has that cid, so the second free counts down no guest's entry;
an entry of cid 0 is the only one `Counts` bounds from one side only.
-/
import AmbaVirt.Lib.Table
import AmbaVirt.Iav.Serve

namespace AmbaVirt.Iav

open Lib Function

-- ==== the invariant

/-- 1 for a slot that `cid` uses. -/
def Session.uses (x : Session) (cid : UInt32) : Nat :=
  if x.inUse = true ∧ x.cid = cid then 1 else 0

/-- The counters of the entries `cids`, where cid `q` uses `used q` slots. -/
structure Counts (max : UInt32) (cids : Fin 16 → Option CidState) (used : UInt32 → Nat) :
    Prop where
  one : ∀ ⦃k k' c c'⦄, cids k = some c → cids k' = some c' → c.cid = c'.cid → k = k'
  le : ∀ ⦃k c⦄, cids k = some c → c.sessions.toNat ≤ used c.cid
  eq : ∀ ⦃k c⦄, cids k = some c → c.cid ≠ 0 → c.sessions.toNat = used c.cid
  max : ∀ ⦃k c⦄, cids k = some c → c.sessions ≤ max
  listed : ∀ ⦃q⦄, q ≠ 0 → used q ≠ 0 → ∃ k c, cids k = some c ∧ c.cid = q

/-- Every entry with a session stays with its cid. -/
def Keeps (cids cids' : Fin 16 → Option CidState) : Prop :=
  ∀ ⦃k c⦄, cids k = some c → c.sessions = 0 ∨ ∃ c', cids' k = some c' ∧ c'.cid = c.cid

/-- Entry `k` is the one of `c.cid`, as `c`, or may be given to it. -/
structure Holds (cids : Fin 16 → Option CidState) (k : Fin 16) (c : CidState) : Prop where
  own : cids k = some c ∨ c.sessions = 0 ∧ ∀ ⦃j d⦄, cids j = some d → d.cid ≠ c.cid
  idle : ∀ ⦃d⦄, cids k = some d → d.cid = c.cid ∨ d.sessions = 0

section

variable {max : UInt32} {cids : Fin 16 → Option CidState} {u v : UInt32 → Nat}
  {k : Fin 16} {c e : CidState}

/-- What the entry of a cid says, also before it is made. -/
theorem Counts.holds (h : Counts max cids u) (hk : Holds cids k c) :
    c.sessions.toNat ≤ u c.cid ∧ (c.cid ≠ 0 → c.sessions.toNat = u c.cid) ∧ c.sessions ≤ max := by
  rcases hk.own with hc | ⟨hz, hnone⟩
  · exact ⟨h.le hc, h.eq hc, h.max hc⟩
  rw [hz]
  refine ⟨Nat.zero_le _, fun hne => ?_, UInt32.le_iff_toNat_le.mpr (Nat.zero_le _)⟩
  by_contra hpos
  obtain ⟨j, d, hd, he⟩ := h.listed hne (Ne.symm hpos)
  exact hnone hd he

/-- The entry of a cid is written, and its use changes. -/
theorem Counts.write (h : Counts max cids u) (hk : Holds cids k c) (hcid : e.cid = c.cid)
    (hu : ∀ q, q ≠ c.cid → v q = u q) (hle : e.sessions.toNat ≤ v c.cid)
    (heq : c.cid ≠ 0 → e.sessions.toNat = v c.cid) (hmax : e.sessions ≤ max) :
    Counts max (update cids k (some e)) v ∧
      Keeps cids (update cids k (some e)) := by
  obtain ⟨hown, hidle⟩ := hk
  obtain ⟨hone, hle', heq', hmax', hlisted⟩ := h
  refine ⟨⟨?_, ?_, ?_, ?_, ?_⟩, ?_⟩
  · grind [update_apply]
  · grind [update_apply]
  · grind [update_apply]
  · grind [update_apply]
  · intro q hq hpos
    by_cases he : q = c.cid
    · exact ⟨k, e, by simp, hcid.trans he.symm⟩
    obtain ⟨j, d, hd, rfl⟩ := hlisted hq (hu q he ▸ hpos)
    have hj : j ≠ k := by
      rintro rfl
      have hz := (hidle hd).resolve_left he
      exact hpos (by rw [hu _ he, ← heq' hd hq, hz]; rfl)
    exact ⟨j, d, by simp [hj, hd], rfl⟩
  · intro j d hd
    grind [update_apply]

end

namespace Broker

/-- `iav_broker_cid_sessions`. -/
def cidSessions (b : Broker) (cid : UInt32) : Nat := ∑ i, (b.sess i).uses cid

structure Counted (b : Broker) : Prop where
  counts : Counts b.maxSessionsPerCid b.cids b.cidSessions
  unused : ∀ ⦃i⦄, (b.sess i).inUse = false → (b.sess i).cid = 0

structure Sound (b b' : Broker) : Prop where
  counted : b'.Counted
  keeps : Keeps b.cids b'.cids

variable {b b' : Broker} {i : Fin 64} {k : Fin 16} {cid : UInt32} {now : UInt64}
  {y : Session} {c : CidState}

theorem Counted.refl (h : b.Counted) : b.Sound b := ⟨h, fun _ c hc => .inr ⟨c, hc, rfl⟩⟩

theorem uses_of_ne (h : cid ≠ y.cid) : y.uses cid = 0 := if_neg fun hy => h hy.2.symm

theorem cidSessions_update (hs : b'.sess = update b.sess i y) (cid : UInt32) :
    b'.cidSessions cid + (b.sess i).uses cid = b.cidSessions cid + y.uses cid := by
  have h := sum_update (fun x : Session => x.uses cid) b.sess i y
  rw [← hs] at h
  exact h

theorem Counted.unused_update (h : b.Counted) (hs : b'.sess = update b.sess i y)
    (hy : y.inUse = false → y.cid = 0) ⦃j : Fin 64⦄ (hj : (b'.sess j).inUse = false) :
    (b'.sess j).cid = 0 := by
  have := h.unused (i := j)
  rw [hs, update_apply] at hj ⊢
  grind

/-- Entry `k` and slot `i` are written; both are `c.cid`'s. -/
theorem Counted.write (h : b.Counted) (hk : Holds b.cids k c) {n : UInt32} {t : UInt64}
    (hcids : b'.cids = update b.cids k (some ⟨c.cid, n, t⟩))
    (hs : b'.sess = update b.sess i y)
    (hm : b'.maxSessionsPerCid = b.maxSessionsPerCid)
    (hslot : ∀ q, q ≠ c.cid → (b.sess i).uses q = y.uses q)
    (hy : y.inUse = false → y.cid = 0)
    (hn : ∀ u u' : Nat, c.sessions.toNat ≤ u → (c.cid ≠ 0 → c.sessions.toNat = u) →
      u' + (b.sess i).uses c.cid = u + y.uses c.cid →
      n.toNat ≤ u' ∧ (c.cid ≠ 0 → n.toNat = u'))
    (hmax : n ≤ b.maxSessionsPerCid) : b.Sound b' := by
  obtain ⟨hle, heq, -⟩ := h.counts.holds hk
  obtain ⟨hle', heq'⟩ := hn _ _ hle heq (cidSessions_update hs c.cid)
  have hw := h.counts.write (e := ⟨c.cid, n, t⟩) (v := b'.cidSessions) hk rfl (fun q hq => ?_)
    hle' heq' hmax
  · rw [← hcids, ← hm] at hw
    exact ⟨⟨hw.1, h.unused_update hs hy⟩, hw.2⟩
  · have hsum := cidSessions_update hs q
    rw [hslot q hq] at hsum
    exact Nat.add_right_cancel hsum

theorem Counted.setSess (h : b.Counted)
    (hy : y.inUse = (b.sess i).inUse ∧ y.cid = (b.sess i).cid) : b.Sound (b.setSess i y) := by
  have huses : (b.setSess i y).cidSessions = b.cidSessions := by
    funext q
    have hsum := cidSessions_update (setSess_sess (b := b) (i := i) (x := y)) q
    rw [Session.uses, Session.uses, hy.1, hy.2] at hsum
    exact Nat.add_right_cancel hsum
  refine ⟨⟨?_, h.unused_update rfl fun hn => ?_⟩, h.refl.keeps⟩
  · rw [huses]
    exact h.counts
  · rw [hy.2]
    exact h.unused (hy.1 ▸ hn)

-- ==== entries

/-- Only an entry without a session is reused. -/
theorem idlest_spec {t : UInt64} (h : b.idlest = some (k, t)) :
    ∃ c, b.cids k = some c ∧ c.sessions = 0 := by
  revert h
  refine List.foldlRecOn (motive := fun best : Option (Fin 16 × UInt64) =>
    best = some (k, t) → ∃ c, b.cids k = some c ∧ c.sessions = 0) _ _ (by simp) ?_
  intro best ih j _ h
  grind

theorem cidState_holds (h : b.cidState cid now = some (k, b')) : ∃ c, c.cid = cid ∧
    b'.cids = update b.cids k (some c) ∧ Holds b.cids k c := by
  unfold cidState at h
  cases hf : Fin.find? fun k => (b.cids k).any (·.cid == cid) with
  | some j =>
    rw [hf] at h
    cases h
    obtain ⟨c, hc, he⟩ := (Option.any_eq_true _ _).mp (Fin.eq_true_of_find?_eq_some hf)
    refine ⟨c, by simpa using he, by rw [← hc, update_eq_self], .inl hc, ?_⟩
    grind
  | none =>
    rw [hf] at h
    obtain ⟨j, hj, he⟩ := Option.map_eq_some_iff.mp h
    obtain ⟨rfl, rfl⟩ := Prod.mk.inj he
    refine ⟨⟨cid, 0, now⟩, rfl, rfl, .inr ⟨rfl, fun j' d hd => ?_⟩, fun d hd => .inr ?_⟩
    · simpa [hd] using Fin.eq_false_of_find?_eq_none hf j'
    rcases Option.or_eq_some_iff.mp hj with hfree | ⟨-, hidle⟩
    · have := Fin.eq_true_of_find?_eq_some hfree
      simp [hd] at this
    obtain ⟨⟨_, t⟩, hlast, rfl⟩ := Option.map_eq_some_iff.mp hidle
    obtain ⟨d', hd', hz⟩ := idlest_spec hlast
    cases hd.symm.trans hd'
    exact hz

theorem rateCheck_cids (now : UInt64) (hk : b.cids k = some c) : ∃ t, (b.rateCheck k now).cids
    = update b.cids k (some ⟨c.cid, c.sessions, t⟩) := by
  unfold rateCheck
  split
  · exact ⟨c.lastMs, by rw [← hk, update_eq_self]⟩
  · exact ⟨_, by rw [hk]; rfl⟩

theorem Counted.enter (h : b.Counted) (hk : b.cidState cid now = some (k, b')) :
    b.Sound b' ∧ b.Sound (b'.rateCheck k now) := by
  obtain ⟨c, rfl, hcids, hold⟩ := cidState_holds hk
  obtain ⟨hs, hcfg⟩ := cidState_frame hk
  obtain ⟨hs', hcfg'⟩ := @rateCheck_frame b' now k
  have hself : b.sess = update b.sess 0 (b.sess 0) := by
    rw [update_eq_self]
  have hmax := (h.counts.holds hold).2.2
  have hwrite {b'' : Broker} {t : UInt64}
      (hc : b''.cids = update b.cids k (some ⟨c.cid, c.sessions, t⟩))
      (hs : b''.sess = b.sess) (hm : b''.maxSessionsPerCid = b.maxSessionsPerCid) :
      b.Sound b'' :=
    h.write hold hc (hs.trans hself) hm (fun _ _ => rfl) (fun hn => h.unused hn)
      (fun u u' hle heq hu => (Nat.add_right_cancel hu) ▸ ⟨hle, heq⟩) hmax
  refine ⟨hwrite hcids hs hcfg.perCid, ?_⟩
  obtain ⟨t, ht⟩ := rateCheck_cids now (b := b') (c := c) (k := k)
    (by rw [hcids, update_self])
  rw [hcids, update_idem] at ht
  exact hwrite ht (hs'.trans hs) (hcfg'.perCid.trans hcfg.perCid)

-- ==== sessions come and go

theorem toNat_countdown (n : UInt32) : (if n > 0 then n - 1 else n).toNat = n.toNat - 1 := by
  have hpos : n > 0 ↔ 1 ≤ n.toNat := UInt32.lt_iff_toNat_lt
  split
  · rename_i hn
    exact UInt32.toNat_sub_of_le _ _ (UInt32.le_iff_toNat_le.mpr (hpos.mp hn))
  · rename_i hn
    rw [hpos] at hn
    omega

theorem Counted.sessionFreeLocked (h : b.Counted) (i : Fin 64) (now : UInt64) :
    b.Sound (b.sessionFreeLocked i now).1 := by
  have hfree (q : UInt32) : (b.sess i).free.uses q = 0 := by
    simp [Session.uses, Session.free]
  unfold Broker.sessionFreeLocked
  dsimp only
  cases hcs : b.cidState (b.sess i).cid now with
  | none =>
    -- no entry has the cid of the slot, and no count of an entry changes
    have hnone ⦃k c⦄ (hc : b.cids k = some c) : c.cid ≠ (b.sess i).cid := by
      unfold cidState at hcs
      split at hcs
      · cases hcs
      · rename_i hf
        simpa [hc] using Fin.eq_false_of_find?_eq_none hf k
    have hsum (q : UInt32) :=
      cidSessions_update (setSess_sess (b := b) (i := i) (x := (b.sess i).free)) q
    have hsame ⦃k c⦄ (hc : b.cids k = some c) :
        (b.setSess i (b.sess i).free).cidSessions c.cid = b.cidSessions c.cid := by
      simpa [hfree, uses_of_ne (hnone hc)] using hsum c.cid
    dsimp only
    refine ⟨⟨⟨h.counts.one, ?_, ?_, h.counts.max, ?_⟩, h.unused_update rfl fun _ => rfl⟩,
      h.refl.keeps⟩
    · exact fun k c hc => (h.counts.le hc).trans_eq (hsame hc).symm
    · exact fun k c hc hne => (h.counts.eq hc hne).trans (hsame hc).symm
    intro q hq hpos
    have := hsum q
    rw [hfree] at this
    exact h.counts.listed hq fun hz => hpos (by omega)
  | some r =>
    obtain ⟨k, b₁⟩ := r
    obtain ⟨c, hcid, hcids, hold⟩ := cidState_holds hcs
    obtain ⟨hs, hcfg⟩ := cidState_frame hcs
    have hmax := UInt32.le_iff_toNat_le.mp (h.counts.holds hold).2.2
    have hdec := toNat_countdown c.sessions
    refine h.write (n := if c.sessions > 0 then c.sessions - 1 else c.sessions)
      (t := c.lastMs) hold ?_ (congrArg (update · i _) hs) hcfg.perCid ?_
      (fun _ => rfl) ?_ ?_
    · show update b₁.cids k ((b₁.cids k).map _) = _
      rw [hcids, update_self, update_idem]
      rfl
    · intro q hq
      rw [hfree, uses_of_ne (hcid ▸ hq)]
    · intro u u' hle heq hsum
      rw [hfree, Session.uses] at hsum
      have := h.unused (i := i)
      grind
    · rw [UInt32.le_iff_toNat_le]
      omega

theorem Counted.settle (h : b.Counted) {p : Prop} [Decidable p]
    (hy : y.inUse = (b.sess i).inUse ∧ y.cid = (b.sess i).cid) (now : UInt64) :
    b.Sound (b.settle i y p now).1 := by
  have hset := h.setSess hy
  unfold Broker.settle
  dsimp only
  split
  · have hfree := hset.counted.sessionFreeLocked i now
    exact ⟨hfree.counted, hfree.keeps⟩
  · exact hset

theorem Counted.openReserve (h : b.Counted) {o : Option (Fin 64)}
    (hr : b.openReserve cid now = (b', o)) : b.Sound b' := by
  unfold Broker.openReserve at hr
  cases hcs : b.cidState cid now with
  | none =>
    rw [hcs] at hr
    cases hr
    exact h.refl
  | some r =>
    obtain ⟨k, b₁⟩ := r
    have hentered := (h.enter hcs).1
    obtain ⟨c, rfl, hcids, hold⟩ := cidState_holds hcs
    obtain ⟨hs, hcfg⟩ := cidState_frame hcs
    have hown : b₁.cids k = some c := by rw [hcids, update_self]
    rw [hcs] at hr
    dsimp only at hr
    split at hr
    · cases hr
      exact hentered
    rename_i hroom
    split at hr
    · cases hr
      exact hentered
    rename_i j hj
    obtain ⟨rfl, -⟩ := Prod.mk.inj hr
    have hfree : (b.sess j).inUse = false := by
      simpa [hs] using Fin.eq_true_of_find?_eq_some hj
    have hlt : c.sessions < b.maxSessionsPerCid := by
      simpa [Broker.sessions, hown, hcfg.perCid] using hroom
    have hadd : (c.sessions + 1).toNat = c.sessions.toNat + 1 := by
      have := b.maxSessionsPerCid.toNat_lt
      rw [UInt32.lt_iff_toNat_lt] at hlt
      rw [UInt32.toNat_add]
      exact Nat.mod_eq_of_lt (by show _ + 1 < _; omega)
    rw [UInt32.lt_iff_toNat_lt] at hlt
    refine h.write (n := c.sessions + 1) (t := c.lastMs) (i := j)
      (y := (b.sess j).reserve c.cid) hold ?_ ?_ hcfg.perCid ?_ nofun ?_ ?_
    · show update b₁.cids k ((b₁.cids k).map _) = _
      rw [hcids, update_self, update_idem]
      rfl
    · show update b₁.sess j _ = _
      rw [hs]
    · intro q hq
      rw [uses_of_ne (y := (b.sess j).reserve c.cid) hq, Session.uses, hfree]
      simp
    · intro u u' hle heq hsum
      simp only [Session.uses, hfree, Session.reserve] at hsum
      grind
    · rw [UInt32.le_iff_toNat_le]
      omega

end Broker

-- ==== the broker

theorem Step.sound {s s' : State} {e : Event} (hst : Step s e s') (h : s.Counted) :
    s.Sound s'.toBroker := by
  cases hst with
  | enter hk | limited _ hk => exact (h.enter hk).2
  | reserve _ _ hr | openFull _ _ hr => exact h.openReserve hr
  | @abandon op i now =>
    exact h.settle (y := { s.sess i with refs := 0 }) ⟨rfl, rfl⟩ now
  | @publish op i fd now b _ _ hr | @connReset op i fd now b cfd _ _ hr =>
    have hset := h.settle (y := { s.sess i with fd := some fd, lastUsedMs := now, refs := 0 })
      (p := (s.sess i).closing = true) ⟨rfl, rfl⟩ now
    rw [show Broker.settle _ _ _ _ _ = _ from hr] at hset
    exact hset
  | acquire _ _ _ hr =>
    obtain ⟨-, rfl⟩ := Broker.sessionAcquire_ok hr
    exact h.setSess ⟨rfl, rfl⟩
  | @release op i n now =>
    exact h.settle (y := { s.sess i with refs := (s.sess i).refs - 1 }) ⟨rfl, rfl⟩ now
  | @close op i n now =>
    exact h.settle (y := { s.sess i with closing := true, refs := (s.sess i).refs - 1 })
      ⟨rfl, rfl⟩ now
  | @goneSlot op i now =>
    unfold Broker.goneSlot
    dsimp only
    split
    · exact h.settle (y := { s.sess i with closing := true }) ⟨rfl, rfl⟩ now
    · exact h.refl
  | @reapSlot op start idleMs i now =>
    unfold Broker.reapSlot
    dsimp only
    split
    · exact h.settle (y := { s.sess i with closing := true }) ⟨rfl, rfl⟩ now
    · exact h.refl
  | _ => exact h.refl

theorem counted_reachable {s : State} (h : brokerSystem.Reachable s) : s.Counted := by
  refine h.induct (I := fun s => s.Counted) ?_ fun _ _ _ _ hs hst => (hst.sound hs).counted
  rintro s ⟨random, maxPerCid, rate, rfl⟩
  refine ⟨⟨nofun, nofun, nofun, nofun, fun cid _ hpos => absurd ?_ hpos⟩, fun _ _ => rfl⟩
  exact Finset.sum_eq_zero fun i _ => if_neg fun hx => Bool.false_ne_true hx.1

/-- The sessions of every guest, over any run: the counter of its entry is
the number of slots it uses and within the configured limit, it has one
entry at most, and none only without a session; and a step that gives the
entry to another cid finds no session. Cid 0 is no guest's. -/
theorem session_accounting (s : State) (h : brokerSystem.Reachable s) :
    (∀ k c, s.cids k = some c → c.sessions.toNat ≤ s.cidSessions c.cid ∧
      (c.cid ≠ 0 → c.sessions.toNat = s.cidSessions c.cid) ∧
      c.sessions ≤ s.maxSessionsPerCid) ∧
    (∀ k k' c c', s.cids k = some c → s.cids k' = some c' → c.cid = c'.cid → k = k') ∧
    (∀ cid, cid ≠ 0 → (∀ k c, s.cids k = some c → c.cid ≠ cid) → s.cidSessions cid = 0) ∧
    ∀ e s' k c, Step s e s' → s.cids k = some c → (∀ c', s'.cids k = some c' → c'.cid ≠ c.cid) →
      c.sessions = 0 ∧ (c.cid ≠ 0 → s.cidSessions c.cid = 0) := by
  have hcounted := counted_reachable h
  have hcounts := hcounted.counts
  refine ⟨?_, fun k k' c c' hc hc' he => hcounts.one hc hc' he, ?_, ?_⟩
  · exact fun k c hc => ⟨hcounts.le hc, hcounts.eq hc, hcounts.max hc⟩
  · intro cid hne hnone
    by_contra hpos
    obtain ⟨k, c, hc, he⟩ := hcounts.listed hne hpos
    exact hnone k c hc he
  · intro e s' k c hst hc hgone
    have hzero : c.sessions = 0 := by
      rcases (hst.sound hcounted).keeps hc with hz | ⟨c', hc', he⟩
      · exact hz
      · exact absurd he (hgone c' hc')
    refine ⟨hzero, fun hne => ?_⟩
    rw [← hcounts.eq hc hne, hzero]
    rfl

/-- Cid 3 is in an OPEN: its entry counts one session. -/
theorem session_accounting_open : ∃ s k c, brokerSystem.Reachable s ∧ s.cids k = some c ∧
    c.cid = 3 ∧ c.sessions = 1 ∧ s.cidSessions 3 = 1 := by
  obtain ⟨s₁, st₁, v₁⟩ := Serves.start 5 0 3 (by decide)
  obtain ⟨s₂, st₂, v₂⟩ := v₁.reserve rfl
  have h₀ : brokerSystem.Reachable (.start (.init 5 0 0)) := .init ⟨5, 0, 0, rfl⟩
  have h₂ := (h₀.step st₁).step st₂
  obtain ⟨c, hc, he⟩ := (Option.any_eq_true _ _).mp (Fin.eq_true_of_find?_eq_some v₂.entry.find)
  have hcid : c.cid = 3 := by simpa using he
  have hone : c.sessions = 1 := by
    have hs := v₂.entry.sessions
    rw [Broker.sessions, hc] at hs
    exact hs
  have hcount := ((session_accounting s₂ h₂).1 0 c hc).2.1 (by rw [hcid]; decide)
  refine ⟨s₂, 0, c, h₂, hc, hcid, hone, ?_⟩
  rw [← hcid, ← hcount, hone]
  rfl

end AmbaVirt.Iav
