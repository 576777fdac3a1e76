/-
Handles: what one proves, and how long a dead one stays dead.

A handle packs the broker's epoch, the slot and the slot's generation.
The generation moves on each time the slot is freed and skips 0, so it
comes back after 65535 frees (`gen_eq`). The free that ends a session is
the first of them, so the handle is good again after 65534 more
(`handle_returns`).

The runs here include restarts: a restart is a new process with a new
table and an epoch of its own.
-/
import AmbaVirt.Iav.Serve

namespace AmbaVirt.Iav

open Lib Function

-- ==== restarts

inductive LifeEvent
  | step (e : Event)
  | restart (epoch : UInt32)

/-- The broker and its restarts, which leave nothing behind. -/
inductive LifeStep (s : State) : LifeEvent → State → Prop
  | step {e s'} : Step s e s' → LifeStep s (.step e) s'
  | restart (random maxPerCid rate) :
      LifeStep s (.restart (Broker.init random maxPerCid rate).epoch)
        (.start (.init random maxPerCid rate))

def lifeSystem : System State LifeEvent where
  init := brokerSystem.init
  step := LifeStep

/-- The cid of the last OPEN that reserved slot `i`, since the broker
started. -/
def lastOpener (i : Fin 64) (es : List LifeEvent) : Option UInt32 :=
  es.foldl (fun o e => match e with
      | .step (.reserve cid j) => if j = i then some cid else o
      | .step _ => o
      | .restart _ => none)
    none

-- ==== what a step can do

/-- A session that is neither freed nor reserved. -/
structure Session.Kept (x y : Session) : Prop where
  gen : y.gen = x.gen
  frees : y.frees = x.frees
  inUse : y.inUse = x.inUse
  cid : y.cid = x.cid

structure Session.Freed (x y : Session) : Prop where
  gen : y.gen = nextGen x.gen
  frees : y.frees = x.frees + 1
  inUse : y.inUse = false

theorem Session.Kept.refl (x : Session) : x.Kept x := ⟨rfl, rfl, rfl, rfl⟩

/-- What a section other than a reservation does to the sessions. -/
def Broker.Leaves (b b' : Broker) : Prop :=
  b.SameCfg b' ∧ ∃ i x, b'.sess = update b.sess i x ∧
    ((b.sess i).Kept x ∨ (b.sess i).Freed x)

namespace Broker

variable {b b' : Broker}

theorem Leaves.of_frame (hs : b'.sess = b.sess) (hc : b.SameCfg b') : b.Leaves b' :=
  ⟨hc, 0, b.sess 0, by rw [hs, update_eq_self], .inl (.refl _)⟩

theorem Leaves.refl (b : Broker) : b.Leaves b := .of_frame rfl (.refl b)

theorem settle_leaves (b : Broker) {i : Fin 64} {y : Session} {last : Prop}
    [Decidable last] {now : UInt64} (hy : (b.sess i).Kept y) :
    b.Leaves (b.settle i y last now).1 := by
  obtain ⟨hsess, hcfg⟩ := @settle_writes b i now y last _
  refine ⟨hcfg, i, _, hsess, ?_⟩
  split
  · exact .inr ⟨congrArg Session.nextGen hy.gen,
      congrArg (· + 1) hy.frees, rfl⟩
  · exact .inl hy

theorem sessionRelease_leaves (i : Fin 64) (now : UInt64) : b.Leaves (b.sessionRelease i now).1 :=
  b.settle_leaves ⟨rfl, rfl, rfl, rfl⟩

theorem sessionClose_leaves (i : Fin 64) (ownRef : Bool) (now : UInt64) :
    b.Leaves (b.sessionClose i ownRef now).1 :=
  b.settle_leaves ⟨rfl, rfl, rfl, rfl⟩

theorem goneSlot_leaves (cid : UInt32) (i : Fin 64) (now : UInt64) :
    b.Leaves (b.goneSlot cid i now).1 := by
  unfold goneSlot
  dsimp only
  split
  · exact b.settle_leaves ⟨rfl, rfl, rfl, rfl⟩
  · exact .refl b

theorem reapSlot_leaves (i : Fin 64) (start idleMs now : UInt64) :
    b.Leaves (b.reapSlot i start idleMs now).1 := by
  unfold reapSlot
  dsimp only
  split
  · exact b.settle_leaves ⟨rfl, rfl, rfl, rfl⟩
  · exact .refl b

theorem openFailed_leaves (i : Fin 64) (now : UInt64) : b.Leaves (b.openFailed i now) :=
  b.settle_leaves ⟨rfl, rfl, rfl, rfl⟩

theorem openDone_leaves {i : Fin 64} {fd : Fd} {now : UInt64}
    {cfd : Option Fd} (h : b.openDone i fd now = (b', cfd)) : b.Leaves b' := by
  have hl : b.Leaves (b.openDone i fd now).1 :=
    b.settle_leaves ⟨rfl, rfl, rfl, rfl⟩
  rw [h] at hl
  exact hl

end Broker

variable {s s' : State} {e : Event}

/-- A step reserves one slot for the cid it names, or reserves nothing
and keeps or frees one session. -/
theorem Step.leaves (h : Step s e s') : (∃ cid i, e = .reserve cid i ∧ (s.sess i).inUse = false ∧
      s.Writes i ((s.sess i).reserve cid) s'.toBroker) ∨
    ((∀ cid i, e ≠ .reserve cid i) ∧ s.toBroker.Leaves s'.toBroker) := by
  cases h with
  | enter hc | limited _ hc =>
    obtain ⟨hs, hcfg⟩ := Broker.cidState_frame hc
    obtain ⟨hs', hcfg'⟩ := Broker.rateCheck_frame _
    exact .inr ⟨nofun, .of_frame (hs'.trans hs) (hcfg.trans hcfg')⟩
  | reserve _ _ hr =>
    obtain ⟨hfree, hw⟩ := Broker.openReserve_some hr
    exact .inl ⟨_, _, rfl, hfree, hw⟩
  | openFull _ _ hr =>
    obtain ⟨hs, hcfg⟩ := Broker.openReserve_none hr
    exact .inr ⟨nofun, .of_frame hs hcfg⟩
  | abandon => exact .inr ⟨nofun, Broker.openFailed_leaves _ _⟩
  | publish _ _ hr | connReset _ _ hr => exact .inr ⟨nofun, Broker.openDone_leaves hr⟩
  | acquire closes _ _ hr =>
    obtain ⟨-, rfl⟩ := Broker.sessionAcquire_ok hr
    exact .inr ⟨nofun, ⟨rfl, rfl, rfl⟩, _, _, rfl, .inl ⟨rfl, rfl, rfl, rfl⟩⟩
  | release => exact .inr ⟨nofun, Broker.sessionRelease_leaves _ _⟩
  | close => exact .inr ⟨nofun, Broker.sessionClose_leaves _ _ _⟩
  | goneSlot => exact .inr ⟨nofun, Broker.goneSlot_leaves _ _ _⟩
  | reapSlot => exact .inr ⟨nofun, Broker.reapSlot_leaves _ _ _ _⟩
  | _ => exact .inr ⟨nofun, .refl _⟩

theorem Step.slot (h : Step s e s') (i : Fin 64) :
    (∃ cid, e = .reserve cid i ∧ s'.sess i = (s.sess i).reserve cid) ∨
    ((∀ cid, e ≠ .reserve cid i) ∧
      ((s.sess i).Kept (s'.sess i) ∨ (s.sess i).Freed (s'.sess i))) := by
  rcases h.leaves with ⟨cid, j, rfl, -, hw⟩ | ⟨hne, -, j, x, hs, hx⟩
  · by_cases hj : i = j
    · subst hj
      exact .inl ⟨cid, rfl, by rw [hw.sess, update_self]⟩
    refine .inr ⟨fun cid' he => ?_, .inl ?_⟩
    · cases he
      exact hj rfl
    · rw [hw.sess, update_of_ne hj]
      exact .refl _
  · refine .inr ⟨fun cid => hne cid i, ?_⟩
    by_cases hj : i = j
    · subst hj
      rw [hs, update_self]
      exact hx
    · rw [hs, update_of_ne hj]
      exact .inl (.refl _)

theorem Step.epoch (h : Step s e s') : s'.epoch = s.epoch := by
  rcases h.leaves with ⟨cid, j, -, -, hw⟩ | ⟨-, hcfg, -⟩
  · exact hw.cfg.epoch
  · exact hcfg.epoch

theorem Step.frees_le (h : Step s e s') (i : Fin 64) : (s.sess i).frees ≤ (s'.sess i).frees := by
  rcases h.slot i with ⟨cid, -, hx⟩ | ⟨-, hx | hx⟩
  · rw [hx]
    exact Nat.le_refl _
  · exact hx.frees.ge
  · rw [hx.frees]
    exact Nat.le_succ _

-- ==== generations

/-- The generation after so many frees. -/
def GenOk (x : Session) : Prop := x.gen.toNat = x.frees % 65535 + 1

variable {x : Session}

theorem GenOk.kept {y : Session} (h : GenOk x) (hk : x.Kept y) : GenOk y := by
  rw [GenOk, hk.gen, hk.frees]
  exact h

theorem GenOk.freed {y : Session} (h : GenOk x) (hf : x.Freed y) :
    GenOk y := by
  unfold GenOk at h ⊢
  rw [hf.gen, hf.frees, Session.nextGen]
  have hsum : (x.gen + 1).toNat = (x.gen.toNat + 1) % 65536 := UInt16.toNat_add ..
  split
  · rename_i hz
    rw [hz] at hsum
    have hzero : (0 : Nat) = (x.gen.toNat + 1) % 65536 := hsum
    show 1 = _
    omega
  · rename_i hz
    have hne : (x.gen + 1).toNat ≠ 0 := fun he => hz (UInt16.toNat_inj.mp he)
    omega

variable {i : Fin 64}

theorem Step.genOk (h : Step s e s') (hg : GenOk (s.sess i)) : GenOk (s'.sess i) := by
  rcases h.slot i with ⟨cid, -, hx⟩ | ⟨-, hx | hx⟩
  · rw [hx]
    exact hg
  · exact hg.kept hx
  · exact hg.freed hx

theorem genOk_init (h : brokerSystem.init s) (i : Fin 64) : GenOk (s.sess i) := by
  obtain ⟨random, maxPerCid, rate, rfl⟩ := h
  rfl

theorem genOk_reachable (h : lifeSystem.Reachable s) (i : Fin 64) : GenOk (s.sess i) := by
  refine h.induct (I := fun s => ∀ i, GenOk (s.sess i)) ?_ ?_ i
  · intro s hs
    exact genOk_init hs
  intro s e s' _ hI hs i
  cases hs with
  | step hst => exact hst.genOk (hI i)
  | restart random maxPerCid rate => exact genOk_init ⟨_, _, _, rfl⟩ i

-- ==== histories

variable {es : List LifeEvent}

/-- A session in use belongs to the cid that opened it last. -/
theorem lastOpener_eq {s₀ : State} (h₀ : lifeSystem.init s₀)
    (h : lifeSystem.Run s₀ es s) (i : Fin 64) (hin : (s.sess i).inUse = true) :
    lastOpener i es = some (s.sess i).cid := by
  refine h.induct (I := fun es s => ∀ i, (s.sess i).inUse = true →
    lastOpener i es = some (s.sess i).cid) ?_ ?_ i hin
  · intro i hin
    obtain ⟨random, maxPerCid, rate, rfl⟩ := h₀
    cases hin
  intro es s e s' _ hI hs i hin
  rw [lastOpener, List.foldl_append]
  cases hs with
  | restart random maxPerCid rate => cases hin
  | @step e s' hst =>
    rcases hst.slot i with ⟨cid, rfl, hx⟩ | ⟨hne, hx | hx⟩
    · rw [hx]
      exact if_pos rfl
    · rw [hx.inUse] at hin
      rw [hx.cid, ← hI i hin]
      cases e with
      | reserve cid j =>
        refine if_neg ?_
        rintro rfl
        exact hne cid rfl
      | _ => rfl
    · rw [hx.inUse] at hin
      cases hin

/-- Either the broker has not restarted, and its frees only grew, or it
runs with the epoch of one of the restarts. -/
theorem run_epoch {s₁ s₂ : State} (h : lifeSystem.Run s₁ es s₂) :
    .restart s₂.epoch ∈ es ∨ s₂.epoch = s₁.epoch ∧ ∀ i, (s₁.sess i).frees ≤ (s₂.sess i).frees := by
  refine h.induct (I := fun es s => .restart s.epoch ∈ es ∨
    s.epoch = s₁.epoch ∧ ∀ i, (s₁.sess i).frees ≤ (s.sess i).frees) ?_ ?_
  · exact .inr ⟨rfl, fun i => Nat.le_refl _⟩
  intro es s e s' _ hI hs
  cases hs with
  | restart random maxPerCid rate =>
    exact .inl (List.mem_append_right _ (List.mem_cons_self ..))
  | step hst =>
    rw [hst.epoch]
    rcases hI with hI | ⟨he, hle⟩
    · exact .inl (List.mem_append_left _ hI)
    · exact .inr ⟨he, fun i => (hle i).trans (hst.frees_le i)⟩

variable {cid : UInt32}

theorem Broker.Accepts.handle_eq {b : Broker} {h : UInt64} (ha : b.Accepts cid h i) :
    h = makeHandle b.epoch i (b.sess i).gen :=
  eq_makeHandle_iff.mpr ⟨ha.slot, ha.epoch, ha.gen.symm⟩

theorem makeHandle_inj {e e' : UInt32} {i' : Fin 64} {g g' : UInt16}
    (h : makeHandle e i g = makeHandle e' i' g') :
    e = e' ∧ i = i' ∧ g = g' := by
  obtain ⟨hs, he, hg⟩ := eq_makeHandle_iff.mp h
  obtain ⟨hs', he', hg'⟩ := eq_makeHandle_iff.mp (Eq.refl (makeHandle e i g))
  exact ⟨he'.symm.trans he, Option.some.inj (hs'.symm.trans hs), hg'.symm.trans hg⟩

/-- A handle whose session was freed is accepted again only after 65534
more frees of its slot, or with a repeated epoch. -/
theorem freed_handle_refused {s₁ s₂ : State} {j : Fin 64}
    (hr : lifeSystem.Reachable s) (hst : Step s e s₁)
    (hfreed : (s₁.sess i).frees = (s.sess i).frees + 1)
    (hrun : lifeSystem.Run s₁ es s₂)
    (ha : s₂.Accepts cid (makeHandle s.epoch i (s.sess i).gen) j) :
    .restart s.epoch ∈ es ∨ (s₁.sess i).frees + 65534 ≤ (s₂.sess i).frees := by
  obtain ⟨hepoch, rfl, hgen⟩ := makeHandle_inj ha.handle_eq
  have hr₁ : lifeSystem.Reachable s₁ := hr.step (e := .step e) (.step hst)
  have hg := genOk_reachable hr i
  have hg₂ := genOk_reachable (hr₁.run hrun) i
  unfold GenOk at hg hg₂
  rcases run_epoch hrun with hres | ⟨-, hle⟩
  · rw [hepoch]
    exact .inl hres
  have hle := hle i
  rw [hgen] at hg
  refine .inr ?_
  omega

def Steps (s s' : State) : Prop :=
  ∃ es, lifeSystem.Run s es s' ∧ ∀ epoch, .restart epoch ∉ es

namespace Steps

theorem refl (s : State) : Steps s s := ⟨[], .nil s, fun _ => List.not_mem_nil⟩

theorem step {s'' : State} (h : Steps s s') (hst : Step s' e s'') :
    Steps s s'' := by
  obtain ⟨es, hrun, hno⟩ := h
  have hlife : lifeSystem.step s' (.step e) s'' := .step hst
  refine ⟨es ++ [.step e], hrun.snoc hlife, fun epoch hm => ?_⟩
  rcases List.mem_append.mp hm with hm | hm
  · exact hno epoch hm
  · cases List.mem_singleton.mp hm

theorem trans {s'' : State} (h : Steps s s') (h' : Steps s' s'') :
    Steps s s'' := by
  obtain ⟨es, hrun, hno⟩ := h
  obtain ⟨es', hrun', hno'⟩ := h'
  refine ⟨es ++ es', hrun.append hrun', fun epoch hm => ?_⟩
  rcases List.mem_append.mp hm with hm | hm
  · exact hno epoch hm
  · exact hno' epoch hm

theorem reachable (h : Steps s s') (hr : lifeSystem.Reachable s) : lifeSystem.Reachable s' := by
  obtain ⟨es, hrun, -⟩ := h
  exact hr.run hrun

end Steps

-- ==== the checks

theorem Broker.sessionAcquire_makeHandle (b : Broker) (cid e : UInt32)
    (i : Fin 64) (g : UInt16) (now : UInt64) :
    b.sessionAcquire cid (makeHandle e i g) now =
      if e ≠ b.epoch ∨ (b.sess i).inUse = false ∨ (b.sess i).closing ∨
          (b.sess i).gen ≠ g then .error .ESTALE
      else if (b.sess i).cid ≠ cid then .error .EACCES
      else .ok (i, b.setSess i
        { b.sess i with refs := (b.sess i).refs + 1, lastUsedMs := now }) := by
  obtain ⟨hslot, hepoch, hgen⟩ :=
    eq_makeHandle_iff.mp (Eq.refl (makeHandle e i g))
  have hne : makeHandle e i g ≠ 0 := by
    intro hz
    rw [hz, show slotOf (0 &&& 0xffff) = none from rfl] at hslot
    cases hslot
  simp only [sessionAcquire, refuseIf, if_neg hne, hslot, hepoch, hgen, require, bind, Except.bind]
  by_cases hstale : e ≠ b.epoch ∨ (b.sess i).inUse = false ∨ (b.sess i).closing ∨ (b.sess i).gen ≠ g
  · rw [if_pos hstale, if_pos hstale]
  rw [if_neg hstale, if_neg hstale]
  by_cases hcid : (b.sess i).cid ≠ cid
  · rw [if_pos hcid, if_pos hcid]
  · rw [if_neg hcid, if_neg hcid]
    rfl

/-- What a handle is good for in state `s`, after the run `es`. -/
structure HandleAuthority (es : List LifeEvent) (s : State) : Prop where
  /-- What passes is the handle of a session in use that the caller was
  the last to open. -/
  passes : ∀ cid h now i b, s.sessionAcquire cid h now = .ok (i, b) →
    h = makeHandle s.epoch i (s.sess i).gen ∧ (s.sess i).inUse = true ∧ lastOpener i es = some cid
  /-- A step that frees slot `i` ends its handle, until 65534 more frees
  or a restart with the same epoch. -/
  ends : ∀ e s₁ i, Step s e s₁ → (s₁.sess i).frees = (s.sess i).frees + 1 →
    ∀ es₁ s₂, lifeSystem.Run s₁ es₁ s₂ → ∀ cid now r,
      s₂.sessionAcquire cid (makeHandle s.epoch i (s.sess i).gen) now = .ok r →
      .restart s.epoch ∈ es₁ ∨ (s₁.sess i).frees + 65534 ≤ (s₂.sess i).frees
  /-- A live handle of another guest. -/
  foreign : ∀ cid i now, (s.sess i).inUse = true →
    (s.sess i).closing = false → (s.sess i).cid ≠ cid →
    s.sessionAcquire cid (makeHandle s.epoch i (s.sess i).gen) now = .error .EACCES
  /-- A handle of another epoch, of a session that is closing or gone, or
  of another generation. -/
  dead : ∀ cid e i g now, (e ≠ s.epoch ∨ (s.sess i).inUse = false ∨ (s.sess i).closing = true ∨
      (s.sess i).gen ≠ g) →
    s.sessionAcquire cid (makeHandle e i g) now = .error .ESTALE
  /-- A refused request leaves the sessions as they are. -/
  refused : ∀ cid h err s', Step s (.refuse cid h err) s' → s'.sess = s.sess

/-- Over every run of the broker, restarts included. -/
theorem handle_authority {s₀ s : State} {es : List LifeEvent}
    (h₀ : lifeSystem.init s₀) (hrun : lifeSystem.Run s₀ es s) :
    HandleAuthority es s := by
  refine ⟨?_, ?_, ?_, ?_, ?_⟩
  · intro cid h now i b hok
    obtain ⟨ha, -⟩ := Broker.sessionAcquire_ok hok
    refine ⟨ha.handle_eq, ha.inUse, ?_⟩
    rw [lastOpener_eq h₀ hrun i ha.inUse, ha.cid]
  · rintro e s₁ i hst hfreed es₁ s₂ hrun₁ cid now ⟨j, b⟩ hok
    exact freed_handle_refused ⟨s₀, es, h₀, hrun⟩ hst hfreed hrun₁ (Broker.sessionAcquire_ok hok).1
  · intro cid i now hin hcl hcid
    rw [Broker.sessionAcquire_makeHandle, if_neg, if_pos hcid]
    rintro (hc | hc | hc | hc)
    · exact hc rfl
    · rw [hin] at hc
      cases hc
    · rw [hcl] at hc
      cases hc
    · exact hc rfl
  · intro cid e i g now hdead
    rw [Broker.sessionAcquire_makeHandle, if_pos hdead]
  · intro cid h err s' hst
    cases hst with
    | refuse => rfl

/-- After cid 3 has opened a session. -/
theorem handle_authority_opened : ∃ es s, (s.sess 0).inUse = true ∧
    (s.sess 0).cid = 3 ∧ HandleAuthority es s := by
  obtain ⟨s₁, st₁, v₁⟩ := Serves.start 5 0 3 (by decide)
  obtain ⟨s₂, st₂, v₂⟩ := v₁.reserve rfl
  obtain ⟨s₃, st₃, v₃⟩ := v₂.openReturns (List.mem_cons_self ..)
  obtain ⟨s₄, st₄, v₄⟩ := v₃.publish rfl rfl
  obtain ⟨es, hrun, -⟩ := ((((Steps.refl _).step st₁).step st₂).step st₃).step st₄
  exact ⟨_, s₄, by rw [v₄.slot]; rfl, by rw [v₄.slot]; rfl, handle_authority ⟨5, 0, 0, rfl⟩ hrun⟩

-- ==== the return

theorem Serves.failedOpen {epoch : UInt32} {k : Fin 16}
    (h : Serves s epoch cid k 0 [] x) (hfree : x.inUse = false) :
    ∃ s' y, Steps s s' ∧ Serves s' epoch cid k 0 [] y ∧ y.inUse = false ∧
      y.frees = x.frees + 1 := by
  obtain ⟨s₁, st₁, v₁⟩ := h.enter
  obtain ⟨s₂, st₂, v₂⟩ := v₁.reserve hfree
  obtain ⟨s₃, st₃, v₃⟩ := v₂.openFails
  obtain ⟨s₄, st₄, v₄⟩ := v₃.abandon rfl
  obtain ⟨s₅, st₅, v₅⟩ := v₄.finish
  exact ⟨s₅, _, ((((Steps.refl s).step st₁).step st₂).step st₃ |>.step st₄).step st₅, v₅, rfl, rfl⟩

theorem Serves.failedOpens {epoch : UInt32} {k : Fin 16}
    (h : Serves s epoch cid k 0 [] x) (hfree : x.inUse = false) (n : Nat) :
    ∃ s' y, Steps s s' ∧ Serves s' epoch cid k 0 [] y ∧
      y.inUse = false ∧ y.frees = x.frees + n := by
  induction n with
  | zero => exact ⟨s, x, .refl s, h, hfree, rfl⟩
  | succ n ih =>
    obtain ⟨s₁, y, hsteps, hv, hy, hfrees⟩ := ih
    obtain ⟨s₂, z, hsteps', hv', hz, hfrees'⟩ := hv.failedOpen hy
    exact ⟨s₂, z, hsteps.trans hsteps', hv', hz, by omega⟩

/-- Cid 3 opens slot 0 and closes it; 65534 OPENs then fail in the driver,
and after one more that succeeds the first handle is good again. -/
theorem handle_returns : ∃ s e s₁ s₂ es, lifeSystem.Reachable s ∧
    Step s e s₁ ∧ (s₁.sess 0).frees = (s.sess 0).frees + 1 ∧
    lifeSystem.Run s₁ es s₂ ∧ (∀ epoch, .restart epoch ∉ es) ∧
    (s₂.sess 0).frees = (s₁.sess 0).frees + 65534 ∧
    s₂.Accepts 3 (makeHandle s.epoch 0 (s.sess 0).gen) 0 := by
  obtain ⟨s₁, st₁, v₁⟩ := Serves.start 5 0 3 (by decide)
  obtain ⟨s₂, st₂, v₂⟩ := v₁.reserve rfl
  obtain ⟨s₃, st₃, v₃⟩ := v₂.openReturns (List.mem_cons_self ..)
  obtain ⟨s₄, st₄, v₄⟩ := v₃.publish rfl rfl
  obtain ⟨s₅, st₅, v₅⟩ := v₄.handle
  obtain ⟨s₆, st₆, v₆⟩ := v₅.finish
  obtain ⟨s₇, st₇, v₇⟩ := v₆.enter
  obtain ⟨s₈, st₈, v₈⟩ := v₇.acquire true rfl rfl rfl
  obtain ⟨s₉, st₉, v₉⟩ := v₈.close rfl rfl rfl
  have hr : lifeSystem.Reachable s₈ :=
    ((((((((Steps.refl _).step st₁).step st₂).step st₃).step st₄).step
      st₅).step st₆).step st₇).step st₈ |>.reachable (.init ⟨5, 0, 0, rfl⟩)
  obtain ⟨t₁, r₁, w₁, -⟩ := v₉.closeFd
  obtain ⟨t₂, r₂, w₂⟩ := w₁.finish
  obtain ⟨t₃, y, hsteps, w₃, hy, hfrees⟩ := w₂.failedOpens rfl 65534
  have hfreed : y.frees = 1 + 65534 := hfrees
  obtain ⟨t₄, r₄, w₄⟩ := w₃.enter
  obtain ⟨t₅, r₅, w₅⟩ := w₄.reserve hy
  obtain ⟨t₆, r₆, w₆⟩ := w₅.openReturns (List.mem_cons_self ..)
  obtain ⟨t₇, r₇, w₇⟩ := w₆.publish rfl rfl
  obtain ⟨es, hrun, hno⟩ := (((((((Steps.refl s₉).step r₁).step r₂).trans
    hsteps).step r₄).step r₅).step r₆).step r₇
  have hr₂ : lifeSystem.Reachable t₇ :=
    (((Steps.refl s₈).step st₉).reachable hr).run hrun
  have hfrees₉ : (s₉.sess 0).frees = 1 := by
    rw [v₉.slot]
    rfl
  have hfrees₇ : (t₇.sess 0).frees = 65535 := by
    rw [w₇.slot]
    show y.frees = 65535
    omega
  refine ⟨s₈, _, s₉, t₇, es, hr, st₉, ?_, hrun, hno, ?_, ?_⟩
  · rw [hfrees₉, v₈.slot]
    rfl
  · omega
  -- both generations are the one after a multiple of 65535 frees
  have hgen : (s₈.sess 0).gen = (t₇.sess 0).gen := by
    have hg := genOk_reachable hr₂ 0
    rw [GenOk, hfrees₇] at hg
    rw [v₈.slot, ← UInt16.toNat_inj, hg]
    rfl
  rw [hgen, v₈.epoch]
  refine .of_live w₇.epoch ?_ ?_ ?_
  · rw [w₇.slot]
    rfl
  · rw [w₇.slot]
    rfl
  · rw [w₇.slot]
    rfl

end AmbaVirt.Iav
