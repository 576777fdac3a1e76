/-
What holds in every reachable state of the low slice server.

- `Leases.Inv`: the lease table and the store (Leases.lean).
- `ArenaInv`: a marked slice is quarantined; the slice the scrubber works
  on is marked and not leased, and once its due check passed it stays
  due: quarantine refuses new jobs, and only a release or a reload
  touches the release time.
- `BindInv`: a binding is a lease's cid and slice, at every point of a
  command.

Each kind of step gets one lemma per invariant; `inv_reachable` puts
them together.
-/
import AmbaVirt.Low.Load

namespace AmbaVirt.Low

open Lib Function

variable {U : Type} {s s' : Server U} {e : Event U} {b : Binds}
  {x : Leases U} {l : Lease U} {k i : Fin 8}

-- ==== scrubber

namespace Scrubber

def slice : Scrubber → Option (Fin 8)
  | idle => none
  | pending i | due i | scrubbing i | scrubbed i => some i

def dueSlice : Scrubber → Option (Fin 8)
  | idle | pending _ => none
  | due i | scrubbing i | scrubbed i => some i

theorem slice_of_dueSlice {c : Scrubber}
    (h : c.dueSlice = some i) : c.slice = some i := by
  cases c <;> first | exact h | cases h

end Scrubber

-- ==== invariants

structure ArenaInv (s : Server U) : Prop where
  scrub_quarantined : ∀ ⦃i⦄, s.scrub i = true → (s.arena i).quarantined = true
  release_quarantined : ∀ ⦃k l⦄, s.admin = .quarantined k l → (s.arena l.index).quarantined = true
  scrubber_marked : ∀ ⦃i⦄, s.scrubber.slice = some i → s.scrub i = true ∧ ¬ s.IndexLeased i
  scrubber_due : ∀ ⦃i⦄, s.scrubber.dueSlice = some i → (s.arena i).ScrubDue s.now
  inflight_eq : ∀ i, (s.arena i).inflight = s.jobs.countP (·.index = i)

structure BindInv (s : Server U) : Prop where
  distinct : Binds.Distinct s.binds
  held : BindsHeld s.binds s.toLeases
  /-- A RESERVE_LOW that changes the cid has unbound the old one. -/
  found : ∀ ⦃k cid l⦄, s.admin = .found k cid → s.slots k = some l →
    l.cid ≠ cid → ∀ k' i, s.binds k' ≠ some (l.cid, i)
  unbound : ∀ ⦃k l⦄, s.admin = .unbound k l → ∀ k' i, s.binds k' ≠ some (l.cid, i)
  /-- A new lease is bound only after the save. -/
  filled : ∀ ⦃k l⦄, s.admin = .filled k → s.slots k = some l →
    ∀ k' c, s.binds k' ≠ some (c, l.index)

structure Server.Inv (s : Server U) : Prop where
  leases : s.toLeases.Inv
  arena : ArenaInv s
  binds : BindInv s

-- ==== the lease table

theorem Leases.Inv.slot_saved (h : x.Inv)
    (ha : x.admin = .quarantined k l ∨ x.admin = .unbound k l ∨
      x.admin = .restored k l ∨ x.admin = .reopened k l) :
    x.slots k = some l := by
  have hok := h.admin_ok
  rcases ha with e | e | e | e <;> rw [Leases.AdminOk, e] at hok
  · exact hok
  · exact hok.1
  · exact hok
  · exact hok

theorem ScrubStep.leases (hst : ScrubStep s e s') (h : s.toLeases.Inv) : s'.toLeases.Inv := by
  cases hst with
  | pending | due | start | done => exact h
  | clear hi hun => exact h.clear hun

theorem JobStep.leases (hst : JobStep s e s') : s'.toLeases = s.toLeases := by
  cases hst <;> rfl

-- ==== what steps keep

/-- A RESERVE_LOW marks nothing, and leases a slice that is not marked. -/
structure Leases.Takes (x x' : Leases U) : Prop where
  scrub : x'.scrub = x.scrub
  leased : ∀ ⦃i⦄, x'.IndexLeased i → x.IndexLeased i ∨ x.scrub i = false
  admin : ∀ k l, x'.admin ≠ .quarantined k l ∧ x'.admin ≠ .unbound k l

theorem Leases.takes_goto {a : Admin U} (ha : ∀ k l, a ≠ .quarantined k l ∧ a ≠ .unbound k l) :
    x.Takes (x.goto a) :=
  ⟨rfl, fun _ h => .inl h, ha⟩

theorem Leases.takes_fill {uuid : U} {cid : UInt32}
    (hi : x.freeIndex = some i) : x.Takes (x.fill uuid cid i) := by
  rw [Leases.fill]
  split
  · exact takes_goto (by simp)
  refine ⟨rfl, ?_, by simp⟩
  intro j hj
  rcases Leases.indexLeased_setSlot hj with ⟨_, ⟨⟩, rfl⟩ | hold
  · exact .inr (Leases.freeIndex_spec hi).2
  · exact .inl hold

theorem Leases.takes_search (x : Leases U) (uuid : U) (cid : UInt32) :
    x.Takes (x.search uuid cid) ∧ x.Takes (x.lastSearch uuid cid) := by
  unfold Leases.search Leases.lastSearch
  cases hi : x.freeIndex with
  | some i => exact ⟨Leases.takes_fill hi, Leases.takes_fill hi⟩
  | none =>
    refine ⟨?_, takes_goto (by simp)⟩
    dsimp only
    split <;> exact takes_goto (by simp)

theorem Leases.search_store (x : Leases U) (uuid : U) (cid : UInt32) :
    (x.search uuid cid).store = x.store ∧ (x.lastSearch uuid cid).store = x.store := by
  have hfill : ∀ i, (x.fill uuid cid i).store = x.store := by
    intro i
    rw [Leases.fill]
    split <;> rfl
  unfold Leases.search Leases.lastSearch
  cases x.freeIndex with
  | some i => exact ⟨hfill i, hfill i⟩
  | none =>
    refine ⟨?_, rfl⟩
    dsimp only
    split <;> rfl

theorem Leases.save_frame (x : Leases U) (ok : Bool) :
    (x.save ok).slots = x.slots ∧ (x.save ok).scrub = x.scrub ∧ (x.save ok).admin = x.admin := by
  cases ok <;> exact ⟨rfl, rfl, rfl⟩

theorem ArenaInv.slice_ne (h : ArenaInv s) (hl : s.slots k = some l)
    (hi : s.scrubber.slice = some i) : i ≠ l.index := by
  rintro rfl
  exact (h.scrubber_marked hi).2 (Leases.indexLeased_of_slot hl)

theorem setArena_self (s : Server U) (i : Fin 8) (f : ArenaSlot → ArenaSlot) :
    (s.setArena i f).arena i = f (s.arena i) :=
  update_self ..

theorem setArena_ne (s : Server U) {j : Fin 8} (f : ArenaSlot → ArenaSlot)
    (h : j ≠ i) : (s.setArena i f).arena j = s.arena j :=
  update_of_ne h ..

/-- What `f` leaves alone stays the same in every slot. -/
theorem setArena_same {α : Type} (s : Server U) (i j : Fin 8)
    {f : ArenaSlot → ArenaSlot} {g : ArenaSlot → α} (hf : ∀ a, g (f a) = g a) :
    g ((s.setArena i f).arena j) = g (s.arena j) := by
  by_cases hj : j = i
  · rw [hj, setArena_self, hf]
  · rw [setArena_ne s f hj]

section

variable (h : ArenaInv s)

include h

/-- A release or its undoing changes the quarantine of a leased slice,
so not of the scrubber's, and counts no job. -/
theorem ArenaInv.setArena_due (hl : s.slots k = some l) (f : ArenaSlot → ArenaSlot)
    ⦃i : Fin 8⦄ (hi : s.scrubber.dueSlice = some i) :
    ((s.setArena l.index f).arena i).ScrubDue s.now := by
  rw [setArena_ne s f (h.slice_ne hl (Scrubber.slice_of_dueSlice hi))]
  exact h.scrubber_due hi

theorem ArenaInv.setArena_inflight {j : Fin 8}
    {f : ArenaSlot → ArenaSlot} (hf : ∀ a, (f a).inflight = a.inflight)
    (i : Fin 8) : ((s.setArena j f).arena i).inflight = s.jobs.countP (·.index = i) :=
  (setArena_same s j i hf).trans (h.inflight_eq i)

-- ==== scrubber and jobs

/-- The scrubber moves to a slice it may work on. -/
theorem ArenaInv.setScrubber (c : Scrubber)
    (hm : ∀ ⦃i⦄, c.slice = some i → s.scrub i = true ∧ ¬ s.IndexLeased i)
    (hd : ∀ ⦃i⦄, c.dueSlice = some i → (s.arena i).ScrubDue s.now)
    (log : List (Obs U)) : ArenaInv { s with scrubber := c, log := log } :=
  ⟨h.scrub_quarantined, h.release_quarantined, hm, hd, h.inflight_eq⟩

theorem ScrubStep.arenaInv (hst : ScrubStep s e s') :
    ArenaInv s' := by
  have hmarked := h.scrubber_marked
  have hdue := h.scrubber_due
  cases hst with
  | @pending i hidle hun hs hfree =>
    refine h.setScrubber (.pending i) (fun j hj => ?_) (fun j hj => ?_) _
    · cases hj
      exact ⟨hs, hfree⟩
    · cases hj
  | @due i hp =>
    rw [hp] at hmarked
    refine h.setScrubber _ (fun j hj => ?_) (fun j hj => ?_) _
    · split at hj
      · cases hj
        exact hmarked rfl
      · cases hj
    · split at hj
      · rename_i hpassed
        cases hj
        exact hpassed
      · cases hj
  | @start i hp =>
    rw [hp] at hmarked hdue
    exact h.setScrubber (.scrubbing i) hmarked hdue _
  | @done i ok hp =>
    rw [hp] at hmarked hdue
    cases ok with
    | true => exact h.setScrubber (.scrubbed i) hmarked hdue _
    | false =>
      exact h.setScrubber .idle (by simp [Scrubber.slice]) (by simp [Scrubber.dueSlice]) _
  | @clear i ok hp hun =>
    obtain ⟨-, hscrub, hadmin⟩ := (s.setScrub i false).save_frame ok
    refine ⟨?_, ?_, ?_, ?_, h.setArena_inflight (f := (·.unquarantine)) fun _ => rfl⟩
    · intro j (hj : ((s.setScrub i false).save ok).scrub j = true)
      rw [hscrub] at hj
      have hne : j ≠ i := by
        rintro rfl
        simp [Leases.setScrub] at hj
      show ((s.setArena i (·.unquarantine)).arena j).quarantined = true
      rw [setArena_ne s _ hne]
      exact h.scrub_quarantined (by simpa [Leases.setScrub, hne] using hj)
    · intro k l (ha : ((s.setScrub i false).save ok).admin = _)
      rw [hadmin] at ha
      exact absurd ha (hun.ne_unbound k l).2
    · exact fun j hj => by cases hj
    · exact fun j hj => by cases hj

theorem ArenaInv.due_ne {j : Job} (hj : j ∈ s.jobs)
    (hi : s.scrubber.dueSlice = some i) : i ≠ j.index := by
  rintro rfl
  have hzero := (h.scrubber_due hi).2.1
  rw [h.inflight_eq, List.countP_eq_zero] at hzero
  exact hzero j hj (by simp)

theorem JobStep.arenaInv (hst : JobStep s e s') : ArenaInv s' := by
  have hmove : ∀ {j : Job} {pc}, j ∈ s.jobs → ArenaInv (s.moveJob j pc) := by
    intro j pc hj
    refine ⟨h.scrub_quarantined, h.release_quarantined, h.scrubber_marked,
      h.scrubber_due, fun i => ?_⟩
    show (s.arena i).inflight = List.countP _ (_ :: s.jobs.erase j)
    rw [h.inflight_eq, (List.perm_cons_erase hj).countP_eq, List.countP_cons, List.countP_cons]
  have hend : ∀ {j : Job}, j ∈ s.jobs → ArenaInv (s.endJob j) := by
    intro j hj
    have hq (i : Fin 8) := setArena_same s j.index i
      (f := (·.end_ s.now)) (g := (·.quarantined)) fun _ => rfl
    refine ⟨?_, ?_, h.scrubber_marked, ?_, fun i => ?_⟩
    · intro i hi
      exact (hq i).trans (h.scrub_quarantined hi)
    · intro k l ha
      exact (hq _).trans (h.release_quarantined ha)
    · intro i hi
      show ((s.setArena j.index (·.end_ s.now)).arena i).ScrubDue s.now
      rw [setArena_ne _ _ (h.due_ne hj hi)]
      exact h.scrubber_due hi
    · show ((s.setArena j.index (·.end_ s.now)).arena i).inflight = (s.jobs.erase j).countP _
      have hcount := (List.perm_cons_erase hj).countP_eq (·.index = i)
      rw [List.countP_cons, ← h.inflight_eq] at hcount
      by_cases hi : i = j.index
      · subst hi
        rw [setArena_self]
        simp only [decide_true, if_true] at hcount
        show (s.arena j.index).inflight - 1 = _
        omega
      · rw [setArena_ne _ _ hi, hcount]
        simp [Ne.symm hi]
  cases hst with
  | @begin_ cid i hq =>
    have hq' (j : Fin 8) := setArena_same s i j
      (f := (·.begin_)) (g := (·.quarantined)) fun _ => rfl
    refine ⟨?_, ?_, h.scrubber_marked, ?_, fun j => ?_⟩
    · intro j hj
      exact (hq' j).trans (h.scrub_quarantined hj)
    · intro k l ha
      exact (hq' _).trans (h.release_quarantined ha)
    · intro j hj
      have hne : j ≠ i := by
        rintro rfl
        rw [(h.scrubber_due hj).1] at hq
        cases hq
      rw [setArena_ne _ _ hne]
      exact h.scrubber_due hj
    · show ((s.setArena i (·.begin_)).arena j).inflight = List.countP _ (_ :: s.jobs)
      rw [List.countP_cons, ← h.inflight_eq]
      by_cases hj : j = i
      · subst hj
        rw [setArena_self]
        simp [ArenaSlot.begin_]
      · rw [setArena_ne _ _ hj]
        simp [Ne.symm hj]
  | recheck hj => exact hmove hj
  | refuse hj => exact hend hj
  | driverStart hj => exact hmove hj
  | end_ hj => exact hend hj

end

-- ==== bindings

/-- The positions that ask more of the bindings than `BindsHeld`. -/
def Admin.asksBinds : Admin U → Bool
  | .found .. | .unbound .. | .filled .. => true
  | _ => false

theorem bindInv_of_held (hd : Binds.Distinct s.binds)
    (hh : BindsHeld s.binds s.toLeases) (ha : s.admin.asksBinds = false) :
    BindInv s where
  distinct := hd
  held := hh
  found _ _ _ h := by rw [h] at ha; cases ha
  unbound _ _ h := by rw [h] at ha; cases ha
  filled _ _ h := by rw [h] at ha; cases ha

section

variable (h : BindsHeld b x)

include h

theorem BindsHeld.mono {x' : Leases U} (hs : ∀ ⦃k l⦄, x.slots k = some l → x'.slots k = some l) :
    BindsHeld b x' := by
  intro k c i hb
  obtain ⟨k', l, hl, he⟩ := h hb
  exact ⟨k', l, hs hl, he⟩

theorem BindsHeld.not_leased (hi : ¬ x.IndexLeased i)
    (k : Fin 8) (c : UInt32) : b k ≠ some (c, i) := by
  intro hb
  obtain ⟨k', l, hl, -, he⟩ := h hb
  exact hi ⟨k', l, hl, he⟩

theorem BindsHeld.bind (hd : b.Distinct)
    (hl : x.slots k = some l) : BindsHeld (bind b l.cid l.index) x := by
  intro k' c i hb
  rcases bind_some hd hb with ⟨rfl, rfl⟩ | hb
  · exact ⟨k, l, hl, rfl, rfl⟩
  · exact h hb

theorem BindsHeld.unbind (hd : b.Distinct)
    {c : UInt32} (hc : c ≠ 0) : BindsHeld (unbind b c) x := by
  intro k c' i hb
  exact h (unbind_some hd hc hb).1

theorem BindsHeld.clear (hk : ∀ l, x.slots k = some l → ∀ k', b k' ≠
      some (l.cid, l.index)) : BindsHeld b (x.setSlot k none) := by
  intro k' c i hb
  obtain ⟨k₀, l, hl, rfl, rfl⟩ := h hb
  refine ⟨k₀, l, ?_, rfl, rfl⟩
  have hne : k₀ ≠ k := by
    rintro rfl
    exact hk l hl k' hb
  show update _ _ _ _ = _
  rw [update_of_ne hne, hl]

end

theorem BindInv.search (h : BindInv s) (uuid : U) (cid : UInt32) :
    BindInv (s.withLeases (s.search uuid cid)) ∧
      BindInv (s.withLeases (s.lastSearch uuid cid)) := by
  have hgoto : ∀ a : Admin U, a = .idle ∨ a = .waiting uuid cid →
      BindInv (s.withLeases (s.goto a)) := by
    intro a ha
    refine bindInv_of_held h.distinct h.held ?_
    rcases ha with rfl | rfl <;> rfl
  have hfill : ∀ {i}, s.freeIndex = some i → BindInv (s.withLeases (s.fill uuid cid i)) := by
    intro i hi
    rw [Leases.fill]
    split
    · exact hgoto _ (.inl rfl)
    rename_i k hk
    have hnone := Leases.freeSlot_spec hk
    refine ⟨h.distinct, ?_, by simp, by simp, ?_⟩
    · exact h.held.mono fun k' l hl => update_keeps hnone hl
    intro k' l ha hl
    cases ha
    rcases Leases.slots_setSlot hl with ⟨-, e⟩ | ⟨hne, -⟩
    · cases e
      exact h.held.not_leased (Leases.freeIndex_spec hi).1
    · exact absurd rfl hne
  unfold Leases.search Leases.lastSearch
  cases hi : s.freeIndex with
  | some i => exact ⟨hfill hi, hfill hi⟩
  | none =>
    refine ⟨?_, hgoto _ (.inl rfl)⟩
    dsimp only
    split
    · exact hgoto _ (.inr rfl)
    · exact hgoto _ (.inl rfl)

theorem ScrubStep.bindInv (hst : ScrubStep s e s') (h : BindInv s) : BindInv s' := by
  cases hst with
  | pending | due | start | done =>
    exact ⟨h.distinct, h.held, h.found, h.unbound, h.filled⟩
  | @clear i ok hp hun =>
    obtain ⟨hslots, -, hadmin⟩ := (s.setScrub i false).save_frame ok
    refine bindInv_of_held h.distinct ?_ ?_
    · refine h.held.mono fun k l hl => ?_
      show ((s.setScrub i false).save ok).slots k = some l
      rw [hslots]
      exact hl
    · show ((s.setScrub i false).save ok).admin.asksBinds = false
      rw [hadmin]
      show s.admin.asksBinds = false
      rcases hun with e | ⟨_, _, e⟩ <;> rw [e] <;> rfl

theorem JobStep.bindInv (hst : JobStep s e s') (h : BindInv s) : BindInv s' := by
  cases hst <;> exact ⟨h.distinct, h.held, h.found, h.unbound, h.filled⟩

variable [DecidableEq U]

-- ==== lease commands

theorem ReserveStep.leases (hst : ReserveStep s e s') (h : s.toLeases.Inv) : s'.toLeases.Inv := by
  cases hst with
  | found ha hcid hk hl =>
    exact h.goto (by simp [ha]) (by simp [ha]) (by simp) ⟨hcid, _, hl⟩
  | setCid ha hl => exact h.setCid ha hl
  | @saveFound k ok ha =>
    cases ok with
    | true => exact h.saveStored (.inl ha)
    | false =>
      exact h.goto (by simp [ha]) (by simp [ha]) (by simp) True.intro
  | search ha hcid hu hep =>
    exact (h.search (.inl ha) hcid hep fun _ _ =>
      Leases.findUuid_none hu).1
  | wakeFound ha hk =>
    obtain ⟨l, hl, -⟩ := Leases.findUuid_some hk
    exact h.goto (by simp [ha]) (by simp [ha]) (by simp) ⟨l, hl⟩
  | wakeSearch ha hu =>
    have hok := h.admin_ok
    rw [Leases.AdminOk, ha] at hok
    exact (h.search (.inr ⟨_, _, ha⟩) hok.1 hok.2.1 hok.2.2).1
  | timeout ha =>
    have hok := h.admin_ok
    rw [Leases.AdminOk, ha] at hok
    exact (h.search (.inr ⟨_, _, ha⟩) hok.1 hok.2.1 hok.2.2).2
  | saveFilled ha => exact h.saveStored (.inr ha)
  | dropFilled ha => exact h.dropFilled ha
  | grant ha hl =>
    exact h.goto (by simp [ha]) (by simp [ha]) (by simp) True.intro

theorem ReleaseStep.leases (hst : ReleaseStep s e s') (h : s.toLeases.Inv) : s'.toLeases.Inv := by
  cases hst with
  | quarantine ha hk hl hep =>
    exact h.goto (by simp [ha]) (by simp [ha]) (by simp) hl
  | unbind ha => exact h.mark ha
  | save ha => exact h.saveReleased ha
  | restore ha => exact h.restore ha
  | reopen ha =>
    exact h.goto (by simp [ha]) (by simp [ha]) (by simp) (h.slot_saved (by simp [ha]))
  | rebind ha =>
    exact h.goto (by simp [ha]) (by simp [ha]) (by simp) True.intro

/-- RESERVE_LOW leaves arena, clock, scrubber and jobs alone. -/
theorem ReserveStep.frame (hst : ReserveStep s e s') : s'.arena = s.arena ∧ s'.now = s.now ∧
      s'.scrubber = s.scrubber ∧ s'.jobs = s.jobs := by
  cases hst with
  | found =>
    refine ⟨?_, ?_, ?_, ?_⟩ <;>
    · split <;> rfl
  | _ => exact ⟨rfl, rfl, rfl, rfl⟩

theorem ReserveStep.takes (hst : ReserveStep s e s') : s.Takes s'.toLeases := by
  cases hst with
  | found | wakeFound | grant => exact Leases.takes_goto (by simp)
  | setCid ha hl =>
    refine ⟨rfl, ?_, by simp⟩
    intro i hi
    rcases Leases.indexLeased_setSlot hi with ⟨_, ⟨⟩, rfl⟩ | hold
    · exact .inl ⟨_, _, hl, rfl⟩
    · exact .inl hold
  | @saveFound k ok ha =>
    cases ok with
    | true =>
      exact ⟨rfl, fun _ h => .inl h, by simp⟩
    | false => exact Leases.takes_goto (by simp)
  | search | wakeSearch => exact (s.takes_search _ _).1
  | timeout => exact (s.takes_search _ _).2
  | saveFilled =>
    exact ⟨rfl, fun _ h => .inl h, by simp⟩
  | dropFilled ha =>
    refine ⟨rfl, ?_, by simp⟩
    intro i hi
    rcases Leases.indexLeased_setSlot hi with ⟨_, ⟨⟩, -⟩ | hold
    exact .inl hold

-- ==== arena

theorem ReserveStep.arenaInv (hst : ReserveStep s e s') (h : ArenaInv s) : ArenaInv s' := by
  obtain ⟨harena, hnow, hscrubber, hjobs⟩ := hst.frame
  have ht := hst.takes
  refine ⟨?_, ?_, ?_, ?_, ?_⟩
  · rw [ht.scrub, harena]
    exact h.scrub_quarantined
  · intro k l ha
    exact absurd ha (ht.admin k l).1
  · rw [hscrubber, ht.scrub]
    intro i hi
    obtain ⟨hs, hfree⟩ := h.scrubber_marked hi
    refine ⟨hs, fun hl => ?_⟩
    rcases ht.leased hl with hl | hs'
    · exact hfree hl
    · rw [hs] at hs'
      cases hs'
  · rw [hscrubber, harena, hnow]
    exact h.scrubber_due
  · rw [harena, hjobs]
    exact h.inflight_eq

theorem ReleaseStep.arenaInv (hst : ReleaseStep s e s')
    (hx : s.toLeases.Inv) (h : ArenaInv s) : ArenaInv s' := by
  cases hst with
  | @quarantine uuid epoch k l ha hk hl hep =>
    refine ⟨?_, ?_, h.scrubber_marked, h.setArena_due hl (·.quarantine s.now),
      h.setArena_inflight (f := (·.quarantine s.now)) fun _ => rfl⟩
    · intro i hi
      show ((s.setArena l.index (·.quarantine s.now)).arena i).quarantined = true
      by_cases hil : i = l.index
      · rw [hil, setArena_self]
        rfl
      · rw [setArena_ne _ _ hil]
        exact h.scrub_quarantined hi
    · rintro k' l' e
      cases e
      show ((s.setArena l.index (·.quarantine s.now)).arena l.index).quarantined = true
      rw [setArena_self]
      rfl
  | @unbind k saved ha =>
    refine ⟨?_, by simp, ?_, h.scrubber_due, h.inflight_eq⟩
    · intro i hi
      by_cases his : i = saved.index
      · rw [his]
        exact h.release_quarantined ha
      · exact h.scrub_quarantined (by
          simpa [Server.withLeases, Leases.goto, Leases.setScrub, his]
            using hi)
    · intro i hi
      obtain ⟨hs, hfree⟩ := h.scrubber_marked hi
      refine ⟨?_, hfree⟩
      have hne := h.slice_ne (hx.slot_saved (.inl ha)) hi
      simpa [Server.withLeases, Leases.goto, Leases.setScrub, hne] using hs
  | @save k saved ha =>
    refine ⟨h.scrub_quarantined, by simp, ?_, h.scrubber_due, h.inflight_eq⟩
    intro i hi
    obtain ⟨hs, hfree⟩ := h.scrubber_marked hi
    refine ⟨hs, fun hi' => ?_⟩
    rcases Leases.indexLeased_setSlot hi' with ⟨_, ⟨⟩, -⟩ | hold
    exact hfree hold
  | @restore k saved ha =>
    have hk := hx.slot_saved (.inr (.inl ha))
    refine ⟨?_, by simp, ?_, h.scrubber_due, h.inflight_eq⟩
    · intro i hi
      by_cases his : i = saved.index
      · simp [Server.withLeases, Leases.goto, Leases.setScrub, his] at hi
      · exact h.scrub_quarantined (by
          simpa [Server.withLeases, Leases.goto, Leases.setScrub, Leases.setSlot, his] using hi)
    · intro i hi
      obtain ⟨hs, hfree⟩ := h.scrubber_marked hi
      refine ⟨?_, ?_⟩
      · have hne := h.slice_ne hk hi
        simpa [Server.withLeases, Leases.goto, Leases.setScrub, Leases.setSlot, hne] using hs
      intro hi'
      rcases Leases.indexLeased_setSlot hi' with ⟨_, ⟨⟩, rfl⟩ | hold
      · exact hfree (Leases.indexLeased_of_slot hk)
      · exact hfree hold
  | @reopen k saved ha =>
    have hk := hx.slot_saved (.inr (.inr (.inl ha)))
    refine ⟨?_, by simp, h.scrubber_marked, h.setArena_due hk (·.unquarantine),
      h.setArena_inflight (f := (·.unquarantine)) fun _ => rfl⟩
    intro i hi
    show ((s.setArena saved.index (·.unquarantine)).arena i).quarantined = true
    by_cases his : i = saved.index
    · subst his
      exact absurd (hx.scrub_leased hk hi) (by simp [ha])
    · rw [setArena_ne _ _ his]
      exact h.scrub_quarantined hi
  | rebind ha =>
    exact ⟨h.scrub_quarantined, by simp, h.scrubber_marked, h.scrubber_due, h.inflight_eq⟩

-- ==== all together

theorem ReserveStep.bindInv (hst : ReserveStep s e s')
    (hx : s.toLeases.Inv) (h : BindInv s) : BindInv s' := by
  cases hst with
  | @found uuid cid k l ha hcid hk hl =>
    by_cases hc : l.cid = cid
    · rw [if_neg (not_not.mpr hc)]
      refine ⟨h.distinct, h.held, ?_, by simp, by simp⟩
      intro k' cid' l' ha' hl' hne
      cases ha'
      rw [show s.slots k = some l' from hl'] at hl
      cases hl
      exact absurd hc hne
    · rw [if_pos hc]
      have hz := (hx.nonzero hl).2
      refine ⟨h.distinct.unbind _, h.held.unbind h.distinct hz, ?_, by simp, by simp⟩
      intro k' cid' l' ha' hl' _ k₀ i hb
      cases ha'
      rw [show s.slots k = some l' from hl'] at hl
      cases hl
      exact (unbind_some h.distinct hz hb).2 rfl
  | @setCid k cid l ha hl =>
    refine bindInv_of_held h.distinct ?_ rfl
    intro k' c i hb
    obtain ⟨k₀, l₀, hl₀, rfl, rfl⟩ := h.held hb
    by_cases hk : k₀ = k
    · subst hk
      rw [hl] at hl₀
      cases hl₀
      have hc : l.cid = cid := by
        by_contra hc
        exact h.found ha hl hc _ _ hb
      exact ⟨k₀, _, update_self .., hc.symm, rfl⟩
    · refine ⟨k₀, l₀, ?_, rfl, rfl⟩
      show update _ _ _ _ = _
      rw [update_of_ne hk, hl₀]
  | @saveFound k ok ha =>
    cases ok <;> exact bindInv_of_held h.distinct h.held rfl
  | search | wakeSearch => exact (h.search _ _).1
  | timeout => exact (h.search _ _).2
  | wakeFound | saveFilled => exact bindInv_of_held h.distinct h.held rfl
  | dropFilled ha =>
    refine bindInv_of_held h.distinct ?_ rfl
    exact h.held.clear fun l hl k' => h.filled ha hl k' l.cid
  | grant ha hl =>
    exact bindInv_of_held (h.distinct.bind _ _) (h.held.bind h.distinct hl) rfl

theorem ReleaseStep.bindInv (hst : ReleaseStep s e s')
    (hx : s.toLeases.Inv) (h : BindInv s) : BindInv s' := by
  cases hst with
  | quarantine | reopen => exact bindInv_of_held h.distinct h.held rfl
  | @unbind k saved ha =>
    have hz := (hx.nonzero (hx.slot_saved (.inl ha))).2
    refine ⟨h.distinct.unbind _, h.held.unbind h.distinct hz, by simp, ?_, by simp⟩
    intro k' l ha' k₀ i hb
    cases ha'
    exact (unbind_some h.distinct hz hb).2 rfl
  | @save k saved ha =>
    have hk := hx.slot_saved (.inr (.inl ha))
    refine bindInv_of_held h.distinct ?_ rfl
    refine h.held.clear fun l hl k' => ?_
    rw [hk] at hl
    cases hl
    exact h.unbound ha k' _
  | @restore k saved ha =>
    refine bindInv_of_held h.distinct ?_ rfl
    refine h.held.mono fun k' l hl => ?_
    show update s.slots k (some saved) k' = some l
    rw [← hx.slot_saved (.inr (.inl ha)), update_eq_self, hl]
  | rebind ha =>
    exact bindInv_of_held (h.distinct.bind _ _)
      (h.held.bind h.distinct (hx.slot_saved (.inr (.inr (.inr ha))))) rfl

theorem inv_start {store : List (Line U)} (hst : StoreOk store) (now : Nat)
    (log : List (Obs U)) : (Server.start now store log).Inv := by
  have h := started_start hst now log
  refine ⟨h.inv, ⟨?_, ?_, ?_, ?_, ?_⟩, bindInv_of_held h.binds_inj h.binds_held
    (by rw [h.admin_eq]; rfl)⟩
  · intro i hi
    rw [h.arena, if_neg ((h.scrub i).mp hi)]
    rfl
  · simp [h.admin_eq]
  · simp [h.scrubber_eq, Scrubber.slice]
  · simp [h.scrubber_eq, Scrubber.dueSlice]
  · intro i
    rw [h.arena, h.jobs_eq]
    split <;> rfl

theorem inv_step (hst : Step s e s') (h : s.Inv) : s'.Inv := by
  cases hst with
  | tick ms =>
    refine ⟨h.leases, ⟨h.arena.scrub_quarantined,
      h.arena.release_quarantined, h.arena.scrubber_marked, ?_,
      h.arena.inflight_eq⟩, ⟨h.binds.distinct, h.binds.held, h.binds.found,
      h.binds.unbound, h.binds.filled⟩⟩
    intro i hi
    obtain ⟨hq, hin, hdue⟩ := h.arena.scrubber_due hi
    exact ⟨hq, hin, Nat.le_add_right_of_le hdue⟩
  | crash now => exact inv_start h.leases.storeOk now s.log
  | reserve hst =>
    exact ⟨hst.leases h.leases, hst.arenaInv h.arena, hst.bindInv h.leases h.binds⟩
  | release hst =>
    exact ⟨hst.leases h.leases, hst.arenaInv h.leases h.arena, hst.bindInv h.leases h.binds⟩
  | scrub hst =>
    exact ⟨hst.leases h.leases, hst.arenaInv h.arena, hst.bindInv h.binds⟩
  | job hst =>
    exact ⟨hst.leases ▸ h.leases, hst.arenaInv h.arena, hst.bindInv h.binds⟩

theorem inv_reachable (h : (serverSystem U).Reachable s) : s.Inv := by
  refine System.Reachable.induct (I := Server.Inv) ?_ (fun s e s' _ hinv hst => inv_step hst hinv) h
  rintro s ⟨now, rfl⟩
  exact inv_start ⟨by simp, by simp, by simp⟩ now []

end AmbaVirt.Low
