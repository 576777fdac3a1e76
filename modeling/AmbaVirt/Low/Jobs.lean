/-
Arena jobs against the owner of a slice.

No scrub of a slice overlaps a driver call on it: the due check saw no
job in flight, and quarantine refuses new ones. A driver call for `c` is
not started on a slice leased to another cid either, as long as leases
change hands by release, scrub and reserve. That is, if the re-check
reads the table as a whole (`Untorn`): it takes no lock, and one that
falls into a bind may match the new cid and the window of before
(AmbaVirt.Low.Torn).

A lease can also change its cid in place. RESERVE_LOW of a uuid that has
a lease unbinds the old cid and writes the new one, with no quarantine
and without looking at the jobs in flight, and a job of the old cid that
has passed its re-check starts its driver call on a slice of the new cid
(`driver_call_after_cid_change`). `jobs_own_slice` is what holds of every
other run.
-/
import AmbaVirt.Low.Inv
import AmbaVirt.Low.Commands

namespace AmbaVirt.Low

open Lib Function

variable {U : Type}

/-- A job past its re-check has its guest's lease behind it, or a slice
nobody has leased and that cannot be leased before the job ended. -/
def JobsOwned (s : Server U) : Prop :=
  ∀ j ∈ s.jobs, j.pc = .checked → (∃ k l, s.slots k = some l ∧ s.admin ≠ .filled k ∧ l.cid = j.cid ∧
      l.index = j.index) ∨
    (s.scrub j.index = true ∧ ¬ s.IndexLeased j.index)

/-- When a RESERVE_LOW writes a new cid into a lease, the jobs on its
slice that wait between re-check and driver call are the new cid's. -/
def CidSettled (s : Server U) : Event U → Prop
  | .setCid => ∀ ⦃k cid l⦄, s.admin = .found k cid → s.slots k = some l →
      ∀ j ∈ s.jobs, j.index = l.index → j.pc = .checked → j.cid = cid
  | _ => True

/-- A re-check passes only if the table, read as a whole, has the slice
for the job's cid. -/
def Untorn (s : Server U) : Event U → Prop
  | .recheck j true => held s.binds j.cid = some j.index
  | _ => True

def Settled (s : Server U) (e : Event U) : Prop := Untorn s e ∧ CidSettled s e

theorem admits_untorn : Admits (Untorn (U := U)) := by
  intro s e he
  unfold Untorn
  split
  · cases he
  · trivial

theorem admits_settled : Admits (Settled (U := U)) := by
  intro s e he
  refine ⟨admits_untorn s e he, ?_⟩
  unfold CidSettled
  split
  · cases he
  · trivial

def DistinctCids (s : Server U) : Prop := s.Distinct Lease.cid

-- ==== scrubber and jobs

variable {s s' : Server U} {e : Event U}

theorem ScrubStep.jobsOwned (hst : ScrubStep s e s') (h : s.Inv) (hj : JobsOwned s) :
    JobsOwned s' := by
  cases hst with
  | pending | due | start | done => exact hj
  | @clear i ok hp hun =>
    obtain ⟨hslots, hscrub, hadmin⟩ := (s.setScrub i false).save_frame ok
    intro j hmem hpc
    have hne : i ≠ j.index := h.arena.due_ne hmem (by rw [hp]; rfl)
    rcases hj j hmem hpc with ⟨k, l, hl, hf, he⟩ | ⟨hs, hfree⟩
    · left
      refine ⟨k, l, ?_, ?_, he⟩
      · show ((s.setScrub i false).save ok).slots k = some l
        rw [hslots]
        exact hl
      · show ((s.setScrub i false).save ok).admin ≠ .filled k
        rw [hadmin]
        exact hf
    · right
      constructor
      · show ((s.setScrub i false).save ok).scrub j.index = true
        rw [hscrub]
        show update _ _ _ _ = _
        rw [update_of_ne hne.symm]
        exact hs
      · rintro ⟨k, l, hl, he⟩
        replace hl : ((s.setScrub i false).save ok).slots k = some l := hl
        rw [hslots] at hl
        exact hfree ⟨k, l, hl, he⟩

theorem JobStep.jobsOwned (hst : JobStep s e s') (hu : Untorn s e) (h : s.Inv)
    (hj : JobsOwned s) : JobsOwned s' := by
  have herase : ∀ {j j' : Job}, j' ∈ s.jobs.erase j → j' ∈ s.jobs :=
    List.mem_of_mem_erase
  cases hst with
  | begin_ =>
    intro j hmem hpc
    rcases List.mem_cons.mp hmem with rfl | hmem
    · cases hpc
    · exact hj j hmem hpc
  | @recheck j hmem hpc =>
    intro j' hmem' hpc'
    rcases List.mem_cons.mp hmem' with rfl | hmem'
    · -- the binding the re-check saw is a lease, and a bound one
      left
      obtain ⟨k, hb⟩ := held_some hu
      obtain ⟨k', l, hl, hc, hi⟩ := h.binds.held hb
      refine ⟨k', l, hl, ?_, hc, hi⟩
      intro hf
      exact h.binds.filled hf hl k j.cid (hi ▸ hb)
    · exact hj j' (herase hmem') hpc'
  | driverStart =>
    intro j' hmem' hpc'
    rcases List.mem_cons.mp hmem' with rfl | hmem'
    · cases hpc'
    · exact hj j' (herase hmem') hpc'
  | refuse | end_ => exact fun j' hmem' hpc' => hj j' (herase hmem') hpc'

-- ==== lease commands

/-- A search keeps every lease, and the slot it fills was free. -/
theorem Leases.search_keeps (x : Leases U) (uuid : U) (cid : UInt32)
    {k : Fin 8} {l : Lease U} (hl : x.slots k = some l) :
    ((x.search uuid cid).slots k = some l ∧ (x.search uuid cid).admin ≠ .filled k) ∧
    ((x.lastSearch uuid cid).slots k = some l ∧ (x.lastSearch uuid cid).admin ≠ .filled k) := by
  have hgoto : ∀ a : Admin U, a = .idle ∨ a = .waiting uuid cid →
      (x.goto a).slots k = some l ∧ (x.goto a).admin ≠ .filled k := by
    intro a ha
    refine ⟨hl, ?_⟩
    rcases ha with rfl | rfl <;> simp
  have hfill : ∀ i, (x.fill uuid cid i).slots k = some l ∧
      (x.fill uuid cid i).admin ≠ .filled k := by
    intro i
    rw [Leases.fill]
    split
    · exact hgoto _ (.inl rfl)
    rename_i k₀ hk₀
    have hne : k ≠ k₀ := by
      rintro rfl
      rw [Leases.freeSlot_spec hk₀] at hl
      cases hl
    constructor
    · show update _ _ _ _ = _
      rw [update_of_ne hne, hl]
    · simpa using hne.symm
  unfold Leases.search Leases.lastSearch
  cases x.freeIndex with
  | some i => exact ⟨hfill i, hfill i⟩
  | none =>
    refine ⟨?_, hgoto _ (.inl rfl)⟩
    dsimp only
    split
    · exact hgoto _ (.inr rfl)
    · exact hgoto _ (.inl rfl)

variable [DecidableEq U]

/-- RESERVE_LOW: the one step that needs `CidSettled` is the new cid. -/
theorem ReserveStep.jobsOwned (hst : ReserveStep s e s') (hc : CidSettled s e) (hj : JobsOwned s) :
    JobsOwned s' := by
  obtain ⟨-, -, -, hjobs⟩ := hst.frame
  have ht := hst.takes
  intro j hmem hpc
  rw [hjobs] at hmem
  rcases hj j hmem hpc with ⟨k, l, hl, hf, hcid, hi⟩ | ⟨hs, hfree⟩
  · left
    cases hst with
    | @setCid k₀ cid l₀ ha hl₀ =>
      by_cases hk : k = k₀
      · subst hk
        rw [hl] at hl₀
        cases hl₀
        exact ⟨k, { l with cid := cid }, update_self .., by simp,
          (hc ha hl j hmem hi.symm hpc).symm, hi⟩
      · refine ⟨k, l, ?_, by simp, hcid, hi⟩
        show update _ _ _ _ = _
        rw [update_of_ne hk, hl]
    | @saveFound k₀ ok ha =>
      cases ok <;> exact ⟨k, l, hl, by simp, hcid, hi⟩
    | search | wakeSearch =>
      obtain ⟨hl', hf'⟩ := (s.search_keeps _ _ hl).1
      exact ⟨k, l, hl', hf', hcid, hi⟩
    | timeout =>
      obtain ⟨hl', hf'⟩ := (s.search_keeps _ _ hl).2
      exact ⟨k, l, hl', hf', hcid, hi⟩
    | @dropFilled k₀ ha =>
      have hk : k ≠ k₀ := by
        rintro rfl
        exact hf ha
      refine ⟨k, l, ?_, by simp, hcid, hi⟩
      show update _ _ _ _ = _
      rw [update_of_ne hk, hl]
    | found | wakeFound | saveFilled | grant => exact ⟨k, l, hl, by simp, hcid, hi⟩
  · right
    rw [ht.scrub]
    refine ⟨hs, fun hl => ?_⟩
    rcases ht.leased hl with hl | hs'
    · exact hfree hl
    · rw [hs] at hs'
      cases hs'

theorem ReleaseStep.jobsOwned (hst : ReleaseStep s e s') (h : s.Inv) (hj : JobsOwned s) :
    JobsOwned s' := by
  cases hst with
  | quarantine | reopen | rebind =>
    intro j hmem hpc
    rcases hj j hmem hpc with ⟨k', l', hl', -, he⟩ | hs
    · exact .inl ⟨k', l', hl', by simp, he⟩
    · exact .inr hs
  | @unbind k saved ha =>
    intro j hmem hpc
    rcases hj j hmem hpc with ⟨k', l', hl', -, he⟩ | ⟨hs, hfree⟩
    · exact .inl ⟨k', l', hl', by simp, he⟩
    refine .inr ⟨?_, hfree⟩
    show update _ _ _ _ = _
    rw [update_apply]
    split
    · rfl
    · exact hs
  | @save k saved ha =>
    have hok := h.leases.admin_ok
    rw [Leases.AdminOk, ha] at hok
    obtain ⟨hk, hmark⟩ := hok
    intro j hmem hpc
    rcases hj j hmem hpc with ⟨k', l', hl', -, hcid, hi⟩ | ⟨hs, hfree⟩
    · by_cases hkk : k' = k
      · -- the job's own lease is over: nobody has the slice until the
        -- scrub, which waits for the job
        subst hkk
        rw [hk] at hl'
        cases hl'
        right
        rw [← hi]
        refine ⟨hmark, ?_⟩
        rintro ⟨k₀, l₀, hl₀, he⟩
        rcases Leases.slots_setSlot hl₀ with ⟨-, e⟩ | ⟨hne, e⟩
        · cases e
        · exact hne (h.leases.index_inj e hk he)
      · left
        refine ⟨k', l', ?_, by simp, hcid, hi⟩
        show update _ _ _ _ = _
        rw [update_of_ne hkk, hl']
    · right
      refine ⟨hs, ?_⟩
      rintro ⟨k₀, l₀, hl₀, he⟩
      rcases Leases.slots_setSlot hl₀ with ⟨-, e⟩ | ⟨-, e⟩
      · cases e
      · exact hfree ⟨k₀, l₀, e, he⟩
  | @restore k saved ha =>
    have hk := h.leases.slot_saved (.inr (.inl ha))
    have hslots : update s.slots k (some saved) = s.slots := by
      rw [← hk, update_eq_self]
    intro j hmem hpc
    rcases hj j hmem hpc with ⟨k', l', hl', -, he⟩ | ⟨hs, hfree⟩
    · left
      refine ⟨k', l', ?_, by simp, he⟩
      show update s.slots k (some saved) k' = _
      rw [hslots, hl']
    · right
      have hne : j.index ≠ saved.index := by
        intro e
        exact hfree ⟨k, saved, hk, e.symm⟩
      constructor
      · show update _ _ _ _ = _
        rw [update_of_ne hne]
        exact hs
      rintro ⟨k₀, l₀, hl₀, he⟩
      replace hl₀ : update s.slots k (some saved) k₀ = some l₀ :=
        hl₀
      rw [hslots] at hl₀
      exact hfree ⟨k₀, l₀, hl₀, he⟩

theorem jobsOwned_reachable (h : ((serverSystem U).restrict Settled).Reachable s) :
    JobsOwned s := by
  have hstart : ∀ {store : List (Line U)}, StoreOk store → ∀ now log,
      JobsOwned (Server.start now store log) := by
    intro store hst now log j hmem
    rw [(started_start hst now log).jobs_eq] at hmem
    cases hmem
  refine System.Reachable.induct (I := JobsOwned) ?_ ?_ h
  · rintro s ⟨now, rfl⟩
    exact hstart ⟨by simp, by simp, by simp⟩ now []
  rintro s e s' hr hj ⟨⟨hu, hc⟩, hst⟩
  have hinv := inv_reachable hr.of_restrict
  cases hst with
  | tick ms => exact hj
  | crash now => exact hstart hinv.leases.storeOk now s.log
  | reserve hst => exact hst.jobsOwned hc hj
  | release hst => exact hst.jobsOwned hinv hj
  | scrub hst => exact hst.jobsOwned hinv hj
  | job hst => exact hst.jobsOwned hu hinv hj

-- ==== main results

/-- A slice under scrub has no job in flight, in any run. -/
theorem no_job_while_scrubbing (h : (serverSystem U).Reachable s) {i : Fin 8}
    (hi : s.scrubber = .scrubbing i) {j : Job} (hj : j ∈ s.jobs) :
    j.index ≠ i :=
  ((inv_reachable h).arena.due_ne hj (by rw [hi]; rfl)).symm

/-- In a run without torn re-checks and whose RESERVE_LOWs change a cid
only while no other guest's job waits between re-check and driver call,
no scrub overlaps a driver call on its slice, and no driver call for `c`
starts on a slice leased to another cid. -/
theorem jobs_own_slice {s : Server U} (h : ((serverSystem U).restrict Settled).Reachable s) :
    (∀ i, s.scrubber = .scrubbing i → ∀ j ∈ s.jobs, j.pc = .running → j.index ≠ i) ∧
    ∀ j s', Step s (.driverStart j) s' →
      ∀ k l, s.slots k = some l → l.index = j.index → l.cid = j.cid := by
  refine ⟨fun i hi j hj _ => no_job_while_scrubbing h.of_restrict hi hj, ?_⟩
  intro j s' hst k l hl hi
  obtain ⟨hmem, hpc⟩ : j ∈ s.jobs ∧ j.pc = .checked := by
    cases hst with
    | reserve hst => cases hst
    | release hst => cases hst
    | scrub hst => cases hst
    | job hst =>
      cases hst with
      | driverStart hmem hpc => exact ⟨hmem, hpc⟩
  have hinv := inv_reachable h.of_restrict
  rcases jobsOwned_reachable h j hmem hpc with
    ⟨k', l', hl', -, hcid, hi'⟩ | ⟨-, hfree⟩
  · obtain rfl := hinv.leases.index_inj hl hl' (hi.trans hi'.symm)
    rw [hl] at hl'
    cases hl'
    exact hcid
  · exact absurd ⟨k, l, hl, hi⟩ hfree

-- The guest of `sampleLeased` has a job past its re-check.

def sampleJob : Job := ⟨5, 0, .checked⟩

def sampleChecked : Server Bool :=
  ({ sampleLeased with jobs := [⟨5, 0, .begun⟩] }.setArena 0
    (·.begin_)).moveJob ⟨5, 0, .begun⟩ .checked

theorem reachable_sampleChecked {C : Server Bool → Event Bool → Prop} (hC : Admits C)
    (hpass : ∀ s j, held s.binds j.cid = some j.index → C s (.recheck j true)) :
    ((serverSystem Bool).restrict C).Reachable sampleChecked := by
  have hbegun := (reachable_sampleLeased hC).step (e := .arenaBegin 5 0)
    ⟨hC _ _ rfl, .job (.begin_ (by decide))⟩
  exact hbegun.step (e := .recheck ⟨5, 0, .begun⟩ true)
    ⟨hpass _ _ (by decide), .job (.recheck List.mem_cons_self rfl)⟩

theorem jobs_own_slice_checked : Step sampleChecked (.driverStart sampleJob)
      (sampleChecked.moveJob sampleJob .running) ∧
    ∀ l, sampleChecked.slots 0 = some l → l.index = 0 → l.cid = 5 := by
  have hstep : Step sampleChecked (.driverStart sampleJob)
      (sampleChecked.moveJob sampleJob .running) :=
    .job (.driverStart List.mem_cons_self rfl)
  exact ⟨hstep, fun l => (jobs_own_slice (reachable_sampleChecked admits_settled
    fun _ _ h => ⟨h, trivial⟩)).2 _ _ hstep 0 l⟩

/-- The same server after `RESERVE_LOW` of the lease's uuid with cid 7,
up to the save. -/
def sampleRenamed : Server Bool :=
  let s₁ := (sampleChecked.unbindCid 5).withLeases (sampleChecked.goto (.found 0 7))
  s₁.withLeases ((s₁.setSlot 0 (some { sampleLease with cid := 7 })).goto (.rebound 0))

theorem driver_call_after_cid_change :
    ((serverSystem Bool).restrict Untorn).Reachable sampleRenamed ∧
    DistinctCids sampleRenamed ∧
    Step sampleRenamed (.driverStart sampleJob) (sampleRenamed.moveJob sampleJob .running) ∧
    sampleRenamed.slots sampleJob.index = some { sampleLease with cid := 7 } ∧
    sampleLease.index = sampleJob.index ∧ sampleJob.cid ≠ 7 := by
  have hfound := (reachable_sampleChecked admits_untorn fun _ _ h => h).step
    (e := Event.reserve true 7) ⟨trivial, .reserve (.found (k := 0) (l := sampleLease)
      (by decide) (by decide) (by decide) (by decide))⟩
  refine ⟨hfound.step (e := Event.setCid) ⟨trivial, .reserve (.setCid rfl (by decide))⟩, ?_,
    .job (.driverStart List.mem_cons_self rfl), rfl, rfl, by decide⟩
  have hone : ∀ k, k ≠ 0 → sampleRenamed.slots k = none := by decide
  intro k k' l l' hl hl' _
  have hzero : ∀ {k l}, sampleRenamed.slots k = some l → k = 0 := by
    intro k l hl
    by_contra hk
    rw [hone k hk] at hl
    cases hl
  rw [hzero hl, hzero hl']

end AmbaVirt.Low
