/-
A low slice is never leased to a second owner unscrubbed.

`low_slice_scrubbed` is about the log of any reachable state. Between a
grant of slice `i` to `v` and a later grant of `i` to another uuid the
log has a release by `v`, then a scrub of `i` that started and succeeded
in one server run (`Scrubbed`). When the scrub started the slice was
quarantined, no arena call on it was in flight, the last one of that run
had ended 4000 ms before, and the same time had passed since the release
or the reload that found the slice waiting for its scrub.

From a grant on, the slice is in one of three phases: the store still has
the lease (`Stored`); the lease was released and no scrub has succeeded
since (`Pending`); or a scrub as described is in the log. `phase_step`
is the one step lemma; a crash keeps the phase because the first two are
facts about the store.
-/
import AmbaVirt.Low.Inv
import AmbaVirt.Low.Commands

namespace AmbaVirt.Low

open Lib Function

variable {U : Type}

-- ==== the log

/-- The entries since the server last started, of a log newest first. -/
def currentRun : List (Obs U) → List (Obs U)
  | [] => []
  | .reloaded .. :: _ => []
  | o :: l => o :: currentRun l

/-- When the wait for the scrub of slice `i` began, seen from the entries
since its release at `at_`: at the release, or at the last reload if
that one found the slice waiting for its scrub. -/
def waitFrom (i : Fin 8) (at_ : Nat) : List (Obs U) → Option Nat
  | [] => some at_
  | .reloaded t pending :: _ => if pending i then some t else none
  | _ :: l => waitFrom i at_ l

def Obs.IsReload : Obs U → Prop
  | .reloaded .. => True
  | _ => False

/-- The entry belongs to no other scrub and to the same run. -/
def Obs.DuringScrub : Obs U → Prop
  | .reloaded .. | .scrubStarted .. | .scrubEnded .. => False
  | _ => True

/-- A scrub of slice `i` may start at `t`, the log being `before` since
the release at `at_` and `older` up to there. -/
structure MayScrub (i : Fin 8) (at_ t : Nat) (before older : List (Obs U)) :
    Prop where
  waited : ∃ t₀, waitFrom i at_ before = some t₀ ∧ t₀ + quarantineMs ≤ t
  ended : ∀ e, Obs.arenaEnded i e ∈ currentRun (before ++ older) → e + quarantineMs ≤ t

/-- Of the entries `b` since a grant of slice `i` to `v`, newest first:
`v` released the slice and a scrub of it started as it should and
succeeded after that. `a` is the log up to and including the grant. -/
def Scrubbed (v : U) (i : Fin 8) (b a : List (Obs U)) : Prop :=
  ∃ after during before sinceGrant at_ t jobs, b = after ++ .scrubEnded i true :: (during ++
      .scrubStarted i t true jobs :: (before ++ .released v i at_ :: sinceGrant)) ∧
    (∀ o ∈ during, o.DuringScrub) ∧
    (∀ j ∈ jobs, j.index ≠ i) ∧
    MayScrub i at_ t before (.released v i at_ :: (sinceGrant ++ a))

variable {i : Fin 8} {at_ : Nat} {n : List (Obs U)}

theorem waitFrom_append {l : List (Obs U)} (hn : ∀ o ∈ n, ¬ o.IsReload) :
    waitFrom i at_ (n ++ l) = waitFrom i at_ l := by
  induction n with
  | nil => rfl
  | cons o n ih =>
    have ho := hn o List.mem_cons_self
    have ih := ih fun o h => hn o (List.mem_cons_of_mem _ h)
    cases o with
    | reloaded t p => exact absurd trivial ho
    | _ => exact ih

variable {v : U} {b a : List (Obs U)}

theorem Scrubbed.later (h : Scrubbed v i b a) (n : List (Obs U)) : Scrubbed v i (n ++ b) a := by
  obtain ⟨after, during, before, sinceGrant, at_, t, jobs, rfl, h⟩ := h
  exact ⟨n ++ after, during, before, sinceGrant, at_, t, jobs, by rw [List.append_assoc], h⟩

-- ==== phases

/-- The store has the lease of slice `i` for `v`. -/
def Stored (s : Server U) (v : U) (i : Fin 8) : Prop :=
  ∃ l, Line.lease l ∈ s.store ∧ l.uuid = v ∧ l.index = i

/-- `v` released slice `i`, and no scrub has succeeded since. A scrub in
progress started as it should. -/
structure Pending (s : Server U) (v : U) (i : Fin 8)
    (b a : List (Obs U)) (before sinceGrant : List (Obs U)) (at_ : Nat) :
    Prop where
  log : b = before ++ .released v i at_ :: sinceGrant
  marked : s.scrub i = true
  free : ¬ s.IndexLeased i
  stored : Line.scrub i ∈ s.store
  waits : ∃ t₀, waitFrom i at_ before = some t₀ ∧ t₀ ≤ (s.arena i).released
  scrubbing : s.scrubber = .scrubbing i → ∃ during before' t jobs,
    before = during ++ .scrubStarted i t true jobs :: before' ∧
    (∀ o ∈ during, o.DuringScrub) ∧ (∀ j ∈ jobs, j.index ≠ i) ∧
    MayScrub i at_ t before' (.released v i at_ :: (sinceGrant ++ a))
  unscrubbed : s.scrubber ≠ .scrubbed i

/-- Where slice `i` is in its life, `b` being the log since its grant to
`v` and `a` the log up to it. -/
def Phase (s : Server U) (v : U) (i : Fin 8) (b a : List (Obs U)) : Prop :=
  Stored s v i ∨ (∃ before sinceGrant at_,
    Pending s v i b a before sinceGrant at_) ∨ Scrubbed v i b a

variable {s s' : Server U}

/-- What a step may change without ending the wait for a scrub; `n` is
what it logs. -/
theorem Pending.keep {before sinceGrant : List (Obs U)}
    (h : Pending s v i b a before sinceGrant at_) (hn : ∀ o ∈ n, ¬ o.IsReload)
    (hs : s'.scrub i = true) (hf : ¬ s'.IndexLeased i)
    (hst : Line.scrub i ∈ s'.store)
    (hr : (s'.arena i).released = (s.arena i).released)
    (hsc : s'.scrubber = .scrubbing i → s.scrubber = .scrubbing i ∧ ∀ o ∈ n, o.DuringScrub)
    (hun : s'.scrubber ≠ .scrubbed i) :
    Pending s' v i (n ++ b) a (n ++ before) sinceGrant at_ where
  log := by rw [h.log, List.append_assoc]
  marked := hs
  free := hf
  stored := hst
  waits := by
    rw [waitFrom_append hn, hr]
    exact h.waits
  scrubbing e := by
    obtain ⟨e', hq⟩ := hsc e
    obtain ⟨during, before', t, jobs, rfl, hd, hrest⟩ := h.scrubbing e'
    refine ⟨n ++ during, before', t, jobs, by rw [List.append_assoc], ?_, hrest⟩
    intro o ho
    rcases List.mem_append.mp ho with ho | ho
    · exact hq o ho
    · exact hd o ho
  unscrubbed := hun

/-- The step logs `n`, and every slice's phase goes on. -/
structure KeepsPhases (s s' : Server U) (n : List (Obs U)) : Prop where
  log : s'.log = n ++ s.log
  stored : ∀ ⦃v i b a⦄, s.log = b ++ a → Stored s v i → Phase s' v i (n ++ b) a
  pending : ∀ ⦃v i b a before sinceGrant at_⦄, s.log = b ++ a →
    Pending s v i b a before sinceGrant at_ → Phase s' v i (n ++ b) a

theorem KeepsPhases.phase (h : KeepsPhases s s' n) (hlog : s.log = b ++ a)
    (hp : Phase s v i b a) : Phase s' v i (n ++ b) a := by
  rcases hp with hs | ⟨_, _, _, hw⟩ | hc
  · exact h.stored hlog hs
  · exact h.pending hlog hw
  · exact .inr (.inr (hc.later n))

/-- While the store has a lease of slice `i` for `u`, a lease of the same
slice to another uuid is over and done with. -/
theorem scrubbed_of_stored {u : U} (h : s.Inv) (hu : Stored s u i) (hne : u ≠ v)
    (hp : Phase s v i b a) : Scrubbed v i b a := by
  obtain ⟨l, hl, rfl, rfl⟩ := hu
  rcases hp with ⟨l', hl', rfl, hi⟩ | ⟨_, _, _, hw⟩ | hc
  · exact absurd ((h.leases.storeOk.uuid_iff hl hl').mpr hi.symm) hne
  · obtain ⟨k, l', hl', -, -, hi⟩ := h.leases.stored_held hl
    exact absurd ⟨k, l', hl', hi⟩ hw.free
  · exact hc

-- ==== lease commands

/-- A save that drops no lease keeps every stored lease. -/
theorem stored_of_lines (hx : s.toLeases.Inv) {x : Leases U}
    (hst : s'.store = x.lines) (hslots : x.slots = s.slots) (h : Stored s v i) :
    Stored s' v i := by
  obtain ⟨l, hl, rfl, rfl⟩ := h
  obtain ⟨k, l', hl', -, hu, hi⟩ := hx.stored_held hl
  refine ⟨l', ?_, hu, hi⟩
  rw [hst, Leases.lease_mem_lines, hslots]
  exact ⟨k, hl'⟩

def Server.saveRelease (s : Server U) (k : Fin 8) (saved : Lease U) : Server U :=
  (s.withLeases (((s.setSlot k none).save true).goto .idle)).note
    (.released saved.uuid saved.index (s.arena saved.index).released)

/-- The wait for the scrub begins with the save of the release: the slice
is marked in the table and in the store, and the scrubber is not on it. -/
theorem pending_released {k : Fin 8} {saved : Lease U} (h : s.Inv)
    (ha : s.admin = .unbound k saved) (b a : List (Obs U)) :
    Pending (s.saveRelease k saved) saved.uuid saved.index
      (.released saved.uuid saved.index (s.arena saved.index).released :: b) a
      [] b (s.arena saved.index).released := by
  have hok := h.leases.admin_ok
  rw [Leases.AdminOk, ha] at hok
  obtain ⟨hk, hmark⟩ := hok
  have hslice : s.scrubber.slice ≠ some saved.index :=
    fun e => h.arena.slice_ne hk e rfl
  refine ⟨rfl, hmark, ?_, ?_, ⟨_, rfl, Nat.le_refl _⟩, ?_, ?_⟩
  · rintro ⟨k₀, l₀, hl₀, he⟩
    rcases Leases.slots_setSlot hl₀ with ⟨-, e⟩ | ⟨hkk, e⟩
    · cases e
    · exact hkk (h.leases.index_inj e hk he)
  · show Line.scrub saved.index ∈ (s.setSlot k none).lines
    rw [Leases.scrub_mem_lines]
    exact hmark
  · intro (e : s.scrubber = _)
    exact absurd (by rw [e]; rfl) hslice
  · intro (e : s.scrubber = _)
    exact absurd (by rw [e]; rfl) hslice

theorem keeps_release {k : Fin 8} {saved : Lease U} (h : s.Inv) (ha : s.admin = .unbound k saved) :
    KeepsPhases s (s.saveRelease k saved)
      [.released saved.uuid saved.index (s.arena saved.index).released] := by
  have hk := h.leases.slot_saved (.inr (.inl ha))
  refine ⟨rfl, ?_, ?_⟩
  · intro v i b a _ hs
    obtain ⟨l, hl, rfl, rfl⟩ := hs
    obtain ⟨k', l', hl', -, hu, hi⟩ := h.leases.stored_held hl
    by_cases hkk : k' = k
    · subst hkk
      rw [hk] at hl'
      cases hl'
      rw [← hu, ← hi]
      exact .inr (.inl ⟨_, _, _, pending_released h ha b a⟩)
    · left
      refine ⟨l', ?_, hu, hi⟩
      show Line.lease l' ∈ (s.setSlot k none).lines
      rw [Leases.lease_mem_lines]
      refine ⟨k', ?_⟩
      show update _ _ _ _ = _
      rw [update_of_ne hkk, hl']
  · intro v i b a before sinceGrant at_ _ hp
    refine .inr (.inl ⟨_, _, _, hp.keep (n := [_]) ?_ hp.marked ?_
      ?_ rfl (fun e => ⟨e, ?_⟩) hp.unscrubbed⟩)
    · simp [Obs.IsReload]
    · rintro ⟨k₀, l₀, hl₀, rfl⟩
      rcases Leases.slots_setSlot hl₀ with ⟨-, e⟩ | ⟨-, e⟩
      · cases e
      · exact hp.free (Leases.indexLeased_of_slot e)
    · show Line.scrub i ∈ (s.setSlot k none).lines
      rw [Leases.scrub_mem_lines]
      exact hp.marked
    · simp [Obs.DuringScrub]

-- ==== scrubber and jobs

/-- What the log says of the end of arena calls. -/
structure Ends (s : Server U) : Prop where
  logged : ∀ ⦃i e⦄, Obs.arenaEnded i e ∈ currentRun s.log → e ≤ (s.arena i).lastEnd
  past : ∀ i, (s.arena i).lastEnd ≤ s.now

theorem mem_currentRun_append {l : List (Obs U)} {o : Obs U}
    (h : o ∈ currentRun (n ++ l)) : o ∈ n ∨ o ∈ currentRun l := by
  induction n with
  | nil => exact .inr h
  | cons p n ih =>
    cases p with
    | reloaded t q => cases h
    | _ =>
      rcases List.mem_cons.mp h with e | h
      · exact .inl (e ▸ List.mem_cons_self)
      · exact (ih h).imp_left (List.mem_cons_of_mem _)

theorem Ends.keep (h : Ends s) (hlog : s'.log = n ++ s.log) (hn : ∀ i t, .arenaEnded i t ∉ n)
    (hlast : ∀ i, (s'.arena i).lastEnd = (s.arena i).lastEnd)
    (hnow : s.now ≤ s'.now) : Ends s' where
  logged i e he := by
    rw [hlog] at he
    rw [hlast]
    rcases mem_currentRun_append he with he | he
    · exact absurd he (hn i e)
    · exact h.logged he
  past i := by
    rw [hlast]
    exact (h.past i).trans hnow

theorem Ends.endJob (h : Ends s) (j : Job) : Ends (s.endJob j) where
  logged i e he := by
    show e ≤ ((s.setArena j.index (·.end_ s.now)).arena i).lastEnd
    rcases List.mem_cons.mp he with heq | he
    · cases heq
      rw [setArena_self]
      exact Nat.le_refl _
    have hle := h.logged he
    by_cases hi : i = j.index
    · rw [hi, setArena_self]
      exact hle.trans (h.past i)
    · rw [setArena_ne _ _ hi]
      exact hle
  past i := by
    show ((s.setArena j.index (·.end_ s.now)).arena i).lastEnd ≤ s.now
    by_cases hi : i = j.index
    · rw [hi, setArena_self]
      exact Nat.le_refl _
    · rw [setArena_ne _ _ hi]
      exact h.past i

theorem setArena_lastEnd (s : Server U) (j : Fin 8) {f : ArenaSlot → ArenaSlot}
    (hf : ∀ a, (f a).lastEnd = a.lastEnd) (i : Fin 8) :
    ((s.setArena j f).arena i).lastEnd = (s.arena i).lastEnd := by
  by_cases hi : i = j
  · rw [hi, setArena_self, hf]
  · rw [setArena_ne _ _ hi]

variable {e : Event U}

theorem JobStep.ends (hst : JobStep s e s') (h : Ends s) : Ends s' := by
  cases hst with
  | begin_ =>
    exact h.keep (n := []) rfl (by simp)
      (setArena_lastEnd s _ (f := (·.begin_)) fun _ => rfl) (Nat.le_refl _)
  | recheck | driverStart =>
    exact h.keep (n := []) rfl (by simp) (fun _ => rfl) (Nat.le_refl _)
  | refuse | end_ => exact h.endJob _

theorem ScrubStep.lastEnd (hst : ScrubStep s e s') :
    (∀ i, (s'.arena i).lastEnd = (s.arena i).lastEnd) ∧ s'.now = s.now := by
  cases hst with
  | pending | due | start | done => exact ⟨fun _ => rfl, rfl⟩
  | clear => exact ⟨setArena_lastEnd s _ (f := (·.unquarantine)) fun _ => rfl, rfl⟩

/-- A scrub that starts on a slice past its due check starts as it
should. -/
theorem Pending.mayScrub {before sinceGrant : List (Obs U)}
    (h : Pending s v i b a before sinceGrant at_) (hlog : s.log = b ++ a)
    (hends : Ends s) (hdue : (s.arena i).ScrubDue s.now) :
    MayScrub i at_ s.now before (.released v i at_ :: (sinceGrant ++ a)) := by
  obtain ⟨-, -, hdue⟩ := hdue
  refine ⟨?_, fun e he => ?_⟩
  · obtain ⟨t₀, ht, hle⟩ := h.waits
    refine ⟨t₀, ht, ?_⟩
    split at hdue <;> omega
  have hle : e ≤ (s.arena i).lastEnd := by
    apply hends.logged
    rw [hlog, h.log, List.append_assoc]
    exact he
  split at hdue <;> omega

/-- A step that leaves the store and the scrubber, and whatever it logs
may stand in a wait and a scrub. -/
theorem KeepsPhases.of_frame (hlog : s'.log = n ++ s.log) (hstore : s'.store = s.store)
    (hsc : s'.scrubber = s.scrubber) (hn : ∀ o ∈ n, ¬ o.IsReload ∧ o.DuringScrub)
    (hslice : ∀ i, s.scrub i = true → ¬ s.IndexLeased i →
      s'.scrub i = true ∧ ¬ s'.IndexLeased i ∧ (s'.arena i).released = (s.arena i).released) :
    KeepsPhases s s' n := by
  refine ⟨hlog, ?_, ?_⟩
  · intro v i b a _ hs
    left
    rw [Stored, hstore]
    exact hs
  · intro v i b a before sinceGrant at_ _ hp
    obtain ⟨hmark, hfree, hreleased⟩ := hslice i hp.marked hp.free
    refine .inr (.inl ⟨_, _, _, hp.keep (fun o ho => (hn o ho).1) hmark hfree ?_ hreleased ?_ ?_⟩)
    · rw [hstore]
      exact hp.stored
    · rw [hsc]
      exact fun e => ⟨e, fun o ho => (hn o ho).2⟩
    · rw [hsc]
      exact hp.unscrubbed

theorem ScrubStep.keeps (hst : ScrubStep s e s') (h : s.Inv) (hends : Ends s) :
    ∃ n, KeepsPhases s s' n ∧ n.length ≤ 1 ∧ (∀ u i, .granted u i ∉ n) ∧
      ∀ i t, .arenaEnded i t ∉ n := by
  cases hst with
  | @pending j hidle hun hs hfree =>
    refine ⟨[], ⟨rfl, fun _ _ _ _ _ hs => .inl hs, ?_⟩, by simp, by simp, by simp⟩
    intro v i b a before sinceGrant at_ _ hp
    exact .inr (.inl ⟨_, _, _, hp.keep (n := []) (by simp) hp.marked hp.free
      hp.stored rfl (by simp) (by simp)⟩)
  | @due j hj =>
    refine ⟨[], ⟨rfl, fun _ _ _ _ _ hs => .inl hs, ?_⟩, by simp, by simp, by simp⟩
    intro v i b a before sinceGrant at_ _ hp
    refine .inr (.inl ⟨_, _, _, hp.keep (n := []) (by simp) hp.marked hp.free hp.stored rfl ?_ ?_⟩)
    · split <;> simp
    · dsimp only
      split <;> simp
  | @start j hj =>
    have hdue := h.arena.scrubber_due (i := j) (by rw [hj]; rfl)
    refine ⟨[.scrubStarted j s.now (s.arena j).quarantined s.jobs],
      ⟨rfl, fun _ _ _ _ _ hs => .inl hs, ?_⟩, by simp, by simp, by simp⟩
    intro v i b a before sinceGrant at_ hlog hp
    refine .inr (.inl ⟨.scrubStarted j s.now (s.arena j).quarantined s.jobs :: before,
        sinceGrant, at_, ?_, hp.marked, hp.free, hp.stored, hp.waits, ?_,
        by simp [Server.note]⟩)
    · rw [hp.log]
      rfl
    intro e
    obtain rfl : j = i := by simpa [Server.note] using e
    refine ⟨[], before, s.now, s.jobs, ?_, by simp, ?_, hp.mayScrub hlog hends hdue⟩
    · rw [hdue.1]
      rfl
    · intro job hjob
      exact (h.arena.due_ne hjob (by rw [hj]; rfl)).symm
  | @done j ok hj =>
    refine ⟨[.scrubEnded j ok], ⟨rfl, fun _ _ _ _ _ hs => .inl hs, ?_⟩, by simp, by simp, by simp⟩
    intro v i b a before sinceGrant at_ _ hp
    by_cases hok : j = i ∧ ok = true
    · obtain ⟨rfl, rfl⟩ := hok
      obtain ⟨during, before', t, jobs, rfl, hrest⟩ := hp.scrubbing hj
      refine .inr (.inr ⟨[], during, before', sinceGrant, at_, t, jobs, ?_, hrest⟩)
      rw [hp.log]
      simp
    · refine .inr (.inl ⟨_, _, _, hp.keep (n := [_]) ?_ hp.marked hp.free hp.stored rfl ?_ ?_⟩)
      · simp [Obs.IsReload]
      · cases ok <;> simp [Server.note]
      · cases ok with
        | true => simpa [Server.note] using hok
        | false => simp [Server.note]
  | @clear j ok hj hun =>
    obtain ⟨hslots, hscrub, -⟩ := (s.setScrub j false).save_frame ok
    refine ⟨[], ⟨rfl, ?_, ?_⟩, by simp, by simp, by simp⟩
    · intro v i b a _ hs
      left
      cases ok with
      | true =>
        exact stored_of_lines (x := s.setScrub j false) h.leases rfl rfl hs
      | false => exact hs
    · intro v i b a before sinceGrant at_ _ hp
      have hne : i ≠ j := by
        rintro rfl
        exact hp.unscrubbed hj
      have hmark : (s.setScrub j false).scrub i = true := by
        show update _ _ _ _ = _
        rw [update_of_ne hne]
        exact hp.marked
      refine .inr (.inl ⟨_, _, _, hp.keep (n := []) (by simp) ?_ ?_ ?_ ?_
        (by simp [Server.withLeases, Server.setArena])
        (by simp [Server.withLeases, Server.setArena])⟩)
      · show ((s.setScrub j false).save ok).scrub i = true
        rw [hscrub]
        exact hmark
      · rintro ⟨k, l, hl, rfl⟩
        replace hl : ((s.setScrub j false).save ok).slots k = some l := hl
        rw [hslots] at hl
        exact hp.free (Leases.indexLeased_of_slot hl)
      · cases ok with
        | true =>
          show _ ∈ (s.setScrub j false).lines
          rw [Leases.scrub_mem_lines]
          exact hmark
        | false => exact hp.stored
      · show ((s.setArena j (·.unquarantine)).arena i).released = _
        rw [setArena_ne _ _ hne]

theorem JobStep.keeps (hst : JobStep s e s') :
    KeepsPhases s s' [] ∨ ∃ i, KeepsPhases s s' [.arenaEnded i s.now] := by
  have hreleased : ∀ (j : Fin 8) (f : ArenaSlot → ArenaSlot),
      (∀ a, (f a).released = a.released) → ∀ i,
      ((s.setArena j f).arena i).released = (s.arena i).released := by
    intro j f hf i
    by_cases hi : i = j
    · rw [hi, setArena_self, hf]
    · rw [setArena_ne _ _ hi]
  have hend : ∀ j, KeepsPhases s (s.endJob j) [.arenaEnded j.index s.now] := by
    intro j
    refine .of_frame rfl rfl rfl ?_ fun i hm hf =>
      ⟨hm, hf, hreleased _ (·.end_ s.now) (fun _ => rfl) i⟩
    simp [Obs.IsReload, Obs.DuringScrub]
  cases hst with
  | begin_ =>
    exact .inl (.of_frame rfl rfl rfl (by simp) fun i hm hf =>
      ⟨hm, hf, hreleased _ (·.begin_) (fun _ => rfl) i⟩)
  | recheck | driverStart =>
    exact .inl (.of_frame rfl rfl rfl (by simp) fun _ hm hf => ⟨hm, hf, rfl⟩)
  | refuse | end_ => exact .inr ⟨_, hend _⟩

variable [DecidableEq U]

theorem ReserveStep.store (hst : ReserveStep s e s') :
    s'.store = s.store ∨ s'.store = s.toLeases.lines := by
  cases hst with
  | found | setCid | wakeFound | dropFilled | grant => exact .inl rfl
  | @saveFound k ok ha =>
    cases ok with
    | true => exact .inr rfl
    | false => exact .inl rfl
  | search | wakeSearch => exact .inl (s.search_store _ _).1
  | timeout => exact .inl (s.search_store _ _).2
  | saveFilled => exact .inr rfl

theorem ReserveStep.log (hst : ReserveStep s e s') (hx : s.toLeases.Inv) : s'.log = s.log ∨
      ∃ u i, s'.log = .granted u i :: s.log ∧ Stored s u i ∧
        Stored s' u i := by
  cases hst with
  | found =>
    left
    split <;> rfl
  | grant ha hl =>
    right
    obtain ⟨l₀, hl₀, hu, hi⟩ := hx.held_stored hl (by simp [ha])
    exact ⟨_, _, rfl, ⟨l₀, hl₀, hu, hi⟩, l₀, hl₀, hu, hi⟩
  | _ => exact .inl rfl

theorem ReserveStep.keeps (hst : ReserveStep s e s') (h : s.Inv)
    (hlog : s'.log = n ++ s.log) (hn : ∀ o ∈ n, ∃ u i, o = .granted u i) :
    KeepsPhases s s' n where
  log := hlog
  stored v i b a _ hs := by
    left
    rcases hst.store with e | e
    · obtain ⟨l, hl, he⟩ := hs
      exact ⟨l, e ▸ hl, he⟩
    · exact stored_of_lines h.leases e rfl hs
  pending v i b a before sinceGrant at_ _ hp := by
    obtain ⟨harena, -, hscrubber, -⟩ := hst.frame
    have ht := hst.takes
    refine .inr (.inl ⟨_, _, _, hp.keep ?_ ?_ ?_ ?_ ?_ ?_ ?_⟩)
    · intro o ho
      obtain ⟨u, i, rfl⟩ := hn o ho
      exact id
    · rw [ht.scrub]
      exact hp.marked
    · intro hl
      rcases ht.leased hl with hl | hs
      · exact hp.free hl
      · rw [hp.marked] at hs
        cases hs
    · rcases hst.store with e | e
      · rw [e]
        exact hp.stored
      · rw [e, Leases.scrub_mem_lines]
        exact hp.marked
    · rw [harena]
    · rw [hscrubber]
      refine fun hsc => ⟨hsc, fun o ho => ?_⟩
      obtain ⟨u, i, rfl⟩ := hn o ho
      trivial
    · rw [hscrubber]
      exact hp.unscrubbed

theorem ReleaseStep.keeps (hst : ReleaseStep s e s') (h : s.Inv) :
    KeepsPhases s s' [] ∨ ∃ u i t, KeepsPhases s s' [.released u i t] := by
  have hne : ∀ {k l}, s.slots k = some l → ∀ {i}, ¬ s.IndexLeased i → i ≠ l.index := by
    rintro k l hl _ hi rfl
    exact hi (Leases.indexLeased_of_slot hl)
  cases hst with
  | @quarantine uuid epoch k l ha hk hl hep =>
    refine .inl (.of_frame rfl rfl rfl (by simp) fun i hm hf => ⟨hm, hf, ?_⟩)
    show ((s.setArena l.index (·.quarantine s.now)).arena i).released = _
    rw [setArena_ne _ _ (hne hl hf)]
  | @unbind k saved ha =>
    refine .inl (.of_frame rfl rfl rfl (by simp) fun i hm hf => ⟨?_, hf, rfl⟩)
    have hi := hne (h.leases.slot_saved (.inl ha)) hf
    show update _ _ _ _ = _
    rw [update_of_ne hi]
    exact hm
  | @save k saved ha =>
    exact .inr ⟨_, _, _, keeps_release h ha⟩
  | @restore k saved ha =>
    have hk := h.leases.slot_saved (.inr (.inl ha))
    refine .inl (.of_frame rfl rfl rfl (by simp) fun i hm hf => ⟨?_, ?_, rfl⟩)
    · show update _ _ _ _ = _
      rw [update_of_ne (hne hk hf)]
      exact hm
    rintro ⟨k₀, l₀, hl₀, rfl⟩
    rcases Leases.slots_setSlot hl₀ with ⟨-, e⟩ | ⟨-, e⟩
    · cases e
      exact hf (Leases.indexLeased_of_slot hk)
    · exact hf (Leases.indexLeased_of_slot e)
  | @reopen k saved ha =>
    have hk := h.leases.slot_saved (.inr (.inr (.inl ha)))
    refine .inl (.of_frame rfl rfl rfl (by simp) fun i hm hf => ⟨hm, hf, ?_⟩)
    show ((s.setArena saved.index (·.unquarantine)).arena i).released = _
    rw [setArena_ne _ _ (hne hk hf)]
  | rebind ha =>
    exact .inl (.of_frame rfl rfl rfl (by simp) fun _ hm hf => ⟨hm, hf, rfl⟩)

-- ==== reloads

theorem keeps_start (h : s.Inv) (now : Nat) : KeepsPhases s (.start now s.store s.log)
      [.reloaded now fun i => decide (Line.scrub i ∈ s.store)] := by
  have hs := started_start h.leases.storeOk now s.log
  refine ⟨hs.log_eq, ?_, ?_⟩
  · intro v i b a _ hstored
    left
    rw [Stored, hs.store_eq]
    exact hstored
  · intro v i b a before sinceGrant at_ _ hp
    have hfree : ¬ (Server.start now s.store s.log).IndexLeased i := by
      rintro ⟨k, l, hl, rfl⟩
      obtain ⟨l', hl', -, hi⟩ := (hs.holds l.uuid l.index).mp ⟨k, l, hl, rfl, rfl⟩
      exact h.leases.store_scrub hl' (hi ▸ hp.stored)
    refine .inr (.inl ⟨.reloaded now (fun i => decide (Line.scrub i ∈ s.store)) :: before,
        sinceGrant, at_, ?_, (hs.scrub i).mpr hfree, hfree, ?_, ?_, ?_, ?_⟩)
    · rw [hp.log]
      rfl
    · rw [hs.store_eq]
      exact hp.stored
    · refine ⟨now, ?_, ?_⟩
      · simp [waitFrom, hp.stored]
      · rw [hs.arena, if_neg hfree, if_pos hp.stored]
        exact Nat.le_refl _
    · simp [hs.scrubber_eq]
    · simp [hs.scrubber_eq]

theorem ReleaseStep.lastEnd (hst : ReleaseStep s e s') :
    (∀ i, (s'.arena i).lastEnd = (s.arena i).lastEnd) ∧ s'.now = s.now := by
  cases hst with
  | quarantine =>
    exact ⟨setArena_lastEnd s _ (f := (·.quarantine s.now)) fun _ => rfl, rfl⟩
  | unbind | save | restore | rebind => exact ⟨fun _ => rfl, rfl⟩
  | reopen =>
    exact ⟨setArena_lastEnd s _ (f := (·.unquarantine)) fun _ => rfl, rfl⟩

-- ==== every step

/-- One step: it logs at most one entry, every slice's phase goes on, and
a lease it grants is in the store. -/
theorem phase_step (hst : Step s e s') (h : s.Inv) (hends : Ends s) :
    ∃ n, KeepsPhases s s' n ∧ n.length ≤ 1 ∧
      (∀ u i, .granted u i ∈ n → Stored s u i ∧ Stored s' u i) ∧ Ends s' := by
  cases hst with
  | tick ms =>
    exact ⟨[], .of_frame rfl rfl rfl (by simp) fun _ hm hf => ⟨hm, hf, rfl⟩, by simp, by simp,
      hends.keep (n := []) rfl (by simp) (fun _ => rfl) (Nat.le_add_right _ _)⟩
  | crash now =>
    have hs := started_start h.leases.storeOk now s.log
    refine ⟨_, keeps_start h now, by simp, by simp, ?_, fun i => ?_⟩
    · intro i e he
      cases he
    · rw [hs.arena]
      split <;> exact Nat.zero_le _
  | reserve hst =>
    obtain ⟨harena, hnow, -, -⟩ := hst.frame
    have hlast : ∀ i, (s'.arena i).lastEnd = (s.arena i).lastEnd := by
      intro i
      rw [harena]
    rcases hst.log h.leases with hlog | ⟨u, i, hlog, hstored⟩
    · exact ⟨[], hst.keeps h hlog (by simp), by simp, by simp,
        hends.keep (n := []) hlog (by simp) hlast hnow.ge⟩
    refine ⟨[.granted u i], hst.keeps h hlog (by simp), by simp, ?_,
      hends.keep (n := [.granted u i]) hlog (by simp) hlast hnow.ge⟩
    intro u' i' hmem
    cases List.mem_singleton.mp hmem
    exact hstored
  | release hst =>
    obtain ⟨hlast, hnow⟩ := hst.lastEnd
    rcases hst.keeps h with hk | ⟨u, i, t, hk⟩
    · exact ⟨_, hk, by simp, by simp, hends.keep hk.log (by simp) hlast hnow.ge⟩
    · exact ⟨_, hk, by simp, by simp, hends.keep hk.log (by simp) hlast hnow.ge⟩
  | scrub hst =>
    obtain ⟨hlast, hnow⟩ := hst.lastEnd
    obtain ⟨n, hk, hlen, hgrant, hend⟩ := hst.keeps h hends
    exact ⟨n, hk, hlen, fun u i hm => absurd hm (hgrant u i), hends.keep hk.log hend hlast hnow.ge⟩
  | job hst =>
    rcases hst.keeps with hk | ⟨i, hk⟩
    · exact ⟨_, hk, by simp, by simp, hst.ends hends⟩
    · exact ⟨_, hk, by simp, by simp, hst.ends hends⟩

/-- What every reachable state knows of its log. -/
structure History (s : Server U) : Prop where
  ends : Ends s
  phase : ∀ ⦃v i b a⦄, s.log = b ++ .granted v i :: a → Phase s v i b (.granted v i :: a)
  scrubbed : ∀ ⦃u v i c b a⦄, s.log = c ++ .granted u i :: (b ++ .granted v i :: a) → u ≠ v →
    Scrubbed v i b (.granted v i :: a)

theorem history_reachable (h : (serverSystem U).Reachable s) : History s := by
  refine System.Reachable.induct (I := History) ?_ ?_ h
  · rintro s ⟨now, rfl⟩
    have hs : Started now [] [] (Server.start (U := U) now [] []) :=
      started_start ⟨by simp, by simp, by simp⟩ now []
    have hnone : ∀ {v i} {b a : List (Obs U)},
        (Server.start now [] []).log ≠ b ++ .granted v i :: a := by
      intro v i b a e
      have hmem : Obs.granted v i ∈ (Server.start now [] []).log := by
        rw [e]
        simp
      rw [hs.log_eq] at hmem
      simp at hmem
    refine ⟨⟨?_, ?_⟩, fun _ _ _ _ e => absurd e hnone, fun _ _ _ _ _ _ e _ => absurd e hnone⟩
    · intro i e he
      cases he
    · intro i
      rw [hs.arena]
      split <;> exact Nat.zero_le _
  · intro s e s' hr hist hst
    obtain ⟨n, hk, hlen, hgrant, hends⟩ :=
      phase_step hst (inv_reachable hr) hist.ends
    refine ⟨hends, ?_, ?_⟩
    · intro v i b a hlog
      rw [hk.log] at hlog
      match n, b, hlen with
      | [], b, _ => exact hk.phase hlog (hist.phase hlog)
      | [o], [], _ =>
        cases hlog
        exact .inl (hgrant v i (by simp)).2
      | [o], p :: b, _ =>
        obtain ⟨rfl, htail⟩ := List.cons.inj hlog
        exact hk.phase htail (hist.phase htail)
    · intro u v i c b a hlog hne
      rw [hk.log] at hlog
      match n, c, hlen with
      | [], c, _ => exact hist.scrubbed hlog hne
      | [o], [], _ =>
        obtain ⟨rfl, htail⟩ := List.cons.inj hlog
        have hgranted := (hgrant u i (by simp)).1
        exact scrubbed_of_stored (inv_reachable hr) hgranted hne (hist.phase htail)
      | [o], p :: c, _ =>
        obtain ⟨rfl, htail⟩ := List.cons.inj hlog
        exact hist.scrubbed htail hne

/-- Whenever RESERVE_LOW grants slice `i` to `u` after a grant of `i` to
another uuid `v`, the slice was scrubbed after `v`'s release. -/
theorem low_slice_scrubbed {s : Server U} (h : (serverSystem U).Reachable s) {u v : U} {i : Fin 8}
    {c b a : List (Obs U)}
    (hlog : s.log = c ++ .granted u i :: (b ++ .granted v i :: a))
    (hne : u ≠ v) : Scrubbed v i b (.granted v i :: a) :=
  (history_reachable h).scrubbed hlog hne

-- The lease of `sampleLeased` is released and slice 0 waits for its scrub.

def sampleWaiting : Server Bool :=
  { sampleLeased.released 0 sampleLease with
    now := (sampleLeased.released 0 sampleLease).now + 4000 }

def sampleRelet : Server Bool :=
  (sampleWaiting.scrubRound 0).reserved 0 ⟨false, 0, 2, 6⟩

theorem reachable_sampleRelet : (serverSystem Bool).Reachable sampleRelet := by
  have hC : Admits fun (_ : Server Bool) _ => True := fun _ _ _ => trivial
  have hreleased := reachable_released hC true 0 sampleLease
    (reachable_sampleLeased hC) (by decide) (by decide)
    (by decide)
  have hwaiting : ((serverSystem Bool).restrict _).Reachable sampleWaiting :=
    hreleased.step ⟨trivial, .tick _ 4000⟩
  have hscrubbed := reachable_scrubRound hC 0 hwaiting (by decide)
    (by decide) (by decide) (by decide)
    (by decide)
  refine (reachable_reserved hC false 6 0 0 hscrubbed ?_ ?_ ?_ ?_ ?_ ?_).of_restrict
  all_goals decide

theorem low_slice_scrubbed_relet : Scrubbed true 0
      [.scrubEnded 0 true, .scrubStarted 0 14000 true [], .released true 0 10000]
      (.granted true 0 :: sampleFree.log) :=
  low_slice_scrubbed (c := []) reachable_sampleRelet (u := false) rfl (by decide)

end AmbaVirt.Low
