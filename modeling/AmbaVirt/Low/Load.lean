/-
A new server run: what `load` makes of the store, and what the binding
table says about the leases.

# The reload

`load` skips a line whose uuid or slice it has already seen. The store
of a run has no such lines that disagree (`StoreOk`), so the new table
holds the leases of the old one, slot numbers aside (`start_held`), and
nothing else (`start_stored`). A slice without a lease comes back marked
and quarantined.
-/
import AmbaVirt.Low.Leases

namespace AmbaVirt.Low

open Function

variable {U : Type}

-- ==== bindings

namespace Binds

def Distinct (b : Binds) : Prop :=
  ∀ ⦃k k' c i i'⦄, b k = some (c, i) → b k' = some (c, i') → k = k'

end Binds

variable {b : Binds} {c : UInt32} {k : Fin 8}

theorem findCid_some (h : findCid b c = some k) : ∃ i, b k = some (c, i) := by
  rw [findCid] at h
  split at h
  · cases h
  have hk := Fin.eq_true_of_find?_eq_some h
  obtain ⟨⟨c', i⟩, hb, hc⟩ := Option.any_eq_true _ _ |>.mp hk
  obtain rfl : c' = c := by simpa using hc
  exact ⟨i, hb⟩

theorem findCid_none (hc : c ≠ 0) (h : findCid b c = none) (k : Fin 8)
    (i : Fin 8) : b k ≠ some (c, i) := by
  rw [findCid, if_neg hc] at h
  intro hk
  have := Fin.eq_false_of_find?_eq_none h k
  simp [hk] at this

variable {i : Fin 8}

theorem held_some (h : held b c = some i) : ∃ k, b k = some (c, i) := by
  rw [held, Option.bind_eq_some_iff] at h
  obtain ⟨k, hk, hi⟩ := h
  obtain ⟨i', hb⟩ := findCid_some hk
  rw [hb] at hi
  cases hi
  exact ⟨k, hb⟩

/-- Where `bind` writes, and that no other entry has the cid. -/
theorem bind_eq (hd : b.Distinct) (c : UInt32) (i : Fin 8) :
    bind b c i = b ∨ ∃ k, bind b c i = update b k (some (c, i)) ∧
      ∀ k' i', b k' = some (c, i') → k' = k := by
  rw [bind]
  split
  · exact .inl rfl
  rename_i hc
  cases hf : findCid b c with
  | some k =>
    obtain ⟨i₀, hk⟩ := findCid_some hf
    exact .inr ⟨k, rfl, fun k' i' hk' => hd hk' hk⟩
  | none =>
    cases hfree : Fin.find? fun k => (b k).isNone with
    | none => exact .inl rfl
    | some k => exact .inr ⟨k, rfl, fun k' i' h => absurd h (findCid_none hc hf k' i')⟩

theorem Binds.Distinct.bind (hd : b.Distinct) (c : UInt32) (i : Fin 8) :
    Binds.Distinct (bind b c i) := by
  rcases bind_eq hd c i with e | ⟨k, e, hk⟩
  · rw [e]
    exact hd
  rw [e]
  intro k₁ k₂ c' i₁ i₂ h₁ h₂
  rw [update_apply] at h₁ h₂
  split at h₁ <;> split at h₂
  · rename_i e₁ e₂
    rw [e₁, e₂]
  · rename_i e₁ _
    cases h₁
    rw [e₁, hk _ _ h₂]
  · rename_i _ e₂
    cases h₂
    rw [e₂, hk _ _ h₁]
  · exact hd h₁ h₂

theorem bind_some (hd : b.Distinct) {c' : UInt32} {i' : Fin 8} (h : bind b c i k = some (c', i')) :
    (c' = c ∧ i' = i) ∨ b k = some (c', i') := by
  rcases bind_eq hd c i with e | ⟨k₀, e, -⟩
  · exact .inr (e ▸ h)
  rw [e, update_apply] at h
  split at h
  · cases h
    exact .inl ⟨rfl, rfl⟩
  · exact .inr h

theorem unbind_some (hd : b.Distinct) {c' : UInt32} {i' : Fin 8} (hc : c ≠ 0)
    (h : unbind b c k = some (c', i')) :
    b k = some (c', i') ∧ c' ≠ c := by
  rw [unbind] at h
  cases hf : findCid b c with
  | none =>
    rw [hf] at h
    refine ⟨h, ?_⟩
    rintro rfl
    exact findCid_none hc hf k i' h
  | some k₀ =>
    rw [hf] at h
    obtain ⟨i₀, hk₀⟩ := findCid_some hf
    dsimp only at h
    rw [update_apply] at h
    split at h
    · cases h
    rename_i hne
    refine ⟨h, ?_⟩
    rintro rfl
    exact hne (hd h hk₀)

theorem Binds.Distinct.unbind (hd : b.Distinct) (c : UInt32) : Binds.Distinct (unbind b c) := by
  rw [Low.unbind]
  split
  · intro k₁ k₂ c' i₁ i₂ h₁ h₂
    rw [update_apply] at h₁ h₂
    split at h₁
    · cases h₁
    · split at h₂
      · cases h₂
      · exact hd h₁ h₂
  · exact hd

/-- A binding speaks of a lease: its cid and its slice. -/
def BindsHeld (b : Binds) (x : Leases U) : Prop :=
  ∀ ⦃k c i⦄, b k = some (c, i) → ∃ k' l, x.slots k' = some l ∧ l.cid = c ∧ l.index = i

-- ==== loads

/-- Uuid `u` holds slice `i`. -/
def Leases.Holds (x : Leases U) (u : U) (i : Fin 8) : Prop :=
  ∃ k l, x.slots k = some l ∧ l.uuid = u ∧ l.index = i

/-- What `load` may expect of the store a run leaves. -/
structure StoreOk (all : List (Line U)) : Prop where
  nonzero : ∀ ⦃l⦄, Line.lease l ∈ all → l.epoch ≠ 0 ∧ l.cid ≠ 0
  uuid_iff : ∀ ⦃l l'⦄, Line.lease l ∈ all → Line.lease l' ∈ all →
    (l.uuid = l'.uuid ↔ l.index = l'.index)
  scrub : ∀ ⦃l⦄, Line.lease l ∈ all → Line.scrub l.index ∉ all

theorem Leases.Inv.storeOk {x : Leases U} (h : x.Inv) : StoreOk x.store where
  nonzero := h.store_nonzero
  uuid_iff l l' hl hl' := by
    obtain ⟨k, m, hk, -, hu, hi⟩ := h.stored_held hl
    obtain ⟨k', m', hk', -, hu', hi'⟩ := h.stored_held hl'
    rw [← hu, ← hi, ← hu', ← hi']
    constructor
    · intro e
      obtain rfl := h.uuid_inj hk hk' e
      rw [hk] at hk'
      cases hk'
      rfl
    · intro e
      obtain rfl := h.index_inj hk hk' e
      rw [hk] at hk'
      cases hk'
      rfl
  scrub := h.store_scrub

/-- The table while `load` reads the lines `all`. -/
structure Loading (all : List (Line U)) (s : Server U) : Prop where
  index_inj : s.Distinct Lease.index
  uuid_inj : s.Distinct Lease.uuid
  slots_mem : ∀ ⦃k l⦄, s.slots k = some l → Line.lease l ∈ all
  scrub_mem : ∀ ⦃i⦄, s.scrub i = true → Line.scrub i ∈ all
  binds_inj : Binds.Distinct s.binds
  binds_held : BindsHeld s.binds s.toLeases

/-- `load` only adds leases and marks. -/
structure Grows (s s' : Server U) : Prop where
  slots : ∀ ⦃k l⦄, s.slots k = some l → s'.slots k = some l
  scrub : ∀ ⦃i⦄, s.scrub i = true → s'.scrub i = true

variable {s : Server U}

theorem Grows.trans {s' s'' : Server U} (h : Grows s s') (h' : Grows s' s'') :
    Grows s s'' :=
  ⟨fun _ _ hk => h'.slots (h.slots hk), fun _ hi => h'.scrub (h.scrub hi)⟩

theorem Grows.holds {s' : Server U} (h : Grows s s') {u : U} (hu : s.Holds u i) : s'.Holds u i := by
  obtain ⟨k, l, hk, he⟩ := hu
  exact ⟨k, l, h.slots hk, he⟩

namespace Server

/-- The server after `load` took the lease of a line. -/
def addLease (s : Server U) (k : Fin 8) (l : Lease U) : Server U :=
  (s.withLeases { s.setSlot k (some l) with
      nextEpoch := if l.epoch ≥ s.nextEpoch then l.epoch + 1
        else s.nextEpoch }).bindSlot l

end Server

theorem grows_addLease (hk : s.slots k = none) (l : Lease U) : Grows s (s.addLease k l) where
  slots k' l' hl' := by
    have hne : k' ≠ k := by
      rintro rfl
      rw [hk] at hl'
      cases hl'
    show update _ _ _ _ = _
    rw [update_of_ne hne, hl']
  scrub _ hi := hi

variable {all : List (Line U)}

theorem Loading.addLease (h : Loading all s) {l : Lease U}
    (hl : Line.lease l ∈ all) (hk : s.slots k = none)
    (hi : ¬ s.IndexLeased l.index)
    (hu : ∀ ⦃k' l'⦄, s.slots k' = some l' → l'.uuid ≠ l.uuid) :
    Loading all (s.addLease k l) where
  index_inj := h.index_inj.update fun _ _ hl' he =>
    absurd ⟨_, _, hl', he⟩ hi
  uuid_inj := h.uuid_inj.update fun _ _ hl' he => absurd he (hu hl')
  slots_mem k' l' hl' := by
    rcases Leases.slots_setSlot hl' with ⟨-, e⟩ | ⟨-, e⟩
    · cases e
      exact hl
    · exact h.slots_mem e
  scrub_mem := h.scrub_mem
  binds_inj := h.binds_inj.bind _ _
  binds_held k' c i hb := by
    rcases bind_some h.binds_inj hb with ⟨rfl, rfl⟩ | hb
    · exact ⟨k, l, update_self .., rfl, rfl⟩
    · obtain ⟨k₀, l₀, hk₀, he⟩ := h.binds_held hb
      exact ⟨k₀, l₀, (grows_addLease hk l).slots hk₀, he⟩

theorem Loading.setScrub (h : Loading all s) (hi : Line.scrub i ∈ all) :
    Loading all (s.withLeases (s.setScrub i true)) where
  index_inj := h.index_inj
  uuid_inj := h.uuid_inj
  slots_mem := h.slots_mem
  scrub_mem j hj := by
    by_cases e : j = i
    · rw [e]
      exact hi
    · exact h.scrub_mem (by
        simpa [Server.withLeases, Leases.setScrub, e] using hj)
  binds_inj := h.binds_inj
  binds_held := h.binds_held

theorem grows_setScrub (s : Server U) (i : Fin 8) : Grows s (s.withLeases (s.setScrub i true)) where
  slots _ _ h := h
  scrub j hj := by
    by_cases e : j = i
    · simp [Server.withLeases, Leases.setScrub, e]
    · simpa [Server.withLeases, Leases.setScrub, e] using hj

theorem loading_boot (now : Nat) (store all : List (Line U))
    (log : List (Obs U)) : Loading all (Server.boot now store log) where
  index_inj _ _ _ _ h := by cases h
  uuid_inj _ _ _ _ h := by cases h
  slots_mem _ _ h := by cases h
  scrub_mem _ h := by cases h
  binds_inj _ _ _ _ _ h := by cases h
  binds_held _ _ _ h := by cases h

variable [DecidableEq U]

/-- A lease line is skipped only when the table has its lease. -/
theorem Loading.holds_skipped (h : Loading all s) (hst : StoreOk all)
    {l : Lease U} (hl : Line.lease l ∈ all)
    (hskip : l.epoch = 0 ∨ l.cid = 0 ∨ (s.findUuid l.uuid).isSome ∨
      s.IndexTaken l.index) : s.Holds l.uuid l.index := by
  rcases hskip with e | e | hu | hi | hs
  · exact absurd e (hst.nonzero hl).1
  · exact absurd e (hst.nonzero hl).2
  · obtain ⟨k, hk⟩ := Option.isSome_iff_exists.mp hu
    obtain ⟨l', hl', he⟩ := Leases.findUuid_some hk
    exact ⟨k, l', hl', he, (hst.uuid_iff (h.slots_mem hl') hl).mp he⟩
  · obtain ⟨k, l', hl', he⟩ := hi
    exact ⟨k, l', hl', (hst.uuid_iff (h.slots_mem hl') hl).mpr he, he⟩
  · exact absurd (h.scrub_mem hs) (hst.scrub hl)

/-- What the loop leaves: every line of it is accounted for. -/
theorem loadLines_spec (hst : StoreOk all) (ls : List (Line U)) (s : Server U)
    (hsub : ls ⊆ all) (h : Loading all s) :
    Loading all (s.loadLines ls) ∧ Grows s (s.loadLines ls) ∧
      (∀ l, Line.lease l ∈ ls → (s.loadLines ls).Holds l.uuid l.index) ∧
      ∀ i, Line.scrub i ∈ ls → (s.loadLines ls).scrub i = true := by
  induction ls generalizing s with
  | nil => exact ⟨h, ⟨fun _ _ hk => hk, fun _ hi => hi⟩, by simp, by simp⟩
  | cons line ls ih =>
    have hhead : line ∈ all := hsub List.mem_cons_self
    have hls : ls ⊆ all := fun _ hm => hsub (List.mem_cons_of_mem _ hm)
    cases line with
    | scrub i =>
      obtain ⟨h₁, h₂, h₃, h₄⟩ := ih _ hls (h.setScrub hhead)
      simp only [List.mem_cons, reduceCtorEq, false_or, Line.scrub.injEq, forall_eq_or_imp]
      refine ⟨h₁, (grows_setScrub s i).trans h₂, h₃, h₂.scrub ?_, h₄⟩
      simp [Server.withLeases, Leases.setScrub]
    | lease l =>
      rw [Server.loadLines]
      simp only [List.mem_cons, reduceCtorEq, false_or, Line.lease.injEq, forall_eq_or_imp]
      split
      · rename_i hskip
        obtain ⟨h₁, h₂, h₃, h₄⟩ := ih s hls h
        exact ⟨h₁, h₂, ⟨h₂.holds (h.holds_skipped hst hhead hskip), h₃⟩, h₄⟩
      · rename_i hskip
        simp only [not_or] at hskip
        obtain ⟨-, -, huuid, htaken⟩ := hskip
        have hi : ¬ s.IndexLeased l.index := fun hi => htaken (.inl hi)
        obtain ⟨k, hk⟩ := h.index_inj.freeSlot_isSome hi
        have hnone := Leases.freeSlot_spec hk
        rw [Option.isSome_iff_ne_none, not_not] at huuid
        obtain ⟨h₁, h₂, h₃, h₄⟩ := ih (s.addLease k l) hls
          (h.addLease hhead hnone hi fun _ _ => Leases.findUuid_none huuid)
        rw [hk]
        exact ⟨h₁, (grows_addLease hnone l).trans h₂,
          ⟨h₂.holds ⟨k, l, update_self .., rfl, rfl⟩, h₃⟩, h₄⟩

/-- The loop does not touch arena, clock, threads, store or log. -/
theorem loadLines_frame (ls : List (Line U)) (s : Server U) :
    (s.loadLines ls).arena = s.arena ∧ (s.loadLines ls).now = s.now ∧
      (s.loadLines ls).scrubber = s.scrubber ∧
      (s.loadLines ls).jobs = s.jobs ∧ (s.loadLines ls).log = s.log ∧
      (s.loadLines ls).store = s.store ∧
      (s.loadLines ls).admin = s.admin := by
  induction ls generalizing s with
  | nil => exact ⟨rfl, rfl, rfl, rfl, rfl, rfl, rfl⟩
  | cons line ls ih =>
    cases line with
    | scrub i => exact ih _
    | lease l =>
      rw [Server.loadLines]
      split
      · exact ih s
      · split
        · exact ⟨rfl, rfl, rfl, rfl, rfl, rfl, rfl⟩
        · exact ih _

/-- A run that has just begun. -/
structure Started (now : Nat) (store : List (Line U)) (log : List (Obs U))
    (s : Server U) : Prop where
  inv : s.toLeases.Inv
  holds : ∀ u i, s.Holds u i ↔ ∃ l, Line.lease l ∈ store ∧ l.uuid = u ∧ l.index = i
  scrub : ∀ i, s.scrub i = true ↔ ¬ s.IndexLeased i
  arena : ∀ i, s.arena i = if s.IndexLeased i then .zero
    else ArenaSlot.zero.quarantine (if Line.scrub i ∈ store then now else now - quarantineMs)
  binds_inj : Binds.Distinct s.binds
  binds_held : BindsHeld s.binds s.toLeases
  admin_eq : s.admin = .idle
  scrubber_eq : s.scrubber = .idle
  jobs_eq : s.jobs = []
  now_eq : s.now = now
  store_eq : s.store = store
  log_eq : s.log = .reloaded now (fun i => decide (Line.scrub i ∈ store)) :: log

theorem started_start {store : List (Line U)} (hst : StoreOk store) (now : Nat)
    (log : List (Obs U)) :
    Started now store log (Server.start now store log) := by
  obtain ⟨hload, -, hheld, hmark⟩ := loadLines_spec hst store
    (.boot now store log) (List.Subset.refl _) (loading_boot now store store log)
  obtain ⟨harena, hnow, hscrubber, hjobs, hlog, hstore, hadmin⟩ :=
    loadLines_frame store (.boot now store log)
  rw [Server.start]
  generalize (Server.boot now store log).loadLines store = s at *
  have hscrub : ∀ i, s.scrub i = decide (Line.scrub i ∈ store) := by
    intro i
    rw [Bool.eq_iff_iff, decide_eq_true_iff]
    exact ⟨fun h => hload.scrub_mem h, hmark i⟩
  have hfree : ∀ ⦃k l⦄, s.slots k = some l → s.scrub l.index = false := by
    intro k l hl
    rw [hscrub, decide_eq_false_iff_not]
    exact hst.scrub (hload.slots_mem hl)
  have hfilled : ∀ k, s.admin ≠ .filled k := by
    rw [hadmin]
    simp [Server.boot]
  have hholds : ∀ u i, s.Holds u i ↔ ∃ l, Line.lease l ∈ store ∧ l.uuid = u ∧ l.index = i := by
    intro u i
    constructor
    · rintro ⟨k, l, hk, he⟩
      exact ⟨l, hload.slots_mem hk, he⟩
    · rintro ⟨l, hl, rfl, rfl⟩
      exact hheld l hl
  refine
    { inv := ?_, holds := hholds, scrub := ?_, arena := ?_,
      binds_inj := hload.binds_inj, binds_held := hload.binds_held,
      admin_eq := hadmin, scrubber_eq := hscrubber, jobs_eq := hjobs,
      now_eq := hnow, store_eq := hstore, log_eq := ?_ }
  · refine ⟨hload.index_inj, hload.uuid_inj, ?_, Leases.adminOk_of_idle hadmin, ?_, ?_, ?_, ?_, ?_⟩
    · exact fun _ _ hl => hst.nonzero (hload.slots_mem hl)
    · intro k l (hl : s.slots k = some l) hs
      have hs' : (if s.IndexLeased l.index then s.scrub l.index else true) =
          true := hs
      rw [if_pos (Leases.indexLeased_of_slot hl), hfree hl] at hs'
      cases hs'
    · intro l (hl : Line.lease l ∈ s.store)
      rw [hstore] at hl
      exact hst.nonzero hl
    · intro l (hl : Line.lease l ∈ s.store)
      rw [hstore] at hl
      obtain ⟨k, l', hk, he⟩ := hheld l hl
      exact ⟨k, l', hk, hfilled k, he⟩
    · intro k l hl _
      refine ⟨l, ?_, rfl, rfl⟩
      show Line.lease l ∈ s.store
      rw [hstore]
      exact hload.slots_mem hl
    · intro l (hl : Line.lease l ∈ s.store)
      show Line.scrub l.index ∉ s.store
      rw [hstore] at hl ⊢
      exact hst.scrub hl
  · intro i
    show (if s.IndexLeased i then s.scrub i else true) = true ↔ _
    by_cases hi : s.IndexLeased i
    · rw [if_pos hi]
      obtain ⟨k, l, hk, rfl⟩ := hi
      rw [hfree hk]
      exact ⟨fun h => (Bool.false_ne_true h).elim,
        fun h => absurd (Leases.indexLeased_of_slot hk) h⟩
    · rw [if_neg hi]
      exact ⟨fun _ => hi, fun _ => rfl⟩
  · intro i
    show (if s.IndexLeased i then s.arena i
      else if s.scrub i = true then (s.arena i).quarantine s.now
      else (s.arena i).quarantine (s.now - quarantineMs)) =
        if s.IndexLeased i then _ else _
    rw [harena, hnow, hscrub i]
    simp only [decide_eq_true_eq]
    split
    · rfl
    · split <;> rfl
  · show Obs.reloaded now s.scrub :: s.log = _
    rw [hlog, funext hscrub]
    rfl

end AmbaVirt.Low
