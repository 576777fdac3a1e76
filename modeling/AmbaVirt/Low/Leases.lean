/-
The lease table keeps its invariant (`Leases.Inv`): no two slots share a
uuid or a slice, a leased slice waits for no scrub, and the store names
exactly the leases the table holds.

A crash replaces the table by what `load` reads back, so the invariant
says at every point of a command what the store and the table have in
common: a lease is in both, except for the one a RESERVE_LOW has filled
in and not saved yet. A failed save may leave an old cid or a scrub line
of a slice scrubbed since, so the two are not equal.
-/
import AmbaVirt.Lib.Table
import AmbaVirt.Low.Server

namespace AmbaVirt.Low

open Lib Function

variable {U : Type}

theorem Admin.Unlocked.ne_filled {a : Admin U} (h : a.Unlocked) (k : Fin 8) : a ≠ .filled k := by
  rcases h with rfl | ⟨_, _, rfl⟩ <;> simp

theorem Admin.Unlocked.ne_unbound {a : Admin U} (h : a.Unlocked) (k : Fin 8)
    (l : Lease U) : a ≠ .unbound k l ∧ a ≠ .quarantined k l := by
  rcases h with rfl | ⟨_, _, rfl⟩ <;> simp

namespace Leases

variable {x : Leases U}

-- ==== lookups

variable {i : Fin 8}

theorem freeIndex_spec (h : x.freeIndex = some i) : ¬ x.IndexLeased i ∧ x.scrub i = false := by
  have hfree := Fin.eq_true_of_find?_eq_some h
  simpa [IndexTaken] using hfree

variable {k : Fin 8}

theorem freeSlot_spec (h : x.freeSlot = some k) : x.slots k = none := by
  simpa using Fin.eq_true_of_find?_eq_some h

variable {l : Lease U}

theorem findUuid_none [DecidableEq U] {u : U} (h : x.findUuid u = none)
    (hl : x.slots k = some l) : l.uuid ≠ u := by
  have hk := Fin.eq_false_of_find?_eq_none h k
  simpa [hl] using hk

theorem findUuid_some [DecidableEq U] {u : U} (h : x.findUuid u = some k) :
    ∃ l, x.slots k = some l ∧ l.uuid = u := by
  simpa [Option.any_eq_true] using Fin.eq_true_of_find?_eq_some h

theorem indexLeased_of_slot (h : x.slots k = some l) : x.IndexLeased l.index :=
  ⟨k, l, h, rfl⟩

@[simp] theorem lease_mem_lines : Line.lease l ∈ x.lines ↔ ∃ k, x.slots k = some l := by
  simp [lines, List.mem_filterMap]

@[simp] theorem scrub_mem_lines : Line.scrub i ∈ x.lines ↔ x.scrub i = true := by
  simp [lines]

-- ==== invariant

def Distinct {α : Type} (x : Leases U) (key : Lease U → α) : Prop :=
  ∀ ⦃k k' l l'⦄, x.slots k = some l → x.slots k' = some l' → key l = key l' → k = k'

/-- What the admin thread knows about the slot it works on. -/
def AdminOk (x : Leases U) : Prop :=
  match x.admin with
  | .idle => True
  | .waiting uuid cid => cid ≠ 0 ∧ x.nextEpoch ≠ 0 ∧ ∀ ⦃k l⦄, x.slots k = some l → l.uuid ≠ uuid
  | .found k cid => cid ≠ 0 ∧ ∃ l, x.slots k = some l
  | .rebound k | .filled k | .stored k => ∃ l, x.slots k = some l
  | .quarantined k saved | .restored k saved | .reopened k saved =>
    x.slots k = some saved
  | .unbound k saved => x.slots k = some saved ∧ x.scrub saved.index = true

theorem adminOk_of_idle (h : x.admin = .idle) : x.AdminOk := by
  rw [AdminOk, h]
  trivial

structure Inv (x : Leases U) : Prop where
  index_inj : x.Distinct Lease.index
  uuid_inj : x.Distinct Lease.uuid
  nonzero : ∀ ⦃k l⦄, x.slots k = some l → l.epoch ≠ 0 ∧ l.cid ≠ 0
  admin_ok : x.AdminOk
  /-- Only a release in progress marks a slice that is still leased. -/
  scrub_leased : ∀ ⦃k l⦄, x.slots k = some l → x.scrub l.index = true → x.admin = .unbound k l
  store_nonzero : ∀ ⦃l⦄, Line.lease l ∈ x.store → l.epoch ≠ 0 ∧ l.cid ≠ 0
  stored_held : ∀ ⦃l⦄, Line.lease l ∈ x.store → ∃ k l', x.slots k = some l' ∧ x.admin ≠ .filled k ∧
      l'.uuid = l.uuid ∧ l'.index = l.index
  held_stored : ∀ ⦃k l'⦄, x.slots k = some l' → x.admin ≠ .filled k →
    ∃ l, Line.lease l ∈ x.store ∧ l.uuid = l'.uuid ∧ l.index = l'.index
  store_scrub : ∀ ⦃l⦄, Line.lease l ∈ x.store → Line.scrub l.index ∉ x.store

/-- The slots in use hold different slices, so a slice that is not leased
leaves a slot free. -/
theorem Distinct.freeSlot_isSome (h : x.Distinct Lease.index)
    (hi : ¬ x.IndexLeased i) : ∃ k, x.freeSlot = some k := by
  by_contra hnone
  have hfull : ∀ k, ∃ l, x.slots k = some l := by
    intro k
    have hk := Fin.eq_false_of_find?_eq_none
      (Option.eq_none_iff_forall_ne_some.mpr (not_exists.mp hnone)) k
    simpa [Option.isNone_eq_false_iff, Option.isSome_iff_exists] using hk
  choose l hl using hfull
  have hinj : Injective fun k => (l k).index :=
    fun k k' hk => h (hl k) (hl k') hk
  obtain ⟨k, hk⟩ := Finite.surjective_of_injective hinj i
  exact hi ⟨k, l k, hl k, hk⟩

-- ==== steps: no store

theorem Inv.goto {a : Admin U} (h : x.Inv) (hf : ∀ k, x.admin ≠ .filled k)
    (hu : ∀ k l, x.admin ≠ .unbound k l) (ha : ∀ k, a ≠ .filled k)
    (hok : (x.goto a).AdminOk) : (x.goto a).Inv where
  index_inj := h.index_inj
  uuid_inj := h.uuid_inj
  nonzero := h.nonzero
  admin_ok := hok
  scrub_leased _ _ hl hs := absurd (h.scrub_leased hl hs) (hu _ _)
  store_nonzero := h.store_nonzero
  stored_held _ hl := by
    obtain ⟨k, l', hk, -, he⟩ := h.stored_held hl
    exact ⟨k, l', hk, ha k, he⟩
  held_stored _ _ hl _ := h.held_stored hl (hf _)
  store_scrub := h.store_scrub

theorem Distinct.update {α : Type} {key : Lease U → α} (h : x.Distinct key)
    (hl : ∀ ⦃k' l'⦄, x.slots k' = some l' → key l' = key l → k' = k) :
    (x.setSlot k (some l)).Distinct key :=
  Apart.put (R := fun a b => key a = key b) h (fun _ _ => Eq.symm) hl

theorem Distinct.clear {α : Type} {key : Lease U → α} (h : x.Distinct key) :
    (x.setSlot k none).Distinct key :=
  Apart.clear (R := fun a b => key a = key b) h k

theorem slots_setSlot {k' : Fin 8} {o : Option (Lease U)} (h : (x.setSlot k o).slots k' = some l) :
    (k' = k ∧ o = some l) ∨ (k' ≠ k ∧ x.slots k' = some l) :=
  update_cases h

theorem indexLeased_setSlot {o : Option (Lease U)} (h : (x.setSlot k o).IndexLeased i) :
    (∃ l, o = some l ∧ l.index = i) ∨ x.IndexLeased i := by
  obtain ⟨k', l, hl, rfl⟩ := h
  rcases slots_setSlot hl with ⟨-, hwritten⟩ | ⟨-, hold⟩
  · exact .inl ⟨l, hwritten, rfl⟩
  · exact .inr (indexLeased_of_slot hold)

variable {cid : UInt32}

theorem Inv.fill {uuid : U} (h : x.Inv) (hun : x.admin.Unlocked)
    (hcid : cid ≠ 0) (hep : x.nextEpoch ≠ 0)
    (huuid : ∀ ⦃k l⦄, x.slots k = some l → l.uuid ≠ uuid)
    (hi : x.freeIndex = some i) : (x.fill uuid cid i).Inv := by
  obtain ⟨hleased, hscrub⟩ := freeIndex_spec hi
  obtain ⟨k, hk⟩ := h.index_inj.freeSlot_isSome hleased
  have hnone := freeSlot_spec hk
  simp only [Leases.fill, hk]
  refine ⟨?_, ?_, ?_, ?_, ?_, h.store_nonzero, ?_, ?_, h.store_scrub⟩
  · exact h.index_inj.update fun _ _ hl he => absurd ⟨_, _, hl, he⟩ hleased
  · exact h.uuid_inj.update fun _ _ hl he => absurd he (huuid hl)
  · intro k' l hl
    rcases slots_setSlot hl with ⟨-, e⟩ | ⟨-, e⟩
    · cases e
      exact ⟨hep, hcid⟩
    · exact h.nonzero e
  · exact ⟨_, update_self ..⟩
  · intro k' l hl hs
    rcases slots_setSlot hl with ⟨-, e⟩ | ⟨-, e⟩
    · cases e
      exact absurd hs (by simp [setSlot, hscrub])
    · exact absurd (h.scrub_leased e hs) (hun.ne_unbound _ _).1
  · intro l hl
    obtain ⟨k', l', hk', -, he⟩ := h.stored_held hl
    refine ⟨k', l', update_keeps hnone hk', fun e => ?_, he⟩
    cases e
    rw [hnone] at hk'
    cases hk'
  · intro k' l hl hne
    rcases slots_setSlot hl with ⟨e, -⟩ | ⟨-, e⟩
    · exact absurd (by rw [e]) hne
    · exact h.held_stored e (hun.ne_filled _)

theorem Inv.search {uuid : U} (h : x.Inv) (hun : x.admin.Unlocked)
    (hcid : cid ≠ 0) (hep : x.nextEpoch ≠ 0)
    (huuid : ∀ ⦃k l⦄, x.slots k = some l → l.uuid ≠ uuid) :
    (x.search uuid cid).Inv ∧ (x.lastSearch uuid cid).Inv := by
  have hgoto {a : Admin U} (ha : ∀ k, a ≠ .filled k) (hok : (x.goto a).AdminOk) : (x.goto a).Inv :=
    h.goto hun.ne_filled (fun k l => (hun.ne_unbound k l).1) ha hok
  have hidle : (x.goto .idle).Inv := hgoto (by simp) True.intro
  unfold Leases.search Leases.lastSearch
  cases hi : x.freeIndex with
  | some i => exact ⟨h.fill hun hcid hep huuid hi, h.fill hun hcid hep huuid hi⟩
  | none =>
    refine ⟨?_, hidle⟩
    dsimp only
    split
    · exact hgoto (by simp) ⟨hcid, hep, huuid⟩
    · exact hidle

theorem Inv.setCid (h : x.Inv) (ha : x.admin = .found k cid) (hl : x.slots k = some l) :
    ((x.setSlot k (some { l with cid := cid })).goto (.rebound k)).Inv := by
  have hok := h.admin_ok
  rw [AdminOk, ha] at hok
  have hat : update x.slots k (some { l with cid := cid }) k =
      some { l with cid := cid } := update_self ..
  refine ⟨?_, ?_, ?_, ⟨_, hat⟩, ?_, h.store_nonzero, ?_, ?_, h.store_scrub⟩
  · exact h.index_inj.update fun _ _ hl' he => h.index_inj hl' hl he
  · exact h.uuid_inj.update fun _ _ hl' he => h.uuid_inj hl' hl he
  · intro k' l' hl'
    rcases slots_setSlot hl' with ⟨-, e⟩ | ⟨-, e⟩
    · cases e
      exact ⟨(h.nonzero hl).1, hok.1⟩
    · exact h.nonzero e
  · intro k' l' hl' hs
    rcases slots_setSlot hl' with ⟨-, e⟩ | ⟨-, e⟩
    · cases e
      exact absurd (h.scrub_leased hl hs) (by simp [ha])
    · exact absurd (h.scrub_leased e hs) (by simp [ha])
  · intro l' hl'
    obtain ⟨k', l₀, hk', -, he⟩ := h.stored_held hl'
    by_cases hkk : k' = k
    · subst hkk
      rw [hl] at hk'
      cases hk'
      exact ⟨k', _, hat, by simp [Leases.goto], he⟩
    · refine ⟨k', l₀, ?_, by simp [Leases.goto], he⟩
      show update _ _ _ _ = _
      rw [update_of_ne hkk, hk']
  · intro k' l' hl' _
    rcases slots_setSlot hl' with ⟨-, e⟩ | ⟨-, e⟩
    · cases e
      obtain ⟨l₀, hl₀, he⟩ := h.held_stored hl (by simp [ha])
      exact ⟨l₀, hl₀, he⟩
    · exact h.held_stored e (by simp [ha])

theorem Inv.dropFilled (h : x.Inv) (ha : x.admin = .filled k) :
    ((x.setSlot k none).goto .idle).Inv := by
  refine ⟨h.index_inj.clear, h.uuid_inj.clear, ?_, True.intro, ?_,
    h.store_nonzero, ?_, ?_, h.store_scrub⟩
  · intro k' l hl
    exact h.nonzero (update_none hl).2
  · intro k' l hl hs
    exact absurd (h.scrub_leased (update_none hl).2 hs) (by simp [ha])
  · intro l hl
    obtain ⟨k', l', hk', hne, he⟩ := h.stored_held hl
    rw [ha] at hne
    refine ⟨k', l', ?_, by simp [Leases.goto], he⟩
    show update _ _ _ _ = _
    rw [update_of_ne (fun e => hne (by rw [e])), hk']
  · intro k' l hl _
    obtain ⟨hne, e⟩ := update_none hl
    exact h.held_stored e (by rw [ha]; simpa using hne.symm)

variable {saved : Lease U}

/-- The release marks its slice before it clears the slot. -/
theorem Inv.mark (h : x.Inv) (ha : x.admin = .quarantined k saved) :
    ((x.setScrub saved.index true).goto (.unbound k saved)).Inv := by
  have hk : x.slots k = some saved := by
    have hok := h.admin_ok
    rwa [AdminOk, ha] at hok
  refine ⟨h.index_inj, h.uuid_inj, h.nonzero, ⟨hk, update_self ..⟩,
    ?_, h.store_nonzero, ?_, ?_, h.store_scrub⟩
  · intro k' l hl hs
    by_cases hi : l.index = saved.index
    · obtain rfl : k' = k := h.index_inj hl hk hi
      rw [show x.slots k' = some l from hl] at hk
      cases hk
      rfl
    · have hs' : x.scrub l.index = true := by
        simpa [Leases.goto, setScrub, hi] using hs
      exact absurd (h.scrub_leased hl hs') (by simp [ha])
  · intro l hl
    obtain ⟨k', l', hk', -, he⟩ := h.stored_held hl
    exact ⟨k', l', hk', by simp [Leases.goto], he⟩
  · intro k' l hl _
    exact h.held_stored hl (by simp [ha])

/-- The release undone after a failed save. -/
theorem Inv.restore (h : x.Inv) (ha : x.admin = .unbound k saved) :
    (((x.setSlot k (some saved)).setScrub saved.index false).goto (.restored k saved)).Inv := by
  have hk : x.slots k = some saved := by
    have hok := h.admin_ok
    rw [AdminOk, ha] at hok
    exact hok.1
  have hslots : (x.setSlot k (some saved)).slots = x.slots := by
    show update _ _ _ = _
    rw [← hk, update_eq_self]
  have hx : ((x.setSlot k (some saved)).setScrub saved.index false).goto (.restored k saved) =
      (x.setScrub saved.index false).goto (.restored k saved) := by
    rw [Leases.goto, setScrub, hslots]
    rfl
  rw [hx]
  refine ⟨h.index_inj, h.uuid_inj, h.nonzero, hk, ?_, h.store_nonzero, ?_, ?_, h.store_scrub⟩
  · intro k' l hl hs
    by_cases hi : l.index = saved.index
    · simp [Leases.goto, setScrub, hi] at hs
    have hs' : x.scrub l.index = true := by
      simpa [Leases.goto, setScrub, hi] using hs
    have := h.scrub_leased hl hs'
    rw [ha] at this
    cases this
    exact absurd rfl hi
  · intro l hl
    obtain ⟨k', l', hk', -, he⟩ := h.stored_held hl
    exact ⟨k', l', hk', by simp [Leases.goto], he⟩
  · intro k' l hl _
    exact h.held_stored hl (by simp [ha])

-- ==== steps: saves

/-- What a successful save needs: a table without a leased slice that is
marked, at a position where the slots are final. -/
theorem Inv.of_lines (hi : x.Distinct Lease.index) (hu : x.Distinct Lease.uuid)
    (hz : ∀ ⦃k l⦄, x.slots k = some l → l.epoch ≠ 0 ∧ l.cid ≠ 0)
    (hok : x.AdminOk)
    (hs : ∀ ⦃k l⦄, x.slots k = some l → x.scrub l.index = false)
    (hf : ∀ k, x.admin ≠ .filled k) (hst : x.store = x.lines) : x.Inv where
  index_inj := hi
  uuid_inj := hu
  nonzero := hz
  admin_ok := hok
  scrub_leased _ _ hl h := absurd h (by simp [hs hl])
  store_nonzero _ hl := by
    rw [hst, lease_mem_lines] at hl
    exact hz hl.choose_spec
  stored_held l hl := by
    rw [hst, lease_mem_lines] at hl
    obtain ⟨k, hk⟩ := hl
    exact ⟨k, l, hk, hf k, rfl, rfl⟩
  held_stored k l hl _ := by
    refine ⟨l, ?_, rfl, rfl⟩
    rw [hst, lease_mem_lines]
    exact ⟨k, hl⟩
  store_scrub l hl h := by
    rw [hst, lease_mem_lines] at hl
    rw [hst, scrub_mem_lines] at h
    obtain ⟨k, hk⟩ := hl
    rw [hs hk] at h
    cases h

theorem Inv.scrub_eq_false (h : x.Inv) (hu : ∀ k l, x.admin ≠ .unbound k l)
    ⦃k : Fin 8⦄ ⦃l : Lease U⦄ (hl : x.slots k = some l) :
    x.scrub l.index = false := by
  cases hs : x.scrub l.index with
  | false => rfl
  | true => exact absurd (h.scrub_leased hl hs) (hu _ _)

theorem Inv.saveStored (h : x.Inv) (ha : x.admin = .rebound k ∨ x.admin = .filled k) :
    ((x.save true).goto (.stored k)).Inv := by
  have hunbound : ∀ k l, x.admin ≠ .unbound k l := by
    rcases ha with e | e <;> simp [e]
  have hk : ∃ l, x.slots k = some l := by
    have hok := h.admin_ok
    rcases ha with e | e <;> rwa [AdminOk, e] at hok
  exact of_lines h.index_inj h.uuid_inj h.nonzero hk
    (h.scrub_eq_false hunbound) (by simp [Leases.goto]) rfl

/-- The save of a RELEASE_LOW: the lease is gone, its slice is marked. -/
theorem Inv.saveReleased (h : x.Inv) (ha : x.admin = .unbound k saved) :
    (((x.setSlot k none).save true).goto .idle).Inv := by
  refine of_lines h.index_inj.clear h.uuid_inj.clear ?_ True.intro ?_ (by simp [Leases.goto]) rfl
  · intro k' l hl
    exact h.nonzero (update_none hl).2
  intro k' l hl
  obtain ⟨hne, e⟩ := update_none hl
  cases hs : x.scrub l.index with
  | false => exact hs
  | true =>
    have := h.scrub_leased e hs
    rw [ha] at this
    cases this
    exact absurd rfl hne

theorem Inv.clear {ok : Bool} (h : x.Inv) (hun : x.admin.Unlocked) :
    ((x.setScrub i false).save ok).Inv := by
  have hscrub : ∀ ⦃k l⦄, x.slots k = some l → (x.setScrub i false).scrub l.index = false := by
    intro k l hl
    by_cases hi : l.index = i
    · simp [setScrub, hi]
    · simp [setScrub, hi, h.scrub_eq_false (fun k l => (hun.ne_unbound k l).1) hl]
  have hok : (x.setScrub i false).AdminOk := by
    have hx := h.admin_ok
    rcases hun with e | ⟨_, _, e⟩
    · exact adminOk_of_idle e
    · rw [AdminOk, e] at hx
      rw [AdminOk, show (x.setScrub i false).admin = _ from e]
      exact hx
  cases ok with
  | true =>
    exact of_lines h.index_inj h.uuid_inj h.nonzero hok hscrub hun.ne_filled rfl
  | false =>
    exact ⟨h.index_inj, h.uuid_inj, h.nonzero, hok,
      fun _ _ hl hs => absurd hs (by simp [save, hscrub hl]),
      h.store_nonzero, h.stored_held, h.held_stored, h.store_scrub⟩

end Leases

end AmbaVirt.Low
