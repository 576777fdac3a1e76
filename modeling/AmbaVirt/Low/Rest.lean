/-
What holds of the hall whenever nobody has the lease lock.

`Rest` is about the tables: no slice is leased twice, a leased slice
waits for no scrub, a slice is quarantined while it waits for one, and a
binding is the cid and the slice of some lease. `HallInv` adds what is
known of the callers that wait and of a server that is not armed. Uuids
may repeat: a caller whose wait times out does not look again whether its
uuid has been served meanwhile.

The bindings have no lock, so `Linked` is kept by every single effect of
a section (`SafeFrom`). Their table has as many entries as there are
slots: a lease that is not bound leaves an entry free (`BindsHeld.room`),
so a lease is always bound when its section ends.
-/
import AmbaVirt.Low.Sections

namespace AmbaVirt.Low

open Lib Function

variable {U : Type}

-- ==== bindings

section Bindings

variable {b : Binds} {c : UInt32} {k : Fin 8} {s : Server U} {x : Leases U} {i : Fin 8}

theorem held_iff (hd : b.Distinct) :
    held b c = some i ↔ c ≠ 0 ∧ ∃ k, b k = some (c, i) := by
  constructor
  · intro h
    refine ⟨?_, held_some h⟩
    intro hc
    subst hc
    cases h
  · intro h
    obtain ⟨hc, k, hk⟩ := h
    cases hf : findCid b c with
    | none => exact absurd hk (findCid_none hc hf k i)
    | some k' =>
      obtain ⟨i', hk'⟩ := findCid_some hf
      obtain rfl := hd hk hk'
      rw [held, hf, Option.bind_some, hk]
      rfl

theorem held_unbind (hd : b.Distinct) (hc : c ≠ 0) (c' : UInt32) :
    held (unbind b c) c' = if c' = c then none else held b c' := by
  apply Option.ext
  intro i
  rw [held_iff (hd.unbind c)]
  split
  · rename_i heq
    subst heq
    refine ⟨?_, fun h => by cases h⟩
    intro h
    obtain ⟨-, k, hk⟩ := h
    exact absurd rfl (unbind_some hd hc hk).2
  · rename_i hne
    rw [held_iff hd]
    refine and_congr_right fun _ => exists_congr fun k => ?_
    refine ⟨fun h => (unbind_some hd hc h).1, ?_⟩
    intro h
    rw [unbind]
    cases hf : findCid b c with
    | none => exact h
    | some k' =>
      obtain ⟨i', hk'⟩ := findCid_some hf
      have hkk : k ≠ k' := by
        intro heq
        subst heq
        rw [h] at hk'
        cases hk'
        exact hne rfl
      exact (update_of_ne hkk ..).trans h

theorem held_bind (hd : b.Distinct) (hc : c ≠ 0)
    (hroom : (∃ k i, b k = some (c, i)) ∨ ∃ k, b k = none) (i : Fin 8)
    (c' : UInt32) :
    held (bind b c i) c' = if c' = c then some i else held b c' := by
  have hwrite : ∃ k, bind b c i = update b k (some (c, i)) ∧ ((∃ i', b k = some (c, i')) ∨
        b k = none ∧ ∀ k' i', b k' ≠ some (c, i')) := by
    rw [bind, if_neg hc]
    cases hf : findCid b c with
    | some k => exact ⟨k, rfl, .inl (findCid_some hf)⟩
    | none =>
      have hnot := findCid_none hc hf
      cases hfree : Fin.find? fun k => (b k).isNone with
      | some k =>
        exact ⟨k, rfl, .inr ⟨by simpa using Fin.eq_true_of_find?_eq_some hfree, hnot⟩⟩
      | none =>
        rcases hroom with ⟨k, i', hk⟩ | ⟨k, hk⟩
        · exact absurd hk (hnot k i')
        · have := Fin.eq_false_of_find?_eq_none hfree k
          simp [hk] at this
  obtain ⟨k, hk, hold⟩ := hwrite
  apply Option.ext
  intro j
  rw [held_iff (hd.bind c i), hk]
  split
  · rename_i heq
    subst heq
    rw [Option.some.injEq]
    constructor
    · intro h
      obtain ⟨-, k', hk'⟩ := h
      rw [update_apply] at hk'
      split at hk'
      · cases hk'
        rfl
      rename_i hne
      rcases hold with ⟨i', hold⟩ | ⟨-, hold⟩
      · exact absurd (hd hk' hold) hne
      · exact absurd hk' (hold k' j)
    · intro h
      subst h
      exact ⟨hc, k, update_self ..⟩
  · rename_i hne
    rw [held_iff hd]
    refine and_congr_right fun _ => exists_congr fun k' => ?_
    rw [update_apply]
    split
    · rename_i heq
      subst heq
      constructor
      · intro h
        cases h
        exact absurd rfl hne
      intro h
      rcases hold with ⟨i', hold⟩ | ⟨hold, -⟩
      · rw [hold] at h
        cases h
        exact absurd rfl hne
      · rw [hold] at h
        cases h
    · exact Iff.rfl

/-- The bindings are those of different slots, so an unbound lease leaves
an entry free. -/
theorem BindsHeld.room (h : BindsHeld b x) (hd : b.Distinct)
    {l : Lease U} (hl : x.slots k = some l) :
    (∃ k' i, b k' = some (l.cid, i)) ∨ ∃ k', b k' = none := by
  by_contra hno
  rw [not_or] at hno
  obtain ⟨hunbound, hfull⟩ := hno
  have hall : ∀ k', ∃ c i, b k' = some (c, i) := by
    intro k'
    cases hb : b k' with
    | none => exact absurd ⟨k', hb⟩ hfull
    | some p => exact ⟨p.1, p.2, rfl⟩
  choose c i hb using hall
  choose f m hm hc hi using fun k' => h (hb k')
  have hinj : Injective f := by
    intro k₁ k₂ heq
    have h₁ := hm k₁
    rw [heq, hm k₂] at h₁
    have hcid : c k₁ = c k₂ := by rw [← hc k₁, ← hc k₂, Option.some.inj h₁]
    have hb₁ := hb k₁
    rw [hcid] at hb₁
    exact hd hb₁ (hb k₂)
  obtain ⟨k', hk'⟩ := Finite.surjective_of_injective hinj k
  have hlm := hm k'
  rw [hk', hl] at hlm
  have hcid := hc k'
  rw [← Option.some.inj hlm] at hcid
  exact hunbound ⟨k', i k', by rw [hb k', hcid]⟩

-- ==== effects on the bindings

/-- A binding is the cid and the slice of a lease. -/
def Linked (s : Server U) : Prop :=
  Binds.Distinct s.binds ∧ BindsHeld s.binds s.toLeases

/-- What an effect needs to keep `Linked`: a lease that goes from its
slot is not bound, and a lease that is bound is in its slot. -/
def Act.Safe (s : Server U) : Act U → Prop
  | .slot k v => ∀ l, s.slots k = some l →
      (∃ l', v = some l' ∧ l'.cid = l.cid ∧ l'.index = l.index) ∨
        ∀ k', s.binds k' ≠ some (l.cid, l.index)
  | .bind cid i => ∃ k l, s.slots k = some l ∧ l.cid = cid ∧ l.index = i
  | .unbind cid => cid ≠ 0
  | _ => True

/-- Every effect is safe where it happens. -/
def SafeFrom (s : Server U) : List (Act U) → Prop
  | [] => True
  | a :: acts => a.Safe s ∧ SafeFrom (a.run s) acts

@[simp] theorem safeFrom_nil (s : Server U) : SafeFrom s [] ↔ True := Iff.rfl

@[simp] theorem safeFrom_cons (s : Server U) (a : Act U) (acts : List (Act U)) :
    SafeFrom s (a :: acts) ↔ a.Safe s ∧ SafeFrom (a.run s) acts := Iff.rfl

theorem safeFrom_append {as bs : List (Act U)} :
    SafeFrom s (as ++ bs) ↔ SafeFrom s as ∧ SafeFrom (exec as s) bs := by
  induction as generalizing s with
  | nil => simp
  | cons a as ih => simp [ih, and_assoc]

theorem BindsHeld.setSlot (h : BindsHeld b x)
    {v : Option (Lease U)} (hv : ∀ l, x.slots k = some l →
      (∃ l', v = some l' ∧ l'.cid = l.cid ∧ l'.index = l.index) ∨
        ∀ k', b k' ≠ some (l.cid, l.index)) :
    BindsHeld b (x.setSlot k v) := by
  intro k' c i hb
  obtain ⟨k₀, l, hl, rfl, rfl⟩ := h hb
  by_cases hk : k₀ = k
  · subst hk
    rcases hv l hl with ⟨l', rfl, hc, hi⟩ | hno
    · exact ⟨k₀, l', update_self .., hc, hi⟩
    · exact absurd hb (hno k')
  · exact ⟨k₀, l, (update_of_ne hk ..).trans hl, rfl, rfl⟩

theorem Linked.run (h : Linked s) {a : Act U} (ha : a.Safe s) :
    Linked (a.run s) := by
  obtain ⟨hd, hh⟩ := h
  cases a with
  | slot k v => exact ⟨hd, hh.setSlot ha⟩
  | bumpEpoch => exact ⟨hd, hh⟩
  | raiseEpoch e => exact ⟨hd, hh⟩
  | scrub i b => exact ⟨hd, hh⟩
  | quarantine i => exact ⟨hd, hh⟩
  | unquarantine i => exact ⟨hd, hh⟩
  | unbind cid => exact ⟨hd.unbind cid, hh.unbind hd ha⟩
  | bind cid i =>
    obtain ⟨k, l, hl, rfl, rfl⟩ := ha
    exact ⟨hd.bind l.cid l.index, hh.bind hd hl⟩
  | save ok =>
    cases ok with
    | true => exact ⟨hd, hh⟩
    | false => exact ⟨hd, hh⟩
  | quarantineUnleased => exact ⟨hd, hh⟩

theorem Linked.exec (h : Linked s) {acts : List (Act U)}
    (ha : SafeFrom s acts) : Linked (exec acts s) := by
  induction acts generalizing s with
  | nil => exact h
  | cons a acts ih => exact ih (h.run ha.1) ha.2

end Bindings

-- ==== the tables

/-- The table between sections, with its store. -/
structure TableOk (x : Leases Text) : Prop where
  index_inj : x.Distinct Lease.index
  nonzero : ∀ ⦃k l⦄, x.slots k = some l → l.cid ≠ 0
  scrub_leased : ∀ ⦃k l⦄, x.slots k = some l → x.scrub l.index = false
  store : ∀ ⦃l⦄, Line.lease l ∈ x.store → l.cid ≠ 0 ∧ Line.scrub l.index ∉ x.store

structure Rest (s : Server Text) : Prop where
  table : TableOk s.toLeases
  quarantined : ∀ i, (s.arena i).quarantined = s.scrub i
  linked : Linked s

namespace TableOk

variable {x : Leases Text} {l : Lease Text} {k : Fin 8}

theorem congr {y : Leases Text} (h : TableOk x) (hslots : y.slots = x.slots)
    (hscrub : y.scrub = x.scrub) (hstore : y.store = x.store) : TableOk y := by
  refine ⟨?_, ?_, ?_, ?_⟩
  · intro k k' l l' hl hl' he
    exact h.index_inj (hslots ▸ hl) (hslots ▸ hl') he
  · intro k l hl
    exact h.nonzero (hslots ▸ hl)
  · intro k l hl
    rw [hscrub]
    exact h.scrub_leased (hslots ▸ hl)
  · intro l hl
    rw [hstore] at hl ⊢
    exact h.store hl

theorem save (h : TableOk x) (ok : Bool) : TableOk (x.save ok) := by
  cases ok with
  | false => exact h
  | true =>
    refine ⟨h.index_inj, h.nonzero, h.scrub_leased, ?_⟩
    intro l hl
    obtain ⟨k, hk⟩ := Leases.lease_mem_lines.mp hl
    refine ⟨h.nonzero hk, ?_⟩
    show Line.scrub l.index ∉ x.lines
    rw [Leases.scrub_mem_lines, h.scrub_leased hk]
    simp

theorem put (h : TableOk x) (hc : l.cid ≠ 0)
    (hs : x.scrub l.index = false)
    (hi : ∀ ⦃k' l'⦄, x.slots k' = some l' → l'.index = l.index → k' = k) :
    TableOk (x.setSlot k (some l)) := by
  refine ⟨h.index_inj.update hi, ?_, ?_, h.store⟩
  · intro k' l' hl'
    rcases Leases.slots_setSlot hl' with ⟨-, e⟩ | ⟨-, e⟩
    · cases e
      exact hc
    · exact h.nonzero e
  · intro k' l' hl'
    rcases Leases.slots_setSlot hl' with ⟨-, e⟩ | ⟨-, e⟩
    · cases e
      exact hs
    · exact h.scrub_leased e

theorem release (h : TableOk x) (hl : x.slots k = some l) :
    TableOk ((x.setScrub l.index true).setSlot k none) := by
  have hclear : ((x.setScrub l.index true).setSlot k none).Distinct Lease.index :=
    h.index_inj.clear
  refine ⟨hclear, ?_, ?_, h.store⟩
  · intro k' l' hl'
    rcases Leases.slots_setSlot hl' with ⟨-, e⟩ | ⟨-, e⟩
    · cases e
    · exact h.nonzero e
  · intro k' l' hl'
    rcases Leases.slots_setSlot hl' with ⟨-, e⟩ | ⟨hne, e⟩
    · cases e
    · have hidx : l'.index ≠ l.index := fun heq => hne (h.index_inj e hl heq)
      exact (update_of_ne hidx ..).trans (h.scrub_leased e)

end TableOk

-- ==== sections

/-- A section is safe at every point, and rests when it ends. -/
structure Kept (s : Server Text) (x : Section) : Prop where
  safe : SafeFrom s x.acts
  table : TableOk (exec x.acts s).toLeases
  quarantined : ∀ i, ((exec x.acts s).arena i).quarantined = (exec x.acts s).scrub i

variable {s : Server Text} {x : Section}

theorem Kept.rest (h : Kept s x) (hs : Rest s) : Rest (exec x.acts s) :=
  ⟨h.table, h.quarantined, hs.linked.exec h.safe⟩

theorem Rest.kept_nil (h : Rest s) (hx : x.acts = []) :
    Kept s x := by
  refine ⟨?_, ?_, ?_⟩ <;> rw [hx]
  · trivial
  · exact h.table
  · exact h.quarantined

section Kept

variable {b : Binds} {c : UInt32} {k : Fin 8} {uuid : Text} {cid : UInt32} {ok : Bool}

theorem unbind_ne (hd : b.Distinct) (hc : c ≠ 0)
    (k i : Fin 8) : unbind b c k ≠ some (c, i) :=
  fun h => (unbind_some hd hc h).2 rfl

theorem Rest.reserveFound (h : Rest s)
    (hl : s.slots k = some l) (hcid : cid ≠ 0) :
    Kept s (reserveFound cid ok k l) := by
  have hscrub : s.scrub l.index = false := h.table.scrub_leased hl
  have hput : TableOk ((s.setSlot k (some { l with cid := cid })).save ok) := by
    apply TableOk.save
    apply h.table.put (l := { l with cid := cid }) hcid hscrub
    intro k' l' hl' he
    exact h.table.index_inj hl' hl he
  have hbind : ∃ k' l', update s.slots k (some { l with cid := cid }) k'
      = some l' ∧ l'.cid = cid ∧ l'.index = l.index :=
    ⟨k, _, update_self .., rfl, rfl⟩
  by_cases hne : l.cid = cid
  · -- the cid stays: its binding stays right
    have hslot : (Act.slot k (some { l with cid := cid })).Safe s := by
      intro l₀ hl₀
      rw [hl] at hl₀
      cases hl₀
      exact .inl ⟨_, rfl, hne.symm, rfl⟩
    refine ⟨?_, ?_, ?_⟩ <;> rw [Low.reserveFound, if_neg (not_not.mpr hne)] <;> cases ok
    exacts [⟨hslot, trivial, trivial⟩, ⟨hslot, trivial, hbind, trivial⟩, hput, hput,
      h.quarantined, h.quarantined]
  · -- the old cid is unbound first
    have hslot : (Act.slot k (some { l with cid := cid })).Safe (s.unbindCid l.cid) := by
      intro l₀ hl₀
      have hl₀ : s.slots k = some l₀ := hl₀
      rw [hl] at hl₀
      cases hl₀
      exact .inr fun k' => unbind_ne h.linked.1 (h.table.nonzero hl) k' _
    have hnz := h.table.nonzero hl
    refine ⟨?_, ?_, ?_⟩ <;> rw [Low.reserveFound, if_pos hne] <;> cases ok
    exacts [⟨hnz, hslot, trivial, trivial⟩, ⟨hnz, hslot, trivial, hbind, trivial⟩, hput, hput,
      h.quarantined, h.quarantined]

theorem Rest.grantNew (h : Rest s) (hi : s.freeIndex = some i)
    (hcid : cid ≠ 0) : Kept s (grantNew s uuid cid ok i) := by
  obtain ⟨hfree, hscrub⟩ := Leases.freeIndex_spec hi
  unfold Low.grantNew
  cases hk : s.freeSlot with
  | none => exact h.kept_nil rfl
  | some k =>
    have hnone := Leases.freeSlot_spec hk
    have hslot (v) : (Act.slot k v).Safe s := by
      intro l hl
      rw [hnone] at hl
      cases hl
    cases ok with
    | true =>
      refine ⟨⟨hslot _, trivial, trivial, ⟨k, _, update_self .., rfl, rfl⟩,
        trivial⟩, ?_, h.quarantined⟩
      have hput : TableOk (s.setSlot k (some ⟨uuid, i, s.nextEpoch, cid⟩)) := by
        apply h.table.put (l := ⟨uuid, i, s.nextEpoch, cid⟩) hcid hscrub
        intro k' l' hl' he
        exact absurd ⟨k', l', hl', he⟩ hfree
      exact (hput.save true).congr rfl rfl rfl
    | false =>
      refine ⟨⟨hslot _, trivial, trivial, ?_, trivial⟩, ?_, h.quarantined⟩
      · intro l hl
        have hl : update s.slots k (some ⟨uuid, i, s.nextEpoch, cid⟩) k = some l := hl
        rw [update_self] at hl
        cases hl
        exact .inr fun k' => h.linked.2.not_leased hfree k' cid
      · refine h.table.congr ?_ rfl rfl
        show update (update s.slots k _) k none = s.slots
        rw [update_idem, ← hnone, update_eq_self]

theorem Rest.reserves (h : Rest s) {ready waited : Bool}
    (hx : Reserves s uuid cid ready waited x) : Kept s x := by
  cases hx with
  | quiet hacts => exact h.kept_nil hacts
  | found _ _ _ hcid _ hl => exact h.reserveFound hl hcid
  | grant _ hcid hi => exact h.grantNew hi hcid
  | @bound k l _ _ hl => exact ⟨⟨⟨k, l, hl, rfl, rfl⟩, trivial⟩, h.table, h.quarantined⟩

theorem quarantined_setArena (i j : Fin 8) (f : ArenaSlot → ArenaSlot) :
    ((s.setArena i f).arena j).quarantined
      = if j = i then (f (s.arena i)).quarantined else (s.arena j).quarantined := by
  show (update s.arena i _ j).quarantined = _
  rw [update_apply]
  split <;> rfl

theorem Rest.releaseLocked (h : Rest s) {epoch : UInt64} :
    Kept s (releaseLocked s uuid epoch ok) := by
  unfold Low.releaseLocked
  split
  · exact h.kept_nil rfl
  cases hf : s.findUuid uuid with
  | none => exact h.kept_nil rfl
  | some k =>
    obtain ⟨l, hl, -⟩ := Leases.findUuid_some hf
    simp only [hl, Option.elim_some]
    split
    · exact h.kept_nil rfl
    have hcid := h.table.nonzero hl
    have hscrub := h.table.scrub_leased hl
    have hclear (s' : Server Text) (hs : s'.slots = s.slots)
        (hb : s'.binds = unbind s.binds l.cid) : (Act.slot k none).Safe s' := by
      intro l₀ hl₀
      rw [hs, hl] at hl₀
      cases hl₀
      rw [hb]
      exact .inr fun k' => unbind_ne h.linked.1 hcid k' _
    cases ok with
    | true =>
      refine ⟨⟨trivial, trivial, hcid, hclear _ rfl rfl, trivial, trivial⟩, ?_, ?_⟩
      · exact ((h.table.release hl).save true).congr rfl rfl rfl
      intro i
      show ((s.setArena l.index (·.quarantine s.now)).arena i).quarantined
        = update s.scrub l.index true i
      rw [quarantined_setArena, update_apply, ← h.quarantined i]
      rfl
    | false =>
      have hslots : update (update s.slots k none) k (some l) = s.slots := by
        rw [update_idem, ← hl, update_eq_self]
      have hmarks : update (update s.scrub l.index true)
          l.index false = s.scrub := by
        rw [update_idem, ← hscrub, update_eq_self]
      refine ⟨⟨trivial, trivial, hcid, hclear _ rfl rfl, trivial, ?_, trivial,
        trivial, ⟨k, l, update_self .., rfl, rfl⟩, trivial⟩, ?_, ?_⟩
      · intro l₀ hl₀
        have hl₀ : update s.slots k none k = some l₀ := hl₀
        rw [update_self] at hl₀
        cases hl₀
      · exact h.table.congr hslots hmarks rfl
      · intro i
        have hq := h.quarantined i
        show (((s.setArena l.index (·.quarantine s.now)).setArena l.index
            (·.unquarantine)).arena i).quarantined
          = update (update s.scrub l.index true) l.index false i
        rw [hmarks, quarantined_setArena, quarantined_setArena, ← hq]
        split
        · rename_i heq
          subst heq
          rw [hq, hscrub]
          rfl
        · rfl

end Kept

-- ==== load

theorem loadActs_safe [DecidableEq U] (ls : List (Line U)) (s : Server U) :
    SafeFrom s (loadActs ls s) := by
  induction ls generalizing s with
  | nil => trivial
  | cons line ls ih =>
    cases line with
    | scrub i => exact ⟨trivial, ih _⟩
    | lease l =>
      rw [loadActs]
      split
      · exact ih s
      cases hk : s.freeSlot with
      | none => trivial
      | some k =>
        refine ⟨?_, trivial, ⟨k, l, update_self .., rfl, rfl⟩, ih _⟩
        intro l₀ hl₀
        rw [Leases.freeSlot_spec hk] at hl₀
        cases hl₀

/-- The loop keeps the table one of lines of the store. -/
theorem Loading.loadLines [DecidableEq U] {all : List (Line U)}
    (ls : List (Line U)) (s : Server U) (hsub : ls ⊆ all) (h : Loading all s) :
    Loading all (s.loadLines ls) := by
  induction ls generalizing s with
  | nil => exact h
  | cons line ls ih =>
    rw [List.cons_subset] at hsub
    cases line with
    | scrub i => exact ih _ hsub.2 (h.setScrub hsub.1)
    | lease l =>
      rw [Server.loadLines]
      split
      · exact ih s hsub.2 h
      rename_i hskip
      simp only [not_or] at hskip
      obtain ⟨-, -, huuid, htaken⟩ := hskip
      rw [Option.isSome_iff_ne_none, not_not] at huuid
      cases hk : s.freeSlot with
      | none => exact h
      | some k =>
        exact ih (s.addLease k l) hsub.2 (h.addLease hsub.1 (Leases.freeSlot_spec hk)
            (fun hi => htaken (.inl hi))
            fun _ _ => Leases.findUuid_none huuid)

/-- A server that has not loaded its store. -/
structure Unloaded (s : Server Text) : Prop where
  slots : ∀ k, s.slots k = none
  scrub : ∀ i, s.scrub i = false
  binds : ∀ k, s.binds k = none

theorem Unloaded.loading (h : Unloaded s) : Loading s.store s where
  index_inj k _ _ _ hl := by rw [h.slots k] at hl; cases hl
  uuid_inj k _ _ _ hl := by rw [h.slots k] at hl; cases hl
  slots_mem k _ hl := by rw [h.slots k] at hl; cases hl
  scrub_mem i hi := by rw [h.scrub i] at hi; cases hi
  binds_inj k _ _ _ _ hb := by rw [h.binds k] at hb; cases hb
  binds_held k _ _ hb := by rw [h.binds k] at hb; cases hb

theorem Unloaded.rest (h : Unloaded s) (hq : ∀ i, (s.arena i).quarantined = false)
    (hstore : ∀ ⦃l⦄, Line.lease l ∈ s.store →
      l.cid ≠ 0 ∧ Line.scrub l.index ∉ s.store) : Rest s where
  table :=
    { index_inj := h.loading.index_inj
      nonzero := fun k _ hl => by rw [h.slots k] at hl; cases hl
      scrub_leased := fun _ l _ => h.scrub l.index
      store := hstore }
  quarantined i := by rw [hq, h.scrub]
  linked := ⟨h.loading.binds_inj, h.loading.binds_held⟩

theorem unloaded_boot (now : Nat) (store : List (Line Text))
    (log : List (Obs Text)) : Unloaded (Server.boot now store log) :=
  ⟨fun _ => rfl, fun _ => rfl, fun _ => rfl⟩

/-- A loaded server rests: what is not leased is marked and quarantined,
and the store marked nothing that it leased. -/
theorem Rest.arm (h : Rest s) (hu : Unloaded s) :
    Rest (exec (loadActs s.store s ++ [.quarantineUnleased]) s) := by
  have hlinked : Linked (exec (loadActs s.store s ++ [.quarantineUnleased]) s) :=
    h.linked.exec (safeFrom_append.mpr ⟨loadActs_safe _ _, trivial, trivial⟩)
  have hload := hu.loading.loadLines s.store s (List.Subset.refl _)
  obtain ⟨harena, -, -, -, -, hstore, -⟩ := loadLines_frame s.store s
  rw [exec_append, exec_loadActs] at hlinked ⊢
  generalize s.loadLines s.store = t at *
  have hfree : ∀ ⦃k l⦄, t.slots k = some l → t.scrub l.index = false := by
    intro k l hl
    by_contra hmark
    exact (h.table.store (hload.slots_mem hl)).2 (hload.scrub_mem (Bool.of_not_eq_false hmark))
  have hmarks (i : Fin 8) : t.quarantineUnleased.scrub i
      = if t.IndexLeased i then t.scrub i else true := rfl
  refine ⟨⟨hload.index_inj, ?_, ?_, ?_⟩, ?_, hlinked⟩
  · intro k l hl
    exact (h.table.store (hload.slots_mem hl)).1
  · intro k l hl
    have hl : t.slots k = some l := hl
    show t.quarantineUnleased.scrub l.index = false
    rw [hmarks, if_pos (Leases.indexLeased_of_slot hl)]
    exact hfree hl
  · intro l hl
    have hl : Line.lease l ∈ t.store := hl
    show l.cid ≠ 0 ∧ Line.scrub l.index ∉ t.store
    rw [hstore] at hl ⊢
    exact h.table.store hl
  · intro i
    show (t.quarantineUnleased.arena i).quarantined = t.quarantineUnleased.scrub i
    have harenas : t.quarantineUnleased.arena i = if t.IndexLeased i then t.arena i
          else if t.scrub i = true then (t.arena i).quarantine t.now
          else (t.arena i).quarantine (t.now - quarantineMs) := rfl
    rw [harenas, hmarks]
    by_cases hi : t.IndexLeased i
    · obtain ⟨k, l, hk, rfl⟩ := hi
      rw [if_pos (Leases.indexLeased_of_slot hk), if_pos (Leases.indexLeased_of_slot hk),
        harena, h.quarantined, hu.scrub, hfree hk]
    · rw [if_neg hi, if_neg hi]
      split <;> rfl

-- ==== the hall

structure HallInv (h : Hall) : Prop where
  rest : Rest h.srv
  waiting : ∀ p ∈ h.waiting, p.2 ≠ 0
  unarmed : h.ready = false → Unloaded h.srv ∧ h.waiting = []

section Steps

variable {waits : Bool} {h h' : Hall} {c : Call} {p : Text × UInt32} {n : Nat}

theorem HallInv.cid_ne_zero (hinv : HallInv h)
    (hn : h.waiting[n]? = some p) : p.2 ≠ 0 :=
  hinv.waiting p (List.mem_of_getElem? hn)

theorem HallInv.ready (hinv : HallInv h)
    (hn : h.waiting[n]? = some p) : h.ready = true := by
  by_contra hno
  rw [(hinv.unarmed (Bool.of_not_eq_true hno)).2] at hn
  cases hn

/-- A call answers, reserves or releases. -/
theorem HallInv.section_cases (hinv : HallInv h) (hx : c.sectionOf waits h = some x) :
    (x.acts = [] ∧ x.granted = none ∧ x.freed = none) ∨
      (∃ uuid cid waited, Reserves h.srv uuid cid h.ready waited x) ∨
      ∃ uuid epoch ok, x = releaseLocked h.srv uuid epoch ok := by
  cases c with
  | command req paired ok =>
    obtain rfl := Option.some.inj hx
    split
    · exact .inl ⟨rfl, rfl, rfl⟩
    · exact .inr (.inl ⟨_, _, _, reserves_reserveLocked⟩)
    · exact .inr (.inr ⟨_, _, _, rfl⟩)
    unfold query
    split
    · exact .inl ⟨rfl, rfl, rfl⟩
    rename_i k hk
    obtain ⟨l, hl, -⟩ := Leases.findUuid_some hk
    rw [hl]
    exact .inl ⟨rfl, rfl, rfl⟩
  | wake n ok =>
    obtain ⟨p, hp, rfl⟩ := Option.map_eq_some_iff.mp hx
    exact .inr (.inl ⟨_, _, _, reserves_woken (hinv.ready hp) (hinv.cid_ne_zero hp)⟩)
  | timeout n ok =>
    obtain ⟨p, hp, rfl⟩ := Option.map_eq_some_iff.mp hx
    exact .inr (.inl ⟨_, _, true, reserves_timedOut (hinv.ready hp) (hinv.cid_ne_zero hp)⟩)

theorem HallInv.kept (hinv : HallInv h) (hx : c.sectionOf waits h = some x) : Kept h.srv x := by
  rcases hinv.section_cases hx with ⟨hacts, -⟩ | ⟨_, _, _, hres⟩ | ⟨_, _, _, rfl⟩
  · exact hinv.rest.kept_nil hacts
  · exact hinv.rest.reserves hres
  · exact hinv.rest.releaseLocked

/-- A RESERVE_LOW that goes to wait has a cid, and the server is armed. -/
theorem reserveLocked_waits {uuid : Text} {cid : UInt32} {ok ready : Bool}
    (hr : (reserveLocked s uuid cid ok ready waits).reply = none) :
    cid ≠ 0 ∧ ready = true := by
  unfold reserveLocked at hr
  split at hr
  · cases hr
  rename_i hready
  split at hr
  · cases hr
  · rename_i hok
    exact ⟨fun h0 => hok (.inr h0), Bool.of_not_eq_false hready⟩

/-- Before the store is loaded there is nothing to work on. -/
theorem HallInv.unarmed_acts (hinv : HallInv h) (hr : h.ready = false)
    (hx : c.sectionOf waits h = some x) : x.acts = [] ∧ x.reply ≠ none := by
  obtain ⟨hu, hw⟩ := hinv.unarmed hr
  have hfind (uuid : Text) : h.srv.findUuid uuid = none := by
    cases hf : h.srv.findUuid uuid with
    | none => rfl
    | some k =>
      obtain ⟨l, hl, -⟩ := Leases.findUuid_some hf
      rw [hu.slots k] at hl
      cases hl
  cases c with
  | command req paired ok =>
    obtain rfl := Option.some.inj hx
    split
    · exact ⟨rfl, by simp [Section.refuse]⟩
    · rw [reserveLocked, hr]
      exact ⟨rfl, by simp [Section.refuse]⟩
    · unfold releaseLocked
      rw [hfind]
      split <;> exact ⟨rfl, by simp [Section.refuse]⟩
    · rw [query, hfind]
      exact ⟨rfl, by simp [Section.refuse]⟩
  | wake | timeout =>
    rw [Call.sectionOf, hw] at hx
    cases hx

/-- Who waits after a call: one who did before, or the caller itself. -/
theorem Call.mem_waiting (hp : p ∈ (h.after c x).waiting) :
    p ∈ h.waiting ∨ ∃ req paired ok, c = .command req paired ok ∧
      x.reply = none ∧ c.reserves h = some p := by
  have hp : p ∈ c.waiting h x.reply.isSome := hp
  cases c with
  | command req paired ok =>
    simp only [Call.waiting] at hp
    split at hp
    · exact .inl hp
    rename_i hnone
    rcases List.mem_append.mp hp with hp | hp
    · exact .inr ⟨req, paired, ok, rfl, by simpa using hnone, by simpa using hp⟩
    · exact .inl hp
  | wake | timeout =>
    simp only [Call.waiting] at hp
    split at hp
    · exact .inl (List.mem_of_mem_eraseIdx hp)
    · exact .inl hp

theorem HallInv.call (hinv : HallInv h) (hx : c.sectionOf waits h = some x) :
    HallInv (h.after c x) := by
  refine ⟨(hinv.kept hx).rest hinv.rest, ?_, ?_⟩
  · intro p hp
    rcases Call.mem_waiting hp with hp | ⟨req, paired, ok, rfl, hnone, hres⟩
    · exact hinv.waiting p hp
    obtain rfl := Option.some.inj hx
    rw [Call.reserves] at hres
    split at hres
    · rename_i uuid cid hparse
      cases hres
      rw [hparse] at hnone
      exact (reserveLocked_waits hnone).1
    · cases hres
  · intro hr
    have hr : h.ready = false := hr
    obtain ⟨hacts, hreply⟩ := hinv.unarmed_acts hr hx
    obtain ⟨hu, hw⟩ := hinv.unarmed hr
    refine ⟨?_, ?_⟩
    · show Unloaded (exec x.acts h.srv)
      rw [hacts]
      exact hu
    · show c.waiting h x.reply.isSome = []
      have hsome : x.reply.isSome = true := Option.isSome_iff_ne_none.mpr hreply
      cases c <;> simp [Call.waiting, hsome, hw]

variable {s' : Server Text} {e : Event Text}

theorem ScrubStep.kept (h : ScrubStep s e s') : s'.slots = s.slots ∧ s'.binds = s.binds := by
  cases h with
  | @clear i ok _ _ => cases ok <;> exact ⟨rfl, rfl⟩
  | _ => exact ⟨rfl, rfl⟩

theorem JobStep.kept (h : JobStep s e s') : s'.slots = s.slots ∧ s'.binds = s.binds := by
  cases h <;> exact ⟨rfl, rfl⟩

theorem Rest.scrubStep (hs : Rest s) (hst : ScrubStep s e s') : Rest s' := by
  cases hst with
  | pending | due | start | done => exact ⟨hs.table, hs.quarantined, hs.linked⟩
  | @clear i ok hi hun =>
    have htable : TableOk (s.setScrub i false) := by
      refine ⟨hs.table.index_inj, hs.table.nonzero, ?_, hs.table.store⟩
      intro k l hl
      show update s.scrub i false l.index = false
      rw [update_apply]
      split
      · rfl
      · exact hs.table.scrub_leased hl
    refine ⟨htable.save ok, ?_, ?_⟩
    · intro j
      have hscrub : ((s.setScrub i false).save ok).scrub = update s.scrub i false := by
        cases ok <;> rfl
      show ((s.setArena i (·.unquarantine)).arena j).quarantined
        = ((s.setScrub i false).save ok).scrub j
      rw [hscrub, quarantined_setArena, update_apply, ← hs.quarantined j]
      rfl
    · cases ok with
      | true => exact hs.linked
      | false => exact hs.linked

theorem Rest.jobStep (hs : Rest s) (hst : JobStep s e s') : Rest s' := by
  have hleases := hst.leases
  have hkeep (t : Server Text) (i j : Fin 8) (f : ArenaSlot → ArenaSlot)
      (hf : ∀ a, (f a).quarantined = a.quarantined) :
      ((t.setArena i f).arena j).quarantined = (t.arena j).quarantined := by
    rw [quarantined_setArena]
    split
    · rename_i heq
      rw [hf, heq]
    · rfl
  have hrest : s'.binds = s.binds ∧ ∀ i, (s'.arena i).quarantined = (s.arena i).quarantined := by
    cases hst with
    | begin_ hq => exact ⟨rfl, fun j => hkeep _ _ j _ fun _ => rfl⟩
    | recheck | driverStart => exact ⟨rfl, fun _ => rfl⟩
    | @refuse j | @end_ j =>
      exact ⟨rfl, fun i => hkeep s j.index i (·.end_ s.now) fun _ => rfl⟩
  obtain ⟨hbinds, hq⟩ := hrest
  refine ⟨hleases ▸ hs.table, ?_, ?_⟩
  · intro i
    rw [hq, hleases]
    exact hs.quarantined i
  · rw [Linked, hbinds, hleases]
    exact hs.linked

theorem HallInv.step {e : HallEvent} (hinv : HallInv h)
    (hst : HallStep waits h e h') : HallInv h' := by
  cases hst with
  | call hx => exact hinv.call hx
  | arm hr =>
    obtain ⟨hu, hw⟩ := hinv.unarmed hr
    refine ⟨hinv.rest.arm hu, ?_, fun h => by cases h⟩
    intro p hp
    have hp : p ∈ h.waiting := hp
    rw [hw] at hp
    cases hp
  | @crash now =>
    have hu := unloaded_boot now h.srv.store h.srv.log
    refine ⟨hu.rest (fun _ => rfl) hinv.rest.table.store, ?_, fun _ => ⟨hu, rfl⟩⟩
    intro p hp
    cases hp
  | tick => exact ⟨⟨hinv.rest.table, hinv.rest.quarantined, hinv.rest.linked⟩,
      hinv.waiting, fun hr => ⟨⟨(hinv.unarmed hr).1.slots, (hinv.unarmed hr).1.scrub,
        (hinv.unarmed hr).1.binds⟩, (hinv.unarmed hr).2⟩⟩
  | scrub hst =>
    refine ⟨hinv.rest.scrubStep hst, hinv.waiting, ?_⟩
    intro hr
    obtain ⟨hu, hw⟩ := hinv.unarmed hr
    refine ⟨?_, hw⟩
    cases hst with
    | pending | due | start | done => exact ⟨hu.slots, hu.scrub, hu.binds⟩
    | @clear i ok hi hun =>
      have hmarks : ∀ j, update h.srv.scrub i false j = false := by
        intro j
        rw [update_apply]
        split
        · rfl
        · exact hu.scrub j
      cases ok with
      | true => exact ⟨hu.slots, hmarks, hu.binds⟩
      | false => exact ⟨hu.slots, hmarks, hu.binds⟩
  | job hst =>
    refine ⟨hinv.rest.jobStep hst, hinv.waiting, ?_⟩
    intro hr
    obtain ⟨hu, hw⟩ := hinv.unarmed hr
    refine ⟨?_, hw⟩
    cases hst <;> exact ⟨hu.slots, hu.scrub, hu.binds⟩

theorem hallInv_reachable (hr : (hallSystem waits).Reachable h) :
    HallInv h := by
  refine hr.induct ?_ fun s e s' _ hs hst => hs.step hst
  intro s hs
  obtain ⟨now, rfl⟩ := hs
  have hu := unloaded_boot now [] []
  refine ⟨hu.rest (fun _ => rfl) ?_, ?_, fun _ => ⟨hu, rfl⟩⟩
  · intro l hl
    cases hl
  · intro p hp
    cases hp

end Steps

end AmbaVirt.Low
