/-
Leases with stamps: an allocator that numbers its grants from a counter,
keeps the live ones in slots, and writes them to a store from which it is
restarted.

`Ledger.Step` lets slots be lost, stamps be burnt and any part of what is
live be saved. It fixes three things. A grant takes the counter's value,
a free takes the lease out of the slots and out of the store, and a
restart that loads the store leaves the counter past every stamp ever
granted, or at zero, where it grants nothing.

Then no two grants have the same stamp, and a lease that was freed is
never live again (`Inv.step`). The third condition is what a restart must
be asked for; nothing in the store gives it when the newest lease has
been freed.
-/
import Mathlib

namespace Lib

/-- An allocator with slots `ι`: the counter, the live leases, what a
reload of the store would find, and the leases granted and freed so far,
newest first. -/
structure Ledger (ι K : Type) where
  /-- The store has been loaded since the last restart. -/
  up : Bool
  next : UInt64
  live : ι → Option (K × UInt64)
  stored : Set (K × UInt64)
  granted : List (K × UInt64)
  freed : List (K × UInt64)

namespace Ledger

variable {ι K : Type} {a b : Ledger ι K}

/-- The counter is past every stamp granted, or will grant no more. -/
def Past (next : UInt64) (granted : List (K × UInt64)) : Prop :=
  next = 0 ∨ ∀ p ∈ granted, p.2 < next

/-- What a save may write. -/
def Live (a : Ledger ι K) : Set (K × UInt64) := { p | ∃ i, a.live i = some p }

inductive Step (a b : Ledger ι K) : Prop
  /-- The grant of `new` into slot `k`, or the free of what `k` held, or
  neither. -/
  | act (k : ι) (new gone : Option (K × UInt64)) (up : b.up = a.up)
      (live : ∀ i p, b.live i = some p → a.live i = some p ∨ i = k ∧ p ∈ new)
      (stored : ∀ p ∈ b.stored, p ∈ a.stored ∨ p ∈ a.Live ∨ p ∈ new)
      (grant : ∀ p ∈ new, a.up = true ∧ a.next ≠ 0 ∧ p.2 = a.next ∧ b.next = a.next + 1)
      (free : ∀ p ∈ gone, a.live k = some p ∧ b.live k = none ∧ b.stored ⊆ b.Live)
      (next : b.next = a.next ∨ a.next ≠ 0 ∧ b.next = a.next + 1)
      (granted : b.granted = new.toList ++ a.granted) (freed : b.freed = gone.toList ++ a.freed)
  | crash (up : b.up = false) (live : ∀ i, b.live i = none) (stored : b.stored ⊆ a.stored)
      (granted : b.granted = a.granted) (freed : b.freed = a.freed)
  | load (live : ∀ i p, b.live i = some p → p ∈ a.stored)
      (inj : ∀ i j k e e', b.live i = some (k, e) → b.live j = some (k, e') → i = j)
      (stored : b.stored ⊆ a.stored) (past : Past b.next a.granted)
      (granted : b.granted = a.granted) (freed : b.freed = a.freed)

theorem Step.keep [Inhabited ι] (up : b.up = a.up)
    (live : ∀ i p, b.live i = some p → a.live i = some p)
    (stored : b.stored ⊆ a.stored ∪ a.Live)
    (next : b.next = a.next ∨ a.next ≠ 0 ∧ b.next = a.next + 1)
    (granted : b.granted = a.granted) (freed : b.freed = a.freed) : a.Step b :=
  .act default none none up (fun i p h => .inl (live i p h))
    (fun _ h => (stored h).imp_right .inl) nofun nofun next granted freed

structure Inv (a : Ledger ι K) : Prop where
  past : a.up = true → Past a.next a.granted
  /-- The stamps grow. -/
  granted : a.granted.Pairwise fun p q => q.2 < p.2
  live : ∀ ⦃i p⦄, a.live i = some p → p ∈ a.granted ∧ p ∉ a.freed
  stored : ∀ ⦃p⦄, p ∈ a.stored → p ∈ a.granted ∧ p ∉ a.freed
  freed : ∀ ⦃p⦄, p ∈ a.freed → p ∈ a.granted
  nodup : a.freed.Nodup
  inj : ∀ ⦃i j p q⦄, a.live i = some p → a.live j = some q → p.2 = q.2 → i = j

theorem Inv.stamps (h : a.Inv) : a.granted.Pairwise fun p q => p.2 ≠ q.2 := by
  refine h.granted.imp ?_
  intro p q hlt heq
  rw [heq] at hlt
  exact UInt64.lt_irrefl _ hlt

theorem Inv.unique (h : a.Inv) {p q : K × UInt64} (hp : p ∈ a.granted)
    (hq : q ∈ a.granted) (heq : p.2 = q.2) : p = q := by
  have hnodup : (a.granted.map Prod.snd).Nodup := by
    rw [List.Nodup, List.pairwise_map]
    exact h.stamps
  exact List.inj_on_of_nodup_map hnodup hp hq heq

theorem lt_succ {x : UInt64} (h : x + 1 ≠ 0) : x < x + 1 := by
  have hsum : (x + 1).toNat = (x.toNat + 1) % 2 ^ 64 := UInt64.toNat_add _ _
  have hne : (x + 1).toNat ≠ 0 := fun h0 => h (UInt64.toNat_inj.mp h0)
  have hlt := x.toNat_lt
  rw [UInt64.lt_iff_toNat_lt]
  omega

theorem past_burn {next : UInt64} {granted : List (K × UInt64)}
    (h : Past next granted) (h0 : next ≠ 0) : Past (next + 1) granted := by
  by_cases hmax : next + 1 = 0
  · exact .inl hmax
  · exact .inr fun p hp => UInt64.lt_trans (h.resolve_left h0 p hp) (lt_succ hmax)

theorem past_grant {next : UInt64} {granted : List (K × UInt64)} {p : K × UInt64}
    (h : Past next granted) (h0 : next ≠ 0) (hp : p.2 = next) :
    Past (next + 1) (p :: granted) := by
  subst hp
  by_cases hmax : p.2 + 1 = 0
  · exact .inl hmax
  · refine .inr (List.forall_mem_cons.mpr ⟨lt_succ hmax, ?_⟩)
    exact (past_burn h h0).resolve_left hmax

theorem inv_init (hup : a.up = false) (hlive : ∀ i, a.live i = none)
    (hstored : ∀ p, p ∉ a.stored) (hgranted : a.granted = []) (hfreed : a.freed = []) :
    a.Inv := by
  refine ⟨?_, hgranted ▸ .nil, ?_, fun p hp => absurd hp (hstored p), ?_, hfreed ▸ .nil, ?_⟩
  · intro h
    rw [hup] at h
    cases h
  · intro i p hp
    rw [hlive i] at hp
    cases hp
  · intro p hp
    rw [hfreed] at hp
    cases hp
  · intro i j p q hp
    rw [hlive i] at hp
    cases hp

/-- What is live is some of what was stored. -/
theorem Inv.restart (h : a.Inv) (live : ∀ i p, b.live i = some p → p ∈ a.stored)
    (inj : ∀ i j k e e', b.live i = some (k, e) → b.live j = some (k, e') → i = j)
    (stored : b.stored ⊆ a.stored) (past : b.up = true → Past b.next a.granted)
    (granted : b.granted = a.granted) (freed : b.freed = a.freed) : b.Inv := by
  refine ⟨granted ▸ past, granted ▸ h.granted, ?_, ?_, ?_, freed ▸ h.nodup, ?_⟩
  · rw [granted, freed]
    exact fun i p hp => h.stored (live i p hp)
  · rw [granted, freed]
    exact fun p hp => h.stored (stored hp)
  · rw [granted, freed]
    exact h.freed
  · intro i j p q hp hq heq
    obtain rfl : p = q := h.unique (h.stored (live i p hp)).1 (h.stored (live j q hq)).1 heq
    exact inj i j p.1 p.2 p.2 hp hq

theorem Inv.step (h : a.Inv) (hs : a.Step b) : b.Inv := by
  cases hs with
  | act k new gone up live stored grant free next granted freed =>
    -- a new stamp is above all of the old ones
    have hlt : ∀ p ∈ new, ∀ q ∈ a.granted, q.2 < p.2 := by
      intro p hp q hq
      obtain ⟨hup, h0, hnext, -⟩ := grant p hp
      rw [hnext]
      exact (h.past hup).resolve_left h0 q hq
    -- and no other slot has the stamp of a lease that goes
    have hgone : ∀ i p, b.live i = some p → p ∉ gone := by
      intro i p hp hg
      obtain ⟨hk, hnone, -⟩ := free p hg
      rcases live i p hp with hi | ⟨rfl, -⟩
      · rw [h.inj hi hk rfl, hnone] at hp
        cases hp
      · rw [hnone] at hp
        cases hp
    have hheld : ∀ p, p ∈ a.granted ∧ p ∉ a.freed ∨ p ∈ new → p ∉ gone →
        p ∈ b.granted ∧ p ∉ b.freed := by
      intro p hp hg
      rw [granted, freed, List.mem_append, List.mem_append, not_or, Option.mem_toList,
        Option.mem_toList]
      rcases hp with ⟨hin, hout⟩ | hnew
      · exact ⟨.inr hin, hg, hout⟩
      · exact ⟨.inl hnew, hg, fun hf => UInt64.lt_irrefl _ (hlt p hnew p (h.freed hf))⟩
    have hlive : ∀ ⦃i p⦄, b.live i = some p → p ∈ b.granted ∧ p ∉ b.freed := by
      intro i p hp
      exact hheld p ((live i p hp).imp (fun hi => h.live hi) And.right) (hgone i p hp)
    refine ⟨?_, ?_, hlive, ?_, ?_, ?_, ?_⟩
    · intro hup
      have hpast := h.past (up ▸ hup)
      rw [granted]
      cases new with
      | none =>
        rcases next with heq | ⟨h0, heq⟩
        · rw [heq]
          exact hpast
        · rw [heq]
          exact past_burn hpast h0
      | some p =>
        obtain ⟨-, h0, hp, heq⟩ := grant p rfl
        rw [heq]
        exact past_grant hpast h0 hp
    · rw [granted]
      cases new with
      | none => exact h.granted
      | some p => exact List.pairwise_cons.mpr ⟨hlt p rfl, h.granted⟩
    · intro p hp
      by_cases hg : p ∈ gone
      · obtain ⟨i, hi⟩ := (free p hg).2.2 hp
        exact hlive hi
      · refine hheld p ?_ hg
        rcases stored p hp with hp | ⟨i, hp⟩ | hp
        · exact .inl (h.stored hp)
        · exact .inl (h.live hp)
        · exact .inr hp
    · intro p hp
      rw [granted]
      rw [freed, List.mem_append, Option.mem_toList] at hp
      rcases hp with hg | hf
      · exact List.mem_append_right _ (h.live (free p hg).1).1
      · exact List.mem_append_right _ (h.freed hf)
    · rw [freed]
      cases gone with
      | none => exact h.nodup
      | some p => exact List.nodup_cons.mpr ⟨(h.live (free p rfl).1).2, h.nodup⟩
    · intro i j p q hp hq heq
      rcases live i p hp with hi | ⟨rfl, hi⟩ <;> rcases live j q hq with hj | ⟨rfl, hj⟩
      · exact h.inj hi hj heq
      · exact absurd (hlt q hj p (h.live hi).1) (by rw [heq]; exact UInt64.lt_irrefl _)
      · exact absurd (hlt p hi q (h.live hj).1) (by rw [heq]; exact UInt64.lt_irrefl _)
      · rfl
  | crash up live stored granted freed =>
    have hnone : ∀ {i p}, b.live i ≠ some p := by
      intro i p hp
      rw [live i] at hp
      cases hp
    refine h.restart (fun _ _ hp => absurd hp hnone) (fun _ _ _ _ _ hp => absurd hp hnone)
      stored ?_ granted freed
    intro hup
    rw [up] at hup
    cases hup
  | load live inj stored past granted freed =>
    exact h.restart live inj stored (fun _ => past) granted freed

-- ==== reloads

section Reload

variable {L : Type} (stamp : L → UInt64) (Good : L → Prop) (Clash : L → L → Prop)

/-- A reload of leases one by one, and the counter it leaves. A lease that
is not good or clashes with one in a slot is skipped; another takes a
free slot, while there is one, and raises the counter. -/
inductive Reload [DecidableEq ι] : List L → (ι → Option L) → UInt64 → UInt64 → Prop
  | nil {slots next} : Reload [] slots next next
  | skip {l ls slots next last} : (Good l → ∃ k m, slots k = some m ∧ Clash m l) →
      Reload ls slots next last → Reload (l :: ls) slots next last
  | full {l ls slots next} : (∀ k, slots k ≠ none) → Reload (l :: ls) slots next next
  | take {l ls slots next next' last} (k : ι) : slots k = none →
      (stamp l ≠ 0xffffffffffffffff → next' = if stamp l ≥ next then stamp l + 1 else next) →
      Reload ls (Function.update slots k (some l)) next' last → Reload (l :: ls) slots next last

/-- Lease `l` is among those to come, or the counter is past it; nothing
else clashes with it, and there is room for all. -/
structure Due [Fintype ι] (l : L) (ls : List L) (slots : ι → Option L) (next : UInt64) :
    Prop where
  past : l ∈ ls ∨ stamp l < next
  below : ∀ k, slots k = some l → stamp l < next
  only : ∀ m, (m ∈ ls ∨ ∃ k, slots k = some m) → Clash m l → m = l
  room : ls.length ≤ (Finset.univ.filter fun k => slots k = none).card
  last : ∀ m ∈ ls, stamp m ≠ 0xffffffffffffffff
  counter : next ≠ 0

variable {stamp Good Clash} [Fintype ι] {l m : L} {ls : List L} {slots : ι → Option L}
  {next next' last : UInt64}

theorem Due.skip (h : Due stamp Clash l (m :: ls) slots next) (hgood : Good l)
    (hskip : Good m → ∃ k m', slots k = some m' ∧ Clash m' m) :
    Due stamp Clash l ls slots next where
  past := by
    rcases h.past with hmem | hlt
    · rcases List.mem_cons.mp hmem with rfl | hmem
      · -- it was skipped for itself
        obtain ⟨k, m', hk, hclash⟩ := hskip hgood
        obtain rfl := h.only m' (.inr ⟨k, hk⟩) hclash
        exact .inr (h.below k hk)
      · exact .inl hmem
    · exact .inr hlt
  below := h.below
  only m' hm' := h.only m' (hm'.imp_left (List.mem_cons_of_mem _))
  room := Nat.le_of_succ_le h.room
  last := (List.forall_mem_cons.mp h.last).2
  counter := h.counter

theorem Due.take [DecidableEq ι] (h : Due stamp Clash l (m :: ls) slots next) (k : ι)
    (hnext : next' = if stamp m ≥ next then stamp m + 1 else next) :
    Due stamp Clash l ls (Function.update slots k (some m)) next' := by
  obtain ⟨hmax, hlast⟩ := List.forall_mem_cons.mp h.last
  have hne : stamp m + 1 ≠ 0 := fun h0 => hmax (by rw [← add_sub_cancel_right (stamp m) 1, h0]; rfl)
  have hraise : next' ≠ 0 ∧ next ≤ next' ∧ stamp m < next' := by
    rw [hnext]
    split
    case isTrue hle =>
      exact ⟨hne, UInt64.le_trans hle (UInt64.le_of_lt (lt_succ hne)), lt_succ hne⟩
    case isFalse hlt => exact ⟨h.counter, UInt64.le_refl _, UInt64.not_le.mp hlt⟩
  obtain ⟨h0, hle, hlt⟩ := hraise
  have hslots : ∀ j m', Function.update slots k (some m) j = some m' →
      m' = m ∨ slots j = some m' := by
    intro j m' hj
    rw [Function.update_apply] at hj
    split at hj
    · exact .inl (Option.some.inj hj).symm
    · exact .inr hj
  refine ⟨?_, ?_, ?_, ?_, hlast, h0⟩
  · rcases h.past with hmem | hpast
    · rcases List.mem_cons.mp hmem with rfl | hmem
      · exact .inr hlt
      · exact .inl hmem
    · exact .inr (UInt64.lt_of_lt_of_le hpast hle)
  · intro j hj
    rcases hslots j l hj with rfl | hj
    · exact hlt
    · exact UInt64.lt_of_lt_of_le (h.below j hj) hle
  · rintro m' (hm' | ⟨j, hj⟩)
    · exact h.only m' (.inl (List.mem_cons_of_mem _ hm'))
    · rcases hslots j m' hj with rfl | hj
      · exact h.only m' (.inl List.mem_cons_self)
      · exact h.only m' (.inr ⟨j, hj⟩)
  · have hsub : (Finset.univ.filter fun j => slots j = none).erase k ⊆
        Finset.univ.filter fun j => Function.update slots k (some m) j = none := by
      intro j hj
      obtain ⟨hne, hj⟩ := Finset.mem_erase.mp hj
      rw [Finset.mem_filter, Function.update_of_ne hne]
      exact Finset.mem_filter.mp hj
    have hcard := Finset.card_le_card hsub
    have hpred := Finset.pred_card_le_card_erase (a := k)
      (s := Finset.univ.filter fun j => slots j = none)
    have hroom := h.room
    rw [List.length_cons] at hroom
    omega

/-- A reload leaves the counter past a lease that is due. -/
theorem Reload.past [DecidableEq ι] (hr : Reload stamp Good Clash ls slots next last)
    (hgood : Good l) (h : Due stamp Clash l ls slots next) : stamp l < last := by
  induction hr with
  | nil => exact h.past.resolve_left nofun
  | skip hskip _ ih => exact ih (h.skip hgood hskip)
  | full hfull =>
    have hroom := h.room
    rw [Finset.filter_false_of_mem fun k _ => hfull k] at hroom
    cases hroom
  | take k _ hnext _ ih => exact ih (h.take k (hnext (h.last _ List.mem_cons_self)))

end Reload

end Ledger

end Lib
