/-
Tables: functions on indices, written one entry at a time.

`update_cases` reads an entry of a written table as the entry written or
as one of before, and `update_all` carries a property of every entry in
use through a write. `Apart` says that no two entries in use are related
(have the same key, say); it survives the loss of entries and the write of
one that is related to none.
-/
import Mathlib

namespace Lib

-- ==== sizes

-- For literals of `Fin n`. Under a name the instance is one constant in
-- every module; what instance search puts together is abstracted into a
-- lemma of each definition with such a literal.

instance neZero_two : NeZero 2 := inferInstance

instance neZero_four : NeZero 4 := inferInstance

instance neZero_eight : NeZero 8 := inferInstance

instance neZero_sixteen : NeZero 16 := inferInstance

instance neZero_thirtyTwo : NeZero 32 := inferInstance

instance neZero_fiveTwelve : NeZero 512 := inferInstance

-- ==== writes

open Function

variable {ι α : Type*}

section

variable [DecidableEq ι]

theorem update_cases {f : ι → α} {i j : ι} {v w : α} (h : update f i v j = w) :
    (j = i ∧ v = w) ∨ (j ≠ i ∧ f j = w) := by
  by_cases hj : j = i
  · subst hj
    rw [update_self] at h
    exact .inl ⟨rfl, h⟩
  · rw [update_of_ne hj] at h
    exact .inr ⟨hj, h⟩

/-- What holds of every entry in use, and of the one written, holds after
the write. -/
theorem update_all {f : ι → Option α} {P : α → Prop}
    (h : ∀ ⦃j a⦄, f j = some a → P a) {i : ι} {o : Option α}
    (ho : ∀ a, o = some a → P a) {j : ι} {a : α}
    (ha : update f i o j = some a) : P a := by
  rcases update_cases ha with ⟨-, hwritten⟩ | ⟨-, hold⟩
  · exact ho a hwritten
  · exact h hold

theorem update_keeps {f : ι → Option α} {i j : ι} {o : Option α} {a : α}
    (hi : f i = none) (ha : f j = some a) : update f i o j = some a := by
  rw [update_of_ne, ha]
  rintro rfl
  rw [hi] at ha
  cases ha

theorem update_none {f : ι → Option α} {i j : ι} {a : α}
    (h : update f i none j = some a) : j ≠ i ∧ f j = some a := by
  rcases update_cases h with ⟨-, hnone⟩ | hold
  · cases hnone
  · exact hold

theorem update_none_or (f : ι → Option α) (i j : ι) :
    update f i none j = f j ∨ update f i none j = none := by
  rcases eq_or_ne j i with rfl | hj
  · exact .inr (update_self ..)
  · exact .inl (update_of_ne hj ..)

end

-- ==== entries apart

/-- No two entries in use are related. -/
def Apart (R : α → α → Prop) (f : ι → Option α) : Prop :=
  ∀ ⦃i j a b⦄, f i = some a → f j = some b → R a b → i = j

section

variable {R : α → α → Prop} {f g : ι → Option α}

theorem Apart.sub (h : Apart R f) (hsub : ∀ ⦃j a⦄, g j = some a → f j = some a) : Apart R g :=
  fun _ _ _ _ ha hb hab => h (hsub ha) (hsub hb) hab

variable [DecidableEq ι]

theorem Apart.clear (h : Apart R f) (i : ι) : Apart R (update f i none) :=
  h.sub fun _ _ ha => (update_none ha).2

theorem Apart.put (h : Apart R f) (hR : ∀ ⦃a b⦄, R a b → R b a) {i : ι} {a : α}
    (hi : ∀ ⦃j b⦄, f j = some b → R b a → j = i) :
    Apart R (update f i (some a)) := by
  intro j k b c hj hk hbc
  rcases update_cases hj with ⟨rfl, hb⟩ | ⟨-, hb⟩ <;>
    rcases update_cases hk with ⟨rfl, hc⟩ | ⟨-, hc⟩
  · rfl
  · cases hb
    exact (hi hc (hR hbc)).symm
  · cases hc
    exact hi hb hbc
  · exact h hb hc hbc

end

end Lib
