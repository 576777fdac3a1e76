/-
A fold over the whole blocks of a list, and a buffer that is written in
parts.

`absorb` takes blocks of `n` elements off the front of a list for as long
as there are any. What it leaves does not depend on how the list was put
together (`absorb_append`), which is all that a stream processed in pieces
comes down to.
-/
import Mathlib

namespace Lib

-- ==== blocks

section

variable {α σ : Type*} (step : σ → List α → σ) (n : Nat)

/-- The state behind the whole blocks, and the elements left over. -/
def absorb (s : σ) (l : List α) : σ × List α :=
  if 0 < n ∧ n ≤ l.length then absorb (step s (l.take n)) (l.drop n)
  else (s, l)
termination_by l.length
decreasing_by
  rw [List.length_drop]
  omega

variable {step n} {s : σ} {l : List α}

theorem absorb_short (h : l.length < n) : absorb step n s l = (s, l) := by
  unfold absorb
  rw [if_neg (by omega)]

theorem absorb_block (hn : 0 < n) (h : l.length = n) (rest : List α) :
    absorb step n s (l ++ rest) = absorb step n (step s l) rest := by
  rw [absorb, if_pos (by rw [List.length_append]; omega), ← h, List.take_left, List.drop_left]

theorem absorb_one (hn : 0 < n) (h : l.length = n) : absorb step n s l = (step s l, []) := by
  rw [← List.append_nil l, absorb_block hn h, List.append_nil]
  exact absorb_short hn

theorem absorb_append (hn : 0 < n) (s : σ) (a b : List α) : absorb step n s (a ++ b)
      = absorb step n (absorb step n s a).1 ((absorb step n s a).2 ++ b) := by
  fun_induction absorb step n s a with
  | case1 s a h ih =>
    have hle : a.length ≤ (a ++ b).length := by
      rw [List.length_append]
      omega
    rw [absorb, if_pos (by omega), List.take_append_of_le_length h.2,
      List.drop_append_of_le_length h.2]
    exact ih
  | case2 s a h => rfl

theorem absorb_hom {τ : Type*} {step' : τ → List α → τ} {g : σ → τ}
    (hg : ∀ s b, step' (g s) b = g (step s b)) (s : σ) (l : List α) :
    (absorb step' n (g s) l).1 = g (absorb step n s l).1 := by
  fun_induction absorb step n s l with
  | case1 s l h ih => rw [absorb, if_pos h, hg, ih]
  | case2 s l h => rw [absorb, if_neg h]

end

-- ==== buffers

section

variable {α : Type*} {l d : List α} {o : Nat}

/-- `memcpy` of `d` to offset `o` of a buffer. -/
def overwrite (l : List α) (o : Nat) (d : List α) : List α :=
  l.take o ++ d ++ l.drop (o + d.length)

theorem length_overwrite (h : o + d.length ≤ l.length) : (overwrite l o d).length = l.length := by
  rw [overwrite, List.length_append, List.length_append, List.length_take, List.length_drop]
  omega

/-- The buffer up to the end of what was written. -/
theorem take_overwrite (h : o ≤ l.length) :
    (overwrite l o d).take (o + d.length) = l.take o ++ d := by
  rw [overwrite, List.take_left']
  rw [List.length_append, List.length_take, Nat.min_eq_left h]

theorem overwrite_to_end (h : l.length ≤ o + d.length) : overwrite l o d = l.take o ++ d := by
  rw [overwrite, List.drop_of_length_le h, List.append_nil]

end

end Lib
