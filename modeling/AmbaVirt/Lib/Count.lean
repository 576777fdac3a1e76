/-
Counting over what a step replaces: one element of a list of threads,
one entry of a table.

A step rarely changes a total by much; the lemmas say how each total
moves, with both sides written as sums so that no subtraction appears.
-/
import Mathlib

namespace Lib

open Function

/-- `l` with one `a` replaced by `b`. -/
def move {α : Type*} [DecidableEq α] (l : List α) (a b : α) : List α :=
  b :: l.erase a

section

variable {α : Type*} [DecidableEq α] {l : List α} {a b c : α}

theorem move_head (l : List α) (a b : α) : move (a :: l) a b = b :: l := by
  rw [move, List.erase_cons_head]

theorem countP_move (h : a ∈ l) (p : α → Bool) : (move l a b).countP p + (if p a then 1 else 0)
      = l.countP p + (if p b then 1 else 0) := by
  rw [move, (List.perm_cons_erase h).countP_eq p, List.countP_cons, List.countP_cons]
  omega

theorem countP_erase (h : a ∈ l) (p : α → Bool) :
    (l.erase a).countP p + (if p a then 1 else 0) = l.countP p := by
  rw [(List.perm_cons_erase h).countP_eq p, List.countP_cons]

theorem mem_move (h : c ∈ move l a b) : c = b ∨ c ∈ l := by
  rcases List.mem_cons.mp h with h | h
  · exact .inl h
  · exact .inr (List.mem_of_mem_erase h)

end

theorem two_le_countP {α : Type*} {p : α → Bool} {l : List α} {i j : Nat}
    {a b : α} (hij : i < j) (ha : l[i]? = some a) (hb : l[j]? = some b)
    (hpa : p a = true) (hpb : p b = true) : 2 ≤ l.countP p := by
  have hfirst : 0 < (l.take j).countP p := by
    rw [List.countP_pos_iff]
    refine ⟨a, List.mem_of_getElem? (i := i) ?_, hpa⟩
    rw [List.getElem?_take_of_lt hij, ha]
  have hsecond : 0 < (l.drop j).countP p := by
    rw [List.countP_pos_iff]
    refine ⟨b, List.mem_of_getElem? (i := 0) ?_, hpb⟩
    rw [List.getElem?_drop, Nat.add_zero, hb]
  rw [← List.take_append_drop j l, List.countP_append]
  omega

/-- Of a list in which one element at most is counted. -/
theorem index_eq_of_countP {α : Type*} {p : α → Bool} {l : List α} {i j : Nat}
    {a b : α} (h : l.countP p ≤ 1) (ha : l[i]? = some a) (hb : l[j]? = some b)
    (hpa : p a = true) (hpb : p b = true) : i = j := by
  by_contra hne
  have htwo : 2 ≤ l.countP p := by
    rcases Nat.lt_or_gt_of_ne hne with hlt | hlt
    · exact two_le_countP hlt ha hb hpa hpb
    · exact two_le_countP hlt hb ha hpb hpa
  omega

theorem sum_update {ι α : Type*} [Fintype ι] [DecidableEq ι] (f : α → Nat)
    (g : ι → α) (i : ι) (v : α) :
    ∑ j, f (update g i v j) + f (g i) = ∑ j, f (g j) + f v := by
  have hrest : ∑ j ∈ Finset.univ.erase i, f (update g i v j)
      = ∑ j ∈ Finset.univ.erase i, f (g j) := by
    refine Finset.sum_congr rfl fun j hj => ?_
    rw [update_of_ne (Finset.ne_of_mem_erase hj)]
  rw [← Finset.add_sum_erase _ _ (Finset.mem_univ i),
    ← Finset.add_sum_erase _ (fun j => f (g j)) (Finset.mem_univ i), hrest,
    update_self]
  omega

end Lib
