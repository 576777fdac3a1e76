/-
A ring of recent entries: a fixed number of slots and the index of the
slot the next entry overwrites.

`Holds` reads the ring as a list, newest entry first: the entries of the
list that a ring of `n` slots still has are its first `n`, and entry `k`
is `k` slots behind the newest one. `push` keeps it (`Holds.push`), and
what a search of all slots finds is `Holds.mem_slot`.
-/
import Mathlib

namespace Lib

open Function

/-- A ring of `n` slots. -/
structure Ring (α : Type*) (n : Nat) [NeZero n] where
  slot : Fin n → α
  next : Fin n
  deriving DecidableEq

namespace Ring

variable {α : Type*} {n : Nat} [NeZero n] {r : Ring α n} {l : List α}

/-- Overwrite the oldest slot. -/
def push (r : Ring α n) (a : α) : Ring α n where
  slot := update r.slot r.next a
  next := r.next + 1

/-- The ring has the first `n` entries of `l`, which is newest first. -/
def Holds (r : Ring α n) (l : List α) : Prop :=
  ∀ (k : Nat) (hk : k < l.length), k < n → r.slot (r.next - 1 - Fin.ofNat n k) = l[k]

theorem holds_nil (r : Ring α n) : r.Holds [] :=
  fun _ hk => absurd hk (Nat.not_lt_zero _)

theorem ofNat_succ_ne_zero {k : Nat} (hk : k + 1 < n) : Fin.ofNat n (k + 1) ≠ 0 := by
  intro h
  have hval := congrArg Fin.val h
  rw [Fin.val_ofNat, Fin.val_zero, Nat.mod_eq_of_lt hk] at hval
  omega

theorem ofNat_succ (k : Nat) : Fin.ofNat n (k + 1) = 1 + Fin.ofNat n k := by
  apply Fin.ext
  rw [Fin.val_add, Fin.val_ofNat, Fin.val_ofNat, Fin.val_one', Nat.add_mod_mod,
    Nat.mod_add_mod, Nat.add_comm]

theorem Holds.push (h : r.Holds l) (a : α) : (r.push a).Holds (a :: l) := by
  intro k hk hkn
  show update r.slot r.next a (r.next + 1 - 1 - Fin.ofNat n k) = _
  rw [add_sub_cancel_right]
  cases k with
  | zero =>
    have hzero : Fin.ofNat n 0 = 0 := rfl
    rw [hzero, sub_zero, update_self, List.getElem_cons_zero]
  | succ k =>
    have hne : r.next - Fin.ofNat n (k + 1) ≠ r.next := by
      intro heq
      exact ofNat_succ_ne_zero hkn (sub_eq_self.mp heq)
    rw [update_of_ne hne, List.getElem_cons_succ, ofNat_succ, ← sub_sub]
    exact h k (Nat.lt_of_succ_lt_succ hk) (Nat.lt_of_succ_lt hkn)

/-- An entry among the last `n` is in some slot. -/
theorem Holds.mem_slot (h : r.Holds l) {a : α} (ha : a ∈ l.take n) : ∃ i, r.slot i = a := by
  obtain ⟨k, hk, rfl⟩ := List.mem_iff_getElem.mp ha
  rw [List.length_take] at hk
  rw [List.getElem_take]
  exact ⟨_, h k (by omega) (by omega)⟩

end Ring

end Lib
