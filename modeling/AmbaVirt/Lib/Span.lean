/-
Byte ranges: half-open spans of natural-number addresses, when one lies
in another, when two are apart, and the bytes a strided copy touches.

`Within` and `Apart` are stated on the end points, where linear
arithmetic proves them; `bytes` gives them their meaning as sets
(`Within.bytes_subset`, `Apart.disjoint`).
-/
import Mathlib

namespace Lib

/-- The addresses `lo, lo + 1, …, lo + len - 1`. -/
structure Span where
  lo : Nat
  len : Nat
  deriving DecidableEq

namespace Span

def bytes (s : Span) : Set Nat := { a | s.lo ≤ a ∧ a < s.lo + s.len }

/-- `s` starts and ends in `t`. -/
def Within (s t : Span) : Prop := t.lo ≤ s.lo ∧ s.lo + s.len ≤ t.lo + t.len
  deriving Decidable

/-- One of the two ends before the other starts. -/
def Apart (s t : Span) : Prop := s.lo + s.len ≤ t.lo ∨ t.lo + t.len ≤ s.lo
  deriving Decidable

variable {s : Span}

theorem not_mem_bytes {i : Nat} : i ∉ s.bytes ↔ i < s.lo ∨ s.lo + s.len ≤ i := by
  show ¬ (s.lo ≤ i ∧ i < s.lo + s.len) ↔ _
  omega

variable {t : Span}

theorem Within.bytes_subset (h : s.Within t) : s.bytes ⊆ t.bytes := by
  intro a ha
  obtain ⟨h₁, h₂⟩ := h
  obtain ⟨h₃, h₄⟩ := ha
  exact ⟨by omega, by omega⟩

theorem Apart.disjoint (h : s.Apart t) : Disjoint s.bytes t.bytes := by
  rw [Set.disjoint_left]
  intro a ha hb
  obtain ⟨h₁, h₂⟩ := ha
  obtain ⟨h₃, h₄⟩ := hb
  rcases h with h | h <;> omega

-- ---- possibly empty spans

/-- No byte is in both: one is empty, or they are apart. -/
def Clear (s t : Span) : Prop := s.len = 0 ∨ t.len = 0 ∨ s.Apart t
  deriving Decidable

/-- Every byte is below `n`: the span is empty, or ends by `n`. -/
def Fits (s : Span) (n : Nat) : Prop := s.len = 0 ∨ s.lo + s.len ≤ n
  deriving Decidable

theorem Clear.symm (h : s.Clear t) : t.Clear s := by
  rcases h with h | h | h | h
  · exact .inr (.inl h)
  · exact .inl h
  · exact .inr (.inr (.inr h))
  · exact .inr (.inr (.inl h))

theorem bytes_eq_empty (h : s.len = 0) : s.bytes = ∅ := by
  rw [Set.eq_empty_iff_forall_notMem]
  rintro a ⟨h₁, h₂⟩
  omega

theorem Clear.disjoint (h : s.Clear t) : Disjoint s.bytes t.bytes := by
  rcases h with h | h | h
  · rw [bytes_eq_empty h]
    exact Set.empty_disjoint _
  · rw [bytes_eq_empty h]
    exact Set.disjoint_empty _
  · exact h.disjoint

theorem Clear.of_disjoint (h : Disjoint s.bytes t.bytes) : s.Clear t := by
  by_contra hno
  unfold Clear Apart at hno
  -- the later of the two starts is in both
  have hs : max s.lo t.lo ∈ s.bytes := ⟨by omega, by omega⟩
  have ht : max s.lo t.lo ∈ t.bytes := ⟨by omega, by omega⟩
  exact Set.disjoint_left.mp h hs ht

theorem Fits.bytes_subset {n : Nat} (h : s.Fits n) : s.bytes ⊆ (⟨0, n⟩ : Span).bytes := by
  rcases h with h | h
  · rw [bytes_eq_empty h]
    exact Set.empty_subset _
  · exact Within.bytes_subset ⟨Nat.zero_le _, by dsimp only; omega⟩

end Span

-- ==== strided rows

/-- The bytes of `height` rows of `width` bytes, `pitch` apart. -/
def rowBytes (base pitch width height : Nat) : Set Nat :=
  { a | ∃ r < height, ∃ x < width, a = base + r * pitch + x }

/-- The span from the first byte of the first row to the last byte of
the last one. -/
def rowHull (base pitch width height : Nat) : Span :=
  ⟨base, (height - 1) * pitch + width⟩

theorem rowBytes_subset_hull (base pitch width height : Nat) : rowBytes base pitch width height
      ⊆ (rowHull base pitch width height).bytes := by
  rintro a ⟨r, hr, x, hx, rfl⟩
  have hmul : r * pitch ≤ (height - 1) * pitch :=
    Nat.mul_le_mul_right _ (by omega)
  constructor <;> unfold rowHull <;> dsimp only <;> omega

end Lib
