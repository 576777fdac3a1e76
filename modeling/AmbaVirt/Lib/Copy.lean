/-
Copies between byte memories, as what they do and as what they are for.

`transfer` and `transferRows` compute: a linear copy, and one of rows
that are a pitch apart on either side. `Copies` says what a copy is for:
every destination byte holds what its source held before and every other
byte, outside a set that is free to change, is as it was.
`transfer_copies` and `transferRows_copies` connect the two.

A linear copy that is made in pieces, first to last, is the copy of the
whole when source and destination are apart (`transfer_append`).
-/
import AmbaVirt.Lib.Bytes

namespace Lib

-- ==== what it does

/-- `n` bytes of `s` from `src` on, put into `m` at `dst`. -/
def transfer (m s : Mem) (dst src n : Nat) : Mem := fun a =>
  if dst ≤ a ∧ a < dst + n then s (src + (a - dst)) else m a

/-- `h` rows of `w` bytes, `sp` apart in the source and `dp` apart in
the destination. -/
def transferRows (m : Mem) (dst src dp sp w h : Nat) : Mem := fun a =>
  if dst ≤ a ∧ (a - dst) / dp < h ∧ (a - dst) % dp < w then
    m (src + (a - dst) / dp * sp + (a - dst) % dp)
  else m a

variable {m s : Mem} {dst src n a : Nat}

theorem transfer_apart (h : a < dst ∨ dst + n ≤ a) :
    transfer m s dst src n a = m a := by
  unfold transfer
  rw [if_neg]
  omega

theorem transfer_at {i : Nat} (h : i < n) :
    transfer m s dst src n (dst + i) = s (src + i) := by
  unfold transfer
  rw [if_pos ⟨by omega, by omega⟩, Nat.add_sub_cancel_left]

theorem transfer_zero (m s : Mem) (dst src : Nat) :
    transfer m s dst src 0 = m := by
  funext a
  exact transfer_apart (by omega)

/-- Only the bytes at the source count. -/
theorem transfer_congr {s' : Mem} {src' : Nat} (h : ∀ i < n, s (src + i) = s' (src' + i)) :
    transfer m s dst src n = transfer m s' dst src' n := by
  funext a
  unfold transfer
  split
  · exact h _ (by omega)
  · rfl

theorem transfer_same (h : ∀ i < n, s (src + i) = m (dst + i)) :
    transfer m s dst src n = m := by
  funext a
  unfold transfer
  split
  · rw [h _ (by omega), Nat.add_sub_cancel' (by omega)]
  · rfl

/-- Two pieces, one after the other, are one copy: the first one has
left the source of the second as it was. -/
theorem transfer_append {j k : Nat} (h : src + (j + k) ≤ dst ∨ dst + (j + k) ≤ src) :
    transfer (transfer m m dst src j) (transfer m m dst src j) (dst + j) (src + j) k
      = transfer m m dst src (j + k) := by
  funext a
  by_cases hlo : a < dst + j
  · rw [transfer_apart (.inl hlo)]
    unfold transfer
    by_cases ha : dst ≤ a
    · rw [if_pos ⟨ha, hlo⟩, if_pos ⟨ha, by omega⟩]
    · rw [if_neg (by omega), if_neg (by omega)]
  · by_cases hhi : a < dst + j + k
    · obtain ⟨i, rfl⟩ : ∃ i, a = dst + j + i := ⟨a - (dst + j), by omega⟩
      rw [transfer_at (by omega), transfer_apart (by omega),
        Nat.add_assoc dst, transfer_at (by omega), Nat.add_assoc]
    · rw [transfer_apart (by omega), transfer_apart (by omega),
        transfer_apart (by omega)]

variable {dp sp w h : Nat}

theorem transferRows_at {r x : Nat} (hr : r < h) (hx : x < w) (hw : w ≤ dp) :
    transferRows m dst src dp sp w h (dst + r * dp + x) = m (src + r * sp + x) := by
  have hsub : dst + r * dp + x - dst = x + dp * r := by
    rw [Nat.mul_comm]
    omega
  have hdiv : (x + dp * r) / dp = r := by
    rw [Nat.add_mul_div_left _ _ (by omega), Nat.div_eq_of_lt (by omega), Nat.zero_add]
  have hmod : (x + dp * r) % dp = x := by
    rw [Nat.add_mul_mod_self_left, Nat.mod_eq_of_lt (by omega)]
  unfold transferRows
  rw [hsub, hdiv, hmod, if_pos ⟨by omega, hr, hx⟩]

/-- A byte of no row is left as it was. -/
theorem transferRows_apart (ha : ∀ r < h, ∀ x < w, a ≠ dst + r * dp + x) :
    transferRows m dst src dp sp w h a = m a := by
  unfold transferRows
  rw [if_neg]
  rintro ⟨hlo, hr, hx⟩
  refine ha _ hr _ hx ?_
  have hdm := Nat.div_add_mod (a - dst) dp
  rw [Nat.mul_comm] at hdm
  omega

-- ==== what it is for

/-- Every destination byte holds what its source held, and every other
byte that is not `free` is as it was. A pair is source and destination. -/
structure Copies (pairs : Set (Nat × Nat)) (free : Set Nat)
    (m m' : Mem) : Prop where
  moved : ∀ p ∈ pairs, m' p.2 = m p.1
  kept : ∀ a, (∀ p ∈ pairs, a ≠ p.2) → a ∉ free → m' a = m a

def linearPairs (dst src n : Nat) : Set (Nat × Nat) :=
  { p | ∃ i < n, p = (src + i, dst + i) }

def rowPairs (dst src dp sp w h : Nat) : Set (Nat × Nat) :=
  { p | ∃ r < h, ∃ x < w, p = (src + r * sp + x, dst + r * dp + x) }

theorem transfer_copies (m : Mem) (dst src n : Nat) (free : Set Nat) :
    Copies (linearPairs dst src n) free m (transfer m m dst src n) where
  moved := by
    rintro p ⟨i, hi, rfl⟩
    exact transfer_at hi
  kept := by
    intro a ha _
    apply transfer_apart
    by_contra hin
    exact ha _ ⟨a - dst, by omega, rfl⟩ (by dsimp only; omega)

theorem transferRows_copies (m : Mem) (free : Set Nat) (hw : w ≤ dp) :
    Copies (rowPairs dst src dp sp w h) free m (transferRows m dst src dp sp w h) where
  moved := by
    rintro p ⟨r, hr, x, hx, rfl⟩
    exact transferRows_at hr hx hw
  kept := by
    intro a ha _
    exact transferRows_apart fun r hr x hx => ha _ ⟨r, hr, x, hx, rfl⟩

def single (b : Nat) : Mem := fun a => if a = b then 1 else 0

theorem single_same (b : Nat) : single b b = 1 := if_pos rfl

theorem single_ne {b : Nat} (h : a ≠ b) : single b a = 0 := if_neg h

/-- A copy that leaves one of its destinations as it was is not correct
in the memory where only the source of that byte is set. -/
theorem Copies.not_of_kept {pairs : Set (Nat × Nat)} {free : Set Nat}
    {m' : Mem} {p : Nat × Nat} (hp : p ∈ pairs) (hne : p.2 ≠ p.1)
    (hkept : m' p.2 = single p.1 p.2) : ¬ Copies pairs free (single p.1) m' := by
  intro hcopies
  have hmoved := hcopies.moved p hp
  rw [hkept, single_same, single_ne hne] at hmoved
  exact absurd hmoved (by decide)

end Lib
