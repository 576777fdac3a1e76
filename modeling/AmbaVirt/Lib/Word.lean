/-
Fixed-width words as C uses them: `uint32_t` and `uint64_t` are Lean's
`UInt32` and `UInt64`, whose arithmetic wraps the same way.

The lemmas turn the two idioms of overflow-aware C code into facts
about natural numbers: the guard `a > UINT64_MAX - b` before a sum, and
widening to 64 bits before multiplying or adding. Everything after that
is linear arithmetic over `toNat`.

`alignMask` and `alignUp` are the rounding idioms `x & ~(a - 1)` and
`(x + a - 1) & ~(a - 1)` of a 32-bit `x` and a power of two `a`.
-/
import Mathlib

namespace Lib

def UINT64_MAX : UInt64 := 0xFFFFFFFFFFFFFFFF

def UINT32_MAX : UInt64 := 0xFFFFFFFF

variable {b : UInt64}

/-- The overflow guard of a 64-bit sum, read as an exact sum. -/
theorem not_gt_max_sub {a : UInt64} : ¬ a > UINT64_MAX - b ↔ a.toNat + b.toNat < 2 ^ 64 := by
  have hb := b.toNat_lt
  have hm : UINT64_MAX.toNat = 2 ^ 64 - 1 := rfl
  rw [gt_iff_lt, UInt64.lt_iff_toNat_lt, UInt64.toNat_sub, hm]
  omega

theorem toNat_add_exact {a : UInt64} (h : a.toNat + b.toNat < 2 ^ 64) :
    (a + b).toNat = a.toNat + b.toNat := by
  rw [UInt64.toNat_add, Nat.mod_eq_of_lt h]

/-- Two 32-bit values never wrap in 64 bits. -/
theorem toNat_add_widened (a b : UInt32) : (a.toUInt64 + b.toUInt64).toNat = a.toNat + b.toNat := by
  have ha := a.toNat_lt
  have hb := b.toNat_lt
  rw [toNat_add_exact] <;> simp only [UInt32.toNat_toUInt64]
  omega

/-- Nor does a product with at most 32 bits on each side. -/
theorem toNat_mul_exact {a : UInt64} (ha : a.toNat < 2 ^ 32)
    (hb : b.toNat < 2 ^ 32) : (a * b).toNat = a.toNat * b.toNat := by
  have h : a.toNat * b.toNat < 2 ^ 32 * 2 ^ 32 := Nat.mul_lt_mul'' ha hb
  rw [← Nat.pow_add] at h
  rw [UInt64.toNat_mul, Nat.mod_eq_of_lt h]

theorem toNat_mul_widened (a b : UInt32) : (a.toUInt64 * b.toUInt64).toNat = a.toNat * b.toNat := by
  rw [toNat_mul_exact] <;> simp only [UInt32.toNat_toUInt64]
  · exact a.toNat_lt
  · exact b.toNat_lt

-- ==== alignment

/-- `x & ~(a - 1)`. -/
def alignMask (x a : UInt32) : UInt32 := x &&& ~~~(a - 1)

/-- `(x + a - 1) & ~(a - 1)`; the sum may wrap. -/
def alignUp (x a : UInt32) : UInt32 := alignMask (x + a - 1) a

/-- The C test for a power of two. -/
def IsPow2 (a : UInt32) : Prop := a ≠ 0 ∧ a &&& (a - 1) = 0

variable {a : UInt32}

theorem IsPow2.toNat (h : IsPow2 a) : ∃ k, a.toNat = 2 ^ k := by
  obtain ⟨hne, hand⟩ := h
  have hpos : a.toNat ≠ 0 := fun e => hne (UInt32.toNat_inj.mp e)
  have hle : (1 : UInt32) ≤ a := by
    exact Nat.one_le_iff_ne_zero.mpr hpos
  have hz : a.toNat &&& (a.toNat - 1) = 0 := by
    have h := congrArg UInt32.toNat hand
    rw [UInt32.toNat_and, UInt32.toNat_sub_of_le _ _ hle] at h
    exact h
  exact (Nat.and_sub_one_eq_zero_iff_isPowerOfTwo hpos).mp hz

def IsPow2U64 (v : UInt64) : Prop := v ≠ 0 ∧ v &&& (v - 1) = 0
  deriving Decidable

theorem isPow2U64_iff {v : UInt64} : IsPow2U64 v ↔ ∃ k, v.toNat = 2 ^ k := by
  have hzero : v ≠ 0 ↔ v.toNat ≠ 0 := not_congr UInt64.toNat_inj.symm
  have hand (h : v.toNat ≠ 0) : v &&& (v - 1) = 0 ↔ v.toNat &&& (v.toNat - 1) = 0 := by
    have hle : (1 : UInt64) ≤ v := by
      exact Nat.one_le_iff_ne_zero.mpr h
    rw [← UInt64.toNat_inj, UInt64.toNat_and, UInt64.toNat_sub_of_le _ _ hle]
    rfl
  constructor
  · intro h
    have hpos := hzero.mp h.1
    exact (Nat.and_sub_one_eq_zero_iff_isPowerOfTwo hpos).mp ((hand hpos).mp h.2)
  intro h
  have hpos : v.toNat ≠ 0 := by
    obtain ⟨k, hk⟩ := h
    rw [hk]
    exact (Nat.two_pow_pos k).ne'
  exact ⟨hzero.mpr hpos, (hand hpos).mpr ((Nat.and_sub_one_eq_zero_iff_isPowerOfTwo hpos).mpr h)⟩

theorem IsPow2U64.toNat_le {v : UInt64} (h : IsPow2U64 v) : v.toNat ≤ 2 ^ 63 := by
  obtain ⟨k, hk⟩ := isPow2U64_iff.mp h
  have hlt := v.toNat_lt
  rw [hk] at hlt ⊢
  have hk64 := (Nat.pow_lt_pow_iff_right (by omega)).mp hlt
  exact Nat.pow_le_pow_right (by omega) (by omega)

variable {x : Nat}

/-- Clearing the low `k` of `w` bits rounds down to a multiple. -/
theorem and_highMask {k w : Nat} (hx : x < 2 ^ w) (hk : k ≤ w) :
    x &&& (2 ^ w - 1 - (2 ^ k - 1)) = x / 2 ^ k * 2 ^ k := by
  have hpow : 2 ^ k ≤ 2 ^ w := Nat.pow_le_pow_right (by omega) hk
  rw [show 2 ^ w - 1 - (2 ^ k - 1) = 2 ^ w - (2 ^ k - 1 + 1) by omega]
  apply Nat.eq_of_testBit_eq
  intro i
  rw [Nat.testBit_and, Nat.testBit_mul_two_pow, Nat.testBit_div_two_pow,
    Nat.testBit_two_pow_sub_succ (by omega), Nat.testBit_two_pow_sub_one]
  by_cases hi : k ≤ i
  · rw [Nat.sub_add_cancel hi]
    by_cases hw : i < w
    · simp [hi, hw]
    · have hxi : x < 2 ^ i :=
        lt_of_lt_of_le hx (Nat.pow_le_pow_right (by omega) (by omega))
      simp [Nat.testBit_lt_two_pow hxi]
  · simp [hi]
    omega

theorem alignMask_toNat (h : IsPow2 a) (x : UInt32) :
    (alignMask x a).toNat = x.toNat / a.toNat * a.toNat := by
  obtain ⟨k, hk⟩ := h.toNat
  have hlt := a.toNat_lt
  have hpos : 1 ≤ a.toNat := by
    rw [hk]
    exact Nat.one_le_two_pow
  have hle : (1 : UInt32) ≤ a := by
    exact hpos
  have hk32 : k ≤ 32 := by
    rw [hk] at hlt
    exact ((Nat.pow_lt_pow_iff_right (by omega)).mp hlt).le
  rw [alignMask, UInt32.toNat_and, UInt32.toNat_not, UInt32.toNat_sub_of_le _ _ hle, hk]
  exact and_highMask x.toNat_lt hk32

/-- What is rounded is aligned, wrapped or not. -/
theorem alignMask_dvd (h : IsPow2 a) (x : UInt32) : a.toNat ∣ (alignMask x a).toNat := by
  rw [alignMask_toNat h]
  exact Nat.dvd_mul_left _ _

theorem alignMask_le (h : IsPow2 a) (x : UInt32) : (alignMask x a).toNat ≤ x.toNat := by
  rw [alignMask_toNat h]
  exact Nat.div_mul_le_self _ _

/-- The least multiple of `a` from `x` on. -/
def ceilTo (x a : Nat) : Nat := a * (x ⌈/⌉ a)

theorem le_ceilTo {a : Nat} (ha : 0 < a) (x : Nat) : x ≤ ceilTo x a :=
  le_smul_ceilDiv ha

theorem IsPow2.pos (h : IsPow2 a) : 0 < a.toNat := by
  obtain ⟨k, hk⟩ := h.toNat
  rw [hk]
  exact Nat.two_pow_pos k

theorem alignUp_toNat {x : UInt32} (h : IsPow2 a) (hx : x.toNat + a.toNat ≤ 2 ^ 32) :
    (alignUp x a).toNat = ceilTo x.toNat a.toNat := by
  have hpos := h.pos
  have hsum : (x + a - 1).toNat = x.toNat + a.toNat - 1 := by
    show (2 ^ 32 - 1 + (x.toNat + a.toNat) % 2 ^ 32) % 2 ^ 32 = _
    omega
  rw [alignUp, alignMask_toNat h, hsum, ceilTo, Nat.ceilDiv_eq_add_pred_div, Nat.mul_comm]

/-- A rounding up that does not wrap does not go below its argument. -/
theorem le_alignUp {x : UInt32} (h : IsPow2 a) (hx : x.toNat + a.toNat ≤ 2 ^ 32) :
    x.toNat ≤ (alignUp x a).toNat := by
  rw [alignUp_toNat h hx]
  exact le_ceilTo h.pos _

theorem alignUp_lt {x : UInt32} (h : IsPow2 a) (hx : x.toNat + a.toNat ≤ 2 ^ 32) :
    (alignUp x a).toNat < x.toNat + a.toNat := by
  have hpos := h.pos
  refine (alignMask_le h _).trans_lt ?_
  show (2 ^ 32 - 1 + (x.toNat + a.toNat) % 2 ^ 32) % 2 ^ 32 < _
  omega

/-- One that wraps comes to nothing. -/
theorem alignUp_wrapped {x : UInt32} (h : IsPow2 a)
    (hx : 2 ^ 32 < x.toNat + a.toNat) : alignUp x a = 0 := by
  have hlt := x.toNat_lt
  have hlt' := a.toNat_lt
  have hsum : (x + a - 1).toNat = x.toNat + a.toNat - 1 - 2 ^ 32 := by
    show (2 ^ 32 - 1 + (x.toNat + a.toNat) % 2 ^ 32) % 2 ^ 32 = _
    omega
  rw [← UInt32.toNat_inj, alignUp, alignMask_toNat h, hsum,
    Nat.div_eq_of_lt (by omega), Nat.zero_mul]
  rfl

theorem le_alignUp_iff {x : UInt32} (h : IsPow2 a) (hx : 0 < x.toNat) :
    x.toNat ≤ (alignUp x a).toNat ↔ x.toNat + a.toNat ≤ 2 ^ 32 := by
  refine ⟨fun hle => ?_, le_alignUp h⟩
  by_contra hwrap
  rw [alignUp_wrapped h (Nat.not_le.mp hwrap)] at hle
  exact absurd hle (Nat.not_le.mpr hx)

end Lib
