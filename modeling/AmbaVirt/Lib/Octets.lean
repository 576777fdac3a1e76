/-
Byte strings in memory: a list of bytes that stands at an offset, and a
number of two bytes, the high one first.

`HasBytes m o l` splits along `l` (`hasBytes_cons`, `hasBytes_append`),
so that what a parser has checked byte by byte is a byte string of a
grammar. `octets` is a buffer as a list, where "starts with" is the
library's own relation on lists (`prefix_octets`).
-/
import AmbaVirt.Lib.Bytes

namespace Lib

/-- The first `n` bytes. -/
def octets (m : Mem) (n : Nat) : List UInt8 := (List.range n).map m

/-- The bytes `l` stand at `o`. -/
def HasBytes (m : Mem) : Nat → List UInt8 → Prop
  | _, [] => True
  | o, a :: l => m o = a ∧ HasBytes m (o + 1) l

instance decidableHasBytes (m : Mem) : (o : Nat) → (l : List UInt8) → Decidable (HasBytes m o l)
  | _, [] => .isTrue trivial
  | o, a :: l =>
    have := decidableHasBytes m (o + 1) l
    inferInstanceAs (Decidable (m o = a ∧ HasBytes m (o + 1) l))

variable {m : Mem} {o n : Nat} {a : UInt8} {l l' : List UInt8}

@[simp] theorem hasBytes_nil : HasBytes m o [] ↔ True := Iff.rfl

@[simp] theorem hasBytes_cons : HasBytes m o (a :: l) ↔ m o = a ∧ HasBytes m (o + 1) l := Iff.rfl

theorem hasBytes_append :
    HasBytes m o (l ++ l') ↔ HasBytes m o l ∧ HasBytes m (o + l.length) l' := by
  induction l generalizing o with
  | nil => simp
  | cons a l ih =>
    rw [List.cons_append, hasBytes_cons, hasBytes_cons, ih, List.length_cons,
      and_assoc, Nat.add_assoc, Nat.add_comm 1]

theorem HasBytes.getD (h : HasBytes m o l) {k : Nat} (hk : k < l.length) :
    m (o + k) = l.getD k 0 := by
  induction l generalizing o k with
  | nil => cases hk
  | cons a l ih =>
    cases k with
    | zero => exact h.1
    | succ k =>
      rw [List.length_cons] at hk
      rw [List.getD_cons_succ, ← ih h.2 (by omega), Nat.add_assoc, Nat.add_comm 1]

theorem hasBytes_octets (m : Mem) (o n : Nat) : HasBytes m o (octets (fun i => m (o + i)) n) := by
  induction n with
  | zero => trivial
  | succ n ih =>
    unfold octets at ih ⊢
    rw [List.range_succ, List.map_append, hasBytes_append]
    refine ⟨ih, ?_⟩
    simp

@[simp] theorem length_octets : (octets m n).length = n := by simp [octets]

theorem exists_hasBytes (m : Mem) (o n : Nat) : ∃ l, l.length = n ∧ HasBytes m o l :=
  ⟨_, length_octets, hasBytes_octets m o n⟩

/-- A buffer starts with the bytes that stand at its start. -/
theorem prefix_octets : l <+: octets m n ↔ l.length ≤ n ∧ HasBytes m 0 l := by
  have hwhole : HasBytes m 0 (octets m n) := by
    simpa using hasBytes_octets m 0 n
  constructor
  · intro h
    obtain ⟨t, ht⟩ := h
    have hlen := congrArg List.length ht
    rw [List.length_append, length_octets] at hlen
    rw [← ht, hasBytes_append] at hwhole
    exact ⟨by omega, hwhole.1⟩
  · intro h
    obtain ⟨hlen, hl⟩ := h
    have heq : l = (octets m n).take l.length := by
      apply List.ext_getElem
      · simp [hlen]
      intro k hk _
      have := hl.getD hk
      rw [Nat.zero_add, List.getD_eq_getElem _ _ hk] at this
      simp [octets, this]
    rw [heq]
    exact List.take_prefix _ _

-- ==== two bytes

/-- `(p[o] << 8) | p[o + 1]`. -/
def be16 (m : Mem) (o : Nat) : UInt32 :=
  ((m o).toUInt32 <<< 8) ||| (m (o + 1)).toUInt32

def hiByte (x : Nat) : UInt8 := UInt8.ofNat (x / 256)

def loByte (x : Nat) : UInt8 := UInt8.ofNat x

theorem be16_toNat (m : Mem) (o : Nat) :
    (be16 m o).toNat = 256 * (m o).toNat + (m (o + 1)).toNat := by
  have hlo := (m (o + 1)).toNat_lt
  have hhi := (m o).toNat_lt
  have h8 : (8 : UInt32).toNat % 32 = 8 := rfl
  unfold be16
  rw [UInt32.toNat_or, UInt32.toNat_shiftLeft, h8, UInt8.toNat_toUInt32,
    UInt8.toNat_toUInt32, Nat.or_comm, Nat.mod_eq_of_lt]
  · rw [or_shiftLeft_eq (by omega)]
    omega
  · omega

/-- The number is `x` exactly if its two bytes stand there. -/
theorem be16_eq_iff {x : Nat} (hx : x < 65536) :
    (be16 m o).toNat = x ↔ m o = hiByte x ∧ m (o + 1) = loByte x := by
  have hlo := (m (o + 1)).toNat_lt
  rw [be16_toNat, ← UInt8.toNat_inj, ← UInt8.toNat_inj]
  simp only [hiByte, loByte, UInt8.toNat_ofNat']
  omega

theorem be16_lt (m : Mem) (o : Nat) : (be16 m o).toNat < 65536 := by
  have hhi := (m o).toNat_lt
  have hlo := (m (o + 1)).toNat_lt
  rw [be16_toNat]
  omega

end Lib
