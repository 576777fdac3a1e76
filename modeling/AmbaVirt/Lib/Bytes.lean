/-
Byte memory and little-endian fields, for structures that are read out
of a shared buffer or patched in place.
-/
import AmbaVirt.Lib.Span

namespace Lib

abbrev Mem := Nat → UInt8

def read16 (m : Mem) (o : Nat) : UInt16 :=
  (m o).toUInt16 ||| (m (o + 1)).toUInt16 <<< 8

def read32 (m : Mem) (o : Nat) : UInt32 :=
  (read16 m o).toUInt32 ||| (read16 m (o + 2)).toUInt32 <<< 16

def read64 (m : Mem) (o : Nat) : UInt64 :=
  (read32 m o).toUInt64 ||| (read32 m (o + 4)).toUInt64 <<< 32

def write32 (m : Mem) (o : Nat) (v : UInt32) : Mem := fun i =>
  if o ≤ i ∧ i < o + 4 then (v >>> (8 * (i - o)).toUInt32).toUInt8 else m i

def write64 (m : Mem) (o : Nat) (v : UInt64) : Mem := fun i =>
  if o ≤ i ∧ i < o + 8 then (v >>> (8 * (i - o)).toUInt64).toUInt8 else m i

/-- `memset` of `[lo, hi)` to zero. -/
def clear (m : Mem) (lo hi : Nat) : Mem := fun i =>
  if lo ≤ i ∧ i < hi then 0 else m i

/-- `memcpy` of `n` bytes at `o` from a buffer of the same layout. -/
def copyAt (m src : Mem) (o n : Nat) : Mem := fun i =>
  if o ≤ i ∧ i < o + n then src i else m i

-- ==== bytes of a field

variable {m : Mem} {o i : Nat}

theorem write32_apart {v : UInt32} (h : i < o ∨ o + 4 ≤ i) : write32 m o v i = m i := by
  unfold write32
  rw [if_neg]
  omega

variable {v : UInt64}

theorem write64_apart (h : i < o ∨ o + 8 ≤ i) : write64 m o v i = m i := by
  unfold write64
  rw [if_neg]
  omega

theorem clear_apart {lo hi : Nat} (h : i < lo ∨ hi ≤ i) :
    clear m lo hi i = m i := by
  unfold clear
  rw [if_neg]
  omega

theorem clear_within {lo hi : Nat} (hlo : lo ≤ i) (hhi : i < hi) :
    clear m lo hi i = 0 :=
  if_pos ⟨hlo, hhi⟩

theorem read32_congr {m' : Mem} (h : ∀ k < 4, m (o + k) = m' (o + k)) :
    read32 m o = read32 m' o := by
  have h₀ := h 0 (by omega)
  have h₁ := h 1 (by omega)
  have h₂ := h 2 (by omega)
  have h₃ := h 3 (by omega)
  unfold read32 read16
  rw [Nat.add_zero] at h₀
  rw [h₀, h₁, h₂, h₃]

theorem read64_congr {m' : Mem} (h : ∀ k < 8, m (o + k) = m' (o + k)) :
    read64 m o = read64 m' o := by
  unfold read64
  rw [read32_congr fun k hk => h k (by omega)]
  rw [read32_congr (o := o + 4) fun k hk => ?_]
  rw [Nat.add_assoc]
  exact h (4 + k) (by omega)

/-- A store leaves a field apart from it as it was. -/
theorem read32_write64_apart (h : i + 4 ≤ o ∨ o + 8 ≤ i) : read32 (write64 m o v) i = read32 m i :=
  read32_congr fun k hk => write64_apart (by omega)

theorem read64_write64_apart (h : i + 8 ≤ o ∨ o + 8 ≤ i) : read64 (write64 m o v) i = read64 m i :=
  read64_congr fun k hk => write64_apart (by omega)

-- ==== what is stored comes back

variable {k : Nat}

/-- Two fields put together, the second above the `k` bits of the first. -/
theorem or_shiftLeft_eq {a b : Nat} (ha : a < 2 ^ k) : a ||| b <<< k = a + b * 2 ^ k := by
  rw [Nat.or_comm, ← Nat.shiftLeft_add_eq_or_of_lt ha, Nat.shiftLeft_eq, Nat.add_comm]

theorem read16_toNat (m : Mem) (o : Nat) :
    (read16 m o).toNat = (m o).toNat + (m (o + 1)).toNat * 2 ^ 8 := by
  have h₁ := (m o).toNat_lt
  have h₂ := (m (o + 1)).toNat_lt
  rw [read16, UInt16.toNat_or, UInt16.toNat_shiftLeft, UInt8.toNat_toUInt16, UInt8.toNat_toUInt16]
  show _ ||| (m (o + 1)).toNat <<< 8 % 2 ^ 16 = _
  rw [Nat.mod_eq_of_lt (by rw [Nat.shiftLeft_eq]; omega), or_shiftLeft_eq h₁]

theorem read32_toNat (m : Mem) (o : Nat) : (read32 m o).toNat
      = (read16 m o).toNat + (read16 m (o + 2)).toNat * 2 ^ 16 := by
  have h₁ := (read16 m o).toNat_lt
  have h₂ := (read16 m (o + 2)).toNat_lt
  rw [read32, UInt32.toNat_or, UInt32.toNat_shiftLeft, UInt16.toNat_toUInt32, UInt16.toNat_toUInt32]
  show _ ||| (read16 m (o + 2)).toNat <<< 16 % 2 ^ 32 = _
  rw [Nat.mod_eq_of_lt (by rw [Nat.shiftLeft_eq]; omega), or_shiftLeft_eq h₁]

theorem read64_toNat (m : Mem) (o : Nat) : (read64 m o).toNat
      = (read32 m o).toNat + (read32 m (o + 4)).toNat * 2 ^ 32 := by
  have h₁ := (read32 m o).toNat_lt
  have h₂ := (read32 m (o + 4)).toNat_lt
  rw [read64, UInt64.toNat_or, UInt64.toNat_shiftLeft, UInt32.toNat_toUInt64, UInt32.toNat_toUInt64]
  show _ ||| (read32 m (o + 4)).toNat <<< 32 % 2 ^ 64 = _
  rw [Nat.mod_eq_of_lt (by rw [Nat.shiftLeft_eq]; omega), or_shiftLeft_eq h₁]

theorem write32_byte (m : Mem) (o : Nat) (v : UInt32) (hk : k < 4) :
    (write32 m o v (o + k)).toNat = v.toNat / 2 ^ (8 * k) % 2 ^ 8 := by
  have hshift : (8 * k).toUInt32.toNat % 32 = 8 * k := by
    show (8 * k) % 2 ^ 32 % 32 = _
    omega
  rw [write32, if_pos (by omega), Nat.add_sub_cancel_left,
    UInt32.toNat_toUInt8, UInt32.toNat_shiftRight, hshift,
    Nat.shiftRight_eq_div_pow]

theorem write64_byte (m : Mem) (o : Nat) (v : UInt64) (hk : k < 8) :
    (write64 m o v (o + k)).toNat = v.toNat / 2 ^ (8 * k) % 2 ^ 8 := by
  have hshift : (8 * k).toUInt64.toNat % 64 = 8 * k := by
    show (8 * k) % 2 ^ 64 % 64 = _
    omega
  rw [write64, if_pos (by omega), Nat.add_sub_cancel_left,
    UInt64.toNat_toUInt8, UInt64.toNat_shiftRight, hshift,
    Nat.shiftRight_eq_div_pow]

theorem read32_write32 (m : Mem) (o : Nat) (v : UInt32) : read32 (write32 m o v) o = v := by
  have hv := v.toNat_lt
  have h₀ := write32_byte m o v (show 0 < 4 by omega)
  have h₁ := write32_byte m o v (show 1 < 4 by omega)
  have h₂ := write32_byte m o v (show 2 < 4 by omega)
  have h₃ := write32_byte m o v (show 3 < 4 by omega)
  rw [← UInt32.toNat_inj, read32_toNat, read16_toNat, read16_toNat]
  rw [Nat.add_zero] at h₀
  rw [h₀, h₁, h₂, h₃]
  omega

theorem read64_write64 (m : Mem) (o : Nat) (v : UInt64) : read64 (write64 m o v) o = v := by
  have hv := v.toNat_lt
  have hb : ∀ k < 8, (write64 m o v (o + k)).toNat
      = v.toNat / 2 ^ (8 * k) % 2 ^ 8 := fun k hk => write64_byte m o v hk
  have h₀ := hb 0 (by omega)
  rw [Nat.add_zero] at h₀
  rw [← UInt64.toNat_inj, read64_toNat, read32_toNat, read32_toNat,
    read16_toNat, read16_toNat, read16_toNat, read16_toNat]
  rw [h₀, hb 1 (by omega), hb 2 (by omega), hb 3 (by omega), hb 4 (by omega),
    hb 5 (by omega), hb 6 (by omega), hb 7 (by omega)]
  omega

-- ==== lists of bytes

def listMem (l : List UInt8) : Mem := fun i => l.getD i 0

def le32 (v : UInt32) : List UInt8 :=
  (List.range 4).map (write32 (fun _ => 0) 0 v)

theorem length_le32 (v : UInt32) : (le32 v).length = 4 := by
  rw [le32, List.length_map, List.length_range]

theorem read32_le32 (v : UInt32) : read32 (listMem (le32 v)) 0 = v := by
  rw [← read32_write32 (fun _ => 0) 0 v]
  apply read32_congr
  intro k hk
  rw [Nat.zero_add, listMem, le32, read32_write32, List.getD_eq_getElem _ _ (by simpa using hk)]
  simp

-- ==== edits of many fields

/-- Edits of fields leave a byte apart from all of them. -/
theorem foldl_apart {f : Mem → Span → Mem} {l : List Span}
    (hf : ∀ m s, i ∉ s.bytes → f m s i = m i) (m : Mem)
    (h : ∀ s ∈ l, i ∉ s.bytes) : l.foldl f m i = m i := by
  induction l generalizing m with
  | nil => rfl
  | cons s l ih =>
    rw [List.forall_mem_cons] at h
    rw [List.foldl_cons, ih _ h.2, hf m s h.1]

theorem copyAt_not_mem {src : Mem} {s : Span} (h : i ∉ s.bytes) : copyAt m src s.lo s.len i = m i :=
  if_neg h

/-- Fields copied from `src` hold what `src` holds. -/
theorem foldl_copyAt_mem {src : Mem} {l : List Span} (m : Mem) (h : ∃ s ∈ l, i ∈ s.bytes) :
    l.foldl (fun m s => copyAt m src s.lo s.len) m i = src i := by
  induction l generalizing m with
  | nil =>
    obtain ⟨s, hs, -⟩ := h
    cases hs
  | cons s l ih =>
    rw [List.foldl_cons]
    by_cases hl : ∃ t ∈ l, i ∈ t.bytes
    · exact ih _ hl
    have hapart : ∀ t ∈ l, i ∉ t.bytes := fun t ht hi => hl ⟨t, ht, hi⟩
    have hs : i ∈ s.bytes := by
      obtain ⟨t, ht, hi⟩ := h
      rcases List.mem_cons.mp ht with rfl | ht
      · exact hi
      · exact absurd hi (hapart t ht)
    rw [foldl_apart (fun m s => copyAt_not_mem) _ hapart]
    exact if_pos hs

/-- Bits `lo .. lo + width` of a packed field. -/
def bits (w : UInt32) (lo width : UInt32) : UInt32 :=
  (w >>> lo) &&& ((1 <<< width) - 1)

end Lib
