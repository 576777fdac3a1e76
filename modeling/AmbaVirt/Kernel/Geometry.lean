/-
Slice geometry (amba_virt_slice.c): how the shared window is cut into
equal slices, each ending in one claim page.

`computeGeometry` is the whole function, for any arguments. That the
window does not wrap the physical address space is not its business:
`amba_virt_window_ok` checks it before the kernel module publishes any
slice.
-/
import AmbaVirt.Basic
import AmbaVirt.Lib.Guard
import AmbaVirt.Lib.Word

namespace AmbaVirt.Kernel

open Lib

/-- `struct amba_virt_slice_desc`. -/
structure SliceDesc where
  index : UInt32
  usableSize : UInt32
  offset : UInt64
  phys : UInt64
  sliceSize : UInt64
  deriving DecidableEq, Inhabited

/-- `amba_virt_slice_compute_geometry`; `none` is its `-1`. -/
def computeGeometry (windowPhys windowSize : UInt64)
    (pageSize sliceCount : UInt32) : Option (List SliceDesc) :=
  if windowSize = 0 ∨ pageSize = 0 ∨ sliceCount = 0 ∨ sliceCount > 8 then none
  else if windowSize % pageSize.toUInt64 ≠ 0 then none
  else
    let sliceSize := windowSize / sliceCount.toUInt64
    if sliceSize = 0 then none
    else if sliceSize % pageSize.toUInt64 ≠ 0 then none
    else if sliceSize * sliceCount.toUInt64 ≠ windowSize then none
    else if sliceSize ≤ pageSize.toUInt64 then none
    else
      some ((List.range sliceCount.toNat).map fun i =>
        { index := i.toUInt32
          usableSize := (sliceSize - pageSize.toUInt64).toUInt32
          offset := i.toUInt64 * sliceSize
          phys := windowPhys + i.toUInt64 * sliceSize
          sliceSize })

/-- `amba_virt_window_ok`, the part that concerns the address range. -/
def WindowOk (windowPhys windowSize : UInt64) : Prop :=
  windowPhys.toNat + windowSize.toNat < 2 ^ 64

variable {windowPhys windowSize : UInt64} {pageSize sliceCount : UInt32} {l : List SliceDesc}

/-- What the checks leave: a size in whole pages, more than one, whose
multiples are the offsets and end with the window. -/
theorem computeGeometry_some
    (h : computeGeometry windowPhys windowSize pageSize sliceCount = some l) :
    ∃ (size : UInt64) (offset : Nat → UInt64),
      l = (List.range sliceCount.toNat).map (fun i =>
        ⟨i.toUInt32, (size - pageSize.toUInt64).toUInt32, offset i, windowPhys + offset i, size⟩) ∧
      0 < sliceCount.toNat ∧ sliceCount.toNat * size.toNat = windowSize.toNat ∧
      pageSize.toNat ∣ size.toNat ∧ pageSize.toNat < size.toNat ∧
      (size - pageSize.toUInt64).toNat = size.toNat - pageSize.toNat ∧
      ∀ i < sliceCount.toNat, (offset i).toNat = i * size.toNat := by
  unfold computeGeometry at h
  simp only [Option.ite_none_left_eq_some, not_or, not_not, Option.some.injEq] at h
  obtain ⟨⟨-, -, hne, hmax⟩, -, -, hmod, hprod, hpage, rfl⟩ := h
  have hcount : sliceCount.toNat ≤ 8 := by
    exact Nat.le_of_not_lt hmax
  set size := windowSize / sliceCount.toUInt64 with hsize
  have hw := windowSize.toNat_lt
  have hle : sliceCount.toNat * size.toNat ≤ windowSize.toNat := by
    exact Nat.mul_div_le _ _
  refine ⟨size, fun i => i.toUInt64 * size, rfl, ?_, ?_, ?_, ?_, ?_, ?_⟩
  · exact Nat.pos_of_ne_zero fun h0 => hne (UInt32.toNat_inj.mp h0)
  · rw [← hprod, UInt64.toNat_mul, UInt32.toNat_toUInt64, Nat.mul_comm,
      Nat.mod_eq_of_lt (by rw [Nat.mul_comm]; omega)]
  · have h0 := congrArg UInt64.toNat hmod
    exact Nat.dvd_of_mod_eq_zero h0
  · have hlt := UInt64.lt_iff_toNat_lt.mp (UInt64.not_le.mp hpage)
    rwa [UInt32.toNat_toUInt64] at hlt
  · rw [UInt64.toNat_sub_of_le _ _ (UInt64.le_of_lt (UInt64.not_le.mp hpage)),
      UInt32.toNat_toUInt64]
  · intro i hi
    have hi64 : i.toUInt64.toNat = i := by
      rw [Nat.toUInt64, UInt64.toNat_ofNat', Nat.mod_eq_of_lt (by omega)]
    have := Nat.mul_le_mul_right size.toNat hi.le
    rw [UInt64.toNat_mul, hi64, Nat.mod_eq_of_lt (by omega)]

/-- Every slice the geometry computes is as long as the first and ends in
the window, wherever the window is. -/
theorem computeGeometry_placed
    (h : computeGeometry windowPhys windowSize pageSize sliceCount = some l) :
    windowSize ≠ 0 ∧ ∃ usable : UInt32, ∀ d ∈ l, d.usableSize = usable ∧
      usable.toNat ≤ d.sliceSize.toNat ∧
      d.offset.toNat + d.sliceSize.toNat ≤ windowSize.toNat ∧
      d.phys = windowPhys + d.offset := by
  obtain ⟨size, offset, rfl, hpos, hprod, -, hpage, hsub, hoff⟩ := computeGeometry_some h
  refine ⟨?_, (size - pageSize.toUInt64).toUInt32, ?_⟩
  · rintro rfl
    have := Nat.mul_pos hpos (by omega : 0 < size.toNat)
    exact this.ne' hprod
  intro d hd
  obtain ⟨i, hi, rfl⟩ := List.mem_map.mp hd
  rw [List.mem_range] at hi
  refine ⟨rfl, ?_, ?_, rfl⟩
  · rw [UInt64.toNat_toUInt32, hsub]
    exact (Nat.mod_le _ _).trans (Nat.sub_le _ _)
  · rw [hoff i hi, ← hprod, ← Nat.succ_mul]
    exact Nat.mul_le_mul_right _ hi

-- ==== exactness

/-- The slices lie one behind the other from `a` to `b`. -/
def Tile : Nat → List SliceDesc → Nat → Prop
  | a, [], b => a = b
  | a, d :: l, b => d.offset.toNat = a ∧ Tile (a + d.sliceSize.toNat) l b

/-- The address and the usable size of a descriptor are the exact ones. -/
def SliceDesc.Exact (d : SliceDesc) (windowPhys : UInt64) (pageSize : UInt32) : Prop :=
  d.phys.toNat = windowPhys.toNat + d.offset.toNat ∧
    d.usableSize.toNat = d.sliceSize.toNat - pageSize.toNat

theorem tile_map {f : Nat → SliceDesc} {size n a : Nat}
    (h : ∀ i < n, (f i).offset.toNat = i * size + a ∧ (f i).sliceSize.toNat = size) :
    Tile a ((List.range n).map f) (n * size + a) := by
  induction n generalizing f a with
  | zero => simp [Tile]
  | succ n ih =>
    obtain ⟨hoff, hlen⟩ := h 0 n.succ_pos
    rw [List.range_succ_eq_map, List.map_cons, List.map_map, Nat.succ_mul, Nat.add_assoc]
    refine ⟨by omega, ?_⟩
    rw [hlen, Nat.add_comm a]
    refine ih fun i hi => ?_
    rw [← Nat.add_assoc, ← Nat.succ_mul]
    exact h (i + 1) (by omega)

/-- The slices tile the window in whole pages, whatever it is. Addresses
and usable sizes are exact if and only if the last slice starts below the
end of the address space and what is usable of one fits 32 bits. -/
theorem geometry_exact_iff
    (h : computeGeometry windowPhys windowSize pageSize sliceCount = some l) :
    Tile 0 l windowSize.toNat ∧
    (∀ d ∈ l, pageSize.toNat ∣ d.offset.toNat ∧ pageSize.toNat ∣ d.sliceSize.toNat) ∧
    ((∀ d ∈ l, d.Exact windowPhys pageSize) ↔
      windowPhys.toNat + (windowSize.toNat - windowSize.toNat / sliceCount.toNat) < 2 ^ 64 ∧
      windowSize.toNat / sliceCount.toNat - pageSize.toNat < 2 ^ 32) := by
  obtain ⟨size, offset, rfl, hpos, hprod, hdvd, -, hsub, hoff⟩ := computeGeometry_some h
  have hdiv : windowSize.toNat / sliceCount.toNat = size.toNat := by
    rw [← hprod, Nat.mul_div_cancel_left _ hpos]
  have hlast : windowSize.toNat - size.toNat = (sliceCount.toNat - 1) * size.toNat := by
    rw [← hprod, Nat.sub_one_mul]
  rw [hdiv, hlast]
  simp only [List.forall_mem_map, List.mem_range]
  refine ⟨?_, ?_, ?_⟩
  · rw [← hprod]
    exact tile_map fun i hi => ⟨hoff i hi, rfl⟩
  · intro i hi
    rw [hoff i hi]
    exact ⟨hdvd.mul_left i, hdvd⟩
  have husable : (size - pageSize.toUInt64).toUInt32.toNat = size.toNat - pageSize.toNat ↔
      size.toNat - pageSize.toNat < 2 ^ 32 := by
    rw [UInt64.toNat_toUInt32, hsub, Nat.mod_eq_iff_lt (by decide)]
  have hphys : ∀ i < sliceCount.toNat, ((windowPhys + offset i).toNat
      = windowPhys.toNat + (offset i).toNat ↔ windowPhys.toNat + i * size.toNat < 2 ^ 64) := by
    intro i hi
    rw [UInt64.toNat_add, Nat.mod_eq_iff_lt (by decide), hoff i hi]
  constructor
  · intro hall
    obtain ⟨hp, hu⟩ := hall (sliceCount.toNat - 1) (by omega)
    exact ⟨(hphys _ (by omega)).mp hp, husable.mp hu⟩
  · rintro ⟨hp, hu⟩ i hi
    -- the last address is the highest
    have := Nat.mul_le_mul_right size.toNat (by omega : i ≤ sliceCount.toNat - 1)
    exact ⟨(hphys i hi).mpr (by omega), husable.mpr hu⟩

/-- Two slices of a window of four pages. -/
theorem geometry_exact_pair :
    ∃ l, computeGeometry 0x80000000 0x4000 0x1000 2 = some l ∧ ∀ d ∈ l, d.Exact 0x80000000 0x1000 :=
  have h : computeGeometry 0x80000000 0x4000 0x1000 2 = some _ := rfl
  ⟨_, h, (geometry_exact_iff h).2.2.mpr (by decide)⟩

/-- One slice of a page more than 4 GiB is said to have nothing usable. -/
theorem geometry_truncates :
    ∃ d, computeGeometry 0x80000000 0x100001000 0x1000 1 = some [d] ∧
      d.usableSize = 0 ∧ d.sliceSize - 0x1000 = 0x100000000 :=
  ⟨_, rfl, by decide⟩

end AmbaVirt.Kernel
