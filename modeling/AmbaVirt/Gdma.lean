/-
GDMA copies on behalf of a guest: the server's handling of a GDMA_COPY
or GDMA_PITCH message (amba-virt-server.c, `process_incoming_msg`) and
the kernel's execution of it (amba_virt_nohyper.c,
`amba_virt_host_gdma_copy`).

The server bounds the rows of the request inside the tenant's slice and
adds the slice offset in 32 bits; the kernel bounds them inside the whole
window and refuses overlapping hulls. Neither check alone confines a copy
to its tenant; `gdma_confined` is about both in sequence.

Pitch, width and height are 16-bit fields, so every row product fits in
32 bits. What could still wrap is the translation by the slice offset,
which the server's first check excludes, and the sum inside that check,
which `Tenant.fits` does.
-/
import AmbaVirt.Cavalry.Proxy

namespace AmbaVirt.Gdma

open Lib Cavalry

-- ==== the request

/-- `struct amba_virt_gdma_copy`, the request fields. -/
structure GdmaCopy where
  srcOff : UInt32
  dstOff : UInt32
  len : UInt32
  flags : UInt32
  srcPitch : UInt16
  dstPitch : UInt16
  width : UInt16
  height : UInt16
  deriving DecidableEq

/-- The two message types and the capability each asks for. -/
inductive GdmaMsg
  | copyReq | pitchReq
  deriving DecidableEq

def AMBA_VIRT_GDMA_F_PITCH : UInt32 := 1

def GdmaCopy.pitched (c : GdmaCopy) : Prop :=
  c.flags &&& AMBA_VIRT_GDMA_F_PITCH ≠ 0
  deriving Decidable

/-- The end of the last row, in 64 bits. The server writes
`height ? height - 1 : 0`; the kernel has refused height 0 before. -/
def rowsEnd (off : UInt32) (height pitch width : UInt16) : UInt64 :=
  off.toUInt64 + (if height ≠ 0 then height - 1 else 0).toUInt64 * pitch.toUInt64 + width.toUInt64

def linearEnd (off len : UInt32) : UInt64 := off.toUInt64 + len.toUInt64

-- ==== the kernel

/-- The shared window of the device, as `amba_virt_window_ok` admits
it; both fields are zero when there is none. -/
structure Window where
  shmPhys : UInt64
  shmSize : UInt64
  ok : Kernel.WindowOk shmPhys shmSize

inductive GdmaJob
  | linear (dest src : UInt64) (len : UInt32)
  | pitch (src dest : UInt64) (srcPitch destPitch width height : UInt16)
  deriving DecidableEq

/-- `amba_virt_host_gdma_copy`, up to the engine call. -/
def Window.hostGdmaCopy (w : Window) (c : GdmaCopy) : Except Errno GdmaJob := do
  refuseIf (w.shmPhys = 0 ∨ w.shmSize = 0) .ENODEV
  refuseIf (c.flags &&& ~~~AMBA_VIRT_GDMA_F_PITCH ≠ 0) .EINVAL
  if c.pitched then
    refuseIf (c.height = 0 ∨ c.width = 0 ∨ c.width > 4096 ∨
      c.srcPitch < c.width ∨ c.dstPitch < c.width ∨
      (c.srcPitch.toUInt32 * c.height.toUInt32) &&& 1 ≠ 0) .EINVAL
    let srcEnd := rowsEnd c.srcOff c.height c.srcPitch c.width
    let dstEnd := rowsEnd c.dstOff c.height c.dstPitch c.width
    refuseIf (srcEnd > w.shmSize ∨ dstEnd > w.shmSize) .ERANGE
    refuseIf (c.srcOff.toUInt64 < dstEnd ∧ c.dstOff.toUInt64 < srcEnd) .EINVAL
    return .pitch (w.shmPhys + c.srcOff.toUInt64)
      (w.shmPhys + c.dstOff.toUInt64) c.srcPitch c.dstPitch c.width c.height
  else
    refuseIf (c.len = 0 ∨ c.len &&& 1 ≠ 0) .EINVAL
    let srcEnd := linearEnd c.srcOff c.len
    let dstEnd := linearEnd c.dstOff c.len
    refuseIf (srcEnd > w.shmSize ∨ dstEnd > w.shmSize) .ERANGE
    refuseIf (c.srcOff.toUInt64 < dstEnd ∧ c.dstOff.toUInt64 < srcEnd) .EINVAL
    return .linear (w.shmPhys + c.dstOff.toUInt64) (w.shmPhys + c.srcOff.toUInt64) c.len

-- ==== the server

/-- The server's bounds on a request of tenant `t` (`range_err`). -/
def checkTenantRange (t : Tenant) (c : GdmaCopy) : Except Errno Unit := do
  refuseIf (t.sliceOffset > UINT32_MAX ∨ t.sliceOffset + t.shmSize > UINT32_MAX) .ERANGE
  if c.pitched then
    refuseIf (rowsEnd c.srcOff c.height c.srcPitch c.width > t.shmSize ∨
      rowsEnd c.dstOff c.height c.dstPitch c.width > t.shmSize) .ERANGE
  else
    refuseIf (linearEnd c.srcOff c.len > t.shmSize ∨ linearEnd c.dstOff c.len > t.shmSize) .ERANGE

def GdmaCopy.translate (c : GdmaCopy) (sliceOffset : UInt64) : GdmaCopy :=
  { c with
    srcOff := c.srcOff + sliceOffset.toUInt32
    dstOff := c.dstOff + sliceOffset.toUInt32 }

/-- The GDMA branch of `process_incoming_msg`. `hasCap` is
`virt_acl_has_cap`; `lenOk` says the message has exactly the length of
the structure. -/
def processGdma (s : Proxy) (w : Window) (hasCap : UInt32 → GdmaMsg → Bool)
    (cid : UInt32) (msg : GdmaMsg) (lenOk : Bool) (c : GdmaCopy) :
    Except Errno GdmaJob := do
  refuseIf (lenOk = false) .EPROTO
  let tenant ← require (s.getTenant cid) .EACCES
  refuseIf (hasCap cid msg = false) .EPERM
  checkTenantRange tenant c
  w.hostGdmaCopy (c.translate tenant.sliceOffset)

-- ==== bytes of a GDMA job

def GdmaJob.srcHull : GdmaJob → Span
  | .linear _ src len => ⟨src.toNat, len.toNat⟩
  | .pitch src _ srcPitch _ width height =>
    rowHull src.toNat srcPitch.toNat width.toNat height.toNat

def GdmaJob.dstHull : GdmaJob → Span
  | .linear dest _ len => ⟨dest.toNat, len.toNat⟩
  | .pitch _ dest _ destPitch width height =>
    rowHull dest.toNat destPitch.toNat width.toNat height.toNat

def GdmaJob.reads : GdmaJob → Set Nat
  | .linear _ src len => (Span.mk src.toNat len.toNat).bytes
  | .pitch src _ srcPitch _ width height =>
    rowBytes src.toNat srcPitch.toNat width.toNat height.toNat

def GdmaJob.writes : GdmaJob → Set Nat
  | .linear dest _ len => (Span.mk dest.toNat len.toNat).bytes
  | .pitch _ dest _ destPitch width height =>
    rowBytes dest.toNat destPitch.toNat width.toNat height.toNat

theorem GdmaJob.reads_subset (j : GdmaJob) : j.reads ⊆ j.srcHull.bytes := by
  cases j with
  | linear dest src len => exact subset_rfl
  | pitch src dest sp dp w h => exact rowBytes_subset_hull _ _ _ _

theorem GdmaJob.writes_subset (j : GdmaJob) : j.writes ⊆ j.dstHull.bytes := by
  cases j with
  | linear dest src len => exact subset_rfl
  | pitch src dest sp dp w h => exact rowBytes_subset_hull _ _ _ _

-- ==== exact sums

/-- No row end wraps: 16-bit factors, 64-bit sum. -/
theorem rowsEnd_toNat (off : UInt32) (height pitch width : UInt16) :
    (rowsEnd off height pitch width).toNat
      = off.toNat + ((height.toNat - 1) * pitch.toNat + width.toNat) := by
  have hoff := off.toNat_lt
  have hheight := height.toNat_lt
  have hpitch := pitch.toNat_lt
  have hwidth := width.toNat_lt
  have hrows : (if height ≠ 0 then height - 1 else 0).toNat = height.toNat - 1 := by
    by_cases h0 : height = 0
    · rw [h0]
      rfl
    · have h1 : 1 ≤ height := UInt16.pos_iff_ne_zero.mpr h0
      rw [if_pos h0, UInt16.toNat_sub_of_le _ _ h1]
      rfl
  have hmul : (height.toNat - 1) * pitch.toNat ≤ 2 ^ 16 * 2 ^ 16 :=
    Nat.mul_le_mul (by omega) (by omega)
  unfold rowsEnd
  rw [UInt64.toNat_add, UInt64.toNat_add, UInt64.toNat_mul,
    UInt16.toNat_toUInt64, hrows, UInt16.toNat_toUInt64,
    UInt16.toNat_toUInt64, UInt32.toNat_toUInt64]
  omega

theorem linearEnd_toNat (off len : UInt32) : (linearEnd off len).toNat = off.toNat + len.toNat :=
  toNat_add_widened off len

/-- The bytes a request covers from either of its offsets. -/
def GdmaCopy.extent (c : GdmaCopy) (pitch : UInt16) : Nat :=
  if c.pitched then
    (c.height.toNat - 1) * pitch.toNat + c.width.toNat
  else c.len.toNat

variable {w : Window} {c : GdmaCopy} {j : GdmaJob}

theorem hostGdmaCopy_ok (h : w.hostGdmaCopy c = .ok j) :
    j.srcHull = ⟨(w.shmPhys + c.srcOff.toUInt64).toNat, c.extent c.srcPitch⟩ ∧
    j.dstHull = ⟨(w.shmPhys + c.dstOff.toUInt64).toNat, c.extent c.dstPitch⟩ ∧
    c.srcOff.toNat + c.extent c.srcPitch ≤ w.shmSize.toNat ∧
    c.dstOff.toNat + c.extent c.dstPitch ≤ w.shmSize.toNat ∧
    (c.dstOff.toNat + c.extent c.dstPitch ≤ c.srcOff.toNat ∨
      c.srcOff.toNat + c.extent c.srcPitch ≤ c.dstOff.toNat) := by
  unfold Window.hostGdmaCopy GdmaCopy.extent at *
  by_cases hp : c.pitched
  · simp only [hp, if_true, guards, pure_ok, UInt64.lt_iff_toNat_lt, gt_iff_lt, rowsEnd_toNat,
      UInt32.toNat_toUInt64] at h ⊢
    obtain ⟨-, -, -, hsize, hover, rfl⟩ := h
    refine ⟨rfl, rfl, ?_, ?_, ?_⟩ <;> omega
  · simp only [hp, if_false, guards, pure_ok, UInt64.lt_iff_toNat_lt, gt_iff_lt, linearEnd_toNat,
      UInt32.toNat_toUInt64] at h ⊢
    obtain ⟨-, -, -, hsize, hover, rfl⟩ := h
    refine ⟨rfl, rfl, ?_, ?_, ?_⟩ <;> omega

variable {t : Tenant}

/-- What a request the server passes on satisfies, in offsets relative
to the tenant's slice. -/
theorem checkTenantRange_ok (h : checkTenantRange t c = .ok ()) :
    t.sliceOffset.toNat + t.shmSize.toNat < 2 ^ 32 ∧
    c.srcOff.toNat + c.extent c.srcPitch ≤ t.shmSize.toNat ∧
    c.dstOff.toNat + c.extent c.dstPitch ≤ t.shmSize.toNat := by
  have hsum := toNat_add_exact t.fits
  have hmax : UINT32_MAX.toNat = 2 ^ 32 - 1 := rfl
  unfold checkTenantRange GdmaCopy.extent at *
  by_cases hp : c.pitched
  · simp only [hp, if_true, guards, UInt64.lt_iff_toNat_lt, gt_iff_lt, rowsEnd_toNat, hsum,
      hmax] at h ⊢
    omega
  · simp only [hp, if_false, guards, UInt64.lt_iff_toNat_lt, gt_iff_lt, linearEnd_toNat, hsum,
      hmax] at h ⊢
    omega

/-- Moving an offset that lies in the slice by the slice offset is exact
in 32 bits. -/
theorem translate_exact {off : UInt32} {sliceOffset : UInt64}
    (h : off.toNat + sliceOffset.toNat < 2 ^ 32) :
    (off + sliceOffset.toUInt32).toNat = off.toNat + sliceOffset.toNat := by
  rw [UInt32.toNat_add, UInt64.toNat_toUInt32]
  omega

-- ==== confinement

/-- Every sum and product the server and the kernel form is exact. -/
structure GdmaExact (t : Tenant) (w : Window) (c : GdmaCopy) : Prop where
  sliceEnd : (t.sliceOffset + t.shmSize).toNat = t.sliceOffset.toNat + t.shmSize.toNat
  srcOff : (c.translate t.sliceOffset).srcOff.toNat = c.srcOff.toNat + t.sliceOffset.toNat
  dstOff : (c.translate t.sliceOffset).dstOff.toNat = c.dstOff.toNat + t.sliceOffset.toNat
  rows : ∀ (off : UInt32) (pitch : UInt16), (rowsEnd off c.height pitch c.width).toNat
      = off.toNat + ((c.height.toNat - 1) * pitch.toNat + c.width.toNat)
  linear : ∀ off : UInt32, (linearEnd off c.len).toNat = off.toNat + c.len.toNat
  parity : (c.srcPitch.toUInt32 * c.height.toUInt32).toNat = c.srcPitch.toNat * c.height.toNat
  srcPhys : (w.shmPhys + (c.translate t.sliceOffset).srcOff.toUInt64).toNat
    = w.shmPhys.toNat + (c.translate t.sliceOffset).srcOff.toNat
  dstPhys : (w.shmPhys + (c.translate t.sliceOffset).dstOff.toUInt64).toNat
    = w.shmPhys.toNat + (c.translate t.sliceOffset).dstOff.toNat

/-- The tenant's `[slice_offset, slice_offset + shm_size)` of the
window, as physical addresses. -/
def tenantSpan (w : Window) (t : Tenant) : Span :=
  ⟨w.shmPhys.toNat + t.sliceOffset.toNat, t.shmSize.toNat⟩

theorem parity_exact (pitch height : UInt16) : (pitch.toUInt32 * height.toUInt32).toNat
      = pitch.toNat * height.toNat := by
  have hp := pitch.toNat_lt
  have hh := height.toNat_lt
  have hmul : pitch.toNat * height.toNat ≤ (2 ^ 16 - 1) * (2 ^ 16 - 1) :=
    Nat.mul_le_mul (by omega) (by omega)
  rw [UInt32.toNat_mul, UInt16.toNat_toUInt32, UInt16.toNat_toUInt32, Nat.mod_eq_of_lt]
  omega

/-- An extent inside the slice, moved by the slice offset, is in the
tenant's part of the window. -/
theorem within_tenantSpan {off ext : Nat} (h : off + ext ≤ t.shmSize.toNat) :
    Span.Within ⟨w.shmPhys.toNat + (off + t.sliceOffset.toNat), ext⟩ (tenantSpan w t) := by
  unfold Span.Within tenantSpan
  dsimp only
  omega

/-- What has passed both checks when a copy is executed, and that no sum
or product on the way wrapped. -/
theorem processGdma_ok {s : Proxy} {hasCap : UInt32 → GdmaMsg → Bool}
    {cid : UInt32} {msg : GdmaMsg} {lenOk : Bool}
    (h : processGdma s w hasCap cid msg lenOk c = .ok j) :
    ∃ t, s.getTenant cid = some t ∧ checkTenantRange t c = .ok () ∧
      w.hostGdmaCopy (c.translate t.sliceOffset) = .ok j ∧
      GdmaExact t w c := by
  simp only [processGdma, guards] at h
  obtain ⟨-, t, ht, -, hserver, hkernel⟩ := h
  obtain ⟨hslice, hsrc, hdst⟩ := checkTenantRange_ok hserver
  obtain ⟨-, -, hsw, hdw, -⟩ := hostGdmaCopy_ok hkernel
  have hwin := w.ok
  unfold Kernel.WindowOk at hwin
  have hsoff : (c.translate t.sliceOffset).srcOff.toNat
      = c.srcOff.toNat + t.sliceOffset.toNat := translate_exact (by omega)
  have hdoff : (c.translate t.sliceOffset).dstOff.toNat
      = c.dstOff.toNat + t.sliceOffset.toNat := translate_exact (by omega)
  have hsphys : (w.shmPhys + (c.translate t.sliceOffset).srcOff.toUInt64).toNat
      = w.shmPhys.toNat + (c.translate t.sliceOffset).srcOff.toNat := by
    rw [toNat_add_exact] <;> rw [UInt32.toNat_toUInt64]
    omega
  have hdphys : (w.shmPhys + (c.translate t.sliceOffset).dstOff.toUInt64).toNat
      = w.shmPhys.toNat + (c.translate t.sliceOffset).dstOff.toNat := by
    rw [toNat_add_exact] <;> rw [UInt32.toNat_toUInt64]
    omega
  refine ⟨t, ht, hserver, hkernel, toNat_add_exact t.fits, hsoff, hdoff, ?_, ?_, ?_, hsphys, hdphys⟩
  · exact fun off pitch => rowsEnd_toNat off c.height pitch c.width
  · exact fun off => linearEnd_toNat off c.len
  · exact parity_exact c.srcPitch c.height

/-- The two hulls of an executed copy lie in the tenant's slice, apart. -/
theorem GdmaExact.hulls (hexact : GdmaExact t w c) (hserver : checkTenantRange t c = .ok ())
    (hkernel : w.hostGdmaCopy (c.translate t.sliceOffset) = .ok j) :
    j.srcHull.Within (tenantSpan w t) ∧ j.dstHull.Within (tenantSpan w t) ∧
      j.srcHull.Apart j.dstHull := by
  obtain ⟨-, hsrc, hdst⟩ := checkTenantRange_ok hserver
  obtain ⟨hsh, hdh, -, -, hapart⟩ := hostGdmaCopy_ok hkernel
  -- translating moves the offsets and not the extents
  have hsext : (c.translate t.sliceOffset).extent
      (c.translate t.sliceOffset).srcPitch = c.extent c.srcPitch := rfl
  have hdext : (c.translate t.sliceOffset).extent
      (c.translate t.sliceOffset).dstPitch = c.extent c.dstPitch := rfl
  rw [hsh, hdh, hexact.srcPhys, hexact.dstPhys]
  refine ⟨?_, ?_, ?_⟩
  · rw [hexact.srcOff, hsext]
    exact within_tenantSpan hsrc
  · rw [hexact.dstOff, hdext]
    exact within_tenantSpan hdst
  · unfold Span.Apart
    dsimp only
    omega

/-- GDMA confinement: a copy the kernel executes for a guest reads and
writes only that guest's slice of the window, its source and destination
are disjoint, and no arithmetic on the way wrapped. -/
theorem gdma_confined {s : Proxy} {w : Window}
    {hasCap : UInt32 → GdmaMsg → Bool} {cid : UInt32} {msg : GdmaMsg}
    {lenOk : Bool} {c : GdmaCopy} {j : GdmaJob}
    (h : processGdma s w hasCap cid msg lenOk c = .ok j) :
    ∃ t, s.getTenant cid = some t ∧ GdmaExact t w c ∧ j.reads ⊆ (tenantSpan w t).bytes ∧
      j.writes ⊆ (tenantSpan w t).bytes ∧
      Disjoint j.srcHull.bytes j.dstHull.bytes := by
  obtain ⟨t, ht, hserver, hkernel, hexact⟩ := processGdma_ok h
  obtain ⟨hsrc, hdst, hapart⟩ := hexact.hulls hserver hkernel
  exact ⟨t, ht, hexact, j.reads_subset.trans hsrc.bytes_subset,
    j.writes_subset.trans hdst.bytes_subset, hapart.disjoint⟩

/-- The 8 GiB window of `sampleProxy`. -/
def sampleWindow : Window where
  shmPhys := 0x100000000
  shmSize := 0x200000000
  ok := by unfold Kernel.WindowOk; decide

def sampleCopy : GdmaCopy where
  srcOff := 0x1000
  dstOff := 0x8000
  len := 0
  flags := AMBA_VIRT_GDMA_F_PITCH
  srcPitch := 256
  dstPitch := 256
  width := 200
  height := 16

/-- The guest on slice 2 copies inside its slice. -/
theorem gdma_confined_sample :
    ∃ j, processGdma sampleProxy sampleWindow (fun _ _ => true) 5 .pitchReq
        true sampleCopy = .ok j ∧
      ∃ t, sampleProxy.getTenant 5 = some t ∧ j.reads ⊆ (tenantSpan sampleWindow t).bytes ∧
        j.writes ⊆ (tenantSpan sampleWindow t).bytes := by
  obtain ⟨j, hj⟩ : ∃ j, processGdma sampleProxy sampleWindow
      (fun _ _ => true) 5 .pitchReq true sampleCopy = .ok j :=
    exists_ok_of_toBool (by decide)
  obtain ⟨t, ht, -, hr, hw, -⟩ := gdma_confined hj
  exact ⟨j, hj, t, ht, hr, hw⟩

end AmbaVirt.Gdma
