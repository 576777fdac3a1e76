/-
The guest's GDMA driver (amba_gdma_hvm.c) over the host's GDMA path: what
the three copy functions it exports do to memory, from the address
checks through the messages they send to the copies the host executes.

# Two origins

The driver keeps two staging areas at the start of the region it was
granted in the guest's BAR, and checks, and sends, offsets relative to
that region. The host takes them as relative to the slice: the same only
if the region starts where the slice does.

# Memory

`Memory.phys` is the host's physical memory, the slice in it, and
`Memory.ram` the guest's own RAM; a BAR address names a byte of the slice
(`Host.at`). The copy engine is assumed correct (`GdmaJob.run`). Where a
message or a job fails the call ends with an error, and nothing is said
about memory.
-/
import AmbaVirt.Lib.Copy
import AmbaVirt.Gdma

namespace AmbaVirt.Gdma

open Lib Cavalry

-- ==== the aperture

def GDMA_STAGE_SIZE : UInt32 := 8 * 1024 * 1024

def PAGE_SIZE : Nat := 4096

/-- The window fields of `struct amba_gdma`. -/
structure Aperture where
  windowPhys : UInt64
  windowSize : UInt64
  windowPages : Nat
  bitmap : Nat → Bool

/-- `bitmap_find_next_zero_area` from page 0. -/
def findZeroArea (bitmap : Nat → Bool) (pages n : Nat) : Option Nat :=
  (List.range pages).find? fun page =>
    page + n ≤ pages ∧ ∀ k < n, bitmap (page + k) = false

/-- `gdma_window_alloc`, while the driver is online: the physical
address. -/
def Aperture.windowAlloc (d : Aperture) (len : UInt32) : Option (UInt64 × Aperture) :=
  if len = 0 ∨ len.toUInt64 > d.windowSize then none
  else
    let pages := (len.toNat + PAGE_SIZE - 1) / PAGE_SIZE
    match findZeroArea d.bitmap d.windowPages pages with
    | none => none
    | some page =>
      some (d.windowPhys + (page * PAGE_SIZE).toUInt64, { d with
          bitmap := fun i =>
            decide (page ≤ i ∧ i < page + pages) || d.bitmap i })

/-- `struct amba_gdma` once the driver is loaded. -/
structure Driver where
  windowPhys : UInt64
  windowSize : UInt64
  stageSrcPhys : UInt64
  stageDstPhys : UInt64

/-- The guest's BAR; a physical address has at most 52 bits. -/
structure Bar where
  phys : UInt64
  phys_lt : phys.toNat < 2 ^ 52

/-- `amba_gdma_init` after `amba_virt_get_window` has returned the BAR
and `amba_gdma_negotiate_bounds` the granted region. -/
def Bar.gdmaInit (bar : Bar) (grantedOffset grantedSize : UInt32) : Except Errno Driver := do
  let window : Aperture :=
    { windowPhys := bar.phys + grantedOffset.toUInt64
      windowSize := grantedSize.toUInt64
      windowPages := grantedSize.toNat / PAGE_SIZE
      bitmap := fun _ => false }
  let (stageSrc, window) ← require (window.windowAlloc GDMA_STAGE_SIZE) .ENOMEM
  let (stageDst, window) ← require (window.windowAlloc GDMA_STAGE_SIZE) .ENOMEM
  return ⟨window.windowPhys, window.windowSize, stageSrc, stageDst⟩

-- ==== the checks

namespace Driver

/-- `window_range`: the offset of an address in the granted region. -/
def windowRange (d : Driver) (phys len : UInt64) : Except Errno UInt32 := do
  refuseIf (len = 0 ∨ phys < d.windowPhys) .EINVAL
  let off := phys - d.windowPhys
  refuseIf (off > d.windowSize ∨ len > d.windowSize - off) .ERANGE
  refuseIf (off > UINT32_MAX) .ERANGE
  return off.toUInt32

/-- `overlaps_staging`. -/
def overlapsStaging (d : Driver) (offset : UInt32) (len : UInt64) : Prop :=
  let stop := offset.toUInt64 + len
  let stageSrc := d.stageSrcPhys - d.windowPhys
  let stageDst := d.stageDstPhys - d.windowPhys
  (offset.toUInt64 < stageSrc + GDMA_STAGE_SIZE.toUInt64 ∧ stageSrc < stop) ∨
    (offset.toUInt64 < stageDst + GDMA_STAGE_SIZE.toUInt64 ∧ stageDst < stop)
  deriving Decidable

/-- The checks `dma_noncache_memcpy` and `dma_pitch_memcpy` share: both
ranges in the region, apart, and clear of staging. -/
def windowRanges (d : Driver) (src dest srcLen dstLen : UInt64) :
    Except Errno (UInt32 × UInt32) := do
  let srcOff ← d.windowRange src srcLen
  let dstOff ← d.windowRange dest dstLen
  refuseIf (srcOff.toUInt64 < dstOff.toUInt64 + dstLen ∧
    dstOff.toUInt64 < srcOff.toUInt64 + srcLen) .EINVAL
  refuseIf (d.overlapsStaging srcOff srcLen ∨ d.overlapsStaging dstOff dstLen) .EBUSY
  return (srcOff, dstOff)

end Driver

-- ==== the message

/-- A guest with a slice, and the host that serves it. -/
structure Host where
  proxy : Proxy
  window : Window
  hasCap : UInt32 → GdmaMsg → Bool
  cid : UInt32
  tenant : Tenant
  found : proxy.getTenant cid = some tenant

def Host.base (h : Host) : Nat := (tenantSpan h.window h.tenant).lo

def Host.at (h : Host) (bar : Bar) (phys : Nat) : Nat :=
  h.base + (phys - bar.phys.toNat)

/-- What a call meets besides its arguments: the outcome of the message
and of the engine for the chunk that starts at `done`, and the guest's
page frames. -/
structure Env where
  rpc : UInt32 → Except Errno Unit
  engine : UInt32 → Except Errno Unit
  pfnValid : Nat → Bool

def GdmaCopy.restore (c : GdmaCopy) (sliceOffset : UInt64) : GdmaCopy :=
  { c with
    srcOff := c.srcOff - sliceOffset.toUInt32
    dstOff := c.dstOff - sliceOffset.toUInt32 }

/-- `gdma_rpc_copy`, with the server and the kernel at the other end:
the job that was done. -/
def Host.rpcCopy (h : Host) (e : Env) (done : UInt32) (c : GdmaCopy) : Except Errno GdmaJob := do
  e.rpc done
  let job ← processGdma h.proxy h.window h.hasCap h.cid
    (if c.pitched then .pitchReq else .copyReq) true c
  e.engine done
  refuseIf ((c.translate h.tenant.sliceOffset).restore h.tenant.sliceOffset ≠ c) .EPROTO
  return job

def GdmaJob.run (m : Mem) : GdmaJob → Mem
  | .linear dest src len => transfer m m dest.toNat src.toNat len.toNat
  | .pitch src dest srcPitch destPitch width height =>
    transferRows m dest.toNat src.toNat destPitch.toNat srcPitch.toNat width.toNat height.toNat

-- ==== the loops

theorem chunk_toNat {size done : UInt32} (h : done < size) :
    (min (size - done) GDMA_STAGE_SIZE).toNat = min (size.toNat - done.toNat) (2 ^ 23) := by
  have hsub := UInt32.toNat_sub_of_le size done (UInt32.le_of_lt h)
  have hstage : GDMA_STAGE_SIZE.toNat = 2 ^ 23 := rfl
  show (if size - done ≤ GDMA_STAGE_SIZE then size - done
    else GDMA_STAGE_SIZE).toNat = _
  split <;> rename_i hle <;> rw [UInt32.le_iff_toNat_le] at hle <;> omega

theorem add_chunk_toNat {size done : UInt32} (h : done < size) :
    (done + min (size - done) GDMA_STAGE_SIZE).toNat
      = done.toNat + min (size.toNat - done.toNat) (2 ^ 23) := by
  have hlt := UInt32.lt_iff_toNat_lt.mp h
  have hsize := size.toNat_lt
  rw [UInt32.toNat_add, chunk_toNat h, Nat.mod_eq_of_lt]
  omega

/-- The loop of the linear copies: `step` for one chunk after the other,
each of at most `GDMA_STAGE_SIZE` bytes, until `size` are done. -/
def chunkLoop {σ : Type} (step : UInt32 → UInt32 → σ → Except Errno σ)
    (size done : UInt32) (s : σ) : Except Errno σ :=
  if _ : done < size then do
    let s' ← step done (min (size - done) GDMA_STAGE_SIZE) s
    chunkLoop step size (done + min (size - done) GDMA_STAGE_SIZE) s'
  else .ok s
termination_by size.toNat - done.toNat
decreasing_by
  have hlt := UInt32.lt_iff_toNat_lt.mp ‹done < size›
  rw [add_chunk_toNat ‹done < size›]
  omega

-- ==== the calls

structure Memory where
  phys : Mem
  ram : Mem

/-- `struct gdma_param`, the fields the driver reads. -/
structure GdmaParam where
  destAddr : UInt64
  srcAddr : UInt64
  destPitch : UInt16
  srcPitch : UInt16
  width : UInt16
  height : UInt16
  srcNonCached : Bool
  destNonCached : Bool
  deriving DecidableEq

def linearCopy (srcOff dstOff len : UInt32) : GdmaCopy :=
  ⟨srcOff, dstOff, len, 0, 0, 0, 0, 0⟩

/-- The bytes from the first row to the last, in 64 bits. -/
def rowsLen (height pitch width : UInt16) : UInt64 :=
  (height - 1).toUInt64 * pitch.toUInt64 + width.toUInt64

/-- `system_ram_range`: every page frame of the range is valid. -/
def Env.systemRamRange (e : Env) (phys : UInt64) (len : UInt32) : Except Errno Unit := do
  refuseIf (len = 0 ∨ phys.toNat + (len.toNat - 1) ≥ 2 ^ 64) .EINVAL
  let first := phys.toNat / PAGE_SIZE
  let last := (phys.toNat + (len.toNat - 1)) / PAGE_SIZE
  refuseIf (∃ k < last - first + 1, e.pfnValid (first + k) = false) .EFAULT

namespace Driver

/-- One round of `dma_noncache_memcpy`. -/
def noncacheStep (h : Host) (e : Env) (srcOff dstOff : UInt32)
    (done len : UInt32) (m : Memory) : Except Errno Memory := do
  let job ← h.rpcCopy e done (linearCopy (srcOff + done) (dstOff + done) len)
  return { m with phys := job.run m.phys }

def dmaNoncacheMemcpy (d : Driver) (h : Host) (e : Env) (dest src : UInt64)
    (size : UInt32) (m : Memory) : Except Errno Memory := do
  refuseIf (size = 0 ∨ size &&& 1 ≠ 0) .EINVAL
  let (srcOff, dstOff) ← d.windowRanges src dest size.toUInt64 size.toUInt64
  chunkLoop (noncacheStep h e srcOff dstOff) size 0 m

/-- One round of `dma_memcpy`: the source into staging, the copy between
the staging areas, and from staging to the destination. -/
def stagedStep (d : Driver) (bar : Bar) (h : Host) (e : Env)
    (dest src : UInt64) (done chunk : UInt32) (m : Memory) :
    Except Errno Memory := do
  let phys := transfer m.phys m.ram (h.at bar d.stageSrcPhys.toNat)
    (src.toNat + done.toNat) chunk.toNat
  let job ← h.rpcCopy e done (linearCopy (d.stageSrcPhys - d.windowPhys).toUInt32
      (d.stageDstPhys - d.windowPhys).toUInt32 chunk)
  let phys := job.run phys
  let ram := transfer m.ram phys (dest.toNat + done.toNat)
    (h.at bar d.stageDstPhys.toNat) chunk.toNat
  return ⟨phys, ram⟩

def dmaMemcpy (d : Driver) (bar : Bar) (h : Host) (e : Env)
    (dest src : UInt64) (size : UInt32) (m : Memory) :
    Except Errno Memory := do
  refuseIf (size = 0 ∨ size &&& 1 ≠ 0) .EINVAL
  refuseIf (src.toNat + size.toNat ≥ 2 ^ 64 ∨ dest.toNat + size.toNat ≥ 2 ^ 64) .ERANGE
  refuseIf (src < dest + size.toUInt64 ∧ dest < src + size.toUInt64) .EINVAL
  e.systemRamRange src size
  e.systemRamRange dest size
  chunkLoop (d.stagedStep bar h e dest src) size 0 m

def dmaPitchMemcpy (d : Driver) (h : Host) (e : Env) (p : GdmaParam)
    (m : Memory) : Except Errno Memory := do
  refuseIf (p.height = 0 ∨ p.width = 0 ∨ p.width > 4096 ∨
    p.srcPitch < p.width ∨ p.destPitch < p.width ∨
    (p.srcPitch.toUInt32 * p.height.toUInt32) &&& 1 ≠ 0 ∨
    p.srcNonCached = false ∨ p.destNonCached = false) .EINVAL
  let (srcOff, dstOff) ← d.windowRanges p.srcAddr p.destAddr (rowsLen p.height p.srcPitch p.width)
    (rowsLen p.height p.destPitch p.width)
  let job ← h.rpcCopy e 0 ⟨srcOff, dstOff, 0, AMBA_VIRT_GDMA_F_PITCH, p.srcPitch, p.destPitch,
      p.width, p.height⟩
  return { m with phys := job.run m.phys }

end Driver

/-- The three copy functions the driver exports. -/
inductive Call
  | noncache (dest src : UInt64) (size : UInt32)
  | staged (dest src : UInt64) (size : UInt32)
  | pitch (p : GdmaParam)

/-- A call, with memory afterwards when it returns 0. -/
def Driver.call (d : Driver) (bar : Bar) (h : Host) (e : Env) (m : Memory) :
    Call → Except Errno Memory
  | .noncache dest src size => d.dmaNoncacheMemcpy h e dest src size m
  | .staged dest src size => d.dmaMemcpy bar h e dest src size m
  | .pitch p => d.dmaPitchMemcpy h e p m

end AmbaVirt.Gdma
