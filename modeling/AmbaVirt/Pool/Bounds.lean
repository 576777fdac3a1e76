/-
Device bounds (`virt_mem_pool_set_device_bounds` and its release): the
checks, the placement at a preferred offset or by search, and the grant.

A call is a computation in `Except` whose error is the answer that
refuses it, or `none` while one of the two searches has not ended with
the fuel given. Zeroing the granted range writes to the mapped BAR and
to nothing here.
-/
import AmbaVirt.Lib.Guard
import AmbaVirt.Lib.Search
import AmbaVirt.Pool.State

namespace AmbaVirt.Pool

open Lib

-- ==== messages

/-- `AMBA_VIRT_ERR_*`. -/
inductive DevErr
  | NONE | PERM_DENIED | QUOTA_EXCEEDED | HOST_OOM | OFFSET_COLLISION
  | DEV_ALREADY_REG | INVALID_ALIGN | UNKNOWN_DEVICE | BAR_OVERFLOW
  deriving DecidableEq

def DEV_TYPE_NONE : UInt32 := 0
def DEV_TYPE_CAVALRY : UInt32 := 1
def DEV_TYPE_GDMA : UInt32 := 2
def DEV_TYPE_IAV : UInt32 := 3
def MAX_DEV_TYPES : UInt32 := 8

def OFFSET_AUTO : UInt32 := 0xFFFFFFFF

def DEV_F_BEST_EFFORT : UInt32 := 2
def DEV_F_REPLACE : UInt32 := 4

/-- `struct amba_virt_dev_bounds_req`. -/
structure DevBoundsReq where
  devType : UInt32
  requestedSize : UInt32
  preferredOffset : UInt32
  rpcArenaSize : UInt32
  align : UInt32
  flags : UInt32
  deriving DecidableEq

/-- `struct amba_virt_dev_bounds_resp`; a status of `none` is 0. -/
structure DevBoundsResp where
  status : Option Errno := none
  errCode : DevErr := .NONE
  grantedOffset : UInt32 := 0
  grantedSize : UInt32 := 0
  rpcArenaOffset : UInt32 := 0
  maxAvailSize : UInt32 := 0
  suggestedOffset : UInt32 := 0
  collidingDev : UInt32 := 0
  deriving DecidableEq

def refusal (status : Errno) (err : DevErr) (maxAvail : UInt32) : Option DevBoundsResp :=
  some { status := some status, errCode := err, maxAvailSize := maxAvail }

-- ==== admission

namespace DevBoundsReq

/-- The alignment asked for: 2 MiB for Cavalry and IAV and 4 KiB for
others by default. -/
def boundsAlign (req : DevBoundsReq) : UInt32 :=
  if req.align = 0 then
    if req.devType = DEV_TYPE_CAVALRY ∨ req.devType = DEV_TYPE_IAV
    then 0x00200000 else 4096
  else req.align

/-- `req_size`, before the quota. -/
def alignedSize (req : DevBoundsReq) : UInt32 :=
  alignUp req.requestedSize req.boundsAlign

/-- `arena_sz`. -/
def arenaSize (req : DevBoundsReq) : UInt32 :=
  if req.rpcArenaSize > 0 then alignUp req.rpcArenaSize 4096 else 0

end DevBoundsReq

/-- What the checks of a request leave for its placement. -/
structure Admitted where
  align : UInt32
  reqSize : UInt32
  arenaSz : UInt32
  existing : Option (Fin 8)
  allocatedExcl : UInt32
  availQuota : UInt32

/-- `total_needed`. -/
def Admitted.total (a : Admitted) : UInt64 :=
  a.reqSize.toUInt64 + a.arenaSz.toUInt64

namespace TenantPool

def existingSlot (p : TenantPool) (devType : UInt32) : Option (Fin 8) :=
  Fin.find? fun i => (p.devices i).any (·.devType == devType)

/-- `allocated_excl`: what is allocated apart from the device that is
replaced. -/
def allocatedExcl (p : TenantPool) (existing : Option (Fin 8)) : UInt32 :=
  match existing.bind p.devices with
  | none => p.allocatedBytes
  | some d =>
    let old := d.size + d.rpcArenaSize
    if p.allocatedBytes ≥ old then p.allocatedBytes - old else 0

/-- `req_size` under the quota: a best-effort request is cut down to what
is left, Cavalry's and GDMA's apart. -/
def clampToQuota (req : DevBoundsReq) (align size arenaSz avail : UInt32) :
    Except (Option DevBoundsResp) UInt32 :=
  if size.toUInt64 + arenaSz.toUInt64 > avail.toUInt64 then
    let clamped := alignMask (avail - arenaSz) align
    if req.flags &&& DEV_F_BEST_EFFORT ≠ 0 ∧ req.devType ≠ DEV_TYPE_CAVALRY ∧
        req.devType ≠ DEV_TYPE_GDMA ∧ avail > arenaSz ∧ clamped > 0 then
      .ok clamped
    else .error (refusal .ENOMEM .QUOTA_EXCEEDED avail)
  else .ok size

def checkBounds (p : TenantPool) (req : DevBoundsReq) : Except (Option DevBoundsResp) Admitted := do
  let align := req.boundsAlign
  refuseIf (align < 4096 ∨ align &&& (align - 1) ≠ 0) (refusal .EINVAL .INVALID_ALIGN 0)
  let size := req.alignedSize
  let arenaSz := req.arenaSize
  refuseIf (size.toUInt64 + arenaSz.toUInt64 > p.barSize.toUInt64)
    (refusal .ERANGE .BAR_OVERFLOW p.free)
  refuseIf (req.preferredOffset ≠ OFFSET_AUTO ∧ req.preferredOffset % align ≠ 0)
    (some { status := some .EINVAL, errCode := .INVALID_ALIGN,
            suggestedOffset := alignUp req.preferredOffset align })
  refuseIf (req.preferredOffset ≠ OFFSET_AUTO ∧
      req.preferredOffset.toUInt64 + size.toUInt64 > p.barSize.toUInt64)
    (refusal .ERANGE .BAR_OVERFLOW p.free)
  let existing := p.existingSlot req.devType
  refuseIf (existing.isSome ∧ req.flags &&& DEV_F_REPLACE = 0)
    (refusal .EBUSY .DEV_ALREADY_REG p.free)
  let excl := p.allocatedExcl existing
  let avail := if p.quotaMax > excl then p.quotaMax - excl else 0
  let reqSize ← clampToQuota req align size arenaSz avail
  return ⟨align, reqSize, arenaSz, existing, excl, avail⟩

end TenantPool

-- ==== placement

/-- Where a request is placed: the device region and its arena. -/
structure Placement where
  devStart : UInt32
  arenaStart : UInt32
  deriving DecidableEq

namespace Admitted

def devEnd (a : Admitted) (pl : Placement) : UInt32 := pl.devStart + a.reqSize

def arenaEnd (a : Admitted) (pl : Placement) : UInt32 :=
  if a.arenaSz > 0 then pl.arenaStart + a.arenaSz else 0

/-- At the preferred offset the arena follows the device region. -/
def preferred (a : Admitted) (offset : UInt32) : Placement where
  devStart := offset
  arenaStart := if a.arenaSz > 0 then offset + a.reqSize else 0

/-- A search candidate: the arena comes first, the device region at the
next aligned offset behind it. -/
def auto (a : Admitted) (cand : UInt32) : Placement :=
  if a.arenaSz > 0 then ⟨alignUp (cand + a.arenaSz) a.align, cand⟩
  else ⟨cand, 0⟩

def Collides (a : Admitted) (pl : Placement) (d : DevPartition) : Prop :=
  d.Hits pl.devStart (a.devEnd pl) ∨ (a.arenaSz > 0 ∧ d.Hits pl.arenaStart (a.arenaEnd pl))
  deriving Decidable

end Admitted

namespace TenantPool

/-- The scan for `suggested_offset` behind the colliding device; 0 when
it runs past the BAR. -/
def suggest (p : TenantPool) (fuel : Nat) (a : Admitted) (d : DevPartition) :
    Option (Option UInt32) :=
  let span := a.reqSize + a.arenaSz
  firstFit (fun c => c + span ≤ p.barSize)
    (fun c => (p.firstHit a.existing fun k => decide (k.Hits c (c + span))).map
      (alignUp ·.next a.align))
    fuel (alignUp d.next a.align)

def placePreferred (p : TenantPool) (fuel : Nat) (offset : UInt32)
    (a : Admitted) : Except (Option DevBoundsResp) Placement := do
  let pl := a.preferred offset
  refuseIf (a.arenaEnd pl > p.barSize ∨ a.devEnd pl > p.barSize)
    (refusal .ERANGE .BAR_OVERFLOW a.availQuota)
  match p.firstHit a.existing fun d => decide (a.Collides pl d) with
  | none => .ok pl
  | some d =>
    .error ((p.suggest fuel a d).map fun o =>
      { status := some .EEXIST, errCode := .OFFSET_COLLISION,
        collidingDev := d.devType, suggestedOffset := o.getD 0 })

/-- First-fit placement. The loop of the source ends with a candidate
that fits or runs out of BAR; its last test repeats the loop's. -/
def placeAuto (p : TenantPool) (fuel : Nat) (a : Admitted) :
    Except (Option DevBoundsResp) Placement :=
  match firstFit (fun c => c.toUInt64 + a.total ≤ p.barSize.toUInt64 ∧
      a.devEnd (a.auto c) ≤ p.barSize)
    (fun c => (p.firstHit a.existing fun d =>
        decide (a.Collides (a.auto c) d)).map
      (alignUp ·.next (if a.arenaSz > 0 then 4096 else a.align)))
    fuel 0 with
  | none => .error none
  | some none => .error (refusal .ENOMEM .HOST_OOM a.availQuota)
  | some (some c) => .ok (a.auto c)

def place (p : TenantPool) (fuel : Nat) (req : DevBoundsReq) (a : Admitted) :
    Except (Option DevBoundsResp) Placement :=
  if req.preferredOffset ≠ OFFSET_AUTO then
    p.placePreferred fuel req.preferredOffset a
  else p.placeAuto fuel a

-- ==== grant

def partition (req : DevBoundsReq) (a : Admitted) (pl : Placement) : DevPartition where
  devType := req.devType
  baseOffset := pl.devStart
  size := a.reqSize
  rpcArenaOffset := if a.arenaSz > 0 then pl.arenaStart else 0
  rpcArenaSize := a.arenaSz
  flags := req.flags
  align := a.align

/-- The slot of a grant: the old one or the first that is free. -/
def targetSlot (p : TenantPool) (a : Admitted) : Option (Fin 8) :=
  a.existing.or (Fin.find? fun i => (p.devices i).isNone)

/-- The pool with the grant in slot `i`. -/
def grant (p : TenantPool) (req : DevBoundsReq) (a : Admitted)
    (pl : Placement) (i : Fin 8) : TenantPool :=
  { p with
    devices := Function.update p.devices i (some (partition req a pl)) }.charge
      (a.allocatedExcl + a.reqSize + a.arenaSz)

def grantResp (p : TenantPool) (a : Admitted) (pl : Placement) : DevBoundsResp where
  grantedOffset := pl.devStart
  grantedSize := a.reqSize
  rpcArenaOffset := if a.arenaSz > 0 then pl.arenaStart else 0
  maxAvailSize := p.free

/-- `virt_mem_pool_set_device_bounds` under the tenant's lock. -/
def setDeviceBounds (p : TenantPool) (fuel : Nat) (req : DevBoundsReq) :
    Except (Option DevBoundsResp) (DevBoundsResp × TenantPool) := do
  let a ← p.checkBounds req
  let pl ← p.place fuel req a
  let i ← require (p.targetSlot a) (refusal .ENOMEM .HOST_OOM 0)
  let p' := p.grant req a pl i
  return (p'.grantResp a pl, p')

/-- `virt_mem_pool_release_device_bounds` under the tenant's lock. -/
def releaseDeviceBounds (p : TenantPool) (devType : UInt32) : Option TenantPool := do
  let i ← p.existingSlot devType
  let d ← p.devices i
  return { p.discharge (d.size + d.rpcArenaSize) with
    devices := Function.update p.devices i none }

end TenantPool

namespace Pools

/-- `virt_mem_pool_set_device_bounds`. -/
def setDeviceBounds (s : Pools) (fuel : Nat) (cid : UInt32) (req : DevBoundsReq) :
    Except (Option DevBoundsResp) (DevBoundsResp × Pools) := do
  refuseIf (req.devType = DEV_TYPE_NONE ∨ req.devType ≥ MAX_DEV_TYPES)
    (refusal .EINVAL .UNKNOWN_DEVICE 0)
  refuseIf (req.requestedSize = 0) (refusal .EINVAL .INVALID_ALIGN 0)
  let (i, p) ← require (s.getTenant cid) (refusal .ENOMEM .HOST_OOM 0)
  let (resp, p') ← p.setDeviceBounds fuel req
  return (resp, s.setTenant i (some p'))

/-- `virt_mem_pool_get_device_bounds`. -/
def getDeviceBounds (s : Pools) (cid devType : UInt32) : Option DevPartition := do
  let (_, p) ← s.getTenant cid
  let i ← p.existingSlot devType
  p.devices i

/-- `virt_mem_pool_release_device_bounds`. -/
def releaseDeviceBounds (s : Pools) (cid devType : UInt32) : Pools × Option Errno :=
  match s.getTenant cid with
  | none => (s, some .ENOENT)
  | some (i, p) =>
    match p.releaseDeviceBounds devType with
    | none => (s, some .ENOENT)
    | some p' => (s.setTenant i (some p'), none)

end Pools

end AmbaVirt.Pool
