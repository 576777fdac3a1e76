/-
Memory extents (`virt_mem_pool_alloc_extent`, `virt_mem_pool_free_extent`)
and the pool as a transition system over all its calls.

The extent search tests devices and extents; the end of a candidate is a
32-bit sum there, and may wrap.
-/
import AmbaVirt.Lib.Trans
import AmbaVirt.Pool.Bounds

namespace AmbaVirt.Pool

open Lib

/-- `struct amba_virt_mem_req`, as far as an allocation reads it. -/
structure MemReq where
  size : UInt32
  align : UInt32
  devAffinity : UInt32
  flags : UInt32
  deriving DecidableEq

/-- `struct amba_virt_mem_resp`; a status of `none` is 0. -/
structure MemResp where
  status : Option Errno := none
  barOffset : UInt32 := 0
  allocatedSize : UInt32 := 0
  physAddr : UInt64 := 0
  totalAllocated : UInt32 := 0
  totalFree : UInt32 := 0
  deriving DecidableEq

def MemReq.extentAlign (req : MemReq) : UInt32 :=
  if req.align ≠ 0 then req.align else 4096

/-- `alloc_sz`. -/
def MemReq.allocSize (req : MemReq) : UInt32 :=
  alignUp req.size req.extentAlign

namespace Extent

/-- `ee`, in 32 bits. -/
def extEnd (e : Extent) : UInt32 := e.offset + e.size

end Extent

namespace TenantPool

/-- A refusal with the pool's totals. -/
def memRefusal (p : TenantPool) (status : Errno) : Option MemResp :=
  some { status := some status, totalAllocated := p.allocatedBytes,
         totalFree := p.free }

/-- What is in the way of `[c, c + size)`: the devices first, then the
extents; the search goes on behind it. -/
def extentHit (p : TenantPool) (align size c : UInt32) : Option UInt32 :=
  ((p.firstHit none fun d => decide (d.Hits c (c + size))).map (alignUp ·.next align)).or
    ((Fin.findSome? fun i => (p.extents i).filter fun e =>
        decide (rangesOverlap c (c + size) e.offset e.extEnd)).map
      fun e => alignUp e.extEnd align)

/-- The pool with a new extent in slot `i`. -/
def addExtent (p : TenantPool) (req : MemReq) (i : Fin 32) (c : UInt32) :
    TenantPool :=
  { p with
    extents := Function.update p.extents i (some
      { offset := c, size := req.allocSize, devType := req.devAffinity,
        flags := req.flags, align := req.extentAlign }) }.charge
    (p.allocatedBytes + req.allocSize)

/-- `virt_mem_pool_alloc_extent` under the tenant's lock. -/
def allocExtent (p : TenantPool) (fuel : Nat) (req : MemReq)
    (physBase : UInt64) : Except (Option MemResp) (MemResp × TenantPool) := do
  let align := req.extentAlign
  refuseIf (align < 4096 ∨ align &&& (align - 1) ≠ 0) (some { status := some .EINVAL })
  let size := req.allocSize
  refuseIf (size = 0) (some { status := some .EINVAL })
  refuseIf (size > p.barSize) (p.memRefusal .ERANGE)
  refuseIf (size > p.free) (p.memRefusal .ENOMEM)
  let i ← require (Fin.find? fun i => (p.extents i).isNone) (p.memRefusal .ENOMEM)
  let found ← require (firstFit (fun c => c + size ≤ p.barSize)
    (p.extentHit align size) fuel 0) none
  let c ← require found (p.memRefusal .ENOMEM)
  let p' := p.addExtent req i c
  return ({ barOffset := c, allocatedSize := size,
            physAddr := if physBase ≠ 0 then physBase + c.toUInt64 else 0,
            totalAllocated := p'.allocatedBytes, totalFree := p'.free }, p')

/-- `virt_mem_pool_free_extent` under the tenant's lock. -/
def freeExtent (p : TenantPool) (barOffset : UInt32) : TenantPool × MemResp :=
  match Fin.findSome? fun i =>
    ((p.extents i).filter fun e => decide (e.offset = barOffset)).map (i, ·) with
  | some (i, e) =>
    let p' := { p.discharge e.size with
      extents := Function.update p.extents i none }
    (p', { barOffset := barOffset, allocatedSize := e.size,
           totalAllocated := p'.allocatedBytes, totalFree := p'.free })
  | none =>
    (p, { status := some .ENOENT, totalAllocated := p.allocatedBytes,
          totalFree := p.free })

end TenantPool

namespace Pools

/-- `virt_mem_pool_alloc_extent`. -/
def allocExtent (s : Pools) (fuel : Nat) (cid : UInt32) (req : MemReq)
    (physBase : UInt64) : Except (Option MemResp) (MemResp × Pools) := do
  let (i, p) ← require (s.getTenant cid) (some { status := some .ENOENT })
  let (resp, p') ← p.allocExtent fuel req physBase
  return (resp, s.setTenant i (some p'))

/-- `virt_mem_pool_free_extent`; no answer is written for a cid without
a pool. -/
def freeExtent (s : Pools) (cid barOffset : UInt32) : Pools × Option MemResp :=
  match s.getTenant cid with
  | none => (s, none)
  | some (i, p) =>
    let (p', resp) := p.freeExtent barOffset
    (s.setTenant i (some p'), some resp)

end Pools

-- ==== the system

/-- A call of the pool's interface. -/
inductive PoolOp
  | register (cid tenantIdx barSize quotaMax : UInt32)
  | unregister (cid : UInt32)
  | setQuota (cid quotaMb : UInt32)
  | setDeviceBounds (cid : UInt32) (req : DevBoundsReq)
  | releaseDeviceBounds (cid devType : UInt32)
  | allocExtent (cid : UInt32) (req : MemReq) (physBase : UInt64)
  | freeExtent (cid barOffset : UInt32)

/-- A call that returns. A refused one changes nothing; a search that
never ends is no step. -/
inductive Pools.Step (s : Pools) : PoolOp → Pools → Prop
  | register (cid tenantIdx barSize quotaMax) : Step s (.register cid tenantIdx barSize quotaMax)
        (s.registerTenant cid tenantIdx barSize quotaMax).1
  | unregister (cid) : Step s (.unregister cid) (s.unregisterTenant cid).1
  | setQuota (cid quotaMb) : Step s (.setQuota cid quotaMb) (s.setQuota cid quotaMb).1
  | setDeviceBounds {cid req fuel resp s'} : s.setDeviceBounds fuel cid req = .ok (resp, s') →
      Step s (.setDeviceBounds cid req) s'
  | refuseBounds {cid req fuel resp} : s.setDeviceBounds fuel cid req = .error (some resp) →
      Step s (.setDeviceBounds cid req) s
  | releaseDeviceBounds (cid devType) : Step s (.releaseDeviceBounds cid devType)
        (s.releaseDeviceBounds cid devType).1
  | allocExtent {cid req physBase fuel resp s'} :
      s.allocExtent fuel cid req physBase = .ok (resp, s') →
      Step s (.allocExtent cid req physBase) s'
  | refuseExtent {cid req physBase fuel resp} :
      s.allocExtent fuel cid req physBase = .error (some resp) →
      Step s (.allocExtent cid req physBase) s
  | freeExtent (cid barOffset) : Step s (.freeExtent cid barOffset) (s.freeExtent cid barOffset).1

/-- The pool from `virt_mem_pool_init` on. -/
def poolSystem : System Pools PoolOp where
  init s := ∃ defaultBarSize, s = .init defaultBarSize
  step := Pools.Step

end AmbaVirt.Pool
