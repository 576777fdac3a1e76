/-
Tenant memory pools (`virt_mem_pool.c`): the pool table, registration,
quotas, and the record types of the device-bounds and extent calls.

An entry that is not in use is `none`: no function reads one. `align` of
a partition and of an extent is not in the source; it remembers the
alignment the caller asked for, and no function reads it.
-/
import AmbaVirt.Basic
import AmbaVirt.Lib.Word

namespace AmbaVirt.Pool

open Lib

-- ==== records

/-- `struct virt_dev_partition` of a device in use. -/
structure DevPartition where
  devType : UInt32
  baseOffset : UInt32
  size : UInt32
  rpcArenaOffset : UInt32
  rpcArenaSize : UInt32
  flags : UInt32
  align : UInt32
  deriving DecidableEq

/-- `struct virt_mem_extent` of an extent in use. -/
structure Extent where
  offset : UInt32
  size : UInt32
  devType : UInt32
  flags : UInt32
  align : UInt32
  deriving DecidableEq

/-- `struct virt_tenant_pool` of a tenant in use. -/
structure TenantPool where
  cid : UInt32
  tenantIdx : UInt32
  barSize : UInt32
  quotaMax : UInt32
  allocatedBytes : UInt32
  highWaterMark : UInt32
  devices : Fin 8 → Option DevPartition
  extents : Fin 32 → Option Extent

/-- `g_tenant_pools` and `g_default_bar_size`. -/
structure Pools where
  defaultBarSize : UInt32
  tenants : Fin 8 → Option TenantPool

/-- `VIRT_MEM_DEFAULT_BAR_SIZE`. -/
def VIRT_MEM_DEFAULT_BAR_SIZE : UInt32 := 0x40000000

/-- `quota_max - allocated_bytes`, or 0: what the answers call free. -/
def TenantPool.free (p : TenantPool) : UInt32 :=
  if p.quotaMax > p.allocatedBytes then p.quotaMax - p.allocatedBytes else 0

/-- `allocated_bytes = bytes`, and the high water mark with it. -/
def TenantPool.charge (p : TenantPool) (bytes : UInt32) : TenantPool :=
  { p with
    allocatedBytes := bytes
    highWaterMark := if bytes > p.highWaterMark then bytes
      else p.highWaterMark }

/-- `allocated_bytes -= bytes`, not below 0. -/
def TenantPool.discharge (p : TenantPool) (bytes : UInt32) : TenantPool :=
  { p with
    allocatedBytes := if p.allocatedBytes ≥ bytes
      then p.allocatedBytes - bytes else 0 }

def TenantPool.reregister (p : TenantPool) (tenantIdx barSize quotaMax : UInt32) : TenantPool :=
  { p with
    tenantIdx := tenantIdx
    barSize := if barSize > 0 then barSize else p.barSize
    quotaMax := if quotaMax > 0 then quotaMax else p.quotaMax }

-- ==== the table

namespace Pools

/-- `virt_mem_pool_init`. -/
def init (defaultBarSize : UInt32) : Pools where
  defaultBarSize := if defaultBarSize > 0 then defaultBarSize
    else VIRT_MEM_DEFAULT_BAR_SIZE
  tenants _ := none

/-- `virt_mem_pool_get_tenant`: the entry and its number. -/
def getTenant (s : Pools) (cid : UInt32) : Option (Fin 8 × TenantPool) :=
  Fin.findSome? fun i =>
    ((s.tenants i).filter fun p => decide (p.cid = cid)).map (i, ·)

def setTenant (s : Pools) (i : Fin 8) (p : Option TenantPool) : Pools :=
  { s with tenants := Function.update s.tenants i p }

def reclaim (s : Pools) (cid tenantIdx : UInt32) : Pools :=
  { s with
    tenants := fun i => (s.tenants i).filter fun p =>
      decide ¬ (p.cid ≠ cid ∧ p.tenantIdx = tenantIdx) }

/-- The entry of a new tenant. Its devices and extents were cleared when
the entry was last released. -/
def newTenant (s : Pools) (cid tenantIdx barSize quotaMax : UInt32) :
    TenantPool :=
  let bar := if barSize > 0 then barSize else s.defaultBarSize
  { cid := cid
    tenantIdx := tenantIdx
    barSize := bar
    quotaMax := if quotaMax > 0 then quotaMax else bar
    allocatedBytes := 0
    highWaterMark := 0
    devices := fun _ => none
    extents := fun _ => none }

/-- `virt_mem_pool_register_tenant`, with its result (`none` is 0). -/
def registerTenant (s : Pools) (cid tenantIdx barSize quotaMax : UInt32) : Pools × Option Errno :=
  let s := s.reclaim cid tenantIdx
  match s.getTenant cid with
  | some (i, p) =>
    (s.setTenant i (some (p.reregister tenantIdx barSize quotaMax)), none)
  | none =>
    match Fin.find? fun i => (s.tenants i).isNone with
    | some i =>
      (s.setTenant i (some (s.newTenant cid tenantIdx barSize quotaMax)), none)
    | none => (s, some .ENOSPC)

/-- `virt_mem_pool_unregister_tenant`. -/
def unregisterTenant (s : Pools) (cid : UInt32) : Pools × Option Errno :=
  match s.getTenant cid with
  | some (i, _) => (s.setTenant i none, none)
  | none => (s, some .ENOENT)

/-- `virt_mem_pool_set_quota`. -/
def setQuota (s : Pools) (cid quotaMb : UInt32) : Pools × Option Errno :=
  match s.getTenant cid with
  | none => (s, some .ENOENT)
  | some (i, p) =>
    let bytes := quotaMb.toUInt64 * 1024 * 1024
    if bytes > p.barSize.toUInt64 then (s, some .ERANGE)
    else (s.setTenant i (some { p with quotaMax := bytes.toUInt32 }), none)

end Pools

-- ==== placement

/-- `ranges_overlap`, of 32-bit values widened to 64 bits. -/
def rangesOverlap (s₁ e₁ s₂ e₂ : UInt32) : Prop := s₁ < e₂ ∧ e₁ > s₂
  deriving Decidable

namespace DevPartition

/-- `d_end`, in 32 bits. -/
def devEnd (d : DevPartition) : UInt32 := d.baseOffset + d.size

/-- `a_end`. -/
def arenaEnd (d : DevPartition) : UInt32 := d.rpcArenaOffset + d.rpcArenaSize

/-- The range `[s, e)` hits the device region or the arena. -/
def Hits (d : DevPartition) (s e : UInt32) : Prop :=
  rangesOverlap s e d.baseOffset d.devEnd ∨
    (d.rpcArenaSize > 0 ∧ rangesOverlap s e d.rpcArenaOffset d.arenaEnd)
  deriving Decidable

def next (d : DevPartition) : UInt32 :=
  if d.devEnd > d.arenaEnd then d.devEnd else d.arenaEnd

end DevPartition

/-- The first device that `hits`, other than the one being replaced. -/
def TenantPool.firstHit (p : TenantPool) (excl : Option (Fin 8))
    (hits : DevPartition → Bool) : Option DevPartition :=
  Fin.findSome? fun i =>
    if some i = excl then none else (p.devices i).filter hits

end AmbaVirt.Pool
