/-
Registration of a DAG (Path B, `handle_register_dag`): the proxy copies
the guest's staging slice into host memory, rewrites the list pointers
inside the copy and keeps a template of the descriptors whose addresses
point into it.

Only the DVI image is checked against both ends of the staging slice.
Every other address is tested against its start alone, offsets of the
preload list are cut to 32 bits, and a port outside the slice keeps the
guest's value. Each rewritten pointer is logged (`Patch.relocs`).

The relocation reads counts and pointers out of the memory it is
patching. Two DAGs may share an extra descriptor list, and a preload
list may overlap the list that names it, so later reads can see earlier
writes.
-/
import AmbaVirt.Cavalry.PathA

namespace AmbaVirt.Cavalry

open Lib

-- ==== the request

/-- `struct amba_virt_cavalry_reg_dag_desc`, the two fields the proxy
reads. -/
structure RegDesc where
  stagingBarOffset : UInt32
  stagingSize : UInt32
  deriving DecidableEq

/-- `sizeof(struct amba_virt_cavalry_reg_dag_desc)`. -/
def regDescSize : UInt64 := 60

def decodeRegDesc (m : Mem) (o : Nat) : RegDesc where
  stagingBarOffset := read32 m o
  stagingSize := read32 m (o + 4)

/-- The checks made on each DAG. The sum is taken in 64 bits and may
wrap. -/
def RegDesc.checkDag (reg : RegDesc) (src : DagDesc) : Except Errno Unit := do
  refuseIf (src.portCnt > CAVALRY_MAX_PORTS) .EINVAL
  refuseIf (src.dviDramAddr < reg.stagingBarOffset.toUInt64 ∨ src.dviImgSize = 0 ∨
    (src.dviDramAddr - reg.stagingBarOffset.toUInt64)
      + src.dviImgSize.toUInt64 > reg.stagingSize.toUInt64) .EFAULT

-- ==== host memory

/-- What the host gives a registration: the offset and length
`CAVALRY_ALLOC_MEM` returned, whether `mmap` succeeded, and what the
mapped memory held before. -/
structure HostEnv where
  alloc : Option (UInt64 × UInt64) := none
  mapped : Bool := true
  contents : Mem := fun _ => 0

/-- `cavalry_proxy_overlaps_window`. -/
def Proxy.overlapsWindow (s : Proxy) (phys len : UInt64) : Bool :=
  s.shmSize != 0 && decide (phys < s.physBase + s.shmSize) &&
    decide (s.physBase < phys + len)

/-- The physical address of the host copy for registry slot `slot`. -/
def Proxy.hostPhys (s : Proxy) (slot : Fin 128) (env : HostEnv) : Except Errno UInt64 :=
  if s.simulated then do
    refuseIf (env.mapped = false) .ENOMEM
    return s.physBase + s.shmSize + (slot.val.toUInt64 + 1) <<< 20
  else do
    let mem ← require env.alloc .ENOMEM
    refuseIf (s.overlapsWindow mem.1 mem.2 = true) .ENOMEM
    refuseIf (env.mapped = false) .ENOMEM
    return mem.1

structure Staging where
  srcBase : UInt32
  size : UInt32
  hostPhys : UInt64

def Staging.hostCopy (g : Staging) (shm contents : Mem) : Mem := fun i =>
  if i < g.size.toNat then shm (g.srcBase.toNat + i) else contents i

/-- The copy's address for a guest address, in wrapping arithmetic. -/
def Staging.move (g : Staging) (daddr : UInt64) : UInt64 :=
  g.hostPhys + (daddr - g.srcBase.toUInt64)

/-- The `n` bytes at a guest address lie in the staging slice. -/
def Staging.Inside (g : Staging) (daddr : UInt64) (n : Nat) : Prop :=
  Span.Within ⟨daddr.toNat, n⟩ ⟨g.srcBase.toNat, g.size.toNat⟩
  deriving Decidable

/-- The `n` bytes at a physical address lie in the host copy. -/
def Staging.InCopy (g : Staging) (addr : UInt64) (n : Nat) : Prop :=
  Span.Within ⟨addr.toNat, n⟩ ⟨g.hostPhys.toNat, g.size.toNat⟩
  deriving Decidable

-- ==== relocation

structure Patch where
  mem : Mem
  relocs : List Reloc := []

def Patch.rewrite (p : Patch) (o : Nat) (r : Reloc) : Patch where
  mem := write64 p.mem o r.target
  relocs := r :: p.relocs

/-- `sizeof(struct extra_dag_desc_preload)`. -/
def preloadSize : Nat := 64

/-- `sizeof(struct extra_dag_desc_runtime)`. -/
def runtimeSize : Nat := 64

/-- `sizeof(struct cavalry_port_desc)`. -/
def portDescSize : Nat := 24

/-- `sizeof(struct extra_dag_desc_buildingblock)`. -/
def buildingBlockSize : Nat := 32

/-- The loop over the preload entries at `pl`, from entry `i`. The count
at `elist` is read again in every round and compared as a signed number,
so `2 ^ 31` rounds are all there can be. -/
def Staging.relocatePreloads (g : Staging) (elist pl : Nat) : Nat → Nat → Patch → Patch
  | 0, _, p => p
  | fuel + 1, i, p =>
    let cnt := read32 p.mem elist
    if cnt.toNat < 2 ^ 31 ∧ i < cnt.toNat then
      let entry := pl + preloadSize * i
      let daddr := read64 p.mem entry
      g.relocatePreloads elist pl fuel (i + 1) (if daddr ≥ g.srcBase.toUInt64 then
          p.rewrite entry ⟨daddr, g.move daddr, (read32 p.mem (entry + 12)).toNat⟩
        else p)
    else p

/-- The preload list of the descriptor list at `elist`. Its offset is
kept in 32 bits, and its entries are visited only if they fit. -/
def Staging.relocatePreloadList (g : Staging) (elist : Nat) (p : Patch) :
    Patch :=
  let cnt := read32 p.mem elist
  let daddr := read64 p.mem (elist + 256)
  if cnt ≠ 0 ∧ daddr ≠ 0 ∧ daddr ≥ g.srcBase.toUInt64 then
    let plOff := (daddr - g.srcBase.toUInt64).toUInt32
    let p' := p.rewrite (elist + 256) ⟨daddr, g.hostPhys + plOff.toUInt64, preloadSize * cnt.toNat⟩
    if plOff.toNat + (read32 p'.mem elist).toNat * preloadSize ≤ g.size.toNat then
      g.relocatePreloads elist plOff.toNat (2 ^ 31) 0 p'
    else p'
  else p

/-- One of the other list pointers: `cntAt` and `daddrAt` are where its
count and address stand, `elemSize` the bytes per unit of the count. -/
def Staging.relocateList (g : Staging) (cntAt daddrAt elemSize : Nat) (p : Patch) : Patch :=
  let cnt := read32 p.mem cntAt
  let daddr := read64 p.mem daddrAt
  if cnt ≠ 0 ∧ daddr ≠ 0 ∧ daddr ≥ g.srcBase.toUInt64 then
    p.rewrite daddrAt ⟨daddr, g.move daddr, elemSize * cnt.toNat⟩
  else p

def Staging.relocateDag (g : Staging) (src : DagDesc) (p : Patch) : Patch :=
  if src.extraDagDescListDaddr ≠ 0 ∧ src.extraDagDescListDaddr ≥ g.srcBase.toUInt64 then
    let elist := (src.extraDagDescListDaddr - g.srcBase.toUInt64).toUInt32.toNat
    if elist + extraListSize.toNat ≤ g.size.toNat then
      let loops := src.dagLoopCnt.toNat
      g.relocatePreloadList elist p
        |> g.relocateList (elist + 4) (elist + 264) runtimeSize
        |> g.relocateList (elist + 8) (elist + 272) (portDescSize * loops)
        |> g.relocateList (elist + 12) (elist + 280) (buildingBlockSize * loops)
    else p
  else p

def Staging.relocate (g : Staging) (dags : List DagDesc) (p : Patch) : Patch :=
  dags.foldl (fun p src => g.relocateDag src p) p

-- ==== template

/-- An extra descriptor: null, and anything below the staging slice,
becomes null. -/
def Staging.moveExtra (g : Staging) (daddr : UInt64) : UInt64 :=
  if daddr ≠ 0 ∧ daddr ≥ g.srcBase.toUInt64 then g.move daddr else 0

/-- A port is moved if it starts in the staging slice; the end of the
slice is computed in 32 bits. -/
def Staging.Moves (g : Staging) (port : PortDesc) : Prop :=
  port.portDramAddr ≥ g.srcBase.toUInt64 ∧ port.portDramAddr < (g.srcBase + g.size).toUInt64
  deriving Decidable

def Staging.movePort (g : Staging) (port : PortDesc) : PortDesc :=
  if g.Moves port then
    { port with portDramAddr := g.move port.portDramAddr }
  else port

def Staging.templateDag (g : Staging) (src : DagDesc) : DagDescMfd where
  toDagHead := src.toDagHead
  dviDramAddrOffset :=
    if src.dviDramAddr ≥ g.srcBase.toUInt64 then g.move src.dviDramAddr
    else src.dviDramAddr
  extraPokeListDramOffset := g.moveExtra src.extraPokeListDaddr
  extraDagDescCommonOffset := g.moveExtra src.extraDagDescCommonDaddr
  extraDagDescListOffset := g.moveExtra src.extraDagDescListDaddr
  portDesc p :=
    if p < src.portCnt.toNat ∧ p < CAVALRY_MAX_PORTS.toNat then
      g.movePort (src.portDesc p)
    else src.portDesc p
  portDramAddrFd p :=
    if p < src.portCnt.toNat ∧ p < CAVALRY_MAX_PORTS.toNat then
      CAVALRY_DMABUF_FD_REPRESENT_PHYS
    else 0

-- ==== the two calls

/-- A `REGISTER_DAG` request: the BAR when the arena is copied and when
the staging slice is copied (the guest may write in between), the heap
past the arena copy, and what the host gives. -/
structure RegisterArgs where
  req : Rpc
  clientCid : UInt32
  arenaShm : Mem
  heap : Mem := fun _ => 0
  stagingShm : Mem
  host : HostEnv := {}

namespace RegisterArgs

def copy (a : RegisterArgs) : Mem := hostArenaCopy a.req a.arenaShm a.heap

def reg (a : RegisterArgs) : RegDesc := decodeRegDesc a.copy 0

def run (a : RegisterArgs) : RunDags :=
  decodeRunDags a.copy regDescSize.toNat

def dags (a : RegisterArgs) : List DagDesc :=
  (List.range a.run.dagCnt.toNat).map a.run.dagDesc

def staging (a : RegisterArgs) (hostPhys : UInt64) : Staging :=
  ⟨a.reg.stagingBarOffset, a.reg.stagingSize, hostPhys⟩

def patched (a : RegisterArgs) (hostPhys : UInt64) : Patch :=
  let g := a.staging hostPhys
  g.relocate a.dags ⟨g.hostCopy a.stagingShm a.host.contents, []⟩

def entry (a : RegisterArgs) (dagId : UInt32) (hostPhys : UInt64) : RegisteredDag where
  inUse := true
  dagId
  clientCid := a.clientCid
  sessionId := a.req.sessionId
  hostMemSize := a.reg.stagingSize
  hostMemPhys := hostPhys
  hostMem := (a.patched hostPhys).mem
  head := a.run.toRunHead
  templateDag d :=
    if d < a.run.dagCnt.toNat then
      (a.staging hostPhys).templateDag (a.run.dagDesc d)
    else {}
  srcBase := a.reg.stagingBarOffset
  source := a.run.dagDesc
  relocs := (a.patched hostPhys).relocs

end RegisterArgs

/-- `handle_register_dag`: the new DAG id and state, or the status. -/
def Proxy.handleRegisterDag (s : Proxy) (a : RegisterArgs) : Except Errno (UInt32 × Proxy) := do
  let tenant ← require (s.getTenant a.clientCid) .ENODEV
  refuseIf (tenant.shmMap ≠ .mapped) .ENODEV
  tenant.checkArena a.req (regDescSize + runDagsSize)
  s.validateRange a.reg.stagingBarOffset.toUInt64 a.reg.stagingSize.toUInt64 a.clientCid
  refuseIf (a.run.dagCnt = 0 ∨ a.run.dagCnt > MAX_DAG_CNT_CAP) .EINVAL
  checkAll (List.range a.run.dagCnt.toNat) fun d =>
    a.reg.checkDag (a.run.dagDesc d)
  let slot ← require (Fin.find? fun i => !(s.dags i).inUse) .ENOMEM
  let hostPhys ← s.hostPhys slot a.host
  let id := nextId s.nextDagId
  return (id.1, { s with
    dags := Function.update s.dags slot (a.entry id.1 hostPhys)
    nextDagId := id.2 })

/-- The lookup of `handle_unregister_dag` and `handle_run_registered_dag`:
the first DAG in use with this id, if session and client are its own. -/
def Proxy.ownedDag (s : Proxy) (req : Rpc) (clientCid : UInt32) : Except Errno (Fin 128) := do
  let i ← require (Fin.find? fun i =>
    (s.dags i).inUse && (s.dags i).dagId == req.dagId) .EINVAL
  refuseIf ((s.dags i).sessionId ≠ req.sessionId ∨
    (clientCid ≠ 0 ∧ (s.dags i).clientCid ≠ clientCid)) .EACCES
  return i

/-- `handle_unregister_dag`. -/
def Proxy.handleUnregisterDag (s : Proxy) (req : Rpc) (clientCid : UInt32) :
    Except Errno Proxy := do
  let i ← s.ownedDag req clientCid
  return { s with
    dags := Function.update s.dags i { s.dags i with inUse := false } }

-- ==== what relocation writes

/-- How a logged pointer came about: its source was at or above the
staging slice, and its target is the moved source, with the offset
whole or cut to 32 bits. -/
structure Staging.Follows (g : Staging) (r : Reloc) : Prop where
  above : r.source ≥ g.srcBase.toUInt64
  target : r.target = g.move r.source ∨ r.target = g.hostPhys
      + (r.source - g.srcBase.toUInt64).toUInt32.toUInt64

variable {g : Staging} {n : Nat}

-- ==== moving in bounds

variable {daddr : UInt64}

/-- An address in the staging slice is an exact distance into it. -/
theorem Staging.Inside.offset (h : g.Inside daddr n) :
    (daddr - g.srcBase.toUInt64).toNat = daddr.toNat - g.srcBase.toNat := by
  rw [UInt64.toNat_sub_of_le, UInt32.toNat_toUInt64]
  exact h.1

/-- What lay in the staging slice lies in the copy after the move. -/
theorem Staging.Inside.inCopy (hfits : g.hostPhys.toNat + g.size.toNat < 2 ^ 64)
    (h : g.Inside daddr n) : g.InCopy (g.move daddr) n := by
  have hoff := h.offset
  obtain ⟨hlo, hhi⟩ := h
  dsimp only at hlo hhi
  have hmove : (g.move daddr).toNat = g.hostPhys.toNat + (daddr.toNat - g.srcBase.toNat) := by
    unfold move
    rw [toNat_add_exact (by omega), hoff]
  constructor <;> dsimp only <;> omega

theorem Staging.Inside.move_cut (h : g.Inside daddr n) :
    g.hostPhys + (daddr - g.srcBase.toUInt64).toUInt32.toUInt64 = g.move daddr := by
  have hoff := h.offset
  have hsize := g.size.toNat_lt
  obtain ⟨hlo, hhi⟩ := h
  dsimp only at hlo hhi
  congr 1
  apply UInt64.toNat_inj.mp
  rw [UInt32.toNat_toUInt64, UInt64.toNat_toUInt32, Nat.mod_eq_of_lt]
  omega

theorem Staging.Follows.inCopy {r : Reloc}
    (hfits : g.hostPhys.toNat + g.size.toNat < 2 ^ 64) (hr : g.Follows r)
    (h : g.Inside r.source r.size) : g.InCopy r.target r.size := by
  rcases hr.target with ht | ht
  · rw [ht]
    exact h.inCopy hfits
  · rw [ht, h.move_cut]
    exact h.inCopy hfits

end AmbaVirt.Cavalry
