/-
The data of the Cavalry proxy (tools/cavalry_proxy.c): tenants, slices,
handles, registered DAGs, and the descriptors of the Cavalry driver
(cavalry_ioctl.h) it reads out of guest memory and rebuilds.

A `Tenant` cannot be built with a CID of the host or the hypervisor
(0, 1, 2), which the kernel's bind and `cavalry_proxy_restore_bindings`
refuse, nor with a window or a physical range that wraps 64 bits, which
`cavalry_proxy_register_tenant` and the kernel check. The first matters:
the proxy reads client CID 0 as "no tenant", a wildcard. Entries with
`in_use` clear are `none` (tenants) or carry `inUse := false`.

Descriptors are decoded from bytes at the offsets the C compiler gives
their fields on a 64-bit host. `reverse_dep_dag_id` and `poke_desc` are
copied and never read, and stay functions of their index.
-/
import AmbaVirt.Basic
import AmbaVirt.Lib.Word
import AmbaVirt.Lib.Bytes

namespace AmbaVirt.Cavalry

open Lib

-- ==== constants

def CAVALRY_POOL_BASE : UInt32 := 0x02000000
def CAVALRY_POOL_SIZE : UInt32 := 0x3E000000
def CAVALRY_RPC_ARENA_OFFSET : UInt32 := 0x01F00000

def CAVALRY_MAX_PORTS : UInt32 := 32

def MAX_DAG_CNT_CAP : UInt32 := 128

def CAVALRY_DMABUF_FD_REPRESENT_PHYS : Int := -1133789

/-- `sizeof(struct cavalry_run_dags)`. -/
def runDagsSize : UInt64 := 136

/-- `sizeof(struct cavalry_dag_desc)`. -/
def dagDescSize : Nat := 8784

/-- `sizeof(struct cavalry_poke_desc)`. -/
def pokeDescSize : UInt64 := 16

/-- `sizeof(struct extra_dag_desc_common)`. -/
def extraCommonSize : UInt64 := 512

/-- `sizeof(struct extra_dag_desc_list)`. -/
def extraListSize : UInt64 := 768

-- ==== tenants

/-- What `shm_map` can be: `MAP_FAILED`, `NULL` or a mapping. -/
inductive ShmMap
  | failed | null | mapped
  deriving DecidableEq

/-- `struct cavalry_tenant_ctx` of an entry in use. -/
structure Tenant where
  cid : UInt32
  tenantIdx : Nat
  windowFd : Int
  shmMap : ShmMap
  shmSize : UInt64
  physBase : UInt64
  sliceOffset : UInt64
  cavalryPoolBase : UInt32
  cavalryPoolSize : UInt32
  rpcArenaOffset : UInt32
  rpcArenaSize : UInt32
  /-- Only guests are tenants. -/
  guest : 2 < cid
  /-- The tenant's part of the exported window does not wrap. -/
  fits : sliceOffset.toNat + shmSize.toNat < 2 ^ 64
  /-- Neither does its physical range. -/
  physFits : physBase.toNat + shmSize.toNat ≤ 2 ^ 64

/-- `struct cavalry_slice_entry`: one allocation of a client. -/
structure SliceEntry where
  barOffset : UInt32 := 0
  size : UInt32 := 0
  clientCid : UInt32 := 0
  sessionId : UInt32 := 0
  inUse : Bool := false
  deriving DecidableEq, Inhabited

/-- `struct cavalry_handle_entry`. -/
structure HandleEntry where
  handleId : UInt32 := 0
  barOffset : UInt32 := 0
  size : UInt32 := 0
  clientCid : UInt32 := 0
  sessionId : UInt32 := 0
  inUse : Bool := false
  deriving DecidableEq, Inhabited

/-- `struct amba_virt_cavalry_rpc`, the request fields. -/
structure Rpc where
  sessionId : UInt32 := 0
  dagId : UInt32 := 0
  barOffset : UInt32 := 0
  size : UInt32 := 0
  arenaLen : UInt32 := 0
  deriving DecidableEq, Inhabited

-- ==== descriptors

/-- `struct cavalry_port_desc`. -/
structure PortDesc where
  portDramAddr : UInt64 := 0
  portDramSize : UInt64 := 0
  portBoffsetInDag : UInt32 := 0
  portDaddrIncrement : UInt32 := 0
  deriving DecidableEq, Inhabited

/-- `struct cavalry_poke_desc`. -/
structure PokeDesc where
  pokeVal : UInt32 := 0
  pokeVaddr : UInt32 := 0
  pokeBsize : UInt32 := 0
  deriving DecidableEq, Inhabited

/-- The fields `struct cavalry_dag_desc` and `struct
cavalry_dag_desc_mfd` share and the proxy copies unchanged. -/
structure DagHead where
  dagLoopCnt : UInt32 := 0
  usePingPongVmem : UInt32 := 0
  runWithChecksum : UInt32 := 0
  isOrcPdxsSet : UInt32 := 0
  orcPdxs : UInt32 := 0
  dagType : UInt32 := 0
  depCnt : UInt32 := 0
  dviDagSize : UInt32 := 0
  dviImgVaddr : UInt32 := 0
  dviImgSize : UInt32 := 0
  dviDagVaddr : UInt32 := 0
  privateScratchpadOffset : UInt32 := 0
  reverseDepDagCnt : UInt32 := 0
  portCnt : UInt32 := 0
  pokeCnt : UInt32 := 0
  extraPokeListCnt : UInt32 := 0
  reverseDepDagId : Nat → UInt16 := fun _ => 0
  pokeDesc : Nat → PokeDesc := fun _ => {}

/-- `struct cavalry_dag_desc`, as a guest writes it. -/
structure DagDesc extends DagHead where
  dviDramAddr : UInt64 := 0
  extraPokeListDaddr : UInt64 := 0
  extraDagDescCommonDaddr : UInt64 := 0
  extraDagDescListDaddr : UInt64 := 0
  portDesc : Nat → PortDesc := fun _ => {}

/-- `struct cavalry_dag_desc_mfd`, as the driver gets it. -/
structure DagDescMfd extends DagHead where
  dviDramAddrOffset : UInt64 := 0
  extraPokeListDramOffset : UInt64 := 0
  extraDagDescCommonOffset : UInt64 := 0
  extraDagDescListOffset : UInt64 := 0
  portDesc : Nat → PortDesc := fun _ => {}
  portDramAddrFd : Nat → Int := fun _ => 0

/-- The scheduling fields at the head of a run request, the same in
`struct cavalry_run_dags` and `struct cavalry_run_dags_mfd`. -/
structure RunHead where
  dagCnt : UInt32 := 0
  isEncrypt : UInt32 := 0
  isResume : UInt32 := 0
  subSessionId : UInt32 := 0
  sessionId : UInt32 := 0
  nid : UInt32 := 0
  affinity : UInt32 := 0
  priority : UInt8 := 0
  hwType : UInt8 := 0
  noAutoResume : UInt32 := 0
  deriving DecidableEq, Inhabited

/-- `struct cavalry_run_dags`, as a guest writes it. -/
structure RunDags extends RunHead where
  dagDesc : Nat → DagDesc := fun _ => {}

/-- `struct cavalry_run_dags_mfd`, as the driver gets it. -/
structure RunDagsMfd extends RunHead where
  dviDramAddrFd : Int := 0
  ucodeCmdAddrFd : Int := 0
  ucodeCmdAddrOffset : UInt64 := 0
  dagDesc : Nat → DagDescMfd := fun _ => {}

/-- The bytes of a poke list of `cnt` entries; a list with no count is
one word. -/
def pokeListSize (cnt : UInt32) : UInt64 :=
  if cnt ≠ 0 then cnt.toUInt64 * pokeDescSize else 4

-- ==== decoding

/-- Entry `p` of the `port_desc` array at `o`. -/
def decodePort (m : Mem) (o p : Nat) : PortDesc where
  portDramAddr := read64 m (o + 24 * p)
  portDramSize := read64 m (o + 24 * p + 8)
  portBoffsetInDag := read32 m (o + 24 * p + 16)
  portDaddrIncrement := read32 m (o + 24 * p + 20)

/-- Entry `k` of the `poke_desc` array at `o`. -/
def decodePoke (m : Mem) (o k : Nat) : PokeDesc where
  pokeVal := read32 m (o + 16 * k)
  pokeVaddr := read32 m (o + 16 * k + 4)
  pokeBsize := read32 m (o + 16 * k + 8)

/-- The `struct cavalry_dag_desc` at `o`. -/
def decodeDag (m : Mem) (o : Nat) : DagDesc where
  dagLoopCnt := bits (read32 m o) 0 16
  usePingPongVmem := bits (read32 m o) 16 1
  runWithChecksum := bits (read32 m o) 17 1
  isOrcPdxsSet := bits (read32 m o) 18 1
  orcPdxs := bits (read32 m o) 19 3
  dagType := bits (read32 m o) 22 3
  depCnt := read32 m (o + 4)
  dviDagSize := read32 m (o + 8)
  dviDramAddr := read64 m (o + 16)
  dviImgVaddr := read32 m (o + 24)
  dviImgSize := read32 m (o + 28)
  dviDagVaddr := read32 m (o + 32)
  privateScratchpadOffset := read32 m (o + 36)
  reverseDepDagCnt := read32 m (o + 40)
  portCnt := read32 m (o + 44)
  pokeCnt := read32 m (o + 48)
  extraPokeListCnt := read32 m (o + 52)
  extraPokeListDaddr := read64 m (o + 56)
  extraDagDescCommonDaddr := read64 m (o + 64)
  extraDagDescListDaddr := read64 m (o + 72)
  reverseDepDagId k := read16 m (o + 80 + 2 * k)
  portDesc := decodePort m (o + 592)
  pokeDesc := decodePoke m (o + 6736)

/-- The `struct cavalry_run_dags` at `o`, descriptors included. -/
def decodeRunDags (m : Mem) (o : Nat) : RunDags where
  dagCnt := read32 m (o + 24)
  isEncrypt := bits (read32 m (o + 32)) 0 1
  isResume := bits (read32 m (o + 32)) 1 1
  subSessionId := bits (read32 m (o + 32)) 24 8
  sessionId := read32 m (o + 36)
  nid := read32 m (o + 40)
  affinity := read32 m (o + 44)
  priority := m (o + 48)
  hwType := m (o + 49)
  noAutoResume := bits (read32 m (o + 52)) 0 1
  dagDesc d := decodeDag m (o + 136 + dagDescSize * d)

-- ==== registered DAGs

/-- A list pointer the registration rewrote in the host copy: the
guest's value, the value written and the bytes of the list. -/
structure Reloc where
  source : UInt64
  target : UInt64
  size : Nat
  deriving DecidableEq

/-- `struct cavalry_registered_dag`. The last three fields are not in
the C structure: they keep what the registration was given and did, for
the statements about it. -/
structure RegisteredDag where
  inUse : Bool := false
  dagId : UInt32 := 0
  clientCid : UInt32 := 0
  sessionId : UInt32 := 0
  hostMemSize : UInt32 := 0
  hostMemPhys : UInt64 := 0
  hostMem : Mem := fun _ => 0
  head : RunHead := {}
  templateDag : Nat → DagDescMfd := fun _ => {}
  srcBase : UInt32 := 0
  source : Nat → DagDesc := fun _ => {}
  relocs : List Reloc := []

/-- The globals of cavalry_proxy.c. `simulated` is the mode with
neither device open (`g_fd_cav < 0 && g_fd_shm < 0 && g_shm_size > 0`). -/
structure Proxy where
  enforcePathB : Bool := false
  simulated : Bool := false
  windowFd : Int := -1
  shmSize : UInt64 := 0
  physBase : UInt64 := 0
  tenants : Fin 8 → Option Tenant := fun _ => none
  slices : Fin 512 → SliceEntry := fun _ => {}
  handles : Fin 1024 → HandleEntry := fun _ => {}
  nextHandleId : UInt32 := 1
  dags : Fin 128 → RegisteredDag := fun _ => {}
  nextDagId : UInt32 := 1

end AmbaVirt.Cavalry
