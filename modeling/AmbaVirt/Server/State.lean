/-
The state of the server (amba-virt-server.c) and what it keeps of the
kernel: the tables a message reads and writes, and the messages
themselves.

`Host` is the kernel's slice table as the server finds it. It carries
what `amba_virt_publish_slices` guarantees of the descriptors: slice `i`
has index `i`, and no physical range wraps. No call rewrites a
descriptor (`Kernel.apply_desc`).

A message is decoded by its type; `none` in place of a request is a
message too short for the structure of its type. The header fields that
are only echoed (`seq`, `shm_off`, `shm_len`), the request counters and
log lines are left out. What a message does outside these tables is a
`Call`.
-/
import AmbaVirt.Kernel.Slice
import AmbaVirt.Cavalry.Rpc
import AmbaVirt.Pool.Extent
import AmbaVirt.Gdma
import AmbaVirt.Server.Dma

namespace AmbaVirt.Server

open Lib Kernel Cavalry Pool Gdma

variable {n : Nat}

-- ==== the kernel

/-- The kernel's slice table, with what its publication guarantees. -/
structure Host (n : Nat) where
  ledger : Ledger n
  index_eq : ∀ i, (ledger.slices i).desc.index.toNat = i.val
  physFits : ∀ i, (ledger.slices i).desc.phys.toNat
    + (ledger.slices i).desc.usableSize.toUInt64.toNat ≤ 2 ^ 64

namespace Host

def apply (h : Host n) (op : SliceOp) : Host n where
  ledger := h.ledger.apply op
  index_eq i := by rw [apply_desc]; exact h.index_eq i
  physFits i := by rw [apply_desc]; exact h.physFits i

def slices (h : Host n) : Slices n := h.ledger.slices

/-- The descriptor of slice `i`. -/
def desc (h : Host n) (i : Fin n) : SliceDesc := (h.slices i).desc

theorem apply_desc (h : Host n) (op : SliceOp) (i : Fin n) : (h.apply op).desc i = h.desc i :=
  Kernel.apply_desc h.ledger op i

/-- `AMBA_VIRT_IOC_BIND_SLICE`: the descriptor of the slice now bound. -/
def bind (h : Host n) (cid : UInt32) (nonce : UInt64) : Except Errno SliceDesc :=
  (sliceBind h.slices cid nonce).map Prod.fst

variable {h : Host n} {cid : UInt32} {nonce : UInt64} {d : SliceDesc}

theorem bind_ok_iff : h.bind cid nonce = .ok d ↔
      ∃ s', sliceBind h.slices cid nonce = .ok (d, s') := by
  unfold bind
  cases sliceBind h.slices cid nonce with
  | error e => simp [Except.map]
  | ok r =>
    obtain ⟨d', s'⟩ := r
    simp [Except.map]

theorem guest_of_bind (hb : h.bind cid nonce = .ok d) : 2 < cid := by
  obtain ⟨s', hs⟩ := bind_ok_iff.mp hb
  obtain ⟨i, hcid, -⟩ := sliceBind_ok hs
  exact hcid

theorem fits_of_bind (hb : h.bind cid nonce = .ok d) :
    d.phys.toNat + d.usableSize.toUInt64.toNat ≤ 2 ^ 64 := by
  obtain ⟨s', hs⟩ := bind_ok_iff.mp hb
  obtain ⟨i, -, -, -, -, -, rfl, -⟩ := sliceBind_ok hs
  exact h.physFits i

theorem bind_spec (hb : h.bind cid nonce = .ok d) :
    ∃ i, (h.slices i).nonce = nonce ∧ nonce ≠ 0 ∧ d = h.desc i ∧
      (∀ j, j ≠ i → (h.slices j).boundCid ≠ cid) ∧
      ((h.slices i).boundCid = 0 ∨ (h.slices i).boundCid = cid) ∧
      (h.apply (.bind cid nonce)).slices =
        Function.update h.slices i { h.slices i with boundCid := cid } := by
  obtain ⟨s', hs⟩ := bind_ok_iff.mp hb
  obtain ⟨i, -, hne, hnonce, hfree, hother, hd, rfl⟩ := sliceBind_ok hs
  refine ⟨i, hnonce, hne, hd, hother, hfree, ?_⟩
  change (h.ledger.apply (.bind cid nonce)).slices = _
  simp only [Ledger.apply, show sliceBind h.ledger.slices cid nonce = _ from hs]

/-- `amba_virt_slice_get_bindings`. -/
def bindings (h : Host n) : List KernelBinding :=
  ((List.finRange n).filterMap fun i =>
    if (h.slices i).boundCid ≠ 0 then
      some ⟨(h.slices i).boundCid, h.desc i, h.physFits i⟩
    else none).take 8

/-- `AMBA_VIRT_IOC_ENUM_SLICES`. -/
def enumSlices (h : Host n) : List SliceDesc := List.ofFn h.desc

end Host

-- ==== live tap

/-- The `IavTapRunRequest` fields the checks read. -/
structure TapRun where
  sessionId : UInt32
  inHandleId : UInt32
  outHandleId : UInt32
  wantJpeg : Bool
  jpegHandleId : UInt32
  jpegCapacity : UInt32
  deriving DecidableEq

/-- A decoded `RpcEnvelope`. -/
inductive TapEnvelope
  | undecodable
  | run (apiMajor : UInt32) (req : TapRun)
  | otherBody (apiMajor : UInt32)
  deriving DecidableEq

-- ==== messages

/-- `struct amba_virt_mem_req`. -/
inductive MemOp
  | alloc (req : MemReq)
  | free (barOffset : UInt32)
  | other
  deriving DecidableEq

inductive Msg
  /-- Shorter than the header. -/
  | short
  | ping
  | shmNotify
  | echo
  | benchBurst
  | cavalryMock
  | gdma (kind : GdmaMsg) (copy : Option GdmaCopy)
  | cavalry (req : Option (UInt32 × Rpc))
  | iav (payload : List UInt8)
  | iavTap (env : TapEnvelope)
  | iavSlice (payload : List UInt8)
  | pools
  | devSetBounds (req : Option DevBoundsReq)
  | devReleaseBounds (devType : Option UInt32)
  | memAlloc (req : Option MemOp)
  | query
  | dmaSlaveCfg (req : Option SlaveCfg)
  | dmaSubmit (req : Option DmaSubmit)
  | dmaTerminate (channel : Option UInt32)
  | dmaRequest (fits : Bool)
  | sliceClaim (nonce : Option UInt64)
  | unknown (type : UInt32)
  deriving DecidableEq

/-- What a message makes the server do outside its tables. -/
inductive Call
  /-- `AMBA_VIRT_IOC_HOST_GDMA_COPY` that reached the engine. -/
  | gdma (job : GdmaJob)
  /-- A descriptor run on the Cavalry device. -/
  | runDags (mfd : RunDagsMfd)
  /-- A request put into the broker's queue. -/
  | iav (cid : UInt32) (payload : List UInt8)
  /-- A live step: a frame goes into the caller's handles. -/
  | tapStep (cid : UInt32) (req : TapRun)
  | iavSlice (cid : UInt32) (payload : List UInt8)
  | slaveCfg (cid : UInt32) (req : SlaveCfg)
  | slaveXfer (xfer : SlaveXfer)
  /-- A DMA request forwarded to the lease device of a CID. -/
  | lease (cid : UInt32)
  /-- The same for the lease a TCP session authenticated for. -/
  | sessionLease (leaseId : UInt32)

/-- What a message is answered with; a status of `none` is 0. -/
inductive Answer
  /-- Nothing is sent. -/
  | silent
  | pong | shmAck | echo | benchAck | cavalryMock
  | gdma (kind : GdmaMsg) (status : Option Errno)
  | cavalry (reply : Cavalry.Reply)
  | iavRefused (status : Errno)
  | tap (status : Option Errno)
  | iavSlice | pools | query | lease
  | setBounds (resp : DevBoundsResp)
  | releaseBounds (status : Option Errno)
  | memAlloc (resp : MemResp)
  | slaveCfg (status : Option Errno)
  | submit (status : Option Errno)
  | terminate (status : Option Errno)
  | claim (result : Except Errno SliceDesc)
  | authChallenge (granted : Bool)
  | refused (status : Errno)

-- ==== the state

/-- The globals of the server. `daemon` is the Cavalry proxy. -/
structure State (n : Nat) where
  host : Host n
  /-- The shared window, as the kernel knows it. -/
  window : Window
  infoShmPhys : UInt64
  infoShmSize : UInt32
  /-- `map != MAP_FAILED`. -/
  mapped : Bool
  geometryMatched : Bool := false
  activeSlices : List SliceDesc := []
  windowBytes : UInt64 := 0
  daemon : Daemon
  poolReady : Bool := false
  pools : Pools := .init 0
  acl : Acl
  channels : Channels := fun _ => {}
  /-- `g_tap_ring != NULL`. -/
  tapReady : Bool := false
  /-- The broker runs (`g_active`). -/
  brokerActive : Bool := false

namespace State

def proxy (s : State n) : Proxy := s.daemon.proxy

def setProxy (s : State n) (p : Proxy) : State n :=
  { s with daemon := { s.daemon with proxy := p } }

/-- `server_active_window_bytes`. -/
def activeWindowBytes (s : State n) : UInt64 :=
  if s.windowBytes ≠ 0 then s.windowBytes else s.infoShmSize.toUInt64

/-- `server_unbind_cid`. -/
def unbindCid (s : State n) (cid : UInt32) : State n :=
  if cid ≤ 2 then s else { s with host := s.host.apply (.unbindCid cid) }

/-- `virt_mem_pool_register_tenant`, refused before the pool is there. -/
def poolRegister (s : State n) (cid : UInt32) (d : SliceDesc) : Pools × Option Errno :=
  if s.poolReady then
    s.pools.registerTenant cid d.index d.usableSize d.usableSize
  else (s.pools, some .EINVAL)

end State

/-- What a message finds outside the state: the window's bytes, what the
devices answer, room in the broker's queue, what an authentication
challenge for a lease and epoch yields (lease and capability), and how
many rounds the searches of the pools may take. -/
structure MsgEnv where
  window : Mem := fun _ => 0
  rpc : RpcEnv := {}
  fuel : Nat := 512
  queueRoom : Bool := true
  xferStatus : Option Errno := none
  tapStatus : Option Errno := none
  challenge : UInt32 → UInt64 → Option (UInt32 × UInt64) := fun _ _ => none

-- ==== a host with slices

/-- Slice `i` of an 8 GiB window at 4 GiB. -/
def sampleDesc (i : Fin 8) : SliceDesc where
  index := i.val.toUInt32
  usableSize := 0x3FFFF000
  offset := 0x40000000 * i.val.toUInt64
  phys := 0x100000000 + 0x40000000 * i.val.toUInt64
  sliceSize := 0x40000000

def sampleHost : Host 8 where
  ledger := { slices := published sampleDesc }
  index_eq := by decide
  physFits := by decide

end AmbaVirt.Server
