/-
Path A (`handle_run_dags`): a guest hands over a whole command graph,
the proxy checks every address in a private copy of it, rebases the
addresses to the tenant's part of the exported window, and dispatches.

Checking and rebuilding are separate passes over the copy.
`path_a_confined` says that they read the same fields: each dispatched
offset is the slice offset plus the very address that passed the check.

The first `arena_len` bytes of the copy (`hostArenaCopy`) come from the
guest. A request may promise more DAGs than its arena holds; the bytes
past the end are then whatever the heap holds there.
-/
import AmbaVirt.Cavalry.Proxy

namespace AmbaVirt.Cavalry

open Lib

-- ==== the request

def Tenant.arenaSize (t : Tenant) : UInt32 :=
  if t.rpcArenaSize ≠ 0 then t.rpcArenaSize else CAVALRY_RPC_ARENA_SIZE

/-- `host_arena_copy`: `arena_len` bytes of the BAR at `bar_offset`, with
`heap` after them. -/
def hostArenaCopy (req : Rpc) (shm heap : Mem) : Mem := fun i =>
  if i < req.arenaLen.toNat then shm (req.barOffset.toNat + i) else heap i

/-- The checks all three handlers make before they copy the arena;
`least` is the size of the structure they expect in it. -/
def Tenant.checkArena (t : Tenant) (req : Rpc) (least : UInt64) : Except Errno Unit := do
  refuseIf (req.arenaLen = 0 ∨ req.arenaLen > t.arenaSize ∨ req.arenaLen.toUInt64 < least) .EMSGSIZE
  refuseIf (req.barOffset ≠ t.rpcArenaOffset ∧ req.barOffset ≠ 0 ∧
    req.barOffset ≠ CAVALRY_RPC_ARENA_OFFSET) .EINVAL
  refuseIf (req.barOffset.toUInt64 + req.arenaLen.toUInt64 > t.shmSize) .EFAULT

-- ==== validation

def Proxy.validateExtra (s : Proxy) (daddr size : UInt64)
    (clientCid : UInt32) : Except Errno Unit :=
  if daddr ≠ 0 then s.validateRange daddr size clientCid else .ok ()

def Proxy.validateDag (s : Proxy) (clientCid : UInt32) (dag : DagDesc) : Except Errno Unit := do
  refuseIf (dag.portCnt > CAVALRY_MAX_PORTS) .EINVAL
  s.validateRange dag.dviDramAddr dag.dviImgSize.toUInt64 clientCid
  s.validateExtra dag.extraPokeListDaddr (pokeListSize dag.extraPokeListCnt) clientCid
  s.validateExtra dag.extraDagDescCommonDaddr extraCommonSize clientCid
  s.validateExtra dag.extraDagDescListDaddr extraListSize clientCid
  checkAll (List.range dag.portCnt.toNat) fun p =>
    s.validateRange (dag.portDesc p).portDramAddr (dag.portDesc p).portDramSize clientCid

-- ==== rebuilding

def rebaseExtra (sliceOffset daddr : UInt64) : UInt64 :=
  if daddr ≠ 0 then sliceOffset + daddr else 0

def rebuildDag (t : Tenant) (src : DagDesc) : DagDescMfd where
  toDagHead := src.toDagHead
  dviDramAddrOffset := t.sliceOffset + src.dviDramAddr
  extraPokeListDramOffset := rebaseExtra t.sliceOffset src.extraPokeListDaddr
  extraDagDescCommonOffset :=
    rebaseExtra t.sliceOffset src.extraDagDescCommonDaddr
  extraDagDescListOffset := rebaseExtra t.sliceOffset src.extraDagDescListDaddr
  portDesc p :=
    if p < src.portCnt.toNat then
      { src.portDesc p with
        portDramAddr := t.sliceOffset + (src.portDesc p).portDramAddr }
    else src.portDesc p
  portDramAddrFd p := if p < src.portCnt.toNat then t.windowFd else 0

/-- The descriptor `handle_run_dags` hands to the driver. Of the header
it copies the fields below; the rest of the structure is zero. -/
def rebuildRun (t : Tenant) (run : RunDags) : RunDagsMfd where
  dagCnt := run.dagCnt
  priority := run.priority
  affinity := run.affinity
  hwType := run.hwType
  subSessionId := run.subSessionId
  sessionId := run.sessionId
  dviDramAddrFd := t.windowFd
  ucodeCmdAddrFd := -1
  ucodeCmdAddrOffset := 0
  dagDesc d := if d < run.dagCnt.toNat then rebuildDag t (run.dagDesc d) else {}

/-- `handle_run_dags`, up to the dispatch: the descriptor passed to
`CAVALRY_RUN_DAGS_MEMFD`, or the status of the refusal. -/
def Proxy.handleRunDags (s : Proxy) (req : Rpc) (clientCid : UInt32)
    (shm heap : Mem) : Except Errno RunDagsMfd := do
  refuseIf (s.enforcePathB = true) .EPERM
  let tenant ← require (s.getTenant clientCid) .ENODEV
  refuseIf (tenant.shmMap ≠ .mapped) .ENODEV
  tenant.checkArena req runDagsSize
  let runReq := decodeRunDags (hostArenaCopy req shm heap) 0
  refuseIf (runReq.dagCnt = 0 ∨ runReq.dagCnt > MAX_DAG_CNT_CAP) .EINVAL
  checkAll (List.range runReq.dagCnt.toNat) fun d =>
    s.validateDag clientCid (runReq.dagDesc d)
  return rebuildRun tenant runReq

-- ==== confinement

/-- `off`, as dispatched for `size` bytes, is the tenant's slice offset
plus the address `addr` that was checked, and stays inside one slice of
the tenant and inside the tenant's part of the window. -/
structure Placed (s : Proxy) (t : Tenant) (off addr size : UInt64) :
    Prop where
  validated : s.validateRange addr size t.cid = .ok ()
  exact : off.toNat = t.sliceOffset.toNat + addr.toNat
  inSlice : s.InSlice t.cid addr.toNat size.toNat
  inWindow : off.toNat + size.toNat ≤ t.sliceOffset.toNat + t.shmSize.toNat
  noWrap : t.sliceOffset.toNat + t.shmSize.toNat < 2 ^ 64

/-- Every address of a dispatched DAG is placed, and everything else in
it is as the guest sent it. -/
structure DagConfined (s : Proxy) (t : Tenant) (src : DagDesc)
    (dst : DagDescMfd) : Prop where
  head : dst.toDagHead = src.toDagHead
  dvi : Placed s t dst.dviDramAddrOffset src.dviDramAddr dst.dviImgSize.toUInt64
  poke : dst.extraPokeListDramOffset ≠ 0 →
    Placed s t dst.extraPokeListDramOffset src.extraPokeListDaddr
      (pokeListSize dst.extraPokeListCnt)
  common : dst.extraDagDescCommonOffset ≠ 0 →
    Placed s t dst.extraDagDescCommonOffset src.extraDagDescCommonDaddr
      extraCommonSize
  list : dst.extraDagDescListOffset ≠ 0 →
    Placed s t dst.extraDagDescListOffset src.extraDagDescListDaddr
      extraListSize
  port : ∀ p < dst.portCnt.toNat,
    Placed s t (dst.portDesc p).portDramAddr (src.portDesc p).portDramAddr
      (dst.portDesc p).portDramSize

variable {s : Proxy} {t : Tenant}

/-- A checked address, moved by the slice offset, is placed. -/
theorem placed_of_validated {addr size : UInt64} (ht : s.getTenant t.cid = some t)
    (h : s.validateRange addr size t.cid = .ok ()) :
    Placed s t (t.sliceOffset + addr) addr size := by
  obtain ⟨hshm, hslice⟩ := Proxy.validateRange_tenant ht h
  have hfits := t.fits
  have hexact : (t.sliceOffset + addr).toNat = t.sliceOffset.toNat + addr.toNat :=
    toNat_add_exact (by omega)
  refine ⟨h, hexact, hslice, ?_, hfits⟩
  omega

theorem placed_of_extra {daddr size : UInt64} (ht : s.getTenant t.cid = some t)
    (h : s.validateExtra daddr size t.cid = .ok ())
    (hne : rebaseExtra t.sliceOffset daddr ≠ 0) :
    Placed s t (rebaseExtra t.sliceOffset daddr) daddr size := by
  unfold rebaseExtra at hne ⊢
  unfold Proxy.validateExtra at h
  by_cases h0 : daddr ≠ 0
  · rw [if_pos h0] at h ⊢
    exact placed_of_validated ht h
  · rw [if_neg h0] at hne
    exact absurd rfl hne

/-- A DAG that passed the validation loop comes out of the rebuilding
loop confined. -/
theorem dagConfined_of_validated {dag : DagDesc}
    (ht : s.getTenant t.cid = some t) (h : s.validateDag t.cid dag = .ok ()) :
    DagConfined s t dag (rebuildDag t dag) := by
  simp only [Proxy.validateDag, guards, checkAll_ok] at h
  obtain ⟨-, hdvi, hpoke, hcommon, hlist, hports⟩ := h
  refine ⟨rfl, placed_of_validated ht hdvi, placed_of_extra ht hpoke,
    placed_of_extra ht hcommon, placed_of_extra ht hlist, ?_⟩
  intro p hp
  have hp' : p < dag.portCnt.toNat := hp
  have hport : (rebuildDag t dag).portDesc p = { dag.portDesc p with
          portDramAddr := t.sliceOffset + (dag.portDesc p).portDramAddr } :=
    if_pos hp'
  rw [hport]
  exact placed_of_validated ht (hports p (List.mem_range.mpr hp'))

/-- Path A confinement: whatever the guest's arena holds, every address
of every dispatched DAG lies in one slice of the caller and in the
caller's part of the window, and is the address that was checked. -/
theorem path_a_confined {s : Proxy} {req : Rpc} {cid : UInt32} {shm heap : Mem} {m : RunDagsMfd}
    (h : s.handleRunDags req cid shm heap = .ok m) :
    ∃ t, s.getTenant cid = some t ∧ t.cid = cid ∧
      m.dagCnt = (decodeRunDags (hostArenaCopy req shm heap) 0).dagCnt ∧
      ∀ d < m.dagCnt.toNat, DagConfined s t
          ((decodeRunDags (hostArenaCopy req shm heap) 0).dagDesc d)
          (m.dagDesc d) := by
  simp only [Proxy.handleRunDags, guards, checkAll_ok, pure_ok] at h
  obtain ⟨-, t, ht, -, -, -, hdags, rfl⟩ := h
  obtain rfl := Proxy.getTenant_cid ht
  refine ⟨t, ht, rfl, rfl, ?_⟩
  intro d hd
  have hdag : (rebuildRun t (decodeRunDags (hostArenaCopy req shm heap) 0)).dagDesc d
      = rebuildDag t ((decodeRunDags (hostArenaCopy req shm heap) 0).dagDesc d) :=
    if_pos hd
  rw [hdag]
  exact dagConfined_of_validated ht (hdags d (List.mem_range.mpr hd))

/-- A request of CID 7: one DAG with one port, in the arena of its BAR. -/
def sampleRun : Rpc :=
  { sessionId := 1, barOffset := CAVALRY_RPC_ARENA_OFFSET, arenaLen := 8920 }

/-- The BAR behind `sampleRun`: DVI image and port in the allocation. -/
def sampleRunShm : Mem :=
  let arena := CAVALRY_RPC_ARENA_OFFSET.toNat
  let dag := arena + 136
  let port := write64 (write64 (fun _ => 0) (dag + 600) 64) (dag + 592) 0x02001000
  let dvi := write64 (write32 (write32 port (dag + 44) 1) (dag + 28) 256) (dag + 16) 0x02000000
  write32 dvi (arena + 24) 1

/-- The request is dispatched, 4 GiB into the window, and confined. -/
theorem path_a_confined_sample :
    ∃ m, sampleProxy.handleRunDags sampleRun 7 sampleRunShm (fun _ => 0) = .ok m ∧
      ∃ t, sampleProxy.getTenant 7 = some t ∧ ∀ d < m.dagCnt.toNat, DagConfined sampleProxy t
          ((decodeRunDags (hostArenaCopy sampleRun sampleRunShm fun _ => 0)
            0).dagDesc d) (m.dagDesc d) := by
  obtain ⟨m, hm⟩ : ∃ m, sampleProxy.handleRunDags sampleRun 7 sampleRunShm
      (fun _ => 0) = .ok m := exists_ok_of_toBool (by decide +kernel)
  obtain ⟨t, ht, -, -, hd⟩ := path_a_confined hm
  exact ⟨m, hm, t, ht, hd⟩

end AmbaVirt.Cavalry
