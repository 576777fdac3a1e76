/-
Running a registered DAG: the guest binds memory handles to its ports
(`handle_run_registered_dag`, and the live path
`cavalry_proxy_run_dag_with_handles`).

Both calls start from the template of the registration and overwrite
the ports they bind. Between the two lie arbitrary calls of this and
other clients, so this module also has the proxy as a transition system,
with every call that changes its tables. All but the registration keep a
DAG or drop it, and the call names the ones it may drop (`apply_kept`).
-/
import AmbaVirt.Lib.Trans
import AmbaVirt.Cavalry.Register

namespace AmbaVirt.Cavalry

open Lib Function

-- ==== binding ports

/-- `struct amba_virt_cavalry_port_bind`. -/
structure PortBind where
  dagIdx : UInt32
  portIdx : UInt32
  handleId : UInt32
  offset : UInt32
  size : UInt32
  deriving DecidableEq

/-- `sizeof(struct amba_virt_cavalry_run_reg_desc)`. -/
def runRegDescSize : UInt64 := 648

/-- Entry `p` of the `ports` array at `o`. -/
def decodeBind (m : Mem) (o p : Nat) : PortBind where
  dagIdx := read32 m (o + 20 * p)
  portIdx := read32 m (o + 20 * p + 4)
  handleId := read32 m (o + 20 * p + 8)
  offset := read32 m (o + 20 * p + 12)
  size := read32 m (o + 20 * p + 16)

def RegisteredDag.mfd (dag : RegisteredDag) : RunDagsMfd where
  toRunHead := dag.head
  dviDramAddrFd := CAVALRY_DMABUF_FD_REPRESENT_PHYS
  ucodeCmdAddrFd := -1
  ucodeCmdAddrOffset := 0
  dagDesc := dag.templateDag

/-- Point port `p` of DAG `d` at physical memory. -/
def RunDagsMfd.bindPort (m : RunDagsMfd) (d p : Nat) (addr size : UInt64) :
    RunDagsMfd :=
  { m with
    dagDesc := update m.dagDesc d
      { m.dagDesc d with
        portDesc := update (m.dagDesc d).portDesc p
          { (m.dagDesc d).portDesc p with
            portDramAddr := addr, portDramSize := size }
        portDramAddrFd := update (m.dagDesc d).portDramAddrFd p
          CAVALRY_DMABUF_FD_REPRESENT_PHYS } }

def Proxy.bindHandle (s : Proxy) (t : Tenant) (clientCid sessionId : UInt32)
    (b : PortBind) (m : RunDagsMfd) : Except Errno RunDagsMfd := do
  let hend ← s.lookupHandle b.handleId clientCid sessionId
  refuseIf (b.size = 0 ∨ b.offset.toUInt64 + b.size.toUInt64 > hend.size.toUInt64) .EINVAL
  s.validateRange (hend.barOffset.toUInt64 + b.offset.toUInt64) b.size.toUInt64 clientCid
  refuseIf (b.dagIdx ≥ m.dagCnt ∨ b.portIdx ≥ (m.dagDesc b.dagIdx.toNat).portCnt) .EINVAL
  return m.bindPort b.dagIdx.toNat b.portIdx.toNat
    (t.physBase + hend.barOffset.toUInt64 + b.offset.toUInt64)
    b.size.toUInt64

def Proxy.bindHandles (s : Proxy) (t : Tenant) (clientCid sessionId : UInt32) :
    List PortBind → RunDagsMfd → Except Errno RunDagsMfd
  | [], m => .ok m
  | b :: l, m => do
      let m ← s.bindHandle t clientCid sessionId b m
      s.bindHandles t clientCid sessionId l m

-- ==== the two calls

/-- What a run hands to `CAVALRY_RUN_DAGS_MEMFD`, for which tenant, from
which registration, and the ports (DAG, port) it bound. -/
structure Dispatch where
  slot : Fin 128
  tenant : Tenant
  bound : List (Nat × Nat)
  mfd : RunDagsMfd

def RunDagsMfd.ports (m : RunDagsMfd) : List (Nat × Nat) :=
  (List.range m.dagCnt.toNat).flatMap fun d =>
    (List.range (m.dagDesc d).portCnt.toNat).map fun p => (d, p)

/-- `handle_run_registered_dag`, up to the dispatch. -/
def Proxy.handleRunRegisteredDag (s : Proxy) (req : Rpc) (clientCid : UInt32)
    (shm heap : Mem) : Except Errno Dispatch := do
  let tenant ← require (s.getTenant clientCid) .ENODEV
  refuseIf (tenant.shmMap ≠ .mapped) .ENODEV
  tenant.checkArena req runRegDescSize
  let slot ← s.ownedDag req clientCid
  let copy := hostArenaCopy req shm heap
  let portCnt := read32 copy 4
  refuseIf (portCnt > CAVALRY_MAX_PORTS) .EINVAL
  let binds := (List.range portCnt.toNat).map (decodeBind copy 8)
  let mfd ← s.bindHandles tenant clientCid req.sessionId binds (s.dags slot).mfd
  checkAll mfd.ports fun i =>
    refuseIf ((mfd.dagDesc i.1).portDramAddrFd i.2 = 0) .EINVAL
  return ⟨slot, tenant, binds.map fun b => (b.dagIdx.toNat, b.portIdx.toNat), mfd⟩

/-- The input port: the first of the handle's size, else port 0 of DAG
0. -/
def RunDagsMfd.inPort (m : RunDagsMfd) (size : UInt64) : Nat × Nat :=
  (m.ports.find? fun i =>
    ((m.dagDesc i.1).portDesc i.2).portDramSize == size).getD (0, 0)

/-- The output port: of the last DAG that has a port of the handle's
size other than the input port, the first such port; else the last port
of the last DAG. The C loop only breaks out of the ports of one DAG. -/
def RunDagsMfd.outPort (m : RunDagsMfd) (inPort : Nat × Nat) (size : UInt64) : Nat × Nat :=
  let last := m.dagCnt.toNat - 1
  (List.range m.dagCnt.toNat).foldl (fun out d =>
    match (List.range (m.dagDesc d).portCnt.toNat).find? fun p =>
        (d, p) != inPort && ((m.dagDesc d).portDesc p).portDramSize == size with
    | some p => (d, p)
    | none => out) (last, (m.dagDesc last).portCnt.toNat - 1)

/-- The registry lookup of the live path: the session is not asked
for. -/
def Proxy.liveDag (s : Proxy) (dagId clientCid : UInt32) : Except Errno (Fin 128) := do
  let i ← require (Fin.find? fun i =>
    (s.dags i).inUse && (s.dags i).dagId == dagId) .ENOENT
  refuseIf ((s.dags i).clientCid ≠ clientCid) .EACCES
  return i

/-- `cavalry_proxy_run_dag_with_handles`, up to the dispatch. -/
def Proxy.runDagWithHandles (s : Proxy) (dagId inHandleId outHandleId clientCid : UInt32) :
    Except Errno Dispatch := do
  let tenant ← require (s.getTenant clientCid) .ENODEV
  refuseIf (tenant.shmMap ≠ .mapped) .ENODEV
  refuseIf (dagId = 0 ∨ inHandleId = 0 ∨ outHandleId = 0 ∨ inHandleId = outHandleId) .EINVAL
  let inHend ← s.ownedHandle inHandleId clientCid
  s.validateRange inHend.barOffset.toUInt64 inHend.size.toUInt64 clientCid
  let outHend ← s.ownedHandle outHandleId clientCid
  s.validateRange outHend.barOffset.toUInt64 outHend.size.toUInt64 clientCid
  let slot ← s.liveDag dagId clientCid
  let mfd := (s.dags slot).mfd
  if mfd.dagCnt > 0 then
    let i := mfd.inPort inHend.size.toUInt64
    let mfd := mfd.bindPort i.1 i.2
      (tenant.physBase + inHend.barOffset.toUInt64) inHend.size.toUInt64
    let o := mfd.outPort i outHend.size.toUInt64
    let mfd := mfd.bindPort o.1 o.2
      (tenant.physBase + outHend.barOffset.toUInt64) outHend.size.toUInt64
    return ⟨slot, tenant, [i, o], mfd⟩
  else
    return ⟨slot, tenant, [], mfd⟩

inductive RunReq
  | registered (req : Rpc) (clientCid : UInt32) (shm heap : Mem)
  | withHandles (dagId inHandleId outHandleId clientCid : UInt32)

def Proxy.dispatch (s : Proxy) : RunReq → Except Errno Dispatch
  | .registered req cid shm heap => s.handleRunRegisteredDag req cid shm heap
  | .withHandles dag i o cid => s.runDagWithHandles dag i o cid

-- ==== the proxy over time

/-- Every call that changes the tables of the proxy. -/
inductive ProxyOp
  | registerTenant (cid : UInt32) (tenantIdx : Nat) (windowFd : Int)
      (shmMap : ShmMap) (shmSize physBase sliceOffset : UInt64)
      (guest : 2 < cid)
      (physFits : physBase.toNat + shmSize.toNat ≤ 2 ^ 64)
  | unregisterTenant (cid : UInt32)
  | setTenantBounds (cid poolBase poolSize arenaOffset arenaSize : UInt32)
  | restoreBindings (l : List KernelBinding) (mapped : Bool) (windowSize : UInt64)
  | clientDisconnect (cid : UInt32)
  | closeSession (cid sessionId : UInt32)
  | alloc (rounds : Nat) (size cid sessionId : UInt32)
  | free (barOffset cid : UInt32)
  | allocHandle (rounds : Nat) (size cid sessionId : UInt32)
  | freeHandle (handleId cid sessionId : UInt32)
  | registerDag (a : RegisterArgs)
  | unregisterDag (req : Rpc) (cid : UInt32)
  | setEnforcePathB (enforce : Bool)
  | device (simulated : Bool)

def Proxy.orKeep (s : Proxy) : Except Errno Proxy → Proxy
  | .ok s' => s'
  | .error _ => s

def Proxy.apply (s : Proxy) : ProxyOp → Proxy
  | .registerTenant cid idx fd map shm phys off hg hp =>
    s.orKeep (s.registerTenant cid idx fd map shm phys off hg hp)
  | .unregisterTenant cid => s.orKeep (s.unregisterTenant cid)
  | .setTenantBounds cid pb ps ao as =>
    s.orKeep (s.setTenantBounds cid pb ps ao as)
  | .restoreBindings l mapped w => (s.restoreBindings l mapped w).1
  | .clientDisconnect cid => s.clientDisconnect cid
  | .closeSession cid sid => s.closeSession cid sid
  | .alloc n size cid sid =>
    match s.alloc n size cid sid with
    | some r => s.orKeep (r.map Prod.snd)
    | none => s
  | .free off cid => s.orKeep (s.free off cid)
  | .allocHandle n size cid sid =>
    match s.allocHandle n size cid sid with
    | some r => r.2
    | none => s
  | .freeHandle hid cid sid => s.orKeep (s.freeHandle hid cid sid)
  | .registerDag a => s.orKeep ((s.handleRegisterDag a).map Prod.snd)
  | .unregisterDag req cid => s.orKeep (s.handleUnregisterDag req cid)
  | .setEnforcePathB enforce => { s with enforcePathB := enforce }
  | .device simulated => { s with simulated }

/-- The proxy from `cavalry_proxy_init` on. -/
def proxySystem : System Proxy ProxyOp where
  init s := (∀ i, s.tenants i = none) ∧ (∀ i, (s.slices i).inUse = false) ∧
    (∀ i, (s.handles i).inUse = false) ∧ ∀ i, (s.dags i).inUse = false
  step s op s' := s' = s.apply op

-- ==== calls that keep DAGs

/-- A tenant registered at `idx` takes the place of the client of the DAG. -/
def Proxy.evicts (s : Proxy) (cid : UInt32) (idx : Nat) (dag : RegisteredDag) : Bool :=
  if hidx : idx < 8 then
    (s.tenants ⟨idx, hidx⟩).any fun t => t.cid != cid && dag.clientCid == t.cid
  else false

/-- The DAGs a call may drop, by what the call names. The bindings that
are restored at start take every tenant's place. -/
def ProxyOp.mayDrop (s : Proxy) (dag : RegisteredDag) : ProxyOp → Bool
  | .registerTenant cid idx .. => s.evicts cid idx dag
  | .unregisterTenant cid | .clientDisconnect cid => dag.clientCid == cid
  | .restoreBindings .. => true
  | .closeSession cid sid => dag.sessionId == sid && (cid == 0 || dag.clientCid == cid)
  | .unregisterDag req _ => dag.dagId == req.dagId
  | _ => false

/-- Each DAG of `s` is unchanged, or one of `D` and dropped. -/
def DagsKept (D : RegisteredDag → Prop) (s s' : Proxy) : Prop :=
  ∀ i, s'.dags i = s.dags i ∨ D (s.dags i) ∧ (s'.dags i).inUse = false

variable {D E : RegisteredDag → Prop} {s s' : Proxy}

theorem DagsKept.refl (s : Proxy) : DagsKept D s s := fun _ => .inl rfl

theorem DagsKept.of_eq (h : s'.dags = s.dags) :
    DagsKept D s s' := fun i => .inl (congrFun h i)

theorem DagsKept.mono (h : DagsKept D s s') (hDE : ∀ dag, D dag → E dag) : DagsKept E s s' :=
  fun i => (h i).imp_right fun hi => ⟨hDE _ hi.1, hi.2⟩

theorem DagsKept.trans {s'' : Proxy} (h : DagsKept D s s') (h' : DagsKept D s' s'') :
    DagsKept D s s'' := by
  intro i
  rcases h' i with hi | ⟨hD, hi⟩
  · rw [hi]
    exact h i
  · rcases h i with he | ⟨hD', -⟩
    · exact .inr ⟨he ▸ hD, hi⟩
    · exact .inr ⟨hD', hi⟩

theorem DagsKept.orKeep {r : Except Errno Proxy}
    (h : ∀ s', r = .ok s' → DagsKept D s s') : DagsKept D s (s.orKeep r) := by
  cases r with
  | error e => exact DagsKept.refl s
  | ok s' => exact h s' rfl

theorem placeTenant_kept (s : Proxy) (i : Fin 8) (t : Tenant) : DagsKept D s (s.placeTenant i t) :=
  .of_eq rfl

theorem clientDisconnect_kept (s : Proxy) (cid : UInt32) :
    DagsKept (·.clientCid = cid) s (s.clientDisconnect cid) := by
  intro i
  unfold Proxy.clientDisconnect
  dsimp only
  split
  case isTrue h => exact .inr ⟨h, rfl⟩
  · exact .inl rfl

theorem closeSession_kept (s : Proxy) (cid sid : UInt32) :
    DagsKept (fun dag => dag.sessionId = sid ∧ (cid = 0 ∨ dag.clientCid = cid)) s
      (s.closeSession cid sid) := by
  intro i
  unfold Proxy.closeSession
  split
  · exact .inl rfl
  dsimp only
  split
  case isTrue h => exact .inr ⟨h, rfl⟩
  · exact .inl rfl

variable {cid : UInt32}

/-- What a registration that succeeds leaves: the new tenant at its
index, and no other entry of its CID. The tenant has a pool, so its slice
is not empty, and a tenant it evicts takes its DAGs along. -/
theorem registerTenant_ok {idx : Nat} {fd : Int} {m : ShmMap}
    {size phys off : UInt64} {hguest : 2 < cid}
    {hphys : phys.toNat + size.toNat ≤ 2 ^ 64}
    (h : s.registerTenant cid idx fd m size phys off hguest hphys = .ok s') :
    ∃ (hidx : idx < 8) (t : Tenant), t.cid = cid ∧ t.tenantIdx = idx ∧
      t.sliceOffset = off ∧ t.physBase = phys ∧ t.shmSize = size ∧
      s'.tenants = (s.placeTenant ⟨idx, hidx⟩ t).tenants ∧ size ≠ 0 ∧
      DagsKept (fun dag => s.evicts cid idx dag = true) s s' := by
  unfold Proxy.registerTenant at h
  split at h
  case isFalse => cases h
  case isTrue hidx =>
  split at h
  · cases h
  split at h
  · cases h
  split at h
  · cases h
  obtain ⟨pool, hpool, h⟩ := bind_ok.mp h
  have hsize : size ≠ 0 := by
    rintro rfl
    cases hpool
  dsimp only at h
  split at h
  · rw [pure_ok] at h
    subst h
    rename_i old hold
    split
    -- the tenant that held this index is evicted
    case isTrue hne =>
      refine ⟨hidx, _, rfl, rfl, rfl, rfl, rfl, rfl, hsize,
        (placeTenant_kept s _ _).trans ((clientDisconnect_kept _ _).mono fun dag hdag => ?_)⟩
      simp [Proxy.evicts, hidx, hold, hne, hdag]
    · exact ⟨hidx, _, rfl, rfl, rfl, rfl, rfl, rfl, hsize, .of_eq rfl⟩
  · rw [pure_ok] at h
    subst h
    exact ⟨hidx, _, rfl, rfl, rfl, rfl, rfl, rfl, hsize, .of_eq rfl⟩

theorem registerTenant_mapped {idx : Nat} {fd : Int} {m : ShmMap}
    {size phys off : UInt64} {hguest : 2 < cid}
    {hphys : phys.toNat + size.toNat ≤ 2 ^ 64}
    (h : s.registerTenant cid idx fd m size phys off hguest hphys = .ok s') :
    m ≠ .failed := by
  rintro rfl
  unfold Proxy.registerTenant at h
  split at h <;> cases h

theorem poolSizeForUsable_of_lt {size : UInt64} (h : CAVALRY_POOL_BASE.toUInt64 < size) :
    ∃ pool, poolSizeForUsable size = .ok pool := by
  have hroom : (if size - CAVALRY_POOL_BASE.toUInt64 > CAVALRY_POOL_SIZE.toUInt64 then
      CAVALRY_POOL_SIZE.toUInt64 else size - CAVALRY_POOL_BASE.toUInt64) ≠ 0 := by
    split
    · decide
    · exact sub_ne_zero.mpr (UInt64.ne_of_lt h).symm
  exact ⟨_, bind_ok.mpr ⟨(), refuseIf_ok.mpr (UInt64.not_le.mpr h),
    bind_ok.mpr ⟨(), refuseIf_ok.mpr hroom, rfl⟩⟩⟩

theorem registerTenant_of_registers {idx : Nat} {fd : Int} {m : ShmMap}
    {size phys off : UInt64} {hguest : 2 < cid}
    {hphys : phys.toNat + size.toNat ≤ 2 ^ 64} (h : s.Registers idx m size off) :
    ∃ s', s.registerTenant cid idx fd m size phys off hguest hphys = .ok s' := by
  obtain ⟨hidx, hmap, hfits, hwindow, hbase⟩ := h
  obtain ⟨pool, hpool⟩ := poolSizeForUsable_of_lt hbase
  have hin : ¬ (s.shmSize > 0 ∧ (off > s.shmSize ∨ size > s.shmSize - off)) := by
    rintro ⟨hpos, hout⟩
    rcases hwindow with h0 | ⟨hoff, hsize⟩
    · rw [h0] at hpos
      cases hpos
    · rcases hout with hout | hout
      · exact UInt64.not_le.mpr hout hoff
      · exact UInt64.not_le.mpr hout hsize
  unfold Proxy.registerTenant
  rw [dif_pos hidx, if_neg hmap, dif_neg (UInt64.not_lt.mpr hfits), if_neg hin, hpool]
  dsimp only [bind, Except.bind]
  split
  · exact ⟨_, rfl⟩
  · exact ⟨_, rfl⟩

theorem registerBindings_kept (l : List KernelBinding) (s : Proxy)
    (mapped : Bool) (w : UInt64) (hl : ∀ b ∈ l, 2 < b.cid) :
    DagsKept (fun _ => True) s (s.registerBindings mapped w l hl).1 := by
  induction l generalizing s with
  | nil => exact DagsKept.refl s
  | cons b l ih =>
    unfold Proxy.registerBindings
    dsimp only
    split
    · exact DagsKept.refl s
    case h_2 s' h =>
      obtain ⟨_, _, _, _, _, _, _, _, _, hkept⟩ := registerTenant_ok h
      exact (hkept.mono fun _ _ => trivial).trans (ih s' _)

theorem foldl_clientDisconnect_kept (l : List UInt32) (s : Proxy) :
    DagsKept (fun _ => True) s (l.foldl Proxy.clientDisconnect s) := by
  induction l generalizing s with
  | nil => exact DagsKept.refl s
  | cons cid l ih => exact ((clientDisconnect_kept s cid).mono fun _ _ => trivial).trans (ih _)

theorem restoreBindings_kept (s : Proxy) (l : List KernelBinding) (mapped : Bool) (w : UInt64) :
    DagsKept (fun _ => True) s (s.restoreBindings l mapped w).1 := by
  unfold Proxy.restoreBindings
  split
  · exact DagsKept.refl s
  split
  · exact DagsKept.refl s
  have hclear : DagsKept (fun _ => True) s { s with tenants := fun _ => none } :=
    .of_eq rfl
  exact hclear.trans ((foldl_clientDisconnect_kept _ _).trans
    (registerBindings_kept l _ mapped w _))

theorem free_dags {off : UInt32} (h : s.free off cid = .ok s') : s'.dags = s.dags := by
  obtain ⟨_, _, _, rfl⟩ := free_ok h
  rfl

variable {sid : UInt32}

theorem alloc_dags {n : Nat} {size off : UInt32}
    (h : s.alloc n size cid sid = some (.ok (off, s'))) :
    s'.dags = s.dags := by
  obtain ⟨_, _, rfl⟩ := alloc_ok h
  rfl

theorem allocHandle_dags {n : Nat} {size : UInt32} {r : Except Errno (UInt32 × UInt32)}
    (h : s.allocHandle n size cid sid = some (r, s')) :
    s'.dags = s.dags := by
  rcases allocHandle_ok h with rfl | ⟨off, s₁, halloc, hs'⟩
  · rfl
  have h₁ := alloc_dags halloc
  rcases hs' with rfl | hfree | ⟨_, _, rfl⟩
  · exact h₁
  · rw [free_dags hfree, h₁]
  · exact h₁

theorem freeHandle_dags {hid : UInt32} (h : s.freeHandle hid cid sid = .ok s') :
    s'.dags = s.dags := by
  obtain ⟨_, _, _, _, rfl, rfl | hfree⟩ := freeHandle_ok h
  · rfl
  · rw [free_dags hfree]

theorem unregisterDag_kept {req : Rpc}
    (h : s.handleUnregisterDag req cid = .ok s') : DagsKept (·.dagId = req.dagId) s s' := by
  simp only [Proxy.handleUnregisterDag, Proxy.ownedDag, guards, pure_ok] at h
  obtain ⟨_, ⟨i, hi, -, rfl⟩, rfl⟩ := h
  intro j
  by_cases hj : j = i
  · subst hj
    have hid := Fin.eq_true_of_find?_eq_some hi
    simp only [Bool.and_eq_true, beq_iff_eq] at hid
    exact .inr ⟨hid.2, by simp⟩
  · exact .inl (update_of_ne hj _ _)

theorem apply_kept (s : Proxy) {op : ProxyOp} (hop : ∀ a, op ≠ .registerDag a) :
    DagsKept (fun dag => op.mayDrop s dag = true) s (s.apply op) := by
  cases op with
  | registerTenant =>
    refine .orKeep fun s' h => ?_
    obtain ⟨_, _, _, _, _, _, _, _, _, hkept⟩ := registerTenant_ok h
    exact hkept
  | unregisterTenant cid =>
    refine .orKeep fun s' h => ?_
    unfold Proxy.unregisterTenant at h
    split at h
    · cases h
      exact (DagsKept.of_eq rfl).trans ((clientDisconnect_kept _ _).mono fun _ => beq_iff_eq.mpr)
    · cases h
  | setTenantBounds =>
    refine .orKeep fun s' h => ?_
    unfold Proxy.setTenantBounds at h
    split at h
    · cases h
      exact DagsKept.of_eq rfl
    · cases h
  | restoreBindings l mapped w => exact (restoreBindings_kept s l mapped w).mono fun _ _ => rfl
  | clientDisconnect cid => exact (clientDisconnect_kept s cid).mono fun _ => beq_iff_eq.mpr
  | closeSession cid sid =>
    refine (closeSession_kept s cid sid).mono fun dag h => ?_
    simpa [ProxyOp.mayDrop] using h
  | alloc n size cid sid =>
    dsimp only [Proxy.apply]
    split
    case h_1 r h =>
      cases r with
      | error e => exact DagsKept.refl s
      | ok r => exact DagsKept.of_eq (alloc_dags h)
    · exact DagsKept.refl s
  | free off cid =>
    rw [Proxy.apply]
    exact .orKeep fun s' h => .of_eq (free_dags h)
  | allocHandle n size cid sid =>
    dsimp only [Proxy.apply]
    split
    case h_1 r h => exact DagsKept.of_eq (allocHandle_dags h)
    · exact DagsKept.refl s
  | freeHandle hid cid sid =>
    rw [Proxy.apply]
    exact .orKeep fun s' h => .of_eq (freeHandle_dags h)
  | registerDag a => exact absurd rfl (hop a)
  | unregisterDag req cid =>
    rw [Proxy.apply]
    exact .orKeep fun s' h => (unregisterDag_kept h).mono fun _ => beq_iff_eq.mpr
  | setEnforcePathB => exact DagsKept.of_eq rfl
  | device => exact DagsKept.of_eq rfl

end AmbaVirt.Cavalry
