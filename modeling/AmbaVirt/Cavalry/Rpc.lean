/-
The entry point of the Cavalry proxy (`cavalry_proxy_handle_rpc`): one
request of one client, dispatched on its opcode.

`Daemon` adds to the tables the drain flag, whether `/dev/cavalry` is
open, and where the host copies of registered DAGs are mapped. Calls are
atomic here; the C code takes one mutex per table.

A registration maps its host copy at an address the kernel picks and
patches it in place. `Register` has the patching as a function on all
of memory from there on and leaves open what lies past the copy. Here
those bytes are the host copies of the other DAGs mapped above
(`Proxy.hostView`), and what the patching leaves there is what those
copies hold afterwards (`Proxy.hostSettle`).
-/
import AmbaVirt.Cavalry.Run

namespace AmbaVirt.Cavalry

open Lib

-- ==== the opcodes

/-- `enum vcav_opcode`. -/
inductive Opcode
  | getVersion | getChipId | getStatus | queryBuf | allocMem | freeMem
  | syncCache | startVp | stopVp | runDags | queryUcodeCmdSize
  | closeSession | registerDag | unregisterDag | allocHandle | freeHandle
  | runRegisteredDag
  deriving DecidableEq

def Opcode.ofCode (code : UInt32) : Option Opcode :=
  match code.toNat with
  | 1 => some .getVersion
  | 2 => some .getChipId
  | 3 => some .getStatus
  | 4 => some .queryBuf
  | 5 => some .allocMem
  | 6 => some .freeMem
  | 7 => some .syncCache
  | 8 => some .startVp
  | 9 => some .stopVp
  | 10 => some .runDags
  | 11 => some .queryUcodeCmdSize
  | 20 => some .closeSession
  | 21 => some .registerDag
  | 22 => some .unregisterDag
  | 23 => some .allocHandle
  | 24 => some .freeHandle
  | 25 => some .runRegisteredDag
  | _ => none

/-- The response fields of `struct amba_virt_cavalry_rpc`; a status of 0
is `none`. -/
structure Reply where
  opcode : UInt32
  status : Option Errno := none
  dagId : UInt32 := 0
  barOffset : UInt32 := 0
  size : UInt32 := 0
  rval : UInt32 := 0
  execTicks : UInt32 := 0
  chipId : UInt32 := 0
  deriving DecidableEq

def Reply.fail (opcode : UInt32) (e : Errno) : Reply :=
  { opcode, status := some e }

-- ==== the outside

/-- What `/dev/cavalry` answers. -/
structure Device where
  reopens : Bool := false
  version : Except Errno Unit := .ok ()
  chipId : Except Errno UInt32 := .ok 0
  status : Except Errno UInt32 := .ok 1
  startVp : Except Errno Unit := .ok ()
  ucodeCmdSize : UInt32 → UInt32 → Except Errno UInt32 := fun _ _ => .ok 0
  /-- `CAVALRY_RUN_DAGS_MEMFD`: the error, `rval` and `exec_total_ticks`. -/
  run : RunDagsMfd → Option Errno × UInt32 × UInt32 := fun _ => (none, 0, 1)

/-- What one request finds outside the tables: the guest's BAR when the
arena and when the staging slice is copied, the heap past the arena
copy, the device, the host memory a registration gets and the address it
is mapped at, and the rest of the process above that address. `rounds`
bounds the allocator's search. -/
structure RpcEnv where
  rounds : Nat := 512
  shm : Mem := fun _ => 0
  heap : Mem := fun _ => 0
  stagingShm : Mem := fun _ => 0
  device : Device := {}
  alloc : Option (UInt64 × UInt64) := none
  mapped : Bool := true
  base : Nat := 0
  rest : Mem := fun _ => 0

-- ==== host copies in place

/-- The byte at `addr` of host copy `j`, mapped at `virt`. -/
def RegisteredDag.Covers (dag : RegisteredDag) (virt addr : Nat) : Prop :=
  dag.inUse = true ∧ virt ≤ addr ∧ addr < virt + dag.hostMemSize.toNat
  deriving Decidable

/-- Process memory from `base` on: the host copies mapped there, and
`rest` between them. -/
def Proxy.hostView (s : Proxy) (virt : Fin 128 → Nat) (base : Nat) (rest : Mem) : Mem := fun o =>
  match Fin.find? fun j => decide ((s.dags j).Covers (virt j) (base + o)) with
  | some j => (s.dags j).hostMem (base + o - virt j)
  | none => rest o

/-- Host copy `dag` once the memory from `base` on is `m`. -/
def RegisteredDag.settle (dag : RegisteredDag) (virt base : Nat) (m : Mem) :
    RegisteredDag :=
  { dag with
    hostMem := fun k =>
      if base ≤ virt + k ∧ k < dag.hostMemSize.toNat then m (virt + k - base)
      else dag.hostMem k }

/-- The registry once the memory from `base` on is `m`, where `slot` is
mapped. -/
def Proxy.hostSettle (s : Proxy) (virt : Fin 128 → Nat) (slot : Fin 128)
    (base : Nat) (m : Mem) : Proxy :=
  { s with
    dags := fun j =>
      if j ≠ slot ∧ (s.dags j).inUse = true then
        (s.dags j).settle (virt j) base m
      else s.dags j }

-- ==== the daemon

/-- The globals `cavalry_proxy_handle_rpc` looks at. -/
structure Daemon where
  proxy : Proxy := {}
  /-- `g_draining`. -/
  draining : Bool := false
  /-- `g_fd_cav >= 0`. -/
  cavOpen : Bool := false
  /-- `host_mem_virt` of each registered DAG. -/
  virt : Fin 128 → Nat := fun _ => 0

/-- Neither the device nor the simulation is there to serve requests. -/
def Daemon.offline (d : Daemon) : Bool := !d.cavOpen && !d.proxy.simulated

def Daemon.reopen (d : Daemon) (env : RpcEnv) : Daemon :=
  if d.offline && env.device.reopens then { d with cavOpen := true } else d

def Daemon.registerArgs (d : Daemon) (req : Rpc) (cid : UInt32) (env : RpcEnv) : RegisterArgs where
  req
  clientCid := cid
  arenaShm := env.shm
  heap := env.heap
  stagingShm := env.stagingShm
  host :=
    { alloc := env.alloc, mapped := env.mapped
      contents := d.proxy.hostView d.virt env.base env.rest }

/-- `handle_register_dag`, and what its patching leaves in memory. -/
def Daemon.registerDag (d : Daemon) (req : Rpc) (cid : UInt32)
    (env : RpcEnv) : Except Errno (UInt32 × Daemon) := do
  let a := d.registerArgs req cid env
  let (id, s) ← d.proxy.handleRegisterDag a
  let slot ← require (Fin.find? fun i => !(d.proxy.dags i).inUse) .ENOMEM
  return (id, { d with
    proxy := s.hostSettle d.virt slot env.base (s.dags slot).hostMem
    virt := Function.update d.virt slot env.base })

def Daemon.run (d : Daemon) (opcode : UInt32) (env : RpcEnv) (mfd : RunDagsMfd) : Reply :=
  if d.proxy.simulated then { opcode, rval := 0, execTicks := 1 }
  else
    match env.device.run mfd with
    | (some e, rval, _) => { opcode, status := some e, rval }
    | (none, rval, execTicks) => { opcode, rval, execTicks }

/-- The `switch` of `cavalry_proxy_handle_rpc`. `none` is an allocation
whose search is still running. -/
def Daemon.serve (d : Daemon) (code : UInt32) (req : Rpc) (cid : UInt32)
    (env : RpcEnv) : Opcode → Option (Reply × Daemon)
  | .getVersion =>
    match env.device.version with
    | .ok _ => some ({ opcode := code }, d)
    | .error e => some (.fail code e, d)
  | .getChipId =>
    match env.device.chipId with
    | .ok chipId => some ({ opcode := code, chipId }, d)
    | .error e => some (.fail code e, d)
  | .getStatus =>
    match env.device.status with
    | .ok rval => some ({ opcode := code, rval }, d)
    | .error e => some (.fail code e, d)
  | .queryBuf =>
    let pool :=
      match d.proxy.getTenant cid with
      | some t =>
        if t.cavalryPoolSize ≠ 0 then (t.cavalryPoolBase, t.cavalryPoolSize)
        else (CAVALRY_POOL_BASE, CAVALRY_POOL_SIZE)
      | none => (CAVALRY_POOL_BASE, CAVALRY_POOL_SIZE)
    some ({ opcode := code, barOffset := pool.1, size := pool.2 }, d)
  | .queryUcodeCmdSize =>
    match env.device.ucodeCmdSize req.barOffset req.size with
    | .ok rval => some ({ opcode := code, rval }, d)
    | .error e => some (.fail code e, d)
  | .allocMem =>
    match d.proxy.alloc env.rounds req.size cid req.sessionId with
    | none => none
    | some (.error e) =>
      some ({ opcode := code, status := some e, size := req.size }, d)
    | some (.ok (barOffset, s)) =>
      some ({ opcode := code, barOffset, size := req.size }, { d with proxy := s })
  | .closeSession =>
    some ({ opcode := code }, { d with proxy := d.proxy.closeSession cid req.sessionId })
  | .freeMem =>
    match d.proxy.free req.barOffset cid with
    | .ok s => some ({ opcode := code }, { d with proxy := s })
    | .error e => some (.fail code e, d)
  | .registerDag =>
    match d.registerDag req cid env with
    | .ok (dagId, d') => some ({ opcode := code, dagId }, d')
    | .error e => some (.fail code e, d)
  | .unregisterDag =>
    match d.proxy.handleUnregisterDag req cid with
    | .ok s => some ({ opcode := code }, { d with proxy := s })
    | .error e => some (.fail code e, d)
  | .allocHandle =>
    match d.proxy.allocHandle env.rounds req.size cid req.sessionId with
    | none => none
    | some (.error e, s) => some (.fail code e, { d with proxy := s })
    | some (.ok (dagId, barOffset), s) =>
      some ({ opcode := code, dagId, barOffset, size := req.size }, { d with proxy := s })
  | .freeHandle =>
    match d.proxy.freeHandle req.dagId cid req.sessionId with
    | .ok s => some ({ opcode := code }, { d with proxy := s })
    | .error e => some (.fail code e, d)
  | .runRegisteredDag =>
    match d.proxy.handleRunRegisteredDag req cid env.shm env.heap with
    | .ok job => some (d.run code env job.mfd, d)
    | .error e => some (.fail code e, d)
  | .syncCache => some ({ opcode := code }, d)
  | .startVp =>
    -- started already if the status says so
    if (env.device.status.toOption.getD 0) = 0 then
      match env.device.startVp with
      | .ok _ => some ({ opcode := code }, d)
      | .error e => some (.fail code e, d)
    else some ({ opcode := code }, d)
  | .stopVp => some ({ opcode := code }, d)
  | .runDags =>
    match d.proxy.handleRunDags req cid env.shm env.heap with
    | .ok mfd => some (d.run code env mfd, d)
    | .error e => some (.fail code e, d)

/-- What serving a request does to the daemon: nothing, or one call. -/
inductive Daemon.Serves (d : Daemon) (req : Rpc) (cid : UInt32) (env : RpcEnv) :
    Opcode → Daemon → Prop
  | same {op : Opcode} : Serves d req cid env op d
  | allocMem {off s} (h : d.proxy.alloc env.rounds req.size cid req.sessionId
      = some (.ok (off, s))) : Serves d req cid env .allocMem { d with proxy := s }
  | closeSession : Serves d req cid env .closeSession
      { d with proxy := d.proxy.closeSession cid req.sessionId }
  | freeMem {s} (h : d.proxy.free req.barOffset cid = .ok s) :
      Serves d req cid env .freeMem { d with proxy := s }
  | registerDag {id d'} (h : d.registerDag req cid env = .ok (id, d')) :
      Serves d req cid env .registerDag d'
  | unregisterDag {s} (h : d.proxy.handleUnregisterDag req cid = .ok s) :
      Serves d req cid env .unregisterDag { d with proxy := s }
  | allocHandle {r s} (h : d.proxy.allocHandle env.rounds req.size cid req.sessionId
      = some (r, s)) : Serves d req cid env .allocHandle { d with proxy := s }
  | freeHandle {s} (h : d.proxy.freeHandle req.dagId cid req.sessionId = .ok s) :
      Serves d req cid env .freeHandle { d with proxy := s }

theorem serve_ok {d d' : Daemon} {code : UInt32} {req : Rpc} {cid : UInt32} {env : RpcEnv}
    {op : Opcode} {reply : Reply} (h : d.serve code req cid env op = some (reply, d')) :
    d.Serves req cid env op d' := by
  cases op with
  | closeSession =>
    cases h
    exact .closeSession
  | queryBuf | syncCache | stopVp =>
    cases h
    exact .same
  | startVp =>
    unfold Daemon.serve at h
    dsimp only at h
    split at h
    · split at h <;> cases h <;> exact .same
    · cases h
      exact .same
  | _ =>
    unfold Daemon.serve at h
    dsimp only at h
    split at h <;> cases h <;> constructor <;> assumption

/-- `cavalry_proxy_handle_rpc`. -/
def Daemon.handleRpc (d : Daemon) (code : UInt32) (req : Rpc) (cid : UInt32)
    (env : RpcEnv) : Option (Reply × Daemon) :=
  if d.draining then some (.fail code .EHOSTDOWN, d)
  else
    let d := d.reopen env
    if d.offline then some (.fail code .ENODEV, d)
    else
      match Opcode.ofCode code with
      | none => some (.fail code .ENOSYS, d)
      | some op => d.serve code req cid env op

/-- The descriptor a request makes `cavalry_proxy_handle_rpc` run on the
device, if it comes to that. -/
def Daemon.dispatched (d : Daemon) (code : UInt32) (req : Rpc) (cid : UInt32)
    (env : RpcEnv) : Option RunDagsMfd :=
  if d.draining then none
  else
    let d := d.reopen env
    if d.offline then none
    else
      match Opcode.ofCode code with
      | some .runDags =>
        (d.proxy.handleRunDags req cid env.shm env.heap).toOption
      | some .runRegisteredDag =>
        (d.proxy.handleRunRegisteredDag req cid env.shm env.heap).toOption.map fun job => job.mfd
      | _ => none

end AmbaVirt.Cavalry
