/-
The proxy with its threads: requests and live-inference runs in parallel,
the tables they share, and a module unload that drains them.

A step is one section of a mutex, or what a thread does between two.
Every call that changes the tables is its `ProxyOp`. The steps of a run
are four: the lookup, which builds the descriptor under `g_dag_mutex`;
the binding of handles; the ioctl under `g_visorc_hw_mutex`; and the
return from it. A run may be over at each of them (`Event.fail`).

Memory that has been freed may be allocated again at the same address, so
each registration gets a number of its own for its host copy, and `freed`
has the numbers of those given back to the driver. A slot dropped while
`/dev/cavalry` is closed gives nothing back.
-/
import AmbaVirt.Lib.Count
import AmbaVirt.Cavalry.Frame

namespace AmbaVirt.Cavalry

open Lib

-- ==== the two halves

/-- The first half of a run: the slot whose template it copies. -/
def Proxy.pick (s : Proxy) : RunReq → Except Errno (Fin 128)
  | .registered req cid _ _ => do
    let tenant ← require (s.getTenant cid) .ENODEV
    refuseIf (tenant.shmMap ≠ .mapped) .ENODEV
    tenant.checkArena req runRegDescSize
    s.ownedDag req cid
  | .withHandles dagId inHandleId outHandleId cid => do
    let tenant ← require (s.getTenant cid) .ENODEV
    refuseIf (tenant.shmMap ≠ .mapped) .ENODEV
    refuseIf (dagId = 0 ∨ inHandleId = 0 ∨ outHandleId = 0 ∨ inHandleId = outHandleId) .EINVAL
    let inHend ← s.ownedHandle inHandleId cid
    s.validateRange inHend.barOffset.toUInt64 inHend.size.toUInt64 cid
    let outHend ← s.ownedHandle outHandleId cid
    s.validateRange outHend.barOffset.toUInt64 outHend.size.toUInt64 cid
    s.liveDag dagId cid

/-- A run that is dispatched without interruption has picked its slot. -/
theorem Proxy.pick_of_dispatch {s : Proxy} {r : RunReq} {d : Dispatch}
    (h : s.dispatch r = .ok d) : s.pick r = .ok d.slot := by
  cases r with
  | registered req cid shm heap =>
    simp only [dispatch, handleRunRegisteredDag, guards, pure_ok] at h
    obtain ⟨t, ht, hmap, harena, slot, hslot, -, -, -, -, rfl⟩ := h
    simp only [pick, guards]
    exact ⟨t, ht, hmap, harena, hslot⟩
  | withHandles dagId i o cid =>
    simp only [dispatch, runDagWithHandles, guards] at h
    obtain ⟨t, ht, hmap, hids, hin, hih, hir, hout, hoh, hor, slot, hslot, h⟩ := h
    simp only [pick, guards]
    have hd : d.slot = slot := by
      split at h
      · rw [pure_ok] at h
        rw [← h]
      · rw [pure_ok] at h
        rw [← h]
    rw [hd]
    exact ⟨t, ht, hmap, hids, hin, hih, hir, hout, hoh, hor, hslot⟩

theorem Proxy.pick_inUse {s : Proxy} {r : RunReq} {k : Fin 128}
    (h : s.pick r = .ok k) : (s.dags k).inUse = true := by
  cases r with
  | registered req cid shm heap =>
    simp only [pick, ownedDag, guards, pure_ok] at h
    obtain ⟨-, -, -, -, i, hi, -, rfl⟩ := h
    have hfound := Fin.eq_true_of_find?_eq_some hi
    exact (Bool.and_eq_true_iff.mp hfound).1
  | withHandles dagId i o cid =>
    simp only [pick, liveDag, guards, pure_ok] at h
    obtain ⟨-, -, -, -, -, -, -, -, -, -, i, hi, -, rfl⟩ := h
    have hfound := Fin.eq_true_of_find?_eq_some hi
    exact (Bool.and_eq_true_iff.mp hfound).1

-- ==== the threads

/-- A request of a guest, as `cavalry_proxy_handle_rpc` gets it. -/
structure Request where
  code : UInt32
  rpc : Rpc := {}
  cid : UInt32
  deriving DecidableEq

/-- Where a thread is. `counted` says of a run that it is a request, which
`g_active_requests` counts, and not a live-inference run; `copy` is the
host copy its descriptor names. -/
inductive Task
  | idle
  /-- Past the drain check. -/
  | admitted (r : Request)
  /-- Past the attempt to reopen the device. -/
  | checked (r : Request)
  /-- At the `switch`. -/
  | serving (r : Request)
  /-- With a descriptor, not yet dispatched. -/
  | bound (counted : Bool) (copy : Option Nat)
  /-- In the ioctl, with `g_visorc_hw_mutex`. -/
  | driving (counted : Bool) (copy : Option Nat)
  /-- Behind the `switch`. -/
  | leaving
  /-- In a live-inference run, before its lookup. -/
  | live (dagId inHandleId outHandleId cid : UInt32)
  deriving DecidableEq

namespace Task

/-- `g_active_requests` counts the thread. -/
def counted : Task → Bool
  | .admitted _ | .checked _ | .serving _ | .leaving => true
  | .bound c _ | .driving c _ => c
  | .idle | .live .. => false

/-- The thread has `g_visorc_hw_mutex`. -/
def holdsHw : Task → Bool
  | .driving .. => true
  | _ => false

/-- The host copy the descriptor of the thread names. -/
def copy : Task → Option Nat
  | .bound _ c | .driving _ c => c
  | _ => none

def done (counted : Bool) : Task := if counted then .leaving else .idle

end Task

/-- Where the `MODULE_UNLOAD` command of the admin thread is. `drained`
says that `cavalry_proxy_wait_drained` has returned 0. -/
inductive Unload
  | idle
  | draining
  | waited (drained : Bool)
  | unloaded (drained : Bool)
  | cleared (drained : Bool)
  deriving DecidableEq

/-- Between the return of `wait_drained` with 0 and the close. -/
def Unload.drained : Unload → Bool
  | .waited d | .unloaded d | .cleared d => d
  | .idle | .draining => false

/-- The globals of the proxy and `n` threads. -/
structure Threads (n : Nat) where
  proxy : Proxy
  /-- `g_fd_shm < 0 && g_shm_size > 0`. -/
  mock : Bool
  /-- `g_fd_cav >= 0`. -/
  cavOpen : Bool
  /-- `g_draining`. -/
  draining : Bool
  /-- `g_active_requests`. -/
  active : Nat
  tasks : Fin n → Task
  unload : Unload
  /-- The number of the host copy in each slot, and the next one. -/
  copy : Fin 128 → Nat
  nextCopy : Nat
  freed : Nat → Bool

namespace Opcode

def isIoctl : Opcode → Bool
  | .getVersion | .getChipId | .getStatus | .queryUcodeCmdSize | .startVp => true
  | _ => false

def isRun : Opcode → Bool
  | .runDags | .runRegisteredDag => true
  | _ => false

/-- The opcodes that may be over before they come to the device. -/
def mayFail (op : Opcode) : Bool :=
  op.isIoctl || op.isRun || op == .registerDag

/-- The opcodes that do not look at the tables or the device again. -/
def isPlain : Opcode → Bool
  | .queryBuf | .syncCache | .stopVp => true
  | _ => false

/-- The opcodes that may use `g_fd_cav` behind the checks: an ioctl, a
run, or the memory of a host copy. -/
def usesFd (op : Opcode) : Bool :=
  op.mayFail || op == .unregisterDag || op == .closeSession

end Opcode

def Request.call (r : Request) (rounds : Nat) (a : RegisterArgs) : Opcode → Option ProxyOp
  | .allocMem => some (.alloc rounds r.rpc.size r.cid r.rpc.sessionId)
  | .freeMem => some (.free r.rpc.barOffset r.cid)
  | .closeSession => some (.closeSession r.cid r.rpc.sessionId)
  | .registerDag => some (.registerDag { a with req := r.rpc, clientCid := r.cid })
  | .unregisterDag => some (.unregisterDag r.rpc r.cid)
  | .allocHandle => some (.allocHandle rounds r.rpc.size r.cid r.rpc.sessionId)
  | .freeHandle => some (.freeHandle r.rpc.dagId r.cid r.rpc.sessionId)
  | _ => none

/-- A registration allocates its host copy under `g_visorc_hw_mutex`. -/
def ProxyOp.takesHw : ProxyOp → Bool
  | .registerDag _ => true
  | _ => false

/-- The calls of other threads: claims and disconnects in the server,
bounds and evictions of the administrator. -/
def ProxyOp.isOutside : ProxyOp → Bool
  | .registerTenant .. | .unregisterTenant _ | .setTenantBounds ..
  | .restoreBindings .. | .clientDisconnect _ | .setEnforcePathB _ => true
  | _ => false

inductive Event (n : Nat)
  | request (i : Fin n) (r : Request)
  | reopen (i : Fin n) (opens : Bool)
  | check (i : Fin n)
  | answer (i : Fin n)
  | call (i : Fin n) (rounds : Nat) (a : RegisterArgs)
  | lookup (i : Fin n)
  | enter (i : Fin n)
  | finish (i : Fin n)
  | fail (i : Fin n)
  | leave (i : Fin n)
  | startLive (i : Fin n) (dagId inHandleId outHandleId cid : UInt32)
  | outside (op : ProxyOp)
  | startDrain
  | waitReturn
  | unload
  | clear
  | close

namespace Threads

variable {n : Nat}

/-- `g_visorc_hw_mutex` is free. -/
def HwFree (s : Threads n) : Prop := ∀ i, (s.tasks i).holdsHw = false
  deriving Decidable

def offline (s : Threads n) : Bool := !s.cavOpen && !s.mock

def view (s : Threads n) : Proxy :=
  { s.proxy with simulated := !s.cavOpen && s.mock }

theorem view_dags (s : Threads n) : s.view.dags = s.proxy.dags := by
  rw [view]

def setTask (s : Threads n) (i : Fin n) (t : Task) : Threads n :=
  { s with tasks := Function.update s.tasks i t }

/-- The call drops the DAG of slot `k`. -/
def Drops (s : Threads n) (op : ProxyOp) (k : Fin 128) : Prop :=
  (s.proxy.dags k).inUse = true ∧ ((s.view.apply op).dags k).inUse = false
  deriving Decidable

/-- A call of the tables, with what it does to host copies. -/
def call (s : Threads n) (op : ProxyOp) : Threads n :=
  { s with
    proxy := s.view.apply op
    copy := fun k =>
      if (s.proxy.dags k).inUse = false ∧
          ((s.view.apply op).dags k).inUse = true then s.nextCopy else s.copy k
    nextCopy := s.nextCopy + 1
    freed := fun c => s.freed c ||
      decide (s.cavOpen = true ∧ ∃ k, s.Drops op k ∧ s.copy k = c) }

def callOf (s : Threads n) : Event n → Option ProxyOp
  | .call i rounds a =>
    match s.tasks i with
    | .serving r => (Opcode.ofCode r.code).bind (r.call rounds a)
    | _ => none
  | .outside op => if op.isOutside then some op else none
  | _ => none

/-- One step; `none` if it cannot be taken. -/
def next (s : Threads n) (e : Event n) : Option (Threads n) :=
  match e with
  | .request i r =>
    if s.tasks i = .idle then
      -- -EHOSTDOWN while draining
      if s.draining then some s
      else some { s.setTask i (.admitted r) with active := s.active + 1 }
    else none
  | .reopen i opens =>
    match s.tasks i with
    | .admitted r =>
      if s.offline then
        if s.HwFree then
          some { s.setTask i (.checked r) with cavOpen := opens }
        else none
      else some (s.setTask i (.checked r))
    | _ => none
  | .check i =>
    match s.tasks i with
    | .checked r =>
      some (s.setTask i (if s.offline then .leaving else .serving r))
    | _ => none
  | .answer i =>
    match s.tasks i with
    | .serving r =>
      if (Opcode.ofCode r.code).all Opcode.isPlain then
        some (s.setTask i .leaving)
      else none
    | _ => none
  | .call i _ _ =>
    match s.callOf e with
    | some op =>
      if op.takesHw = true → s.HwFree then
        some ((s.call op).setTask i .leaving)
      else none
    | none => none
  | .lookup i =>
    match s.tasks i with
    | .serving r =>
      match Opcode.ofCode r.code with
      | some .runDags => some (s.setTask i (.bound true none))
      | some .runRegisteredDag =>
        match s.view.pick (.registered r.rpc r.cid (fun _ => 0) fun _ => 0) with
        | .ok k => some (s.setTask i (.bound true (some (s.copy k))))
        | .error _ => none
      | _ => none
    | .live dagId inHandleId outHandleId cid =>
      match s.view.pick (.withHandles dagId inHandleId outHandleId cid) with
      | .ok k => some (s.setTask i (.bound false (some (s.copy k))))
      | .error _ => none
    | _ => none
  | .enter i =>
    if s.HwFree ∧ s.cavOpen then
      match s.tasks i with
      | .serving r =>
        if (Opcode.ofCode r.code).any Opcode.isIoctl then
          some (s.setTask i (.driving true none))
        else none
      | .bound c d => some (s.setTask i (.driving c d))
      | _ => none
    else none
  | .finish i =>
    match s.tasks i with
    | .driving c _ => some (s.setTask i (.done c))
    | _ => none
  | .fail i =>
    match s.tasks i with
    | .serving r =>
      if (Opcode.ofCode r.code).any Opcode.mayFail then
        some (s.setTask i .leaving)
      else none
    | .bound c _ => some (s.setTask i (.done c))
    | .live .. => some (s.setTask i .idle)
    | _ => none
  | .leave i =>
    match s.tasks i with
    | .leaving => some { s.setTask i .idle with active := s.active - 1 }
    | _ => none
  | .startLive i dagId inHandleId outHandleId cid =>
    if s.tasks i = .idle then
      some (s.setTask i (.live dagId inHandleId outHandleId cid))
    else none
  | .outside _ => (s.callOf e).map s.call
  | .startDrain =>
    if s.unload = .idle then
      some { s with unload := .draining, draining := true }
    else none
  | .waitReturn =>
    -- 0 if nothing is left, or else a timeout
    if s.unload = .draining then
      some { s with unload := .waited (s.active == 0) }
    else none
  | .unload =>
    match s.unload with
    | .waited d => some { s with unload := .unloaded d }
    | _ => none
  | .clear =>
    match s.unload with
    | .unloaded d => some { s with unload := .cleared d, draining := false }
    | _ => none
  | .close =>
    match s.unload with
    | .cleared _ =>
      if s.HwFree then some { s with unload := .idle, cavOpen := false }
      else none
    | _ => none

-- ==== what a step does

/-- What an event may do, told by its effect on the threads. A thread that
is at work may only come to name a host copy that is registered. -/
inductive Move (s : Threads n) : Event n → Threads n → Prop
  | refuse (i r) (draining : s.draining = true) : Move s (.request i r) s
  | accept (i r) (idle : s.tasks i = .idle) (draining : s.draining = false) : Move s (.request i r)
        { s.setTask i (.admitted r) with active := s.active + 1 }
  | live (i d a b c) (idle : s.tasks i = .idle) :
      Move s (.startLive i d a b c) (s.setTask i (.live d a b c))
  | work {e} (i t o) (busy : s.tasks i ≠ .idle) (counted : t.counted = (s.tasks i).counted)
      (copy : ∀ c, t.copy = some c → (s.tasks i).copy = some c ∨
        ∃ k, (s.proxy.dags k).inUse = true ∧ s.copy k = c)
      (quiet : s.callOf e = none) :
      Move s e { s.setTask i t with cavOpen := o }
  | leave {e} (i) (task : s.tasks i = .leaving) (quiet : s.callOf e = none) :
      Move s e { s.setTask i .idle with active := s.active - 1 }
  | serve {e} (i r op) (task : s.tasks i = .serving r) (call : s.callOf e = some op) :
      Move s e ((s.call op).setTask i .leaving)
  | outside {e} (op) (call : s.callOf e = some op) : Move s e (s.call op)
  | start (idle : s.unload = .idle) :
      Move s .startDrain { s with unload := .draining, draining := true }
  | wait (at_ : s.unload = .draining) :
      Move s .waitReturn { s with unload := .waited (s.active == 0) }
  | unload {d} (at_ : s.unload = .waited d) : Move s .unload { s with unload := .unloaded d }
  | clear {d} (at_ : s.unload = .unloaded d) :
      Move s .clear { s with unload := .cleared d, draining := false }
  | close {d} (at_ : s.unload = .cleared d) :
      Move s .close { s with unload := .idle, cavOpen := false }

theorem Move.of_task {s : Threads n} {e : Event n} {i : Fin n} {t u : Task}
    (at_ : s.tasks i = u) (busy : u ≠ .idle) (counted : t.counted = u.counted)
    (copy : t.copy = none ∨ t.copy = u.copy) (quiet : s.callOf e = none) :
    s.Move e (s.setTask i t) := by
  subst at_
  refine .work i t s.cavOpen busy counted (fun c hc => ?_) quiet
  rcases copy with h | h
  · rw [h] at hc
    cases hc
  · rw [h] at hc
    exact .inl hc

theorem Move.of_pick {s : Threads n} {e : Event n} {i : Fin n} {u : Task}
    {counted : Bool} {r : RunReq} {k : Fin 128} (at_ : s.tasks i = u)
    (busy : u ≠ .idle) (hcount : counted = u.counted)
    (hk : s.view.pick r = .ok k) (quiet : s.callOf e = none) :
    s.Move e (s.setTask i (.bound counted (some (s.copy k)))) := by
  subst at_
  refine .work i _ s.cavOpen busy hcount (fun c hc => .inr ?_) quiet
  rw [Task.copy, Option.some.injEq] at hc
  have huse := Proxy.pick_inUse hk
  exact ⟨k, huse, hc⟩

theorem done_counted (c : Bool) : (Task.done c).counted = c := by
  cases c <;> rfl

theorem done_copy (c : Bool) : (Task.done c).copy = none := by
  cases c <;> rfl

theorem next_move {s s' : Threads n} {e : Event n} (h : s.next e = some s') : s.Move e s' := by
  cases e
  all_goals simp only [next, Option.ite_none_right_eq_some, Option.some.injEq] at h
  case request i r =>
    obtain ⟨hidle, h⟩ := h
    split at h
    · rename_i hd
      cases h
      exact .refuse i r hd
    · rename_i hd
      cases h
      exact .accept i r hidle (Bool.eq_false_iff.mpr hd)
  case reopen i opens =>
    split at h
    · rename_i r hr
      split at h
      · cases (Option.ite_none_right_eq_some.mp h).2
        refine .work i _ opens ?_ ?_ (fun c hc => by cases hc) rfl
        · rw [hr]
          exact Task.noConfusion
        · rw [hr]
          rfl
      · cases h
        exact .of_task hr Task.noConfusion rfl (.inl rfl) rfl
    · cases h
  case check i =>
    split at h
    · rename_i r hr
      cases h
      refine .of_task hr Task.noConfusion ?_ (.inl ?_) rfl
      · split <;> rfl
      · split <;> rfl
    · cases h
  case answer i =>
    split at h
    · rename_i r hr
      cases (Option.ite_none_right_eq_some.mp h).2
      exact .of_task hr Task.noConfusion rfl (.inl rfl) rfl
    · cases h
  case call i rounds a =>
    split at h
    · rename_i op hop
      cases (Option.ite_none_right_eq_some.mp h).2
      have hserving : ∃ r, s.tasks i = .serving r := by
        simp only [callOf] at hop
        split at hop
        · rename_i r hr
          exact ⟨r, hr⟩
        · cases hop
      obtain ⟨r, hr⟩ := hserving
      exact .serve i r op hr hop
    · cases h
  case lookup i =>
    split at h
    · rename_i r hr
      split at h
      · cases h
        exact .of_task hr Task.noConfusion rfl (.inl rfl) rfl
      · split at h
        · rename_i k hk
          cases h
          exact .of_pick hr Task.noConfusion rfl hk rfl
        · cases h
      · cases h
    · rename_i hr
      split at h
      · rename_i k hk
        cases h
        exact .of_pick hr Task.noConfusion rfl hk rfl
      · cases h
    · cases h
  case enter i =>
    obtain ⟨-, h⟩ := h
    split at h
    · rename_i r hr
      cases (Option.ite_none_right_eq_some.mp h).2
      exact .of_task hr Task.noConfusion rfl (.inl rfl) rfl
    · rename_i c d hr
      cases h
      exact .of_task hr Task.noConfusion rfl (.inr rfl) rfl
    · cases h
  case finish i =>
    split at h
    · rename_i c d hr
      cases h
      exact .of_task hr Task.noConfusion (done_counted c) (.inl (done_copy c)) rfl
    · cases h
  case fail i =>
    split at h
    · rename_i r hr
      cases (Option.ite_none_right_eq_some.mp h).2
      exact .of_task hr Task.noConfusion rfl (.inl rfl) rfl
    · rename_i c d hr
      cases h
      exact .of_task hr Task.noConfusion (done_counted c) (.inl (done_copy c)) rfl
    · rename_i hr
      cases h
      exact .of_task hr Task.noConfusion rfl (.inl rfl) rfl
    · cases h
  case leave i =>
    split at h
    · rename_i ht
      cases h
      exact .leave i ht rfl
    · cases h
  case startLive i d a b c =>
    obtain ⟨ht, rfl⟩ := h
    exact .live i d a b c ht
  case outside op =>
    obtain ⟨op', hop, rfl⟩ := Option.map_eq_some_iff.mp h
    exact .outside op' hop
  case startDrain =>
    obtain ⟨ht, rfl⟩ := h
    exact .start ht
  case waitReturn =>
    obtain ⟨ht, rfl⟩ := h
    exact .wait ht
  case unload =>
    split at h
    · rename_i d ht
      cases h
      exact .unload ht
    · cases h
  case clear =>
    split at h
    · rename_i d ht
      cases h
      exact .clear ht
    · cases h
  case close =>
    split at h
    · rename_i d ht
      cases (Option.ite_none_right_eq_some.mp h).2
      exact .close ht
    · cases h

end Threads

/-- The proxy from `cavalry_proxy_init` on, with any number of threads. -/
def threadSystem (n : Nat) : System (Threads n) (Event n) where
  init s := proxySystem.init s.proxy ∧ (∀ i, s.tasks i = .idle) ∧
    s.unload = .idle ∧ s.draining = false ∧ s.active = 0 ∧
    ∀ c, s.freed c = false
  step s e s' := s.next e = some s'

-- ==== a sample

def sampleThreads (n : Nat) : Threads n where
  proxy := { sampleBoot with simulated := false }
  mock := false
  cavOpen := true
  draining := false
  active := 0
  tasks _ := .idle
  unload := .idle
  copy _ := 0
  nextCopy := 0
  freed _ := false

theorem sampleThreads_init (n : Nat) : (threadSystem n).init (sampleThreads n) :=
  ⟨⟨fun _ => rfl, fun _ => rfl, fun _ => rfl, fun _ => rfl⟩,
    fun _ => rfl, rfl, rfl, rfl, fun _ => rfl⟩

def sampleArgs : RegisterArgs :=
  sampleDaemon.registerArgs sampleRegisterReq 10 neighbourEnv

/-- Thread 0 takes a request of cid 10 to the `switch`. -/
def sampleRequest (code : UInt32) (rpc : Rpc) : List (Event 2) :=
  [.request 0 { code, rpc, cid := 10 }, .reopen 0 false, .check 0]

def sampleCall (code : UInt32) (rpc : Rpc) : List (Event 2) :=
  sampleRequest code rpc ++ [.call 0 3 sampleArgs, .leave 0]

def sampleSetup : List (Event 2) :=
  .outside (.registerTenant 10 7 9 .mapped 0x3FFFF000 0x2C0000000 0x1C0000000
    sampleTenant_guest sampleTenant_fits) ::
  sampleCall 5 { sessionId := 1, size := 0x10000 } ++
  sampleCall 23 { sessionId := 1, size := 0x1000 } ++
  sampleCall 23 { sessionId := 1, size := 0x2000 } ++
  sampleCall 21 sampleRegisterReq

end AmbaVirt.Cavalry
