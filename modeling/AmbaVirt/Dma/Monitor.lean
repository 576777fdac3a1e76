/-
The kernel's DMA reference monitor (amba_virt_dma.c): four leases on
slices of low memory, two UART endpoints, and the transfers the monitor
programs for the holder of a lease.

# Locks and steps

What an entry point does under the lock of its lease is one step. Three
places give the lock up in the middle:

- `dispatchRequest` submits a transfer and sleeps until it is complete
  (`Waiter`); `respond` is what it does after that.
- an unforced drain sleeps on the same completion (`drains`), and can
  take the dispatcher's away.
- `amba_dma_alloc_lease` visits the leases one by one (`AllocThread`).

The completion callback and the watchdog run without the lock, as steps
of their own.

# The engine

`engine` lists the transfers submitted and not finished, oldest first; a
channel, an endpoint with a direction, finishes its own in order. What
leaves the monitor is an `Effect`, and the log of the effects is kept
next to it (`Host`). Telemetry and the FIFO's side of the slave
configuration are left out.
-/
import AmbaVirt.Basic
import AmbaVirt.Lib.Guard
import AmbaVirt.Lib.Ring
import AmbaVirt.Lib.Trans
import AmbaVirt.Lib.Word

namespace AmbaVirt.Dma

open Lib Errno Function

def AMBA_VIRT_DMA32_SLICE_SIZE : UInt64 := 0x1000000
def AMBA_DMA_BOOTSTRAP_SIZE : UInt64 := 4096

-- ==== the records

/-- `AMBA_DMA_LEASE_*`. -/
inductive LeaseState
  | free | starting | active | draining | sanitizing | quarantined
  deriving DecidableEq

inductive Endpoint
  | uart2 | uart3
  deriving DecidableEq

def Endpoint.other : Endpoint → Endpoint
  | .uart2 => .uart3
  | .uart3 => .uart2

/-- `AMBA_DMA_ENDPOINT_*`: the endpoint of an id, `some none` for NONE. -/
def Endpoint.ofId (id : UInt32) : Option (Option Endpoint) :=
  if id = 0 then some none
  else if id = 2 then some (some .uart2)
  else if id = 3 then some (some .uart3)
  else none

/-- The direction of a transfer, which is also the channel of its
endpoint: `tx_chan` for memory to device, `rx_chan` the other way. -/
inductive Dir
  | memToDev | devToMem
  deriving DecidableEq

/-- `AMBA_DMA_OP_*`. -/
def Dir.ofOperation (op : UInt32) : Option Dir :=
  if op = 1 then some .memToDev
  else if op = 2 then some .devToMem
  else none

/-- `struct amba_virt_dma_request`. -/
structure Request where
  capability : UInt64
  epoch : UInt64
  cookie : UInt64
  endpointId : UInt32
  operation : UInt32
  offset : UInt64
  length : UInt32
  deriving DecidableEq

/-- `struct amba_virt_dma_response`; the status is 0 for `none`. -/
structure Response where
  cookie : UInt64
  status : Option Errno
  transferred : UInt32
  deriving DecidableEq

/-- A transfer as the engine has it: for which lease, on which channel,
over which bus addresses. -/
structure Transfer where
  lease : Fin 4
  endpoint : Endpoint
  dir : Dir
  addr : UInt64
  length : UInt32
  cookie : UInt64
  deriving DecidableEq

structure Waiter where
  lease : Fin 4
  req : Request
  deriving DecidableEq

def zeroKey : List UInt8 := List.replicate 32 0

/-- `struct amba_dma_lease`. `xferDone` is the count of the completion,
`watchdog` whether the timer is armed. `mapped` says how `sliceDma` came
to be: the source only has the address, which is 0 if the mapping
failed. -/
structure Lease where
  state : LeaseState := .free
  boundEndpoint : Option Endpoint := none
  epoch : UInt64 := 1
  capability : UInt64 := 0
  hmacKey : List UInt8 := zeroKey
  vmUuid : List UInt8 := []
  bootGeneration : UInt32 := 0
  vsockCid : UInt32 := 0
  sliceDma : UInt64 := 0
  mapped : Bool := false
  inFlight : Bool := false
  activeCookie : UInt64 := 0
  activeOperation : Option Dir := none
  xferDone : Nat := 0
  watchdog : Bool := false
  xferStatus : Option Errno := none
  replay : Ring UInt64 32 := ⟨fun _ => 0, 0⟩
  deriving DecidableEq

/-- The lease takes requests: `ACTIVE` or `STARTING`. -/
def Lease.Open (e : Lease) : Prop := e.state = .active ∨ e.state = .starting

instance : DecidablePred Lease.Open := fun _ =>
  inferInstanceAs (Decidable (_ ∨ _))

/-- What `amba_dma_alloc_lease` is asked for, its endpoint id checked. -/
structure AllocReq where
  endpoint : Option Endpoint
  vsockCid : UInt32
  bootGeneration : UInt32
  vmUuid : List UInt8
  deriving DecidableEq

-- What the entry points do to the record of a lease.

namespace Lease

variable (e : Lease)

/-- `amba_dma_callback`. -/
def completed : Lease :=
  { e with watchdog := false, xferStatus := none, xferDone := e.xferDone + 1 }

def timedOut : Lease :=
  { e with watchdog := false, xferStatus := some .ETIMEDOUT
           xferDone := e.xferDone + 1 }

def granted (r : AllocReq) (capability : UInt64) (key : List UInt8) : Lease :=
  { e with state := .starting, boundEndpoint := r.endpoint
           bootGeneration := r.bootGeneration, vsockCid := r.vsockCid
           vmUuid := r.vmUuid, capability := capability, hmacKey := key
           epoch := e.epoch + 1 }

def drained : Lease := { e with state := .draining }

def forceDrained : Lease :=
  { e with state := .draining, watchdog := false, xferDone := e.xferDone + 1 }

def released : Lease :=
  { e with state := .free, boundEndpoint := none, capability := 0
           hmacKey := zeroKey, vsockCid := 0, bootGeneration := 0
           vmUuid := List.replicate 16 0, inFlight := false
           activeCookie := 0, replay := ⟨fun _ => 0, 0⟩ }

def quarantined : Lease := { e with state := .quarantined }

/-- What a quarantine release resets, which is less than a release. -/
def pardoned : Lease :=
  { e with state := .free, boundEndpoint := none, epoch := e.epoch + 1
           hmacKey := zeroKey }

def activated : Lease := { e with state := .active }

def submitted (t : Transfer) (e : Lease) : Lease :=
  { e with inFlight := true, activeCookie := t.cookie
           activeOperation := some t.dir, xferStatus := some .EINPROGRESS
           xferDone := 0, watchdog := true }

def waited : Lease := { e with xferDone := e.xferDone - 1 }

/-- The wait of the dispatcher returns; `amba_dma_record_cookie`. -/
def responded (cookie : UInt64) : Lease :=
  { e with xferDone := e.xferDone - 1, inFlight := false
           replay := e.replay.push cookie }

end Lease

/-- The three loops of `amba_dma_alloc_lease`, each with the leases it
has not looked at yet: is the CID served already, is the endpoint taken,
which lease is free. -/
inductive AllocPhase
  | owned (rest : List (Fin 4))
  | bound (rest : List (Fin 4))
  | free (rest : List (Fin 4))
  deriving DecidableEq

/-- The loop after the first: the second one looks for an endpoint and is
left out without one. -/
def AllocReq.second (r : AllocReq) : AllocPhase :=
  if r.endpoint = none then .free (List.finRange 4)
  else .bound (List.finRange 4)

/-- The loop a call starts with: the first one looks for a CID. -/
def AllocReq.first (r : AllocReq) : AllocPhase :=
  if r.vsockCid = 0 then r.second else .owned (List.finRange 4)

structure AllocThread where
  req : AllocReq
  phase : AllocPhase
  deriving DecidableEq

/-- The output fields of `struct amba_dma_lease_alloc`. -/
structure AllocReply where
  leaseId : Fin 4
  endpoint : Option Endpoint
  capability : UInt64
  epoch : UInt64
  deriving DecidableEq

/-- The module's globals, the engine and the calls in progress. An
endpoint's `owner_lease` of -1 is `none`. -/
structure Monitor where
  leases : Fin 4 → Lease
  owner : Endpoint → Option (Fin 4) := fun _ => none
  chans : Endpoint → Dir → Bool
  engine : List Transfer := []
  waiting : List Waiter := []
  drains : List (Fin 4) := []
  alloc : Option AllocThread := none

/-- What the monitor does to the world. -/
inductive Effect
  | granted (l : Fin 4) (capability epoch : UInt64)
  | programmed (t : Transfer)
  | stopped (t : Transfer)
  | cleared (l : Fin 4)
  deriving DecidableEq

def Effect.lease : Effect → Fin 4
  | .granted l _ _ => l
  | .programmed t => t.lease
  | .stopped t => t.lease
  | .cleared l => l

def effectsOf (l : Fin 4) (log : List Effect) : List Effect :=
  log.filter fun x => x.lease = l

theorem effectsOf_append_of_ne {l : Fin 4} {new log : List Effect} (h : ∀ x ∈ new, x.lease ≠ l) :
    effectsOf l (new ++ log) = effectsOf l log := by
  unfold effectsOf
  rw [List.filter_append, List.append_left_eq_self, List.filter_eq_nil_iff]
  intro x hx
  exact fun heq => h x hx (of_decide_eq_true heq)

theorem effectsOf_new {l : Fin 4} {x : Effect} {log log' : List Effect}
    (hlog : log' = [x].reverse ++ log) (hx : x.lease = l) :
    effectsOf l log' = x :: effectsOf l log := by
  rw [hlog]
  exact List.filter_cons_of_pos (decide_eq_true hx)

/-- What a step leads to, and what its call returns. -/
structure Outcome (α : Type) where
  monitor : Monitor
  effects : List Effect := []
  result : Except Errno α

namespace Monitor

variable (s : Monitor) (l : Fin 4)

def modify (f : Lease → Lease) : Monitor :=
  { s with leases := update s.leases l (f (s.leases l)) }

@[simp] theorem modify_self (f : Lease → Lease) : (s.modify l f).leases l = f (s.leases l) :=
  update_self ..

theorem modify_of_ne {j : Fin 4} (hj : j ≠ l) (f : Lease → Lease) :
    (s.modify l f).leases j = s.leases j :=
  update_of_ne hj ..

/-- A reflexive relation between the records before and after an update
of one of them. -/
theorem modify_rel {R : Lease → Lease → Prop} (hrefl : ∀ e, R e e)
    {f : Lease → Lease} (hf : R (s.leases l) (f (s.leases l))) (j : Fin 4) :
    R (s.leases j) ((s.modify l f).leases j) := by
  by_cases hj : j = l
  · rw [hj, modify_self]
    exact hf
  · rw [modify_of_ne s l hj]
    exact hrefl _

def lookup (id : UInt32) : Option (Fin 4) :=
  if h : id.toNat < 4 then some ⟨id.toNat, h⟩ else none

def disown : Monitor :=
  { s with owner := fun ep => if s.owner ep = some l then none else s.owner ep }

def give (ep : Option Endpoint) : Monitor :=
  { s with owner := fun x => if ep = some x then some l else s.owner x }

-- ==== callback and watchdog

/-- `dmaengine_terminate_sync` on the channels, in the given directions,
of every endpoint the lease owns. -/
def Terminates (dirs : List Dir) (t : Transfer) : Prop :=
  s.owner t.endpoint = some l ∧ t.dir ∈ dirs ∧ s.chans t.endpoint t.dir = true

instance (dirs : List Dir) : DecidablePred (s.Terminates l dirs) := fun _ =>
  inferInstanceAs (Decidable (_ ∧ _))

def terminate (dirs : List Dir) : Monitor :=
  { s with engine := s.engine.filter fun t => ¬ s.Terminates l dirs t }

def terminated (dirs : List Dir) : List Effect :=
  (s.engine.filter fun t => s.Terminates l dirs t).map .stopped

/-- `amba_dma_watchdog_fired`. -/
def watchdogFired : Monitor × List Effect :=
  let dirs := (s.leases l).activeOperation.toList
  ((s.terminate l dirs).modify l Lease.timedOut, s.terminated l dirs)

def first? (ep : Endpoint) (dir : Dir) : Option Transfer :=
  s.engine.find? fun t => t.endpoint = ep ∧ t.dir = dir

/-- The engine finishes a transfer and runs its callback. -/
def finish (t : Transfer) : Monitor :=
  { s with engine := s.engine.erase t }.modify t.lease Lease.completed

-- ==== allocation

/-- A free lease is handed out; `capability` and `key` are drawn at
random. -/
def grant (r : AllocReq) (capability : UInt64) (key : List UInt8) : Monitor :=
  { s.give l r.endpoint with alloc := none }.modify l fun e => e.granted r capability key

theorem grant_self (r : AllocReq) (capability : UInt64) (key : List UInt8) :
    (s.grant l r capability key).leases l = (s.leases l).granted r capability key :=
  modify_self _ l _

theorem grant_of_ne {j : Fin 4} (hj : j ≠ l) (r : AllocReq)
    (capability : UInt64) (key : List UInt8) :
    (s.grant l r capability key).leases j = s.leases j :=
  modify_of_ne _ l hj _

def Serves (r : AllocReq) : Prop :=
  (s.leases l).Open ∧ (s.leases l).vsockCid = r.vsockCid
  deriving Decidable

inductive Visit
  | go (phase : AllocPhase)
  | grant (l : Fin 4)
  | done (result : Except Errno AllocReply)

def visit (r : AllocReq) : AllocPhase → Visit
  | .owned [] => .go r.second
  | .owned (l :: rest) =>
    if s.Serves l r then
      if r.endpoint ≠ none ∧ r.endpoint ≠ (s.leases l).boundEndpoint then
        .done (.error .EBUSY)
      else
        .done (.ok ⟨l, (s.leases l).boundEndpoint, (s.leases l).capability, (s.leases l).epoch⟩)
    else .go (.owned rest)
  | .bound [] => .go (.free (List.finRange 4))
  | .bound (l :: rest) =>
    if (s.leases l).state ≠ .free ∧ (s.leases l).boundEndpoint = r.endpoint
    then .done (.error .EBUSY)
    else .go (.bound rest)
  | .free [] => .done (.error .ENOSPC)
  | .free (l :: rest) =>
    if (s.leases l).state = .free then .grant l else .go (.free rest)

/-- One visit of `amba_dma_alloc_lease`; the call returns once the result
is not `none`. -/
def allocStep (th : AllocThread) (capability : UInt64) (key : List UInt8) :
    Outcome (Option AllocReply) :=
  match s.visit th.req th.phase with
  | .go next =>
    { monitor := { s with alloc := some { th with phase := next } }
      result := .ok none }
  | .grant l =>
    { monitor := s.grant l th.req capability key
      effects := [.granted l capability ((s.leases l).epoch + 1)]
      result := .ok (some ⟨l, th.req.endpoint, capability,
        (s.leases l).epoch + 1⟩) }
  | .done r => { monitor := { s with alloc := none }, result := r.map some }

-- ==== drain, release, quarantine

/-- The epoch check of the control calls; 0 stands for any. -/
def Stale (epoch : UInt64) : Prop := epoch ≠ 0 ∧ (s.leases l).epoch ≠ epoch
  deriving Decidable

/-- `amba_dma_drain_lease`, up to where an unforced drain sleeps. -/
def drainLease (epoch : UInt64) (force : Bool) : Outcome Unit :=
  if s.Stale l epoch then { monitor := s, result := .error .ESTALE }
  else if ¬ (s.leases l).Open then { monitor := s, result := .error .EBUSY }
  else if (s.leases l).inFlight = false then
    { monitor := s.modify l Lease.drained, result := .ok () }
  else if force then
    { monitor := (s.terminate l [.memToDev, .devToMem]).modify l
        Lease.forceDrained
      effects := s.terminated l [.memToDev, .devToMem]
      result := .ok () }
  else
    { monitor := { s with drains := l :: s.drains }.modify l Lease.drained
      result := .ok () }

/-- `amba_dma_release_lease`; `remapped` says whether
`amba_dma_sanitize_slice` could map the slice. -/
def releaseLease (epoch : UInt64) (remapped : Bool) : Outcome Unit :=
  if s.Stale l epoch then { monitor := s, result := .error .ESTALE }
  else if remapped then
    { monitor := (s.disown l).modify l Lease.released
      effects := [.cleared l], result := .ok () }
  else
    { monitor := (s.disown l).modify l Lease.quarantined
      result := .error .ENOMEM }

/-- `amba_dma_quarantine_release`: the epoch is not looked at, and
whether the slice could be cleared is not either. -/
def quarantineRelease (remapped : Bool) : Outcome Unit :=
  if (s.leases l).state ≠ .quarantined then
    { monitor := s, result := .error .EINVAL }
  else
    { monitor := (s.disown l).modify l Lease.pardoned
      effects := if remapped then [.cleared l] else []
      result := .ok () }

-- ==== dispatch

/-- `amba_dma_cookie_is_replayed`. -/
def cookieIsReplayed (e : Lease) (cookie : UInt64) : Prop :=
  cookie ≠ 0 ∧ (e.inFlight = true ∧ e.activeCookie = cookie ∨
    ∃ i, e.replay.slot i ≠ 0 ∧ e.replay.slot i = cookie)
  deriving Decidable

/-- The range checks of a request: the bus address of its buffer. -/
def bufferOf (e : Lease) (req : Request) : Except Errno UInt64 := do
  refuseIf (req.length = 0 ∨ req.length > 4 * 1024 * 1024) .EINVAL
  refuseIf (req.offset < AMBA_DMA_BOOTSTRAP_SIZE ∨ req.offset ≥ AMBA_VIRT_DMA32_SLICE_SIZE ∨
    req.offset > AMBA_VIRT_DMA32_SLICE_SIZE - req.length.toUInt64) .ERANGE
  refuseIf (req.offset &&& 3 ≠ 0) .EINVAL
  refuseIf (e.sliceDma + req.offset + req.length.toUInt64 - 1 > 0xFFFFFFFF) .EFBIG
  return e.sliceDma + req.offset

/-- The endpoint policy: which endpoint a request is for, and that no
other lease has it. -/
def endpointOf (req : Request) : Except Errno Endpoint := do
  let asked ← require (Endpoint.ofId req.endpointId) .ENODEV
  let bound ← require (s.leases l).boundEndpoint .EPERM
  refuseIf (asked ≠ none ∧ asked ≠ some bound) .EPERM
  let ep := asked.getD bound
  refuseIf (s.owner ep.other = some l) .EBUSY
  refuseIf (s.chans ep .memToDev = false ∨ s.chans ep .devToMem = false) .ENODEV
  refuseIf (s.owner ep ≠ none ∧ s.owner ep ≠ some l) .EBUSY
  return ep

/-- The checks of a request on a lease that takes them: its endpoint and
the bus address of its buffer. -/
def checkRequest (req : Request) : Except Errno (Endpoint × UInt64) := do
  refuseIf (req.capability ≠ (s.leases l).capability) .EACCES
  refuseIf (req.epoch ≠ (s.leases l).epoch) .ESTALE
  refuseIf (cookieIsReplayed (s.leases l) req.cookie) .EALREADY
  refuseIf ((s.leases l).inFlight = true) .EBUSY
  let buf ← bufferOf (s.leases l) req
  let ep ← s.endpointOf l req
  return (ep, buf)

structure DmaEnv where
  config : Option Errno := none
  prepared : Bool := true
  deriving DecidableEq

def submit (req : Request) (t : Transfer) : Monitor :=
  { s with engine := s.engine ++ [t]
           waiting := ⟨l, req⟩ :: s.waiting }.modify l (Lease.submitted t)

/-- `amba_dma_dispatch_request`, up to where it sleeps. A request that is
refused late has made the lease `ACTIVE` and taken the endpoint. -/
def dispatchRequest (req : Request) (env : DmaEnv) : Outcome Transfer :=
  if ¬ (s.leases l).Open then { monitor := s, result := .error .EPERM }
  else
    let s := s.modify l Lease.activated
    match s.checkRequest l req with
    | .error e => { monitor := s, result := .error e }
    | .ok (ep, buf) =>
      let s := s.give l (some ep)
      match Dir.ofOperation req.operation, env.config, env.prepared with
      | none, _, _ => { monitor := s, result := .error .EINVAL }
      | some _, some e, _ => { monitor := s, result := .error e }
      | some _, none, false => { monitor := s, result := .error EIO }
      | some dir, none, true =>
        let t : Transfer := ⟨l, ep, dir, buf, req.length, req.cookie⟩
        { monitor := s.submit l req t, effects := [.programmed t]
          result := .ok t }

/-- The rest of `amba_dma_dispatch_request`, once the dispatcher has
taken the completion and the lock. -/
def respond (w : Waiter) : Outcome Response :=
  let e := s.leases w.lease
  { monitor := { s with waiting := s.waiting.erase w }.modify w.lease
      fun e => e.responded w.req.cookie
    result := .ok ⟨w.req.cookie, e.xferStatus,
      if e.xferStatus = none then w.req.length else 0⟩ }

end Monitor

-- ==== the system

/-- A bus address that a whole slice fits behind. -/
abbrev BusAddr :=
  { a : UInt64 // a.toNat + AMBA_VIRT_DMA32_SLICE_SIZE.toNat ≤ 2 ^ 64 }

/-- What `amba_virt_dma_init` finds: the channels of the two endpoints,
whether a device is given, and what `dma_map_resource` returns for each
slice. -/
structure Config where
  chans : Endpoint → Dir → Bool
  parent : Bool
  map : Fin 4 → Option BusAddr

def Config.dmaDev (c : Config) : Bool :=
  c.chans .uart2 .memToDev || c.chans .uart3 .memToDev || c.parent

/-- The leases as `amba_virt_dma_init` leaves them. -/
def Config.lease (c : Config) (i : Fin 4) : Lease :=
  match c.map i with
  | some a => if c.dmaDev then { sliceDma := a.1, mapped := true } else {}
  | none => {}

/-- `amba_virt_dma_init`. -/
def Config.boot (c : Config) : Monitor where
  leases := c.lease
  chans := c.chans

inductive Event
  | allocBegin (endpointId vsockCid bootGeneration : UInt32) (vmUuid : List UInt8)
  | allocStep (capability : UInt64) (key : List UInt8)
  | dispatch (id : UInt32) (req : Request) (env : Monitor.DmaEnv)
  | finished (ep : Endpoint) (dir : Dir)
  | watchdogFired (l : Fin 4)
  | woken (w : Waiter)
  | drain (id : UInt32) (epoch : UInt64) (force : Bool)
  | drainWoken (l : Fin 4)
  | drainTimedOut (l : Fin 4)
  | release (id : UInt32) (epoch : UInt64) (remapped : Bool)
  | quarantineRelease (id : UInt32) (remapped : Bool)
  deriving DecidableEq

structure Host where
  monitor : Monitor
  log : List Effect := []

namespace Host

def after (h : Host) {α : Type} (o : Outcome α) : Host where
  monitor := o.monitor
  log := o.effects.reverse ++ h.log

def onLease (h : Host) {α : Type} (id : UInt32) (f : Fin 4 → Outcome α) :
    Host :=
  match Monitor.lookup id with
  | none => h
  | some l => h.after (f l)

/-- One event, where it can happen: a call waits for the global lock, a
timer fires while it is armed, a sleeper needs a completion. -/
def exec (h : Host) : Event → Option Host
  | .allocBegin id cid gen uuid =>
    match h.monitor.alloc, Endpoint.ofId id with
    | some _, _ => none
    | none, none => some h
    | none, some ep =>
      let req : AllocReq := ⟨ep, cid, gen, uuid⟩
      some { h with monitor := { h.monitor with
        alloc := some ⟨req, req.first⟩ } }
  | .allocStep capability key =>
    h.monitor.alloc.map fun th =>
      h.after (h.monitor.allocStep th capability key)
  | .dispatch id req env =>
    some (h.onLease id fun l => h.monitor.dispatchRequest l req env)
  | .finished ep dir =>
    (h.monitor.first? ep dir).map fun t =>
      { monitor := h.monitor.finish t, log := .stopped t :: h.log }
  | .watchdogFired l =>
    if (h.monitor.leases l).watchdog then
      some { monitor := (h.monitor.watchdogFired l).1
             log := (h.monitor.watchdogFired l).2.reverse ++ h.log }
    else none
  | .woken w =>
    if w ∈ h.monitor.waiting ∧ 0 < (h.monitor.leases w.lease).xferDone then
      some (h.after (h.monitor.respond w))
    else none
  | .drain id epoch force =>
    some (h.onLease id fun l => h.monitor.drainLease l epoch force)
  | .drainWoken l =>
    if l ∈ h.monitor.drains ∧ 0 < (h.monitor.leases l).xferDone then
      some { h with
        monitor := ({ h.monitor with
          drains := h.monitor.drains.erase l }).modify l Lease.waited }
    else none
  | .drainTimedOut l =>
    if l ∈ h.monitor.drains then
      some { h with monitor :=
        { h.monitor with drains := h.monitor.drains.erase l } }
    else none
  | .release id epoch remapped =>
    some (h.onLease id fun l => h.monitor.releaseLease l epoch remapped)
  | .quarantineRelease id remapped =>
    some (h.onLease id fun l => h.monitor.quarantineRelease l remapped)

end Host

def system (c : Config) : System Host Event where
  init h := h = { monitor := c.boot }
  step h e h' := h.exec e = some h'

end AmbaVirt.Dma
