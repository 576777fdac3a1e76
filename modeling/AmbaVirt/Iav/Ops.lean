/-
The broker's threads: every request, `iav_broker_client_gone` and
`iav_broker_reap_idle` as operations that take turns under `b->lock`.

A critical section is one step; so are `ops.open`, `ops.close` and the
read of `s->gen` for the reply to an OPEN, which all happen outside the
lock. A request may carry any handle.

`opened` and `closed` record what happened to descriptors, and no step
reads them. A `Closing` names, besides the descriptor, the session it was
taken from: its slot and how often that slot had been freed before.
-/
import AmbaVirt.Lib.Count
import AmbaVirt.Lib.Trans
import AmbaVirt.Iav.Session

namespace AmbaVirt.Iav

open Lib

-- ==== operations

structure Closing where
  fd : Fd
  slot : Fin 64
  frees : Nat
  deriving DecidableEq

/-- What an operation does next, once it has closed what it freed. -/
inductive Cont
  | done
  | gone (k : Nat)
  | reap (start idleMs : UInt64) (k : Nat)
  deriving DecidableEq

inductive Pc
  /-- A request past the rate limiter. -/
  | entered
  /-- OPEN holds slot `i` and is in `ops.open`, -/
  | opening (i : Fin 64)
  /-- which failed, -/
  | openFailed (i : Fin 64)
  /-- or returned a descriptor. -/
  | opened (i : Fin 64) (fd : Fd)
  /-- OPEN is about to form its handle. -/
  | published (i : Fin 64)
  /-- Slot `i` is acquired, by a CLOSE or for the real descriptor's use;
  the slot had been freed `n` times. -/
  | held (i : Fin 64) (n : Nat) (closes : Bool)
  | closing (c : Closing) (k : Cont)
  | go (k : Cont)
  deriving DecidableEq

namespace Pc

/-- The slot an operation holds a reference on. -/
def holds : Pc → Option (Fin 64)
  | .opening i | .openFailed i | .opened i _ | .held i _ _ => some i
  | _ => none

/-- The slot an OPEN holds that has not published its descriptor. -/
def opener : Pc → Option (Fin 64)
  | .opening i | .openFailed i | .opened i _ => some i
  | _ => none

/-- The slot an operation acquired. -/
def user : Pc → Option (Fin 64)
  | .held i _ _ => some i
  | _ => none

/-- The descriptor an operation has in hand. -/
def carried : Pc → Option Fd
  | .opened _ fd => some fd
  | .closing c _ => some c.fd
  | _ => none

/-- Close what session `x` of slot `i` was freed with, then go on. -/
def after (i : Fin 64) (x : Session) (fd : Option Fd) (k : Cont) : Pc :=
  match fd with
  | some fd => .closing ⟨fd, i, x.frees⟩ k
  | none => .go k

end Pc

/-- An operation of cid `cid`. -/
structure Op where
  cid : UInt32
  pc : Pc
  deriving DecidableEq

structure State extends Broker where
  ops : List Op
  opened : Nat
  closed : List Closing

namespace State

/-- The operations whose `f` is `v`. -/
def tally {α : Type} [DecidableEq α] (s : State) (f : Pc → Option α) (v : α) :
    Nat :=
  s.ops.countP fun op => decide (f op.pc = some v)

/-- How many operations hold slot `i`, an OPEN of it included. -/
def holders (s : State) (i : Fin 64) : Nat := s.tally Pc.holds i

/-- The broker right after `iav_broker_init`. -/
def start (b : Broker) : State where
  toBroker := b
  ops := []
  opened := 0
  closed := []

/-- Operation `op` leaves broker `b` and goes to `pc`. -/
def act (s : State) (op : Op) (b : Broker) (pc : Pc) : State :=
  { s with toBroker := b, ops := move s.ops op { op with pc := pc } }

def spawn (s : State) (b : Broker) (op : Op) : State :=
  { s with toBroker := b, ops := op :: s.ops }

end State

-- ==== steps

inductive Event
  | enter (cid : UInt32)
  | limited (cid : UInt32)
  | reserve (cid : UInt32) (i : Fin 64)
  | openFull (cid : UInt32)
  | openReturns (fd : Fd)
  | openFails
  | abandon (i : Fin 64)
  | publish (i : Fin 64)
  | handle (cid : UInt32) (h : UInt64)
  | acquire (cid : UInt32) (h : UInt64) (i : Fin 64)
  | refuse (cid : UInt32) (h : UInt64) (e : Errno)
  | reject (cid : UInt32)
  | release (i : Fin 64)
  | close (i : Fin 64)
  | closeFd (fd : Fd)
  | clientGone (cid : UInt32)
  | goneSlot (i : Fin 64)
  | reapIdle
  | reapSlot (i : Fin 64)
  | finish
  deriving DecidableEq

/-- A step of the broker. A request of a cid that gets no entry is
refused before anything changes. -/
inductive Step (s : State) : Event → State → Prop
  -- `iav_broker_handle`, up to the rate limiter
  | enter {cid now k b} : s.cidState cid now = some (k, b) →
      Step s (.enter cid) (s.spawn (b.rateCheck k now) ⟨cid, .entered⟩)
  | limited {cid now k b} : s.ratePerSec ≠ 0 → s.cidState cid now = some (k, b) →
      Step s (.limited cid) { s with toBroker := b.rateCheck k now }
  -- `op_open`
  | reserve {op now b i} : op ∈ s.ops → op.pc = .entered → s.openReserve op.cid now = (b, some i) →
      Step s (.reserve op.cid i) (s.act op b (.opening i))
  | openFull {op now b} : op ∈ s.ops → op.pc = .entered → s.openReserve op.cid now = (b, none) →
      Step s (.openFull op.cid) (s.act op b (.go .done))
  | openReturns {op i} : op ∈ s.ops → op.pc = .opening i → Step s (.openReturns s.opened)
        { s.act op s.toBroker (.opened i s.opened) with opened := s.opened + 1 }
  | openFails {op i} : op ∈ s.ops → op.pc = .opening i →
      Step s .openFails (s.act op s.toBroker (.openFailed i))
  | abandon {op i now} : op ∈ s.ops → op.pc = .openFailed i →
      Step s (.abandon i) (s.act op (s.openFailed i now) (.go .done))
  | publish {op i fd now b} : op ∈ s.ops → op.pc = .opened i fd → s.openDone i fd now = (b, none) →
      Step s (.publish i) (s.act op b (.published i))
  | connReset {op i fd now b cfd} : op ∈ s.ops → op.pc = .opened i fd →
      s.openDone i fd now = (b, some cfd) →
      Step s (.publish i) (s.act op b (.closing ⟨cfd, i, (s.sess i).frees⟩ .done))
  | handle {op i} : op ∈ s.ops → op.pc = .published i →
      Step s (.handle op.cid (makeHandle s.epoch i (s.sess i).gen))
        (s.act op s.toBroker (.go .done))
  -- `op_close`, `do_ioctl`, `op_poll` and `op_map`
  | acquire {op h now i b} (closes : Bool) : op ∈ s.ops → op.pc = .entered →
      s.sessionAcquire op.cid h now = .ok (i, b) →
      Step s (.acquire op.cid h i) (s.act op b (.held i (s.sess i).frees closes))
  | refuse {op h now e} : op ∈ s.ops → op.pc = .entered → s.sessionAcquire op.cid h now = .error e →
      Step s (.refuse op.cid h e) (s.act op s.toBroker (.go .done))
  | reject {op} : op ∈ s.ops → op.pc = .entered →
      Step s (.reject op.cid) (s.act op s.toBroker (.go .done))
  | release {op i n now} : op ∈ s.ops → op.pc = .held i n false →
      Step s (.release i) (s.act op (s.sessionRelease i now).1
        (.after i (s.sess i) (s.sessionRelease i now).2 .done))
  | close {op i n now} : op ∈ s.ops → op.pc = .held i n true →
      Step s (.close i) (s.act op (s.sessionClose i true now).1
        (.after i (s.sess i) (s.sessionClose i true now).2 .done))
  | closeFd {op c k} : op ∈ s.ops → op.pc = .closing c k → Step s (.closeFd c.fd)
        { s.act op s.toBroker (.go k) with closed := c :: s.closed }
  -- the two loops over the table
  | clientGone (cid) : Step s (.clientGone cid) (s.spawn s.toBroker ⟨cid, .go (.gone 0)⟩)
  | goneSlot {op} {i : Fin 64} {now} : op ∈ s.ops → op.pc = .go (.gone i) →
      Step s (.goneSlot i) (s.act op (s.goneSlot op.cid i now).1
        (.after i (s.sess i) (s.goneSlot op.cid i now).2 (.gone (i + 1))))
  | reapIdle (start idleMs) : Step s .reapIdle (s.spawn s.toBroker ⟨0, .go (.reap start idleMs 0)⟩)
  | reapSlot {op} {start idleMs} {i : Fin 64} {now} : op ∈ s.ops →
      op.pc = .go (.reap start idleMs i) →
      Step s (.reapSlot i) (s.act op (s.reapSlot i start idleMs now).1
        (.after i (s.sess i) (s.reapSlot i start idleMs now).2 (.reap start idleMs (i + 1))))
  | finish {op k} : op ∈ s.ops → op.pc = .go k →
      k = .done ∨ k = .gone 64 ∨ (∃ start idleMs, k = .reap start idleMs 64) →
      Step s .finish { s with ops := s.ops.erase op }

/-- The broker from `iav_broker_init` on. -/
def brokerSystem : System State Event where
  init s := ∃ random maxPerCid rate, s = .start (.init random maxPerCid rate)
  step := Step

end AmbaVirt.Iav
