/-
The low slices: the lease manager (`virt_low_lease.c`), the arena the
slices are used through (`virt_slice_arena.c`), the cid bindings
(`iav_slice_rpc.c`) and the broker's jobs on a slice
(`do_ioctl` in `iav_broker.c`), as one transition system.

# Threads and locks

- The admin thread serves RESERVE_LOW and RELEASE_LOW under the lease
  lock. A command is cut at every effect on the arena, the bindings, the
  slots and the store (`Admin` is the thread's position).
- A RESERVE_LOW that finds every free slice in quarantine gives the lock
  up and waits.
- The scrubber takes the lease lock for the pending check and for the
  clear, the arena lock for the due check, and no lock for the scrub.
- A broker job is an arena call: begin, re-check of the binding, driver
  call, end.
- A crash ends a server run. The next one begins with `set_parent` and
  `load`, before the admin socket opens.

`Server.log` is a history variable, newest entry first.
-/
import AmbaVirt.Basic
import AmbaVirt.Lib.Trans

namespace AmbaVirt.Low

open Lib Function

-- ==== state

/-- `VIRT_SLICE_QUARANTINE_MS`. -/
def quarantineMs : Nat := 4000

/-- `struct low_slot` of a slot in use; `index` is the low slice. The
uuids are those that pass `uuid_ok`. -/
structure Lease (U : Type) where
  uuid : U
  index : Fin 8
  epoch : UInt64
  cid : UInt32
  deriving DecidableEq

/-- `struct arena_slot`, without its scrub statistics. -/
structure ArenaSlot where
  quarantined : Bool
  inflight : Nat
  lastEnd : Nat
  released : Nat
  deriving DecidableEq

inductive Line (U : Type)
  | lease (l : Lease U)
  | scrub (i : Fin 8)
  deriving DecidableEq

/-- Where the admin thread is. Everywhere but at `idle` and `waiting`
it holds the lease lock. -/
inductive Admin (U : Type)
  | idle
  | waiting (uuid : U) (cid : UInt32)
  -- RESERVE_LOW of a uuid with a lease: the old cid is unbound; the new
  -- cid is in the slot
  | found (k : Fin 8) (cid : UInt32)
  | rebound (k : Fin 8)
  -- RESERVE_LOW of a new uuid: the slot is filled
  | filled (k : Fin 8)
  -- either of them: the store is written, the slot not yet bound
  | stored (k : Fin 8)
  -- RELEASE_LOW: the slice is quarantined; its cid is unbound
  | quarantined (k : Fin 8) (saved : Lease U)
  | unbound (k : Fin 8) (saved : Lease U)
  -- RELEASE_LOW after a failed save: slot restored; slice open again
  | restored (k : Fin 8) (saved : Lease U)
  | reopened (k : Fin 8) (saved : Lease U)
  deriving DecidableEq

/-- Where the scrubber is in its round for a slice. -/
inductive Scrubber
  | idle
  | pending (i : Fin 8)
  | due (i : Fin 8)
  | scrubbing (i : Fin 8)
  | scrubbed (i : Fin 8)
  deriving DecidableEq

/-- Where a broker job is: counted in flight, past the re-check, in the
driver. -/
inductive JobPc
  | begun | checked | running
  deriving DecidableEq

/-- A broker job of guest `cid` that names slice `index`. -/
structure Job where
  cid : UInt32
  index : Fin 8
  pc : JobPc
  deriving DecidableEq

inductive Obs (U : Type)
  | granted (uuid : U) (i : Fin 8)
  | released (uuid : U) (i : Fin 8) (at_ : Nat)
  | reloaded (at_ : Nat) (pending : Fin 8 → Bool)
  | scrubStarted (i : Fin 8) (at_ : Nat) (quarantined : Bool) (jobs : List Job)
  | scrubEnded (i : Fin 8) (ok : Bool)
  | arenaEnded (i : Fin 8) (at_ : Nat)

/-- What the lease lock guards: the slots, the slices that wait for a
scrub, the store, and the position of the thread that works on them. -/
structure Leases (U : Type) where
  slots : Fin 8 → Option (Lease U)
  scrub : Fin 8 → Bool
  nextEpoch : UInt64
  store : List (Line U)
  admin : Admin U

/-- The server: leases, bindings, arena, clock, scrubber and the broker's
jobs on low slices. -/
structure Server (U : Type) extends Leases U where
  binds : Fin 8 → Option (UInt32 × Fin 8)
  arena : Fin 8 → ArenaSlot
  now : Nat
  scrubber : Scrubber
  jobs : List Job
  log : List (Obs U)

-- ==== bindings

/-- `struct slice_binding g_bind[]`: the slice each guest's calls use. -/
abbrev Binds := Fin 8 → Option (UInt32 × Fin 8)

def findCid (b : Binds) (cid : UInt32) : Option (Fin 8) :=
  if cid = 0 then none else Fin.find? fun k => (b k).any (·.1 == cid)

/-- `iav_slice_rpc_bind`. -/
def bind (b : Binds) (cid : UInt32) (i : Fin 8) : Binds :=
  if cid = 0 then b else
    match (findCid b cid).or (Fin.find? fun k => (b k).isNone) with
    | some k => update b k (some (cid, i))
    | none => b

/-- `iav_slice_rpc_unbind`. -/
def unbind (b : Binds) (cid : UInt32) : Binds :=
  match findCid b cid with
  | some k => update b k none
  | none => b

/-- `iav_slice_rpc_held`, the broker's `slice_of`. -/
def held (b : Binds) (cid : UInt32) : Option (Fin 8) :=
  (findCid b cid).bind fun k => (b k).map (·.2)

-- ==== arena

namespace ArenaSlot

/-- `memset` in `init_locked`. -/
def zero : ArenaSlot := ⟨false, 0, 0, 0⟩

/-- `virt_slice_arena_begin` of a slice that is not quarantined. -/
def begin_ (a : ArenaSlot) : ArenaSlot :=
  { a with inflight := a.inflight + 1 }

/-- `virt_slice_arena_end`. -/
def end_ (a : ArenaSlot) (now : Nat) : ArenaSlot :=
  { a with inflight := a.inflight - 1, lastEnd := now }

/-- `virt_slice_arena_quarantine`. -/
def quarantine (a : ArenaSlot) (releasedMs : Nat) : ArenaSlot :=
  { a with quarantined := true, released := releasedMs }

/-- `virt_slice_arena_unquarantine`. -/
def unquarantine (a : ArenaSlot) : ArenaSlot :=
  { a with quarantined := false }

/-- `virt_slice_arena_scrub_due`. -/
def ScrubDue (a : ArenaSlot) (now : Nat) : Prop :=
  a.quarantined = true ∧ a.inflight = 0 ∧ (if a.released > a.lastEnd then a.released else a.lastEnd)
      + quarantineMs ≤ now
  deriving Decidable

end ArenaSlot

-- ==== leases

namespace Leases

variable {U : Type}

/-- `index_leased`. -/
def IndexLeased (x : Leases U) (i : Fin 8) : Prop :=
  ∃ k, ∃ l ∈ x.slots k, l.index = i
  deriving Decidable

/-- `index_taken`: leased, or waiting for its scrub. -/
def IndexTaken (x : Leases U) (i : Fin 8) : Prop :=
  x.IndexLeased i ∨ x.scrub i = true
  deriving Decidable

/-- `any_scrub_pending`. -/
def AnyScrubPending (x : Leases U) : Prop := ∃ i, x.scrub i = true
  deriving Decidable

def freeIndex (x : Leases U) : Option (Fin 8) :=
  Fin.find? fun i => decide ¬ x.IndexTaken i

def freeSlot (x : Leases U) : Option (Fin 8) :=
  Fin.find? fun k => (x.slots k).isNone

/-- What `save_locked` writes: the leases, then the slices that wait for
their scrub. -/
def lines (x : Leases U) : List (Line U) :=
  ((List.finRange 8).filterMap x.slots).map .lease ++ ((List.finRange 8).filter x.scrub).map .scrub

/-- `save_locked`; a failed one leaves the old store. -/
def save (x : Leases U) (ok : Bool) : Leases U :=
  if ok then { x with store := x.lines } else x

def setSlot (x : Leases U) (k : Fin 8) (l : Option (Lease U)) : Leases U :=
  { x with slots := update x.slots k l }

def setScrub (x : Leases U) (i : Fin 8) (b : Bool) : Leases U :=
  { x with scrub := update x.scrub i b }

def goto (x : Leases U) (a : Admin U) : Leases U := { x with admin := a }

@[simp] theorem goto_admin (x : Leases U) (a : Admin U) : (x.goto a).admin = a := rfl

/-- `reserve_locked` after its search: the new lease, before the save. -/
def fill (x : Leases U) (uuid : U) (cid : UInt32) (i : Fin 8) : Leases U :=
  match x.freeSlot with
  | none => x.goto .idle
  | some k =>
    { x.setSlot k (some ⟨uuid, i, x.nextEpoch, cid⟩) with
      nextEpoch := x.nextEpoch + 1, admin := .filled k }

/-- One round of the search loop of `reserve_locked`: a slice, or a wait
for the scrubber, or ERR EXHAUSTED. -/
def search (x : Leases U) (uuid : U) (cid : UInt32) : Leases U :=
  match x.freeIndex with
  | some i => x.fill uuid cid i
  | none =>
    if x.AnyScrubPending then x.goto (.waiting uuid cid) else x.goto .idle

def lastSearch (x : Leases U) (uuid : U) (cid : UInt32) : Leases U :=
  match x.freeIndex with
  | some i => x.fill uuid cid i
  | none => x.goto .idle

variable [DecidableEq U]

def findUuid (x : Leases U) (uuid : U) : Option (Fin 8) :=
  Fin.find? fun k => (x.slots k).any (·.uuid == uuid)

end Leases

namespace Server

variable {U : Type}

def setArena (s : Server U) (i : Fin 8) (f : ArenaSlot → ArenaSlot) : Server U :=
  { s with arena := update s.arena i (f (s.arena i)) }

/-- `bind_slot`. -/
def bindSlot (s : Server U) (l : Lease U) : Server U :=
  { s with binds := bind s.binds l.cid l.index }

def unbindCid (s : Server U) (cid : UInt32) : Server U :=
  { s with binds := unbind s.binds cid }

def withLeases (s : Server U) (x : Leases U) : Server U :=
  { s with toLeases := x }

@[simp] theorem withLeases_toLeases (s : Server U) (x : Leases U) :
    (s.withLeases x).toLeases = x := rfl

def note (s : Server U) (o : Obs U) : Server U :=
  { s with log := o :: s.log }

@[simp] theorem note_toLeases (s : Server U) (o : Obs U) : (s.note o).toLeases = s.toLeases := rfl

-- ==== starting a run

section Start

variable [DecidableEq U]

/-- The loop of `virt_low_lease_load`. -/
def loadLines : List (Line U) → Server U → Server U
  | [], s => s
  | .scrub i :: ls, s => loadLines ls (s.withLeases (s.setScrub i true))
  | .lease l :: ls, s =>
    if l.epoch = 0 ∨ l.cid = 0 ∨ (s.findUuid l.uuid).isSome ∨ s.IndexTaken l.index then
      loadLines ls s
    else
      match s.freeSlot with
      -- no slot is left: the loop ends here
      | none => s
      | some k =>
        loadLines ls ((s.withLeases { s.setSlot k (some l) with
              nextEpoch :=
                if l.epoch ≥ s.nextEpoch then l.epoch + 1
                else s.nextEpoch }).bindSlot l)

/-- `quarantine_unleased_locked`. A slice the store had no scrub line
for was released long ago. -/
def quarantineUnleased (s : Server U) : Server U :=
  { s with
    scrub := fun i => if s.IndexLeased i then s.scrub i else true
    arena := fun i =>
      if s.IndexLeased i then s.arena i
      else if s.scrub i = true then (s.arena i).quarantine s.now
      else (s.arena i).quarantine (s.now - quarantineMs) }

/-- The memory of a server that has not loaded its store. -/
def boot (now : Nat) (store : List (Line U)) (log : List (Obs U)) : Server U where
  slots _ := none
  scrub _ := false
  nextEpoch := 1
  store := store
  admin := .idle
  binds _ := none
  arena _ := .zero
  now := now
  scrubber := .idle
  jobs := []
  log := log

/-- A new server run: `set_parent`, then `virt_low_lease_load` of the
store as it was last written. -/
def start (now : Nat) (store : List (Line U)) (log : List (Obs U)) : Server U :=
  let s := loadLines store (boot now store log)
  s.quarantineUnleased.note (.reloaded now s.scrub)

end Start

/-- The end of job `j`'s arena call. -/
def endJob (s : Server U) (j : Job) : Server U :=
  ({ s with jobs := s.jobs.erase j }.setArena j.index (·.end_ s.now)).note
    (.arenaEnded j.index s.now)

/-- Job `j` moves on. -/
def moveJob (s : Server U) (j : Job) (pc : JobPc) : Server U :=
  { s with jobs := { j with pc := pc } :: s.jobs.erase j }

end Server

-- ==== steps

/-- What can happen next. `ok` says whether the save of the step, or the
scrub, succeeds. -/
inductive Event (U : Type)
  | tick (ms : Nat)
  | crash (now : Nat)
  | reserve (uuid : U) (cid : UInt32)
  | wake
  | timeout
  | setCid
  | reserveSave (ok : Bool)
  | grant
  | release (uuid : U) (epoch : UInt64)
  | releaseUnbind
  | releaseSave (ok : Bool)
  | releaseReopen
  | releaseRebind
  | scrubPending (i : Fin 8)
  | scrubDue
  | scrubStart
  | scrubEnd (ok : Bool)
  | scrubClear (ok : Bool)
  | arenaBegin (cid : UInt32) (i : Fin 8)
  | recheck (j : Job) (passed : Bool)
  | driverStart (j : Job)
  | arenaEnd (j : Job)

def Admin.Unlocked {U : Type} (a : Admin U) : Prop :=
  a = .idle ∨ ∃ uuid cid, a = .waiting uuid cid

section Steps

variable {U : Type} [DecidableEq U]

/-- RESERVE_LOW (`reserve_locked`). A command that is refused at once
changes nothing and is no step. -/
inductive ReserveStep (s : Server U) : Event U → Server U → Prop
  | found {uuid cid k l} : s.admin = .idle → cid ≠ 0 →
      s.findUuid uuid = some k → s.slots k = some l →
      ReserveStep s (.reserve uuid cid) ((if l.cid ≠ cid then s.unbindCid l.cid else s).withLeases
          (s.goto (.found k cid)))
  | setCid {k cid l} : s.admin = .found k cid → s.slots k = some l → ReserveStep s .setCid
        (s.withLeases ((s.setSlot k (some { l with cid := cid })).goto (.rebound k)))
  | saveFound {k ok} : s.admin = .rebound k → ReserveStep s (.reserveSave ok) (s.withLeases
          ((s.save ok).goto (if ok then .stored k else .idle)))
  | search {uuid cid} : s.admin = .idle → cid ≠ 0 → s.findUuid uuid = none → s.nextEpoch ≠ 0 →
      ReserveStep s (.reserve uuid cid) (s.withLeases (s.search uuid cid))
  -- `pthread_cond_timedwait` returned 0
  | wakeFound {uuid cid k} : s.admin = .waiting uuid cid → s.findUuid uuid = some k →
      ReserveStep s .wake (s.withLeases (s.goto (.stored k)))
  | wakeSearch {uuid cid} : s.admin = .waiting uuid cid → s.findUuid uuid = none →
      ReserveStep s .wake (s.withLeases (s.search uuid cid))
  | timeout {uuid cid} : s.admin = .waiting uuid cid →
      ReserveStep s .timeout (s.withLeases (s.lastSearch uuid cid))
  | saveFilled {k} : s.admin = .filled k → ReserveStep s (.reserveSave true)
        (s.withLeases ((s.save true).goto (.stored k)))
  | dropFilled {k} : s.admin = .filled k → ReserveStep s (.reserveSave false)
        (s.withLeases ((s.setSlot k none).goto .idle))
  | grant {k l} : s.admin = .stored k → s.slots k = some l → ReserveStep s .grant
        (((s.bindSlot l).withLeases (s.goto .idle)).note (.granted l.uuid l.index))

/-- RELEASE_LOW (`release_locked`). -/
inductive ReleaseStep (s : Server U) : Event U → Server U → Prop
  | quarantine {uuid epoch k l} : s.admin = .idle →
      s.findUuid uuid = some k → s.slots k = some l → l.epoch = epoch →
      ReleaseStep s (.release uuid epoch) ((s.setArena l.index (·.quarantine s.now)).withLeases
          (s.goto (.quarantined k l)))
  | unbind {k saved} : s.admin = .quarantined k saved → ReleaseStep s .releaseUnbind
        ((s.unbindCid saved.cid).withLeases ((s.setScrub saved.index true).goto (.unbound k saved)))
  | save {k saved} : s.admin = .unbound k saved → ReleaseStep s (.releaseSave true)
        ((s.withLeases (((s.setSlot k none).save true).goto .idle)).note
          (.released saved.uuid saved.index (s.arena saved.index).released))
  -- the slot is cleared and restored under the lock
  | restore {k saved} : s.admin = .unbound k saved → ReleaseStep s (.releaseSave false)
        (s.withLeases (((s.setSlot k (some saved)).setScrub saved.index
          false).goto (.restored k saved)))
  | reopen {k saved} : s.admin = .restored k saved → ReleaseStep s .releaseReopen
        ((s.setArena saved.index (·.unquarantine)).withLeases (s.goto (.reopened k saved)))
  | rebind {k saved} : s.admin = .reopened k saved → ReleaseStep s .releaseRebind
        ((s.bindSlot saved).withLeases (s.goto .idle))

/-- The scrubber's round for one slice (`virt_low_lease_scrub_pass`). -/
inductive ScrubStep (s : Server U) : Event U → Server U → Prop
  | pending {i} : s.scrubber = .idle → s.admin.Unlocked → s.scrub i = true → ¬ s.IndexLeased i →
      ScrubStep s (.scrubPending i) { s with scrubber := .pending i }
  | due {i} : s.scrubber = .pending i → ScrubStep s .scrubDue { s with
          scrubber :=
            if (s.arena i).ScrubDue s.now then .due i else .idle }
  | start {i} : s.scrubber = .due i → ScrubStep s .scrubStart
        ({ s with scrubber := .scrubbing i }.note
          (.scrubStarted i s.now (s.arena i).quarantined s.jobs))
  | done {i ok} : s.scrubber = .scrubbing i → ScrubStep s (.scrubEnd ok)
        ({ s with scrubber := if ok then .scrubbed i else .idle }.note (.scrubEnded i ok))
  | clear {i ok} : s.scrubber = .scrubbed i → s.admin.Unlocked → ScrubStep s (.scrubClear ok)
        (({ s with scrubber := .idle }.setArena i (·.unquarantine)).withLeases
          ((s.setScrub i false).save ok))

/-- The broker's arena call (`do_ioctl`). Which slice a job names was
decided long before, so `index` is any slice here. The re-check loads the
binding table field by field without a lock, while a bind or an unbind
stores it field by field, so what it finds is left open. -/
inductive JobStep (s : Server U) : Event U → Server U → Prop
  | begin_ {cid i} : (s.arena i).quarantined = false → JobStep s (.arenaBegin cid i)
        ({ s with jobs := ⟨cid, i, .begun⟩ :: s.jobs }.setArena i (·.begin_))
  | recheck {j} : j ∈ s.jobs → j.pc = .begun →
      JobStep s (.recheck j true) (s.moveJob j .checked)
  | refuse {j} : j ∈ s.jobs → j.pc = .begun → JobStep s (.recheck j false) (s.endJob j)
  | driverStart {j} : j ∈ s.jobs → j.pc = .checked →
      JobStep s (.driverStart j) (s.moveJob j .running)
  | end_ {j} : j ∈ s.jobs → j.pc = .running → JobStep s (.arenaEnd j) (s.endJob j)

/-- A step of any thread, of the clock, or a crash. The clock of the
next run may start anywhere. -/
inductive Step : Server U → Event U → Server U → Prop
  | tick (s ms) : Step s (.tick ms) { s with now := s.now + ms }
  | crash (s now) : Step s (.crash now) (.start now s.store s.log)
  | reserve {s e s'} : ReserveStep s e s' → Step s e s'
  | release {s e s'} : ReleaseStep s e s' → Step s e s'
  | scrub {s e s'} : ScrubStep s e s' → Step s e s'
  | job {s e s'} : JobStep s e s' → Step s e s'

end Steps

def serverSystem (U : Type) [DecidableEq U] : System (Server U) (Event U) where
  init s := ∃ now, s = .start now [] []
  step := Step

end AmbaVirt.Low
