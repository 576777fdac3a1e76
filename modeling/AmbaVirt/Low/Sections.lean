/-
RESERVE_LOW and RELEASE_LOW as the code runs them under the lease lock,
for any number of callers at once, with their replies.

What a caller does between taking the lock and giving it up is a
`Section`: its effects in the order of the code (`Act`), and a reply, or
none if it goes to wait for a scrub. The effects on the binding table,
which has no lock, are also looked at one by one (AmbaVirt.Low.Torn).

`Hall` is the server with the callers that wait: where
AmbaVirt.Low.Server has one admin thread, here a command that waits is
overtaken by others. A restarted server is first `boot`, and refuses
every RESERVE_LOW until `virt_low_lease_arm_module` has loaded the store.
`granted` and `freed` are history variables: uuid and epoch of every
lease made and released.
-/
import AmbaVirt.Lease.Table
import AmbaVirt.Low.Inv

namespace AmbaVirt.Low

open Lib

-- ==== effects

/-- An effect of a command on what the lock guards, on the arena or on
the binding table. -/
inductive Act (U : Type)
  | slot (k : Fin 8) (l : Option (Lease U))
  | bumpEpoch
  | raiseEpoch (loaded : UInt64)
  | scrub (i : Fin 8) (b : Bool)
  | quarantine (i : Fin 8)
  | unquarantine (i : Fin 8)
  | unbind (cid : UInt32)
  | bind (cid : UInt32) (i : Fin 8)
  | save (ok : Bool)
  | quarantineUnleased

section Exec

variable {U : Type}

def Act.run (s : Server U) : Act U → Server U
  | .slot k l => s.withLeases (s.setSlot k l)
  | .bumpEpoch => s.withLeases { s.toLeases with nextEpoch := s.nextEpoch + 1 }
  | .raiseEpoch e =>
    s.withLeases { s.toLeases with
        nextEpoch := if e ≥ s.nextEpoch then e + 1 else s.nextEpoch }
  | .scrub i b => s.withLeases (s.setScrub i b)
  | .quarantine i => s.setArena i (·.quarantine s.now)
  | .unquarantine i => s.setArena i (·.unquarantine)
  | .unbind cid => s.unbindCid cid
  | .bind cid i => { s with binds := Low.bind s.binds cid i }
  | .save ok => s.withLeases (s.save ok)
  | .quarantineUnleased => s.quarantineUnleased

/-- The effects one after the other. -/
def exec (acts : List (Act U)) (s : Server U) : Server U := acts.foldl Act.run s

@[simp] theorem exec_nil (s : Server U) : exec [] s = s := rfl

@[simp] theorem exec_cons (a : Act U) (acts : List (Act U)) (s : Server U) :
    exec (a :: acts) s = exec acts (a.run s) := rfl

theorem exec_append (as bs : List (Act U)) (s : Server U) :
    exec (as ++ bs) s = exec bs (exec as s) := List.foldl_append

end Exec

-- ==== replies

inductive Refusal
  | geometry | inval | exhausted | persist | notFound | stale | notPaired
  | unknownCmd
  deriving DecidableEq

def Refusal.word : Refusal → String
  | geometry => "GEOMETRY"
  | inval => "INVAL"
  | exhausted => "EXHAUSTED"
  | persist => "PERSIST"
  | notFound => "NOT_FOUND"
  | stale => "STALE"
  | notPaired => "NOT_PAIRED"
  | unknownCmd => "UNKNOWN_CMD"

inductive Reply
  | granted (l : Lease Text)
  | released
  | err (e : Refusal)
  deriving DecidableEq

/-- `VIRT_LOW_LEASE_USABLE`. -/
def VIRT_LOW_LEASE_USABLE : Nat := 64 * 1024 * 1024 - 4096

def Reply.text : Reply → Text
  | granted l =>
    "OK index=".toList ++ decimal l.index.val
      ++ " path=/dev/amba_virt_iav_slice".toList ++ decimal l.index.val
      ++ " epoch=".toList ++ decimal l.epoch.toNat
      ++ " usable=".toList ++ decimal VIRT_LOW_LEASE_USABLE ++ ['\n']
  | released => "OK\n".toList
  | err e => "ERR ".toList ++ e.word.toList ++ ['\n']

def Reply.IsErr (r : Reply) : Prop := ∃ e, r = .err e

theorem Reply.isErr_iff {r : Reply} : r.IsErr ↔ "ERR".toList <+: r.text := by
  have hhead : r.text.head? = some (match r with | .err _ => 'E' | _ => 'O') := by
    unfold Reply.text
    cases r <;> simp
  constructor
  · intro h
    obtain ⟨e, rfl⟩ := h
    unfold Reply.text
    simp
  · intro h
    obtain ⟨rest, h⟩ := h
    rw [← h] at hhead
    cases r with
    | granted l => exact absurd hhead (by simp)
    | released => exact absurd hhead (by simp)
    | err e => exact ⟨e, rfl⟩

-- ==== sections

/-- What a caller does while it holds the lock. Without a reply it goes
to wait. -/
structure Section where
  acts : List (Act Text) := []
  reply : Option Reply
  /-- The lease it makes, or releases. -/
  granted : Option (Lease Text) := none
  freed : Option (Lease Text) := none

def Section.refuse (e : Refusal) : Section := { reply := some (.err e) }

section Reserve

variable (s : Server Text) (uuid : Text) (cid : UInt32) (ok : Bool)

/-- `reserve_locked` of a uuid with a lease. -/
def reserveFound (k : Fin 8) (l : Lease Text) : Section where
  acts := (if l.cid ≠ cid then [.unbind l.cid] else [])
    ++ [.slot k (some { l with cid := cid }), .save ok]
    ++ (if ok then [.bind cid l.index] else [])
  reply := some (if ok then .granted { l with cid := cid } else .err .persist)

/-- `reserve_locked` once a slice is found. -/
def grantNew (i : Fin 8) : Section :=
  match s.freeSlot with
  | none => .refuse .exhausted
  | some k =>
    let l : Lease Text := ⟨uuid, i, s.nextEpoch, cid⟩
    { acts := [.slot k (some l), .bumpEpoch, .save ok]
        ++ (if ok then [.bind cid i] else [.slot k none])
      reply := some (if ok then .granted l else .err .persist)
      granted := if ok then some l else none }

/-- A round of the search loop; `waits` says whether
`g_reserve_wait_ms` is not 0. -/
def searchRound (waits : Bool) : Section :=
  match s.freeIndex with
  | some i => grantNew s uuid cid ok i
  | none =>
    if s.AnyScrubPending ∧ waits = true then { reply := none }
    else .refuse .exhausted

/-- `reserve_locked`. -/
def reserveLocked (ready waits : Bool) : Section :=
  if ready = false then .refuse .geometry
  else if AmbaVirt.Lease.uuidOk uuid = false ∨ cid = 0 then .refuse .inval
  else
    match s.findUuid uuid with
    | some k => (s.slots k).elim (.refuse .exhausted) (reserveFound cid ok k)
    | none =>
      if s.nextEpoch = 0 then .refuse .exhausted
      else searchRound s uuid cid ok waits

/-- After a wait that was ended by a scrub. A lease of the uuid that is
there by now is answered as it is. -/
def woken (waits : Bool) : Section :=
  match s.findUuid uuid with
  | some k =>
    (s.slots k).elim (.refuse .exhausted) fun l =>
      { acts := [.bind l.cid l.index], reply := some (.granted l) }
  | none => searchRound s uuid cid ok waits

/-- After a wait that timed out: one more search, whatever the uuid holds
by now. -/
def timedOut : Section :=
  match s.freeIndex with
  | some i => grantNew s uuid cid ok i
  | none => .refuse .exhausted

end Reserve

/-- `release_locked`. -/
def releaseLocked (s : Server Text) (uuid : Text) (epoch : UInt64) (ok : Bool) :
    Section :=
  if AmbaVirt.Lease.uuidOk uuid = false then .refuse .inval
  else
    match s.findUuid uuid with
    | none => .refuse .notFound
    | some k =>
      (s.slots k).elim (.refuse .notFound) fun l =>
        if l.epoch ≠ epoch then .refuse .stale
        else
          { acts := [.quarantine l.index, .scrub l.index true, .unbind l.cid,
                .slot k none, .save ok]
              ++ (if ok then []
                else [.slot k (some l), .scrub l.index false,
                  .unquarantine l.index, .bind l.cid l.index])
            reply := some (if ok then .released else .err .persist)
            freed := if ok then some l else none }

-- ---- what a RESERVE_LOW does

/-- What the section of a RESERVE_LOW can be: an answer, the lease of its
uuid with the new cid, a new lease, or, after a wait, the lease its uuid
got meanwhile. -/
inductive Reserves (s : Server Text) (uuid : Text) (cid : UInt32) (ready waited : Bool) :
    Section → Prop
  | quiet {x} : x.acts = [] → x.granted = none → x.freed = none →
      (∀ l, x.reply ≠ some (.granted l)) → Reserves s uuid cid ready waited x
  | found {ok k l} : waited = false → ready = true → AmbaVirt.Lease.uuidOk uuid = true →
      cid ≠ 0 → s.findUuid uuid = some k → s.slots k = some l →
      Reserves s uuid cid ready waited (reserveFound cid ok k l)
  | grant {ok i} : ready = true → cid ≠ 0 → s.freeIndex = some i →
      Reserves s uuid cid ready waited (grantNew s uuid cid ok i)
  | bound {k l} : waited = true → s.findUuid uuid = some k → s.slots k = some l →
      Reserves s uuid cid ready waited
        { acts := [.bind l.cid l.index], reply := some (.granted l) }

section Reserves

variable {s : Server Text} {uuid : Text} {cid : UInt32} {ok ready waited waits : Bool}

theorem reserves_refuse (e : Refusal) : Reserves s uuid cid ready waited (.refuse e) :=
  .quiet rfl rfl rfl (by simp [Section.refuse])

theorem reserves_searchRound (hr : ready = true) (hc : cid ≠ 0) :
    Reserves s uuid cid ready waited (searchRound s uuid cid ok waits) := by
  unfold searchRound
  cases hi : s.freeIndex with
  | some i => exact .grant hr hc hi
  | none =>
    dsimp only
    split
    · exact .quiet rfl rfl rfl (by simp)
    · exact reserves_refuse _

theorem reserves_timedOut (hr : ready = true) (hc : cid ≠ 0) :
    Reserves s uuid cid ready waited (timedOut s uuid cid ok) := by
  unfold timedOut
  cases hi : s.freeIndex with
  | some i => exact .grant hr hc hi
  | none => exact reserves_refuse _

theorem reserves_woken (hr : ready = true) (hc : cid ≠ 0) :
    Reserves s uuid cid ready true (woken s uuid cid ok waits) := by
  unfold woken
  cases hu : s.findUuid uuid with
  | none => exact reserves_searchRound hr hc
  | some k =>
    obtain ⟨l, hl, -⟩ := Leases.findUuid_some hu
    simp only [hl, Option.elim_some]
    exact .bound rfl hu hl

theorem reserves_reserveLocked :
    Reserves s uuid cid ready false (reserveLocked s uuid cid ok ready waits) := by
  unfold reserveLocked
  split
  · exact reserves_refuse _
  rename_i hr
  split
  · exact reserves_refuse _
  rename_i hok
  rw [not_or, Bool.not_eq_false] at hok
  have hr : ready = true := Bool.of_not_eq_false hr
  cases hu : s.findUuid uuid with
  | some k =>
    obtain ⟨l, hl, -⟩ := Leases.findUuid_some hu
    simp only [hl, Option.elim_some]
    exact .found rfl hr hok.1 hok.2 hu hl
  | none =>
    dsimp only
    split
    · exact reserves_refuse _
    · exact reserves_searchRound hr hok.2

end Reserves

-- ==== commands

inductive Command
  | reserve (uuid : Text) (cid : UInt32)
  | release (uuid : Text) (epoch : UInt64)
  | query (uuid : Text)
  deriving DecidableEq

/-- `parse_u32`. -/
def parseU32 (s : Text) : Option UInt32 :=
  ((parseU64 s).filter fun v => decide (v ≤ 0xffffffff)).map UInt64.toUInt32

/-- The start of `virt_low_lease_admin`; `paired` is what `cavalry_held`
says of the uuid. -/
def Command.parse (paired : Bool) (req : Text) : Except Refusal Command := do
  let f := scanWords 63 4 req
  refuseIf (f = []) .inval
  let cmd := f.getD 0 []
  let uuid := f.getD 1 []
  if cmd = "RESERVE_LOW".toList then do
    let cid ← require (parseU32 (f.getD 2 [])) .inval
    refuseIf (paired = false) .notPaired
    pure (.reserve uuid cid)
  else if cmd = "RELEASE_LOW".toList then do
    let epoch ← require (parseU64 (f.getD 2 [])) .inval
    pure (.release uuid epoch)
  else if cmd = "QUERY_LOW".toList then pure (.query uuid)
  else .error .unknownCmd

def query (s : Server Text) (uuid : Text) : Section :=
  match s.findUuid uuid with
  | none => .refuse .notFound
  | some k =>
    (s.slots k).elim (.refuse .notFound) fun l => { reply := some (.granted l) }

-- ==== load

/-- The effects of the loop of `virt_low_lease_load`. -/
def loadActs {U : Type} [DecidableEq U] : List (Line U) → Server U → List (Act U)
  | [], _ => []
  | .scrub i :: ls, s => .scrub i true :: loadActs ls ((Act.scrub i true).run s)
  | .lease l :: ls, s =>
    if l.epoch = 0 ∨ l.cid = 0 ∨ (s.findUuid l.uuid).isSome ∨ s.IndexTaken l.index then
      loadActs ls s
    else
      match s.freeSlot with
      | none => []
      | some k =>
        let acts : List (Act U) :=
          [.slot k (some l), .raiseEpoch l.epoch, .bind l.cid l.index]
        acts ++ loadActs ls (exec acts s)

theorem exec_loadActs {U : Type} [DecidableEq U] (ls : List (Line U))
    (s : Server U) : exec (loadActs ls s) s = s.loadLines ls := by
  induction ls generalizing s with
  | nil => rfl
  | cons line ls ih =>
    cases line with
    | scrub i => exact ih _
    | lease l =>
      rw [loadActs, Server.loadLines]
      split
      · exact ih s
      · cases s.freeSlot with
        | none => rfl
        | some k => exact (exec_append _ _ s).trans (ih _)

-- ==== the hall

/-- The server, whether it is armed, the callers that wait (uuid and cid
of their RESERVE_LOW), and the leases made and released. -/
structure Hall where
  srv : Server Text
  ready : Bool
  waiting : List (Text × UInt32)
  granted : List (Text × UInt64)
  freed : List (Text × UInt64)

/-- A caller takes the lock: with a new command, or after its wait. `ok`
says whether its save succeeds. -/
inductive Call
  | command (req : Text) (paired ok : Bool)
  | wake (n : Nat) (ok : Bool)
  | timeout (n : Nat) (ok : Bool)
  deriving DecidableEq

/-- The RESERVE_LOW a call works on. -/
def Call.reserves (h : Hall) : Call → Option (Text × UInt32)
  | .command req paired _ =>
    match Command.parse paired req with
    | .ok (.reserve uuid cid) => some (uuid, cid)
    | _ => none
  | .wake n _ | .timeout n _ => h.waiting[n]?

variable (waits : Bool)

def Call.sectionOf (h : Hall) : Call → Option Section
  | .command req paired ok =>
    some (match Command.parse paired req with
      | .error e => .refuse e
      | .ok (.reserve uuid cid) => reserveLocked h.srv uuid cid ok h.ready waits
      | .ok (.release uuid epoch) => releaseLocked h.srv uuid epoch ok
      | .ok (.query uuid) => query h.srv uuid)
  | .wake n ok =>
    (h.waiting[n]?).map fun (uuid, cid) => woken h.srv uuid cid ok waits
  | .timeout n ok =>
    (h.waiting[n]?).map fun (uuid, cid) => timedOut h.srv uuid cid ok

/-- Who waits after a call that ended, or did not end, with a reply. -/
def Call.waiting (h : Hall) (c : Call) (replied : Bool) : List (Text × UInt32) :=
  match c with
  | .command .. =>
    if replied then h.waiting else (c.reserves h).toList ++ h.waiting
  | .wake n _ | .timeout n _ =>
    if replied then h.waiting.eraseIdx n else h.waiting

def key (l : Lease Text) : Text × UInt64 := (l.uuid, l.epoch)

def Hall.after (h : Hall) (c : Call) (x : Section) : Hall where
  srv := exec x.acts h.srv
  ready := h.ready
  waiting := c.waiting h x.reply.isSome
  granted := (x.granted.map key).toList ++ h.granted
  freed := (x.freed.map key).toList ++ h.freed

/-- `virt_low_lease_arm_module`: set_parent and load. -/
def Hall.arm (h : Hall) : Hall :=
  { h with
    srv := exec (loadActs h.srv.store h.srv ++ [.quarantineUnleased]) h.srv
    ready := true }

inductive HallEvent
  | call (c : Call)
  | arm
  | crash (now : Nat)
  | tick (ms : Nat)
  | other (e : Event Text)

inductive HallStep : Hall → HallEvent → Hall → Prop
  | call {h c x} : c.sectionOf waits h = some x → HallStep h (.call c) (h.after c x)
  | arm {h} : h.ready = false → HallStep h .arm h.arm
  | crash {h now} : HallStep h (.crash now) { h with
        srv := .boot now h.srv.store h.srv.log, ready := false, waiting := [] }
  | tick {h ms} : HallStep h (.tick ms) { h with srv := { h.srv with now := h.srv.now + ms } }
  | scrub {h e srv'} : ScrubStep h.srv e srv' → HallStep h (.other e) { h with srv := srv' }
  | job {h e srv'} : JobStep h.srv e srv' → HallStep h (.other e) { h with srv := srv' }

/-- The hall from its first start, with no store. -/
def hallSystem : System Hall HallEvent where
  init h := ∃ now, h = ⟨.boot now [] [], false, [], [], []⟩
  step := HallStep waits

end AmbaVirt.Low
