/-
The leases of the high slices (`virt_slice_lease.c`): the table, its
store, and the admin commands that reserve and release a slice.

Every change is written to the store before it is answered. A save may
fail and then leaves the store as it was; `Saves` says for each place of
a command that saves whether it succeeds there. A ticketed reserve of a
new uuid saves twice, once for the grant and once for the ticket.

The role of a ticket, the verdict on its camera and the aux aperture
belong to other modules; `Camera` is what they answer. They decide the
text of the reply and the role that is recorded, never whether a slice is
granted. Every command runs under the table's lock and is one step. A
reply fits its buffer (4096 bytes at the admin socket).
-/
import AmbaVirt.Lib.Guard
import AmbaVirt.Lib.Scan

namespace AmbaVirt.Lease

open Lib

/-- `struct lease_slot` of a slot in use. A lease reserved without a
ticket has the empty one. -/
structure Slot where
  uuid : Text
  index : UInt32
  epoch : UInt64
  bytes : UInt64
  ticket : Text := []
  primary : Bool := false
  deriving DecidableEq

/-- The table with its geometry and its epoch counter, and the store. -/
structure Table where
  slots : Fin 8 → Option Slot := fun _ => none
  matched : Bool := false
  count : UInt32 := 0
  sliceBytes : UInt64 := 0
  nextEpoch : UInt64 := 1
  store : Text := []

/-- `isxdigit`. -/
def isXDigit (c : Char) : Bool :=
  c.isDigit || ('a' ≤ c && c ≤ 'f') || ('A' ≤ c && c ≤ 'F')

/-- `uuid_ok`. -/
def uuidOk (uuid : Text) : Bool :=
  1 ≤ uuid.length && uuid.length ≤ 36 && uuid.all fun c => c == '-' || isXDigit c

def VIRT_CAMERA_TICKET_MAX : Nat := 48

/-- `virt_camera_ticket_ok`. -/
def ticketOk (ticket : Text) : Bool :=
  1 ≤ ticket.length && ticket.length ≤ VIRT_CAMERA_TICKET_MAX &&
    ticket.all fun c => c.isAlphanum || c == '_' || c == '.' || c == '-'

namespace Table

/-- `find_uuid`: the slot, and the lease in it. -/
def findUuid (t : Table) (uuid : Text) : Option (Fin 8 × Slot) :=
  (Fin.find? fun k => (t.slots k).any (·.uuid == uuid)).bind fun k =>
    (t.slots k).map (k, ·)

/-- `index_taken`. -/
def IndexTaken (t : Table) (index : UInt32) : Prop :=
  ∃ k, ∃ l ∈ t.slots k, l.index = index
  deriving Decidable

def freeSlot (t : Table) : Option (Fin 8) :=
  Fin.find? fun k => (t.slots k).isNone

def setSlot (t : Table) (k : Fin 8) (l : Option Slot) : Table :=
  { t with slots := Function.update t.slots k l }

end Table

-- ==== store

def Slot.line (l : Slot) : Text :=
  l.uuid ++ ' ' :: (decimal l.index.toNat ++ ' ' :: (decimal l.epoch.toNat
    ++ ' ' :: (decimal l.bytes.toNat
    ++ ' ' :: ((if l.ticket = [] then ['-'] else l.ticket)
    ++ ' ' :: (if l.primary then "primary" else "consumer").toList))))

namespace Table

/-- What `save_locked` writes. -/
def text (t : Table) : Text :=
  ((List.finRange 8).filterMap t.slots).flatMap fun l => l.line ++ ['\n']

/-- `save_locked` that succeeds; one that fails changes nothing. -/
def save (t : Table) : Table := { t with store := t.text }

end Table

-- ==== replies

inductive Refusal
  | geometry | inval | zero | align | size | exhausted | persist | notFound
  | stale | unknownCmd
  deriving DecidableEq

def Refusal.word : Refusal → String
  | geometry => "GEOMETRY"
  | inval => "INVAL"
  | zero => "ZERO"
  | align => "ALIGN"
  | size => "SIZE"
  | exhausted => "EXHAUSTED"
  | persist => "PERSIST"
  | notFound => "NOT_FOUND"
  | stale => "STALE"
  | unknownCmd => "UNKNOWN_CMD"

/-- A reply; a lease is reported with what the camera policy adds. -/
inductive Reply
  | granted (l : Slot) (camera : Text)
  | released
  | err (e : Refusal)
  deriving DecidableEq

/-- The text of a reply (`format_ok`, and the suffix after it). -/
def Reply.text : Reply → Text
  | granted l camera =>
    "OK index=".toList ++ decimal l.index.toNat
      ++ " path=/dev/amba_virt_shm".toList ++ decimal l.index.toNat
      ++ " epoch=".toList ++ decimal l.epoch.toNat ++ camera ++ ['\n']
  | released => "OK\n".toList
  | err e => "ERR ".toList ++ e.word.toList ++ ['\n']

def Reply.IsErr (r : Reply) : Prop := ∃ e, r = .err e

theorem Reply.head_text (r : Reply) :
    r.text.head? = some (match r with | .err _ => 'E' | _ => 'O') := by
  unfold Reply.text
  cases r <;> simp

theorem Reply.isErr_iff {r : Reply} : r.IsErr ↔ "ERR".toList <+: r.text := by
  constructor
  · intro h
    obtain ⟨e, rfl⟩ := h
    unfold Reply.text
    simp
  · intro h
    obtain ⟨rest, h⟩ := h
    have hr := r.head_text
    rw [← h] at hr
    cases r with
    | granted l camera => exact absurd hr (by simp)
    | released => exact absurd hr (by simp)
    | err e => exact ⟨e, rfl⟩

-- ==== camera

inductive Intent
  | absent | off | on
  deriving DecidableEq

/-- `struct virt_camera_verdict`. -/
structure Verdict where
  camera : Bool := false
  dsp : UInt64 := 0
  bsb : UInt64 := 0
  dec : UInt64 := 0
  ovl : UInt64 := 0
  deriving DecidableEq

/-- ` name=value`. -/
def field (name : String) (v : UInt64) : Text :=
  ' ' :: name.toList ++ '=' :: decimal v.toNat

/-- `virt_camera_verdict_format`. -/
def Verdict.format (v : Verdict) : Text :=
  if v.camera then
    " camera=1".toList ++ field "dsp" v.dsp ++ field "bsb" v.bsb
      ++ (if v.dec ≠ 0 then field "dec" v.dec else [])
      ++ (if v.ovl ≠ 0 then field "ovl" v.ovl else [])
  else " camera=0".toList

/-- What the rest of the server answers during a command: whether a
ticket's role is primary, the verdict for a reserve, and the size the
aux hook reports (`none` if there is no hook, or it failed). -/
structure Camera where
  primary : Text → Bool
  verdict : Text → Intent → Bool → Verdict
  attach : UInt32 → UInt64 → Bool → Option UInt64

/-- What `append_camera_locked` adds for a ticketed lease. -/
def Camera.suffix (c : Camera) (l : Slot) (intent : Intent) : Text :=
  let v := c.verdict l.ticket intent l.primary
  let aux := (c.attach l.index l.epoch (v.camera && l.primary)).getD 0
  v.format ++ (if aux ≠ 0 ∧ v.camera = true then field "aux" aux else [])
    ++ (if l.primary then " role=primary" else " role=consumer").toList

-- ==== commands

/-- Whether the saves of a command succeed: that of the grant or the
release, and that of the ticket. -/
structure Saves where
  table : Bool
  ticket : Bool
  deriving DecidableEq

namespace Table

/-- The checks of `reserve_range_locked` before it looks for the uuid. -/
def accepts (t : Table) (uuid : Text) (bytes : UInt64) : Except Refusal Unit := do
  refuseIf (t.matched = false ∨ t.count = 0 ∨ t.sliceBytes = 0) .geometry
  refuseIf (uuidOk uuid = false) .inval
  refuseIf (bytes = 0) .zero
  refuseIf (bytes % 4096 ≠ 0) .align
  refuseIf (bytes ≠ t.sliceBytes) .size

/-- The first index from `minIndex` on that is not taken. -/
def freeIndex (t : Table) (minIndex : UInt32) : Option UInt32 :=
  (((List.range t.count.toNat).drop minIndex.toNat).map Nat.toUInt32).find?
    fun i => decide ¬ t.IndexTaken i

def pickIndex (t : Table) (minIndex : UInt32) (exact : Bool) : Option UInt32 :=
  if exact = false then t.freeIndex minIndex
  else if minIndex ≥ t.count ∨ t.IndexTaken minIndex then none
  else some minIndex

def pick (t : Table) (minIndex : UInt32) (exact : Bool) : Except Refusal (UInt32 × Fin 8) := do
  refuseIf (t.nextEpoch = 0) .exhausted
  let index ← require (t.pickIndex minIndex exact) .exhausted
  let k ← require t.freeSlot .exhausted
  pure (index, k)

def put (t : Table) (k : Fin 8) (l : Slot) : Table :=
  { t.setSlot k (some l) with nextEpoch := t.nextEpoch + 1 }

/-- `reserve_range_locked`. -/
def reserveRange (t : Table) (uuid : Text) (bytes : UInt64) (minIndex : UInt32)
    (exact ok : Bool) : Table × Reply :=
  match t.accepts uuid bytes with
  | .error e => (t, .err e)
  | .ok () =>
    match t.findUuid uuid with
    | some (_, l) => (t, .granted l [])
    | none =>
      match t.pick minIndex exact with
      | .error e => (t, .err e)
      | .ok (index, k) =>
        let l : Slot := { uuid, index, epoch := t.nextEpoch, bytes }
        if ok then ((t.put k l).save, .granted l [])
        else ((t.put k l).setSlot k none, .err .persist)

/-- `append_camera_locked`. -/
def appendCamera (t : Table) (uuid : Text) (ticket : Option (Text × Intent))
    (c : Camera) (ok : Bool) (r : Reply) : Table × Reply :=
  match r with
  | .granted .. =>
    match t.findUuid uuid with
    | none => (t, r)
    | some (k, l) =>
      match ticket with
      | none => (t, .granted l (Verdict.format {}))
      | some (ticket, intent) =>
        let l' := { l with ticket, primary := c.primary ticket }
        -- a failed save puts the old lease back
        if ok then ((t.setSlot k (some l')).save, .granted l' (c.suffix l' intent))
        else (t, .err .persist)
  | _ => (t, r)

/-- `release_locked`. -/
def release (t : Table) (uuid : Text) (epoch : UInt64) (ok : Bool) : Table × Reply :=
  if uuidOk uuid = false then (t, .err .inval)
  else
    match t.findUuid uuid with
    | none => (t, .err .notFound)
    | some (k, l) =>
      if l.epoch ≠ epoch then (t, .err .stale)
      else if ok then ((t.setSlot k none).save, .released)
      else (t, .err .persist)

/-- `query_locked`. -/
def query (t : Table) (uuid : Text) : Reply :=
  if uuidOk uuid = false then .err .inval
  else
    match t.findUuid uuid with
    | none => .err .notFound
    | some (_, l) => .granted l []

end Table

inductive Command
  | reserve (uuid : Text) (bytes : UInt64)
  | reserveAt (exact : Bool) (uuid : Text) (bytes : UInt64) (index : UInt32)
      (ticket : Text) (intent : Intent)
  | release (uuid : Text) (epoch : UInt64)
  | query (uuid : Text)
  deriving DecidableEq

/-- `virt_camera_intent_parse`. -/
def Intent.parse (s : Text) : Option Intent :=
  if s = "on".toList then some .on
  else if s = "off".toList then some .off
  else if s = "absent".toList then some .absent
  else none

/-- The fields of `virt_slice_lease_admin`'s `sscanf`. One that is not
there is empty. -/
def Command.parse (req : Text) : Except Refusal Command := do
  let f := scanWords 63 7 req
  refuseIf (f = []) .inval
  let cmd := f.getD 0 []
  let uuid := f.getD 1 []
  if cmd = "RESERVE_SLICE".toList then do
    let bytes ← require (parseU64 (f.getD 2 [])) .inval
    pure (.reserve uuid bytes)
  else if cmd = "RESERVE_SLICE_AT".toList ∨ cmd = "RESERVE_SLICE_MIN".toList then do
    refuseIf (f.length ≠ 6) .inval
    let bytes ← require (parseU64 (f.getD 2 [])) .inval
    let index ← require (parseU64 (f.getD 3 [])) .inval
    refuseIf (index > 0xffffffff) .inval
    refuseIf (ticketOk (f.getD 4 []) = false) .inval
    let intent ← require (Intent.parse (f.getD 5 [])) .inval
    pure (.reserveAt (decide (cmd = "RESERVE_SLICE_AT".toList)) uuid bytes
      index.toUInt32 (f.getD 4 []) intent)
  else if cmd = "RELEASE_SLICE".toList then do
    let epoch ← require (parseU64 (f.getD 2 [])) .inval
    pure (.release uuid epoch)
  else if cmd = "QUERY_SLICE".toList then pure (.query uuid)
  else .error .unknownCmd

namespace Table

def run (t : Table) (c : Camera) (ok : Saves) : Command → Table × Reply
  | .reserve uuid bytes =>
    let (t, r) := t.reserveRange uuid bytes 0 false ok.table
    t.appendCamera uuid none c ok.ticket r
  | .reserveAt exact uuid bytes index ticket intent =>
    let (t, r) := t.reserveRange uuid bytes index exact ok.table
    t.appendCamera uuid (some (ticket, intent)) c ok.ticket r
  | .release uuid epoch => t.release uuid epoch ok.table
  | .query uuid => (t, t.query uuid)

/-- `virt_slice_lease_admin`. -/
def admin (t : Table) (c : Camera) (ok : Saves) (req : Text) : Table × Reply :=
  match Command.parse req with
  | .error e => (t, .err e)
  | .ok cmd => t.run c ok cmd

end Table

-- ==== geometry and the reload

namespace Table

/-- `virt_slice_lease_set_geometry`; `ok` is its save, if it drops a
lease. -/
def setGeometry (t : Table) (matched : Bool) (count : UInt32) (bytes : UInt64)
    (ok : Bool) : Table :=
  if matched = true ∧ count ≥ 1 ∧ count ≤ 8 ∧ bytes ≠ 0 ∧ bytes % 4096 = 0 then
    let keep := fun l : Slot => decide (l.index < count ∧ l.bytes = bytes)
    let t' : Table :=
      { t with
        matched := true
        count := count
        sliceBytes := bytes
        slots := fun k => (t.slots k).filter keep }
    if (∃ k, ∃ l ∈ t.slots k, keep l = false) ∧ ok = true then t'.save else t'
  else { t with matched := false, count := 0, sliceBytes := 0 }

end Table

/-- The conversions of `virt_slice_lease_load`'s `sscanf`: four fields,
and what there is of the ticket and the role. -/
def scanLine (line : Text) : Option (Slot × List Text) := do
  let (uuid, rest) ← scanWord 63 line
  let (index, rest) ← scanU32 rest
  let (epoch, rest) ← scanU64 rest
  let (bytes, rest) ← scanU64 rest
  pure ({ uuid, index, epoch, bytes }, scanWords 63 2 rest)

/-- A lease keeps its ticket only if ticket and role parse. -/
def Slot.withTicket (l : Slot) : List Text → Slot
  | [ticket, role] =>
    if ticket ≠ ['-'] ∧ ticketOk ticket = true ∧
        (role = "primary".toList ∨ role = "consumer".toList) then
      { l with ticket, primary := decide (role = "primary".toList) }
    else l
  | _ => l

/-- The lease a line of the store stands for, if it is well formed. -/
def Slot.ofLine (line : Text) : Option Slot :=
  if line.head? = some '#' ∨ line.head? = some '\n' then none
  else
    (scanLine line).bind fun (l, more) =>
      if uuidOk l.uuid = false ∨ l.epoch = 0 ∨ l.bytes = 0 then none
      else some (l.withTicket more)

namespace Table

/-- The lease is of this geometry, and neither its uuid nor its index is
in the table. -/
def Loads (t : Table) (l : Slot) : Prop :=
  t.matched = true ∧ l.index < t.count ∧ l.bytes = t.sliceBytes ∧
    t.findUuid l.uuid = none ∧ ¬ t.IndexTaken l.index
  deriving Decidable

/-- The loop of `virt_slice_lease_load`. -/
def loadLines : List Text → Table → Table
  | [], t => t
  | line :: ls, t =>
    match Slot.ofLine line with
    | none => loadLines ls t
    | some l =>
      if t.Loads l then
        match t.freeSlot with
        -- no slot is left: the loop ends here
        | none => t
        | some k =>
          loadLines ls { t.setSlot k (some l) with
              nextEpoch :=
                if l.epoch ≥ t.nextEpoch then
                  if l.epoch = 0xffffffffffffffff then 0 else l.epoch + 1
                else t.nextEpoch }
      else loadLines ls t

/-- `virt_slice_lease_load`. -/
def load (t : Table) : Table := loadLines (fgets 255 t.store) t

end Table

end AmbaVirt.Lease
