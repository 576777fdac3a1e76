/-
Sessions of the IAV broker (`tools/iav_broker.c`): the session table, the
per-cid entries, handles, and the critical sections that change them.

Each definition is what one C function does under `b->lock`. Where the C
code frees a session it closes the descriptor after unlocking, so these
functions return the descriptor, a fresh number for every successful
`ops.open`. `frees` of a session counts how often its slot was freed; no
function reads it. The token bucket is left out: a limited request is one
the rate limiter may refuse whenever it is on.
-/
import AmbaVirt.Basic
import AmbaVirt.Lib.Guard

namespace AmbaVirt.Iav

open Lib Function

-- ==== records

/-- A descriptor `ops.open` returned. -/
abbrev Fd := Nat

/-- `struct iav_session`; an `fd` of -1 is `none`. -/
structure Session where
  inUse : Bool
  closing : Bool
  gen : UInt16
  cid : UInt32
  fd : Option Fd
  refs : Int
  lastUsedMs : UInt64
  frees : Nat
  deriving DecidableEq

/-- `struct iav_cid_state` of an entry in use. -/
structure CidState where
  cid : UInt32
  sessions : UInt32
  lastMs : UInt64
  deriving DecidableEq

/-- `struct iav_broker`, as far as sessions go. -/
structure Broker where
  epoch : UInt32
  maxSessionsPerCid : UInt32
  ratePerSec : UInt32
  sess : Fin 64 → Session
  cids : Fin 16 → Option CidState

def IAV_BROKER_DEFAULT_PER_CID : UInt32 := 16

namespace Session

/-- A session slot of `iav_broker_init`. -/
def init : Session where
  inUse := false
  closing := false
  gen := 1
  cid := 0
  fd := none
  refs := 0
  lastUsedMs := 0
  frees := 0

/-- `s->gen++`, and 1 after a wrap. -/
def nextGen (gen : UInt16) : UInt16 := if gen + 1 = 0 then 1 else gen + 1

/-- What `session_free_locked` leaves of a session. -/
def free (x : Session) : Session :=
  { x with
    inUse := false, closing := false, fd := none, cid := 0
    gen := nextGen x.gen, frees := x.frees + 1 }

/-- The slot `op_open` reserves. -/
def reserve (x : Session) (cid : UInt32) : Session :=
  { x with inUse := true, closing := false, cid := cid, fd := none, refs := 1 }

end Session

namespace Broker

/-- `iav_broker_init`. -/
def init (random maxSessionsPerCid ratePerSec : UInt32) : Broker where
  epoch := if random = 0 then 1 else random
  maxSessionsPerCid := if maxSessionsPerCid = 0 then IAV_BROKER_DEFAULT_PER_CID
    else maxSessionsPerCid
  ratePerSec
  sess _ := .init
  cids _ := none

def setSess (b : Broker) (i : Fin 64) (x : Session) : Broker :=
  { b with sess := update b.sess i x }

-- ==== per-cid entries

/-- The entry without a session that has been idle longest: of a full
table, and the first among equals. -/
def idlest (b : Broker) : Option (Fin 16 × UInt64) :=
  (List.finRange 16).foldl (fun best k => match b.cids k with
      | some c =>
        if c.sessions = 0 ∧ best.all fun o => c.lastMs < o.2
        then some (k, c.lastMs) else best
      | none => best)
    none

/-- `cid_state`: the entry of a cid, made if there is none. -/
def cidState (b : Broker) (cid : UInt32) (now : UInt64) : Option (Fin 16 × Broker) :=
  match Fin.find? fun k => (b.cids k).any (·.cid == cid) with
  | some k => some (k, b)
  | none =>
    ((Fin.find? fun k => (b.cids k).isNone).or (b.idlest.map (·.1))).map
      fun k => (k, { b with cids := update b.cids k (some ⟨cid, 0, now⟩) })

/-- `cs->sessions` of entry `k`, changed by `f`. -/
def setSessions (b : Broker) (k : Fin 16) (f : UInt32 → UInt32) : Broker :=
  { b with
    cids := update b.cids k
      ((b.cids k).map fun c => { c with sessions := f c.sessions }) }

def sessions (b : Broker) (k : Fin 16) : UInt32 :=
  (b.cids k).elim 0 (·.sessions)

/-- What `rate_check` writes besides the tokens. -/
def rateCheck (b : Broker) (k : Fin 16) (now : UInt64) : Broker :=
  if b.ratePerSec = 0 then b
  else { b with
    cids := update b.cids k ((b.cids k).map fun c =>
      { c with lastMs := if now > c.lastMs then now else c.lastMs }) }

end Broker

-- ==== handles

/-- `make_handle`. -/
def makeHandle (epoch : UInt32) (i : Fin 64) (gen : UInt16) : UInt64 :=
  epoch.toUInt64 <<< 32 ||| gen.toUInt64 <<< 16 ||| UInt64.ofNat (i + 1)

/-- The index field of a handle, as a slot: 0 and what is past the table
name none. -/
def slotOf (idx : UInt64) : Option (Fin 64) :=
  if h : 1 ≤ idx.toNat ∧ idx.toNat ≤ 64 then some ⟨idx.toNat - 1, by omega⟩
  else none

def genOf (handle : UInt64) : UInt16 := (handle >>> 16 &&& 0xffff).toUInt16

def epochOf (handle : UInt64) : UInt32 := (handle >>> 32).toUInt32

theorem makeHandle_toNat (epoch : UInt32) (i : Fin 64) (gen : UInt16) :
    (makeHandle epoch i gen).toNat = epoch.toNat * 2 ^ 32 + (gen.toNat * 2 ^ 16 + (i + 1)) := by
  have hepoch := epoch.toNat_lt
  have hgen := gen.toNat_lt
  have hhigh : (epoch.toUInt64 <<< 32).toNat = epoch.toNat <<< 32 := by
    show epoch.toNat <<< 32 % 2 ^ 64 = _
    rw [Nat.shiftLeft_eq, Nat.mod_eq_of_lt (by omega)]
  have hmid : (gen.toUInt64 <<< 16).toNat = gen.toNat <<< 16 := by
    show gen.toNat <<< 16 % 2 ^ 64 = _
    rw [Nat.shiftLeft_eq, Nat.mod_eq_of_lt (by omega)]
  have hlow : (UInt64.ofNat (i + 1)).toNat = i + 1 :=
    UInt64.toNat_ofNat_of_lt' (by show _ < 2 ^ 64; omega)
  have hlt : gen.toNat <<< 16 + (i + 1) < 2 ^ 32 := by
    omega
  rw [makeHandle, UInt64.toNat_or, UInt64.toNat_or, hhigh, hmid, hlow,
    Nat.or_assoc, ← Nat.shiftLeft_add_eq_or_of_lt (by omega : (i : Nat) + 1 < 2 ^ 16),
    ← Nat.shiftLeft_add_eq_or_of_lt hlt, Nat.shiftLeft_eq, Nat.shiftLeft_eq]

theorem slotField_toNat (handle : UInt64) : (handle &&& 0xffff).toNat = handle.toNat % 2 ^ 16 := by
  exact Nat.and_two_pow_sub_one_eq_mod _ 16

theorem genOf_toNat (handle : UInt64) : (genOf handle).toNat = handle.toNat / 2 ^ 16 % 2 ^ 16 := by
  show (handle.toNat >>> 16 &&& (2 ^ 16 - 1)) % 2 ^ 16 = _
  rw [Nat.and_two_pow_sub_one_eq_mod, Nat.mod_mod, Nat.shiftRight_eq_div_pow]

theorem epochOf_toNat (handle : UInt64) : (epochOf handle).toNat = handle.toNat / 2 ^ 32 := by
  have hlt := handle.toNat_lt
  show handle.toNat >>> 32 % 2 ^ 32 = _
  rw [Nat.shiftRight_eq_div_pow, Nat.mod_eq_of_lt (by omega)]

theorem slotOf_eq_some {idx : UInt64} {i : Fin 64} : slotOf idx = some i ↔ idx.toNat = i + 1 := by
  unfold slotOf
  split
  · rw [Option.some.injEq, Fin.ext_iff]
    dsimp only
    omega
  · refine iff_of_false nofun ?_
    omega

theorem eq_makeHandle_iff {handle : UInt64} {epoch : UInt32} {i : Fin 64}
    {gen : UInt16} : handle = makeHandle epoch i gen ↔
      slotOf (handle &&& 0xffff) = some i ∧ epochOf handle = epoch ∧ genOf handle = gen := by
  have hgen := gen.toNat_lt
  rw [slotOf_eq_some, ← UInt64.toNat_inj, ← UInt32.toNat_inj, ← UInt16.toNat_inj,
    makeHandle_toNat, slotField_toNat, genOf_toNat, epochOf_toNat]
  omega

namespace Broker

/-- `session_acquire`. -/
def sessionAcquire (b : Broker) (cid : UInt32) (handle now : UInt64) :
    Except Errno (Fin 64 × Broker) := do
  refuseIf (handle = 0) .EBADF
  let i ← require (slotOf (handle &&& 0xffff)) .EBADF
  let x := b.sess i
  refuseIf (epochOf handle ≠ b.epoch ∨ x.inUse = false ∨ x.closing ∨ x.gen ≠ genOf handle) .ESTALE
  refuseIf (x.cid ≠ cid) .EACCES
  return (i, b.setSess i { x with refs := x.refs + 1, lastUsedMs := now })

-- ==== leaving

/-- `session_free_locked`, with the descriptor to close. -/
def sessionFreeLocked (b : Broker) (i : Fin 64) (now : UInt64) : Broker × Option Fd :=
  let x := b.sess i
  let b := match b.cidState x.cid now with
    | some (k, b) => b.setSessions k fun n => if n > 0 then n - 1 else n
    | none => b
  (b.setSess i x.free, x.fd)

/-- Session `i` becomes `x`, and is freed if `last`: the end of every
function that may be the last to leave a session. -/
def settle (b : Broker) (i : Fin 64) (x : Session) (last : Prop) [Decidable last]
    (now : UInt64) : Broker × Option Fd :=
  let b := b.setSess i x
  if last then b.sessionFreeLocked i now else (b, none)

/-- `session_release`. -/
def sessionRelease (b : Broker) (i : Fin 64) (now : UInt64) : Broker × Option Fd :=
  let x := b.sess i
  let x := { x with refs := x.refs - 1 }
  b.settle i x (x.closing ∧ x.refs = 0) now

/-- `session_close`. -/
def sessionClose (b : Broker) (i : Fin 64) (ownRef : Bool) (now : UInt64) : Broker × Option Fd :=
  let x := b.sess i
  let x := { x with closing := true, refs := if ownRef then x.refs - 1 else x.refs }
  b.settle i x (x.refs = 0) now

/-- One turn of the loop of `iav_broker_client_gone`. -/
def goneSlot (b : Broker) (cid : UInt32) (i : Fin 64) (now : UInt64) : Broker × Option Fd :=
  let x := b.sess i
  if x.inUse ∧ x.closing = false ∧ x.cid = cid then
    b.settle i { x with closing := true } (x.refs = 0) now
  else (b, none)

/-- One turn of the loop of `iav_broker_reap_idle`. -/
def reapSlot (b : Broker) (i : Fin 64) (start idleMs now : UInt64) : Broker × Option Fd :=
  let x := b.sess i
  if x.inUse ∧ x.closing = false ∧ x.refs = 0 ∧ start ≥ x.lastUsedMs ∧
      start - x.lastUsedMs ≥ idleMs then
    b.settle i { x with closing := true } True now
  else (b, none)

-- ==== opening

/-- `op_open`, first section: the slot it reserves, or `none` (`EMFILE`). -/
def openReserve (b : Broker) (cid : UInt32) (now : UInt64) : Broker × Option (Fin 64) :=
  match b.cidState cid now with
  | none => (b, none)
  | some (k, b) =>
    if b.sessions k ≥ b.maxSessionsPerCid then (b, none)
    else match Fin.find? fun i => !(b.sess i).inUse with
      | none => (b, none)
      | some i =>
        ((b.setSess i ((b.sess i).reserve cid)).setSessions k (· + 1), some i)

/-- `op_open` after a failed `ops.open`; the descriptor of the freed slot
is not looked at. -/
def openFailed (b : Broker) (i : Fin 64) (now : UInt64) : Broker :=
  (b.settle i { b.sess i with refs := 0 } True now).1

/-- `op_open` after `ops.open` returned `fd`: the counter is set, not
decremented. -/
def openDone (b : Broker) (i : Fin 64) (fd : Fd) (now : UInt64) : Broker × Option Fd :=
  let x := { b.sess i with fd := some fd, lastUsedMs := now, refs := 0 }
  b.settle i x (x.closing = true) now

-- ==== what a section changes

variable {b b' : Broker} {i : Fin 64} {now : UInt64}

/-- What `iav_broker_init` sets and nothing changes. -/
structure SameCfg (b b' : Broker) : Prop where
  epoch : b'.epoch = b.epoch
  rate : b'.ratePerSec = b.ratePerSec
  perCid : b'.maxSessionsPerCid = b.maxSessionsPerCid

theorem SameCfg.refl (b : Broker) : b.SameCfg b := ⟨rfl, rfl, rfl⟩

theorem SameCfg.trans {b'' : Broker} (h : b.SameCfg b') (h' : b'.SameCfg b'') : b.SameCfg b'' :=
  ⟨h'.epoch.trans h.epoch, h'.rate.trans h.rate, h'.perCid.trans h.perCid⟩

/-- `b'` has the sessions of `b` and `x` in slot `i`, and its own entries
for cids. -/
structure Writes (b : Broker) (i : Fin 64) (x : Session) (b' : Broker) :
    Prop where
  sess : b'.sess = update b.sess i x
  cfg : b.SameCfg b'

theorem Writes.of_eq (hs : b'.sess = b.sess) (hc : b.SameCfg b')
    (i : Fin 64) : b.Writes i (b.sess i) b' where
  sess := by rw [hs, update_eq_self]
  cfg := hc

variable {cid : UInt32}

theorem cidState_frame {k : Fin 16} (h : b.cidState cid now = some (k, b')) :
    b'.sess = b.sess ∧ b.SameCfg b' := by
  unfold cidState at h
  split at h
  · cases h
    exact ⟨rfl, .refl b⟩
  · obtain ⟨j, -, hj⟩ := Option.map_eq_some_iff.mp h
    obtain ⟨-, rfl⟩ := Prod.mk.inj hj
    exact ⟨rfl, rfl, rfl, rfl⟩

theorem rateCheck_frame (k : Fin 16) :
    (b.rateCheck k now).sess = b.sess ∧ b.SameCfg (b.rateCheck k now) := by
  unfold rateCheck
  split
  · exact ⟨rfl, .refl b⟩
  · exact ⟨rfl, rfl, rfl, rfl⟩

variable {x : Session}

theorem setSess_sess : (b.setSess i x).sess = update b.sess i x := rfl

theorem sessionFreeLocked_writes : b.Writes i (b.sess i).free (b.sessionFreeLocked i now).1 := by
  unfold sessionFreeLocked
  dsimp only
  cases h : b.cidState (b.sess i).cid now with
  | none => exact ⟨rfl, rfl, rfl, rfl⟩
  | some r =>
    obtain ⟨k, b'⟩ := r
    obtain ⟨hs, hc⟩ := cidState_frame h
    refine ⟨?_, hc.epoch, hc.rate, hc.perCid⟩
    show update b'.sess i _ = _
    rw [hs]

theorem settle_writes {last : Prop} [Decidable last] :
    b.Writes i (if last then x.free else x) (b.settle i x last now).1 := by
  unfold settle
  split
  · obtain ⟨hs, he⟩ := @sessionFreeLocked_writes (b.setSess i x) i now
    refine ⟨?_, he.epoch, he.rate, he.perCid⟩
    rw [hs, setSess_sess, update_self, update_idem]
  · exact ⟨rfl, rfl, rfl, rfl⟩

theorem settle_fd {last : Prop} [Decidable last] :
    (b.settle i x last now).2 = if last then x.fd else none := by
  unfold settle
  split
  · show ((b.setSess i x).sess i).fd = _
    rw [setSess_sess, update_self]
  · rfl

/-- What `session_acquire` checks before it takes a reference. -/
structure Accepts (b : Broker) (cid : UInt32) (handle : UInt64) (i : Fin 64) :
    Prop where
  slot : slotOf (handle &&& 0xffff) = some i
  epoch : epochOf handle = b.epoch
  inUse : (b.sess i).inUse = true
  closing : (b.sess i).closing = false
  gen : (b.sess i).gen = genOf handle
  cid : (b.sess i).cid = cid

theorem sessionAcquire_ok {handle : UInt64} (h : b.sessionAcquire cid handle now = .ok (i, b')) :
    b.Accepts cid handle i ∧ b' = b.setSess i
      { b.sess i with refs := (b.sess i).refs + 1, lastUsedMs := now } := by
  simp only [sessionAcquire, guards, pure_ok, not_or, not_not] at h
  obtain ⟨-, j, hj, ⟨hepoch, hin, hcl, hgen⟩, hcid, hr⟩ := h
  obtain ⟨rfl, rfl⟩ := Prod.mk.inj hr
  refine ⟨⟨hj, hepoch, ?_, ?_, hgen, hcid⟩, rfl⟩
  · exact (Bool.not_eq_false _).mp hin
  · exact (Bool.not_eq_true _).mp hcl

theorem Accepts.of_live {epoch : UInt32} (he : b.epoch = epoch)
    (hin : (b.sess i).inUse = true) (hcl : (b.sess i).closing = false)
    (hcid : (b.sess i).cid = cid) :
    b.Accepts cid (makeHandle epoch i (b.sess i).gen) i := by
  obtain ⟨hslot, hepoch, hgen⟩ :=
    eq_makeHandle_iff.mp (Eq.refl (makeHandle epoch i (b.sess i).gen))
  exact ⟨hslot, hepoch.trans he.symm, hin, hcl, hgen.symm, hcid⟩

theorem Accepts.sessionAcquire {handle : UInt64} (h : b.Accepts cid handle i) (now : UInt64) :
    b.sessionAcquire cid handle now = .ok (i, b.setSess i
      { b.sess i with refs := (b.sess i).refs + 1, lastUsedMs := now }) := by
  have hne : handle ≠ 0 := by
    rintro rfl
    have hslot := h.slot
    rw [show slotOf (0 &&& 0xffff) = none from rfl] at hslot
    cases hslot
  simp only [Broker.sessionAcquire, guards, pure_ok]
  refine ⟨hne, i, h.slot, ?_, fun hc => hc h.cid, rfl⟩
  rintro (hc | hc | hc | hc)
  · exact hc h.epoch
  · rw [h.inUse] at hc
    cases hc
  · rw [h.closing] at hc
    cases hc
  · exact hc h.gen

/-- A reservation takes a slot that is not in use. -/
theorem openReserve_some (h : b.openReserve cid now = (b', some i)) :
    (b.sess i).inUse = false ∧ b.Writes i ((b.sess i).reserve cid) b' := by
  unfold openReserve at h
  cases hc : b.cidState cid now with
  | none =>
    rw [hc] at h
    cases h
  | some r =>
    obtain ⟨k, b₁⟩ := r
    obtain ⟨hs, he⟩ := cidState_frame hc
    rw [hc] at h
    dsimp only at h
    split at h
    · cases h
    split at h
    · cases h
    rename_i j hj
    obtain ⟨rfl, hi⟩ := Prod.mk.inj h
    cases hi
    have hfree := Fin.eq_true_of_find?_eq_some hj
    rw [hs, Bool.not_eq_true'] at hfree
    refine ⟨hfree, ?_, he.epoch, he.rate, he.perCid⟩
    show update b₁.sess i _ = _
    rw [hs]

theorem openReserve_none (h : b.openReserve cid now = (b', none)) :
    b'.sess = b.sess ∧ b.SameCfg b' := by
  unfold openReserve at h
  cases hc : b.cidState cid now with
  | none =>
    rw [hc] at h
    cases h
    exact ⟨rfl, .refl b⟩
  | some r =>
    rw [hc] at h
    dsimp only at h
    split at h
    · cases h
      exact cidState_frame hc
    split at h
    · cases h
      exact cidState_frame hc
    · cases (Prod.mk.inj h).2

end Broker

end AmbaVirt.Iav
