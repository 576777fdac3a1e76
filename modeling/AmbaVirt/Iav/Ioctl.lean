/-
`do_ioctl` (tools/iav_broker.c) over the bytes it handles, and the three
requests that lead to it: OP_IOCTL, OP_SLICE and OP_ARENA.

`IoctlView.doIoctl` is everything before the driver runs: a program that
reads the guest's argument out of the request (`ready`), has it checked,
and either refuses or hands the driver a buffer (`Issued`).
`Issued.reply` is everything after it, for whatever the driver returned
and left in the buffer (`DriverRun`).

What the broker and its host answer while they serve a request is the
`IoctlView`. Locks and counters are left out.
-/
import AmbaVirt.Iav.Entry
import AmbaVirt.Lib.Reader

namespace AmbaVirt.Iav

open Lib
open Lib.Reader

def AMBA_VIRT_IAV_F_SIZE_OVERRIDE : UInt64 := 0x2
def AMBA_VIRT_IAV_F_INLINE : UInt64 := 0x20

def AMBA_VIRT_IAV_MAX_OUT : Nat := 4040

-- ==== messages

/-- `struct amba_virt_iav_req`. -/
structure IavReq where
  proto : UInt32
  op : UInt32
  handle : UInt64
  cmd : UInt32
  argLen : UInt32
  argValue : UInt64
  arg2 : UInt64

/-- `sizeof(struct amba_virt_iav_req)`. -/
def iavReqSize : Nat := 40

/-- `struct amba_virt_iav_resp` and the output that follows it. -/
structure Resp where
  status : Int32 := 0
  rc : Int32 := 0
  err : Int32 := 0
  handle : UInt64 := 0
  value : UInt64 := 0
  out : Mem := fun _ => 0
  outLen : Nat := 0

-- ==== the view

/-- What `do_ioctl` looks up or asks. `addr` is where its buffer is. -/
structure IoctlView extends BrokerView where
  table : UInt32 → Option PolicyEntry
  blockMaxMs : UInt32
  parentBase : UInt64
  parentBytes : UInt64
  addr : UInt64
  addrFits : addr.toNat + AMBA_VIRT_MAX_MSG ≤ 2 ^ 64

/-- A call as it is handed to the driver: the size of its argument and of
the trailer after it, the argument the guest sent and the buffer. `arena`
is the layout of a translated call. -/
structure Issued where
  entry : PolicyEntry
  size : Nat
  inlineLen : Nat
  value : UInt64
  orig : Mem
  buf : Mem
  arena : Option ArenaLayout

namespace IoctlView

variable (v : IoctlView)

/-- `wire_size_for`. -/
def wireSizeFor (e : PolicyEntry) : Nat :=
  if e.wire ≠ 0 ∧ v.helloDone = true ∧ v.features &&& AMBA_VIRT_IAV_F_SIZE_OVERRIDE ≠ 0 then e.wire
  else e.size

/-- The guest's argument, at offset `o` of the request, in a zeroed
buffer. -/
def copyArg (o n : Nat) : Reader Errno Mem :=
  fetch [⟨o, n⟩] fun m i => if i < n then m (o + i) else 0

/-- Bytes past the header size that nobody audited, on the way in and on
the way out. -/
def dropUnaudited (e : PolicyEntry) (size : Nat) (m : Mem) : Mem :=
  if size > e.size ∧ e.audited = false then clear m e.size size else m

/-- The `switch` over the kind of the argument. -/
def fillArg (e : PolicyEntry) (arena : Bool) (o argLen : Nat) : Reader Errno Mem :=
  let size := v.wireSizeFor e
  match e.kind with
  | .none | .value => do
      lift (refuseIf (argLen ≠ 0) .EMSGSIZE)
      return fun _ => 0
  | .ptr => do
      lift (refuseIf (size = 0 ∨ size > AMBA_VIRT_IAV_MAX_ARG ∨
        size > AMBA_VIRT_IAV_MAX_OUT ∨ size > AMBA_VIRT_MAX_MSG) .EMSGSIZE)
      if e.inlined = true then
        lift (refuseIf (v.helloDone = false ∨
          v.features &&& AMBA_VIRT_IAV_F_INLINE = 0 ∨ e.dirW = false ∨
          arena = true) .EPERM)
        lift (refuseIf (size + inlineMiscSize > AMBA_VIRT_IAV_MAX_OUT ∨
          argLen ≠ size + inlineMiscSize) .EMSGSIZE)
        copyArg o argLen
      else
        lift (refuseIf (if e.dirW = true then argLen ≠ size else argLen ≠ 0) .EMSGSIZE)
        let m ← copyArg o argLen
        return dropUnaudited e size m

def inlineLen (e : PolicyEntry) : Nat :=
  if e.kind = .ptr ∧ e.inlined = true then inlineMiscSize else 0

/-- A call after the arena stage: its buffer, what was recorded of the
blocks, the pool partition and the layout. -/
structure Translated where
  buf : Mem
  moved : Moved := {}
  pid : UInt32 := 0
  layout : Option ArenaLayout := none

/-- The arena stage of `do_ioctl`. -/
def translate (e : PolicyEntry) (size : Nat) (x : Option ArenaXlat) (m : Mem) :
    Except Errno Translated :=
  match x with
  | none => .ok { buf := m }
  | some x => do
      refuseIf (e.kind ≠ .ptr ∨ e.dirW = false ∨ size > AMBA_VIRT_MAX_MSG) .EPERM
      let l ← require e.arena .EPERM
      let r ← x.translate (l.decode m)
      return ⟨l.store r.1 m, r.2, x.pid, some l⟩

/-- The job is counted and the slice asked for again. -/
def beginJob (x : Option ArenaXlat) : Except Errno Unit :=
  match x with
  | none => .ok ()
  | some x => do
      refuseIf (v.arenaBegin = some false) .EPERM
      refuseIf (v.arenaBegin.isSome ∧ v.sliceOfAgain ≠ some x.index) .EPERM

/-- A call that is ready for its check: its row, the argument the guest
sent and what the arena stage made of it. -/
structure Ready where
  entry : PolicyEntry
  orig : Mem
  stage : Translated

open Errno in
/-- `do_ioctl`, up to the check. -/
def ready (cmd : UInt32) (o argLen : Nat) (x : Option ArenaXlat) : Reader Errno Ready := do
  let e ← lift (require (v.table cmd) .ENOTTY)
  lift (refuseIf (e.profiles v.profile = false) .EPERM)
  let m ← v.fillArg e x.isSome o argLen
  lift (refuseIf (v.stale = true ∧ e.window = true) EIO)
  let t ← lift (translate e (v.wireSizeFor e) x m)
  lift v.session
  return ⟨e, m, t⟩

/-- The `struct iav_call` the check gets. -/
def checkCall (r : Ready) : CheckCall where
  call :=
    { decLen := v.windowLen 2
      ovlLen := v.windowLen 3
      dspLen := v.windowLen 0
      bsbLen := v.windowLen 1
      arenaPid := r.stage.pid
      arena := r.stage.moved.slots
      aux := if r.entry.window = true then v.aperture else [] }
  blockMaxMs := v.blockMaxMs
  arg := r.stage.buf
  addr := v.addr
  inlineBuf :=
    if inlineLen r.entry ≠ 0 then some (v.wireSizeFor r.entry) else none

def issue (r : Ready) (argValue : UInt64) (buf : Mem) : Issued where
  entry := r.entry
  size := v.wireSizeFor r.entry
  inlineLen := inlineLen r.entry
  value := if r.entry.kind = .value then argValue else 0
  orig := r.orig
  buf
  arena := r.stage.layout

/-- `do_ioctl`, up to the driver. -/
def doIoctl (cmd : UInt32) (argValue : UInt64) (o argLen : Nat)
    (x : Option ArenaXlat) : Reader Errno Issued := do
  let r ← v.ready cmd o argLen x
  let buf ← lift (r.entry.check.run (v.checkCall r))
  lift (v.beginJob x)
  return v.issue r argValue buf

end IoctlView

-- ==== after the driver

structure DriverRun where
  rc : Int32
  errno : Int32
  buf : Mem

namespace Issued

variable (p : Issued) (d : DriverRun)

def Returns : Prop := 0 ≤ d.rc ∧ p.entry.kind = .ptr ∧ p.entry.dirR = true
  deriving Decidable

def finish (m : Mem) : Mem :=
  let m := p.entry.post.run (IoctlView.dropUnaudited p.entry p.size m)
  match p.arena with
  | none => m
  | some l => l.restore m p.orig

/-- `do_ioctl`, after the driver. -/
def reply : Resp where
  rc := if d.rc < 0 then -1 else d.rc
  err := if d.rc < 0 then d.errno else 0
  out := if p.Returns d then p.finish d.buf else fun _ => 0
  outLen := if p.Returns d then p.size + p.inlineLen else 0

variable {p d}

theorem reply_out (h : p.Returns d) : (p.reply d).out = p.finish d.buf :=
  if_pos h

theorem reply_outLen (h : p.Returns d) : (p.reply d).outLen = p.size + p.inlineLen :=
  if_pos h

theorem reply_outLen_zero (h : ¬ p.Returns d) : (p.reply d).outLen = 0 :=
  if_neg h

theorem reply_congr {p' : Issued} {d' : DriverRun} (hrc : d.rc = d'.rc)
    (herrno : d.errno = d'.errno) (hrow : p.entry = p'.entry)
    (hsize : p.size = p'.size) (hin : p.inlineLen = p'.inlineLen)
    (hfinish : p.Returns d → p.finish d.buf = p'.finish d'.buf) :
    p.reply d = p'.reply d' := by
  have hret : p'.Returns d' ↔ p.Returns d := by
    unfold Returns
    rw [hrc, hrow]
  unfold reply
  simp only [hret, hrc, herrno, hsize, hin]
  congr 1
  split
  · rename_i hr
    exact hfinish hr
  · rfl

end Issued

-- ==== the requests

/-- `struct amba_virt_iav_slice_req`. -/
structure SliceReq where
  claimedSlice : UInt32
  partitionId : UInt32
  offset : UInt64
  length : UInt64
  phys : UInt64

/-- `sizeof(struct amba_virt_iav_slice_req)`. -/
def sliceReqSize : Nat := 32

/-- The slice request at `o`. -/
def SliceReq.parse (o : Nat) (m : Mem) : SliceReq where
  claimedSlice := read32 m o
  partitionId := read32 m (o + 4)
  offset := read64 m (o + 8)
  length := read64 m (o + 16)
  phys := read64 m (o + 24)

/-- The arena header at `o`. -/
def ArenaReq.parse (o : Nat) (m : Mem) : ArenaReq where
  count := read32 m o
  reserved := read32 m (o + 4)
  blk k :=
    { vid := read32 m (o + 8 + 24 * k)
      reserved := read32 m (o + 12 + 24 * k)
      offset := read64 m (o + 16 + 24 * k)
      length := read64 m (o + 24 + 24 * k) }

/-- `virt_iav_guest_slice_admit`. -/
def GuestPool.guestSliceAdmit (p : GuestPool) (parentBase parentBytes : UInt64)
    (callerSlice : UInt32) (r : SliceReq) : Except Errno Unit := do
  refuseIf (p.sliceCount = 0 ∨ p.sliceCount > 8) .EINVAL
  refuseIf (p.sliceBytes = 0 ∨ parentBytes / p.sliceBytes ≠ p.sliceCount.toUInt64 ∨
    parentBytes % p.sliceBytes ≠ 0) .EINVAL
  refuseIf (parentBase % p.sliceBytes ≠ 0) .EINVAL
  refuseIf (r.phys ≠ 0) .EPERM
  refuseIf (r.partitionId ≠ p.partitionId) .EPERM
  refuseIf (r.claimedSlice ≠ callerSlice) .EPERM
  refuseIf (callerSlice ≥ p.sliceCount) .EPERM
  refuseIf (r.length = 0) .EINVAL
  let sliceOff := callerSlice.toUInt64 * p.sliceBytes
  refuseIf (r.offset < sliceOff) .EPERM
  refuseIf (r.offset > parentBytes ∨ r.length > parentBytes - r.offset) .EINVAL
  refuseIf (r.offset + r.length > sliceOff + p.sliceBytes) .EPERM
  refuseIf (parentBase > UINT64_MAX - r.offset) .EINVAL

namespace IoctlView

variable (v : IoctlView) (q : IavReq)

/-- `op_ioctl`. -/
def opIoctl : Reader Errno Issued :=
  v.doIoctl q.cmd q.argValue iavReqSize q.argLen.toNat none

/-- `op_slice`. Whatever the admission objects to, the guest is told
EPERM. -/
def opSlice : Reader Errno Issued := do
  lift (refuseIf (q.argLen.toNat < sliceReqSize) .EMSGSIZE)
  let r ← fetch [⟨iavReqSize, sliceReqSize⟩] (SliceReq.parse iavReqSize)
  let pool ← lift (require v.pool .EPERM)
  let window ← lift (require v.sliceOf .EPERM)
  lift (refuseIf ((pool.guestSliceAdmit v.parentBase v.parentBytes window r).toBool = false) .EPERM)
  v.doIoctl q.cmd q.argValue (iavReqSize + sliceReqSize) (q.argLen.toNat - sliceReqSize) none

/-- `arena_cmd`: the rows with an arena layout are its three ioctls. -/
def arenaCmd (cmd : UInt32) : Bool := (v.table cmd).any (·.arena.isSome)

/-- `op_arena`. -/
def opArena : Reader Errno Issued := do
  lift (refuseIf (q.argLen.toNat < arenaReqSize) .EMSGSIZE)
  let h ← fetch [⟨iavReqSize, arenaReqSize⟩] (ArenaReq.parse iavReqSize)
  lift (refuseIf (v.helloDone = false ∨ v.features &&& AMBA_VIRT_IAV_F_ARENA = 0) .EPERM)
  lift (refuseIf (v.profile = .consumer ∨ v.arenaCmd q.cmd = false) .EPERM)
  let s ← lift (require v.arenaSlice .EPERM)
  lift (h.arenaAdmit (s.1.sliceBytes - PAGE_BYTES))
  v.doIoctl q.cmd q.argValue (iavReqSize + arenaReqSize)
    (q.argLen.toNat - arenaReqSize) (some (h.xlat s.1 s.2))

end IoctlView

inductive IoctlOp
  | ioctl | slice | arena
  deriving DecidableEq

def IoctlOp.headSize : IoctlOp → Nat
  | .ioctl => 0
  | .slice => sliceReqSize
  | .arena => arenaReqSize

def IoctlOp.argOffset (k : IoctlOp) : Nat := iavReqSize + k.headSize

def IoctlOp.run (k : IoctlOp) (v : IoctlView) (q : IavReq) : Reader Errno Issued :=
  match k with
  | .ioctl => v.opIoctl q
  | .slice => v.opSlice q
  | .arena => v.opArena q

-- ==== what is issued

namespace IoctlView

/-- How a call got to the driver: the stages it passed and what they
left. -/
structure Issues (v : IoctlView) (e : PolicyEntry) (o n : Nat)
    (x : Option ArenaXlat) (m : Mem) (t : Translated) (p : Issued) : Prop where
  entry : p.entry = e
  size : p.size = v.wireSizeFor e
  inlineLen : p.inlineLen = IoctlView.inlineLen e
  arena : p.arena = t.layout
  fill : (v.fillArg e x.isSome o n).value m = .ok p.orig
  stage : translate e (v.wireSizeFor e) x p.orig = .ok t
  check : e.check.run (v.checkCall ⟨e, p.orig, t⟩) = .ok p.buf

variable {v : IoctlView} {e : PolicyEntry} {o n : Nat} {x : Option ArenaXlat} {m : Mem} {p : Issued}

theorem ready_ok {cmd : UInt32} {r : Ready} (h : (v.ready cmd o n x).value m = .ok r) :
    v.table cmd = some r.entry ∧ (v.fillArg r.entry x.isSome o n).value m = .ok r.orig ∧
      translate r.entry (v.wireSizeFor r.entry) x r.orig = .ok r.stage := by
  simp only [ready, value_bind, value_lift, value_pure, guards] at h
  obtain ⟨e, he, -, b, hfill, -, t, ht, -, hr⟩ := h
  cases hr
  exact ⟨he, hfill, ht⟩

theorem doIoctl_ok {cmd : UInt32} {argValue : UInt64}
    (h : (v.doIoctl cmd argValue o n x).value m = .ok p) :
    ∃ e t, v.table cmd = some e ∧ v.Issues e o n x m t p := by
  simp only [doIoctl, value_bind, value_lift, value_pure,
    bind_ok, exists_unit] at h
  obtain ⟨⟨e, b, t⟩, hready, m', hcheck, -, hp⟩ := h
  obtain ⟨he, hfill, ht⟩ := ready_ok hready
  cases hp
  exact ⟨e, t, he, rfl, rfl, rfl, rfl, hfill, ht, hcheck⟩

theorem wireSizeFor_eq : v.wireSizeFor e = e.size ∨ (e.wire ≠ 0 ∧ v.wireSizeFor e = e.wire) := by
  unfold wireSizeFor
  split
  · rename_i hw
    exact .inr ⟨hw.1, rfl⟩
  · exact .inl rfl

theorem wireSizeFor_of_wire (h : e.wire = 0) : v.wireSizeFor e = e.size := by
  rcases wireSizeFor_eq (v := v) (e := e) with hs | ⟨hw, -⟩
  · exact hs
  · exact absurd h hw

variable {size i : Nat}

theorem dropUnaudited_past (ha : e.audited = false) (hlo : e.size ≤ i)
    (hhi : i < size) : dropUnaudited e size m i = 0 := by
  rw [dropUnaudited, if_pos ⟨by omega, ha⟩]
  exact clear_within hlo hhi

theorem dropUnaudited_header (hi : i < e.size) : dropUnaudited e size m i = m i := by
  unfold dropUnaudited
  split
  · exact clear_apart (.inl hi)
  · rfl

theorem dropUnaudited_congr {m' : Mem} (h : m' i = m i) :
    dropUnaudited e size m' i = dropUnaudited e size m i := by
  unfold dropUnaudited
  split
  · exact if_congr Iff.rfl rfl h
  · exact h

/-- A pointer argument that was accepted. -/
structure Filled (v : IoctlView) (e : PolicyEntry) (o n : Nat) (m b : Mem) :
    Prop where
  pos : 0 < v.wireSizeFor e
  fits : v.wireSizeFor e + IoctlView.inlineLen e ≤ AMBA_VIRT_IAV_MAX_OUT
  len : n = if e.dirW = true then v.wireSizeFor e + IoctlView.inlineLen e else 0
  header : ∀ i < e.size, i < n → b i = m (o + i)
  past : e.audited = false → ∀ i, e.size ≤ i → i < v.wireSizeFor e → b i = 0

variable {arena : Bool} {b : Mem}

theorem fillArg_ptr (hk : e.kind = .ptr)
    (h : (v.fillArg e arena o n).value m = .ok b) : v.Filled e o n m b := by
  unfold fillArg at h
  rw [hk] at h
  simp only [value_bind, value_lift, guards] at h
  obtain ⟨hsize, h⟩ := h
  split at h
  · rename_i hi
    simp only [value_bind, value_lift, guards] at h
    obtain ⟨hperm, hlen, hb⟩ := h
    cases hb
    have hin : IoctlView.inlineLen e = inlineMiscSize := if_pos ⟨hk, hi⟩
    have hw := wireSizeFor_of_wire (v := v) (e.inlinedWire hi)
    have hdir : e.dirW = true := by
      simp only [not_or, Bool.not_eq_false] at hperm
      exact hperm.2.2.1
    refine ⟨by omega, by omega, ?_, ?_, ?_⟩
    · rw [if_pos hdir]
      omega
    · intro i _ hn
      exact if_pos hn
    · intro _ i hlo hhi
      -- an inlined row has no wire size
      omega
  · rename_i hi
    simp only [value_bind, value_lift, value_pure, guards] at h
    obtain ⟨hlen, c, hc, hb⟩ := h
    cases hc
    cases hb
    have hin : IoctlView.inlineLen e = 0 := if_neg fun hc => hi hc.2
    refine ⟨by omega, by omega, ?_, ?_, ?_⟩
    · split at hlen
      · rename_i hdir
        rw [if_pos hdir]
        omega
      · rename_i hdir
        rw [if_neg hdir]
        omega
    · intro i hi hn
      rw [dropUnaudited_header hi]
      exact if_pos hn
    · intro ha i hlo hhi
      exact dropUnaudited_past ha hlo hhi

/-- An inlined row is refused to OP_ARENA. -/
theorem fillArg_inlined (hk : e.kind = .ptr) (hi : e.inlined = true)
    (h : (v.fillArg e arena o n).value m = .ok b) :
    arena = false := by
  unfold fillArg at h
  rw [hk] at h
  dsimp only at h
  rw [if_pos hi] at h
  simp only [value_bind, value_lift, guards, not_or] at h
  exact Bool.not_eq_true _ ▸ h.2.1.2.2.2

theorem fillArg_zero (hk : e.kind ≠ .ptr)
    (h : (v.fillArg e arena o n).value m = .ok b) : b = fun _ => 0 := by
  unfold fillArg at h
  cases hkind : e.kind with
  | ptr => exact absurd hkind hk
  | none | value =>
    rw [hkind] at h
    simp only [value_bind, value_lift, value_pure, guards] at h
    cases h.2
    rfl

end IoctlView

/-- Each of the three requests ends in `do_ioctl`, on the bytes after its
own header; only OP_ARENA translates. -/
theorem IoctlOp.run_ok {k : IoctlOp} {v : IoctlView} {q : IavReq} {m : Mem}
    {p : Issued} (h : (k.run v q).value m = .ok p) :
    ∃ x, (v.doIoctl q.cmd q.argValue k.argOffset (q.argLen.toNat - k.headSize)
      x).value m = .ok p ∧ (x.isSome = true ↔ k = .arena) := by
  cases k with
  | ioctl => exact ⟨none, h, by simp⟩
  | slice =>
    simp only [IoctlOp.run, IoctlView.opSlice, value_bind, value_lift, value_fetch, guards] at h
    obtain ⟨-, _, -, _, -, _, -, -, h⟩ := h
    exact ⟨none, h, by simp⟩
  | arena =>
    simp only [IoctlOp.run, IoctlView.opArena, value_bind, value_lift, value_fetch, guards] at h
    obtain ⟨-, hdr, -, -, -, s, -, -, h⟩ := h
    exact ⟨some (hdr.xlat s.1 s.2), h, by simp⟩

-- ==== the arena, as records

/-- The row of an arena call whose structure is read as a record: what is
stored into it is read back, and its check is the record's. -/
structure ArenaRow (h : Header) (e : PolicyEntry) (l : ArenaLayout) : Prop where
  layout : e.arena = some l
  check : e.check = .judge fun c m => c.check h (l.decode m)
  size : ∀ m, (l.decode m).size h = e.size
  window : e.window = true
  stored : ∀ (x : ArenaXlat) m r, x.translate (l.decode m) = .ok r → l.decode (l.store r.1 m) = r.1

/-- OP_ARENA over bytes does what it does over records: what reaches the
driver is the argument the guest sent, with the translated record stored
into it. -/
theorem opArena_refines {v : IoctlView} {q : IavReq} {m : Mem} {p : Issued}
    {h : Header} {e : PolicyEntry} {l : ArenaLayout}
    (htable : v.table q.cmd = some e) (hrow : ArenaRow h e l)
    (hok : (v.opArena q).value m = .ok p) :
    ∃ a, v.toBrokerView.opArena h ⟨q.argLen.toNat,
        ArenaReq.parse iavReqSize m, some (l.decode p.orig)⟩ = .ok a ∧
      p.buf = l.store a p.orig := by
  simp only [IoctlView.opArena, value_bind, value_lift, value_fetch, guards] at hok
  obtain ⟨hlen, hdr, hhdr, hfeat, hperm, s, hs, hadm, hok⟩ := hok
  cases hhdr
  simp only [IoctlView.doIoctl, IoctlView.ready, IoctlView.beginJob, value_bind, value_lift,
    value_pure, guards] at hok
  obtain ⟨r, ⟨e', he', -, b, hfill, hstale, t, ht, hsess, hr⟩, buf, hcheck,
    ⟨hbegin, hagain⟩, hp⟩ := hok
  cases hr
  cases hp
  rw [htable] at he'
  obtain rfl := Option.some.inj he'
  simp only [IoctlView.translate, guards, pure_ok] at ht
  obtain ⟨hkind, l', hl', x, hx, rfl⟩ := ht
  rw [hrow.layout] at hl'
  obtain rfl := Option.some.inj hl'
  simp only [not_or, not_not, Bool.not_eq_false] at hkind hperm hfeat
  have hwire := IoctlView.wireSizeFor_of_wire (v := v) (e.arenaShape l hrow.layout).1
  have hfilled := IoctlView.fillArg_ptr hkind.1 hfill
  have hnot : IoctlView.inlineLen e = 0 := by
    apply if_neg
    intro hin
    cases IoctlView.fillArg_inlined hkind.1 hin.2 hfill
  have hpos := hfilled.pos
  have hfits := hfilled.fits
  have hlen' := hfilled.len
  rw [hwire, hnot, Nat.add_zero] at hfits hlen'
  rw [if_pos hkind.2.1] at hlen'
  have hjudge : buf = l.store x.1 b ∧ (v.checkCall ⟨e, b, ⟨l.store x.1 b, x.2, s.1.partitionId,
        some l⟩⟩).call.check h x.1 = .ok () := by
    rw [hrow.check] at hcheck
    simp only [Check.run, bind_ok, exists_unit, pure_ok] at hcheck
    obtain ⟨hc, hb⟩ := hcheck
    refine ⟨hb.symm, ?_⟩
    have hst := hrow.stored _ _ _ hx
    rw [← hst]
    exact hc
  have hsize := hrow.size b
  have hmax : AMBA_VIRT_IAV_MAX_ARG = AMBA_VIRT_IAV_MAX_OUT := rfl
  refine ⟨x.1, ?_, hjudge.1⟩
  simp only [BrokerView.opArena, BrokerView.doIoctl, guards, pure_ok]
  refine ⟨hlen, ?_, hperm.1, _, rfl, s, hs, hadm, hperm.1, ?_, ?_, ?_, x, hx,
    hsess, ?_, hbegin, hagain, rfl⟩
  · simpa using hfeat
  · show ¬ ((l.decode b).size h = 0 ∨ (l.decode b).size h > _)
    omega
  · exact not_not.mpr (hlen'.trans hsize.symm)
  · exact fun hst => hstale ⟨hst, hrow.window⟩
  have hcall := hjudge.2
  unfold IoctlView.checkCall at hcall
  rw [if_pos hrow.window] at hcall
  exact hcall

theorem sampleAddr_fits : (0x7000 : UInt64).toNat + AMBA_VIRT_MAX_MSG ≤ 2 ^ 64 := by
  decide

/-- A broker whose table is the one row `e`. -/
def sampleIoctlView (e : PolicyEntry) (features : UInt64) : IoctlView where
  toBrokerView := { sampleBrokerView with features := features }
  table := fun _ => some e
  blockMaxMs := 2000
  parentBase := 0
  parentBytes := 0x20000000
  addr := 0x7000
  addrFits := sampleAddr_fits

end AmbaVirt.Iav
