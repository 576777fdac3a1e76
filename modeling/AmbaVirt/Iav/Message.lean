/-
`iav_broker_handle` (tools/iav_broker.c): a request of any bytes and any
length goes in, one response comes out.

The request is read by a program whose every read is logged
(`MessageView.handle`). The response is stored into the caller's buffer
by `replyBuild`, or not at all if it does not fit. The output of an
operation never exceeds AMBA_VIRT_IAV_MAX_OUT, so a buffer of 4080 bytes
takes every response; with less room an operation may have run and its
answer is lost (`hello_without_room`).

The host's answers while one request is served are a `MessageView`: what
the open of the device and a poll returned, what the driver did with a
call, whether the guest has a slot and is within its rate.
-/
import AmbaVirt.Iav.Info
import AmbaVirt.Lib.Layout

namespace AmbaVirt

open Lib
open Lib.Reader

def Errno.code : Errno → Int32
  | EPERM => 1 | ENOENT => 2 | EIO => 5 | E2BIG => 7 | EBADF => 9
  | EAGAIN => 11 | ENOMEM => 12 | EACCES => 13 | EFAULT => 14 | EBUSY => 16
  | EEXIST => 17 | ENODEV => 19 | EINVAL => 22 | EMFILE => 24 | ENOTTY => 25
  | EFBIG => 27 | ENOSPC => 28 | EPIPE => 32 | ERANGE => 34 | EDEADLK => 35
  | ENOSYS => 38 | EPROTO => 71 | EBADMSG => 74 | EOVERFLOW => 75
  | EMSGSIZE => 90 | EPROTONOSUPPORT => 93 | EOPNOTSUPP => 95
  | ECONNRESET => 104 | ENOTCONN => 107 | ESHUTDOWN => 108
  | ETIMEDOUT => 110 | EHOSTDOWN => 112 | EALREADY => 114 | EINPROGRESS => 115
  | ESTALE => 116

namespace Iav

def AMBA_VIRT_IAV_PROTO : UInt32 := 1
def AMBA_VIRT_IAV_REVISION : UInt32 := 2
def AMBA_VIRT_IAV_POLL_SLICE_MS : UInt64 := 20

def POLL_ALLOWED_EVENTS : UInt32 := 0x147

def HELLO_MIN_PAGE : UInt32 := 4096
def HELLO_MAX_PAGE : UInt32 := 65536

-- ==== on the wire

def IavReq.parse (m : Mem) : IavReq where
  proto := read32 m 0
  op := read32 m 4
  handle := read64 m 8
  cmd := read32 m 16
  argLen := read32 m 20
  argValue := read64 m 24
  arg2 := read64 m 32

/-- `struct amba_virt_iav_hello`. -/
structure HelloReq where
  revision : UInt32
  pageSize : UInt32
  features : UInt64
  maxWindowId : UInt32
  tableRows : UInt32
  tableHash : UInt64

/-- `sizeof(struct amba_virt_iav_hello)`. -/
def helloReqSize : Nat := 32

/-- The HELLO argument at `o`. -/
def HelloReq.parse (o : Nat) (m : Mem) : HelloReq where
  revision := read32 m o
  pageSize := read32 m (o + 4)
  features := read64 m (o + 8)
  maxWindowId := read32 m (o + 16)
  tableRows := read32 m (o + 20)
  tableHash := read64 m (o + 24)

/-- `struct amba_virt_iav_hello_resp`. -/
structure HelloResp where
  revision : UInt32
  role : UInt32
  features : UInt64
  maxWindowId : UInt32
  tableRows : UInt32
  tableHash : UInt64

/-- `sizeof(struct amba_virt_iav_hello_resp)`. -/
def helloRespSize : Nat := 32

def HelloResp.fields (h : HelloResp) : List Field :=
  [.u32 0 h.revision, .u32 4 h.role, .u64 8 h.features, .u32 16 h.maxWindowId,
    .u32 20 h.tableRows, .u64 24 h.tableHash]

def InfoWindow.fields (w : InfoWindow) : List Field :=
  [.u32 0 w.id, .u32 4 w.flags, .u64 8 w.base, .u64 16 w.size, .u64 24 w.partLen]

def InfoEntry.fields (e : InfoEntry) : List Field :=
  [.u32 0 e.id, .u32 4 e.flags, .u64 8 e.base, .u64 16 e.size, .u64 24 e.partLen,
    .u64 32 e.offset, .u32 40 e.pid, .u32 44 e.reserved]

/-- `sizeof(struct amba_virt_iav_map)`. -/
def mapOutSize : Nat := 24

def InfoView.MapOut.fields (o : InfoView.MapOut) : List Field :=
  [.u32 0 o.window, .u32 4 o.prot, .u64 8 o.windowOffset, .u64 16 o.length]

/-- `sizeof(struct amba_virt_iav_resp)`. -/
def respSize : Nat := 40

def Resp.fields (r : Resp) : List Field :=
  [.u32 0 AMBA_VIRT_IAV_PROTO, .u32 4 r.status.toUInt32, .u32 8 r.rc.toUInt32,
    .u32 12 r.err.toUInt32, .u64 16 r.handle, .u64 24 r.value,
    .u32 32 r.outLen.toUInt32, .u32 36 0]

/-- `refuse`. -/
def refuse (e : Errno) : Resp where
  status := -e.code
  rc := -1

/-- What `iav_broker_handle` returns, and leaves in the caller's buffer
and in `*resp_len`. -/
structure Answer where
  ret : Int32
  buf : Mem
  len : Nat

/-- `reply_build`. -/
def replyBuild (cap : Nat) (buf : Mem) (r : Resp) : Answer :=
  if cap < respSize ∨ r.outLen > cap - respSize then ⟨-1, buf, 0⟩
  else ⟨0, blit (storeAll buf r.fields) r.out respSize r.outLen, respSize + r.outLen⟩

-- ==== the operations

/-- How an OPEN ended: no session left, the device not opened, the guest
gone meanwhile, or a handle. -/
inductive OpenRun
  | full
  | failed (errno : Int32)
  | gone
  | opened (handle : UInt64)

/-- What `ops.poll` returned. -/
structure PollRun where
  n : Int32
  errno : Int32
  revents : UInt32

def PollRun.resp (p : PollRun) : Resp :=
  if p.n < 0 then { rc := -1, err := p.errno }
  else { rc := p.n, value := p.revents.toUInt64 }

/-- What the broker and its host answer while one request is served. -/
structure MessageView extends InfoView where
  cidState : Bool
  rateCheck : Bool
  cidStateAgain : Bool
  opened : OpenRun
  polled : UInt32 → UInt64 → PollRun
  hostFeatures : UInt64
  tableRows : UInt32
  tableHash : UInt64
  driver : Issued → DriverRun

/-- `q.op`. -/
inductive ReqOp
  | openFd | closeFd | run (k : IoctlOp) | map | poll | info | hello

def ReqOp.ofCode (c : UInt32) : Option ReqOp :=
  match c.toNat with
  | 1 => some .openFd
  | 2 => some .closeFd
  | 3 => some (.run .ioctl)
  | 4 => some .map
  | 5 => some .poll
  | 6 => some .info
  | 7 => some (.run .slice)
  | 8 => some .hello
  | 9 => some (.run .arena)
  | _ => none

namespace MessageView

variable (v : MessageView) (q : IavReq)

open Errno in
/-- `op_open`. -/
def opOpen : Except Errno Resp :=
  match v.opened with
  | .full => .error .EMFILE
  | .failed e => .ok { rc := -1, err := if e ≠ 0 then e else code EIO }
  | .gone => .error .ECONNRESET
  | .opened h => .ok { handle := h }

/-- `op_close`. -/
def opClose : Except Errno Resp := do
  v.session
  return {}

/-- `op_poll`. -/
def opPoll : Except Errno Resp := do
  refuseIf (q.argLen ≠ 0) .EMSGSIZE
  v.session
  let timeout := if q.argValue > AMBA_VIRT_IAV_POLL_SLICE_MS then
    AMBA_VIRT_IAV_POLL_SLICE_MS else q.argValue
  return (v.polled (q.cmd &&& POLL_ALLOWED_EVENTS) timeout).resp

def infoResp : InfoOut → Resp
  | .legacy l =>
    { value := l.length.toUInt64
      out := packArray infoWindowSize (l.map InfoWindow.fields)
      outLen := l.length * infoWindowSize }
  | .ext l =>
    { value := l.length.toUInt64
      out := packArray infoEntrySize (l.map InfoEntry.fields)
      outLen := l.length * infoEntrySize }

def mapResp (o : InfoView.MapOut) : Resp where
  value := o.window.toUInt64
  out := storeAll (fun _ => 0) o.fields
  outLen := mapOutSize

/-- What the broker grants of what a guest offers. -/
def granted (h : HelloReq) : UInt64 :=
  let ext := v.profile ≠ .consumer ∧ h.features &&& AMBA_VIRT_IAV_F_EXT_INFO ≠ 0
  h.features &&& (AMBA_VIRT_IAV_F_SIZE_OVERRIDE ||| AMBA_VIRT_IAV_F_EXT_INFO |||
    AMBA_VIRT_IAV_F_INLINE ||| v.hostFeatures |||
    (if ext ∧ v.arenaSlice.isSome then AMBA_VIRT_IAV_F_ARENA else 0) |||
    (if ext ∧ (apertureOf v.apertureReport).isSome then AMBA_VIRT_IAV_F_APERTURE
      else 0))

/-- `AMBA_VIRT_IAV_ROLE_*` of the caller. -/
def role : UInt32 :=
  match v.profile with
  | .consumer => 0
  | .primary => 1
  | .qualification => 2

def helloResp (h : HelloReq) : HelloResp where
  revision := AMBA_VIRT_IAV_REVISION
  role := v.role
  features := v.granted h
  maxWindowId := if h.maxWindowId < AMBA_VIRT_IAV_MAX_WINDOWS - 1 then h.maxWindowId
    else AMBA_VIRT_IAV_MAX_WINDOWS - 1
  tableRows := v.tableRows
  tableHash := v.tableHash

/-- `op_hello`. -/
def opHello : Reader Errno Resp := do
  lift (refuseIf (q.handle ≠ 0 ∨ q.argLen.toNat ≠ helloReqSize) .EMSGSIZE)
  let h ← fetch [⟨iavReqSize, helloReqSize⟩] (HelloReq.parse iavReqSize)
  lift (refuseIf (h.revision = 0 ∨ h.pageSize < HELLO_MIN_PAGE ∨
    h.pageSize > HELLO_MAX_PAGE ∨ ¬ IsPow2U64 h.pageSize.toUInt64) .EINVAL)
  lift (refuseIf (v.cidStateAgain = false) .EMFILE)
  return { value := v.granted h
           out := storeAll (fun _ => 0) (v.helloResp h).fields
           outLen := helloRespSize }

/-- The `switch` over the operation. -/
def dispatch : Reader Errno Resp :=
  match ReqOp.ofCode q.op with
  | some .openFd => lift do
      refuseIf (q.argLen ≠ 0) .EMSGSIZE
      v.opOpen
  | some .closeFd => lift do
      refuseIf (q.argLen ≠ 0) .EMSGSIZE
      v.opClose
  | some (.run k) => do
      let p ← k.run v.toIoctlView q
      return p.reply (v.driver p)
  | some .map => lift do
      let o ← v.opMap q
      return mapResp o
  | some .poll => lift (v.opPoll q)
  | some .info => lift do
      let o ← v.opInfo q
      return infoResp o
  | some .hello => v.opHello q
  | none => lift (.error .ENOSYS)

/-- `iav_broker_handle`, up to the response. -/
def handle (null : Bool) (reqLen : Nat) : Reader Errno Resp := do
  lift (refuseIf (v.cidState = false) .EMFILE)
  lift (refuseIf (v.rateCheck = false) .EAGAIN)
  lift (refuseIf (null = true ∨ reqLen < iavReqSize) .EPROTO)
  let q ← fetch [⟨0, iavReqSize⟩] IavReq.parse
  lift (refuseIf (q.proto ≠ AMBA_VIRT_IAV_PROTO) .EPROTO)
  lift (refuseIf (q.argLen.toNat > AMBA_VIRT_IAV_MAX_ARG ∨
    q.argLen.toNat ≠ reqLen - iavReqSize) .EMSGSIZE)
  v.dispatch q

variable (req : Option Mem) (reqLen cap : Nat) (buf : Mem)

/-- The ranges of the request that are read. `none` is a NULL request. -/
def reads : List Span :=
  (v.handle req.isNone reqLen).reads (req.getD fun _ => 0)

def respond : Resp :=
  match (v.handle req.isNone reqLen).value (req.getD fun _ => 0) with
  | .ok r => r
  | .error e => refuse e

/-- `iav_broker_handle`. -/
def iavBrokerHandle : Answer := replyBuild cap buf (v.respond req reqLen)

end MessageView

-- ==== what is read

namespace IoctlView

variable {v : IoctlView} {m : Mem}

variable {o k n : Nat}

theorem reach_copyArg_le (h : o + k ≤ n) : (copyArg o k).reach m ≤ n := by
  simpa [copyArg, spansEnd_le_iff] using h

theorem reach_fillArg_le {e : PolicyEntry} {arena : Bool} (h : o + k ≤ n) :
    (v.fillArg e arena o k).reach m ≤ n := by
  have hcopy := reach_copyArg_le (m := m) h
  unfold fillArg
  cases e.kind with
  | none | value => simp
  | ptr => cases e.inlined <;> simp [reach_bind_le, hcopy]

theorem reach_doIoctl_le {cmd : UInt32} {a : UInt64} {x : Option ArenaXlat}
    (h : o + k ≤ n) : (v.doIoctl cmd a o k x).reach m ≤ n := by
  simp [doIoctl, ready, reach_bind_le, reach_fillArg_le h]

end IoctlView

theorem IoctlOp.reach_run_le {k : IoctlOp} {v : IoctlView} {q : IavReq}
    {m : Mem} : (k.run v q).reach m ≤ iavReqSize + q.argLen.toNat := by
  cases k with
  | ioctl => exact IoctlView.reach_doIoctl_le le_rfl
  | slice =>
    simp only [IoctlOp.run, IoctlView.opSlice, reach_lift_bind_le, reach_fetch_bind_le, refuseIf_ok]
    intro _ hlen
    refine ⟨by omega, fun _ _ _ _ _ _ => ?_⟩
    exact IoctlView.reach_doIoctl_le (by omega)
  | arena =>
    simp only [IoctlOp.run, IoctlView.opArena, reach_lift_bind_le, reach_fetch_bind_le, refuseIf_ok]
    intro _ hlen
    refine ⟨by omega, fun _ _ _ _ _ _ _ _ => ?_⟩
    exact IoctlView.reach_doIoctl_le (by omega)

namespace MessageView

variable {v : MessageView} {q : IavReq} {m : Mem}

theorem reach_dispatch_le : (v.dispatch q).reach m ≤ iavReqSize + q.argLen.toNat := by
  unfold dispatch
  cases ReqOp.ofCode q.op with
  | none => exact Nat.zero_le _
  | some op =>
    cases op with
    | openFd | closeFd | map | poll | info => exact Nat.zero_le _
    | run k => simp [reach_bind_le, IoctlOp.reach_run_le]
    | hello =>
      simp only [opHello, reach_lift_bind_le, reach_fetch_bind_le, refuseIf_ok, reach_pure]
      intro _ hlen
      exact ⟨by omega, fun _ _ _ _ => Nat.zero_le _⟩

theorem reach_handle_le {null : Bool} {reqLen : Nat} :
    (v.handle null reqLen).reach m ≤ if null = true then 0 else reqLen := by
  simp only [handle, reach_lift_bind_le, reach_fetch_bind_le, refuseIf_ok, not_or]
  intro _ _ _ _ _ hlen
  rw [if_neg hlen.1]
  refine ⟨by omega, fun _ _ _ harg => ?_⟩
  refine reach_dispatch_le.trans ?_
  omega

-- ==== what is answered

/-- A response the broker gives to a request it served. -/
structure Served (r : Resp) : Prop where
  status : r.status = 0
  outLen : r.outLen ≤ AMBA_VIRT_IAV_MAX_OUT

theorem Served.empty {rc err : Int32} {h value : UInt64} :
    Served { rc := rc, err := err, handle := h, value := value } :=
  ⟨rfl, Nat.zero_le _⟩

theorem pollResp_served (p : PollRun) : Served p.resp := by
  unfold PollRun.resp
  split <;> exact Served.empty

theorem infoResp_served : Served (infoResp v.info) := by
  have hlen := v.windowTable.length_le
  unfold InfoView.info
  split
  · refine ⟨rfl, ?_⟩
    have hw : v.extWindows.length ≤ 4 := by
      rw [InfoView.extWindows_eq]
      exact (List.length_filterMap_le _ _).trans hlen
    have hap : (v.extWindows ++ v.apertureEntries v.extWindows.length).length
        * infoEntrySize ≤ AMBA_VIRT_IAV_MAX_OUT := by
      unfold InfoView.apertureEntries infoEntrySize AMBA_VIRT_IAV_MAX_OUT
      split
      · rw [List.append_nil]
        omega
      rename_i ap _
      split
      · have hn : ap.entries.length ≤ ap.count.toNat := List.length_take_le _ _
        simp only [List.length_append, List.length_cons, List.length_map]
        omega
      · rw [List.append_nil]
        omega
    show v.extEntries.length * infoEntrySize ≤ AMBA_VIRT_IAV_MAX_OUT
    unfold InfoView.extEntries InfoView.arenaEntries
    dsimp only
    split
    · split
      · split
        · rename_i hroom
          rw [List.length_append, List.length_singleton, Nat.add_mul, Nat.one_mul]
          exact hroom
        · rwa [List.append_nil]
      · rwa [List.append_nil]
    · rwa [List.append_nil]
  · refine ⟨rfl, ?_⟩
    show v.legacyWindows.length * infoWindowSize ≤ AMBA_VIRT_IAV_MAX_OUT
    have hw : v.legacyWindows.length ≤ 4 := by
      rw [InfoView.legacyWindows, gather_eq fun n hn => by omega]
      exact (List.length_filterMap_le _ _).trans hlen
    unfold infoWindowSize AMBA_VIRT_IAV_MAX_OUT
    omega

theorem reply_served {k : IoctlOp} {p : Issued} {d : DriverRun}
    (h : (k.run v.toIoctlView q).value m = .ok p) : Served (p.reply d) := by
  refine ⟨rfl, ?_⟩
  by_cases hret : p.Returns d
  · obtain ⟨x, hdo, -⟩ := IoctlOp.run_ok h
    obtain ⟨e, t, -, hp⟩ := IoctlView.doIoctl_ok hdo
    have hkind : e.kind = .ptr := hp.entry ▸ hret.2.1
    have hfits := (IoctlView.fillArg_ptr hkind hp.fill).fits
    rw [Issued.reply_outLen hret, hp.size, hp.inlineLen]
    exact hfits
  · rw [Issued.reply_outLen_zero hret]
    exact Nat.zero_le _

theorem dispatch_served {r : Resp} (h : (v.dispatch q).value m = .ok r) :
    Served r := by
  unfold dispatch at h
  cases hop : ReqOp.ofCode q.op with
  | none =>
    rw [hop] at h
    cases h
  | some op =>
    rw [hop] at h
    cases op with
    | openFd =>
      simp only [value_lift, guards, opOpen] at h
      obtain ⟨-, h⟩ := h
      split at h <;> cases h <;> exact Served.empty
    | closeFd =>
      simp only [value_lift, guards, opClose, pure_ok] at h
      obtain ⟨-, -, rfl⟩ := h
      exact Served.empty
    | run k =>
      simp only [value_bind, value_pure, bind_ok] at h
      obtain ⟨p, hp, h⟩ := h
      cases h
      exact reply_served hp
    | map =>
      simp only [value_lift, bind_ok, pure_ok] at h
      obtain ⟨o, -, rfl⟩ := h
      exact ⟨rfl, by show 24 ≤ 4040; omega⟩
    | poll =>
      simp only [value_lift, opPoll, guards, pure_ok] at h
      obtain ⟨-, -, rfl⟩ := h
      exact pollResp_served _
    | info =>
      simp only [value_lift, InfoView.opInfo, guards, pure_ok] at h
      obtain ⟨_, ⟨-, rfl⟩, rfl⟩ := h
      exact infoResp_served
    | hello =>
      simp only [opHello, value_bind, value_lift, value_fetch, value_pure, guards] at h
      obtain ⟨-, _, -, -, -, h⟩ := h
      cases h
      exact ⟨rfl, by show 32 ≤ 4040; omega⟩

/-- Every response: of a request that was served, or a refusal. -/
theorem respond_cases (v : MessageView) (req : Option Mem) (reqLen : Nat) :
    Served (v.respond req reqLen) ∨ ∃ e, v.respond req reqLen = refuse e := by
  unfold respond
  split
  · rename_i r h
    simp only [handle, value_bind, value_lift, value_fetch, guards] at h
    obtain ⟨-, -, -, q, -, -, -, h⟩ := h
    exact .inl (dispatch_served h)
  · exact .inr ⟨_, rfl⟩

end MessageView

-- ==== the caller's buffer

/-- What a guest may rely on in a response of `len` bytes: its own
protocol, as many bytes of output as it says, and none if it was
refused. -/
structure WellFormed (m : Mem) (len : Nat) : Prop where
  proto : read32 m 0 = AMBA_VIRT_IAV_PROTO
  outLen : len = respSize + (read32 m 32).toNat
  reserved : read32 m 36 = 0
  refused : read32 m 4 ≠ 0 → len = respSize

theorem Resp.laidOut (r : Resp) : LaidOut 0 respSize r.fields := by
  simp [Resp.fields, LaidOut, Field.span, respSize]

/-- A response that fits is stored whole, and nothing after it. -/
structure Stored (r : Resp) (buf : Mem) (a : Answer) : Prop where
  ret : a.ret = 0
  len : a.len = respSize + r.outLen
  header : ∀ f ∈ r.fields, f.Holds a.buf
  output : ∀ i < r.outLen, a.buf (respSize + i) = r.out i
  past : ∀ i, a.len ≤ i → a.buf i = buf i

variable {buf : Mem} {r : Resp}

theorem replyBuild_stored {cap : Nat} (h : respSize + r.outLen ≤ cap) :
    Stored r buf (replyBuild cap buf r) := by
  have hfit : ¬ (cap < respSize ∨ r.outLen > cap - respSize) := by omega
  unfold replyBuild
  rw [if_neg hfit]
  refine ⟨rfl, rfl, ?_, ?_, ?_⟩
  · intro f hf
    refine (storeAll_holds (m := buf) r.laidOut hf).congr ?_
    intro i hi
    exact blit_apart (.inl (lt_of_lt_of_le hi.2 (r.laidOut.within hf).2))
  · intro i hi
    exact blit_within hi
  · intro i hi
    have hi' : respSize + r.outLen ≤ i := hi
    exact (blit_apart (.inr hi')).trans (storeAll_apart r.laidOut (.inr (by omega)))

theorem replyBuild_none {cap : Nat} (h : cap < respSize + r.outLen) :
    replyBuild cap buf r = ⟨-1, buf, 0⟩ := by
  have hfit : cap < respSize ∨ r.outLen > cap - respSize := by omega
  unfold replyBuild
  rw [if_pos hfit]

theorem Stored.wellFormed {a : Answer} (h : Stored r buf a)
    (hout : r.outLen ≤ AMBA_VIRT_IAV_MAX_OUT)
    (hstatus : r.status = 0 ∨ r.outLen = 0) : WellFormed a.buf a.len := by
  have hlen : read32 a.buf 32 = r.outLen.toUInt32 :=
    h.header (.u32 32 _) (by simp [Resp.fields])
  have hst : read32 a.buf 4 = r.status.toUInt32 :=
    h.header (.u32 4 _) (by simp [Resp.fields])
  refine ⟨h.header (.u32 0 _) (by simp [Resp.fields]), ?_,
    h.header (.u32 36 _) (by simp [Resp.fields]), ?_⟩
  · rw [h.len, hlen]
    unfold AMBA_VIRT_IAV_MAX_OUT at hout
    simp only [Nat.toUInt32_eq, UInt32.toNat_ofNat']
    omega
  · intro hne
    rcases hstatus with hs | hz
    · rw [hst, hs] at hne
      exact absurd rfl hne
    · rw [h.len, hz, Nat.add_zero]

/-- One request, whatever its bytes and its length: nothing past its end
is read, and one well-formed response is stored if the buffer has room
for it, which 4080 bytes always are. With less room nothing is stored. -/
theorem handle_safe (v : MessageView) (req : Option Mem) (reqLen cap : Nat) (buf : Mem) :
    let r := v.respond req reqLen
    let a := v.iavBrokerHandle req reqLen cap buf
    (∀ s ∈ v.reads req reqLen, s.lo + s.len ≤ if req = none then 0 else reqLen) ∧
      r.outLen ≤ AMBA_VIRT_IAV_MAX_OUT ∧
      (respSize + r.outLen ≤ cap → Stored r buf a ∧ WellFormed a.buf a.len ∧ a.len ≤ cap) ∧
      (cap < respSize + r.outLen → a = ⟨-1, buf, 0⟩) := by
  intro r a
  have hout : r.outLen ≤ AMBA_VIRT_IAV_MAX_OUT ∧ (r.status = 0 ∨ r.outLen = 0) := by
    rcases v.respond_cases req reqLen with hs | ⟨e, he⟩
    · exact ⟨hs.outLen, .inl hs.status⟩
    · have hz : r.outLen = 0 := congrArg Resp.outLen he
      exact ⟨by omega, .inr hz⟩
  refine ⟨?_, hout.1, ?_, ?_⟩
  · intro s hs
    have hreach := reach_le_iff.mp (v.reach_handle_le (m := req.getD fun _ => 0)) s hs
    simpa using hreach
  · intro hfit
    have hst : Stored r buf a := replyBuild_stored hfit
    refine ⟨hst, hst.wellFormed hout.1 hout.2, ?_⟩
    rw [hst.len]
    exact hfit
  · intro hsmall
    exact replyBuild_none hsmall

def sampleMessageView : MessageView where
  toInfoView := sampleInfoView (sampleWindow 0x100000 0x2000) (by decide)
    ⟨10, 0x200000, 0x1000, 0⟩ ⟨11, 0x300000, 0x3000, 0x10000⟩
  cidState := true
  rateCheck := true
  cidStateAgain := true
  opened := .opened 1
  polled := fun _ _ => ⟨0, 0, 0⟩
  hostFeatures := 0
  tableRows := 1
  tableHash := 0
  driver := fun p => ⟨0, 0, p.buf⟩

def sampleHello : Mem := storeAll (fun _ => 0)
  [.u32 0 1, .u32 4 8, .u64 8 0, .u32 16 0, .u32 20 32, .u64 24 0, .u64 32 0,
    .u32 40 2, .u32 44 4096, .u64 48 0x3f, .u32 56 3, .u32 60 0, .u64 64 0]

theorem handle_safe_hello :
    let a := sampleMessageView.iavBrokerHandle (some sampleHello) 72 4080 fun _ => 0
    a.ret = 0 ∧ a.len = 72 ∧ WellFormed a.buf a.len := by
  have hout : (sampleMessageView.respond (some sampleHello) 72).outLen = 32 := by
    decide
  obtain ⟨-, -, hfits, -⟩ := handle_safe sampleMessageView (some sampleHello) 72 4080 fun _ => 0
  obtain ⟨hst, hwf, -⟩ := hfits (by rw [hout]; decide)
  exact ⟨hst.ret, hst.len.trans (by rw [hout]; rfl), hwf⟩

/-- A buffer that would take a refusal: the HELLO is granted and nobody
is told. -/
theorem hello_without_room :
    sampleMessageView.iavBrokerHandle (some sampleHello) 72 respSize (fun _ => 0)
      = ⟨-1, fun _ => 0, 0⟩ := by
  apply replyBuild_none
  have hout : (sampleMessageView.respond (some sampleHello) 72).outLen = 32 := by
    decide
  omega

end Iav

end AmbaVirt
