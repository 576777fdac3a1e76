/-
A message as it is received: how `process_incoming_msg` takes the bytes
of a `struct amba_virt_xfer` apart (include/uapi/amba_virt.h).

Every message type has a structure behind the header, and the branch of
that type looks at the length before it looks at the structure. The one
that does not is the Cavalry mock of the test interface: it reads
`execution_delay_us` behind any header (`reads_within_iff`).

The log has a structure as a whole where a handler reads its fields one
by one, also where a check of the sender comes first. A payload in
protobuf is decoded from a stream bounded by its length; what the decoder
finds in it is a parameter.
-/
import AmbaVirt.Lib.Reader
import AmbaVirt.Server.Dispatch

namespace AmbaVirt.Server

open Lib Cavalry Pool Gdma
open Lib.Reader

-- ==== the layouts

/-- `sizeof(struct amba_virt_msg)`. -/
def msgHeaderSize : Nat := 16

/-- A received `struct amba_virt_xfer`: the length the transport reports,
and the buffer, whatever it holds behind that. -/
structure Rx where
  len : Nat
  data : Mem
  bounded : len ≤ AMBA_VIRT_MAX_MSG

/-- `struct amba_virt_msg`. -/
structure MsgHeader where
  type : UInt32
  seq : UInt32
  shmOff : UInt32
  shmLen : UInt32
  deriving DecidableEq

def MsgHeader.parse (m : Mem) : MsgHeader where
  type := read32 m 0
  seq := read32 m 4
  shmOff := read32 m 8
  shmLen := read32 m 12

/-- The types `process_incoming_msg` knows. -/
inductive MsgType
  | ping | shmNotify | echo | benchBurst | cavalryMock | gdma (kind : GdmaMsg)
  | cavalry | devSetBounds | devReleaseBounds | query | memAlloc
  | dmaSlaveCfg | dmaSubmit | dmaTerminate | dmaRequest | iavTap | iav
  | iavSlice | pools | sliceClaim
  deriving DecidableEq

def MsgType.ofCode (code : UInt32) : Option MsgType :=
  match code.toNat with
  | 1 => some .ping
  | 3 => some .shmNotify
  | 5 => some .echo
  | 7 => some .benchBurst
  | 9 => some .cavalryMock
  | 11 => some (.gdma .copyReq)
  | 13 => some (.gdma .pitchReq)
  | 15 => some .cavalry
  | 22 => some .devSetBounds
  | 24 => some .devReleaseBounds
  | 26 => some .query
  | 28 => some .memAlloc
  | 50 => some .dmaSlaveCfg
  | 52 => some .dmaSubmit
  | 54 => some .dmaTerminate
  | 57 => some .dmaRequest
  | 70 => some .iavTap
  | 72 => some .iav
  | 74 => some .iavSlice
  | 76 => some .pools
  | 80 => some .sliceClaim
  | _ => none

/-- `sizeof(struct amba_virt_gdma_copy)`. -/
def gdmaCopySize : Nat := 32

/-- The `struct amba_virt_gdma_copy` at `o`; `status` is an answer. -/
def parseGdmaCopy (o : Nat) (m : Mem) : GdmaCopy where
  srcOff := read32 m o
  dstOff := read32 m (o + 4)
  len := read32 m (o + 8)
  flags := read32 m (o + 12)
  srcPitch := read16 m (o + 20)
  dstPitch := read16 m (o + 22)
  width := read16 m (o + 24)
  height := read16 m (o + 26)

/-- `sizeof(struct amba_virt_cavalry_rpc)`. -/
def cavalryRpcSize : Nat := 40

/-- The opcode and the request fields of `struct amba_virt_cavalry_rpc`. -/
def parseRpc (o : Nat) (m : Mem) : UInt32 × Rpc :=
  (read32 m o,
    { sessionId := read32 m (o + 8), dagId := read32 m (o + 12)
      barOffset := read32 m (o + 16), size := read32 m (o + 20)
      arenaLen := read32 m (o + 24) })

/-- `sizeof(struct amba_virt_dev_bounds_req)`. -/
def boundsReqSize : Nat := 24

def parseBoundsReq (o : Nat) (m : Mem) : DevBoundsReq where
  devType := read32 m o
  requestedSize := read32 m (o + 4)
  preferredOffset := read32 m (o + 8)
  rpcArenaSize := read32 m (o + 12)
  align := read32 m (o + 16)
  flags := read32 m (o + 20)

/-- `sizeof(struct amba_virt_mem_req)`. -/
def memReqSize : Nat := 24

/-- A `struct amba_virt_mem_req`, by its operation. -/
def parseMemReq (o : Nat) (m : Mem) : MemOp :=
  if read32 m o = 1 then
    .alloc { size := read32 m (o + 4), align := read32 m (o + 8)
             devAffinity := read32 m (o + 12), flags := read32 m (o + 20) }
  else if read32 m o = 2 then .free (read32 m (o + 16))
  else .other

/-- `sizeof(struct amba_virt_query_req)`. -/
def queryReqSize : Nat := 16

/-- `sizeof(struct amba_virt_dma_slave_cfg)`. -/
def slaveCfgSize : Nat := 36

def parseSlaveCfg (o : Nat) (m : Mem) : SlaveCfg where
  channel := read32 m o
  direction := read32 m (o + 4)
  srcAddrLo := read32 m (o + 8)
  dstAddrLo := read32 m (o + 12)
  srcAddrWidth := read32 m (o + 16)
  srcMaxburst := read32 m (o + 24)

/-- `sizeof(struct amba_virt_dma_submit)`. -/
def dmaSubmitSize : Nat := 24

def parseDmaSubmit (o : Nat) (m : Mem) : DmaSubmit where
  channel := read32 m o
  direction := read32 m (o + 4)
  bufOffset := read32 m (o + 8)
  bufLen := read32 m (o + 12)
  cookie := read32 m (o + 16)

/-- `sizeof(struct amba_virt_dma_terminate)`. -/
def dmaTerminateSize : Nat := 8

/-- `sizeof(struct amba_virt_dma_request)`. -/
def dmaRequestSize : Nat := 48

/-- `sizeof(struct amba_virt_slice_claim_req)`. -/
def sliceClaimReqSize : Nat := 8

/-- `execution_delay_us` of a `struct amba_virt_cavalry_mock` behind the
header. -/
def mockDelay : Span := ⟨msgHeaderSize + 24, 4⟩

-- ==== the decoder

/-- A decoded message. Of the header only one type uses more than the
type itself. -/
structure Wire where
  msg : Msg
  shmOff : UInt32 := 0
  shmLen : UInt32 := 0
  deriving DecidableEq

namespace Rx

def whole (rx : Rx) : Span := ⟨0, rx.len⟩

def payload (rx : Rx) : Span := ⟨msgHeaderSize, rx.len - msgHeaderSize⟩

def payloadBytes (rx : Rx) (m : Mem) : List UInt8 :=
  (List.range rx.payload.len).map fun i => m (msgHeaderSize + i)

/-- A structure of `size` bytes behind the header, if the message is
long enough for it. -/
def request {α : Type} (rx : Rx) (size : Nat) (parse : Nat → Mem → α)
    (msg : Option α → Msg) : Reader Empty Msg :=
  if rx.len < msgHeaderSize + size then pure (msg none)
  else
    fetch [⟨msgHeaderSize, size⟩] fun m => msg (some (parse msgHeaderSize m))

def body (rx : Rx) (tap : List UInt8 → TapEnvelope) (code : UInt32) : Reader Empty Msg :=
  match MsgType.ofCode code with
  | none => pure (.unknown code)
  | some .ping => pure .ping
  | some .shmNotify => pure .shmNotify
  | some .echo => fetch [rx.whole] fun _ => .echo
  | some .benchBurst => fetch [rx.whole] fun _ => .benchBurst
  | some .cavalryMock =>
    -- no look at the length here
    fetch [mockDelay, rx.whole] fun _ => .cavalryMock
  | some (.gdma kind) =>
    if rx.len ≠ msgHeaderSize + gdmaCopySize then pure (.gdma kind none)
    else rx.request gdmaCopySize parseGdmaCopy (.gdma kind)
  | some .cavalry => rx.request cavalryRpcSize parseRpc .cavalry
  | some .devSetBounds => rx.request boundsReqSize parseBoundsReq .devSetBounds
  | some .devReleaseBounds =>
    rx.request boundsReqSize (fun o m => read32 m o) .devReleaseBounds
  | some .query =>
    rx.request queryReqSize (fun _ _ => ()) fun req =>
      if req.isSome then .query else .short
  | some .memAlloc => rx.request memReqSize parseMemReq .memAlloc
  | some .dmaSlaveCfg => rx.request slaveCfgSize parseSlaveCfg .dmaSlaveCfg
  | some .dmaSubmit => rx.request dmaSubmitSize parseDmaSubmit .dmaSubmit
  | some .dmaTerminate =>
    rx.request dmaTerminateSize (fun o m => read32 m o) .dmaTerminate
  | some .dmaRequest =>
    rx.request dmaRequestSize (fun _ _ => ()) fun req =>
      .dmaRequest req.isSome
  | some .iavTap => fetch [rx.payload] fun m => .iavTap (tap (rx.payloadBytes m))
  | some .iav => fetch [rx.payload] fun m => .iav (rx.payloadBytes m)
  | some .iavSlice => fetch [rx.payload] fun m => .iavSlice (rx.payloadBytes m)
  | some .pools => pure .pools
  | some .sliceClaim =>
    rx.request sliceClaimReqSize (fun o m => read64 m o) .sliceClaim

/-- What `process_incoming_msg` reads of a message, and what it takes it
for. -/
def decode (rx : Rx) (tap : List UInt8 → TapEnvelope) : Reader Empty Wire :=
  if rx.len < msgHeaderSize then pure { msg := .short }
  else do
    let h ← fetch [⟨0, msgHeaderSize⟩] MsgHeader.parse
    let msg ← rx.body tap h.type
    return { msg, shmOff := h.shmOff, shmLen := h.shmLen }

def wire (rx : Rx) (tap : List UInt8 → TapEnvelope) : Wire :=
  match (rx.decode tap).value rx.data with
  | .ok w => w
  | .error e => nomatch e

def reads (rx : Rx) (tap : List UInt8 → TapEnvelope) : List Span :=
  (rx.decode tap).reads rx.data

end Rx

-- ==== the reads

section Reads

variable {rx : Rx} {tap : List UInt8 → TapEnvelope} {α : Type}

/-- A structure is read only where the message has it. -/
theorem Rx.request_reach {size : Nat} {parse : Nat → Mem → α} {msg : Option α → Msg} (m : Mem) :
    (rx.request size parse msg).reach m ≤ rx.len := by
  unfold Rx.request
  split
  · exact Nat.zero_le _
  case isFalse hlen =>
  rw [reach_fetch, spansEnd_le_iff, List.forall_mem_singleton]
  dsimp only
  omega

theorem Rx.reach_whole (msg : Mem → Msg) (m : Mem) :
    (fetch [rx.whole] msg : Reader Empty Msg).reach m ≤ rx.len := by
  rw [reach_fetch, spansEnd_le_iff, List.forall_mem_singleton]
  exact (Nat.zero_add _).le

theorem Rx.reach_payload (hlen : msgHeaderSize ≤ rx.len) (msg : Mem → Msg)
    (m : Mem) : (fetch [rx.payload] msg : Reader Empty Msg).reach m ≤ rx.len := by
  rw [reach_fetch, spansEnd_le_iff, List.forall_mem_singleton]
  unfold Rx.payload
  dsimp only
  omega

/-- A branch that stays within the message, and is no mock. -/
def Rx.Tame (rx : Rx) (x : Reader Empty Msg) (m : Mem) : Prop :=
  (∃ msg, x.value m = .ok msg ∧ msg ≠ .cavalryMock) ∧ x.reach m ≤ rx.len

theorem Rx.tame_request {size : Nat} {parse : Nat → Mem → α}
    {msg : Option α → Msg} (hne : ∀ o, msg o ≠ .cavalryMock) (m : Mem) :
    rx.Tame (rx.request size parse msg) m := by
  refine ⟨?_, Rx.request_reach m⟩
  unfold Rx.request
  split
  · exact ⟨_, rfl, hne _⟩
  · exact ⟨_, rfl, hne _⟩

theorem Rx.tame_pure {msg : Msg} (hne : msg ≠ .cavalryMock) (m : Mem) : rx.Tame (pure msg) m :=
  ⟨⟨msg, rfl, hne⟩, Nat.zero_le _⟩

/-- Every branch but the mock's. -/
theorem Rx.body_tame (hlen : msgHeaderSize ≤ rx.len) {code : UInt32}
    (hcode : MsgType.ofCode code ≠ some .cavalryMock) (m : Mem) :
    rx.Tame (rx.body tap code) m := by
  unfold Rx.body
  cases htype : MsgType.ofCode code with
  | none => exact Rx.tame_pure (by nofun) m
  | some type =>
    cases type with
    | cavalryMock => exact absurd htype hcode
    | ping | shmNotify | pools => exact Rx.tame_pure (by nofun) m
    | echo | benchBurst => exact ⟨⟨_, rfl, by nofun⟩, Rx.reach_whole _ m⟩
    | iavTap | iav | iavSlice =>
      exact ⟨⟨_, rfl, by nofun⟩, Rx.reach_payload hlen _ m⟩
    | gdma kind =>
      dsimp only
      split
      · exact Rx.tame_pure (by nofun) m
      · exact Rx.tame_request (by nofun) m
    | query =>
      refine Rx.tame_request (fun req => ?_) m
      cases req <;> nofun
    | cavalry | devSetBounds | devReleaseBounds | memAlloc | dmaSlaveCfg
    | dmaSubmit | dmaTerminate | dmaRequest | sliceClaim =>
      exact Rx.tame_request (by nofun) m

/-- The reads of a message as one branch behind the header. -/
theorem Rx.decode_of_body (hlen : msgHeaderSize ≤ rx.len) {msg : Msg}
    (hmsg : (rx.body tap (read32 rx.data 0)).value rx.data = .ok msg) :
    (rx.wire tap).msg = msg ∧ ((∀ r ∈ rx.reads tap, r.lo + r.len ≤ rx.len) ↔
        (rx.body tap (read32 rx.data 0)).reach rx.data ≤ rx.len) := by
  have hdecode : rx.decode tap = (do
      let h ← fetch [⟨0, msgHeaderSize⟩] MsgHeader.parse
      let msg ← rx.body tap h.type
      return { msg, shmOff := h.shmOff, shmLen := h.shmLen }) :=
    if_neg (Nat.not_lt.mpr hlen)
  constructor
  · have hvalue : (rx.decode tap).value rx.data =
        .ok { msg, shmOff := read32 rx.data 8
              shmLen := read32 rx.data 12 } := by
      rw [hdecode]
      simp only [value_bind, value_fetch, value_pure]
      change ((rx.body tap (read32 rx.data 0)).value rx.data >>= _) = _
      rw [hmsg]
      rfl
    unfold Rx.wire
    rw [hvalue]
  · unfold Rx.reads
    rw [← reach_le_iff, hdecode, reach_bind_ok rfl,
      show (MsgHeader.parse rx.data).type = read32 rx.data 0 from rfl,
      reach_bind_ok hmsg, reach_pure, Nat.max_zero,
      reach_fetch, max_le_iff]
    exact and_iff_right hlen

/-- The reads of a message end within the received bytes exactly if it
is no mock or has the mock's delay. -/
theorem Rx.reads_within_iff (rx : Rx) (tap : List UInt8 → TapEnvelope) :
    (∀ r ∈ rx.reads tap, r.lo + r.len ≤ rx.len) ↔ ((rx.wire tap).msg = .cavalryMock →
        mockDelay.lo + mockDelay.len ≤ rx.len) := by
  by_cases hlen : rx.len < msgHeaderSize
  · -- not even a header: nothing is read
    have hdecode : rx.decode tap = pure { msg := .short } := if_pos hlen
    have hwire : (rx.wire tap).msg = .short := by
      unfold Rx.wire
      rw [hdecode]
      rfl
    unfold Rx.reads
    rw [hwire, hdecode]
    constructor
    · intro _ hmock
      cases hmock
    · intro _ r hr
      cases hr
  rw [Nat.not_lt] at hlen
  by_cases hcode : MsgType.ofCode (read32 rx.data 0) = some .cavalryMock
  · have hbody : rx.body tap (read32 rx.data 0)
        = fetch [mockDelay, rx.whole] fun _ => .cavalryMock := by
      unfold Rx.body
      rw [hcode]
    have hvalue : (rx.body tap (read32 rx.data 0)).value rx.data = .ok .cavalryMock := by
      rw [hbody]
      rfl
    obtain ⟨hwire, hreads⟩ := Rx.decode_of_body hlen hvalue
    rw [hreads, hbody, reach_fetch, spansEnd_le_iff, List.forall_mem_cons]
    constructor
    · intro h _
      exact h.1
    intro h
    refine ⟨h hwire, fun r hr => ?_⟩
    obtain rfl := List.mem_singleton.mp hr
    exact (Nat.zero_add _).le
  · have htame : rx.Tame (rx.body tap (read32 rx.data 0)) rx.data :=
      Rx.body_tame hlen hcode rx.data
    obtain ⟨⟨msg, hmsg, hne⟩, hreach⟩ := htame
    obtain ⟨hwire, hreads⟩ := Rx.decode_of_body hlen hmsg
    rw [hreads, hwire]
    exact ⟨fun _ hmock => absurd hmock hne, fun _ => hreach⟩

end Reads

end AmbaVirt.Server
