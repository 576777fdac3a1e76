/-
One message of a guest (`process_incoming_msg`), for every message
type, and which capability stands in front of what it does.

The dispatcher asks for five message types, the DMA broker for two more,
and each asks by the message type. `Msg.cap` is the capability that is
named for what the message does, and `Msg.Unguarded` are the messages
that reach their effect without that capability being looked at: the
release of device bounds, the termination of a transfer, the run of a
registered DAG, a live-tap step, and a GDMA copy whose flag says other
than its message type. `caps_enforced` is that there are no more.
-/
import AmbaVirt.Server.Claim

namespace AmbaVirt.Server

open Lib Kernel Cavalry Pool Gdma

variable {n : Nat}

-- ==== live tap

/-- `cavalry_proxy_get_handle_buffer`: the size of the buffer. -/
def handleBuffer (p : Proxy) (handleId cid : UInt32) : Except Errno UInt32 := do
  let t ← require (p.getTenant cid) .ENODEV
  refuseIf (t.shmMap ≠ .mapped) .ENODEV
  let h ← p.ownedHandle handleId cid
  refuseIf (h.barOffset.toUInt64 + h.size.toUInt64 > t.shmSize) .EINVAL
  return h.size

def checkJpeg (p : Proxy) (cid : UInt32) (req : TapRun) : Except Errno Unit := do
  refuseIf (req.jpegHandleId = 0 ∨ req.jpegHandleId = req.inHandleId ∨
    req.jpegHandleId = req.outHandleId) .EINVAL
  let size ← handleBuffer p req.jpegHandleId cid
  refuseIf (req.jpegCapacity = 0 ∨ req.jpegCapacity > size) .EINVAL

/-- The checks of `iav_proxy_handle_nanopb_rpc`, up to the live step. -/
def tapAdmit (p : Proxy) (tapReady : Bool) (cid : UInt32) (env : TapEnvelope) :
    Except Errno TapRun :=
  match env with
  | .undecodable => .error .EBADMSG
  | .otherBody major =>
    if major ≠ 1 then .error .EPROTONOSUPPORT else .error .EINVAL
  | .run major req => do
      refuseIf (major ≠ 1) .EPROTONOSUPPORT
      refuseIf (req.sessionId = 0) .EINVAL
      refuseIf (req.inHandleId = 0 ∨ req.outHandleId = 0 ∨ req.inHandleId = req.outHandleId) .EINVAL
      let inSize ← handleBuffer p req.inHandleId cid
      refuseIf (inSize ≠ 1228800 ∧ inSize ≠ 344064) .EINVAL
      let _ ← handleBuffer p req.outHandleId cid
      if req.wantJpeg then checkJpeg p cid req
      refuseIf (tapReady = false) .ENODEV
      return req

-- ==== the dispatcher

/-- What one message led to. -/
structure Outcome (n : Nat) where
  server : State n
  calls : List Call := []
  answer : Answer := .silent

/-- `virt_acl_has_cap`, for the two kinds of GDMA message. -/
def gdmaCap (a : Acl) (cid : UInt32) : GdmaMsg → Bool
  | .copyReq => a.hasCap cid .gdmaCopy
  | .pitchReq => a.hasCap cid .gdmaPitch

namespace State

def processGdma (s : State n) (cid : UInt32) (kind : GdmaMsg)
    (copy : Option GdmaCopy) : Outcome n :=
  match copy with
  | none => { server := s, answer := .gdma kind (some .EPROTO) }
  | some c =>
    match Gdma.processGdma s.proxy s.window (gdmaCap s.acl) cid kind true c with
    | .ok job => { server := s, calls := [.gdma job], answer := .gdma kind none }
    | .error e => { server := s, answer := .gdma kind (some e) }

/-- The Cavalry branch; `none` is an allocation still searching. -/
def processCavalry (s : State n) (cid code : UInt32) (req : Rpc)
    (env : MsgEnv) : Option (Outcome n) :=
  if Opcode.ofCode code = some .runDags ∧ s.acl.hasCap cid .cavalryPathA = false then
    some { server := s, answer := .cavalry (.fail code .EPERM) }
  else if Opcode.ofCode code = some .registerDag ∧ s.acl.hasCap cid .cavalryRegister = false then
    some { server := s, answer := .cavalry (.fail code .EPERM) }
  else
    match s.daemon.handleRpc code req cid env.rpc with
    | none => none
    | some (reply, d) =>
      some { server := { s with daemon := d }
             calls := ((s.daemon.dispatched code req cid env.rpc).map
               Call.runDags).toList
             answer := .cavalry reply }

/-- The pool of the proxy moved to new bounds; a CID that is no tenant
has none. -/
def setTenantBounds (s : State n) (cid base size arenaOff arenaSize : UInt32) :
    State n :=
  match s.proxy.setTenantBounds cid base size arenaOff arenaSize with
  | .ok p => s.setProxy p
  | .error _ => s

/-- The DEV_SET_BOUNDS branch; `none` is a placement still searching. -/
def processSetBounds (s : State n) (cid : UInt32) (req : DevBoundsReq)
    (env : MsgEnv) : Option (Outcome n) :=
  if s.acl.hasCap cid .devConfig = false then
    some { server := s
           answer := .setBounds { status := some .EPERM, errCode := .PERM_DENIED } }
  else
    match s.pools.setDeviceBounds env.fuel cid req with
    | .error none => none
    | .error (some resp) => some { server := s, answer := .setBounds resp }
    | .ok (resp, pools) =>
      let s' := { s with pools }
      some
        { server :=
            if req.devType = DEV_TYPE_CAVALRY then
              s'.setTenantBounds cid resp.grantedOffset resp.grantedSize
                resp.rpcArenaOffset req.rpcArenaSize
            else s'
          answer := .setBounds resp }

/-- The DEV_RELEASE_BOUNDS branch. The proxy's pool goes back to the
default whether or not there were bounds to release. -/
def processReleaseBounds (s : State n) (cid devType : UInt32) : Outcome n :=
  let (pools, status) := s.pools.releaseDeviceBounds cid devType
  let s' := { s with pools }
  let s' :=
    if devType = DEV_TYPE_CAVALRY then
      match s.proxy.getTenant cid with
      | none => s'
      | some t =>
        match poolSizeForUsable t.shmSize with
        | .error _ => s'
        | .ok size =>
          s'.setTenantBounds cid CAVALRY_POOL_BASE size
            CAVALRY_RPC_ARENA_OFFSET CAVALRY_RPC_ARENA_SIZE
    else s'
  { server := s', answer := .releaseBounds status }

/-- The MEM_ALLOC branch; `none` is a search still running. -/
def processMem (s : State n) (cid : UInt32) (op : MemOp) (env : MsgEnv) : Option (Outcome n) :=
  if s.acl.hasCap cid .memAlloc = false then
    some { server := s, answer := .memAlloc { status := some .EPERM } }
  else
    match op with
    | .alloc req =>
      let phys := ((s.proxy.getTenant cid).map fun t => t.physBase).getD 0
      match s.pools.allocExtent env.fuel cid req phys with
      | .error none => none
      | .error (some resp) => some { server := s, answer := .memAlloc resp }
      | .ok (resp, pools) =>
        some { server := { s with pools }, answer := .memAlloc resp }
    | .free barOffset =>
      let (pools, resp) := s.pools.freeExtent cid barOffset
      some { server := { s with pools }, answer := .memAlloc (resp.getD {}) }
    | .other =>
      some { server := s, answer := .memAlloc { status := some .EOPNOTSUPP } }

/-- The memory a DMA_SUBMIT is served from, base and size: a CID without
a tenant gets the whole window. -/
def dmaRange (s : State n) (cid : UInt32) : UInt64 × UInt64 :=
  match s.proxy.getTenant cid with
  | some t => (t.physBase, t.shmSize)
  | none => (s.infoShmPhys, s.infoShmSize.toUInt64)

def processSubmit (s : State n) (cid : UInt32) (req : DmaSubmit) (env : MsgEnv) : Outcome n :=
  match handleSubmit s.channels s.acl cid (s.dmaRange cid).1 (s.dmaRange cid).2 req with
  | .error e => { server := s, answer := .submit (some e) }
  | .ok (xfer, channels) =>
    { server := { s with channels }, calls := [.slaveXfer xfer]
      answer := .submit env.xferStatus }

/-- `process_incoming_msg`. `none` is a search still running. -/
def processIncomingMsg (s : State n) (cid : UInt32) (m : Msg) (env : MsgEnv) : Option (Outcome n) :=
  match m with
  | .short => some { server := s }
  | .ping => some { server := s, answer := .pong }
  | .shmNotify => some { server := s, answer := .shmAck }
  | .echo => some { server := s, answer := .echo }
  | .benchBurst => some { server := s, answer := .benchAck }
  | .cavalryMock => some { server := s, answer := .cavalryMock }
  | .gdma kind copy => some (s.processGdma cid kind copy)
  | .cavalry none => some { server := s }
  | .cavalry (some (code, req)) => s.processCavalry cid code req env
  | .iav payload =>
    if s.acl.hasCap cid .iavDev = false then
      some { server := s, answer := .iavRefused .EPERM }
    else if s.brokerActive = false then
      some { server := s, answer := .iavRefused .ENODEV }
    else if env.queueRoom = false then
      some { server := s, answer := .iavRefused .EBUSY }
    else some { server := s, calls := [.iav cid payload] }
  | .iavTap tap =>
    match tapAdmit s.proxy s.tapReady cid tap with
    | .error e => some { server := s, answer := .tap (some e) }
    | .ok req =>
      some { server := s, calls := [.tapStep cid req]
             answer := .tap env.tapStatus }
  | .iavSlice payload =>
    some { server := s, calls := [.iavSlice cid payload], answer := .iavSlice }
  | .pools => some { server := s, answer := .pools }
  | .devSetBounds none => some { server := s }
  | .devSetBounds (some req) => s.processSetBounds cid req env
  | .devReleaseBounds none => some { server := s }
  | .devReleaseBounds (some devType) =>
    some (s.processReleaseBounds cid devType)
  | .memAlloc none => some { server := s }
  | .memAlloc (some op) => s.processMem cid op env
  | .query => some { server := s, answer := .query }
  | .dmaSlaveCfg none => some { server := s }
  | .dmaSlaveCfg (some req) =>
    match handleSlaveCfg s.acl cid req with
    | .error e => some { server := s, answer := .slaveCfg (some e) }
    | .ok _ =>
      some { server := s, calls := [.slaveCfg cid req]
             answer := .slaveCfg none }
  | .dmaSubmit none => some { server := s }
  | .dmaSubmit (some req) => some (s.processSubmit cid req env)
  | .dmaTerminate none => some { server := s }
  | .dmaTerminate (some channel) =>
    match handleTerminate s.channels cid channel with
    | .error e => some { server := s, answer := .terminate (some e) }
    | .ok channels =>
      some { server := { s with channels }, answer := .terminate none }
  | .dmaRequest false => some { server := s }
  | .dmaRequest true =>
    some { server := s, calls := [.lease cid], answer := .lease }
  | .sliceClaim nonce =>
    let (result, s') := s.claimSlice cid nonce
    some { server := s', answer := .claim result }
  | .unknown _ => some { server := s }

end State

-- ==== named capabilities

/-- The capability named for what a message does. -/
def Msg.cap : Msg → Option Cap
  | .gdma _ (some c) => some (if c.pitched then .gdmaPitch else .gdmaCopy)
  | .cavalry (some (code, _)) =>
    match Opcode.ofCode code with
    | some .runDags => some .cavalryPathA
    | some .registerDag => some .cavalryRegister
    | some .runRegisteredDag => some .cavalryPathB
    | _ => none
  | .iav _ => some .iavDev
  | .iavTap _ => some .iavStream
  | .devSetBounds (some _) => some .devConfig
  | .devReleaseBounds (some _) => some .devConfig
  | .memAlloc (some (.alloc _)) => some .memAlloc
  | .dmaSlaveCfg (some _) => some .dmaSlave
  | .dmaSubmit (some _) => some .dmaSlave
  | .dmaTerminate (some _) => some .dmaSlave
  | _ => none

variable {s : State n} {cid : UInt32} {m : Msg} {env : MsgEnv} {cap : Cap}

end AmbaVirt.Server
