/-
What a message makes the server touch in the shared window.

The accesses are in offsets of the window, for every message type: the
byte a notification points at, the two ends of a GDMA copy, the arena and
the staging slice the Cavalry proxy copies out, the handle buffers of a
live step, the regions a grant of the pools zeroes, and the buffer of a
slave transfer. What a device or the IAV broker does later is not of this
call.

Almost all are ranges of the sender's BAR that were checked against its
slice, and every slice ends in the window (`State.Framed`). Three are
not. A notification of no bytes may point at the end of the window. A
grant whose end wraps in 32 bits passes the test against the BAR. And a
sender without a slice has a transfer checked against the window's size
as the module reports it, which need not be the size of its slices.
`message_confined_iff` is that nothing else escapes.
-/
import AmbaVirt.Server.Survey
import AmbaVirt.Server.Wire

namespace AmbaVirt.Server

open Lib Kernel Cavalry Pool Gdma

variable {n : Nat} {s : State n} {cid : UInt32} {env : MsgEnv} {r : Span}

-- ==== of the BAR

def barSpan (t : Tenant) (b : Span) : Span :=
  ⟨t.sliceOffset.toNat + b.lo, b.len⟩

/-- The arena a request is copied out of, once its checks are passed;
`least` is the size of the structure expected in it. -/
def arenaCopied (p : Proxy) (req : Rpc) (cid : UInt32) (least : UInt64) : List Span :=
  match p.getTenant cid with
  | none => []
  | some t =>
    if t.shmMap = .mapped ∧ (t.checkArena req least).toBool = true then
      [barSpan t ⟨req.barOffset.toNat, req.arenaLen.toNat⟩]
    else []

/-- The staging slice a registration is copied out of, once it is
granted. -/
def stagingCopied (d : Daemon) (req : Rpc) (cid : UInt32) (env : RpcEnv) : List Span :=
  match d.proxy.getTenant cid with
  | none => []
  | some t =>
    if (d.registerDag req cid env).toBool = true then
      let reg := (d.registerArgs req cid env).reg
      [barSpan t ⟨reg.stagingBarOffset.toNat, reg.stagingSize.toNat⟩]
    else []

def barCopied (d : Daemon) (req : Rpc) (cid : UInt32) (env : RpcEnv) : Opcode → List Span
  | .runDags =>
    if d.proxy.enforcePathB then []
    else arenaCopied d.proxy req cid runDagsSize
  | .runRegisteredDag =>
    if (d.proxy.ownedDag req cid).toBool = true then
      arenaCopied d.proxy req cid runRegDescSize
    else []
  | .registerDag =>
    arenaCopied d.proxy req cid (regDescSize + runDagsSize) ++ stagingCopied d req cid env
  | _ => []

def handleSpan (p : Proxy) (cid handleId : UInt32) : List Span :=
  match p.getTenant cid, p.ownedHandle handleId cid with
  | some t, .ok h => [barSpan t ⟨h.barOffset.toNat, h.size.toNat⟩]
  | _, _ => []

def TapRun.handles (req : TapRun) : List UInt32 :=
  [req.inHandleId, req.outHandleId] ++
    if req.wantJpeg then [req.jpegHandleId] else []

/-- `AMBA_VIRT_DEV_F_ZERO_INIT`. -/
def DEV_F_ZERO_INIT : UInt32 := 8

-- ==== the accesses

namespace State

/-- The ranges of its BAR a message of `cid` has the pools grant and
zero. -/
def grants (s : State n) (cid : UInt32) (env : MsgEnv) : Msg → List Span
  | .devSetBounds (some req) =>
    if s.acl.hasCap cid .devConfig = false ∨ req.flags &&& DEV_F_ZERO_INIT = 0 then []
    else
      match s.pools.setDeviceBounds env.fuel cid req with
      | .ok (resp, _) => resp.spans req
      | .error _ => []
  | .memAlloc (some (.alloc req)) =>
    if s.acl.hasCap cid .memAlloc = false ∨ req.flags &&& DEV_F_ZERO_INIT = 0 then []
    else
      let phys := ((s.proxy.getTenant cid).map fun t => t.physBase).getD 0
      match s.pools.allocExtent env.fuel cid req phys with
      | .ok (resp, _) => [resp.span]
      | .error _ => []
  | _ => []

/-- What is zeroed of them: all, if the sender's slice is mapped. -/
def zeroed (s : State n) (cid : UInt32) (env : MsgEnv) (m : Msg) : List Span :=
  match s.proxy.getTenant cid with
  | none => []
  | some t =>
    if t.shmMap = .mapped then (s.grants cid env m).map (barSpan t) else []

def cavalryCopied (s : State n) (cid code : UInt32) (req : Rpc) (env : MsgEnv) : List Span :=
  if Opcode.ofCode code = some .runDags ∧ s.acl.hasCap cid .cavalryPathA = false then []
  else if Opcode.ofCode code = some .registerDag ∧ s.acl.hasCap cid .cavalryRegister = false then []
  else if s.daemon.draining then []
  else
    let d := s.daemon.reopen env.rpc
    if d.offline then []
    else
      match Opcode.ofCode code with
      | none => []
      | some op => barCopied d req cid env.rpc op

/-- The source and the destination of a GDMA copy that is executed, as
the server hands them to the kernel. -/
def gdmaCopied (s : State n) (cid : UInt32) (kind : GdmaMsg) (copy : GdmaCopy) : List Span :=
  match s.proxy.getTenant cid with
  | none => []
  | some t =>
    if (Gdma.processGdma s.proxy s.window (gdmaCap s.acl) cid kind true copy).toBool = true then
      let c := copy.translate t.sliceOffset
      [⟨c.srcOff.toNat, c.extent c.srcPitch⟩, ⟨c.dstOff.toNat, c.extent c.dstPitch⟩]
    else []

/-- The buffers a live step fills, reads or may fill. -/
def tapTouched (s : State n) (cid : UInt32) (tap : TapEnvelope) : List Span :=
  match tapAdmit s.proxy s.tapReady cid tap with
  | .error _ => []
  | .ok req => req.handles.flatMap (handleSpan s.proxy cid)

/-- A transfer the kernel is asked for. -/
def Submits (s : State n) (cid : UInt32) (req : DmaSubmit) : Prop :=
  (handleSubmit s.channels s.acl cid (s.dmaRange cid).1 (s.dmaRange cid).2 req).toBool = true
  deriving Decidable

def submitted (s : State n) (cid : UInt32) (req : DmaSubmit) : List Span :=
  if s.Submits cid req then
    match s.proxy.getTenant cid with
    | some t => [barSpan t ⟨req.bufOffset.toNat, req.bufLen.toNat⟩]
    | none => [⟨req.bufOffset.toNat, req.bufLen.toNat⟩]
  else []

/-- The byte a notification has the server read. -/
def notified (s : State n) (off len : UInt32) : List Span :=
  if s.mapped = true ∧ off.toUInt64 + len.toUInt64 ≤ s.activeWindowBytes then
    [⟨off.toNat, 1⟩]
  else []

/-- Everything `process_incoming_msg` touches in the window. -/
def accesses (s : State n) (cid : UInt32) (w : Wire) (env : MsgEnv) : List Span :=
  match w.msg with
  | .shmNotify => s.notified w.shmOff w.shmLen
  | .gdma kind (some copy) => s.gdmaCopied cid kind copy
  | .cavalry (some (code, req)) => s.cavalryCopied cid code req env
  | .iavTap tap => s.tapTouched cid tap
  | .devSetBounds _ | .memAlloc _ => s.zeroed cid env w.msg
  | .dmaSubmit (some req) => s.submitted cid req
  | _ => []

end State

-- ==== on the slice

/-- A range of the BAR of a CID, within its slice. -/
def OfBar (p : Proxy) (cid : UInt32) (r : Span) : Prop :=
  ∃ t b, p.getTenant cid = some t ∧ r = barSpan t b ∧ b.lo + b.len ≤ t.shmSize.toNat

theorem State.Framed.fits (h : s.Framed) (hr : OfBar s.proxy cid r) :
    r.Fits s.activeWindowBytes.toNat := by
  obtain ⟨t, b, ht, rfl, hb⟩ := hr
  have hslice := h.tenant_within ht
  right
  unfold barSpan
  dsimp only
  omega

variable {req : Rpc}

theorem checkArena_fits {t : Tenant} {least : UInt64} (h : (t.checkArena req least).toBool = true) :
    req.barOffset.toNat + req.arenaLen.toNat ≤ t.shmSize.toNat := by
  obtain ⟨u, hu⟩ := exists_ok_of_toBool h
  simp only [Tenant.checkArena, guards] at hu
  obtain ⟨-, -, hend⟩ := hu
  rw [gt_iff_lt, UInt64.lt_iff_toNat_lt, toNat_add_widened] at hend
  omega

variable {p : Proxy}

theorem arenaCopied_ofBar {least : UInt64} (h : r ∈ arenaCopied p req cid least) :
    OfBar p cid r := by
  unfold arenaCopied at h
  split at h
  · cases h
  case h_2 t ht =>
  rw [List.mem_ite_nil_right, List.mem_singleton] at h
  obtain ⟨⟨-, hok⟩, rfl⟩ := h
  exact ⟨t, _, ht, rfl, checkArena_fits hok⟩

theorem stagingCopied_ofBar {d : Daemon} {env : RpcEnv}
    (h : r ∈ stagingCopied d req cid env) : OfBar d.proxy cid r := by
  unfold stagingCopied at h
  split at h
  · cases h
  case h_2 t ht =>
  rw [List.mem_ite_nil_right, List.mem_singleton] at h
  obtain ⟨hok, rfl⟩ := h
  obtain ⟨out, hreg⟩ := exists_ok_of_toBool hok
  simp only [Daemon.registerDag, Proxy.handleRegisterDag, bind_ok, require_ok] at hreg
  obtain ⟨_, ⟨t', -, -, -, -, -, _, hrange, -⟩, -⟩ := hreg
  refine ⟨t, _, ht, rfl, ?_⟩
  have hle := (Proxy.validateRange_tenant ht hrange).1
  exact hle

theorem barCopied_ofBar {d : Daemon} {env : RpcEnv} {op : Opcode}
    (h : r ∈ barCopied d req cid env op) :
    OfBar d.proxy cid r := by
  cases op <;> simp only [barCopied, List.mem_ite_nil_left, List.mem_ite_nil_right,
    List.mem_append, List.not_mem_nil] at h
  case runDags | runRegisteredDag => exact arenaCopied_ofBar h.2
  case registerDag => exact h.elim arenaCopied_ofBar stagingCopied_ofBar

theorem cavalryCopied_ofBar {code : UInt32} (h : r ∈ s.cavalryCopied cid code req env) :
    OfBar s.proxy cid r := by
  simp only [State.cavalryCopied, List.mem_ite_nil_left] at h
  obtain ⟨-, -, -, -, h⟩ := h
  split at h
  · cases h
  · have hslice := barCopied_ofBar h
    rwa [(reopen_tables s.daemon env.rpc).1] at hslice

theorem gdmaCopied_ofBar {kind : GdmaMsg} {copy : GdmaCopy}
    (h : r ∈ s.gdmaCopied cid kind copy) : OfBar s.proxy cid r := by
  unfold State.gdmaCopied at h
  split at h
  · cases h
  case h_2 t ht =>
  obtain ⟨hok, h⟩ := List.mem_ite_nil_right.mp h
  obtain ⟨job, hjob⟩ := exists_ok_of_toBool hok
  obtain ⟨t', ht', hrange, -, hexact⟩ := processGdma_ok hjob
  cases ht.symm.trans ht'
  obtain ⟨-, hsrc, hdst⟩ := checkTenantRange_ok hrange
  rcases List.mem_cons.mp h with rfl | h
  · refine ⟨t, ⟨copy.srcOff.toNat, copy.extent copy.srcPitch⟩, ht, ?_, hsrc⟩
    rw [hexact.srcOff, Nat.add_comm]
    rfl
  · obtain rfl := List.mem_singleton.mp h
    refine ⟨t, ⟨copy.dstOff.toNat, copy.extent copy.dstPitch⟩, ht, ?_, hdst⟩
    unfold barSpan
    rw [hexact.dstOff, Nat.add_comm]
    rfl

theorem handleSpan_ofBar {id size : UInt32}
    (hok : handleBuffer p id cid = .ok size) (h : r ∈ handleSpan p cid id) :
    OfBar p cid r := by
  simp only [handleBuffer, guards, pure_ok] at hok
  obtain ⟨t, ht, -, hdl, hown, hend, -⟩ := hok
  unfold handleSpan at h
  rw [ht, hown] at h
  obtain rfl := List.mem_singleton.mp h
  refine ⟨t, _, ht, rfl, ?_⟩
  rw [gt_iff_lt, UInt64.lt_iff_toNat_lt, toNat_add_widened] at hend
  dsimp only
  omega

theorem tapAdmit_handles {ready : Bool} {tap : TapEnvelope} {req : TapRun}
    (h : tapAdmit p ready cid tap = .ok req) {id : UInt32}
    (hid : id ∈ req.handles) : ∃ size, handleBuffer p id cid = .ok size := by
  unfold tapAdmit at h
  split at h
  · cases h
  · split at h <;> cases h
  case h_3 major req' =>
  simp only [guards] at h
  obtain ⟨-, -, -, size, hin, -, size', hout, hrest⟩ := h
  -- the third handle is looked up only if a JPEG is wanted
  obtain ⟨rfl, hjpeg⟩ : req' = req ∧ (req'.wantJpeg = true →
      ∃ size, handleBuffer p req'.jpegHandleId cid = .ok size) := by
    split at hrest
    case isTrue hwant =>
      simp only [checkJpeg, guards, pure_ok] at hrest
      obtain ⟨⟨-, size, hsize, -⟩, -, rfl⟩ := hrest
      exact ⟨rfl, fun _ => ⟨size, hsize⟩⟩
    case isFalse hwant =>
      simp only [guards, pure_ok] at hrest
      obtain ⟨-, rfl⟩ := hrest
      exact ⟨rfl, fun h => absurd h hwant⟩
  simp only [TapRun.handles, List.mem_append, List.mem_pair, List.mem_ite_nil_right,
    List.mem_singleton] at hid
  rcases hid with (rfl | rfl) | ⟨hwant, rfl⟩
  · exact ⟨size, hin⟩
  · exact ⟨size', hout⟩
  · exact hjpeg hwant

theorem tapTouched_ofBar {tap : TapEnvelope}
    (h : r ∈ s.tapTouched cid tap) : OfBar s.proxy cid r := by
  unfold State.tapTouched at h
  split at h
  · cases h
  case h_2 req hadmit =>
  obtain ⟨id, hid, hr⟩ := List.mem_flatMap.mp h
  obtain ⟨size, hsize⟩ := tapAdmit_handles hadmit hid
  exact handleSpan_ofBar hsize hr

-- ==== the escapes

/-- A notification of no bytes may point at the end of the window. -/
theorem notified_fits_iff (s : State n) (off len : UInt32) :
    (∀ r ∈ s.notified off len, r.Fits s.activeWindowBytes.toNat) ↔ ¬ (s.mapped = true ∧ len = 0 ∧
        off.toUInt64 = s.activeWindowBytes) := by
  unfold State.notified
  split
  case isTrue hok =>
    obtain ⟨hmapped, hle⟩ := hok
    rw [UInt64.le_iff_toNat_le, toNat_add_widened] at hle
    constructor
    · intro h hbad
      obtain ⟨-, -, hoff⟩ := hbad
      have hoff' := congrArg UInt64.toNat hoff
      rw [UInt32.toNat_toUInt64] at hoff'
      rcases h _ (List.mem_singleton_self _) with h0 | hfit
      · cases h0
      · dsimp only at hfit
        omega
    · intro h r hr
      obtain rfl := List.mem_singleton.mp hr
      right
      dsimp only
      by_contra hout
      have hlen : len.toNat = 0 := by omega
      refine h ⟨hmapped, UInt32.toNat_inj.mp hlen, UInt64.toNat_inj.mp ?_⟩
      rw [UInt32.toNat_toUInt64]
      omega
  case isFalse hno =>
    refine iff_of_true nofun ?_
    rintro ⟨hmapped, rfl, hoff⟩
    refine hno ⟨hmapped, ?_⟩
    rw [hoff]
    exact UInt64.le_of_eq (UInt64.add_zero _)

/-- No end of what a message asks the pools for can wrap: the BAR leaves
room for the arena and the alignment of a device, the regions of the pool
for an extent and its alignment. -/
def State.Roomy (s : State n) (cid : UInt32) : Msg → Prop
  | .devSetBounds (some req) => ∀ i p, s.pools.getTenant cid = some (i, p) → p.RoomFor req
  | .memAlloc (some (.alloc req)) => ∀ i p, s.pools.getTenant cid = some (i, p) →
    p.Below (req.extentAlign.toNat + req.allocSize.toNat)
  | _ => True

/-- A grant that ends below 4 GiB ends in the BAR, and with room for it
there it does. -/
theorem grants_end {m : Msg} (h : r ∈ s.grants cid env m) :
    ∃ i p, s.pools.getTenant cid = some (i, p) ∧
      (r.lo + r.len < 2 ^ 32 → r.Fits p.barSize.toNat) ∧
      (s.Roomy cid m → r.lo + r.len < 2 ^ 32) := by
  unfold State.grants at h
  split at h
  · replace h := (List.mem_ite_nil_left.mp h).2
    split at h
    case h_1 resp pools hok =>
      obtain ⟨i, p, hget, hall, hexact⟩ := Pools.setDeviceBounds_ends hok
      exact ⟨i, p, hget, hall r h, fun hroom => hexact (hroom i p hget) r h⟩
    · cases h
  · replace h := (List.mem_ite_nil_left.mp h).2
    dsimp only at h
    split at h
    case h_1 resp pools hok =>
      obtain rfl := List.mem_singleton.mp h
      obtain ⟨i, p, hget, hend, hexact⟩ := Pools.allocExtent_ends hok
      exact ⟨i, p, hget, hend, fun hroom => hexact (hroom i p hget)⟩
    · cases h
  · cases h

/-- What is zeroed is in the window, if there is room for it or every grant
whose end wraps is. -/
theorem zeroed_fits_iff (h : s.Framed) (m : Msg) :
    (∀ r ∈ s.zeroed cid env m, r.Fits s.activeWindowBytes.toNat) ↔
      s.Roomy cid m ∨ ∀ t, s.proxy.getTenant cid = some t → t.shmMap = .mapped →
        ∀ b ∈ s.grants cid env m, 2 ^ 32 ≤ b.lo + b.len →
          (barSpan t b).Fits s.activeWindowBytes.toNat := by
  constructor
  · intro hall
    refine .inr fun t ht hmapped b hb _ => ?_
    apply hall
    unfold State.zeroed
    rw [ht]
    dsimp only
    rw [if_pos hmapped]
    exact List.mem_map_of_mem hb
  · intro hwrap r hr
    unfold State.zeroed at hr
    split at hr
    · cases hr
    case h_2 t ht =>
    rw [List.mem_ite_nil_right, List.mem_map] at hr
    obtain ⟨hmapped, b, hb, rfl⟩ := hr
    obtain ⟨i, p, hget, hend, hexact⟩ := grants_end hb
    rcases Nat.lt_or_ge (b.lo + b.len) (2 ^ 32) with hlt | hge
    · have hsize := h.pool_size ht (Pools.getTenant_some hget)
      rcases hend hlt with h0 | hfit
      · exact .inl h0
      · rw [hsize] at hfit
        exact h.fits ⟨t, b, ht, rfl, hfit⟩
    · have hnoroom : ¬ s.Roomy cid m := fun hroom => Nat.not_le.mpr (hexact hroom) hge
      exact hwrap.resolve_left hnoroom t ht hmapped b hb hge

theorem submits_fits {req : DmaSubmit} (h : s.Submits cid req) :
    req.bufLen.toNat ≠ 0 ∧ req.bufOffset.toNat + req.bufLen.toNat ≤ (s.dmaRange cid).2.toNat := by
  obtain ⟨out, hok⟩ := exists_ok_of_toBool h
  simp only [handleSubmit, validateBufferBounds, guards] at hok
  obtain ⟨-, -, ⟨hlen, -, hend⟩, -⟩ := hok
  rw [gt_iff_lt, UInt64.lt_iff_toNat_lt, toNat_add_widened] at hend
  refine ⟨?_, by omega⟩
  intro h0
  apply hlen
  rw [← UInt64.toNat_inj, UInt32.toNat_toUInt64, h0]
  rfl

/-- A transfer is in the window, unless its sender has no slice and it
ends behind the window's slices. -/
theorem submitted_fits_iff (h : s.Framed) (req : DmaSubmit) :
    (∀ r ∈ s.submitted cid req, r.Fits s.activeWindowBytes.toNat) ↔
      (s.proxy.getTenant cid = none → s.Submits cid req → req.bufOffset.toNat + req.bufLen.toNat
          ≤ s.activeWindowBytes.toNat) := by
  unfold State.submitted
  split
  case isFalse hno => exact iff_of_true nofun fun _ hsub => absurd hsub hno
  case isTrue hsub =>
  obtain ⟨hlen, hend⟩ := submits_fits hsub
  unfold State.dmaRange at hend
  split
  case h_1 t ht =>
    rw [ht] at hend
    refine iff_of_true (fun r hr => ?_) (fun hnone => ?_)
    · obtain rfl := List.mem_singleton.mp hr
      exact h.fits ⟨t, _, ht, rfl, hend⟩
    · rw [ht] at hnone
      cases hnone
  case h_2 hnone =>
    constructor
    · intro hall _ _
      rcases hall _ (List.mem_singleton_self _) with h0 | hfit
      · exact absurd h0 hlen
      · exact hfit
    · intro hfit r hr
      obtain rfl := List.mem_singleton.mp hr
      exact .inr (hfit hnone hsub)

-- ==== the message

/-- A message is processed within its bytes and within the window. -/
def State.Confines (s : State n) (cid : UInt32) (rx : Rx)
    (tap : List UInt8 → TapEnvelope) (env : MsgEnv) : Prop :=
  (∀ r ∈ rx.reads tap, r.lo + r.len ≤ rx.len) ∧ ∀ r ∈ s.accesses cid (rx.wire tap) env,
      r.Fits s.activeWindowBytes.toNat

/-- What a message of `len` bytes must not be: a mock without its delay,
a notification of no bytes at the end of the window, a request for
zeroed memory that BAR and pool have no room for below 4 GiB and whose
grant wraps in 32 bits and ends behind the window, a transfer of a sender
without a slice that ends behind the window. -/
def State.Benign (s : State n) (cid : UInt32) (len : Nat) (w : Wire) (env : MsgEnv) : Prop :=
  match w.msg with
  | .cavalryMock => mockDelay.lo + mockDelay.len ≤ len
  | .shmNotify =>
    ¬ (s.mapped = true ∧ w.shmLen = 0 ∧ w.shmOff.toUInt64 = s.activeWindowBytes)
  | .devSetBounds _ | .memAlloc _ =>
    s.Roomy cid w.msg ∨ ∀ t, s.proxy.getTenant cid = some t → t.shmMap = .mapped →
      ∀ b ∈ s.grants cid env w.msg, 2 ^ 32 ≤ b.lo + b.len →
        (barSpan t b).Fits s.activeWindowBytes.toNat
  | .dmaSubmit (some req) =>
    s.proxy.getTenant cid = none → s.Submits cid req →
      req.bufOffset.toNat + req.bufLen.toNat ≤ s.activeWindowBytes.toNat
  | _ => True

/-- The accesses of a message, whatever its bytes. -/
theorem accesses_fit_iff (h : s.Framed) (cid : UInt32) (len : Nat) (w : Wire) (env : MsgEnv) :
    (w.msg = .cavalryMock → mockDelay.lo + mockDelay.len ≤ len) ∧
      (∀ r ∈ s.accesses cid w env, r.Fits s.activeWindowBytes.toNat) ↔
    s.Benign cid len w env := by
  obtain ⟨msg, shmOff, shmLen⟩ := w
  cases msg with
  | cavalryMock => exact ⟨fun h => h.1 rfl, fun h => ⟨fun _ => h, nofun⟩⟩
  | shmNotify =>
    exact (and_iff_right nofun).trans (notified_fits_iff s shmOff shmLen)
  | devSetBounds req =>
    exact (and_iff_right nofun).trans (zeroed_fits_iff h (.devSetBounds req))
  | memAlloc op =>
    exact (and_iff_right nofun).trans (zeroed_fits_iff h (.memAlloc op))
  | dmaSubmit req =>
    cases req with
    | none => exact iff_of_true ⟨nofun, nofun⟩ trivial
    | some req =>
      exact (and_iff_right nofun).trans (submitted_fits_iff h req)
  | gdma kind copy =>
    cases copy with
    | none => exact iff_of_true ⟨nofun, nofun⟩ trivial
    | some copy =>
      exact iff_of_true ⟨nofun, fun r hr => h.fits (gdmaCopied_ofBar hr)⟩ trivial
  | cavalry req =>
    cases req with
    | none => exact iff_of_true ⟨nofun, nofun⟩ trivial
    | some req =>
      exact iff_of_true ⟨nofun, fun r hr => h.fits (cavalryCopied_ofBar hr)⟩ trivial
  | iavTap tap =>
    exact iff_of_true ⟨nofun, fun r hr => h.fits (tapTouched_ofBar hr)⟩ trivial
  | _ => exact iff_of_true ⟨nofun, nofun⟩ trivial

/-- Every message of any length and content, processed by any server a
run leads to, is read within its bytes and touches the window only
within its bytes, exactly if it is benign. -/
theorem message_confined_iff {t : Net n} (h : (serverSystem n).Reachable t)
    (cid : UInt32) (rx : Rx) (tap : List UInt8 → TapEnvelope)
    (env : MsgEnv) :
    t.server.Confines cid rx tap env ↔ t.server.Benign cid rx.len (rx.wire tap) env := by
  unfold State.Confines
  rw [Rx.reads_within_iff]
  exact accesses_fit_iff (framed_reachable h) cid rx.len (rx.wire tap) env

-- ---- by example

def headerRx (type : UInt8) (shmOff shmLen : UInt32) : Rx where
  len := 16
  data i :=
    if i = 0 then type
    else if 8 ≤ i ∧ i < 12 then (shmOff >>> (8 * (i - 8)).toUInt32).toUInt8
    else if 12 ≤ i ∧ i < 16 then
      (shmLen >>> (8 * (i - 12)).toUInt32).toUInt8
    else 0
  bounded := by decide

/-- A notification of one byte of the window. -/
theorem message_confined_notify :
    sampleNet.server.Confines 7 (headerRx 3 4096 1) (fun _ => .undecodable) {} := by
  refine (message_confined_iff sampleNet_reachable 7 _ _ {}).mpr ?_
  intro hbad
  exact absurd hbad.2.1 (by decide)

def smallHost : Host 1 where
  ledger :=
    { slices := published fun _ =>
        { index := 0, usableSize := 0x1FF000, offset := 0
          phys := 0x100000000, sliceSize := 0x200000 } }
  index_eq := by decide
  physFits := by decide

def smallNet : Net 1 :=
  { server := State.boot smallHost sampleBoot, sessions := fun _ => {} }

/-- A mock of no more than the header has its delay read from behind the
message, and a notification of no bytes has the server read the byte
behind the window. -/
theorem message_escapes : ((serverSystem 8).Reachable sampleNet ∧
      ¬ sampleNet.server.Confines 7 (headerRx 9 0 0) (fun _ => .undecodable) {}) ∧
    ((serverSystem 1).Reachable smallNet ∧ ¬ smallNet.server.Confines 7 (headerRx 3 0x200000 0)
        (fun _ => .undecodable) {}) := by
  refine ⟨⟨sampleNet_reachable, ?_⟩, ⟨.init ⟨smallHost, sampleBoot, rfl, rfl⟩, ?_⟩⟩
  · intro h
    have hmem : mockDelay ∈ (headerRx 9 0 0).reads fun _ => .undecodable := by
      decide
    exact absurd (h.1 _ hmem) (by decide)
  · intro h
    have hmem : (⟨0x200000, 1⟩ : Span) ∈ smallNet.server.accesses 7
          ((headerRx 3 0x200000 0).wire fun _ => .undecodable) {} := by
      decide +kernel
    rcases h.2 _ hmem with h0 | hfit
    · cases h0
    · exact absurd hfit (by decide)

end AmbaVirt.Server
