/-
The broker's checks on the image calls that keep naming content
(tools/iav_policy.c): overlays, blur and YUV remap, set on their own,
through the stream and canvas configurations, and through
CFG_VIDEO_PROC.

Seven calls reach three area checks. What the DSP reads for a call is
`ImageCall.contents`: for each enabled area the ranges it reads, as
natural numbers, and the store they are in, which is the overlay window
or the entry of the caller's aux aperture over a partition.

`ImageCall.ids` are the stream and canvas ids the driver shifts by or
indexes with. The blur of SET_STREAM_CONFIG keeps its own id.
-/
import AmbaVirt.Iav.Arena

namespace AmbaVirt.Iav

open Lib

structure ImageHeader where
  maxCanvasBufNum : UInt32
  invalidCanvasId : UInt32
  maxPassNum : UInt32
  srcbufNum : UInt32
  /-- `CONFIG_AMBARELLA_MAX_CHANNEL_NUM`. -/
  channels : UInt32
  /-- `IAV_MAX_CHANNEL_NUM`. -/
  maxChannelNum : UInt32
  partCanvasOverlay : UInt32
  partArbBlur : UInt32
  partArbSmoothBlur : UInt32
  partBlur : UInt32
  partSmoothBlur : UInt32
  partYuvRemap : UInt32
  partMask : UInt32
  partQpMatrix : UInt32

def STREAM_IDS : UInt32 := 32
def OVERLAY_CLUT_BYTES : UInt64 := 1024
def YUV_REMAP_CLUT_BYTES : UInt64 := 1024
def VIN_SOURCES : UInt32 := 32

-- ==== arguments

/-- `struct iav_overlay_area`. -/
structure OverlayArea where
  enable : Bool
  pitch : UInt32
  height : UInt32
  totalSize : UInt64
  dataAddrOffset : UInt64
  clutAddrOffset : UInt64
  deriving DecidableEq

/-- `struct iav_overlay_insert`. -/
structure OverlayInsert where
  id : UInt32
  idForCanvas : Bool
  enable : Bool
  area : List OverlayArea
  deriving DecidableEq

/-- `IAV_BLUR_TYPE_*`, as far as the broker tells them apart. -/
inductive BlurType
  | normal | smooth | outOfRange
  deriving DecidableEq

/-- `struct iav_blur_area`. -/
structure BlurArea where
  enable : Bool
  useArbBlur : Bool
  width : UInt32
  height : UInt32
  arbBlurOffset : UInt32
  arbBlurPitch : UInt32
  deriving DecidableEq

/-- `struct iav_blur_insert`. -/
structure BlurInsert where
  idForCanvas : Bool
  streamId : UInt32
  canvasId : UInt32
  enable : Bool
  type : BlurType
  area : List BlurArea
  deriving DecidableEq

/-- `struct iav_yuv_remap`; an area is its `enable` and the offset of its
colour table. -/
structure YuvRemap where
  id : UInt32
  enable : Bool
  area : List (Bool × UInt64)
  deriving DecidableEq

/-- `struct iav_video_proc`, by its cid. -/
inductive VideoProc
  | mask (channelId : UInt32)
  | dptz (channelId passId bufId canvasId : UInt32)
  | canvasFps (id : UInt32)
  | canvasVvSync (id : UInt32)
  | canvasDummyLatency (id : UInt32)
  | vsrcUpdate (chanId vsrcId : UInt32)
  | canvasOverlay (o : OverlayInsert)
  | pyramidRoi (chanId : UInt32)
  | pyramidFps (chanId : UInt32)
  | canvasOrder (id chanNum : UInt32) (chanOrder : List UInt32)
  | vcapFlush (channelId : UInt32)
  | postpScale (canvasId : UInt32) (area : List (Bool × UInt32))
  | cawarp (chanId : UInt32)
  | other
  deriving DecidableEq

/-- `struct iav_stream_cfg`, by its cid. -/
inductive StreamArg
  | customSei
  | qpRoi (qpmRaw : Bool)
  | overlay (o : OverlayInsert)
  | blur (b : BlurInsert)
  | yuvRemap (r : YuvRemap)
  | other
  deriving DecidableEq

structure StreamCfg where
  id : UInt32
  arg : StreamArg
  deriving DecidableEq

/-- `struct iav_canvas_sync_cfg`, by its cid. -/
inductive CanvasArg
  | blur (b : BlurInsert)
  | postpScale
  | overlay (o : OverlayInsert)
  | unknown
  deriving DecidableEq

structure CanvasSyncCfg where
  id : UInt32
  arg : CanvasArg
  deriving DecidableEq

inductive ImageCall
  | setOverlayInsert (o : OverlayInsert)
  | cfgVideoProc (v : VideoProc)
  | setStreamConfig (c : StreamCfg)
  | cfgFrameSyncProc (c : StreamCfg)
  | cfgCanvasFrameSyncProc (c : CanvasSyncCfg)
  | setBlurInsert (b : BlurInsert)
  | setYuvRemapInsert (r : YuvRemap)
  deriving DecidableEq

/-- What the driver answers to the queries of a check: the length of a
partition, and `pre_dec_enable` of a channel. `none` is a failed query. -/
structure Queries where
  memblock : UInt32 → Option UInt64
  preDecEnable : UInt32 → Option Bool

-- ==== the checks

/-- `range_ok`. -/
def RangeOk (off len limit : UInt64) : Prop := off ≤ limit ∧ len ≤ limit - off
  deriving Decidable

section Checks

variable (c : Call) (h : ImageHeader) (q : Queries)

/-- What an overlay area needs at its data offset. -/
def OverlayArea.need (a : OverlayArea) : UInt64 :=
  let need := a.pitch.toUInt64 * a.height.toUInt64
  if a.totalSize > need then a.totalSize else need

/-- `overlay_areas_ok`. -/
def overlayAreasOk (o : OverlayInsert) (limit : UInt64) : Except Errno Unit :=
  checkAll o.area fun a =>
    refuseIf (a.enable = true ∧ (¬ RangeOk a.dataAddrOffset a.need limit ∨
        ¬ RangeOk a.clutAddrOffset OVERLAY_CLUT_BYTES limit)) .EINVAL

/-- `overlay_ok`. -/
def overlayOk (o : OverlayInsert) (id : UInt32) (canvas : Bool) : Except Errno Unit := do
  refuseIf (if canvas then id ≥ h.maxCanvasBufNum else id ≥ STREAM_IDS) .EINVAL
  if o.enable = false then return ()
  else
    let limit := if canvas then c.auxLenOf h.partCanvasOverlay else c.ovlLen
    refuseIf (limit = 0) .EPERM
    overlayAreasOk o limit

/-- `arb_blur_area_ok`. -/
def arbBlurAreaOk (a : BlurArea) (smooth : Bool) : Except Errno Unit := do
  let limit := if smooth then 0 else c.auxLenOf h.partArbBlur
  let row := (a.width.toUInt64 + 7) / 8 + 1
  refuseIf (limit = 0) .EPERM
  refuseIf (a.height = 0) .EINVAL
  refuseIf (¬ RangeOk (a.arbBlurOffset.toUInt64
    + (a.height - 1).toUInt64 * a.arbBlurPitch.toUInt64) row limit) .EINVAL

/-- `blur_partition_present`. -/
def Queries.blurPartitionPresent (q : Queries) (pid : UInt32) : Bool :=
  (q.memblock pid).any fun len => len != 0

/-- `check_blur_insert`. -/
def checkBlurInsert (b : BlurInsert) : Except Errno Unit := do
  refuseIf (if b.idForCanvas then b.canvasId ≥ h.maxCanvasBufNum
    else b.streamId ≥ STREAM_IDS) .EINVAL
  if b.enable = false then return ()
  else
    refuseIf (b.type = .outOfRange) .EINVAL
    checkAll b.area fun a =>
      if a.enable = false ∨ a.useArbBlur = false then pure ()
      else arbBlurAreaOk c h a (b.type = .smooth)
    refuseIf (q.blurPartitionPresent
      (if b.type = .smooth then h.partSmoothBlur else h.partBlur) = false)
      .EINVAL

/-- `yuv_remap_ok`. -/
def yuvRemapOk (r : YuvRemap) (id : UInt32) : Except Errno Unit := do
  refuseIf (id ≥ STREAM_IDS) .EINVAL
  if r.enable = false then return ()
  else
    let limit := c.auxLenOf h.partYuvRemap
    refuseIf (limit = 0) .EPERM
    checkAll r.area fun a =>
      refuseIf (a.1 = true ∧ ¬ RangeOk a.2 YUV_REMAP_CLUT_BYTES limit) .EINVAL

/-- `check_set_overlay`. -/
def checkSetOverlay (o : OverlayInsert) : Except Errno Unit :=
  overlayOk c h o o.id o.idForCanvas

/-- `canvas_id_ok`. -/
def canvasIdOk (id : UInt32) : Bool := decide (id < h.maxCanvasBufNum)

/-- `check_cfg_vproc`. -/
def checkCfgVproc : VideoProc → Except Errno Unit
  | .mask channelId => do
      refuseIf (channelId ≥ h.channels) .EINVAL
      refuseIf (c.auxLenOf h.partMask = 0) .EPERM
  | .dptz channelId passId bufId canvasId => do
      refuseIf (channelId ≥ h.channels ∨ passId ≥ h.maxPassNum ∨ bufId ≥ h.srcbufNum) .EINVAL
      refuseIf (canvasIdOk h canvasId = false ∧ canvasId ≠ h.invalidCanvasId) .EINVAL
  | .canvasFps id | .canvasVvSync id | .canvasDummyLatency id =>
    refuseIf (canvasIdOk h id = false) .EINVAL
  | .vsrcUpdate chanId vsrcId => do
      refuseIf (chanId ≥ h.channels ∨ vsrcId ≥ VIN_SOURCES) .EINVAL
      let preDec ← require (q.preDecEnable chanId) .EPERM
      refuseIf (preDec = true) .EPERM
  | .canvasOverlay o => overlayOk c h o o.id true
  | .pyramidRoi id | .pyramidFps id | .vcapFlush id | .cawarp id =>
    refuseIf (id ≥ h.channels) .EINVAL
  | .canvasOrder id chanNum chanOrder => do
      refuseIf (canvasIdOk h id = false ∨ chanNum > h.maxChannelNum) .EINVAL
      checkAll chanOrder fun ch => refuseIf (ch ≥ 32) .EINVAL
  | .postpScale canvasId area => do
      refuseIf (canvasIdOk h canvasId = false) .EINVAL
      checkAll area fun a =>
        refuseIf (a.1 = true ∧ canvasIdOk h a.2 = false) .EINVAL
  | .other => .error .EPERM

/-- `check_stream_cfg`. -/
def checkStreamCfg (s : StreamCfg) : Except Errno Unit := do
  refuseIf (s.id ≥ STREAM_IDS) .EINVAL
  match s.arg with
  | .customSei => .error .EPERM
  | .qpRoi qpmRaw => do
      refuseIf (qpmRaw = true) .EPERM
      refuseIf (c.auxLenOf h.partQpMatrix = 0) .EPERM
  | .overlay o => overlayOk c h o s.id false
  | .blur b => checkBlurInsert c h q b
  | .yuvRemap r => yuvRemapOk c h r s.id
  | .other => return ()

/-- `check_canvas_sync`. -/
def checkCanvasSync (s : CanvasSyncCfg) : Except Errno Unit := do
  refuseIf (s.id ≥ h.maxCanvasBufNum) .EINVAL
  match s.arg with
  | .blur b => checkBlurInsert c h q b
  | .postpScale => return ()
  | .overlay o => overlayOk c h o s.id true
  | .unknown => .error .EINVAL

def checkImage : ImageCall → Except Errno Unit
  | .setOverlayInsert o => checkSetOverlay c h o
  | .cfgVideoProc v => checkCfgVproc c h q v
  | .setStreamConfig s => checkStreamCfg c h q s
  | .cfgFrameSyncProc s => checkStreamCfg c h q s
  | .cfgCanvasFrameSyncProc s => checkCanvasSync c h q s
  | .setBlurInsert b => checkBlurInsert c h q b
  | .setYuvRemapInsert r => yuvRemapOk c h r r.id

end Checks

-- ==== what is read

/-- Where content lies: the overlay window, or the caller's aperture entry
over a partition. -/
inductive Store
  | overlay
  | entry (pid : UInt32)
  deriving DecidableEq

structure Content where
  store : Store
  span : Span
  deriving DecidableEq

def OverlayArea.contents (a : OverlayArea) (store : Store) : List Content :=
  [⟨store, a.dataAddrOffset.toNat, max a.totalSize.toNat (a.pitch.toNat * a.height.toNat)⟩,
    ⟨store, a.clutAddrOffset.toNat, 1024⟩]

def OverlayInsert.contents (o : OverlayInsert) (store : Store) : List Content :=
  if o.enable then
    (o.area.filter (·.enable)).flatMap (·.contents store)
  else []

def BlurArea.contents (a : BlurArea) (store : Store) : List Content :=
  (List.range a.height.toNat).map fun r =>
    ⟨store, a.arbBlurOffset.toNat + r * a.arbBlurPitch.toNat, (a.width.toNat + 7) / 8 + 1⟩

def BlurInsert.contents (b : BlurInsert) (h : ImageHeader) : List Content :=
  if b.enable then
    (b.area.filter fun a => a.enable && a.useArbBlur).flatMap (·.contents (.entry
        (if b.type = .smooth then h.partArbSmoothBlur else h.partArbBlur)))
  else []

def YuvRemap.contents (r : YuvRemap) (h : ImageHeader) : List Content :=
  if r.enable then
    (r.area.filter (·.1)).map fun a => ⟨.entry h.partYuvRemap, a.2.toNat, 1024⟩
  else []

/-- A canvas overlay is read from the entry, a stream overlay from the
window. -/
def overlayStore (h : ImageHeader) (canvas : Bool) : Store :=
  if canvas then .entry h.partCanvasOverlay else .overlay

def StreamCfg.contents (s : StreamCfg) (h : ImageHeader) : List Content :=
  match s.arg with
  | .overlay o => o.contents .overlay
  | .blur b => b.contents h
  | .yuvRemap r => r.contents h
  | .customSei | .qpRoi _ | .other => []

def CanvasSyncCfg.contents (s : CanvasSyncCfg) (h : ImageHeader) : List Content :=
  match s.arg with
  | .overlay o => o.contents (overlayStore h true)
  | .blur b => b.contents h
  | .postpScale | .unknown => []

def ImageCall.contents (h : ImageHeader) : ImageCall → List Content
  | .setOverlayInsert o => o.contents (overlayStore h o.idForCanvas)
  | .cfgVideoProc (.canvasOverlay o) => o.contents (overlayStore h true)
  | .cfgVideoProc _ => []
  | .setStreamConfig s => s.contents h
  | .cfgFrameSyncProc s => s.contents h
  | .cfgCanvasFrameSyncProc s => s.contents h
  | .setBlurInsert b => b.contents h
  | .setYuvRemapInsert r => r.contents h

inductive ImageId
  | stream (id : UInt32)
  | canvas (id : UInt32)
  deriving DecidableEq

/-- Inside the driver's stream bitmap, or its canvas table. -/
def ImageId.InRange (h : ImageHeader) : ImageId → Prop
  | .stream id => id < STREAM_IDS
  | .canvas id => id < h.maxCanvasBufNum

def BlurInsert.id (b : BlurInsert) : ImageId :=
  if b.idForCanvas then .canvas b.canvasId else .stream b.streamId

def ImageCall.ids : ImageCall → List ImageId
  | .setOverlayInsert o =>
    [if o.idForCanvas then .canvas o.id else .stream o.id]
  | .cfgVideoProc (.canvasOverlay o) => [.canvas o.id]
  | .cfgVideoProc _ => []
  | .setStreamConfig ⟨id, .blur b⟩ => [.stream id, b.id]
  | .setStreamConfig s => [.stream s.id]
  | .cfgFrameSyncProc s => [.stream s.id]
  | .cfgCanvasFrameSyncProc s => [.canvas s.id]
  | .setBlurInsert b => [b.id]
  | .setYuvRemapInsert r => [.stream r.id]

-- ==== confinement

def Call.storeLen (c : Call) : Store → UInt64
  | .overlay => c.ovlLen
  | .entry pid => c.auxLenOf pid

/-- The caller holds the store, and the range lies in it. -/
def Call.Confines (c : Call) (x : Content) : Prop :=
  c.storeLen x.store ≠ 0 ∧ x.span.lo + x.span.len ≤ (c.storeLen x.store).toNat

theorem RangeOk.within {off len limit : UInt64} (h : RangeOk off len limit) :
    off.toNat + len.toNat ≤ limit.toNat := by
  obtain ⟨h₁, h₂⟩ := h
  rw [UInt64.le_iff_toNat_le, UInt64.toNat_sub_of_le _ _ h₁] at h₂
  have h₁ := UInt64.le_iff_toNat_le.mp h₁
  omega

section Confinement

variable {c : Call} {h : ImageHeader} {q : Queries}

theorem OverlayArea.need_toNat (a : OverlayArea) :
    a.need.toNat = max a.totalSize.toNat (a.pitch.toNat * a.height.toNat) := by
  have hmul := toNat_mul_widened a.pitch a.height
  unfold OverlayArea.need
  dsimp only
  split
  case isTrue hgt =>
    rw [gt_iff_lt, UInt64.lt_iff_toNat_lt, hmul] at hgt
    omega
  case isFalse hle =>
    rw [gt_iff_lt, UInt64.lt_iff_toNat_lt, hmul] at hle
    omega

theorem overlayOk_confines {o : OverlayInsert} {id : UInt32} {canvas : Bool}
    (hok : overlayOk c h o id canvas = .ok ()) :
    (∀ x ∈ o.contents (overlayStore h canvas), c.Confines x) ∧
      (if canvas then ImageId.canvas id else .stream id).InRange h := by
  unfold overlayOk at hok
  simp only [guards] at hok
  obtain ⟨hid, hok⟩ := hok
  constructor
  · unfold OverlayInsert.contents
    split at hok
    case isTrue hoff =>
      rw [hoff]
      exact List.forall_mem_nil _
    case isFalse hon =>
    rw [Bool.not_eq_false] at hon
    rw [if_pos hon]
    simp only [guards, overlayAreasOk, checkAll_ok] at hok
    obtain ⟨hlimit, hareas⟩ := hok
    have hlen : c.storeLen (overlayStore h canvas)
        = if canvas then c.auxLenOf h.partCanvasOverlay else c.ovlLen := by
      cases canvas <;> rfl
    rw [← hlen] at hlimit hareas
    intro x hx
    obtain ⟨a, ha, hx⟩ := List.mem_flatMap.mp hx
    obtain ⟨hmem, henable⟩ := List.mem_filter.mp ha
    have hranges := not_and.mp (hareas a hmem) henable
    rw [not_or, not_not, not_not] at hranges
    obtain ⟨hdata, hclut⟩ := hranges
    simp only [OverlayArea.contents, List.mem_cons, List.not_mem_nil, or_false] at hx
    rcases hx with rfl | rfl
    · refine ⟨hlimit, ?_⟩
      rw [← a.need_toNat]
      exact hdata.within
    · exact ⟨hlimit, hclut.within⟩
  · cases canvas with
    | true => exact UInt32.not_le.mp (by simpa using hid)
    | false => exact UInt32.not_le.mp (by simpa using hid)

theorem BlurArea.lastRow_toNat (a : BlurArea) (h0 : a.height ≠ 0) : (a.arbBlurOffset.toUInt64
        + (a.height - 1).toUInt64 * a.arbBlurPitch.toUInt64).toNat
      = a.arbBlurOffset.toNat + (a.height.toNat - 1) * a.arbBlurPitch.toNat := by
  have hpos : 1 ≤ a.height.toNat := by
    rw [Nat.one_le_iff_ne_zero]
    exact fun h => h0 (UInt32.toNat_inj.mp h)
  have hone : (a.height - 1).toNat = a.height.toNat - 1 :=
    UInt32.toNat_sub_of_le _ _ (UInt32.le_iff_toNat_le.mpr hpos)
  have hheight := a.height.toNat_lt
  have hpitch := a.arbBlurPitch.toNat_lt
  have hoff := a.arbBlurOffset.toNat_lt
  have hmul : (a.height.toNat - 1) * a.arbBlurPitch.toNat ≤ (2 ^ 32 - 2) * (2 ^ 32 - 1) :=
    Nat.mul_le_mul (by omega) (by omega)
  rw [toNat_add_exact] <;>
    rw [UInt32.toNat_toUInt64, toNat_mul_widened, hone]
  omega

theorem BlurArea.row_toNat (a : BlurArea) :
    ((a.width.toUInt64 + 7) / 8 + 1).toNat = (a.width.toNat + 7) / 8 + 1 := by
  have hwidth := a.width.toNat_lt
  have hsum : (a.width.toUInt64 + 7).toNat = a.width.toNat + 7 := by
    rw [toNat_add_exact] <;> rw [UInt32.toNat_toUInt64]
    · rfl
    · change _ + 7 < _
      omega
  have hdiv : ((a.width.toUInt64 + 7) / 8).toNat = (a.width.toNat + 7) / 8 := by
    rw [UInt64.toNat_div, hsum]
    rfl
  rw [toNat_add_exact] <;> rw [hdiv]
  · rfl
  · change _ + 1 < _
    omega

/-- The check of the last row covers every row. -/
theorem arbBlurAreaOk_confines {a : BlurArea} {smooth : Bool}
    (hok : arbBlurAreaOk c h a smooth = .ok ()) :
    smooth = false ∧ ∀ x ∈ a.contents (.entry h.partArbBlur), c.Confines x := by
  simp only [arbBlurAreaOk, guards] at hok
  obtain ⟨hlimit, hheight, hrange⟩ := hok
  rw [not_not] at hrange
  cases smooth with
  | true => exact absurd rfl hlimit
  | false =>
    refine ⟨rfl, ?_⟩
    have hend := hrange.within
    rw [a.lastRow_toNat hheight, a.row_toNat] at hend
    intro x hx
    obtain ⟨r, hr, rfl⟩ := List.mem_map.mp hx
    rw [List.mem_range] at hr
    have hle : r * a.arbBlurPitch.toNat ≤ (a.height.toNat - 1) * a.arbBlurPitch.toNat :=
      Nat.mul_le_mul_right _ (by omega)
    exact ⟨hlimit, (by dsimp only; omega : _ ≤ _).trans hend⟩

theorem checkBlurInsert_confines {b : BlurInsert} (hok : checkBlurInsert c h q b = .ok ()) :
    (∀ x ∈ b.contents h, c.Confines x) ∧ b.id.InRange h := by
  unfold checkBlurInsert at hok
  simp only [guards] at hok
  obtain ⟨hid, hok⟩ := hok
  constructor
  · unfold BlurInsert.contents
    split at hok
    case isTrue hoff =>
      rw [hoff]
      exact List.forall_mem_nil _
    case isFalse hon =>
    rw [Bool.not_eq_false] at hon
    rw [if_pos hon]
    simp only [guards, checkAll_ok] at hok
    obtain ⟨-, hareas, -⟩ := hok
    intro x hx
    obtain ⟨a, ha, hx⟩ := List.mem_flatMap.mp hx
    obtain ⟨hmem, henable⟩ := List.mem_filter.mp ha
    rw [Bool.and_eq_true] at henable
    have harea := hareas a hmem
    rw [if_neg (by rw [henable.1, henable.2]; decide)] at harea
    obtain ⟨hnormal, hall⟩ := arbBlurAreaOk_confines harea
    rw [if_neg (of_decide_eq_false hnormal)] at hx
    exact hall x hx
  · unfold BlurInsert.id
    split at hid
    case isTrue hcanvas =>
      rw [if_pos hcanvas]
      exact UInt32.not_le.mp hid
    case isFalse hstream =>
      rw [if_neg hstream]
      exact UInt32.not_le.mp hid

theorem yuvRemapOk_confines {r : YuvRemap} {id : UInt32} (hok : yuvRemapOk c h r id = .ok ()) :
    (∀ x ∈ r.contents h, c.Confines x) ∧ (ImageId.stream id).InRange h := by
  unfold yuvRemapOk at hok
  simp only [guards] at hok
  obtain ⟨hid, hok⟩ := hok
  refine ⟨?_, UInt32.not_le.mp hid⟩
  unfold YuvRemap.contents
  split at hok
  case isTrue hoff =>
    rw [hoff]
    exact List.forall_mem_nil _
  case isFalse hon =>
  rw [Bool.not_eq_false] at hon
  rw [if_pos hon]
  simp only [guards, checkAll_ok] at hok
  obtain ⟨hlimit, hareas⟩ := hok
  intro x hx
  obtain ⟨a, ha, rfl⟩ := List.mem_map.mp hx
  obtain ⟨hmem, henable⟩ := List.mem_filter.mp ha
  have hrange := not_not.mp (not_and.mp (hareas a hmem) henable)
  exact ⟨hlimit, hrange.within⟩

-- ---- the seven calls

theorem checkStreamCfg_confines {s : StreamCfg} (hok : checkStreamCfg c h q s = .ok ()) :
    (∀ x ∈ s.contents h, c.Confines x) ∧ (ImageId.stream s.id).InRange h ∧
      ∀ b, s.arg = .blur b → b.id.InRange h := by
  obtain ⟨id, arg⟩ := s
  simp only [checkStreamCfg, guards] at hok
  obtain ⟨hid, hok⟩ := hok
  have hid : (ImageId.stream id).InRange h := UInt32.not_le.mp hid
  cases arg with
  | overlay o => exact ⟨(overlayOk_confines hok).1, hid, by simp⟩
  | blur b =>
    obtain ⟨hall, hbid⟩ := checkBlurInsert_confines hok
    exact ⟨hall, hid, by simpa using hbid⟩
  | yuvRemap r => exact ⟨(yuvRemapOk_confines hok).1, hid, by simp⟩
  | customSei | qpRoi raw | other => exact ⟨List.forall_mem_nil _, hid, by simp⟩

theorem checkCanvasSync_confines {s : CanvasSyncCfg} (hok : checkCanvasSync c h q s = .ok ()) :
    (∀ x ∈ s.contents h, c.Confines x) ∧ (ImageId.canvas s.id).InRange h := by
  obtain ⟨id, arg⟩ := s
  simp only [checkCanvasSync, guards] at hok
  obtain ⟨hid, hok⟩ := hok
  refine ⟨?_, UInt32.not_le.mp hid⟩
  cases arg with
  | overlay o => exact (overlayOk_confines hok).1
  | blur b => exact (checkBlurInsert_confines hok).1
  | postpScale | unknown => exact List.forall_mem_nil _

theorem inRange_one {l : List Content} {id : ImageId}
    (hok : (∀ x ∈ l, c.Confines x) ∧ id.InRange h) :
    (∀ x ∈ l, c.Confines x) ∧ ∀ i ∈ [id], i.InRange h :=
  ⟨hok.1, List.forall_mem_singleton.mpr hok.2⟩

/-- Whatever the call, a check that passes confines its content and
bounds its ids. -/
theorem checkImage_confines {a : ImageCall} (hok : checkImage c h q a = .ok ()) :
    (∀ x ∈ a.contents h, c.Confines x) ∧ ∀ id ∈ a.ids, id.InRange h := by
  cases a with
  | setOverlayInsert o => exact inRange_one (overlayOk_confines hok)
  | cfgVideoProc v =>
    cases v with
    | canvasOverlay o => exact inRange_one (overlayOk_confines hok)
    | _ => exact ⟨List.forall_mem_nil _, List.forall_mem_nil _⟩
  | setStreamConfig s =>
    obtain ⟨hall, hid, hblur⟩ := checkStreamCfg_confines hok
    refine ⟨hall, ?_⟩
    obtain ⟨id, arg⟩ := s
    cases arg with
    | blur b =>
      exact List.forall_mem_cons.mpr ⟨hid, List.forall_mem_singleton.mpr (hblur b rfl)⟩
    | _ => exact List.forall_mem_singleton.mpr hid
  | cfgFrameSyncProc s =>
    obtain ⟨hall, hid, -⟩ := checkStreamCfg_confines hok
    exact inRange_one ⟨hall, hid⟩
  | cfgCanvasFrameSyncProc s => exact inRange_one (checkCanvasSync_confines hok)
  | setBlurInsert b => exact inRange_one (checkBlurInsert_confines hok)
  | setYuvRemapInsert r => exact inRange_one (yuvRemapOk_confines hok)

end Confinement

-- ---- what the caller holds

/-- The call `do_ioctl` hands to the check when there is no arena: the
windows' lengths and the caller's own aperture entries. -/
def BrokerView.call (v : BrokerView) : Call where
  decLen := v.windowLen 2
  ovlLen := v.windowLen 3
  dspLen := v.windowLen 0
  bsbLen := v.windowLen 1
  aux := v.aperture

def BrokerView.Holds (v : BrokerView) (len : UInt64) : Store → Prop
  | .overlay => (3, len) ∈ v.windows
  | .entry pid => (pid, len) ∈ v.aperture

theorem windowLen_mem {v : BrokerView} {id : UInt32}
    (h0 : v.windowLen id ≠ 0) : (id, v.windowLen id) ∈ v.windows := by
  -- the fold keeps its start or takes the length of an entry
  have hfold : ∀ (l : List (UInt32 × UInt64)) (init : UInt64),
      l.foldl (fun len w => if w.1 = id then w.2 else len) init = init ∨
        (id, l.foldl (fun len w => if w.1 = id then w.2 else len) init) ∈ l := by
    intro l
    induction l with
    | nil => exact fun init => .inl rfl
    | cons w l ih =>
      intro init
      rw [List.foldl_cons]
      rcases ih (if w.1 = id then w.2 else init) with hkeep | hmem
      · rw [hkeep]
        by_cases hw : w.1 = id
        · right
          rw [if_pos hw, ← hw]
          exact List.mem_cons_self
        · left
          exact if_neg hw
      · exact .inr (List.mem_cons_of_mem _ hmem)
  rcases hfold v.windows 0 with hzero | hmem
  · exact absurd hzero h0
  · exact hmem

theorem auxLenOf_mem {c : Call} {pid : UInt32} (h0 : c.auxLenOf pid ≠ 0) :
    (pid, c.auxLenOf pid) ∈ c.aux := by
  unfold Call.auxLenOf at h0 ⊢
  cases hf : (c.aux.take IAV_CALL_AUX_MAX).find? fun e => e.1 == pid with
  | none =>
    rw [hf] at h0
    exact absurd rfl h0
  | some e =>
    have hmem := List.mem_of_mem_take (List.mem_of_find?_eq_some hf)
    have hpid := List.find?_some hf
    rw [beq_iff_eq] at hpid
    rw [← hpid]
    exact hmem

/-- Content confinement: whatever the arguments, windows and aperture, if
the policy accepts an image call, everything the DSP reads for it lies in
a window or an aperture entry of the caller, over the right partition,
and the ids the driver uses are in range. -/
theorem image_content_confined (v : BrokerView) (h : ImageHeader)
    (q : Queries) (a : ImageCall) (hok : checkImage v.call h q a = .ok ()) :
    (∀ x ∈ a.contents h, ∃ len, v.Holds len x.store ∧ x.span.Within ⟨0, len.toNat⟩) ∧
    ∀ id ∈ a.ids, id.InRange h := by
  obtain ⟨hall, hids⟩ := checkImage_confines hok
  refine ⟨?_, hids⟩
  intro x hx
  obtain ⟨hne, hend⟩ := hall x hx
  refine ⟨v.call.storeLen x.store, ?_, Nat.zero_le _, ?_⟩
  · cases hs : x.store with
    | overlay =>
      rw [hs] at hne
      exact windowLen_mem hne
    | entry pid =>
      rw [hs] at hne
      exact auxLenOf_mem hne
  · rw [Nat.zero_add]
    exact hend

def sampleImageHeader : ImageHeader where
  maxCanvasBufNum := 20
  invalidCanvasId := 0xff
  maxPassNum := 2
  srcbufNum := 8
  channels := 4
  maxChannelNum := 4
  partCanvasOverlay := 20
  partArbBlur := 21
  partArbSmoothBlur := 22
  partBlur := 23
  partSmoothBlur := 24
  partYuvRemap := 25
  partMask := 26
  partQpMatrix := 27

def sampleBlurCall : ImageCall :=
  .setStreamConfig
    { id := 1
      arg := .blur
        { idForCanvas := false, streamId := 1, canvasId := 0, enable := true
          type := .normal
          area := [{ enable := true, useArbBlur := true, width := 64
                     height := 2, arbBlurOffset := 4096 - 64 - 9
                     arbBlurPitch := 64 }] } }

/-- A stream blur is accepted, and its two rows lie in the 4 KiB entry. -/
theorem image_content_confined_blur :
    let v := { sampleBrokerView with aperture := [(21, 4096)] }
    let q : Queries := ⟨fun _ => some 4096, fun _ => none⟩
    checkImage v.call sampleImageHeader q sampleBlurCall = .ok () ∧
      (sampleBlurCall.contents sampleImageHeader).length = 2 ∧
      ∀ x ∈ sampleBlurCall.contents sampleImageHeader,
        ∃ len, v.Holds len x.store ∧ x.span.Within ⟨0, len.toNat⟩ := by
  intro v q
  have hok : checkImage v.call sampleImageHeader q sampleBlurCall = .ok () := by
    decide
  exact ⟨hok, by decide, (image_content_confined v sampleImageHeader q sampleBlurCall hok).1⟩

end AmbaVirt.Iav
