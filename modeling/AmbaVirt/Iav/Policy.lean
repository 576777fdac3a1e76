/-
The broker's checks on the three ioctls that may name memory of a
guest's arena (tools/iav_policy.c): SET_IMG_SCALE, GDMA_COPY and
SYNC_CACHE_MEM_PART.

The argument structures and the partition ids are those of the driver's
iav_ioctl.h, which is not part of this repository. The structures are
records of the fields the broker reads, and the numbers are a `Header`
the development is parametric in.

A buffer may use `[lo, hi)` of its partition: the window over it or, in
the pool partition, the arena block the broker translated for that very
slot. `check_admits` is what a call that passed has.
-/
import AmbaVirt.Basic
import AmbaVirt.Lib.Guard
import AmbaVirt.Lib.Span
import AmbaVirt.Lib.Word

namespace AmbaVirt.Iav

open Lib

/-- The partition ids of the driver's header, and the sizes its compiler
gives the three argument structures. -/
structure Header where
  partDsp : UInt32
  partBsb : UInt32
  partDecBsb : UInt32
  partOverlay : UInt32
  imgScaleSize : Nat
  gdmaCopySize : Nat
  syncCacheSize : Nat

-- ==== arguments

/-- `IAV_YUV_FORMAT_*`, as far as the broker tells them apart. -/
inductive YuvFormat
  | yuv422 | yuv420 | yuv400 | unknown
  deriving DecidableEq

/-- `IAV_INPUT_WIN_FORMAT_*`. -/
inductive WinFormat
  | u32 | u24_8 | unknown
  deriving DecidableEq

/-- `IAV_CACHE_*`. -/
inductive CacheOpt
  | clean | invalidate | unknown
  deriving DecidableEq

structure Rect where
  x : UInt32
  y : UInt32
  width : UInt32
  height : UInt32
  deriving DecidableEq

/-- `struct iav_scale_buf_info`. -/
structure ScaleBufInfo where
  usePhys : Bool
  useDmaBufFd : Bool
  pid : UInt32
  yOffset : UInt64
  uvOffset : UInt64
  pitch : UInt32
  height : UInt32
  deriving DecidableEq

/-- `struct iav_img_scale`. -/
structure ImgScale where
  format : YuvFormat
  outputFormatEnable : Bool
  outputFormat : YuvFormat
  inputWinFormat : WinFormat
  input : Rect
  output : Rect
  inputBuf : ScaleBufInfo
  outputBuf : ScaleBufInfo
  deriving DecidableEq

/-- `struct iav_gdma_copy`. -/
structure GdmaCopy where
  srcUsePhys : Bool
  dstUsePhys : Bool
  srcUseDmaBufFd : Bool
  dstUseDmaBufFd : Bool
  srcMmapType : UInt32
  dstMmapType : UInt32
  srcOffset : UInt64
  dstOffset : UInt64
  srcPitch : UInt32
  dstPitch : UInt32
  width : UInt32
  height : UInt32
  deriving DecidableEq

/-- `struct iav_sync_cache_mem_part`. -/
structure SyncCacheMemPart where
  pid : UInt32
  opt : CacheOpt
  offset : UInt64
  length : UInt64
  deriving DecidableEq

/-- The format of the output plane: the input's unless one is set. -/
def ImgScale.outFormat (s : ImgScale) : YuvFormat :=
  if s.outputFormatEnable then s.outputFormat else s.format

-- ==== the call

/-- An arena block the broker translated for a slot of the call. -/
structure ArenaSlot where
  start : UInt64
  len : UInt64
  deriving DecidableEq

/-- `struct iav_call`, the fields these checks read. A slot that is not
`valid` is `none`. -/
structure Call where
  decLen : UInt64 := 0
  ovlLen : UInt64 := 0
  dspLen : UInt64 := 0
  bsbLen : UInt64 := 0
  arenaPid : UInt32 := 0
  arena : Fin 2 → Option ArenaSlot := fun _ => none
  aux : List (UInt32 × UInt64) := []

/-- `IAV_CALL_AUX_MAX`. -/
def IAV_CALL_AUX_MAX : Nat := 16

/-- `aux_len_of`. -/
def Call.auxLenOf (c : Call) (pid : UInt32) : UInt64 :=
  ((c.aux.take IAV_CALL_AUX_MAX).find? fun e => e.1 == pid).elim 0 Prod.snd

/-- `window_len_of_pid`. -/
def Call.windowLenOfPid (c : Call) (h : Header) (pid : UInt32) : UInt64 :=
  if pid = h.partDsp then c.dspLen
  else if pid = h.partBsb then c.bsbLen
  else if pid = h.partDecBsb then c.decLen
  else if pid = h.partOverlay then c.ovlLen
  else c.auxLenOf pid

/-- `pid_is_primary_content`. -/
def Call.pidIsPrimaryContent (c : Call) (h : Header) (pid : UInt32) : Bool :=
  pid == h.partDecBsb || pid == h.partOverlay || c.auxLenOf pid != 0

/-- `is_arena_slot`. -/
def Call.isArenaSlot (c : Call) (slot : Fin 2) (pid : UInt32) : Bool :=
  c.arenaPid != 0 && pid == c.arenaPid && (c.arena slot).isSome

/-- `buf_range`: the range of partition `pid` the buffer may use. -/
def Call.bufRange (c : Call) (h : Header) (slot : Fin 2) (pid : UInt32) :
    Except Errno (UInt64 × UInt64) :=
  if c.arenaPid ≠ 0 ∧ pid = c.arenaPid then do
    let a ← require (c.arena slot) .EPERM
    refuseIf (a.len = 0) .EPERM
    return (a.start, a.start + a.len)
  else do
    let hi := c.windowLenOfPid h pid
    refuseIf (hi = 0) .EPERM
    return (0, hi)

/-- `span_ok`. -/
def SpanOk (off len lo hi : UInt64) : Prop :=
  off ≥ lo ∧ off ≤ hi ∧ len ≤ hi - off
  deriving Decidable

theorem SpanOk.within {off len lo hi : UInt64} (h : SpanOk off len lo hi) :
    lo.toNat ≤ off.toNat ∧ off.toNat + len.toNat ≤ hi.toNat := by
  obtain ⟨h₁, h₂, h₃⟩ := h
  rw [UInt64.le_iff_toNat_le, UInt64.toNat_sub_of_le _ _ h₂] at h₃
  have h₂' := UInt64.le_iff_toNat_le.mp h₂
  exact ⟨h₁, by omega⟩

-- ==== SET_IMG_SCALE

def IMG_SCALE_H_ALIGN : UInt64 := 4
def IMG_SCALE_V_ALIGN : UInt64 := 2

/-- `round_up64`. -/
def roundUp64 (v a : UInt64) : UInt64 := (v + a - 1) / a * a

/-- `uv_plane_bytes`. -/
def uvPlaneBytes (fmt : YuvFormat) (pitch height : UInt64) : Option UInt64 :=
  match fmt with
  | .yuv422 => some (pitch * height)
  | .yuv420 => some (pitch * (height / 2))
  | .yuv400 => some 0
  | .unknown => none

/-- `scale_buf_ok`. -/
def Call.scaleBufOk (c : Call) (h : Header) (slot : Fin 2) (b : ScaleBufInfo)
    (fmt : YuvFormat) : Except Errno Unit := do
  refuseIf (b.usePhys = true ∨ b.useDmaBufFd = true) .EPERM
  refuseIf (b.pid ≠ h.partDecBsb ∧ ¬ c.isArenaSlot slot b.pid) .EPERM
  let r ← c.bufRange h slot b.pid
  refuseIf (b.pitch = 0 ∨ b.height = 0) .EINVAL
  let uvBytes ← require (uvPlaneBytes fmt b.pitch.toUInt64 b.height.toUInt64) .EINVAL
  refuseIf (¬ SpanOk b.yOffset (b.pitch.toUInt64 * b.height.toUInt64) r.1 r.2) .EINVAL
  refuseIf (uvBytes ≠ 0 ∧ ¬ SpanOk b.uvOffset uvBytes r.1 r.2) .EINVAL

/-- The crop window the DSP reads, as the driver aligns it: `x0`, `y0`,
width and height. -/
def ImgScale.cropWindow (s : ImgScale) : Option (UInt64 × UInt64 × UInt64 × UInt64) :=
  match s.inputWinFormat with
  | .u32 =>
    some ((s.input.x - s.input.x % 2).toUInt64, (s.input.y - s.input.y % 2).toUInt64,
      roundUp64 (s.input.width.toUInt64 + (s.input.x % 2).toUInt64) IMG_SCALE_H_ALIGN,
      roundUp64 (s.input.height.toUInt64 + (s.input.y % 2).toUInt64) IMG_SCALE_V_ALIGN)
  | .u24_8 =>
    -- u24.8 fixed point, computed in 64 bits
    let xi := ((s.input.x >>> 8) - (s.input.x >>> 8) % 4).toUInt64
    let yi := ((s.input.y >>> 8) - (s.input.y >>> 8) % 2).toUInt64
    let xf := s.input.x.toUInt64 - (xi <<< 8)
    let yf := s.input.y.toUInt64 - (yi <<< 8)
    let wf := (s.input.width &&& 0xff).toUInt64 + (xf &&& 0xff)
    let hf := (s.input.height &&& 0xff).toUInt64 + (yf &&& 0xff)
    let wi := (s.input.width >>> 8).toUInt64 + (xf >>> 8) + (wf >>> 8)
      + (if wf &&& 0xff ≠ 0 then 1 else 0)
    let hi := (s.input.height >>> 8).toUInt64 + (yf >>> 8) + (hf >>> 8)
      + (if hf &&& 0xff ≠ 0 then 1 else 0)
    some (xi, yi, roundUp64 wi IMG_SCALE_H_ALIGN, roundUp64 hi IMG_SCALE_V_ALIGN)
  | .unknown => none

/-- `check_img_scale`. -/
def Call.checkImgScale (c : Call) (h : Header) (s : ImgScale) : Except Errno Unit := do
  c.scaleBufOk h 0 s.inputBuf s.format
  c.scaleBufOk h 1 s.outputBuf s.outFormat
  let crop ← require s.cropWindow .EINVAL
  refuseIf (crop.1 + crop.2.2.1 > s.inputBuf.pitch.toUInt64 ∨
    crop.2.1 + crop.2.2.2 > s.inputBuf.height.toUInt64) .EINVAL
  let ow := roundUp64 s.output.width.toUInt64 IMG_SCALE_H_ALIGN
  let oh := roundUp64 s.output.height.toUInt64 IMG_SCALE_V_ALIGN
  refuseIf (s.output.x.toUInt64 + ow > s.outputBuf.pitch.toUInt64 ∨
    s.output.y.toUInt64 + oh > s.outputBuf.height.toUInt64) .EINVAL

-- ==== GDMA_COPY and SYNC_CACHE

/-- `gdma_side_ok`. -/
def Call.gdmaSideOk (c : Call) (h : Header) (slot : Fin 2) (pid : UInt32)
    (offset pitch height width : UInt64) (dst : Bool) :
    Except Errno Unit := do
  let r ← c.bufRange h slot pid
  refuseIf (dst = true ∧ ¬ c.pidIsPrimaryContent h pid ∧ ¬ c.isArenaSlot slot pid) .EPERM
  refuseIf (pitch = 0 ∨ width > pitch) .EINVAL
  refuseIf (¬ SpanOk offset (pitch * height) r.1 r.2) .EINVAL

/-- `check_gdma_copy`. -/
def Call.checkGdmaCopy (c : Call) (h : Header) (g : GdmaCopy) : Except Errno Unit := do
  refuseIf (g.srcUsePhys = true ∨ g.dstUsePhys = true ∨
    g.srcUseDmaBufFd = true ∨ g.dstUseDmaBufFd = true) .EPERM
  refuseIf (g.width = 0 ∨ g.height = 0) .EINVAL
  c.gdmaSideOk h 0 g.srcMmapType g.srcOffset g.srcPitch.toUInt64
    g.height.toUInt64 g.width.toUInt64 false
  c.gdmaSideOk h 1 g.dstMmapType g.dstOffset g.dstPitch.toUInt64
    g.height.toUInt64 g.width.toUInt64 true

/-- `check_sync_cache`. -/
def Call.checkSyncCache (c : Call) (h : Header) (m : SyncCacheMemPart) : Except Errno Unit := do
  let r ← c.bufRange h 0 m.pid
  refuseIf (m.opt ≠ .clean ∧ m.opt ≠ .invalidate) .EINVAL
  refuseIf (m.opt = .invalidate ∧ ¬ c.pidIsPrimaryContent h m.pid ∧ ¬ c.isArenaSlot 0 m.pid) .EPERM
  refuseIf (m.length = 0 ∨ ¬ SpanOk m.offset m.length r.1 r.2) .EINVAL

-- ==== the three as one

inductive Arg
  | imgScale (s : ImgScale)
  | gdmaCopy (g : GdmaCopy)
  | syncCache (m : SyncCacheMemPart)
  deriving DecidableEq

def Call.check (c : Call) (h : Header) : Arg → Except Errno Unit
  | .imgScale s => c.checkImgScale h s
  | .gdmaCopy g => c.checkGdmaCopy h g
  | .syncCache m => c.checkSyncCache h m

/-- A buffer of a call: its slot, the partition it names, whether it goes
around partitions (a physical address or a dma-buf), and the byte ranges
the hardware touches. -/
structure Buf where
  slot : Fin 2
  pid : UInt32
  direct : Bool
  spans : List Span

def ScaleBufInfo.buf (b : ScaleBufInfo) (slot : Fin 2) (fmt : YuvFormat) : Buf where
  slot
  pid := b.pid
  direct := b.usePhys || b.useDmaBufFd
  spans :=
    ⟨b.yOffset.toNat, b.pitch.toNat * b.height.toNat⟩ ::
      match fmt with
      | .yuv422 => [⟨b.uvOffset.toNat, b.pitch.toNat * b.height.toNat⟩]
      | .yuv420 => [⟨b.uvOffset.toNat, b.pitch.toNat * (b.height.toNat / 2)⟩]
      | .yuv400 => []
      | .unknown => []

def Arg.bufs : Arg → List Buf
  | .imgScale s =>
    [s.inputBuf.buf 0 s.format, s.outputBuf.buf 1 s.outFormat]
  | .gdmaCopy g =>
    [⟨0, g.srcMmapType, g.srcUsePhys || g.srcUseDmaBufFd,
        [⟨g.srcOffset.toNat, g.srcPitch.toNat * g.height.toNat⟩]⟩,
      ⟨1, g.dstMmapType, g.dstUsePhys || g.dstUseDmaBufFd,
        [⟨g.dstOffset.toNat, g.dstPitch.toNat * g.height.toNat⟩]⟩]
  | .syncCache m => [⟨0, m.pid, false, [⟨m.offset.toNat, m.length.toNat⟩]⟩]

/-- What every check guarantees of a buffer: it names a partition, and
where that is the pool, its slot holds a block and the hardware stays in
it. -/
structure Call.Admits (c : Call) (b : Buf) : Prop where
  named : b.direct = false
  arena : c.arenaPid ≠ 0 → b.pid = c.arenaPid →
    ∃ a, c.arena b.slot = some a ∧ ∀ s ∈ b.spans, ∀ x ∈ s.bytes,
      a.start.toNat ≤ x ∧ x < (a.start + a.len).toNat

-- ==== what a check allows

section Check

variable {c : Call} {h : Header}

variable {slot : Fin 2} {pid : UInt32}

/-- In the pool partition, the range is the block of the slot. -/
theorem bufRange_arena {r : UInt64 × UInt64}
    (hr : c.bufRange h slot pid = .ok r) (h0 : c.arenaPid ≠ 0)
    (hpid : pid = c.arenaPid) :
    ∃ a, c.arena slot = some a ∧ r = (a.start, a.start + a.len) := by
  rw [Call.bufRange, if_pos ⟨h0, hpid⟩] at hr
  simp only [guards, pure_ok] at hr
  obtain ⟨a, ha, -, rfl⟩ := hr
  exact ⟨a, ha, rfl⟩

variable {off : UInt64}

theorem SpanOk.mem {len lo hi : UInt64} {n x : Nat} (hs : SpanOk off len lo hi)
    (hn : len.toNat = n) (hx : x ∈ (⟨off.toNat, n⟩ : Span).bytes) :
    lo.toNat ≤ x ∧ x < hi.toNat := by
  obtain ⟨h₁, h₂⟩ := hs.within
  obtain ⟨h₃, h₄⟩ := hx
  dsimp only at h₃ h₄
  omega

/-- The chroma rows of a buffer of this height. -/
def YuvFormat.uvRows (height : Nat) : YuvFormat → Nat
  | yuv422 => height
  | yuv420 => height / 2
  | _ => 0

def ScaleBufInfo.yPlane (b : ScaleBufInfo) : Span :=
  ⟨b.yOffset.toNat, b.pitch.toNat * b.height.toNat⟩

def ScaleBufInfo.uvPlane (b : ScaleBufInfo) (fmt : YuvFormat) : Span :=
  ⟨b.uvOffset.toNat, b.pitch.toNat * fmt.uvRows b.height.toNat⟩

/-- Each plane that is not empty is in the range of its partition, which
ends below `2 ^ 64`. -/
def Call.Ranged (c : Call) (h : Header) (slot : Fin 2) (b : ScaleBufInfo) (fmt : YuvFormat) :
    Prop :=
  ∃ r, c.bufRange h slot b.pid = .ok r ∧ ∀ p ∈ [b.yPlane, b.uvPlane fmt], p.len ≠ 0 →
    r.1.toNat ≤ p.lo ∧ p.lo + p.len ≤ r.2.toNat

theorem toNat_uvPlaneBytes {pitch height : UInt32} {fmt : YuvFormat} {n : UInt64}
    (hn : uvPlaneBytes fmt pitch.toUInt64 height.toUInt64 = some n) :
    n.toNat = pitch.toNat * fmt.uvRows height.toNat := by
  have hhalf : (height.toUInt64 / 2).toNat = height.toNat / 2 := by
    rfl
  have hp : pitch.toUInt64.toNat < 2 ^ 32 := by
    exact pitch.toNat_lt
  have hh := height.toNat_lt
  cases fmt with
  | yuv422 =>
    obtain rfl := Option.some.inj hn
    exact toNat_mul_widened _ _
  | yuv420 =>
    obtain rfl := Option.some.inj hn
    rw [toNat_mul_exact hp (by rw [hhalf]; omega), hhalf, UInt32.toNat_toUInt64]
    rfl
  | yuv400 =>
    obtain rfl := Option.some.inj hn
    rfl
  | unknown => cases hn

variable {b : ScaleBufInfo} {fmt : YuvFormat}

theorem scaleBufOk_ranged (hok : c.scaleBufOk h slot b fmt = .ok ()) : c.Ranged h slot b fmt := by
  simp only [Call.scaleBufOk, guards] at hok
  obtain ⟨-, -, r, hr, -, n, hn, hy, huv⟩ := hok
  refine ⟨r, hr, ?_⟩
  have hy := (not_not.mp hy).within
  rw [toNat_mul_widened] at hy
  have hlen : n.toNat = (b.uvPlane fmt).len := toNat_uvPlaneBytes hn
  rw [List.forall_mem_cons, List.forall_mem_singleton]
  refine ⟨fun _ => hy, fun hne => ?_⟩
  have hn0 : n ≠ 0 := by
    rintro rfl
    exact hne hlen.symm
  rw [← hlen]
  exact (not_not.mp fun hs => huv ⟨hn0, hs⟩).within

theorem scaleBufOk_admits (hok : c.scaleBufOk h slot b fmt = .ok ()) :
    c.Admits (b.buf slot fmt) := by
  obtain ⟨r, hr, hin⟩ := scaleBufOk_ranged hok
  simp only [Call.scaleBufOk, guards] at hok
  refine ⟨by simpa [ScaleBufInfo.buf] using hok.1, ?_⟩
  intro h0 hpid
  obtain ⟨a, ha, rfl⟩ := bufRange_arena hr h0 hpid
  refine ⟨a, ha, ?_⟩
  intro p hp x hx
  have hplane : p ∈ [b.yPlane, b.uvPlane fmt] := by
    cases fmt with
    | yuv422 | yuv420 => exact hp
    | yuv400 | unknown => exact List.mem_cons.mpr (.inl (List.mem_singleton.mp hp))
  obtain ⟨h₁, h₂⟩ := hx
  obtain ⟨h₃, h₄⟩ := hin p hplane (by omega)
  dsimp only at h₃ h₄
  omega

theorem admits_of_span {r : UInt64 × UInt64} {len : UInt64} {n : Nat}
    (hr : c.bufRange h slot pid = .ok r) (hs : SpanOk off len r.1 r.2)
    (hn : len.toNat = n) :
    c.Admits ⟨slot, pid, false, [⟨off.toNat, n⟩]⟩ := by
  refine ⟨rfl, ?_⟩
  intro h0 hpid
  obtain ⟨a, ha, rfl⟩ := bufRange_arena hr h0 hpid
  refine ⟨a, ha, ?_⟩
  rw [List.forall_mem_singleton]
  intro x hx
  exact hs.mem hn hx

theorem gdmaSideOk_admits {pitch height : UInt32} {width : UInt64} {dst : Bool}
    (hok : c.gdmaSideOk h slot pid off pitch.toUInt64 height.toUInt64 width dst = .ok ()) :
    c.Admits ⟨slot, pid, false, [⟨off.toNat, pitch.toNat * height.toNat⟩]⟩ := by
  simp only [Call.gdmaSideOk, guards] at hok
  obtain ⟨r, hr, -, -, hs⟩ := hok
  exact admits_of_span hr (not_not.mp hs) (toNat_mul_widened _ _)

/-- Whatever the call, a check that passes admits every buffer of it. -/
theorem check_admits {a : Arg} (hok : c.check h a = .ok ()) : ∀ b ∈ a.bufs, c.Admits b := by
  cases a with
  | imgScale s =>
    simp only [Call.check, Call.checkImgScale, bind_ok, exists_unit] at hok
    obtain ⟨hin, hout, -⟩ := hok
    simp only [Arg.bufs, List.forall_mem_cons]
    exact ⟨scaleBufOk_admits hin, scaleBufOk_admits hout, by simp⟩
  | gdmaCopy g =>
    simp only [Call.check, Call.checkGdmaCopy, guards] at hok
    obtain ⟨hdirect, -, hsrc, hdst⟩ := hok
    have hs : (g.srcUsePhys || g.srcUseDmaBufFd) = false := by
      simp only [not_or, Bool.not_eq_true] at hdirect
      rw [hdirect.1, hdirect.2.2.1, Bool.or_false]
    have hd : (g.dstUsePhys || g.dstUseDmaBufFd) = false := by
      simp only [not_or, Bool.not_eq_true] at hdirect
      rw [hdirect.2.1, hdirect.2.2.2, Bool.or_false]
    simp only [Arg.bufs, List.forall_mem_cons, hs, hd]
    exact ⟨gdmaSideOk_admits hsrc, gdmaSideOk_admits hdst, by simp⟩
  | syncCache m =>
    simp only [Call.check, Call.checkSyncCache, guards] at hok
    obtain ⟨r, hr, -, -, hs⟩ := hok
    rw [Arg.bufs, List.forall_mem_singleton]
    exact admits_of_span hr (not_not.mp (not_or.mp hs).2) rfl

end Check

end AmbaVirt.Iav
