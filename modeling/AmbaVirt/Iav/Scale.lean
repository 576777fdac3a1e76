/-
The windows of SET_IMG_SCALE: what `check_img_scale` leaves to the DSP.

The input crop is aligned to even columns and rows before it is compared
with the buffer, so the two chroma bytes of every pixel of it are in the
UV plane. The output window is taken as given and only its size is
rounded. With an odd `x` the last pixel of a row shares a chroma pair with
the pixel after it, and with an odd `y` in a buffer of odd height the last
row has no chroma row (`Spills`).
-/
import AmbaVirt.Iav.Policy

namespace AmbaVirt.Iav

open Lib

-- ==== one axis of the crop

def wholeAxis (x width : UInt32) (a : UInt64) : UInt64 × UInt64 :=
  ((x - x % 2).toUInt64, roundUp64 (width.toUInt64 + (x % 2).toUInt64) a)

def fixedAxis (x width a : UInt32) (b : UInt64) : UInt64 × UInt64 :=
  let xi := ((x >>> 8) - (x >>> 8) % a).toUInt64
  let xf := x.toUInt64 - (xi <<< 8)
  let wf := (width &&& 0xff).toUInt64 + (xf &&& 0xff)
  (xi, roundUp64 ((width >>> 8).toUInt64 + (xf >>> 8) + (wf >>> 8)
    + (if wf &&& 0xff ≠ 0 then 1 else 0)) b)

def WinFormat.unit : WinFormat → Nat
  | .u24_8 => 256
  | _ => 1

/-- The aligned axis holds the requested one, and is even. -/
structure Aligned (unit : Nat) (x width : UInt32) (p : UInt64 × UInt64) : Prop where
  lo : p.1.toNat * unit ≤ x.toNat
  hi : x.toNat + width.toNat ≤ (p.1.toNat + p.2.toNat) * unit
  even : p.1.toNat % 2 = 0 ∧ p.2.toNat % 2 = 0
  small : p.1.toNat + p.2.toNat < 2 ^ 34

theorem roundUp64_spec {v a : UInt64} (ha : a = 4 ∨ a = 2) (hv : v.toNat < 2 ^ 33) :
    v.toNat ≤ (roundUp64 v a).toNat ∧ (roundUp64 v a).toNat < v.toNat + 4 ∧
      (roundUp64 v a).toNat % 2 = 0 := by
  rcases ha with rfl | rfl
  all_goals
    simp [roundUp64, UInt64.toNat_sub, UInt64.toNat_add]
    omega

theorem toNat_and_ff (x : UInt64) : (x &&& 0xff).toNat = x.toNat % 256 := by
  exact Nat.and_two_pow_sub_one_eq_mod _ 8

theorem wholeAxis_aligned {x width : UInt32} {a : UInt64} (ha : a = 4 ∨ a = 2) :
    Aligned 1 x width (wholeAxis x width a) := by
  have hx := x.toNat_lt
  have hw := width.toNat_lt
  have hlo : (x - x % 2).toUInt64.toNat = x.toNat - x.toNat % 2 := by
    rw [UInt32.toNat_toUInt64, UInt32.toNat_sub_of_le]
    · rfl
    · exact UInt32.le_iff_toNat_le.mpr (Nat.mod_le _ _)
  have hsum : (width.toUInt64 + (x % 2).toUInt64).toNat = width.toNat + x.toNat % 2 :=
    toNat_add_widened _ _
  obtain ⟨hge, hlt, heven⟩ :=
    roundUp64_spec ha (v := width.toUInt64 + (x % 2).toUInt64) (by omega)
  refine ⟨?_, ?_, ⟨?_, heven⟩, ?_⟩ <;> dsimp only [wholeAxis] <;> omega

theorem fixedAxis_aligned {x width a : UInt32} {b : UInt64} (ha : a = 4 ∨ a = 2)
    (hb : b = 4 ∨ b = 2) : Aligned 256 x width (fixedAxis x width a b) := by
  have hx := x.toNat_lt
  have hw := width.toNat_lt
  have hxi : ((x >>> 8) - (x >>> 8) % a).toUInt64.toNat
      = x.toNat / 256 - x.toNat / 256 % a.toNat := by
    rw [UInt32.toNat_toUInt64, UInt32.toNat_sub_of_le]
    · simp [Nat.shiftRight_eq_div_pow]
    · exact UInt32.le_iff_toNat_le.mpr (Nat.mod_le _ _)
  have ha' : a.toNat = 4 ∨ a.toNat = 2 := ha.imp (congrArg _) (congrArg _)
  unfold fixedAxis
  dsimp only
  generalize ((x >>> 8) - (x >>> 8) % a).toUInt64 = xi at hxi
  have hlo : xi.toNat * 256 ≤ x.toNat ∧ x.toNat < xi.toNat * 256 + 1024 ∧ xi.toNat % 2 = 0 := by
    rcases ha' with ha | ha <;> rw [ha] at hxi <;> omega
  have hshift : (xi <<< 8).toNat = xi.toNat * 256 := by
    simp [Nat.shiftLeft_eq]
    omega
  have hxf : (x.toUInt64 - xi <<< 8).toNat = x.toNat - xi.toNat * 256 := by
    rw [UInt64.toNat_sub_of_le, hshift, UInt32.toNat_toUInt64]
    rw [UInt64.le_iff_toNat_le, hshift, UInt32.toNat_toUInt64]
    exact hlo.1
  generalize x.toUInt64 - xi <<< 8 = xf at hxf
  have hwf : ((width &&& 0xff).toUInt64 + (xf &&& 0xff)).toNat
      = width.toNat % 256 + xf.toNat % 256 := by
    have hand : (width &&& 0xff).toNat = width.toNat % 256 :=
      Nat.and_two_pow_sub_one_eq_mod _ 8
    rw [UInt64.toNat_add, toNat_and_ff, UInt32.toNat_toUInt64, hand]
    omega
  generalize (width &&& 0xff).toUInt64 + (xf &&& 0xff) = wf at hwf
  -- the carry is there if a fraction is left
  have hcarry : (if wf &&& 0xff ≠ 0 then (1 : UInt64) else 0).toNat ≤ 1 ∧
      ((if wf &&& 0xff ≠ 0 then (1 : UInt64) else 0).toNat = 0 → wf.toNat % 256 = 0) := by
    rw [← toNat_and_ff wf]
    split
    · simp
    · rename_i h
      rw [not_not.mp h]
      simp
  generalize (if wf &&& 0xff ≠ 0 then (1 : UInt64) else 0) = c at hcarry
  have hwi : ((width >>> 8).toUInt64 + (xf >>> 8) + (wf >>> 8) + c).toNat
      = width.toNat / 256 + xf.toNat / 256 + wf.toNat / 256 + c.toNat := by
    simp [UInt64.toNat_add, Nat.shiftRight_eq_div_pow]
    omega
  obtain ⟨hge, hlt, heven⟩ := roundUp64_spec hb
    (v := (width >>> 8).toUInt64 + (xf >>> 8) + (wf >>> 8) + c) (by rw [hwi]; omega)
  refine ⟨hlo.1, ?_, ⟨hlo.2.2, heven⟩, ?_⟩ <;> dsimp only <;> omega

/-- The crop is aligned axis by axis. -/
theorem cropWindow_aligned {s : ImgScale} {x y w h : UInt64}
    (hs : s.cropWindow = some (x, y, w, h)) :
    Aligned s.inputWinFormat.unit s.input.x s.input.width (x, w) ∧
      Aligned s.inputWinFormat.unit s.input.y s.input.height (y, h) := by
  unfold ImgScale.cropWindow at hs
  cases hf : s.inputWinFormat with
  | u32 =>
    rw [hf] at hs
    cases hs
    exact ⟨wholeAxis_aligned (.inl rfl), wholeAxis_aligned (.inr rfl)⟩
  | u24_8 =>
    rw [hf] at hs
    cases hs
    exact ⟨fixedAxis_aligned (a := 4) (.inl rfl) (.inl rfl),
      fixedAxis_aligned (a := 2) (.inr rfl) (.inr rfl)⟩
  | unknown =>
    rw [hf] at hs
    cases hs

-- ==== the planes

/-- The chroma row of a luma row, where the format has chroma. -/
def YuvFormat.uvRow (y : Nat) : YuvFormat → Option Nat
  | yuv422 => some y
  | yuv420 => some (y / 2)
  | _ => none

/-- The luma byte of a pixel and the two chroma bytes it shares are in the
planes that were checked. -/
def ScaleBufInfo.Holds (b : ScaleBufInfo) (fmt : YuvFormat) (x y : Nat) : Prop :=
  b.yOffset.toNat + y * b.pitch.toNat + x ∈ b.yPlane.bytes ∧
    ∀ row ∈ fmt.uvRow y, ∀ i < 2,
      b.uvOffset.toNat + row * b.pitch.toNat + (2 * (x / 2) + i) ∈ (b.uvPlane fmt).bytes

section

variable {b : ScaleBufInfo} {fmt : YuvFormat} {x y X Y : Nat}

/-- A byte of a row, or the one after the row. -/
theorem row_lt_iff (row rows : Nat) {p col : Nat} (hp : 0 < p) (hc : col ≤ p) :
    row * p + col < p * rows ↔ row < rows ∧ (col = p → row + 1 < rows) := by
  rw [Nat.mul_comm p]
  constructor
  · intro h
    refine ⟨Nat.lt_of_mul_lt_mul_right (a := p) (by omega), ?_⟩
    intro hcp
    exact Nat.lt_of_mul_lt_mul_right (a := p) (by rw [Nat.add_mul]; omega)
  · intro h
    have hnext := Nat.mul_le_mul_right p h.1
    rw [Nat.succ_mul] at hnext
    by_cases hcp : col = p
    · have hlast := Nat.mul_le_mul_right p (h.2 hcp)
      rw [Nat.succ_mul, Nat.succ_mul] at hlast
      omega
    · omega

theorem holds_iff (hx : x < b.pitch.toNat) (hy : y < b.height.toNat) :
    b.Holds fmt x y ↔ ∀ row ∈ fmt.uvRow y, row < fmt.uvRows b.height.toNat ∧
      (2 * (x / 2) + 1 = b.pitch.toNat → row + 1 < fmt.uvRows b.height.toNat) := by
  have hluma := (row_lt_iff y b.height.toNat (by omega) hx.le).mpr ⟨hy, by omega⟩
  have hpair (row : Nat) : row * b.pitch.toNat + (2 * (x / 2) + 1) < _ ↔ _ :=
    row_lt_iff row (fmt.uvRows b.height.toNat) (by omega) (by omega)
  simp only [ScaleBufInfo.Holds, ScaleBufInfo.yPlane, ScaleBufInfo.uvPlane, Span.bytes,
    Set.mem_ofPred_eq, ← hpair]
  constructor
  · intro h row hrow
    have := h.2 row hrow 1 (by omega)
    omega
  intro h
  refine ⟨by omega, fun row hrow i hi => ?_⟩
  have := h row hrow
  omega

theorem uvRow_lt {row : Nat} (hrow : row ∈ fmt.uvRow y) (hY : Y % 2 = 0) (hy : y < Y)
    (hh : Y ≤ b.height.toNat) : row < fmt.uvRows b.height.toNat := by
  cases fmt <;> simp [YuvFormat.uvRow, YuvFormat.uvRows] at hrow ⊢ <;> omega

/-- A window that ends at an even column and an even row. -/
theorem holds_of_even (hX : X % 2 = 0) (hY : Y % 2 = 0) (hp : X ≤ b.pitch.toNat)
    (hh : Y ≤ b.height.toNat) (hx : x < X) (hy : y < Y) : b.Holds fmt x y :=
  (holds_iff (by omega) (by omega)).mpr fun _ hrow => ⟨uvRow_lt hrow hY hy hh, by omega⟩

end

-- ==== the check

namespace ImgScale

def outWidth (s : ImgScale) : Nat := (roundUp64 s.output.width.toUInt64 IMG_SCALE_H_ALIGN).toNat

def outHeight (s : ImgScale) : Nat := (roundUp64 s.output.height.toUInt64 IMG_SCALE_V_ALIGN).toNat

def Writes (s : ImgScale) (i j : Nat) : Prop :=
  (s.output.x.toNat ≤ i ∧ i < s.output.x.toNat + s.outWidth) ∧
    s.output.y.toNat ≤ j ∧ j < s.output.y.toNat + s.outHeight

/-- The last row of the output window has no chroma row, or the window
ends with the row in the middle of a pair and there is no row after it. -/
def Spills (s : ImgScale) : Prop :=
  0 < s.outWidth ∧ 0 < s.outHeight ∧
    ∃ row ∈ s.outFormat.uvRow (s.output.y.toNat + s.outHeight - 1),
      s.outFormat.uvRows s.outputBuf.height.toNat ≤ row ∨
      (s.output.x.toNat % 2 = 1 ∧ s.output.x.toNat + s.outWidth = s.outputBuf.pitch.toNat ∧
        s.outFormat.uvRows s.outputBuf.height.toNat ≤ row + 1)

end ImgScale

/-- The last row of a window is the one to look at. -/
theorem uvRow_mono {fmt : YuvFormat} {j y row : Nat} (hrow : row ∈ fmt.uvRow j) (hj : j ≤ y) :
    ∃ last ∈ fmt.uvRow y, row ≤ last := by
  cases fmt <;> simp [YuvFormat.uvRow] at hrow ⊢ <;> omega

theorem writes_holds_iff {s : ImgScale} (hw : s.outWidth % 2 = 0)
    (hp : s.output.x.toNat + s.outWidth ≤ s.outputBuf.pitch.toNat)
    (hh : s.output.y.toNat + s.outHeight ≤ s.outputBuf.height.toNat) :
    (∀ i j, s.Writes i j → s.outputBuf.Holds s.outFormat i j) ↔ ¬ s.Spills := by
  constructor
  · intro h hspill
    obtain ⟨hw0, hh0, row, hrow, hbad⟩ := hspill
    -- the last pixel is one of the window
    have hlast := h (s.output.x.toNat + s.outWidth - 1) (s.output.y.toNat + s.outHeight - 1)
      ⟨by omega, by omega⟩
    obtain ⟨hin, hnext⟩ := (holds_iff (by omega) (by omega)).mp hlast row hrow
    omega
  · intro hspill i j hij
    obtain ⟨⟨hi, hi'⟩, hj, hj'⟩ := hij
    refine (holds_iff (by omega) (by omega)).mpr fun row hrow => ?_
    obtain ⟨last, hlast, hle⟩ := uvRow_mono hrow (Nat.le_sub_one_of_lt hj')
    by_contra hbad
    refine hspill ⟨by omega, by omega, last, hlast, ?_⟩
    omega

/-- What a SET_IMG_SCALE that passes the check has: the aligned crop holds
the requested one, and every pixel of it is in the input planes; the
planes are in their ranges; and every pixel of the output window is in the
output planes unless the window spills. -/
theorem scale_windows_iff (c : Call) (hd : Header) (s : ImgScale)
    (hok : c.checkImgScale hd s = .ok ()) :
    (∃ x y w h, s.cropWindow = some (x, y, w, h) ∧
      Aligned s.inputWinFormat.unit s.input.x s.input.width (x, w) ∧
      Aligned s.inputWinFormat.unit s.input.y s.input.height (y, h) ∧
      ∀ i j, i < x.toNat + w.toNat → j < y.toNat + h.toNat → s.inputBuf.Holds s.format i j) ∧
    (s.output.width.toNat ≤ s.outWidth ∧ s.output.height.toNat ≤ s.outHeight) ∧
    c.Ranged hd 0 s.inputBuf s.format ∧ c.Ranged hd 1 s.outputBuf s.outFormat ∧
    ((∀ i j, s.Writes i j → s.outputBuf.Holds s.outFormat i j) ↔ ¬ s.Spills) := by
  simp only [Call.checkImgScale, guards, not_or, UInt64.not_lt, UInt64.le_iff_toNat_le,
    UInt32.toNat_toUInt64] at hok
  obtain ⟨hin, hout, ⟨x, y, w, h⟩, hcrop, ⟨hcx, hcy⟩, hox, hoy⟩ := hok
  obtain ⟨hax, hay⟩ := cropWindow_aligned hcrop
  have hsmall (v : UInt32) : v.toUInt64.toNat < 2 ^ 33 := by
    exact lt_trans v.toNat_lt (by decide)
  obtain ⟨hw, hw', hweven⟩ :=
    roundUp64_spec (a := IMG_SCALE_H_ALIGN) (.inl rfl) (hsmall s.output.width)
  obtain ⟨hh, hh', -⟩ := roundUp64_spec (a := IMG_SCALE_V_ALIGN) (.inr rfl) (hsmall s.output.height)
  rw [UInt32.toNat_toUInt64] at hw hh hw' hh'
  have := s.output.x.toNat_lt
  have := s.output.y.toNat_lt
  have := s.output.width.toNat_lt
  have := s.output.height.toNat_lt
  obtain ⟨-, -, ⟨hxe, hwe⟩, hxw⟩ := id hax
  obtain ⟨-, -, ⟨hye, hhe⟩, hyh⟩ := id hay
  dsimp only at *
  rw [toNat_add_exact (by omega)] at hcx hcy
  rw [toNat_add_exact (by rw [UInt32.toNat_toUInt64]; omega), UInt32.toNat_toUInt64] at hox hoy
  refine ⟨⟨x, y, w, h, hcrop, hax, hay, fun i j hi hj => ?_⟩, ⟨hw, hh⟩, scaleBufOk_ranged hin,
    scaleBufOk_ranged hout, writes_holds_iff hweven hox hoy⟩
  exact holds_of_even (by omega) (by omega) hcx hcy hi hj

def sampleWindows (out : ScaleBufInfo) (output : Rect) : ImgScale where
  format := .yuv420
  outputFormatEnable := false
  outputFormat := .unknown
  inputWinFormat := .u32
  input := ⟨1, 1, 3, 1⟩
  output := output
  inputBuf := ⟨false, false, 3, 0, 64, 8, 8⟩
  outputBuf := out

def samplePartitions : Header := ⟨1, 2, 3, 4, 0, 0, 0⟩

/-- An output window at column 1 of a buffer of five columns: the last
chroma byte is the one after the UV plane. -/
theorem scale_spills :
    let s := sampleWindows ⟨false, false, 3, 128, 256, 5, 2⟩ ⟨1, 0, 4, 2⟩
    Call.checkImgScale { decLen := 4096 } samplePartitions s = .ok () ∧ s.Writes 4 1 ∧
      256 + 0 * 5 + (2 * (4 / 2) + 1) ∉ (s.outputBuf.uvPlane s.outFormat).bytes := by
  refine ⟨by decide, ⟨by decide, by decide⟩, ?_⟩
  rw [Span.not_mem_bytes]
  decide

/-- At an even column and row nothing spills. -/
theorem scale_windows_iff_even :
    let s := sampleWindows ⟨false, false, 3, 128, 256, 8, 2⟩ ⟨2, 0, 4, 2⟩
    Call.checkImgScale { decLen := 4096 } samplePartitions s = .ok () ∧ s.Writes 5 1 ∧
      ∀ i j, s.Writes i j → s.outputBuf.Holds s.outFormat i j := by
  refine ⟨by decide, ⟨by decide, by decide⟩, ?_⟩
  refine (scale_windows_iff { decLen := 4096 } samplePartitions _ (by decide)).2.2.2.2.mpr ?_
  intro h
  obtain ⟨-, -, row, hrow, hbad⟩ := h
  cases hrow
  revert hbad
  decide

end AmbaVirt.Iav
