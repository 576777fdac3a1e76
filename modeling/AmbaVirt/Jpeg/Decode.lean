/-
DECODE_JPEG (`check_decode_jpeg`, tools/iav_policy.c): the DSP reads the
JPEG from the decode window and writes the picture back into it, as large
as the header says and whatever room the caller named.

`ReadDec` is the callback of the call, which fills the buffer the header
is judged in: what it delivers is what the window holds at that moment
(`ReadDec.Reads`). The host's own callback, `realReadDec`
(tools/iav_broker_server.c), keeps this.

`decodedBytes` is computed in the words of the code; `Frame.pictureBytes`
is the same number in ℕ. They agree on every frame the grammar allows.
-/
import AmbaVirt.Iav.Content
import AmbaVirt.Jpeg.Admit

namespace AmbaVirt.Jpeg

open Lib
open Iav (Call RangeOk)

/-- `struct iav_decode_jpeg`. The driver's header is not in the
repository: every field is as wide as the checks that take it, which
holds the values of a narrower one. -/
structure DecodeJpeg where
  decoderId : UInt32
  isDecOnly : Bool
  jpegStartOffset : UInt64
  jpegSize : UInt64
  yuvStartOffset : UInt64
  yuvSize : UInt64
  deriving DecidableEq

def IAV_JPEG_HEADER_MAX : UInt64 := 4096

-- ==== the window

/-- `read_dec`: an offset and a length, and the buffer it filled. -/
abbrev ReadDec := UInt64 → UInt64 → Except Errno Mem

/-- What the callback delivers stands in the window `win`. -/
def ReadDec.Reads (r : ReadDec) (win : Mem) : Prop :=
  ∀ off len buf, r off len = .ok buf → ∀ i < len.toNat, buf i = win (off.toNat + i)

/-- `g_rd_map` and what decides a read of it: whether the partition could
be mapped, and whether its cache could be invalidated. -/
structure DecMap where
  mapped : Bool
  synced : Bool
  len : UInt64
  bytes : Mem

open Errno in
/-- `real_read_dec`. -/
def realReadDec (g : DecMap) : ReadDec := fun off len => do
  refuseIf (g.mapped = false) EIO
  refuseIf (off > g.len ∨ len > g.len - off) .EINVAL
  refuseIf (g.synced = false) EIO
  pure fun i => g.bytes (off.toNat + i)

theorem realReadDec_reads (g : DecMap) : (realReadDec g).Reads g.bytes := by
  intro off len buf h i _
  simp only [realReadDec, guards, pure_ok] at h
  obtain ⟨-, -, -, rfl⟩ := h
  rfl

-- ==== the check

/-- `iav_jpeg_decoded_bytes`. -/
def decodedBytes (w h : UInt32) (sub422 : Bool) : UInt64 :=
  let pix := ((w + 15) / 16 * 16).toUInt64 * ((h + 15) / 16 * 16).toUInt64
  if sub422 then pix * 2 else pix * 3 / 2

/-- `check_decoder_id`, for `IAV_MAX_DECODER_NUMBER` decoders. -/
def checkDecoderId (decoders id : UInt32) : Except Errno Unit :=
  if id < decoders then .ok () else .error .EINVAL

def DecodeJpeg.judged (j : DecodeJpeg) : UInt64 :=
  if j.jpegSize < IAV_JPEG_HEADER_MAX then j.jpegSize else IAV_JPEG_HEADER_MAX

open Errno in
/-- `check_decode_jpeg`. -/
def checkDecodeJpeg (decoders : UInt32) (c : Call) (readDec : Option ReadDec)
    (j : DecodeJpeg) : Except Errno Unit := do
  refuseIf (c.decLen = 0) .EPERM
  checkDecoderId decoders j.decoderId
  refuseIf (j.jpegSize = 0 ∨ ¬ RangeOk j.jpegStartOffset j.jpegSize c.decLen) .EINVAL
  refuseIf (j.isDecOnly = true ∧
    (j.yuvSize = 0 ∨ ¬ RangeOk j.yuvStartOffset j.yuvSize c.decLen)) .EINVAL
  let read ← require readDec .EPERM
  -- whatever the callback's error, the caller sees EIO
  let head ← require (read j.jpegStartOffset j.judged).toOption EIO
  let info ← (admitInfo j.judged.toNat).value head
  refuseIf (j.isDecOnly = true ∧
    j.yuvSize < decodedBytes info.width info.height info.sub422) .EINVAL

-- ==== the picture

def macroblocks (n : Nat) : Nat := (n + 15) / 16 * 16

/-- What the decoder writes for a frame: 2 bytes a pixel for 4:2:2, 1.5
for 4:2:0. -/
def Frame.pictureBytes (f : Frame) : Nat :=
  let pix := macroblocks f.width * macroblocks f.height
  if f.sub422 then pix * 2 else pix * 3 / 2

theorem macroblocks_le {n : Nat} (h : n ≤ 16384) : macroblocks n ≤ 16384 := by
  unfold macroblocks
  omega

theorem toNat_roundUp {w : UInt32} (h : w.toNat ≤ 16384) :
    ((w + 15) / 16 * 16).toNat = macroblocks w.toNat := by
  have h15 : (15 : UInt32).toNat = 15 := rfl
  have h16 : (16 : UInt32).toNat = 16 := rfl
  rw [UInt32.toNat_mul, UInt32.toNat_div, UInt32.toNat_add, h15, h16, macroblocks]
  omega

/-- What the code computes for a frame is what the decoder writes. -/
theorem decodedBytes_toNat {f : Frame} (h : f.Ok) :
    (decodedBytes f.info.width f.info.height f.info.sub422).toNat = f.pictureBytes := by
  obtain ⟨hw, hh⟩ := h.info
  obtain ⟨-, hh2, -, hw2⟩ := h
  have hpix := toNat_mul_widened ((f.info.width + 15) / 16 * 16) ((f.info.height + 15) / 16 * 16)
  rw [toNat_roundUp (by omega), toNat_roundUp (by omega), hw, hh] at hpix
  have hle := Nat.mul_le_mul (macroblocks_le hw2) (macroblocks_le hh2)
  have h2 : (2 : UInt64).toNat = 2 := rfl
  have h3 : (3 : UInt64).toNat = 3 := rfl
  have hsub : f.info.sub422 = f.sub422 := rfl
  simp only [decodedBytes, Frame.pictureBytes, hsub]
  split
  · rw [UInt64.toNat_mul, hpix, h2]
    omega
  · rw [UInt64.toNat_div, UInt64.toNat_mul, hpix, h2, h3]
    omega

-- ==== confinement

theorem judged_toNat (j : DecodeJpeg) : j.judged.toNat = min j.jpegSize.toNat 4096 := by
  have hmax : IAV_JPEG_HEADER_MAX.toNat = 4096 := rfl
  unfold DecodeJpeg.judged
  split
  case isTrue hlt =>
    rw [UInt64.lt_iff_toNat_lt] at hlt
    omega
  case isFalse hge =>
    rw [UInt64.lt_iff_toNat_lt] at hge
    omega

/-- The guards an accepted call has passed. -/
theorem checkDecodeJpeg_ok {decoders : UInt32} {c : Call}
    {readDec : Option ReadDec} {j : DecodeJpeg} :
    checkDecodeJpeg decoders c readDec j = .ok () ↔
      c.decLen ≠ 0 ∧ checkDecoderId decoders j.decoderId = .ok () ∧
      (j.jpegSize ≠ 0 ∧ RangeOk j.jpegStartOffset j.jpegSize c.decLen) ∧
      (j.isDecOnly = true → j.yuvSize ≠ 0 ∧ RangeOk j.yuvStartOffset j.yuvSize c.decLen) ∧
      ∃ read, readDec = some read ∧
      ∃ head, read j.jpegStartOffset j.judged = .ok head ∧
      ∃ info, (admitInfo j.judged.toNat).value head = .ok info ∧ (j.isDecOnly = true →
          decodedBytes info.width info.height info.sub422 ≤ j.yuvSize) := by
  simp only [checkDecodeJpeg, guards, toOption_eq_some, not_or, not_and, not_not, UInt64.not_lt,
    ne_eq]

/-- An accepted DECODE_JPEG stays in the decode window: the JPEG lies in
it, the header that was judged is the start of that JPEG, and for a
decode-only call so does the whole picture of that header. -/
theorem decode_jpeg_confined (decoders : UInt32) (c : Call)
    (readDec : Option ReadDec) (win : Mem) (j : DecodeJpeg)
    (hread : ∀ r, readDec = some r → r.Reads win)
    (hok : checkDecodeJpeg decoders c readDec j = .ok ()) :
    (⟨j.jpegStartOffset.toNat, j.jpegSize.toNat⟩ : Span).Within ⟨0, c.decLen.toNat⟩ ∧
    ∃ hd : Header, hd.Ok ∧ hd.bytes <+: octets (fun i => win (j.jpegStartOffset.toNat + i))
        (min j.jpegSize.toNat 4096) ∧
      ∃ f, frames hd.segs = [f] ∧ (j.isDecOnly = true →
          (⟨j.yuvStartOffset.toNat, f.pictureBytes⟩ : Span).Within ⟨0, c.decLen.toNat⟩) := by
  rw [checkDecodeJpeg_ok] at hok
  obtain ⟨-, -, ⟨-, hjpeg⟩, hyuv, r, hr, head, hhead, info, hinfo, hroom⟩ := hok
  have hjpeg := hjpeg.within
  -- the buffer that was judged is the start of the JPEG in the window
  have hbuf := hread r hr _ _ _ hhead
  obtain ⟨hd, hd_ok, hbytes, f, hf, rfl⟩ := admitInfo_iff.mp hinfo
  have hsame : octets head j.judged.toNat
      = octets (fun i => win (j.jpegStartOffset.toNat + i)) j.judged.toNat :=
    List.map_congr_left fun i hi => hbuf i (List.mem_range.mp hi)
  rw [hsame, judged_toNat] at hbytes
  refine ⟨⟨Nat.zero_le _, by simpa using hjpeg⟩, hd, hd_ok, hbytes, f, hf, ?_⟩
  intro honly
  -- the picture fits the room, and the room fits the window
  have hpic := UInt64.le_iff_toNat_le.mp (hroom honly)
  rw [decodedBytes_toNat (frame_ok hd_ok.segs (by simp [hf]))] at hpic
  have hwithin := (hyuv honly).2.within
  refine ⟨Nat.zero_le _, ?_⟩
  show j.yuvStartOffset.toNat + f.pictureBytes ≤ 0 + c.decLen.toNat
  omega

-- ---- a picture

def sampleHeader : Header where
  segs := [.dqt [0], .sof0 ⟨20, 24, false, fun _ => 1, fun _ => 0⟩, .dht HuffTable.all]
  sos := [0]

def sampleDecMap : DecMap where
  mapped := true
  synced := true
  len := 8192
  bytes := fun i => sampleHeader.bytes.getD (i - 16) 0

def sampleDecode : DecodeJpeg where
  decoderId := 0
  isDecOnly := true
  jpegStartOffset := 16
  jpegSize := 1000
  yuvStartOffset := 4096
  yuvSize := 4096

theorem sampleHeader_ok : sampleHeader.Ok where
  segs := by
    intro s hs
    fin_cases hs <;> refine ⟨by decide +kernel, ?_⟩ <;> simp [Frame.Ok]
  sos := by decide
  dqt := ⟨.dqt [0], by simp [sampleHeader], rfl⟩
  frame := rfl
  table := by
    intro t
    cases t <;> decide
  app0 := by decide

theorem sampleDecode_admitted :
    checkDecodeJpeg 4 { decLen := 8192 } (some (realReadDec sampleDecMap))
      sampleDecode = .ok () := by
  have hbytes : sampleHeader.bytes <+: octets (fun i => sampleDecMap.bytes (16 + i)) 1000 := by
    decide +kernel
  have hadmit := admitInfo_iff.mpr ⟨_, sampleHeader_ok, hbytes, _, rfl, rfl⟩
  rw [checkDecodeJpeg_ok]
  refine ⟨by decide, rfl, by decide, fun _ => by decide, _, rfl, _, rfl, _, hadmit, ?_⟩
  intro _
  decide +kernel

theorem decode_jpeg_confined_sample :
    checkDecodeJpeg 4 { decLen := 8192 } (some (realReadDec sampleDecMap)) sampleDecode = .ok () ∧
    ∃ hd : Header, hd.Ok ∧ ∃ f, frames hd.segs = [f] ∧
      (⟨4096, f.pictureBytes⟩ : Span).Within ⟨0, 8192⟩ := by
  have h := decode_jpeg_confined 4 { decLen := 8192 }
    (some (realReadDec sampleDecMap)) sampleDecMap.bytes sampleDecode
    (by
      intro r hr
      obtain rfl := Option.some.inj hr
      exact realReadDec_reads sampleDecMap)
    sampleDecode_admitted
  obtain ⟨-, hd, hok, -, f, hf, hpic⟩ := h
  exact ⟨sampleDecode_admitted, hd, hok, f, hf, hpic rfl⟩

end AmbaVirt.Jpeg
