/-
The JPEG headers the decoder takes, as a grammar: SOI, then segments, then
the header of the scan. It says which byte strings are meant, and nothing
of how they are recognised; AmbaVirt.Jpeg.Admit is the recogniser.

# Shape

A `Segment` is one of the four kinds that are admitted, with what may
vary in it; `Segment.bytes` writes it out. A `Header` is a list of
segments and the body of the SOS segment; `Header.Ok` is what is asked of
the list as a whole, in any order of its segments. The four Huffman
tables are those of ITU-T T.81 Annex K, as the source has them.
-/
import AmbaVirt.Lib.Octets

namespace AmbaVirt.Jpeg

open Lib

/-- `iav_jpeg_std_dht`: the tables of Annex K. -/
inductive HuffTable
  | dcLuma | dcChroma | acLuma | acChroma
  deriving DecidableEq

namespace HuffTable

/-- In the order of `iav_jpeg_std_dht`. -/
def all : List HuffTable := [dcLuma, dcChroma, acLuma, acChroma]

/-- A table as a DHT segment carries it: the class and id, the 16
code-length counts, the values. -/
def bytes : HuffTable → List UInt8
  | dcLuma => [ 0x00, 0x00, 0x01, 0x05, 0x01, 0x01, 0x01, 0x01, 0x01, 0x01, 0x00, 0x00,
      0x00, 0x00, 0x00, 0x00, 0x00, 0x00, 0x01, 0x02, 0x03, 0x04, 0x05, 0x06,
      0x07, 0x08, 0x09, 0x0a, 0x0b]
  | dcChroma => [ 0x01, 0x00, 0x03, 0x01, 0x01, 0x01, 0x01, 0x01, 0x01, 0x01, 0x01, 0x01,
      0x00, 0x00, 0x00, 0x00, 0x00, 0x00, 0x01, 0x02, 0x03, 0x04, 0x05, 0x06,
      0x07, 0x08, 0x09, 0x0a, 0x0b]
  | acLuma => [ 0x10, 0x00, 0x02, 0x01, 0x03, 0x03, 0x02, 0x04, 0x03, 0x05, 0x05, 0x04,
      0x04, 0x00, 0x00, 0x01, 0x7d, 0x01, 0x02, 0x03, 0x00, 0x04, 0x11, 0x05,
      0x12, 0x21, 0x31, 0x41, 0x06, 0x13, 0x51, 0x61, 0x07, 0x22, 0x71, 0x14,
      0x32, 0x81, 0x91, 0xa1, 0x08, 0x23, 0x42, 0xb1, 0xc1, 0x15, 0x52, 0xd1,
      0xf0, 0x24, 0x33, 0x62, 0x72, 0x82, 0x09, 0x0a, 0x16, 0x17, 0x18, 0x19,
      0x1a, 0x25, 0x26, 0x27, 0x28, 0x29, 0x2a, 0x34, 0x35, 0x36, 0x37, 0x38,
      0x39, 0x3a, 0x43, 0x44, 0x45, 0x46, 0x47, 0x48, 0x49, 0x4a, 0x53, 0x54,
      0x55, 0x56, 0x57, 0x58, 0x59, 0x5a, 0x63, 0x64, 0x65, 0x66, 0x67, 0x68,
      0x69, 0x6a, 0x73, 0x74, 0x75, 0x76, 0x77, 0x78, 0x79, 0x7a, 0x83, 0x84,
      0x85, 0x86, 0x87, 0x88, 0x89, 0x8a, 0x92, 0x93, 0x94, 0x95, 0x96, 0x97,
      0x98, 0x99, 0x9a, 0xa2, 0xa3, 0xa4, 0xa5, 0xa6, 0xa7, 0xa8, 0xa9, 0xaa,
      0xb2, 0xb3, 0xb4, 0xb5, 0xb6, 0xb7, 0xb8, 0xb9, 0xba, 0xc2, 0xc3, 0xc4,
      0xc5, 0xc6, 0xc7, 0xc8, 0xc9, 0xca, 0xd2, 0xd3, 0xd4, 0xd5, 0xd6, 0xd7,
      0xd8, 0xd9, 0xda, 0xe1, 0xe2, 0xe3, 0xe4, 0xe5, 0xe6, 0xe7, 0xe8, 0xe9,
      0xea, 0xf1, 0xf2, 0xf3, 0xf4, 0xf5, 0xf6, 0xf7, 0xf8, 0xf9, 0xfa]
  | acChroma => [ 0x11, 0x00, 0x02, 0x01, 0x02, 0x04, 0x04, 0x03, 0x04, 0x07, 0x05, 0x04,
      0x04, 0x00, 0x01, 0x02, 0x77, 0x00, 0x01, 0x02, 0x03, 0x11, 0x04, 0x05,
      0x21, 0x31, 0x06, 0x12, 0x41, 0x51, 0x07, 0x61, 0x71, 0x13, 0x22, 0x32,
      0x81, 0x08, 0x14, 0x42, 0x91, 0xa1, 0xb1, 0xc1, 0x09, 0x23, 0x33, 0x52,
      0xf0, 0x15, 0x62, 0x72, 0xd1, 0x0a, 0x16, 0x24, 0x34, 0xe1, 0x25, 0xf1,
      0x17, 0x18, 0x19, 0x1a, 0x26, 0x27, 0x28, 0x29, 0x2a, 0x35, 0x36, 0x37,
      0x38, 0x39, 0x3a, 0x43, 0x44, 0x45, 0x46, 0x47, 0x48, 0x49, 0x4a, 0x53,
      0x54, 0x55, 0x56, 0x57, 0x58, 0x59, 0x5a, 0x63, 0x64, 0x65, 0x66, 0x67,
      0x68, 0x69, 0x6a, 0x73, 0x74, 0x75, 0x76, 0x77, 0x78, 0x79, 0x7a, 0x82,
      0x83, 0x84, 0x85, 0x86, 0x87, 0x88, 0x89, 0x8a, 0x92, 0x93, 0x94, 0x95,
      0x96, 0x97, 0x98, 0x99, 0x9a, 0xa2, 0xa3, 0xa4, 0xa5, 0xa6, 0xa7, 0xa8,
      0xa9, 0xaa, 0xb2, 0xb3, 0xb4, 0xb5, 0xb6, 0xb7, 0xb8, 0xb9, 0xba, 0xc2,
      0xc3, 0xc4, 0xc5, 0xc6, 0xc7, 0xc8, 0xc9, 0xca, 0xd2, 0xd3, 0xd4, 0xd5,
      0xd6, 0xd7, 0xd8, 0xd9, 0xda, 0xe2, 0xe3, 0xe4, 0xe5, 0xe6, 0xe7, 0xe8,
      0xe9, 0xea, 0xf2, 0xf3, 0xf4, 0xf5, 0xf6, 0xf7, 0xf8, 0xf9, 0xfa]

end HuffTable

-- ==== segments

/-- What a SOF0 segment says: the size of the picture, whether its chroma
is sampled 2x1 (4:2:2) or 2x2 (4:2:0), and for each component its id and
its quantisation table. -/
structure Frame where
  height : Nat
  width : Nat
  sub422 : Bool
  id : Fin 3 → UInt8
  tq : Fin 3 → UInt8

def Frame.Ok (f : Frame) : Prop :=
  1 ≤ f.height ∧ f.height ≤ 16384 ∧ 1 ≤ f.width ∧ f.width ≤ 16384

def Frame.body (f : Frame) : List UInt8 :=
  [8, hiByte f.height, loByte f.height, hiByte f.width, loByte f.width, 3,
    f.id 0, if f.sub422 then 0x21 else 0x22, f.tq 0,
    f.id 1, 0x11, f.tq 1, f.id 2, 0x11, f.tq 2]

/-- A segment that is admitted before the scan. -/
inductive Segment
  | dqt (body : List UInt8)
  | sof0 (f : Frame)
  | dht (tables : List HuffTable)
  | app0 (tail : List UInt8)

/-- `"JFIF"` and the zero after it. -/
def jfif : List UInt8 := [0x4A, 0x46, 0x49, 0x46, 0x00]

namespace Segment

def marker : Segment → UInt8
  | dqt _ => 0xDB
  | sof0 _ => 0xC0
  | dht _ => 0xC4
  | app0 _ => 0xE0

def body : Segment → List UInt8
  | dqt b => b
  | sof0 f => f.body
  | dht ts => ts.flatMap HuffTable.bytes
  | app0 tail => jfif ++ tail

end Segment

def segBytes (marker : UInt8) (body : List UInt8) : List UInt8 :=
  0xFF :: marker :: hiByte (body.length + 2) :: loByte (body.length + 2) :: body

def Segment.bytes (s : Segment) : List UInt8 := segBytes s.marker s.body

/-- The length fits its two bytes, the picture its bounds, and a JFIF
segment is at least 16 long. -/
def Segment.Ok (s : Segment) : Prop :=
  s.body.length + 2 < 65536 ∧
    match s with
    | sof0 f => f.Ok
    | app0 _ => 16 ≤ s.body.length + 2
    | _ => True

def frames (l : List Segment) : List Frame :=
  l.filterMap fun
    | .sof0 f => some f
    | _ => none

def tables (l : List Segment) : List HuffTable :=
  l.flatMap fun
    | .dht ts => ts
    | _ => []

def Segment.isDqt : Segment → Bool
  | dqt _ => true
  | _ => false

def Segment.isApp0 : Segment → Bool
  | app0 _ => true
  | _ => false

-- ==== headers

/-- The segments before the scan, and the body of the SOS segment. -/
structure Header where
  segs : List Segment
  sos : List UInt8

def SOS : UInt8 := 0xDA

def Header.bytes (h : Header) : List UInt8 :=
  [0xFF, 0xD8] ++ (h.segs.flatMap Segment.bytes ++ segBytes SOS h.sos)

/-- At least one DQT, one SOF0, each table once, at most one APP0. -/
structure Header.Ok (h : Header) : Prop where
  segs : ∀ s ∈ h.segs, s.Ok
  sos : h.sos.length + 2 < 65536
  dqt : ∃ s ∈ h.segs, s.isDqt = true
  frame : (frames h.segs).length = 1
  table : ∀ t, (tables h.segs).count t = 1
  app0 : h.segs.countP Segment.isApp0 ≤ 1

-- ==== segments in memory

section

variable {m : Mem} {i : Nat} {marker : UInt8} {body : List UInt8}

@[simp] theorem length_segBytes :
    (segBytes marker body).length = body.length + 4 := by simp [segBytes]

/-- A segment stands at `i`. -/
theorem hasBytes_segBytes (h : body.length + 2 < 65536) :
    HasBytes m i (segBytes marker body) ↔ m i = 0xFF ∧ m (i + 1) = marker ∧
      (be16 m (i + 2)).toNat = body.length + 2 ∧ HasBytes m (i + 4) body := by
  rw [be16_eq_iff h]
  simp only [segBytes, hasBytes_cons, Nat.add_assoc, and_assoc]

end

namespace HuffTable

theorem mem_all (t : HuffTable) : t ∈ all := by
  cases t <;> simp [all]

theorem counts_sum (t : HuffTable) :
    ((List.range 16).map fun c => (t.bytes.getD (c + 1) 0).toNat).sum + 17 = t.bytes.length := by
  cases t <;> decide +kernel

theorem length_ge (t : HuffTable) : 17 ≤ t.bytes.length := by
  have := t.counts_sum
  omega

theorem length_le (t : HuffTable) : t.bytes.length ≤ 179 := by
  cases t <;> decide +kernel

theorem eq_of_head {s t : HuffTable} (h : s.bytes.getD 0 0 = t.bytes.getD 0 0) : s = t := by
  cases s <;> cases t <;> first | rfl | exact absurd h (by decide)

end HuffTable

end AmbaVirt.Jpeg
