/-
SHA-256 (hmac_sha256.c): the compression function, and the context that
takes a message in pieces.

`sha256Update` fills the buffer of one block and compresses it each time
it is full, and `sha256Final` pads in place. Next to them stands the same
compression over a message as one list (`sha256Of`): padded, cut into
blocks, folded. `Holds` relates the two, so how a message was cut into
pieces does not matter (`Holds.final`). That fold is the one of FIPS 180-4
(`sha256Of_standard`), function by function.

The length field of the padding is the number of bits in 64 bits, which
the standard leaves open for a message that is longer.
-/
import AmbaVirt.Lib.Sha2

namespace AmbaVirt.Crypto

open Lib

def SHA256_BLOCK_SIZE : Nat := 64
def SHA256_DIGEST_SIZE : Nat := 32

-- ==== the compression

def rotr (x : UInt32) (n : UInt32) : UInt32 := (x >>> n) ||| (x <<< (32 - n))
def ch (x y z : UInt32) : UInt32 := (x &&& y) ^^^ (~~~x &&& z)
def maj (x y z : UInt32) : UInt32 := (x &&& y) ^^^ (x &&& z) ^^^ (y &&& z)
def bigSigma0 (x : UInt32) : UInt32 := rotr x 2 ^^^ rotr x 13 ^^^ rotr x 22
def bigSigma1 (x : UInt32) : UInt32 := rotr x 6 ^^^ rotr x 11 ^^^ rotr x 25
def smallSigma0 (x : UInt32) : UInt32 := rotr x 7 ^^^ rotr x 18 ^^^ (x >>> 3)
def smallSigma1 (x : UInt32) : UInt32 := rotr x 17 ^^^ rotr x 19 ^^^ (x >>> 10)

def K : List UInt32 :=
  [0x428a2f98, 0x71374491, 0xb5c0fbcf, 0xe9b5dba5, 0x3956c25b, 0x59f111f1, 0x923f82a4, 0xab1c5ed5,
   0xd807aa98, 0x12835b01, 0x243185be, 0x550c7dc3,
   0x72be5d74, 0x80deb1fe, 0x9bdc06a7, 0xc19bf174,
   0xe49b69c1, 0xefbe4786, 0x0fc19dc6, 0x240ca1cc,
   0x2de92c6f, 0x4a7484aa, 0x5cb0a9dc, 0x76f988da,
   0x983e5152, 0xa831c66d, 0xb00327c8, 0xbf597fc7,
   0xc6e00bf3, 0xd5a79147, 0x06ca6351, 0x14292967,
   0x27b70a85, 0x2e1b2138, 0x4d2c6dfc, 0x53380d13,
   0x650a7354, 0x766a0abb, 0x81c2c92e, 0x92722c85,
   0xa2bfe8a1, 0xa81a664b, 0xc24b8b70, 0xc76c51a3,
   0xd192e819, 0xd6990624, 0xf40e3585, 0x106aa070,
   0x19a4c116, 0x1e376c08, 0x2748774c, 0x34b0bcb5,
   0x391c0cb3, 0x4ed8aa4a, 0x5b9cca4f, 0x682e6ff3,
   0x748f82ee, 0x78a5636f, 0x84c87814, 0x8cc70208,
   0x90befffa, 0xa4506ceb, 0xbef9a3f7, 0xc67178f2]

structure Words where
  a : UInt32
  b : UInt32
  c : UInt32
  d : UInt32
  e : UInt32
  f : UInt32
  g : UInt32
  h : UInt32
  deriving DecidableEq

/-- Word `i` of a block, big-endian. -/
def wordAt (data : List UInt8) (i : Nat) : UInt32 :=
  ((data.getD (i * 4) 0).toUInt32 <<< 24) ||| ((data.getD (i * 4 + 1) 0).toUInt32 <<< 16) |||
    ((data.getD (i * 4 + 2) 0).toUInt32 <<< 8) |||
    (data.getD (i * 4 + 3) 0).toUInt32

def extendSchedule (w : List UInt32) : List UInt32 :=
  (smallSigma1 (w.getD 1 0) + w.getD 6 0 + smallSigma0 (w.getD 14 0) + w.getD 15 0) :: w

/-- `W`. -/
def schedule (data : List UInt8) : List UInt32 :=
  ((extendSchedule^[48]) ((List.range 16).map (wordAt data)).reverse).reverse

def round (s : Words) (kw : UInt32 × UInt32) : Words :=
  let t1 := s.h + bigSigma1 s.e + ch s.e s.f s.g + kw.1 + kw.2
  let t2 := bigSigma0 s.a + maj s.a s.b s.c
  ⟨t1 + t2, s.a, s.b, s.c, s.d + t1, s.e, s.f, s.g⟩

/-- `sha256_transform`. -/
def sha256Transform (s : Words) (data : List UInt8) : Words :=
  let r := (K.zip (schedule data)).foldl round s
  ⟨s.a + r.a, s.b + r.b, s.c + r.c, s.d + r.d, s.e + r.e, s.f + r.f, s.g + r.g, s.h + r.h⟩

def sha256Start : Words :=
  ⟨0x6a09e667, 0xbb67ae85, 0x3c6ef372, 0xa54ff53a, 0x510e527f, 0x9b05688c, 0x1f83d9ab, 0x5be0cd19⟩

def be32 (v : UInt32) : List UInt8 :=
  [(v >>> 24).toUInt8, (v >>> 16).toUInt8, (v >>> 8).toUInt8, v.toUInt8]

def be64 (v : UInt64) : List UInt8 :=
  (List.range 8).map fun j => (v >>> (8 * (7 - j)).toUInt64).toUInt8

theorem length_be64 (v : UInt64) : (be64 v).length = 8 := rfl

def Words.digest (s : Words) : List UInt8 :=
  [s.a, s.b, s.c, s.d, s.e, s.f, s.g, s.h].flatMap be32

-- ==== the context

/-- `sha256_ctx_t`. -/
structure Sha256Ctx where
  state : Words
  count : UInt64
  buffer : List UInt8

/-- `sha256_init`. The buffer keeps what was there. -/
def sha256Init (stack : Vector UInt8 64) : Sha256Ctx :=
  ⟨sha256Start, 0, stack.toList⟩

namespace Sha256Ctx

/-- `count & 0x3f`. -/
def bufIdx (ctx : Sha256Ctx) : Fin 64 :=
  ⟨(ctx.count &&& 0x3f).toNat, by
    rw [UInt64.toNat_and]
    exact Nat.lt_succ_of_le Nat.and_le_right⟩

/-- The loop of `sha256_update`. -/
def fill (ctx : Sha256Ctx) (bufIdx : Fin 64) (p : List UInt8) : Sha256Ctx :=
  if p = [] then ctx
  else if p.length < 64 - bufIdx.val then
    { ctx with buffer := overwrite ctx.buffer bufIdx p }
  else
    let buffer := overwrite ctx.buffer bufIdx (p.take (64 - bufIdx.val))
    fill { ctx with buffer, state := sha256Transform ctx.state buffer } 0 (p.drop (64 - bufIdx.val))
termination_by p.length
decreasing_by
  rw [List.length_drop]
  omega

/-- `sha256_update`. -/
def update (ctx : Sha256Ctx) (data : List UInt8) : Sha256Ctx :=
  fill { ctx with count := ctx.count + data.length.toUInt64 } ctx.bufIdx data

/-- `sha256_final`: the padding byte, zeros to the length field, in a block
of their own if the buffer has no room for it, and the length. -/
def final (ctx : Sha256Ctx) : List UInt8 :=
  let bits := ctx.count * 8
  let idx := ctx.bufIdx.val + 1
  let buffer := overwrite ctx.buffer ctx.bufIdx [0x80]
  let (state, buffer, idx) :=
    if idx > 56 then
      let buffer := overwrite buffer idx (List.replicate (64 - idx) 0)
      (sha256Transform ctx.state buffer, buffer, 0)
    else (ctx.state, buffer, idx)
  let buffer := overwrite buffer idx (List.replicate (56 - idx) 0)
  (sha256Transform state (overwrite buffer 56 (be64 bits))).digest

end Sha256Ctx

/-- `sha256`. -/
def sha256 (stack : Vector UInt8 64) (data : List UInt8) : List UInt8 :=
  ((sha256Init stack).update data).final

-- ==== a message as a whole

/-- What is appended to a message of `len` bytes. -/
def padding (len : Nat) : List UInt8 :=
  0x80 :: List.replicate ((119 - len % 64) % 64) 0 ++ be64 (8 * len).toUInt64

def sha256Of (m : List UInt8) : List UInt8 :=
  (absorb sha256Transform 64 sha256Start (m ++ padding m.length)).1.digest

-- ==== message so far

/-- The context has taken the bytes `m`. -/
structure Sha256Ctx.Holds (ctx : Sha256Ctx) (m : List UInt8) : Prop where
  count : ctx.count.toNat = m.length % 2 ^ 64
  room : ctx.buffer.length = 64
  state : absorb sha256Transform 64 sha256Start m = (ctx.state, ctx.buffer.take (m.length % 64))

namespace Sha256Ctx

variable {ctx : Sha256Ctx} {m : List UInt8}

theorem holds_init (stack : Vector UInt8 64) : (sha256Init stack).Holds [] :=
  ⟨rfl, stack.length_toList, absorb_short (by decide)⟩

theorem bufIdx_val (ctx : Sha256Ctx) : ctx.bufIdx.val = ctx.count.toNat % 64 := by
  change (ctx.count &&& 0x3f).toNat = _
  exact Nat.and_two_pow_sub_one_eq_mod _ 6

theorem Holds.bufIdx (h : ctx.Holds m) : ctx.bufIdx.val = m.length % 64 := by
  rw [bufIdx_val, h.count]
  omega

/-- The loop absorbs what was in the buffer and the new bytes. -/
theorem fill_spec (ctx : Sha256Ctx) (idx : Fin 64) (p : List UInt8)
    (hroom : ctx.buffer.length = 64) :
    (ctx.fill idx p).count = ctx.count ∧ (ctx.fill idx p).buffer.length = 64 ∧
      absorb sha256Transform 64 ctx.state (ctx.buffer.take idx ++ p) = ((ctx.fill idx p).state,
          (ctx.fill idx p).buffer.take ((idx.val + p.length) % 64)) := by
  have hidx := idx.isLt
  fun_induction fill ctx idx p with
  | case1 ctx idx =>
    refine ⟨rfl, hroom, ?_⟩
    rw [List.append_nil, List.length_nil, Nat.add_zero, Nat.mod_eq_of_lt idx.isLt]
    exact absorb_short (by rw [List.length_take]; omega)
  | case2 ctx idx p hne hlt =>
    refine ⟨rfl, ?_, ?_⟩
    · rw [length_overwrite (by omega), hroom]
    rw [Nat.mod_eq_of_lt (by omega)]
    rw [take_overwrite (by omega)]
    exact absorb_short (by
      rw [List.length_append, List.length_take]
      omega)
  | case3 ctx idx p hne hlt buffer ih =>
    have hlen : (p.take (64 - idx.val)).length = 64 - idx.val := by
      rw [List.length_take]
      omega
    have hbuf : buffer = ctx.buffer.take idx ++ p.take (64 - idx.val) :=
      overwrite_to_end (by omega)
    have hfull : buffer.length = 64 := by
      rw [hbuf, List.length_append, List.length_take, hlen]
      omega
    obtain ⟨hcount, hroom', hstate⟩ := ih hfull (by decide)
    refine ⟨hcount, hroom', ?_⟩
    have hsplit : ctx.buffer.take idx ++ p = buffer ++ p.drop (64 - idx.val) := by
      rw [hbuf, List.append_assoc, List.take_append_drop]
    have hmod : (idx.val + p.length) % 64
        = ((0 : Fin 64).val + (p.drop (64 - idx.val)).length) % 64 := by
      rw [List.length_drop, Fin.val_zero]
      omega
    rw [hsplit, absorb_block (by decide) hfull, hmod, ← hstate]
    rfl

theorem Holds.update (h : ctx.Holds m) (d : List UInt8) : (ctx.update d).Holds (m ++ d) := by
  obtain ⟨hcount, hroom, hstate⟩ := fill_spec
    { ctx with count := ctx.count + d.length.toUInt64 } ctx.bufIdx d h.room
  refine ⟨?_, hroom, ?_⟩
  · change (fill _ _ _).count.toNat = _
    rw [hcount, UInt64.toNat_add, h.count, List.length_append]
    change (_ + d.length % 2 ^ 64) % 2 ^ 64 = _
    omega
  · rw [absorb_append (by decide), h.state, List.length_append]
    rw [h.bufIdx] at hstate
    rw [hstate]
    congr 2
    omega

theorem Holds.foldl (h : ctx.Holds m) (pieces : List (List UInt8)) :
    (pieces.foldl Sha256Ctx.update ctx).Holds (m ++ pieces.flatten) := by
  induction pieces generalizing ctx m with
  | nil => simpa using h
  | cons d pieces ih =>
    rw [List.flatten_cons, ← List.append_assoc]
    exact ih (h.update d)

-- ---- the padding

theorem Holds.bits (h : ctx.Holds m) : ctx.count * 8 = (8 * m.length).toUInt64 := by
  rw [← UInt64.toNat_inj, UInt64.toNat_mul, h.count]
  change _ = (8 * m.length) % 2 ^ 64
  change (_ * 8) % 2 ^ 64 = _
  omega

/-- A padding that ends the block. -/
theorem padding_near {len : Nat} (h : len % 64 < 56) :
    padding len = [0x80] ++ List.replicate (55 - len % 64) 0 ++ be64 (8 * len).toUInt64 := by
  rw [padding, show (119 - len % 64) % 64 = 55 - len % 64 by omega]
  rfl

/-- A padding that ends the block and fills another. -/
theorem padding_far {len : Nat} (h : 56 ≤ len % 64) :
    padding len = [0x80] ++ List.replicate (63 - len % 64) 0
      ++ (List.replicate 56 0 ++ be64 (8 * len).toUInt64) := by
  rw [padding, show (119 - len % 64) % 64 = (63 - len % 64) + 56 by omega, List.replicate_add]
  simp

/-- Zeros up to the length field, and the length. -/
theorem overwrite_zeros {b d : List UInt8} {k : Nat} (hb : b.length = 64)
    (hk : k ≤ 56) (hd : d.length = 8) :
    overwrite (overwrite b k (List.replicate (56 - k) 0)) 56 d
      = b.take k ++ List.replicate (56 - k) 0 ++ d := by
  have hlen : k + (List.replicate (56 - k) (0 : UInt8)).length = 56 := by
    rw [List.length_replicate]
    omega
  rw [overwrite_to_end (by rw [length_overwrite (by omega)]; omega)]
  have htake := take_overwrite (d := List.replicate (56 - k) 0) (show k ≤ b.length by omega)
  rw [hlen] at htake
  rw [htake]

theorem Holds.final (h : ctx.Holds m) : ctx.final = sha256Of m := by
  have hroom := h.room
  -- the buffer behind the padding byte
  set b₀ := overwrite ctx.buffer (m.length % 64) [0x80] with hb₀
  have hlen₀ : b₀.length = 64 := by
    rw [hb₀, length_overwrite (by simp; omega), hroom]
  have htake₀ : b₀.take (m.length % 64 + 1) = ctx.buffer.take (m.length % 64) ++ [0x80] :=
    take_overwrite (d := [0x80]) (by omega)
  have hrest : (ctx.buffer.take (m.length % 64)).length = m.length % 64 := by
    rw [List.length_take]
    omega
  unfold Sha256Ctx.final sha256Of
  rw [absorb_append (by decide), h.state, h.bits, h.bufIdx, ← hb₀]
  dsimp only
  by_cases hk : m.length % 64 < 56
  · rw [if_neg (by omega), padding_near hk]
    have hzeros : 56 - (m.length % 64 + 1) = 55 - m.length % 64 := by omega
    have hlast := overwrite_zeros hlen₀ (by omega : m.length % 64 + 1 ≤ 56)
      (length_be64 (8 * m.length).toUInt64)
    rw [htake₀, hzeros, List.append_assoc, List.append_assoc] at hlast
    rw [hzeros, hlast, List.append_assoc, absorb_one (by decide) ?_]
    simp only [List.length_append, hrest, List.length_singleton, List.length_replicate, length_be64]
    omega
  · rw [if_pos (by omega), padding_far (by omega)]
    dsimp only
    -- the first of two blocks
    have hzeros : 64 - (m.length % 64 + 1) = 63 - m.length % 64 := by omega
    have hfirst : overwrite b₀ (m.length % 64 + 1) (List.replicate (63 - m.length % 64) 0)
        = ctx.buffer.take (m.length % 64) ++ ([0x80] ++ List.replicate (63 - m.length % 64) 0) := by
      rw [overwrite_to_end (by rw [List.length_replicate]; omega), htake₀, List.append_assoc]
    have hlen₁ : (overwrite b₀ (m.length % 64 + 1)
        (List.replicate (63 - m.length % 64) 0)).length = 64 := by
      rw [length_overwrite (by rw [List.length_replicate]; omega), hlen₀]
    have hlast := overwrite_zeros hlen₁ (Nat.zero_le 56) (length_be64 (8 * m.length).toUInt64)
    rw [List.take_zero, List.nil_append] at hlast
    rw [hzeros, hlast, ← List.append_assoc, ← hfirst,
      absorb_block (by decide) hlen₁, absorb_one (by decide) ?_]
    simp only [List.length_append, List.length_replicate, length_be64]

end Sha256Ctx

theorem sha256_eq (stack : Vector UInt8 64) (data : List UInt8) :
    sha256 stack data = sha256Of data :=
  ((Sha256Ctx.holds_init stack).update data).final

-- ==== the standard

/-- The words of the state as the standard counts them. -/
def Words.value (s : Words) : Fin 8 → Sha2.Word
  | 0 => s.a.toBitVec
  | 1 => s.b.toBitVec
  | 2 => s.c.toBitVec
  | 3 => s.d.toBitVec
  | 4 => s.e.toBitVec
  | 5 => s.f.toBitVec
  | 6 => s.g.toBitVec
  | 7 => s.h.toBitVec

theorem K_standard : K.map UInt32.toBitVec = Sha2.constants := by
  decide +kernel

theorem value_start : sha256Start.value = Sha2.start := by
  decide +kernel

theorem value_round (s : Words) (kw : UInt32 × UInt32) :
    (round s kw).value = Sha2.round s.value kw.1.toBitVec kw.2.toBitVec := by
  funext i
  fin_cases i <;> rfl

theorem wordAt_standard (data : List UInt8) (t : Nat) :
    (wordAt data t).toBitVec = Sha2.word data t := by
  rw [wordAt, Sha2.word, Nat.mul_comm t]
  ext i hi
  simp
  grind

theorem padding_standard (len : Nat) : padding len = Sha2.padding len := by
  have hzeros : Nat.find (Sha2.exists_zeros len) = (119 - len % 64) % 64 :=
    (Nat.find_eq_iff _).mpr ⟨by omega, fun n hn => by omega⟩
  rw [padding, Sha2.padding, hzeros]
  rfl

theorem getD_reverse_range {f : Nat → UInt32} {n j : Nat} (h : j < n) :
    ((List.range n).map f).reverse.getD j 0 = f (n - 1 - j) := by
  rw [List.getD_eq_getElem _ _ (by simpa using h), List.getElem_reverse]
  simp

/-- The loop that extends the schedule runs through the recurrence. -/
theorem iterate_extendSchedule (data : List UInt8) (n : Nat) :
    (extendSchedule^[n]) ((List.range 16).map (wordAt data)).reverse =
      ((List.range (n + 16)).map fun t =>
        UInt32.ofBitVec (Sha2.schedule data t)).reverse := by
  induction n with
  | zero =>
    refine congrArg List.reverse (List.map_congr_left fun t ht => ?_)
    rw [Sha2.schedule, if_pos (List.mem_range.mp ht), ← wordAt_standard,
      UInt32.ofBitVec_toBitVec]
  | succ n ih =>
    have hlast : Sha2.schedule data (n + 16) =
        Sha2.smallSigma1 (Sha2.schedule data (n + 14)) + Sha2.schedule data (n + 9) +
          Sha2.smallSigma0 (Sha2.schedule data (n + 1)) + Sha2.schedule data n := by
      rw [Sha2.schedule, if_neg (by omega)]
      rfl
    rw [Function.iterate_succ_apply', ih, extendSchedule,
      getD_reverse_range (by omega), getD_reverse_range (by omega),
      getD_reverse_range (by omega), getD_reverse_range (by omega),
      Nat.add_right_comm n 1, @List.range_succ (n + 16), List.map_append,
      List.reverse_append, List.map_singleton, hlast]
    rfl

theorem zip_schedule (data : List UInt8) : K.zip (schedule data) = (List.range 64).map
      fun t => (K.getD t 0, UInt32.ofBitVec (Sha2.schedule data t)) := by
  have hK : K = (List.range 64).map fun t => K.getD t 0 := by decide
  rw [schedule, iterate_extendSchedule, List.reverse_reverse]
  nth_rewrite 1 [hK]
  exact List.zip_map'

theorem value_transform (s : Words) (data : List UInt8) :
    (sha256Transform s data).value = Sha2.compress s.value data := by
  have hrounds : ((K.zip (schedule data)).foldl round s).value = (List.range 64).foldl
      (fun v t => Sha2.round v (Sha2.constants.getD t 0) (Sha2.schedule data t))
      s.value := by
    rw [zip_schedule, List.foldl_map]
    refine (List.foldl_hom Words.value fun s t => ?_).symm
    rw [value_round, ← K_standard]
    exact congrArg (Sha2.round _ · _) (List.getD_map K 0 UInt32.toBitVec)
  funext i
  rw [Sha2.compress, ← hrounds]
  fin_cases i <;> exact BitVec.add_comm _ _

theorem sha256Of_standard (m : List UInt8) : sha256Of m = Sha2.hash m := by
  rw [Sha2.hash, ← value_start, ← padding_standard,
    absorb_hom fun s b => (value_transform s b).symm]
  rfl

/-- The standard's example "abc". -/
example : sha256Of [0x61, 0x62, 0x63] =
    [0xba, 0x78, 0x16, 0xbf, 0x8f, 0x01, 0xcf, 0xea, 0x41, 0x41, 0x40, 0xde,
     0x5d, 0xae, 0x22, 0x23, 0xb0, 0x03, 0x61, 0xa3, 0x96, 0x17, 0x7a, 0x9c,
     0xb4, 0x10, 0xff, 0x61, 0xf2, 0x00, 0x15, 0xad] := by
  decide +kernel

end AmbaVirt.Crypto
