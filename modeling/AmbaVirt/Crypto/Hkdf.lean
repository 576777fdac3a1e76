/-
HMAC-SHA-256 and the expansion of a key (hmac_sha256.c).

`hkdf_sha256_expand` counts blocks in 32 bits and runs over them with a
counter of 8. The count is a truncated quotient of a sum that may wrap, so
a length far too large may pass for a small one; and with 255 blocks the
condition of the loop holds of every counter, and the loop never ends
(`expand_runs_on`: no fuel is enough). `expand_conforms_iff` is that
nothing else is wrong: on every other length the result is the one of the
standard.
-/
import AmbaVirt.Crypto.Sha256

namespace AmbaVirt.Crypto

open Lib

-- ==== HMAC

/-- `hmac_sha256_ctx_t`. -/
structure HmacSha256Ctx where
  inner : Sha256Ctx
  outer : Sha256Ctx

/-- What the buffers of the contexts hold before they are used: those of
an HMAC and the one a long key is hashed with. -/
structure Stack where
  inner : Vector UInt8 64
  outer : Vector UInt8 64
  key : Vector UInt8 64

def keyPad (pad : UInt8) (key : List UInt8) : List UInt8 :=
  (overwrite (List.replicate 64 0) 0 key).map (· ^^^ pad)

/-- `hmac_sha256_init`. -/
def hmacSha256Init (stack : Stack) (key : List UInt8) : HmacSha256Ctx :=
  let k := if key.length > SHA256_BLOCK_SIZE then sha256 stack.key key else key
  { inner := (sha256Init stack.inner).update (keyPad 0x36 k)
    outer := (sha256Init stack.outer).update (keyPad 0x5c k) }

namespace HmacSha256Ctx

/-- `hmac_sha256_update`. -/
def update (ctx : HmacSha256Ctx) (data : List UInt8) : HmacSha256Ctx :=
  { ctx with inner := ctx.inner.update data }

/-- `hmac_sha256_final`. -/
def final (ctx : HmacSha256Ctx) : List UInt8 :=
  (ctx.outer.update ctx.inner.final).final

end HmacSha256Ctx

def hmacKey (key : List UInt8) : List UInt8 :=
  if key.length > SHA256_BLOCK_SIZE then sha256Of key else key

def hmacOf (key m : List UInt8) : List UInt8 :=
  sha256Of (keyPad 0x5c (hmacKey key) ++ sha256Of (keyPad 0x36 (hmacKey key) ++ m))

/-- The context has taken the bytes `m` under a key. -/
structure HmacSha256Ctx.Holds (ctx : HmacSha256Ctx) (key m : List UInt8) :
    Prop where
  inner : ctx.inner.Holds (keyPad 0x36 (hmacKey key) ++ m)
  outer : ctx.outer.Holds (keyPad 0x5c (hmacKey key))

namespace HmacSha256Ctx

variable {ctx : HmacSha256Ctx} {key m : List UInt8}

theorem holds_init (stack : Stack) (key : List UInt8) :
    (hmacSha256Init stack key).Holds key [] := by
  unfold hmacSha256Init
  simp only [sha256_eq]
  refine ⟨?_, ?_⟩
  · rw [List.append_nil]
    exact (Sha256Ctx.holds_init stack.inner).update _
  · exact (Sha256Ctx.holds_init stack.outer).update _

theorem Holds.update (h : ctx.Holds key m) (d : List UInt8) :
    (ctx.update d).Holds key (m ++ d) := by
  refine ⟨?_, h.outer⟩
  rw [← List.append_assoc]
  exact h.inner.update d

theorem Holds.final (h : ctx.Holds key m) : ctx.final = hmacOf key m := by
  unfold HmacSha256Ctx.final
  rw [h.inner.final]
  exact (h.outer.update _).final

theorem Holds.foldl (h : ctx.Holds key m) (pieces : List (List UInt8)) :
    (pieces.foldl HmacSha256Ctx.update ctx).Holds key (m ++ pieces.flatten) := by
  induction pieces generalizing ctx m with
  | nil => simpa using h
  | cons d pieces ih =>
    rw [List.flatten_cons, ← List.append_assoc]
    exact ih (h.update d)

end HmacSha256Ctx

theorem keyPad_standard (pad : UInt8) (key : List UInt8) :
    keyPad pad key = (key ++ List.replicate (64 - key.length) 0).map (· ^^^ pad) := by
  rw [keyPad, overwrite, Nat.zero_add, List.drop_replicate]
  rfl

/-- HMAC is the one of RFC 2104 over the hash of FIPS 180-4. -/
theorem hmacOf_standard (key m : List UInt8) :
    hmacOf key m = Sha2.hmac Sha2.hash 64 key m := by
  have hkey : hmacKey key = if 64 < key.length then Sha2.hash key else key := by
    rw [← sha256Of_standard]
    rfl
  rw [hmacOf, sha256Of_standard, sha256Of_standard, keyPad_standard, keyPad_standard, hkey]
  rfl

/-- The digest of a message taken in pieces, empty ones among them, is the
standard's of the whole, and so is its HMAC under any key. -/
theorem streaming_standard (stack : Stack) (key : List UInt8) (pieces : List (List UInt8)) :
    (pieces.foldl Sha256Ctx.update (sha256Init stack.inner)).final
      = Sha2.hash pieces.flatten ∧
    (pieces.foldl HmacSha256Ctx.update (hmacSha256Init stack key)).final
      = Sha2.hmac Sha2.hash 64 key pieces.flatten := by
  rw [← sha256Of_standard, ← hmacOf_standard]
  constructor
  · exact ((Sha256Ctx.holds_init stack.inner).foldl pieces).final
  · exact ((HmacSha256Ctx.holds_init stack key).foldl pieces).final

-- ==== the expansion

def roundCtx (stack : Stack) (prk : Vector UInt8 32)
    (info t : List UInt8) (i : UInt8) : HmacSha256Ctx :=
  let ctx := hmacSha256Init stack prk.toList
  let ctx := if t.length > 0 then ctx.update t else ctx
  let ctx := if info.length > 0 then ctx.update info else ctx
  ctx.update [i]

/-- What the loop of `hkdf_sha256_expand` carries: the counter, the last
block, how far the output is written, and what was written. -/
structure Expansion where
  i : UInt8
  t : List UInt8
  done : UInt64
  out : List UInt8

def Expansion.next (x : Expansion) (stack : UInt8 → Stack)
    (prk : Vector UInt8 32) (info : List UInt8) (okmLen : UInt64) :
    Expansion :=
  let t := (roundCtx (stack x.i) prk info x.t x.i).final
  let toCopy := if okmLen - x.done > 32 then 32 else okmLen - x.done
  { i := x.i + 1, t, done := x.done + toCopy
    out := x.out ++ t.take toCopy.toNat }

/-- The loop, at most `fuel` rounds of it; `none` if it is still running. -/
def expandLoop (stack : UInt8 → Stack) (prk : Vector UInt8 32)
    (info : List UInt8) (okmLen : UInt64) (n : UInt8) :
    Nat → Expansion → Option (List UInt8)
  | 0, _ => none
  | fuel + 1, x =>
    if x.i ≤ n then
      expandLoop stack prk info okmLen n fuel (x.next stack prk info okmLen)
    else some x.out

/-- `N`. -/
def blockCount (okmLen : UInt64) : UInt32 :=
  ((okmLen + 32 - 1) / 32).toUInt32

/-- `hkdf_sha256_expand` with an output buffer: what it returns, and the
bytes it has written from the start of the buffer. -/
def hkdfSha256Expand (stack : UInt8 → Stack) (fuel : Nat)
    (prk : Vector UInt8 32) (info : List UInt8) (okmLen : UInt64) :
    Option (Int × List UInt8) :=
  if blockCount okmLen > 255 then some (-1, [])
  else
    (expandLoop stack prk info okmLen (blockCount okmLen).toUInt8 fuel
      ⟨1, [], 0, []⟩).map fun out => (0, out)

-- ==== the standard

/-- `T(i)` of RFC 5869. -/
def hkdfT (prk : Vector UInt8 32) (info : List UInt8) : Nat → List UInt8
  | 0 => []
  | i + 1 => hmacOf prk.toList (hkdfT prk info i ++ info ++ [(i + 1).toUInt8])

/-- `T(1) | T(2) | … | T(n)`. -/
def hkdfStream (prk : Vector UInt8 32) (info : List UInt8) (n : Nat) : List UInt8 :=
  (List.range n).flatMap fun i => hkdfT prk info (i + 1)

theorem hkdfStream_succ (prk : Vector UInt8 32) (info : List UInt8) (n : Nat) :
    hkdfStream prk info (n + 1) = hkdfStream prk info n ++ hkdfT prk info (n + 1) := by
  rw [hkdfStream, List.range_succ, List.flatMap_append, List.flatMap_singleton]
  rfl

theorem length_hkdfStream (prk : Vector UInt8 32) (info : List UInt8) (n : Nat) :
    (hkdfStream prk info n).length = 32 * n := by
  induction n with
  | zero => rfl
  | succ n ih =>
    rw [hkdfStream_succ, List.length_append, ih]
    change 32 * n + 32 = _
    omega

def HKDF_MAX_LEN : Nat := 255 * 32

/-- What the standard asks of a length: the first bytes of the blocks, or a
refusal that writes nothing. -/
def Conforms (stack : UInt8 → Stack) (prk : Vector UInt8 32)
    (info : List UInt8) (okmLen : UInt64) : Prop :=
  ∃ fuel, hkdfSha256Expand stack fuel prk info okmLen =
    if okmLen.toNat ≤ HKDF_MAX_LEN then
      some (0, (hkdfStream prk info ((okmLen.toNat + 31) / 32)).take okmLen.toNat)
    else some (-1, [])

-- ==== the counters

theorem blockCount_toNat (okmLen : UInt64) : (blockCount okmLen).toNat
      = (okmLen.toNat + 31) % 2 ^ 64 / 32 % 2 ^ 32 := by
  have hsum : (okmLen + 32 - 1).toNat = (okmLen.toNat + 31) % 2 ^ 64 := by
    change (2 ^ 64 - 1 + (okmLen.toNat + 32) % 2 ^ 64) % 2 ^ 64 = _
    omega
  rw [blockCount, UInt64.toNat_toUInt32, UInt64.toNat_div, hsum]
  rfl

theorem blockCount_exact {okmLen : UInt64} (h : okmLen.toNat ≤ HKDF_MAX_LEN) :
    (blockCount okmLen).toNat = (okmLen.toNat + 31) / 32 := by
  have hmax : HKDF_MAX_LEN = 8160 := rfl
  rw [blockCount_toNat]
  omega

theorem roundCtx_final (stack : Stack) (prk : Vector UInt8 32) (info t : List UInt8) (i : UInt8) :
    (roundCtx stack prk info t i).final = hmacOf prk.toList (t ++ info ++ [i]) := by
  have hstart := HmacSha256Ctx.holds_init stack prk.toList
  have hlast : (if t.length > 0 then
        (hmacSha256Init stack prk.toList).update t
      else hmacSha256Init stack prk.toList).Holds prk.toList t := by
    split
    · exact hstart.update t
    · rename_i hempty
      rw [List.eq_nil_of_length_eq_zero (Nat.eq_zero_of_not_pos hempty)]
      exact hstart
  unfold roundCtx
  dsimp only
  split
  · exact ((hlast.update info).update [i]).final
  · rename_i hempty
    rw [List.eq_nil_of_length_eq_zero (Nat.eq_zero_of_not_pos hempty), List.append_nil]
    exact (hlast.update [i]).final

-- ==== the rounds

/-- The loop behind `k` rounds. -/
structure Expansion.After (x : Expansion) (prk : Vector UInt8 32)
    (info : List UInt8) (okmLen : UInt64) (k : Nat) : Prop where
  i : x.i.toNat = k + 1
  t : x.t = hkdfT prk info k
  done : x.done.toNat = min (32 * k) okmLen.toNat
  out : x.out = (hkdfStream prk info k).take okmLen.toNat

variable {stack : UInt8 → Stack} {prk : Vector UInt8 32} {info : List UInt8} {okmLen : UInt64}

theorem after_start : (⟨1, [], 0, []⟩ : Expansion).After prk info okmLen 0 :=
  ⟨rfl, rfl, (Nat.zero_min _).symm, List.take_nil.symm⟩

theorem toCopy_toNat {done : UInt64} (h : done.toNat ≤ okmLen.toNat) :
    (if okmLen - done > 32 then 32 else okmLen - done).toNat
      = min 32 (okmLen.toNat - done.toNat) := by
  have hsub : (okmLen - done).toNat = okmLen.toNat - done.toNat :=
    UInt64.toNat_sub_of_le _ _ (UInt64.le_iff_toNat_le.mpr h)
  split
  · rename_i hgt
    rw [gt_iff_lt, UInt64.lt_iff_toNat_lt, hsub] at hgt
    exact (Nat.min_eq_left (Nat.le_of_lt hgt)).symm
  rename_i hle
  rw [gt_iff_lt, UInt64.lt_iff_toNat_lt, hsub, Nat.not_lt] at hle
  rw [hsub]
  exact (Nat.min_eq_right hle).symm

theorem Expansion.After.next {x : Expansion} {k : Nat}
    (h : x.After prk info okmLen k) (hk : k + 1 < 255) :
    (x.next stack prk info okmLen).After prk info okmLen (k + 1) := by
  have hi : x.i = (k + 1).toUInt8 := by
    rw [← UInt8.toNat_inj, h.i]
    change k + 1 = (k + 1) % 2 ^ 8
    omega
  have ht : (roundCtx (stack x.i) prk info x.t x.i).final = hkdfT prk info (k + 1) := by
    rw [roundCtx_final, h.t, hi]
    rfl
  have hdone : x.done.toNat ≤ okmLen.toNat := by
    rw [h.done]
    exact Nat.min_le_right _ _
  have hcopy := toCopy_toNat hdone
  refine ⟨?_, ht, ?_, ?_⟩
  · change (x.i + 1).toNat = _
    rw [UInt8.toNat_add, h.i]
    change (k + 1 + 1) % 2 ^ 8 = _
    omega
  · change (x.done + _).toNat = _
    rw [UInt64.toNat_add, hcopy, h.done]
    omega
  · change x.out ++ (roundCtx (stack x.i) prk info x.t x.i).final.take _ = _
    rw [hcopy, h.done, h.out, ht, hkdfStream_succ, List.take_append, length_hkdfStream]
    congr 1
    have hblock : (hkdfT prk info (k + 1)).length = 32 := rfl
    by_cases hle : 32 * k ≤ okmLen.toNat
    · rw [Nat.min_eq_left hle, Nat.min_comm, ← List.take_take,
        List.take_of_length_le (l := hkdfT prk info (k + 1)) hblock.le]
    · have hnone : min 32 (okmLen.toNat - min (32 * k) okmLen.toNat) = 0 := by
        omega
      rw [hnone, show okmLen.toNat - 32 * k = 0 by omega]

/-- The loop from behind `k` rounds on ends after the `n`th. -/
theorem expandLoop_ends {n : UInt8} (hn : n.toNat < 255) {x : Expansion}
    {k : Nat} (h : x.After prk info okmLen k) (hk : k ≤ n.toNat) :
    expandLoop stack prk info okmLen n (n.toNat - k + 1) x
      = some ((hkdfStream prk info n.toNat).take okmLen.toNat) := by
  obtain ⟨d, hd⟩ := Nat.exists_eq_add_of_le hk
  induction d generalizing k x with
  | zero =>
    have hlast : ¬ x.i ≤ n := by
      rw [UInt8.le_iff_toNat_le, h.i]
      omega
    rw [show n.toNat - k + 1 = 0 + 1 by omega, expandLoop, if_neg hlast, h.out,
      show n.toNat = k by omega]
  | succ d ih =>
    have hgo : x.i ≤ n := by
      rw [UInt8.le_iff_toNat_le, h.i]
      omega
    rw [show n.toNat - k + 1 = n.toNat - (k + 1) + 1 + 1 by omega, expandLoop,
      if_pos hgo]
    exact ih (h.next (by omega)) (by omega) (by omega)

theorem expandLoop_runs_on (fuel : Nat) (x : Expansion) :
    expandLoop stack prk info okmLen 255 fuel x = none := by
  induction fuel generalizing x with
  | zero => rfl
  | succ fuel ih =>
    have hgo : x.i ≤ 255 := by
      exact Nat.le_of_lt_succ x.i.toNat_lt
    rw [expandLoop, if_pos hgo]
    exact ih _

-- ==== every length

/-- With 255 blocks the call does not return. -/
theorem expand_runs_on (h : blockCount okmLen = 255) (fuel : Nat) :
    hkdfSha256Expand stack fuel prk info okmLen = none := by
  rw [hkdfSha256Expand, h, if_neg (by decide)]
  exact Option.map_eq_none_iff.mpr (expandLoop_runs_on fuel _)

theorem expand_short (h : okmLen.toNat ≤ 8128) : Conforms stack prk info okmLen := by
  have hmax : HKDF_MAX_LEN = 8160 := rfl
  have hcount : (blockCount okmLen).toNat = (okmLen.toNat + 31) / 32 :=
    blockCount_exact (by omega)
  have hn : (blockCount okmLen).toUInt8.toNat = (okmLen.toNat + 31) / 32 := by
    rw [UInt32.toNat_toUInt8, hcount]
    omega
  have hpass : ¬ blockCount okmLen > 255 := by
    rw [gt_iff_lt, UInt32.lt_iff_toNat_lt, hcount]
    change ¬ 255 < _
    omega
  refine ⟨(blockCount okmLen).toUInt8.toNat - 0 + 1, ?_⟩
  rw [if_pos (by omega), hkdfSha256Expand, if_neg hpass,
    expandLoop_ends (by omega) after_start (Nat.zero_le _), hn]
  rfl

/-- The expansion conforms on every length, but for those that come to 255
blocks and those past the limit that are counted as fewer than 256. -/
theorem expand_conforms_iff (stack : UInt8 → Stack) (prk : Vector UInt8 32)
    (info : List UInt8) (okmLen : UInt64) :
    Conforms stack prk info okmLen ↔ okmLen.toNat ≤ 8128 ∨ (HKDF_MAX_LEN < okmLen.toNat ∧
        255 < (okmLen.toNat + 31) % 2 ^ 64 / 32 % 2 ^ 32) := by
  have hmax : HKDF_MAX_LEN = 8160 := rfl
  have hcount := blockCount_toNat okmLen
  constructor
  · rintro ⟨fuel, hrun⟩
    by_contra hno
    rw [not_or, not_and] at hno
    by_cases hle : okmLen.toNat ≤ HKDF_MAX_LEN
    · have hlast : blockCount okmLen = 255 := by
        rw [← UInt32.toNat_inj, hcount]
        change _ = 255
        omega
      rw [expand_runs_on hlast, if_pos hle] at hrun
      cases hrun
    · have hpass : ¬ blockCount okmLen > 255 := by
        rw [gt_iff_lt, UInt32.lt_iff_toNat_lt, hcount]
        exact hno.2 (by omega)
      rw [if_neg hle, hkdfSha256Expand, if_neg hpass] at hrun
      obtain ⟨out, -, hout⟩ := Option.map_eq_some_iff.mp hrun
      cases hout
  · rintro (hle | ⟨hgt, hover⟩)
    · exact expand_short hle
    refine ⟨0, ?_⟩
    have hrefuse : blockCount okmLen > 255 := by
      rw [gt_iff_lt, UInt32.lt_iff_toNat_lt, hcount]
      exact hover
    rw [if_neg (by omega), hkdfSha256Expand, if_pos hrefuse]

/-- The longest output of the standard, and one of 128 GiB. -/
theorem expand_strays : ¬ Conforms (fun _ => ⟨.replicate 64 0, .replicate 64 0, .replicate 64 0⟩)
        (.replicate 32 0) [] 8160 ∧
      ¬ Conforms (fun _ => ⟨.replicate 64 0, .replicate 64 0, .replicate 64 0⟩)
        (.replicate 32 0) [] 0x2000000000 := by
  constructor
  · rintro ⟨fuel, hrun⟩
    rw [expand_runs_on (by decide), if_pos (by decide)] at hrun
    cases hrun
  rintro ⟨fuel, hrun⟩
  obtain ⟨out, -, hout⟩ := Option.map_eq_some_iff.mp hrun
  cases hout

-- ==== extract and expand

theorem hmac_final (stack : Stack) (key m : List UInt8) :
    ((hmacSha256Init stack key).update m).final = hmacOf key m :=
  ((HmacSha256Ctx.holds_init stack key).update m).final

/-- `hkdf_sha256_extract`; a salt of `none` is NULL. -/
def hkdfSha256Extract (stack : Stack) (salt : Option (List UInt8)) (ikm : List UInt8) :
    Vector UInt8 32 :=
  ⟨((hmacSha256Init stack ((salt.filter (· ≠ [])).getD (List.replicate 32 0))).update
    ikm).final.toArray, by rw [hmac_final]; rfl⟩

/-- `hkdf_sha256`. -/
def hkdfSha256 (stack : UInt8 → Stack) (fuel : Nat) (salt : Option (List UInt8))
    (ikm info : List UInt8) (okmLen : UInt64) : Option (Int × List UInt8) :=
  hkdfSha256Expand stack fuel (hkdfSha256Extract (stack 0) salt ikm) info okmLen

/-- Extract and expand are the standard's, with a salt, an empty one or
none. -/
theorem hkdf_standard (stack : UInt8 → Stack) (salt : Option (List UInt8))
    (ikm info : List UInt8) :
    ∃ prk : Vector UInt8 32, prk.toList = hmacOf (salt.getD (List.replicate 32 0)) ikm ∧
      ∀ okmLen : UInt64, okmLen.toNat ≤ 8128 → ∃ fuel, hkdfSha256 stack fuel salt ikm info okmLen
        = some (0, (hkdfStream prk info ((okmLen.toNat + 31) / 32)).take okmLen.toNat) := by
  refine ⟨hkdfSha256Extract (stack 0) salt ikm, ?_, fun okmLen h => ?_⟩
  · change HmacSha256Ctx.final _ = _
    rw [hmac_final]
    -- the key block of 32 zeros is that of no key
    match salt with
    | none | some [] | some (_ :: _) => rfl
  · obtain ⟨fuel, hrun⟩ : Conforms stack (hkdfSha256Extract (stack 0) salt ikm) info okmLen :=
      expand_short h
    exact ⟨fuel, hrun.trans (if_pos (h.trans (by decide)))⟩

end AmbaVirt.Crypto
