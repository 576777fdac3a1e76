/-
SHA-256 and HMAC as FIPS 180-4 and RFC 2104 state them, on messages of whole
bytes.

Words are vectors of 32 bits and the hash value is a family of eight of them.
The constants are written as what they are, the first bits of the fractional
parts of roots of primes, and the message schedule by its recurrence on the
index.
-/
import AmbaVirt.Lib.Blocks
import AmbaVirt.Lib.Table

namespace Lib.Sha2

abbrev Word := BitVec 32

-- ==== functions and constants (4.1.2, 4.2.2, 5.3.3)

def ch (x y z : Word) : Word := (x &&& y) ^^^ (~~~x &&& z)
def maj (x y z : Word) : Word := (x &&& y) ^^^ (x &&& z) ^^^ (y &&& z)
def bigSigma0 (x : Word) : Word := x.rotateRight 2 ^^^ x.rotateRight 13 ^^^ x.rotateRight 22
def bigSigma1 (x : Word) : Word := x.rotateRight 6 ^^^ x.rotateRight 11 ^^^ x.rotateRight 25
def smallSigma0 (x : Word) : Word := x.rotateRight 7 ^^^ x.rotateRight 18 ^^^ x >>> 3
def smallSigma1 (x : Word) : Word := x.rotateRight 17 ^^^ x.rotateRight 19 ^^^ x >>> 10

def primes : List Nat := (List.range 312).filter (Nat.Prime ·)

/-- The first 32 bits of the fractional part of the `n`th root of `p`. -/
def rootBits (n p : Nat) : Word := BitVec.ofNat 32 (Nat.nthRoot n (p * 2 ^ (32 * n)))

/-- `K`, from the cube roots. -/
def constants : List Word := primes.map (rootBits 3)

/-- `H(0)`, from the square roots. -/
def start (i : Fin 8) : Word := rootBits 2 (primes.getD i 0)

-- ==== padding (5.1.1)

theorem exists_zeros (len : Nat) : ∃ z, (8 * len + 1 + (7 + 8 * z)) % 512 = 448 :=
  ⟨(119 - len % 64) % 64, by omega⟩

def bytes {w : Nat} (x : BitVec w) : List UInt8 :=
  (List.range (w / 8)).map fun j => UInt8.ofBitVec (x.extractLsb' (w - 8 * (j + 1)) 8)

/-- A one bit, the fewest zero bits to 448 modulo 512, seven of them in the
byte of the one bit, and the length in bits. -/
def padding (len : Nat) : List UInt8 :=
  0x80 :: List.replicate (Nat.find (exists_zeros len)) 0 ++ bytes (BitVec.ofNat 64 (8 * len))

-- ==== hash (6.2.2)

/-- Word `t` of a block. -/
def word (block : List UInt8) (t : Nat) : Word :=
  (block.getD (4 * t) 0).toBitVec ++ (block.getD (4 * t + 1) 0).toBitVec ++
    (block.getD (4 * t + 2) 0).toBitVec ++ (block.getD (4 * t + 3) 0).toBitVec

/-- `W`. -/
def schedule (block : List UInt8) (t : Nat) : Word :=
  if t < 16 then word block t
  else smallSigma1 (schedule block (t - 2)) + schedule block (t - 7) +
    smallSigma0 (schedule block (t - 15)) + schedule block (t - 16)

/-- The working variables `a` to `h` behind one round. -/
def round (v : Fin 8 → Word) (k w : Word) : Fin 8 → Word :=
  let t1 := v 7 + bigSigma1 (v 4) + ch (v 4) (v 5) (v 6) + k + w
  let t2 := bigSigma0 (v 0) + maj (v 0) (v 1) (v 2)
  fun
    | 0 => t1 + t2
    | 4 => v 3 + t1
    | i => v (i - 1)

def compress (h : Fin 8 → Word) (block : List UInt8) : Fin 8 → Word :=
  let v := (List.range 64).foldl
    (fun v t => round v (constants.getD t 0) (schedule block t)) h
  fun i => v i + h i

def hash (m : List UInt8) : List UInt8 :=
  let h := (absorb compress 64 start (m ++ padding m.length)).1
  (List.finRange 8).flatMap fun i => bytes (h i)

-- ==== HMAC

/-- HMAC over a hash function with blocks of `b` bytes. -/
def hmac (hash : List UInt8 → List UInt8) (b : Nat) (key text : List UInt8) : List UInt8 :=
  let key := if b < key.length then hash key else key
  let key := key ++ List.replicate (b - key.length) 0
  hash (key.map (· ^^^ 0x5c) ++ hash (key.map (· ^^^ 0x36) ++ text))

end Lib.Sha2
