/-
Text as C reads and writes it: the conversions of `sscanf` and `strtoull`
over C strings, `fgets` over a file, and decimal numbers as `printf`
writes them.

A conversion skips blanks, takes what it can and hands back the rest, or
fails. `scanWord_text` and `scanU64_decimal` read back a word and a
number that were written before a blank, `fgets_line` a line that fits
its buffer, so a reader of a written file is a rewriting by these three.
-/
import Mathlib

namespace Lib

abbrev Text := List Char

/-- `isspace` of the C locale. -/
def isSpace (c : Char) : Bool :=
  c == ' ' || c == '\t' || c == '\n' || c == '\x0b' || c == '\x0c' || c == '\r'

def skipSpace (s : Text) : Text := s.dropWhile isSpace

-- ==== conversions

/-- The conversion `%<n>s`. -/
def scanWord (n : Nat) (s : Text) : Option (Text × Text) :=
  let w := ((skipSpace s).takeWhile fun c => !isSpace c).take n
  if w = [] then none else some (w, (skipSpace s).drop w.length)

/-- Up to `k` conversions `%<n>s`, one after the other. -/
def scanWords (n : Nat) : Nat → Text → List Text
  | 0, _ => []
  | k + 1, s =>
    match scanWord n s with
    | none => []
    | some (w, rest) => w :: scanWords n k rest

/-- Whether the number is negated, and its digits on. -/
def splitSign : Text → Bool × Text
  | '-' :: t => (true, t)
  | '+' :: t => (false, t)
  | t => (false, t)

/-- A sign and digits, as `strtoull` in base 10 takes them: whether it is
negated, its magnitude, and what follows. -/
def scanNat (s : Text) : Option (Bool × Nat × Text) :=
  let t := (splitSign (skipSpace s)).2
  let ds := t.takeWhile Char.isDigit
  if ds = [] then none
  else some ((splitSign (skipSpace s)).1, Nat.ofDigitChars 10 ds 0, t.drop ds.length)

/-- The value `strtoull` returns for a magnitude that fits. -/
def signed (neg : Bool) (v : Nat) : UInt64 :=
  if neg then -v.toUInt64 else v.toUInt64

/-- The conversion `%llu`. A number that does not fit becomes
`ULLONG_MAX`. -/
def scanU64 (s : Text) : Option (UInt64 × Text) :=
  (scanNat s).map fun (neg, v, rest) =>
    (if v < 2 ^ 64 then signed neg v else 0xffffffffffffffff, rest)

/-- The conversion `%u`: converted as `%llu`, then cut to 32 bits. -/
def scanU32 (s : Text) : Option (UInt32 × Text) :=
  (scanU64 s).map fun (v, rest) => (v.toUInt32, rest)

/-- `strtoull` of a whole string; `none` is an error or a rest. -/
def parseU64 (s : Text) : Option UInt64 :=
  match scanNat s with
  | some (neg, v, []) => if v < 2 ^ 64 then some (signed neg v) else none
  | _ => none

/-- The chunks `fgets` delivers with room for `n` characters; `cur` has
been read of the current one. -/
def fgetsFrom (n : Nat) (cur : Text) : Text → List Text
  | [] => if cur = [] then [] else [cur]
  | c :: s =>
    if c = '\n' ∨ n ≤ cur.length + 1 then (cur ++ [c]) :: fgetsFrom n [] s
    else fgetsFrom n (cur ++ [c]) s

def fgets (n : Nat) (s : Text) : List Text := fgetsFrom n [] s

/-- `%u` and `%llu` of `printf`. -/
def decimal (v : Nat) : Text := Nat.toDigits 10 v

-- ==== words

def IsWord (w : Text) : Prop := w ≠ [] ∧ ∀ c ∈ w, isSpace c = false

def AtBlank (r : Text) : Prop := ∀ c ∈ r.head?, isSpace c = true

variable {c : Char} {r : Text}

theorem atBlank_cons (h : isSpace c = true) : AtBlank (c :: r) := by
  intro d hd
  cases hd
  exact h

variable {w : Text}

theorem skipSpace_word (hw : IsWord w) : skipSpace (w ++ r) = w ++ r := by
  obtain ⟨hne, hns⟩ := hw
  cases w with
  | nil => exact absurd rfl hne
  | cons c w =>
    rw [skipSpace, List.cons_append, List.dropWhile_cons_of_neg]
    simp [hns c]

theorem takeWhile_word (hw : IsWord w) (hr : AtBlank r) :
    (w ++ r).takeWhile (fun c => !isSpace c) = w := by
  rw [List.takeWhile_append_of_pos (by simpa using hw.2)]
  cases r with
  | nil => simp
  | cons c r => simp [hr c rfl]

variable {n : Nat} {s : Text}

theorem scanWord_space : scanWord n (' ' :: s) = scanWord n s := rfl

theorem scanWord_text (hw : IsWord w) (hr : AtBlank r) (hn : w.length ≤ n) :
    scanWord n (w ++ r) = some (w, r) := by
  rw [scanWord, skipSpace_word hw, takeWhile_word hw hr, List.take_of_length_le hn]
  simp [hw.1]

-- ==== numbers

variable {v : Nat}

theorem isDigit_decimal : ∀ c ∈ decimal v, c.isDigit = true :=
  fun _ hc => Nat.isDigit_of_mem_toDigits (by omega) (by omega) hc

theorem decimal_ne_nil (v : Nat) : decimal v ≠ [] := Nat.toDigits_ne_nil

theorem isDigit_not_space (h : c.isDigit = true) : isSpace c = false := by
  by_contra hs
  simp only [Bool.not_eq_false, isSpace, Bool.or_eq_true, beq_iff_eq] at hs
  rcases hs with ((((rfl | rfl) | rfl) | rfl) | rfl) | rfl <;> exact absurd h (by decide)

theorem isWord_decimal (v : Nat) : IsWord (decimal v) :=
  ⟨decimal_ne_nil v, fun c hc => isDigit_not_space (isDigit_decimal c hc)⟩

theorem atBlank_not_digit (hr : AtBlank r) : ∀ c ∈ r.head?, c.isDigit = false := by
  intro c hc
  by_contra hd
  have hsp := hr c hc
  rw [isDigit_not_space (by simpa using hd)] at hsp
  cases hsp

theorem splitSign_digit {t : Text} (h : c.isDigit = true) :
    splitSign (c :: t) = (false, c :: t) := by
  unfold splitSign
  split
  case h_1 heq =>
    cases heq
    exact absurd h (by decide)
  case h_2 heq =>
    cases heq
    exact absurd h (by decide)
  case h_3 => rfl

theorem splitSign_decimal :
    splitSign (decimal v ++ r) = (false, decimal v ++ r) := by
  have hdig := isDigit_decimal (v := v)
  cases hd : decimal v with
  | nil => exact absurd hd (decimal_ne_nil v)
  | cons c ds =>
    rw [hd] at hdig
    exact splitSign_digit (hdig c (by simp))

theorem takeWhile_decimal (hr : AtBlank r) :
    (decimal v ++ r).takeWhile Char.isDigit = decimal v := by
  rw [List.takeWhile_append_of_pos isDigit_decimal]
  have hhead := atBlank_not_digit hr
  cases r with
  | nil => simp
  | cons c r => simp [hhead c rfl]

theorem scanNat_decimal (hr : AtBlank r) : scanNat (decimal v ++ r) = some (false, v, r) := by
  have hval : Nat.ofDigitChars 10 (decimal v) 0 = v :=
    Nat.ofDigitChars_toDigits (by omega) (by omega)
  rw [scanNat, skipSpace_word (isWord_decimal v), splitSign_decimal]
  simp only [takeWhile_decimal hr, hval, decimal_ne_nil, if_false, List.drop_left]

theorem scanU64_space : scanU64 (' ' :: s) = scanU64 s := rfl

theorem scanU32_space : scanU32 (' ' :: s) = scanU32 s := rfl

/-- A number that was printed is read back. -/
theorem scanU64_decimal {v : UInt64} (hr : AtBlank r) :
    scanU64 (decimal v.toNat ++ r) = some (v, r) := by
  have hlt := v.toNat_lt
  rw [scanU64, scanNat_decimal hr]
  simp [signed, hlt]

theorem scanU32_decimal {v : UInt32} (hr : AtBlank r) :
    scanU32 (decimal v.toNat ++ r) = some (v, r) := by
  have hv : v.toNat = v.toUInt64.toNat := by simp
  rw [scanU32, hv, scanU64_decimal hr]
  simp

theorem length_decimal_le {k : Nat} (hk : 0 < k) (h : v < 10 ^ k) : (decimal v).length ≤ k :=
  (Nat.length_toDigits_le_iff (by omega) hk).mpr h

-- ==== lines

/-- A line that fits is delivered whole. -/
theorem fgetsFrom_line {cur l : Text} (hl : '\n' ∉ l) (hn : cur.length + l.length < n) :
    fgetsFrom n cur (l ++ '\n' :: s) = (cur ++ l ++ ['\n']) :: fgets n s := by
  induction l generalizing cur with
  | nil => simp [fgetsFrom, fgets]
  | cons c l ih =>
    rw [List.mem_cons, not_or] at hl
    rw [List.length_cons] at hn
    rw [List.cons_append, fgetsFrom, if_neg, ih hl.2]
    · simp
    · simp
      omega
    · have hc : c ≠ '\n' := fun h => hl.1 h.symm
      simp [hc]
      omega

theorem fgets_line {l : Text} (hl : '\n' ∉ l) (hn : l.length < n) :
    fgets n (l ++ '\n' :: s) = (l ++ ['\n']) :: fgets n s := by
  rw [fgets, fgetsFrom_line hl (by simpa using hn)]
  simp

/-- A file of lines that fit is read line by line. -/
theorem filterMap_fgets {α β : Type*} {text : α → Text} {read : Text → Option β}
    {f : α → β} {as : List α} (hfit : ∀ a ∈ as, '\n' ∉ text a ∧ (text a).length < n)
    (hread : ∀ a ∈ as, read (text a ++ ['\n']) = some (f a)) :
    (fgets n (as.flatMap fun a => text a ++ ['\n'])).filterMap read = as.map f := by
  induction as with
  | nil => rfl
  | cons a as ih =>
    rw [List.forall_mem_cons] at hfit hread
    rw [List.flatMap_cons, List.append_assoc, List.singleton_append,
      fgets_line hfit.1.1 hfit.1.2, List.filterMap_cons, hread.1,
      ih hfit.2 hread.2, List.map_cons]

end Lib
