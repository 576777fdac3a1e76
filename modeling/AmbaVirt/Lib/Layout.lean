/-
Structures in memory: a record is a list of fields, each a word at its
offset, as a compiler lays it out.

# Shape

`Field.store` writes one field and `Field.Holds` says that it is there.
A list of fields in the order of their offsets is stored as a whole:
every field is then there (`storeAll_holds`), and nothing below the
first or past the last has changed (`storeAll_apart`). An array of equal
records is `packArray`.
-/
import AmbaVirt.Lib.Bytes

namespace Lib

/-- A word at an offset. -/
inductive Field
  | u32 (off : Nat) (v : UInt32)
  | u64 (off : Nat) (v : UInt64)

namespace Field

def span : Field → Span
  | u32 off _ => ⟨off, 4⟩
  | u64 off _ => ⟨off, 8⟩

def store (m : Mem) : Field → Mem
  | u32 off v => write32 m off v
  | u64 off v => write64 m off v

def Holds (m : Mem) : Field → Prop
  | u32 off v => read32 m off = v
  | u64 off v => read64 m off = v

variable {m m' : Mem} {f : Field} {i : Nat}

theorem store_holds (m : Mem) (f : Field) : f.Holds (f.store m) := by
  cases f with
  | u32 off v => exact read32_write32 m off v
  | u64 off v => exact read64_write64 m off v

theorem store_apart (h : i ∉ f.span.bytes) : f.store m i = m i := by
  rw [Span.not_mem_bytes] at h
  cases f with
  | u32 off v => exact write32_apart h
  | u64 off v => exact write64_apart h

theorem Holds.congr (h : f.Holds m) (heq : ∀ i ∈ f.span.bytes, m' i = m i) : f.Holds m' := by
  cases f with
  | u32 off v =>
    refine (read32_congr fun k hk => heq _ ⟨?_, ?_⟩).trans h
    · exact Nat.le_add_right off k
    · exact Nat.add_lt_add_left hk off
  | u64 off v =>
    refine (read64_congr fun k hk => heq _ ⟨?_, ?_⟩).trans h
    · exact Nat.le_add_right off k
    · exact Nat.add_lt_add_left hk off

end Field

def storeAll (m : Mem) (l : List Field) : Mem := l.foldl (fun m f => f.store m) m

/-- The fields are in the order of their offsets, between `lo` and `hi`,
and do not overlap. -/
def LaidOut (lo hi : Nat) : List Field → Prop
  | [] => lo ≤ hi
  | f :: l => lo ≤ f.span.lo ∧ LaidOut (f.span.lo + f.span.len) hi l

variable {l : List Field} {lo hi i : Nat}

theorem LaidOut.le (h : LaidOut lo hi l) : lo ≤ hi := by
  induction l generalizing lo with
  | nil => exact h
  | cons f l ih =>
    have := ih h.2
    have := h.1
    omega

theorem LaidOut.within (h : LaidOut lo hi l) {f : Field} (hf : f ∈ l) :
    lo ≤ f.span.lo ∧ f.span.lo + f.span.len ≤ hi := by
  induction l generalizing lo with
  | nil => cases hf
  | cons g l ih =>
    obtain ⟨hlo, hrest⟩ := h
    rcases List.mem_cons.mp hf with rfl | hf
    · exact ⟨hlo, hrest.le⟩
    · have := ih hrest hf
      omega

theorem storeAll_apart {m : Mem} (h : LaidOut lo hi l) (hi : i < lo ∨ hi ≤ i) :
    storeAll m l i = m i := by
  induction l generalizing m lo with
  | nil => rfl
  | cons f l ih =>
    have hf := h.within (List.mem_cons_self)
    have hrest : i < f.span.lo + f.span.len ∨ _ ≤ i := hi.imp_left (by omega)
    refine (ih h.2 hrest).trans (Field.store_apart ?_)
    rw [Span.not_mem_bytes]
    omega

theorem storeAll_holds {m : Mem} (h : LaidOut lo hi l) {f : Field}
    (hf : f ∈ l) : f.Holds (storeAll m l) := by
  induction l generalizing m lo with
  | nil => cases hf
  | cons g l ih =>
    rcases List.mem_cons.mp hf with rfl | hf
    · -- what is stored after it is past its end
      refine (Field.store_holds m f).congr fun i hi => ?_
      exact storeAll_apart h.2 (.inl hi.2)
    · exact ih h.2 hf

-- ==== copies

/-- `memcpy` of `n` bytes of `src` to `o`. -/
def blit (m src : Mem) (o n : Nat) : Mem := fun i =>
  if o ≤ i ∧ i < o + n then src (i - o) else m i

theorem blit_apart {m src : Mem} {o n : Nat} (h : i < o ∨ o + n ≤ i) : blit m src o n i = m i := by
  unfold blit
  rw [if_neg]
  omega

theorem blit_within {m src : Mem} {o n : Nat} (h : i < n) : blit m src o n (o + i) = src i := by
  unfold blit
  rw [if_pos (by omega), Nat.add_sub_cancel_left]

/-- An array of records of `size` bytes. -/
def packArray (size : Nat) (l : List (List Field)) : Mem := fun i =>
  match l[i / size]? with
  | some r => storeAll (fun _ => 0) r (i % size)
  | none => 0

end Lib
