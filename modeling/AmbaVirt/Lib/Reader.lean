/-
Programs that read a buffer: a monad that logs every byte range read,
next to the outcome.

- `Reader ε α` is a function of the memory: the ranges read, in order,
  and the outcome. A refusal ends the program, and the log with it.
- `reach` is the end of the furthest byte read. All reads lie below `n`
  exactly if the reach does (`reach_le_iff`), and the reach of a
  sequence is computed from the reach of its parts (`reach_bind`).
- `value_*` and `reach_*` lemmas come in pairs, one per combinator.
-/
import AmbaVirt.Lib.Bytes
import AmbaVirt.Lib.Guard

namespace Lib

/-- A program that reads memory: what it read and how it ended. -/
def Reader (ε α : Type) := Mem → List Span × Except ε α

namespace Reader

variable {ε α β : Type} {m : Mem} {n : Nat} {l : List Span}

def reads (x : Reader ε α) (m : Mem) : List Span := (x m).1

def value (x : Reader ε α) (m : Mem) : Except ε α := (x m).2

instance : Monad (Reader ε) where
  pure a := fun _ => ([], .ok a)
  bind x f := fun m =>
    match x.value m with
    | .ok a => (x.reads m ++ (f a).reads m, (f a).value m)
    | .error e => (x.reads m, .error e)

-- ==== combinators

def get32 (o : Nat) : Reader ε UInt32 := fun m => ([⟨o, 4⟩], .ok (read32 m o))

def get64 (o : Nat) : Reader ε UInt64 := fun m => ([⟨o, 8⟩], .ok (read64 m o))

def lift (x : Except ε α) : Reader ε α := fun _ => ([], x)

/-- Read the ranges `l` and decode what they hold. -/
def fetch (l : List Span) (decode : Mem → α) : Reader ε α :=
  fun m => (l, .ok (decode m))

def forEach : List β → (β → Reader ε Unit) → Reader ε Unit
  | [], _ => pure ()
  | b :: l, f => f b >>= fun _ => forEach l f

def spansEnd (l : List Span) : Nat :=
  l.foldr (fun r k => max (r.lo + r.len) k) 0

/-- The end of the furthest byte read. -/
def reach (x : Reader ε α) (m : Mem) : Nat := spansEnd (x.reads m)

-- ==== values

@[simp] theorem value_pure (a : α) : (pure a : Reader ε α).value m = .ok a := rfl

@[simp] theorem value_get32 (o : Nat) :
    (get32 o : Reader ε UInt32).value m = .ok (read32 m o) := rfl

@[simp] theorem value_get64 (o : Nat) :
    (get64 o : Reader ε UInt64).value m = .ok (read64 m o) := rfl

@[simp] theorem value_lift (x : Except ε α) : (lift x).value m = x := rfl

@[simp] theorem value_fetch (l : List Span) (decode : Mem → α) :
    (fetch l decode : Reader ε α).value m = .ok (decode m) := rfl

@[simp] theorem value_bind (x : Reader ε α) (f : α → Reader ε β) :
    (x >>= f).value m = x.value m >>= fun a => (f a).value m := by
  cases h : x.value m with
  | ok a => simp [bind, value, Except.bind, show (x m).2 = .ok a from h]
  | error e => simp [bind, value, Except.bind, show (x m).2 = .error e from h]

theorem value_forEach (l : List β) (f : β → Reader ε Unit) :
    (forEach l f).value m = checkAll l fun b => (f b).value m := by
  induction l with
  | nil => rfl
  | cons b l ih =>
    rw [forEach, value_bind, checkAll]
    simp only [ih]

-- ==== reach

theorem spansEnd_append (l l' : List Span) :
    spansEnd (l ++ l') = max (spansEnd l) (spansEnd l') := by
  induction l with
  | nil => simp [spansEnd]
  | cons r l ih =>
    unfold spansEnd at ih ⊢
    rw [List.cons_append, List.foldr_cons, ih, List.foldr_cons, max_assoc]

theorem spansEnd_le_iff : spansEnd l ≤ n ↔ ∀ r ∈ l, r.lo + r.len ≤ n := by
  induction l with
  | nil => simp [spansEnd]
  | cons r l ih =>
    unfold spansEnd at ih ⊢
    rw [List.foldr_cons, max_le_iff, ih, List.forall_mem_cons]

/-- Some ranges end where the one that ends last does. -/
theorem spansEnd_eq {r : Span} (hr : r ∈ l)
    (hlast : ∀ q ∈ l, q.lo + q.len ≤ r.lo + r.len) :
    spansEnd l = r.lo + r.len := by
  apply le_antisymm
  · exact spansEnd_le_iff.mpr hlast
  · exact spansEnd_le_iff.mp le_rfl r hr

section Bind

variable {x : Reader ε α} {f : α → Reader ε β} {a : α} {e : ε}

theorem reach_le_iff : x.reach m ≤ n ↔ ∀ r ∈ x.reads m, r.lo + r.len ≤ n :=
  spansEnd_le_iff

@[simp] theorem reach_pure (a : α) : (pure a : Reader ε α).reach m = 0 := rfl

@[simp] theorem reach_get32 (o : Nat) : (get32 o : Reader ε UInt32).reach m = o + 4 := rfl

@[simp] theorem reach_get64 (o : Nat) : (get64 o : Reader ε UInt64).reach m = o + 8 := rfl

@[simp] theorem reach_lift (x : Except ε α) : (lift x).reach m = 0 := rfl

@[simp] theorem reach_fetch (l : List Span) (decode : Mem → α) :
    (fetch l decode : Reader ε α).reach m = spansEnd l := rfl

theorem reach_bind_ok (h : x.value m = .ok a) (f : α → Reader ε β) :
    (x >>= f).reach m = max (x.reach m) ((f a).reach m) := by
  have : (x >>= f).reads m = x.reads m ++ (f a).reads m := by
    simp [bind, reads, h]
  unfold reach
  rw [this, spansEnd_append]

theorem reach_bind_error (h : x.value m = .error e) (f : α → Reader ε β) :
    (x >>= f).reach m = x.reach m := by
  have : (x >>= f).reads m = x.reads m := by simp [bind, reads, h]
  unfold reach
  rw [this]

/-- A sequence stays below `n` if each part does. -/
theorem reach_bind_le :
    (x >>= f).reach m ≤ n ↔ x.reach m ≤ n ∧ ∀ a, x.value m = .ok a → (f a).reach m ≤ n := by
  cases h : x.value m with
  | ok a => simp [reach_bind_ok h]
  | error e => simp [reach_bind_error h]

end Bind

section Lift

variable {x : Except ε α} {f : α → Reader ε β} {a : α} {e : ε}

@[simp] theorem reach_lift_bind_le :
    (lift x >>= f).reach m ≤ n ↔ ∀ a, x = .ok a → (f a).reach m ≤ n := by
  simp [reach_bind_le]

@[simp] theorem reach_fetch_bind_le {o k : Nat} {decode : Mem → α} :
    (fetch [⟨o, k⟩] decode >>= f).reach m ≤ n ↔ o + k ≤ n ∧ (f (decode m)).reach m ≤ n := by
  simp [reach_bind_le, spansEnd_le_iff]

theorem reach_get32_bind (o : Nat) (f : UInt32 → Reader ε β) :
    (get32 o >>= f).reach m = max (o + 4) ((f (read32 m o)).reach m) :=
  reach_bind_ok rfl f

theorem reach_get64_bind (o : Nat) (f : UInt64 → Reader ε β) :
    (get64 o >>= f).reach m = max (o + 8) ((f (read64 m o)).reach m) :=
  reach_bind_ok rfl f

theorem reach_lift_bind (h : x = .ok a)
    (f : α → Reader ε β) : (lift x >>= f).reach m = (f a).reach m := by
  subst h
  rw [reach_bind_ok (value_lift _), reach_lift, Nat.zero_max]

theorem reach_lift_bind_error (h : x = .error e)
    (f : α → Reader ε β) : (lift x >>= f).reach m = 0 := by
  subst h
  exact reach_bind_error (value_lift _) f

-- ==== loops

theorem forEach_append (l : List β) (b : β) (f : β → Reader ε Unit) : (forEach (l ++ [b]) f).value m
        = ((forEach l f).value m >>= fun _ => (f b).value m) ∧
      ((forEach l f).value m = .ok () → (forEach (l ++ [b]) f).reach m
        = max ((forEach l f).reach m) ((f b).reach m)) ∧
      (∀ e, (forEach l f).value m = .error e →
        (forEach (l ++ [b]) f).reach m = (forEach l f).reach m) := by
  induction l with
  | nil =>
    refine ⟨?_, ?_, ?_⟩
    · simp only [List.nil_append, value_forEach, checkAll]
      cases (f b).value m with
      | ok u => rfl
      | error e => rfl
    · intro _
      cases h : (f b).value m with
      | ok u => simp [forEach, reach_bind_ok h]
      | error e => simp [forEach, reach_bind_error h]
    · intro e h
      cases h
  | cons c l ih =>
    obtain ⟨hv, hok, herr⟩ := ih
    rw [List.cons_append, forEach, forEach]
    cases h : (f c).value m with
    | error e =>
      refine ⟨?_, ?_, ?_⟩
      · rw [value_bind, value_bind, h]
        rfl
      · intro hc
        rw [value_bind, h] at hc
        cases hc
      · intro _ _
        rw [reach_bind_error h, reach_bind_error h]
    | ok u =>
      have hval : (f c >>= fun _ => forEach l f).value m = (forEach l f).value m := by
        rw [value_bind, h]
        rfl
      refine ⟨?_, ?_, ?_⟩
      · rw [value_bind, value_bind, h]
        exact hv
      · intro hc
        rw [hval] at hc
        rw [reach_bind_ok h, reach_bind_ok h, hok hc, max_assoc]
      · intro e hc
        rw [hval] at hc
        rw [reach_bind_ok h, reach_bind_ok h, herr e hc]

end Lift

variable {f : Nat → Reader ε Unit}

/-- A loop whose rounds reach further and further reaches as far as its
last round: the first that fails, or the last of all. -/
theorem reach_forEach_range (hmono : ∀ i j, i ≤ j → (f i).reach m ≤ (f j).reach m) {k : Nat}
    (hk : k < n) (hok : ∀ i < k, (f i).value m = .ok ())
    (hlast : k + 1 = n ∨ ∃ e, (f k).value m = .error e) :
    (forEach (List.range n) f).reach m = (f k).reach m := by
  -- the rounds before `k` reach no further than round `k` does
  have hbefore : ∀ j ≤ k, (forEach (List.range j) f).value m = .ok () ∧
      (forEach (List.range j) f).reach m ≤ (f k).reach m := by
    intro j
    induction j with
    | zero =>
      intro _
      exact ⟨rfl, Nat.zero_le _⟩
    | succ j ih =>
      intro hj
      obtain ⟨hv, hr⟩ := ih (by omega)
      obtain ⟨hval, hreach, -⟩ := forEach_append (m := m) (List.range j) j f
      rw [List.range_succ]
      refine ⟨?_, ?_⟩
      · rw [hval, hv, hok j (by omega)]
        rfl
      · rw [hreach hv, max_le_iff]
        exact ⟨hr, hmono j k (by omega)⟩
  obtain ⟨hv, hr⟩ := hbefore k le_rfl
  obtain ⟨hval, hreach, -⟩ := forEach_append (m := m) (List.range k) k f
  have hround : (forEach (List.range (k + 1)) f).reach m = (f k).reach m := by
    rw [List.range_succ, hreach hv, max_eq_right hr]
  rcases hlast with rfl | ⟨e, he⟩
  · exact hround
  -- once round `k` has failed no later round is run
  have hfail : ∀ j, k + 1 ≤ j → (forEach (List.range j) f).value m = .error e ∧
      (forEach (List.range j) f).reach m = (f k).reach m := by
    intro j hj
    induction j, hj using Nat.le_induction with
    | base =>
      refine ⟨?_, hround⟩
      rw [List.range_succ, hval, hv, he]
      rfl
    | succ j _ ih =>
      obtain ⟨hv', -, herr⟩ := forEach_append (m := m) (List.range j) j f
      rw [List.range_succ]
      refine ⟨?_, ?_⟩
      · rw [hv', ih.1]
        rfl
      · rw [herr e ih.1, ih.2]
  exact (hfail n hk).2

/-- The last round a loop of `n` rounds runs: the first that fails, or
the last of all. -/
def lastRound (n : Nat) (ok : Nat → Bool) : Nat :=
  ((List.range n).find? fun i => !ok i).getD (n - 1)

theorem lastRound_spec (ok : Nat → Bool) (hn : 0 < n) :
    lastRound n ok < n ∧ (∀ i < lastRound n ok, ok i = true) ∧
      (lastRound n ok + 1 = n ∨ ok (lastRound n ok) = false) := by
  unfold lastRound
  cases h : (List.range n).find? fun i => !ok i with
  | none =>
    rw [List.find?_eq_none] at h
    refine ⟨by simpa using hn, fun i hi => ?_, .inl ?_⟩
    · rw [Option.getD_none] at hi
      simpa using h i (List.mem_range.mpr (by omega))
    · rw [Option.getD_none]
      omega
  | some k =>
    rw [List.find?_range_eq_some] at h
    obtain ⟨hk, hmem, hbefore⟩ := h
    refine ⟨List.mem_range.mp hmem, fun i hi => ?_, .inr (by simpa using hk)⟩
    simpa using hbefore i hi

/-- A loop of checks passes exactly if its last round does. -/
theorem checkAll_range_toBool (f : Nat → Except ε Unit) (hn : 0 < n) :
    (checkAll (List.range n) f).toBool = (f (lastRound n fun i => (f i).toBool)).toBool := by
  obtain ⟨hlt, hok, hlast⟩ := lastRound_spec (fun i => (f i).toBool) hn
  cases hcheck : checkAll (List.range n) f with
  | ok u =>
    rw [checkAll_ok] at hcheck
    rw [hcheck _ (List.mem_range.mpr hlt)]
  | error e =>
    rw [toBool_error]
    rcases hlast with hlast | hbad
    · -- had the last round passed, all would have
      symm
      rw [← Bool.not_eq_true]
      intro hpass
      have hall : checkAll (List.range n) f = .ok () := by
        rw [checkAll_ok]
        intro i hi
        rw [List.mem_range] at hi
        have hi' : (f i).toBool = true := by
          rcases Nat.lt_or_ge i (lastRound n fun i => (f i).toBool) with h | h
          · exact hok i h
          · rwa [show i = lastRound n fun i => (f i).toBool by omega]
        obtain ⟨u, hu⟩ := exists_ok_of_toBool hi'
        exact hu
      rw [hall] at hcheck
      cases hcheck
    · exact hbad.symm

/-- The reach of such a loop, by its last round. -/
theorem reach_forEach_last (hmono : ∀ i j, i ≤ j → (f i).reach m ≤ (f j).reach m) (hn : 0 < n) :
    (forEach (List.range n) f).reach m
      = (f (lastRound n fun i => ((f i).value m).toBool)).reach m := by
  obtain ⟨hlt, hok, hlast⟩ :=
    lastRound_spec (fun i => ((f i).value m).toBool) hn
  refine reach_forEach_range hmono hlt ?_ ?_
  · intro i hi
    have := hok i hi
    cases h : (f i).value m with
    | ok u => rfl
    | error e =>
      rw [h] at this
      cases this
  · refine hlast.imp_right ?_
    intro hbad
    cases h : (f _).value m with
    | ok u =>
      rw [h] at hbad
      cases hbad
    | error e => exact ⟨e, rfl⟩

end Reader

end Lib
