/-
Guard chains: C functions that check one condition after another and
return an error code at the first that fails.

A translated function is a `do` block in `Except` whose statements are
`refuseIf` (the condition that returns an error), `require` (a lookup
that must find something) and calls of other such functions. Success is
then the conjunction of all the guards, which the rules below peel off
(`guards`).
-/
import Mathlib

namespace Lib

variable {ε α β : Type}

/-- Return the error `e` if `p` holds. -/
def refuseIf (p : Prop) [Decidable p] (e : ε) : Except ε Unit :=
  if p then .error e else .ok ()

/-- Return the error `e` unless there is a value. -/
def require (o : Option α) (e : ε) : Except ε α :=
  match o with
  | none => .error e
  | some a => .ok a

def checkAll (l : List β) (f : β → Except ε Unit) : Except ε Unit :=
  match l with
  | [] => .ok ()
  | b :: l => f b >>= fun _ => checkAll l f

-- ==== peeling guards

section Guards

variable {a : α} {f : β → Except ε α} {x : Except ε β} {e : ε}

theorem bind_ok :
    (x >>= f) = .ok a ↔ ∃ b, x = .ok b ∧ f b = .ok a := by
  cases x <;> simp [bind, Except.bind]

theorem bind_error :
    (x >>= f) = .error e ↔ x = .error e ∨ ∃ b, x = .ok b ∧ f b = .error e := by
  cases x <;> simp [bind, Except.bind]

/-- A check returns nothing worth naming. -/
theorem exists_unit {p : Unit → Prop} : (∃ u, p u) ↔ p () :=
  ⟨fun ⟨(), h⟩ => h, fun h => ⟨(), h⟩⟩

variable {p : Prop} {o : Option α} {u : Unit} {e' : ε}

theorem refuseIf_ok [Decidable p] : refuseIf p e = .ok u ↔ ¬ p := by
  by_cases hp : p <;> simp [refuseIf, hp]

theorem refuseIf_error [Decidable p] : refuseIf p e = .error e' ↔ p ∧ e = e' := by
  by_cases hp : p <;> simp [refuseIf, hp]

theorem refuseIf_pos [Decidable p] (hp : p) (e : ε) : refuseIf p e = .error e := if_pos hp

theorem refuseIf_neg [Decidable p] (hp : ¬ p) (e : ε) : refuseIf p e = .ok () := if_neg hp

theorem require_ok : require o e = .ok a ↔ o = some a := by
  cases o <;> simp [require]

theorem require_error : require o e = .error e' ↔ o = none ∧ e = e' := by
  cases o <;> simp [require]

theorem pure_ok {b : α} : (pure a : Except ε α) = .ok b ↔ a = b :=
  Except.ok.injEq a b ▸ Iff.rfl

theorem pure_error : (pure a : Except ε α) = .error e ↔ False := by
  simp [pure, Except.pure]

end Guards

/-- What success says of each kind of guard, as one set of rules. -/
theorem guards :
    (∀ {ε α β : Type} {x : Except ε β} {f : β → Except ε α} {a : α},
      (x >>= f) = .ok a ↔ ∃ b, x = .ok b ∧ f b = .ok a) ∧
    (∀ {ε : Type} {p : Prop} [Decidable p] {e : ε} {u : Unit}, refuseIf p e = .ok u ↔ ¬ p) ∧
    (∀ {ε α : Type} {o : Option α} {e : ε} {a : α}, require o e = .ok a ↔ o = some a) ∧
    ∀ {p : Unit → Prop}, (∃ u, p u) ↔ p () :=
  ⟨bind_ok, refuseIf_ok, require_ok, exists_unit⟩

variable {a : α} {e : ε} {u : Unit} {x : Except ε α}

theorem toOption_eq_some : x.toOption = some a ↔ x = .ok a := by
  cases x <;> simp [Except.toOption]

theorem checkAll_ok {l : List β} {f : β → Except ε Unit} :
    checkAll l f = .ok u ↔ ∀ b ∈ l, f b = .ok () := by
  induction l with
  | nil => simp [checkAll]
  | cons b l ih =>
    rw [checkAll, bind_ok]
    simp only [ih, List.forall_mem_cons]
    exact ⟨fun ⟨_, hb, hl⟩ => ⟨hb, hl⟩, fun ⟨hb, hl⟩ => ⟨(), hb, hl⟩⟩

theorem toBool_error (e : ε) : (.error e : Except ε α).toBool = false := rfl

theorem toBool_ok (a : α) : (.ok a : Except ε α).toBool = true := rfl

/-- A computed outcome that is a success has a value. -/
theorem exists_ok_of_toBool (h : x.toBool = true) : ∃ a, x = .ok a := by
  cases x with
  | error e => cases h
  | ok a => exact ⟨a, rfl⟩

/-- The same with a fact about the value that can be computed. -/
theorem exists_ok_of_any {p : α → Prop} [DecidablePred p]
    (h : (x.toOption.any fun a => decide (p a)) = true) :
    ∃ a, x = .ok a ∧ p a := by
  cases x with
  | error e => cases h
  | ok a => exact ⟨a, rfl, of_decide_eq_true h⟩

def errorOf : Except ε α → Option ε
  | .error e => some e
  | .ok _ => none

/-- A computed outcome that is a refusal is refused with its error. -/
theorem eq_error_of_errorOf (h : errorOf x = some e) : x = .error e := by
  cases x with
  | error e' => rw [Option.some.inj h]
  | ok a => cases h

-- ==== two outcomes

/-- Two outcomes that agree: the same error, or values related by `R`. -/
inductive Agree (R : α → β → Prop) : Except ε α → Except ε β → Prop
  | ok {a : α} {b : β} (h : R a b) : Agree R (.ok a) (.ok b)
  | error (e : ε) : Agree R (.error e) (.error e)

namespace Agree

theorem refl {R : α → α → Prop} (h : ∀ a, R a a) (x : Except ε α) : Agree R x x := by
  cases x with
  | ok a => exact .ok (h a)
  | error e => exact .error e

variable {γ : Type} {f : α → Except ε γ} {R : α → β → Prop} {y : Except ε β} {δ : Type}

/-- Steps that agree on related values keep an agreement. -/
theorem bind {S : γ → δ → Prop} {g : β → Except ε δ} (h : Agree R x y)
    (hfg : ∀ a b, x = .ok a → R a b → Agree S (f a) (g b)) :
    Agree S (x >>= f) (y >>= g) := by
  cases h with
  | ok hab => exact hfg _ _ rfl hab
  | error e => exact .error e

theorem bind_same {S : γ → δ → Prop}
    {g : α → Except ε δ} (hfg : ∀ a, x = .ok a → Agree S (f a) (g a)) :
    Agree S (x >>= f) (x >>= g) := by
  refine (Agree.refl (R := Eq) (fun _ => rfl) x).bind ?_
  intro a b ha hab
  subst hab
  exact hfg a ha

/-- What related values are mapped to alike, outcomes that agree are. -/
theorem map_eq {f : α → γ} {g : β → γ}
    (h : Agree R x y) (hfg : ∀ a b, R a b → f a = g b) : x.map f = y.map g := by
  cases h with
  | ok hab => exact congrArg Except.ok (hfg _ _ hab)
  | error e => rfl

end Agree

end Lib
