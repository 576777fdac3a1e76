/-
Labelled transition systems: runs, reachable states and the two
induction rules every safety result of the development goes through.

- `System` is an initial predicate and a labelled step relation. A run
  (`Run`) grows at its end, so the last step of a history is the one an
  induction peels off.
- `Reachable.induct` is the invariant rule. The step case also gets
  reachability of the source state, for invariants proved earlier.
- `Run.induct` is the same rule for facts that tie the state to the
  labels that led to it (a history variable).
- `System.restrict` keeps only the steps that meet a condition on the
  source state and the label.
-/
import Mathlib

namespace Lib

/-- A labelled transition system over states `σ` and labels `ε`. -/
structure System (σ ε : Type*) where
  /-- The states a run may start in. -/
  init : σ → Prop
  /-- `step s e s'`: in state `s` the event `e` may lead to `s'`. -/
  step : σ → ε → σ → Prop

namespace System

variable {σ ε : Type*}

/-- `M.Run s es s'`: the events `es`, in order, lead from `s` to `s'`. -/
inductive Run (M : System σ ε) : σ → List ε → σ → Prop
  | nil (s : σ) : Run M s [] s
  | snoc {s s' s'' : σ} {es : List ε} {e : ε} :
      Run M s es s' → M.step s' e s'' → Run M s (es ++ [e]) s''

/-- A state some run from an initial state ends in. -/
def Reachable (M : System σ ε) (s : σ) : Prop :=
  ∃ s₀ es, M.init s₀ ∧ M.Run s₀ es s

/-- The system that only takes the steps meeting `C`. -/
def restrict (M : System σ ε) (C : σ → ε → Prop) : System σ ε where
  init := M.init
  step s e s' := C s e ∧ M.step s e s'

variable {M : System σ ε} {es : List ε} {s s' : σ} {f : σ → ε → Option σ} {C : σ → ε → Prop}

-- ==== runs

theorem Run.append {s'' : σ} {fs : List ε} (h : M.Run s es s') (h' : M.Run s' fs s'') :
    M.Run s (es ++ fs) s'' := by
  induction h' with
  | nil => rwa [List.append_nil]
  | snoc _ hstep ih =>
    rw [← List.append_assoc]
    exact Run.snoc ih hstep

-- ==== reachability

theorem Reachable.init (h : M.init s) : M.Reachable s :=
  ⟨s, [], h, Run.nil s⟩

theorem Reachable.step {e : ε} (h : M.Reachable s)
    (hstep : M.step s e s') : M.Reachable s' := by
  obtain ⟨s₀, es, h₀, hrun⟩ := h
  exact ⟨s₀, es ++ [e], h₀, Run.snoc hrun hstep⟩

theorem Reachable.run (h : M.Reachable s)
    (hrun : M.Run s es s') : M.Reachable s' := by
  obtain ⟨s₀, fs, h₀, hrun₀⟩ := h
  exact ⟨s₀, fs ++ es, h₀, hrun₀.append hrun⟩

/-- Executing a list of events with a function that only takes steps. -/
theorem Reachable.exec (hf : ∀ s e s', f s e = some s' → M.step s e s')
    (h : M.Reachable s) (hes : es.foldlM f s = some s') :
    M.Reachable s' := by
  induction es generalizing s with
  | nil =>
    cases hes
    exact h
  | cons e es ih =>
    obtain ⟨s₁, h₁, hes⟩ := Option.bind_eq_some_iff.mp hes
    exact ih (h.step (hf s e s₁ h₁)) hes

/-- Executing a list of events finds a state with property `p`. -/
theorem Reachable.exists_exec (hf : ∀ s e s', f s e = some s' → M.step s e s') {p : σ → Prop}
    [DecidablePred p] {l : List ε} (h : M.Reachable s)
    (hp : ((l.foldlM f s).any fun t => decide (p t)) = true) :
    ∃ t, M.Reachable t ∧ p t := by
  obtain ⟨t, ht, hp⟩ := (Option.any_eq_true _ _).mp hp
  exact ⟨t, h.exec hf ht, of_decide_eq_true hp⟩

-- ==== induction rules

/-- The history rule: a relation between the events so far and the
state that holds of the empty history and survives each step holds of
every run. -/
theorem Run.induct {s₀ : σ} {I : List ε → σ → Prop} (h₀ : I [] s₀)
    (hstep : ∀ es s e s', M.Run s₀ es s → I es s → M.step s e s' → I (es ++ [e]) s')
    (h : M.Run s₀ es s) : I es s := by
  induction h with
  | nil => exact h₀
  | snoc hrun hst ih => exact hstep _ _ _ _ hrun ih hst

/-- The invariant rule: what holds initially and survives every step
from a reachable state holds of every reachable state. -/
theorem Reachable.induct {I : σ → Prop} (h₀ : ∀ s, M.init s → I s)
    (hstep : ∀ s e s', M.Reachable s → I s → M.step s e s' → I s')
    {s : σ} (h : M.Reachable s) : I s := by
  obtain ⟨s₀, es, hi, hrun⟩ := h
  exact Run.induct (I := fun _ s => I s) (h₀ s₀ hi) (fun es s e s' hr hI hst =>
      hstep s e s' ⟨s₀, es, hi, hr⟩ hI hst) hrun

theorem Run.of_restrict (h : (M.restrict C).Run s es s') : M.Run s es s' := by
  induction h with
  | nil => exact Run.nil _
  | snoc _ hst ih => exact Run.snoc ih hst.2

theorem Reachable.restrict_mono {D : σ → ε → Prop} (hCD : ∀ s e, C s e → D s e)
    (h : (M.restrict C).Reachable s) : (M.restrict D).Reachable s :=
  h.induct (fun _ hi => .init hi) fun s e _ _ ih hst => ih.step ⟨hCD s e hst.1, hst.2⟩

theorem Reachable.of_restrict
    (h : (M.restrict C).Reachable s) : M.Reachable s := by
  obtain ⟨s₀, es, hi, hrun⟩ := h
  exact ⟨s₀, es, hi, hrun.of_restrict⟩

end System

end Lib
