/-
Draining the proxy before its module is unloaded.

`cavalry_proxy_wait_drained` counts requests. A live-inference run is not
counted, and may have the device before, while and after it returns. And
`cavalry_proxy_finish_drain` clears the flag first and closes
`/dev/cavalry` afterwards: a request in between is admitted and finds it
open (`drain_overtaken`).

`Orderly` says of an event that it does neither, and `drain_quiet` that
these are the only two: along runs of orderly events nothing that was
admitted can use the device between the return of `wait_drained` and the
close, and an event that is not orderly ends that at once.
-/
import AmbaVirt.Cavalry.Threads

namespace AmbaVirt.Cavalry

open Lib

/-- The thread was admitted and can still use `g_fd_cav`. -/
def Task.mayUse : Task → Bool
  | .admitted _ | .checked _ | .bound .. | .driving .. | .live .. => true
  | .serving r => (Opcode.ofCode r.code).any Opcode.usesFd
  | .idle | .leaving => false

/-- The flag is set in these phases of an unload. -/
def Unload.refuses : Unload → Bool
  | .draining | .waited _ | .unloaded _ => true
  | .idle | .cleared _ => false

namespace Threads

variable {n : Nat} {s s' : Threads n}

/-- Between the return of `wait_drained` and the close no thread can use
the device. -/
def Quiet (s : Threads n) : Prop :=
  s.unload.drained = true → ∀ i, (s.tasks i).mayUse = false
  deriving Decidable

/-- No live-inference run is on its way when `wait_drained` returns 0, and
none starts until the close; no request is admitted between the clearing
of the flag and the close. -/
def Orderly (s : Threads n) : Event n → Prop
  | .request .. => s.draining = false → s.unload.drained = false
  | .startLive .. => s.unload.drained = false
  | .waitReturn => s.active = 0 → ∀ i, (s.tasks i).counted = false → (s.tasks i).mayUse = false
  | _ => True

instance (s : Threads n) : DecidablePred s.Orderly
  | .request .. => inferInstanceAs (Decidable (_ → _))
  | .startLive .. => inferInstanceAs (Decidable (_ = _))
  | .waitReturn => inferInstanceAs (Decidable (_ → _))
  | .reopen .. | .check .. | .answer .. | .call .. | .lookup .. | .enter ..
  | .finish .. | .fail .. | .leave .. | .outside .. | .startDrain | .unload
  | .clear | .close => inferInstanceAs (Decidable True)

-- ==== the books

def weight (t : Task) : Nat := if t.counted then 1 else 0

/-- The count is that of the requests, the flag is set from the start of a
drain to its clearing, and behind a drain nothing is on its way. -/
structure Books (s : Threads n) : Prop where
  active : s.active = ∑ i, weight (s.tasks i)
  draining : s.draining = s.unload.refuses
  settled : s.unload.drained = true → ∀ i, s.tasks i = .idle

theorem Books.quiet (h : s.Books) : s.Quiet := by
  intro hd i
  rw [h.settled hd i]
  rfl

theorem Books.not_drained (h : s.Books) {i : Fin n} (hi : s.tasks i ≠ .idle) :
    s.unload.drained = false := by
  by_contra hd
  exact hi (h.settled (Bool.eq_true_of_not_eq_false hd) i)

theorem sum_setTask (s : Threads n) (i : Fin n) (t : Task) :
    ∑ j, weight ((s.setTask i t).tasks j) + weight (s.tasks i)
      = ∑ j, weight (s.tasks j) + weight t :=
  sum_update weight s.tasks i t

/-- A step of one thread that is at work, or that may start. -/
theorem Books.of_task (h : s.Books) {i : Fin n} {t : Task}
    (hd : s.unload.drained = false) (hunload : s'.unload = s.unload)
    (hdraining : s'.draining = s.draining)
    (htasks : s'.tasks = (s.setTask i t).tasks)
    (hactive : s'.active + weight (s.tasks i) = s.active + weight t) :
    s'.Books := by
  refine ⟨?_, ?_, fun hd' => ?_⟩
  · have hsum := sum_setTask s i t
    have hold := h.active
    rw [htasks]
    omega
  · rw [hdraining, hunload]
    exact h.draining
  · rw [hunload, hd] at hd'
    cases hd'

theorem Books.of_unload (h : s.Books) (htasks : s'.tasks = s.tasks) (hactive : s'.active = s.active)
    (hdraining : s'.draining = s'.unload.refuses)
    (hsettled : s'.unload.drained = true → ∀ i, s.tasks i = .idle) :
    s'.Books := by
  refine ⟨?_, hdraining, ?_⟩
  · rw [hactive, htasks]
    exact h.active
  · rw [htasks]
    exact hsettled

/-- With the count at 0 and no live run on its way every thread is idle. -/
theorem Books.idle (h : s.Books) (hzero : s.active = 0)
    (hlive : ∀ i, (s.tasks i).counted = false → (s.tasks i).mayUse = false)
    (i : Fin n) : s.tasks i = .idle := by
  have hsum : ∑ j, weight (s.tasks j) = 0 := h.active.symm.trans hzero
  have hweight : weight (s.tasks i) = 0 :=
    Finset.sum_eq_zero_iff.mp hsum i (Finset.mem_univ i)
  have hcount : (s.tasks i).counted = false := by
    by_contra hc
    rw [weight, if_pos (Bool.eq_true_of_not_eq_false hc)] at hweight
    cases hweight
  have huse := hlive i hcount
  cases ht : s.tasks i with
  | idle => rfl
  | _ =>
    rw [ht] at hcount huse
    first
      | exact absurd hcount Bool.noConfusion
      | exact absurd huse Bool.noConfusion

theorem Books.step (h : s.Books) {e : Event n} (ho : s.Orderly e)
    (hm : s.Move e s') : s'.Books := by
  cases hm with
  | refuse i r hd => exact h
  | accept i r hidle hd =>
    refine h.of_task (i := i) (t := .admitted r) (ho hd) rfl rfl rfl ?_
    rw [hidle]
    rfl
  | live i d a b c hidle =>
    refine h.of_task (i := i) (t := .live d a b c) ho rfl rfl rfl ?_
    rw [hidle]
    rfl
  | work i t o hbusy hcount hcopy hquiet =>
    refine h.of_task (i := i) (t := t) (h.not_drained hbusy) rfl rfl rfl ?_
    rw [weight, weight, hcount]
    rfl
  | leave i ht hquiet =>
    have hbusy : s.tasks i ≠ .idle := by
      rw [ht]
      exact Task.noConfusion
    refine h.of_task (i := i) (t := .idle) (h.not_drained hbusy) rfl rfl rfl ?_
    have hone : 1 ≤ s.active := by
      rw [h.active]
      have hle := Finset.single_le_sum (f := fun j => weight (s.tasks j))
        (fun j _ => Nat.zero_le _) (Finset.mem_univ i)
      rw [ht] at hle
      exact hle
    rw [ht]
    change s.active - 1 + 1 = s.active + 0
    omega
  | serve i r op ht hcall =>
    have hbusy : s.tasks i ≠ .idle := by
      rw [ht]
      exact Task.noConfusion
    refine h.of_task (i := i) (t := .leaving) (h.not_drained hbusy) rfl rfl rfl ?_
    rw [ht]
    rfl
  | outside op hcall => exact ⟨h.active, h.draining, h.settled⟩
  | start hidle => exact h.of_unload rfl rfl rfl fun hd => by cases hd
  | wait hat =>
    refine h.of_unload rfl rfl ?_ fun hd => ?_
    · have hflag := h.draining
      rw [hat] at hflag
      exact hflag
    · have hzero : s.active = 0 := beq_iff_eq.mp hd
      exact h.idle hzero (ho hzero)
  | unload hat =>
    refine h.of_unload rfl rfl ?_ fun hd => h.settled ?_
    · have hflag := h.draining
      rw [hat] at hflag
      exact hflag
    · rw [hat]
      exact hd
  | clear hat =>
    refine h.of_unload rfl rfl rfl fun hd => h.settled ?_
    rw [hat]
    exact hd
  | close hat =>
    refine h.of_unload rfl rfl ?_ fun hd => by cases hd
    have hflag := h.draining
    rw [hat] at hflag
    exact hflag

theorem Quiet.not_drained {i : Fin n} (hq : s.Quiet)
    (hi : (s.tasks i).mayUse = true) : s.unload.drained = false := by
  by_contra hd
  have hno := hq (Bool.eq_true_of_not_eq_false hd) i
  rw [hi] at hno
  cases hno

/-- An event that is not orderly ends the quiet. -/
theorem Quiet.orderly {e : Event n} (h : s.next e = some s') (hq : s'.Quiet) : s.Orderly e := by
  cases e with
  | request i r =>
    intro hd
    simp only [next, hd] at h
    split at h
    · rw [if_neg Bool.false_ne_true, Option.some.injEq] at h
      have htask : s'.tasks i = .admitted r := by
        rw [← h]
        exact Function.update_self ..
      have hno := hq.not_drained (i := i) (by rw [htask]; rfl)
      rw [← h] at hno
      exact hno
    · cases h
  | startLive i d a b c =>
    simp only [next] at h
    split at h
    · rw [Option.some.injEq] at h
      have htask : s'.tasks i = .live d a b c := by
        rw [← h]
        exact Function.update_self ..
      have hno := hq.not_drained (i := i) (by rw [htask]; rfl)
      rw [← h] at hno
      exact hno
    · cases h
  | waitReturn =>
    intro hzero i _
    simp only [next] at h
    split at h
    · rw [Option.some.injEq] at h
      have hd : s'.unload.drained = true := by
        rw [← h, hzero]
        rfl
      have hno := hq hd i
      rw [← h] at hno
      exact hno
    · cases h
  | _ => trivial

theorem books_init (h : (threadSystem n).init s) : s.Books := by
  obtain ⟨-, hidle, hunload, hdraining, hactive, -⟩ := h
  refine ⟨?_, ?_, fun _ => hidle⟩
  · rw [hactive]
    refine (Finset.sum_eq_zero fun i _ => ?_).symm
    rw [hidle]
    rfl
  · rw [hdraining, hunload]
    rfl

end Threads

-- ==== the runs

/-- In every run of orderly events no thread can use the device between
the return of `wait_drained` with 0 and the close, and a further event
keeps it so exactly if it is orderly. -/
theorem drain_quiet {n : Nat} {s : Threads n}
    (h : ((threadSystem n).restrict Threads.Orderly).Reachable s) :
    s.Quiet ∧ ∀ e s', s.next e = some s' → (s'.Quiet ↔ s.Orderly e) := by
  have hbooks : s.Books := by
    refine h.induct (I := Threads.Books) ?_ ?_
    · intro s hinit
      exact Threads.books_init hinit
    · rintro s e s' - ih ⟨ho, hstep⟩
      exact ih.step ho (Threads.next_move hstep)
  refine ⟨hbooks.quiet, fun e s' hnext => ⟨Threads.Quiet.orderly hnext, ?_⟩⟩
  intro ho
  exact (hbooks.step ho (Threads.next_move hnext)).quiet

/-- `GET_CHIP_ID` of cid 7. -/
def chipRequest : Request := { code := 2, cid := 7 }

/-- A request comes and goes before the drain. -/
theorem drain_quiet_sample :
    ∃ s : Threads 1, ((threadSystem 1).restrict Threads.Orderly).Reachable s ∧
      s.unload = .cleared true ∧ s.Quiet := by
  have hstart : ((threadSystem 1).restrict Threads.Orderly).Reachable
      (sampleThreads 1) := .init (sampleThreads_init 1)
  obtain ⟨s, hs, hat⟩ := hstart.exists_exec (f := fun s e => if s.Orderly e then s.next e else none)
    (l := [.request 0 chipRequest, .reopen 0 false, .check 0, .enter 0,
      .startDrain, .finish 0, .leave 0, .waitReturn, .unload, .clear])
    (p := fun s => s.unload = .cleared true)
    (fun s e s' h => by
      split at h
      · rename_i ho
        exact ⟨ho, h⟩
      · cases h)
    (by decide)
  exact ⟨s, hs, hat, (drain_quiet hs).1⟩

/-- A request is admitted behind the drain and uses the device before it
is closed; a live-inference run has the device when the drain returns. -/
theorem drain_overtaken : (∃ s : Threads 1, (threadSystem 1).Reachable s ∧
      s.unload = .cleared true ∧ s.tasks 0 = .driving true none ∧ ¬ s.Quiet) ∧
    ∃ s : Threads 2, (threadSystem 2).Reachable s ∧ s.unload = .waited true ∧
      s.tasks 0 = .driving false (some 4) ∧ ¬ s.Quiet := by
  constructor
  · have hstart : (threadSystem 1).Reachable (sampleThreads 1) :=
      .init (sampleThreads_init 1)
    exact hstart.exists_exec (fun _ _ _ h => h)
      (l := [.startDrain, .waitReturn, .unload, .clear, .request 0 chipRequest,
        .reopen 0 false, .check 0, .enter 0])
      (p := fun s => s.unload = .cleared true ∧ s.tasks 0 = .driving true none ∧ ¬ s.Quiet)
      (by decide)
  · have hstart : (threadSystem 2).Reachable (sampleThreads 2) :=
      .init (sampleThreads_init 2)
    exact hstart.exists_exec (fun _ _ _ h => h)
      (l := sampleSetup ++ [.startLive 0 1 1 2 10, .lookup 0, .enter 0, .startDrain, .waitReturn])
      (p := fun s => s.unload = .waited true ∧ s.tasks 0 = .driving false (some 4) ∧ ¬ s.Quiet)
      (by decide +kernel)

end AmbaVirt.Cavalry
