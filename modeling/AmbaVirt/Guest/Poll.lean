/-
`iav_virt_poll` and `iav_poll_work` (amba-iav/iav_virt.c): the callers of
poll on an open file and the worker that asks the broker for them.

# Who queues the worker

A call that finds `armed` down puts it up and queues the worker; every
other call relies on the worker being there. But the worker takes the
flag down only some time after it has left its loop, and a call that
finds it up in between waits for nobody (`poll_lost`).
-/
import AmbaVirt.Basic
import AmbaVirt.Lib.Trans

namespace AmbaVirt.Guest

open Lib Lib.System Function

def IAV_POLL_IDLE_JIFFIES (HZ : Nat) : Nat := 2 * HZ

/-- Where the worker is: at the condition of its loop, at the idle check,
in the request to the broker, or behind the loop. -/
inductive Worker
  | off | test | check | call | left | cleared
  deriving DecidableEq

/-- Where a caller is, and when it polled: behind the store of
`last_poll`, behind an exchange that found 0, or asleep. -/
inductive Caller
  | away
  | stamped (at_ : Nat)
  | armed (at_ : Nat)
  | waiting (at_ : Nat)
  deriving DecidableEq

/-- An open file with `n` callers. -/
structure PollFile (n : Nat) where
  HZ : Nat
  jiffies : Nat := 0
  lastPoll : Nat := 0
  armed : Bool := false
  queued : Bool := false
  worker : Worker := .off
  callers : Fin n → Caller := fun _ => .away

inductive PollEvent (n : Nat)
  | tick (k : Nat)
  | store (i : Fin n)
  | exchange (i : Fin n)
  | queueWork (i : Fin n)
  | wake (i : Fin n)
  | work

variable {n : Nat} {s s' : PollFile n} {i : Fin n}

namespace PollFile

/-- The next step of the worker. A reply of the broker is not told from
an error: either way the loop goes on. -/
def work (s : PollFile n) : PollFile n :=
  match s.worker with
  | .off => if s.queued then { s with queued := false, worker := .test } else s
  | .test => { s with worker := if s.armed then .check else .left }
  | .check =>
    { s with worker := if s.jiffies > s.lastPoll + IAV_POLL_IDLE_JIFFIES s.HZ then .left
                      else .call }
  | .call => { s with worker := .test }
  | .left => { s with worker := .cleared, armed := false }
  | .cleared => { s with worker := .off }

/-- A step of `iav_virt_poll` moves caller `i` on. -/
def apply (s : PollFile n) : PollEvent n → PollFile n
  | .tick k => { s with jiffies := s.jiffies + k }
  | .store i =>
    match s.callers i with
    | .away => { s with lastPoll := s.jiffies, callers := update s.callers i (.stamped s.jiffies) }
    | _ => s
  | .exchange i =>
    match s.callers i with
    | .stamped t =>
      { s with armed := true
               callers := update s.callers i (if s.armed then .waiting t else .armed t) }
    | _ => s
  | .queueWork i =>
    match s.callers i with
    | .armed t => { s with queued := true, callers := update s.callers i (.waiting t) }
    | _ => s
  | .wake i =>
    match s.callers i with
    | .waiting _ => { s with callers := update s.callers i .away }
    | _ => s
  | .work => s.work

/-- The worker is queued or in its loop. -/
def Working (s : PollFile n) : Prop :=
  s.queued ∨ s.worker = .test ∨ s.worker = .check ∨ s.worker = .call
  deriving Decidable

/-- Nobody who polled within the idle limit waits without a worker. -/
def Served (s : PollFile n) : Prop :=
  ∀ i t, s.callers i = .waiting t → s.jiffies ≤ t + IAV_POLL_IDLE_JIFFIES s.HZ → s.Working

end PollFile

def pollSystem (n : Nat) : System (PollFile n) (PollEvent n) where
  init s := ∃ HZ, s = { HZ }
  step s e s' := s' = s.apply e

-- ==== no lost poll

/-- An exchange that finds the flag up finds the worker at work. -/
def Calm (s : PollFile n) : PollEvent n → Prop
  | .exchange _ => s.armed → s.Working
  | _ => True

/-- While the flag is up one party is responsible: a caller about to
queue the worker, the queue, or the worker. -/
structure Sound (s : PollFile n) : Prop where
  past : s.lastPoll ≤ s.jiffies
  stamp : ∀ i t, s.callers i = .stamped t ∨ s.callers i = .armed t ∨ s.callers i = .waiting t →
    t ≤ s.lastPoll
  down : s.armed = false → s.queued = false ∧ (s.worker = .off ∨ s.worker = .cleared) ∧
    ∀ i t, s.callers i ≠ .armed t
  queue : s.queued → (s.worker = .off ∨ s.worker = .cleared) ∧ ∀ i t, s.callers i ≠ .armed t
  caller : ∀ i t, s.callers i = .armed t → (s.worker = .off ∨ s.worker = .cleared) ∧
    ∀ j u, s.callers j = .armed u → j = i
  served : s.Served

/-- While the worker is between its queue and its end, nobody else is
responsible. -/
theorem Sound.busy (h : Sound s) (hoff : s.worker ≠ .off) (hcleared : s.worker ≠ .cleared) :
    s.armed = true ∧ s.queued = false ∧ ∀ i t, s.callers i ≠ .armed t := by
  have hidle : ¬ (s.worker = .off ∨ s.worker = .cleared) := not_or.mpr ⟨hoff, hcleared⟩
  refine ⟨?_, ?_, fun i t hi => hidle (h.caller i t hi).1⟩
  · by_contra hdown
    exact hidle (h.down (Bool.eq_false_of_not_eq_true hdown)).2.1
  · by_contra hq
    exact hidle (h.queue (Bool.eq_true_of_not_eq_false hq)).1

theorem Sound.of_busy (past : s.lastPoll ≤ s.jiffies)
    (stamp : ∀ i t, s.callers i = .stamped t ∨ s.callers i = .armed t ∨ s.callers i = .waiting t →
      t ≤ s.lastPoll)
    (hbusy : s.armed = true ∧ s.queued = false ∧ ∀ i t, s.callers i ≠ .armed t)
    (served : s.Served) : Sound s where
  past
  stamp
  down hdown := absurd (hbusy.1.symm.trans hdown) nofun
  queue hq := absurd (hq.symm.trans hbusy.2.1) nofun
  caller i t hi := absurd hi (hbusy.2.2 i t)
  served

theorem Sound.work (h : Sound s) : Sound s.work := by
  unfold PollFile.work
  split
  case h_1 hw =>
    split
    case isTrue hq =>
      have hup : s.armed = true := by
        by_contra hdown
        have hnone := (h.down (Bool.eq_false_of_not_eq_true hdown)).1
        exact absurd (hq.symm.trans hnone) nofun
      exact .of_busy h.past h.stamp ⟨hup, rfl, (h.queue hq).2⟩ fun _ _ _ _ => .inr (.inl rfl)
    case isFalse => exact h
  case h_2 hw =>
    have hbusy := h.busy (by simp [hw]) (by simp [hw])
    refine .of_busy h.past h.stamp hbusy fun _ _ _ _ => .inr (.inr (.inl ?_))
    exact if_pos hbusy.1
  case h_3 hw =>
    refine .of_busy h.past h.stamp (h.busy (by simp [hw]) (by simp [hw])) fun i t hi hle => ?_
    have hlast := h.stamp i t (.inr (.inr hi))
    -- a caller that polled within the limit keeps the worker in the loop
    have hgo : ¬ s.jiffies > s.lastPoll + IAV_POLL_IDLE_JIFFIES s.HZ := by
      dsimp only at hle
      omega
    exact .inr (.inr (.inr (if_neg hgo)))
  case h_4 hw =>
    exact .of_busy h.past h.stamp (h.busy (by simp [hw]) (by simp [hw]))
      fun _ _ _ _ => .inr (.inl rfl)
  case h_5 hw =>
    obtain ⟨-, hq, hno⟩ := h.busy (by simp [hw]) (by simp [hw])
    refine ⟨h.past, h.stamp, fun _ => ⟨hq, .inr rfl, hno⟩,
      fun hq' => absurd (hq'.symm.trans hq) nofun, fun i t hi => absurd hi (hno i t),
      fun i t hi hle => ?_⟩
    -- the worker has left its loop, so nobody is waiting for it
    have hwork := h.served i t hi hle
    simp [PollFile.Working, hq, hw] at hwork
  case h_6 hw =>
    refine ⟨h.past, h.stamp, fun hdown => ⟨(h.down hdown).1, .inl rfl, (h.down hdown).2.2⟩,
      fun hq => ⟨.inl rfl, (h.queue hq).2⟩, fun i t hi => ⟨.inl rfl, (h.caller i t hi).2⟩, ?_⟩
    intro i t hi hle
    have hwork := h.served i t hi hle
    simp only [PollFile.Working, hw, reduceCtorEq, or_false] at hwork
    exact .inl hwork

/-- A caller that moves on without arming changes nobody's duty. -/
theorem Sound.moved {c : Caller} {last : Nat} (h : Sound s) (hlast : s.lastPoll ≤ last)
    (hpast : last ≤ s.jiffies) (harm : ∀ t, c ≠ .armed t)
    (hstamp : ∀ t, c = .stamped t ∨ c = .waiting t → t ≤ last)
    (hwait : ∀ t, c = .waiting t → s.Working) :
    Sound { s with lastPoll := last, callers := update s.callers i c } := by
  have harmed : ∀ j t, update s.callers i c j = .armed t → s.callers j = .armed t := by
    grind [update_apply]
  refine ⟨hpast, ?_, ?_, ?_, ?_, ?_⟩
  · have := h.stamp
    grind [update_apply]
  · intro hdown
    obtain ⟨hq, hidle, hno⟩ := h.down hdown
    exact ⟨hq, hidle, fun j t hj => hno j t (harmed j t hj)⟩
  · intro hq
    exact ⟨(h.queue hq).1, fun j t hj => (h.queue hq).2 j t (harmed j t hj)⟩
  · intro j t hj
    obtain ⟨hidle, hone⟩ := h.caller j t (harmed j t hj)
    exact ⟨hidle, fun k u hk => hone k u (harmed k u hk)⟩
  · intro j t hj hle
    rcases eq_or_ne j i with rfl | hji
    · exact hwait t (update_self j c s.callers ▸ hj)
    · exact h.served j t (update_of_ne hji c s.callers ▸ hj) hle

/-- The caller that puts the flag up is the one responsible. -/
theorem Sound.arms {t : Nat} (h : Sound s) (hi : s.callers i = .stamped t)
    (hdown : s.armed = false) :
    Sound { s with armed := true, callers := update s.callers i (.armed t) } := by
  obtain ⟨hq, hidle, hno⟩ := h.down hdown
  have hstamp := h.stamp
  have hone : ∀ j u, update s.callers i (.armed t) j = .armed u → j = i := by
    grind [update_apply]
  refine ⟨h.past, ?_, nofun, fun hq' => absurd (hq'.symm.trans hq) nofun, ?_, ?_⟩
  · grind [update_apply]
  · exact fun j u hj => ⟨hidle, fun k v hk => (hone k v hk).trans (hone j u hj).symm⟩
  · intro j u hj hle
    exact h.served j u (by grind [update_apply]) hle

/-- It queues the worker, and is then one of those who wait. -/
theorem Sound.queues {t : Nat} (h : Sound s) (hi : s.callers i = .armed t) :
    Sound { s with queued := true, callers := update s.callers i (.waiting t) } := by
  obtain ⟨hidle, hone⟩ := h.caller i t hi
  have hstamp := h.stamp
  have hno : ∀ j u, update s.callers i (.waiting t) j ≠ .armed u := by
    grind [update_apply]
  refine ⟨h.past, ?_, fun hdown => absurd hi ((h.down hdown).2.2 i t), fun _ => ⟨hidle, hno⟩,
    fun j u hj => absurd hj (hno j u), fun _ _ _ _ => .inl rfl⟩
  grind [update_apply]

theorem Sound.apply {e : PollEvent n} (h : Sound s) (hC : Calm s e) : Sound (s.apply e) := by
  cases e with
  | tick k =>
    refine ⟨Nat.le_add_right_of_le h.past, h.stamp, h.down, h.queue, h.caller, fun i t hi hle => ?_⟩
    exact h.served i t hi (Nat.le_of_add_right_le hle)
  | work => exact h.work
  | store i =>
    simp only [PollFile.apply]
    split
    · refine h.moved h.past le_rfl nofun ?_ nofun
      rintro t (ht | ht) <;> cases ht
      exact le_rfl
    · exact h
  | exchange i =>
    simp only [PollFile.apply]
    split
    case h_2 => exact h
    case h_1 t hi =>
    cases hup : s.armed with
    | false => exact h.arms hi hup
    | true =>
      have hmoved : Sound { s with callers := update s.callers i (.waiting t) } := by
        refine h.moved le_rfl h.past nofun ?_ fun _ _ => hC hup
        rintro u (hu | hu) <;> cases hu
        exact h.stamp i t (.inl hi)
      rwa [hup] at hmoved
  | queueWork i =>
    simp only [PollFile.apply]
    split
    case h_1 t hi => exact h.queues hi
    case h_2 => exact h
  | wake i =>
    simp only [PollFile.apply]
    split
    · refine h.moved le_rfl h.past nofun ?_ nofun
      rintro t (ht | ht) <;> cases ht
    · exact h

/-- In every run in which an exchange that finds the flag up finds the
worker at work, nobody who polled within the limit waits for nobody. -/
theorem polls_served (h : ((pollSystem n).restrict Calm).Reachable s) : s.Served := by
  have hsound : Sound s := by
    refine h.induct ?_ ?_
    · intro s hs
      obtain ⟨HZ, rfl⟩ := hs
      constructor <;> simp [PollFile.Served]
    · intro s e s' _ ih hstep
      obtain ⟨hC, rfl⟩ := hstep
      exact ih.apply hC
  exact hsound.served

/-- One caller polls and waits, with the worker queued. -/
theorem polls_served_one : ((((⟨250, 0, 0, false, false, .off, fun _ => .away⟩ : PollFile 1).apply
    (.store 0)).apply (.exchange 0)).apply (.queueWork 0)).Served :=
  polls_served (.step (e := .queueWork 0) (.step (e := .exchange 0) (.step (e := .store 0)
    (.init ⟨250, rfl⟩) ⟨trivial, rfl⟩) ⟨fun h => absurd h (by decide), rfl⟩) ⟨trivial, rfl⟩)

/-- Two seconds after caller 0 the worker leaves its loop. Caller 1 polls
before the flag is down, and waits without a worker. -/
theorem poll_lost : ∃ s, (pollSystem 2).Reachable s ∧ s.callers 1 = .waiting s.jiffies ∧
    s.armed = false ∧ ¬ s.Served := by
  have hinit : (pollSystem 2).Reachable { HZ := 100 } := .init ⟨100, rfl⟩
  obtain ⟨s, hs, hwait, hdown, hno⟩ := hinit.exists_exec (f := fun s e => some (s.apply e))
    (fun _ _ _ h => (Option.some.inj h).symm)
    (p := fun s => s.callers 1 = .waiting s.jiffies ∧ s.armed = false ∧ ¬ s.Working)
    (l := [.store 0, .exchange 0, .queueWork 0, .work, .work, .tick 201, .work, .store 1,
      .exchange 1, .work]) (by decide +kernel)
  exact ⟨s, hs, hwait, hdown, fun h => hno (h 1 _ hwait (Nat.le_add_right ..))⟩

end AmbaVirt.Guest
