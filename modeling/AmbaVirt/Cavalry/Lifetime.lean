/-
How long the host copy of a registered DAG lives.

A run copies the template of its DAG under `g_dag_mutex` and lets go of
it; nothing keeps the host copy from being freed until the ioctl is over.
Four calls free host copies: `UNREGISTER_DAG`, `CLOSE_SESSION`, the
disconnect of a client and the eviction of a tenant, all of them without
a look at who uses the copy (`freed_in_use`).

`Spares` says of an event that what its call names (a DAG, a session, a
client, the index of a tenant) is not the DAG a run has looked up.
`host_copies_alive` is that a run of such events dispatches nothing that
is freed.
-/
import AmbaVirt.Cavalry.Threads

namespace AmbaVirt.Cavalry

open Lib Function

-- ==== the slots a call fills

theorem registerDag_keeps (s : Proxy) (a : RegisterArgs) {k : Fin 128}
    (hk : (s.dags k).inUse = true) : (s.apply (.registerDag a)).dags k = s.dags k := by
  rw [Proxy.apply]
  cases hcall : s.handleRegisterDag a with
  | error e => rfl
  | ok r =>
    obtain ⟨slot, phys, hslot, -, hs⟩ := handleRegisterDag_ok hcall
    change r.2.dags k = _
    rw [hs]
    refine update_of_ne ?_ _ _
    rintro rfl
    rw [find_free hslot] at hk
    cases hk

theorem apply_fills (s : Proxy) (op : ProxyOp) :
    ∃ slot, ∀ k, k ≠ slot → ((s.apply op).dags k).inUse = true → (s.dags k).inUse = true := by
  by_cases hreg : ∃ a, op = .registerDag a
  · obtain ⟨a, rfl⟩ := hreg
    rw [Proxy.apply]
    cases hcall : s.handleRegisterDag a with
    | error e => exact ⟨0, fun k _ hk => hk⟩
    | ok r =>
      obtain ⟨slot, phys, -, -, hs⟩ := handleRegisterDag_ok hcall
      refine ⟨slot, fun k hk huse => ?_⟩
      have hdags : r.2.dags k = s.dags k := by
        rw [hs]
        exact update_of_ne hk _ _
      rw [← hdags]
      exact huse
  · refine ⟨0, fun k _ hk => ?_⟩
    rcases apply_kept s (fun a ha => hreg ⟨a, ha⟩) k with h | ⟨-, h⟩
    · rw [← h]
      exact hk
    · rw [h] at hk
      cases hk

namespace Threads

variable {n : Nat} {s s' : Threads n}

-- ==== the numbers

/-- Every registered DAG has a host copy of its own that was not freed. -/
structure Numbered (s : Threads n) : Prop where
  below : ∀ k, (s.proxy.dags k).inUse = true → s.copy k < s.nextCopy
  own : ∀ k k', (s.proxy.dags k).inUse = true →
    (s.proxy.dags k').inUse = true → s.copy k = s.copy k' → k = k'
  kept : ∀ k, (s.proxy.dags k).inUse = true → s.freed (s.copy k) = false
  freed_below : ∀ c, s.freed c = true → c < s.nextCopy

theorem Numbered.congr (h : s.Numbered) (hproxy : s'.proxy = s.proxy)
    (hcopy : s'.copy = s.copy) (hnext : s'.nextCopy = s.nextCopy)
    (hfreed : s'.freed = s.freed) : s'.Numbered := by
  refine ⟨?_, ?_, ?_, ?_⟩
  · rw [hproxy, hcopy, hnext]
    exact h.below
  · rw [hproxy, hcopy]
    exact h.own
  · rw [hproxy, hcopy, hfreed]
    exact h.kept
  · rw [hnext, hfreed]
    exact h.freed_below

/-- A slot in use behind a call was in use before, with its copy, or it is
new. -/
theorem call_copy (s : Threads n) (op : ProxyOp) {k : Fin 128}
    (hk : ((s.call op).proxy.dags k).inUse = true) :
    (s.proxy.dags k).inUse = true ∧ (s.call op).copy k = s.copy k ∨
      (s.proxy.dags k).inUse = false ∧ (s.call op).copy k = s.nextCopy := by
  cases huse : (s.proxy.dags k).inUse with
  | true =>
    refine .inl ⟨rfl, ?_⟩
    unfold call
    dsimp only
    rw [if_neg]
    rintro ⟨hno, -⟩
    rw [huse] at hno
    cases hno
  | false =>
    refine .inr ⟨rfl, ?_⟩
    unfold call
    exact if_pos ⟨huse, hk⟩

theorem call_freed (s : Threads n) (op : ProxyOp) (c : Nat) :
    (s.call op).freed c = true ↔ s.freed c = true ∨
      s.cavOpen = true ∧ ∃ k, s.Drops op k ∧ s.copy k = c := by
  unfold call
  rw [Bool.or_eq_true, decide_eq_true_iff]

theorem Numbered.call (h : s.Numbered) (op : ProxyOp) : (s.call op).Numbered := by
  obtain ⟨slot, hslot⟩ := apply_fills s.view op
  rw [view_dags] at hslot
  refine ⟨fun k hk => ?_, fun k k' hk hk' he => ?_, fun k hk => ?_, fun c hc => ?_⟩
  · change _ < s.nextCopy + 1
    rcases call_copy s op hk with ⟨huse, hc⟩ | ⟨-, hc⟩
    · have := h.below k huse
      omega
    · omega
  · rcases call_copy s op hk with ⟨huse, hc⟩ | ⟨huse, hc⟩
    · rcases call_copy s op hk' with ⟨huse', hc'⟩ | ⟨huse', hc'⟩
      · exact h.own k k' huse huse' (by omega)
      · have := h.below k huse
        omega
    · rcases call_copy s op hk' with ⟨huse', hc'⟩ | ⟨huse', hc'⟩
      · have := h.below k' huse'
        omega
      -- Both are new, and a call fills one slot.
      have hone : ∀ j, (s.proxy.dags j).inUse = false →
          ((s.call op).proxy.dags j).inUse = true → j = slot := by
        intro j hj hjuse
        by_contra hne
        rw [hslot j hne hjuse] at hj
        cases hj
      rw [hone k huse hk, hone k' huse' hk']
  · by_contra hfreed
    rw [Bool.not_eq_false, call_freed] at hfreed
    rcases call_copy s op hk with ⟨huse, hc⟩ | ⟨-, hc⟩
    · rw [hc] at hfreed
      rcases hfreed with hold | ⟨-, k', hdrop, hk'⟩
      · rw [h.kept k huse] at hold
        cases hold
      -- A copy that was dropped is not that of a slot still in use.
      obtain rfl := h.own k' k hdrop.1 huse hk'
      have hgone : ((s.call op).proxy.dags k').inUse = false := hdrop.2
      rw [hgone] at hk
      cases hk
    · rw [hc] at hfreed
      rcases hfreed with hold | ⟨-, k', hdrop, hk'⟩
      · exact Nat.lt_irrefl _ (h.freed_below _ hold)
      · have := h.below k' hdrop.1
        omega
  · change c < s.nextCopy + 1
    rcases (call_freed s op c).mp hc with hold | ⟨-, k, hdrop, rfl⟩
    · exact Nat.lt_succ_of_lt (h.freed_below c hold)
    · exact Nat.lt_succ_of_lt (h.below k hdrop.1)

theorem Numbered.step (h : s.Numbered) {e : Event n} (hm : s.Move e s') : s'.Numbered := by
  cases hm with
  | serve i r op ht hcall => exact (h.call op).congr rfl rfl rfl rfl
  | outside op hcall => exact h.call op
  | _ => exact h.congr rfl rfl rfl rfl

-- ==== the copies

/-- No host copy that a descriptor names, dispatched or about to be, has
been freed. -/
def Alive (s : Threads n) : Prop :=
  ∀ i c, (s.tasks i).copy = some c → s.freed c = false

theorem Drops.mayDrop {op : ProxyOp} {k : Fin 128} (h : s.Drops op k) :
    op.mayDrop s.view (s.proxy.dags k) = true := by
  obtain ⟨huse, hgone⟩ := h
  rw [← view_dags] at huse ⊢
  by_cases hreg : ∃ a, op = .registerDag a
  · obtain ⟨a, rfl⟩ := hreg
    rw [registerDag_keeps _ a huse, huse] at hgone
    cases hgone
  · rcases apply_kept s.view (fun a ha => hreg ⟨a, ha⟩) k with hk | ⟨hD, -⟩
    · rw [hk, huse] at hgone
      cases hgone
    · exact hD

/-- With `/dev/cavalry` open, no call names a registered DAG that a run
has looked up and whose ioctl has not returned. -/
def Spares (s : Threads n) (e : Event n) : Prop :=
  ∀ op, s.callOf e = some op → s.cavOpen = true → ∀ k, (s.proxy.dags k).inUse = true →
    op.mayDrop s.view (s.proxy.dags k) = true → ∀ i, (s.tasks i).copy ≠ some (s.copy k)

instance (s : Threads n) (e : Event n) : Decidable (s.Spares e) :=
  decidable_of_iff ((s.callOf e).all fun op => decide (s.cavOpen = true →
    ∀ k, (s.proxy.dags k).inUse = true → op.mayDrop s.view (s.proxy.dags k) = true →
      ∀ i, (s.tasks i).copy ≠ some (s.copy k))) (by
      rw [Option.all_eq_true]
      simp only [decide_eq_true_iff]
      rfl)

/-- A thread whose copy is not freed yet is spared by the call. -/
theorem Alive.call (h : s.Alive) {e : Event n} (he : s.Spares e) {op : ProxyOp}
    (hcall : s.callOf e = some op) : (s.call op).Alive := by
  intro i c hc
  by_contra hfreed
  rw [Bool.not_eq_false, call_freed] at hfreed
  rcases hfreed with hold | ⟨hopen, k, hdrop, rfl⟩
  · rw [h i c hc] at hold
    cases hold
  · exact he op hcall hopen k hdrop.1 hdrop.mayDrop i hc

theorem Alive.setTask (h : s.Alive) {i : Fin n} {t : Task}
    (ht : ∀ c, t.copy = some c → s.freed c = false)
    (htasks : s'.tasks = (s.setTask i t).tasks) (hfreed : s'.freed = s.freed) :
    s'.Alive := by
  intro j c hc
  rw [htasks] at hc
  replace hc : (update s.tasks i t j).copy = some c := hc
  rw [hfreed]
  by_cases hj : j = i
  · subst hj
    rw [update_self] at hc
    exact ht c hc
  · rw [update_of_ne hj] at hc
    exact h j c hc

theorem Alive.step (h : s.Alive) (hn : s.Numbered) {e : Event n}
    (he : s.Spares e) (hm : s.Move e s') : s'.Alive := by
  cases hm with
  | accept i r hidle hd =>
    exact h.setTask (i := i) (t := .admitted r) (fun c hc => by cases hc) rfl rfl
  | live i d a b c hidle =>
    exact h.setTask (i := i) (t := .live d a b c) (fun c hc => by cases hc) rfl rfl
  | work i t o hbusy hcount hcopy hquiet =>
    refine h.setTask (i := i) (t := t) (fun c hc => ?_) rfl rfl
    rcases hcopy c hc with hold | ⟨k, huse, rfl⟩
    · exact h i c hold
    · exact hn.kept k huse
  | leave i ht hquiet =>
    exact h.setTask (i := i) (t := .idle) (fun c hc => by cases hc) rfl rfl
  | serve i r op ht hcall =>
    exact (h.call he hcall).setTask (i := i) (t := .leaving) (fun c hc => by cases hc) rfl rfl
  | outside op hcall => exact h.call he hcall
  | _ => exact h

end Threads

-- ==== the runs

/-- In every run whose calls name no DAG that a run has looked up, no host
copy is freed before the ioctl that uses it has returned. -/
theorem host_copies_alive {n : Nat} {s : Threads n}
    (h : ((threadSystem n).restrict Threads.Spares).Reachable s) :
    (∀ i counted c, s.tasks i = .driving counted (some c) → s.freed c = false) ∧ s.Alive := by
  have hinv : s.Numbered ∧ s.Alive := by
    refine h.induct (I := fun s => s.Numbered ∧ s.Alive) ?_ ?_
    · rintro s ⟨⟨-, -, -, hdags⟩, hidle, -, -, -, hfreed⟩
      refine ⟨⟨fun k hk => ?_, fun k k' hk => ?_, fun k hk => ?_, fun c hc => ?_⟩, fun i c hc => ?_⟩
      · rw [hdags k] at hk
        cases hk
      · rw [hdags k] at hk
        cases hk
      · exact hfreed _
      · rw [hfreed c] at hc
        cases hc
      · exact hfreed c
    · rintro s e s' - ⟨hn, ha⟩ ⟨he, hstep⟩
      have hm := Threads.next_move hstep
      exact ⟨hn.step hm, ha.step hn he hm⟩
  refine ⟨fun i counted c hi => hinv.2 i c ?_, hinv.2⟩
  rw [hi]
  rfl

def sampleRunRpc : Rpc :=
  { sessionId := 1, dagId := 1, barOffset := CAVALRY_RPC_ARENA_OFFSET
    arenaLen := 648 }

def sampleUnregister : List (Event 2) :=
  [.request 1 { code := 22, rpc := sampleRunRpc, cid := 10 }, .reopen 1 false,
    .check 1, .call 1 0 sampleArgs]

/-- While the driver runs the DAG its host copy is there. -/
theorem host_copies_alive_sample :
    ∃ s : Threads 2, ((threadSystem 2).restrict Threads.Spares).Reachable s ∧
      s.tasks 0 = .driving true (some 4) ∧ s.freed 4 = false := by
  have hstart : ((threadSystem 2).restrict Threads.Spares).Reachable
      (sampleThreads 2) := .init (sampleThreads_init 2)
  obtain ⟨s, hs, hat⟩ := hstart.exists_exec (f := fun s e => if s.Spares e then s.next e else none)
    (l := sampleSetup ++ sampleRequest 25 sampleRunRpc ++ [.lookup 0, .enter 0])
    (p := fun s => s.tasks 0 = .driving true (some 4))
    (fun s e s' h => by
      split at h
      · rename_i he
        exact ⟨he, h⟩
      · cases h)
    (by decide +kernel)
  exact ⟨s, hs, hat, (host_copies_alive hs).1 0 true 4 hat⟩

/-- The DAG is unregistered while the driver runs it. -/
theorem freed_in_use : ∃ s : Threads 2, (threadSystem 2).Reachable s ∧
      s.tasks 0 = .driving true (some 4) ∧ s.freed 4 = true := by
  have hstart : (threadSystem 2).Reachable (sampleThreads 2) :=
    .init (sampleThreads_init 2)
  exact hstart.exists_exec (fun _ _ _ h => h)
    (l := sampleSetup ++ sampleRequest 25 sampleRunRpc ++ [.lookup 0, .enter 0] ++ sampleUnregister)
    (p := fun s => s.tasks 0 = .driving true (some 4) ∧ s.freed 4 = true)
    (by decide +kernel)

end AmbaVirt.Cavalry
