/-
Who has an endpoint: the record a lease keeps of the endpoint it is
bound to against the record an endpoint keeps of the lease that owns it.

Binding happens in one place, the third loop of an allocation, on a lease
that is free. The second loop has by then looked at every lease once
(`AllocThread.Passed`). None of those it has passed can become bound: the
global lock keeps other allocations out, and nothing else binds.

All other calls only take away: a lease that is bound afterwards was
bound before (`Loosens`), and an endpoint is given to a lease by its
dispatcher only if the lease is bound to it.
-/
import AmbaVirt.Dma.Moves

namespace AmbaVirt.Dma

open Lib Lib.System

variable {s s' : Monitor} {l : Fin 4}

-- ==== the invariant

/-- The leases an allocation has found not to be bound to its endpoint. -/
def AllocThread.Passed (th : AllocThread) (l : Fin 4) : Prop :=
  match th.phase with
  | .owned _ => False
  | .bound rest => l ∉ rest
  | .free _ => True

structure Owned (s : Monitor) : Prop where
  free_unbound : ∀ l, (s.leases l).state = .free → (s.leases l).boundEndpoint = none
  owner_bound : ∀ ep l, s.owner ep = some l → (s.leases l).boundEndpoint = some ep
  bound_inj : ∀ ep l l', (s.leases l).boundEndpoint = some ep →
    (s.leases l').boundEndpoint = some ep → l = l'
  passed_unbound : ∀ th ep, s.alloc = some th → th.req.endpoint = some ep →
    ∀ l, th.Passed l → (s.leases l).boundEndpoint ≠ some ep

/-- The step binds nothing, and gives an endpoint only to a lease that is
bound to it. -/
structure Loosens (s s' : Monitor) : Prop where
  bound : ∀ l ep, (s'.leases l).boundEndpoint = some ep → (s.leases l).boundEndpoint = some ep
  free : ∀ l, (s'.leases l).state = .free →
    (s'.leases l).boundEndpoint = none ∨ (s.leases l).state = .free
  owner : ∀ ep l, s'.owner ep = some l → (s.leases l).boundEndpoint = some ep ∨ s.owner ep = some l
  kept : ∀ ep l, s'.owner ep = some l → (s'.leases l).boundEndpoint = (s.leases l).boundEndpoint
  alloc : s'.alloc = s.alloc

theorem Owned.loosens (h : Owned s) (hl : Loosens s s') : Owned s' where
  free_unbound l hfree := by
    rcases hl.free l hfree with hnone | hwas
    · exact hnone
    cases hb : (s'.leases l).boundEndpoint with
    | none => rfl
    | some ep =>
      have hsome := hl.bound l ep hb
      rw [h.free_unbound l hwas] at hsome
      cases hsome
  owner_bound ep l ho := by
    rw [hl.kept ep l ho]
    rcases hl.owner ep l ho with hb | hwas
    · exact hb
    · exact h.owner_bound ep l hwas
  bound_inj ep l l' hb hb' :=
    h.bound_inj ep l l' (hl.bound l ep hb) (hl.bound l' ep hb')
  passed_unbound th ep hth hep l hpass hb :=
    h.passed_unbound th ep (hl.alloc ▸ hth) hep l hpass (hl.bound l ep hb)

def Lease.Keeps (e e' : Lease) : Prop :=
  e'.boundEndpoint = e.boundEndpoint ∧ (e'.state = .free → e.state = .free)

theorem Lease.Keeps.refl (e : Lease) : e.Keeps e := ⟨rfl, id⟩

theorem Lease.Keeps.of_state {e e' : Lease} {q : LeaseState}
    (hb : e'.boundEndpoint = e.boundEndpoint) (hq : e'.state = q)
    (hne : q ≠ .free) : e.Keeps e' :=
  ⟨hb, fun hfree => absurd (hq.symm.trans hfree) hne⟩

theorem Loosens.of_keeps (hk : ∀ l, (s.leases l).Keeps (s'.leases l))
    (ho : ∀ ep l, s'.owner ep = some l → (s.leases l).boundEndpoint = some ep ∨ s.owner ep = some l)
    (ha : s'.alloc = s.alloc) : Loosens s s' where
  bound l _ h := (hk l).1 ▸ h
  free l h := .inr ((hk l).2 h)
  owner := ho
  kept _ l _ := (hk l).1
  alloc := ha

variable {f : Lease → Lease}

theorem Loosens.modify (hf : (s.leases l).Keeps (f (s.leases l)))
    (hl : s'.leases = (s.modify l f).leases) (ho : s'.owner = s.owner)
    (ha : s'.alloc = s.alloc) : Loosens s s' := by
  refine .of_keeps (fun j => ?_) ?_ ha
  · rw [hl]
    exact s.modify_rel l Lease.Keeps.refl hf j
  · intro ep j h
    exact .inr (ho ▸ h)

-- ==== step by step

variable {ep : Endpoint}

theorem disown_ne {j : Fin 4} (h : (s.disown l).owner ep = some j) :
    j ≠ l ∧ s.owner ep = some j := by
  dsimp only [Monitor.disown] at h
  split at h
  case isTrue => cases h
  case isFalse hne =>
  refine ⟨?_, h⟩
  rintro rfl
  exact hne h

/-- A lease that loses its endpoints, and its binding if it is freed. -/
theorem disown_loosens (hb : ∀ e, (f e).boundEndpoint = none ∨
      (f e).boundEndpoint = e.boundEndpoint ∧ (f e).state ≠ .free) :
    Loosens s ((s.disown l).modify l f) := by
  have hof : ∀ j, j ≠ l → ((s.disown l).modify l f).leases j = s.leases j :=
    fun j hj => Monitor.modify_of_ne _ l hj f
  have hself : ((s.disown l).modify l f).leases l = f (s.leases l) :=
    Monitor.modify_self _ l f
  constructor
  · intro j ep h
    by_cases hj : j = l
    · rw [hj, hself] at h
      rcases hb (s.leases l) with hnone | ⟨hkept, -⟩
      · rw [hnone] at h
        cases h
      · rw [hj, ← hkept]
        exact h
    · rwa [hof j hj] at h
  · intro j h
    by_cases hj : j = l
    · rw [hj, hself] at h ⊢
      rcases hb (s.leases l) with hnone | ⟨-, hheld⟩
      · exact .inl hnone
      · exact absurd h hheld
    · rw [hof j hj] at h
      exact .inr h
  · intro ep j h
    exact .inr (disown_ne h).2
  · intro ep j h
    rw [hof j (disown_ne h).1]
  · rfl

/-- The endpoint goes to a lease that is bound to it. -/
theorem give_loosens (hbound : (s.leases l).boundEndpoint = some ep)
    (hf : (s.leases l).Keeps (f (s.leases l)))
    (hl : s'.leases = (s.modify l f).leases)
    (ho : s'.owner = (s.give l (some ep)).owner) (ha : s'.alloc = s.alloc) :
    Loosens s s' := by
  refine .of_keeps (fun j => ?_) ?_ ha
  · rw [hl]
    exact s.modify_rel l Lease.Keeps.refl hf j
  intro x j h
  rw [ho] at h
  dsimp only [Monitor.give] at h
  split at h
  case isTrue hx =>
    cases hx
    cases h
    exact .inl hbound
  case isFalse => exact .inr h

variable {th : AllocThread}

theorem visit_go_passed {next : AllocPhase} (h : Owned s)
    (hth : s.alloc = some th) (hv : s.visit th.req th.phase = .go next)
    (hep : th.req.endpoint = some ep) (j : Fin 4)
    (hpass : AllocThread.Passed { th with phase := next } j) :
    (s.leases j).boundEndpoint ≠ some ep := by
  have hold := h.passed_unbound th ep hth hep j
  unfold AllocThread.Passed at hold hpass
  revert hv hold
  generalize th.phase = phase
  intro hv hold
  unfold Monitor.visit at hv
  split at hv
  -- The first loop is over: nothing has been passed yet.
  case h_1 =>
    cases hv
    unfold AllocReq.second at hpass
    rw [if_neg (by rw [hep]; exact Option.some_ne_none ep)] at hpass
    exact absurd (List.mem_finRange j) hpass
  case h_2 l rest =>
    split at hv
    case isTrue => split at hv <;> cases hv
    case isFalse =>
      cases hv
      exact hpass.elim
  case h_3 => exact hold List.not_mem_nil
  -- The lease just looked at is free, and so unbound, or bound elsewhere.
  case h_4 l rest =>
    split at hv
    case isTrue => cases hv
    case isFalse hskip =>
    cases hv
    by_cases hj : j = l
    · intro hb
      rw [hj] at hb
      refine hskip ⟨fun hfree => ?_, hb.trans hep.symm⟩
      rw [h.free_unbound l hfree] at hb
      cases hb
    · exact hold fun hmem => (List.mem_cons.mp hmem).elim hj hpass
  case h_5 => cases hv
  case h_6 l rest =>
    split at hv
    case isTrue => cases hv
    case isFalse => exact hold trivial

theorem visit_grant (hv : s.visit th.req th.phase = .grant l) :
    (s.leases l).state = .free ∧ ∀ j, th.Passed j := by
  unfold AllocThread.Passed
  revert hv
  generalize th.phase = phase
  intro hv
  unfold Monitor.visit at hv
  split at hv
  case h_2 => split at hv <;> [split at hv; skip] <;> cases hv
  case h_4 => split at hv <;> cases hv
  case h_6 =>
    split at hv
    case isTrue hfree =>
      cases hv
      exact ⟨hfree, fun _ => trivial⟩
    case isFalse => cases hv
  all_goals cases hv

theorem Owned.thread (h : Owned s) (a : Option AllocThread)
    (hpass : ∀ th ep, a = some th → th.req.endpoint = some ep →
      ∀ l, th.Passed l → (s.leases l).boundEndpoint ≠ some ep) :
    Owned { s with alloc := a } :=
  ⟨h.free_unbound, h.owner_bound, h.bound_inj, hpass⟩

theorem first_not_passed {r : AllocReq} (hep : r.endpoint = some ep) (l : Fin 4) :
    ¬ AllocThread.Passed ⟨r, r.first⟩ l := by
  have hsecond : r.second = .bound (List.finRange 4) :=
    if_neg (by rw [hep]; exact Option.some_ne_none ep)
  unfold AllocReq.first
  by_cases hcid : r.vsockCid = 0
  · rw [if_pos hcid, hsecond]
    exact not_not.mpr (List.mem_finRange l)
  · rw [if_neg hcid]
    exact id

theorem Owned.grant (h : Owned s) (hth : s.alloc = some th)
    (hv : s.visit th.req th.phase = .grant l) (capability : UInt64)
    (key : List UInt8) :
    Owned (s.grant l th.req capability key) := by
  obtain ⟨hfree, hall⟩ := visit_grant hv
  have hself := s.grant_self l th.req capability key
  have hof : ∀ j, j ≠ l → (s.grant l th.req capability key).leases j = s.leases j :=
    fun j hj => s.grant_of_ne l hj ..
  have hclear : ∀ ep, th.req.endpoint = some ep → ∀ j, (s.leases j).boundEndpoint ≠ some ep :=
    fun ep hep j => h.passed_unbound th ep hth hep j (hall j)
  refine ⟨?_, ?_, ?_, nofun⟩
  · intro j hj
    by_cases hjl : j = l
    · rw [hjl, hself] at hj
      cases hj
    · rw [hof j hjl] at hj ⊢
      exact h.free_unbound j hj
  · intro ep j ho
    have ho : (if th.req.endpoint = some ep then some l else s.owner ep) = some j := ho
    by_cases hep : th.req.endpoint = some ep
    · rw [if_pos hep] at ho
      cases ho
      rw [hself]
      exact hep
    · rw [if_neg hep] at ho
      have hb := h.owner_bound ep j ho
      have hjl : j ≠ l := by
        rintro rfl
        rw [h.free_unbound j hfree] at hb
        cases hb
      rwa [hof j hjl]
  · intro ep i j hi hj
    by_cases hil : i = l
    · by_cases hjl : j = l
      · rw [hil, hjl]
      · rw [hil, hself] at hi
        rw [hof j hjl] at hj
        exact absurd hj (hclear ep hi j)
    · rw [hof i hil] at hi
      by_cases hjl : j = l
      · rw [hjl, hself] at hj
        exact absurd hi (hclear ep hj i)
      · rw [hof j hjl] at hj
        exact h.bound_inj ep i j hi hj

theorem Owned.moves {e : Event} {new : List Effect} (h : Owned s)
    (hm : Moves s e new s') : Owned s' := by
  cases hm with
  | refused => exact h
  | begin_ =>
    refine h.thread _ ?_
    rintro _ ep ⟨⟩ hep l hpass
    exact absurd hpass (first_not_passed hep l)
  | go hth hv =>
    refine h.thread _ ?_
    rintro _ ep ⟨⟩ hep l hpass
    exact visit_go_passed h hth hv hep l hpass
  | done => exact h.thread none nofun
  | grant hth hv => exact h.grant hth hv _ _
  | activate hopen =>
    exact h.loosens (.modify (f := Lease.activated)
      (.of_state (q := .active) rfl rfl (by decide)) rfl rfl rfl)
  | take hopen hcheck =>
    exact h.loosens (give_loosens (f := Lease.activated) (checkRequest_ok hcheck).bound
      (.of_state (q := .active) rfl rfl (by decide)) rfl rfl rfl)
  | submit hopen hcheck =>
    exact h.loosens (give_loosens (checkRequest_ok hcheck).bound
      (.of_state (q := .active) rfl rfl (by decide)) (submit_leases _ _ _) rfl rfl)
  | finish =>
    exact h.loosens (.modify (f := Lease.completed) ⟨rfl, id⟩ rfl rfl rfl)
  | timeOut =>
    exact h.loosens (.modify (f := Lease.timedOut) ⟨rfl, id⟩ rfl rfl rfl)
  | @respond w =>
    exact h.loosens (.modify (f := fun e => e.responded w.req.cookie) ⟨rfl, id⟩ rfl rfl rfl)
  | drain | sleep =>
    exact h.loosens (.modify (f := Lease.drained)
      (.of_state (q := .draining) rfl rfl (by decide)) rfl rfl rfl)
  | forceDrain =>
    exact h.loosens (.modify (f := Lease.forceDrained)
      (.of_state (q := .draining) rfl rfl (by decide)) rfl rfl rfl)
  | drainWoken =>
    exact h.loosens (.modify (f := Lease.waited) ⟨rfl, id⟩ rfl rfl rfl)
  | drainTimedOut =>
    exact h.loosens (.of_keeps (fun _ => .refl _) (fun _ _ => .inr) rfl)
  | release => exact h.loosens (disown_loosens fun _ => .inl rfl)
  | quarantine =>
    refine h.loosens (disown_loosens fun e => .inr ⟨rfl, ?_⟩)
    intro hfree
    cases hfree
  | pardon => exact h.loosens (disown_loosens fun _ => .inl rfl)

theorem reachable_owned {c : Config} {h : Host}
    (hr : (system c).Reachable h) : Owned h.monitor := by
  refine hr.induct (I := fun h => Owned h.monitor) ?_ ?_
  · rintro _ rfl
    have hnone : ∀ l, (c.lease l).boundEndpoint = none := by
      intro l
      rw [lease_fresh]
    refine ⟨fun l _ => hnone l, nofun, fun ep l _ hb => ?_, nofun⟩
    cases (hnone l).symm.trans hb
  · intro h e h' _ hI hstep
    obtain ⟨new, hmoves, -⟩ := exec_moves hstep
    exact hI.moves hmoves

-- ==== exclusivity

/-- Endpoint exclusivity: in every state the monitor can reach, leases
that are not free are bound to different endpoints, an endpoint is owned
by a lease that is not free and bound to it, and a transfer is programmed
on a channel of the endpoint its lease is bound to. -/
theorem endpoints_exclusive {c : Config} {h : Host} (hr : (system c).Reachable h) :
    (∀ l l' ep, l ≠ l' → (h.monitor.leases l).state ≠ .free → (h.monitor.leases l').state ≠ .free →
      (h.monitor.leases l).boundEndpoint = some ep →
      (h.monitor.leases l').boundEndpoint ≠ some ep) ∧
    (∀ ep l, h.monitor.owner ep = some l → (h.monitor.leases l).state ≠ .free ∧
        (h.monitor.leases l).boundEndpoint = some ep) ∧
    ∀ e t, h.Programs e t → (h.monitor.leases t.lease).boundEndpoint = some t.endpoint ∧
        h.monitor.chans t.endpoint t.dir = true := by
  have hown := reachable_owned hr
  refine ⟨?_, ?_, ?_⟩
  · intro l l' ep hne _ _ hb hb'
    exact hne (hown.bound_inj ep l l' hb hb')
  · intro ep l ho
    have hb := hown.owner_bound ep l ho
    refine ⟨fun hfree => ?_, hb⟩
    rw [hown.free_unbound l hfree] at hb
    cases hb
  · intro e t ht
    obtain ⟨-, req, hadm, -⟩ := ht.admitted
    exact ⟨hadm.bound, hadm.chans t.dir⟩

/-- CID 7 has UART2 and CID 8 gets UART3; the second allocation needs one
visit more. -/
theorem endpoints_exclusive_sample : ∃ h, (system (sampleConfig (some sampleMap))).Reachable h ∧
      h.monitor.owner .uart2 = some 0 ∧
      (h.monitor.leases 0).boundEndpoint = some .uart2 ∧
      (h.monitor.leases 1).state = .starting ∧
      (h.monitor.leases 1).boundEndpoint ≠ some .uart2 := by
  obtain ⟨h, hr, howner, hstate⟩ := (boot_reachable _).exists_exec
    (M := system (sampleConfig (some sampleMap))) (fun _ _ _ => id)
    (l := sampleAlloc 2 7 0x51 ++ sampleAlloc 3 8 0x52 ++ [.allocStep 0x52 []])
    (p := fun h => h.monitor.owner .uart2 = some 0 ∧
      (h.monitor.leases 1).state = .starting) (by decide)
  obtain ⟨hbound, hheld⟩ := (endpoints_exclusive hr).2.1 .uart2 0 howner
  refine ⟨h, hr, howner, hheld, hstate, ?_⟩
  refine (endpoints_exclusive hr).1 0 1 .uart2 (by decide) hbound ?_ hheld
  rw [hstate]
  decide

end AmbaVirt.Dma
