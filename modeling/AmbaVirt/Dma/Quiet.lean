/-
Leases that are released only while nothing is in flight: what is
outstanding at the engine against what the record of a lease says, and
what a free lease still has of its last tenant.

# The condition

A release looks neither at `in_flight` nor at who sleeps in the lease.
`Unhurried` is that it is called while the flag is down. Then the flag is
up exactly while one dispatcher sleeps in the lease (`Waits`), and a
transfer is at the engine only while it is up, with its completion not
yet signalled (`Flies`): the watchdog and a forced drain signal it after
they have stopped the channels of the endpoints the lease owns.

# What is left behind

A release clears the record and the slice. A quarantine release clears
the endpoint and the key alone and does not ask whether the slice could
be cleared; `Careful` excludes it.
-/
import AmbaVirt.Dma.Owner
import AmbaVirt.Lib.Count

namespace AmbaVirt.Dma

open Lib Lib.System

variable {s s' : Monitor} {l : Fin 4}

-- ==== the condition

/-- A release that goes through finds nothing in flight. -/
def Unhurried (h : Host) : Event → Prop
  | .release id epoch _ => ∀ l, Monitor.lookup id = some l →
      ¬ h.monitor.Stale l epoch → (h.monitor.leases l).inFlight = false
  | _ => True

-- ==== the invariant

/-- States a dispatcher cannot be asleep in. -/
def Lease.Parked (e : Lease) : Prop :=
  e.state = .free ∨ e.state = .starting ∨ e.state = .quarantined

/-- The in-flight flag counts the sleeping dispatchers of a lease. -/
structure Waits (s : Monitor) : Prop where
  count : ∀ l, s.waiting.countP (·.lease = l) = if (s.leases l).inFlight then 1 else 0
  cookie : ∀ w ∈ s.waiting, (s.leases w.lease).activeCookie = w.req.cookie
  parked : ∀ l, (s.leases l).Parked → (s.leases l).inFlight = false

/-- A transfer at the engine and the record of its lease. -/
structure Flying (s : Monitor) (t : Transfer) : Prop where
  inFlight : (s.leases t.lease).inFlight = true
  pending : (s.leases t.lease).xferDone = 0
  cookie : (s.leases t.lease).activeCookie = t.cookie
  dir : (s.leases t.lease).activeOperation = some t.dir
  owner : s.owner t.endpoint = some t.lease
  chans : s.chans t.endpoint t.dir = true

structure Flies (s : Monitor) : Prop where
  flying : ∀ t ∈ s.engine, Flying s t
  single : s.engine.Pairwise fun t t' => t.lease ≠ t'.lease

-- ==== sleeping dispatchers

theorem Waits.none_waiting (h : Waits s) (hidle : (s.leases l).inFlight = false) {w : Waiter}
    (hw : w ∈ s.waiting) : w.lease ≠ l := by
  intro hl
  have hcount := h.count l
  rw [hidle, if_neg Bool.false_ne_true, List.countP_eq_zero] at hcount
  exact hcount w hw (decide_eq_true hl)

variable {f : Lease → Lease}

/-- Nobody goes to sleep or wakes up; a record may change what it says
about its transfer while it has none. -/
theorem Waits.modify (h : Waits s) (hw : s'.waiting = s.waiting)
    (hl : s'.leases = (s.modify l f).leases)
    (hin : (f (s.leases l)).inFlight = (s.leases l).inFlight)
    (hcookie : (s.leases l).inFlight = true →
      (f (s.leases l)).activeCookie = (s.leases l).activeCookie)
    (hparked : (f (s.leases l)).Parked → (f (s.leases l)).inFlight = false) :
    Waits s' := by
  have hself : s'.leases l = f (s.leases l) := by
    rw [hl, Monitor.modify_self]
  have hof : ∀ j, j ≠ l → s'.leases j = s.leases j := by
    intro j hj
    rw [hl, s.modify_of_ne l hj]
  constructor
  · intro j
    rw [hw, h.count j]
    by_cases hj : j = l
    · rw [hj, hself, hin]
    · rw [hof j hj]
  · intro w hmem
    rw [hw] at hmem
    by_cases hj : w.lease = l
    · cases hfl : (s.leases l).inFlight with
      | false => exact absurd hj (h.none_waiting hfl hmem)
      | true =>
        rw [hj, hself, hcookie hfl, ← hj]
        exact h.cookie w hmem
    · rw [hof _ hj]
      exact h.cookie w hmem
  · intro j hj
    by_cases hjl : j = l
    · rw [hjl, hself] at hj ⊢
      exact hparked hj
    · rw [hof j hjl] at hj ⊢
      exact h.parked j hj

variable {t : Transfer}

theorem Waits.submit {req : Request} (h : Waits s)
    (hidle : (s.leases l).inFlight = false) (hcookie : t.cookie = req.cookie)
    (hw : s'.waiting = ⟨l, req⟩ :: s.waiting)
    (hl : s'.leases = (s.modify l fun e => (e.activated).submitted t).leases) :
    Waits s' := by
  have hself : s'.leases l = ((s.leases l).activated).submitted t := by
    rw [hl, Monitor.modify_self]
  have hof : ∀ j, j ≠ l → s'.leases j = s.leases j := by
    intro j hj
    rw [hl, s.modify_of_ne l hj]
  constructor
  · intro j
    rw [hw, List.countP_cons, h.count j]
    by_cases hj : j = l
    · rw [hj, hself, hidle]
      simp [Lease.submitted]
    · rw [hof j hj]
      simp [Ne.symm hj]
  · intro w hmem
    rw [hw] at hmem
    rcases List.mem_cons.mp hmem with rfl | hmem
    · rw [hself]
      exact hcookie
    · rw [hof _ (h.none_waiting hidle hmem)]
      exact h.cookie w hmem
  · intro j hj
    by_cases hjl : j = l
    · rw [hjl, hself] at hj
      rcases hj with hj | hj | hj <;> cases hj
    · rw [hof j hjl] at hj ⊢
      exact h.parked j hj

theorem Waits.respond {w : Waiter} (h : Waits s) (hmem : w ∈ s.waiting)
    (hw : s'.waiting = s.waiting.erase w)
    (hl : s'.leases = (s.modify w.lease f).leases)
    (hf : ∀ e, (f e).inFlight = false) : Waits s' := by
  have hself : s'.leases w.lease = f (s.leases w.lease) := by
    rw [hl, Monitor.modify_self]
  have hof : ∀ j, j ≠ w.lease → s'.leases j = s.leases j := by
    intro j hj
    rw [hl, s.modify_of_ne _ hj]
  have hcount : ∀ j, s'.waiting.countP (·.lease = j) +
      (if w.lease = j then 1 else 0) = if (s.leases j).inFlight then 1 else 0 := by
    intro j
    rw [hw, ← h.count j, ← countP_erase hmem]
    simp only [decide_eq_true_eq]
  have hzero : s'.waiting.countP (·.lease = w.lease) = 0 := by
    have hle := hcount w.lease
    rw [if_pos rfl] at hle
    split at hle <;> omega
  constructor
  · intro j
    by_cases hj : j = w.lease
    · rw [hj, hself, hf, if_neg Bool.false_ne_true, hzero]
    · rw [hof j hj, ← hcount j, if_neg (Ne.symm hj), Nat.add_zero]
  · intro w' hmem'
    have hne : w'.lease ≠ w.lease := by
      intro heq
      exact List.countP_eq_zero.mp hzero w' hmem' (decide_eq_true heq)
    rw [hof _ hne]
    rw [hw] at hmem'
    exact h.cookie w' (List.mem_of_mem_erase hmem')
  · intro j hj
    by_cases hjl : j = w.lease
    · rw [hjl, hself, hf]
    · rw [hof j hjl] at hj ⊢
      exact h.parked j hj

-- ==== at the engine

def Lease.SameFlight (e e' : Lease) : Prop :=
  e'.inFlight = e.inFlight ∧ e'.xferDone = e.xferDone ∧
    e'.activeCookie = e.activeCookie ∧ e'.activeOperation = e.activeOperation

theorem Lease.SameFlight.refl (e : Lease) : e.SameFlight e :=
  ⟨rfl, rfl, rfl, rfl⟩

section

variable (h : Flies s)

include h

theorem Flies.none_flying (hidle : (s.leases l).inFlight = false ∨ 0 < (s.leases l).xferDone)
    (ht : t ∈ s.engine) : t.lease ≠ l := by
  rintro rfl
  have hfly := h.flying t ht
  rcases hidle with hfl | hdone
  · rw [hfly.inFlight] at hfl
    cases hfl
  · rw [hfly.pending] at hdone
    exact absurd hdone (Nat.lt_irrefl 0)

/-- Transfers only go away, and those that stay find their records and
their endpoints as they were. -/
theorem Flies.frame (hsub : s'.engine.Sublist s.engine) (hsame : ∀ t ∈ s'.engine,
      (s.leases t.lease).SameFlight (s'.leases t.lease))
    (howner : ∀ t ∈ s'.engine, s.owner t.endpoint = some t.lease →
      s'.owner t.endpoint = some t.lease)
    (hchans : s'.chans = s.chans) : Flies s' := by
  refine ⟨fun t ht => ?_, h.single.sublist hsub⟩
  obtain ⟨hin, hdone, hcookie, hop⟩ := hsame t ht
  have hfly := h.flying t (hsub.subset ht)
  exact ⟨hin.trans hfly.inFlight, hdone.trans hfly.pending,
    hcookie.trans hfly.cookie, hop.trans hfly.dir,
    howner t ht hfly.owner, hchans ▸ hfly.chans⟩

/-- A record that changes without its transfer being touched. -/
theorem Flies.aside (he : s'.engine = s.engine) (hl : s'.leases = (s.modify l f).leases)
    (hf : (s.leases l).SameFlight (f (s.leases l)))
    (howner : ∀ t ∈ s'.engine, s.owner t.endpoint = some t.lease →
      s'.owner t.endpoint = some t.lease) (hchans : s'.chans = s.chans) :
    Flies s' := by
  refine h.frame (he ▸ List.Sublist.refl _) (fun t _ => ?_) howner hchans
  rw [hl]
  exact s.modify_rel l Lease.SameFlight.refl hf _

/-- A record that changes once none of its transfers is left. -/
theorem Flies.landed (hsub : s'.engine.Sublist s.engine) (hl : s'.leases = (s.modify l f).leases)
    (hnone : ∀ t ∈ s'.engine, t.lease ≠ l)
    (howner : ∀ t ∈ s'.engine, s.owner t.endpoint = some t.lease →
      s'.owner t.endpoint = some t.lease) (hchans : s'.chans = s.chans) :
    Flies s' := by
  refine h.frame hsub (fun t ht => ?_) howner hchans
  rw [hl, s.modify_of_ne l (hnone t ht)]
  exact .refl _

variable {dirs : List Dir}

/-- The transfers a termination in the right direction leaves behind are
those of other leases. -/
theorem Flies.terminate_ne (hdirs : ∀ d, (s.leases l).activeOperation = some d → d ∈ dirs)
    (ht : t ∈ (s.terminate l dirs).engine) : t.lease ≠ l := by
  obtain ⟨hmem, hspared⟩ := List.mem_filter.mp ht
  rintro rfl
  have hfly := h.flying t hmem
  exact of_decide_eq_true hspared ⟨hfly.owner, hdirs t.dir hfly.dir, hfly.chans⟩

theorem Flies.terminates_lease (ht : t ∈ s.engine) (hstop : s.Terminates l dirs t) : t.lease = l :=
  Option.some.inj ((h.flying t ht).owner.symm.trans hstop.1)

end

/-- A lease without a transfer loses its endpoints: nobody else's go. -/
theorem disown_owner (hne : t.lease ≠ l) (ho : s.owner t.endpoint = some t.lease) :
    (s.disown l).owner t.endpoint = some t.lease := by
  dsimp only [Monitor.disown]
  rw [if_neg, ho]
  rw [ho]
  exact fun heq => hne (Option.some.inj heq)

theorem give_owner {ep : Endpoint} (hfree : s.owner ep = none ∨ s.owner ep = some l)
    (ho : s.owner t.endpoint = some t.lease) :
    (s.give l (some ep)).owner t.endpoint = some t.lease := by
  dsimp only [Monitor.give]
  split
  case isTrue heq =>
    obtain rfl := Option.some.inj heq
    rcases hfree with hnone | hmine
    · rw [hnone] at ho
      cases ho
    · exact hmine.symm.trans ho
  case isFalse => exact ho

theorem Flies.submit {req : Request} (h : Flies s)
    (hadm : Admitted s l req t.endpoint t.addr) (hlease : t.lease = l) :
    Flies (((s.modify l Lease.activated).give l (some t.endpoint)).submit l req t) := by
  have hne : ∀ t' ∈ s.engine, t'.lease ≠ l :=
    fun t' => h.none_flying (.inl hadm.idle)
  have hself : (((s.modify l Lease.activated).give l (some t.endpoint)).submit
      l req t).leases l = ((s.leases l).activated).submitted t := by
    rw [submit_leases, Monitor.modify_self]
  constructor
  · intro t' ht'
    rcases List.mem_append.mp ht' with hold | hnew
    · have hfly := h.flying t' hold
      have hof : (((s.modify l Lease.activated).give l
          (some t.endpoint)).submit l req t).leases t'.lease = s.leases t'.lease := by
        rw [submit_leases, s.modify_of_ne l (hne t' hold)]
      refine ⟨?_, ?_, ?_, ?_, give_owner hadm.owner hfly.owner, hfly.chans⟩
      · rw [hof, hfly.inFlight]
      · rw [hof, hfly.pending]
      · rw [hof, hfly.cookie]
      · rw [hof, hfly.dir]
    · obtain rfl := List.mem_singleton.mp hnew
      rw [← hlease] at hself
      refine ⟨?_, ?_, ?_, ?_, ?_, hadm.chans t'.dir⟩
      · rw [← hlease, hself]; rfl
      · rw [← hlease, hself]; rfl
      · rw [← hlease, hself]; rfl
      · rw [← hlease, hself]; rfl
      · exact (if_pos rfl).trans (congrArg some hlease.symm)
  · refine List.pairwise_append.mpr ⟨h.single, List.pairwise_singleton _ _, ?_⟩
    intro t' ht' t'' hnew
    rw [List.mem_singleton.mp hnew, hlease]
    exact hne t' ht'

-- ==== every step

/-- The records agree with the engine and with who sleeps. -/
structure Quiet (s : Monitor) : Prop where
  owned : Owned s
  waits : Waits s
  flies : Flies s

variable {h : Host} {e : Event} {new : List Effect}

theorem Waits.moves (hw : Waits h.monitor) (hC : Unhurried h e)
    (hm : Moves h.monitor e new s') : Waits s' := by
  cases hm with
  | refused => exact hw
  | begin_ | go | done | drainTimedOut => exact ⟨hw.count, hw.cookie, hw.parked⟩
  | @grant _ _ th l hth hv =>
    have hidle := hw.parked l (.inl (visit_grant hv).1)
    exact hw.modify (f := fun e => e.granted th.req _ _) rfl rfl rfl (fun _ => rfl) (fun _ => hidle)
  | activate | take =>
    refine hw.modify (f := Lease.activated) rfl rfl rfl (fun _ => rfl) ?_
    rintro (hp | hp | hp) <;> cases hp
  | submit hopen hcheck =>
    exact hw.submit (checkRequest_ok hcheck).idle rfl rfl (submit_leases _ _ _)
  | @finish _ _ t =>
    exact hw.modify (f := Lease.completed) rfl rfl rfl (fun _ => rfl) (hw.parked t.lease)
  | @timeOut l =>
    exact hw.modify (f := Lease.timedOut) rfl rfl rfl (fun _ => rfl) (hw.parked l)
  | @respond w hmem =>
    exact hw.respond (f := fun e => e.responded w.req.cookie) hmem rfl rfl fun _ => rfl
  | drain | sleep =>
    refine hw.modify (f := Lease.drained) rfl rfl rfl (fun _ => rfl) ?_
    rintro (hp | hp | hp) <;> cases hp
  | forceDrain =>
    refine hw.modify (f := Lease.forceDrained) rfl rfl rfl (fun _ => rfl) ?_
    rintro (hp | hp | hp) <;> cases hp
  | @drainWoken l =>
    exact hw.modify (f := Lease.waited) rfl rfl rfl (fun _ => rfl) (hw.parked l)
  | @release _ _ _ l hl hfresh =>
    have hidle := hC l hl hfresh
    refine hw.modify (f := Lease.released) rfl rfl hidle.symm ?_ (fun _ => rfl)
    rw [hidle]
    exact fun h => absurd h Bool.false_ne_true
  | @quarantine _ _ _ l hl hfresh =>
    exact hw.modify (f := Lease.quarantined) rfl rfl rfl (fun _ => rfl) (fun _ => hC l hl hfresh)
  | @pardon _ _ l hl hstate =>
    exact hw.modify (f := Lease.pardoned) rfl rfl rfl (fun _ => rfl)
      (fun _ => hw.parked l (.inr (.inr hstate)))

theorem mem_both (d : Dir) : d ∈ [Dir.memToDev, .devToMem] := by
  cases d <;> decide

theorem Flies.moves (hown : Owned h.monitor) (hw : Waits h.monitor)
    (hf : Flies h.monitor) (hC : Unhurried h e) (hm : Moves h.monitor e new s') :
    Flies s' := by
  cases hm with
  | refused => exact hf
  | begin_ | go | done | drainTimedOut =>
    exact hf.frame (.refl _) (fun _ _ => .refl _) (fun _ _ ho => ho) rfl
  | @grant _ _ th l hth hv =>
    refine hf.aside (f := fun e => e.granted th.req _ _) rfl rfl
      ⟨rfl, rfl, rfl, rfl⟩ (fun t ht ho => ?_) rfl
    -- Nobody is bound to the endpoint that is given away.
    have hne : th.req.endpoint ≠ some t.endpoint := by
      intro hep
      exact hown.passed_unbound th _ hth hep t.lease ((visit_grant hv).2 _)
        (hown.owner_bound _ _ ho)
    exact (if_neg hne).trans ho
  | activate =>
    exact hf.aside (f := Lease.activated) rfl rfl ⟨rfl, rfl, rfl, rfl⟩ (fun _ _ ho => ho) rfl
  | take hopen hcheck =>
    exact hf.aside (f := Lease.activated) rfl rfl ⟨rfl, rfl, rfl, rfl⟩
      (fun _ _ => give_owner (checkRequest_ok hcheck).owner) rfl
  | @submit _ _ _ l ep buf dir hopen hcheck =>
    exact hf.submit (t := ⟨l, ep, dir, buf, _, _⟩) (checkRequest_ok hcheck)
      rfl
  | @finish _ _ t hfirst =>
    refine hf.landed (f := Lease.completed) (List.erase_sublist ..) rfl
      (fun t' ht' heq => ?_) (fun _ _ ho => ho) rfl
    have hmem : t ∈ h.monitor.engine := List.mem_of_find?_eq_some hfirst
    have hpair := (List.perm_cons_erase hmem).pairwise hf.single (fun hab => Ne.symm hab)
    exact (List.pairwise_cons.mp hpair).1 t' ht' heq.symm
  | @timeOut l =>
    refine hf.landed (f := Lease.timedOut) (List.filter_sublist ..) rfl
      (fun _ => hf.terminate_ne fun d hd => ?_) (fun _ _ ho => ho) rfl
    exact Option.mem_toList.mpr hd
  | @respond w hmem hdone =>
    exact hf.landed (f := fun e => e.responded w.req.cookie) (.refl _) rfl
      (fun _ => hf.none_flying (.inr hdone)) (fun _ _ ho => ho) rfl
  | drain | sleep =>
    exact hf.aside (f := Lease.drained) rfl rfl ⟨rfl, rfl, rfl, rfl⟩ (fun _ _ ho => ho) rfl
  | forceDrain =>
    exact hf.landed (f := Lease.forceDrained) (List.filter_sublist ..) rfl
      (fun _ => hf.terminate_ne fun d _ => mem_both d) (fun _ _ ho => ho) rfl
  | @drainWoken l =>
    refine hf.frame (.refl _) (fun t ht => ?_) (fun _ _ ho => ho) rfl
    -- A drain takes a completion only if there is one.
    by_cases hl : t.lease = l
    · rw [hl, Monitor.modify_self]
      have hzero := (hf.flying t ht).pending
      rw [hl] at hzero
      refine ⟨rfl, ?_, rfl, rfl⟩
      show (h.monitor.leases l).xferDone - 1 = _
      rw [hzero]
    · rw [Monitor.modify_of_ne _ l hl]
      exact .refl _
  | @release _ _ _ l hl hfresh =>
    have hne : ∀ t ∈ h.monitor.engine, t.lease ≠ l :=
      fun _ => hf.none_flying (.inl (hC l hl hfresh))
    exact hf.landed (f := Lease.released) (.refl _) rfl hne
      (fun t ht => disown_owner (hne t ht)) rfl
  | @quarantine _ _ _ l hl hfresh =>
    have hne : ∀ t ∈ h.monitor.engine, t.lease ≠ l :=
      fun _ => hf.none_flying (.inl (hC l hl hfresh))
    exact hf.landed (f := Lease.quarantined) (.refl _) rfl hne
      (fun t ht => disown_owner (hne t ht)) rfl
  | @pardon _ _ l hl hstate =>
    have hne : ∀ t ∈ h.monitor.engine, t.lease ≠ l :=
      fun _ => hf.none_flying (.inl (hw.parked l (.inr (.inr hstate))))
    exact hf.landed (f := Lease.pardoned) (.refl _) rfl hne
      (fun t ht => disown_owner (hne t ht)) rfl

theorem Quiet.step {h' : Host} (hq : Quiet h.monitor) (hC : Unhurried h e)
    (hexec : h.exec e = some h') : Quiet h'.monitor := by
  obtain ⟨new, hm, -⟩ := exec_moves hexec
  exact ⟨hq.owned.moves hm, hq.waits.moves hC hm, hq.flies.moves hq.owned hq.waits hC hm⟩

theorem reachable_quiet {c : Config}
    (hr : ((system c).restrict Unhurried).Reachable h) : Quiet h.monitor := by
  refine hr.induct (I := fun h => Quiet h.monitor) ?_ ?_
  · intro h hinit
    have hown := reachable_owned (.init hinit)
    subst hinit
    have hidle : ∀ l, (c.lease l).inFlight = false := by
      intro l
      rw [lease_fresh]
    refine ⟨hown, ⟨fun l => ?_, nofun, fun l _ => hidle l⟩, nofun, .nil⟩
    exact (if_neg (by rw [Config.boot, hidle]; exact Bool.false_ne_true)).symm
  · intro h e h' hr' hI hstep
    exact hI.step hstep.1 hstep.2

-- ==== what a tenant left

/-- Since the slice was last cleared, a tenant has had it or the device
has written it. The effects are those on one lease, newest first. -/
def written : List Effect → Bool
  | [] => false
  | .granted _ _ _ :: _ => true
  | .programmed _ :: own => written own
  | .stopped t :: own => decide (t.dir = .devToMem) || written own
  | .cleared _ :: _ => false

def Lease.Blank (e : Lease) : Prop :=
  e.capability = 0 ∧ e.vsockCid = 0 ∧ ∀ i, e.replay.slot i = 0

instance : DecidablePred Lease.Blank := fun _ =>
  inferInstanceAs (Decidable (_ ∧ _))

/-- Nothing of the last tenant of lease `l` is left: no transfer at the
engine, nothing in the slice, nothing in the record. -/
def Vacant (h : Host) (l : Fin 4) : Prop :=
  (∀ t ∈ h.monitor.engine, t.lease ≠ l) ∧ written (effectsOf l h.log) = false ∧
    (h.monitor.leases l).Blank ∧ (h.monitor.leases l).inFlight = false

/-- Releases find nothing in flight, and a quarantine is lifted only from
a lease without a tenant's identity, with its slice cleared. -/
def Careful (h : Host) : Event → Prop
  | .quarantineRelease id remapped => ∀ l, Monitor.lookup id = some l →
      (h.monitor.leases l).state = .quarantined →
      remapped = true ∧ (h.monitor.leases l).Blank
  | e => Unhurried h e

theorem Careful.unhurried (hC : Careful h e) :
    Unhurried h e := by
  cases e with
  | quarantineRelease => trivial
  | _ => exact hC

/-- What the invariant keeps of a free lease between two events. -/
def Clean (h : Host) : Prop :=
  ∀ l, (h.monitor.leases l).state = .free →
    (h.monitor.leases l).Blank ∧ written (effectsOf l h.log) = false

/-- A record that is free afterwards was free, and stays blank. -/
def Lease.StaysBlank (e e' : Lease) : Prop :=
  e'.state = .free → e.state = .free ∧ (e.Blank → e'.Blank)

theorem Lease.StaysBlank.refl (e : Lease) : e.StaysBlank e :=
  fun h => ⟨h, id⟩

theorem Lease.StaysBlank.of_state {e e' : Lease} {q : LeaseState}
    (hq : e'.state = q) (hne : q ≠ .free) : e.StaysBlank e' :=
  fun hfree => absurd (hq.symm.trans hfree) hne

variable {h' : Host}

theorem Clean.keep (hI : Clean h) (hlog : h'.log = new.reverse ++ h.log)
    (hstay : ∀ l, (h.monitor.leases l).StaysBlank (h'.monitor.leases l))
    (hnew : ∀ l, (h'.monitor.leases l).state = .free → ∀ x ∈ new, x.lease ≠ l) :
    Clean h' := by
  intro l hfree
  obtain ⟨hwas, hblank⟩ := hstay l hfree
  refine ⟨hblank (hI l hwas).1, ?_⟩
  rw [hlog, effectsOf_append_of_ne fun x hx =>
    hnew l hfree x (List.mem_reverse.mp hx)]
  exact (hI l hwas).2

theorem Quiet.free_idle (hq : Quiet s) (hfree : (s.leases l).state = .free)
    (ht : t ∈ s.engine) : t.lease ≠ l :=
  hq.flies.none_flying (.inl (hq.waits.parked l (.inl hfree))) ht

/-- A step that stops transfers and keeps every state and identity. -/
theorem Clean.stop (hq : Quiet h.monitor) (hI : Clean h) (hlog : h'.log = new.reverse ++ h.log)
    (hstay : ∀ l, (h.monitor.leases l).StaysBlank (h'.monitor.leases l))
    (hnew : ∀ x ∈ new, ∃ t ∈ h.monitor.engine, x = .stopped t) : Clean h' := by
  refine hI.keep hlog hstay fun l hfree x hx => ?_
  obtain ⟨t, ht, rfl⟩ := hnew x hx
  exact hq.free_idle (hstay l hfree).1 ht

/-- A step about one lease, which it does not leave free. -/
theorem Clean.hold {q : LeaseState} (hI : Clean h) (hlog : h'.log = new.reverse ++ h.log)
    (hl : h'.monitor.leases = (h.monitor.modify l f).leases)
    (hf : ∀ e, (f e).state = q) (hne : q ≠ .free)
    (hnew : ∀ x ∈ new, x.lease = l) : Clean h' := by
  refine hI.keep hlog (fun j => ?_) fun j hfree x hx => ?_
  · rw [hl]
    exact h.monitor.modify_rel l Lease.StaysBlank.refl (.of_state (hf _) hne) j
  rw [hnew x hx]
  rintro rfl
  rw [hl, Monitor.modify_self, hf] at hfree
  exact hne hfree

theorem mem_terminated {x : Effect} (hx : x ∈ s.terminated l dirs) :
    ∃ t ∈ s.engine, x = .stopped t := by
  obtain ⟨t, ht, rfl⟩ := List.mem_map.mp hx
  exact ⟨t, List.mem_of_mem_filter ht, rfl⟩

/-- A step that clears the slice of a lease and its identity. -/
theorem Clean.clear (hI : Clean h) (hlog : h'.log = .cleared l :: h.log)
    (hl : h'.monitor.leases = (h.monitor.modify l f).leases)
    (hblank : (f (h.monitor.leases l)).Blank) : Clean h' := by
  intro j hfree
  by_cases hj : j = l
  · rw [hj, hl, Monitor.modify_self, hlog]
    exact ⟨hblank, congrArg written (effectsOf_new rfl rfl)⟩
  rw [hl, h.monitor.modify_of_ne l hj] at hfree ⊢
  refine ⟨(hI j hfree).1, ?_⟩
  rw [hlog, ← List.singleton_append, effectsOf_append_of_ne
    (List.forall_mem_singleton.mpr (Ne.symm hj))]
  exact (hI j hfree).2

theorem Clean.moves (hq : Quiet h.monitor) (hI : Clean h) (hC : Careful h e)
    (hm : Moves h.monitor e new h'.monitor)
    (hlog : h'.log = new.reverse ++ h.log) : Clean h' := by
  obtain ⟨s', log'⟩ := h'
  cases hm with
  | refused | begin_ | go | done | drainTimedOut =>
    exact hI.keep hlog (fun _ => .refl _) fun _ _ => List.forall_mem_nil _
  | @grant _ _ th l hth hv =>
    exact hI.hold (f := fun e => e.granted th.req _ _) (q := .starting) hlog
      rfl (fun _ => rfl) (by decide) (List.forall_mem_singleton.mpr rfl)
  | activate | take =>
    exact hI.hold (f := Lease.activated) (q := .active) hlog rfl
      (fun _ => rfl) (by decide) (List.forall_mem_nil _)
  | submit =>
    exact hI.hold (f := fun e => (e.activated).submitted _) (q := .active)
      hlog (submit_leases _ _ _) (fun _ => rfl) (by decide)
      (List.forall_mem_singleton.mpr rfl)
  | @finish _ _ t hfirst =>
    refine hI.stop hq hlog (fun j => ?_) (List.forall_mem_singleton.mpr
      ⟨t, List.mem_of_find?_eq_some hfirst, rfl⟩)
    exact h.monitor.modify_rel t.lease (f := Lease.completed)
      Lease.StaysBlank.refl (fun hfree => ⟨hfree, id⟩) j
  | @timeOut l =>
    refine hI.stop hq hlog (fun j => ?_) fun _ => mem_terminated
    exact h.monitor.modify_rel l (f := Lease.timedOut)
      Lease.StaysBlank.refl (fun hfree => ⟨hfree, id⟩) j
  | @respond w hmem =>
    refine hI.keep hlog (fun j => ?_) fun _ _ => List.forall_mem_nil _
    refine h.monitor.modify_rel w.lease
      (f := fun e => e.responded w.req.cookie) Lease.StaysBlank.refl
      (fun hfree => ?_) j
    -- A dispatcher sleeps in the lease, so it is not free.
    exact absurd rfl (hq.waits.none_waiting (hq.waits.parked w.lease (.inl hfree)) hmem)
  | drain | sleep =>
    exact hI.hold (f := Lease.drained) (q := .draining) hlog rfl
      (fun _ => rfl) (by decide) (List.forall_mem_nil _)
  | @forceDrain _ _ _ l =>
    refine hI.stop hq hlog (fun j => ?_) fun _ => mem_terminated
    exact h.monitor.modify_rel l (f := Lease.forceDrained)
      Lease.StaysBlank.refl (.of_state (q := .draining) rfl (by decide)) j
  | @drainWoken l =>
    refine hI.keep hlog (fun j => ?_) fun _ _ => List.forall_mem_nil _
    exact h.monitor.modify_rel l (f := Lease.waited)
      Lease.StaysBlank.refl (fun hfree => ⟨hfree, id⟩) j
  | release =>
    exact hI.clear (f := Lease.released) hlog rfl ⟨rfl, rfl, fun _ => rfl⟩
  | quarantine =>
    exact hI.hold (f := Lease.quarantined) (q := .quarantined) hlog rfl
      (fun _ => rfl) (by decide) (List.forall_mem_nil _)
  | @pardon _ remapped l hl hstate =>
    obtain ⟨rfl, hblank⟩ := hC l hl hstate
    exact hI.clear (f := Lease.pardoned) hlog rfl hblank

theorem reachable_clean {c : Config}
    (hr : ((system c).restrict Careful).Reachable h) : Clean h := by
  refine hr.induct (I := Clean) ?_ ?_
  · rintro _ rfl l -
    refine ⟨?_, rfl⟩
    show (c.lease l).Blank
    rw [lease_fresh]
    exact ⟨rfl, rfl, fun _ => rfl⟩
  · intro h e h' hr' hI hstep
    obtain ⟨new, hmoves, hlog⟩ := exec_moves hstep.2
    have hq := reachable_quiet (hr'.restrict_mono fun _ _ hC => Careful.unhurried hC)
    exact hI.moves hq hstep.1 hmoves hlog

/-- Lease reuse, where it holds: as long as leases are released with
nothing in flight and quarantines are lifted with care, nothing of its
last tenant is left of a lease that is free. -/
theorem free_lease_vacant {c : Config} {h : Host} {l : Fin 4}
    (hr : ((system c).restrict Careful).Reachable h)
    (hfree : (h.monitor.leases l).state = .free) : Vacant h l := by
  have hq := reachable_quiet (hr.restrict_mono fun _ _ hC => Careful.unhurried hC)
  obtain ⟨hblank, hclean⟩ := reachable_clean hr l hfree
  exact ⟨fun _ => hq.free_idle hfree, hclean, hblank, hq.waits.parked l (.inl hfree)⟩

instance (h : Host) : DecidablePred (Unhurried h)
  | .release _ _ _ => inferInstanceAs (Decidable (∀ _, _ → _ → _))
  | .allocBegin .. | .allocStep .. | .dispatch .. | .finished ..
  | .watchdogFired .. | .woken .. | .drain .. | .drainWoken ..
  | .drainTimedOut .. | .quarantineRelease .. => inferInstanceAs (Decidable True)

instance (h : Host) : DecidablePred (Careful h)
  | .quarantineRelease _ _ => inferInstanceAs (Decidable (∀ _, _ → _ → _))
  | .release id epoch remapped =>
    inferInstanceAs (Decidable (Unhurried h (.release id epoch remapped)))
  | .allocBegin .. | .allocStep .. | .dispatch .. | .finished ..
  | .watchdogFired .. | .woken .. | .drain .. | .drainWoken ..
  | .drainTimedOut .. => inferInstanceAs (Decidable True)

def sampleSend : List Event :=
  sampleAlloc 2 7 0x51 ++ [.dispatch 0 (sampleRequest 0x51 2 9) {}]

def sampleWaiter : Waiter := ⟨0, sampleRequest 0x51 2 9⟩

/-- The transfer ends, its dispatcher returns, and the lease is released. -/
theorem free_lease_vacant_sample :
    ∃ h, ((system (sampleConfig (some sampleMap))).restrict Careful).Reachable h
      ∧ (h.monitor.leases 0).state = .free ∧ Vacant h 0 := by
  obtain ⟨h, hr, hfree⟩ := Reachable.exists_exec
    (M := (system (sampleConfig (some sampleMap))).restrict Careful)
    (f := fun h e => if Careful h e then h.exec e else none)
    (fun _ _ _ => Option.ite_none_right_eq_some.mp)
    (l := sampleSend ++ [.finished .uart2 .memToDev, .woken sampleWaiter, .release 0 0 true])
    (p := fun h => (h.monitor.leases 0).state = .free) (.init rfl) (by decide)
  exact ⟨h, hr, hfree, free_lease_vacant hr hfree⟩

/-- Three free leases that are not vacant: released while the transfer is
at the engine; released before the dispatcher of a finished transfer is
awake, so that its cookie is recorded afterwards; quarantined because the
slice could not be mapped, and pardoned although it still cannot. -/
theorem free_lease_occupied : (∃ h, (system (sampleConfig (some sampleMap))).Reachable h ∧
      (h.monitor.leases 0).state = .free ∧
      ∃ t ∈ h.monitor.engine, t.lease = 0) ∧
    (∃ h, (system (sampleConfig (some sampleMap))).Reachable h ∧
      (h.monitor.leases 0).state = .free ∧
      (h.monitor.leases 0).replay.slot 0 = 9) ∧
    ∃ h, (system (sampleConfig (some sampleMap))).Reachable h ∧ (h.monitor.leases 0).state = .free ∧
      (h.monitor.leases 0).capability = 0x51 ∧
      (h.monitor.leases 0).vsockCid = 7 ∧ written (effectsOf 0 h.log) = true := by
  refine ⟨?_, ?_, ?_⟩
  · exact (boot_reachable _).exists_exec
      (M := system (sampleConfig (some sampleMap))) (fun _ _ _ => id)
      (l := sampleSend ++ [.release 0 0 true]) (by decide)
  · exact (boot_reachable _).exists_exec
      (M := system (sampleConfig (some sampleMap))) (fun _ _ _ => id)
      (l := sampleSend ++ [.finished .uart2 .memToDev, .release 0 0 true,
        .woken sampleWaiter]) (by decide)
  · exact (boot_reachable _).exists_exec
      (M := system (sampleConfig (some sampleMap))) (fun _ _ _ => id)
      (l := sampleAlloc 2 7 0x51 ++ [.release 0 0 false, .quarantineRelease 0 false]) (by decide)

end AmbaVirt.Dma
