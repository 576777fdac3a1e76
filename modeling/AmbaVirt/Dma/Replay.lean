/-
One transfer at a time, and no request twice: the cookies of a lease's
allocation against its replay ring, and the capabilities and epochs of
its earlier allocations.

A cookie goes to the ring when its dispatcher is awake again, which is
later than the transfer's end. In between the dispatcher's flag is still
up with the cookie as the active one. `Ringed`: either the ring has all
the cookies of the transfers that are over, or all but the active one.

The capability of an allocation is drawn at random and its epoch is
counted in 64 bits. `Fresh` is the condition that neither comes back,
next to the one on releases.
-/
import AmbaVirt.Dma.Quiet

namespace AmbaVirt.Dma

open Lib Lib.System

variable {s s' : Monitor} {l : Fin 4}

-- ==== reading the log

/-- The cookies of the transfers that are over since the lease was last
granted, newest first. -/
def spent : List Effect → List UInt64
  | [] => []
  | .granted _ _ _ :: _ => []
  | .programmed _ :: own => spent own
  | .stopped t :: own => t.cookie :: spent own
  | .cleared _ :: own => spent own

/-- The capabilities and epochs a lease was granted with, newest first. -/
def grants : List Effect → List (UInt64 × UInt64)
  | [] => []
  | .granted _ capability epoch :: own => (capability, epoch) :: grants own
  | .programmed _ :: own => grants own
  | .stopped _ :: own => grants own
  | .cleared _ :: own => grants own

/-- The allocations of a lease that are over. -/
def Host.earlier (h : Host) (l : Fin 4) : List (UInt64 × UInt64) :=
  if (h.monitor.leases l).Open then (grants (effectsOf l h.log)).tail
  else grants (effectsOf l h.log)

/-- The lease the allocation in progress is about to hand out. -/
def Monitor.nextGrant (s : Monitor) : Option (Fin 4) :=
  match s.alloc with
  | none => none
  | some th =>
    match s.visit th.req th.phase with
    | .grant l => some l
    | .go _ => none
    | .done _ => none

/-- No capability is drawn twice for a lease and no epoch wraps around;
releases find nothing in flight. -/
def Fresh (h : Host) : Event → Prop
  | .allocStep capability _ => ∀ l, h.monitor.nextGrant = some l →
      capability ∉ (grants (effectsOf l h.log)).map Prod.fst ∧
        (h.monitor.leases l).epoch.toNat + 1 < 2 ^ 64
  | .quarantineRelease id _ => ∀ l, Monitor.lookup id = some l →
      (h.monitor.leases l).epoch.toNat + 1 < 2 ^ 64
  | e => Unhurried h e

variable {h : Host}

theorem Fresh.unhurried {e : Event} (hC : Fresh h e) :
    Unhurried h e := by
  cases e with
  | allocStep | quarantineRelease => trivial
  | _ => exact hC

theorem nextGrant_eq {th : AllocThread} (hth : s.alloc = some th)
    (hv : s.visit th.req th.phase = .grant l) : s.nextGrant = some l := by
  unfold Monitor.nextGrant
  rw [hth]
  dsimp only
  rw [hv]

-- ==== the ring

/-- The ring has the cookies of all transfers that are over, or the last
one is still to be recorded by its dispatcher. -/
inductive Ringed (s : Monitor) (l : Fin 4) (own : List Effect) : Prop
  | recorded (hring : (s.leases l).replay.Holds (spent own))
      (hbusy : (s.leases l).inFlight = true → ∃ t ∈ s.engine, t.lease = l)
  | pending (old : List UInt64) (hring : (s.leases l).replay.Holds old)
      (hfl : (s.leases l).inFlight = true)
      (hspent : spent own = (s.leases l).activeCookie :: old)
      (hover : ∀ t ∈ s.engine, t.lease ≠ l)

def Lease.SameRing (e e' : Lease) : Prop :=
  e'.replay = e.replay ∧ e'.inFlight = e.inFlight ∧ e'.activeCookie = e.activeCookie

theorem Lease.SameRing.refl (e : Lease) : e.SameRing e := ⟨rfl, rfl, rfl⟩

variable {own own' : List Effect}

theorem Ringed.frame (h : Ringed s l own) (hown : spent own' = spent own)
    (hl : (s.leases l).SameRing (s'.leases l))
    (he : ∀ t, t.lease = l → (t ∈ s'.engine ↔ t ∈ s.engine)) :
    Ringed s' l own' := by
  obtain ⟨hreplay, hfl, hcookie⟩ := hl
  cases h with
  | recorded hring hbusy =>
    refine .recorded ?_ ?_
    · rw [hreplay, hown]
      exact hring
    rw [hfl]
    intro hin
    obtain ⟨t, ht, hlease⟩ := hbusy hin
    exact ⟨t, (he t hlease).mpr ht, hlease⟩
  | pending old hring hin hspent hover =>
    refine .pending old ?_ ?_ ?_ ?_
    · rw [hreplay]
      exact hring
    · rw [hfl, hin]
    · rw [hown, hcookie, hspent]
    · intro t ht hlease
      exact hover t ((he t hlease).mp ht) hlease

variable {t : Transfer}

theorem Ringed.submit (h : Ringed s l own) (hidle : (s.leases l).inFlight = false)
    (hl : (s'.leases l).replay = (s.leases l).replay) (ht : t ∈ s'.engine)
    (hlease : t.lease = l) : Ringed s' l (.programmed t :: own) := by
  cases h with
  | recorded hring =>
    refine .recorded ?_ fun _ => ⟨t, ht, hlease⟩
    rw [hl]
    exact hring
  | pending _ _ hfl => exact absurd (hidle.symm.trans hfl) Bool.false_ne_true

theorem Ringed.stop (h : Ringed s l own) (hfly : Flying s t) (ht : t ∈ s.engine)
    (hlease : t.lease = l) (hl : (s.leases l).SameRing (s'.leases l))
    (hover : ∀ t ∈ s'.engine, t.lease ≠ l) :
    Ringed s' l (.stopped t :: own) := by
  obtain ⟨hreplay, hfl, hcookie⟩ := hl
  cases h with
  | recorded hring =>
    refine .pending (spent own) ?_ ?_ ?_ hover
    · rw [hreplay]
      exact hring
    · rw [hfl, ← hlease, hfly.inFlight]
    · rw [hcookie, ← hlease, hfly.cookie]
      rfl
  | pending old _ _ _ hnone => exact absurd hlease (hnone t ht)

theorem Ringed.record {cookie : UInt64} (h : Ringed s l own) (hin : (s.leases l).inFlight = true)
    (hcookie : (s.leases l).activeCookie = cookie)
    (hnone : ∀ t ∈ s.engine, t.lease ≠ l)
    (hl : s'.leases l = (s.leases l).responded cookie) : Ringed s' l own := by
  cases h with
  | recorded _ hbusy =>
    obtain ⟨t, ht, hlease⟩ := hbusy hin
    exact absurd hlease (hnone t ht)
  | pending old hring _ hspent _ =>
    refine .recorded ?_ ?_
    · rw [hl, hspent, hcookie]
      exact hring.push cookie
    · rw [hl]
      exact fun h => absurd h Bool.false_ne_true

def Rings (h : Host) : Prop :=
  ∀ l, (h.monitor.leases l).Open → Ringed h.monitor l (effectsOf l h.log)

-- ==== step by step

variable {h' : Host} {new : List Effect} {f : Lease → Lease}

/-- A step about one lease: the rings of the others are as they were. -/
theorem Rings.other {j : Fin 4} (hI : Rings h) (hlog : h'.log = new.reverse ++ h.log)
    (hl : h'.monitor.leases = (h.monitor.modify l f).leases)
    (hnew : ∀ x ∈ new, x.lease = l)
    (he : ∀ t, t.lease ≠ l → (t ∈ h'.monitor.engine ↔ t ∈ h.monitor.engine))
    (hj : j ≠ l) (hopen : (h'.monitor.leases j).Open) :
    Ringed h'.monitor j (effectsOf j h'.log) := by
  have hof : h'.monitor.leases j = h.monitor.leases j := by
    rw [hl, h.monitor.modify_of_ne l hj]
  rw [hof] at hopen
  have heff : effectsOf j h'.log = effectsOf j h.log := by
    rw [hlog]
    refine effectsOf_append_of_ne fun x hx => ?_
    rw [hnew x (List.mem_reverse.mp hx)]
    exact Ne.symm hj
  refine (hI j hopen).frame (congrArg spent heff) ?_ fun t ht => ?_
  · rw [hof]
    exact .refl _
  · exact he t (ht ▸ hj)

theorem Rings.step (hI : Rings h) (hlog : h'.log = new.reverse ++ h.log)
    (hl : h'.monitor.leases = (h.monitor.modify l f).leases)
    (hnew : ∀ x ∈ new, x.lease = l)
    (he : ∀ t, t.lease ≠ l → (t ∈ h'.monitor.engine ↔ t ∈ h.monitor.engine))
    (hself : (f (h.monitor.leases l)).Open →
      Ringed h'.monitor l (effectsOf l h'.log)) : Rings h' := by
  intro j hopen
  by_cases hj : j = l
  · subst hj
    rw [hl, Monitor.modify_self] at hopen
    exact hself hopen
  · exact hI.other hlog hl hnew he hj hopen

theorem Rings.close (hI : Rings h) (hlog : h'.log = new.reverse ++ h.log)
    (hl : h'.monitor.leases = (h.monitor.modify l f).leases)
    (hnew : ∀ x ∈ new, x.lease = l)
    (he : ∀ t, t.lease ≠ l → (t ∈ h'.monitor.engine ↔ t ∈ h.monitor.engine))
    (hclosed : ¬ (f (h.monitor.leases l)).Open) : Rings h' :=
  hI.step hlog hl hnew he fun hopen => absurd hopen hclosed

theorem Rings.keep (hI : Rings h) (hlog : h'.log = h.log)
    (hl : h'.monitor.leases = (h.monitor.modify l f).leases)
    (he : h'.monitor.engine = h.monitor.engine)
    (hopen : (f (h.monitor.leases l)).Open → (h.monitor.leases l).Open)
    (hsame : (h.monitor.leases l).SameRing (f (h.monitor.leases l))) :
    Rings h' := by
  have hlog' : h'.log = ([] : List Effect).reverse ++ h.log := hlog
  refine hI.step hlog' hl (List.forall_mem_nil _) (fun t _ => by rw [he]) fun h' => ?_
  refine (hI l (hopen h')).frame (by rw [hlog]) ?_ fun t _ => by rw [he]
  rw [hl, Monitor.modify_self]
  exact hsame

theorem mem_terminate_iff {dirs : List Dir} (hf : Flies s) (hne : t.lease ≠ l) :
    t ∈ (s.terminate l dirs).engine ↔ t ∈ s.engine := by
  refine ⟨List.mem_of_mem_filter, fun ht => List.mem_filter.mpr ⟨ht, ?_⟩⟩
  exact decide_eq_true fun hstop => hne (hf.terminates_lease ht hstop)

theorem terminated_lease {dirs : List Dir} (hf : Flies s) {x : Effect}
    (hx : x ∈ s.terminated l dirs) : x.lease = l := by
  obtain ⟨t, ht, rfl⟩ := List.mem_map.mp hx
  obtain ⟨hmem, hstop⟩ := List.mem_filter.mp ht
  exact hf.terminates_lease hmem (of_decide_eq_true hstop)

/-- Transfers of one lease only, and no two of one lease: there is one. -/
theorem eq_singleton_of_lease {ts : List Transfer}
    (hpair : ts.Pairwise fun t t' => t.lease ≠ t'.lease)
    (hall : ∀ t' ∈ ts, t'.lease = l) (ht : t ∈ ts) : ts = [t] := by
  match ts with
  | [] => exact absurd ht List.not_mem_nil
  | [x] => rw [List.mem_singleton.mp ht]
  | x :: y :: _ =>
    have hx := hall x List.mem_cons_self
    have hy := hall y (List.mem_cons_of_mem _ List.mem_cons_self)
    exact absurd (hx.trans hy.symm) ((List.pairwise_cons.mp hpair).1 y List.mem_cons_self)

/-- What the watchdog stops: the transfer of its lease, if there is one. -/
theorem terminated_cases (hf : Flies s) : (s.terminated l (s.leases l).activeOperation.toList = [] ∧
      ∀ t ∈ s.engine, t.lease ≠ l) ∨
    ∃ t ∈ s.engine, t.lease = l ∧
      s.terminated l (s.leases l).activeOperation.toList = [.stopped t] := by
  by_cases hany : ∃ t ∈ s.engine, t.lease = l
  · obtain ⟨t, ht, hlease⟩ := hany
    have hfly := hf.flying t ht
    have hstop : s.Terminates l (s.leases l).activeOperation.toList t := by
      refine ⟨hlease ▸ hfly.owner, ?_, hfly.chans⟩
      rw [← hlease, hfly.dir]
      exact List.mem_singleton_self _
    refine .inr ⟨t, ht, hlease, ?_⟩
    unfold Monitor.terminated
    rw [eq_singleton_of_lease (l := l) (hf.single.filter _) ?_
      (List.mem_filter.mpr ⟨ht, decide_eq_true hstop⟩)]
    · rfl
    · intro t' ht'
      obtain ⟨hmem, hstop'⟩ := List.mem_filter.mp ht'
      exact hf.terminates_lease hmem (of_decide_eq_true hstop')
  · push Not at hany
    refine .inl ⟨?_, hany⟩
    unfold Monitor.terminated
    rw [List.map_eq_nil_iff, List.filter_eq_nil_iff]
    intro t ht hstop
    exact hany t ht (hf.terminates_lease ht (of_decide_eq_true hstop))

/-- The watchdog of a lease that takes requests. -/
theorem Rings.timeOut (hI : Rings h) (hf : Flies h.monitor)
    (hm : h'.monitor = (h.monitor.terminate l
      (h.monitor.leases l).activeOperation.toList).modify l Lease.timedOut)
    (hlog : h'.log = (h.monitor.terminated l
      (h.monitor.leases l).activeOperation.toList).reverse ++ h.log) :
    Rings h' := by
  have hl : h'.monitor.leases = (h.monitor.modify l Lease.timedOut).leases := by
    rw [hm]
    rfl
  have he : h'.monitor.engine = (h.monitor.terminate l
      (h.monitor.leases l).activeOperation.toList).engine := by
    rw [hm]
    rfl
  have hsame : (h.monitor.leases l).SameRing (h'.monitor.leases l) := by
    rw [hl, Monitor.modify_self]
    exact ⟨rfl, rfl, rfl⟩
  have hover : ∀ t ∈ h'.monitor.engine, t.lease ≠ l := by
    intro t ht
    rw [he] at ht
    exact hf.terminate_ne (fun d => Option.mem_toList.mpr) ht
  refine hI.step hlog hl (fun _ => terminated_lease hf)
    (fun t ht => he ▸ mem_terminate_iff hf ht) fun hopen => ?_
  have hold := hI l hopen
  rcases terminated_cases (l := l) hf with
    ⟨hnil, hnone⟩ | ⟨t, ht, hlease, hone⟩
  · rw [hnil] at hlog
    refine hold.frame (by rw [hlog]; rfl) hsame fun t ht => ?_
    exact ⟨fun hin => absurd ht (hover t hin), fun hin => absurd ht (hnone t hin)⟩
  · rw [hone] at hlog
    rw [effectsOf_new hlog hlease]
    exact hold.stop (hf.flying t ht) ht hlease hsame hover

theorem Rings.moves {e : Event} (hq : Quiet h.monitor) (hI : Rings h)
    (hm : Moves h.monitor e new h'.monitor)
    (hlog : h'.log = new.reverse ++ h.log) : Rings h' := by
  obtain ⟨s', log'⟩ := h'
  dsimp only at hm hlog
  cases hm with
  | refused | begin_ | go | done | drainTimedOut =>
    intro l hopen
    refine (hI l hopen).frame (by rw [hlog]; rfl) (.refl _) fun _ _ => .rfl
  | @grant _ _ th l hth hv =>
    refine hI.step (f := fun e => e.granted th.req _ _) hlog rfl
      (List.forall_mem_singleton.mpr rfl) (fun _ _ => .rfl) fun _ => ?_
    have hidle := hq.waits.parked l (.inl (visit_grant hv).1)
    refine .recorded ?_ ?_
    · rw [effectsOf_new (l := l) hlog rfl]
      exact Ring.holds_nil _
    · rw [Monitor.grant_self]
      exact fun hin => absurd (hidle.symm.trans hin) Bool.false_ne_true
  | activate hopen | take hopen =>
    exact hI.keep (f := Lease.activated) hlog rfl rfl (fun _ => hopen) ⟨rfl, rfl, rfl⟩
  | @submit _ req _ l ep buf dir hopen hcheck =>
    have hidle := (checkRequest_ok hcheck).idle
    refine hI.step (f := fun e => (e.activated).submitted _) hlog
      (submit_leases _ _ _) (List.forall_mem_singleton.mpr rfl)
      (fun t ht => ?_) fun _ => ?_
    · refine ⟨fun hin => ?_, List.mem_append_left _⟩
      rcases List.mem_append.mp hin with hold | hnew
      · exact hold
      · exact absurd (congrArg Transfer.lease (List.mem_singleton.mp hnew)) ht
    · rw [effectsOf_new (l := l) hlog rfl]
      refine (hI l hopen).submit hidle ?_ (List.mem_append_right _ (List.mem_singleton_self _)) rfl
      rw [submit_leases, Monitor.modify_self]
      rfl
  | @finish _ _ t hfirst =>
    have ht : t ∈ h.monitor.engine := List.mem_of_find?_eq_some hfirst
    refine hI.step (f := Lease.completed) hlog rfl
      (List.forall_mem_singleton.mpr rfl) (fun t' ht' => ?_) fun hopen => ?_
    · refine List.mem_erase_of_ne fun heq => ht' ?_
      rw [heq]
    rw [effectsOf_new (l := t.lease) hlog rfl]
    refine (hI t.lease hopen).stop (hq.flies.flying t ht) ht rfl ?_ ?_
    · exact (Monitor.modify_self _ _ _) ▸ ⟨rfl, rfl, rfl⟩
    · intro t' ht' heq
      have hpair := (List.perm_cons_erase ht).pairwise hq.flies.single (fun hab => Ne.symm hab)
      exact (List.pairwise_cons.mp hpair).1 t' ht' heq.symm
  | timeOut => exact hI.timeOut hq.flies rfl hlog
  | @respond w hmem hdone =>
    refine hI.step (f := fun e => e.responded w.req.cookie) hlog rfl
      (List.forall_mem_nil _) (fun _ _ => .rfl) fun hopen => ?_
    rw [hlog]
    have hfl : (h.monitor.leases w.lease).inFlight = true := by
      cases hfl : (h.monitor.leases w.lease).inFlight with
      | true => rfl
      | false => exact absurd rfl (hq.waits.none_waiting hfl hmem)
    exact (hI w.lease hopen).record hfl (hq.waits.cookie w hmem)
      (fun _ => hq.flies.none_flying (.inr hdone))
      (Monitor.modify_self _ w.lease fun e => e.responded w.req.cookie)
  | drain | sleep =>
    refine hI.close (f := Lease.drained) hlog rfl (List.forall_mem_nil _) (fun _ _ => .rfl) ?_
    rintro (ho | ho) <;> cases ho
  | forceDrain =>
    refine hI.close (f := Lease.forceDrained) hlog rfl (fun _ => terminated_lease hq.flies)
      (fun _ => mem_terminate_iff hq.flies) ?_
    rintro (ho | ho) <;> cases ho
  | drainWoken =>
    exact hI.keep (f := Lease.waited) hlog rfl rfl id ⟨rfl, rfl, rfl⟩
  | release =>
    refine hI.close (f := Lease.released) hlog rfl
      (List.forall_mem_singleton.mpr rfl) (fun _ _ => .rfl) ?_
    rintro (ho | ho) <;> cases ho
  | quarantine =>
    refine hI.close (f := Lease.quarantined) hlog rfl (List.forall_mem_nil _) (fun _ _ => .rfl) ?_
    rintro (ho | ho) <;> cases ho
  | @pardon _ remapped =>
    refine hI.close (f := Lease.pardoned) hlog rfl ?_ (fun _ _ => .rfl) ?_
    · cases remapped with
      | true => exact List.forall_mem_singleton.mpr rfl
      | false => exact List.forall_mem_nil _
    · rintro (ho | ho) <;> cases ho

-- ==== capabilities and epochs

/-- Every grant so far has an epoch up to the current one, and the grant
a lease takes requests for is the newest and like no earlier one. -/
structure Granted (e : Lease) (own : List Effect) : Prop where
  le : ∀ g ∈ grants own, g.2.toNat ≤ e.epoch.toNat
  current : e.Open → ∃ old, grants own = (e.capability, e.epoch) :: old ∧
    ∀ g ∈ old, g.1 ≠ e.capability ∧ g.2.toNat < e.epoch.toNat

def Grants (h : Host) : Prop :=
  ∀ l, Granted (h.monitor.leases l) (effectsOf l h.log)

/-- A record that stays with its grant, or is closed. -/
def Lease.SameGrant (e e' : Lease) : Prop :=
  e'.epoch = e.epoch ∧ (e'.Open → e.Open ∧ e'.capability = e.capability)

theorem Lease.SameGrant.refl (e : Lease) : e.SameGrant e :=
  ⟨rfl, fun h => ⟨h, rfl⟩⟩

variable {e e' : Lease}

theorem Lease.SameGrant.of_state {q : LeaseState} (hepoch : e'.epoch = e.epoch)
    (hq : e'.state = q) (hclosed : q ≠ .active ∧ q ≠ .starting) :
    e.SameGrant e' := by
  refine ⟨hepoch, ?_⟩
  rintro (ho | ho)
  · exact absurd (hq.symm.trans ho) hclosed.1
  · exact absurd (hq.symm.trans ho) hclosed.2

theorem Granted.frame (h : Granted e own) (hown : grants own' = grants own)
    (hsame : e.SameGrant e') : Granted e' own' := by
  obtain ⟨hepoch, hopen⟩ := hsame
  refine ⟨?_, fun ho => ?_⟩
  · rw [hown, hepoch]
    exact h.le
  · obtain ⟨hwas, hcap⟩ := hopen ho
    rw [hown, hcap, hepoch]
    exact h.current hwas

/-- The lease is handed out under a new capability and the next epoch. -/
theorem Granted.grant {capability : UInt64} (h : Granted e own)
    (hfresh : capability ∉ (grants own).map Prod.fst)
    (hwrap : e.epoch.toNat + 1 < 2 ^ 64) (hepoch : e'.epoch = e.epoch + 1)
    (hcap : e'.capability = capability) :
    Granted e' (.granted l capability (e.epoch + 1) :: own) := by
  have hnext : (e.epoch + 1).toNat = e.epoch.toNat + 1 := toNat_add_exact hwrap
  have hlt : ∀ g ∈ grants own, g.2.toNat < (e.epoch + 1).toNat := by
    intro g hg
    have hle := h.le g hg
    omega
  constructor
  · rw [hepoch]
    exact List.forall_mem_cons.mpr ⟨Nat.le_refl _, fun g hg => (hlt g hg).le⟩
  intro _
  refine ⟨grants own, by rw [hcap, hepoch]; rfl, fun g hg => ?_⟩
  rw [hcap, hepoch]
  refine ⟨?_, hlt g hg⟩
  rintro rfl
  exact hfresh (List.mem_map_of_mem hg)

/-- Lifting a quarantine counts the epoch on and opens nothing. -/
theorem Granted.pardon (h : Granted e own) (hown : grants own' = grants own)
    (hwrap : e.epoch.toNat + 1 < 2 ^ 64) (hepoch : e'.epoch = e.epoch + 1)
    (hclosed : ¬ e'.Open) : Granted e' own' := by
  have hnext : (e.epoch + 1).toNat = e.epoch.toNat + 1 := toNat_add_exact hwrap
  refine ⟨fun g hg => ?_, fun ho => absurd ho hclosed⟩
  rw [hown] at hg
  have hle := h.le g hg
  rw [hepoch, hnext]
  omega

def Effect.isGrant : Effect → Bool
  | .granted _ _ _ => true
  | .programmed _ | .stopped _ | .cleared _ => false

theorem grants_append (h : ∀ x ∈ new, x.isGrant = false) : grants (new ++ own) = grants own := by
  induction new with
  | nil => rfl
  | cons x new ih =>
    rw [List.forall_mem_cons] at h
    rw [← ih h.2]
    cases x with
    | granted => exact absurd h.1.symm Bool.false_ne_true
    | _ => rfl

theorem Grants.keep (hI : Grants h) (hlog : h'.log = new.reverse ++ h.log)
    (hnew : ∀ x ∈ new, x.isGrant = false)
    (hsame : ∀ l, (h.monitor.leases l).SameGrant (h'.monitor.leases l)) :
    Grants h' := by
  intro l
  refine (hI l).frame ?_ (hsame l)
  rw [hlog, effectsOf, List.filter_append]
  refine grants_append fun x hx => ?_
  exact hnew x (List.mem_reverse.mp (List.mem_of_mem_filter hx))

theorem Grants.modify (hI : Grants h) (hlog : h'.log = new.reverse ++ h.log)
    (hnew : ∀ x ∈ new, x.isGrant = false)
    (hl : h'.monitor.leases = (h.monitor.modify l f).leases)
    (hf : (h.monitor.leases l).SameGrant (f (h.monitor.leases l))) : Grants h' := by
  refine hI.keep hlog hnew fun j => ?_
  rw [hl]
  exact h.monitor.modify_rel l Lease.SameGrant.refl hf j

theorem Grants.moves {e : Event} (hI : Grants h) (hC : Fresh h e)
    (hm : Moves h.monitor e new h'.monitor)
    (hlog : h'.log = new.reverse ++ h.log) : Grants h' := by
  obtain ⟨s', log'⟩ := h'
  dsimp only at hm hlog
  cases hm with
  | refused | begin_ | go | done | drainTimedOut =>
    exact hI.keep hlog (List.forall_mem_nil _) fun _ => .refl _
  | @grant capability _ th l hth hv =>
    obtain ⟨hfresh, hwrap⟩ := hC l (nextGrant_eq hth hv)
    intro j
    by_cases hj : j = l
    · subst hj
      rw [effectsOf_new (l := j) hlog rfl]
      rw [Monitor.grant_self]
      exact (hI j).grant hfresh hwrap rfl rfl
    · refine (hI j).frame (congrArg grants ?_) ?_
      · rw [hlog]
        exact effectsOf_append_of_ne (List.forall_mem_singleton.mpr (Ne.symm hj))
      · rw [Monitor.grant_of_ne _ l hj]
        exact .refl _
  | activate hopen | take hopen =>
    exact hI.modify (f := Lease.activated) hlog (List.forall_mem_nil _) rfl
      ⟨rfl, fun _ => ⟨hopen, rfl⟩⟩
  | submit hopen =>
    exact hI.modify hlog (List.forall_mem_singleton.mpr rfl) (submit_leases _ _ _)
      ⟨rfl, fun _ => ⟨hopen, rfl⟩⟩
  | finish =>
    exact hI.modify (f := Lease.completed) hlog (List.forall_mem_singleton.mpr rfl) rfl
      ⟨rfl, fun ho => ⟨ho, rfl⟩⟩
  | timeOut =>
    refine hI.modify (f := Lease.timedOut) hlog (fun x hx => ?_) rfl ⟨rfl, fun ho => ⟨ho, rfl⟩⟩
    obtain ⟨t, -, rfl⟩ := mem_terminated hx
    rfl
  | @respond w =>
    exact hI.modify (f := fun e => e.responded w.req.cookie) hlog (List.forall_mem_nil _) rfl
      ⟨rfl, fun ho => ⟨ho, rfl⟩⟩
  | drain | sleep =>
    exact hI.modify (f := Lease.drained) hlog (List.forall_mem_nil _) rfl
      (.of_state (q := .draining) rfl rfl (by decide))
  | forceDrain =>
    refine hI.modify (f := Lease.forceDrained) hlog (fun x hx => ?_) rfl
      (.of_state (q := .draining) rfl rfl (by decide))
    obtain ⟨t, -, rfl⟩ := mem_terminated hx
    rfl
  | drainWoken =>
    exact hI.modify (f := Lease.waited) hlog (List.forall_mem_nil _) rfl
      ⟨rfl, fun ho => ⟨ho, rfl⟩⟩
  | release =>
    exact hI.modify (f := Lease.released) hlog (List.forall_mem_singleton.mpr rfl) rfl
      (.of_state (q := .free) rfl rfl (by decide))
  | quarantine =>
    exact hI.modify (f := Lease.quarantined) hlog (List.forall_mem_nil _) rfl
      (.of_state (q := .quarantined) rfl rfl (by decide))
  | @pardon _ remapped l hl =>
    have hplain : ∀ x ∈ (if remapped then [Effect.cleared l] else []), x.isGrant = false := by
      cases remapped with
      | true => exact List.forall_mem_singleton.mpr rfl
      | false => exact List.forall_mem_nil _
    have hown : ∀ j, grants (effectsOf j log') = grants (effectsOf j h.log) := by
      intro j
      rw [hlog, effectsOf, List.filter_append]
      refine grants_append fun x hx => ?_
      exact hplain x (List.mem_reverse.mp (List.mem_of_mem_filter hx))
    intro j
    by_cases hj : j = l
    · subst hj
      refine (hI j).pardon (hown j) (hC j hl) ?_ ?_
      · exact congrArg Lease.epoch (Monitor.modify_self _ j _)
      · rw [Monitor.modify_self]
        rintro (ho | ho) <;> cases ho
    · refine (hI j).frame (hown j) ?_
      exact (Monitor.modify_of_ne _ l hj _) ▸ .refl _

theorem reachable_rings {c : Config} (hr : ((system c).restrict Fresh).Reachable h) :
    Quiet h.monitor ∧ Rings h ∧ Grants h := by
  have hquiet : ∀ {h}, ((system c).restrict Fresh).Reachable h → Quiet h.monitor :=
    fun hr => reachable_quiet (hr.restrict_mono fun _ _ hC => Fresh.unhurried hC)
  refine ⟨hquiet hr, hr.induct (I := fun h => Rings h ∧ Grants h) ?_ ?_⟩
  · rintro _ rfl
    have hclosed : ∀ l, ¬ (c.lease l).Open := by
      intro l
      rw [lease_fresh]
      rintro (ho | ho) <;> cases ho
    refine ⟨fun l ho => absurd ho (hclosed l), fun l => ⟨?_, ?_⟩⟩
    · exact List.forall_mem_nil _
    · exact fun ho => absurd ho (hclosed l)
  · intro h e h' hr' hI hstep
    obtain ⟨new, hmoves, hlog⟩ := exec_moves hstep.2
    exact ⟨hI.1.moves (hquiet hr') hmoves hlog, hI.2.moves hstep.1 hmoves hlog⟩

-- ==== single flight

/-- The request has the cookie of the lease's outstanding transfer or of
one of the last 32 that are over, in the current allocation. -/
def Host.Repeats (h : Host) (l : Fin 4) (req : Request) : Prop :=
  req.cookie ≠ 0 ∧ ((∃ t ∈ h.monitor.engine, t.lease = l ∧ t.cookie = req.cookie) ∨
      req.cookie ∈ (spent (effectsOf l h.log)).take 32)

/-- The request has the capability or the epoch of an allocation of the
lease that is over. -/
def Host.Outdated (h : Host) (l : Fin 4) (req : Request) : Prop :=
  ∃ g ∈ h.earlier l, req.capability = g.1 ∨ req.epoch = g.2

theorem Flies.countP_le_one (hf : Flies s) (l : Fin 4) : s.engine.countP (·.lease = l) ≤ 1 := by
  rw [List.countP_eq_length_filter]
  by_cases hany : ∃ t ∈ s.engine, t.lease = l
  · obtain ⟨t, ht, hlease⟩ := hany
    rw [eq_singleton_of_lease (l := l) (hf.single.filter _) ?_
      (List.mem_filter.mpr ⟨ht, decide_eq_true hlease⟩)]
    · exact Nat.le_refl 1
    · intro t' ht'
      exact of_decide_eq_true (List.mem_filter.mp ht').2
  · rw [List.filter_eq_nil_iff.mpr]
    · exact Nat.zero_le 1
    · intro t ht hlease
      exact hany ⟨t, ht, of_decide_eq_true hlease⟩

theorem Quiet.not_repeats {req : Request} {ep : Endpoint} {buf : UInt64}
    (hq : Quiet h.monitor) (hrings : Rings h)
    (hopen : (h.monitor.leases l).Open) (hadm : Admitted h.monitor l req ep buf) :
    ¬ h.Repeats l req := by
  rintro ⟨hne, ⟨t, ht, hlease, -⟩ | hmem⟩
  · exact hq.flies.none_flying (.inl hadm.idle) ht hlease
  cases hrings l hopen with
  | recorded hring =>
    obtain ⟨i, hi⟩ := hring.mem_slot hmem
    exact hadm.fresh ⟨hne, .inr ⟨i, hi ▸ hne, hi⟩⟩
  | pending _ _ hfl =>
    exact absurd (hadm.idle.symm.trans hfl) Bool.false_ne_true

theorem Grants.not_outdated {req : Request} {ep : Endpoint} {buf : UInt64}
    (hgrants : Grants h) (hopen : (h.monitor.leases l).Open)
    (hadm : Admitted h.monitor l req ep buf) : ¬ h.Outdated l req := by
  obtain ⟨old, heq, hold⟩ := (hgrants l).current hopen
  rintro ⟨g, hg, hcap | hepoch⟩
  · rw [Host.earlier, if_pos hopen, heq] at hg
    exact (hold g hg).1 (hcap.symm.trans hadm.capability)
  rw [Host.earlier, if_pos hopen, heq] at hg
  have hlt := (hold g hg).2
  rw [← hepoch, hadm.epoch] at hlt
  exact Nat.lt_irrefl _ hlt

/-- Single flight and replay, where they hold: as long as leases are
released with nothing in flight and no capability or epoch comes back, a
lease has at most one transfer outstanding, and a request that repeats a
cookie or comes from an earlier allocation is refused. -/
theorem single_flight_replay {c : Config} {h : Host}
    (hr : ((system c).restrict Fresh).Reachable h) (l : Fin 4) :
    h.monitor.engine.countP (·.lease = l) ≤ 1 ∧
    ∀ req env, h.Repeats l req ∨ h.Outdated l req →
      ∃ e, (h.monitor.dispatchRequest l req env).result = .error e := by
  obtain ⟨hq, hrings, hgrants⟩ := reachable_rings hr
  refine ⟨hq.flies.countP_le_one l, fun req env hbad => ?_⟩
  cases hres : (h.monitor.dispatchRequest l req env).result with
  | error e => exact ⟨e, rfl⟩
  | ok t =>
    obtain ⟨hopen, ep, buf, hadm⟩ := dispatchRequest_ok hres
    rcases hbad with hrep | hout
    · exact absurd hrep (hq.not_repeats hrings hopen hadm)
    · exact absurd hout (hgrants.not_outdated hopen hadm)

instance (h : Host) : DecidablePred (Fresh h)
  | .allocStep _ _ => inferInstanceAs (Decidable (∀ _, _ → _ ∧ _))
  | .quarantineRelease _ _ => inferInstanceAs (Decidable (∀ _, _ → _))
  | .release id epoch remapped =>
    inferInstanceAs (Decidable (Unhurried h (.release id epoch remapped)))
  | .allocBegin .. | .dispatch .. | .finished .. | .watchdogFired ..
  | .woken .. | .drain .. | .drainWoken .. | .drainTimedOut .. =>
    inferInstanceAs (Decidable True)

/-- CID 7 sends under cookie 9, and asks for the same again. -/
theorem single_flight_replay_sample :
    ∃ h, ((system (sampleConfig (some sampleMap))).restrict Fresh).Reachable h ∧
      h.Repeats 0 (sampleRequest 0x51 2 9) ∧
      ∃ e, (h.monitor.dispatchRequest 0 (sampleRequest 0x51 2 9) {}).result = .error e := by
  obtain ⟨h, hr, hspent⟩ := Reachable.exists_exec
    (M := (system (sampleConfig (some sampleMap))).restrict Fresh)
    (f := fun h e => if Fresh h e then h.exec e else none)
    (fun _ _ _ => Option.ite_none_right_eq_some.mp)
    (l := sampleSend ++ [.finished .uart2 .memToDev, .woken sampleWaiter])
    (p := fun h => 9 ∈ (spent (effectsOf 0 h.log)).take 32)
    (.init rfl) (by decide)
  have hrep : h.Repeats 0 (sampleRequest 0x51 2 9) :=
    ⟨by decide, .inr hspent⟩
  exact ⟨h, hr, hrep, (single_flight_replay hr 0).2 _ {} (.inl hrep)⟩

/-- CID 7's lease is released while its transfer is at the engine, and
CID 8 is given it and sends under cookie 5. -/
def sampleHurry : List Event :=
  sampleSend ++ [.release 0 0 true] ++ sampleAlloc 2 8 0x52 ++
    [.dispatch 0 (sampleRequest 0x52 3 5) {}]

/-- A lease with two transfers outstanding. When the first one ends, the
dispatcher of the earlier allocation wakes up and lowers the flag of the
second one, whose cookie is then taken again. -/
theorem two_in_flight : (∃ h, (system (sampleConfig (some sampleMap))).Reachable h ∧
      h.monitor.engine.countP (·.lease = 0) = 2) ∧
    ∃ h, (system (sampleConfig (some sampleMap))).Reachable h ∧
      h.Repeats 0 (sampleRequest 0x52 3 5) ∧
      ∃ t, (h.monitor.dispatchRequest 0 (sampleRequest 0x52 3 5) {}).result = .ok t := by
  constructor
  · exact (boot_reachable _).exists_exec
      (M := system (sampleConfig (some sampleMap))) (fun _ _ _ => id)
      (l := sampleHurry) (by decide)
  obtain ⟨h, hr, hflying, hok⟩ := (boot_reachable _).exists_exec
    (M := system (sampleConfig (some sampleMap))) (fun _ _ _ => id)
    (l := sampleHurry ++ [.finished .uart2 .memToDev, .woken sampleWaiter])
    (p := fun h => (∃ t ∈ h.monitor.engine, t.lease = 0 ∧ t.cookie = 5) ∧
      (h.monitor.dispatchRequest 0 (sampleRequest 0x52 3 5) {}).result.toBool = true) (by decide)
  exact ⟨h, hr, ⟨by decide, .inl hflying⟩, exists_ok_of_toBool hok⟩

end AmbaVirt.Dma
