/-
The epochs of the low leases, and of both lease managers.

As in AmbaVirt.Lease.Epochs: the hall is followed through `Lib.Ledger`,
each lock section as one of its steps (`Accounts`). A restarted server
takes its epoch counter from the leases it loads, so `Renews` asks that
the newest lease be in the store. It also asks that a run end with its
counter: a caller that waited is served without a look at it.
-/
import AmbaVirt.Lease.Epochs
import AmbaVirt.Low.Replies

namespace AmbaVirt.Low

open Lib Function

namespace Leases

variable {x : Leases Text} {p : Text × UInt64} {l : Lease Text} {k : Fin 8}

def keys (x : Leases Text) (k : Fin 8) : Option (Text × UInt64) := (x.slots k).map key

def Stored (x : Leases Text) : Set (Text × UInt64) :=
  { p | ∃ l, Line.lease l ∈ x.store ∧ key l = p }

def Live (x : Leases Text) : Set (Text × UInt64) := { p | ∃ k, x.keys k = some p }

theorem keys_some :
    x.keys k = some p ↔ ∃ l, x.slots k = some l ∧ key l = p := Option.map_eq_some_iff

theorem stored_save (x : Leases Text) : (x.save true).Stored = x.Live := by
  ext p
  show (∃ l, Line.lease l ∈ x.lines ∧ key l = p) ↔ ∃ k, x.keys k = some p
  simp only [lease_mem_lines, keys_some]
  constructor
  · intro h
    obtain ⟨l, ⟨k, hk⟩, hkey⟩ := h
    exact ⟨k, l, hk, hkey⟩
  · intro h
    obtain ⟨k, l, hk, hkey⟩ := h
    exact ⟨l, ⟨k, hk⟩, hkey⟩

theorem keys_setSlot (k : Fin 8) (l : Option (Lease Text)) (j : Fin 8) :
    (x.setSlot k l).keys j = if j = k then l.map key else x.keys j := by
  show (update x.slots k l j).map key = _
  rw [update_apply]
  split <;> rfl

theorem keys_put {j : Fin 8}
    (h : (x.setSlot k (some l)).keys j = some p) :
    x.keys j = some p ∨ j = k ∧ some (key l) = some p := by
  rw [keys_setSlot] at h
  split at h
  · rename_i hj
    exact .inr ⟨hj, h⟩
  · exact .inl h

def ledger (x : Leases Text) (up : Bool) (granted freed : List (Text × UInt64)) :
    Ledger (Fin 8) Text where
  up := up
  next := x.nextEpoch
  live := x.keys
  stored := x.Stored
  granted := granted
  freed := freed

/-- A save after a change that keeps the leases of the table. -/
theorem stored_save_subset {y : Leases Text} (h : y.keys = x.keys)
    (hstore : y.store = x.store) (ok : Bool) : (y.save ok).Stored ⊆ x.Stored ∪ x.Live := by
  cases ok with
  | true =>
    rw [stored_save, Live, h]
    exact Set.subset_union_right
  | false =>
    show y.Stored ⊆ _
    rw [Stored, hstore]
    exact Set.subset_union_left

end Leases

-- ==== sections

/-- A section is a step of the ledger. -/
def Accounts (up : Bool) (s : Server Text) (x : Section) : Prop :=
  ∀ granted freed, (s.ledger up granted freed).Step
    ((exec x.acts s).ledger up ((x.granted.map key).toList ++ granted)
      ((x.freed.map key).toList ++ freed))

section Sections

variable {s : Server Text} {uuid : Text} {cid : UInt32} {up ok : Bool} {x : Section}

theorem accounts_keep (hg : x.granted = none) (hf : x.freed = none)
    (hlive : (exec x.acts s).keys = s.keys)
    (hstored : (exec x.acts s).Stored ⊆ s.Stored ∪ s.Live)
    (hnext : (exec x.acts s).nextEpoch = s.nextEpoch ∨
      s.nextEpoch ≠ 0 ∧ (exec x.acts s).nextEpoch = s.nextEpoch + 1) :
    Accounts up s x := by
  intro granted freed
  rw [hg, hf]
  refine .keep rfl ?_ hstored hnext rfl rfl
  intro k p hp
  exact (congrFun hlive k).symm.trans hp

theorem accounts_nil (hx : x.acts = []) (hg : x.granted = none)
    (hf : x.freed = none) : Accounts up s x := by
  refine accounts_keep hg hf ?_ ?_ ?_ <;> rw [hx]
  · rfl
  · exact Set.subset_union_left
  · exact .inl rfl

theorem accounts_reserveFound (hl : s.slots k = some l) :
    Accounts up s (reserveFound cid ok k l) := by
  have hexec : (exec (reserveFound cid ok k l).acts s).toLeases
      = (s.setSlot k (some { l with cid := cid })).save ok := by
    unfold reserveFound
    by_cases hc : l.cid = cid <;> cases ok <;> simp [hc] <;> rfl
  have hkeys : (s.setSlot k (some { l with cid := cid })).keys = s.keys := by
    funext j
    rw [Leases.keys_setSlot]
    split
    · rename_i heq
      rw [heq, Leases.keys, hl]
      rfl
    · rfl
  refine accounts_keep rfl rfl ?_ ?_ ?_
  · rw [hexec]
    cases ok <;> exact hkeys
  · rw [hexec]
    exact Leases.stored_save_subset hkeys rfl ok
  · rw [hexec]
    cases ok <;> exact .inl rfl

/-- A grant, or one that could not be saved, of a server whose counter has
not run out. -/
theorem accounts_grantNew {i : Fin 8} (hup : up = true) (h0 : s.nextEpoch ≠ 0) :
    Accounts up s (grantNew s uuid cid ok i) := by
  unfold grantNew
  cases hk : s.freeSlot with
  | none => exact accounts_nil rfl rfl rfl
  | some k =>
    have hfree := Leases.freeSlot_spec hk
    cases ok with
    | false =>
      refine accounts_keep rfl rfl ?_ ?_ (.inr ⟨h0, rfl⟩)
      · funext j
        show (update (update s.slots k _) k none j).map key = _
        rw [update_idem, update_eq_self_iff.mpr hfree.symm]
        rfl
      · exact Set.subset_union_left
    | true =>
      intro granted freed
      refine .act k (some (uuid, s.nextEpoch)) none rfl ?_ ?_ ?_ nofun (.inr ⟨h0, rfl⟩) rfl rfl
      · intro j p hp
        exact Leases.keys_put (l := ⟨uuid, i, s.nextEpoch, cid⟩) hp
      swap
      · intro p hp
        cases hp
        exact ⟨hup, h0, rfl, rfl⟩
      intro p hp
      -- what the save wrote is what the table holds now
      have hp : p ∈ (Leases.save { s.setSlot k (some ⟨uuid, i, s.nextEpoch, cid⟩) with
          nextEpoch := s.nextEpoch + 1 } true).Stored := hp
      rw [Leases.stored_save] at hp
      obtain ⟨j, hj⟩ := hp
      rcases Leases.keys_put (l := ⟨uuid, i, s.nextEpoch, cid⟩) hj with hj | ⟨-, hp⟩
      · exact .inr (.inl ⟨j, hj⟩)
      · exact .inr (.inr hp)

theorem accounts_reserves {waited : Bool}
    (hx : Reserves s uuid cid up waited x) (h0 : s.nextEpoch ≠ 0) : Accounts up s x := by
  cases hx with
  | quiet hacts hg hf => exact accounts_nil hacts hg hf
  | found _ _ _ _ _ hl => exact accounts_reserveFound hl
  | grant hup => exact accounts_grantNew hup h0
  | bound => exact accounts_keep rfl rfl rfl Set.subset_union_left (.inl rfl)

theorem accounts_releaseLocked {epoch : UInt64} :
    Accounts up s (releaseLocked s uuid epoch ok) := by
  unfold releaseLocked
  split
  · exact accounts_nil rfl rfl rfl
  cases hu : s.findUuid uuid with
  | none => exact accounts_nil rfl rfl rfl
  | some k =>
    obtain ⟨l, hl, -⟩ := Leases.findUuid_some hu
    simp only [hl, Option.elim_some]
    split
    · exact accounts_nil rfl rfl rfl
    cases ok with
    | false =>
      refine accounts_keep rfl rfl ?_ Set.subset_union_left (.inl rfl)
      funext j
      show (update (update s.slots k none) k (some l) j).map key = _
      rw [update_idem, update_eq_self_iff.mpr hl.symm]
      rfl
    | true =>
      intro granted freed
      have hlive : ∀ j q, (s.setSlot k none).keys j = some q → s.keys j = some q := by
        intro j q hq
        rw [Leases.keys_setSlot] at hq
        split at hq
        · cases hq
        · exact hq
      have hstored := (Leases.stored_save ((s.setScrub l.index true).setSlot k none)).subset
      refine .act k none (some (key l)) rfl (fun j q hq => .inl (hlive j q hq)) ?_ ?_ ?_
        (.inl rfl) rfl rfl
      · intro p hp
        obtain ⟨j, hj⟩ := hstored hp
        exact .inr (.inl ⟨j, hlive j p hj⟩)
      · intro p hp
        cases hp
      · intro p hp
        cases hp
        refine ⟨Leases.keys_some.mpr ⟨l, hl, rfl⟩, ?_, hstored⟩
        exact (Leases.keys_setSlot k none k).trans (if_pos rfl)

end Sections

-- ==== the hall

def Hall.ledger (h : Hall) : Ledger (Fin 8) Text :=
  h.srv.ledger h.ready h.granted h.freed

variable {waits : Bool}

def Line.leaseOf : Line Text → Option (Lease Text)
  | .lease l => some l
  | .scrub _ => none

/-- A load of these leases takes `l`: no other has its uuid or its slice,
and there are slots for all. -/
structure Fits (ls : List (Lease Text)) (l : Lease Text) : Prop where
  epoch : l.epoch ≠ 0
  only : ∀ m ∈ ls, m.uuid = l.uuid ∨ m.index = l.index → m = l
  room : ls.length ≤ 8
  last : ∀ m ∈ ls, m.epoch ≠ 0xffffffffffffffff

/-- When the store is loaded, nothing has been granted yet, or a lease no
epoch granted is above is in the store and fits. No call or load finds
the counter run out. -/
def Hall.Renews (h : Hall) : HallEvent → Prop
  | .call _ => h.srv.nextEpoch ≠ 0
  | .arm => h.srv.nextEpoch ≠ 0 ∧ (h.granted = [] ∨ ∃ l ∈ h.srv.store.filterMap Line.leaseOf,
      Fits (h.srv.store.filterMap Line.leaseOf) l ∧ ∀ p ∈ h.granted, p.2 ≤ l.epoch)
  | _ => True

section Steps

variable {h h' : Hall} {c : Call} {x : Section} {srv' : Server Text} {e : Event Text}

theorem accounts_call (hinv : HallInv h) (hx : c.sectionOf waits h = some x)
    (h0 : h.srv.nextEpoch ≠ 0) : Accounts h.ready h.srv x := by
  rcases hinv.section_cases hx with ⟨hacts, hg, hf⟩ | ⟨_, _, _, hres⟩ | ⟨_, _, _, rfl⟩
  · exact accounts_nil hacts hg hf
  · exact accounts_reserves hres h0
  · exact accounts_releaseLocked

theorem loadLines_reload {all : List (Line Text)} (ls : List (Line Text)) (s : Server Text)
    (hsub : ls ⊆ all) (h : Loading all s) :
    Ledger.Reload Lease.epoch
      (fun l => l.epoch ≠ 0 ∧ l.cid ≠ 0 ∧ Line.scrub l.index ∉ all)
      (fun m l => m.uuid = l.uuid ∨ m.index = l.index) (ls.filterMap Line.leaseOf) s.slots
      s.nextEpoch (s.loadLines ls).nextEpoch := by
  induction ls generalizing s with
  | nil => exact .nil
  | cons line ls ih =>
    rw [List.cons_subset] at hsub
    cases line with
    | scrub i => exact ih _ hsub.2 (h.setScrub hsub.1)
    | lease l =>
      have hcons : (Line.lease l :: ls).filterMap Line.leaseOf =
          l :: ls.filterMap Line.leaseOf := rfl
      rw [Server.loadLines, hcons]
      split
      case isTrue hskip =>
        refine .skip (fun hgood => ?_) (ih s hsub.2 h)
        rcases hskip with h0 | h0 | hu | ⟨k, m, hk, hi⟩ | hs
        · exact absurd h0 hgood.1
        · exact absurd h0 hgood.2.1
        · obtain ⟨k, hk⟩ := Option.isSome_iff_exists.mp hu
          obtain ⟨m, hm, hu⟩ := Leases.findUuid_some hk
          exact ⟨k, m, hm, .inl hu⟩
        · exact ⟨k, m, hk, .inr hi⟩
        · exact absurd (h.scrub_mem hs) hgood.2.2
      case isFalse htake =>
      simp only [not_or] at htake
      obtain ⟨-, -, huuid, htaken⟩ := htake
      have hi : ¬ s.IndexLeased l.index := fun hi => htaken (.inl hi)
      obtain ⟨k, hk⟩ := h.index_inj.freeSlot_isSome hi
      rw [Option.isSome_iff_ne_none, not_not] at huuid
      rw [hk]
      exact .take k (Leases.freeSlot_spec hk) (fun _ => rfl) (ih (s.addLease k l) hsub.2
        (h.addLease hsub.1 (Leases.freeSlot_spec hk) hi fun _ _ => Leases.findUuid_none huuid))

/-- The load of an armed server takes leases of its store. -/
theorem ledger_arm (hinv : HallInv h) (hready : h.ready = false) (hC : h.Renews .arm) :
    h.ledger.Step h.arm.ledger := by
  have hstart := (hinv.unarmed hready).1
  have hload := hstart.loading.loadLines h.srv.store h.srv (List.Subset.refl _)
  obtain ⟨-, -, -, -, -, hstore, -⟩ := loadLines_frame h.srv.store h.srv
  have hsrv : h.arm.srv = (h.srv.loadLines h.srv.store).quarantineUnleased := by
    show exec _ _ = _
    rw [exec_append, exec_loadActs]
    rfl
  have hslots : h.arm.srv.slots = (h.srv.loadLines h.srv.store).slots := by
    rw [hsrv]
    rfl
  have hpast : Ledger.Past h.arm.srv.nextEpoch h.granted := by
    obtain ⟨h0, hnil | ⟨l, hl, hfits, hnewest⟩⟩ := hC
    · rw [hnil]
      exact .inr (List.forall_mem_nil _)
    have hno : ∀ {k m}, h.srv.slots k ≠ some m := fun {k m} hk => by
      rw [hstart.slots k] at hk
      cases hk
    have hline : Line.lease l ∈ h.srv.store := by
      obtain ⟨line, hmem, hl⟩ := List.mem_filterMap.mp hl
      cases line <;> cases hl
      exact hmem
    refine .inr fun p hp => UInt64.lt_of_le_of_lt (hnewest p hp) ?_
    rw [hsrv]
    refine (loadLines_reload _ h.srv (List.Subset.refl _) hstart.loading).past
      ⟨hfits.epoch, hinv.rest.table.store hline⟩ ⟨.inl hl, fun _ hk => absurd hk hno,
      fun m hm => hfits.only m (hm.resolve_right fun ⟨_, hk⟩ => hno hk), ?_, hfits.last, h0⟩
    rw [Finset.filter_true_of_mem fun k _ => hstart.slots k]
    exact hfits.room
  refine .load ?_ ?_ ?_ hpast rfl rfl
  · intro k p hp
    obtain ⟨l, hl, hkey⟩ := Leases.keys_some.mp hp
    rw [hslots] at hl
    exact ⟨l, hload.slots_mem hl, hkey⟩
  · intro i j uuid e e' hi hj
    obtain ⟨l, hl, hkey⟩ := Leases.keys_some.mp hi
    obtain ⟨l', hl', hkey'⟩ := Leases.keys_some.mp hj
    rw [hslots] at hl hl'
    exact hload.uuid_inj hl hl' ((congrArg Prod.fst hkey).trans (congrArg Prod.fst hkey').symm)
  · show h.arm.srv.Stored ⊆ h.srv.Stored
    have hsame : h.arm.srv.store = h.srv.store := by
      rw [hsrv]
      exact hstore
    unfold Leases.Stored
    rw [hsame]

theorem ledger_scrub (hs : ScrubStep h.srv e srv') :
    h.ledger.Step { h with srv := srv' }.ledger := by
  have hlive : ∀ k p, srv'.keys k = some p → h.srv.keys k = some p := by
    intro k p hp
    rw [Leases.keys, hs.kept.1] at hp
    exact hp
  cases hs with
  | @clear i ok _ _ =>
    refine .keep rfl hlive ?_ ?_ rfl rfl
    · exact Leases.stored_save_subset (y := h.srv.setScrub i false) rfl rfl ok
    · cases ok <;> exact .inl rfl
  | _ => exact .keep rfl hlive Set.subset_union_left (.inl rfl) rfl rfl

theorem ledger_job (hs : JobStep h.srv e srv') :
    h.ledger.Step { h with srv := srv' }.ledger := by
  cases hs <;> exact .keep rfl (fun _ _ hp => hp) Set.subset_union_left (.inl rfl) rfl rfl

theorem ledger_step {e : HallEvent} (hinv : HallInv h) (hC : h.Renews e)
    (hs : HallStep waits h e h') : h.ledger.Step h'.ledger := by
  cases hs with
  | @call c x hx => exact accounts_call hinv hx hC h.granted h.freed
  | arm hready => exact ledger_arm hinv hready hC
  | crash => exact .crash rfl (fun _ => rfl) subset_rfl rfl rfl
  | tick => exact .keep rfl (fun _ _ hp => hp) Set.subset_union_left (.inl rfl) rfl rfl
  | scrub hs => exact ledger_scrub hs
  | job hs => exact ledger_job hs

theorem ledger_reachable (hr : ((hallSystem waits).restrict Hall.Renews).Reachable h) :
    h.ledger.Inv := by
  refine System.Reachable.induct (I := fun h => h.ledger.Inv) ?_ ?_ hr
  · intro h h₀
    obtain ⟨now, rfl⟩ := h₀
    refine Ledger.inv_init rfl (fun _ => rfl) ?_ rfl rfl
    intro p hp
    obtain ⟨l, hl, -⟩ := hp
    cases hl
  · intro h e h' hr ih hs
    exact ih.step (ledger_step (hallInv_reachable hr.of_restrict) hs.1 hs.2)

end Steps

-- ==== both managers

/-- No two grants have the same epoch, and no lease is released twice. -/
def EpochsOnce (granted freed : List (Text × UInt64)) : Prop :=
  granted.Pairwise (fun p q => p.2 ≠ q.2) ∧ freed.Nodup

/-- In both lease managers epochs are used once, over every run whose
loads find the newest lease in the store. -/
theorem lease_epochs_once (waits : Bool) (s : AmbaVirt.Lease.Service)
    (hs : (AmbaVirt.Lease.serviceSystem.restrict AmbaVirt.Lease.Service.Renews).Reachable s)
    (h : Hall) (hh : ((hallSystem waits).restrict Hall.Renews).Reachable h) :
    EpochsOnce s.granted s.freed ∧ EpochsOnce h.granted h.freed := by
  have hslice := (AmbaVirt.Lease.Service.inv_reachable hs).ledger
  have hlow := ledger_reachable hh
  exact ⟨⟨hslice.stamps, hslice.nodup⟩, ⟨hlow.stamps, hlow.nodup⟩⟩

-- ---- an epoch used twice

section Sample

open AmbaVirt.Lease

def reserveSlice : ServiceEvent :=
  .command sampleCamera ⟨true, true⟩ "RESERVE_SLICE 1a2b 65536".toList

def releaseSlice : ServiceEvent :=
  .command sampleCamera ⟨true, true⟩ "RELEASE_SLICE 1a2b 1".toList

def sampleGeometry : ServiceEvent := .geometry true 2 65536 true

def sampleService (events : List ServiceEvent) : Service :=
  events.foldl Service.next ⟨{}, false, [], []⟩

theorem reachable_sampleService (events : List ServiceEvent) :
    serviceSystem.Reachable (sampleService events) := by
  unfold sampleService
  generalize hs : (⟨{}, false, [], []⟩ : Service) = s₀
  have h₀ : serviceSystem.Reachable s₀ := .init hs.symm
  clear hs
  induction events generalizing s₀ with
  | nil => exact h₀
  | cons e es ih => exact ih _ (h₀.step (e := e) rfl)

def sampleReused : Service :=
  sampleService [sampleGeometry, reserveSlice, releaseSlice, .restart, sampleGeometry,
    reserveSlice, releaseSlice]

/-- The server process has ended; a new one is not armed yet. -/
def Hall.crashed (h : Hall) : Hall :=
  { h with srv := .boot 20000 h.srv.store h.srv.log, ready := false, waiting := [] }

/-- The quarantine of what was released goes by. -/
def Hall.wait (h : Hall) : Hall :=
  { h with srv := { h.srv with now := h.srv.now + quarantineMs } }

def reserveLow : Call := .command (reserveText "1a" "5") true true

def releaseLow : Call := .command "RELEASE_LOW 1a 1".toList true true

def sampleFreed : Hall :=
  (((sampleArmed.scrubRound 0).call reserveLow).call releaseLow).crashed.arm.wait

def sampleLowReused : Hall := ((sampleFreed.scrubRound 0).call reserveLow).call releaseLow

theorem reachable_sampleLowReused : (hallSystem true).Reachable sampleLowReused := by
  have h₀ : (hallSystem true).Reachable (sampleArmed.scrubRound 0) := by
    refine scrubClosed_reachable.round reachable_sampleArmed 0 ?_ ?_ ?_ ?_ ?_
    all_goals decide
  have h₁ : (hallSystem true).Reachable sampleFreed := by
    have hcrash : (hallSystem true).Reachable
        (((sampleArmed.scrubRound 0).call reserveLow).call releaseLow).crashed :=
      (reachable_call (reachable_call h₀ _) _).step (e := .crash 20000) .crash
    have harm : (hallSystem true).Reachable
        (((sampleArmed.scrubRound 0).call reserveLow).call releaseLow).crashed.arm :=
      hcrash.step (e := .arm) (.arm rfl)
    exact harm.step (e := .tick quarantineMs) .tick
  have h₂ : (hallSystem true).Reachable (sampleFreed.scrubRound 0) := by
    refine scrubClosed_reachable.round h₁ 0 ?_ ?_ ?_ ?_ ?_
    all_goals decide
  exact reachable_call (reachable_call h₂ _) _

/-- In both managers one uuid is granted epoch 1 twice, and the release
of the first grant frees the second. -/
theorem epoch_used_twice : serviceSystem.Reachable sampleReused ∧
      sampleReused.granted = [("1a2b".toList, 1), ("1a2b".toList, 1)] ∧
      sampleReused.freed = [("1a2b".toList, 1), ("1a2b".toList, 1)] ∧
    (hallSystem true).Reachable sampleLowReused ∧
      sampleLowReused.granted = [("1a".toList, 1), ("1a".toList, 1)] ∧
      sampleLowReused.freed = [("1a".toList, 1), ("1a".toList, 1)] := by
  refine ⟨reachable_sampleService _, ?_, ?_, reachable_sampleLowReused, ?_, ?_⟩
  all_goals decide

def sampleKept : Service :=
  sampleService [sampleGeometry, reserveSlice, .restart, sampleGeometry]

theorem renews_next {s : Service} (hr : (serviceSystem.restrict Service.Renews).Reachable s)
    (e : ServiceEvent) (hC : s.Renews e) :
    (serviceSystem.restrict Service.Renews).Reachable (s.next e) :=
  hr.step (e := e) ⟨hC, rfl⟩

theorem renews_sampleKept : (serviceSystem.restrict Service.Renews).Reachable sampleKept := by
  have h₁ := renews_next (.init rfl) sampleGeometry fun _ => .inl rfl
  have h₃ := renews_next (renews_next h₁ reserveSlice trivial) .restart trivial
  refine renews_next h₃ sampleGeometry fun _ => .inr ⟨⟨"1a2b".toList, 0, 1, 65536, [], false⟩,
    ?_, ⟨?_, ?_, ?_, ?_, ?_⟩, ?_⟩
  all_goals decide

theorem renews_call {h : Hall} (hr : ((hallSystem true).restrict Hall.Renews).Reachable h)
    (h0 : h.srv.nextEpoch ≠ 0) (c : Call) :
    ((hallSystem true).restrict Hall.Renews).Reachable (h.call c) := by
  unfold Hall.call
  cases hx : c.sectionOf true h with
  | none => exact hr
  | some x => exact hr.step (e := .call c) ⟨h0, .call hx⟩

def sampleLowKept : Hall := ((sampleArmed.scrubRound 0).call reserveLow).crashed.arm

theorem renews_sampleLowKept :
    ((hallSystem true).restrict Hall.Renews).Reachable sampleLowKept := by
  have hscrub : ScrubClosed ((hallSystem true).restrict Hall.Renews).Reachable :=
    fun _ e _ hr hs => hr.step (e := .other e) ⟨trivial, .scrub hs⟩
  have h₀ : ((hallSystem true).restrict Hall.Renews).Reachable
      ⟨.boot 10000 [] [], false, [], [], []⟩ := .init ⟨10000, rfl⟩
  have h₁ : ((hallSystem true).restrict Hall.Renews).Reachable sampleArmed :=
    h₀.step (e := .arm) ⟨⟨by decide, .inl rfl⟩, .arm rfl⟩
  have h₂ : ((hallSystem true).restrict Hall.Renews).Reachable
      (sampleArmed.scrubRound 0) := by
    refine hscrub.round h₁ 0 ?_ ?_ ?_ ?_ ?_
    all_goals decide
  have h₃ : ((hallSystem true).restrict Hall.Renews).Reachable
      ((sampleArmed.scrubRound 0).call reserveLow).crashed :=
    (renews_call h₂ (by decide) reserveLow).step (e := .crash 20000) ⟨trivial, .crash⟩
  refine h₃.step (e := .arm) ⟨⟨by decide, .inr ⟨⟨"1a".toList, 0, 1, 5⟩, ?_, ⟨?_, ?_, ?_, ?_⟩, ?_⟩⟩,
    .arm rfl⟩
  all_goals decide

theorem lease_epochs_once_kept : sampleKept.granted = [("1a2b".toList, 1)] ∧
      sampleLowKept.granted = [("1a".toList, 1)] ∧
      EpochsOnce sampleKept.granted sampleKept.freed ∧
      EpochsOnce sampleLowKept.granted sampleLowKept.freed := by
  refine ⟨?_, ?_, lease_epochs_once true _ renews_sampleKept _ renews_sampleLowKept⟩
  all_goals decide

end Sample

end AmbaVirt.Low
