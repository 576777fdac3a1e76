/-
Which guest is primary (iav_broker_server.c): the kernel's bindings, the
slice leases, the roles and --primary-slice, over every order of commands,
calls of the kernel's binding interface and restarts.

`real_is_primary` has two rules. A guest whose lease carries a ticket is
primary by the ticket; one whose lease carries none, or that has no lease,
is primary by the slice it is bound to. Each rule names one guest at most
(`ByTicket.unique`, `BySlice.unique`). Nothing keeps the two from naming a
guest each, and they do when a ticketed lease is next to one without a
ticket on the primary slice (`two_primaries`).
-/
import AmbaVirt.Lease.Epochs
import AmbaVirt.Lease.Roles
import AmbaVirt.Server.State

namespace AmbaVirt.Lease

open Lib Kernel Cavalry

variable {n : Nat}

-- ==== the fleet

/-- The slice leases, the roles, the kernel's slices and
`g_primary_slice`. -/
structure Fleet (n : Nat) where
  service : Service
  roles : Roles
  host : Server.Host n
  primarySlice : Option (Fin 8)

/-- `virt_slice_lease_ticket_of_index`: the lease whose ticket is read. -/
def Table.ofIndex (t : Table) (index : UInt32) : Option Slot :=
  (Fin.find? fun k => (t.slots k).any (·.index == index)).bind t.slots

/-- `virt_slice_lease_ticket_count`. -/
def Table.ticketCount (t : Table) (ticket : Text) : Nat :=
  if ticket = [] then 0
  else (List.finRange 8).countP fun k => (t.slots k).any (·.ticket == ticket)

namespace Fleet

/-- `primary_by_ticket`; `none` is not decided. -/
def primaryByTicket (f : Fleet n) (index : UInt32) : Option Bool :=
  match f.service.table.ofIndex index with
  | none => none
  | some l =>
    if l.ticket = [] then none
    else some (l.primary ∧ f.roles.roleOf l.ticket = .primary ∧
      f.service.table.ticketCount l.ticket = 1)

/-- `real_is_primary`, with what `AMBA_VIRT_IOC_GET_BINDINGS` answered. -/
def realIsPrimary (f : Fleet n) (bindings : Option (List KernelBinding)) (cid : UInt32) : Bool :=
  match bindings with
  | none => false
  | some bs =>
    match bs.find? (·.cid == cid) with
    | none => false
    | some b =>
      match f.primaryByTicket b.slice.index with
      | some primary => primary
      | none => f.primarySlice.any (·.val == b.slice.index.toNat)

/-- `cid` is primary now. -/
def IsPrimary (f : Fleet n) (cid : UInt32) : Prop :=
  f.realIsPrimary (some f.host.bindings) cid = true
  deriving Decidable

end Fleet

-- ==== the runs

/-- A lease command with the camera policy's answers, a role command, a
geometry check, a call of the kernel's binding interface, and a new server
process with its setting. -/
inductive FleetEvent
  | lease (c : Camera) (ok : Saves) (req : Text)
  | role (ok : Bool) (req : Text)
  | geometry (matched : Bool) (count : UInt32) (bytes : UInt64) (ok : Bool)
  | kernel (op : SliceOp)
  | restart (primarySlice : Option (Fin 8)) (readable : Bool)

def FleetEvent.Allowed (f : Fleet n) : FleetEvent → Prop
  | .kernel op => op.Allowed f.host.ledger
  | _ => True

instance (f : Fleet n) : (e : FleetEvent) → Decidable (e.Allowed f)
  | .kernel op => inferInstanceAs (Decidable (op.Allowed f.host.ledger))
  | .lease .. | .role .. | .geometry .. | .restart .. => .isTrue trivial

/-- A ticketed reserve asks the role table for the role it records. -/
def Fleet.next (f : Fleet n) : FleetEvent → Fleet n
  | .lease c ok req =>
    let asked := { c with primary := fun t => decide (f.roles.roleOf t = .primary) }
    { f with service := f.service.command asked ok req }
  | .role ok req => { f with roles := f.roles.command ok req }
  | .geometry matched count bytes ok =>
    { f with service := f.service.geometry matched count bytes ok }
  | .kernel op => { f with host := f.host.apply op }
  | .restart primarySlice readable =>
    { f with
      service := f.service.restart
      roles := f.roles.load readable
      primarySlice := primarySlice }

/-- All orders of events, from a server that comes up on slices just
published, with any two stores and any setting. -/
def fleetSystem (n : Nat) : System (Fleet n) FleetEvent where
  init f := f.host.ledger = { slices := published f.host.desc } ∧
    (∃ store, f.service = ⟨{ store := store }, false, [], []⟩) ∧
    ∃ store readable, f.roles = Roles.load { store := store } readable
  step f e f' := e.Allowed f ∧ f' = f.next e

variable {f : Fleet n}

theorem roles_sound (h : (fleetSystem n).Reachable f) : Sound f.roles.lines := by
  refine h.induct (I := fun f => Sound f.roles.lines) ?_ ?_
  · rintro f ⟨-, -, store, readable, hroles⟩
    rw [hroles]
    exact Roles.sound_load _ readable
  rintro f e f' - hsound ⟨-, rfl⟩
  cases e with
  | role ok req => exact Roles.sound_command hsound ok req
  | restart primarySlice readable => exact Roles.sound_load _ readable
  | lease c ok req => exact hsound
  | geometry matched count bytes ok => exact hsound
  | kernel op => exact hsound

-- ==== the rules

/-- Slice `i` is the one the server finds `cid` bound to. -/
def Fleet.BoundTo (f : Fleet n) (cid : UInt32) (i : Fin n) : Prop :=
  ∃ b, f.host.bindings.find? (·.cid == cid) = some b ∧ b.slice = f.host.desc i ∧
    (f.host.slices i).boundCid = cid

/-- `cid` is primary by its ticket. -/
def Fleet.ByTicket (f : Fleet n) (cid : UInt32) : Prop :=
  ∃ i, f.BoundTo cid i ∧ f.primaryByTicket (f.host.desc i).index = some true

/-- `cid` has no ticket, and is primary by its slice. -/
def Fleet.BySlice (f : Fleet n) (cid : UInt32) : Prop :=
  ∃ i, f.BoundTo cid i ∧ f.primaryByTicket (f.host.desc i).index = none ∧
    f.primarySlice.any (·.val == i.val) = true

theorem desc_index (h : Server.Host n) (i : Fin n) : (h.desc i).index.toNat = i.val :=
  h.index_eq i

theorem mem_bindings {h : Server.Host n} {b : KernelBinding} (hb : b ∈ h.bindings) :
    ∃ i, b.slice = h.desc i ∧ b.cid = (h.slices i).boundCid := by
  have hmem := List.mem_of_mem_take hb
  obtain ⟨i, -, hi⟩ := List.mem_filterMap.mp hmem
  obtain ⟨-, hi⟩ := Option.ite_none_right_eq_some.mp hi
  rw [Option.some.injEq] at hi
  subst hi
  exact ⟨i, rfl, rfl⟩

theorem boundTo_of_find {cid : UInt32} {b : KernelBinding}
    (h : f.host.bindings.find? (·.cid == cid) = some b) :
    ∃ i, f.BoundTo cid i ∧ b.slice = f.host.desc i := by
  obtain ⟨i, hslice, hcid⟩ := mem_bindings (List.mem_of_find?_eq_some h)
  have hb : b.cid = cid := by simpa using List.find?_some h
  exact ⟨i, ⟨b, h, hslice, hcid.symm.trans hb⟩, hslice⟩

theorem isPrimary_iff {cid : UInt32} : f.IsPrimary cid ↔ f.ByTicket cid ∨ f.BySlice cid := by
  unfold Fleet.IsPrimary Fleet.realIsPrimary
  dsimp only
  constructor
  · intro h
    split at h
    · cases h
    case h_2 b hb =>
    obtain ⟨i, hbound, hslice⟩ := boundTo_of_find hb
    rw [hslice] at h
    split at h
    case h_1 primary hticket => exact .inl ⟨i, hbound, h ▸ hticket⟩
    case h_2 hticket =>
      rw [desc_index] at h
      exact .inr ⟨i, hbound, hticket, h⟩
  · rintro (⟨i, ⟨b, hb, hslice, -⟩, hticket⟩ | ⟨i, ⟨b, hb, hslice, -⟩, hticket, hsetting⟩)
    · rw [hb]
      dsimp only
      rw [hslice, hticket]
    rw [hb]
    dsimp only
    rw [hslice, hticket, desc_index]
    exact hsetting

-- ==== each rule, by itself

theorem primaryByTicket_true {index : UInt32} (h : f.primaryByTicket index = some true) :
    ∃ k l, f.service.table.slots k = some l ∧ l.index = index ∧ f.roles.roleOf l.ticket = .primary ∧
      f.service.table.ticketCount l.ticket = 1 := by
  unfold Fleet.primaryByTicket at h
  split at h
  · cases h
  case h_2 l hl =>
  obtain ⟨k, hk, hkl⟩ := Option.bind_eq_some_iff.mp hl
  have hindex := (Fin.find?_eq_some_iff.mp hk).1
  rw [hkl, Option.any_some, beq_iff_eq] at hindex
  obtain ⟨-, h⟩ := Option.ite_none_left_eq_some.mp h
  rw [Option.some.injEq, decide_eq_true_iff] at h
  exact ⟨k, l, hkl, hindex, h.2.1, h.2.2⟩

theorem slot_eq_of_ticketCount {t : Table} {k k' : Fin 8} {l l' : Slot}
    (h : t.ticketCount l.ticket = 1) (hl : t.slots k = some l)
    (hl' : t.slots k' = some l') (ht : l'.ticket = l.ticket) : k = k' := by
  unfold Table.ticketCount at h
  split at h
  · cases h
  refine Fin.ext (index_eq_of_countP h.le (a := k) (b := k') ?_ ?_ ?_ ?_)
  · simp
  · simp
  · simp [hl]
  · simp [hl', ht]

variable {c c' : UInt32}

theorem Fleet.BoundTo.cid_eq {i i' : Fin n} (h : f.BoundTo c i)
    (h' : f.BoundTo c' i') (hi : i.val = i'.val) : c = c' := by
  obtain ⟨-, -, -, hc⟩ := h
  obtain ⟨-, -, -, hc'⟩ := h'
  rw [← hc, ← hc', Fin.ext hi]

theorem Fleet.ByTicket.unique (hs : Sound f.roles.lines) (h : f.ByTicket c)
    (h' : f.ByTicket c') : c = c' := by
  obtain ⟨i, hbound, hprimary⟩ := h
  obtain ⟨i', hbound', hprimary'⟩ := h'
  obtain ⟨k, l, hl, hindex, hrole, hcount⟩ := primaryByTicket_true hprimary
  obtain ⟨k', l', hl', hindex', hrole', -⟩ := primaryByTicket_true hprimary'
  have hticket : l'.ticket = l.ticket := Roles.primary_unique hs hrole' hrole
  obtain rfl : k = k' := slot_eq_of_ticketCount hcount hl hl' hticket
  obtain rfl : l = l' := Option.some.inj (hl.symm.trans hl')
  refine hbound.cid_eq hbound' ?_
  rw [← desc_index f.host i, ← desc_index f.host i', ← hindex, ← hindex']

theorem Fleet.BySlice.unique (h : f.BySlice c) (h' : f.BySlice c') : c = c' := by
  obtain ⟨i, hbound, -, hsetting⟩ := h
  obtain ⟨i', hbound', -, hsetting'⟩ := h'
  obtain ⟨s, hs, hi⟩ := (Option.any_eq_true _ _).mp hsetting
  obtain ⟨s', hs', hi'⟩ := (Option.any_eq_true _ _).mp hsetting'
  obtain rfl : s = s' := Option.some.inj (hs.symm.trans hs')
  refine hbound.cid_eq hbound' ?_
  rw [← beq_iff_eq.mp hi, ← beq_iff_eq.mp hi']

/-- The rules exclude each other for one guest. -/
theorem Fleet.ByTicket.not_bySlice (h : f.ByTicket c) : ¬ f.BySlice c := by
  rintro ⟨i', ⟨b', hb', hslice', -⟩, hnone, -⟩
  obtain ⟨i, ⟨b, hb, hslice, -⟩, hsome⟩ := h
  obtain rfl : b = b' := Option.some.inj (hb.symm.trans hb')
  rw [← hslice', hslice, hsome] at hnone
  cases hnone

/-- In a reachable state there is one primary guest at most, unless a
guest is primary by its ticket while another is by its slice. -/
theorem single_primary_iff {f : Fleet n} (h : (fleetSystem n).Reachable f) :
    (∀ c c', f.IsPrimary c → f.IsPrimary c' → c = c') ↔ ¬ ∃ c c', f.ByTicket c ∧ f.BySlice c' := by
  have hsound := roles_sound h
  constructor
  · rintro hone ⟨c, c', hticket, hslice⟩
    have hc := hone c c' (isPrimary_iff.mpr (.inl hticket)) (isPrimary_iff.mpr (.inr hslice))
    exact (hc ▸ hticket).not_bySlice hslice
  intro hnot c c' hc hc'
  rcases isPrimary_iff.mp hc with hc | hc
  · rcases isPrimary_iff.mp hc' with hc' | hc'
    · exact hc.unique hsound hc'
    · exact absurd ⟨c, c', hc, hc'⟩ hnot
  · rcases isPrimary_iff.mp hc' with hc' | hc'
    · exact absurd ⟨c', c, hc', hc⟩ hnot
    · exact hc.unique hc'

-- ==== on the sample

def sampleFleet (primarySlice : Option (Fin 8)) : Fleet 8 where
  service := ⟨{}, false, [], []⟩
  roles := Roles.load {} true
  host := Server.sampleHost
  primarySlice := primarySlice

/-- Guest 7 reserves a slice without a ticket, guest 9 with the ticket
that is primary by default, and both bind. -/
def sampleStarts : List FleetEvent :=
  [.geometry true 8 0x40000000 true,
   .lease sampleCamera ⟨true, true⟩ "RESERVE_SLICE 1a 1073741824".toList,
   .lease sampleCamera ⟨true, true⟩ "RESERVE_SLICE_AT 2b 1073741824 1 amba_shm0 on".toList,
   .kernel (.openIdx 0 5), .kernel (.bind 7 5),
   .kernel (.openIdx 1 6), .kernel (.bind 9 6)]

def Fleet.exec (f : Fleet n) (e : FleetEvent) : Option (Fleet n) :=
  if e.Allowed f then some (f.next e) else none

theorem Fleet.step_of_exec {f' : Fleet n} {e : FleetEvent}
    (h : f.exec e = some f') : (fleetSystem n).step f e f' := by
  obtain ⟨hok, h⟩ := Option.ite_none_right_eq_some.mp h
  exact ⟨hok, (Option.some.inj h).symm⟩

/-- A run of the sample that ends in a state with property `p`. -/
theorem exists_fleet {p : Fleet 8 → Prop} [DecidablePred p]
    (primarySlice : Option (Fin 8)) (es : List FleetEvent)
    (h : ((es.foldlM Fleet.exec (sampleFleet primarySlice)).any fun f => decide (p f)) = true) :
    ∃ f, (fleetSystem 8).Reachable f ∧ p f :=
  System.Reachable.exists_exec (fun _ _ _ => Fleet.step_of_exec)
    (.init ⟨rfl, ⟨[], rfl⟩, none, true, rfl⟩) h

/-- Without the setting the guest with the ticket is the only primary. -/
theorem single_primary_sample : ∃ f : Fleet 8, (fleetSystem 8).Reachable f ∧
    f.IsPrimary 9 ∧ ∀ c, f.IsPrimary c → c = 9 := by
  obtain ⟨f, hreach, hprimary, hsetting⟩ := exists_fleet
    (p := fun f => f.IsPrimary 9 ∧ f.primarySlice = none) none sampleStarts
    (by decide +kernel)
  refine ⟨f, hreach, hprimary, fun c hc => ?_⟩
  refine (single_primary_iff hreach).mpr ?_ c 9 hc hprimary
  rintro ⟨-, c', -, i, -, -, hslice⟩
  rw [hsetting] at hslice
  cases hslice

/-- With the setting on slice 0 the guest without a ticket is primary as
well. -/
theorem two_primaries : ∃ f : Fleet 8, (fleetSystem 8).Reachable f ∧
    f.IsPrimary 7 ∧ f.IsPrimary 9 :=
  exists_fleet (some 0) sampleStarts (by decide +kernel)

end AmbaVirt.Lease
