/-
The epochs of the slice leases, over commands, changes of the geometry
and restarts.

The epoch counter is not stored. A restarted server takes it from the
leases it loads, so an epoch whose lease was released may be granted
again. `Service` keeps the leases ever granted and released as history
variables, and is followed through `Lib.Ledger`: every step of the
service is one of the ledger's (`Inv.next`), where a load leaves the
counter past the epochs granted. It does so if the newest lease is still
in the store and fits the geometry (`Renews`).
-/
import AmbaVirt.Lease.Store
import AmbaVirt.Lib.Ledger
import AmbaVirt.Lib.Trans

namespace AmbaVirt.Lease

open Lib Function

-- ==== the service

def Slot.key (l : Slot) : Text × UInt64 := (l.uuid, l.epoch)

/-- The lease of a uuid that had none before. -/
def Table.newGrant (t t' : Table) (uuid : Text) : Option (Text × UInt64) :=
  if t.findUuid uuid = none then (t'.findUuid uuid).map (·.2.key) else none

def Command.grant (t t' : Table) : Command → Option (Text × UInt64)
  | .reserve uuid _ | .reserveAt _ uuid _ _ _ _ => t.newGrant t' uuid
  | _ => none

def Command.free (r : Reply) : Command → Option (Text × UInt64)
  | .release uuid epoch => if r = .released then some (uuid, epoch) else none
  | _ => none

/-- The table, whether the store has been loaded, and the uuid and epoch
of every lease granted and released. -/
structure Service where
  table : Table
  loaded : Bool
  granted : List (Text × UInt64)
  freed : List (Text × UInt64)

namespace Service

def command (s : Service) (c : Camera) (ok : Saves) (req : Text) : Service :=
  match Command.parse req with
  | .error _ => s
  | .ok cmd =>
    let (t, r) := s.table.run c ok cmd
    { s with
      table := t
      granted := (cmd.grant s.table t).toList ++ s.granted
      freed := (cmd.free r).toList ++ s.freed }

/-- `server_check_geometry`: the first match loads the store. -/
def geometry (s : Service) (matched : Bool) (count : UInt32) (bytes : UInt64)
    (ok : Bool) : Service :=
  let t := s.table.setGeometry matched count bytes ok
  if matched = true ∧ s.loaded = false then { s with table := t.load, loaded := true }
  else { s with table := t }

def restart (s : Service) : Service :=
  { s with table := { store := s.table.store }, loaded := false }

end Service

inductive ServiceEvent
  | command (c : Camera) (ok : Saves) (req : Text)
  | geometry (matched : Bool) (count : UInt32) (bytes : UInt64) (ok : Bool)
  | restart

def Service.next (s : Service) : ServiceEvent → Service
  | .command c ok req => s.command c ok req
  | .geometry matched count bytes ok => s.geometry matched count bytes ok
  | .restart => s.restart

def serviceSystem : System Service ServiceEvent where
  init s := s = ⟨{}, false, [], []⟩
  step s e s' := s' = s.next e

/-- When the store is loaded, nothing has been granted yet, or a lease no
epoch granted is above is in the store and fits. -/
def Service.Renews (s : Service) : ServiceEvent → Prop
  | .geometry matched count bytes _ => matched = true ∧ s.loaded = false →
      s.granted = [] ∨ ∃ l ∈ storedSlots s.table.store,
        Table.Fits (storedSlots s.table.store) count bytes l ∧ ∀ p ∈ s.granted, p.2 ≤ l.epoch
  | _ => True

-- ==== the ledger

namespace Table

variable {t t' : Table} {l : Slot} {k : Fin 8} {r : Reply} {uuid : Text} {ok : Bool}

def keys (t : Table) (k : Fin 8) : Option (Text × UInt64) := (t.slots k).map Slot.key

def Stored (t : Table) : Set (Text × UInt64) := { p | ∃ l ∈ storedSlots t.store, l.key = p }

def Live (t : Table) : Set (Text × UInt64) := { p | ∃ k, t.keys k = some p }

theorem keys_some {p : Text × UInt64} :
    t.keys k = some p ↔ ∃ l, t.slots k = some l ∧ l.key = p := Option.map_eq_some_iff

theorem stored_save (h : t.WellFormed) : t.save.Stored = t.Live := by
  ext p
  show (∃ l ∈ storedSlots t.text, l.key = p) ↔ ∃ k, t.keys k = some p
  simp only [mem_stored_text h, keys_some]
  constructor
  · intro hp
    obtain ⟨l, ⟨k, l', hk, rfl⟩, rfl⟩ := hp
    refine ⟨k, l', hk, ?_⟩
    simp [Slot.key]
  · intro hp
    obtain ⟨k, l, hk, rfl⟩ := hp
    refine ⟨l.reread, ⟨k, l, hk, rfl⟩, ?_⟩
    simp [Slot.key]

/-- The table is rewritten, and perhaps saved: no lease comes or goes. -/
structure Rewrites (t t' : Table) : Prop where
  keys : t'.keys = t.keys
  next : t'.nextEpoch = t.nextEpoch
  wellFormed : t.WellFormed → t'.WellFormed
  stored : t.WellFormed → t'.Stored ⊆ t.Stored ∪ t.Live

theorem Rewrites.refl (t : Table) : Rewrites t t :=
  ⟨rfl, rfl, id, fun _ => Set.subset_union_left⟩

theorem WellFormed.setSlot (h : t.WellFormed)
    (hl : l.WellFormed) : (t.setSlot k (some l)).WellFormed :=
  fun _ _ => update_all h (by simpa using hl)

theorem ticket_rewrites (hl : t.slots k = some l)
    {ticket : Text} (hok : ticketOk ticket = true) (primary : Bool) :
    Rewrites t (t.setSlot k (some { l with ticket := ticket, primary := primary })).save := by
  generalize hl' : ({ l with ticket := ticket, primary := primary } : Slot) = l'
  have hkey : l'.key = l.key := by rw [← hl']; rfl
  have hkeys : (t.setSlot k (some l')).keys = t.keys := by
    funext j
    rw [keys, keys, setSlot_slots, update_apply]
    split
    · rename_i heq
      rw [heq, hl, Option.map_some, Option.map_some, hkey]
    · rfl
  have hwf (h : t.WellFormed) : (t.setSlot k (some l')).WellFormed := by
    refine h.setSlot ?_
    rw [← hl']
    exact ⟨(h hl).uuid, (h hl).epoch, (h hl).bytes, .inr hok⟩
  refine ⟨hkeys, rfl, hwf, fun h => ?_⟩
  rw [stored_save (hwf h)]
  unfold Live
  rw [hkeys]
  exact Set.subset_union_right

theorem appendCamera_rewrites {ticket : Option (Text × Intent)}
    {c : Camera}
    (hticket : ∀ p, ticket = some p → ticketOk p.1 = true) :
    Rewrites t (t.appendCamera uuid ticket c ok r).1 := by
  obtain heq | ⟨k, l, q, hl, hq, heq⟩ := t.appendCamera_cases uuid ticket c ok r
  · rw [heq]
    exact .refl t
  · rw [heq]
    exact ticket_rewrites hl (hticket q hq) _

section Reserve

variable {bytes : UInt64} {minIndex index : UInt32} {exact : Bool}

theorem Grants.spec (h : t.Grants uuid bytes minIndex exact index k) :
    t.matched = true ∧ t.nextEpoch ≠ 0 ∧ (t.newLease uuid bytes index).WellFormed := by
  obtain ⟨ha, -, hp⟩ := h
  simp only [accepts, guards] at ha
  simp only [pick, guards] at hp
  obtain ⟨hgeo, huuid, hbytes, -, -⟩ := ha
  simp only [not_or, Bool.not_eq_false] at hgeo huuid
  exact ⟨hgeo.1, hp.1, huuid, hp.1, hbytes, .inl rfl⟩

theorem put_keys (l : Slot) (j : Fin 8) :
    (t.put k l).keys j = if j = k then some l.key else t.keys j := by
  rw [keys, put_slots, update_apply]
  split <;> rfl

theorem WellFormed.put (h : t.WellFormed) (hl : l.WellFormed) :
    (t.put k l).WellFormed := h.setSlot hl

theorem live_put (l : Slot) : (t.put k l).Live ⊆ t.Live ∪ {l.key} := by
  intro p hp
  obtain ⟨j, hj⟩ := hp
  rw [put_keys] at hj
  split at hj
  · exact .inr (Option.some.inj hj).symm
  · exact .inl ⟨j, hj⟩

theorem newGrant_of_slots (h : t'.slots = t.slots) : t.newGrant t' uuid = none := by
  have hfind : t'.findUuid uuid = t.findUuid uuid := by rw [findUuid, findUuid, h]
  unfold newGrant
  split
  · rename_i hnone
    rw [hfind, hnone]
    rfl
  · rfl

theorem newGrant_put (hu : l.uuid = uuid) (hnone : t.findUuid uuid = none)
    (hkeys : t'.keys = (t.put k l).keys) : t.newGrant t' uuid = some l.key := by
  have hk : t'.keys k = some l.key := by rw [hkeys, put_keys, if_pos rfl]
  obtain ⟨l', hl', hkey⟩ := keys_some.mp hk
  have hu' : l'.uuid = uuid := (congrArg Prod.fst hkey).trans hu
  obtain ⟨⟨k₁, l₁⟩, hf⟩ := findUuid_isSome hl' hu'
  obtain ⟨hl₁, hu₁⟩ := findUuid_some hf
  rw [newGrant, if_pos hnone, hf, Option.map_some]
  have hk₁ : t'.keys k₁ = some l₁.key := keys_some.mpr ⟨l₁, hl₁, rfl⟩
  rw [hkeys, put_keys] at hk₁
  split at hk₁
  · exact hk₁.symm
  · obtain ⟨m, hm, hmkey⟩ := keys_some.mp hk₁
    exact absurd ((congrArg Prod.fst hmkey).trans hu₁) (findUuid_none hnone hm)

end Reserve

end Table

/-- The ticket of a command has passed its check. -/
theorem Command.parse_ticket {req uuid ticket : Text} {exact : Bool} {bytes : UInt64}
    {index : UInt32} {intent : Intent}
    (h : Command.parse req = .ok (.reserveAt exact uuid bytes index ticket intent)) :
    ticketOk ticket = true := by
  simp only [Command.parse, guards] at h
  obtain ⟨-, h⟩ := h
  split at h
  · simp only [guards, pure_ok] at h
    obtain ⟨_, -, h⟩ := h
    cases h
  split at h
  · simp only [guards, pure_ok] at h
    obtain ⟨-, _, -, _, -, -, htick, _, -, h⟩ := h
    cases h
    simpa using htick
  · split at h
    · simp only [guards, pure_ok] at h
      obtain ⟨_, -, h⟩ := h
      cases h
    · split at h
      · cases h
      · cases h

namespace Service

def ledger (s : Service) : Ledger (Fin 8) Text where
  up := s.loaded
  next := s.table.nextEpoch
  live := s.table.keys
  stored := s.table.Stored
  granted := s.granted
  freed := s.freed

structure Inv (s : Service) : Prop where
  wellFormed : s.table.WellFormed
  unloaded : s.loaded = false → s.table.matched = false ∧ (∀ k, s.table.slots k = none) ∧
    s.table.nextEpoch ≠ 0
  ledger : s.ledger.Inv

variable {t : Table} {s : Service}

theorem keep_step (hlive : ∀ k p, t.keys k = some p → s.table.keys k = some p)
    (hstored : t.Stored ⊆ s.table.Stored ∪ s.table.Live)
    (hnext : t.nextEpoch = s.table.nextEpoch ∨
      s.table.nextEpoch ≠ 0 ∧ t.nextEpoch = s.table.nextEpoch + 1) :
    s.ledger.Step { s with table := t }.ledger :=
  .keep rfl hlive hstored hnext rfl rfl

theorem rewrite_step (hs : s.Inv)
    (h : Table.Rewrites s.table t) : s.ledger.Step { s with table := t }.ledger :=
  keep_step (fun _ _ hp => h.keys ▸ hp) (h.stored hs.wellFormed) (.inl h.next)

section Reserve

variable {uuid : Text} {bytes : UInt64} {minIndex : UInt32}
  {exact : Bool} {ticket : Option (Text × Intent)} {c : Camera} {ok : Saves} {t' : Table}

theorem grant_step (hup : s.loaded = true)
    (hl : l.key = (uuid, s.table.nextEpoch)) (h0 : s.table.nextEpoch ≠ 0)
    (hkeys : t'.keys = (s.table.put k l).keys)
    (hstored : t'.Stored ⊆ (s.table.put k l).Live)
    (hnext : t'.nextEpoch = s.table.nextEpoch + 1) :
    s.ledger.Step { s with table := t', granted := [l.key] ++ s.granted }.ledger := by
  refine .act k (some l.key) none rfl ?_ ?_ ?_ nofun (.inr ⟨h0, hnext⟩) rfl rfl
  · intro j p hp
    have hp : t'.keys j = some p := hp
    rw [hkeys, Table.put_keys] at hp
    split at hp
    · rename_i heq
      exact .inr ⟨heq, hp⟩
    · exact .inl hp
  · intro p hp
    exact .inr ((Table.live_put l (hstored hp)).imp_right fun h => congrArg some h.symm)
  · intro p hp
    cases hp
    exact ⟨hup, h0, by rw [hl]; rfl, hnext⟩

theorem reserve_step (hs : s.Inv)
    (hticket : ∀ p, ticket = some p → ticketOk p.1 = true) {t₁ : Table}
    (h₁ : s.table.reserveRange uuid bytes minIndex exact ok.table = (t₁, r))
    (h' : (t₁.appendCamera uuid ticket c ok.ticket r).1 = t') :
    t'.WellFormed ∧ s.ledger.Step { s with
          table := t'
          granted := (s.table.newGrant t' uuid).toList ++ s.granted }.ledger := by
  have hrw : Table.Rewrites t₁ t' := h' ▸ Table.appendCamera_rewrites hticket
  rcases s.table.reserveRange_cases uuid bytes minIndex exact ok.table with
    ⟨e, heq, -⟩ | ⟨k, l, hf, heq⟩ | ⟨index, k, hg, -, heq⟩ | ⟨index, k, hg, -, heq⟩
  · -- refused
    cases heq.symm.trans h₁
    have ht : t' = s.table := h'.symm
    subst ht
    refine ⟨hs.wellFormed, ?_⟩
    rw [Table.newGrant_of_slots rfl]
    exact rewrite_step hs hrw
  · -- the uuid has a lease
    cases heq.symm.trans h₁
    refine ⟨hrw.wellFormed hs.wellFormed, ?_⟩
    rw [Table.newGrant, if_neg (by simp [hf])]
    exact rewrite_step hs hrw
  · -- a new lease
    obtain ⟨hmatched, hnext, hwf⟩ := hg.spec
    obtain ⟨rfl, -⟩ := Prod.mk.inj (heq.symm.trans h₁)
    have hput := hs.wellFormed.put (k := k) hwf
    have hloaded : s.loaded = true := by
      by_contra hno
      rw [(hs.unloaded (Bool.of_not_eq_true hno)).1] at hmatched
      cases hmatched
    have hstored := hrw.stored hput
    rw [Table.stored_save hput] at hstored
    have hkeys : t'.keys = (s.table.put k (s.table.newLease uuid bytes index)).keys :=
      hrw.keys
    have hcount : t'.nextEpoch = s.table.nextEpoch + 1 := hrw.next
    have hgrant : s.table.newGrant t' uuid = some (s.table.newLease uuid bytes index).key :=
      Table.newGrant_put rfl hg.2.1 hkeys
    refine ⟨hrw.wellFormed hput, ?_⟩
    rw [hgrant]
    exact grant_step hloaded rfl hnext hkeys (fun p hp => (hstored hp).elim id id) hcount
  · -- a new lease that could not be saved
    obtain ⟨-, hnext, -⟩ := hg.spec
    obtain ⟨rfl, rfl⟩ := Prod.mk.inj (heq.symm.trans h₁)
    have hslots : t'.slots = s.table.slots := by
      rw [← h']
      show update (update s.table.slots k _) k none = _
      rw [update_idem, update_eq_self_iff]
      exact (Table.pick_slot hg.2.2).symm
    have hstore : t'.store = s.table.store := by
      rw [← h']
      rfl
    refine ⟨?_, ?_⟩
    · unfold Table.WellFormed
      rw [hslots]
      exact hs.wellFormed
    rw [Table.newGrant_of_slots hslots]
    refine keep_step ?_ ?_ (.inr ⟨hnext, hrw.next⟩)
    · intro j p hp
      rw [Table.keys, hslots] at hp
      exact hp
    · unfold Table.Stored
      rw [hstore]
      exact Set.subset_union_left

end Reserve

section Steps

theorem release_step (hs : s.Inv) {epoch : UInt64} (h : s.table.release uuid epoch ok = (t', r)) :
    t'.WellFormed ∧ s.ledger.Step { s with
          table := t'
          freed := (Command.free r (.release uuid epoch)).toList ++ s.freed }.ledger := by
  obtain ⟨e, heq⟩ | ⟨k, l, hl, rfl, rfl, heq⟩ := s.table.release_cases uuid epoch ok
  · cases heq.symm.trans h
    exact ⟨hs.wellFormed, rewrite_step hs (.refl _)⟩
  -- the lease goes, and the table is saved
  cases heq.symm.trans h
  have hwf : (s.table.setSlot k none).WellFormed := fun _ _ hm => hs.wellFormed (update_none hm).2
  have hkey : s.table.keys k = some l.key := by
    rw [Table.keys, hl, Option.map_some]
  have hlive : ∀ j q, (s.table.setSlot k none).keys j = some q → s.table.keys j = some q := by
    intro j q hq
    obtain ⟨m, hm, hq⟩ := Table.keys_some.mp hq
    exact Table.keys_some.mpr ⟨m, (update_none hm).2, hq⟩
  have hstored := (Table.stored_save hwf).subset
  refine ⟨hwf, .act k none (some l.key) rfl (fun j q hq => .inl (hlive j q hq)) ?_ nofun ?_
    (.inl rfl) rfl rfl⟩
  · intro p hp
    obtain ⟨j, hj⟩ := hstored hp
    exact .inr (.inl ⟨j, hlive j p hj⟩)
  · intro p hp
    cases hp
    refine ⟨hkey, ?_, hstored⟩
    show (update s.table.slots k none k).map Slot.key = none
    rw [update_self]
    rfl

theorem run_unloaded (hm : t.matched = false) (hn : ∀ k, t.slots k = none)
    (c : Camera) (ok : Saves) (cmd : Command) : (t.run c ok cmd).1 = t := by
  have hreserve (uuid : Text) (bytes : UInt64) (minIndex : UInt32) (exact ok : Bool) :
      t.reserveRange uuid bytes minIndex exact ok = (t, .err .geometry) := by
    have ha : t.accepts uuid bytes = .error .geometry := by
      unfold Table.accepts refuseIf
      rw [if_pos (.inl hm)]
      rfl
    rw [Table.reserveRange, ha]
  have hfind (uuid : Text) : t.findUuid uuid = none := by
    cases hf : t.findUuid uuid with
    | none => rfl
    | some p =>
      have hl := (Table.findUuid_some hf).1
      rw [hn] at hl
      cases hl
  cases cmd with
  | reserve uuid bytes =>
    rw [Table.run, hreserve]
    rfl
  | reserveAt exact uuid bytes index ticket intent =>
    rw [Table.run, hreserve]
    rfl
  | release uuid epoch =>
    rw [Table.run, Table.release, hfind]
    split <;> rfl
  | query uuid => rfl

theorem command_step (hs : s.Inv) (c : Camera) (ok : Saves) (req : Text) :
    (s.command c ok req).table.WellFormed ∧ s.ledger.Step (s.command c ok req).ledger := by
  unfold command
  cases hp : Command.parse req with
  | error e => exact ⟨hs.wellFormed, rewrite_step hs (.refl _)⟩
  | ok cmd =>
    cases cmd with
    | reserve uuid bytes => exact reserve_step hs (by simp) rfl rfl
    | reserveAt exact uuid bytes index ticket intent =>
      refine reserve_step hs ?_ rfl rfl
      intro p heq
      obtain rfl := Option.some.inj heq
      exact Command.parse_ticket hp
    | release uuid epoch => exact release_step hs rfl
    | query uuid => exact ⟨hs.wellFormed, rewrite_step hs (.refl _)⟩

theorem setGeometry_step (hs : s.Inv) (matched : Bool) (count : UInt32)
    (bytes : UInt64) (ok : Bool) :
    (s.table.setGeometry matched count bytes ok).WellFormed ∧ s.ledger.Step
        { s with table := s.table.setGeometry matched count bytes ok }.ledger := by
  unfold Table.setGeometry
  split
  · generalize hkeep : (fun l : Slot => decide (l.index < count ∧ l.bytes = bytes)) = keep
    dsimp only
    generalize ht : ({ s.table with
      matched := true, count := count, sliceBytes := bytes,
      slots := fun k => (s.table.slots k).filter keep } : Table) = t
    have hslots {k l} (hl : t.slots k = some l) : s.table.slots k = some l := by
      rw [← ht] at hl
      exact (Option.filter_eq_some_iff.mp hl).1
    have hwf : t.WellFormed := fun _ _ hl => hs.wellFormed (hslots hl)
    have hlive : ∀ k p, t.keys k = some p → s.table.keys k = some p := by
      intro k p hp
      obtain ⟨l, hl, hkey⟩ := Table.keys_some.mp hp
      exact Table.keys_some.mpr ⟨l, hslots hl, hkey⟩
    have hnext : t.nextEpoch = s.table.nextEpoch := by rw [← ht]
    have hstored : t.Stored = s.table.Stored := by rw [← ht]; rfl
    split
    · refine ⟨hwf, keep_step hlive ?_ (.inl hnext)⟩
      rw [Table.stored_save hwf]
      intro p hp
      obtain ⟨k, hk⟩ := hp
      exact .inr ⟨k, hlive k p hk⟩
    · refine ⟨hwf, keep_step hlive ?_ (.inl hnext)⟩
      rw [hstored]
      exact Set.subset_union_left
  · exact ⟨hs.wellFormed, keep_step (fun _ _ hp => hp) Set.subset_union_left (.inl rfl)⟩

theorem load_step (hempty : ∀ k, t.slots k = none)
    (hstore : t.store = s.table.store) (hpast : Ledger.Past t.load.nextEpoch s.granted) :
    t.load.WellFormed ∧ s.ledger.Step { s with table := t.load, loaded := true }.ledger := by
  refine ⟨?_, .load ?_ ?_ ?_ hpast rfl rfl⟩
  · intro k l hl
    obtain ⟨line, -, hline⟩ := List.mem_filterMap.mp (Table.load_slots hempty hl)
    exact wellFormed_of_ofLine hline
  · intro k p hp
    obtain ⟨l, hl, hkey⟩ := Table.keys_some.mp hp
    have hmem := Table.load_slots hempty hl
    rw [hstore] at hmem
    exact ⟨l, hmem, hkey⟩
  · intro i j uuid e e' hi hj
    obtain ⟨l, hl, hkey⟩ := Table.keys_some.mp hi
    obtain ⟨l', hl', hkey'⟩ := Table.keys_some.mp hj
    refine Table.load_uuidInj hempty hl hl' ?_
    exact (congrArg Prod.fst hkey).trans (congrArg Prod.fst hkey').symm
  · show t.load.Stored ⊆ s.table.Stored
    unfold Table.Stored
    rw [Table.load_store, hstore]

theorem setGeometry_empty (hn : ∀ k, t.slots k = none) (matched : Bool)
    (count : UInt32) (bytes : UInt64) (ok : Bool) :
    (∀ k, (t.setGeometry matched count bytes ok).slots k = none) ∧
      (t.setGeometry matched count bytes ok).store = t.store ∧
      (t.setGeometry matched count bytes ok).nextEpoch = t.nextEpoch ∧
      (matched = true ∧ count ≥ 1 ∧ count ≤ 8 ∧ bytes ≠ 0 ∧ bytes % 4096 = 0 →
        (t.setGeometry matched count bytes ok).matched = true ∧
        (t.setGeometry matched count bytes ok).count = count ∧
        (t.setGeometry matched count bytes ok).sliceBytes = bytes) := by
  unfold Table.setGeometry
  split
  · have hno : ¬ ((∃ k, ∃ l ∈ t.slots k,
        decide (l.index < count ∧ l.bytes = bytes) = false) ∧ ok = true) := by
      intro h
      obtain ⟨⟨k, l, hl, -⟩, -⟩ := h
      rw [hn k] at hl
      cases hl
    rw [if_neg hno]
    refine ⟨fun k => ?_, rfl, rfl, fun _ => ⟨rfl, rfl, rfl⟩⟩
    show (t.slots k).filter _ = none
    rw [hn k]
    rfl
  case isFalse hm => exact ⟨hn, rfl, rfl, fun h => absurd h hm⟩

/-- A load that renews leaves the counter past every epoch granted. -/
theorem past_of_renews (hs : s.Inv) (hloaded : s.loaded = false) {count : UInt32}
    {bytes : UInt64} {ok : Bool} (hC : s.Renews (.geometry true count bytes ok)) :
    Ledger.Past (s.table.setGeometry true count bytes ok).load.nextEpoch s.granted := by
  obtain ⟨-, hn, h0⟩ := hs.unloaded hloaded
  obtain ⟨hempty, hstore, hnext, hgeo⟩ := setGeometry_empty hn true count bytes ok
  rcases hC ⟨rfl, hloaded⟩ with hnil | ⟨l, hl, hfits, hnewest⟩
  · rw [hnil]
    exact .inr (List.forall_mem_nil _)
  obtain ⟨hm, hcount, hbytes⟩ := hgeo ⟨rfl, hfits.geometry⟩
  refine .inr fun p hp => UInt64.lt_of_le_of_lt (hnewest p hp) ?_
  refine Table.load_past hempty hm (hstore ▸ hl) ?_ (hnext ▸ h0)
  rw [hstore, hcount, hbytes]
  exact hfits

theorem Inv.next (hs : s.Inv) {e : ServiceEvent} (hC : s.Renews e) : (s.next e).Inv := by
  cases e with
  | command c ok req =>
    obtain ⟨hwf, hstep⟩ := command_step hs c ok req
    refine ⟨hwf, ?_, hs.ledger.step hstep⟩
    intro hloaded
    have hup : (s.command c ok req).loaded = s.loaded := by
      unfold command
      split <;> rfl
    have hunloaded := hs.unloaded (hup.symm.trans hloaded)
    have hsame : (s.command c ok req).table = s.table := by
      unfold command
      split
      · rfl
      · exact run_unloaded hunloaded.1 hunloaded.2.1 c ok _
    unfold Service.next
    rw [hsame]
    exact hunloaded
  | geometry matched count bytes ok =>
    unfold Service.next geometry
    dsimp only
    split
    · rename_i hload
      obtain ⟨rfl, hloaded⟩ := hload
      obtain ⟨hempty, hstore, -⟩ := setGeometry_empty (hs.unloaded hloaded).2.1 true count bytes ok
      obtain ⟨hwf, hstep⟩ := load_step hempty hstore (past_of_renews hs hloaded hC)
      exact ⟨hwf, fun h => (by cases h), hs.ledger.step hstep⟩
    · rename_i hload
      obtain ⟨hwf, hstep⟩ := setGeometry_step hs matched count bytes ok
      refine ⟨hwf, ?_, hs.ledger.step hstep⟩
      intro hloaded
      have hm : matched = false := by
        by_contra hm
        exact hload ⟨Bool.of_not_eq_false hm, hloaded⟩
      subst hm
      exact ⟨rfl, (hs.unloaded hloaded).2⟩
  | restart =>
    refine ⟨?_, fun _ => ⟨rfl, fun _ => rfl, (by decide : (1 : UInt64) ≠ 0)⟩, ?_⟩
    · intro _ _ hl
      cases hl
    · exact hs.ledger.step (.crash rfl (fun _ => rfl) subset_rfl rfl rfl)

theorem inv_init : Inv ⟨{}, false, [], []⟩ := by
  refine ⟨?_, fun _ => ⟨rfl, fun _ => rfl, by decide⟩, ?_⟩
  · intro _ _ hl
    cases hl
  refine Ledger.inv_init rfl (fun _ => rfl) ?_ rfl rfl
  intro p hp
  obtain ⟨l, hl, -⟩ := hp
  cases hl

theorem inv_reachable (hr : (serviceSystem.restrict Renews).Reachable s) : s.Inv := by
  refine hr.induct ?_ ?_
  · intro s h₀
    rw [show s = _ from h₀]
    exact inv_init
  · intro s e s' _ ih hs
    obtain ⟨hC, rfl⟩ := hs
    exact ih.next hC

end Steps

end Service

end AmbaVirt.Lease
