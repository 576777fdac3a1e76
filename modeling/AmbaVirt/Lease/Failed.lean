/-
What a slice-lease command that fails leaves behind.

Each place that saves undoes its own change when the save fails, so one
save that fails leaves nothing. A ticketed reserve of a new uuid saves
twice: where the grant was saved and the ticket is not, the reply is ERR
PERSIST and the grant stays, in the table and in the store. Those are
the only failed commands with an effect (`slice_failed_iff`).
-/
import AmbaVirt.Lease.Table

namespace AmbaVirt.Lease

open Lib Function

namespace Table

variable {t : Table} {uuid : Text} {bytes : UInt64} {minIndex : UInt32} {exact ok : Bool}

-- ==== lookups

variable {k : Fin 8} {l : Slot}

theorem findUuid_some (h : t.findUuid uuid = some (k, l)) : t.slots k = some l ∧ l.uuid = uuid := by
  rw [findUuid, Option.bind_eq_some_iff] at h
  obtain ⟨k', hk, hl⟩ := h
  obtain ⟨l', hl', heq⟩ := Option.map_eq_some_iff.mp hl
  cases heq
  have hany := Fin.eq_true_of_find?_eq_some hk
  rw [hl'] at hany
  exact ⟨hl', by simpa using hany⟩

theorem findUuid_none (h : t.findUuid uuid = none) (hl : t.slots k = some l) : l.uuid ≠ uuid := by
  rw [findUuid, Option.bind_eq_none_iff] at h
  intro hu
  cases hf : Fin.find? fun k => (t.slots k).any (·.uuid == uuid) with
  | none =>
    have hk := Fin.eq_false_of_find?_eq_none hf k
    simp [hl, hu] at hk
  | some k' =>
    have hany := Fin.eq_true_of_find?_eq_some hf
    have hmap := h k' hf
    rw [Option.map_eq_none_iff] at hmap
    rw [hmap] at hany
    cases hany

theorem findUuid_isSome (hl : t.slots k = some l) (hu : l.uuid = uuid) :
    ∃ p, t.findUuid uuid = some p := by
  cases hf : t.findUuid uuid with
  | none => exact absurd hu (findUuid_none hf hl)
  | some p => exact ⟨p, rfl⟩

theorem freeSlot_spec (h : t.freeSlot = some k) : t.slots k = none := by
  simpa using Fin.eq_true_of_find?_eq_some h

theorem pick_slot {index : UInt32} (h : t.pick minIndex exact = .ok (index, k)) :
    t.slots k = none := by
  simp only [pick, guards, pure_ok] at h
  obtain ⟨-, i, -, k', hk, heq⟩ := h
  cases heq
  exact freeSlot_spec hk

@[simp] theorem setSlot_slots (k : Fin 8) (l : Option Slot) :
    (t.setSlot k l).slots = update t.slots k l := rfl

@[simp] theorem put_slots (k : Fin 8) (l : Slot) :
    (t.put k l).slots = update t.slots k (some l) := rfl

@[simp] theorem save_slots : t.save.slots = t.slots := rfl

-- ==== reserve

/-- The command grants a new lease, its save permitting. -/
def Grants (t : Table) (uuid : Text) (bytes : UInt64) (minIndex : UInt32)
    (exact : Bool) (index : UInt32) (k : Fin 8) : Prop :=
  t.accepts uuid bytes = .ok () ∧ t.findUuid uuid = none ∧ t.pick minIndex exact = .ok (index, k)

def newLease (t : Table) (uuid : Text) (bytes : UInt64) (index : UInt32) : Slot :=
  { uuid, index, epoch := t.nextEpoch, bytes }

/-- What `reserve_range_locked` can do: refuse, report a lease there is,
grant one, or grant one and take it back. -/
theorem reserveRange_cases (t : Table) (uuid : Text) (bytes : UInt64)
    (minIndex : UInt32) (exact ok : Bool) :
    (∃ e, t.reserveRange uuid bytes minIndex exact ok = (t, .err e) ∧
      ∀ index k, ¬ t.Grants uuid bytes minIndex exact index k) ∨
    (∃ k l, t.findUuid uuid = some (k, l) ∧
      t.reserveRange uuid bytes minIndex exact ok = (t, .granted l [])) ∨
    (∃ index k, t.Grants uuid bytes minIndex exact index k ∧ ok = true ∧
      t.reserveRange uuid bytes minIndex exact ok = ((t.put k (t.newLease uuid bytes index)).save,
          .granted (t.newLease uuid bytes index) [])) ∨
    (∃ index k, t.Grants uuid bytes minIndex exact index k ∧ ok = false ∧
      t.reserveRange uuid bytes minIndex exact ok =
        ((t.put k (t.newLease uuid bytes index)).setSlot k none, .err .persist)) := by
  unfold reserveRange
  cases ha : t.accepts uuid bytes with
  | error e =>
    refine .inl ⟨e, rfl, fun index k hg => ?_⟩
    rw [hg.1] at ha
    cases ha
  | ok u =>
    cases hf : t.findUuid uuid with
    | some p => exact .inr (.inl ⟨p.1, p.2, rfl, rfl⟩)
    | none =>
      cases hp : t.pick minIndex exact with
      | error e =>
        refine .inl ⟨e, rfl, fun index k hg => ?_⟩
        rw [hg.2.2] at hp
        cases hp
      | ok p =>
        cases ok with
        | true => exact .inr (.inr (.inl ⟨p.1, p.2, ⟨ha, hf, hp⟩, rfl, rfl⟩))
        | false => exact .inr (.inr (.inr ⟨p.1, p.2, ⟨ha, hf, hp⟩, rfl, rfl⟩))

theorem appendCamera_cases (t : Table) (uuid : Text) (ticket : Option (Text × Intent))
    (c : Camera) (ok : Bool) (r : Reply) : (t.appendCamera uuid ticket c ok r).1 = t ∨
    ∃ k l q, t.slots k = some l ∧ ticket = some q ∧ (t.appendCamera uuid ticket c ok r).1 =
      (t.setSlot k (some { l with ticket := q.1, primary := c.primary q.1 })).save := by
  unfold appendCamera
  cases r with
  | released => exact .inl rfl
  | err e => exact .inl rfl
  | granted l camera =>
    cases hf : t.findUuid uuid with
    | none => exact .inl rfl
    | some p =>
      cases ticket with
      | none => exact .inl rfl
      | some q =>
        cases ok with
        | false => exact .inl rfl
        | true => exact .inr ⟨p.1, p.2, q, (findUuid_some hf).1, rfl, rfl⟩

theorem release_cases (t : Table) (uuid : Text) (epoch : UInt64) (ok : Bool) :
    (∃ e, t.release uuid epoch ok = (t, .err e)) ∨
    ∃ k l, t.slots k = some l ∧ l.uuid = uuid ∧ l.epoch = epoch ∧
      t.release uuid epoch ok = ((t.setSlot k none).save, .released) := by
  unfold release
  split
  · exact .inl ⟨_, rfl⟩
  cases hf : t.findUuid uuid with
  | none => exact .inl ⟨_, rfl⟩
  | some p =>
    obtain ⟨hl, hu⟩ := findUuid_some hf
    dsimp only
    split
    · exact .inl ⟨_, rfl⟩
    rename_i he
    cases ok with
    | true => exact .inr ⟨p.1, p.2, hl, hu, not_not.mp he, rfl⟩
    | false => exact .inl ⟨_, rfl⟩

def Same (t t' : Table) : Prop := t'.slots = t.slots ∧ t'.store = t.store

theorem Same.refl (t : Table) : t.Same t := ⟨rfl, rfl⟩

/-- The slot of a new lease was free, so taking it back restores it. -/
theorem Grants.undo {index : UInt32} (h : t.Grants uuid bytes minIndex exact index k) (l : Slot) :
    t.Same ((t.put k l).setSlot k none) := by
  refine ⟨?_, rfl⟩
  rw [setSlot_slots, put_slots, update_idem, ← pick_slot h.2.2, update_eq_self]

theorem put_findUuid (k : Fin 8) (l : Slot) : ∃ p, (t.put k l).save.findUuid l.uuid = some p := by
  apply findUuid_isSome (k := k) (l := l)
  · rw [save_slots, put_slots, update_self]
  · rfl

end Table

-- ==== failed replies

/-- The one failed command that has an effect: a ticketed reserve that
was granted and saved, and whose ticket was not. -/
def Command.Orphans (cmd : Command) (t : Table) (ok : Saves) : Prop :=
  match cmd with
  | .reserveAt exact uuid bytes index _ _ =>
    (∃ i k, t.Grants uuid bytes index exact i k) ∧ ok.table = true ∧ ok.ticket = false
  | _ => False

namespace Table

variable {t : Table} {uuid : Text} {bytes : UInt64} {minIndex : UInt32}
  {exact : Bool} {c : Camera} {ok : Saves}

theorem same_of_reserve (h : (t.run c ok (.reserve uuid bytes)).2.IsErr) :
    t.Same (t.run c ok (.reserve uuid bytes)).1 := by
  obtain ⟨e, h⟩ := h
  obtain ⟨e, heq, -⟩ | ⟨k, l, hf, heq⟩ | ⟨index, k, hg, -, heq⟩ | ⟨index, k, hg, -, heq⟩ :=
    t.reserveRange_cases uuid bytes 0 false ok.table
  · simpa only [run, heq, appendCamera] using Same.refl t
  · simp only [run, heq, appendCamera, hf] at h
    cases h
  · obtain ⟨p, hp⟩ := t.put_findUuid k (t.newLease uuid bytes index)
    have hu : (t.newLease uuid bytes index).uuid = uuid := rfl
    rw [hu] at hp
    simp only [run, heq, appendCamera, hp] at h
    cases h
  · simpa only [run, heq, appendCamera] using hg.undo _

/-- A ticketed reserve that fails changes nothing, unless its grant was
saved and its ticket was not. -/
theorem same_of_reserveAt_iff {ticket : Text} {intent : Intent}
    (h : (t.run c ok (.reserveAt exact uuid bytes minIndex ticket intent)).2.IsErr) :
    t.Same (t.run c ok (.reserveAt exact uuid bytes minIndex ticket intent)).1 ↔
      ¬ ((∃ i k, t.Grants uuid bytes minIndex exact i k) ∧
        ok.table = true ∧ ok.ticket = false) := by
  obtain ⟨e, h⟩ := h
  obtain ⟨e, heq, hno⟩ | ⟨k, l, hf, heq⟩ | ⟨index, k, hg, hok, heq⟩ | ⟨index, k, hg, hok, heq⟩ :=
    t.reserveRange_cases uuid bytes minIndex exact ok.table
  · -- refused before any slot was taken
    simp only [run, heq, appendCamera, Same.refl, true_iff]
    intro hbad
    obtain ⟨⟨i, k, hg⟩, -⟩ := hbad
    exact hno i k hg
  · -- the lease was there; its ticket could not be saved
    have hnot : ¬ ∃ i k, t.Grants uuid bytes minIndex exact i k := by
      intro hg
      obtain ⟨i, k, -, hnone, -⟩ := hg
      rw [hnone] at hf
      cases hf
    cases htick : ok.ticket with
    | true =>
      simp only [run, heq, appendCamera, hf, htick, if_true] at h
      cases h
    | false => simp [run, heq, appendCamera, hf, htick, hnot, Same.refl]
  · obtain ⟨p, hp⟩ := t.put_findUuid k (t.newLease uuid bytes index)
    have hu : (t.newLease uuid bytes index).uuid = uuid := rfl
    rw [hu] at hp
    cases htick : ok.ticket with
    | true =>
      simp only [run, heq, appendCamera, hp, htick, if_true] at h
      cases h
    | false =>
      -- the grant stays: its slot was free before
      have hfree := pick_slot hg.2.2
      simp only [run, heq, appendCamera, hp, htick]
      constructor
      · intro hsame
        have hk := congrFun hsame.1 k
        rw [if_neg (by decide), save_slots, put_slots, update_self, hfree] at hk
        cases hk
      · intro hnot
        exact absurd ⟨⟨index, k, hg⟩, hok, trivial⟩ hnot
  · simp only [run, heq, appendCamera, hg.undo, true_iff]
    intro hbad
    rw [hok] at hbad
    exact Bool.noConfusion hbad.2.1

theorem same_of_release {epoch : UInt64} {ok : Bool}
    (h : (t.release uuid epoch ok).2.IsErr) : t.Same (t.release uuid epoch ok).1 := by
  obtain ⟨e, h⟩ := h
  obtain ⟨e, heq⟩ | ⟨k, l, -, -, -, heq⟩ := t.release_cases uuid epoch ok
  · rw [heq]
    exact Same.refl t
  · rw [heq] at h
    cases h

end Table

/-- A failed slice-lease command has no effect on table and store, unless
it is a ticketed reserve that was granted and saved and whose ticket
could not be saved. -/
theorem slice_failed_iff (t : Table) (c : Camera) (ok : Saves) (req : Text)
    (herr : "ERR".toList <+: (t.admin c ok req).2.text) :
    ((t.admin c ok req).1.slots = t.slots ∧ (t.admin c ok req).1.store = t.store) ↔
      ¬ ∃ cmd, Command.parse req = .ok cmd ∧ cmd.Orphans t ok := by
  rw [← Reply.isErr_iff] at herr
  show t.Same (t.admin c ok req).1 ↔ _
  unfold Table.admin at herr ⊢
  cases hp : Command.parse req with
  | error e => simp [Table.Same.refl]
  | ok cmd =>
    rw [hp] at herr
    simp only [Except.ok.injEq, exists_eq_left']
    cases cmd with
    | reserve uuid bytes =>
      simpa [Command.Orphans] using Table.same_of_reserve herr
    | reserveAt exact uuid bytes index ticket intent =>
      exact Table.same_of_reserveAt_iff herr
    | release uuid epoch =>
      simpa [Command.Orphans, Table.run] using Table.same_of_release herr
    | query uuid => simpa [Command.Orphans, Table.run] using Table.Same.refl t

-- ---- an orphan lease

def sampleTable : Table := Table.setGeometry {} true 2 65536 true

def sampleCamera : Camera := ⟨fun _ => false, fun _ _ _ => {}, fun _ _ _ => none⟩

def sampleReserve : Text := "RESERVE_SLICE_AT 1a2b 65536 1 amba_shm0 on".toList

/-- A ticketed reserve whose second save fails: the reply is an error and
slice 1 is leased, in the table and in the store. -/
theorem orphan_lease : (sampleTable.admin sampleCamera ⟨true, false⟩ sampleReserve).2.text
        = "ERR PERSIST\n".toList ∧
      (sampleTable.admin sampleCamera ⟨true, false⟩ sampleReserve).1.IndexTaken 1 ∧
      ¬ sampleTable.IndexTaken 1 ∧
      (sampleTable.admin sampleCamera ⟨true, false⟩ sampleReserve).1.store
        = "1a2b 1 1 65536 - consumer\n".toList ∧
      sampleTable.store = [] := by
  decide

/-- With the first save failing nothing is left. -/
theorem slice_failed_iff_undone : ("ERR".toList <+:
      (sampleTable.admin sampleCamera ⟨false, false⟩ sampleReserve).2.text) ∧
    (((sampleTable.admin sampleCamera ⟨false, false⟩ sampleReserve).1.slots = sampleTable.slots ∧
      (sampleTable.admin sampleCamera ⟨false, false⟩ sampleReserve).1.store = sampleTable.store) ↔
      ¬ ∃ cmd, Command.parse sampleReserve = .ok cmd ∧ cmd.Orphans sampleTable ⟨false, false⟩) := by
  have herr : "ERR".toList <+:
      (sampleTable.admin sampleCamera ⟨false, false⟩ sampleReserve).2.text := by
    decide
  exact ⟨herr, slice_failed_iff sampleTable sampleCamera ⟨false, false⟩ sampleReserve herr⟩

end AmbaVirt.Lease
