/-
The store as a file, and what a crash leaves of the lease table.

A save prints one line per lease and one per slice that waits for its
scrub (`Line.text`); a load scans the lines again (`Line.ofText`). No
uuid is the word `scrub`, so the load tells the two kinds apart and reads
the lines that were saved (`readStore_storeText`). Only a successful save
changes the file (`store_of_run`), so a crash brings back the table of
the last one, however many saves have failed since (`Restores`).
-/
import AmbaVirt.Lease.Store
import AmbaVirt.Low.Commands
import AmbaVirt.Low.Inv

namespace AmbaVirt.Low

open Lib

-- ==== the file

/-- A uuid that `uuid_ok` passes. -/
abbrev Uuid := { u : Text // AmbaVirt.Lease.uuidOk u = true }

namespace Line

/-- `"%s %u %llu %u"`. -/
def fields (word : Text) (index : UInt32) (epoch : UInt64) (cid : UInt32) : Text :=
  word ++ ' ' :: (decimal index.toNat ++ ' ' :: (decimal epoch.toNat ++ ' ' :: decimal cid.toNat))

/-- The line `save_locked` prints, without its newline. -/
def text : Line Uuid → Text
  | .lease l => fields l.uuid.1 (.ofNat l.index) l.epoch l.cid
  | .scrub i => fields "scrub".toList (.ofNat i) 0 0

/-- The `sscanf` of `virt_low_lease_load`. -/
def scan (line : Text) : Option (Text × UInt32 × UInt64 × UInt32) := do
  let (word, r) ← scanWord 63 line
  let (index, r) ← scanU32 r
  let (epoch, r) ← scanU64 r
  let (cid, _) ← scanU32 r
  return (word, index, epoch, cid)

/-- What `virt_low_lease_load` takes a line for. What it asks of a lease
beyond its uuid and index is in `loadLines`. -/
def ofText (line : Text) : Option (Line Uuid) :=
  match scan line with
  | none => none
  | some (word, index, epoch, cid) =>
    if hi : index.toNat < 8 then
      if word = "scrub".toList then some (.scrub ⟨index.toNat, hi⟩)
      else if hu : AmbaVirt.Lease.uuidOk word = true then
        some (.lease ⟨⟨word, hu⟩, ⟨index.toNat, hi⟩, epoch, cid⟩)
      else none
    else none

variable {word : Text} {index : UInt32} {epoch : UInt64} {cid : UInt32}

theorem scan_fields (hw : IsWord word) (hlen : word.length ≤ 63) :
    scan (fields word index epoch cid ++ ['\n']) = some (word, index, epoch, cid) := by
  have hblank (r : Text) : AtBlank (' ' :: r) := atBlank_cons (by decide)
  have hend : AtBlank ['\n'] := atBlank_cons (by decide)
  simp only [scan, fields, List.append_assoc, List.cons_append,
    scanWord_text hw (hblank _) hlen, Option.bind_eq_bind, Option.bind_some,
    scanU32_space, scanU64_space, scanU32_decimal (hblank _),
    scanU64_decimal (hblank _), scanU32_decimal hend]
  rfl

/-- A line fits the buffer of the load, newline included. -/
theorem fields_fit (hw : IsWord word) (hlen : word.length ≤ 63) :
    '\n' ∉ fields word index epoch cid ∧ (fields word index epoch cid).length < 255 := by
  have hindex : (decimal index.toNat).length ≤ 10 :=
    length_decimal_le (by omega) (by have := index.toNat_lt; omega)
  have hepoch : (decimal epoch.toNat).length ≤ 20 :=
    length_decimal_le (by omega) (by have := epoch.toNat_lt; omega)
  have hcid : (decimal cid.toNat).length ≤ 10 :=
    length_decimal_le (by omega) (by have := cid.toNat_lt; omega)
  constructor
  · simp [fields, AmbaVirt.Lease.Slot.newline_not_mem hw,
      AmbaVirt.Lease.Slot.newline_not_mem (isWord_decimal _)]
  · simp only [fields, List.length_append, List.length_cons]
    omega

theorem isWord_uuid (u : Uuid) : IsWord u.1 ∧ u.1.length ≤ 63 :=
  ⟨AmbaVirt.Lease.isWord_uuid u.2, le_trans (AmbaVirt.Lease.uuidOk_iff.mp u.2).2.1 (by decide)⟩

theorem isWord_scrub : IsWord "scrub".toList ∧ "scrub".toList.length ≤ 63 :=
  ⟨⟨by simp, by simp [isSpace]⟩, by decide⟩

theorem text_fits (l : Line Uuid) : '\n' ∉ l.text ∧ l.text.length < 255 := by
  cases l with
  | lease l => exact fields_fit (isWord_uuid l.uuid).1 (isWord_uuid l.uuid).2
  | scrub i => exact fields_fit isWord_scrub.1 isWord_scrub.2

theorem ofText_text (l : Line Uuid) : ofText (l.text ++ ['\n']) = some l := by
  have hindex (i : Fin 8) : (UInt32.ofNat i).toNat = i :=
    UInt32.toNat_ofNat_of_lt' (lt_trans i.2 (by decide))
  cases l with
  | lease l =>
    -- an `s` is no hexadecimal digit
    have hne : l.uuid.1 ≠ ['s', 'c', 'r', 'u', 'b'] := by
      intro h
      have hok := l.uuid.2
      rw [h] at hok
      exact absurd hok (by decide)
    rw [ofText, text, scan_fields (isWord_uuid l.uuid).1 (isWord_uuid l.uuid).2]
    simp [hindex, hne, l.uuid.2]
  | scrub i =>
    rw [ofText, text, scan_fields isWord_scrub.1 isWord_scrub.2]
    simp [hindex]

end Line

/-- The file `save_locked` writes. -/
def storeText (ls : List (Line Uuid)) : Text := ls.flatMap fun l => l.text ++ ['\n']

def readStore (text : Text) : List (Line Uuid) := (fgets 255 text).filterMap Line.ofText

theorem readStore_storeText (ls : List (Line Uuid)) : readStore (storeText ls) = ls := by
  rw [readStore, storeText, filterMap_fgets (f := id) (fun l _ => l.text_fits)
    fun l _ => l.ofText_text, List.map_id]

-- ==== saves

variable {U : Type}

def Event.Saves : Event U → Prop
  | .reserveSave ok | .releaseSave ok | .scrubClear ok => ok = true
  | _ => False

theorem Leases.save_store (x : Leases U) (ok : Bool) : (¬ ok = true → (x.save ok).store = x.store) ∧
      (ok = true → (x.save ok).store = (x.save ok).lines) := by
  cases ok <;> simp [Leases.save, Leases.lines]

variable [DecidableEq U] {s x t : Server U} {e : Event U}

/-- A successful save leaves the table in the store; any other step leaves
the store alone. -/
theorem store_of_step (hst : Step s e x) :
    (¬ e.Saves → x.store = s.store) ∧ (e.Saves → x.store = x.lines) := by
  cases hst with
  | tick ms => simp [Event.Saves]
  | crash now =>
    refine ⟨fun _ => ?_, by simp [Event.Saves]⟩
    exact (loadLines_frame _ _).2.2.2.2.2.1
  | reserve hst =>
    cases hst with
    | saveFound => exact s.save_store _
    | saveFilled => exact s.save_store true
    | search | wakeSearch => exact ⟨fun _ => (s.search_store _ _).1, by simp [Event.Saves]⟩
    | timeout => exact ⟨fun _ => (s.search_store _ _).2, by simp [Event.Saves]⟩
    | _ => exact ⟨fun _ => rfl, by simp [Event.Saves]⟩
  | release hst =>
    cases hst with
    | @save k => exact (s.setSlot k none).save_store true
    | _ => exact ⟨fun _ => rfl, by simp [Event.Saves]⟩
  | scrub hst =>
    cases hst with
    | @clear i ok => exact (s.setScrub i false).save_store ok
    | _ => exact ⟨fun _ => rfl, by simp [Event.Saves]⟩
  | job hst =>
    rw [hst.leases]
    cases hst <;> exact ⟨fun _ => rfl, by simp [Event.Saves]⟩

theorem store_of_run {es : List (Event U)}
    (hrun : ((serverSystem U).restrict fun _ e => ¬ e.Saves).Run x es t) :
    t.store = x.store := by
  induction hrun with
  | nil => rfl
  | snoc _ hst ih => exact ((store_of_step hst.2).1 hst.1).trans ih

-- ==== a crash

/-- The server `s` has the leases and the pending scrubs of the table `x`. -/
structure Restores (x : Leases U) (s : Server U) : Prop where
  leases : ∀ l, (∃ k, s.slots k = some l) ↔ ∃ k, x.slots k = some l
  scrub : ∀ ⦃i⦄, x.scrub i = true → s.scrub i = true

theorem Leases.Inv.restores {x : Leases U} (h : x.Inv) (hsaved : x.store = x.lines)
    (now : Nat) (log : List (Obs U)) : Restores x (Server.start now x.store log) := by
  obtain ⟨hload, -, hheld, hmark⟩ := loadLines_spec h.storeOk x.store
    (.boot now x.store log) (List.Subset.refl _) (loading_boot now x.store x.store log)
  have hmem {k : Fin 8} {l : Lease U}
      (hl : (Server.start now x.store log).slots k = some l) : ∃ k, x.slots k = some l := by
    rw [← Leases.lease_mem_lines, ← hsaved]
    exact hload.slots_mem hl
  refine ⟨fun l => ⟨fun ⟨_, hl⟩ => hmem hl, ?_⟩, ?_⟩
  · rintro ⟨k, hl⟩
    have hline : Line.lease l ∈ x.store := by
      rw [hsaved, Leases.lease_mem_lines]
      exact ⟨k, hl⟩
    -- the lease that was loaded for the uuid is the one of the table
    obtain ⟨j, l', hl', hu, -⟩ := hheld l hline
    obtain ⟨k', hk'⟩ := hmem hl'
    obtain rfl := h.uuid_inj hk' hl hu
    obtain rfl := Option.some.inj (hk'.symm.trans hl)
    exact ⟨j, hl'⟩
  · intro i hi
    have hline : Line.scrub i ∈ x.store := by
      rw [hsaved, Leases.scrub_mem_lines]
      exact hi
    show (if _ then _ else true) = true
    rw [hmark i hline, ite_self]

/-- The low lease table. Whenever the lease lock is free no slice is both
leased and marked for a scrub; no two leases share a uuid or a slice; and
a crash at any point after a successful save, before the next one, brings
back the leases and the marks of the saved table. -/
theorem low_leases_survive (s : Server Uuid) (h : (serverSystem Uuid).Reachable s) :
    (s.admin.Unlocked → ∀ i, ¬ (s.IndexLeased i ∧ s.scrub i = true)) ∧
      s.Distinct Lease.uuid ∧ s.Distinct Lease.index ∧
      ∀ e x es t now, Step s e x → e.Saves →
        ((serverSystem Uuid).restrict fun _ e => ¬ e.Saves).Run x es t →
        Restores x.toLeases (.start now (readStore (storeText t.store)) t.log) := by
  have hinv := (inv_reachable h).leases
  refine ⟨?_, hinv.uuid_inj, hinv.index_inj, ?_⟩
  · rintro hfree i ⟨⟨k, l, hl, rfl⟩, hs⟩
    exact (hfree.ne_unbound k l).1 (hinv.scrub_leased hl hs)
  · intro e x es t now hst hsave hrun
    rw [readStore_storeText, store_of_run hrun]
    exact (inv_reachable (h.step hst)).leases.restores ((store_of_step hst).2 hsave) _ _

def sampleUuid : Uuid := ⟨"1a".toList, rfl⟩

/-- A lease is saved and the server crashes at once. -/
theorem low_leases_survive_sample : ∃ x : Server Uuid, (∃ k l, x.slots k = some l) ∧
    x.scrub 1 = true ∧
    Restores x.toLeases (.start 0 (readStore (storeText x.store)) x.log) := by
  have hfree : ((serverSystem Uuid).restrict fun _ _ => True).Reachable
      ((Server.start 10000 [] []).scrubRound 0) := by
    refine reachable_scrubRound (fun _ _ _ => trivial) 0 (.init ⟨10000, rfl⟩) ?_ ?_ ?_ ?_ ?_
    all_goals decide
  have hasked := hfree.of_restrict.step (e := .reserve sampleUuid 5)
    (.reserve (.search (by decide) (by decide) (by decide) (by decide)))
  refine ⟨_, ⟨0, _, rfl⟩, ?_, (low_leases_survive _ hasked).2.2.2 (.reserveSave true) _ [] _ 0
    (.reserve (.saveFilled (k := 0) (by decide))) rfl (.nil _)⟩
  decide

end AmbaVirt.Low
