/-
The store of the slice leases, written and read back.

`Slot.WellFormed` is what every lease of a table is; its line is then
read back as the lease (`ofLine_line`), except that a ticket `-` is the
mark of no ticket. A file of such lines gives the leases in their order
(`stored_lines`), and a load takes no lease that its file does not hold
(`load_slots`). A lease on the only line of its uuid and its index is
taken, and the counter is past its epoch then (`load_past`).
-/
import AmbaVirt.Lease.Failed
import AmbaVirt.Lib.Ledger
import AmbaVirt.Lib.Table

namespace AmbaVirt.Lease

open Lib

-- ==== well-formed

/-- A lease as the commands and the load make them. -/
structure Slot.WellFormed (l : Slot) : Prop where
  uuid : uuidOk l.uuid = true
  epoch : l.epoch ≠ 0
  bytes : l.bytes ≠ 0
  ticket : l.ticket = [] ∨ ticketOk l.ticket = true

theorem not_space_of_xdigit {c : Char} (h : (c == '-' || isXDigit c) = true) :
    isSpace c = false ∧ c ≠ '#' ∧ c ≠ '\n' := by
  refine ⟨?_, ?_, ?_⟩
  · by_contra hs
    simp only [Bool.not_eq_false, isSpace, Bool.or_eq_true, beq_iff_eq] at hs
    rcases hs with ((((rfl | rfl) | rfl) | rfl) | rfl) | rfl <;> exact absurd h (by decide)
  · intro hc
    subst hc
    exact absurd h (by decide)
  · intro hc
    subst hc
    exact absurd h (by decide)

theorem uuidOk_iff {uuid : Text} : uuidOk uuid = true ↔ 1 ≤ uuid.length ∧ uuid.length ≤ 36 ∧
      ∀ c ∈ uuid, (c == '-' || isXDigit c) = true := by
  simp [uuidOk, and_assoc]

theorem isWord_uuid {uuid : Text} (h : uuidOk uuid = true) : IsWord uuid := by
  obtain ⟨hlen, -, hall⟩ := uuidOk_iff.mp h
  refine ⟨?_, fun c hc => (not_space_of_xdigit (hall c hc)).1⟩
  intro hnil
  simp [hnil] at hlen

theorem ticketOk_iff {ticket : Text} : ticketOk ticket = true ↔
    1 ≤ ticket.length ∧ ticket.length ≤ 48 ∧
      ∀ c ∈ ticket, (c.isAlphanum || c == '_' || c == '.' || c == '-') = true := by
  simp only [ticketOk, Bool.and_eq_true, decide_eq_true_eq, List.all_eq_true, and_assoc]
  rfl

theorem isWord_ticket {ticket : Text} (h : ticketOk ticket = true) :
    IsWord ticket := by
  obtain ⟨hlen, -, hall⟩ := ticketOk_iff.mp h
  refine ⟨?_, ?_⟩
  · intro hnil
    simp [hnil] at hlen
  intro c hc
  have hok := hall c hc
  by_contra hs
  simp only [Bool.not_eq_false, isSpace, Bool.or_eq_true, beq_iff_eq] at hs
  rcases hs with ((((rfl | rfl) | rfl) | rfl) | rfl) | rfl <;>
    exact absurd hok (by decide)

namespace Slot

variable {l : Slot}

def ticketWord (l : Slot) : Text := if l.ticket = [] then ['-'] else l.ticket

def roleWord (l : Slot) : Text :=
  (if l.primary then "primary" else "consumer").toList

theorem WellFormed.isWord_ticketWord (h : l.WellFormed) : IsWord l.ticketWord := by
  unfold ticketWord
  split
  · exact ⟨by simp, by simp [isSpace]⟩
  · rename_i hne
    exact isWord_ticket (h.ticket.resolve_left hne)

theorem WellFormed.length_ticketWord (h : l.WellFormed) : l.ticketWord.length ≤ 48 := by
  unfold ticketWord
  split
  · simp
  · rename_i hne
    exact (ticketOk_iff.mp (h.ticket.resolve_left hne)).2.1

theorem isWord_roleWord (l : Slot) : IsWord l.roleWord := by
  unfold roleWord
  cases l.primary <;> exact ⟨by simp, by simp [isSpace]⟩

theorem length_roleWord (l : Slot) : l.roleWord.length ≤ 8 := by
  unfold roleWord
  cases l.primary <;> simp

theorem line_append (l : Slot) (r : Text) :
    l.line ++ r = l.uuid ++ ' ' :: (decimal l.index.toNat ++ ' ' ::
      (decimal l.epoch.toNat ++ ' ' :: (decimal l.bytes.toNat ++ ' ' ::
        (l.ticketWord ++ ' ' :: (l.roleWord ++ r))))) := by
  simp only [line, ticketWord, roleWord, List.append_assoc, List.cons_append]

-- ==== one line

theorem newline_not_mem {w : Text} (h : IsWord w) : '\n' ∉ w := by
  intro hmem
  have := h.2 _ hmem
  exact absurd this (by decide)

theorem WellFormed.newline_not_mem (h : l.WellFormed) : '\n' ∉ l.line := by
  have hsp : '\n' ≠ ' ' := by decide
  rw [← List.append_nil l.line, line_append]
  simp only [List.mem_append, List.mem_cons, hsp, List.not_mem_nil,
    Slot.newline_not_mem (isWord_uuid h.uuid),
    Slot.newline_not_mem (isWord_decimal _),
    Slot.newline_not_mem h.isWord_ticketWord,
    Slot.newline_not_mem l.isWord_roleWord, or_self, not_false_eq_true]

theorem WellFormed.length_line (h : l.WellFormed) : l.line.length < 255 := by
  have huuid := (uuidOk_iff.mp h.uuid).2.1
  have hticket := h.length_ticketWord
  have hrole := l.length_roleWord
  have hindex : (decimal l.index.toNat).length ≤ 10 :=
    length_decimal_le (by omega) (by have := l.index.toNat_lt; omega)
  have hepoch : (decimal l.epoch.toNat).length ≤ 20 :=
    length_decimal_le (by omega) (by have := l.epoch.toNat_lt; omega)
  have hbytes : (decimal l.bytes.toNat).length ≤ 20 :=
    length_decimal_le (by omega) (by have := l.bytes.toNat_lt; omega)
  rw [← List.append_nil l.line, line_append]
  simp only [List.length_append, List.length_cons, List.length_nil]
  omega

theorem WellFormed.scanLine (h : l.WellFormed) : scanLine (l.line ++ ['\n'])
      = some ({ l with ticket := [], primary := false }, [l.ticketWord, l.roleWord]) := by
  have hblank (r : Text) : AtBlank (' ' :: r) := atBlank_cons (by decide)
  have hend : AtBlank ['\n'] := atBlank_cons (by decide)
  have huuid := (uuidOk_iff.mp h.uuid).2.1
  have hticket := h.length_ticketWord
  have hrole := l.length_roleWord
  rw [Lease.scanLine, line_append, scanWord_text (isWord_uuid h.uuid) (hblank _) (by omega)]
  simp only [Option.bind_eq_bind, Option.bind_some, scanU32_space, scanU64_space,
    scanU32_decimal (hblank _), scanU64_decimal (hblank _)]
  simp only [scanWords, scanWord_space,
    scanWord_text h.isWord_ticketWord (hblank _) (show l.ticketWord.length ≤ 63 by omega),
    scanWord_text l.isWord_roleWord hend (show l.roleWord.length ≤ 63 by omega)]
  rfl

/-- A lease as its line says it: a ticket `-` is no ticket, and without a
ticket there is no role. -/
def reread (l : Slot) : Slot :=
  if l.ticket = [] ∨ l.ticket = ['-'] then { l with ticket := [], primary := false }
  else l

@[simp] theorem reread_uuid (l : Slot) : l.reread.uuid = l.uuid := by
  unfold reread
  split <;> rfl

@[simp] theorem reread_epoch (l : Slot) : l.reread.epoch = l.epoch := by
  unfold reread
  split <;> rfl

theorem WellFormed.withTicket (h : l.WellFormed) :
    ({ l with ticket := [], primary := false } : Slot).withTicket
      [l.ticketWord, l.roleWord] = l.reread := by
  have hrole : l.roleWord = "primary".toList ∨ l.roleWord = "consumer".toList := by
    unfold roleWord
    cases l.primary <;> simp
  have hprim : decide (l.roleWord = "primary".toList) = l.primary := by
    unfold roleWord
    cases l.primary <;> decide
  unfold Slot.withTicket Slot.reread ticketWord
  by_cases hnil : l.ticket = []
  · simp [hnil]
  have htick := h.ticket.resolve_left hnil
  by_cases hdash : l.ticket = ['-']
  · simp [hdash]
  rw [if_neg hnil, if_neg (not_or.mpr ⟨hnil, hdash⟩)]
  show (if l.ticket ≠ ['-'] ∧ ticketOk l.ticket = true ∧
    (l.roleWord = "primary".toList ∨ l.roleWord = "consumer".toList) then _ else _) = _
  rw [if_pos ⟨hdash, htick, hrole⟩, hprim]

theorem ofLine_line (h : l.WellFormed) : Slot.ofLine (l.line ++ ['\n']) = some l.reread := by
  have hhead : ¬ ((l.line ++ ['\n']).head? = some '#' ∨ (l.line ++ ['\n']).head? = some '\n') := by
    obtain ⟨hlen, -, hall⟩ := uuidOk_iff.mp h.uuid
    rw [line_append]
    cases hu : l.uuid with
    | nil => simp [hu] at hlen
    | cons c cs =>
      obtain ⟨-, hhash, hnl⟩ := not_space_of_xdigit (hall c (by simp [hu]))
      simp [hhash, hnl]
  have hok : ¬ (uuidOk l.uuid = false ∨ l.epoch = 0 ∨ l.bytes = 0) := by
    simp [h.uuid, h.epoch, h.bytes]
  rw [ofLine, if_neg hhead, h.scanLine, Option.bind_some, ← h.withTicket]
  exact if_neg hok

end Slot

-- ==== a file

def storedSlots (text : Text) : List Slot :=
  (fgets 255 text).filterMap Slot.ofLine

theorem stored_lines {ls : List Slot} (h : ∀ l ∈ ls, l.WellFormed) :
    storedSlots (ls.flatMap fun l => l.line ++ ['\n']) = ls.map Slot.reread :=
  filterMap_fgets (fun l hl => ⟨(h l hl).newline_not_mem, (h l hl).length_line⟩)
    fun l hl => Slot.ofLine_line (h l hl)

namespace Table

variable {t : Table}

def WellFormed (t : Table) : Prop := ∀ ⦃k l⦄, t.slots k = some l → l.WellFormed

theorem stored_text (h : t.WellFormed) :
    storedSlots t.text = ((List.finRange 8).filterMap t.slots).map Slot.reread := by
  refine stored_lines fun l hl => ?_
  obtain ⟨k, -, hk⟩ := List.mem_filterMap.mp hl
  exact h hk

theorem mem_stored_text (h : t.WellFormed) {l : Slot} :
    l ∈ storedSlots t.text ↔ ∃ k l', t.slots k = some l' ∧ l'.reread = l := by
  rw [stored_text h, List.mem_map]
  constructor
  · intro hl
    obtain ⟨l', hl', heq⟩ := hl
    obtain ⟨k, -, hk⟩ := List.mem_filterMap.mp hl'
    exact ⟨k, l', hk, heq⟩
  · intro hl
    obtain ⟨k, l', hk, heq⟩ := hl
    exact ⟨l', List.mem_filterMap.mpr ⟨k, List.mem_finRange k, hk⟩, heq⟩

end Table

theorem Slot.withTicket_wellFormed {l : Slot} (h : l.WellFormed) (more : List Text) :
    (l.withTicket more).WellFormed := by
  unfold Slot.withTicket
  split
  · split
    · rename_i htick
      exact ⟨h.uuid, h.epoch, h.bytes, .inr htick.2.1⟩
    · exact h
  · exact h

variable {line : Text}

/-- What a line stands for: four checked fields, and perhaps a ticket. -/
theorem Slot.ofLine_some {l : Slot} (h : Slot.ofLine line = some l) :
    ∃ m more, l = Slot.withTicket m more ∧ m.WellFormed ∧ m.ticket = [] ∧ m.primary = false := by
  unfold Slot.ofLine at h
  split at h
  · cases h
  obtain ⟨⟨m, more⟩, hscan, hl⟩ := Option.bind_eq_some_iff.mp h
  have hbare : m.ticket = [] ∧ m.primary = false := by
    simp only [scanLine, Option.bind_eq_bind, Option.bind_eq_some_iff] at hscan
    obtain ⟨w, -, i, -, e, -, b, -, hslot⟩ := hscan
    cases hslot
    exact ⟨rfl, rfl⟩
  dsimp only at hl
  split at hl
  · cases hl
  · rename_i hok
    simp only [not_or, Bool.not_eq_false] at hok
    exact ⟨m, more, (Option.some.inj hl).symm, ⟨hok.1, hok.2.1, hok.2.2, .inl hbare.1⟩, hbare⟩

theorem wellFormed_of_ofLine {l : Slot} (h : Slot.ofLine line = some l) :
    l.WellFormed := by
  obtain ⟨m, more, rfl, hm, -⟩ := Slot.ofLine_some h
  exact Slot.withTicket_wellFormed hm more

-- ==== the load

namespace Table

variable {t : Table} {k : Fin 8}

def UuidInj (t : Table) : Prop := ∀ ⦃k k' l l'⦄, t.slots k = some l →
  t.slots k' = some l' → l.uuid = l'.uuid → k = k'

/-- What a load of these lines does: it takes leases of them, one for
each uuid. -/
structure Takes (ls : List Text) (t t' : Table) : Prop where
  slots : ∀ ⦃k l⦄, t'.slots k = some l → t.slots k = some l ∨ ∃ line ∈ ls, Slot.ofLine line = some l
  uuid : t.UuidInj → t'.UuidInj
  store : t'.store = t.store

theorem Takes.cons {ls : List Text} {t' : Table} (h : Takes ls t t') :
    Takes (line :: ls) t t' := by
  refine ⟨?_, h.uuid, h.store⟩
  intro k l hl
  rcases h.slots hl with hl | ⟨line', hmem, hline⟩
  · exact .inl hl
  · exact .inr ⟨line', List.mem_cons_of_mem _ hmem, hline⟩

theorem UuidInj.put (h : t.UuidInj) {l : Slot}
    (hu : t.findUuid l.uuid = none) : (t.setSlot k (some l)).UuidInj :=
  Apart.put h (fun _ _ => Eq.symm) fun _ _ hm heq => absurd heq (findUuid_none hu hm)

theorem loadLines_takes (ls : List Text) (t : Table) : Takes ls t (loadLines ls t) := by
  induction ls generalizing t with
  | nil => exact ⟨fun _ _ hl => .inl hl, id, rfl⟩
  | cons line ls ih =>
    rw [loadLines]
    cases hline : Slot.ofLine line with
    | none => exact (ih t).cons
    | some l =>
      dsimp only
      split
      case isFalse => exact (ih t).cons
      case isTrue hloads =>
      cases hk : t.freeSlot with
      | none => exact ⟨fun _ _ hl => .inl hl, id, rfl⟩
      | some k =>
        dsimp only
        generalize ht₁ : ({ t.setSlot k (some l) with nextEpoch := _ } : Table) = t₁
        have hslots : t₁.slots = (t.setSlot k (some l)).slots := by rw [← ht₁]
        have hstore : t₁.store = t.store := by rw [← ht₁]; rfl
        have hih := ih t₁
        refine ⟨?_, ?_, hih.store.trans hstore⟩
        · intro k' l' hl'
          rcases hih.slots hl' with hl' | ⟨line', hmem, hline'⟩
          · rw [hslots, setSlot_slots, Function.update_apply] at hl'
            split at hl'
            · obtain rfl := Option.some.inj hl'
              exact .inr ⟨line, List.mem_cons_self, hline⟩
            · exact .inl hl'
          · exact .inr ⟨line', List.mem_cons_of_mem _ hmem, hline'⟩
        · intro hinj
          refine hih.uuid ?_
          have hput := hinj.put (k := k) hloads.2.2.2.1
          unfold UuidInj at hput ⊢
          rw [hslots]
          exact hput

/-- A load of an empty table holds leases of its store. -/
theorem load_slots (h : ∀ k, t.slots k = none) {l : Slot}
    (hl : t.load.slots k = some l) : l ∈ storedSlots t.store := by
  rcases (loadLines_takes (fgets 255 t.store) t).slots hl with hl | ⟨line, hmem, hline⟩
  · rw [h k] at hl
    cases hl
  · exact List.mem_filterMap.mpr ⟨line, hmem, hline⟩

theorem load_uuidInj (h : ∀ k, t.slots k = none) : t.load.UuidInj := by
  refine (loadLines_takes (fgets 255 t.store) t).uuid ?_
  intro k _ _ _ hl
  rw [h k] at hl
  cases hl

/-- A load of these leases takes `l`: it is of the geometry, no other has
its uuid or its index, and there are slots for all. -/
structure Fits (ls : List Slot) (count : UInt32) (bytes : UInt64) (l : Slot) : Prop where
  geometry : count ≥ 1 ∧ count ≤ 8 ∧ bytes ≠ 0 ∧ bytes % 4096 = 0
  good : l.index < count ∧ l.bytes = bytes
  only : ∀ m ∈ ls, m.uuid = l.uuid ∨ m.index = l.index → m = l
  room : ls.length ≤ 8
  last : ∀ m ∈ ls, m.epoch ≠ 0xffffffffffffffff

theorem loadLines_reload (hm : t.matched = true) (lines : List Text) :
    Ledger.Reload Slot.epoch (fun l => l.index < t.count ∧ l.bytes = t.sliceBytes)
      (fun m l => m.uuid = l.uuid ∨ m.index = l.index) (lines.filterMap Slot.ofLine) t.slots
      t.nextEpoch (loadLines lines t).nextEpoch := by
  induction lines generalizing t with
  | nil => exact .nil
  | cons line lines ih =>
    rw [loadLines]
    cases hline : Slot.ofLine line with
    | none =>
      rw [List.filterMap_cons_none hline]
      exact ih hm
    | some l =>
      rw [List.filterMap_cons_some hline]
      dsimp only
      split
      case isFalse hskip =>
        refine .skip (fun hgood => ?_) (ih hm)
        by_contra hno
        refine hskip ⟨hm, hgood.1, hgood.2, ?_, fun ⟨k, m, hk, hi⟩ => hno ⟨k, m, hk, .inr hi⟩⟩
        cases hf : t.findUuid l.uuid with
        | none => rfl
        | some p =>
          obtain ⟨hk, hu⟩ := findUuid_some hf
          exact absurd ⟨_, _, hk, .inl hu⟩ hno
      case isTrue =>
      cases hk : t.freeSlot with
      | none =>
        refine .full fun k hnone => ?_
        have hused := Fin.eq_false_of_find?_eq_none hk k
        rw [hnone] at hused
        cases hused
      | some k =>
        refine .take k (freeSlot_spec hk) ?_ (ih (t := { t.setSlot k (some l) with
          nextEpoch := _ }) hm)
        intro hmax
        rw [if_neg hmax]

/-- A load of an empty table leaves the counter past every lease of the
store that fits. -/
theorem load_past (hempty : ∀ k, t.slots k = none) (hm : t.matched = true) {l : Slot}
    (hl : l ∈ storedSlots t.store) (hfits : Fits (storedSlots t.store) t.count t.sliceBytes l)
    (h0 : t.nextEpoch ≠ 0) : l.epoch < t.load.nextEpoch := by
  have hno : ∀ {k m}, t.slots k ≠ some m := fun {k m} hk => by
    rw [hempty k] at hk
    cases hk
  refine (loadLines_reload hm _).past hfits.good ⟨.inl hl, fun _ hk => absurd hk hno,
    fun m hm => hfits.only m (hm.resolve_right fun ⟨_, hk⟩ => hno hk), ?_, hfits.last, h0⟩
  rw [Finset.filter_true_of_mem fun k _ => hempty k]
  exact hfits.room

theorem load_store (t : Table) : t.load.store = t.store :=
  (loadLines_takes (fgets 255 t.store) t).store

end Table

end AmbaVirt.Lease
