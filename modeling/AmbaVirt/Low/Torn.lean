/-
The binding table as the broker reads it: without a lock, one field at a
time.

# The two sides

The writer holds the lease lock and runs the effects of its section
(AmbaVirt.Low.Sections); a bind or an unbind is a `Write`, one store for
each field of the entry. Readers are calls of `iav_slice_rpc_held`, with
a step for each load (`Pc`). `hall.srv.binds` is the table once the write
under way has ended, and `raw` is what is in memory.

# What a reader may report

`seen` is a history variable: the slices that were leased with the
reader's cid during its call. `bind` stores the cid of an entry before
its window, so a reader that matches the new cid may still load the old
window; and the entry it has matched may be cleared or given away before
the window is loaded. What is reported to a thread never caught so
(`Undisturbed`) was seen (`held_sound`).

`RawInv` says field by field how far the write has come: before its cid
is stored an entry is the old one, still leased, and after its window is
stored the new one, leased already.
-/
import AmbaVirt.Low.Replies

namespace AmbaVirt.Low

open Lib Function

-- ==== entries

/-- `struct slice_binding`. -/
structure Entry where
  used : Bool
  cid : UInt32
  window : Fin 8
  usable : Nat
  deriving DecidableEq

def Entry.zero : Entry := ⟨false, 0, 0, 0⟩

/-- `g_bind[]`. -/
abbrev Raw := Fin 8 → Entry

def encode : Option (UInt32 × Fin 8) → Entry
  | none => .zero
  | some (c, i) => ⟨true, c, i, VIRT_LOW_LEASE_USABLE⟩

inductive Field
  | used | cid | window | usable
  deriving DecidableEq

/-- The store of one field of `src`. -/
def Field.copy (src dst : Entry) : Field → Entry
  | used => { dst with used := src.used }
  | cid => { dst with cid := src.cid }
  | window => { dst with window := src.window }
  | usable => { dst with usable := src.usable }

def Field.next : Field → Option Field
  | used => some cid
  | cid => some window
  | window => some usable
  | usable => none

/-- `entry` is being written to entry `k`; `field` is to be stored next. -/
structure Write where
  k : Fin 8
  entry : Entry
  field : Field
  deriving DecidableEq

def Write.store (w : Write) (raw : Raw) : Raw :=
  update raw w.k (w.field.copy w.entry (raw w.k))

def Write.next (w : Write) : Option Write :=
  w.field.next.map fun f => { w with field := f }

/-- `find_cid`. -/
def findEntry (raw : Raw) (cid : UInt32) : Option (Fin 8) :=
  if cid = 0 then none else Fin.find? fun k => (raw k).used && (raw k).cid == cid

/-- `iav_slice_rpc_bind`. -/
def bindWrite (raw : Raw) (cid : UInt32) (i : Fin 8) : Option Write :=
  if cid = 0 then none else
    ((findEntry raw cid).or (Fin.find? fun k => !(raw k).used)).map fun k =>
      ⟨k, ⟨true, cid, i, VIRT_LOW_LEASE_USABLE⟩, .used⟩

/-- `iav_slice_rpc_unbind`. -/
def unbindWrite (raw : Raw) (cid : UInt32) : Option Write :=
  (findEntry raw cid).map fun k => ⟨k, .zero, .used⟩

/-- The write an effect is, if it is one. -/
def Act.write (raw : Raw) : Act Text → Option Write
  | .bind cid i => bindWrite raw cid i
  | .unbind cid => unbindWrite raw cid
  | _ => none

-- ==== readers

/-- A lease with cid `c` and slice `i` is in use. -/
def Leased (s : Server Text) (c : UInt32) (i : Fin 8) : Prop :=
  ∃ k, ∃ l ∈ s.slots k, l.cid = c ∧ l.index = i
  deriving Decidable

/-- What a call of `iav_slice_rpc_held` loads next, or what it returned. -/
inductive Pc
  | used (k : Fin 8)
  | cid (k : Fin 8)
  | window (k : Fin 8)
  | usable (k : Fin 8) (i : Fin 8)
  | done (result : Option (Fin 8))
  deriving DecidableEq

/-- The loop of `find_cid` goes on. -/
def Pc.after (k : Fin 8) : Pc :=
  if h : k.val + 1 < 8 then .used ⟨k.val + 1, h⟩ else .done none

def Pc.load (raw : Raw) (c : UInt32) : Pc → Pc
  | .used k => if (raw k).used then .cid k else .after k
  | .cid k => if (raw k).cid = c then .window k else .after k
  | .window k => .usable k (raw k).window
  | .usable _ i => .done (some i)
  | .done r => .done r

/-- A broker thread in `held(cid)`. -/
structure Reader where
  cid : UInt32
  pc : Pc
  seen : Fin 8 → Bool

namespace Reader

def idle : Reader := ⟨0, .done none, fun _ => false⟩

def Active (r : Reader) : Prop := ∀ o, r.pc ≠ .done o

instance (r : Reader) : Decidable r.Active :=
  match h : r.pc with
  | .used _ | .cid _ | .window _ | .usable .. => .isTrue (by simp [Active, h])
  | .done o => .isFalse fun ha => ha o h

def begin_ (s : Server Text) (c : UInt32) : Reader where
  cid := c
  pc := if c = 0 then .done none else .used 0
  seen i := decide (Leased s c i)

def load (r : Reader) (raw : Raw) : Reader := { r with pc := r.pc.load raw r.cid }

def see (s : Server Text) (r : Reader) : Reader :=
  if r.Active then { r with seen := fun i => r.seen i || decide (Leased s r.cid i) }
  else r

end Reader

-- ==== steps

/-- The hall, the effects its section has still to run, the table in
memory, the write under way, and the broker's threads. -/
structure Torn where
  hall : Hall
  todo : List (Act Text)
  raw : Raw
  writing : Option Write
  readers : Nat → Reader

namespace Torn

def Free (t : Torn) : Prop := t.todo = [] ∧ t.writing = none

/-- A hall with no section and no call under way. -/
def rest (h : Hall) : Torn :=
  ⟨h, [], fun k => encode (h.srv.binds k), none, fun _ => .idle⟩

/-- The hall once the section under way has ended. -/
def settled (t : Torn) : Hall := { t.hall with srv := exec t.todo t.hall.srv }

/-- A section that leads to `h` begins. -/
def enter (t : Torn) (h : Hall) (acts : List (Act Text)) : Torn :=
  { t with hall := { h with srv := t.hall.srv }, todo := acts }

/-- The effect `a`; a write of the bindings begins. -/
def act (t : Torn) (a : Act Text) (acts : List (Act Text)) : Torn where
  hall := { t.hall with srv := a.run t.hall.srv }
  todo := acts
  raw := t.raw
  writing := a.write t.raw
  readers n := (t.readers n).see (a.run t.hall.srv)

def store (t : Torn) (w : Write) : Torn :=
  { t with raw := w.store t.raw, writing := w.next }

def setReader (t : Torn) (n : Nat) (r : Reader) : Torn :=
  { t with readers := update t.readers n r }

/-- Thread `n` calls `held(c)`. -/
def call (t : Torn) (n : Nat) (c : UInt32) : Torn :=
  t.setReader n (.begin_ t.hall.srv c)

def load (t : Torn) (n : Nat) : Torn := t.setReader n ((t.readers n).load t.raw)

end Torn

inductive TornEvent
  | enter (c : Call)
  | arm
  | act
  | store
  | call (n : Nat) (cid : UInt32)
  | load (n : Nat)
  | other (e : HallEvent)

/-- What happens between sections and is none: the clock, the scrubber,
the broker's jobs. -/
def HallEvent.Aside : HallEvent → Prop
  | .tick _ | .other _ => True
  | _ => False

variable (waits : Bool)

inductive TornStep : Torn → TornEvent → Torn → Prop
  | enter {t c x} : t.Free → c.sectionOf waits t.hall = some x →
      TornStep t (.enter c) (t.enter (t.hall.after c x) x.acts)
  | arm {t} : t.Free → t.hall.ready = false → TornStep t .arm (t.enter t.hall.arm
          (loadActs t.hall.srv.store t.hall.srv ++ [.quarantineUnleased]))
  | act {t a acts} : t.writing = none → t.todo = a :: acts → TornStep t .act (t.act a acts)
  | store {t w} : t.writing = some w → TornStep t .store (t.store w)
  | call {t n c} : ¬ (t.readers n).Active → TornStep t (.call n c) (t.call n c)
  | load {t n} : TornStep t (.load n) (t.load n)
  | aside {t e h'} : t.Free → e.Aside → HallStep waits t.hall e h' →
      TornStep t (.other e) { t with hall := h' }
  | crash {t now h'} : t.Free → HallStep waits t.hall (.crash now) h' →
      TornStep t (.other (.crash now)) (.rest h')

def tornSystem : System Torn TornEvent where
  init t := ∃ h, (hallSystem waits).init h ∧ t = .rest h
  step := TornStep waits

variable {waits}

-- ==== the writer

theorem findEntry_encode (b : Binds) (cid : UInt32) :
    findEntry (fun k => encode (b k)) cid = findCid b cid := by
  have hpred : (fun k => (encode (b k)).used && (encode (b k)).cid == cid)
      = fun k => (b k).any (·.1 == cid) := by
    funext k
    cases b k with
    | none => rfl
    | some p => simp [encode]
  rw [findEntry, findCid, hpred]

theorem freeEntry_encode (b : Binds) : (fun k => !(encode (b k)).used) = fun k => (b k).isNone := by
  funext k
  cases b k with
  | none => rfl
  | some p => rfl

/-- An effect on the bindings is a write of one entry, and leaves the
slots. -/
theorem Act.write_cases (a : Act Text) (s : Server Text) :
    (a.write (fun k => encode (s.binds k)) = none ∧ (a.run s).binds = s.binds) ∨
    ∃ k v, a.write (fun k => encode (s.binds k)) = some ⟨k, encode v, .used⟩ ∧
      (a.run s).binds = update s.binds k v ∧ (a.run s).slots = s.slots := by
  cases a with
  | bind cid i =>
    show (bindWrite _ cid i = none ∧ Low.bind s.binds cid i = s.binds) ∨
      ∃ k v, bindWrite _ cid i = some ⟨k, encode v, .used⟩ ∧
        Low.bind s.binds cid i = update s.binds k v ∧ s.slots = s.slots
    unfold bindWrite Low.bind
    rw [findEntry_encode, freeEntry_encode]
    by_cases hc : cid = 0
    · simp [hc]
    rw [if_neg hc, if_neg hc]
    cases (findCid s.binds cid).or (Fin.find? fun k => (s.binds k).isNone) with
    | none => exact .inl ⟨rfl, rfl⟩
    | some k => exact .inr ⟨k, some (cid, i), rfl, rfl, rfl⟩
  | unbind cid =>
    show (unbindWrite _ cid = none ∧ Low.unbind s.binds cid = s.binds) ∨
      ∃ k v, unbindWrite _ cid = some ⟨k, encode v, .used⟩ ∧
        Low.unbind s.binds cid = update s.binds k v ∧ s.slots = s.slots
    unfold unbindWrite Low.unbind
    rw [findEntry_encode]
    cases findCid s.binds cid with
    | none => exact .inl ⟨rfl, rfl⟩
    | some k => exact .inr ⟨k, none, rfl, rfl, rfl⟩
  | save ok => cases ok <;> exact .inl ⟨rfl, rfl⟩
  | _ => exact .inl ⟨rfl, rfl⟩

/-- An entry with a cid is that of a lease. -/
def Known (s : Server Text) (e : Entry) : Prop := e.cid ≠ 0 → Leased s e.cid e.window

/-- How far a write has come. -/
def Write.Ok (s : Server Text) (e : Entry) (w : Write) : Prop :=
  match w.field with
  | .used => Known s e
  | .cid => Known s e ∧ e.used = w.entry.used
  | .window => e.used = w.entry.used ∧ e.cid = w.entry.cid
  | .usable => e.used = w.entry.used ∧ e.cid = w.entry.cid ∧ e.window = w.entry.window

structure RawInv (s : Server Text) (raw : Raw) (writing : Option Write) : Prop where
  whole : ∀ k, (∀ w, writing = some w → w.k ≠ k) → raw k = encode (s.binds k)
  entry : ∀ w, writing = some w → w.entry = encode (s.binds w.k)
  progress : ∀ w, writing = some w → w.Ok s (raw w.k)

section Writer

variable {s : Server Text} {raw : Raw} {writing : Option Write} {w w' : Write}
  {e : Entry} {k : Fin 8}

theorem known_encode (h : Linked s) (k : Fin 8) : Known s (encode (s.binds k)) := by
  intro hc
  cases hb : s.binds k with
  | none =>
    rw [hb] at hc
    exact absurd rfl hc
  | some p =>
    obtain ⟨k', l, hl, hcid, hidx⟩ := h.2 hb
    exact ⟨k', l, hl, hcid, hidx⟩

theorem rawInv_whole (h : ∀ k, raw k = encode (s.binds k)) : RawInv s raw none :=
  ⟨fun k _ => h k, by simp, by simp⟩

theorem RawInv.raw_eq (h : RawInv s raw none) : raw = fun k => encode (s.binds k) :=
  funext fun k => h.whole k (by simp)

theorem RawInv.act (h : RawInv s raw none) (hl : Linked s) (a : Act Text) :
    RawInv (a.run s) raw (a.write raw) := by
  obtain rfl := h.raw_eq
  rcases a.write_cases s with ⟨hw, hb⟩ | ⟨k, v, hw, hb, hs⟩
  · rw [hw]
    refine rawInv_whole fun k => ?_
    rw [hb]
  rw [hw]
  refine ⟨?_, ?_, ?_⟩
  · intro k' hk'
    have hne : k ≠ k' := hk' _ rfl
    rw [hb, update_of_ne hne.symm]
  · intro w heq
    obtain rfl := Option.some.inj heq
    rw [hb, update_self]
  · intro w heq
    obtain rfl := Option.some.inj heq
    have hknown := known_encode hl k
    unfold Known Leased at hknown
    rw [← hs] at hknown
    exact hknown

theorem Write.next_some (h : w.next = some w') :
    w'.k = w.k ∧ w'.entry = w.entry := by
  obtain ⟨f, -, rfl⟩ := Option.map_eq_some_iff.mp h
  exact ⟨rfl, rfl⟩

/-- A store moves the write on by one field. -/
theorem Write.Ok.store (h : w.Ok s e)
    (hnext : w.next = some w') : w'.Ok s (w.field.copy w.entry e) := by
  obtain ⟨k, entry, field⟩ := w
  cases field with
  | used =>
    obtain rfl := Option.some.inj hnext
    exact ⟨h, rfl⟩
  | cid =>
    obtain rfl := Option.some.inj hnext
    exact ⟨h.2, rfl⟩
  | window =>
    obtain rfl := Option.some.inj hnext
    exact ⟨h.1, h.2, rfl⟩
  | usable => cases hnext

theorem Write.Ok.last (h : w.Ok s e) (hnext : w.next = none) :
    w.field.copy w.entry e = w.entry := by
  obtain ⟨k, entry, field⟩ := w
  cases field with
  | used => cases hnext
  | cid => cases hnext
  | window => cases hnext
  | usable =>
    obtain ⟨hused, hcid, hwindow⟩ := h
    show Entry.mk e.used e.cid e.window entry.usable = entry
    rw [hused, hcid, hwindow]

theorem RawInv.store (h : RawInv s raw (some w)) : RawInv s (w.store raw) w.next := by
  have hat : w.store raw w.k = w.field.copy w.entry (raw w.k) := update_self ..
  have hoff : ∀ k, w.k ≠ k → w.store raw k = encode (s.binds k) := by
    intro k hne
    rw [Write.store, update_of_ne hne.symm]
    refine h.whole k fun w' heq => ?_
    obtain rfl := Option.some.inj heq
    exact hne
  have hok := h.progress w rfl
  cases hnext : w.next with
  | none =>
    refine rawInv_whole fun k => ?_
    by_cases hk : w.k = k
    · subst hk
      rw [hat, hok.last hnext]
      exact h.entry w rfl
    · exact hoff k hk
  | some w' =>
    obtain ⟨hk, he⟩ := Write.next_some hnext
    refine ⟨fun k hne => hoff k (hk ▸ hne w' rfl), ?_, ?_⟩
    · intro w₁ heq
      obtain rfl := Option.some.inj heq
      rw [he, hk]
      exact h.entry w rfl
    · intro w₁ heq
      obtain rfl := Option.some.inj heq
      rw [hk, hat]
      exact hok.store hnext

/-- The cid of entry `k` is stored, and its new window is not. -/
def TornAt (raw : Raw) (writing : Option Write) (k : Fin 8) : Prop :=
  ∃ w, writing = some w ∧ w.k = k ∧ w.field = .window ∧ w.entry.window ≠ (raw k).window

/-- Any other entry with a cid is that of a lease. -/
theorem RawInv.known (h : RawInv s raw writing) (hl : Linked s)
    (hk : ¬ TornAt raw writing k) : Known s (raw k) := by
  by_cases hw : ∃ w, writing = some w ∧ w.k = k
  · obtain ⟨w, rfl, rfl⟩ := hw
    have hok := h.progress w rfl
    have hnew := known_encode hl w.k
    rw [← h.entry w rfl] at hnew
    unfold Write.Ok at hok
    cases hf : w.field with
    | used =>
      rw [hf] at hok
      exact hok
    | cid =>
      rw [hf] at hok
      exact hok.1
    | window =>
      rw [hf] at hok
      have hwin : (raw w.k).window = w.entry.window := by
        by_contra hne
        exact hk ⟨w, rfl, rfl, hf, fun heq => hne heq.symm⟩
      unfold Known
      rw [hok.2, hwin]
      exact hnew
    | usable =>
      rw [hf] at hok
      unfold Known
      rw [hok.2.1, hok.2.2]
      exact hnew
  · rw [h.whole k fun w heq hk' => hw ⟨w, heq, hk'⟩]
    exact known_encode hl k

theorem window_store (hk : ¬ TornAt raw (some w) k) :
    (w.store raw k).window = (raw k).window := by
  by_cases hne : w.k = k
  · subst hne
    rw [Write.store, update_self]
    cases hf : w.field with
    | used => rfl
    | cid => rfl
    | usable => rfl
    | window =>
      by_contra hwin
      exact hk ⟨w, rfl, rfl, hf, hwin⟩
  · rw [Write.store, update_of_ne (Ne.symm hne)]

end Writer

-- ==== the readers

/-- What a reader has matched, or is about to report, it has seen. -/
def Reader.Ok (raw : Raw) (r : Reader) : Prop :=
  match r.pc with
  | .used _ | .cid _ => r.cid ≠ 0
  | .window k => r.seen (raw k).window = true
  | .usable _ i => r.seen i = true
  | .done o => ∀ i, o = some i → r.seen i = true

namespace Reader

variable {raw : Raw} {r : Reader} {s : Server Text}

theorem ok_after (k : Fin 8) (hc : r.cid ≠ 0) : Ok raw { r with pc := .after k } := by
  unfold Pc.after
  split
  · exact hc
  · intro i h
    cases h

theorem Ok.load (h : r.Ok raw) (hmatch : ∀ k, r.pc = .cid k → (raw k).cid = r.cid →
      r.seen (raw k).window = true) : (r.load raw).Ok raw := by
  obtain ⟨c, pc, seen⟩ := r
  unfold Reader.load
  cases pc with
  | used k =>
    by_cases hu : (raw k).used = true
    · simp only [Pc.load, hu, if_true]
      exact h
    · simp only [Pc.load, hu]
      exact ok_after k h
  | cid k =>
    by_cases hc : (raw k).cid = c
    · simp only [Pc.load, hc, if_true]
      exact hmatch k rfl hc
    · simp only [Pc.load, hc, if_false]
      exact ok_after k h
  | window k => exact h
  | usable k i =>
    intro j hj
    obtain rfl := Option.some.inj hj
    exact h
  | done o => exact h

theorem see_cid (s : Server Text) (r : Reader) : (r.see s).cid = r.cid := by
  unfold see
  split <;> rfl

theorem see_pc (s : Server Text) (r : Reader) : (r.see s).pc = r.pc := by
  unfold see
  split <;> rfl

theorem see_seen {i : Fin 8} (h : r.seen i = true) : (r.see s).seen i = true := by
  unfold see
  split
  · simp [h]
  · exact h

theorem Ok.see (h : r.Ok raw) : (r.see s).Ok raw := by
  unfold Ok at h ⊢
  rw [see_pc, see_cid]
  split at h
  · exact h
  · exact h
  · exact see_seen h
  · exact see_seen h
  · exact fun i hi => see_seen (h i hi)

/-- The reader knows the leases of its cid. -/
def Fresh (s : Server Text) (r : Reader) : Prop :=
  r.Active → ∀ i, Leased s r.cid i → r.seen i = true

theorem fresh_see : (r.see s).Fresh s := by
  intro ha i hi
  have ha : r.Active := fun o => see_pc s r ▸ ha o
  rw [see_cid] at hi
  simp [see, ha, hi]

theorem fresh_begin (c : UInt32) : (begin_ s c).Fresh s := by
  intro _ i hi
  exact decide_eq_true hi

theorem ok_begin (c : UInt32) : (begin_ s c).Ok raw := by
  unfold begin_
  by_cases hc : c = 0
  · simp [Ok, hc]
  · simp [Ok, hc]

theorem Fresh.load (h : r.Fresh s) : (r.load raw).Fresh s := by
  intro ha
  refine h fun o ho => ha o ?_
  show r.pc.load raw r.cid = .done o
  rw [ho]
  rfl

theorem Fresh.congr {s' : Server Text} (h : r.Fresh s) (hs : s'.slots = s.slots) : r.Fresh s' := by
  intro ha i hi
  unfold Leased at hi
  rw [hs] at hi
  exact h ha i hi

end Reader

/-- Thread `n` is not caught by a torn entry: it does not match the cid of
an entry whose new window is not stored yet, and the window of an entry it
has matched is not changed before it is loaded. -/
def Undisturbed (n : Nat) (t : Torn) : TornEvent → Prop
  | .load m => m = n → ∀ k, (t.readers n).pc = .cid k →
      (t.raw k).cid = (t.readers n).cid → ¬ TornAt t.raw t.writing k
  | .store => ∀ k, TornAt t.raw t.writing k → (t.readers n).pc ≠ .window k
  | _ => True

structure TornInv (waits : Bool) (n : Nat) (t : Torn) : Prop where
  settled : (hallSystem waits).Reachable t.settled
  linked : Linked t.hall.srv
  safe : SafeFrom t.hall.srv t.todo
  raw : RawInv t.hall.srv t.raw t.writing
  fresh : ∀ m, (t.readers m).Fresh t.hall.srv
  reader : (t.readers n).Ok t.raw

namespace TornInv

variable {t : Torn} {n : Nat}

theorem hall (h : TornInv waits n t) (hf : t.Free) : (hallSystem waits).Reachable t.hall := by
  have hs := h.settled
  unfold Torn.settled at hs
  rw [hf.1] at hs
  exact hs

theorem rest {h : Hall} (hr : (hallSystem waits).Reachable h) : TornInv waits n (.rest h) where
  settled := hr
  linked := (hallInv_reachable hr).rest.linked
  safe := trivial
  raw := rawInv_whole fun _ => rfl
  fresh := fun _ ha => absurd rfl (ha none)
  reader := fun i hi => by cases hi

variable (h : TornInv waits n t) {acts : List (Act Text)} {e : TornEvent}

include h

theorem enter {g : Hall}
    (hg : (hallSystem waits).Reachable { g with srv := exec acts t.hall.srv })
    (hsafe : SafeFrom t.hall.srv acts) : TornInv waits n (t.enter g acts) :=
  ⟨hg, h.linked, hsafe, h.raw, h.fresh, h.reader⟩

theorem act {a : Act Text}
    (hw : t.writing = none) (htodo : t.todo = a :: acts) :
    TornInv waits n (t.act a acts) := by
  have hsettled := h.settled
  have hsafe := h.safe
  have hraw := h.raw
  unfold Torn.settled at hsettled
  rw [htodo] at hsettled hsafe
  rw [hw] at hraw
  exact ⟨hsettled, h.linked.run hsafe.1, hsafe.2, hraw.act h.linked a,
    fun _ => Reader.fresh_see, h.reader.see⟩

theorem store (hw : t.writing = some w)
    (hC : Undisturbed n t .store) : TornInv waits n (t.store w) := by
  have hraw := h.raw
  rw [hw] at hraw
  refine ⟨h.settled, h.linked, h.safe, hraw.store, h.fresh, ?_⟩
  have hok := h.reader
  show (t.readers n).Ok (w.store t.raw)
  unfold Reader.Ok at hok ⊢
  -- only a reader that has matched an entry looks at the table
  cases hpc : (t.readers n).pc with
  | window k =>
    rw [hpc] at hok
    have hk : ¬ TornAt t.raw (some w) k := fun ht => hC k (hw ▸ ht) hpc
    simp only [window_store hk]
    exact hok
  | _ =>
    rw [hpc] at hok
    exact hok

theorem setReader (m : Nat) {r : Reader} (hfresh : r.Fresh t.hall.srv) (hok : m = n → r.Ok t.raw) :
    TornInv waits n (t.setReader m r) := by
  refine ⟨h.settled, h.linked, h.safe, h.raw, ?_, ?_⟩
  · intro m'
    show (update t.readers m r m').Fresh t.hall.srv
    rw [update_apply]
    split
    · exact hfresh
    · exact h.fresh m'
  · show (update t.readers m r n).Ok t.raw
    rw [update_apply]
    split
    · rename_i heq
      exact hok heq.symm
    · exact h.reader

theorem load (m : Nat) (hC : Undisturbed n t (.load m)) :
    TornInv waits n (t.load m) := by
  refine h.setReader m (h.fresh m).load ?_
  intro hm
  subst hm
  refine h.reader.load ?_
  intro k hpc hcid
  have hc : (t.readers m).cid ≠ 0 := by
    have hok := h.reader
    unfold Reader.Ok at hok
    rw [hpc] at hok
    exact hok
  have hleased := h.raw.known h.linked (hC rfl k hpc hcid) (hcid ▸ hc)
  rw [hcid] at hleased
  refine h.fresh m ?_ _ hleased
  intro o ho
  rw [hpc] at ho
  cases ho

theorem aside {e : HallEvent} {h' : Hall} (hf : t.Free)
    (he : e.Aside) (hs : HallStep waits t.hall e h') :
    TornInv waits n { t with hall := h' } := by
  have hr : (hallSystem waits).Reachable h' := (h.hall hf).step hs
  have hkept : h'.srv.slots = t.hall.srv.slots ∧ h'.srv.binds = t.hall.srv.binds := by
    cases hs with
    | call => exact he.elim
    | arm => exact he.elim
    | crash => exact he.elim
    | tick => exact ⟨rfl, rfl⟩
    | scrub hs => exact hs.kept
    | job hs => exact hs.kept
  have hraw := h.raw
  rw [hf.2] at hraw
  refine ⟨?_, (hallInv_reachable hr).rest.linked, ?_, ?_, ?_, h.reader⟩
  · rw [hf.1]
    exact hr
  · rw [hf.1]
    trivial
  · rw [hf.2]
    refine rawInv_whole fun k => ?_
    rw [hkept.2]
    exact hraw.whole k (by simp)
  · exact fun m => (h.fresh m).congr hkept.1

theorem step {t' : Torn}
    (hC : Undisturbed n t e) (hs : TornStep waits t e t') : TornInv waits n t' := by
  cases hs with
  | enter hf hx =>
    have hr := h.hall hf
    exact h.enter (hr.step (.call hx)) ((hallInv_reachable hr).kept hx).safe
  | arm hf hready =>
    refine h.enter ((h.hall hf).step (.arm hready)) ?_
    exact safeFrom_append.mpr ⟨loadActs_safe _ _, trivial, trivial⟩
  | act hw htodo => exact h.act hw htodo
  | store hw => exact h.store hw hC
  | call _ => exact h.setReader _ (Reader.fresh_begin _) fun _ => Reader.ok_begin _
  | load => exact h.load _ hC
  | aside hf he hs => exact h.aside hf he hs
  | crash hf hs => exact .rest ((h.hall hf).step hs)

end TornInv

-- ==== calls in the hall

theorem reachable_torn {t t' : Torn} {n : Nat}
    (hr : ((tornSystem waits).restrict (Undisturbed n)).Reachable t)
    (hs : TornStep waits t e t') (hC : Undisturbed n t e) :
    ((tornSystem waits).restrict (Undisturbed n)).Reachable t' :=
  hr.step (e := e) ⟨hC, hs⟩

/-- A section nobody looks at runs to its end. -/
theorem reachable_acts {n : Nat} (acts : List (Act Text)) (g : Hall)
    (h : ((tornSystem waits).restrict (Undisturbed n)).Reachable
      ⟨g, acts, fun k => encode (g.srv.binds k), none, fun _ => .idle⟩) :
    ((tornSystem waits).restrict (Undisturbed n)).Reachable
      (.rest { g with srv := exec acts g.srv }) := by
  induction acts generalizing g with
  | nil => exact h
  | cons a acts ih =>
    have hidle : (fun _ : Nat => Reader.idle.see (a.run g.srv)) = fun _ => .idle := by
      funext _
      have ha : ¬ Reader.idle.Active := fun ha => ha none rfl
      simp [Reader.see, ha]
    have h₁ := reachable_torn h (.act rfl rfl) trivial
    simp only [Torn.act, hidle] at h₁
    refine ih { g with srv := a.run g.srv } ?_
    rcases a.write_cases g.srv with ⟨hw, hb⟩ | ⟨k, v, hw, hb, -⟩
    · simp only [hw] at h₁
      simp only [hb]
      exact h₁
    simp only [hw] at h₁
    have hquiet {t : Torn} (ht : t.readers = fun _ => .idle) : Undisturbed n t .store := by
      intro _ _ hpc
      rw [ht] at hpc
      cases hpc
    have h₂ := reachable_torn h₁ (.store rfl) (hquiet rfl)
    have h₃ := reachable_torn h₂ (.store rfl) (hquiet rfl)
    have h₄ := reachable_torn h₃ (.store rfl) (hquiet rfl)
    have h₅ := reachable_torn h₄ (.store rfl) (hquiet rfl)
    have hraw : (fun k' => encode ((a.run g.srv).binds k'))
        = update (fun k => encode (g.srv.binds k)) k (encode v) := by
      funext k'
      rw [hb, update_apply, update_apply]
      split <;> rfl
    simp only [hraw]
    simpa [Torn.store, Write.store, Write.next, Field.next, Field.copy] using h₅

theorem reachable_rest {h : Hall} (n : Nat) (hr : (hallSystem waits).Reachable h) :
    ((tornSystem waits).restrict (Undisturbed n)).Reachable (.rest h) := by
  refine System.Reachable.induct
    (I := fun h => ((tornSystem waits).restrict (Undisturbed n)).Reachable (.rest h))
    ?_ ?_ hr
  · intro h h₀
    exact .init ⟨h, h₀, rfl⟩
  intro h e h' _ ih hs
  cases hs with
  | call hx =>
    exact reachable_acts _ _ (reachable_torn ih (.enter ⟨rfl, rfl⟩ hx) trivial)
  | arm hready =>
    exact reachable_acts _ _ (reachable_torn ih (.arm ⟨rfl, rfl⟩ hready) trivial)
  | crash => exact reachable_torn ih (.crash ⟨rfl, rfl⟩ .crash) trivial
  | @tick ms =>
    exact reachable_torn ih (.aside (e := .tick ms) ⟨rfl, rfl⟩ trivial .tick) trivial
  | @scrub e _ hs =>
    have h₁ := reachable_torn ih (.aside (e := .other e) ⟨rfl, rfl⟩ trivial (.scrub hs)) trivial
    simp only [Torn.rest, hs.kept.2] at h₁ ⊢
    exact h₁
  | @job e _ hs =>
    have h₁ := reachable_torn ih (.aside (e := .other e) ⟨rfl, rfl⟩ trivial (.job hs)) trivial
    simp only [Torn.rest, hs.kept.2] at h₁ ⊢
    exact h₁

-- ==== soundness

/-- What `iav_slice_rpc_held` reports to a thread was leased with its cid
at some moment of the call, if the thread met no torn entry. -/
theorem held_sound (waits : Bool) (n : Nat) (t : Torn)
    (hr : ((tornSystem waits).restrict (Undisturbed n)).Reachable t)
    (i : Fin 8) (hdone : (t.readers n).pc = .done (some i)) :
    (t.readers n).seen i = true := by
  have hinv : TornInv waits n t := by
    refine hr.induct ?_ ?_
    · intro t h₀
      obtain ⟨h, hinit, rfl⟩ := h₀
      exact .rest (.init hinit)
    · intro t e t' _ ih hs
      exact ih.step hs.1 hs.2
  have hok := hinv.reader
  unfold Reader.Ok at hok
  rw [hdone] at hok
  exact hok i rfl

/-- Thread 0 asks for cid 5, which has slice 0, and nobody is writing. -/
def sampleRead : Torn :=
  (((((Torn.rest sampleOne).call 0 5).load 0).load 0).load 0).load 0

theorem reachable_sampleRead :
    ((tornSystem true).restrict (Undisturbed 0)).Reachable sampleRead := by
  have hload {t : Torn} (ht : ((tornSystem true).restrict (Undisturbed 0)).Reachable t)
      (hw : t.writing = none) :
      ((tornSystem true).restrict (Undisturbed 0)).Reachable (t.load 0) := by
    refine reachable_torn ht .load ?_
    intro _ k _ _ htorn
    obtain ⟨w, hw', -⟩ := htorn
    rw [hw] at hw'
    cases hw'
  have h₁ := reachable_torn (reachable_rest 0 reachable_sampleOne)
    (.call (n := 0) (c := 5) fun ha => ha none rfl) trivial
  exact hload (hload (hload (hload h₁ rfl) rfl) rfl) rfl

theorem held_sound_sample :
    (sampleRead.readers 0).pc = .done (some 0) ∧ (sampleRead.readers 0).seen 0 = true := by
  have hdone : (sampleRead.readers 0).pc = .done (some 0) := by decide
  exact ⟨hdone, held_sound true 0 _ reachable_sampleRead 0 hdone⟩

-- ---- a torn entry

namespace Torn

def advance (t : Torn) : Torn :=
  match t.writing, t.todo with
  | some w, _ => t.store w
  | none, a :: acts => t.act a acts
  | none, [] => t

def take (t : Torn) (c : Call) : Torn :=
  (c.sectionOf true t.hall).elim t fun x => t.enter (t.hall.after c x) x.acts

end Torn

theorem reachable_advance {t : Torn} (ht : (tornSystem true).Reachable t) :
    (tornSystem true).Reachable t.advance := by
  unfold Torn.advance
  split
  · rename_i w _ hw
    exact ht.step (e := .store) (.store hw)
  · rename_i a acts hw htodo
    exact ht.step (e := .act) (.act hw htodo)
  · exact ht

/-- Slice 1 is being granted to cid 7: the lease is saved, and `used` and
`cid` of its entry are stored. -/
def sampleBinding : Torn :=
  ((Torn.rest sampleOne).take
    (.command (reserveText "2b" "7") true true)).advance.advance.advance.advance.advance.advance

theorem reachable_sampleBinding : (tornSystem true).Reachable sampleBinding := by
  have h₀ := (reachable_rest 0 reachable_sampleOne).of_restrict
  have h₁ : (tornSystem true).Reachable ((Torn.rest sampleOne).take
      (.command (reserveText "2b" "7") true true)) := by
    unfold Torn.take
    cases hx : (Call.command (reserveText "2b" "7") true true).sectionOf true
        (Torn.rest sampleOne).hall with
    | none => exact h₀
    | some x => exact h₀.step (e := .enter _) (.enter ⟨rfl, rfl⟩ hx)
  iterate 6 refine reachable_advance ?_
  exact h₁

/-- Thread 0 asks for cid 7 meanwhile: an entry of cid 5, then the new
one. -/
def sampleTorn : Torn :=
  ((((((sampleBinding.call 0 7).load 0).load 0).load 0).load 0).load 0).load 0

/-- It is told slice 0, which is leased with cid 5; cid 7 never had it. -/
theorem torn_held : (tornSystem true).Reachable sampleTorn ∧ (sampleTorn.readers 0).cid = 7 ∧
      (sampleTorn.readers 0).pc = .done (some 0) ∧
      (sampleTorn.readers 0).seen 0 = false ∧
      Leased sampleTorn.hall.srv 5 0 ∧ Leased sampleTorn.hall.srv 7 1 := by
  have h₁ : (tornSystem true).Reachable (sampleBinding.call 0 7) :=
    reachable_sampleBinding.step (e := .call 0 7) (.call (by decide))
  have hload {t : Torn} (ht : (tornSystem true).Reachable t) :
      (tornSystem true).Reachable (t.load 0) := ht.step (e := .load 0) .load
  refine ⟨hload (hload (hload (hload (hload (hload h₁))))), ?_⟩
  decide

end AmbaVirt.Low
