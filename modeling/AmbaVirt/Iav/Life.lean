/-
The life of a session: who holds it, where its descriptor is, and when it
is freed.

`Life` ties each session to the operations on it. An OPEN that has not
published its descriptor is the only holder of its slot (`SlotOk.lone`);
that is what makes its final store `refs = 0` a decrement. Every
descriptor is in exactly one place: with an operation, in a session, or
closed (`Life.ledger`). Sessions of one slot are told apart by how often
the slot had been freed (`Life.current`, `Life.past`).

The slot of an OPEN is in use, with a known generation, before `ops.open`
returns, so a request that guesses the handle can acquire it. The store
`refs = 0` then forgets that request (`acquired_while_opening`).
`Published` says of a step that it is not such an acquire, and
`sessions_accounted` is what holds of every run without one.
-/
import AmbaVirt.Iav.Serve

namespace AmbaVirt.Iav

open Lib Function

-- ==== the invariant

/-- What the operations on a slot say about its session. -/
structure SlotOk (x : Session) (openers users : Nat) : Prop where
  refs : x.refs = openers + users
  lone : 0 < openers → openers = 1 ∧ users = 0
  unused : x.inUse = false → openers = 0 ∧ users = 0 ∧ x.fd = none
  closing : x.closing = true → x.inUse = true ∧ 0 < openers + users
  fd : x.inUse = true → (x.fd = none ↔ 0 < openers)

namespace State

/-- How many sessions have descriptor `fd`. -/
def stored (s : State) (fd : Fd) : Nat :=
  ∑ i, if (s.sess i).fd = some fd then 1 else 0

/-- How often `fd` was closed. -/
def closes (s : State) (fd : Fd) : Nat := s.closed.countP (·.fd = fd)

end State

structure Life (s : State) : Prop where
  slot : ∀ i, SlotOk (s.sess i) (s.tally Pc.opener i) (s.tally Pc.user i)
  ledger : ∀ fd, s.closes fd + s.tally Pc.carried fd + s.stored fd = if fd < s.opened then 1 else 0
  current : ∀ ⦃op⦄, op ∈ s.ops → ∀ ⦃i n c⦄, op.pc = .held i n c → n = (s.sess i).frees
  past : ∀ ⦃c⦄, (c ∈ s.closed ∨ ∃ op ∈ s.ops, ∃ k, op.pc = .closing c k) →
    c.frees < (s.sess c.slot).frees

-- ==== tallies

namespace Pc

variable {pc : Pc} {i : Fin 64}

theorem holds_of_opener (h : pc.opener = some i) : pc.holds = some i := by
  cases pc <;> first | exact h | cases h

theorem holds_of_user (h : pc.user = some i) : pc.holds = some i := by
  cases pc <;> first | exact h | cases h

theorem not_holding (h : pc.holds = none) : pc.opener = none ∧ pc.user = none := by
  cases pc <;> first | exact ⟨rfl, rfl⟩ | cases h

/-- A holder is an OPEN or has acquired the slot, and not both. -/
theorem holds_split (pc : Pc) (i : Fin 64) : (if pc.holds = some i then 1 else 0)
      = (if pc.opener = some i then 1 else 0) + (if pc.user = some i then 1 else 0) := by
  cases pc <;> simp [holds, opener, user]

end Pc

namespace State

variable {s : State} {op : Op}

theorem holders_eq (s : State) (i : Fin 64) :
    s.holders i = s.tally Pc.opener i + s.tally Pc.user i := by
  unfold holders tally
  induction s.ops with
  | nil => rfl
  | cons op ops ih =>
    have hsplit := op.pc.holds_split i
    rw [List.countP_cons, List.countP_cons, List.countP_cons, ih]
    simp only [decide_eq_true_eq]
    omega

variable {α : Type} {f : Pc → Option α} {v : α}

theorem tally_act [DecidableEq α] (s : State) (b : Broker) (pc : Pc)
    (hop : op ∈ s.ops) (f : Pc → Option α) (v : α) :
    (s.act op b pc).tally f v + (if f op.pc = some v then 1 else 0)
      = s.tally f v + (if f pc = some v then 1 else 0) := by
  have h := countP_move (b := { op with pc := pc }) hop fun o => decide (f o.pc = some v)
  simp only [decide_eq_true_eq] at h
  exact h

theorem tally_eq_zero [DecidableEq α]
    (h : s.tally f v = 0) (hop : op ∈ s.ops) : f op.pc ≠ some v := by
  intro he
  rw [tally, List.countP_eq_zero] at h
  exact h op hop (decide_eq_true he)

theorem tally_pos [DecidableEq α] (hop : op ∈ s.ops)
    (h : f op.pc = some v) : 0 < s.tally f v := by
  rw [Nat.pos_iff_ne_zero]
  exact fun hz => tally_eq_zero hz hop h

end State

-- ==== one session, one section

namespace SlotOk

variable {x : Session} {o u : Nat} {last : Prop}

theorem reserve (h : SlotOk x o u) (hfree : x.inUse = false) (cid : UInt32) :
    SlotOk (x.reserve cid) (o + 1) u := by
  obtain ⟨rfl, rfl, -⟩ := h.unused hfree
  refine ⟨rfl, fun _ => ⟨rfl, rfl⟩, ?_, ?_, ?_⟩
  · intro hin
    cases hin
  · intro hcl
    cases hcl
  · intro _
    exact iff_of_true rfl (Nat.one_pos)

theorem vacant (hrefs : x.refs = 0) (hin : x.inUse = false) (hcl : x.closing = false)
    (hfd : x.fd = none) : SlotOk x 0 0 := by
  refine ⟨hrefs, fun hpos => absurd hpos (Nat.lt_irrefl 0), fun _ => ⟨rfl, rfl, hfd⟩, ?_, ?_⟩
  · simp [hcl]
  · simp [hin]

/-- A session nobody is left on may be freed. -/
theorem settle [Decidable last] (hlast : last → x.refs = 0 ∧ o = 0 ∧ u = 0)
    (hstay : ¬ last → SlotOk x o u) :
    SlotOk (if last then x.free else x) o u := by
  split
  · rename_i hl
    obtain ⟨hrefs, rfl, rfl⟩ := hlast hl
    exact vacant hrefs rfl rfl rfl
  · rename_i hl
    exact hstay hl

theorem used (h : SlotOk x o (u + 1)) : o = 0 ∧ x.inUse = true ∧ x.fd ≠ none := by
  have ho : o = 0 := by
    rcases Nat.eq_zero_or_pos o with ho | ho
    · exact ho
    · exact absurd (h.lone ho).2 (Nat.succ_ne_zero u)
  subst ho
  have hin : x.inUse = true := by
    cases hx : x.inUse with
    | true => rfl
    | false => exact absurd (h.unused hx).2.1 (Nat.succ_ne_zero u)
  exact ⟨rfl, hin, fun hfd => absurd ((h.fd hin).mp hfd) (Nat.lt_irrefl 0)⟩

/-- The OPEN of a slot is alone on it, and leaves it with no descriptor
lost. -/
theorem opener (h : SlotOk x (o + 1) u) : o = 0 ∧ u = 0 ∧ x.inUse = true ∧ x.fd = none := by
  obtain ⟨ho, rfl⟩ := h.lone (Nat.succ_pos o)
  have hin : x.inUse = true := by
    cases hx : x.inUse with
    | true => rfl
    | false => exact absurd (h.unused hx).1 (Nat.succ_ne_zero o)
  exact ⟨Nat.succ.inj ho, rfl, hin, (h.fd hin).mpr (Nat.succ_pos o)⟩

theorem of_used (hrefs : x.refs = u) (hin : x.inUse = true)
    (hfd : x.fd ≠ none) (hcl : x.closing = true → 0 < u) : SlotOk x 0 u := by
  refine ⟨by rw [hrefs]; omega, fun hpos => absurd hpos (Nat.lt_irrefl 0), ?_, ?_, ?_⟩
  · simp [hin]
  · intro h
    exact ⟨hin, by simpa using hcl h⟩
  · simp [hfd]

theorem acquire (h : SlotOk x 0 u) (hin : x.inUse = true) (now : UInt64) :
    SlotOk { x with refs := x.refs + 1, lastUsedMs := now } 0 (u + 1) := by
  refine of_used ?_ hin (fun hfd => absurd ((h.fd hin).mp hfd) (Nat.lt_irrefl 0))
    fun _ => Nat.succ_pos u
  have hrefs := h.refs
  dsimp only
  omega

variable {y : Session} {fd : Fd}

/-- A user leaves; `y` is freed if it was closing and `u` is 0. -/
theorem left (h : SlotOk x o (u + 1)) [Decidable last]
    (hrefs : y.refs = x.refs - 1) (hin : y.inUse = x.inUse) (hfd : y.fd = x.fd)
    (hlast : last ↔ y.closing = true ∧ y.refs = 0) :
    SlotOk (if last then y.free else y) o u := by
  obtain ⟨rfl, hused, hopen⟩ := h.used
  have hleft : y.refs = u := by
    have := h.refs
    omega
  refine settle (fun hl => ⟨(hlast.mp hl).2, rfl, ?_⟩) fun hl => ?_
  · have := (hlast.mp hl).2
    omega
  · refine of_used hleft (hin.trans hused) (by rwa [hfd]) fun hcl => ?_
    have hne : y.refs ≠ 0 := fun hz => hl (hlast.mpr ⟨hcl, hz⟩)
    omega

/-- Marking a session closing: it goes if nobody holds it. -/
theorem marked (h : SlotOk x o u) (hin : x.inUse = true) (hy : y = { x with closing := true }) :
    SlotOk (if x.refs = 0 then y.free else y) o u := by
  have hrefs := h.refs
  subst hy
  refine settle (fun hl => ⟨hl, by omega, by omega⟩) fun hl => ?_
  exact ⟨hrefs, h.lone, h.unused, fun _ => ⟨hin, by omega⟩, h.fd⟩

theorem abandoned (h : SlotOk x (o + 1) u) : SlotOk ({ x with refs := 0 } : Session).free o u := by
  obtain ⟨rfl, rfl, -, -⟩ := h.opener
  exact vacant rfl rfl rfl rfl

theorem published (h : SlotOk x (o + 1) u) {now : UInt64}
    (hy : y = { x with fd := some fd, lastUsedMs := now, refs := 0 }) :
    SlotOk (if y.closing = true then y.free else y) o u := by
  obtain ⟨rfl, rfl, hin, -⟩ := h.opener
  subst hy
  refine settle (fun _ => ⟨rfl, rfl, rfl⟩) fun hcl => ?_
  exact of_used rfl hin (Option.some_ne_none fd) fun hc => absurd hc hcl

end SlotOk

-- ==== one operation

namespace Life

variable {s s' : State} {op : Op} {i : Fin 64} {x : Session} {pc : Pc} {α : Type}

/-- An operation goes from `op.pc` to `pc` and writes `x` into slot `i`,
the one slot either of them is about. -/
structure Moves (s : State) (op : Op) (i : Fin 64) (x : Session) (pc : Pc)
    (s' : State) : Prop where
  mem : op ∈ s.ops
  ops : s'.ops = move s.ops op { op with pc := pc }
  sess : s'.sess = update s.sess i x
  before : ∀ ⦃j⦄, op.pc.holds = some j → j = i
  after : ∀ ⦃j⦄, pc.holds = some j → j = i

theorem Moves.tally [DecidableEq α] (m : Moves s op i x pc s')
    (f : Pc → Option α) (v : α) :
    s'.tally f v + (if f op.pc = some v then 1 else 0)
      = s.tally f v + (if f pc = some v then 1 else 0) := by
  have h := s.tally_act s.toBroker pc m.mem f v
  rw [State.tally, m.ops]
  exact h

theorem Moves.tally_ne (m : Moves s op i x pc s') {f : Pc → Option (Fin 64)}
    (hf : ∀ {pc j}, f pc = some j → pc.holds = some j) {j : Fin 64}
    (hj : j ≠ i) : s'.tally f j = s.tally f j := by
  have h := m.tally f j
  rw [if_neg fun he => hj (m.before (hf he)), if_neg fun he => hj (m.after (hf he))] at h
  exact h

/-- A count without `op`, before and after. -/
theorem Moves.split [DecidableEq α] (m : Moves s op i x pc s')
    (f : Pc → Option α) (v : α) :
    ∃ n, s.tally f v = n + (if f op.pc = some v then 1 else 0) ∧
      s'.tally f v = n + (if f pc = some v then 1 else 0) := by
  have h := m.tally f v
  by_cases hv : f op.pc = some v
  · have hpos := State.tally_pos m.mem hv
    exact ⟨s.tally f v - 1, by rw [if_pos hv]; omega, by rw [if_pos hv] at h; omega⟩
  · rw [if_neg hv] at h ⊢
    exact ⟨s.tally f v, rfl, h⟩

theorem Moves.stored (m : Moves s op i x pc s') (fd : Fd) :
    s'.stored fd + (if (s.sess i).fd = some fd then 1 else 0)
      = s.stored fd + (if x.fd = some fd then 1 else 0) := by
  rw [State.stored, State.stored, m.sess]
  exact sum_update (fun y : Session => if y.fd = some fd then 1 else 0) s.sess i x

/-- A step of one operation keeps the invariant if slot `i` and the
descriptors balance, and a slot that is freed has no users left. -/
theorem of_moves (h : Life s) (m : Moves s op i x pc s')
    (hslot : ∀ o u, s.tally Pc.opener i = o + (if op.pc.opener = some i then 1 else 0) →
      SlotOk (s.sess i) (o + if op.pc.opener = some i then 1 else 0)
        (u + if op.pc.user = some i then 1 else 0) →
      SlotOk x (o + if pc.opener = some i then 1 else 0) (u + if pc.user = some i then 1 else 0))
    (hledger : ∀ fd, s'.closes fd + (if pc.carried = some fd then 1 else 0)
        + (if x.fd = some fd then 1 else 0) + (if fd < s.opened then 1 else 0)
      = s.closes fd + (if op.pc.carried = some fd then 1 else 0)
        + (if (s.sess i).fd = some fd then 1 else 0)
        + (if fd < s'.opened then 1 else 0))
    (hfrees : x.frees = (s.sess i).frees ∨ x.frees = (s.sess i).frees + 1 ∧ x.inUse = false)
    (hheld : ∀ ⦃j n c⦄, pc = .held j n c → n = x.frees)
    (hpast : ∀ ⦃c⦄, (c ∈ s'.closed ∨ ∃ k, pc = .closing c k) →
      c ∈ s.closed ∨ (∃ k, op.pc = .closing c k) ∨ c.slot = i ∧ c.frees < x.frees) : Life s' := by
  have hi : s'.sess i = x := by rw [m.sess, update_self]
  have hne : ∀ {j}, j ≠ i → s'.sess j = s.sess j := fun hj => by
    rw [m.sess, update_of_ne hj]
  have hslot' : SlotOk x (s'.tally Pc.opener i) (s'.tally Pc.user i) := by
    obtain ⟨o, ho, ho'⟩ := m.split Pc.opener i
    obtain ⟨u, hu, hu'⟩ := m.split Pc.user i
    rw [ho', hu']
    exact hslot o u ho (ho ▸ hu ▸ h.slot i)
  have hmono : ∀ j, (s.sess j).frees ≤ (s'.sess j).frees := by
    intro j
    by_cases hj : j = i
    · subst hj
      rw [hi]
      omega
    · rw [hne hj]
  refine ⟨fun j => ?_, fun fd => ?_, ?_, ?_⟩
  · by_cases hj : j = i
    · subst hj
      rw [hi]
      exact hslot'
    · rw [hne hj, m.tally_ne Pc.holds_of_opener hj, m.tally_ne Pc.holds_of_user hj]
      exact h.slot j
  · have hl := h.ledger fd
    have hc := m.tally Pc.carried fd
    have hs := m.stored fd
    have hb := hledger fd
    omega
  · intro o ho j n c hpc
    have hmem := ho
    rw [m.ops] at ho
    rcases mem_move ho with rfl | hold
    · obtain rfl := m.after (j := j) (by rw [show pc = _ from hpc]; rfl)
      rw [hi]
      exact hheld hpc
    rw [h.current hold hpc]
    by_cases hj : j = i
    · subst hj
      rw [hi]
      rcases hfrees with hf | ⟨-, hun⟩
      · exact hf.symm
      -- a freed slot has no users, so `o` cannot have acquired it
      · have hz := (hslot'.unused hun).2.1
        exact absurd (by rw [hpc]; rfl) (State.tally_eq_zero hz hmem)
    · rw [hne hj]
  · intro c hc
    have hold : (c ∈ s'.closed ∨ ∃ k, pc = .closing c k) ∨
        ∃ o ∈ s.ops, ∃ k, o.pc = .closing c k := by
      rcases hc with hc | ⟨o, ho, k, hk⟩
      · exact .inl (.inl hc)
      rw [m.ops] at ho
      rcases mem_move ho with rfl | ho
      · exact .inl (.inr ⟨k, hk⟩)
      · exact .inr ⟨o, ho, k, hk⟩
    rcases hold with hc | hc
    · rcases hpast hc with hc | ⟨k, hk⟩ | ⟨rfl, hlt⟩
      · exact (h.past (.inl hc)).trans_le (hmono _)
      · exact (h.past (.inr ⟨op, m.mem, k, hk⟩)).trans_le (hmono _)
      · rw [hi]
        exact hlt
    · exact (h.past (.inr hc)).trans_le (hmono _)

variable {b : Broker}

theorem Moves.of_act (pc : Pc) (hop : op ∈ s.ops) (hw : s.Writes i x b)
    (hbefore : ∀ ⦃j⦄, op.pc.holds = some j → j = i)
    (hafter : ∀ ⦃j⦄, pc.holds = some j → j = i) :
    Moves s op i x pc (s.act op b pc) :=
  ⟨hop, rfl, hw.sess, hbefore, hafter⟩

/-- The same for an operation that opens and closes no descriptor. -/
theorem of_act (h : Life s) (m : Moves s op i x pc (s.act op b pc))
    (hslot : ∀ o u, s.tally Pc.opener i = o + (if op.pc.opener = some i then 1 else 0) →
      SlotOk (s.sess i) (o + if op.pc.opener = some i then 1 else 0)
        (u + if op.pc.user = some i then 1 else 0) →
      SlotOk x (o + if pc.opener = some i then 1 else 0)
        (u + if pc.user = some i then 1 else 0))
    (hfd : ∀ fd, (if pc.carried = some fd then 1 else 0)
        + (if x.fd = some fd then 1 else 0)
      = (if op.pc.carried = some fd then 1 else 0) + (if (s.sess i).fd = some fd then 1 else 0))
    (hfrees : x.frees = (s.sess i).frees ∨ x.frees = (s.sess i).frees + 1 ∧ x.inUse = false)
    (hheld : ∀ ⦃j n c⦄, pc = .held j n c → n = x.frees)
    (hclosing : ∀ ⦃c k⦄, pc = .closing c k → c.slot = i ∧ c.frees < x.frees) :
    Life (s.act op b pc) := by
  refine h.of_moves m hslot (fun fd => ?_) hfrees hheld ?_
  · have hb := hfd fd
    show s.closes fd + _ + _ + _ = s.closes fd + _ + _ + _
    show _ = _ + (if fd < s.opened then 1 else 0)
    omega
  · rintro c (hc | ⟨k, hk⟩)
    · exact .inl hc
    · exact .inr (.inr (hclosing hk))

theorem of_idle (h : Life s) (hop : op ∈ s.ops) (hs : b.sess = s.sess)
    (he : s.SameCfg b) (hb₁ : op.pc.holds = none) (hb₂ : op.pc.carried = none)
    (ha₁ : pc.holds = none) (ha₂ : pc.carried = none) :
    Life (s.act op b pc) := by
  obtain ⟨hbo, hbu⟩ := Pc.not_holding hb₁
  obtain ⟨hao, hau⟩ := Pc.not_holding ha₁
  have m : Moves s op 0 (s.sess 0) pc (s.act op b pc) :=
    .of_act pc hop (.of_eq hs he 0) (fun j hj => by rw [hb₁] at hj; cases hj)
      fun j hj => by rw [ha₁] at hj; cases hj
  refine h.of_act m (fun o u _ hslot => ?_) (fun fd => ?_) (.inl rfl) ?_ ?_
  · rw [hao, hau]
    rwa [hbo, hbu] at hslot
  · rw [hb₂, ha₂]
  · rintro j n c rfl
    cases ha₁
  · rintro c k rfl
    cases ha₂

variable {now : UInt64} {k : Cont} {y : Session}

/-- An operation that settles slot `i` and closes what it freed. -/
theorem of_settle (h : Life s) (hop : op ∈ s.ops)
    [Decidable last] (hfd : y.fd = (s.sess i).fd)
    (hfr : y.frees = (s.sess i).frees)
    (hbefore : ∀ ⦃j⦄, op.pc.holds = some j → j = i)
    (hcar : op.pc.carried = none)
    (hslot : ∀ o u, SlotOk (s.sess i) (o + if op.pc.opener = some i then 1 else 0)
        (u + if op.pc.user = some i then 1 else 0) →
      SlotOk (if last then y.free else y) o u) :
    Life (s.act op (s.settle i y last now).1
      (.after i (s.sess i) (s.settle i y last now).2 k)) := by
  rw [Broker.settle_fd]
  generalize hpc : Pc.after i (s.sess i) (if last then y.fd else none) k = pc
  have hidle : pc.holds = none ∧ pc.carried = if last then y.fd else none := by
    subst hpc
    cases (if last then y.fd else none) with
    | none => exact ⟨rfl, rfl⟩
    | some fd => exact ⟨rfl, rfl⟩
  obtain ⟨hh', hc'⟩ := hidle
  obtain ⟨ho', hu'⟩ := Pc.not_holding hh'
  have m : Moves s op i (if last then y.free else y) pc (s.act op (s.settle i y last now).1 pc) :=
    .of_act pc hop Broker.settle_writes hbefore fun j hj => by
      rw [hh'] at hj
      cases hj
  refine h.of_act m (fun o u _ hold => ?_) (fun fd => ?_) ?_ ?_ ?_
  · simpa [ho', hu'] using hslot o u hold
  · rw [hc', hcar, ← hfd]
    by_cases hl : last
    · simp only [if_pos hl, Session.free]
      simp
    · simp only [if_neg hl]
  · by_cases hl : last
    · rw [if_pos hl]
      exact .inr ⟨congrArg (· + 1) hfr, rfl⟩
    · rw [if_neg hl]
      exact .inl hfr
  · rintro j n c rfl
    cases hh'
  · rintro c k' rfl
    by_cases hl : last
    · rw [if_pos hl] at hpc ⊢
      cases hy : y.fd with
      | none =>
        rw [hy] at hpc
        cases hpc
      | some fd =>
        rw [hy] at hpc
        cases hpc
        refine ⟨rfl, ?_⟩
        show (s.sess i).frees < y.frees + 1
        omega
    · rw [if_neg hl] at hpc
      cases hpc

theorem of_frame (h : Life s) (hs : b.sess = s.sess) : Life { s with toBroker := b } := by
  obtain ⟨hslot, hledger, hcurrent, hpast⟩ := h
  refine ⟨fun i => ?_, fun fd => ?_, ?_, ?_⟩
  · rw [hs]
    exact hslot i
  · show s.closes fd + s.tally Pc.carried fd + (∑ i, if (b.sess i).fd = some fd then 1 else 0) = _
    rw [hs]
    exact hledger fd
  · intro op hop i n c hpc
    rw [hs]
    exact hcurrent hop hpc
  · intro c hc
    rw [hs]
    exact hpast hc

theorem of_ops (h : Life s) {ops : List Op} (hpc₁ : op.pc.holds = none)
    (hpc₂ : op.pc.carried = none) (hops : ∀ o ∈ ops, o = op ∨ o ∈ s.ops)
    (hcount : ∀ p : Op → Bool, p op = false → ops.countP p = s.ops.countP p) :
    Life { s with ops := ops } := by
  obtain ⟨ho, hu⟩ := Pc.not_holding hpc₁
  have htally : ∀ {α : Type} [DecidableEq α] (f : Pc → Option α) (v : α),
      f op.pc = none → ({ s with ops := ops } : State).tally f v = s.tally f v := by
    intro α _ f v hf
    refine hcount _ ?_
    rw [hf]
    exact decide_eq_false nofun
  refine ⟨fun i => ?_, fun fd => ?_, ?_, ?_⟩
  · rw [htally Pc.opener i ho, htally Pc.user i hu]
    exact h.slot i
  · rw [htally Pc.carried fd hpc₂]
    exact h.ledger fd
  · intro o hmem i n c hpc
    rcases hops o hmem with rfl | hold
    · rw [hpc] at hpc₁
      cases hpc₁
    · exact h.current hold hpc
  · rintro c (hc | ⟨o, hmem, k, hk⟩)
    · exact h.past (.inl hc)
    rcases hops o hmem with rfl | hold
    · rw [hk] at hpc₂
      cases hpc₂
    · exact h.past (.inr ⟨o, hold, k, hk⟩)

theorem spawn (h : Life s) (hs : b.sess = s.sess) (hpc₁ : op.pc.holds = none)
    (hpc₂ : op.pc.carried = none) :
    Life (s.spawn b op) := by
  refine (h.of_frame hs).of_ops  hpc₁ hpc₂ (fun o ho => List.mem_cons.mp ho) fun p hp => ?_
  rw [List.countP_cons, hp]
  rfl

theorem finish (h : Life s) (hop : op ∈ s.ops) (hpc₁ : op.pc.holds = none)
    (hpc₂ : op.pc.carried = none) : Life { s with ops := s.ops.erase op } := by
  refine h.of_ops hpc₁ hpc₂ (fun o ho => .inr (List.mem_of_mem_erase ho)) fun p hp => ?_
  have hcount := countP_erase hop p
  rw [hp] at hcount
  exact hcount

-- ==== the steps

theorem only (hpc : op.pc = pc) (hi : pc.holds = some i) ⦃j : Fin 64⦄
    (hj : op.pc.holds = some j) : j = i := by
  rw [hpc, hi] at hj
  exact (Option.some.inj hj).symm

variable (h : Life s) (hop : op ∈ s.ops) {n : Nat}

include h hop

theorem reserve (hpc : op.pc = .entered) (hr : s.openReserve op.cid now = (b, some i)) :
    Life (s.act op b (.opening i)) := by
  obtain ⟨hfree, hw⟩ := Broker.openReserve_some hr
  have hnone := ((h.slot i).unused hfree).2.2
  have m := Moves.of_act (.opening i) hop hw
    (fun j hj => by rw [hpc] at hj; cases hj) fun j hj => by cases hj; rfl
  refine h.of_act m (fun o u _ hslot => ?_) (fun fd => ?_) (.inl rfl) nofun nofun
  · simp only [hpc, Pc.opener, Pc.user, reduceCtorEq, if_true, if_false] at hslot ⊢
    exact hslot.reserve hfree op.cid
  · rw [hpc, hnone]
    rfl

theorem openFails (hpc : op.pc = .opening i) :
    Life (s.act op s.toBroker (.openFailed i)) := by
  have m := Moves.of_act (.openFailed i) hop (.of_eq rfl (.refl _) i)
    (only hpc rfl) fun j hj => by cases hj; rfl
  refine h.of_act m (fun o u _ hslot => ?_) (fun fd => ?_) (.inl rfl) nofun nofun
  · rwa [hpc] at hslot
  · rw [hpc]
    rfl

theorem openReturns (hpc : op.pc = .opening i) :
    Life { s.act op s.toBroker (.opened i s.opened) with
      opened := s.opened + 1 } := by
  have m : Moves s op i (s.sess i) (.opened i s.opened)
      { s.act op s.toBroker (.opened i s.opened) with opened := s.opened + 1 } :=
    ⟨hop, rfl, (update_eq_self i s.sess).symm, only hpc rfl, fun j hj => by cases hj; rfl⟩
  refine h.of_moves m (fun o u _ hslot => ?_) (fun fd => ?_) (.inl rfl) nofun ?_
  · rwa [hpc] at hslot
  · show s.closes fd + (if some s.opened = some fd then 1 else 0) + _ + _
      = s.closes fd + _ + _ + (if fd < s.opened + 1 then 1 else 0)
    rw [hpc]
    simp only [Pc.carried, reduceCtorEq, if_false, Option.some.injEq]
    by_cases hfd : s.opened = fd
    · subst hfd
      simp
      omega
    have hiff : fd < s.opened + 1 ↔ fd < s.opened := by
      rw [Nat.lt_succ_iff_lt_or_eq]
      exact or_iff_left (Ne.symm hfd)
    simp only [hfd, hiff, if_false]
  · rintro c (hc | ⟨k, hk⟩)
    · exact .inl hc
    · cases hk

theorem opener_fd (hpc : op.pc.opener = some i) : (s.sess i).fd = none := by
  have hslot := h.slot i
  obtain ⟨o, ho⟩ :=
    Nat.exists_eq_add_one_of_ne_zero (State.tally_pos hop hpc).ne'
  rw [ho] at hslot
  exact hslot.opener.2.2.2

theorem abandon (hpc : op.pc = .openFailed i)
    (now : UInt64) : Life (s.act op (s.openFailed i now) (.go .done)) := by
  have hw : s.Writes i ({ s.sess i with refs := 0 } : Session).free (s.openFailed i now) := by
    have hw := @Broker.settle_writes s.toBroker i now { s.sess i with refs := 0 } True _
    exact hw
  have m := Moves.of_act (.go .done) hop hw (only hpc rfl) fun j hj => by cases hj
  have hnone := h.opener_fd hop (by rw [hpc]; rfl)
  refine h.of_act m (fun o u _ hslot => ?_) (fun fd => ?_) (.inr ⟨rfl, rfl⟩)
    nofun nofun
  · simp only [hpc, Pc.opener, Pc.user, reduceCtorEq, if_true, if_false] at hslot ⊢
    exact hslot.abandoned
  · rw [hpc, hnone]
    rfl

/-- The OPEN that publishes its descriptor, or finds its session closing
and takes the descriptor back. -/
theorem openDone (hpc : op.pc = .opened i fd) {cfd : Option Fd}
    (hr : s.openDone i fd now = (b, cfd)) (hpc' : pc = cfd.elim (.published i)
      fun cfd => .closing ⟨cfd, i, (s.sess i).frees⟩ .done) :
    Life (s.act op b pc) := by
  generalize hy : ({ s.sess i with
    fd := some fd, lastUsedMs := now, refs := 0 } : Session) = y
  have hw := @Broker.settle_writes s.toBroker i now y (y.closing = true) _
  have hfd := @Broker.settle_fd s.toBroker i now y (y.closing = true) _
  rw [Broker.openDone, hy] at hr
  rw [hr] at hw hfd
  dsimp only at hw hfd
  have hnone := h.opener_fd hop (by rw [hpc]; rfl)
  have hyfd : y.fd = some fd := by rw [← hy]
  have hyfrees : y.frees = (s.sess i).frees := by rw [← hy]
  have hidle : pc.holds = none := by
    rw [hpc']
    cases cfd <;> rfl
  obtain ⟨hpo, hpu⟩ := Pc.not_holding hidle
  have m := Moves.of_act pc hop hw (only hpc rfl) fun j hj => by
    rw [hidle] at hj
    cases hj
  refine h.of_act m (fun o u _ hslot => ?_) (fun fd' => ?_) ?_ ?_ ?_
  · rw [hpo, hpu]
    simp only [hpc, Pc.opener, Pc.user, reduceCtorEq, if_true, if_false] at hslot ⊢
    exact hslot.published hy.symm
  · rw [hpc', hpc, hnone, hfd]
    by_cases hcl : y.closing = true
    · simp only [if_pos hcl, hyfd]
      rfl
    · simp only [if_neg hcl, hyfd]
      show 0 + _ = (if some fd = some fd' then 1 else 0) + 0
      omega
  · by_cases hcl : y.closing = true
    · rw [if_pos hcl]
      exact .inr ⟨congrArg (· + 1) hyfrees, rfl⟩
    · rw [if_neg hcl]
      exact .inl hyfrees
  · rintro j n c rfl
    cases hidle
  · rintro c k rfl
    by_cases hcl : y.closing = true
    · rw [if_pos hcl, hyfd] at hfd
      subst hfd
      cases hpc'
      refine ⟨rfl, ?_⟩
      rw [if_pos hcl]
      show (s.sess i).frees < y.frees + 1
      omega
    · rw [if_neg hcl] at hfd
      subst hfd
      cases hpc'

theorem acquire (hpc : op.pc = .entered)
    {handle : UInt64} (hr : s.sessionAcquire op.cid handle now = .ok (i, b))
    (hpub : s.tally Pc.opener i = 0) (closes : Bool) :
    Life (s.act op b (.held i (s.sess i).frees closes)) := by
  obtain ⟨hacc, rfl⟩ := Broker.sessionAcquire_ok hr
  have hw : s.Writes i { s.sess i with refs := (s.sess i).refs + 1, lastUsedMs := now } (s.setSess i
        { s.sess i with refs := (s.sess i).refs + 1, lastUsedMs := now }) :=
    ⟨rfl, rfl, rfl, rfl⟩
  have m := Moves.of_act (.held i (s.sess i).frees closes) hop hw
    (fun j hj => by rw [hpc] at hj; cases hj)
    fun j hj => by cases hj; rfl
  refine h.of_act m (fun o u ho hslot => ?_) (fun fd => ?_) (.inl rfl) ?_ nofun
  · simp only [hpc, Pc.opener, Pc.user, reduceCtorEq, if_true, if_false] at ho hslot ⊢
    obtain rfl : 0 = o := hpub.symm.trans ho
    exact hslot.acquire hacc.inUse now
  · rw [hpc]
    rfl
  · intro j n c he
    cases he
    rfl

theorem release (hpc : op.pc = .held i n false) (now : UInt64) :
    Life (s.act op (s.sessionRelease i now).1
      (.after i (s.sess i) (s.sessionRelease i now).2 .done)) := by
  refine h.of_settle hop rfl rfl (only hpc rfl) (by rw [hpc]; rfl) ?_
  intro o u hslot
  simp only [hpc, Pc.opener, Pc.user, reduceCtorEq, if_true, if_false] at hslot
  exact hslot.left rfl rfl rfl Iff.rfl

theorem close (hpc : op.pc = .held i n true) (now : UInt64) :
    Life (s.act op (s.sessionClose i true now).1
      (.after i (s.sess i) (s.sessionClose i true now).2 .done)) := by
  refine h.of_settle hop rfl rfl (only hpc rfl) (by rw [hpc]; rfl) ?_
  intro o u hslot
  simp only [hpc, Pc.opener, Pc.user, reduceCtorEq, if_true, if_false] at hslot
  exact hslot.left rfl rfl rfl (by simp)

theorem closeFd {c : Closing} (hpc : op.pc = .closing c k) :
    Life { s.act op s.toBroker (.go k) with closed := c :: s.closed } := by
  have m : Moves s op 0 (s.sess 0) (.go k)
      { s.act op s.toBroker (.go k) with closed := c :: s.closed } :=
    ⟨hop, rfl, (update_eq_self 0 s.sess).symm,
      (fun j hj => by rw [hpc] at hj; cases hj), fun j hj => by cases hj⟩
  refine h.of_moves m (fun o u _ hslot => ?_) (fun fd => ?_) (.inl rfl) nofun ?_
  · rwa [hpc] at hslot
  · show (c :: s.closed).countP _ + _ + _ + _ = s.closes fd + _ + _ + _
    rw [hpc, List.countP_cons]
    simp only [Pc.carried, State.closes, reduceCtorEq, if_false,
      decide_eq_true_eq, Option.some.injEq]
    rfl
  · rintro c' (hc | ⟨k', hk⟩)
    · rcases List.mem_cons.mp hc with rfl | hc
      · exact .inr (.inl ⟨k, hpc⟩)
      · exact .inl hc
    · cases hk

variable {k' : Cont}

/-- A turn of one of the two loops that leaves its slot alone. -/
theorem skip (hpc : op.pc = .go k) :
    Life (s.act op s.toBroker (.go k')) :=
  h.of_idle hop rfl (.refl _) (by rw [hpc]; rfl) (by rw [hpc]; rfl) rfl rfl

/-- A loop counts on no slot, so a turn leaves the counts alone. -/
theorem settle_loop (hpc : op.pc = .go k) [Decidable last] (hfd : y.fd = (s.sess i).fd)
    (hfr : y.frees = (s.sess i).frees)
    (hslot : ∀ o u, SlotOk (s.sess i) o u → SlotOk (if last then y.free else y) o u) :
    Life (s.act op (s.settle i y last now).1
      (.after i (s.sess i) (s.settle i y last now).2 k')) := by
  refine h.of_settle hop hfd hfr (fun j hj => by rw [hpc] at hj; cases hj)
    (by rw [hpc]; rfl) fun o u hold => ?_
  rw [hpc] at hold
  exact hslot o u hold

theorem goneSlot (hpc : op.pc = .go k) (now : UInt64) :
    Life (s.act op (s.goneSlot op.cid i now).1
      (.after i (s.sess i) (s.goneSlot op.cid i now).2 k')) := by
  unfold Broker.goneSlot
  dsimp only
  split
  · rename_i hc
    exact h.settle_loop hop hpc rfl rfl fun _ _ hslot => hslot.marked hc.1 rfl
  · exact h.skip hop hpc

theorem reapSlot (hpc : op.pc = .go k) (start idleMs now : UInt64) :
    Life (s.act op (s.reapSlot i start idleMs now).1
      (.after i (s.sess i) (s.reapSlot i start idleMs now).2 k')) := by
  unfold Broker.reapSlot
  dsimp only
  split
  · rename_i hc
    refine h.settle_loop hop hpc rfl rfl fun _ _ hslot => ?_
    have hmarked := hslot.marked hc.1 rfl
    rw [if_pos hc.2.2.1] at hmarked
    rw [if_pos trivial]
    exact hmarked
  · exact h.skip hop hpc

end Life

/-- What a step must not do: acquire a session whose OPEN has not
published its descriptor. -/
def Published (s : State) : Event → Prop
  | .acquire _ _ i => s.tally Pc.opener i = 0
  | _ => True

variable {s : State} {s' : State} {e : Event}

theorem Life.step (h : Life s) (hp : Published s e)
    (hs : Step s e s') : Life s' := by
  cases hs with
  | enter hc =>
    obtain ⟨hs, -⟩ := Broker.cidState_frame hc
    exact h.spawn ((Broker.rateCheck_frame _).1.trans hs) rfl rfl
  | limited _ hc =>
    obtain ⟨hs, -⟩ := Broker.cidState_frame hc
    exact h.of_frame ((Broker.rateCheck_frame _).1.trans hs)
  | reserve hop hpc hr => exact h.reserve hop hpc hr
  | openFull hop hpc hr =>
    obtain ⟨hs, he⟩ := Broker.openReserve_none hr
    exact h.of_idle hop hs he (by rw [hpc]; rfl) (by rw [hpc]; rfl) rfl rfl
  | openReturns hop hpc => exact h.openReturns hop hpc
  | openFails hop hpc => exact h.openFails hop hpc
  | abandon hop hpc => exact h.abandon hop hpc _
  | publish hop hpc hr | connReset hop hpc hr => exact h.openDone hop hpc hr rfl
  | acquire closes hop hpc hr => exact h.acquire hop hpc hr hp closes
  | handle hop hpc | refuse hop hpc | reject hop hpc =>
    exact h.of_idle hop rfl (.refl _) (by rw [hpc]; rfl) (by rw [hpc]; rfl) rfl rfl
  | release hop hpc => exact h.release hop hpc _
  | close hop hpc => exact h.close hop hpc _
  | closeFd hop hpc => exact h.closeFd hop hpc
  | goneSlot hop hpc => exact h.goneSlot hop hpc _
  | clientGone | reapIdle => exact h.spawn rfl rfl rfl
  | reapSlot hop hpc => exact h.reapSlot hop hpc _ _ _
  | finish hop hpc _ => exact h.finish hop (by rw [hpc]; rfl) (by rw [hpc]; rfl)

theorem Life.start (random maxPerCid rate : UInt32) :
    Life (.start (.init random maxPerCid rate)) := by
  refine ⟨fun i => ?_, fun fd => ?_, ?_, ?_⟩
  · exact .vacant rfl rfl rfl rfl
  · have hstored : (State.start (.init random maxPerCid rate)).stored fd = 0 :=
      Finset.sum_eq_zero fun i _ => if_neg (Option.some_ne_none fd).symm
    rw [hstored]
    exact (if_neg (Nat.not_lt_zero fd)).symm
  · intro op hop
    cases hop
  · rintro c (hc | ⟨op, hop, -⟩)
    · cases hc
    · cases hop

theorem published_step (h : (brokerSystem.restrict Published).Reachable s) (hs : Step s e s')
    (hp : Published s e) : (brokerSystem.restrict Published).Reachable s' :=
  h.step ⟨hp, hs⟩

theorem life_reachable (h : (brokerSystem.restrict Published).Reachable s) :
    Life s := by
  refine h.induct (I := Life) ?_ ?_
  · rintro s ⟨random, maxPerCid, rate, rfl⟩
    exact Life.start random maxPerCid rate
  · rintro s e s' - hI ⟨hp, hs⟩
    exact hI.step hp hs

-- ==== the runs

/-- Sessions, holders and descriptors agree. -/
structure Accounted (s : State) : Prop where
  /-- The counter is the number of holders. -/
  refs : ∀ i, (s.sess i).refs = s.holders i
  /-- A descriptor is with an operation, in a session or closed, and
  closed at most once. -/
  once : ∀ fd < s.opened, s.closes fd + s.tally Pc.carried fd + s.stored fd = 1
  /-- What an operation has acquired has an open descriptor, which no
  operation has closed or is about to close. -/
  open_ : ∀ op ∈ s.ops, ∀ i n closes, op.pc = .held i n closes →
    (s.sess i).fd ≠ none ∧ (∀ c ∈ s.closed, ¬ (c.slot = i ∧ c.frees = n)) ∧
      ∀ op' ∈ s.ops, ∀ c k, op'.pc = .closing c k → ¬ (c.slot = i ∧ c.frees = n)
  /-- A closing session still in use has a holder. -/
  freed : ∀ i, (s.sess i).inUse = true → (s.sess i).closing = true → 0 < s.holders i

/-- Over every run in which no request acquires a session before its OPEN
has published the descriptor. -/
theorem sessions_accounted {s : State}
    (h : (brokerSystem.restrict Published).Reachable s) : Accounted s := by
  have hlife := life_reachable h
  refine ⟨fun i => ?_, fun fd hfd => ?_, ?_, fun i _ hcl => ?_⟩
  · rw [s.holders_eq]
    exact (hlife.slot i).refs
  · rw [hlife.ledger, if_pos hfd]
  · intro op hop i n closes hpc
    have hn := hlife.current hop hpc
    have hpast : ∀ {c : Closing}, (c ∈ s.closed ∨ ∃ op ∈ s.ops, ∃ k, op.pc = .closing c k) →
        ¬ (c.slot = i ∧ c.frees = n) := by
      rintro c hc ⟨rfl, rfl⟩
      exact absurd hn (hlife.past hc).ne
    have husers := State.tally_pos (f := Pc.user) (v := i) hop (by rw [hpc]; rfl)
    obtain ⟨u, hu⟩ := Nat.exists_eq_add_one_of_ne_zero husers.ne'
    have hslot := hlife.slot i
    rw [hu] at hslot
    exact ⟨hslot.used.2.2, fun c hc => hpast (.inl hc),
      fun op' hop' c k hk => hpast (.inr ⟨op', hop', k, hk⟩)⟩
  · rw [s.holders_eq]
    exact ((hlife.slot i).closing hcl).2

/-- Cid 3 opens a session, and a second request of it uses the session. -/
theorem sessions_accounted_used : ∃ s : State, Accounted s ∧
    s.ops = [⟨3, .held 0 0 false⟩, ⟨3, .published 0⟩] := by
  have h₀ : (brokerSystem.restrict Published).Reachable
      (.start (.init 5 0 0)) := .init ⟨5, 0, 0, rfl⟩
  obtain ⟨s₁, st₁, v₁⟩ := Serves.start 5 0 3 (by decide)
  obtain ⟨s₂, st₂, v₂⟩ := v₁.reserve rfl
  obtain ⟨s₃, st₃, v₃⟩ := v₂.openReturns (List.mem_cons_self ..)
  obtain ⟨s₄, st₄, v₄⟩ := v₃.publish rfl rfl
  obtain ⟨s₅, st₅, v₅⟩ := v₄.enter
  obtain ⟨s₆, st₆, v₆⟩ := v₅.acquire false rfl rfl rfl
  have h₅ : (brokerSystem.restrict Published).Reachable s₅ :=
    published_step (published_step (published_step (published_step
      (published_step h₀ st₁ trivial) st₂ trivial) st₃ trivial) st₄ trivial)
      st₅ trivial
  have hpub : s₅.tally Pc.opener 0 = 0 := by
    rw [State.tally, v₅.ops]
    rfl
  exact ⟨s₆, sessions_accounted (published_step h₅ st₆ hpub), v₆.ops⟩

/-- A second request of cid 3 guesses the handle while the OPEN is in
`ops.open`; the store `refs = 0` forgets it, and `client_gone` then
closes the descriptor it is using. -/
theorem acquired_while_opening : ∃ s : State, brokerSystem.Reachable s ∧
    (s.sess 0).refs = 0 ∧ s.holders 0 = 1 ∧
      ∃ c ∈ s.closed, ∃ op ∈ s.ops, op.pc = .held c.slot c.frees false := by
  have h₀ : brokerSystem.Reachable (.start (.init 5 0 0)) :=
    .init ⟨5, 0, 0, rfl⟩
  obtain ⟨s₁, st₁, v₁⟩ := Serves.start 5 0 3 (by decide)
  obtain ⟨s₂, st₂, v₂⟩ := v₁.reserve rfl
  obtain ⟨s₃, st₃, v₃⟩ := v₂.enter
  obtain ⟨s₄, st₄, v₄⟩ := v₃.acquire false rfl rfl rfl
  obtain ⟨s₅, st₅, v₅⟩ := v₄.openReturns (by simp)
  obtain ⟨s₆, st₆, v₆⟩ := v₅.publish rfl rfl
  obtain ⟨s₇, st₇, v₇⟩ := v₆.clientGone
  obtain ⟨s₈, st₈, v₈⟩ := v₇.goneSlot rfl rfl rfl rfl rfl
  obtain ⟨s₉, st₉, v₉, hclosed⟩ := v₈.closeFd
  have h₉ : brokerSystem.Reachable s₉ :=
    ((((((((h₀.step st₁).step st₂).step st₃).step st₄).step st₅).step
      st₆).step st₇).step st₈).step st₉
  refine ⟨s₉, h₉, by rw [v₉.slot]; rfl, ?_, ?_⟩
  · rw [State.holders, State.tally, v₉.ops]
    rfl
  · refine ⟨_, by rw [hclosed]; exact List.mem_cons_self .., ⟨3, .held 0 0 false⟩, ?_, rfl⟩
    rw [v₉.ops]
    decide +revert

end AmbaVirt.Iav
