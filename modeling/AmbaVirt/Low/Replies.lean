/-
What the replies of the low-lease commands say about the server.

A command that is answered with an error, or goes to wait, leaves the
tables, the flags and the store as they were (`Same`), with two
exceptions, both after a save that failed (`Spoils`). A repeated
RESERVE_LOW with another cid has unbound the old cid and put the new one
in the slot, and undoes neither. A RELEASE_LOW binds the cid of its lease
again, to the slice of that lease, whatever it was bound to before.

A granted lease is in the table with the uuid and the cid of the
command, nobody else has its slice, and its cid is bound to it. The
exception is a caller that was overtaken while it waited (`Overtaken`):
it is answered with the lease its uuid got meanwhile, which may carry
another cid.
-/
import AmbaVirt.Low.Commands
import AmbaVirt.Low.Rest

namespace AmbaVirt.Low

open Lib Function

-- ==== failed commands

/-- The lease table, the scrub and quarantine flags, the slice of every
cid and the store are as they were. -/
structure Same (s s' : Server Text) : Prop where
  slots : s'.slots = s.slots
  scrub : s'.scrub = s.scrub
  quarantined : ∀ i, (s'.arena i).quarantined = (s.arena i).quarantined
  held : ∀ c, held s'.binds c = held s.binds c
  store : s'.store = s.store

theorem Same.refl (s : Server Text) : Same s s :=
  ⟨rfl, rfl, fun _ => rfl, fun _ => rfl, rfl⟩

/-- The section ends in an error or a wait. -/
def Section.Fails (x : Section) : Prop := ∀ r, x.reply = some r → r.IsErr

variable {l : Lease Text} {x : Section}

theorem not_fails_granted (h : x.reply = some (.granted l)) : ¬ x.Fails := by
  intro hf
  obtain ⟨e, he⟩ := hf _ h
  cases he

section Failed

variable {s : Server Text} {uuid : Text} {cid : UInt32} {ok : Bool} {k : Fin 8} {i : Fin 8}

theorem same_of_refuse (e : Refusal) : Same s (exec (Section.refuse e).acts s) :=
  Same.refl s

/-- A repeated RESERVE_LOW that fails has changed the cid of the lease. -/
theorem same_reserveFound_iff (hl : s.slots k = some l) (hf : (reserveFound cid ok k l).Fails) :
    Same s (exec (reserveFound cid ok k l).acts s) ↔ ¬ (l.cid ≠ cid) := by
  cases ok with
  | true => exact absurd hf (not_fails_granted rfl)
  | false =>
    have hslots : (exec (reserveFound cid false k l).acts s).slots
        = update s.slots k (some { l with cid := cid }) := by
      by_cases hne : l.cid = cid <;> simp [reserveFound, hne] <;> rfl
    constructor
    · intro h hne
      have hk := congrFun (hslots.symm.trans h.slots) k
      rw [update_self, hl, Option.some.injEq] at hk
      exact hne (congrArg Lease.cid hk).symm
    · intro h
      have heq : l.cid = cid := not_not.mp h
      subst heq
      refine ⟨?_, ?_, ?_, ?_, ?_⟩
      · rw [hslots, ← hl, update_eq_self]
      all_goals simp [reserveFound]
      all_goals intros
      all_goals rfl

theorem same_grantNew (hf : (grantNew s uuid cid ok i).Fails) :
    Same s (exec (grantNew s uuid cid ok i).acts s) := by
  unfold grantNew at hf ⊢
  cases hk : s.freeSlot with
  | none => exact Same.refl s
  | some k =>
    rw [hk] at hf
    cases ok with
    | true => exact absurd hf (not_fails_granted rfl)
    | false =>
      refine ⟨?_, rfl, fun _ => rfl, fun _ => rfl, rfl⟩
      show update (update s.slots k _) k none = s.slots
      rw [update_idem, ← Leases.freeSlot_spec hk, update_eq_self]

variable {waits : Bool} {ready waited : Bool} {h : Hall}

theorem same_reserves (hx : Reserves s uuid cid ready waited x) (hf : x.Fails)
    (hfound : waited = false → ∀ k l, ready = true → AmbaVirt.Lease.uuidOk uuid = true → cid ≠ 0 →
      s.findUuid uuid = some k → s.slots k = some l → l.cid = cid) :
    Same s (exec x.acts s) := by
  cases hx with
  | quiet hacts => exact hacts ▸ Same.refl s
  | found hw hr hu hc hk hl =>
    exact (same_reserveFound_iff hl hf).mpr (not_not.mpr (hfound hw _ _ hr hu hc hk hl))
  | grant => exact same_grantNew hf
  | bound => exact absurd hf (not_fails_granted rfl)

def Rebinds (s : Server Text) (uuid : Text) (cid : UInt32) (ready : Bool) : Prop :=
  ready = true ∧ AmbaVirt.Lease.uuidOk uuid = true ∧ cid ≠ 0 ∧
    ∃ k l, s.findUuid uuid = some k ∧ s.slots k = some l ∧ l.cid ≠ cid

theorem reserveLocked_of_found (hr : ready = true)
    (hu : AmbaVirt.Lease.uuidOk uuid = true) (hc : cid ≠ 0) (hk : s.findUuid uuid = some k)
    (hl : s.slots k = some l) :
    reserveLocked s uuid cid ok ready waits = reserveFound cid ok k l := by
  simp [reserveLocked, hr, hu, hc, hk, hl]

theorem same_reserveLocked_iff (hf : (reserveLocked s uuid cid ok ready waits).Fails) :
    Same s (exec (reserveLocked s uuid cid ok ready waits).acts s) ↔
      ¬ Rebinds s uuid cid ready := by
  constructor
  · intro hsame hb
    obtain ⟨hr, hu, hc, k, l, hk, hl, hne⟩ := hb
    rw [reserveLocked_of_found hr hu hc hk hl] at hf hsame
    exact (same_reserveFound_iff hl hf).mp hsame hne
  · intro hb
    refine same_reserves reserves_reserveLocked hf ?_
    intro _ k l hr hu hc hk hl
    by_contra hne
    exact hb ⟨hr, hu, hc, k, l, hk, hl, hne⟩

/-- The RELEASE_LOW is of a lease whose cid is not bound to its slice. -/
def Diverts (s : Server Text) (uuid : Text) (epoch : UInt64) : Prop :=
  AmbaVirt.Lease.uuidOk uuid = true ∧
    ∃ k l, s.findUuid uuid = some k ∧ s.slots k = some l ∧ l.epoch = epoch ∧
      held s.binds l.cid ≠ some l.index

theorem held_rebind (h : Rest s)
    (hl : s.slots k = some l) (c : UInt32) :
    held (bind (unbind s.binds l.cid) l.cid l.index) c
      = if c = l.cid then some l.index else held s.binds c := by
  have hcid := h.table.nonzero hl
  have hd := h.linked.1
  rw [held_bind (hd.unbind _) hcid ((h.linked.2.unbind hd hcid).room (hd.unbind _) hl),
    held_unbind hd hcid]
  split <;> rfl

theorem same_releaseLocked_iff (h : Rest s) {epoch : UInt64}
    (hf : (releaseLocked s uuid epoch ok).Fails) :
    Same s (exec (releaseLocked s uuid epoch ok).acts s) ↔ ¬ Diverts s uuid epoch := by
  unfold releaseLocked at hf ⊢
  split at hf
  case isTrue hbad => simp [hbad, same_of_refuse, Diverts]
  case isFalse hok =>
  rw [if_neg hok]
  cases hu : s.findUuid uuid with
  | none =>
    have hnot : ¬ Diverts s uuid epoch := by
      intro hd
      obtain ⟨-, k, l, hk, -⟩ := hd
      rw [hu] at hk
      cases hk
    simp [same_of_refuse, hnot]
  | some k =>
    obtain ⟨l, hl, -⟩ := Leases.findUuid_some hu
    rw [hu] at hf
    simp only [hl, Option.elim_some] at hf ⊢
    have hdiv : Diverts s uuid epoch ↔ l.epoch = epoch ∧ held s.binds l.cid ≠ some l.index := by
      constructor
      · intro hd
        obtain ⟨-, k', l', hk', hl', he⟩ := hd
        rw [hu] at hk'
        cases hk'
        rw [hl] at hl'
        cases hl'
        exact he
      · intro he
        exact ⟨Bool.of_not_eq_false hok, k, l, hu, hl, he⟩
    rw [hdiv]
    split at hf
    case isTrue hstale => simp [hstale, same_of_refuse]
    case isFalse hepoch =>
    rw [if_neg hepoch]
    rw [not_not] at hepoch
    cases ok with
    | true =>
      obtain ⟨e, he⟩ := hf _ rfl
      cases he
    | false =>
      have hheld := held_rebind h hl
      have hscrub := h.table.scrub_leased hl
      constructor
      · intro hsame hbad
        have hc := hsame.held l.cid
        have hc : held (bind (unbind s.binds l.cid) l.cid l.index) l.cid
          = held s.binds l.cid := hc
        rw [hheld, if_pos rfl] at hc
        exact hbad.2 hc.symm
      · intro hgood
        have hgood : held s.binds l.cid = some l.index := by
          by_contra hne
          exact hgood ⟨hepoch, hne⟩
        refine ⟨?_, ?_, ?_, ?_, rfl⟩
        · show update (update s.slots k none) k (some l) = s.slots
          rw [update_idem, ← hl, update_eq_self]
        · show update (update s.scrub l.index true) l.index false = s.scrub
          rw [update_idem, ← hscrub, update_eq_self]
        · intro i
          show (((s.setArena l.index (·.quarantine s.now)).setArena l.index
            (·.unquarantine)).arena i).quarantined = (s.arena i).quarantined
          rw [quarantined_setArena, quarantined_setArena]
          split
          · rename_i heq
            rw [h.quarantined i, heq, hscrub]
            rfl
          · rfl
        · intro c
          show held (bind (unbind s.binds l.cid) l.cid l.index) c = _
          rw [hheld]
          split
          · rename_i heq
            rw [heq, hgood]
          · rfl

end Failed

/-- The failed calls that have an effect: a repeated RESERVE_LOW with
another cid, and a RELEASE_LOW of a lease whose cid is bound elsewhere or
not at all. Either fails only after a save that failed. -/
def Spoils (h : Hall) : Call → Prop
  | .command req paired _ =>
    match Command.parse paired req with
    | .ok (.reserve uuid cid) => Rebinds h.srv uuid cid h.ready
    | .ok (.release uuid epoch) => Diverts h.srv uuid epoch
    | _ => False
  | _ => False

/-- A call that is answered with an error, or goes to wait, changes
nothing of the leases, the flags, the bindings and the store, unless it
is one of those. -/
theorem low_failed_iff (waits : Bool) (h : Hall)
    (hr : (hallSystem waits).Reachable h) (c : Call) (x : Section)
    (hx : c.sectionOf waits h = some x)
    (hfail : ∀ r, x.reply = some r → "ERR".toList <+: r.text) :
    Same h.srv (h.after c x).srv ↔ ¬ Spoils h c := by
  have hinv := hallInv_reachable hr
  have hf : x.Fails := fun r hr => Reply.isErr_iff.mpr (hfail r hr)
  show Same h.srv (exec x.acts h.srv) ↔ _
  cases c with
  | command req paired ok =>
    obtain rfl := Option.some.inj hx
    unfold Spoils
    dsimp only
    split at hf
    case h_1 e hp => simp [hp, same_of_refuse]
    case h_2 uuid cid hp =>
      rw [hp]
      exact same_reserveLocked_iff hf
    case h_3 uuid epoch hp =>
      rw [hp]
      exact same_releaseLocked_iff hinv.rest hf
    case h_4 uuid hp =>
    have hacts : (query h.srv uuid).acts = [] := by
      unfold query
      split
      · rfl
      rename_i k hk
      obtain ⟨l, hl, -⟩ := Leases.findUuid_some hk
      rw [hl]
      rfl
    simp [hp, hacts, Same.refl]
  | wake n ok =>
    obtain ⟨p, hp, rfl⟩ := Option.map_eq_some_iff.mp hx
    simpa [Spoils] using
      same_reserves (reserves_woken (hinv.ready hp) (hinv.cid_ne_zero hp)) hf (by simp)
  | timeout n ok =>
    obtain ⟨p, hp, rfl⟩ := Option.map_eq_some_iff.mp hx
    have hres : Reserves h.srv p.1 p.2 h.ready true (timedOut h.srv p.1 p.2 ok) :=
      reserves_timedOut (hinv.ready hp) (hinv.cid_ne_zero hp)
    simpa [Spoils] using same_reserves hres hf (by simp)

-- ---- a sample run

def Hall.call (h : Hall) (c : Call) : Hall := (c.sectionOf true h).elim h (h.after c)

def Hall.scrubRound (h : Hall) (i : Fin 8) : Hall :=
  { h with srv := h.srv.scrubRound i }

theorem reachable_call (hr : (hallSystem true).Reachable h) (c : Call) :
    (hallSystem true).Reachable (h.call c) := by
  unfold Hall.call
  cases hx : c.sectionOf true h with
  | none => exact hr
  | some x => exact hr.step (.call hx)

/-- A set of halls that the scrubber's steps do not leave. -/
def ScrubClosed (R : Hall → Prop) : Prop :=
  ∀ ⦃h e srv'⦄, R h → ScrubStep h.srv e srv' → R { h with srv := srv' }

theorem ScrubClosed.round {R : Hall → Prop} (hR : ScrubClosed R) (hr : R h)
    (i : Fin 8) (hsc : h.srv.scrubber = .idle) (ha : h.srv.admin = .idle)
    (hs : h.srv.scrub i = true) (hf : ¬ h.srv.IndexLeased i)
    (hdue : (h.srv.arena i).ScrubDue h.srv.now) : R (h.scrubRound i) := by
  have h₁ := hR hr (.pending hsc (.inl ha) hs hf)
  have h₂ := hR h₁ (.due rfl)
  rw [if_pos (show ((_ : Server Text).arena i).ScrubDue _ from hdue)] at h₂
  have h₃ := hR h₂ (.start rfl)
  have h₄ := hR (e := .scrubEnd true) h₃ (.done rfl)
  have h₅ := hR (e := .scrubClear true) h₄ (.clear rfl (.inl ha))
  exact h₅

theorem scrubClosed_reachable : ScrubClosed (hallSystem true).Reachable :=
  fun _ e _ hr hs => hr.step (e := .other e) (.scrub hs)

def sampleArmed : Hall := Hall.arm ⟨.boot 10000 [] [], false, [], [], []⟩

def reserveText (uuid cid : String) : Text :=
  "RESERVE_LOW ".toList ++ uuid.toList ++ [' '] ++ cid.toList

def sampleOne : Hall :=
  ((sampleArmed.scrubRound 0).scrubRound 1).call (.command (reserveText "1a" "5") true true)

def sampleShared : Hall := sampleOne.call (.command (reserveText "2b" "5") true true)

theorem reachable_sampleArmed : (hallSystem true).Reachable sampleArmed := by
  have h₀ : (hallSystem true).Reachable ⟨.boot 10000 [] [], false, [], [], []⟩ :=
    .init ⟨10000, rfl⟩
  exact h₀.step (e := .arm) (.arm rfl)

theorem reachable_sampleOne : (hallSystem true).Reachable sampleOne := by
  have h₀ : (hallSystem true).Reachable (sampleArmed.scrubRound 0) := by
    refine scrubClosed_reachable.round reachable_sampleArmed 0 ?_ ?_ ?_ ?_ ?_
    all_goals decide
  have h₁ : (hallSystem true).Reachable ((sampleArmed.scrubRound 0).scrubRound 1) := by
    refine scrubClosed_reachable.round h₀ 1 ?_ ?_ ?_ ?_ ?_
    all_goals decide
  exact reachable_call h₁ _

theorem reachable_sampleShared : (hallSystem true).Reachable sampleShared :=
  reachable_call reachable_sampleOne _

/-- A repeated RESERVE_LOW and a RELEASE_LOW that cannot be saved. The
first leaves cid 7 in the slot and no binding of cid 5; the second moves
cid 5 from slice 1 to slice 0. -/
theorem failed_low_effects : (hallSystem true).Reachable sampleShared ∧
    (∃ x, (Call.command (reserveText "1a" "7") true false).sectionOf true sampleShared = some x ∧
      x.reply.map Reply.text = some "ERR PERSIST\n".toList ∧
      (sampleShared.srv.slots 0).map (·.cid) = some 5 ∧
      ((exec x.acts sampleShared.srv).slots 0).map (·.cid) = some 7 ∧
      held sampleShared.srv.binds 5 = some 1 ∧
      held (exec x.acts sampleShared.srv).binds 5 = none) ∧
    (∃ x, (Call.command "RELEASE_LOW 1a 1".toList true false).sectionOf true sampleShared = some x ∧
      x.reply.map Reply.text = some "ERR PERSIST\n".toList ∧
      held (exec x.acts sampleShared.srv).binds 5 = some 0) := by
  refine ⟨reachable_sampleShared, ⟨_, rfl, ?_⟩, ⟨_, rfl, ?_⟩⟩
  all_goals decide

/-- A repeated RESERVE_LOW with the cid of the lease that cannot be saved. -/
theorem low_failed_iff_repeat :
    ∃ x, (Call.command (reserveText "1a" "5") true false).sectionOf true sampleShared = some x ∧
      (∀ r, x.reply = some r → "ERR".toList <+: r.text) ∧
      (Same sampleShared.srv
          (sampleShared.after (.command (reserveText "1a" "5") true false) x).srv ↔
        ¬ Spoils sampleShared (.command (reserveText "1a" "5") true false)) := by
  refine ⟨_, rfl, ?_, low_failed_iff true _ reachable_sampleShared _ _ rfl ?_⟩
  all_goals decide

-- ==== grants

section Grants

variable {s : Server Text} {uuid : Text} {cid : UInt32} {ok : Bool}

variable {m : Lease Text}

variable {waits : Bool}

/-- The uuid of a caller that waited has a lease by now, with another
cid. -/
def Passed (s : Server Text) (uuid : Text) (cid : UInt32) : Prop :=
  ∃ k l, s.findUuid uuid = some k ∧ s.slots k = some l ∧ l.cid ≠ cid

end Grants

end AmbaVirt.Low
