/-
Commands and scrub rounds that run to their end undisturbed: the state a
whole RESERVE_LOW of a new uuid, a whole RELEASE_LOW and a whole scrub
round lead to. `sampleLeased` is a server with one lease.
-/
import AmbaVirt.Low.Server

namespace AmbaVirt.Low

open Lib

variable {U : Type}

namespace Server

/-- A scrub round of slice `i` that succeeds and is saved. -/
def scrubRound (s : Server U) (i : Fin 8) : Server U :=
  ((({ s with scrubber := .idle }.note (.scrubStarted i s.now (s.arena i).quarantined s.jobs)).note
      (.scrubEnded i true)).setArena i (·.unquarantine)).withLeases ((s.setScrub i false).save true)

/-- The new lease `l` of a RESERVE_LOW: filled in, saved, bound. -/
def reserved (s : Server U) (k : Fin 8) (l : Lease U) : Server U :=
  let s₁ := s.withLeases { s.setSlot k (some l) with
      nextEpoch := s.nextEpoch + 1, admin := .filled k }
  let s₂ := s₁.withLeases ((s₁.save true).goto (.stored k))
  ((s₂.bindSlot l).withLeases (s₂.goto .idle)).note (.granted l.uuid l.index)

/-- The lease `l` released: quarantined, unbound, saved. -/
def released (s : Server U) (k : Fin 8) (l : Lease U) : Server U :=
  let s₁ := (s.setArena l.index (·.quarantine s.now)).withLeases (s.goto (.quarantined k l))
  let s₂ := (s₁.unbindCid l.cid).withLeases ((s₁.setScrub l.index true).goto (.unbound k l))
  (s₂.withLeases (((s₂.setSlot k none).save true).goto .idle)).note
    (.released l.uuid l.index (s₂.arena l.index).released)

end Server

theorem Leases.search_of_freeIndex {x : Leases U} {uuid : U} {cid : UInt32}
    {i : Fin 8} (h : x.freeIndex = some i) :
    x.search uuid cid = x.fill uuid cid i := by
  unfold Leases.search
  cases hi : x.freeIndex with
  | none => cases h.symm.trans hi
  | some j =>
    cases h.symm.trans hi
    rfl

theorem Leases.fill_of_freeSlot {x : Leases U} {uuid : U} {cid : UInt32}
    {i k : Fin 8} (h : x.freeSlot = some k) : x.fill uuid cid i =
      { x.setSlot k (some ⟨uuid, i, x.nextEpoch, cid⟩) with
        nextEpoch := x.nextEpoch + 1, admin := .filled k } := by
  unfold Leases.fill
  cases hk : x.freeSlot with
  | none => cases h.symm.trans hk
  | some j =>
    cases h.symm.trans hk
    rfl

variable [DecidableEq U] {s : Server U} {C : Server U → Event U → Prop}

/-- Every event but a cid change in place and a re-check that passes. -/
def Event.plain : Event U → Bool
  | .setCid | .recheck _ true => false
  | _ => true

/-- A condition on the steps that asks nothing of plain ones. -/
def Admits (C : Server U → Event U → Prop) : Prop :=
  ∀ s e, Event.plain e = true → C s e

theorem reachable_scrubRound (hC : Admits C) (i : Fin 8)
    (h : ((serverSystem U).restrict C).Reachable s)
    (hsc : s.scrubber = .idle) (ha : s.admin = .idle) (hs : s.scrub i = true)
    (hf : ¬ s.IndexLeased i) (hdue : (s.arena i).ScrubDue s.now) :
    ((serverSystem U).restrict C).Reachable (s.scrubRound i) := by
  have h₁ := h.step (e := .scrubPending i) ⟨hC _ _ rfl, .scrub (.pending hsc (.inl ha) hs hf)⟩
  have h₂ := h₁.step (e := .scrubDue) ⟨hC _ _ rfl, .scrub (.due rfl)⟩
  rw [if_pos (show ((_ : Server U).arena i).ScrubDue _ from hdue)] at h₂
  have h₃ := h₂.step (e := .scrubStart) ⟨hC _ _ rfl, .scrub (.start rfl)⟩
  have h₄ := h₃.step (e := .scrubEnd true) ⟨hC _ _ rfl, .scrub (.done rfl)⟩
  exact h₄.step (e := .scrubClear true) ⟨hC _ _ rfl, .scrub (.clear rfl (.inl ha))⟩

theorem reachable_reserved (hC : Admits C) (uuid : U) (cid : UInt32)
    (i k : Fin 8) (h : ((serverSystem U).restrict C).Reachable s)
    (ha : s.admin = .idle) (hcid : cid ≠ 0) (hu : s.findUuid uuid = none)
    (hep : s.nextEpoch ≠ 0) (hi : s.freeIndex = some i)
    (hk : s.freeSlot = some k) :
    ((serverSystem U).restrict C).Reachable (s.reserved k ⟨uuid, i, s.nextEpoch, cid⟩) := by
  have h₁ := h.step (e := .reserve uuid cid) ⟨hC _ _ rfl, .reserve (.search ha hcid hu hep)⟩
  have hsearch : s.search uuid cid = { s.setSlot k (some ⟨uuid, i, s.nextEpoch, cid⟩) with
        nextEpoch := s.nextEpoch + 1, admin := .filled k } := by
    rw [Leases.search_of_freeIndex hi, Leases.fill_of_freeSlot hk]
  rw [hsearch] at h₁
  have h₂ := h₁.step (e := .reserveSave true) ⟨hC _ _ rfl, .reserve (.saveFilled rfl)⟩
  have hslot : Function.update s.slots k (some ⟨uuid, i, s.nextEpoch, cid⟩) k =
        some ⟨uuid, i, s.nextEpoch, cid⟩ := Function.update_self ..
  exact h₂.step (e := .grant) ⟨hC _ _ rfl, .reserve (.grant rfl hslot)⟩

theorem reachable_released (hC : Admits C) (uuid : U) (k : Fin 8)
    (l : Lease U) (h : ((serverSystem U).restrict C).Reachable s)
    (ha : s.admin = .idle) (hu : s.findUuid uuid = some k)
    (hl : s.slots k = some l) :
    ((serverSystem U).restrict C).Reachable (s.released k l) := by
  have h₁ := h.step (e := .release uuid l.epoch)
    ⟨hC _ _ rfl, .release (.quarantine ha hu hl rfl)⟩
  have h₂ := h₁.step (e := .releaseUnbind) ⟨hC _ _ rfl, .release (.unbind rfl)⟩
  exact h₂.step (e := .releaseSave true) ⟨hC _ _ rfl, .release (.save rfl)⟩

-- ==== a sample

-- A first run: slice 0 is scrubbed after the start and leased to `true`.

def sampleFree : Server Bool := (Server.start 10000 [] []).scrubRound 0

def sampleLease : Lease Bool := ⟨true, 0, 1, 5⟩

def sampleLeased : Server Bool := sampleFree.reserved 0 sampleLease

theorem reachable_sampleLeased {C : Server Bool → Event Bool → Prop} (hC : Admits C) :
    ((serverSystem Bool).restrict C).Reachable sampleLeased := by
  have hfree : ((serverSystem Bool).restrict C).Reachable sampleFree := by
    refine reachable_scrubRound hC 0 (System.Reachable.init ⟨10000, rfl⟩) ?_ ?_ ?_ ?_ ?_
    all_goals decide
  refine reachable_reserved hC true 5 0 0 hfree ?_ ?_ ?_ ?_ ?_ ?_
  all_goals decide

end AmbaVirt.Low
