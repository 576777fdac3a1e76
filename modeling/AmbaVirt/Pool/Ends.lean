/-
Whether a placement ever returns.

`set_device_bounds` searches from offset 0 (`autoLoop`), or behind the
device a preferred offset collides with (`suggestLoop`), and
`alloc_extent` searches from offset 0 (`extentLoop`). `boundsLoop` and
`allocLoop` say which `SearchLoop` a call runs, if it runs one at all.

A turn goes on behind the region in the way, so it goes up, but for one
case: rounding up to the alignment is a 32-bit sum, and behind a region
that ends within one alignment of 4 GiB it wraps to 0 (`Climbs`). A loop
that comes to 0 that way finds the same regions in its way as the first
time, so it ends exactly if it does not come back to 0
(`placement_returns_iff`). A BAR of 4 GiB less a byte has room for such a
region (`placement_hangs`).
-/
import AmbaVirt.Pool.Account

namespace AmbaVirt.Pool

open Lib Relation

-- ==== the loops

/-- A search loop: its condition, what is in the way of a candidate, and
the first candidate. -/
structure SearchLoop where
  fits : UInt32 → Prop
  [decFits : DecidablePred fits]
  hit : UInt32 → Option UInt32
  start : UInt32

namespace SearchLoop

attribute [instance] SearchLoop.decFits

def run (l : SearchLoop) (fuel : Nat) : Option (Option UInt32) :=
  firstFit l.fits l.hit fuel l.start

def Ends (l : SearchLoop) : Prop := SearchEnds l.fits l.hit l.start

/-- The loop comes to offset 0, and from there to offset 0 again: a chain
of regions, each in the way of the candidate rounded up behind the one
before, the first in the way of offset 0 and the last ending less than
one alignment below 4 GiB. -/
def Recurs (l : SearchLoop) : Prop :=
  ReflTransGen (Jump l.fits l.hit) l.start 0 ∧ TransGen (Jump l.fits l.hit) 0 0

/-- Every turn goes up, or to 0. -/
def Climbs (l : SearchLoop) : Prop :=
  ∀ c c', Jump l.fits l.hit c c' → c < c' ∨ c' = 0

variable {l : SearchLoop} {a c x : UInt32}

theorem Climbs.ends_iff (h : l.Climbs) : l.Ends ↔ ¬ l.Recurs := by
  refine searchEnds_iff (m := UInt32.toNat) UInt32.toNat_lt ?_ l.start
  intro c c' hjump
  rcases h c c' hjump with hlt | hzero
  · exact .inl (UInt32.lt_iff_toNat_lt.mp hlt)
  · exact .inr hzero

theorem ends_iff_run : l.Ends ↔ ∃ fuel, l.run fuel ≠ none := by
  refine exists_congr fun fuel => ?_
  exact Option.isSome_iff_ne_none

end SearchLoop

namespace TenantPool

def autoLoop (p : TenantPool) (a : Admitted) : SearchLoop where
  fits c := c.toUInt64 + a.total ≤ p.barSize.toUInt64 ∧ a.devEnd (a.auto c) ≤ p.barSize
  hit c := (p.firstHit a.existing fun d =>
      decide (a.Collides (a.auto c) d)).map
    (alignUp ·.next (if a.arenaSz > 0 then 4096 else a.align))
  start := 0

/-- The loop for `suggested_offset`, behind the device in the way. -/
def suggestLoop (p : TenantPool) (a : Admitted) (d : DevPartition) : SearchLoop where
  fits c := c + (a.reqSize + a.arenaSz) ≤ p.barSize
  hit c := (p.firstHit a.existing fun k =>
      decide (k.Hits c (c + (a.reqSize + a.arenaSz)))).map
    (alignUp ·.next a.align)
  start := alignUp d.next a.align

/-- The loop of `alloc_extent`. -/
def extentLoop (p : TenantPool) (req : MemReq) : SearchLoop where
  fits c := c + req.allocSize ≤ p.barSize
  hit := p.extentHit req.extentAlign req.allocSize
  start := 0

/-- The loop of an admitted request: AUTO placement has one, and so has a
preferred offset that is inside the BAR and collides. -/
def placeLoop (p : TenantPool) (req : DevBoundsReq) (a : Admitted) : Option SearchLoop :=
  let pl := a.preferred req.preferredOffset
  if req.preferredOffset ≠ OFFSET_AUTO then
    if a.arenaEnd pl > p.barSize ∨ a.devEnd pl > p.barSize then none
    else (p.firstHit a.existing fun d => decide (a.Collides pl d)).map (p.suggestLoop a)
  else some (p.autoLoop a)

end TenantPool

namespace Pools

/-- The loop a call of `set_device_bounds` runs. -/
def boundsLoop (s : Pools) (cid : UInt32) (req : DevBoundsReq) : Option SearchLoop :=
  if (req.devType = DEV_TYPE_NONE ∨ req.devType ≥ MAX_DEV_TYPES) ∨ req.requestedSize = 0 then none
  else (s.getTenant cid).bind fun t =>
    (t.2.checkBounds req).toOption.bind (t.2.placeLoop req)

/-- The loop a call of `alloc_extent` runs. -/
def allocLoop (s : Pools) (cid : UInt32) (req : MemReq) : Option SearchLoop :=
  (s.getTenant cid).bind fun t =>
    if (req.extentAlign < 4096 ∨ req.extentAlign &&& (req.extentAlign - 1) ≠ 0) ∨
      req.allocSize = 0 ∨ req.allocSize > t.2.barSize ∨
      req.allocSize > t.2.free ∨ (∀ i, (t.2.extents i).isSome) then none
    else some (t.2.extentLoop req)

end Pools

-- ==== a turn of the loop

/-- Rounding up behind `c` goes up, or wraps. -/
theorem lt_alignUp_or_zero (ha : IsPow2 a) (h : c < x) :
    c < alignUp x a ∨ alignUp x a = 0 := by
  by_cases hwrap : x.toNat + a.toNat ≤ 2 ^ 32
  · exact .inl (h.trans_le (le_alignUp ha hwrap))
  · exact .inr (alignUp_wrapped ha (Nat.not_le.mp hwrap))

variable {d : DevPartition}

/-- A range a device is in the way of starts before the device ends. -/
theorem DevPartition.Hits.lt_next {s e : UInt32}
    (h : d.Hits s e) : s < d.next := by
  unfold next
  rcases h with h | ⟨-, h⟩
  · split
    · exact h.1
    · rename_i hle
      exact UInt32.lt_of_lt_of_le h.1 (UInt32.not_lt.mp hle)
  · split
    · rename_i hlt
      exact UInt32.lt_trans h.1 hlt
    · exact h.1

namespace TenantPool

variable {p : TenantPool}

variable {a : Admitted}

/-- A candidate of AUTO placement is in no case behind its regions: the
rounding behind the arena wraps for an empty region only, and one at 0
collides with nothing. -/
theorem auto_lt_next (ha : IsPow2 a.align) (hdvd : a.align.toNat ∣ a.reqSize.toNat) {c : UInt32}
    (hfit : c.toUInt64 + a.total ≤ p.barSize.toUInt64)
    (h : a.Collides (a.auto c) d) : c < d.next := by
  have htotal := a.total_fits hfit
  have hbar := p.barSize.toNat_lt
  rw [Admitted.Collides, Admitted.auto] at h
  split at h
  · rcases h with hdev | ⟨-, harena⟩
    · refine UInt32.lt_of_le_of_lt ?_ hdev.lt_next
      have hend : (c + a.arenaSz).toNat = c.toNat + a.arenaSz.toNat :=
        toNat_add_lt (by omega)
      rw [UInt32.le_iff_toNat_le]
      refine (Nat.le_add_right _ a.arenaSz.toNat).trans ?_
      rw [← hend]
      refine le_alignUp ha ?_
      rcases Nat.eq_zero_or_pos a.reqSize.toNat with hzero | hpos
      · by_contra hwrap
        -- the region is the empty range at 0
        have hstart := alignUp_wrapped ha (Nat.not_le.mp hwrap)
        have hempty : a.reqSize = 0 := UInt32.toNat_inj.mp hzero
        rw [Admitted.devEnd] at hdev
        rw [hstart, hempty] at hdev
        rcases hdev with hover | ⟨-, hover⟩
        · exact absurd hover.2 UInt32.not_lt_zero
        · exact absurd hover.2 UInt32.not_lt_zero
      · have hle := Nat.le_of_dvd hpos hdvd
        omega
    · exact harena.lt_next
  · rename_i hz
    rcases h with hdev | ⟨hpos, -⟩
    · exact hdev.lt_next
    · exact absurd hpos hz

theorem autoLoop_climbs (ha : IsPow2 a.align)
    (hdvd : a.align.toNat ∣ a.reqSize.toNat) : (p.autoLoop a).Climbs := by
  intro c c' hjump
  obtain ⟨⟨hfit, -⟩, hhit⟩ := hjump
  obtain ⟨d, hd, rfl⟩ := Option.map_eq_some_iff.mp hhit
  obtain ⟨j, -, -, hc⟩ := firstHit_some hd
  have hstep : IsPow2 (if a.arenaSz > 0 then 4096 else a.align) := by
    split
    · exact ⟨by decide, by decide⟩
    · exact ha
  exact lt_alignUp_or_zero hstep (auto_lt_next ha hdvd hfit (of_decide_eq_true hc))

theorem suggestLoop_climbs (ha : IsPow2 a.align) (d : DevPartition) :
    (p.suggestLoop a d).Climbs := by
  intro c c' hjump
  obtain ⟨k, hk, rfl⟩ := Option.map_eq_some_iff.mp hjump.2
  obtain ⟨j, -, -, hc⟩ := firstHit_some hk
  exact lt_alignUp_or_zero ha (of_decide_eq_true hc).lt_next

theorem extentLoop_climbs {req : MemReq} (ha : IsPow2 req.extentAlign) :
    (p.extentLoop req).Climbs := by
  intro c c' hjump
  rcases extentHit_some hjump.2 with
    ⟨j, d, -, hhit, rfl⟩ | ⟨k, e, -, hover, rfl⟩
  · exact lt_alignUp_or_zero ha hhit.lt_next
  · exact lt_alignUp_or_zero ha hover.1

end TenantPool

-- ==== the calls

/-- With enough turns the call has an answer. -/
def Returns {ε α : Type} (call : Nat → Except (Option ε) α) : Prop :=
  ∃ fuel, call fuel ≠ .error none

variable {loop : Option SearchLoop} {ε α : Type}

/-- A call that is waiting for its loop, and for nothing else, returns
exactly if the loop ends. -/
theorem returns_iff {call : Nat → Except (Option ε) α}
    (h : ∀ fuel, call fuel = .error none ↔ ∃ l ∈ loop, l.run fuel = none) :
    Returns call ↔ ∀ l ∈ loop, l.Ends := by
  unfold Returns
  simp only [ne_eq, h]
  cases loop with
  | none => simp
  | some l => simp [SearchLoop.ends_iff_run]

namespace TenantPool

variable {p : TenantPool} {req : DevBoundsReq} {a : Admitted} {physBase : UInt64}

theorem placeAuto_waits_iff (fuel : Nat) :
    p.placeAuto fuel a = .error none ↔ (p.autoLoop a).run fuel = none := by
  unfold placeAuto
  split <;> rename_i hrun <;>
    simp [refusal, show (p.autoLoop a).run fuel = _ from hrun]

theorem placePreferred_waits_iff {offset : UInt32} (fuel : Nat) :
    p.placePreferred fuel offset a = .error none ↔ ¬ (a.arenaEnd (a.preferred offset) > p.barSize ∨
        a.devEnd (a.preferred offset) > p.barSize) ∧
      ∃ d, (p.firstHit a.existing fun d =>
          decide (a.Collides (a.preferred offset) d)) = some d ∧
        (p.suggestLoop a d).run fuel = none := by
  simp only [placePreferred, bind_error, refuseIf_error, refuseIf_ok,
    exists_unit, refusal, reduceCtorEq, and_false, false_or]
  refine and_congr_right fun _ => ?_
  cases p.firstHit a.existing fun d =>
      decide (a.Collides (a.preferred offset) d) with
  | none => simp
  | some d =>
    have hrun : p.suggest fuel a d = (p.suggestLoop a d).run fuel := rfl
    simp [hrun]

theorem place_waits_iff (fuel : Nat) : p.place fuel req a = .error none ↔
      ∃ l ∈ p.placeLoop req a, l.run fuel = none := by
  unfold place placeLoop
  dsimp only
  split
  · rw [placePreferred_waits_iff]
    split
    · rename_i hend
      simp [hend]
    · rename_i hend
      simp [hend]
  · rw [placeAuto_waits_iff]
    simp

theorem checkBounds_answers {e : Option DevBoundsResp}
    (h : p.checkBounds req = .error e) : e ≠ none := by
  simp only [checkBounds, bind_error, refuseIf_error, refuseIf_ok,
    exists_unit, pure_error, and_false, exists_false, or_false] at h
  rcases h with ⟨-, rfl⟩ | ⟨-, ⟨-, rfl⟩ | ⟨-, ⟨-, rfl⟩ | ⟨-, ⟨-, rfl⟩ | ⟨-, ⟨-, rfl⟩ | ⟨-, h⟩⟩⟩⟩⟩
  case inr.inr.inr.inr.inr =>
    cases clampToQuota_error h
    exact Option.some_ne_none _
  all_goals exact Option.some_ne_none _

theorem setDeviceBounds_waits_iff (fuel : Nat) : p.setDeviceBounds fuel req = .error none ↔
      ∃ a, p.checkBounds req = .ok a ∧ p.place fuel req a = .error none := by
  have hchecks : p.checkBounds req ≠ .error none := fun h =>
    checkBounds_answers h rfl
  simp only [setDeviceBounds, bind_error, require_error, pure_error, refusal,
    hchecks, reduceCtorEq, and_false, exists_false, or_false, false_or]

theorem allocExtent_waits_iff {req : MemReq} (fuel : Nat) :
    p.allocExtent fuel req physBase = .error none ↔ ¬ ((req.extentAlign < 4096 ∨
          req.extentAlign &&& (req.extentAlign - 1) ≠ 0) ∨
        req.allocSize = 0 ∨ req.allocSize > p.barSize ∨
        req.allocSize > p.free ∨ (∀ i, (p.extents i).isSome)) ∧
      (p.extentLoop req).run fuel = none := by
  have hslot : (∃ i, (Fin.find? fun i => (p.extents i).isNone) = some i) ↔
      ¬ ∀ i, (p.extents i).isSome := by
    rw [← Option.isSome_iff_exists, Fin.isSome_find?_iff, not_forall]
    simp only [Option.isNone_iff_eq_none, Option.not_isSome_iff_eq_none]
  have hrun : (firstFit (fun c => c + req.allocSize ≤ p.barSize)
      (p.extentHit req.extentAlign req.allocSize) fuel 0) = (p.extentLoop req).run fuel := rfl
  simp only [allocExtent, bind_error, refuseIf_error, refuseIf_ok,
    require_error, require_ok, pure_error, memRefusal, exists_unit, hrun,
    reduceCtorEq, and_false, and_true, exists_false, or_false, false_or,
    exists_and_right, hslot]
  simp only [not_or, and_assoc]

end TenantPool

namespace Pools

variable {s : Pools} {cid : UInt32} {req : DevBoundsReq}

theorem setDeviceBounds_waits_iff (fuel : Nat) :
    s.setDeviceBounds fuel cid req = .error none ↔
      ∃ l ∈ s.boundsLoop cid req, l.run fuel = none := by
  simp only [Pools.setDeviceBounds, boundsLoop, bind_error, refuseIf_error,
    refuseIf_ok, require_error, require_ok, pure_error, exists_unit, refusal,
    reduceCtorEq, and_false, exists_false, or_false, false_or]
  split
  · rename_i hbad
    rw [← and_assoc, ← not_or]
    simp [hbad]
  rename_i hgood
  rw [← and_assoc, ← not_or, and_iff_right hgood]
  cases s.getTenant cid with
  | none => simp
  | some t =>
    simp only [Option.some.injEq, exists_eq_left',
      TenantPool.setDeviceBounds_waits_iff, TenantPool.place_waits_iff,
      Option.bind_some]
    cases t.2.checkBounds req with
    | error e => simp [Except.toOption]
    | ok a => simp [Except.toOption]

theorem allocExtent_waits_iff {req : MemReq} (fuel : Nat) :
    s.allocExtent fuel cid req physBase = .error none ↔
      ∃ l ∈ s.allocLoop cid req, l.run fuel = none := by
  simp only [Pools.allocExtent, allocLoop, bind_error, require_error,
    require_ok, pure_error, reduceCtorEq, and_false, exists_false, or_false,
    false_or, TenantPool.allocExtent_waits_iff]
  cases s.getTenant cid with
  | none => simp
  | some t =>
    simp only [Option.some.injEq, exists_eq_left', Option.bind_some]
    split
    · rename_i hbad
      simp [hbad]
    · rename_i hgood
      simp [hgood]

/-- Every loop a call runs climbs: the checks before it have seen to the
alignment. -/
theorem boundsLoop_climbs {l : SearchLoop}
    (h : l ∈ s.boundsLoop cid req) : l.Climbs := by
  unfold boundsLoop at h
  split at h
  · cases h
  obtain ⟨t, -, h⟩ := Option.bind_eq_some_iff.mp h
  obtain ⟨a, ha, h⟩ := Option.bind_eq_some_iff.mp h
  have hc := checkBounds_ok (toOption_eq_some.mp ha)
  unfold TenantPool.placeLoop at h
  dsimp only at h
  split at h
  · split at h
    · cases h
    · obtain ⟨d, -, rfl⟩ := Option.map_eq_some_iff.mp h
      exact TenantPool.suggestLoop_climbs hc.pow2 d
  · cases h
    exact TenantPool.autoLoop_climbs hc.pow2 hc.size_dvd

theorem allocLoop_climbs {req : MemReq} {l : SearchLoop}
    (h : l ∈ s.allocLoop cid req) : l.Climbs := by
  obtain ⟨t, -, h⟩ := Option.bind_eq_some_iff.mp h
  split at h
  · cases h
  · rename_i hgood
    cases h
    exact TenantPool.extentLoop_climbs (isPow2_of_check fun hbad => hgood (.inl hbad)).1

end Pools

/-- Whatever the pools hold and whatever is asked for: a placement
returns exactly if the loop it runs, if it runs one, does not come back
to offset 0. -/
theorem placement_returns_iff (s : Pools) (cid : UInt32) :
    (∀ req : DevBoundsReq, Returns (s.setDeviceBounds · cid req) ↔
      ∀ l ∈ s.boundsLoop cid req, ¬ l.Recurs) ∧
    ∀ (req : MemReq) (physBase : UInt64), Returns (s.allocExtent · cid req physBase) ↔
        ∀ l ∈ s.allocLoop cid req, ¬ l.Recurs := by
  constructor
  · intro req
    rw [returns_iff Pools.setDeviceBounds_waits_iff]
    exact forall₂_congr fun l hl => (Pools.boundsLoop_climbs hl).ends_iff
  · intro req physBase
    rw [returns_iff Pools.allocExtent_waits_iff]
    exact forall₂_congr fun l hl => (Pools.allocLoop_climbs hl).ends_iff

-- ==== far from 4 GiB

/-- A loop that never jumps to 0 does not come back to it. -/
theorem SearchLoop.not_recurs {l : SearchLoop}
    (h : ∀ c c', Jump l.fits l.hit c c' → c' ≠ 0) : ¬ l.Recurs := by
  rintro ⟨-, hcycle⟩
  obtain ⟨c, -, hjump⟩ := TransGen.tail'_iff.mp hcycle
  exact h c 0 hjump rfl

theorem alignUp_ne_zero (ha : IsPow2 a) (h : c < x)
    (hroom : x.toNat + a.toNat ≤ 2 ^ 32) : alignUp x a ≠ 0 := by
  intro hzero
  have hle := le_alignUp ha hroom
  rw [hzero] at hle
  exact absurd (h.trans_le hle) (Nat.not_lt_zero _)

variable {p : TenantPool} {a : Admitted}

theorem placeLoop_not_recurs (hc : Checked p req a) (hbelow : p.Below a.align.toNat)
    {l : SearchLoop} (h : l ∈ p.placeLoop req a) : ¬ l.Recurs := by
  unfold TenantPool.placeLoop at h
  dsimp only at h
  split at h
  · split at h
    · cases h
    obtain ⟨d, -, rfl⟩ := Option.map_eq_some_iff.mp h
    refine SearchLoop.not_recurs fun c c' hjump => ?_
    obtain ⟨k, hk, rfl⟩ := Option.map_eq_some_iff.mp hjump.2
    obtain ⟨j, -, hj, hhit⟩ := TenantPool.firstHit_some hk
    exact alignUp_ne_zero hc.pow2 (of_decide_eq_true hhit).lt_next (hbelow.1 j k hj)
  · cases h
    refine SearchLoop.not_recurs fun c c' hjump => ?_
    obtain ⟨⟨hfit, -⟩, hhit⟩ := hjump
    obtain ⟨d, hd, rfl⟩ := Option.map_eq_some_iff.mp hhit
    obtain ⟨j, -, hj, hcoll⟩ := TenantPool.firstHit_some hd
    have hlt := TenantPool.auto_lt_next hc.pow2 hc.size_dvd hfit (of_decide_eq_true hcoll)
    have hroom := hbelow.1 j d hj
    have hpage := hc.page
    split
    · refine alignUp_ne_zero ⟨by decide, by decide⟩ hlt ?_
      show d.next.toNat + 4096 ≤ 2 ^ 32
      omega
    · exact alignUp_ne_zero hc.pow2 hlt hroom

/-- A tenant whose regions leave one alignment below 4 GiB always gets an
answer. -/
theorem placement_returns {s : Pools} {cid : UInt32} {i : Fin 8}
    (hget : s.getTenant cid = some (i, p)) :
    (∀ req : DevBoundsReq, p.Below req.boundsAlign.toNat → Returns (s.setDeviceBounds · cid req)) ∧
    ∀ (req : MemReq) (physBase : UInt64), p.Below req.extentAlign.toNat →
      Returns (s.allocExtent · cid req physBase) := by
  constructor
  · intro req hbelow
    rw [returns_iff Pools.setDeviceBounds_waits_iff]
    intro l hl
    refine (Pools.boundsLoop_climbs hl).ends_iff.mpr ?_
    unfold Pools.boundsLoop at hl
    split at hl
    · cases hl
    rw [hget, Option.bind_some] at hl
    obtain ⟨a, ha, hl⟩ := Option.bind_eq_some_iff.mp hl
    have hc := checkBounds_ok (toOption_eq_some.mp ha)
    rw [← hc.align_eq] at hbelow
    exact placeLoop_not_recurs hc hbelow hl
  · intro req physBase hbelow
    rw [returns_iff Pools.allocExtent_waits_iff]
    intro l hl
    refine (Pools.allocLoop_climbs hl).ends_iff.mpr ?_
    unfold Pools.allocLoop at hl
    rw [hget, Option.bind_some] at hl
    split at hl
    · cases hl
    rename_i hgood
    cases hl
    have hpow := (isPow2_of_check fun hbad => hgood (.inl hbad)).1
    refine SearchLoop.not_recurs fun c c' hjump => ?_
    rcases TenantPool.extentHit_some hjump.2 with
      ⟨j, d, hd, hhit, rfl⟩ | ⟨k, e, he, hover, rfl⟩
    · exact alignUp_ne_zero hpow hhit.lt_next (hbelow.1 j d hd)
    · exact alignUp_ne_zero hpow hover.1 (hbelow.2 k e he)

def wideSecond (offset : UInt32) : DevBoundsReq where
  devType := DEV_TYPE_IAV
  requestedSize := 0x200000
  preferredOffset := offset
  rpcArenaSize := 0
  align := 0
  flags := 0

/-- A Cavalry region and its arena are in the way of both searches from
the start. -/
theorem placement_returns_behind :
    (Returns (sampleGranted.setDeviceBounds · 3 (wideSecond OFFSET_AUTO)) ∧
      ((sampleGranted.boundsLoop 3 (wideSecond OFFSET_AUTO)).any fun l =>
        (l.hit l.start).isSome) = true) ∧
    Returns (sampleGranted.allocExtent · 3 sampleMem 0) ∧
      ((sampleGranted.allocLoop 3 sampleMem).any fun l => (l.hit l.start).isSome) = true := by
  obtain ⟨⟨i, p⟩, hget, hbelow⟩ := (Option.any_eq_true _ _).mp
    (show ((sampleGranted.getTenant 3).any fun t =>
      decide (t.2.Below 0x200000 ∧ t.2.Below 4096)) = true by decide)
  obtain ⟨hdev, hext⟩ := of_decide_eq_true hbelow
  exact ⟨⟨(placement_returns hget).1 _ hdev, by decide⟩, (placement_returns hget).2 _ _ hext,
    by decide⟩

-- ==== close to 4 GiB

def wideRegistered : Pools :=
  ((Pools.init 0).registerTenant 3 0 0xFFFFFFFF 0xFFFFFFFF).1

def wideBounds : DevBoundsReq where
  devType := DEV_TYPE_GDMA
  requestedSize := 0xFFC02000
  preferredOffset := 0x1FF000
  rpcArenaSize := 0
  align := 4096
  flags := 0

def wideGranted : Pools :=
  wideRegistered.after (wideRegistered.setDeviceBounds 1 3 wideBounds)

def wideMem : MemReq where
  size := 0x200000
  align := 0x200000
  devAffinity := DEV_TYPE_IAV
  flags := 0

/-- A call whose loop jumps from 0 to 0 never returns. -/
theorem not_returns_of_loop {call : Nat → Except (Option ε) α}
    (h : ∀ fuel, call fuel = .error none ↔ ∃ l ∈ loop, l.run fuel = none)
    (hloop : (loop.any fun l =>
      decide (l.start = 0 ∧ l.fits 0 ∧ l.hit 0 = some 0)) = true) :
    ¬ Returns call := by
  obtain ⟨l, rfl, hl⟩ := (Option.any_eq_true _ _).mp hloop
  obtain ⟨hstart, hjump⟩ := of_decide_eq_true hl
  rw [returns_iff h]
  intro hends
  have hend : SearchEnds l.fits l.hit l.start := hends l rfl
  rw [hstart] at hend
  exact not_searchEnds_of_cycle (.single hjump) hend

/-- Next to such a region all three loops turn for ever: rounding up
behind it comes to 0, where it is in the way again. -/
theorem placement_hangs : ∃ s, poolSystem.Reachable s ∧
      ¬ Returns (s.setDeviceBounds · 3 (wideSecond OFFSET_AUTO)) ∧
      ¬ Returns (s.setDeviceBounds · 3 (wideSecond 0)) ∧
      ¬ Returns (s.allocExtent · 3 wideMem 0) := by
  have h₁ : poolSystem.Reachable wideRegistered :=
    .step (e := .register 3 0 0xFFFFFFFF 0xFFFFFFFF) (.init ⟨0, rfl⟩) (.register ..)
  obtain ⟨_, hdev, -⟩ := Pools.exists_after (s := wideRegistered)
    (q := fun _ => True) (x := wideRegistered.setDeviceBounds 1 3 wideBounds)
    (by decide)
  have h₂ : poolSystem.Reachable wideGranted :=
    .step (e := .setDeviceBounds 3 wideBounds) h₁ (.setDeviceBounds hdev)
  refine ⟨wideGranted, h₂, ?_, ?_, ?_⟩
  · exact not_returns_of_loop Pools.setDeviceBounds_waits_iff (by decide)
  · exact not_returns_of_loop Pools.setDeviceBounds_waits_iff (by decide)
  · exact not_returns_of_loop Pools.allocExtent_waits_iff (by decide)

end AmbaVirt.Pool
