/-
What the answers of `virt_mem_pool_set_device_bounds` promise.

A grant should have the size that was asked for, or a smaller one if the
request allows it, and an arena exactly if one was asked for. The sizes
are rounded up in 32 bits first, and a sum that wraps is rounded to
nothing: the request is then granted with no byte
(`grant_sufficient_iff`).

The scan for another offset tests the size that is left after the quota
has cut it down, and one range for region and arena together. The request
repeated there is first tested with the size it asks for; and where the
end of the range wraps, the scan has tested another range than the
placement does (`suggestion_works_iff`).
-/
import AmbaVirt.Pool.Calls

namespace AmbaVirt.Pool

open Lib Function

-- ==== what was granted

namespace Pools

variable {s : Pools} {cid : UInt32} {i : Fin 8} {p : TenantPool}

theorem getTenant_setTenant (h : s.getTenant cid = some (i, p))
    (p' : TenantPool) (hcid : p'.cid = p.cid) :
    (s.setTenant i (some p')).getTenant cid = some (i, p') := by
  have hp := getTenant_cid h
  obtain ⟨j, hj, hfirst⟩ := Fin.findSome?_eq_some_iff.mp h
  obtain ⟨q, -, he⟩ := Option.map_eq_some_iff.mp hj
  obtain ⟨rfl, rfl⟩ := Prod.mk.inj he
  refine Fin.findSome?_eq_some_iff.mpr ⟨j, ?_, fun k hk => ?_⟩
  · simp only [setTenant, update_self, Option.filter_some, hcid, hp,
      decide_true, if_true, Option.map_some]
  · simp only [setTenant, update_of_ne hk.ne]
    exact hfirst k hk

end Pools

namespace TenantPool

variable {p : TenantPool} {req : DevBoundsReq} {a : Admitted} {i : Fin 8}

/-- The slot of a grant is the first with its device type. -/
theorem existingSlot_grant (ha : a.existing = p.existingSlot req.devType)
    (hi : p.targetSlot a = some i) (pl : Placement) :
    (p.grant req a pl i).existingSlot req.devType = some i := by
  have hdev : (p.grant req a pl i).devices
      = update p.devices i (some (partition req a pl)) := rfl
  refine Fin.find?_eq_some_iff.mpr ⟨?_, fun k hk => ?_⟩
  · rw [hdev, update_self, Option.any_some]
    exact beq_self_eq_true _
  rw [hdev, update_of_ne hk.ne]
  rw [targetSlot, ha] at hi
  cases hfound : p.existingSlot req.devType with
  | some j =>
    rw [hfound, Option.some_or] at hi
    cases hi
    exact (Fin.find?_eq_some_iff.mp hfound).2 k hk
  | none => exact Fin.find?_eq_none_iff.mp hfound k

end TenantPool

variable {p : TenantPool} {req : DevBoundsReq} {a : Admitted}

theorem checkBounds_existing (h : p.checkBounds req = .ok a) :
    a.existing = p.existingSlot req.devType := by
  simp only [TenantPool.checkBounds, guards, pure_ok] at h
  obtain ⟨-, -, -, -, -, n, -, rfl⟩ := h
  rfl

-- ==== what is written

namespace TenantPool

variable {p' : TenantPool} {fuel : Nat} {c : UInt32}

theorem setDeviceBounds_spec
    {resp : DevBoundsResp} (h : p.setDeviceBounds fuel req = .ok (resp, p')) :
    p'.cid = p.cid ∧ ∃ i d, p'.devices = update p.devices i (some d) ∧
      ∀ k d', p.devices k = some d' → d'.devType ≠ req.devType → k ≠ i := by
  simp only [TenantPool.setDeviceBounds, guards, pure_ok] at h
  obtain ⟨a, ha, pl, -, i, hi, hr⟩ := h
  obtain ⟨rfl, rfl⟩ := Prod.mk.inj hr
  refine ⟨rfl, i, partition req a pl, rfl, ?_⟩
  rintro k d' hd' hne rfl
  rw [targetSlot, checkBounds_existing ha] at hi
  cases hex : p.existingSlot req.devType with
  | none =>
    rw [hex, Option.none_or] at hi
    have hfree := Fin.eq_true_of_find?_eq_some hi
    rw [hd'] at hfree
    cases hfree
  | some j =>
    rw [hex, Option.some_or] at hi
    cases hi
    have hsame := Fin.eq_true_of_find?_eq_some hex
    rw [hd', Option.any_some] at hsame
    exact hne (beq_iff_eq.mp hsame)

theorem allocExtent_spec {req : MemReq} {physBase : UInt64}
    {resp : MemResp} (h : p.allocExtent fuel req physBase = .ok (resp, p')) :
    p'.devices = p.devices ∧ p'.cid = p.cid := by
  simp only [TenantPool.allocExtent, bind_ok, require_ok, pure_ok] at h
  obtain ⟨-, -, -, -, -, -, -, -, i, -, found, -, c, -, hr⟩ := h
  obtain ⟨rfl, rfl⟩ := Prod.mk.inj hr
  exact ⟨rfl, rfl⟩

/-- Every device and every extent is the same or gone. -/
structure Fewer (p p' : TenantPool) : Prop where
  cid : p'.cid = p.cid
  devices : ∀ k, p'.devices k = p.devices k ∨ p'.devices k = none
  extents : ∀ k, p'.extents k = p.extents k ∨ p'.extents k = none

theorem releaseDeviceBounds_spec {devType : UInt32} (h : p.releaseDeviceBounds devType = some p') :
    p.Fewer p' := by
  simp only [TenantPool.releaseDeviceBounds, Option.bind_eq_bind,
    Option.bind_eq_some_iff, Option.pure_def, Option.some.injEq] at h
  obtain ⟨i, -, d, -, rfl⟩ := h
  exact ⟨rfl, update_none_or p.devices i, fun _ => .inl rfl⟩

theorem freeExtent_spec (p : TenantPool) (barOffset : UInt32) :
    p.Fewer (p.freeExtent barOffset).1 := by
  unfold TenantPool.freeExtent
  split
  · exact ⟨rfl, fun _ => .inl rfl, update_none_or p.extents _⟩
  · exact ⟨rfl, fun _ => .inl rfl, fun _ => .inl rfl⟩

end TenantPool

-- ==== sufficiency

/-- What a granted partition owes its request. -/
structure Sufficient (req : DevBoundsReq) (d : DevPartition) : Prop where
  size : req.requestedSize ≤ d.size ∨ req.flags &&& DEV_F_BEST_EFFORT ≠ 0 ∧ 0 < d.size
  arena : 0 < d.rpcArenaSize ↔ 0 < req.rpcArenaSize
  arena_size : req.rpcArenaSize ≤ d.rpcArenaSize

/-- The size that is left under the quota is the aligned one, or what a
best-effort request was cut down to. -/
theorem clampToQuota_cases {align size arenaSz avail n : UInt32}
    (h : TenantPool.clampToQuota req align size arenaSz avail = .ok n) :
    n = size ∨ req.flags &&& DEV_F_BEST_EFFORT ≠ 0 ∧ 0 < n ∧ 0 < size := by
  unfold TenantPool.clampToQuota at h
  split at h
  · rename_i hover
    dsimp only at h
    split at h
    · rename_i hcl
      cases h
      refine .inr ⟨hcl.1, hcl.2.2.2.2, ?_⟩
      have hroom := hcl.2.2.2.1
      rw [gt_iff_lt, UInt64.lt_iff_toNat_lt, toNat_add_widened, UInt32.toNat_toUInt64] at hover
      rw [gt_iff_lt, UInt32.lt_iff_toNat_lt] at hroom
      change 0 < size.toNat
      omega
    · cases h
  · cases h
    exact .inl rfl

theorem arenaSize_sufficient_iff (req : DevBoundsReq) :
    ((0 < req.arenaSize ↔ 0 < req.rpcArenaSize) ∧ req.rpcArenaSize ≤ req.arenaSize) ↔
      req.rpcArenaSize.toNat + 4095 < 2 ^ 32 := by
  have hpow : IsPow2 4096 := ⟨by decide, by decide⟩
  unfold DevBoundsReq.arenaSize
  split
  · rename_i hz
    have hpos : 0 < req.rpcArenaSize.toNat := UInt32.lt_iff_toNat_lt.mp hz
    have hiff := le_alignUp_iff hpow hpos
    have hpage : (4096 : UInt32).toNat = 4096 := rfl
    have hzero : (0 : UInt32).toNat = 0 := rfl
    rw [UInt32.lt_iff_toNat_lt, UInt32.lt_iff_toNat_lt, UInt32.le_iff_toNat_le]
    omega
  · rename_i hz
    have hnone := toNat_of_not_pos hz
    refine ⟨fun _ => by omega, fun _ => ⟨⟨fun h => ?_, fun h => absurd h hz⟩, ?_⟩⟩
    · exact absurd h (by decide)
    · rw [UInt32.le_iff_toNat_le, hnone]
      exact Nat.zero_le _

theorem reqSize_sufficient_iff (h : p.checkBounds req = .ok a) (hreq : req.requestedSize ≠ 0) :
    (req.requestedSize ≤ a.reqSize ∨ req.flags &&& DEV_F_BEST_EFFORT ≠ 0 ∧ 0 < a.reqSize) ↔
      req.requestedSize.toNat + req.boundsAlign.toNat ≤ 2 ^ 32 := by
  simp only [TenantPool.checkBounds, guards, pure_ok] at h
  obtain ⟨halign, -, -, -, -, n, hn, rfl⟩ := h
  have hpow := (isPow2_of_check halign).1
  have hpos : 0 < req.requestedSize.toNat :=
    Nat.pos_of_ne_zero fun hz => hreq (UInt32.toNat_inj.mp hz)
  -- A size that is not rounded to nothing is rounded up.
  have hup : 0 < req.alignedSize → req.requestedSize ≤ req.alignedSize := by
    intro hsome
    refine (le_alignUp_iff hpow hpos).mpr (Nat.not_lt.mp fun hwrap => ?_)
    rw [DevBoundsReq.alignedSize, alignUp_wrapped hpow hwrap] at hsome
    exact absurd hsome (by decide)
  rw [← le_alignUp_iff hpow hpos, ← UInt32.le_iff_toNat_le]
  change (_ ≤ n ∨ _ ∧ 0 < n) ↔ _ ≤ req.alignedSize
  rcases clampToQuota_cases hn with rfl | ⟨hbest, hsome, hsize⟩
  · refine ⟨fun h => ?_, .inl⟩
    rcases h with h | ⟨-, h⟩
    · exact h
    · exact hup h
  · exact ⟨fun _ => hup hsize, fun _ => .inr ⟨hbest, hsome⟩⟩

/-- A grant is sufficient exactly when neither rounding wraps. -/
theorem grant_sufficient_iff {s s' : Pools} {fuel : Nat} {cid : UInt32}
    {req : DevBoundsReq} {resp : DevBoundsResp}
    (h : s.setDeviceBounds fuel cid req = .ok (resp, s')) :
    ∃ d, s'.getDeviceBounds cid req.devType = some d ∧
      d.baseOffset = resp.grantedOffset ∧ d.size = resp.grantedSize ∧
      d.rpcArenaOffset = resp.rpcArenaOffset ∧
      (Sufficient req d ↔ req.requestedSize.toNat + req.boundsAlign.toNat ≤ 2 ^ 32 ∧
          req.rpcArenaSize.toNat + 4095 < 2 ^ 32) := by
  simp only [Pools.setDeviceBounds, TenantPool.setDeviceBounds, guards, pure_ok] at h
  obtain ⟨-, hreq, ⟨i, p⟩, hget, ⟨_, p'⟩, ⟨a, ha, pl, -, j, hj, hp⟩, hr⟩ := h
  obtain ⟨rfl, rfl⟩ := Prod.mk.inj hp
  obtain ⟨rfl, rfl⟩ := Prod.mk.inj hr
  refine ⟨TenantPool.partition req a pl, ?_, rfl, rfl, rfl, ?_⟩
  · have hslot := TenantPool.existingSlot_grant (checkBounds_existing ha) hj pl
    have hdev : (p.grant req a pl j).devices j
        = some (TenantPool.partition req a pl) := update_self ..
    have hback := Pools.getTenant_setTenant hget (p.grant req a pl j) rfl
    simp only [Pools.getDeviceBounds, hback, Option.bind_eq_bind, Option.bind_some, hslot, hdev]
  · have harena : a.arenaSz = req.arenaSize := (checkBounds_ok ha).arena_eq
    rw [← reqSize_sufficient_iff ha hreq, ← arenaSize_sufficient_iff, ← harena]
    exact ⟨fun h => ⟨h.size, h.arena, h.arena_size⟩, fun h => ⟨h.1, h.2.1, h.2.2⟩⟩

/-- The Cavalry region of the sample, and its arena. -/
theorem grant_sufficient_sample : ∃ resp d, sampleRegistered.setDeviceBounds 2 3 sampleBounds
        = .ok (resp, sampleGranted) ∧
      sampleGranted.getDeviceBounds 3 DEV_TYPE_CAVALRY = some d ∧
      Sufficient sampleBounds d := by
  obtain ⟨resp, hok, -⟩ := Pools.exists_after (s := sampleRegistered)
    (x := sampleRegistered.setDeviceBounds 2 3 sampleBounds)
    (q := fun _ => True) (by decide)
  obtain ⟨d, hd, -, -, -, hiff⟩ := grant_sufficient_iff hok
  exact ⟨resp, d, hok, hd, hiff.mpr (by decide)⟩

/-- A request for all but the last byte of 4 GiB, with an arena of as much. -/
def hugeBounds : DevBoundsReq where
  devType := DEV_TYPE_GDMA
  requestedSize := 0xFFFFFFFF
  preferredOffset := OFFSET_AUTO
  rpcArenaSize := 0xFFFFFFFF
  align := 4096
  flags := 0

/-- It is granted, and has neither a region nor an arena. -/
theorem grant_of_nothing : ∃ resp s' d, sampleRegistered.setDeviceBounds 2 3 hugeBounds
        = .ok (resp, s') ∧ resp.status = none ∧
      s'.getDeviceBounds 3 DEV_TYPE_GDMA = some d ∧
      d.size = 0 ∧ d.rpcArenaSize = 0 ∧ ¬ Sufficient hugeBounds d := by
  obtain ⟨resp, hok, hstatus⟩ := Pools.exists_after (s := sampleRegistered)
    (x := sampleRegistered.setDeviceBounds 2 3 hugeBounds)
    (q := fun r => r.status = none) (by decide)
  have hbounds : ((sampleRegistered.after
      (sampleRegistered.setDeviceBounds 2 3 hugeBounds)).getDeviceBounds 3
        DEV_TYPE_GDMA).map (fun d => (d.size, d.rpcArenaSize)) = some (0, 0) := by
    decide
  obtain ⟨d, hd, he⟩ := Option.map_eq_some_iff.mp hbounds
  obtain ⟨hsize, harena⟩ := Prod.mk.inj he
  refine ⟨resp, _, d, hok, hstatus, hd, hsize, harena, fun h => ?_⟩
  have hzero := h.arena_size
  rw [harena] at hzero
  exact absurd hzero (by decide)

-- ==== suggestions

/-- The request with another preferred offset. -/
def DevBoundsReq.at (req : DevBoundsReq) (c : UInt32) : DevBoundsReq :=
  { req with preferredOffset := c }

/-- The checks of a request do not depend on where it wants to be, apart
from the two of the preferred offset. -/
theorem checkBounds_at (h : p.checkBounds req = .ok a)
    (hauto : c ≠ OFFSET_AUTO) (hc : c % a.align = 0) (a' : Admitted) :
    p.checkBounds (req.at c) = .ok a' ↔ a' = a ∧
      c.toNat + req.alignedSize.toNat ≤ p.barSize.toNat := by
  have hend : ¬ (c.toUInt64 + req.alignedSize.toUInt64 > p.barSize.toUInt64) ↔
      c.toNat + req.alignedSize.toNat ≤ p.barSize.toNat := by
    rw [gt_iff_lt, UInt64.lt_iff_toNat_lt, toNat_add_widened, UInt32.toNat_toUInt64, Nat.not_lt]
  simp only [TenantPool.checkBounds, guards, pure_ok] at h ⊢
  obtain ⟨halign, hbar, -, -, hbusy, n, hn, rfl⟩ := h
  constructor
  · rintro ⟨-, -, -, hfit, -, n', hn', rfl⟩
    rw [not_and] at hfit
    obtain rfl : n = n' := Except.ok.inj (hn.symm.trans hn')
    exact ⟨rfl, hend.mp (hfit hauto)⟩
  · rintro ⟨rfl, hfit⟩
    exact ⟨halign, hbar, fun hno => hno.2 hc, fun hno => hend.mpr hfit hno.2, hbusy, n, hn, rfl⟩

theorem clampToQuota_error {align size arenaSz avail : UInt32} {e : Option DevBoundsResp}
    (h : TenantPool.clampToQuota req align size arenaSz avail = .error e) :
    e = refusal .ENOMEM .QUOTA_EXCEEDED avail := by
  unfold TenantPool.clampToQuota at h
  split at h
  · dsimp only at h
    split at h
    · cases h
    · exact (Except.error.inj h).symm
  · cases h

variable {resp : DevBoundsResp} {d : DevPartition}

theorem checkBounds_no_collision (h : p.checkBounds req = .error (some resp)) :
    resp.errCode ≠ .OFFSET_COLLISION := by
  simp only [TenantPool.checkBounds, bind_error, refuseIf_error, refuseIf_ok,
    exists_unit, pure_error, and_false, exists_false, or_false, refusal,
    Option.some.injEq] at h
  rcases h with ⟨-, rfl⟩ | ⟨-, ⟨-, rfl⟩ | ⟨-, ⟨-, rfl⟩ | ⟨-, ⟨-, rfl⟩ | ⟨-, ⟨-, rfl⟩ | ⟨-, h⟩⟩⟩⟩⟩
  case inr.inr.inr.inr.inr =>
    cases clampToQuota_error h
    exact DevErr.noConfusion
  all_goals exact DevErr.noConfusion

theorem place_collision (h : p.place fuel req a = .error (some resp))
    (hcode : resp.errCode = .OFFSET_COLLISION) :
    ∃ d o, p.suggest fuel a d = some o ∧ resp.suggestedOffset = o.getD 0 := by
  unfold TenantPool.place at h
  split at h
  · simp only [TenantPool.placePreferred, bind_error, refuseIf_error,
      refuseIf_ok, exists_unit, refusal, Option.some.injEq] at h
    rcases h with ⟨-, rfl⟩ | ⟨-, h⟩
    · cases hcode
    split at h
    · cases h
    · rename_i d _
      obtain ⟨o, ho, rfl⟩ := Option.map_eq_some_iff.mp (Except.error.inj h)
      exact ⟨d, o, ho, rfl⟩
  · unfold TenantPool.placeAuto at h
    split at h
    · cases h
    · cases h
      cases hcode
    · cases h

/-- Only a placement at the preferred offset answers with a collision. -/
theorem collision_origin {s : Pools} {cid : UInt32}
    (h : s.setDeviceBounds fuel cid req = .error (some resp))
    (hcode : resp.errCode = .OFFSET_COLLISION) :
    ¬ (req.devType = DEV_TYPE_NONE ∨ req.devType ≥ MAX_DEV_TYPES) ∧ req.requestedSize ≠ 0 ∧
      ∃ i p a d o, s.getTenant cid = some (i, p) ∧
        p.checkBounds req = .ok a ∧ p.suggest fuel a d = some o ∧
        resp.suggestedOffset = o.getD 0 := by
  simp only [Pools.setDeviceBounds, TenantPool.setDeviceBounds, bind_error,
    refuseIf_error, refuseIf_ok, require_error, require_ok, exists_unit,
    pure_error, and_false, exists_false, or_false, refusal,
    Option.some.injEq] at h
  rcases h with ⟨-, rfl⟩ | ⟨hdev, ⟨-, rfl⟩ | ⟨hreq, ⟨-, rfl⟩ |
    ⟨⟨i, p⟩, hget, h | ⟨a, ha, h | ⟨pl, -, -, rfl⟩⟩⟩⟩⟩
  · cases hcode
  · cases hcode
  · cases hcode
  · exact absurd hcode (checkBounds_no_collision h)
  · obtain ⟨d, o, ho, hresp⟩ := place_collision h hcode
    exact ⟨hdev, hreq, i, p, a, d, o, hget, ha, ho, hresp⟩
  · cases hcode

namespace TenantPool

/-- What the repeated request needs at a suggested offset. -/
structure Works (p : TenantPool) (req : DevBoundsReq) (a : Admitted)
    (c : UInt32) : Prop where
  /-- The whole size asked for fits behind the offset. -/
  fits : c.toNat + req.alignedSize.toNat ≤ p.barSize.toNat
  /-- The scan has tested the range of the placement, or nothing is
  there. -/
  clear : c.toNat + (a.reqSize.toNat + a.arenaSz.toNat) < 2 ^ 32 ∨
    ∀ ⦃k d⦄, some k ≠ a.existing → p.devices k = some d → ¬ d.Hits c (c + a.reqSize)
  slot : (p.targetSlot a).isSome

end TenantPool

theorem DevPartition.Hits.mono {s s' e e' : UInt32}
    (h : d.Hits s e) (hs : s' ≤ s) (he : e ≤ e') : d.Hits s' e' := by
  have hover : ∀ {t f : UInt32}, rangesOverlap s e t f →
      rangesOverlap s' e' t f := fun h =>
    ⟨UInt32.lt_of_le_of_lt hs h.1, UInt32.lt_of_lt_of_le h.2 he⟩
  rcases h with h | ⟨hz, h⟩
  · exact .inl (hover h)
  · exact .inr ⟨hz, hover h⟩

namespace TenantPool

theorem firstHit_eq_none_iff {excl : Option (Fin 8)} {hits : DevPartition → Bool} :
    p.firstHit excl hits = none ↔
      ∀ ⦃j d⦄, some j ≠ excl → p.devices j = some d → hits d = false := by
  refine ⟨fun h j d hj hd => p.firstHit_none h hj hd, fun h => ?_⟩
  refine Fin.findSome?_eq_none_iff.mpr fun j => ?_
  split
  · rfl
  rename_i hj
  rw [Option.filter_eq_none_iff]
  intro d hd
  rw [h hj hd]
  exact Bool.false_ne_true

/-- What the scan has tested at the offset it suggests. -/
theorem suggest_found (ha : IsPow2 a.align) (h : p.suggest fuel a d = some (some c)) :
    c + (a.reqSize + a.arenaSz) ≤ p.barSize ∧ (∀ ⦃j d⦄, some j ≠ a.existing → p.devices j = some d →
        ¬ d.Hits c (c + (a.reqSize + a.arenaSz))) ∧
      a.align.toNat ∣ c.toNat := by
  obtain ⟨hfit, hfree, horigin⟩ := firstFit_found h
  refine ⟨hfit, fun j d hj hd => ?_, ?_⟩
  · exact of_decide_eq_false (p.firstHit_none (Option.map_eq_none_iff.mp hfree) hj hd)
  rcases horigin with rfl | ⟨c', hc'⟩
  · exact alignMask_dvd ha _
  · obtain ⟨k, -, rfl⟩ := Option.map_eq_some_iff.mp hc'
    exact alignMask_dvd ha _

/-- At a suggested offset behind which the whole size fits, the placement
succeeds exactly when its region meets no device. -/
theorem placePreferred_suggested (hle : a.reqSize.toNat ≤ req.alignedSize.toNat)
    (hfit : c + (a.reqSize + a.arenaSz) ≤ p.barSize)
    (hfree : ∀ ⦃j d⦄, some j ≠ a.existing → p.devices j = some d →
      ¬ d.Hits c (c + (a.reqSize + a.arenaSz)))
    (hroom : c.toNat + req.alignedSize.toNat ≤ p.barSize.toNat) (fuel : Nat) :
    (∃ pl, p.placePreferred fuel c a = .ok pl) ↔
      c.toNat + (a.reqSize.toNat + a.arenaSz.toNat) < 2 ^ 32 ∨
        ∀ ⦃k d⦄, some k ≠ a.existing → p.devices k = some d → ¬ d.Hits c (c + a.reqSize) := by
  have hbar := p.barSize.toNat_lt
  have hend : (c + a.reqSize).toNat = c.toNat + a.reqSize.toNat :=
    toNat_add_lt (by omega)
  have hends : ¬ (a.arenaEnd (a.preferred c) > p.barSize ∨
      a.devEnd (a.preferred c) > p.barSize) := by
    rw [not_or, gt_iff_lt, gt_iff_lt, UInt32.not_lt, UInt32.not_lt]
    constructor
    · unfold Admitted.arenaEnd Admitted.preferred
      split
      · rw [UInt32.add_assoc]
        exact hfit
      · exact UInt32.le_iff_toNat_le.mpr (Nat.zero_le _)
    · rw [UInt32.le_iff_toNat_le]
      change (c + a.reqSize).toNat ≤ _
      omega
  -- The arena is behind the region, where the scan has tested everything.
  have hcollides : ∀ ⦃j d⦄, some j ≠ a.existing → p.devices j = some d →
      (a.Collides (a.preferred c) d ↔ d.Hits c (c + a.reqSize)) := by
    intro j d hj hd
    refine ⟨fun h => ?_, .inl⟩
    rcases h with h | ⟨hz, h⟩
    · exact h
    refine absurd (h.mono ?_ ?_) (hfree hj hd)
    · rw [Admitted.preferred, if_pos hz, UInt32.le_iff_toNat_le, hend]
      exact Nat.le_add_right _ _
    · rw [Admitted.arenaEnd, if_pos hz, Admitted.preferred, if_pos hz, UInt32.add_assoc]
      exact UInt32.le_refl _
  have hplace : (∃ pl, p.placePreferred fuel c a = .ok pl) ↔
      ∀ ⦃k d⦄, some k ≠ a.existing → p.devices k = some d → ¬ d.Hits c (c + a.reqSize) := by
    simp only [placePreferred, guards]
    constructor
    · rintro ⟨pl, -, h⟩ k d hk hd
      split at h
      · rename_i hnone
        rw [← hcollides hk hd]
        exact of_decide_eq_false (p.firstHit_none hnone hk hd)
      · cases h
    · intro h
      refine ⟨a.preferred c, hends, ?_⟩
      rw [firstHit_eq_none_iff.mpr fun k d hk hd =>
        decide_eq_false fun hc => h hk hd ((hcollides hk hd).mp hc)]
  rw [hplace]
  refine ⟨.inr, fun h => ?_⟩
  rcases h with hexact | h
  · intro k d hk hd hit
    have hspan : (a.reqSize + a.arenaSz).toNat
        = a.reqSize.toNat + a.arenaSz.toNat := toNat_add_lt (by omega)
    refine hfree hk hd (hit.mono (UInt32.le_refl _) ?_)
    rw [UInt32.le_iff_toNat_le, hend, toNat_add_lt (by omega), hspan]
    omega
  · exact h

end TenantPool

theorem checkBounds_size (h : p.checkBounds req = .ok a) :
    a.reqSize.toNat ≤ req.alignedSize.toNat := by
  simp only [TenantPool.checkBounds, guards, pure_ok] at h
  obtain ⟨halign, -, -, -, -, n, hn, rfl⟩ := h
  have hpow := (isPow2_of_check halign).1
  exact (clampToQuota_ok hpow (alignMask_dvd hpow _) hn).2

/-- No page starts at the last byte. -/
theorem Checked.ne_auto (h : Checked p req a) (hc : a.align.toNat ∣ c.toNat) :
    c ≠ OFFSET_AUTO := by
  rintro rfl
  exact absurd (h.page_dvd.trans hc) (by decide)

/-- A suggested offset works for the repeated request exactly under
`Works`. -/
theorem suggestion_works_iff {s : Pools} {fuel : Nat} {cid : UInt32}
    {req : DevBoundsReq} {resp : DevBoundsResp}
    (h : s.setDeviceBounds fuel cid req = .error (some resp))
    (hcode : resp.errCode = .OFFSET_COLLISION)
    (hsome : resp.suggestedOffset ≠ 0) :
    ∃ i p a, s.getTenant cid = some (i, p) ∧ p.checkBounds req = .ok a ∧
      ((∃ fuel' r, s.setDeviceBounds fuel' cid (req.at resp.suggestedOffset)
          = .ok r) ↔ p.Works req a resp.suggestedOffset) := by
  obtain ⟨hdev, hreq, i, p, a, d, o, hget, ha, ho, hresp⟩ :=
    collision_origin h hcode
  refine ⟨i, p, a, hget, ha, ?_⟩
  obtain ⟨c, rfl⟩ : ∃ c, o = some c := by
    cases o with
    | none => exact absurd hresp hsome
    | some c => exact ⟨c, rfl⟩
  rw [Option.getD_some] at hresp
  rw [hresp]
  have hc := checkBounds_ok ha
  obtain ⟨hfit, hfree, hdvd⟩ := TenantPool.suggest_found hc.pow2 ho
  have hauto := hc.ne_auto hdvd
  have hmod : c % a.align = 0 := by
    rw [← UInt32.toNat_inj, UInt32.toNat_mod]
    exact Nat.mod_eq_zero_of_dvd hdvd
  have hat := checkBounds_at ha hauto hmod
  have hplace := TenantPool.placePreferred_suggested (checkBounds_size ha) hfit hfree
  have hpref : ∀ fuel, p.place fuel (req.at c) a = p.placePreferred fuel c a :=
    fun fuel => if_pos hauto
  simp only [Pools.setDeviceBounds, TenantPool.setDeviceBounds, guards, pure_ok, hget,
    Option.some.injEq]
  constructor
  · rintro ⟨fuel', r, -, -, t, rfl, x, ⟨a', ha', pl, hpl, j, hj, -⟩, -⟩
    obtain ⟨rfl, hroom⟩ := (hat a').mp ha'
    rw [hpref] at hpl
    refine ⟨hroom, (hplace hroom fuel').mp ⟨pl, hpl⟩, ?_⟩
    rw [hj]
    rfl
  · rintro ⟨hroom, hclear, hslot⟩
    obtain ⟨pl, hpl⟩ := (hplace hroom 0).mpr hclear
    obtain ⟨j, hj⟩ := Option.isSome_iff_exists.mp hslot
    refine ⟨0, _, hdev, hreq, (i, p), rfl, _,
      ⟨a, (hat a).mpr ⟨rfl, hroom⟩, pl, ?_, j, hj, rfl⟩, rfl⟩
    rw [hpref]
    exact hpl

/-- A page for the GDMA, where the Cavalry region of the sample is. -/
def crowdedBounds : DevBoundsReq where
  devType := DEV_TYPE_GDMA
  requestedSize := 4096
  preferredOffset := 0x200000
  rpcArenaSize := 0
  align := 0
  flags := 0

theorem suggestion_works_sample : ∃ resp p a, sampleGranted.setDeviceBounds 2 3 crowdedBounds
        = .error (some resp) ∧ resp.suggestedOffset = 0x1200000 ∧
      sampleGranted.getTenant 3 = some (0, p) ∧
      p.checkBounds crowdedBounds = .ok a ∧ p.Works crowdedBounds a 0x1200000 := by
  have hcollision : sampleGranted.setDeviceBounds 2 3 crowdedBounds = .error (some
        { status := some .EEXIST, errCode := .OFFSET_COLLISION,
          suggestedOffset := 0x1200000, collidingDev := DEV_TYPE_CAVALRY }) :=
    eq_error_of_errorOf (by decide)
  obtain ⟨i, p, a, hget, ha, hiff⟩ :=
    suggestion_works_iff hcollision rfl (by decide)
  obtain ⟨r, hok⟩ := exists_ok_of_toBool (x := sampleGranted.setDeviceBounds 2 3
    (crowdedBounds.at 0x1200000)) (by decide)
  have hslot : (sampleGranted.getTenant 3).map (·.1) = some 0 := by decide
  rw [hget] at hslot
  cases hslot
  exact ⟨_, p, a, hcollision, rfl, hget, ha, hiff.mp ⟨2, r, hok⟩⟩

/-- Cid 3 with a BAR of 256 KiB and a quota of half of it. -/
def tightRegistered : Pools :=
  ((Pools.init 0).registerTenant 3 0 0x40000 0x20000).1

/-- A device of 64 KiB at offset 0. -/
def tightFirst : DevBoundsReq where
  devType := 5
  requestedSize := 0x10000
  preferredOffset := 0
  rpcArenaSize := 0
  align := 0
  flags := 0

/-- Another of 224 KiB, or what is left, at the same offset. -/
def tightSecond : DevBoundsReq where
  devType := 6
  requestedSize := 0x38000
  preferredOffset := 0
  rpcArenaSize := 0
  align := 0
  flags := DEV_F_BEST_EFFORT

def tightGranted : Pools :=
  tightRegistered.after (tightRegistered.setDeviceBounds 1 3 tightFirst)

/-- The offset suggested is right for the 64 KiB that are left, and refused
for the 224 KiB of the request. -/
theorem suggestion_refused : ∃ s resp, poolSystem.Reachable s ∧
      s.setDeviceBounds 2 3 tightSecond = .error (some resp) ∧
      resp.errCode = .OFFSET_COLLISION ∧ resp.suggestedOffset = 0x10000 ∧
      ¬ ∃ fuel r, s.setDeviceBounds fuel 3 (tightSecond.at 0x10000) = .ok r := by
  have h₁ : poolSystem.Reachable tightRegistered :=
    .step (e := .register 3 0 0x40000 0x20000) (.init ⟨0, rfl⟩) (.register ..)
  obtain ⟨_, hok, -⟩ := Pools.exists_after (s := tightRegistered)
    (q := fun _ => True) (x := tightRegistered.setDeviceBounds 1 3 tightFirst)
    (by decide)
  refine ⟨tightGranted,
    { status := some .EEXIST, errCode := .OFFSET_COLLISION,
      suggestedOffset := 0x10000, collidingDev := 5 },
    .step (e := .setDeviceBounds 3 tightFirst) h₁ (.setDeviceBounds hok),
    eq_error_of_errorOf (by decide), rfl, rfl, ?_⟩
  rintro ⟨fuel, r, h⟩
  simp only [Pools.setDeviceBounds, TenantPool.setDeviceBounds, guards] at h
  obtain ⟨-, -, t, ht, -, ⟨a, ha, -⟩, -⟩ := h
  have hrefused : (tightGranted.getTenant 3).all (fun t =>
      !(t.2.checkBounds (tightSecond.at 0x10000)).toBool) = true := by
    decide
  rw [ht, Option.all_some, ha] at hrefused
  cases hrefused

end AmbaVirt.Pool
