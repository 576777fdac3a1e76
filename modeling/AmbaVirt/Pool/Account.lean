/-
What a tenant is charged for.

`allocated_bytes` is kept by adding and subtracting in 32 bits, with a
floor at zero. That it agrees with the sum of all that is granted needs
no bound of its own: a grant passes the quota, which has 32 bits, and
what is taken off is part of the sum.

`Follows` says of one call what it does to each entry: the tenant there
goes on and its books still balance, or the entry is a new one. The runs
carry beside each entry a list of the values its `allocated_bytes` has
had since it was registered.
-/
import AmbaVirt.Lib.Count
import AmbaVirt.Pool.Answers

namespace AmbaVirt.Pool

open Lib Function

-- ==== the books

def DevPartition.bytes (d : DevPartition) : Nat :=
  d.size.toNat + d.rpcArenaSize.toNat

namespace TenantPool

def held (p : TenantPool) : Nat :=
  ∑ k, (p.devices k).elim 0 DevPartition.bytes + ∑ k, (p.extents k).elim 0 fun e => e.size.toNat

def Balanced (p : TenantPool) : Prop := p.allocatedBytes.toNat = p.held

variable {p p' : TenantPool}

theorem held_setDevice (p : TenantPool) (i : Fin 8) (d : Option DevPartition)
    (hdev : p'.devices = update p.devices i d)
    (hext : p'.extents = p.extents) :
    p'.held + (p.devices i).elim 0 DevPartition.bytes = p.held + d.elim 0 DevPartition.bytes := by
  have hsum := sum_update (fun d : Option DevPartition =>
    d.elim 0 DevPartition.bytes) p.devices i d
  rw [held, held, hdev, hext]
  omega

theorem held_setExtent (p : TenantPool) (i : Fin 32) (e : Option Extent)
    (hdev : p'.devices = p.devices)
    (hext : p'.extents = update p.extents i e) :
    p'.held + (p.extents i).elim 0 (fun e => e.size.toNat)
      = p.held + e.elim 0 fun e => e.size.toNat := by
  have hsum := sum_update (fun e : Option Extent =>
    e.elim 0 fun e => e.size.toNat) p.extents i e
  rw [held, held, hdev, hext]
  omega

variable {i : Fin 8}

theorem Balanced.device_le (h : p.Balanced) {d : DevPartition}
    (hd : p.devices i = some d) : d.bytes ≤ p.allocatedBytes.toNat := by
  have hone := Finset.single_le_sum (f := fun k => (p.devices k).elim 0 DevPartition.bytes)
    (fun k _ => Nat.zero_le _) (Finset.mem_univ i)
  rw [hd, Option.elim_some] at hone
  rw [h, held]
  omega

theorem Balanced.device_toNat (h : p.Balanced) {d : DevPartition} (hd : p.devices i = some d) :
    (d.size + d.rpcArenaSize).toNat = d.bytes := by
  have hle := h.device_le hd
  have hlt := p.allocatedBytes.toNat_lt
  exact toNat_add_lt (lt_of_le_of_lt hle hlt)

-- ==== one call

/-- The tenant goes on: its books balance if they did, its mark does not
go down, and what it is charged goes down or is under the mark. -/
structure Follows (p p' : TenantPool) : Prop where
  cid : p'.cid = p.cid
  balanced : p.Balanced → p'.Balanced
  mark : p.highWaterMark ≤ p'.highWaterMark
  under : p.Balanced → p'.allocatedBytes ≤ p.allocatedBytes ∨ p'.allocatedBytes ≤ p'.highWaterMark

theorem Follows.refl (p : TenantPool) : p.Follows p :=
  ⟨rfl, id, UInt32.le_refl _, fun _ => .inl (UInt32.le_refl _)⟩

theorem Follows.of_discharge {b : UInt32} (hcid : p'.cid = p.cid)
    (halloc : p'.allocatedBytes = (p.discharge b).allocatedBytes)
    (hmark : p'.highWaterMark = p.highWaterMark)
    (hheld : p.Balanced → p'.held + b.toNat = p.held) : p.Follows p' := by
  refine ⟨hcid, fun h => ?_, hmark ▸ UInt32.le_refl _, fun _ => .inl ?_⟩
  · have hsum := hheld h
    rw [Balanced] at h ⊢
    have hle : p.allocatedBytes ≥ b := by
      rw [ge_iff_le, UInt32.le_iff_toNat_le]
      omega
    rw [halloc, discharge, if_pos hle, UInt32.toNat_sub_of_le _ _ hle]
    omega
  · rw [halloc, discharge]
    split
    · rename_i h
      rw [UInt32.le_iff_toNat_le, UInt32.toNat_sub_of_le _ _ h]
      exact Nat.sub_le _ _
    · exact UInt32.le_iff_toNat_le.mpr (Nat.zero_le _)

theorem Follows.of_charge {b : UInt32} (hcid : p'.cid = p.cid) (halloc : p'.allocatedBytes = b)
    (hmark : p'.highWaterMark = (p.charge b).highWaterMark)
    (hheld : p.Balanced → b.toNat = p'.held) : p.Follows p' := by
  have hle : p.highWaterMark ≤ (p.charge b).highWaterMark ∧ b ≤ (p.charge b).highWaterMark := by
    unfold charge
    split
    · rename_i h
      exact ⟨UInt32.le_of_lt h, UInt32.le_refl _⟩
    · rename_i h
      exact ⟨UInt32.le_refl _, UInt32.not_lt.mp h⟩
  rw [← hmark] at hle
  refine ⟨hcid, fun h => ?_, hle.1, fun _ => .inr (halloc ▸ hle.2)⟩
  rw [Balanced, halloc]
  exact hheld h

theorem Balanced.allocatedExcl_toNat (h : p.Balanced) (existing : Option (Fin 8)) :
    (p.allocatedExcl existing).toNat + (existing.bind p.devices).elim 0
      DevPartition.bytes = p.allocatedBytes.toNat := by
  unfold allocatedExcl
  cases hd : existing.bind p.devices with
  | none => rfl
  | some d =>
    obtain ⟨i, -, hi⟩ := Option.bind_eq_some_iff.mp hd
    have hle := h.device_le hi
    have hge : p.allocatedBytes ≥ d.size + d.rpcArenaSize := by
      rw [ge_iff_le, UInt32.le_iff_toNat_le, h.device_toNat hi]
      exact hle
    dsimp only [Option.elim_some]
    rw [if_pos hge, UInt32.toNat_sub_of_le _ _ hge, h.device_toNat hi]
    omega

variable {req : DevBoundsReq}

theorem clampToQuota_le {align size arenaSz avail n : UInt32}
    (hp : IsPow2 align) (h : clampToQuota req align size arenaSz avail = .ok n) :
    n.toNat + arenaSz.toNat ≤ avail.toNat := by
  unfold clampToQuota at h
  split at h
  · dsimp only at h
    split at h
    · rename_i hcl
      cases h
      have hle := alignMask_le hp (avail - arenaSz)
      have hroom := hcl.2.2.2.1
      rw [gt_iff_lt, UInt32.lt_iff_toNat_lt] at hroom
      rw [UInt32.toNat_sub_of_le _ _ (UInt32.le_iff_toNat_le.mpr hroom.le)] at hle
      omega
    · cases h
  · rename_i hfits
    cases h
    rw [gt_iff_lt, UInt64.lt_iff_toNat_lt, toNat_add_widened, UInt32.toNat_toUInt64] at hfits
    exact Nat.not_lt.mp hfits

variable {a : Admitted}

/-- The size admitted and its arena fit the quota that is left. -/
theorem checkBounds_quota (h : p.checkBounds req = .ok a) :
    a.allocatedExcl = p.allocatedExcl a.existing ∧ (a.reqSize.toNat + a.arenaSz.toNat = 0 ∨
        a.allocatedExcl.toNat + (a.reqSize.toNat + a.arenaSz.toNat) ≤ p.quotaMax.toNat) := by
  simp only [checkBounds, guards, pure_ok] at h
  obtain ⟨halign, -, -, -, -, n, hn, rfl⟩ := h
  have hle := clampToQuota_le (isPow2_of_check halign).1 hn
  refine ⟨rfl, ?_⟩
  dsimp only
  split at hle
  · rename_i hgt
    rw [gt_iff_lt, UInt32.lt_iff_toNat_lt] at hgt
    rw [UInt32.toNat_sub_of_le _ _ (UInt32.le_iff_toNat_le.mpr hgt.le)] at hle
    exact .inr (by omega)
  · exact .inl (Nat.le_zero.mp hle)

theorem charge_toNat (ha : p.checkBounds req = .ok a) :
    (a.allocatedExcl + a.reqSize + a.arenaSz).toNat
      = a.allocatedExcl.toNat + (a.reqSize.toNat + a.arenaSz.toNat) := by
  have hlt := p.quotaMax.toNat_lt
  have hlt' := a.allocatedExcl.toNat_lt
  have hroom := (checkBounds_quota ha).2
  rw [UInt32.toNat_add, UInt32.toNat_add]
  omega

theorem targetSlot_devices (h : p.targetSlot a = some i) :
    p.devices i = a.existing.bind p.devices := by
  unfold targetSlot at h
  cases he : a.existing with
  | some j =>
    rw [he, Option.some_or] at h
    cases h
    rfl
  | none =>
    rw [he, Option.none_or] at h
    exact Option.isNone_iff_eq_none.mp (Fin.find?_eq_some_iff.mp h).1

variable {fuel : Nat}

theorem Follows.setDeviceBounds {resp : DevBoundsResp}
    (h : p.setDeviceBounds fuel req = .ok (resp, p')) : p.Follows p' := by
  simp only [TenantPool.setDeviceBounds, guards, pure_ok] at h
  obtain ⟨a, ha, pl, -, i, hi, hr⟩ := h
  obtain ⟨-, rfl⟩ := Prod.mk.inj hr
  refine .of_charge (b := a.allocatedExcl + a.reqSize + a.arenaSz) rfl rfl rfl fun hbal => ?_
  have hheld : (p.grant req a pl i).held + _ = _ := held_setDevice p i
    (some (partition req a pl)) rfl rfl
  have hold := hbal.allocatedExcl_toNat a.existing
  have hnew : (partition req a pl).bytes = a.reqSize.toNat + a.arenaSz.toNat := rfl
  rw [charge_toNat ha, (checkBounds_quota ha).1]
  rw [targetSlot_devices hi, Option.elim_some, hnew] at hheld
  rw [Balanced] at hbal
  omega

theorem Follows.releaseDeviceBounds {devType : UInt32}
    (h : p.releaseDeviceBounds devType = some p') : p.Follows p' := by
  simp only [TenantPool.releaseDeviceBounds, Option.bind_eq_bind,
    Option.bind_eq_some_iff, Option.pure_def, Option.some.injEq] at h
  obtain ⟨i, -, d, hd, hp⟩ := h
  have hdev : p'.devices = update p.devices i none := by
    rw [← hp]
  have hext : p'.extents = p.extents := by
    rw [← hp]
    rfl
  refine .of_discharge (b := d.size + d.rpcArenaSize) ?_ ?_ ?_ fun hbal => ?_
  · rw [← hp]
    rfl
  · rw [← hp]
  · rw [← hp]
    rfl
  have hheld := held_setDevice p i none hdev hext
  rw [hd, Option.elim_some, Option.elim_none, Nat.add_zero] at hheld
  rw [hbal.device_toNat hd]
  exact hheld

theorem free_toNat (p : TenantPool) : p.free.toNat = p.quotaMax.toNat - p.allocatedBytes.toNat := by
  unfold free
  split
  · rename_i h
    exact UInt32.toNat_sub_of_le _ _ (UInt32.le_of_lt h)
  rename_i h
  rw [gt_iff_lt, UInt32.lt_iff_toNat_lt] at h
  change 0 = _
  omega

/-- An extent passes the quota in one comparison. -/
theorem allocExtent_quota {req : MemReq} {physBase : UInt64}
    {r : MemResp × TenantPool} (h : p.allocExtent fuel req physBase = .ok r) :
    ∃ i c, p.extents i = none ∧ r.2 = p.addExtent req i c ∧
      p.allocatedBytes.toNat + req.allocSize.toNat ≤ p.quotaMax.toNat := by
  simp only [TenantPool.allocExtent, guards, pure_ok] at h
  obtain ⟨-, hsize, -, hroom, i, hi, found, -, c, -, rfl⟩ := h
  refine ⟨i, c, ?_, rfl, ?_⟩
  · exact Option.isNone_iff_eq_none.mp (Fin.find?_eq_some_iff.mp hi).1
  · rw [gt_iff_lt, UInt32.lt_iff_toNat_lt, p.free_toNat] at hroom
    have hpos : req.allocSize.toNat ≠ 0 := fun hz => hsize (UInt32.toNat_inj.mp hz)
    omega

theorem Follows.allocExtent {req : MemReq} {physBase : UInt64} {resp : MemResp}
    (h : p.allocExtent fuel req physBase = .ok (resp, p')) :
    p.Follows p' := by
  obtain ⟨i, c, hi, rfl, hroom⟩ := allocExtent_quota h
  have hlt := p.quotaMax.toNat_lt
  refine .of_charge (b := p.allocatedBytes + req.allocSize) rfl rfl rfl fun hbal => ?_
  have hheld : (p.addExtent req i c).held + _ = _ := held_setExtent p i
    (some ⟨c, req.allocSize, req.devAffinity, req.flags, req.extentAlign⟩) rfl rfl
  rw [hi, Option.elim_none, Option.elim_some] at hheld
  dsimp only at hheld
  rw [toNat_add_lt (by omega)]
  rw [Balanced] at hbal
  omega

theorem Follows.freeExtent {barOffset : UInt32}
    (h : (p.freeExtent barOffset).1 = p') : p.Follows p' := by
  unfold TenantPool.freeExtent at h
  split at h
  · rename_i i e hfound
    obtain ⟨j, hj⟩ := Fin.exists_eq_some_of_findSome?_eq_some hfound
    obtain ⟨e', he, hpair⟩ := Option.map_eq_some_iff.mp hj
    obtain ⟨rfl, rfl⟩ := Prod.mk.inj hpair
    have hi := (Option.filter_eq_some_iff.mp he).1
    have hdev : p'.devices = p.devices := by
      rw [← h]
      rfl
    have hext : p'.extents = update p.extents j none := by
      rw [← h]
    refine .of_discharge (b := e'.size) ?_ ?_ ?_ fun _ => ?_
    · rw [← h]
      rfl
    · rw [← h]
    · rw [← h]
      rfl
    · have hheld := held_setExtent p j none hdev hext
      rw [hi, Option.elim_some, Option.elim_none, Nat.add_zero] at hheld
      exact hheld
  · rw [← h]
    exact .refl p

theorem Follows.of_same (hcid : p'.cid = p.cid) (hdev : p'.devices = p.devices)
    (hext : p'.extents = p.extents)
    (halloc : p'.allocatedBytes = p.allocatedBytes)
    (hmark : p'.highWaterMark = p.highWaterMark) : p.Follows p' := by
  refine ⟨hcid, fun h => ?_, hmark ▸ UInt32.le_refl _, fun _ => .inl (halloc ▸ UInt32.le_refl _)⟩
  rw [Balanced, held, halloc, hdev, hext]
  exact h

/-- The body of a call. -/
theorem Body.follows {op : PoolOp} (h : p.Body op p') : p.Follows p' := by
  cases h with
  | setQuota _ => exact .of_same rfl rfl rfl rfl rfl
  | setDeviceBounds hok => exact .setDeviceBounds hok
  | releaseDeviceBounds hrel => exact .releaseDeviceBounds hrel
  | allocExtent hok => exact .allocExtent hok
  | freeExtent cid barOffset => exact .freeExtent rfl
  | _ => exact .refl p

/-- The entry of a tenant that has just been registered. -/
structure Fresh (p : TenantPool) : Prop where
  devices : ∀ k, p.devices k = none
  extents : ∀ k, p.extents k = none
  allocated : p.allocatedBytes = 0

theorem Fresh.balanced (h : p.Fresh) : p.Balanced := by
  simp only [Balanced, held, h.devices, h.extents, h.allocated,
    Option.elim_none, Finset.sum_const_zero]
  rfl

end TenantPool

namespace Pools

variable {s s' : Pools}

/-- What a call does to the entries: each has its tenant still, or it has
a new one. -/
def Follows (s s' : Pools) : Prop :=
  ∀ ⦃i p'⦄, s'.tenants i = some p' → (∃ p, s.tenants i = some p ∧ p.Follows p') ∨
      p'.Fresh ∧ ∀ p, s.tenants i = some p → p.cid ≠ p'.cid

theorem Follows.of_sub (h : ∀ i p, s'.tenants i = some p → s.tenants i = some p) : s.Follows s' :=
  fun i p hp => .inl ⟨p, h i p hp, .refl p⟩

theorem Follows.setTenant {t : Pools} (h : s.Follows t) {i : Fin 8} {p' : TenantPool}
    (hp : (∃ p, s.tenants i = some p ∧ p.Follows p') ∨
      p'.Fresh ∧ ∀ p, s.tenants i = some p → p.cid ≠ p'.cid) :
    s.Follows (t.setTenant i (some p')) := by
  intro j q hq
  rcases setTenant_cases hq with ⟨rfl, hwritten⟩ | ⟨-, hq⟩
  · cases hwritten
    exact hp
  · exact h hq

theorem Follows.refl (s : Pools) : s.Follows s := .of_sub fun _ _ h => h

theorem Follows.registerTenant (s : Pools) (cid idx bar quota : UInt32) :
    s.Follows (s.registerTenant cid idx bar quota).1 := by
  have hsub : ∀ i p, (s.reclaim cid idx).tenants i = some p →
      s.tenants i = some p := fun i p hp => reclaim_sub hp
  unfold Pools.registerTenant
  dsimp only
  split
  · rename_i i p hget
    refine (Follows.of_sub hsub).setTenant (.inl ⟨p, ?_, ?_⟩)
    · exact hsub i p (getTenant_some hget)
    · exact .of_same rfl rfl rfl rfl rfl
  · split
    · rename_i i hfree
      refine (Follows.of_sub hsub).setTenant (.inr ⟨⟨fun _ => rfl, fun _ => rfl,
        rfl⟩, fun p hp hcid => ?_⟩)
      -- The entry would have been kept, and found.
      have hempty : (s.reclaim cid idx).tenants i = none :=
        Option.isNone_iff_eq_none.mp (Fin.find?_eq_some_iff.mp hfree).1
      have hkept : (s.reclaim cid idx).tenants i = some p :=
        Option.filter_eq_some_iff.mpr ⟨hp, decide_eq_true fun hno => hno.1 hcid⟩
      rw [hempty] at hkept
      cases hkept
    · exact .of_sub hsub

theorem Step.follows {op : PoolOp} (h : s.Step op s') : s.Follows s' := by
  rcases h.inv with ⟨cid, idx, bar, quota, -, rfl⟩ | ⟨cid, -, rfl⟩ | rfl |
    ⟨i, p, p', hget, hbody, rfl⟩
  · exact .registerTenant s cid idx bar quota
  · exact .of_sub fun _ _ hq => unregisterTenant_sub hq
  · exact .refl s'
  · exact (Follows.refl s).setTenant (.inl ⟨p, getTenant_some hget, hbody.follows⟩)

end Pools

-- ==== the quota

/-- A call that grants bytes to a tenant leaves it within its quota. -/
structure Pools.GrantsWithin (s : Pools) : Prop where
  bounds : ∀ ⦃fuel cid req resp s' i p'⦄, s.setDeviceBounds fuel cid req = .ok (resp, s') →
    s'.getTenant cid = some (i, p') →
    resp.grantedSize.toNat + req.arenaSize.toNat = 0 ∨ p'.allocatedBytes ≤ p'.quotaMax
  extent : ∀ ⦃fuel cid req physBase resp s' i p'⦄,
    s.allocExtent fuel cid req physBase = .ok (resp, s') →
    s'.getTenant cid = some (i, p') → p'.allocatedBytes ≤ p'.quotaMax

theorem Pools.grantsWithin (s : Pools) : s.GrantsWithin where
  bounds := by
    intro fuel cid req resp s' i p' hok hget'
    simp only [Pools.setDeviceBounds, TenantPool.setDeviceBounds, guards, pure_ok] at hok
    obtain ⟨-, -, ⟨j, p⟩, hget, x, ⟨a, ha, pl, -, k, -, rfl⟩, hr⟩ := hok
    obtain ⟨rfl, rfl⟩ := Prod.mk.inj hr
    have hback := getTenant_setTenant hget (p.grant req a pl k) rfl
    obtain ⟨rfl, rfl⟩ := Prod.mk.inj (Option.some.inj (hback.symm.trans hget'))
    rw [← (checkBounds_ok ha).arena_eq]
    rcases (TenantPool.checkBounds_quota ha).2 with hzero | hle
    · exact .inl hzero
    refine .inr ?_
    change (a.allocatedExcl + a.reqSize + a.arenaSz).toNat ≤ _
    rw [TenantPool.charge_toNat ha]
    exact hle
  extent := by
    intro fuel cid req physBase resp s' i p' hok hget'
    simp only [Pools.allocExtent, guards, pure_ok] at hok
    obtain ⟨⟨j, p⟩, hget, ⟨_, q⟩, hok, hr⟩ := hok
    obtain ⟨-, rfl⟩ := Prod.mk.inj hr
    obtain ⟨k, c, -, rfl, hle⟩ := TenantPool.allocExtent_quota hok
    have hback := getTenant_setTenant hget (p.addExtent req k c) rfl
    obtain ⟨rfl, rfl⟩ := Prod.mk.inj (Option.some.inj (hback.symm.trans hget'))
    have hlt := p.quotaMax.toNat_lt
    dsimp only at hle
    rw [UInt32.le_iff_toNat_le]
    change (p.allocatedBytes + req.allocSize).toNat ≤ _
    rw [toNat_add_lt (by omega)]
    exact hle

-- ==== the runs

/-- The pools, and the values `allocated_bytes` of each entry has had since
its tenant was registered, newest first. -/
structure Watched where
  pools : Pools
  taken : Fin 8 → List UInt32

/-- The values after a call that leaves the pools as `s'`. -/
def Watched.note (w : Watched) (s' : Pools) (i : Fin 8) : List UInt32 :=
  match s'.tenants i with
  | none => []
  | some p' =>
    p'.allocatedBytes ::
      if (w.pools.tenants i).any (·.cid == p'.cid) then w.taken i else []

def watchedSystem : System Watched PoolOp where
  init w := poolSystem.init w.pools ∧ w.taken = fun _ => []
  step w op w' := poolSystem.step w.pools op w'.pools ∧ w'.taken = w.note w'.pools

/-- The books of a tenant balance, and the mark is over all they showed. -/
structure TenantPool.Kept (p : TenantPool) (taken : List UInt32) : Prop where
  balanced : p.Balanced
  marked : p.allocatedBytes ≤ p.highWaterMark
  taken : ∀ b ∈ taken, b ≤ p.highWaterMark

theorem TenantPool.Kept.follows {p p' : TenantPool} {taken : List UInt32}
    (h : p.Kept taken) (hf : p.Follows p') :
    p'.Kept (p'.allocatedBytes :: taken) := by
  have hmarked : p'.allocatedBytes ≤ p'.highWaterMark := by
    rcases hf.under h.balanced with hle | hle
    · exact UInt32.le_trans hle (UInt32.le_trans h.marked hf.mark)
    · exact hle
  refine ⟨hf.balanced h.balanced, hmarked, fun b hb => ?_⟩
  rcases List.mem_cons.mp hb with rfl | hb
  · exact hmarked
  · exact UInt32.le_trans (h.taken b hb) hf.mark

theorem TenantPool.Fresh.kept {p : TenantPool} (h : p.Fresh) : p.Kept [p.allocatedBytes] := by
  have hle : p.allocatedBytes ≤ p.highWaterMark := by
    rw [h.allocated]
    exact UInt32.le_iff_toNat_le.mpr (Nat.zero_le _)
  exact ⟨h.balanced, hle, fun b hb => List.mem_singleton.mp hb ▸ hle⟩

theorem kept_of_reachable {w : Watched} (h : watchedSystem.Reachable w) :
    ∀ ⦃i p⦄, w.pools.tenants i = some p → p.Kept (w.taken i) := by
  refine h.induct (I := fun w => ∀ ⦃i p⦄, w.pools.tenants i = some p → p.Kept (w.taken i)) ?_ ?_
  · rintro w ⟨⟨bar, hinit⟩, -⟩ i p hp
    rw [hinit] at hp
    cases hp
  rintro w op w' - ih ⟨hstep, htaken⟩ i p' hp'
  rw [htaken, Watched.note, hp']
  dsimp only
  rcases Pools.Step.follows hstep hp' with ⟨p, hp, hf⟩ | ⟨hfresh, hother⟩
  · rw [hp, Option.any_some, hf.cid, beq_self_eq_true, if_pos rfl]
    exact (ih hp).follows hf
  rw [if_neg]
  · exact hfresh.kept
  · rw [Option.any_eq_true]
    rintro ⟨p, hp, hcid⟩
    exact hother p hp (beq_iff_eq.mp hcid)

/-- In every run of calls the books balance, the mark is over every value
since registration, and no grant goes over the quota. -/
theorem pool_accounting {w : Watched} (h : watchedSystem.Reachable w) :
    (∀ ⦃i p⦄, w.pools.tenants i = some p → p.allocatedBytes.toNat = p.held ∧
        ∀ b ∈ w.taken i, b ≤ p.highWaterMark) ∧
      w.pools.GrantsWithin := by
  refine ⟨fun i p hp => ?_, w.pools.grantsWithin⟩
  have hkept := kept_of_reachable h hp
  exact ⟨hkept.balanced, hkept.taken⟩

/-- The list beside the entries stops no call. -/
theorem exists_watched {s : Pools} (h : poolSystem.Reachable s) :
    ∃ taken, watchedSystem.Reachable ⟨s, taken⟩ := by
  refine h.induct (I := fun s => ∃ taken, watchedSystem.Reachable ⟨s, taken⟩) ?_ ?_
  · intro s hinit
    exact ⟨fun _ => [], .init ⟨hinit, rfl⟩⟩
  · rintro s op s' - ⟨taken, hr⟩ hstep
    exact ⟨Watched.note ⟨s, taken⟩ s', hr.step ⟨hstep, rfl⟩⟩

theorem pool_accounting_sample : ∃ w p, watchedSystem.Reachable w ∧ w.pools = sampleGranted ∧
      w.pools.tenants 0 = some p ∧ p.held = 0x1001000 ∧
      ∀ b ∈ w.taken 0, b ≤ p.highWaterMark := by
  have h₁ : poolSystem.Reachable sampleRegistered :=
    .step (e := .register 3 0 0 0) (.init ⟨0, rfl⟩) (.register ..)
  obtain ⟨_, hok, -⟩ := Pools.exists_after (s := sampleRegistered)
    (q := fun _ => True) (x := sampleRegistered.setDeviceBounds 2 3 sampleBounds)
    (by decide)
  have h₂ : poolSystem.Reachable sampleGranted :=
    .step (e := .setDeviceBounds 3 sampleBounds) h₁ (.setDeviceBounds hok)
  obtain ⟨taken, hw⟩ := exists_watched h₂
  have halloc : (sampleGranted.tenants 0).map (·.allocatedBytes.toNat) = some 0x1001000 := by decide
  obtain ⟨p, hp, hbytes⟩ := Option.map_eq_some_iff.mp halloc
  obtain ⟨hbal, hmark⟩ := (pool_accounting hw).1 hp
  exact ⟨_, p, hw, rfl, hp, hbal.symm.trans hbytes, hmark⟩

end AmbaVirt.Pool
