/-
What a call does to the table, and to the entry it finds.

Every call but a registration looks its CID up, and works on the one
entry it finds, under that entry's lock. `TenantPool.Body` is what it
does there, and `Step.inv` takes a call apart into the look-up and the
body.
-/
import AmbaVirt.Lib.Table
import AmbaVirt.Pool.Extent

namespace AmbaVirt.Pool

open Lib

def PoolOp.cid : PoolOp → UInt32
  | .register cid .. => cid
  | .unregister cid => cid
  | .setQuota cid _ => cid
  | .setDeviceBounds cid _ => cid
  | .releaseDeviceBounds cid _ => cid
  | .allocExtent cid .. => cid
  | .freeExtent cid _ => cid

def PoolOp.registers : PoolOp → Option UInt32
  | .register cid .. => some cid
  | _ => none

def PoolOp.bar : PoolOp → Option UInt32
  | .register _ _ bar _ => some bar
  | _ => none

-- ==== the body

/-- What a call does to the entry it has found. A refused one does
nothing. -/
inductive TenantPool.Body (p : TenantPool) : PoolOp → TenantPool → Prop
  | setQuota {cid quotaMb : UInt32} (h : ¬ quotaMb.toUInt64 * 1024 * 1024 > p.barSize.toUInt64) :
      Body p (.setQuota cid quotaMb)
        { p with quotaMax := (quotaMb.toUInt64 * 1024 * 1024).toUInt32 }
  | refuseQuota {cid quotaMb : UInt32} (h : quotaMb.toUInt64 * 1024 * 1024 > p.barSize.toUInt64) :
      Body p (.setQuota cid quotaMb) p
  | setDeviceBounds {cid req fuel resp p'} (h : p.setDeviceBounds fuel req = .ok (resp, p')) :
      Body p (.setDeviceBounds cid req) p'
  | refuseBounds {cid req fuel resp} (h : p.setDeviceBounds fuel req = .error (some resp)) :
      Body p (.setDeviceBounds cid req) p
  | releaseDeviceBounds {cid devType p'} (h : p.releaseDeviceBounds devType = some p') :
      Body p (.releaseDeviceBounds cid devType) p'
  | noDevice {cid devType} (h : p.releaseDeviceBounds devType = none) :
      Body p (.releaseDeviceBounds cid devType) p
  | allocExtent {cid req physBase fuel resp p'}
      (h : p.allocExtent fuel req physBase = .ok (resp, p')) :
      Body p (.allocExtent cid req physBase) p'
  | refuseExtent {cid req physBase fuel resp}
      (h : p.allocExtent fuel req physBase = .error (some resp)) :
      Body p (.allocExtent cid req physBase) p
  | freeExtent (cid barOffset) : Body p (.freeExtent cid barOffset) (p.freeExtent barOffset).1

/-- A body leaves the CID, the slice index and the BAR size alone. -/
theorem TenantPool.Body.same {p p' : TenantPool} {op : PoolOp} (h : p.Body op p') :
    p'.cid = p.cid ∧ p'.tenantIdx = p.tenantIdx ∧ p'.barSize = p.barSize := by
  cases h with
  | setDeviceBounds hok =>
    simp only [TenantPool.setDeviceBounds, bind_ok, require_ok, pure_ok] at hok
    obtain ⟨a, -, pl, -, k, -, hr⟩ := hok
    obtain ⟨-, rfl⟩ := Prod.mk.inj hr
    exact ⟨rfl, rfl, rfl⟩
  | releaseDeviceBounds hrel =>
    simp only [TenantPool.releaseDeviceBounds, Option.bind_eq_bind,
      Option.bind_eq_some_iff, Option.pure_def, Option.some.injEq] at hrel
    obtain ⟨k, -, d, -, rfl⟩ := hrel
    exact ⟨rfl, rfl, rfl⟩
  | allocExtent hok =>
    simp only [TenantPool.allocExtent, bind_ok, require_ok, pure_ok] at hok
    obtain ⟨-, -, -, -, -, -, -, -, k, -, found, -, c, -, hr⟩ := hok
    obtain ⟨-, rfl⟩ := Prod.mk.inj hr
    exact ⟨rfl, rfl, rfl⟩
  | freeExtent cid barOffset =>
    unfold TenantPool.freeExtent
    split
    all_goals exact ⟨rfl, rfl, rfl⟩
  | _ => exact ⟨rfl, rfl, rfl⟩

-- ==== the table

namespace Pools

variable {s s' : Pools}

variable {cid : UInt32} {i : Fin 8} {p : TenantPool}

theorem getTenant_some (h : s.getTenant cid = some (i, p)) : s.tenants i = some p := by
  obtain ⟨j, hj⟩ := Fin.exists_eq_some_of_findSome?_eq_some h
  obtain ⟨q, hq, he⟩ := Option.map_eq_some_iff.mp hj
  obtain ⟨rfl, rfl⟩ := Prod.mk.inj he
  exact (Option.filter_eq_some_iff.mp hq).1

theorem getTenant_cid (h : s.getTenant cid = some (i, p)) : p.cid = cid := by
  obtain ⟨j, hj, -⟩ := Fin.findSome?_eq_some_iff.mp h
  obtain ⟨q, hq, he⟩ := Option.map_eq_some_iff.mp hj
  obtain ⟨rfl, rfl⟩ := Prod.mk.inj he
  exact of_decide_eq_true (Option.filter_eq_some_iff.mp hq).2

theorem setTenant_cases {j : Fin 8} {o : Option TenantPool} {q : TenantPool}
    (h : (s.setTenant i o).tenants j = some q) :
    (j = i ∧ o = some q) ∨ (j ≠ i ∧ s.tenants j = some q) :=
  update_cases h

/-- How a registration changes the table, once the entries of others on
the slice are released: the CID's entry is written again, it gets a new
one, or there is no room. -/
theorem registerTenant_cases (s : Pools) (cid idx bar quota : UInt32) :
    (∃ i p, (s.reclaim cid idx).getTenant cid = some (i, p) ∧ (s.registerTenant cid idx bar quota).1
        = (s.reclaim cid idx).setTenant i (some (p.reregister idx bar quota))) ∨
    (s.reclaim cid idx).getTenant cid = none ∧ ((∃ k, (s.registerTenant cid idx bar quota).1
          = (s.reclaim cid idx).setTenant k
            (some ((s.reclaim cid idx).newTenant cid idx bar quota))) ∨
        (s.registerTenant cid idx bar quota).1 = s.reclaim cid idx) := by
  unfold Pools.registerTenant
  dsimp only
  split
  · rename_i i p hget
    exact .inl ⟨i, p, hget, rfl⟩
  rename_i hnone
  refine .inr ⟨hnone, ?_⟩
  split
  · rename_i k hfree
    exact .inl ⟨k, rfl⟩
  · exact .inr rfl

theorem reclaim_sub {idx : UInt32} (h : (s.reclaim cid idx).tenants i = some p) :
    s.tenants i = some p :=
  (Option.filter_eq_some_iff.mp h).1

/-- A call registers, unregisters, changes nothing, or looks its entry up
and writes back what its body makes of it. -/
theorem Step.inv {op : PoolOp} (h : s.Step op s') :
    (∃ cid idx bar quota, op = .register cid idx bar quota ∧
      s' = (s.registerTenant cid idx bar quota).1) ∨
    (∃ cid, op = .unregister cid ∧ s' = (s.unregisterTenant cid).1) ∨
    s' = s ∨
    ∃ i p p', s.getTenant op.cid = some (i, p) ∧ p.Body op p' ∧ s' = s.setTenant i (some p') := by
  cases h with
  | register cid idx bar quota => exact .inl ⟨cid, idx, bar, quota, rfl, rfl⟩
  | unregister cid => exact .inr (.inl ⟨cid, rfl, rfl⟩)
  | setQuota cid quotaMb =>
    refine .inr (.inr ?_)
    unfold Pools.setQuota
    split
    · exact .inl rfl
    rename_i i p hget
    dsimp only
    split
    · exact .inl rfl
    · rename_i hle
      exact .inr ⟨i, p, _, hget, .setQuota hle, rfl⟩
  | setDeviceBounds hok =>
    simp only [Pools.setDeviceBounds, guards, pure_ok] at hok
    obtain ⟨-, -, ⟨i, p⟩, hget, ⟨resp, p'⟩, hok, hr⟩ := hok
    obtain ⟨-, rfl⟩ := Prod.mk.inj hr
    exact .inr (.inr (.inr ⟨i, p, p', hget, .setDeviceBounds hok, rfl⟩))
  | refuseBounds _ => exact .inr (.inr (.inl rfl))
  | releaseDeviceBounds cid devType =>
    refine .inr (.inr ?_)
    unfold Pools.releaseDeviceBounds
    split
    · exact .inl rfl
    rename_i i p hget
    split
    · exact .inl rfl
    · rename_i p' hrel
      exact .inr ⟨i, p, p', hget, .releaseDeviceBounds hrel, rfl⟩
  | allocExtent hok =>
    simp only [Pools.allocExtent, guards, pure_ok] at hok
    obtain ⟨⟨i, p⟩, hget, ⟨resp, p'⟩, hok, hr⟩ := hok
    obtain ⟨-, rfl⟩ := Prod.mk.inj hr
    exact .inr (.inr (.inr ⟨i, p, p', hget, .allocExtent hok, rfl⟩))
  | refuseExtent _ => exact .inr (.inr (.inl rfl))
  | freeExtent cid barOffset =>
    refine .inr (.inr ?_)
    unfold Pools.freeExtent
    split
    · exact .inl rfl
    · rename_i i p hget
      exact .inr ⟨i, p, _, hget, .freeExtent cid barOffset, rfl⟩

/-- Unregistering takes entries out and changes none. -/
theorem unregisterTenant_sub (h : (s.unregisterTenant cid).1.tenants i = some p) :
    s.tenants i = some p := by
  unfold Pools.unregisterTenant at h
  split at h
  · rcases setTenant_cases h with ⟨-, hnone⟩ | ⟨-, hp⟩
    · cases hnone
    · exact hp
  · exact h

end Pools

end AmbaVirt.Pool
