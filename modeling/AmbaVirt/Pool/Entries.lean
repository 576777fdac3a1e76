/-
Who has a pool: the CIDs of the entries, over every run of calls.

A CID gets an entry by a registration only, and only if it has none; so
no CID ever has two (`oneEach_of_reachable`).

A registration first releases the entries of others on its slice index,
so no index has two either. Where the indices are below the number of
entries, a full table has every one of them; one that is to be registered
has then been released, or is the caller's own, and the call finds an
entry (`tenant_table`).
-/
import AmbaVirt.Pool.Account

namespace AmbaVirt.Pool

open Lib

namespace Pools

variable {s s' : Pools}

def Lacks (s : Pools) (cid : UInt32) : Prop :=
  ∀ ⦃i p⦄, s.tenants i = some p → p.cid ≠ cid

variable {cid : UInt32}

theorem getTenant_eq_none_iff : s.getTenant cid = none ↔ s.Lacks cid := by
  unfold getTenant Lacks
  rw [Fin.findSome?_eq_none_iff]
  constructor
  · intro h i p hp hcid
    have hi := h i
    rw [hp, Option.filter_some, if_pos (decide_eq_true hcid)] at hi
    cases hi
  · intro h i
    rw [Option.map_eq_none_iff, Option.filter_eq_none_iff]
    intro p hp hcid
    exact h hp (of_decide_eq_true hcid)

def OneEach (s : Pools) : Prop :=
  ∀ ⦃i j p q⦄, s.tenants i = some p → s.tenants j = some q → p.cid = q.cid → i = j

-- ==== one call

/-- The CIDs of the entries of `s'` are those of `s`, but for one entry
that may be new, for the CID in `new`, which then had none. -/
def EntriesFrom (s s' : Pools) (new : Option UInt32) : Prop :=
  ∃ k, ∀ ⦃i p'⦄, s'.tenants i = some p' → (∃ p, s.tenants i = some p ∧ p.cid = p'.cid) ∨
      i = k ∧ new = some p'.cid ∧ s.Lacks p'.cid

variable {new : Option UInt32}

theorem EntriesFrom.of_old (h : ∀ i p', s'.tenants i = some p' →
      ∃ p, s.tenants i = some p ∧ p.cid = p'.cid) : s.EntriesFrom s' new :=
  ⟨0, fun i p' hp => .inl (h i p' hp)⟩

theorem EntriesFrom.refl (s : Pools) (new : Option UInt32) : s.EntriesFrom s new :=
  .of_old fun _ p hp => ⟨p, hp, rfl⟩

theorem EntriesFrom.registerTenant (s : Pools) (cid idx bar quota : UInt32) :
    s.EntriesFrom (s.registerTenant cid idx bar quota).1 (some cid) := by
  rcases s.registerTenant_cases cid idx bar quota with
    ⟨i, p, hget, heq⟩ | ⟨hnone, ⟨k, heq⟩ | heq⟩
  · rw [heq]
    refine .of_old fun j q hq => ?_
    rcases setTenant_cases hq with ⟨rfl, hnew⟩ | ⟨-, hq⟩
    · cases hnew
      exact ⟨p, reclaim_sub (getTenant_some hget), rfl⟩
    · exact ⟨q, reclaim_sub hq, rfl⟩
  · rw [heq]
    refine ⟨k, fun j q hq => ?_⟩
    rcases setTenant_cases hq with ⟨rfl, hnew⟩ | ⟨-, hq⟩
    · cases hnew
      refine .inr ⟨rfl, rfl, fun i p hp hcid => ?_⟩
      -- an entry of the CID is not reclaimed, and would have been found
      refine getTenant_eq_none_iff.mp hnone (i := i) (p := p) ?_ hcid
      exact Option.filter_eq_some_iff.mpr ⟨hp, decide_eq_true fun hno => hno.1 hcid⟩
    · exact .inl ⟨q, reclaim_sub hq, rfl⟩
  · rw [heq]
    exact .of_old fun j q hq => ⟨q, reclaim_sub hq, rfl⟩

variable {idx : UInt32}

/-- A registration that is refused leaves the CID without a pool. -/
theorem registerTenant_refused {bar quota : UInt32} {e : Errno}
    (h : s.registerTenant cid idx bar quota = (s', some e)) : s'.Lacks cid := by
  unfold Pools.registerTenant at h
  dsimp only at h
  split at h
  · cases h
  rename_i hnone
  split at h
  · cases h
  · cases h
    exact getTenant_eq_none_iff.mp hnone

variable {op : PoolOp}

/-- What one call does to the table: nothing, a registration, or it
takes out or writes back an entry that it found. -/
theorem Step.cases (h : s.Step op s') : s' = s ∨
    (∃ cid idx bar quota, op = .register cid idx bar quota ∧
      s' = (s.registerTenant cid idx bar quota).1) ∨
    ∃ i p o, s.getTenant op.cid = some (i, p) ∧ s' = s.setTenant i o ∧
      ∀ p', o = some p' → p'.cid = p.cid ∧ p'.barSize = p.barSize := by
  rcases h.inv with hreg | ⟨cid, rfl, rfl⟩ | rfl | ⟨i, p, p', hget, hbody, rfl⟩
  · exact .inr (.inl hreg)
  · unfold Pools.unregisterTenant
    split
    · rename_i i p hget
      exact .inr (.inr ⟨i, p, none, hget, rfl, nofun⟩)
    · exact .inl rfl
  · exact .inl rfl
  · refine .inr (.inr ⟨i, p, some p', hget, rfl, fun q hq => ?_⟩)
    cases hq
    exact ⟨hbody.same.1, hbody.same.2.2⟩

theorem Step.entries (h : s.Step op s') : s.EntriesFrom s' op.registers := by
  rcases h.cases with rfl | ⟨cid, idx, bar, quota, rfl, rfl⟩ | ⟨i, p, o, hget, rfl, hsame⟩
  · exact .refl s' _
  · exact .registerTenant s cid idx bar quota
  refine .of_old fun j q hq => ?_
  rcases setTenant_cases hq with ⟨rfl, hnew⟩ | ⟨-, hq⟩
  · exact ⟨p, getTenant_some hget, (hsame q hnew).1.symm⟩
  · exact ⟨q, hq, rfl⟩

variable {i : Fin 8}

/-- One call, for the BAR sizes: a registration that names one writes it
into an entry, and no other call touches them. -/
theorem Step.bars (h : s.Step op s') (hop : op.bar ≠ some 0) {p' : TenantPool}
    (hp : s'.tenants i = some p') :
    (∃ p, s.tenants i = some p ∧ p'.barSize = p.barSize) ∨ op.bar = some p'.barSize := by
  rcases h.cases with rfl | ⟨cid, idx, bar, quota, rfl, rfl⟩ | ⟨k, p, o, hget, rfl, hsame⟩
  · exact .inl ⟨p', hp, rfl⟩
  · have hpos : bar > 0 :=
      UInt32.pos_iff_ne_zero.mpr fun hz => hop (congrArg some hz)
    rcases s.registerTenant_cases cid idx bar quota with
      ⟨k, p, hget, heq⟩ | ⟨-, ⟨k, heq⟩ | heq⟩
    · rw [heq] at hp
      rcases setTenant_cases hp with ⟨rfl, hnew⟩ | ⟨-, hq⟩
      · cases hnew
        exact .inr (congrArg some (if_pos hpos).symm)
      · exact .inl ⟨p', reclaim_sub hq, rfl⟩
    · rw [heq] at hp
      rcases setTenant_cases hp with ⟨rfl, hnew⟩ | ⟨-, hq⟩
      · cases hnew
        exact .inr (congrArg some (if_pos hpos).symm)
      · exact .inl ⟨p', reclaim_sub hq, rfl⟩
    · rw [heq] at hp
      exact .inl ⟨p', reclaim_sub hp, rfl⟩
  · rcases setTenant_cases hp with ⟨rfl, hnew⟩ | ⟨-, hq⟩
    · exact .inl ⟨p, getTenant_some hget, (hsame p' hnew).2⟩
    · exact .inl ⟨p', hq, rfl⟩

/-- Without a pool every call but a registration changes nothing. -/
theorem Step.of_lacks (h : s.Step op s') (hop : op.registers = none)
    (hno : s.Lacks op.cid) : s' = s := by
  have hnone := getTenant_eq_none_iff.mpr hno
  rcases h.cases with rfl | ⟨cid, idx, bar, quota, rfl, -⟩ | ⟨i, p, o, hget, -⟩
  · rfl
  · cases hop
  · cases hnone.symm.trans hget

-- ==== all calls

theorem EntriesFrom.oneEach (h : s.EntriesFrom s' new) (hone : s.OneEach) : s'.OneEach := by
  obtain ⟨k, hk⟩ := h
  intro i j p q hp hq hcid
  rcases hk hp with ⟨p₀, hp₀, hc₀⟩ | ⟨rfl, -, hlacks⟩
  · rcases hk hq with ⟨q₀, hq₀, hd₀⟩ | ⟨rfl, -, hlacks⟩
    · exact hone hp₀ hq₀ (hc₀.trans (hcid.trans hd₀.symm))
    · exact absurd (hc₀.trans hcid) (hlacks hp₀)
  · rcases hk hq with ⟨q₀, hq₀, hd₀⟩ | ⟨rfl, -, -⟩
    · exact absurd (hd₀.trans hcid.symm) (hlacks hq₀)
    · rfl

/-- A CID without a pool gets one by a registration only. -/
theorem EntriesFrom.lacks (h : s.EntriesFrom s' new) (hnew : new ≠ some cid) (hno : s.Lacks cid) :
    s'.Lacks cid := by
  obtain ⟨k, hk⟩ := h
  intro i p' hp' hcid
  rcases hk hp' with ⟨p, hp, hc⟩ | ⟨-, hn, -⟩
  · exact hno hp (hc.trans hcid)
  · exact hnew (hcid ▸ hn)

theorem oneEach_of_reachable (h : poolSystem.Reachable s) : s.OneEach := by
  refine h.induct (I := Pools.OneEach) ?_ ?_
  · rintro s ⟨bar, rfl⟩ i j p q hp
    cases hp
  · intro s op s' _ hone hstep
    exact (Step.entries hstep).oneEach hone

/-- Where a CID has one entry, unregistering it leaves none. -/
theorem OneEach.lacks_unregistered (h : s.OneEach) (cid : UInt32) :
    (s.unregisterTenant cid).1.Lacks cid := by
  unfold Pools.unregisterTenant
  split
  · rename_i i p hget
    intro j q hq hcid
    rcases setTenant_cases hq with ⟨-, hnone⟩ | ⟨hj, hq⟩
    · cases hnone
    · exact hj (h hq (getTenant_some hget) (hcid.trans (getTenant_cid hget).symm))
  · rename_i hnone
    exact getTenant_eq_none_iff.mp hnone

-- ==== slice indices

def OneIdx (s : Pools) : Prop :=
  ∀ ⦃i j p q⦄, s.tenants i = some p → s.tenants j = some q → p.tenantIdx = q.tenantIdx → i = j

theorem OneIdx.of_sub (h : s.OneIdx) (hsub : ∀ i p, s'.tenants i = some p → s.tenants i = some p) :
    s'.OneIdx :=
  fun _ _ _ _ hp hq => h (hsub _ _ hp) (hsub _ _ hq)

variable {p : TenantPool}

/-- An entry may be written if no other has its index. -/
theorem OneIdx.setTenant (h : s.OneIdx)
    (hother : ∀ j q, s.tenants j = some q → q.tenantIdx = p.tenantIdx → j = i) :
    (s.setTenant i (some p)).OneIdx := by
  intro j k q r hq hr hidx
  rcases setTenant_cases hq with ⟨rfl, hwritten⟩ | ⟨-, hq₀⟩
  · cases hwritten
    rcases setTenant_cases hr with ⟨rfl, -⟩ | ⟨-, hr₀⟩
    · rfl
    · exact (hother k r hr₀ hidx.symm).symm
  · rcases setTenant_cases hr with ⟨rfl, hwritten⟩ | ⟨-, hr₀⟩
    · cases hwritten
      exact hother j q hq₀ hidx
    · exact h hq₀ hr₀ hidx

/-- What is left on an index after the entries of others are released is
the caller's own. -/
theorem reclaim_own (h : (s.reclaim cid idx).tenants i = some p) (hidx : p.tenantIdx = idx) :
    p.cid = cid := by
  have hkept := of_decide_eq_true (Option.filter_eq_some_iff.mp h).2
  by_contra hne
  exact hkept ⟨hne, hidx⟩

theorem OneIdx.registerTenant (h : s.OneIdx) (hone : s.OneEach) (cid idx bar quota : UInt32) :
    (s.registerTenant cid idx bar quota).1.OneIdx := by
  have hr : (s.reclaim cid idx).OneIdx := h.of_sub fun _ _ => reclaim_sub
  rcases s.registerTenant_cases cid idx bar quota with
    ⟨i, p, hget, heq⟩ | ⟨hnone, ⟨k, heq⟩ | heq⟩
  · rw [heq]
    refine hr.setTenant fun j q hq hidx => ?_
    have hcid := (reclaim_own hq hidx).trans (getTenant_cid hget).symm
    exact hone (reclaim_sub hq) (reclaim_sub (getTenant_some hget)) hcid
  · rw [heq]
    refine hr.setTenant fun j q hq hidx => ?_
    exact absurd (reclaim_own hq hidx) (getTenant_eq_none_iff.mp hnone hq)
  · rw [heq]
    exact hr

theorem Step.oneIdx (h : s.Step op s') (hone : s.OneEach) (hidx : s.OneIdx) : s'.OneIdx := by
  rcases h.inv with ⟨cid, idx, bar, quota, -, rfl⟩ | ⟨cid, -, rfl⟩ | rfl |
    ⟨i, p, p', hget, hbody, rfl⟩
  · exact hidx.registerTenant hone cid idx bar quota
  · exact hidx.of_sub fun _ _ => unregisterTenant_sub
  · exact hidx
  · refine hidx.setTenant fun j q hq hsame => ?_
    exact hidx hq (getTenant_some hget) (hsame.trans hbody.same.2.1)

theorem oneIdx_of_reachable (h : poolSystem.Reachable s) : s.OneIdx := by
  refine h.induct (I := Pools.OneIdx) ?_ ?_
  · rintro s ⟨bar, rfl⟩ i j p q hp
    cases hp
  · intro s op s' hr hidx hstep
    exact Step.oneIdx hstep (oneEach_of_reachable hr) hidx

-- ==== always room

/-- The slice index a call writes is below the number of entries. -/
def LowIdx (_ : Pools) : PoolOp → Prop
  | .register _ idx .. => idx < 8
  | _ => True

def Indexed (s : Pools) : Prop := ∀ ⦃i p⦄, s.tenants i = some p → p.tenantIdx < 8

theorem Indexed.setTenant (h : s.Indexed) (hp : p.tenantIdx < 8) :
    (s.setTenant i (some p)).Indexed :=
  fun _ _ hq => update_all h (fun _ hwritten => by cases hwritten; exact hp) hq

theorem Step.indexed (h : s.Step op s') (hop : s.LowIdx op) (hidx : s.Indexed) : s'.Indexed := by
  rcases h.inv with ⟨cid, idx, bar, quota, rfl, rfl⟩ | ⟨cid, -, rfl⟩ | rfl |
    ⟨i, p, p', hget, hbody, rfl⟩
  · have hr : (s.reclaim cid idx).Indexed := fun _ _ hq => hidx (reclaim_sub hq)
    rcases s.registerTenant_cases cid idx bar quota with
      ⟨i, p, -, heq⟩ | ⟨-, ⟨k, heq⟩ | heq⟩
    · rw [heq]
      exact hr.setTenant hop
    · rw [heq]
      exact hr.setTenant hop
    · rw [heq]
      exact hr
  · exact fun _ _ hq => hidx (unregisterTenant_sub hq)
  · exact hidx
  · refine hidx.setTenant ?_
    rw [hbody.same.2.1]
    exact hidx (getTenant_some hget)

/-- A full table has every index. -/
theorem OneIdx.surjective (h : s.OneIdx) (hlow : s.Indexed)
    (hfull : ∀ i, ∃ p, s.tenants i = some p) (hidx : idx < 8) :
    ∃ i p, s.tenants i = some p ∧ p.tenantIdx = idx := by
  choose p hp using hfull
  have hlt : ∀ i, (p i).tenantIdx.toNat < 8 := fun i =>
    UInt32.lt_iff_toNat_lt.mp (hlow (hp i))
  let f : Fin 8 → Fin 8 := fun i => ⟨(p i).tenantIdx.toNat, hlt i⟩
  have hinj : Function.Injective f := by
    intro i j hij
    exact h (hp i) (hp j) (UInt32.toNat_inj.mp (Fin.mk.inj hij))
  obtain ⟨i, hi⟩ := Finite.injective_iff_surjective.mp hinj
    ⟨idx.toNat, UInt32.lt_iff_toNat_lt.mp hidx⟩
  exact ⟨i, p i, hp i, UInt32.toNat_inj.mp (Fin.mk.inj hi)⟩

/-- With low indices a registration finds an entry. -/
theorem registerTenant_succeeds (h : s.OneIdx) (hlow : s.Indexed)
    (cid bar quota : UInt32) (hidx : idx < 8) :
    (s.registerTenant cid idx bar quota).2 = none := by
  unfold Pools.registerTenant
  dsimp only
  split
  · rfl
  rename_i hnone
  split
  · rfl
  rename_i hfull
  -- the index is another's, and was released, or the caller's own
  have hsome : ∀ i, ∃ p, (s.reclaim cid idx).tenants i = some p := by
    intro i
    have hi := Fin.eq_false_of_find?_eq_none hfull i
    rw [Option.isNone_eq_false_iff, Option.isSome_iff_exists] at hi
    exact hi
  obtain ⟨i, p, hp, hpidx⟩ := OneIdx.surjective
    (h.of_sub fun _ _ => reclaim_sub) (fun _ _ hq => hlow (reclaim_sub hq))
    hsome hidx
  exact absurd (reclaim_own hp hpidx) (getTenant_eq_none_iff.mp hnone hp)

end Pools

/-- After any calls a CID has one entry at most, and so has a slice
index; and while the indices are below 8, no registration fails. -/
theorem tenant_table {s : Pools} : (poolSystem.Reachable s → s.OneEach ∧ s.OneIdx) ∧
    ((poolSystem.restrict Pools.LowIdx).Reachable s → ∀ cid idx bar quota, idx < 8 →
        (s.registerTenant cid idx bar quota).2 = none) := by
  constructor
  · intro h
    exact ⟨Pools.oneEach_of_reachable h, Pools.oneIdx_of_reachable h⟩
  intro h cid idx bar quota hidx
  have hlow : s.Indexed := by
    refine h.induct (I := Pools.Indexed) ?_ ?_
    · rintro s ⟨bar, rfl⟩ i p hp
      cases hp
    · intro s op s' _ hlow hstep
      exact Pools.Step.indexed hstep.2 hstep.1 hlow
  exact Pools.registerTenant_succeeds
    (Pools.oneIdx_of_reachable h.of_restrict) hlow cid bar quota hidx

/-- A guest of slice 0 comes back with another cid, and again. -/
theorem tenant_table_restarts : ((sampleRegistered.registerTenant 4 0 0 0).1.OneEach ∧
      (sampleRegistered.registerTenant 4 0 0 0).1.OneIdx) ∧
    ((sampleRegistered.registerTenant 4 0 0 0).1.registerTenant 5 0 0 0).2 = none := by
  have hlow : (0 : UInt32) < 8 := by decide
  have h₁ : (poolSystem.restrict Pools.LowIdx).Reachable sampleRegistered :=
    .step (e := .register 3 0 0 0) (.init ⟨0, rfl⟩) ⟨hlow, .register ..⟩
  have h₂ : (poolSystem.restrict Pools.LowIdx).Reachable
      (sampleRegistered.registerTenant 4 0 0 0).1 :=
    h₁.step (e := .register 4 0 0 0) ⟨hlow, .register ..⟩
  exact ⟨tenant_table.1 h₂.of_restrict, tenant_table.2 h₂ 5 0 0 0 hlow⟩

end AmbaVirt.Pool
