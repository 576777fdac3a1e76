/-
The tenant table across every operation of the proxy.

Two operations write a tenant: a registration puts one entry in and
takes every other entry of its CID out, and new bounds move the pool of
an entry. Everything else leaves the table alone or takes entries out.
`TenantsFrom` says so of a step that registers nobody: what is served
afterwards was served before, for the same CID on the same slice.
-/
import AmbaVirt.Cavalry.Frame

namespace AmbaVirt.Cavalry

open Lib Kernel Function

variable {s s' s'' : Proxy} {cid : UInt32} {t t' : Tenant}

-- ==== one tenant

/-- The tenant serves the slice `d`: its number, its place in the window
and its physical range are the slice's. -/
structure Tenant.On (t : Tenant) (d : SliceDesc) : Prop where
  index : t.tenantIdx = d.index.toNat
  offset : t.sliceOffset = d.offset
  phys : t.physBase = d.phys
  size : t.shmSize = d.usableSize.toUInt64

structure Tenant.Same (t t' : Tenant) : Prop where
  cid : t'.cid = t.cid
  index : t'.tenantIdx = t.tenantIdx
  offset : t'.sliceOffset = t.sliceOffset
  phys : t'.physBase = t.physBase
  size : t'.shmSize = t.shmSize

theorem Tenant.Same.refl (t : Tenant) : t.Same t := ⟨rfl, rfl, rfl, rfl, rfl⟩

theorem Tenant.Same.trans {t'' : Tenant} (h : t.Same t') (h' : t'.Same t'') : t.Same t'' :=
  ⟨h'.cid.trans h.cid, h'.index.trans h.index, h'.offset.trans h.offset,
    h'.phys.trans h.phys, h'.size.trans h.size⟩

theorem Tenant.On.of_same {d : SliceDesc} (h : t.On d) (hs : t.Same t') : t'.On d :=
  ⟨hs.index.trans h.index, hs.offset.trans h.offset, hs.phys.trans h.phys, hs.size.trans h.size⟩

-- ==== the table

/-- Every tenant of `s'` was a tenant of `s`, on the same slice. -/
def Proxy.TenantsFrom (s s' : Proxy) : Prop :=
  ∀ i t', s'.tenants i = some t' → ∃ t, s.tenants i = some t ∧ t.Same t'

theorem Proxy.TenantsFrom.of_eq (h : s'.tenants = s.tenants) : s.TenantsFrom s' := by
  intro i t' ht
  rw [h] at ht
  exact ⟨t', ht, .refl t'⟩

theorem Proxy.TenantsFrom.trans (h : s.TenantsFrom s')
    (h' : s'.TenantsFrom s'') : s.TenantsFrom s'' := by
  intro i t'' ht
  obtain ⟨t', ht', hs'⟩ := h' i t'' ht
  obtain ⟨t, ht, hs⟩ := h i t' ht'
  exact ⟨t, ht, hs.trans hs'⟩

theorem Proxy.getTenant_mem (h : s.getTenant cid = some t) :
    t.cid = cid ∧ ∃ i, s.tenants i = some t := by
  obtain ⟨i, hi⟩ := Fin.exists_eq_some_of_findSome?_eq_some h
  obtain ⟨ht, -⟩ := Option.filter_eq_some_iff.mp hi
  exact ⟨getTenant_cid h, i, ht⟩

theorem Proxy.getTenant_none (h : s.getTenant cid = none) {i : Fin 8}
    (ht : s.tenants i = some t) : t.cid ≠ cid := by
  intro hc
  have := Fin.findSome?_eq_none_iff.mp h i
  rw [ht, Option.filter_some, if_pos (beq_iff_eq.mpr hc)] at this
  cases this

-- ---- writing the table

theorem placeTenant_cases {idx i : Fin 8} (h : (s.placeTenant idx t).tenants i = some t') :
    (i = idx ∧ t' = t) ∨ (i ≠ idx ∧ s.tenants i = some t' ∧ t'.cid ≠ t.cid) := by
  unfold Proxy.placeTenant at h
  dsimp only at h
  split at h
  case isTrue hi => exact .inl ⟨hi, (Option.some.inj h).symm⟩
  case isFalse hi =>
    obtain ⟨ht, hc⟩ := Option.filter_eq_some_iff.mp h
    exact .inr ⟨hi, ht, by simpa using hc⟩

theorem unregisterTenant_from (h : s.unregisterTenant cid = .ok s') : s.TenantsFrom s' := by
  unfold Proxy.unregisterTenant at h
  split at h
  case h_2 => cases h
  case h_1 k _ =>
  cases h
  intro i t' ht
  change update s.tenants k none i = some t' at ht
  by_cases hi : i = k
  · subst hi
    rw [update_self] at ht
    cases ht
  · rw [update_of_ne hi] at ht
    exact ⟨t', ht, .refl t'⟩

theorem unregisterTenant_gone (h : s.unregisterTenant cid = .ok s')
    (hone : ∀ i j t u, s.tenants i = some t → s.tenants j = some u →
      t.cid = cid → u.cid = cid → i = j) {i : Fin 8}
    (ht : s'.tenants i = some t) : t.cid ≠ cid := by
  unfold Proxy.unregisterTenant at h
  split at h
  case h_2 => cases h
  case h_1 k hk =>
  cases h
  change update s.tenants k none i = some t at ht
  obtain ⟨u, hu, huc⟩ :=
    Option.any_eq_true _ _ |>.mp (Fin.eq_true_of_find?_eq_some hk)
  intro hc
  by_cases hi : i = k
  · subst hi
    rw [update_self] at ht
    cases ht
  · rw [update_of_ne hi] at ht
    exact hi (hone i k t u ht hu hc (beq_iff_eq.mp huc))

theorem unregisterTenant_error {e : Errno} (h : s.unregisterTenant cid = .error e) {i : Fin 8}
    (ht : s.tenants i = some t) : t.cid ≠ cid := by
  unfold Proxy.unregisterTenant at h
  split at h
  case h_1 => cases h
  case h_2 hnone =>
  intro hc
  have hi := Fin.find?_eq_none_iff.mp hnone i
  rw [ht, Option.any_some, beq_eq_false_iff_ne] at hi
  exact hi hc

theorem setTenantBounds_from {base size aoff asize : UInt32}
    (h : s.setTenantBounds cid base size aoff asize = .ok s') :
    s.TenantsFrom s' := by
  unfold Proxy.setTenantBounds at h
  split at h
  case h_2 => cases h
  case h_1 k _ =>
  cases h
  intro i t' ht
  dsimp only at ht
  by_cases hi : i = k
  · subst hi
    rw [update_self] at ht
    obtain ⟨u, hu, rfl⟩ := Option.map_eq_some_iff.mp ht
    exact ⟨u, hu, rfl, rfl, rfl, rfl, rfl⟩
  · rw [update_of_ne hi] at ht
    exact ⟨t', ht, .refl t'⟩

-- ---- one entry a CID

def Proxy.OneEach (s : Proxy) : Prop :=
  ∀ ⦃i j t u⦄, s.tenants i = some t → s.tenants j = some u → t.cid = u.cid → i = j

theorem Proxy.OneEach.of_from (h : s.OneEach) (hf : s.TenantsFrom s') : s'.OneEach := by
  intro i j t' u' ht' hu' hcid
  obtain ⟨t, ht, hst⟩ := hf i t' ht'
  obtain ⟨u, hu, hsu⟩ := hf j u' hu'
  exact h ht hu (hst.cid.symm.trans (hcid.trans hsu.cid))

theorem Proxy.OneEach.getTenant_eq (h : s.OneEach) {i : Fin 8}
    (ht : s.tenants i = some t) (hc : t.cid = cid) :
    s.getTenant cid = some t := by
  cases hget : s.getTenant cid with
  | none => exact absurd hc (getTenant_none hget ht)
  | some u =>
    obtain ⟨huc, j, hj⟩ := getTenant_mem hget
    obtain rfl := h hj ht (huc.trans hc.symm)
    exact hj.symm.trans ht

theorem Proxy.OneEach.place (h : s.OneEach) (idx : Fin 8) (t : Tenant) :
    (s.placeTenant idx t).OneEach := by
  intro i j u v hu hv hcid
  rcases placeTenant_cases hu with ⟨rfl, rfl⟩ | ⟨-, hu, hne⟩
  · rcases placeTenant_cases hv with ⟨rfl, -⟩ | ⟨-, -, hne⟩
    · rfl
    · exact absurd hcid.symm hne
  · rcases placeTenant_cases hv with ⟨rfl, rfl⟩ | ⟨-, hv, -⟩
    · exact absurd hcid hne
    · exact h hu hv hcid

theorem foldl_clientDisconnect_tenants (l : List UInt32) (p : Proxy) :
    (l.foldl Proxy.clientDisconnect p).tenants = p.tenants := by
  induction l generalizing p with
  | nil => rfl
  | cons c l ih => exact ih (p.clientDisconnect c)

-- ==== the requests

theorem free_tenants {off : UInt32} (h : s.free off cid = .ok s') : s'.tenants = s.tenants := by
  obtain ⟨_, _, _, rfl⟩ := free_ok h
  rfl

theorem allocHandle_tenants {n : Nat} {size sid : UInt32} {r : Except Errno (UInt32 × UInt32)}
    (h : s.allocHandle n size cid sid = some (r, s')) :
    s'.tenants = s.tenants := by
  rcases allocHandle_ok h with rfl | ⟨off, s₁, halloc, hs'⟩
  · rfl
  have h₁ := (alloc_frame halloc).tenants
  rcases hs' with rfl | hfree | ⟨_, _, rfl⟩
  · exact h₁
  · rw [free_tenants hfree, h₁]
  · exact h₁

theorem freeHandle_tenants {hid sid : UInt32}
    (h : s.freeHandle hid cid sid = .ok s') : s'.tenants = s.tenants := by
  obtain ⟨_, _, _, _, rfl, rfl | hfree⟩ := freeHandle_ok h
  · rfl
  · rw [free_tenants hfree]

theorem closeSession_tenants (s : Proxy) (cid sid : UInt32) :
    (s.closeSession cid sid).tenants = s.tenants := by
  unfold Proxy.closeSession
  split <;> rfl

theorem handleUnregisterDag_tenants {req : Rpc} (h : s.handleUnregisterDag req cid = .ok s') :
    s'.tenants = s.tenants := by
  simp only [Proxy.handleUnregisterDag, bind_ok, pure_ok] at h
  obtain ⟨i, -, rfl⟩ := h
  rfl

variable {d d' : Daemon} {code : UInt32} {req : Rpc} {env : RpcEnv} {reply : Reply}

theorem serve_tenants {op : Opcode} (h : d.serve code req cid env op = some (reply, d')) :
    d'.proxy.tenants = d.proxy.tenants := by
  cases serve_ok h with
  | same => rfl
  | allocMem hok => exact (alloc_frame hok).tenants
  | closeSession => exact closeSession_tenants _ _ _
  | freeMem hok => exact free_tenants hok
  | registerDag hok =>
    obtain ⟨_, _, _, _, _, _, hte, _⟩ := registerDag_ok hok
    exact hte
  | unregisterDag hok => exact handleUnregisterDag_tenants hok
  | allocHandle hok => exact allocHandle_tenants hok
  | freeHandle hok => exact freeHandle_tenants hok

theorem handleRpc_tenants (h : d.handleRpc code req cid env = some (reply, d')) :
    d'.proxy.tenants = d.proxy.tenants := by
  unfold Daemon.handleRpc at h
  split at h
  · cases h
    rfl
  have hre := (reopen_tables d env).1
  dsimp only at h
  split at h
  · cases h
    rw [hre]
  split at h
  · cases h
    rw [hre]
  · rw [serve_tenants h, hre]

end AmbaVirt.Cavalry
