/-
The window of the proxy's slices: where it comes from, and the two
requests that write the slice table.

A client's window is in its tenant entry. Slices carry their own bounds,
so a window that moves leaves them where they are. The search for a slice
goes from the window's start to behind one slice of the client after the
other, and its ends are 32-bit sums (`alloc_within`).
-/
import AmbaVirt.Cavalry.Tenants

namespace AmbaVirt.Cavalry

open Lib Function

-- ==== the proxy

def SliceEntry.span (e : SliceEntry) : Span := ⟨e.barOffset.toNat, e.size.toNat⟩

def Proxy.window (s : Proxy) (cid : UInt32) : Span :=
  ⟨(s.pool cid).1.toNat, (s.pool cid).2.toNat⟩

/-- Slice `k` is one of the client's. -/
def Proxy.Holds (s : Proxy) (cid : UInt32) (k : Fin 512) : Prop :=
  (s.slices k).inUse = true ∧ (s.slices k).clientCid = cid
  deriving Decidable

variable {s s' : Proxy} {cid : UInt32}

theorem window_of_tenants (h : s'.tenants = s.tenants) (cid : UInt32) :
    s'.window cid = s.window cid := by
  unfold Proxy.window Proxy.pool Proxy.getTenant
  rw [h]

-- ==== where a slice is placed

theorem pageAlign_eq (x : UInt32) : pageAlign x = alignUp x 4096 := by
  unfold pageAlign alignUp alignMask
  rw [add_sub_assoc]
  rfl

variable {x : UInt32}

theorem le_pageAlign (h : x.toNat + 4096 ≤ 2 ^ 32) : x.toNat ≤ (pageAlign x).toNat := by
  rw [pageAlign_eq]
  exact le_alignUp ⟨by decide, by decide⟩ h

theorem pageAlign_lt (h : x.toNat + 4096 ≤ 2 ^ 32) : (pageAlign x).toNat < x.toNat + 4096 := by
  rw [pageAlign_eq]
  exact alignUp_lt (a := 4096) ⟨by decide, by decide⟩ h

variable {size : UInt32}

/-- With room behind the window for a page and the slice, the search stays
in a window that holds the client's slices. -/
theorem allocSearch_within {fuel : Nat} {base poolSize c : UInt32} (hcid : cid ≠ 0)
    (hroom : base.toNat + poolSize.toNat + 4096 + size.toNat ≤ 2 ^ 32)
    (hin : ∀ k, s.Holds cid k → (s.slices k).span.Within ⟨base.toNat, poolSize.toNat⟩)
    (h : s.allocSearch cid size (base + poolSize) fuel base = some (some c)) :
    (⟨c.toNat, size.toNat⟩ : Span).Within ⟨base.toNat, poolSize.toNat⟩ := by
  obtain ⟨hfit, -, horigin⟩ := firstFit_found h
  -- the candidate is the base, or behind a slice of the client's
  have hcand : base.toNat ≤ c.toNat ∧ c.toNat < base.toNat + poolSize.toNat + 4096 := by
    rcases horigin with rfl | ⟨c', hc'⟩
    · omega
    obtain ⟨i, hi, rfl⟩ := Option.map_eq_some_iff.mp hc'
    have hhit := Fin.eq_true_of_find?_eq_some hi
    simp only [SliceEntry.countsFor, Bool.and_eq_true, Bool.or_eq_true, beq_iff_eq, hcid,
      false_or] at hhit
    obtain ⟨hlo, hhi⟩ := hin i hhit.1.1
    unfold SliceEntry.span at hlo hhi
    dsimp only at hlo hhi
    have hsum : ((s.slices i).barOffset + (s.slices i).size).toNat
        = (s.slices i).barOffset.toNat + (s.slices i).size.toNat := by
      rw [UInt32.toNat_add, Nat.mod_eq_of_lt (by omega)]
    have hge := le_pageAlign (x := (s.slices i).barOffset + (s.slices i).size) (by omega)
    have hlt := pageAlign_lt (x := (s.slices i).barOffset + (s.slices i).size) (by omega)
    omega
  rw [UInt32.le_iff_toNat_le, UInt32.toNat_add, UInt32.toNat_add, Nat.mod_eq_of_lt (by omega),
    Nat.mod_eq_of_lt (by omega)] at hfit
  exact ⟨hcand.1, hfit⟩

/-- Room behind the window for the roundings and a slice of this size. -/
def Proxy.RoomFor (s : Proxy) (cid size : UInt32) : Prop :=
  (s.window cid).lo + (s.window cid).len + size.toNat + 8192 ≤ 2 ^ 32
  deriving Decidable

theorem alloc_within {fuel : Nat} {sid off : UInt32} (hcid : cid ≠ 0) (hroom : s.RoomFor cid size)
    (hin : ∀ k, s.Holds cid k → (s.slices k).span.Within (s.window cid))
    (h : s.alloc fuel size cid sid = some (.ok (off, s'))) :
    (⟨off.toNat, (pageAlign size).toNat⟩ : Span).Within (s.window cid) := by
  unfold Proxy.RoomFor Proxy.window at hroom
  unfold Proxy.window at hin ⊢
  dsimp only at hroom
  have hsize := pageAlign_lt (x := size) (by omega)
  unfold Proxy.alloc at h
  dsimp only at h
  split at h
  · cases h
  split at h
  · cases h
  split at h
  · cases h
  split at h
  · cases h
  split at h
  · cases h
  · cases h
  case h_3 cand hcand =>
  obtain ⟨rfl, -⟩ := Prod.mk.inj (Except.ok.inj (Option.some.inj h))
  exact allocSearch_within hcid (by omega) hin hcand

theorem setTenantBounds_spec {base aoff asize : UInt32} {t : Tenant}
    (ht : s.getTenant cid = some t) :
    ∃ s', s.setTenantBounds cid base size aoff asize = .ok s' ∧
      s'.slices = s.slices ∧ s'.getTenant cid ≠ none := by
  obtain ⟨i, hi, hfirst⟩ := Fin.findSome?_eq_some_iff.mp ht
  obtain ⟨htab, hcid⟩ := Option.filter_eq_some_iff.mp hi
  have hfind : (Fin.find? fun i => (s.tenants i).any fun t => t.cid == cid) = some i := by
    refine Fin.find?_eq_some_iff.mpr ⟨by rw [htab]; exact hcid, ?_⟩
    intro j hj
    have hno := hfirst j hj
    cases htj : s.tenants j with
    | none => rfl
    | some u =>
      rw [htj, Option.filter_some] at hno
      rw [Option.any_some]
      by_contra hu
      rw [Bool.not_eq_false] at hu
      rw [if_pos hu] at hno
      cases hno
  have hget : ∀ s' : Proxy, s'.tenants = update s.tenants i ((s.tenants i).map fun t =>
          { t with
            cavalryPoolBase := base, cavalryPoolSize := size
            rpcArenaOffset := aoff, rpcArenaSize := asize }) →
      s'.getTenant cid = some { t with
          cavalryPoolBase := base, cavalryPoolSize := size
          rpcArenaOffset := aoff, rpcArenaSize := asize } := by
    intro s' htab'
    refine Fin.findSome?_eq_some_iff.mpr ⟨i, ?_, ?_⟩
    · rw [htab', update_self, htab]
      exact Option.filter_eq_some_iff.mpr ⟨rfl, hcid⟩
    · intro j hj
      rw [htab', update_of_ne hj.ne]
      exact hfirst j hj
  unfold Proxy.setTenantBounds
  rw [hfind]
  refine ⟨_, rfl, rfl, ?_⟩
  rw [hget _ rfl]
  nofun

theorem free_spec {off : UInt32} (h : s.free off cid = .ok s') : s'.tenants = s.tenants ∧
      ∀ k, s'.Holds cid k → s.Holds cid k ∧ s'.slices k = s.slices k := by
  obtain ⟨i, -, -, rfl⟩ := free_ok h
  refine ⟨rfl, fun k hk => ?_⟩
  obtain ⟨huse, hcid⟩ := hk
  by_cases hki : k = i
  · subst hki
    dsimp only at huse
    rw [update_self] at huse
    cases huse
  · dsimp only at huse hcid ⊢
    rw [update_of_ne hki] at huse hcid ⊢
    exact ⟨⟨huse, hcid⟩, rfl⟩

variable {d d' : Daemon} {code : UInt32} {req : Rpc} {env : RpcEnv} {reply : Reply}

/-- What the two allocator requests do to the tables, if anything. -/
theorem handleRpc_slices (h : d.handleRpc code req cid env = some (reply, d')) :
    (Opcode.ofCode code = some .allocMem → d'.proxy = d.proxy ∨
      ∃ off, d.proxy.alloc env.rounds req.size cid req.sessionId = some (.ok (off, d'.proxy))) ∧
    (Opcode.ofCode code = some .freeMem → d'.proxy = d.proxy ∨
      d.proxy.free req.barOffset cid = .ok d'.proxy) := by
  have hre := (reopen_tables d env).1
  unfold Daemon.handleRpc at h
  split at h
  · cases h
    exact ⟨fun _ => .inl rfl, fun _ => .inl rfl⟩
  dsimp only at h
  split at h
  · cases h
    exact ⟨fun _ => .inl hre, fun _ => .inl hre⟩
  rw [← hre]
  constructor
  · intro hop
    rw [hop] at h
    cases serve_ok h with
    | same => exact .inl rfl
    | allocMem hok => exact .inr ⟨_, hok⟩
  · intro hop
    rw [hop] at h
    cases serve_ok h with
    | same => exact .inl rfl
    | freeMem hok => exact .inr hok

end AmbaVirt.Cavalry
