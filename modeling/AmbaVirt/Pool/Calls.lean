/-
The pool's calls, one after another. Four things break the regions'
soundness.

- `set_device_bounds` looks at the other devices only, never at the
  extents (`bounds_over_extent`).
- The end of a preferred placement's arena, the end of a searched device
  region and the end of a candidate extent are 32-bit sums: with a BAR
  close to 4 GiB they wrap, and a wrapped end passes for one inside the
  BAR.
- A tenant that registers again may get a smaller BAR than its regions
  use.

`Exact` says by the request and the pools before the call when none of
this can happen, and `pool_regions_sound` is what holds of every run of
such calls.
-/
import AmbaVirt.Pool.Body
import AmbaVirt.Pool.Disjoint

namespace AmbaVirt.Pool

open Lib

-- ==== the calls

namespace TenantPool

/-- What device bounds need of the pool: room below 4 GiB, and no extent
where they may be placed. -/
def Admits (p : TenantPool) (req : DevBoundsReq) : Prop :=
  p.RoomFor req ∧ ((∀ k, p.extents k = none) ∨ req.preferredOffset ≠ OFFSET_AUTO ∧
    ∀ k, (⟨req.preferredOffset.toNat, req.alignedSize.toNat + req.arenaSize.toNat⟩ : Span).Clear
      (p.span (.ext k)))
  deriving Decidable

variable {fuel : Nat} {p p' : TenantPool} {physBase : UInt64}

section Bounds

variable {resp : DevBoundsResp} {req : DevBoundsReq} {a : Admitted} {pl : Placement}

theorem Admits.placed (h : p.Admits req) (hc : Checked p req a)
    (hpl : p.place fuel req a = .ok pl) (k : Fin 32) :
    (a.devSpan pl).Clear (p.span (.ext k)) ∧ (a.arenaSpan pl).Clear (p.span (.ext k)) := by
  rcases h.2 with hnone | ⟨hoff, hclear⟩
  · rw [span, hnone k]
    exact ⟨.inr (.inl rfl), .inr (.inl rfl)⟩
  have hk := hclear k
  have hexact := (place_exact hc hpl h.1).1
  have hsize := hc.size_le
  rw [← hc.arena_eq] at hk
  unfold place at hpl
  rw [if_pos hoff] at hpl
  simp only [placePreferred, guards] at hpl
  obtain ⟨-, hpl⟩ := hpl
  split at hpl
  case h_2 => cases hpl
  cases hpl
  unfold Admitted.devSpan Admitted.arenaSpan Admitted.preferred Span.Clear Span.Apart at *
  dsimp only at *
  split
  case isTrue =>
    rw [toNat_add_lt hexact]
    omega
  case isFalse hz =>
    have := toNat_of_not_pos hz
    omega

theorem Inv.setDeviceBounds (h : p.Inv) (hadm : p.Admits req)
    (hok : p.setDeviceBounds fuel req = .ok (resp, p')) : p'.Inv := by
  simp only [TenantPool.setDeviceBounds, guards, pure_ok] at hok
  obtain ⟨a, ha, pl, hpl, i, hi, hr⟩ := hok
  obtain ⟨rfl, rfl⟩ := Prod.mk.inj hr
  have hc := checkBounds_ok ha
  have he := place_exact hc hpl hadm.1
  exact h.grant (place_placed hc hpl he) he (hadm.placed hc hpl) hi

end Bounds

/-- An extent whose search has room behind every region keeps the
invariant. -/
theorem Inv.allocExtent (h : p.Inv) {req : MemReq} {resp : MemResp}
    (hbelow : p.Below (req.extentAlign.toNat + req.allocSize.toNat))
    (hok : p.allocExtent fuel req physBase = .ok (resp, p')) : p'.Inv := by
  simp only [TenantPool.allocExtent, guards, pure_ok] at hok
  obtain ⟨halign, -, -, -, i, -, found, hfound, c, rfl, hr⟩ := hok
  obtain ⟨rfl, rfl⟩ := Prod.mk.inj hr
  obtain ⟨hpow, -⟩ := isPow2_of_check halign
  obtain ⟨hfit, hfree, horigin⟩ := firstFit_found hfound
  rw [UInt32.le_iff_toNat_le, toNat_add_lt (extent_exact hpow hbelow hfound)] at hfit
  refine h.addExtent hfit hfree ?_
  rcases horigin with rfl | ⟨c', hc'⟩
  · exact Nat.dvd_zero _
  · rcases extentHit_some hc' with ⟨_, _, -, -, rfl⟩ | ⟨_, _, -, -, rfl⟩ <;>
      exact alignMask_dvd hpow _

theorem inv_of_empty (hd : ∀ k, p.devices k = none)
    (he : ∀ k, p.extents k = none) : p.Inv := by
  have hspan : ∀ r, p.span r = ⟨0, 0⟩ := by
    rintro (k | k | k)
    · rw [span, hd, Option.elim_none]
    · rw [span, hd, Option.elim_none]
    · rw [span, he, Option.elim_none]
  refine ⟨fun r r' _ => .inl ?_, fun r => .inl ?_, fun r => ?_⟩
  · rw [hspan]
  · rw [hspan]
  · rw [hspan]
    exact Nat.dvd_zero _

end TenantPool

namespace Pools

variable {s s' : Pools} {cid : UInt32}

def Inv (s : Pools) : Prop := ∀ ⦃i p⦄, s.tenants i = some p → p.Inv

theorem Inv.setTenant (h : s.Inv) {i : Fin 8} (hp : p.Inv) :
    (s.setTenant i (some p)).Inv := by
  intro j q hq
  rcases setTenant_cases hq with ⟨-, hwritten⟩ | ⟨-, hq⟩
  · cases hwritten
    exact hp
  · exact h hq

theorem Inv.reclaim (h : s.Inv) (cid tenantIdx : UInt32) : (s.reclaim cid tenantIdx).Inv :=
  fun _ _ hp => h (reclaim_sub hp)

def after {ε ρ : Type} (s : Pools) (x : Except ε (ρ × Pools)) : Pools :=
  x.toOption.elim s (·.2)

theorem exists_after {ε ρ : Type} {x : Except ε (ρ × Pools)} {q : ρ → Prop}
    [DecidablePred q] (h : (x.toOption.any fun r => decide (q r.1)) = true) :
    ∃ resp, x = .ok (resp, s.after x) ∧ q resp := by
  obtain ⟨r, hr, hq⟩ := exists_ok_of_any h
  subst hr
  exact ⟨r.1, rfl, hq⟩

/-- What a call needs of the pools before it: a BAR that is registered
again still holds its regions, bounds meet no extent, and no 32-bit end
can wrap. -/
def Exact (s : Pools) : PoolOp → Prop
  | .register cid tenantIdx barSize _ => barSize > 0 →
      ∀ ⦃i p⦄, (s.reclaim cid tenantIdx).getTenant cid = some (i, p) →
        ∀ r, (p.span r).Fits barSize.toNat
  | .setDeviceBounds cid req => ∀ t ∈ s.getTenant cid, t.2.Admits req
  | .allocExtent cid req _ =>
    ∀ t ∈ s.getTenant cid, t.2.Below (req.extentAlign.toNat + req.allocSize.toNat)
  | _ => True

theorem Inv.registerTenant (h : s.Inv) {idx bar quota : UInt32}
    (he : s.Exact (.register cid idx bar quota)) :
    (s.registerTenant cid idx bar quota).1.Inv := by
  have hr := h.reclaim cid idx
  unfold Pools.registerTenant
  dsimp only
  split
  · rename_i i p hget
    have hp := hr (getTenant_some hget)
    refine hr.setTenant (hp.shrink (fun r => .inl ⟨rfl, rfl⟩) fun r => ?_)
    rw [TenantPool.reregister]
    split
    · rename_i hbar
      exact he hbar hget r
    · exact hp.fits r
  · split
    · exact hr.setTenant (TenantPool.inv_of_empty (fun _ => rfl) fun _ => rfl)
    · exact hr

theorem Inv.step (h : s.Inv) {op : PoolOp} (he : s.Exact op) (hs : s.Step op s') : s'.Inv := by
  cases hs with
  | register cid idx bar quota => exact h.registerTenant he
  | unregister cid => exact fun _ _ hp => h (unregisterTenant_sub hp)
  | setQuota cid quotaMb =>
    unfold Pools.setQuota
    split
    · exact h
    rename_i i p hget
    have hp := h (getTenant_some hget)
    dsimp only
    split
    · exact h
    · exact h.setTenant (hp.shrink (fun r => .inl ⟨rfl, rfl⟩) hp.fits)
  | setDeviceBounds hok =>
    simp only [Pools.setDeviceBounds, guards, pure_ok] at hok
    obtain ⟨-, -, ⟨i, p⟩, hget, ⟨resp, p'⟩, hok, hr⟩ := hok
    obtain ⟨rfl, rfl⟩ := Prod.mk.inj hr
    exact h.setTenant ((h (getTenant_some hget)).setDeviceBounds (he _ hget) hok)
  | refuseBounds _ => exact h
  | releaseDeviceBounds cid devType =>
    unfold Pools.releaseDeviceBounds
    split
    · exact h
    rename_i i p hget
    split
    · exact h
    · rename_i p' hrel
      exact h.setTenant ((h (getTenant_some hget)).releaseDeviceBounds hrel)
  | allocExtent hok =>
    simp only [Pools.allocExtent, guards, pure_ok] at hok
    obtain ⟨⟨i, p⟩, hget, ⟨resp, p'⟩, hok, hr⟩ := hok
    obtain ⟨rfl, rfl⟩ := Prod.mk.inj hr
    exact h.setTenant ((h (getTenant_some hget)).allocExtent (he _ hget) hok)
  | refuseExtent _ => exact h
  | freeExtent cid barOffset =>
    unfold Pools.freeExtent
    split
    · exact h
    · rename_i i p hget
      exact h.setTenant ((h (getTenant_some hget)).freeExtent barOffset)

end Pools

-- ==== the runs

theorem Pools.inv_of_reachable {s : Pools}
    (h : (poolSystem.restrict Pools.Exact).Reachable s) : s.Inv := by
  refine h.induct (I := Pools.Inv) ?_ ?_
  · rintro s ⟨bar, rfl⟩ i p hp
    cases hp
  · rintro s op s' - hI ⟨he, hs⟩
    exact hI.step he hs

/-- Over every run of exact calls the regions of every tenant are
disjoint, inside its BAR and aligned as requested. -/
theorem pool_regions_sound {s : Pools}
    (h : (poolSystem.restrict Pools.Exact).Reachable s) {i : Fin 8}
    {p : TenantPool} (hp : s.tenants i = some p) : p.Sound :=
  (Pools.inv_of_reachable h hp).sound

def sampleRegistered : Pools := ((Pools.init 0).registerTenant 3 0 0 0).1

def sampleBounds : DevBoundsReq where
  devType := DEV_TYPE_CAVALRY
  requestedSize := 0x1000000
  preferredOffset := OFFSET_AUTO
  rpcArenaSize := 4096
  align := 0
  flags := 0

def sampleMem : MemReq where
  size := 4096
  align := 0
  devAffinity := DEV_TYPE_CAVALRY
  flags := 0

def sampleGranted : Pools :=
  sampleRegistered.after (sampleRegistered.setDeviceBounds 2 3 sampleBounds)

def sampleBoth : Pools :=
  sampleGranted.after (sampleGranted.allocExtent 2 3 sampleMem 0)

def sampleExtent : Pools :=
  sampleRegistered.after (sampleRegistered.allocExtent 2 3 sampleMem 0)

def sampleOverlap : Pools :=
  sampleExtent.after (sampleExtent.setDeviceBounds 2 3 sampleBounds)

theorem pool_regions_sound_sample : ∃ p, sampleBoth.tenants 0 = some p ∧ p.Sound := by
  have h₁ : (poolSystem.restrict Pools.Exact).Reachable sampleRegistered := by
    refine .step (e := .register 3 0 0 0) (.init ⟨0, rfl⟩) ⟨?_, .register ..⟩
    intro hbar
    exact absurd hbar (by decide)
  have h₂ : (poolSystem.restrict Pools.Exact).Reachable sampleGranted := by
    obtain ⟨_, hok, -⟩ := Pools.exists_after (s := sampleRegistered) (q := fun _ => True)
      (x := sampleRegistered.setDeviceBounds 2 3 sampleBounds) (by decide)
    have hadm : ∀ t ∈ sampleRegistered.getTenant 3, t.2.Admits sampleBounds := by decide
    exact .step (e := .setDeviceBounds 3 sampleBounds) h₁ ⟨hadm, .setDeviceBounds hok⟩
  have h₃ : (poolSystem.restrict Pools.Exact).Reachable sampleBoth := by
    obtain ⟨_, hok, -⟩ := Pools.exists_after (s := sampleGranted) (q := fun _ => True)
      (x := sampleGranted.allocExtent 2 3 sampleMem 0) (by decide)
    have hbelow : ∀ t ∈ sampleGranted.getTenant 3, t.2.Below 8192 := by decide
    exact .step (e := .allocExtent 3 sampleMem 0) h₂ ⟨hbelow, .allocExtent hok⟩
  have hsome : (sampleBoth.tenants 0).isSome := by decide
  obtain ⟨p, hp⟩ := Option.isSome_iff_exists.mp hsome
  exact ⟨p, hp, pool_regions_sound h₃ hp⟩

/-- A device region by search lands on the tenant's extent at offset 0. -/
theorem bounds_over_extent : ∃ s p, poolSystem.Reachable s ∧ s.tenants 0 = some p ∧ ¬ p.Sound := by
  have h₁ : poolSystem.Reachable sampleRegistered :=
    .step (e := .register 3 0 0 0) (.init ⟨0, rfl⟩) (.register ..)
  obtain ⟨_, hext, -⟩ := Pools.exists_after (s := sampleRegistered)
    (q := fun _ => True) (x := sampleRegistered.allocExtent 2 3 sampleMem 0)
    (by decide)
  have h₂ : poolSystem.Reachable sampleExtent :=
    .step (e := .allocExtent 3 sampleMem 0) h₁ (.allocExtent hext)
  obtain ⟨_, hdev, -⟩ := Pools.exists_after (s := sampleExtent)
    (q := fun _ => True) (x := sampleExtent.setDeviceBounds 2 3 sampleBounds)
    (by decide)
  have h₃ : poolSystem.Reachable sampleOverlap :=
    .step (e := .setDeviceBounds 3 sampleBounds) h₂ (.setDeviceBounds hdev)
  have hspans : (sampleOverlap.tenants 0).map (fun p =>
      (p.span (.arena 0), p.span (.ext 0))) = some (⟨0, 4096⟩, ⟨0, 4096⟩) := by
    decide
  obtain ⟨p, hp, he⟩ := Option.map_eq_some_iff.mp hspans
  obtain ⟨ha, he⟩ := Prod.mk.inj he
  refine ⟨_, p, h₃, hp, fun hsound => ?_⟩
  have hdisj := hsound.disjoint (.arena 0) (.ext 0) (by decide)
  rw [ha, he, Set.disjoint_left] at hdisj
  exact hdisj (a := 0) ⟨Nat.le_refl 0, by decide⟩ ⟨Nat.le_refl 0, by decide⟩

end AmbaVirt.Pool
