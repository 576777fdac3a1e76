/-
The regions of a tenant's BAR, and what one grant, extent or release
does to them.

`TenantPool.Inv` says on end points what `TenantPool.Sound` says of
bytes: the device regions, RPC arenas and extents are disjoint, inside
the BAR and aligned. The operations are reduced to two facts about it:
some regions are replaced by ones clear of everything else
(`Inv.replace`), or some are gone (`Inv.shrink`).
-/
import AmbaVirt.Lib.Table
import AmbaVirt.Pool.Placement

namespace AmbaVirt.Pool

open Lib Function

-- ==== regions

/-- The regions a tenant can have. -/
inductive RegionId
  | dev (k : Fin 8)
  | arena (k : Fin 8)
  | ext (k : Fin 32)
  deriving DecidableEq

namespace DevPartition

def devSpan (d : DevPartition) : Span := ⟨d.baseOffset.toNat, d.size.toNat⟩

def arenaSpan (d : DevPartition) : Span :=
  ⟨d.rpcArenaOffset.toNat, d.rpcArenaSize.toNat⟩

end DevPartition

def Extent.span (e : Extent) : Span := ⟨e.offset.toNat, e.size.toNat⟩

namespace TenantPool

def span (p : TenantPool) : RegionId → Span
  | .dev k => (p.devices k).elim ⟨0, 0⟩ DevPartition.devSpan
  | .arena k => (p.devices k).elim ⟨0, 0⟩ DevPartition.arenaSpan
  | .ext k => (p.extents k).elim ⟨0, 0⟩ Extent.span

/-- The alignment of a region: what its request asked for, and pages for
an arena. -/
def regionAlign (p : TenantPool) : RegionId → Nat
  | .dev k => (p.devices k).elim 1 (·.align.toNat)
  | .arena _ => 4096
  | .ext k => (p.extents k).elim 1 (·.align.toNat)

/-- The regions are disjoint, inside the BAR and aligned as requested. -/
structure Sound (p : TenantPool) : Prop where
  disjoint : ∀ r r', r ≠ r' → Disjoint (p.span r).bytes (p.span r').bytes
  inside : ∀ r, (p.span r).bytes ⊆ (⟨0, p.barSize.toNat⟩ : Span).bytes
  aligned : ∀ r, p.regionAlign r ∣ (p.span r).lo

/-- `Sound`, on end points. -/
structure Inv (p : TenantPool) : Prop where
  clear : ∀ r r', r ≠ r' → (p.span r).Clear (p.span r')
  fits : ∀ r, (p.span r).Fits p.barSize.toNat
  aligned : ∀ r, p.regionAlign r ∣ (p.span r).lo

theorem Inv.sound {p : TenantPool} (h : p.Inv) : p.Sound where
  disjoint r r' hr := (h.clear r r' hr).disjoint
  inside r := (h.fits r).bytes_subset
  aligned := h.aligned

end TenantPool

-- ==== the overlap test

/-- Two ranges whose ends are exact and that do not overlap are clear. -/
theorem clear_of_not_overlap {s n t m : UInt32} (hs : s.toNat + n.toNat < 2 ^ 32)
    (ht : m.toNat = 0 ∨ t.toNat + m.toNat < 2 ^ 32)
    (h : ¬ rangesOverlap s (s + n) t (t + m)) :
    (⟨s.toNat, n.toNat⟩ : Span).Clear ⟨t.toNat, m.toNat⟩ := by
  rcases ht with ht | ht
  · exact .inr (.inl ht)
  rw [rangesOverlap, gt_iff_lt, UInt32.lt_iff_toNat_lt,
    UInt32.lt_iff_toNat_lt, toNat_add_lt hs, toNat_add_lt ht] at h
  refine .inr (.inr ?_)
  rw [Span.Apart]
  dsimp only
  omega

/-- A span inside a BAR of 32 bits has an exact end. -/
theorem end_exact {n len : UInt32} {bar : Nat} (hbar : bar < 2 ^ 32)
    (h : (⟨n.toNat, len.toNat⟩ : Span).Fits bar) :
    len.toNat = 0 ∨ n.toNat + len.toNat < 2 ^ 32 := by
  rcases h with h | h
  · exact .inl h
  · exact .inr (lt_of_le_of_lt h hbar)

namespace TenantPool

variable {p : TenantPool}

variable {j : Fin 8}

/-- A range that misses a device is clear of its region and its arena. -/
theorem Inv.clear_of_not_hits (h : p.Inv) {d : DevPartition}
    (hd : p.devices j = some d) {s n : UInt32} (hs : s.toNat + n.toNat < 2 ^ 32)
    (hm : ¬ d.Hits s (s + n)) :
    (⟨s.toNat, n.toNat⟩ : Span).Clear (p.span (.dev j)) ∧
      (⟨s.toNat, n.toNat⟩ : Span).Clear (p.span (.arena j)) := by
  have hdev := h.fits (.dev j)
  have harena := h.fits (.arena j)
  simp only [span, hd, Option.elim_some] at hdev harena ⊢
  have hbar := p.barSize.toNat_lt
  rw [DevPartition.Hits, not_or, not_and] at hm
  refine ⟨clear_of_not_overlap hs (end_exact hbar hdev) hm.1, ?_⟩
  by_cases hz : d.rpcArenaSize > 0
  · exact clear_of_not_overlap hs (end_exact hbar harena) (hm.2 hz)
  · exact .inr (.inl (toNat_of_not_pos hz))

theorem Inv.clear_of_miss (h : p.Inv) {s n : UInt32} (hs : s.toNat + n.toNat < 2 ^ 32)
    (hm : ∀ d, p.devices j = some d → ¬ d.Hits s (s + n)) :
    (⟨s.toNat, n.toNat⟩ : Span).Clear (p.span (.dev j)) ∧
      (⟨s.toNat, n.toNat⟩ : Span).Clear (p.span (.arena j)) := by
  cases hd : p.devices j with
  | none =>
    simp only [span, hd, Option.elim_none]
    exact ⟨.inr (.inl rfl), .inr (.inl rfl)⟩
  | some d => exact h.clear_of_not_hits hd hs (hm d hd)

-- ==== replacing regions

variable {p' : TenantPool}

/-- Replacing some regions by ones that are clear of each other and of
all the rest keeps the invariant. -/
theorem Inv.replace (h : p.Inv) {N : RegionId → Prop}
    (hbar : p'.barSize = p.barSize) (hspan : ∀ r, ¬ N r → p'.span r = p.span r)
    (halign : ∀ r, ¬ N r → p'.regionAlign r = p.regionAlign r)
    (hclear : ∀ r r', N r → ¬ N r' → (p'.span r).Clear (p.span r'))
    (hown : ∀ r r', N r → N r' → r ≠ r' → (p'.span r).Clear (p'.span r'))
    (hfits : ∀ r, N r → (p'.span r).Fits p.barSize.toNat)
    (haligned : ∀ r, N r → p'.regionAlign r ∣ (p'.span r).lo) : p'.Inv where
  clear r r' hne := by
    by_cases hr : N r <;> by_cases hr' : N r'
    · exact hown r r' hr hr' hne
    · rw [hspan r' hr']
      exact hclear r r' hr hr'
    · rw [hspan r hr]
      exact (hclear r' r hr' hr).symm
    · rw [hspan r hr, hspan r' hr']
      exact h.clear r r' hne
  fits r := by
    rw [hbar]
    by_cases hr : N r
    · exact hfits r hr
    · rw [hspan r hr]
      exact h.fits r
  aligned r := by
    by_cases hr : N r
    · exact haligned r hr
    · rw [hspan r hr, halign r hr]
      exact h.aligned r

def ofSlot (i : Fin 8) : RegionId → Prop
  | .dev k => k = i
  | .arena k => k = i
  | .ext _ => False

variable {i : Fin 8}

/-- A device slot that gets a new partition: what has to be shown about
its two regions. -/
theorem Inv.setDevice (h : p.Inv) {d : DevPartition} (hbar : p'.barSize = p.barSize)
    (hdev : p'.devices = update p.devices i (some d))
    (hext : p'.extents = p.extents) (hclear : ∀ r, ¬ ofSlot i r →
      d.devSpan.Clear (p.span r) ∧ d.arenaSpan.Clear (p.span r))
    (hown : d.devSpan.Clear d.arenaSpan)
    (hfits : d.devSpan.Fits p.barSize.toNat ∧ d.arenaSpan.Fits p.barSize.toNat)
    (haligned : d.align.toNat ∣ d.baseOffset.toNat ∧ 4096 ∣ d.rpcArenaOffset.toNat) : p'.Inv := by
  have hi : p'.devices i = some d := by
    rw [hdev, update_self]
  have hdevSpan : p'.span (.dev i) = d.devSpan := by
    rw [span, hi, Option.elim_some]
  have harenaSpan : p'.span (.arena i) = d.arenaSpan := by
    rw [span, hi, Option.elim_some]
  have hother : ∀ k, k ≠ i → p'.devices k = p.devices k := fun k hk => by
    rw [hdev, update_of_ne hk]
  refine h.replace (N := ofSlot i) hbar ?_ ?_ ?_ ?_ ?_ ?_
  · rintro (k | k | k) hk
    · rw [span, span, hother k hk]
    · rw [span, span, hother k hk]
    · rw [span, span, hext]
  · rintro (k | k | k) hk
    · rw [regionAlign, regionAlign, hother k hk]
    · rfl
    · rw [regionAlign, regionAlign, hext]
  · rintro (k | k | k) r hk hr
    · rw [show k = i from hk, hdevSpan]
      exact (hclear r hr).1
    · rw [show k = i from hk, harenaSpan]
      exact (hclear r hr).2
    · exact hk.elim
  · rintro (k | k | k) (k' | k' | k') hk hk' hne
    all_goals first
      | exact hk.elim
      | exact hk'.elim
      | (obtain rfl : k = i := hk
         obtain rfl : k' = k := hk')
    · exact absurd rfl hne
    · rw [hdevSpan, harenaSpan]
      exact hown
    · rw [hdevSpan, harenaSpan]
      exact hown.symm
    · exact absurd rfl hne
  · rintro (k | k | k) hk
    · rw [show k = i from hk, hdevSpan]
      exact hfits.1
    · rw [show k = i from hk, harenaSpan]
      exact hfits.2
    · exact hk.elim
  · rintro (k | k | k) hk
    · rw [show k = i from hk, hdevSpan, regionAlign, hi]
      exact haligned.1
    · rw [show k = i from hk, harenaSpan]
      exact haligned.2
    · exact hk.elim

/-- A pool whose regions are the same or gone keeps the invariant, if
they fit its BAR. -/
theorem Inv.shrink (h : p.Inv)
    (hspan : ∀ r, p'.span r = p.span r ∧ p'.regionAlign r = p.regionAlign r ∨
      p'.span r = ⟨0, 0⟩) (hfits : ∀ r, (p.span r).Fits p'.barSize.toNat) :
    p'.Inv where
  clear r r' hne := by
    rcases hspan r with ⟨hr, -⟩ | hr
    · rcases hspan r' with ⟨hr', -⟩ | hr'
      · rw [hr, hr']
        exact h.clear r r' hne
      · exact .inr (.inl (by rw [hr']))
    · exact .inl (by rw [hr])
  fits r := by
    rcases hspan r with ⟨hr, -⟩ | hr
    · rw [hr]
      exact hfits r
    · exact .inl (by rw [hr])
  aligned r := by
    rcases hspan r with ⟨hr, ha⟩ | hr
    · rw [hr, ha]
      exact h.aligned r
    · rw [hr]
      exact Nat.dvd_zero _

-- ==== grants

variable {a : Admitted}

/-- A slot other than the target was not left out of the search. -/
theorem targetSlot_ne (h : p.targetSlot a = some i) (hj : j ≠ i) : some j ≠ a.existing := by
  intro he
  rw [targetSlot, ← he, Option.some_or] at h
  exact hj (Option.some.inj h)

theorem partition_arenaOffset {pl : Placement} (req : DevBoundsReq) (hp : Placed p a pl) :
    (partition req a pl).rpcArenaOffset = pl.arenaStart := by
  rw [partition]
  split
  · rfl
  · rename_i hz
    exact (hp.no_arena hz).symm

theorem Inv.grant (h : p.Inv) {req : DevBoundsReq} {pl : Placement}
    (hp : Placed p a pl) (he : a.Exact pl)
    (hext : ∀ k, (a.devSpan pl).Clear (p.span (.ext k)) ∧
      (a.arenaSpan pl).Clear (p.span (.ext k))) (hi : p.targetSlot a = some i) :
    (p.grant req a pl i).Inv := by
  have hoff := partition_arenaOffset req hp
  have harena : (partition req a pl).arenaSpan = a.arenaSpan pl := by
    rw [DevPartition.arenaSpan, hoff]
    rfl
  have hdev : ∀ j, j ≠ i → (a.devSpan pl).Clear (p.span (.dev j)) ∧
      (a.devSpan pl).Clear (p.span (.arena j)) := fun j hj =>
    h.clear_of_miss he.1 fun d hd hit =>
      hp.free (targetSlot_ne hi hj) hd (.inl hit)
  have harenas : ∀ j, j ≠ i → (a.arenaSpan pl).Clear (p.span (.dev j)) ∧
      (a.arenaSpan pl).Clear (p.span (.arena j)) := fun j hj => by
    by_cases hz : a.arenaSz > 0
    · refine h.clear_of_miss (he.2 hz) fun d hd hit =>
        hp.free (targetSlot_ne hi hj) hd (.inr ⟨hz, ?_⟩)
      rw [Admitted.arenaEnd, if_pos hz]
      exact hit
    · exact ⟨.inl (toNat_of_not_pos hz), .inl (toNat_of_not_pos hz)⟩
  refine h.setDevice (i := i) (d := partition req a pl) rfl rfl rfl ?_ ?_ ?_ ?_
  · rw [harena]
    rintro (k | k | k) hk
    · exact ⟨(hdev k hk).1, (harenas k hk).1⟩
    · exact ⟨(hdev k hk).2, (harenas k hk).2⟩
    · exact hext k
  · rw [harena]
    exact hp.own
  · rw [harena]
    exact ⟨hp.dev_fits, hp.arena_fits⟩
  · rw [hoff]
    exact ⟨hp.dev_aligned, hp.arena_aligned⟩

theorem Inv.releaseDeviceBounds (h : p.Inv) {devType : UInt32}
    (hr : p.releaseDeviceBounds devType = some p') :
    p'.Inv := by
  simp only [TenantPool.releaseDeviceBounds, Option.bind_eq_bind,
    Option.bind_eq_some_iff, Option.pure_def, Option.some.injEq] at hr
  obtain ⟨i, -, d, -, rfl⟩ := hr
  refine h.shrink ?_ h.fits
  rintro (k | k | k)
  · rcases update_none_or p.devices i k with hk | hk <;> simp [span, regionAlign, hk]
  · rcases update_none_or p.devices i k with hk | hk <;> simp [span, regionAlign, hk]
  · exact .inl ⟨rfl, rfl⟩

-- ==== extents

theorem extentHit_none {align size c : UInt32} (h : p.extentHit align size c = none) :
    (∀ ⦃j d⦄, p.devices j = some d → ¬ d.Hits c (c + size)) ∧ ∀ ⦃k e⦄, p.extents k = some e →
        ¬ rangesOverlap c (c + size) e.offset e.extEnd := by
  rw [extentHit, Option.or_eq_none_iff, Option.map_eq_none_iff, Option.map_eq_none_iff] at h
  obtain ⟨hdev, hext⟩ := h
  refine ⟨fun j d hd => ?_, fun k e he hover => ?_⟩
  · exact of_decide_eq_false (p.firstHit_none hdev (by simp) hd)
  · have hnone := Fin.findSome?_eq_none_iff.mp hext k
    rw [he, Option.filter_some, decide_eq_true hover] at hnone
    cases hnone

theorem Inv.addExtent (h : p.Inv) {req : MemReq} {align c : UInt32} {i : Fin 32}
    (hfit : c.toNat + req.allocSize.toNat ≤ p.barSize.toNat)
    (hhit : p.extentHit align req.allocSize c = none)
    (haligned : req.extentAlign.toNat ∣ c.toNat) :
    (p.addExtent req i c).Inv := by
  have hbar := p.barSize.toNat_lt
  have hend : c.toNat + req.allocSize.toNat < 2 ^ 32 := lt_of_le_of_lt hfit hbar
  obtain ⟨hdev, hext⟩ := extentHit_none hhit
  have hi : (p.addExtent req i c).span (.ext i) = ⟨c.toNat, req.allocSize.toNat⟩ := by
    show Option.elim (update p.extents i _ i) _ _ = _
    rw [update_self]
    rfl
  have hother : ∀ k, k ≠ i → (p.addExtent req i c).extents k = p.extents k := fun k hk =>
    update_of_ne hk _ _
  refine h.replace (N := (· = .ext i)) rfl ?_ ?_ ?_ ?_ ?_ ?_
  · rintro (k | k | k) hk
    · rfl
    · rfl
    · rw [span, span, hother k fun e => hk (congrArg _ e)]
  · rintro (k | k | k) hk
    · rfl
    · rfl
    · rw [regionAlign, regionAlign, hother k fun e => hk (congrArg _ e)]
  · rintro r (k | k | k) rfl hk
    · rw [hi]
      exact (h.clear_of_miss hend fun d hd => hdev hd).1
    · rw [hi]
      exact (h.clear_of_miss hend fun d hd => hdev hd).2
    rw [hi]
    have hfits := h.fits (.ext k)
    cases he : p.extents k with
    | none => exact .inr (.inl (by rw [span, he]; rfl))
    | some e =>
      simp only [span, he, Option.elim_some] at hfits ⊢
      exact clear_of_not_overlap hend (end_exact hbar hfits) (hext he)
  · rintro r r' rfl rfl hne
    exact absurd rfl hne
  · rintro r rfl
    rw [hi]
    exact .inr hfit
  · rintro r rfl
    rw [hi]
    show Option.elim (update p.extents i _ i) _ _ ∣ _
    rw [update_self]
    exact haligned

theorem Inv.freeExtent (h : p.Inv) (barOffset : UInt32) : (p.freeExtent barOffset).1.Inv := by
  unfold TenantPool.freeExtent
  split
  · rename_i i e _
    refine h.shrink ?_ h.fits
    rintro (k | k | k)
    · exact .inl ⟨rfl, rfl⟩
    · exact .inl ⟨rfl, rfl⟩
    rcases update_none_or p.extents i k with hk | hk <;> simp [span, regionAlign, hk]
  · exact h

end TenantPool

end AmbaVirt.Pool
