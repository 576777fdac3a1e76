/-
What a successful placement has tested (`virt_mem_pool_set_device_bounds`,
steps 1 to 4 of the source).

`checkBounds_ok` reads the checks as facts about the sizes, and `Placed`
is what holds of a placement, by preference or by search, that collides
with no device. Both placements compute ends in 32 bits; `Placed` needs
the two ends of the placement to be exact (`Admitted.Exact`) and nothing
else about the pool.
-/
import AmbaVirt.Lib.Span
import AmbaVirt.Pool.Extent

namespace AmbaVirt.Pool

open Lib

theorem toNat_add_lt {a b : UInt32} (h : a.toNat + b.toNat < 2 ^ 32) :
    (a + b).toNat = a.toNat + b.toNat := by
  rw [UInt32.toNat_add, Nat.mod_eq_of_lt h]

theorem toNat_of_not_pos {a : UInt32} (h : ¬ a > 0) : a.toNat = 0 := by
  exact Nat.eq_zero_of_not_pos h

namespace TenantPool

variable {p : TenantPool}

theorem firstHit_none {excl : Option (Fin 8)} {hits : DevPartition → Bool}
    (h : p.firstHit excl hits = none) {j : Fin 8} (hj : some j ≠ excl)
    {d : DevPartition} (hd : p.devices j = some d) : hits d = false := by
  have hnone := Fin.findSome?_eq_none_iff.mp h j
  rw [if_neg hj, hd, Option.filter_some] at hnone
  cases hh : hits d with
  | false => rfl
  | true =>
    rw [hh] at hnone
    cases hnone

theorem firstHit_some {excl : Option (Fin 8)} {hits : DevPartition → Bool} {d : DevPartition}
    (h : p.firstHit excl hits = some d) :
    ∃ j, some j ≠ excl ∧ p.devices j = some d ∧ hits d = true := by
  obtain ⟨j, hj⟩ := Fin.exists_eq_some_of_findSome?_eq_some h
  split at hj
  · cases hj
  · rename_i hne
    obtain ⟨hd, hhit⟩ := Option.filter_eq_some_iff.mp hj
    exact ⟨j, hne, hd, hhit⟩

/-- What is in the way of an extent: a device or an extent, behind the
start of the range. -/
theorem extentHit_some {align size c c' : UInt32} (h : p.extentHit align size c = some c') :
    (∃ j d, p.devices j = some d ∧ d.Hits c (c + size) ∧ c' = alignUp d.next align) ∨
    ∃ k e, p.extents k = some e ∧ rangesOverlap c (c + size) e.offset e.extEnd ∧
      c' = alignUp e.extEnd align := by
  rw [extentHit, Option.or_eq_some_iff] at h
  rcases h with h | ⟨-, h⟩
  · obtain ⟨d, hd, rfl⟩ := Option.map_eq_some_iff.mp h
    obtain ⟨j, -, hj, hc⟩ := firstHit_some hd
    exact .inl ⟨j, d, hj, of_decide_eq_true hc, rfl⟩
  obtain ⟨e, he, rfl⟩ := Option.map_eq_some_iff.mp h
  obtain ⟨k, hk⟩ := Fin.exists_eq_some_of_findSome?_eq_some he
  obtain ⟨hk, hc⟩ := Option.filter_eq_some_iff.mp hk
  exact .inr ⟨k, e, hk, of_decide_eq_true hc, rfl⟩

end TenantPool

-- ==== the checks

/-- What the checks establish about the sizes. -/
structure Checked (p : TenantPool) (req : DevBoundsReq) (a : Admitted) :
    Prop where
  pow2 : IsPow2 a.align
  page : 4096 ≤ a.align.toNat
  align_eq : a.align = req.boundsAlign
  size_dvd : a.align.toNat ∣ a.reqSize.toNat
  size_le : a.reqSize.toNat ≤ req.alignedSize.toNat
  arena_eq : a.arenaSz = req.arenaSize
  preferred : req.preferredOffset ≠ OFFSET_AUTO → a.align.toNat ∣ req.preferredOffset.toNat ∧
      req.preferredOffset.toNat + a.reqSize.toNat ≤ p.barSize.toNat

variable {req : DevBoundsReq}

/-- The quota only makes a request smaller, in steps of its alignment. -/
theorem clampToQuota_ok {align size arenaSz avail n : UInt32}
    (hp : IsPow2 align) (hs : align.toNat ∣ size.toNat)
    (h : TenantPool.clampToQuota req align size arenaSz avail = .ok n) :
    align.toNat ∣ n.toNat ∧ n.toNat ≤ size.toNat := by
  unfold TenantPool.clampToQuota at h
  split at h
  · rename_i hover
    dsimp only at h
    split at h
    · rename_i hcl
      cases h
      refine ⟨alignMask_dvd hp _, (alignMask_le hp _).trans ?_⟩
      have hle := hcl.2.2.2.1
      rw [gt_iff_lt, UInt64.lt_iff_toNat_lt, toNat_add_widened, UInt32.toNat_toUInt64] at hover
      rw [UInt32.toNat_sub_of_le _ _ (UInt32.le_iff_toNat_le.mpr hle.le)]
      omega
    · cases h
  · cases h
    exact ⟨hs, Nat.le_refl _⟩

theorem isPow2_of_check {a : UInt32}
    (h : ¬ (a < 4096 ∨ a &&& (a - 1) ≠ 0)) : IsPow2 a ∧ 4096 ≤ a.toNat := by
  rw [not_or, not_not, UInt32.lt_iff_toNat_lt] at h
  have hle : 4096 ≤ a.toNat := Nat.not_lt.mp h.1
  refine ⟨⟨?_, h.2⟩, hle⟩
  rintro rfl
  exact absurd hle (by decide)

variable {a : Admitted} {p : TenantPool}

theorem checkBounds_ok (h : p.checkBounds req = .ok a) : Checked p req a := by
  simp only [TenantPool.checkBounds, guards, pure_ok] at h
  obtain ⟨halign, hbar, hpref, hprefEnd, hbusy, n, hn, rfl⟩ := h
  obtain ⟨hpow, hpage⟩ := isPow2_of_check halign
  have hsize : req.boundsAlign.toNat ∣ req.alignedSize.toNat :=
    alignMask_dvd hpow _
  obtain ⟨hdvd, hle⟩ := clampToQuota_ok hpow hsize hn
  refine ⟨hpow, hpage, rfl, hdvd, hle, rfl, fun hauto => ?_⟩
  rw [not_and, not_not] at hpref
  rw [not_and, gt_iff_lt, UInt64.lt_iff_toNat_lt, toNat_add_widened,
    UInt32.toNat_toUInt64] at hprefEnd
  have hmod := congrArg UInt32.toNat (hpref hauto)
  refine ⟨Nat.dvd_of_mod_eq_zero hmod, ?_⟩
  have := hprefEnd hauto
  dsimp only
  omega

theorem Checked.page_dvd (h : Checked p req a) : 4096 ∣ a.align.toNat := by
  obtain ⟨k, hk⟩ := h.pow2.toNat
  have hpage := h.page
  rw [hk] at hpage ⊢
  have hk12 : 12 ≤ k := by
    by_contra hlt
    have := Nat.pow_lt_pow_right (a := 2) (by omega) (Nat.not_le.mp hlt)
    omega
  exact Nat.pow_dvd_pow 2 hk12

-- ==== the placement

def Admitted.devSpan (a : Admitted) (pl : Placement) : Span :=
  ⟨pl.devStart.toNat, a.reqSize.toNat⟩

def Admitted.arenaSpan (a : Admitted) (pl : Placement) : Span :=
  ⟨pl.arenaStart.toNat, a.arenaSz.toNat⟩

/-- Neither end of a placement wraps. -/
def Admitted.Exact (a : Admitted) (pl : Placement) : Prop :=
  pl.devStart.toNat + a.reqSize.toNat < 2 ^ 32 ∧
    (a.arenaSz > 0 → pl.arenaStart.toNat + a.arenaSz.toNat < 2 ^ 32)

/-- What either placement tests, if its ends are exact. -/
structure Placed (p : TenantPool) (a : Admitted) (pl : Placement) : Prop where
  dev_fits : (a.devSpan pl).Fits p.barSize.toNat
  arena_fits : (a.arenaSpan pl).Fits p.barSize.toNat
  own : (a.devSpan pl).Clear (a.arenaSpan pl)
  free : ∀ ⦃j d⦄, some j ≠ a.existing → p.devices j = some d → ¬ a.Collides pl d
  dev_aligned : a.align.toNat ∣ pl.devStart.toNat
  arena_aligned : 4096 ∣ pl.arenaStart.toNat
  no_arena : ¬ a.arenaSz > 0 → pl.arenaStart = 0

variable {fuel : Nat} {pl : Placement}

/-- At the preferred offset the region was checked in 64 bits; only its
arena can reach past the BAR unseen. -/
theorem placePreferred_placed (hc : Checked p req a) (hoff : req.preferredOffset ≠ OFFSET_AUTO)
    (h : p.placePreferred fuel req.preferredOffset a = .ok pl) (he : a.Exact pl) :
    Placed p a pl := by
  simp only [TenantPool.placePreferred, guards] at h
  obtain ⟨hend, h⟩ := h
  split at h
  · rename_i hnone
    cases h
    obtain ⟨hdvd, hfit⟩ := hc.preferred hoff
    obtain ⟨hdev, harena⟩ := he
    have hfree : ∀ ⦃j d⦄, some j ≠ a.existing → p.devices j = some d →
        ¬ a.Collides (a.preferred req.preferredOffset) d := fun j d hj hd =>
      of_decide_eq_false (p.firstHit_none hnone hj hd)
    rw [not_or, gt_iff_lt, UInt32.lt_iff_toNat_lt] at hend
    by_cases hz : a.arenaSz > 0
    · have hstart : (a.preferred req.preferredOffset).arenaStart.toNat
          = req.preferredOffset.toNat + a.reqSize.toNat := by
        rw [Admitted.preferred, if_pos hz]
        exact toNat_add_lt hdev
      refine ⟨.inr hfit, .inr ?_, .inr (.inr (.inl hstart.ge)), hfree, hdvd, ?_, absurd hz⟩
      · have hle := hend.1
        rw [Admitted.arenaEnd, if_pos hz, toNat_add_lt (harena hz)] at hle
        exact Nat.not_lt.mp hle
      · rw [hstart]
        exact Nat.dvd_add (hc.page_dvd.trans hdvd) (hc.page_dvd.trans hc.size_dvd)
    · have hlen := toNat_of_not_pos hz
      have hstart : (a.preferred req.preferredOffset).arenaStart = 0 := by
        rw [Admitted.preferred, if_neg hz]
      refine ⟨.inr hfit, .inl hlen, .inr (.inl hlen), hfree, hdvd, ?_, fun _ => hstart⟩
      rw [hstart]
      exact Nat.dvd_zero _
  · cases h

variable {c : UInt32}

/-- A candidate of the search is aligned: it is 0, or was rounded up
behind an obstacle. -/
theorem aligned_of_origin {o : UInt32 → Option DevPartition} {step : UInt32} (hstep : IsPow2 step)
    (h : c = 0 ∨ ∃ c', (o c').map (alignUp ·.next step) = some c) :
    step.toNat ∣ c.toNat := by
  rcases h with rfl | ⟨c', h⟩
  · exact Nat.dvd_zero _
  · obtain ⟨d, -, rfl⟩ := Option.map_eq_some_iff.mp h
    exact alignMask_dvd hstep _

/-- Behind its arena a searched region starts at or after the arena's
end: a region that is not empty leaves room for the rounding. -/
theorem Checked.auto_own (hc : Checked p req a) (hz : a.arenaSz > 0)
    (hfit : c.toNat + (a.reqSize.toNat + a.arenaSz.toNat) ≤ p.barSize.toNat) :
    (a.devSpan (a.auto c)).Clear (a.arenaSpan (a.auto c)) := by
  rw [Admitted.devSpan, Admitted.arenaSpan, Admitted.auto, if_pos hz]
  have hbar := p.barSize.toNat_lt
  rcases Nat.eq_zero_or_pos a.reqSize.toNat with hzero | hpos
  · exact .inl hzero
  have halign : a.align.toNat ≤ a.reqSize.toNat :=
    Nat.le_of_dvd hpos hc.size_dvd
  have hend : (c + a.arenaSz).toNat = c.toNat + a.arenaSz.toNat :=
    toNat_add_lt (by omega)
  have hle := le_alignUp (x := c + a.arenaSz) hc.pow2 (by omega)
  rw [hend] at hle
  exact .inr (.inr (.inr hle))

/-- The total of a candidate is tested in 64 bits. -/
theorem Admitted.total_fits (a : Admitted) {bar : UInt32}
    (h : c.toUInt64 + a.total ≤ bar.toUInt64) :
    c.toNat + (a.reqSize.toNat + a.arenaSz.toNat) ≤ bar.toNat := by
  have hsum := toNat_add_widened a.reqSize a.arenaSz
  have hlt₁ := a.reqSize.toNat_lt
  have hlt₂ := a.arenaSz.toNat_lt
  have hlt₃ := c.toNat_lt
  rw [Admitted.total, UInt64.le_iff_toNat_le, toNat_add_exact, hsum,
    UInt32.toNat_toUInt64, UInt32.toNat_toUInt64] at h
  · exact h
  · rw [hsum, UInt32.toNat_toUInt64]
    omega

/-- The search looks at the total in 64 bits; only the end of the region
behind the rounding can wrap unseen. -/
theorem placeAuto_placed (hc : Checked p req a)
    (h : p.placeAuto fuel a = .ok pl) (he : a.Exact pl) : Placed p a pl := by
  unfold TenantPool.placeAuto at h
  split at h
  · cases h
  · cases h
  rename_i c hfound
  cases h
  obtain ⟨⟨htotal, hend⟩, hnone, horigin⟩ := firstFit_found hfound
  obtain ⟨hdev, harena⟩ := he
  have hfree : ∀ ⦃j d⦄, some j ≠ a.existing → p.devices j = some d →
      ¬ a.Collides (a.auto c) d := fun j d hj hd =>
    of_decide_eq_false (p.firstHit_none (Option.map_eq_none_iff.mp hnone) hj hd)
  have hfit := a.total_fits htotal
  rw [Admitted.devEnd, UInt32.le_iff_toNat_le, toNat_add_lt hdev] at hend
  by_cases hz : a.arenaSz > 0
  · rw [if_pos hz] at horigin
    have hpow : IsPow2 4096 := ⟨by decide, by decide⟩
    have hpage := aligned_of_origin hpow horigin
    refine ⟨.inr hend, .inr ?_, hc.auto_own hz hfit, hfree, ?_, ?_, absurd hz⟩
    · rw [Admitted.arenaSpan, Admitted.auto, if_pos hz]
      dsimp only
      omega
    · rw [Admitted.auto, if_pos hz]
      exact alignMask_dvd hc.pow2 _
    · rw [Admitted.auto, if_pos hz]
      exact hpage
  · have hlen := toNat_of_not_pos hz
    have hstart : (a.auto c).arenaStart = 0 := by
      rw [Admitted.auto, if_neg hz]
    rw [if_neg hz] at horigin
    refine ⟨.inr hend, .inl hlen, .inr (.inl hlen), hfree, ?_, ?_, fun _ => hstart⟩
    · rw [Admitted.auto, if_neg hz]
      exact aligned_of_origin hc.pow2 horigin
    · rw [hstart]
      exact Nat.dvd_zero _

theorem place_placed (hc : Checked p req a) (h : p.place fuel req a = .ok pl)
    (he : a.Exact pl) : Placed p a pl := by
  unfold TenantPool.place at h
  split at h
  · rename_i hoff
    exact placePreferred_placed hc hoff h he
  · exact placeAuto_placed hc h he

-- ==== the ends

/-- The BAR leaves room below 4 GiB for the arena and for rounding up
behind it. -/
def TenantPool.RoomFor (p : TenantPool) (req : DevBoundsReq) : Prop :=
  p.barSize.toNat + req.boundsAlign.toNat + req.arenaSize.toNat ≤ 2 ^ 32
  deriving Decidable

/-- Behind every region of the pool there are `room` bytes left to
4 GiB. -/
def TenantPool.Below (p : TenantPool) (room : Nat) : Prop :=
  (∀ j, ∀ d ∈ p.devices j, d.next.toNat + room ≤ 2 ^ 32) ∧
    ∀ k, ∀ e ∈ p.extents k, e.extEnd.toNat + room ≤ 2 ^ 32
  deriving Decidable

theorem place_exact (hc : Checked p req a) (h : p.place fuel req a = .ok pl)
    (hroom : p.RoomFor req) : a.Exact pl := by
  unfold TenantPool.RoomFor at hroom
  rw [← hc.align_eq, ← hc.arena_eq] at hroom
  have hpage := hc.page
  unfold TenantPool.place at h
  split at h
  case isTrue hoff =>
    obtain ⟨-, hfit⟩ := hc.preferred hoff
    simp only [TenantPool.placePreferred, guards] at h
    obtain ⟨-, h⟩ := h
    split at h
    case h_2 => cases h
    cases h
    have hdev : req.preferredOffset.toNat + a.reqSize.toNat < 2 ^ 32 := by omega
    refine ⟨hdev, fun hz => ?_⟩
    rw [Admitted.preferred, if_pos hz]
    dsimp only
    rw [toNat_add_lt hdev]
    omega
  · unfold TenantPool.placeAuto at h
    split at h
    · cases h
    · cases h
    rename_i c hfound
    cases h
    have hfit := a.total_fits (firstFit_found hfound).1.1
    unfold Admitted.Exact Admitted.auto
    split
    case isTrue hz =>
      have hend : (c + a.arenaSz).toNat = c.toNat + a.arenaSz.toNat := toNat_add_lt (by omega)
      have hup := alignUp_lt (x := c + a.arenaSz) hc.pow2 (by omega)
      refine ⟨?_, fun _ => ?_⟩ <;> dsimp only <;> omega
    case isFalse hz => exact ⟨by dsimp only; omega, fun h => absurd h hz⟩

theorem extent_exact {align size : UInt32} {fits : UInt32 → Prop} [DecidablePred fits]
    (ha : IsPow2 align) (hbelow : p.Below (align.toNat + size.toNat))
    (h : firstFit fits (p.extentHit align size) fuel 0 = some (some c)) :
    c.toNat + size.toNat < 2 ^ 32 := by
  have hsize := size.toNat_lt
  obtain ⟨-, -, rfl | ⟨c', hc'⟩⟩ := firstFit_found h
  · rw [UInt32.toNat_zero]
    omega
  rcases TenantPool.extentHit_some hc' with ⟨j, d, hd, -, rfl⟩ | ⟨k, e, he, -, rfl⟩
  · have hroom := hbelow.1 j d hd
    have := alignUp_lt (x := d.next) ha (by omega)
    omega
  · have hroom := hbelow.2 k e he
    have := alignUp_lt (x := e.extEnd) ha (by omega)
    omega

/-- A span whose end was tested in 32 bits fits if the end is exact. -/
theorem fits_of_end {off len bar : UInt32} (h : off + len ≤ bar)
    (hexact : off.toNat + len.toNat < 2 ^ 32) :
    (⟨off.toNat, len.toNat⟩ : Span).Fits bar.toNat := by
  rw [UInt32.le_iff_toNat_le, toNat_add_lt hexact] at h
  exact .inr h

/-- Of a placement each part that ends below 4 GiB ends in the BAR,
whatever the other does. -/
theorem place_ends (h : p.place fuel req a = .ok pl) :
    (pl.devStart.toNat + a.reqSize.toNat < 2 ^ 32 → (a.devSpan pl).Fits p.barSize.toNat) ∧
    (pl.arenaStart.toNat + a.arenaSz.toNat < 2 ^ 32 → (a.arenaSpan pl).Fits p.barSize.toNat) := by
  -- both placements test the two ends, in 32 bits or in 64
  have hends : a.devEnd pl ≤ p.barSize ∧ (a.arenaSz > 0 → pl.arenaStart + a.arenaSz ≤ p.barSize ∨
        pl.arenaStart.toNat + a.arenaSz.toNat ≤ p.barSize.toNat) := by
    unfold TenantPool.place at h
    split at h
    · simp only [TenantPool.placePreferred, guards, not_or] at h
      obtain ⟨⟨harena, hdev⟩, h⟩ := h
      split at h
      · cases h
        refine ⟨UInt32.not_lt.mp hdev, fun hz => .inl ?_⟩
        rw [Admitted.arenaEnd, if_pos hz] at harena
        exact UInt32.not_lt.mp harena
      · cases h
    · unfold TenantPool.placeAuto at h
      split at h
      · cases h
      · cases h
      rename_i c hfound
      cases h
      obtain ⟨⟨htotal, hend⟩, -, -⟩ := firstFit_found hfound
      refine ⟨hend, fun hz => .inr ?_⟩
      rw [Admitted.auto, if_pos hz]
      have hfit := a.total_fits htotal
      dsimp only
      omega
  obtain ⟨hdev, harena⟩ := hends
  refine ⟨fits_of_end hdev, fun hexact => ?_⟩
  by_cases hz : a.arenaSz > 0
  · rcases harena hz with hend | hend
    · exact fits_of_end hend hexact
    · exact .inr hend
  · exact .inl (toNat_of_not_pos hz)

def DevBoundsResp.spans (resp : DevBoundsResp) (req : DevBoundsReq) : List Span :=
  [⟨resp.grantedOffset.toNat, resp.grantedSize.toNat⟩,
    ⟨resp.rpcArenaOffset.toNat, req.arenaSize.toNat⟩]

def MemResp.span (resp : MemResp) : Span :=
  ⟨resp.barOffset.toNat, resp.allocatedSize.toNat⟩

variable {s : Pools} {cid : UInt32}

theorem Pools.setDeviceBounds_ends {s' : Pools} {resp : DevBoundsResp}
    (h : s.setDeviceBounds fuel cid req = .ok (resp, s')) :
    ∃ i p, s.getTenant cid = some (i, p) ∧
      (∀ r ∈ resp.spans req, r.lo + r.len < 2 ^ 32 → r.Fits p.barSize.toNat) ∧
      (p.RoomFor req → ∀ r ∈ resp.spans req, r.lo + r.len < 2 ^ 32) := by
  simp only [Pools.setDeviceBounds, guards, pure_ok] at h
  obtain ⟨-, -, ⟨i, p⟩, hget, ⟨resp', p'⟩, hok, hr⟩ := h
  obtain ⟨rfl, -⟩ := Prod.mk.inj hr
  simp only [TenantPool.setDeviceBounds, guards, pure_ok] at hok
  obtain ⟨a, ha, pl, hpl, k, -, hr⟩ := hok
  obtain ⟨rfl, -⟩ := Prod.mk.inj hr
  obtain ⟨hdev, harena⟩ := place_ends hpl
  have hc := checkBounds_ok ha
  refine ⟨i, p, hget, ?_⟩
  simp only [DevBoundsResp.spans, List.forall_mem_cons, List.not_mem_nil, IsEmpty.forall_iff,
    implies_true, and_true, ← hc.arena_eq]
  by_cases hz : a.arenaSz > 0
  · simp only [TenantPool.grantResp, if_pos hz]
    refine ⟨⟨hdev, harena⟩, fun hroom => ?_⟩
    have hexact := place_exact hc hpl hroom
    exact ⟨hexact.1, hexact.2 hz⟩
  · simp only [TenantPool.grantResp, if_neg hz, toNat_of_not_pos hz]
    exact ⟨⟨hdev, fun _ => .inl rfl⟩, fun hroom => ⟨(place_exact hc hpl hroom).1, by decide⟩⟩

theorem Pools.allocExtent_ends {s' : Pools} {req : MemReq} {physBase : UInt64}
    {resp : MemResp} (h : s.allocExtent fuel cid req physBase = .ok (resp, s')) :
    ∃ i p, s.getTenant cid = some (i, p) ∧
      (resp.span.lo + resp.span.len < 2 ^ 32 → resp.span.Fits p.barSize.toNat) ∧
      (p.Below (req.extentAlign.toNat + req.allocSize.toNat) →
        resp.span.lo + resp.span.len < 2 ^ 32) := by
  simp only [Pools.allocExtent, TenantPool.allocExtent, bind_ok, require_ok,
    exists_unit, pure_ok] at h
  obtain ⟨⟨i, p⟩, hget, ⟨resp', p'⟩, ⟨halign, -, -, -, k, -, found, hfound, c, hc, hr'⟩, hr⟩ := h
  obtain ⟨rfl, -⟩ := Prod.mk.inj hr
  obtain ⟨rfl, -⟩ := Prod.mk.inj hr'
  subst hc
  exact ⟨i, p, hget, fits_of_end (firstFit_found hfound).1,
    fun hbelow => extent_exact (isPow2_of_check (refuseIf_ok.mp halign)).1 hbelow hfound⟩

end AmbaVirt.Pool
