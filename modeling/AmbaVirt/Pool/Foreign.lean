/-
A tenant's pool beside a range it does not manage.

`Leaves` says that no extent and no region of another device than
Cavalry reaches into a range, and `Reserves` that the range is the
region granted to Cavalry; with the pool's invariant the second gives
the first. What a call leaves of the range follows from the slots it
writes or gives up.
-/
import AmbaVirt.Pool.Answers

namespace AmbaVirt.Pool

open Lib Function

-- ==== the pool

namespace TenantPool

variable {p p' : TenantPool} {w : Span}

/-- An extent, or a region or arena of another device than Cavalry. -/
def Foreign (p : TenantPool) : RegionId → Prop
  | .dev k | .arena k =>
    ∀ d, p.devices k = some d → d.devType ≠ DEV_TYPE_CAVALRY
  | .ext _ => True

/-- Nothing foreign reaches into `w`. -/
def Leaves (p : TenantPool) (w : Span) : Prop :=
  ∀ r, p.Foreign r → w.Clear (p.span r)

/-- `w` is the region granted to Cavalry. -/
def Reserves (p : TenantPool) (w : Span) : Prop :=
  ∃ k d, p.devices k = some d ∧ d.devType = DEV_TYPE_CAVALRY ∧ d.devSpan = w

theorem Inv.leaves (h : p.Inv) (hr : p.Reserves w) : p.Leaves w := by
  obtain ⟨k, d, hd, htype, rfl⟩ := hr
  intro r hf
  have hne : RegionId.dev k ≠ r := by
    rintro rfl
    exact hf d hd htype
  have hclear := h.clear (.dev k) r hne
  rwa [span, hd, Option.elim_some] at hclear

-- ==== what it leaves a window

theorem Leaves.of_fewer (h : p.Leaves w) (hf : p.Fewer p') : p'.Leaves w := by
  intro r hr
  cases r with
  | dev k =>
    rcases hf.devices k with hk | hk
    · rw [Foreign, hk] at hr
      rw [span, hk]
      exact h (.dev k) hr
    · exact .inr (.inl (by rw [span, hk]; rfl))
  | arena k =>
    rcases hf.devices k with hk | hk
    · rw [Foreign, hk] at hr
      rw [span, hk]
      exact h (.arena k) hr
    · exact .inr (.inl (by rw [span, hk]; rfl))
  | ext k =>
    rcases hf.extents k with hk | hk
    · rw [span, hk]
      exact h (.ext k) trivial
    · exact .inr (.inl (by rw [span, hk]; rfl))

theorem Reserves.of_device (h : p.Reserves w) {i : Fin 8} {o : Option DevPartition}
    (hdev : p'.devices = update p.devices i o)
    (hother : ∀ k d, p.devices k = some d →
      d.devType = DEV_TYPE_CAVALRY → k ≠ i) : p'.Reserves w := by
  obtain ⟨k, d, hd, htype, hspan⟩ := h
  refine ⟨k, d, ?_, htype, hspan⟩
  rw [hdev, update_of_ne (hother k d hd htype)]
  exact hd

end TenantPool

end AmbaVirt.Pool
