/-
Freeing by offset (`cavalry_proxy_free`, `cavalry_proxy_free_handle`).

A BAR offset is relative to the slice of its tenant, so two clients
that allocate from fresh pools get the same offset. The search stops at
the first slice in use there, whoever holds it, and refuses a caller
that does not. `free_own_iff` says exactly when a free does what it is
asked to, and `free_blocked` has the two clients. A handle is worse off:
its entry is gone and the call reports success before the slice is looked
for.
-/
import AmbaVirt.Cavalry.PathB

namespace AmbaVirt.Cavalry

open Lib

variable {s : Proxy} {cid off hid sid : UInt32}

-- ==== what free looks at

def Proxy.sliceAt (s : Proxy) (off : UInt32) : Option (Fin 512) :=
  Fin.find? fun i => (s.slices i).inUse && (s.slices i).barOffset == off

def Proxy.handleAt (s : Proxy) (hid : UInt32) : Option (Fin 1024) :=
  Fin.find? fun i => (s.handles i).inUse && (s.handles i).handleId == hid

/-- Slice `i` is in use by the client, at this offset. -/
def Proxy.HoldsAt (s : Proxy) (cid off : UInt32) (i : Fin 512) : Prop :=
  (s.slices i).inUse = true ∧ (s.slices i).clientCid = cid ∧ (s.slices i).barOffset = off
  deriving Decidable

/-- Handle `i` is live for the client and its session. -/
def Proxy.LiveHandle (s : Proxy) (cid hid sid : UInt32) (i : Fin 1024) :
    Prop :=
  (s.handles i).inUse = true ∧ (s.handles i).handleId = hid ∧
    (s.handles i).clientCid = cid ∧ (s.handles i).sessionId = sid

/-- Slice `i` given back, nothing else touched. -/
def Proxy.releaseSlice (s : Proxy) (i : Fin 512) : Proxy :=
  { s with
    slices := Function.update s.slices i { s.slices i with inUse := false } }

/-- Handle `i` given back, nothing else touched. -/
def Proxy.releaseHandle (s : Proxy) (i : Fin 1024) : Proxy :=
  { s with
    handles := Function.update s.handles i
      { s.handles i with inUse := false } }

-- ==== what free is for

/-- `FREE_MEM` returns 0 and gives back one slice, the caller's at this
offset. -/
def Proxy.FreesOwn (s : Proxy) (cid off : UInt32) : Prop :=
  ∃ i, s.HoldsAt cid off i ∧ s.free off cid = .ok (s.releaseSlice i)

/-- `FREE_HANDLE` returns 0 and gives back one handle, the caller's, and
one slice, the caller's at the handle's offset. -/
def Proxy.FreesHandle (s : Proxy) (cid hid sid : UInt32) : Prop :=
  ∃ h i, s.LiveHandle cid hid sid h ∧ s.HoldsAt cid (s.handles h).barOffset i ∧
    s.freeHandle hid cid sid = .ok ((s.releaseHandle h).releaseSlice i)

theorem Proxy.sliceAt_spec {i : Fin 512} (h : s.sliceAt off = some i) :
    (s.slices i).inUse = true ∧ (s.slices i).barOffset = off := by
  have := Fin.eq_true_of_find?_eq_some h
  rwa [Bool.and_eq_true, beq_iff_eq] at this

theorem Proxy.handleAt_spec {i : Fin 1024} (h : s.handleAt hid = some i) :
    (s.handles i).inUse = true ∧ (s.handles i).handleId = hid := by
  have := Fin.eq_true_of_find?_eq_some h
  rwa [Bool.and_eq_true, beq_iff_eq] at this

/-- The whole of `cavalry_proxy_free`, in terms of where it stops. -/
theorem Proxy.free_eq (s : Proxy) (off cid : UInt32) : s.free off cid =
      match s.sliceAt off with
      | none => .error .EINVAL
      | some i =>
        if cid ≠ 0 ∧ (s.slices i).clientCid ≠ cid then .error .EPERM
        else .ok (s.releaseSlice i) := by
  unfold free sliceAt
  cases Fin.find? _ with
  | none => rfl
  | some i => rfl

theorem Proxy.freeHandle_eq (s : Proxy) (hid cid sid : UInt32) : s.freeHandle hid cid sid =
      match s.handleAt hid with
      | none => .error .EINVAL
      | some h =>
        if (s.handles h).sessionId ≠ sid ∨
            (cid ≠ 0 ∧ (s.handles h).clientCid ≠ cid) then .error .EACCES
        else
          match (s.releaseHandle h).free (s.handles h).barOffset cid with
          | .error _ => .ok (s.releaseHandle h)
          | .ok s' => .ok s' := by
  unfold freeHandle handleAt releaseHandle
  cases Fin.find? _ with
  | none => rfl
  | some h =>
    dsimp only
    cases Proxy.free _ _ _ with
    | ok s' => rfl
    | error e => rfl

-- ==== released entries are told apart

theorem Proxy.releaseSlice_inj {i j : Fin 512} (hi : (s.slices i).inUse = true)
    (h : s.releaseSlice i = s.releaseSlice j) : i = j := by
  by_contra hne
  have := congrArg (fun p : Proxy => (p.slices i).inUse) h
  simp [releaseSlice, hne, hi] at this

theorem Proxy.releaseHandle_inj {i j : Fin 1024} (hi : (s.handles i).inUse = true)
    (h : (s.releaseHandle i).handles = (s.releaseHandle j).handles) :
    i = j := by
  by_contra hne
  have := congrArg (fun t => (t i).inUse) h
  simp [releaseHandle, hne, hi] at this

theorem Proxy.sliceAt_releaseHandle (s : Proxy) (h : Fin 1024) :
    (s.releaseHandle h).sliceAt off = s.sliceAt off := rfl

-- ==== the free calls

theorem Proxy.freesOwn_iff (s : Proxy) (cid off : UInt32) : s.FreesOwn cid off ↔
      ∃ i, s.sliceAt off = some i ∧ (s.slices i).clientCid = cid := by
  constructor
  · intro ⟨i, hi, hfree⟩
    rw [free_eq] at hfree
    split at hfree
    · cases hfree
    case h_2 j hj =>
    split at hfree
    · cases hfree
    -- the slice given back is the one the search stopped at
    have hij : i = j := by
      refine releaseSlice_inj hi.1 ?_
      exact (Except.ok.inj hfree).symm
    exact ⟨j, hj, hij ▸ hi.2.1⟩
  · intro ⟨i, hi, hcid⟩
    obtain ⟨huse, hoff⟩ := sliceAt_spec hi
    refine ⟨i, ⟨huse, hcid, hoff⟩, ?_⟩
    rw [free_eq, hi]
    exact if_neg fun h => h.2 hcid

theorem Proxy.freesHandle_iff (s : Proxy) (cid hid sid : UInt32) : s.FreesHandle cid hid sid ↔
      ∃ h i, s.handleAt hid = some h ∧ (s.handles h).clientCid = cid ∧
        (s.handles h).sessionId = sid ∧
        s.sliceAt (s.handles h).barOffset = some i ∧
        (s.slices i).clientCid = cid := by
  constructor
  · intro ⟨h, i, hlive, hi, hfree⟩
    rw [freeHandle_eq] at hfree
    split at hfree
    · cases hfree
    case h_2 k hk =>
    split at hfree
    · cases hfree
    have hslice : ((s.releaseHandle h).releaseSlice i).slices ≠ s.slices := by
      intro heq
      have := congrArg (fun f => (f i).inUse) heq
      simp [releaseSlice, releaseHandle, hi.1] at this
    rw [free_eq] at hfree
    split at hfree
    case h_2 s' hs' =>
      split at hs'
      · cases hs'
      case h_2 j hj =>
      split at hs'
      · cases hs'
      cases hs'
      have hhk : h = k := by
        refine releaseHandle_inj hlive.1 ?_
        exact (congrArg Proxy.handles (Except.ok.inj hfree)).symm
      subst hhk
      have hij : i = j := by
        refine releaseSlice_inj (s := s.releaseHandle h) hi.1 ?_
        exact (Except.ok.inj hfree).symm
      exact ⟨h, j, hk, hlive.2.2.1, hlive.2.2.2, hj, hij ▸ hi.2.1⟩
    -- without the slice the call would leave the table as it is
    case h_1 =>
      have := congrArg Proxy.slices (Except.ok.inj hfree)
      exact absurd this.symm hslice
  · intro ⟨h, i, hh, hcid, hsid, hi, hown⟩
    obtain ⟨huse, hid'⟩ := handleAt_spec hh
    obtain ⟨huse', hoff⟩ := sliceAt_spec hi
    refine ⟨h, i, ⟨huse, hid', hcid, hsid⟩, ⟨huse', hown, hoff⟩, ?_⟩
    have hfree : (s.releaseHandle h).free (s.handles h).barOffset cid
        = .ok ((s.releaseHandle h).releaseSlice i) := by
      rw [free_eq, sliceAt_releaseHandle, hi]
      exact if_neg fun hne => hne.2 hown
    rw [freeHandle_eq, hh]
    dsimp only
    rw [if_neg, hfree]
    intro hne
    rcases hne with hne | hne
    · exact hne hsid
    · exact hne.2 hcid

/-- In every state, a free does what it is for exactly when the search
stops at an entry of the caller: for `FREE_MEM` at its slice, for
`FREE_HANDLE` at its handle and then at its slice. Another client's
slice at the same offset, earlier in the table, is enough to stop it. -/
theorem free_own_iff (s : Proxy) (cid off hid sid : UInt32) : (s.FreesOwn cid off ↔
      ∃ i, s.sliceAt off = some i ∧ (s.slices i).clientCid = cid) ∧
    (s.FreesHandle cid hid sid ↔ ∃ h i, s.handleAt hid = some h ∧ (s.handles h).clientCid = cid ∧
        (s.handles h).sessionId = sid ∧
        s.sliceAt (s.handles h).barOffset = some i ∧
        (s.slices i).clientCid = cid) :=
  ⟨s.freesOwn_iff cid off, s.freesHandle_iff cid hid sid⟩

-- ==== two clients

instance (s : Proxy) (cid hid sid : UInt32) (i : Fin 1024) :
    Decidable (s.LiveHandle cid hid sid i) :=
  inferInstanceAs (Decidable (_ ∧ _))

/-- CID 10 takes a handle on 4 KiB, as CID 7 has done; both are at the
same offset of their own slices. -/
def sampleHandles : Proxy := sampleUp.apply (.allocHandle 2 0x1000 10 1)

theorem reachable_sampleHandles : proxySystem.Reachable sampleHandles := by
  have hboot : (proxySystem.restrict RegisterInside).Reachable sampleBoot :=
    .init ⟨fun _ => rfl, fun _ => rfl, fun _ => rfl, fun _ => rfl⟩
  have hup : (proxySystem.restrict RegisterInside).Reachable sampleUp :=
    reachable_foldl sampleBringUp (by simp [sampleBringUp, sampleTenants]) hboot
  exact hup.of_restrict.step rfl

/-- CID 10 holds a slice at the start of its pool and cannot free it,
because CID 7 allocated there first; it frees its handle, is told so,
and keeps the slice. -/
theorem free_blocked : ∃ s, proxySystem.Reachable s ∧ (∃ i, s.HoldsAt 10 CAVALRY_POOL_BASE i) ∧
      s.free CAVALRY_POOL_BASE 10 = .error .EPERM ∧
      ∃ h i, s.LiveHandle 10 2 1 h ∧ s.HoldsAt 10 (s.handles h).barOffset i ∧
        ∃ s', s.freeHandle 2 10 1 = .ok s' ∧ s'.HoldsAt 10 (s.handles h).barOffset i := by
  have hrun : sampleHandles.HoldsAt 10 CAVALRY_POOL_BASE 1 ∧
      errorOf (sampleHandles.free CAVALRY_POOL_BASE 10) = some .EPERM ∧
      sampleHandles.LiveHandle 10 2 1 1 ∧
      sampleHandles.HoldsAt 10 (sampleHandles.handles 1).barOffset 3 := by
    decide +kernel
  obtain ⟨hslice, hfree, hlive, hown⟩ := hrun
  refine ⟨sampleHandles, reachable_sampleHandles, ⟨1, hslice⟩,
    eq_error_of_errorOf hfree, 1, 3, hlive, hown, ?_⟩
  exact exists_ok_of_any (by decide +kernel)

end AmbaVirt.Cavalry
