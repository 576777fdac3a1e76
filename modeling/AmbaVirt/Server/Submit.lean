/-
DMA_SUBMIT: whose memory a transfer goes to.

The dispatcher hands the broker a base and a size; the broker checks the
offset and length of the request against the size and adds the offset to
the base. Neither the check nor the address wraps, so a transfer is
inside the range it was checked against (`handleSubmit_within`).

That range is the tenant's slice only for a CID that has one. For every
other the dispatcher passes the whole window, and channels 11 to 16 are
open to every CID from 3 on: a guest that has claimed nothing writes into
the slices of those that have (`submit_without_tenant`).
-/
import AmbaVirt.Server.Binding

namespace AmbaVirt.Server

open Lib Cavalry

variable {n : Nat} {cid : UInt32} {req : DmaSubmit} {x : SlaveXfer} {s : State n}

def SlaveXfer.span (x : SlaveXfer) : Span := ⟨x.bufPhys.toNat, x.bufLen.toNat⟩

def tenantMemory (u : Tenant) : Span := ⟨u.physBase.toNat, u.shmSize.toNat⟩

-- ==== one check

/-- The bounds check, for a request's 32-bit offset and length. -/
theorem validateBufferBounds_ok {offset length : UInt32} {size : UInt64}
    (h : validateBufferBounds offset.toUInt64 length.toUInt64 size = .ok ()) :
    0 < length.toNat ∧ offset.toNat + length.toNat ≤ size.toNat := by
  simp only [validateBufferBounds, guards] at h
  obtain ⟨hlen, -, hsum⟩ := h
  rw [gt_iff_lt, UInt64.lt_iff_toNat_lt, toNat_add_widened] at hsum
  have hpos : length.toNat ≠ 0 := by
    intro hzero
    exact hlen (UInt64.toNat_inj.mp (by rwa [UInt32.toNat_toUInt64]))
  omega

/-- A transfer the broker starts is inside the range it was given, if
that range ends in 64 bits. -/
theorem handleSubmit_within {ch ch' : Channels} {acl : Acl}
    {phys size : UInt64}
    (h : handleSubmit ch acl cid phys size req = .ok (x, ch'))
    (hfits : phys.toNat + size.toNat ≤ 2 ^ 64) :
    x.span.Within ⟨phys.toNat, size.toNat⟩ := by
  simp only [handleSubmit, guards, pure_ok, Prod.mk.injEq] at h
  obtain ⟨-, -, hbounds, -, -, rfl, -⟩ := h
  obtain ⟨hpos, hend⟩ := validateBufferBounds_ok hbounds
  have hexact : (phys + req.bufOffset.toUInt64).toNat = phys.toNat + req.bufOffset.toNat := by
    rw [toNat_add_exact] <;> rw [UInt32.toNat_toUInt64]
    omega
  constructor
  · show phys.toNat ≤ (phys + req.bufOffset.toUInt64).toNat
    omega
  · show (phys + req.bufOffset.toUInt64).toNat + req.bufLen.toNat ≤ phys.toNat + size.toNat
    omega

/-- What a DMA_SUBMIT message dispatches is what the broker started over
the range the dispatcher chose. -/
theorem submit_call_iff {env : MsgEnv} :
    .slaveXfer x ∈ (s.processSubmit cid req env).calls ↔
      ∃ ch, handleSubmit s.channels s.acl cid (s.dmaRange cid).1
        (s.dmaRange cid).2 req = .ok (x, ch) := by
  unfold State.processSubmit
  cases handleSubmit s.channels s.acl cid (s.dmaRange cid).1 (s.dmaRange cid).2 req with
  | error e => simp
  | ok r => simp [Prod.ext_iff, eq_comm]

-- ==== every caller

/-- DMA_SUBMIT confinement: a transfer dispatched for a CID is inside the
slice of that CID's tenant exactly if the CID has a tenant. -/
theorem submit_confined_iff {s : State n} {cid : UInt32}
    {req : Option DmaSubmit} {env : MsgEnv} {out : Outcome n} {x : SlaveXfer}
    (hout : s.processIncomingMsg cid (.dmaSubmit req) env = some out)
    (hx : .slaveXfer x ∈ out.calls) :
    (∃ u, s.proxy.getTenant cid = some u ∧ x.span.bytes ⊆ (tenantMemory u).bytes) ↔
    (s.proxy.getTenant cid).isSome := by
  rw [Option.isSome_iff_exists]
  constructor
  · rintro ⟨u, hu, -⟩
    exact ⟨u, hu⟩
  rintro ⟨u, hu⟩
  refine ⟨u, hu, ?_⟩
  cases req with
  | none =>
    cases hout
    cases hx
  | some req =>
    cases hout
    obtain ⟨ch, hsub⟩ := submit_call_iff.mp hx
    have hrange : s.dmaRange cid = (u.physBase, u.shmSize) := by
      unfold State.dmaRange
      rw [hu]
    rw [hrange] at hsub
    exact (handleSubmit_within hsub u.physFits).bytes_subset

def sampleSubmit : DmaSubmit :=
  { channel := 11, direction := 1, bufOffset := 64, bufLen := 4096
    cookie := 1 }

def sampleXfer : SlaveXfer :=
  { channel := 11, direction := 1, bufPhys := 0x100000040, bufLen := 4096 }

/-- The broker starts the sample transfer for the CID. -/
def Starts (s : State n) (cid : UInt32) : Prop :=
  (handleSubmit s.channels s.acl cid (s.dmaRange cid).1 (s.dmaRange cid).2
    sampleSubmit).toOption.map Prod.fst = some sampleXfer
  deriving Decidable

theorem Starts.call (h : Starts s cid) :
    .slaveXfer sampleXfer ∈ (s.processSubmit cid sampleSubmit {}).calls := by
  obtain ⟨⟨x, ch⟩, hr, rfl⟩ := Option.map_eq_some_iff.mp h
  exact submit_call_iff.mpr ⟨ch, toOption_eq_some.mp hr⟩

/-- CID 7 has claimed slice 0 and sends from it. -/
theorem submit_confined_sample : ∃ t, (serverSystem 8).Reachable t ∧ .slaveXfer sampleXfer
        ∈ (t.server.processSubmit 7 sampleSubmit {}).calls ∧
      ∃ u, t.server.proxy.getTenant 7 = some u ∧
        sampleXfer.span.bytes ⊆ (tenantMemory u).bytes := by
  obtain ⟨t, hreach, hstarts, hten⟩ := exists_reachable (p := fun t => Starts t.server 7 ∧
      (t.server.proxy.getTenant 7).isSome = true)
    [.openNode 0 5, sampleVsockClaim] (by decide)
  have hout : t.server.processIncomingMsg 7 (.dmaSubmit (some sampleSubmit)) {}
      = some (t.server.processSubmit 7 sampleSubmit {}) := rfl
  exact ⟨t, hreach, hstarts.call, (submit_confined_iff hout hstarts.call).mpr hten⟩

/-- CID 9 has no tenant; the transfer dispatched for it is inside the
slice that CID 7 has claimed. -/
theorem submit_without_tenant : ∃ t, (serverSystem 8).Reachable t ∧ .slaveXfer sampleXfer
        ∈ (t.server.processSubmit 9 sampleSubmit {}).calls ∧
      t.server.proxy.getTenant 9 = none ∧
      ∃ u, t.server.proxy.getTenant 7 = some u ∧
        sampleXfer.span.bytes ⊆ (tenantMemory u).bytes := by
  obtain ⟨t, hreach, hstarts, hnone, hten⟩ := exists_reachable (p := fun t => Starts t.server 9 ∧
      (t.server.proxy.getTenant 9).isNone = true ∧
      ((t.server.proxy.getTenant 7).any fun u =>
        decide (sampleXfer.span.Within (tenantMemory u))) = true)
    [.moduleState 0x100000000 0x8000000, .openNode 0 5, sampleVsockClaim]
    (by decide)
  obtain ⟨u, hu, hin⟩ := (Option.any_eq_true _ _).mp hten
  exact ⟨t, hreach, hstarts.call, Option.isNone_iff_eq_none.mp hnone, u, hu,
    (of_decide_eq_true hin).bytes_subset⟩

end AmbaVirt.Server
