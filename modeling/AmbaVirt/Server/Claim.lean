/-
Slice claims, and how the server's tables follow the kernel's bindings
(amba-virt-server.c): the claim branch of `process_incoming_msg`, the
geometry check, `server_restore_bindings` and the admin socket's EVICT.

Which CID a slice belongs to is kept by the kernel, in `bound_cid`, and
by the proxy, in its tenant table. A claim writes both, the kernel's
copy first; a restart rebuilds the second from the first. The kernel
changes its copy on its own when a slice node is opened or closed, and
nothing tells the server.
-/
import AmbaVirt.Cavalry.Tenants
import AmbaVirt.Server.State

namespace AmbaVirt.Server

open Lib Kernel Cavalry Pool

variable {n : Nat}

namespace State

-- ==== claims

/-- The descriptor the kernel bound is the one the server has at its
index. -/
def knows (s : State n) (d : SliceDesc) : Bool :=
  match s.activeSlices[d.index.toNat]? with
  | none => false
  | some a =>
    d.offset == a.offset && d.phys == a.phys &&
      d.sliceSize == a.sliceSize && d.usableSize == a.usableSize

/-- The part of the window a tenant's `shm_map` points to. -/
def submap (s : State n) (d : SliceDesc) : ShmMap :=
  if s.mapped ∧ d.offset + d.sliceSize ≤ s.activeWindowBytes then .mapped
  else .failed

/-- `cavalry_proxy_unregister_tenant`; its result is not looked at. -/
def unregister (s : State n) (cid : UInt32) : State n :=
  match s.proxy.unregisterTenant cid with
  | .ok p => s.setProxy p
  | .error _ => s

def bound (s : State n) (cid : UInt32) (nonce : UInt64) : State n :=
  { s with host := s.host.apply (.bind cid nonce) }

/-- The slice the kernel binds in a claim that gets as far. -/
def claims (s : State n) (cid : UInt32) : Option UInt64 → Option SliceDesc
  | none => none
  | some nonce =>
    if s.geometryMatched = false then none else (s.host.bind cid nonce).toOption

/-- The server has the slice, and the proxy's registration takes it. -/
def Takes (s : State n) (d : SliceDesc) : Prop :=
  s.knows d = true ∧ s.proxy.Registers d.index.toNat (s.submap d) d.usableSize.toUInt64 d.offset

instance (s : State n) (d : SliceDesc) : Decidable (s.Takes d) :=
  inferInstanceAs (Decidable (_ ∧ _))

/-- The SLICE_CLAIM branch of `process_incoming_msg`: the slice, or the
status of the refusal. A claim that fails behind the kernel's bind takes
the binding back. -/
def claimSlice (s : State n) (cid : UInt32) (nonce : Option UInt64) :
    Except Errno SliceDesc × State n :=
  match nonce with
  | none => (.error .EINVAL, s)
  | some nonce =>
    if s.geometryMatched = false then (.error .ENODEV, s)
    else
      match hb : s.host.bind cid nonce with
      | .error e => (.error e, s)
      | .ok d =>
        if s.knows d = false then
          (.error .EINVAL, (s.bound cid nonce).unbindCid cid)
        else
          match s.proxy.registerTenant cid d.index.toNat (-1) (s.submap d)
              d.usableSize.toUInt64 d.phys d.offset
              (Host.guest_of_bind hb) (Host.fits_of_bind hb) with
          | .error e => (.error e, (s.bound cid nonce).unbindCid cid)
          | .ok p =>
            let s' := (s.bound cid nonce).setProxy p
            match s'.poolRegister cid d with
            | (pools, some e) =>
              (.error e, ({ s' with pools }.unregister cid).unbindCid cid)
            | (pools, none) => (.ok d, { s' with pools })

/-- How far a claim gets: refused before the kernel binds, refused
behind it by the server's own checks, refused by the pools, or through. -/
theorem claimSlice_cases {s s' : State n} {cid : UInt32}
    {nonce : Option UInt64} {result : Except Errno SliceDesc}
    (h : s.claimSlice cid nonce = (result, s')) :
    (∃ e, result = .error e ∧ s' = s ∧ s.claims cid nonce = none) ∨
    s.geometryMatched = true ∧ ∃ r d, nonce = some r ∧ ∃ hb : s.host.bind cid r = .ok d,
      (∃ e, result = .error e ∧ s' = (s.bound cid r).unbindCid cid ∧ ¬ s.Takes d) ∨
      ∃ p, s.proxy.registerTenant cid d.index.toNat (-1) (s.submap d)
          d.usableSize.toUInt64 d.phys d.offset (Host.guest_of_bind hb)
          (Host.fits_of_bind hb) = .ok p ∧
        ((∃ e pools, ((s.bound cid r).setProxy p).poolRegister cid d
              = (pools, some e) ∧ result = .error e ∧
            s' = ({ (s.bound cid r).setProxy p with pools }.unregister cid).unbindCid cid) ∨
          ∃ pools, ((s.bound cid r).setProxy p).poolRegister cid d
              = (pools, none) ∧ result = .ok d ∧
            s' = { (s.bound cid r).setProxy p with pools }) := by
  unfold claimSlice at h
  split at h
  · cases h
    exact .inl ⟨_, rfl, rfl, rfl⟩
  case h_2 r =>
  split at h
  case isTrue hno =>
    cases h
    exact .inl ⟨_, rfl, rfl, if_pos hno⟩
  case isFalse hmatched =>
  split at h
  case h_1 e hb =>
    cases h
    refine .inl ⟨_, rfl, rfl, ?_⟩
    simp only [claims, if_neg hmatched, hb]
    rfl
  case h_2 d hb =>
  rw [Bool.not_eq_false] at hmatched
  refine .inr ⟨hmatched, r, d, rfl, hb, ?_⟩
  split at h
  case isTrue hknows =>
    cases h
    exact .inl ⟨_, rfl, rfl, fun ht => Bool.false_ne_true (hknows ▸ ht.1)⟩
  split at h
  case h_1 e hreg =>
    cases h
    refine .inl ⟨_, rfl, rfl, fun ht => ?_⟩
    obtain ⟨p, hp⟩ := registerTenant_of_registers ht.2
    rw [hp] at hreg
    cases hreg
  case h_2 p hreg =>
  refine .inr ⟨p, hreg, ?_⟩
  dsimp only at h
  split at h
  case h_1 pools e hpool =>
    cases h
    exact .inl ⟨e, pools, hpool, rfl, rfl⟩
  case h_2 pools hpool =>
    cases h
    exact .inr ⟨pools, hpool, rfl, rfl⟩

/-- A claim that succeeds is for the slice the kernel knows by the nonce,
one of the eight the proxy has entries for and in the window. -/
theorem claimSlice_ok {s s' : State n} {cid : UInt32} {nonce : Option UInt64} {d : SliceDesc}
    (h : s.claimSlice cid nonce = (.ok d, s')) :
    d.index.toNat < 8 ∧ s.geometryMatched = true ∧ s.mapped = true ∧
      d.offset + d.sliceSize ≤ s.activeWindowBytes ∧
      ∃ i r, nonce = some r ∧ r ≠ 0 ∧ (s.host.slices i).nonce = r ∧
        d = s.host.desc i ∧ (s'.host.slices i).boundCid = cid := by
  rcases claimSlice_cases h with ⟨e, he, -⟩ | ⟨hmatched, r, d', hr, hb, hrest⟩
  · cases he
  rcases hrest with ⟨e, he, -⟩ | ⟨p, hreg, ⟨e, pools, -, he, -⟩ | ⟨pools, -, hd, rfl⟩⟩
  · cases he
  · cases he
  cases hd
  obtain ⟨hidx, -⟩ := registerTenant_ok hreg
  have hmapped : s.mapped ∧ d.offset + d.sliceSize ≤ s.activeWindowBytes := by
    by_contra hno
    exact registerTenant_mapped hreg (if_neg hno)
  obtain ⟨i, hnonce, hne, rfl, -, -, hs⟩ := Host.bind_spec hb
  refine ⟨hidx, hmatched, hmapped.1, hmapped.2, i, r, hr, hne, hnonce, rfl, ?_⟩
  change ((s.host.apply (.bind cid r)).slices i).boundCid = cid
  rw [hs, Function.update_self]

-- ==== geometry

/-- `server_sum_slices`. -/
def sumSlices (l : List SliceDesc) : Option UInt64 :=
  match l with
  | [] => none
  | first :: _ =>
    if l.length > 8 then none
    else l.foldlM (fun sum d =>
      if d.sliceSize = 0 ∨ sum > UINT64_MAX - d.sliceSize then none
      else if d.sliceSize ≠ first.sliceSize then none
      else some (sum + d.sliceSize)) 0

/-- `server_check_geometry`: the slices the kernel enumerates are used
only if the geometry of the window gives the same ones. -/
def checkGeometry (s : State n) : State n :=
  let s := { s with geometryMatched := false, activeSlices := [] }
  if s.infoShmPhys = 0 then s
  else
    match sumSlices s.host.enumSlices with
    | none => s
    | some sum =>
      let s := { s with windowBytes := sum }
      match computeGeometry s.infoShmPhys sum 4096 s.host.enumSlices.length.toUInt32 with
      | none => s
      | some computed =>
        if computed = s.host.enumSlices then
          { s with geometryMatched := true
                   activeSlices := s.host.enumSlices }
        else s

-- ==== restore

/-- One entry of `server_restore_bindings`: a tenant without a pool is
dropped. -/
def restorePool (s : State n) (b : KernelBinding) : State n :=
  match s.poolRegister b.cid b.slice with
  | (pools, some _) => { s with pools }.unregister b.cid
  | (pools, none) => { s with pools }

/-- `server_restore_bindings`. -/
def restoreBindings (s : State n) : State n :=
  match s.proxy.restoreBindings s.host.bindings s.mapped s.activeWindowBytes with
  | (p, .error _) => s.setProxy p
  | (p, .ok _) => s.host.bindings.foldl restorePool (s.setProxy p)

/-- `server_apply_geometry`. -/
def applyGeometry (s : State n) : State n :=
  let s := s.checkGeometry
  match s.activeSlices with
  | [] => s
  | first :: _ =>
    if s.geometryMatched = false then s
    else
      let s :=
        if s.poolReady then s
        else { s with poolReady := true, pools := .init first.usableSize }
      s.restoreBindings

end State

/-- What a new server process starts from. It knows no tenant. -/
structure Boot where
  window : Gdma.Window
  infoShmPhys : UInt64
  infoShmSize : UInt32
  mapped : Bool
  daemon : Daemon
  acl : Acl
  tapReady : Bool
  brokerActive : Bool
  fresh : ∀ i, daemon.proxy.tenants i = none

namespace State

def boot (h : Host n) (b : Boot) : State n :=
  applyGeometry
    { host := h, window := b.window, infoShmPhys := b.infoShmPhys
      infoShmSize := b.infoShmSize, mapped := b.mapped, daemon := b.daemon
      acl := b.acl, tapReady := b.tapReady, brokerActive := b.brokerActive }

/-- The EVICT command: everything the CID allocated goes, and its pool
and its rule. Its tenant entry and its binding stay. -/
def evict (s : State n) (cid : UInt32) : State n :=
  { s.setProxy (s.proxy.clientDisconnect cid) with
    pools := (s.pools.unregisterTenant cid).1
    acl := s.acl.removeRule cid }

end State

end AmbaVirt.Server
