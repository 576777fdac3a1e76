/-
The bookkeeping of the Cavalry proxy: tenants, the slice allocator,
handles, sessions, and the range check every address goes through.

`cavalry_proxy_alloc`, `_free` and `_validate_range` read client CID 0
as "any client". A caller that is a tenant never has it (`Tenant.guest`),
so a range that passed the check for a tenant lies in a slice of that
tenant.

The first-fit search computes in 32 bits and can run for ever on a pool
that ends near 4 GiB, so `allocSearch` takes a number of rounds; a
search that needs more rounds gives `none`.
-/
import AmbaVirt.Kernel.Geometry
import AmbaVirt.Lib.Search
import AmbaVirt.Cavalry.State

namespace AmbaVirt.Cavalry

open Lib Function

-- ==== tenants

/-- `cavalry_proxy_get_tenant`. -/
def Proxy.getTenant (s : Proxy) (cid : UInt32) : Option Tenant :=
  Fin.findSome? fun i => (s.tenants i).filter fun t => t.cid == cid

variable {s : Proxy} {cid : UInt32} {t : Tenant}

theorem Proxy.getTenant_cid (h : s.getTenant cid = some t) : t.cid = cid := by
  obtain ⟨i, hi⟩ := Fin.exists_eq_some_of_findSome?_eq_some h
  exact beq_iff_eq.mp (Option.filter_eq_some_iff.mp hi).2

/-- A caller that is a tenant is not the wildcard client. -/
theorem Proxy.getTenant_ne_zero (h : s.getTenant cid = some t) : cid ≠ 0 := by
  rintro rfl
  have hg := t.guest
  rw [Proxy.getTenant_cid h] at hg
  exact absurd hg (by decide)

/-- `cavalry_proxy_pool_size_for_usable`. -/
def poolSizeForUsable (usableSize : UInt64) : Except Errno UInt32 := do
  refuseIf (usableSize ≤ CAVALRY_POOL_BASE.toUInt64) .EINVAL
  let room := usableSize - CAVALRY_POOL_BASE.toUInt64
  let room :=
    if room > CAVALRY_POOL_SIZE.toUInt64 then CAVALRY_POOL_SIZE.toUInt64
    else room
  refuseIf (room = 0) .EINVAL
  return room.toUInt32

/-- The clearing loop of `cavalry_proxy_client_disconnect`. Freeing a DAG
slot also returns its host memory, which nothing here looks at again. -/
def Proxy.clientDisconnect (s : Proxy) (clientCid : UInt32) : Proxy :=
  { s with
    handles := fun i =>
      if (s.handles i).clientCid = clientCid then
        { s.handles i with inUse := false } else s.handles i
    dags := fun i =>
      if (s.dags i).clientCid = clientCid then
        { s.dags i with inUse := false } else s.dags i
    slices := fun i =>
      if (s.slices i).clientCid = clientCid then
        { s.slices i with inUse := false } else s.slices i }

/-- `cavalry_proxy_close_session`. -/
def Proxy.closeSession (s : Proxy) (clientCid sessionId : UInt32) : Proxy :=
  if sessionId = 0 then s
  else
    { s with
      handles := fun i =>
        if (s.handles i).sessionId = sessionId ∧
            (clientCid = 0 ∨ (s.handles i).clientCid = clientCid) then
          { s.handles i with inUse := false } else s.handles i
      dags := fun i =>
        if (s.dags i).sessionId = sessionId ∧
            (clientCid = 0 ∨ (s.dags i).clientCid = clientCid) then
          { s.dags i with inUse := false } else s.dags i
      slices := fun i =>
        if (s.slices i).sessionId = sessionId ∧
            (clientCid = 0 ∨ (s.slices i).clientCid = clientCid) then
          { s.slices i with inUse := false } else s.slices i }

/-- The tenant table with `t` at its index and no other entry of the
same CID. -/
def Proxy.placeTenant (s : Proxy) (idx : Fin 8) (t : Tenant) : Proxy :=
  { s with
    tenants := fun i =>
      if i = idx then some t
      else (s.tenants i).filter fun u => u.cid != t.cid }

/-- `cavalry_proxy_register_tenant`. Its callers pass a guest CID and the
physical range of a slice the kernel published. A different tenant at
this index is evicted, with everything it had allocated. -/
def Proxy.registerTenant (s : Proxy) (cid : UInt32) (tenantIdx : Nat)
    (windowFd : Int) (shmMap : ShmMap) (shmSize physBase sliceOffset : UInt64)
    (guest : 2 < cid) (physFits : physBase.toNat + shmSize.toNat ≤ 2 ^ 64) :
    Except Errno Proxy :=
  if hidx : tenantIdx < 8 then
    if shmMap = .failed then .error .EINVAL
    else if hfits : sliceOffset > UINT64_MAX - shmSize then .error .EINVAL
    else if s.shmSize > 0 ∧ (sliceOffset > s.shmSize ∨ shmSize > s.shmSize - sliceOffset) then
      .error .EINVAL
    else do
      let poolSize ← poolSizeForUsable shmSize
      let t : Tenant :=
        { cid, tenantIdx
          windowFd := if windowFd ≥ 0 then windowFd else s.windowFd
          shmMap, shmSize, physBase, sliceOffset
          cavalryPoolBase := CAVALRY_POOL_BASE
          cavalryPoolSize := poolSize
          rpcArenaOffset := CAVALRY_RPC_ARENA_OFFSET
          rpcArenaSize := CAVALRY_RPC_ARENA_SIZE
          guest, physFits, fits := not_gt_max_sub.mp hfits }
      let s' := s.placeTenant ⟨tenantIdx, hidx⟩ t
      match s.tenants ⟨tenantIdx, hidx⟩ with
      | some old =>
        return if old.cid ≠ cid then s'.clientDisconnect old.cid else s'
      | none => return s'
  else .error .EINVAL

/-- What `cavalry_proxy_register_tenant` asks of a slice. -/
def Proxy.Registers (s : Proxy) (idx : Nat) (shmMap : ShmMap) (size off : UInt64) : Prop :=
  idx < 8 ∧ shmMap ≠ .failed ∧ off ≤ UINT64_MAX - size ∧
    (s.shmSize = 0 ∨ off ≤ s.shmSize ∧ size ≤ s.shmSize - off) ∧
    CAVALRY_POOL_BASE.toUInt64 < size

instance (s : Proxy) (idx : Nat) (shmMap : ShmMap) (size off : UInt64) :
    Decidable (s.Registers idx shmMap size off) :=
  inferInstanceAs (Decidable (_ ∧ _))

/-- `cavalry_proxy_unregister_tenant`. -/
def Proxy.unregisterTenant (s : Proxy) (cid : UInt32) : Except Errno Proxy :=
  match Fin.find? fun i => (s.tenants i).any fun t => t.cid == cid with
  | some i =>
    .ok ({ s with tenants := update s.tenants i none }
      |>.clientDisconnect cid)
  | none => .error .ENOENT

/-- `cavalry_proxy_set_tenant_bounds`, on the entry
`cavalry_proxy_get_tenant` returns. -/
def Proxy.setTenantBounds (s : Proxy) (cid poolBase poolSize arenaOffset arenaSize : UInt32) :
    Except Errno Proxy :=
  match Fin.find? fun i => (s.tenants i).any fun t => t.cid == cid with
  | some i =>
    .ok { s with
      tenants := update s.tenants i
        ((s.tenants i).map fun t =>
          { t with
            cavalryPoolBase := poolBase, cavalryPoolSize := poolSize
            rpcArenaOffset := arenaOffset, rpcArenaSize := arenaSize }) }
  | none => .error .ENOENT

/-- An entry of the kernel's binding list: a CID and the slice bound to
it, whose physical range does not wrap (`amba_virt_window_ok`). -/
structure KernelBinding where
  cid : UInt32
  slice : Kernel.SliceDesc
  physFits : slice.phys.toNat + slice.usableSize.toUInt64.toNat ≤ 2 ^ 64

/-- The checks of `cavalry_proxy_restore_bindings` on one entry. -/
def KernelBinding.check (b : KernelBinding) (windowSize : UInt64) : Except Errno Unit := do
  refuseIf (b.cid ≤ 2 ∨ b.slice.index ≥ 8) .EINVAL
  refuseIf (b.slice.offset > UINT64_MAX - b.slice.sliceSize) .EINVAL
  refuseIf (windowSize > 0 ∧ (b.slice.offset > windowSize ∨
    b.slice.sliceSize > windowSize - b.slice.offset)) .EINVAL

theorem KernelBinding.guest_of_check {b : KernelBinding} {w : UInt64}
    (h : b.check w = .ok ()) : 2 < b.cid := by
  simp only [KernelBinding.check, guards] at h
  exact UInt32.not_le.mp (not_or.mp h.1).1

def Proxy.registerBindings (s : Proxy) (mapped : Bool) (windowSize : UInt64) :
    (l : List KernelBinding) → (∀ b ∈ l, 2 < b.cid) → Proxy × Except Errno Unit
  | [], _ => (s, .ok ())
  | b :: l, hl =>
    let submap :=
      if mapped ∧ b.slice.offset + b.slice.sliceSize ≤ windowSize then
        ShmMap.mapped
      else .null
    match s.registerTenant b.cid b.slice.index.toNat (-1) submap
        b.slice.usableSize.toUInt64 b.slice.phys b.slice.offset
        (hl b List.mem_cons_self) b.physFits with
    | .error e => (s, .error e)
    | .ok s' =>
      s'.registerBindings mapped windowSize l fun b hb => hl b (List.mem_cons_of_mem _ hb)

/-- `cavalry_proxy_restore_bindings`: all tenants go, then the kernel's
bindings come back. -/
def Proxy.restoreBindings (s : Proxy) (l : List KernelBinding)
    (mapped : Bool) (windowSize : UInt64) : Proxy × Except Errno Unit :=
  if l.length > 8 then (s, .error .EINVAL)
  else
    match hc : checkAll l fun b => b.check windowSize with
    | .error e => (s, .error e)
    | .ok _ =>
      let stale := (List.finRange 8).filterMap fun i =>
        (s.tenants i).map fun t => t.cid
      let s' := stale.foldl Proxy.clientDisconnect { s with tenants := fun _ => none }
      s'.registerBindings mapped windowSize l fun b hb =>
        KernelBinding.guest_of_check (checkAll_ok.mp hc b hb)

-- ==== slices

def Proxy.pool (s : Proxy) (clientCid : UInt32) : UInt32 × UInt32 :=
  let tenant := if clientCid ≠ 0 then s.getTenant clientCid else none
  match tenant with
  | some t =>
    if t.cavalryPoolSize ≠ 0 then (t.cavalryPoolBase, t.cavalryPoolSize)
    else (CAVALRY_POOL_BASE, CAVALRY_POOL_SIZE)
  | none => (CAVALRY_POOL_BASE, CAVALRY_POOL_SIZE)

def SliceEntry.countsFor (e : SliceEntry) (clientCid : UInt32) : Bool :=
  e.inUse && (clientCid == 0 || e.clientCid == clientCid)

def pageAlign (x : UInt32) : UInt32 := (x + 4095) &&& ~~~4095

/-- The first-fit loop of `cavalry_proxy_alloc`, `fuel` rounds of it:
`none` if it is still running, `some none` if the pool is exhausted. -/
def Proxy.allocSearch (s : Proxy) (clientCid alignedSize poolEnd : UInt32) :
    Nat → UInt32 → Option (Option UInt32) :=
  firstFit (· + alignedSize ≤ poolEnd) fun cand =>
    (Fin.find? fun i => (s.slices i).countsFor clientCid &&
        decide (cand < (s.slices i).barOffset + (s.slices i).size) &&
        decide (cand + alignedSize > (s.slices i).barOffset)).map fun i =>
      pageAlign ((s.slices i).barOffset + (s.slices i).size)

/-- `cavalry_proxy_alloc`, with at most `fuel` rounds of the search. -/
def Proxy.alloc (s : Proxy) (fuel : Nat) (size clientCid sessionId : UInt32) :
    Option (Except Errno (UInt32 × Proxy)) :=
  let (poolBase, poolSize) := s.pool clientCid
  if size = 0 then some (.error .EINVAL)
  else if size > poolSize then some (.error .ENOMEM)
  else if pageAlign size > poolSize then some (.error .ENOMEM)
  else
    match Fin.find? fun i => !(s.slices i).inUse with
    | none => some (.error .ENOMEM)
    | some slot =>
      match s.allocSearch clientCid (pageAlign size) (poolBase + poolSize) fuel poolBase with
      | none => none
      | some none => some (.error .ENOMEM)
      | some (some cand) =>
        some (.ok (cand, { s with
          slices := update s.slices slot
            { barOffset := cand, size := pageAlign size, clientCid
              sessionId, inUse := true } }))

/-- `cavalry_proxy_free`: the first slice in use at this offset, if it is
the caller's. -/
def Proxy.free (s : Proxy) (barOffset clientCid : UInt32) : Except Errno Proxy :=
  match Fin.find? fun i =>
      (s.slices i).inUse && (s.slices i).barOffset == barOffset with
  | none => .error .EINVAL
  | some i =>
    if clientCid ≠ 0 ∧ (s.slices i).clientCid ≠ clientCid then
      .error .EPERM
    else
      .ok { s with
        slices := update s.slices i
          { s.slices i with inUse := false } }

-- ==== handles

/-- `g_next_handle_id++`, skipping 0; also how DAG ids are drawn. -/
def nextId (next : UInt32) : UInt32 × UInt32 :=
  if next = 0 then (next + 1, next + 2) else (next, next + 1)

/-- `cavalry_proxy_alloc_handle`. Without a free handle the slice goes
back to the pool. -/
def Proxy.allocHandle (s : Proxy) (fuel : Nat) (size clientCid sessionId : UInt32) :
    Option (Except Errno (UInt32 × UInt32) × Proxy) :=
  if size = 0 then some (.error .EINVAL, s)
  else
    match s.alloc fuel size clientCid sessionId with
    | none => none
    | some (.error e) => some (.error e, s)
    | some (.ok (barOffset, s')) =>
      match Fin.find? fun i => !(s'.handles i).inUse with
      | none =>
        match s'.free barOffset clientCid with
        | .ok s'' => some (.error .ENOMEM, s'')
        | .error _ => some (.error .ENOMEM, s')
      | some slot =>
        let (hid, next) := nextId s'.nextHandleId
        some (.ok (hid, barOffset), { s' with
          nextHandleId := next
          handles := update s'.handles slot
            { handleId := hid, barOffset, size, clientCid, sessionId
              inUse := true } })

/-- `cavalry_proxy_free_handle`. The slice is freed by its offset, and a
failure there is not reported. -/
def Proxy.freeHandle (s : Proxy) (handleId clientCid sessionId : UInt32) : Except Errno Proxy :=
  match Fin.find? fun i =>
      (s.handles i).inUse && (s.handles i).handleId == handleId with
  | none => .error .EINVAL
  | some i =>
    if (s.handles i).sessionId ≠ sessionId ∨
        (clientCid ≠ 0 ∧ (s.handles i).clientCid ≠ clientCid) then
      .error .EACCES
    else
      let s' := { s with
        handles := update s.handles i
          { s.handles i with inUse := false } }
      match s'.free (s.handles i).barOffset clientCid with
      | .ok s'' => .ok s''
      | .error _ => .ok s'

/-- `cavalry_proxy_lookup_handle`. -/
def Proxy.lookupHandle (s : Proxy) (handleId clientCid sessionId : UInt32) :
    Except Errno HandleEntry :=
  match Fin.find? fun i =>
      (s.handles i).inUse && (s.handles i).handleId == handleId with
  | none => .error .EINVAL
  | some i =>
    if (s.handles i).sessionId ≠ sessionId ∨
        (clientCid ≠ 0 ∧ (s.handles i).clientCid ≠ clientCid) then
      .error .EACCES
    else .ok (s.handles i)

/-- `cavalry_proxy_owned_handle`, the lookup of the live path: the
session is not asked for. -/
def Proxy.ownedHandle (s : Proxy) (handleId clientCid : UInt32) : Except Errno HandleEntry :=
  if handleId = 0 ∨ clientCid = 0 then .error .EINVAL
  else
    match Fin.find? fun i =>
        (s.handles i).inUse && (s.handles i).handleId == handleId with
    | none => .error .ENOENT
    | some i =>
      if (s.handles i).clientCid ≠ clientCid then .error .EACCES
      else .ok (s.handles i)

-- ==== what the calls do

section

variable {s' : Proxy} {n : Nat} {size off hid sid : UInt32}

theorem find_free {p : Fin n → Bool} {k : Fin n}
    (h : Fin.find? (fun i => !p i) = some k) : p k = false := by
  have := Fin.eq_true_of_find?_eq_some h
  rwa [Bool.not_eq_true'] at this

theorem alloc_ok (h : s.alloc n size cid sid = some (.ok (off, s'))) :
    ∃ k, (s.slices k).inUse = false ∧ s' = { s with
      slices := update s.slices k
        { barOffset := off, size := pageAlign size, clientCid := cid
          sessionId := sid, inUse := true } } := by
  unfold Proxy.alloc at h
  dsimp only at h
  split at h
  · cases h
  split at h
  · cases h
  split at h
  · cases h
  split at h
  · cases h
  case h_2 slot hslot =>
  split at h
  · cases h
  · cases h
  · cases h
    exact ⟨slot, find_free hslot, rfl⟩

theorem free_ok (h : s.free off cid = .ok s') :
    ∃ k, (s.slices k).inUse = true ∧ (cid ≠ 0 → (s.slices k).clientCid = cid) ∧ s' = { s with
      slices := update s.slices k { s.slices k with inUse := false } } := by
  unfold Proxy.free at h
  split at h
  · cases h
  case h_2 i hi =>
  split at h
  · cases h
  case isFalse hown =>
  cases h
  have huse := Fin.eq_true_of_find?_eq_some hi
  rw [Bool.and_eq_true] at huse
  exact ⟨i, huse.1, fun hc => by_contra fun hne => hown ⟨hc, hne⟩, rfl⟩

/-- A handle is an allocation and a free entry of the handle table; where
there is none the slice goes back, if it can be found. -/
theorem allocHandle_ok {r : Except Errno (UInt32 × UInt32)}
    (h : s.allocHandle n size cid sid = some (r, s')) : s' = s ∨
    ∃ off s₁, s.alloc n size cid sid = some (.ok (off, s₁)) ∧
      (s' = s₁ ∨ s₁.free off cid = .ok s' ∨ ∃ k, (s₁.handles k).inUse = false ∧ s' = { s₁ with
        nextHandleId := (nextId s₁.nextHandleId).2
        handles := update s₁.handles k
          { handleId := (nextId s₁.nextHandleId).1, barOffset := off, size, clientCid := cid
            sessionId := sid, inUse := true } }) := by
  unfold Proxy.allocHandle at h
  split at h
  · cases h
    exact .inl rfl
  split at h
  · cases h
  · cases h
    exact .inl rfl
  case h_3 off s₁ halloc =>
  refine .inr ⟨off, s₁, halloc, ?_⟩
  split at h
  · split at h
    case h_1 s₂ hfree =>
      cases h
      exact .inr (.inl hfree)
    · cases h
      exact .inl rfl
  case h_2 slot hslot =>
    cases h
    exact .inr (.inr ⟨slot, find_free hslot, rfl⟩)

/-- A handle goes in any case, and its slice if it can be freed. -/
theorem freeHandle_ok (h : s.freeHandle hid cid sid = .ok s') :
    ∃ k s₁, (s.handles k).inUse = true ∧ (cid ≠ 0 → (s.handles k).clientCid = cid) ∧
      s₁ = { s with handles := update s.handles k { s.handles k with inUse := false } } ∧
      (s' = s₁ ∨ s₁.free (s.handles k).barOffset cid = .ok s') := by
  unfold Proxy.freeHandle at h
  split at h
  · cases h
  case h_2 i hi =>
  split at h
  · cases h
  case isFalse hown =>
  have huse := Fin.eq_true_of_find?_eq_some hi
  rw [Bool.and_eq_true] at huse
  refine ⟨i, _, huse.1, fun hc => by_contra fun hne => hown (.inr ⟨hc, hne⟩), rfl, ?_⟩
  dsimp only at h
  split at h
  case h_1 s₂ hfree =>
    cases h
    exact .inr hfree
  · cases h
    exact .inl rfl

end

-- ==== the range check

def Tenant.checkWindow (t : Tenant) (shmSize reqEnd : UInt64) : Except Errno Unit := do
  refuseIf (reqEnd > t.shmSize) .EFAULT
  refuseIf (t.sliceOffset > UINT64_MAX - reqEnd) .EFAULT
  refuseIf (shmSize > 0 ∧ t.sliceOffset + reqEnd > shmSize) .EFAULT

/-- `cavalry_proxy_validate_range`: the range lies in the pool and in one
slice of the client. -/
def Proxy.validateRange (s : Proxy) (barOffset size : UInt64)
    (clientCid : UInt32) : Except Errno Unit := do
  let tenant := if clientCid ≠ 0 then s.getTenant clientCid else none
  refuseIf (size = 0) .EINVAL
  refuseIf (clientCid ≠ 0 ∧ tenant.isNone) .ENODEV
  refuseIf (barOffset > UINT64_MAX - size) .EFAULT
  let reqEnd := barOffset + size
  match tenant with
  | some t => t.checkWindow s.shmSize reqEnd
  | none => pure ()
  let (poolBase, poolSize) := s.pool clientCid
  refuseIf (barOffset < poolBase.toUInt64) .EFAULT
  refuseIf (reqEnd > poolBase.toUInt64 + poolSize.toUInt64) .EFAULT
  refuseIf ((Fin.find? fun i => (s.slices i).countsFor clientCid &&
    decide (barOffset ≥ (s.slices i).barOffset.toUInt64) &&
    decide (reqEnd ≤ (s.slices i).barOffset.toUInt64 + (s.slices i).size.toUInt64)).isNone) .EINVAL

/-- The bytes `[addr, addr + size)` lie in one slice in use of a client,
as offsets into its BAR. -/
def Proxy.InSlice (s : Proxy) (clientCid : UInt32) (addr size : Nat) : Prop :=
  ∃ i, (s.slices i).inUse = true ∧ (s.slices i).clientCid = clientCid ∧
    (s.slices i).barOffset.toNat ≤ addr ∧
    addr + size ≤ (s.slices i).barOffset.toNat + (s.slices i).size.toNat

/-- What a range that passed the check for a tenant satisfies. -/
theorem Proxy.validateRange_tenant {a n : UInt64}
    (ht : s.getTenant cid = some t) (h : s.validateRange a n cid = .ok ()) :
    a.toNat + n.toNat ≤ t.shmSize.toNat ∧ s.InSlice cid a.toNat n.toNat := by
  have hcid := Proxy.getTenant_ne_zero ht
  simp only [validateRange, hcid, ht, ne_eq, not_false_eq_true, if_true, Tenant.checkWindow,
    guards] at h
  obtain ⟨-, -, hwrap, ⟨hshm, -, -⟩, -, -, hfind⟩ := h
  have hsum := toNat_add_exact (not_gt_max_sub.mp hwrap)
  constructor
  · rw [← hsum]
    exact UInt64.not_lt.mp hshm
  rw [Option.isNone_iff_eq_none, ← ne_eq, Option.ne_none_iff_exists'] at hfind
  obtain ⟨i, hi⟩ := hfind
  have hp := Fin.eq_true_of_find?_eq_some hi
  simp only [SliceEntry.countsFor, Bool.and_eq_true, Bool.or_eq_true,
    beq_iff_eq, decide_eq_true_eq] at hp
  obtain ⟨⟨⟨huse, hown⟩, hlo⟩, hhi⟩ := hp
  refine ⟨i, huse, hown.resolve_left hcid, ?_, ?_⟩
  · exact hlo
  · rw [← hsum, ← toNat_add_widened]
    exact hhi

theorem Proxy.validateRange_size_ne_zero {a n : UInt64}
    (h : s.validateRange a n cid = .ok ()) : n ≠ 0 := by
  simp only [validateRange, guards] at h
  exact h.1

-- ==== a proxy with guests

/-- A tenant on 1 GiB slice `i` of an 8 GiB window at 4 GiB, as the
registration of CID `i + 3` leaves it. -/
def sampleTenant (i : Fin 8) : Tenant where
  cid := 3 + i.val.toUInt32
  tenantIdx := i
  windowFd := 9
  shmMap := .mapped
  shmSize := 0x3FFFF000
  physBase := 0x100000000 + 0x40000000 * i.val.toUInt64
  sliceOffset := 0x40000000 * i.val.toUInt64
  cavalryPoolBase := CAVALRY_POOL_BASE
  cavalryPoolSize := 0x3DFFF000
  rpcArenaOffset := CAVALRY_RPC_ARENA_OFFSET
  rpcArenaSize := CAVALRY_RPC_ARENA_SIZE
  guest := by revert i; decide
  fits := by revert i; decide
  physFits := by revert i; decide

/-- All eight slices taken; the guest on slice 4 (CID 7) holds one
allocation of 64 KiB. -/
def sampleProxy : Proxy where
  simulated := true
  shmSize := 0x200000000
  physBase := 0x100000000
  tenants i := some (sampleTenant i)
  slices i :=
    if i = 0 then
      { barOffset := CAVALRY_POOL_BASE, size := 0x10000, clientCid := 7
        sessionId := 1, inUse := true }
    else {}

end AmbaVirt.Cavalry
