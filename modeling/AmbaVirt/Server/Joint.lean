/-
Two allocators on one BAR: the pools, which place device regions and
extents (virt_mem_pool.c), and the Cavalry proxy, which places slices in
a window of its own (cavalry_proxy.c).

Neither looks at the other's table. The window is the pools' business
only while it is the region granted to Cavalry; a guest that has not
negotiated one, or has released it, allocates in a default window that
the pools hand out to everybody else. And new bounds move the window
but not the slices already in it.

`Joint` says of a guest that its slices lie in its window and that no
extent and no other device's region reaches into a window in use.
`Orderly` says by the message and the two tables before it what a guest
must not ask for.
-/
import AmbaVirt.Pool.Foreign
import AmbaVirt.Cavalry.Window
import AmbaVirt.Server.Turn

namespace AmbaVirt.Server

open Lib Kernel Cavalry Pool Function

variable {n : Nat} {s s' : State n} {c : UInt32}

-- ==== one guest

/-- The messages that reach the two allocators. -/
def Msg.Allocates : Msg → Prop
  | .memAlloc (some _) | .devSetBounds (some _) | .devReleaseBounds (some _) =>
    True
  | .cavalry (some (code, _)) =>
    Opcode.ofCode code = some .allocMem ∨ Opcode.ofCode code = some .freeMem
  | _ => False

instance : (m : Msg) → Decidable m.Allocates
  | .memAlloc (some _) | .devSetBounds (some _) | .devReleaseBounds (some _) =>
    .isTrue trivial
  | .cavalry (some (code, _)) =>
    inferInstanceAs (Decidable (Opcode.ofCode code = some .allocMem ∨
        Opcode.ofCode code = some .freeMem))
  | .memAlloc none | .devSetBounds none | .devReleaseBounds none |
    .cavalry none | .short | .ping | .shmNotify | .echo | .benchBurst |
    .cavalryMock | .gdma .. | .iav _ | .iavTap _ | .iavSlice _ | .pools |
    .query | .dmaSlaveCfg _ | .dmaSubmit _ | .dmaTerminate _ | .dmaRequest _ |
    .sliceClaim _ | .unknown _ => .isFalse id

/-- A guest that has just claimed its slice, and then any of its
allocator messages. -/
def guestSystem (n : Nat) (c : UInt32) : System (State n) (Msg × MsgEnv) where
  init s := s.proxy.getTenant c ≠ none ∧ (∀ k, ¬ s.proxy.Holds c k) ∧
    ∀ i p, s.pools.getTenant c = some (i, p) → p.Fresh
  step s e s' := e.1.Allocates ∧ ∃ out, s.processIncomingMsg c e.1 e.2 = some out ∧ s' = out.server

/-- No slice of the guest has a byte of one of its extents or of a region
or arena of another device. -/
def State.Unshared (s : State n) (c : UInt32) : Prop :=
  ∀ k, s.proxy.Holds c k → ∀ i p, s.pools.getTenant c = some (i, p) → ∀ r, p.Foreign r →
      Disjoint (s.proxy.slices k).span.bytes (p.span r).bytes

def State.Unused (s : State n) (c : UInt32) : Prop :=
  ∀ k, ¬ s.proxy.Holds c k

/-- The guest's window is the region its pool has granted to Cavalry. -/
def State.Reserved (s : State n) (c : UInt32) : Prop :=
  ∃ i p, s.pools.getTenant c = some (i, p) ∧ p.Reserves (s.proxy.window c)

/-- The guest's window is free of everything foreign. -/
def State.Left (s : State n) (c : UInt32) : Prop :=
  ∀ i p, s.pools.getTenant c = some (i, p) → p.Leaves (s.proxy.window c)

/-- What a message needs of the tables before it.

- The pools' own calls are exact.
- A slice is asked for only in a window that is reserved or otherwise
  free, with room behind it for the search.
- While a slice is in use memory and other devices' bounds are asked for
  only if the window is reserved, and Cavalry bounds are neither set nor
  released. -/
def Orderly (c : UInt32) (s : State n) : Msg × MsgEnv → Prop
  | (.cavalry (some (code, req)), _) =>
    Opcode.ofCode code = some .allocMem → (s.Reserved c ∨ s.Left c) ∧ s.proxy.RoomFor c req.size
  | (.memAlloc (some (.alloc req)), _) =>
    s.pools.Exact (.allocExtent c req 0) ∧ (s.Reserved c ∨ s.Unused c)
  | (.devSetBounds (some req), _) =>
    s.pools.Exact (.setDeviceBounds c req) ∧
      (s.Unused c ∨ req.devType ≠ DEV_TYPE_CAVALRY ∧ s.Reserved c)
  | (.devReleaseBounds (some devType), _) =>
    devType = DEV_TYPE_CAVALRY → s.Unused c
  | _ => True

-- ==== the law

/-- The guest's slices lie in its window, and a window in use is free of
everything foreign. -/
structure State.Joint (s : State n) (c : UInt32) : Prop where
  tenant : s.proxy.getTenant c ≠ none
  pool : ∀ ⦃i p⦄, s.pools.getTenant c = some (i, p) → p.Inv
  within : ∀ k, s.proxy.Holds c k → (s.proxy.slices k).span.Within (s.proxy.window c)
  left : s.Unused c ∨ s.Left c

theorem State.Left.of_reserved (hpool : ∀ ⦃i p⦄, s.pools.getTenant c = some (i, p) → p.Inv)
    (h : s.Reserved c) : s.Left c := by
  obtain ⟨i, p, hget, hres⟩ := h
  intro j q hq
  rw [hget] at hq
  cases hq
  exact (hpool hget).leaves hres

theorem State.Joint.unshared (h : s.Joint c) : s.Unshared c := by
  intro k hk i p hget r hf
  rcases h.left with hno | hleft
  · exact absurd hk (hno k)
  · exact (hleft i p hget r hf).disjoint.mono_left (Span.Within.bytes_subset (h.within k hk))

-- ---- a call of the pool

theorem State.Joint.setPool (h : s.Joint c) {i : Fin 8} {p p' : TenantPool}
    (hget : s.pools.getTenant c = some (i, p)) (hcid : p'.cid = p.cid)
    (hinv : p'.Inv) (hleft : s.Unused c ∨ p'.Leaves (s.proxy.window c)) :
    ({ s with pools := s.pools.setTenant i (some p') } : State n).Joint c := by
  have hback := Pools.getTenant_setTenant hget p' hcid
  refine ⟨h.tenant, ?_, h.within, ?_⟩
  · intro j q hq
    cases hback.symm.trans hq
    exact hinv
  rcases hleft with hno | hleft
  · exact .inl hno
  right
  intro j q hq
  cases hback.symm.trans hq
  exact hleft

theorem State.Joint.fewer (h : s.Joint c) {i : Fin 8} {p p' : TenantPool}
    (hget : s.pools.getTenant c = some (i, p)) (hf : p.Fewer p') (hinv : p'.Inv) :
    ({ s with pools := s.pools.setTenant i (some p') } : State n).Joint c :=
  h.setPool hget hf.cid hinv (h.left.imp_right fun hleft => (hleft i p hget).of_fewer hf)

/-- Where the window is reserved the pool's invariant is enough. -/
theorem State.Reserved.reserves (h : s.Reserved c) {i : Fin 8}
    {p : TenantPool} (hget : s.pools.getTenant c = some (i, p)) :
    p.Reserves (s.proxy.window c) := by
  obtain ⟨j, q, hq, hres⟩ := h
  cases hget.symm.trans hq
  exact hres

variable {env : MsgEnv} {pools : Pools}

theorem State.Joint.allocExtent (h : s.Joint c) {req : MemReq} {phys : UInt64} {resp : MemResp}
    (hok : s.pools.allocExtent env.fuel c req phys = .ok (resp, pools))
    (hexact : s.pools.Exact (.allocExtent c req 0)) (hwin : s.Reserved c ∨ s.Unused c) :
    ({ s with pools } : State n).Joint c := by
  simp only [Pools.allocExtent, guards, pure_ok] at hok
  obtain ⟨⟨i, p⟩, hget, ⟨resp', p'⟩, hok, hr⟩ := hok
  obtain ⟨rfl, rfl⟩ := Prod.mk.inj hr
  obtain ⟨hdev, hcid⟩ := TenantPool.allocExtent_spec hok
  have hinv : p'.Inv := (h.pool hget).allocExtent (hexact _ hget) hok
  refine h.setPool hget hcid hinv ?_
  rcases hwin with hres | hno
  · obtain ⟨k, d, hd, hrest⟩ := hres.reserves hget
    exact .inr (hinv.leaves ⟨k, d, by rw [hdev]; exact hd, hrest⟩)
  · exact .inl hno

theorem State.Joint.freeExtent (h : s.Joint c) (barOffset : UInt32) :
    ({ s with pools := (s.pools.freeExtent c barOffset).1 } : State n).Joint
      c := by
  unfold Pools.freeExtent
  split
  · exact h
  case h_2 i p hget =>
  exact h.fewer hget (p.freeExtent_spec barOffset) ((h.pool hget).freeExtent barOffset)

variable {out : Outcome n}

theorem State.Joint.processMem (h : s.Joint c) {op : MemOp}
    (ho : Orderly c s (.memAlloc (some op), env))
    (hout : s.processMem c op env = some out) : out.server.Joint c := by
  unfold State.processMem at hout
  split at hout
  · cases hout
    exact h
  split at hout
  case h_1 req =>
    dsimp only at hout
    split at hout
    · cases hout
    · cases hout
      exact h
    case h_3 resp pools hok =>
    cases hout
    exact h.allocExtent hok ho.1 ho.2
  case h_2 barOffset =>
    cases hout
    exact h.freeExtent barOffset
  · cases hout
    exact h

-- ---- device bounds

variable {req : DevBoundsReq}

theorem State.Joint.bounds (h : s.Joint c) {resp : DevBoundsResp}
    (hok : s.pools.setDeviceBounds env.fuel c req = .ok (resp, pools))
    (hexact : s.pools.Exact (.setDeviceBounds c req))
    (hwin : s.Unused c ∨ req.devType ≠ DEV_TYPE_CAVALRY ∧ s.Reserved c) :
    ({ s with pools } : State n).Joint c := by
  simp only [Pools.setDeviceBounds, guards, pure_ok] at hok
  obtain ⟨-, -, ⟨i, p⟩, hget, ⟨resp', p'⟩, hok, hr⟩ := hok
  obtain ⟨rfl, rfl⟩ := Prod.mk.inj hr
  have hinv : p'.Inv := (h.pool hget).setDeviceBounds (hexact _ hget) hok
  obtain ⟨hcid, j, d, hdev, hother⟩ := TenantPool.setDeviceBounds_spec hok
  refine h.setPool hget hcid hinv ?_
  rcases hwin with hno | ⟨htype, hres⟩
  · exact .inl hno
  · refine .inr (hinv.leaves ((hres.reserves hget).of_device hdev ?_))
    intro k d' hd' htype'
    exact hother k d' hd' (htype' ▸ htype.symm)

theorem State.Joint.move (h : s.Joint c) (hno : s.Unused c) (base size aoff asize : UInt32) :
    (s.setTenantBounds c base size aoff asize).Joint c := by
  obtain ⟨t, ht⟩ := Option.ne_none_iff_exists'.mp h.tenant
  obtain ⟨p₁, hset, hslices, hten⟩ := Cavalry.setTenantBounds_spec (s := s.proxy) ht
  unfold State.setTenantBounds
  rw [hset]
  have hno' : (s.setProxy p₁).Unused c := by
    intro k hk
    replace hk : p₁.Holds c k := hk
    unfold Proxy.Holds at hk
    rw [hslices] at hk
    exact hno k hk
  exact ⟨hten, h.pool, fun k hk => absurd hk (hno' k), .inl hno'⟩

section

variable (h : s.Joint c)

include h

theorem State.Joint.processSetBounds (ho : Orderly c s (.devSetBounds (some req), env))
    (hout : s.processSetBounds c req env = some out) : out.server.Joint c := by
  obtain ⟨hexact, hwin⟩ := ho
  unfold State.processSetBounds at hout
  split at hout
  · cases hout
    exact h
  split at hout
  · cases hout
  · cases hout
    exact h
  case h_3 resp pools hok =>
  cases hout
  have hpools := h.bounds hok hexact hwin
  split
  case isTrue htype =>
    -- only a guest without slices gets here
    rcases hwin with hno | ⟨hne, -⟩
    · exact hpools.move hno ..
    · exact absurd htype hne
  case isFalse => exact hpools

theorem State.Joint.releasePools (devType : UInt32) :
    ({ s with pools := (s.pools.releaseDeviceBounds c devType).1 } : State n).Joint c := by
  unfold Pools.releaseDeviceBounds
  split
  · exact h
  case h_2 i p hget =>
  split
  · exact h
  case h_2 p' hrel =>
  exact h.fewer hget (TenantPool.releaseDeviceBounds_spec hrel)
    ((h.pool hget).releaseDeviceBounds hrel)

theorem State.Joint.processReleaseBounds {devType : UInt32}
    (ho : devType = DEV_TYPE_CAVALRY → s.Unused c) :
    (s.processReleaseBounds c devType).server.Joint c := by
  have hpools := h.releasePools devType
  unfold State.processReleaseBounds
  dsimp only
  split
  case isTrue htype =>
    split
    · exact hpools
    · split
      · exact hpools
      · exact hpools.move (ho htype) ..
  case isFalse => exact hpools

-- ---- slices

/-- A slice in a window that is free. -/
theorem State.Joint.alloc {rounds : Nat} {size sid off : UInt32} {p' : Proxy}
    (hok : s.proxy.alloc rounds size c sid = some (.ok (off, p')))
    (hleft : s.Left c) (hroom : s.proxy.RoomFor c size) (hproxy : s'.proxy = p')
    (hpools : s'.pools = s.pools) : s'.Joint c := by
  obtain ⟨t, ht⟩ := Option.ne_none_iff_exists'.mp h.tenant
  have hin := alloc_within (Proxy.getTenant_ne_zero ht) hroom h.within hok
  obtain ⟨k, -, hp⟩ := alloc_ok hok
  have hten : p'.tenants = s.proxy.tenants := by rw [hp]
  have hslices : p'.slices = update s.proxy.slices k ⟨off, pageAlign size, c, sid, true⟩ := by
    rw [hp]
  have hwin : s'.proxy.window c = s.proxy.window c := by
    rw [hproxy]
    exact window_of_tenants hten c
  refine ⟨?_, ?_, ?_, .inr ?_⟩
  · rw [hproxy]
    unfold Proxy.getTenant
    rw [hten]
    exact h.tenant
  · rw [hpools]
    exact h.pool
  · intro j hj
    rw [hwin]
    rw [hproxy] at hj ⊢
    by_cases hjk : j = k
    · rw [hslices, hjk, update_self]
      exact hin
    · unfold Proxy.Holds at hj
      rw [hslices, update_of_ne hjk] at hj ⊢
      exact h.within j hj
  · unfold State.Left
    rw [hwin, hpools]
    exact hleft

theorem State.Joint.free {off : UInt32} {p' : Proxy}
    (hok : s.proxy.free off c = .ok p') (hproxy : s'.proxy = p')
    (hpools : s'.pools = s.pools) : s'.Joint c := by
  obtain ⟨hten, hslices⟩ := free_spec hok
  have hwin : s'.proxy.window c = s.proxy.window c := by
    rw [hproxy]
    exact window_of_tenants hten c
  refine ⟨?_, ?_, ?_, ?_⟩
  · rw [hproxy]
    unfold Proxy.getTenant
    rw [hten]
    exact h.tenant
  · rw [hpools]
    exact h.pool
  · intro k hk
    rw [hwin]
    rw [hproxy] at hk ⊢
    obtain ⟨hold, hsame⟩ := hslices k hk
    rw [hsame]
    exact h.within k hold
  · rcases h.left with hno | hleft
    · left
      intro k hk
      rw [hproxy] at hk
      exact hno k (hslices k hk).1
    · right
      unfold State.Left
      rw [hwin, hpools]
      exact hleft

theorem State.Joint.of_same (hproxy : s'.proxy = s.proxy)
    (hpools : s'.pools = s.pools) : s'.Joint c := by
  obtain ⟨htenant, hpool, hwithin, hleft⟩ := h
  unfold State.Unused State.Left at hleft
  rw [← hproxy] at htenant hwithin hleft
  rw [← hpools] at hpool hleft
  exact ⟨htenant, hpool, hwithin, hleft⟩

theorem State.Joint.processCavalry {code : UInt32} {req : Rpc}
    (hop : Opcode.ofCode code = some .allocMem ∨ Opcode.ofCode code = some .freeMem)
    (ho : Orderly c s (.cavalry (some (code, req)), env))
    (hout : s.processCavalry c code req env = some out) :
    out.server.Joint c := by
  unfold State.processCavalry at hout
  split at hout
  · cases hout
    exact h
  split at hout
  · cases hout
    exact h
  split at hout
  · cases hout
  case h_2 reply d hrpc =>
  cases hout
  obtain ⟨halloc, hfree⟩ := handleRpc_slices hrpc
  rcases hop with hop | hop
  · rcases halloc hop with hsame | ⟨off, hok⟩
    · exact h.of_same hsame rfl
    obtain ⟨hwin, hroom⟩ := ho hop
    refine h.alloc hok ?_ hroom rfl rfl
    rcases hwin with hres | hleft
    · exact .of_reserved h.pool hres
    · exact hleft
  · rcases hfree hop with hsame | hok
    · exact h.of_same hsame rfl
    · exact h.free hok rfl rfl

end

-- ==== whole runs

theorem State.Joint.init (h : (guestSystem n c).init s) : s.Joint c := by
  obtain ⟨htenant, hno, hfresh⟩ := h
  refine ⟨htenant, ?_, fun k hk => absurd hk (hno k), .inl hno⟩
  intro i p hget
  have hp := hfresh i p hget
  exact TenantPool.inv_of_empty hp.devices hp.extents

variable {e : Msg × MsgEnv}

theorem State.Joint.step (h : s.Joint c) (ho : Orderly c s e)
    (hs : (guestSystem n c).step s e s') : s'.Joint c := by
  obtain ⟨m, env⟩ := e
  obtain ⟨hm, out, hout, rfl⟩ := hs
  unfold Msg.Allocates at hm
  dsimp only at hm hout
  split at hm
  case h_1 op => exact h.processMem ho hout
  case h_2 req => exact h.processSetBounds ho hout
  case h_3 devType =>
    cases hout
    exact h.processReleaseBounds ho
  case h_4 code req => exact h.processCavalry hm ho hout
  case h_5 => exact absurd hm id

/-- The two allocators, along every run of orderly messages of a guest:
no slice of it has a byte of one of its extents, or of a region or arena
of another device. -/
theorem allocators_unshared (h : ((guestSystem n c).restrict (Orderly c)).Reachable s) :
    s.Unshared c := by
  have hjoint : s.Joint c := by
    apply System.Reachable.induct (I := fun s => s.Joint c) _ _ h
    · intro s hs
      exact .init hs
    · intro s e s' _ hj hstep
      exact hj.step hstep.1 hstep.2
  exact hjoint.unshared

-- ==== sample runs

/-- One message of `c`, if it reaches an allocator. -/
def State.exec (c : UInt32) (s : State n) (e : Msg × MsgEnv) : Option (State n) :=
  if e.1.Allocates then (s.processIncomingMsg c e.1 e.2).map Outcome.server
  else none

theorem State.step_of_exec (h : s.exec c e = some s') : (guestSystem n c).step s e s' := by
  unfold State.exec at h
  split at h
  case isFalse => cases h
  case isTrue hm =>
    obtain ⟨out, hout, rfl⟩ := Option.map_eq_some_iff.mp h
    exact ⟨hm, out, hout, rfl⟩

def sampleGuest : State 8 := (sampleOpened.server.claimSlice 7 (some 5)).2

theorem sampleGuest_init : (guestSystem 8 7).init sampleGuest := by
  refine ⟨?_, ?_, ?_⟩
  · exact Option.isSome_iff_ne_none.mp (by decide)
  · intro k hk
    cases hk.1
  · intro i p hget
    have hfresh : (sampleGuest.pools.getTenant 7).all (fun q =>
        decide (q.2.allocatedBytes = 0 ∧ (∀ k, (q.2.devices k).isNone = true) ∧
          ∀ k, (q.2.extents k).isNone = true)) = true := by
      decide +kernel
    rw [hget, Option.all_some] at hfresh
    obtain ⟨halloc, hdev, hext⟩ := of_decide_eq_true hfresh
    exact ⟨fun k => Option.isNone_iff_eq_none.mp (hdev k),
      fun k => Option.isNone_iff_eq_none.mp (hext k), halloc⟩

def largeExtent : Msg × MsgEnv :=
  (.memAlloc (some (.alloc { size := 0x2800000, align := 0, devAffinity := 0, flags := 0 })), {})

def cavalryPage : Msg × MsgEnv :=
  (.cavalry (some (5, { sessionId := 1, size := 4096 })),
    { rpc := { device := { reopens := true } } })

def cavalryRegion : Msg × MsgEnv :=
  (.devSetBounds (some
    { devType := DEV_TYPE_CAVALRY, requestedSize := 0x1000000
      preferredOffset := OFFSET_AUTO, rpcArenaSize := 0, align := 0
      flags := 0 }), {})

def cavalryRelease : Msg × MsgEnv :=
  (.devReleaseBounds (some DEV_TYPE_CAVALRY), {})

def State.reservedCheck (s : State n) (c : UInt32) : Bool :=
  (s.pools.getTenant c).any fun q => decide (∃ k, ((q.2.devices k).any fun d =>
      decide (d.devType = DEV_TYPE_CAVALRY ∧ d.devSpan = s.proxy.window c)) = true)

theorem State.reserved_of_check (h : s.reservedCheck c = true) : s.Reserved c := by
  obtain ⟨⟨i, p⟩, hget, hk⟩ := Option.any_eq_true _ _ |>.mp h
  obtain ⟨k, hd⟩ := of_decide_eq_true hk
  obtain ⟨d, hd, hspan⟩ := Option.any_eq_true _ _ |>.mp hd
  exact ⟨i, p, hget, k, d, hd, of_decide_eq_true hspan⟩

/-- Whether a message is orderly where the window is reserved or not yet
used. -/
def State.orderlyCheck (c : UInt32) (s : State n) : Msg × MsgEnv → Bool
  | (.cavalry (some (_, req)), _) => s.reservedCheck c && decide (s.proxy.RoomFor c req.size)
  | (.memAlloc (some (.alloc req)), _) =>
    s.reservedCheck c && decide (∀ t ∈ s.pools.getTenant c,
      t.2.Below (req.extentAlign.toNat + req.allocSize.toNat))
  | (.devSetBounds (some req), _) =>
    decide (∀ k, ¬ s.proxy.Holds c k) && decide (∀ t ∈ s.pools.getTenant c, t.2.Admits req)
  | _ => false

theorem State.orderly_of_check (h : s.orderlyCheck c e = true) :
    Orderly c s e := by
  unfold State.orderlyCheck at h
  split at h
  case h_4 => cases h
  all_goals
    rw [Bool.and_eq_true] at h
    have hdec := of_decide_eq_true h.2
  case h_1 => exact fun _ => ⟨.inl (State.reserved_of_check h.1), hdec⟩
  case h_2 => exact ⟨hdec, .inl (State.reserved_of_check h.1)⟩
  case h_3 =>
    have hno : ∀ k, ¬ s.proxy.Holds c k := of_decide_eq_true h.1
    exact ⟨hdec, .inl hno⟩

/-- A guest negotiates a region, gets a page in it, and then memory. -/
theorem allocators_unshared_sample : ∃ s, ((guestSystem 8 7).restrict (Orderly 7)).Reachable s ∧
      s.proxy.Holds 7 0 ∧
      ((s.pools.getTenant 7).any fun q => (q.2.extents 0).isSome) = true ∧
      s.Unshared 7 := by
  have hinit : ((guestSystem 8 7).restrict (Orderly 7)).Reachable sampleGuest :=
    .init sampleGuest_init
  obtain ⟨s, hs, hhold, hext⟩ := hinit.exists_exec
    (f := fun s e => if s.orderlyCheck 7 e then s.exec 7 e else none)
    (p := fun s => s.proxy.Holds 7 0 ∧
      ((s.pools.getTenant 7).any fun q => (q.2.extents 0).isSome) = true)
    (l := [cavalryRegion, cavalryPage, largeExtent])
    (by
      intro s e s' hexec
      split at hexec
      case isTrue hcheck =>
        exact ⟨State.orderly_of_check hcheck, State.step_of_exec hexec⟩
      case isFalse => cases hexec)
    (by decide +kernel)
  exact ⟨s, hs, hhold, hext, allocators_unshared hs⟩

def State.Clash (s : State 8) : Prop :=
  s.proxy.Holds 7 0 ∧ ((s.pools.getTenant 7).any fun q =>
    decide (¬ (s.proxy.slices 0).span.Clear (q.2.span (.ext 0)))) = true

instance : DecidablePred State.Clash := fun _ =>
  inferInstanceAs (Decidable (_ ∧ _))

theorem State.Clash.not_unshared {s : State 8} (h : s.Clash) : ¬ s.Unshared 7 := by
  obtain ⟨hhold, hany⟩ := h
  obtain ⟨⟨i, p⟩, hget, hno⟩ := Option.any_eq_true _ _ |>.mp hany
  intro hun
  exact of_decide_eq_true hno (Span.Clear.of_disjoint (hun 0 hhold i p hget (.ext 0) trivial))

/-- A guest that never negotiated gets memory from 0 on and its slices
from 32 MiB on: an extent of 40 MiB reaches into the default window. One
that releases its Cavalry region keeps the slice it has there, and the
next extent is placed over it. -/
theorem extent_over_slice : (∃ s, (guestSystem 8 7).Reachable s ∧ ¬ s.Unshared 7 ∧
      s.proxy.window 7 = ⟨0x2000000, 0x3DFFF000⟩) ∧
    ∃ s, (guestSystem 8 7).Reachable s ∧ ¬ s.Unshared 7 ∧ (s.proxy.slices 0).barOffset = 0 := by
  have hinit : (guestSystem 8 7).Reachable sampleGuest :=
    .init sampleGuest_init
  constructor
  · obtain ⟨s, hs, hclash, hwin⟩ := hinit.exists_exec
      (p := fun s => s.Clash ∧ s.proxy.window 7 = ⟨0x2000000, 0x3DFFF000⟩)
      (fun _ _ _ => State.step_of_exec)
      (l := [largeExtent, cavalryPage]) (by decide +kernel)
    exact ⟨s, hs, hclash.not_unshared, hwin⟩
  · obtain ⟨s, hs, hclash, hoff⟩ := hinit.exists_exec
      (p := fun s => s.Clash ∧ (s.proxy.slices 0).barOffset = 0)
      (fun _ _ _ => State.step_of_exec)
      (l := [cavalryRegion, cavalryPage, cavalryRelease, largeExtent])
      (by decide +kernel)
    exact ⟨s, hs, hclash.not_unshared, hoff⟩

end AmbaVirt.Server
