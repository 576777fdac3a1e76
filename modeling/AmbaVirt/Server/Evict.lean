/-
The admin socket's EVICT (virt_admin_ipc.c), and what the CID can still
have done afterwards.

An eviction takes everything the CID allocated in the proxy, its pool,
and its rule in the policy table. Its entry in the tenant table and the
kernel's binding stay.

Until a claim of the CID succeeds it has no pool, so no memory request
of it changes the pools. Its tenant entry still serves GDMA copies, and
the proxy serves most Cavalry requests without looking for a tenant;
only one that is draining refuses them. Without its rule the CID falls
back to what the table has behind it, which may be more than it had.
`evict_revokes_iff` is that nothing else matters: no run of messages
changes the answer.
-/
import AmbaVirt.Server.Moves

namespace AmbaVirt.Server

open Lib Kernel Cavalry Pool Gdma Function

variable {n : Nat} {s s' : State n} {c : UInt32} {cid : UInt32} {copy : GdmaCopy} {job : GdmaJob}
  {a : Acl}

-- ==== the policy

namespace Acl

/-- The rules behind rule `i`. -/
def behind (a : Acl) (i : Fin 16) : Acl := fun j => if i < j then a j else none

/-- What a CID has once its first rule is gone: its next rule, or the
standard role. -/
def fallback (a : Acl) (cid : UInt32) : UInt32 :=
  match Fin.find? fun i => (a i).any fun e => e.cid == cid with
  | none => ROLE_STANDARD
  | some i => (a.behind i).getCaps cid

/-- The fallback has no capability the CID did not have. -/
def Lowers (a : Acl) (cid : UInt32) : Prop :=
  ∀ cap : Cap, (a.fallback cid &&& cap.bit == cap.bit) = true → a.hasCap cid cap = true

theorem filter_of_not_any {o : Option AclEntry}
    (h : (o.any fun e => e.cid == cid) = false) :
    (o.filter fun e => e.cid == cid) = none := by
  cases o with
  | none => rfl
  | some e =>
    rw [Option.any_some] at h
    rw [Option.filter_some, h]
    rfl

/-- Without its first rule a CID has what stands behind it. -/
theorem getCaps_update {i : Fin 16}
    (hi : (Fin.find? fun i => (a i).any fun e => e.cid == cid) = some i) :
    Acl.getCaps (update a i none) cid = (a.behind i).getCaps cid := by
  have hfirst := Fin.eq_false_of_find?_eq_some_of_lt hi
  have hsame : (fun j => (update a i none j).filter fun e => e.cid == cid) =
      fun j => (a.behind i j).filter fun e => e.cid == cid := by
    funext j
    unfold behind
    rcases lt_trichotomy i j with hlt | rfl | hgt
    · rw [if_pos hlt, update_of_ne hlt.ne']
    · rw [if_neg (lt_irrefl _), update_self]
    · rw [if_neg hgt.not_gt, update_of_ne hgt.ne, filter_of_not_any (hfirst j hgt)]
      rfl
  unfold getCaps
  rw [hsame]

theorem getCaps_of_no_rule (hi : (Fin.find? fun i => (a i).any fun e => e.cid == cid) = none) :
    a.getCaps cid = ROLE_STANDARD := by
  have hno := Fin.eq_false_of_find?_eq_none hi
  have hnone : (Fin.findSome? fun i => (a i).filter fun e => e.cid == cid) = none := by
    rw [Fin.findSome?_eq_none_iff]
    intro i
    exact filter_of_not_any (hno i)
  unfold getCaps
  rw [hnone]

theorem getCaps_removeRule (a : Acl) (cid : UInt32) :
    (a.removeRule cid).getCaps cid = a.fallback cid := by
  unfold removeRule fallback
  split
  case h_1 i hi =>
    rw [hi]
    exact getCaps_update hi
  case h_2 hi =>
    rw [hi]
    exact getCaps_of_no_rule hi

theorem hasCap_removeRule (a : Acl) (cid : UInt32) (cap : Cap) : (a.removeRule cid).hasCap cid cap
      = (a.fallback cid &&& cap.bit == cap.bit) := by
  rw [hasCap, getCaps_removeRule]

end Acl

-- ==== one entry a CID

/-- One tenant entry for a CID, and pools that calls have led to. -/
structure State.Tidy (s : State n) : Prop where
  tenants : s.proxy.OneEach
  pools : poolSystem.Reachable s.pools

theorem State.Tidy.fresh (h : s.Fresh) : s.Tidy := by
  refine ⟨?_, ?_⟩
  · intro i j t u ht
    rw [h.tenants i] at ht
    cases ht
  · rw [h.pools]
    exact .init ⟨0, rfl⟩

theorem State.Tidy.move (h : s.Tidy) (hm : s.Move s') : s'.Tidy := by
  cases hm with
  | keep _ _ _ htenants hpools =>
    refine ⟨h.tenants.of_from htenants, ?_⟩
    rw [hpools]
    exact h.pools
  | call _ hstep => exact ⟨h.tenants, h.pools.step hstep⟩
  | @tenant p i idx t _ _ hplaced =>
    exact ⟨(h.tenants.place idx t).of_from (.of_eq hplaced), h.pools⟩
  | pool cid i _ _ => exact ⟨h.tenants, h.pools.step (.register cid _ _ _)⟩
  | survey =>
    obtain ⟨-, hdaemon, hpools⟩ := checkGeometry_tables s
    refine ⟨?_, ?_⟩
    · unfold State.proxy
      rw [hdaemon]
      exact h.tenants
    · rw [hpools]
      exact h.pools
  | start bar => exact ⟨h.tenants, .init ⟨bar, rfl⟩⟩

theorem tidy_reachable {t : Net n} (h : (serverSystem n).Reachable t) : t.server.Tidy :=
  moves_induct (fun _ => State.Tidy.fresh) (fun _ _ hm ht => ht.move hm) h

-- ==== what is executed

/-- A Cavalry, GDMA or memory request of a CID is executed: the copy
reaches the engine, the request is answered with success or a run is
started, the pools change. -/
def State.Executes (s : State n) (cid : UInt32) (m : Msg) (env : MsgEnv) :
    Prop :=
  ∃ out, s.processIncomingMsg cid m env = some out ∧
    match m with
    | .gdma .. => out.calls ≠ []
    | .cavalry _ => out.calls ≠ [] ∨ ∃ reply, out.answer = .cavalry reply ∧ reply.status = none
    | .memAlloc _ | .devSetBounds _ | .devReleaseBounds _ =>
      out.server.pools ≠ s.pools
    | _ => False

/-- A memory request of a CID without a pool changes no pool. -/
theorem State.Turn.pools_of_lacks (h : s.Turn c s') (hno : s.pools.Lacks c) :
    s'.pools = s.pools := by
  rcases h.pools with hsame | ⟨op, rfl, hop, hstep⟩
  · exact hsame
  · exact hstep.of_lacks hop hno

/-- No Cavalry request is executed while the proxy is draining. -/
theorem processCavalry_draining (h : s.daemon.draining = true)
    {code : UInt32} {req : Rpc} {env : MsgEnv} {out : Outcome n}
    (hout : s.processCavalry c code req env = some out) :
    out.calls = [] ∧ ∃ e, out.answer = .cavalry (.fail code e) := by
  obtain ⟨hrpc, hrun⟩ := handleRpc_draining h code req c env.rpc
  unfold State.processCavalry at hout
  rw [hrpc, hrun] at hout
  split at hout
  · cases hout
    exact ⟨rfl, _, rfl⟩
  split at hout
  all_goals
    cases hout
    exact ⟨rfl, _, rfl⟩

-- ---- GDMA copies

/-- There is room for a copy: the slice ends below 4 GiB and its first
two bytes are in the window. -/
structure CopyRoom (t : Tenant) (w : Window) : Prop where
  slice : t.sliceOffset.toNat + t.shmSize.toNat < 2 ^ 32
  size : 2 ≤ t.shmSize.toNat
  phys : w.shmPhys ≠ 0
  window : t.sliceOffset.toNat + 2 ≤ w.shmSize.toNat

theorem hostGdmaCopy_pos {w : Window}
    (h : w.hostGdmaCopy copy = .ok job) :
    w.shmPhys ≠ 0 ∧ 0 < copy.extent copy.srcPitch ∧ 0 < copy.extent copy.dstPitch := by
  unfold Window.hostGdmaCopy GdmaCopy.extent at *
  by_cases hp : copy.pitched
  · simp only [hp, if_true, guards, not_or] at h ⊢
    obtain ⟨⟨hphys, -⟩, -, ⟨-, hwidth, -⟩, -⟩ := h
    have hpos : 0 < copy.width.toNat := UInt16.pos_iff_ne_zero.mpr hwidth
    exact ⟨hphys, by omega, by omega⟩
  · simp only [hp, if_false, guards, not_or] at h ⊢
    obtain ⟨⟨hphys, -⟩, -, ⟨hlen, -⟩, -⟩ := h
    have hpos : 0 < copy.len.toNat := UInt32.pos_iff_ne_zero.mpr hlen
    exact ⟨hphys, hpos, hpos⟩

def leastCopy : GdmaCopy where
  srcOff := 0
  dstOff := 1
  len := 0
  flags := AMBA_VIRT_GDMA_F_PITCH
  srcPitch := 2
  dstPitch := 1
  width := 1
  height := 1

variable {p : Proxy} {w : Window} {hasCap : UInt32 → GdmaMsg → Bool} {kind : GdmaMsg}

theorem copyRoom_of_ok (h : processGdma p w hasCap c kind true copy = .ok job) :
    hasCap c kind = true ∧ ∃ t, p.getTenant c = some t ∧ CopyRoom t w := by
  simp only [processGdma, guards, Bool.not_eq_false] at h
  obtain ⟨-, t, ht, hcap, hserver, hkernel⟩ := h
  obtain ⟨hslice, hsrc, hdst⟩ := checkTenantRange_ok hserver
  obtain ⟨-, -, hsw, hdw, hapart⟩ := hostGdmaCopy_ok hkernel
  obtain ⟨hphys, hsext, hdext⟩ := hostGdmaCopy_pos hkernel
  have hsoff : (copy.translate t.sliceOffset).srcOff.toNat
      = copy.srcOff.toNat + t.sliceOffset.toNat := translate_exact (by omega)
  have hdoff : (copy.translate t.sliceOffset).dstOff.toNat
      = copy.dstOff.toNat + t.sliceOffset.toNat := translate_exact (by omega)
  change 0 < copy.extent copy.srcPitch at hsext
  change 0 < copy.extent copy.dstPitch at hdext
  change _ + copy.extent copy.srcPitch ≤ _ at hsw
  change _ + copy.extent copy.dstPitch ≤ _ at hdw
  change _ + copy.extent copy.dstPitch ≤ _ ∨
    _ + copy.extent copy.srcPitch ≤ _ at hapart
  refine ⟨hcap, t, ht, hslice, ?_, hphys, ?_⟩
  all_goals omega

theorem leastCopy_ok {t : Tenant} (ht : p.getTenant c = some t)
    (hcap : hasCap c kind = true) (hroom : CopyRoom t w) :
    ∃ job, processGdma p w hasCap c kind true leastCopy = .ok job := by
  obtain ⟨hslice, hsize, hphys, hwin⟩ := hroom
  have hsum := toNat_add_exact t.fits
  have hmax : UINT32_MAX.toNat = 2 ^ 32 - 1 := rfl
  have hserver : checkTenantRange t leastCopy = .ok () := by
    have hsrc : (rowsEnd leastCopy.srcOff leastCopy.height leastCopy.srcPitch
        leastCopy.width).toNat = 1 := rfl
    have hdst : (rowsEnd leastCopy.dstOff leastCopy.height leastCopy.dstPitch
        leastCopy.width).toNat = 2 := rfl
    unfold checkTenantRange
    rw [if_pos (by decide)]
    simp only [guards, gt_iff_lt, UInt64.lt_iff_toNat_lt, hsrc, hdst, hsum, hmax]
    omega
  have hkernel : ∃ job, w.hostGdmaCopy (leastCopy.translate t.sliceOffset) = .ok job := by
    have hsoff : (leastCopy.translate t.sliceOffset).srcOff.toNat = 0 + t.sliceOffset.toNat :=
      translate_exact (by change 0 + _ < _; omega)
    have hdoff : (leastCopy.translate t.sliceOffset).dstOff.toNat = 1 + t.sliceOffset.toNat :=
      translate_exact (by change 1 + _ < _; omega)
    have hrows : ∀ pitch : UInt16,
        ((leastCopy.translate t.sliceOffset).height.toNat - 1) * pitch.toNat
          + (leastCopy.translate t.sliceOffset).width.toNat = 1 := by
      intro pitch
      change (1 - 1) * _ + 1 = 1
      omega
    have hwsize : w.shmSize ≠ 0 := by
      intro h0
      rw [h0] at hwin
      change _ ≤ 0 at hwin
      omega
    unfold Window.hostGdmaCopy
    rw [if_pos (show (leastCopy.translate t.sliceOffset).pitched from
      (by decide : leastCopy.pitched))]
    simp only [guards, pure_ok, gt_iff_lt, UInt64.lt_iff_toNat_lt, rowsEnd_toNat, hrows,
      UInt32.toNat_toUInt64, hsoff, hdoff]
    refine ⟨_, not_or.mpr ⟨hphys, hwsize⟩, ?_, ?_, by omega, by omega, rfl⟩
    · exact (by decide : ¬ leastCopy.flags &&& ~~~AMBA_VIRT_GDMA_F_PITCH ≠ 0)
    exact (by decide : ¬ (leastCopy.height = 0 ∨ leastCopy.width = 0 ∨
      leastCopy.width > 4096 ∨ leastCopy.srcPitch < leastCopy.width ∨
      leastCopy.dstPitch < leastCopy.width ∨
      (leastCopy.srcPitch.toUInt32 * leastCopy.height.toUInt32) &&& 1 ≠ 0))
  obtain ⟨job, hjob⟩ := hkernel
  refine ⟨job, ?_⟩
  simp only [processGdma, guards]
  exact ⟨by simp, t, ht, by simp [hcap], hserver, hjob⟩

-- ==== the eviction

/-- A claim of `c` that succeeds. -/
def Net.Claims (t : Net n) (c : UInt32) (e : Event) : Prop :=
  ∃ nonce d, t.claimOf e = some (c, nonce) ∧ (t.server.claimSlice c nonce).1 = .ok d

/-- What happens between two commands of the administrator while the
server stays up: messages, connections, and slice nodes that open and
close. -/
def Event.Ordinary : Event → Prop
  | .evict _ | .moduleState .. | .restart _ => False
  | _ => True

/-- All runs from an eviction of `c` up to its next claim. -/
def quarantine (t : Net n) (c : UInt32) : System (Net n) Event where
  init u := u = { t with server := t.server.evict c }
  step u e u' := e.Ordinary ∧ ¬ u.Claims c e ∧ (serverSystem n).step u e u'

/-- An eviction of `c` revokes: whatever messages follow, until a claim
of `c` succeeds none of its requests is executed and it has no
capability it did not have before. -/
def Net.Revokes (t : Net n) (c : UInt32) : Prop :=
  ∀ u, (quarantine t c).Reachable u → (∀ m env, ¬ u.server.Executes c m env) ∧
    ∀ cap, u.server.acl.hasCap c cap = true → t.server.acl.hasCap c cap = true

/-- After its eviction `c` still has a slice to copy in and a capability
to copy with. -/
def State.CopiesFor (s : State n) (c : UInt32) : Prop :=
  (∃ t, s.proxy.getTenant c = some t ∧ CopyRoom t s.window) ∧
    ∃ kind, gdmaCap (s.acl.removeRule c) c kind = true

/-- What stays of the eviction along every run. -/
structure Evicted (t : Net n) (c : UInt32) (s : State n) : Prop where
  acl : s.acl = t.server.acl.removeRule c
  window : s.window = t.server.window
  draining : t.server.daemon.draining = true → s.daemon.draining = true
  pool : s.pools.Lacks c
  tenant : ∀ i u, s.proxy.tenants i = some u → u.cid = c →
    ∃ u₀, t.server.proxy.getTenant c = some u₀ ∧ u₀.Same u

variable {t : Net n}

theorem Evicted.init (h : t.server.Tidy) (c : UInt32) : Evicted t c (t.server.evict c) where
  acl := rfl
  window := rfl
  draining := id
  pool := (Pools.oneEach_of_reachable h.pools).lacks_unregistered c
  tenant := by
    intro i u hu hc
    exact ⟨u, h.tenants.getTenant_eq hu hc, .refl u⟩

theorem Evicted.turn (h : Evicted t c s) (ht : s.Turn cid s') : Evicted t c s' where
  acl := ht.acl.trans h.acl
  window := ht.window.trans h.window
  draining hd := ht.draining (h.draining hd)
  pool := by
    rcases ht.pools with hsame | ⟨op, -, hop, hstep⟩
    · rw [hsame]
      exact h.pool
    · exact (Pools.Step.entries hstep).lacks (by rw [hop]; nofun) h.pool
  tenant := by
    intro i u hu hc
    obtain ⟨v, hv, hsame⟩ := ht.tenants i u hu
    obtain ⟨u₀, hu₀, hs₀⟩ := h.tenant i v hv (hsame.cid.symm.trans hc)
    exact ⟨u₀, hu₀, hs₀.trans hsame⟩

theorem Evicted.claimed (h : Evicted t c s)
    {result : Except Errno SliceDesc} (hc : s.Claimed cid result s')
    (hno : ¬ (cid = c ∧ ∃ d, result = .ok d)) : Evicted t c s' where
  acl := hc.acl.trans h.acl
  window := hc.window.trans h.window
  draining hd := hc.draining.trans (h.draining hd)
  pool := by
    rcases hc.pools with hsame | ⟨idx, bar, quota, hreg, hor⟩
    · rw [hsame]
      exact h.pool
    by_cases hcid : cid = c
    · rcases hor with hok | hlacks
      · exact absurd ⟨hcid, hok⟩ hno
      · exact hcid ▸ hlacks
    rw [hreg]
    apply (Pools.EntriesFrom.registerTenant s.pools cid idx bar quota).lacks
      _ h.pool
    intro heq
    exact hcid (Option.some.inj heq)
  tenant := by
    intro i u hu huc
    rcases hc.tenants with hfrom | ⟨idx, t', hcid', hfrom, hor⟩
    · obtain ⟨v, hv, hsame⟩ := hfrom i u hu
      obtain ⟨u₀, hu₀, hs₀⟩ := h.tenant i v hv (hsame.cid.symm.trans huc)
      exact ⟨u₀, hu₀, hs₀.trans hsame⟩
    obtain ⟨v, hv, hsame⟩ := hfrom i u hu
    rcases placeTenant_cases hv with ⟨-, rfl⟩ | ⟨-, hv, -⟩
    · -- the new tenant is not of `c`
      have hcid : cid = c := hcid'.symm.trans (hsame.cid.symm.trans huc)
      rcases hor with hok | hgone
      · exact absurd ⟨hcid, hok⟩ hno
      · exact absurd (huc.trans hcid.symm) (hgone i u hu)
    · obtain ⟨u₀, hu₀, hs₀⟩ := h.tenant i v hv (hsame.cid.symm.trans huc)
      exact ⟨u₀, hu₀, hs₀.trans hsame⟩

theorem Evicted.step {u u' : Net n} {e : Event} (h : Evicted t c u.server)
    (hs : (quarantine t c).step u e u') : Evicted t c u'.server := by
  obtain ⟨hord, hno, -, he⟩ := hs
  have hmsg : ((∃ cid m env, e = .vsock cid m env) ∨
      ∃ k m env, e = .tcp k m env) → Evicted t c u'.server := by
    intro hm
    rcases Net.apply_message hm he with
      ⟨-, cid, hturn⟩ | ⟨cid, nonce, result, hof, hclaim⟩
    · exact h.turn hturn
    · apply h.claimed (State.claimSlice_claimed hclaim)
      rintro ⟨rfl, d, rfl⟩
      exact hno ⟨nonce, d, hof, by rw [hclaim]⟩
  cases e with
  | vsock cid m env => exact hmsg (.inl ⟨cid, m, env, rfl⟩)
  | tcp k m env => exact hmsg (.inr ⟨k, m, env, rfl⟩)
  | connect k =>
    cases he
    exact h
  | openNode | closeNode =>
    cases he
    exact ⟨h.acl, h.window, h.draining, h.pool, h.tenant⟩
  | evict | moduleState | restart => exact absurd hord id

/-- No request of `c` is executed in a run that starts while the proxy
is draining and leaves `c` nothing to copy. -/
theorem Evicted.not_executes (h : Evicted t c s) (hdrain : t.server.daemon.draining = true)
    (hcopy : ¬ t.server.CopiesFor c) (m : Msg) (env : MsgEnv) :
    ¬ s.Executes c m env := by
  rintro ⟨out, hout, hex⟩
  have hpool : (∀ nonce, m ≠ .sliceClaim nonce) → out.server.pools = s.pools := fun hm =>
    (State.Turn.processIncomingMsg hm hout).pools_of_lacks h.pool
  cases m with
  | gdma kind copy =>
    cases hout
    cases copy with
    | none => exact hex rfl
    | some copy =>
      unfold State.processGdma at hex
      dsimp only at hex
      split at hex
      case h_2 => exact hex rfl
      case h_1 job hjob =>
      obtain ⟨hcap, u, hu, hroom⟩ := copyRoom_of_ok hjob
      obtain ⟨huc, i, hi⟩ := Proxy.getTenant_mem hu
      obtain ⟨u₀, hu₀, hsame⟩ := h.tenant i u hi huc
      refine hcopy ⟨⟨u₀, hu₀, ?_⟩, kind, ?_⟩
      · rw [← h.window]
        obtain ⟨hslice, hsize, hphys, hwin⟩ := hroom
        rw [hsame.offset, hsame.size] at hslice
        rw [hsame.size] at hsize
        rw [hsame.offset] at hwin
        exact ⟨hslice, hsize, hphys, hwin⟩
      · rw [← h.acl]
        exact hcap
  | cavalry req =>
    cases req with
    | none =>
      cases hout
      rcases hex with hcalls | ⟨reply, hans, -⟩
      · exact hcalls rfl
      · cases hans
    | some r =>
      obtain ⟨hcalls, e, hans⟩ :=
        processCavalry_draining (h.draining hdrain) hout
      rcases hex with hne | ⟨reply, hans', hok⟩
      · exact hne hcalls
      · rw [hans] at hans'
        cases hans'
        cases hok
  | memAlloc req => exact hex (hpool nofun)
  | devSetBounds req => exact hex (hpool nofun)
  | devReleaseBounds d => exact hex (hpool nofun)
  | _ => exact hex

/-- With a device that comes back the proxy is not offline. -/
theorem online_of_reopens (d : Daemon) {env : RpcEnv}
    (h : env.device.reopens = true) : (d.reopen env).offline = false := by
  unfold Daemon.reopen
  rw [h, Bool.and_true]
  split
  · rfl
  case isFalse hoff => rwa [Bool.not_eq_true] at hoff

/-- Any CID may ask where its buffer is. -/
theorem executes_queryBuf (h : s.daemon.draining = false) (c : UInt32) :
    s.Executes c (.cavalry (some (4, {}))) { rpc := { device := { reopens := true } } } := by
  have hop : Opcode.ofCode 4 = some .queryBuf := rfl
  have hon : (s.daemon.reopen { device := { reopens := true } }).offline
      = false := online_of_reopens s.daemon rfl
  obtain ⟨reply, hrpc, hok⟩ : ∃ reply, s.daemon.handleRpc 4 {} c { device := { reopens := true } }
        = some (reply, s.daemon.reopen { device := { reopens := true } }) ∧
      reply.status = none := by
    unfold Daemon.handleRpc
    rw [h, if_neg nofun]
    dsimp only
    rw [hon, if_neg nofun, hop]
    exact ⟨_, rfl, rfl⟩
  simp only [State.Executes, State.processIncomingMsg, State.processCavalry,
    hop, hrpc, Option.some.injEq, reduceCtorEq, false_and, if_false]
  exact ⟨_, rfl, .inr ⟨reply, rfl, hok⟩⟩

/-- Eviction, exactly: it revokes if the proxy is draining, so that no
Cavalry request is served, if it leaves the CID no slice or no
capability to copy with, and if the CID falls back to no capability it
did not have. -/
theorem evict_revokes_iff (h : (serverSystem n).Reachable t) (c : UInt32) :
    t.Revokes c ↔ t.server.daemon.draining = true ∧
      ¬ t.server.CopiesFor c ∧ t.server.acl.Lowers c := by
  have hinit : Evicted t c (t.server.evict c) := .init (tidy_reachable h) c
  constructor
  · intro hrev
    obtain ⟨hnone, hcaps⟩ := hrev { t with server := t.server.evict c } (.init rfl)
    refine ⟨?_, ?_, ?_⟩
    · by_contra hno
      rw [Bool.not_eq_true] at hno
      exact hnone _ _ (executes_queryBuf (s := t.server.evict c) hno c)
    · rintro ⟨⟨u, hu, hroom⟩, kind, hcap⟩
      obtain ⟨job, hjob⟩ : ∃ job, processGdma (t.server.evict c).proxy
          (t.server.evict c).window (gdmaCap (t.server.evict c).acl) c kind true
          leastCopy = .ok job := leastCopy_ok hu hcap hroom
      apply hnone (.gdma kind (some leastCopy)) {}
      refine ⟨_, rfl, ?_⟩
      simp only [State.processGdma, hjob]
      intro hempty
      cases hempty
    · intro cap hcap
      apply hcaps cap
      change (t.server.acl.removeRule c).hasCap c cap = true
      rw [Acl.hasCap_removeRule]
      exact hcap
  · rintro ⟨hdrain, hcopy, hlow⟩ u hu
    have hev : Evicted t c u.server := by
      apply System.Reachable.induct (I := fun u => Evicted t c u.server) _ _ hu
      · rintro u rfl
        exact hinit
      · intro u e u' _ hev hstep
        exact hev.step hstep
    refine ⟨hev.not_executes hdrain hcopy, ?_⟩
    intro cap hcap
    rw [hev.acl, Acl.hasCap_removeRule] at hcap
    exact hlow cap hcap

def ruledBoot (rules : List UInt32) (draining : Bool) : Boot :=
  { sampleBoot with
    daemon := { draining }
    acl := fun i => rules[i.val]?.map fun caps => { cid := 7, caps }
    fresh := fun _ => rfl }

def ruledNet (rules : List UInt32) (draining : Bool) : Net 8 :=
  { server := State.boot sampleHost (ruledBoot rules draining)
    sessions := fun _ => {} }

theorem ruledNet_reachable (rules : List UInt32) (draining : Bool) :
    (serverSystem 8).Reachable (ruledNet rules draining) :=
  .init ⟨sampleHost, ruledBoot rules draining, rfl, rfl⟩

/-- CID 7 has a slice and the standard role, with an empty rule behind it.
Evicted while the proxy drains, it loses the capability to copy. -/
theorem evict_revokes_sample : ∃ t : Net 8, (serverSystem 8).Reachable t ∧
      (∃ u, t.server.proxy.getTenant 7 = some u) ∧
      t.server.acl.hasCap 7 .gdmaCopy = true ∧ t.Revokes 7 := by
  obtain ⟨t, ht, htenant, hcap, hdrain, hback⟩ : ∃ t : Net 8, (serverSystem 8).Reachable t ∧
        (t.server.proxy.getTenant 7).isSome = true ∧
        t.server.acl.hasCap 7 .gdmaCopy = true ∧ t.server.daemon.draining = true ∧
        t.server.acl.fallback 7 = 0 :=
    (ruledNet_reachable [ROLE_STANDARD, 0] true).exists_exec (fun _ _ _ => Net.step_of_exec)
      (l := [.openNode 0 5, sampleVsockClaim]) (by decide +kernel)
  refine ⟨t, ht, Option.isSome_iff_exists.mp htenant, hcap,
    (evict_revokes_iff ht 7).mpr ⟨hdrain, ?_, ?_⟩⟩
  · rintro ⟨-, kind, hkind⟩
    cases kind
    all_goals
      rw [gdmaCap, Acl.hasCap_removeRule, hback] at hkind
      exact absurd hkind (by decide)
  · intro cap hhas
    rw [hback] at hhas
    cases cap <;> exact absurd hhas (by decide)

def sampleAlloc : Msg := .cavalry (some (5, { sessionId := 1, size := 4096 }))

/-- CID 7 has a slice and a rule with no capability at all. Evicted, it
can copy and allocate, and has the capability for copies. -/
theorem evicted_served : ∃ t : Net 8, (serverSystem 8).Reachable t ∧ ¬ t.Revokes 7 ∧
      (t.server.evict 7).Executes 7 (.gdma .copyReq (some leastCopy)) {} ∧
      (t.server.evict 7).Executes 7 sampleAlloc { rpc := { device := { reopens := true } } } ∧
      (t.server.evict 7).acl.hasCap 7 .gdmaCopy = true ∧
      t.server.acl.hasCap 7 .gdmaCopy = false := by
  obtain ⟨t, ht, hcopy, halloc, hafter, hbefore⟩ : ∃ t : Net 8, (serverSystem 8).Reachable t ∧
        (((t.server.evict 7).processIncomingMsg 7
          (.gdma .copyReq (some leastCopy)) {}).any fun out =>
            !out.calls.isEmpty) = true ∧
        (((t.server.evict 7).processIncomingMsg 7 sampleAlloc
          { rpc := { device := { reopens := true } } }).any fun out =>
            match out.answer with
            | .cavalry reply => decide (reply.status = none)
            | _ => false) = true ∧
        (t.server.evict 7).acl.hasCap 7 .gdmaCopy = true ∧
        t.server.acl.hasCap 7 .gdmaCopy = false :=
    (ruledNet_reachable [0] false).exists_exec (fun _ _ _ => Net.step_of_exec)
      (l := [.openNode 0 5, sampleVsockClaim]) (by decide +kernel)
  have hgdma : (t.server.evict 7).Executes 7 (.gdma .copyReq (some leastCopy)) {} := by
    obtain ⟨out, hout, hcalls⟩ := Option.any_eq_true _ _ |>.mp hcopy
    refine ⟨out, hout, ?_⟩
    intro hnil
    rw [hnil] at hcalls
    cases hcalls
  refine ⟨t, ht, ?_, hgdma, ?_, hafter, hbefore⟩
  · intro hrev
    exact (hrev _ (.init rfl)).1 _ _ hgdma
  obtain ⟨out, hout, hans⟩ := Option.any_eq_true _ _ |>.mp halloc
  refine ⟨out, hout, .inr ?_⟩
  split at hans
  case h_1 reply hreply => exact ⟨reply, hreply, of_decide_eq_true hans⟩
  case h_2 => cases hans

end AmbaVirt.Server
