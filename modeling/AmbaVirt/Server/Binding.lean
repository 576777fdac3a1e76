/-
The slice a request is served on against the slice the kernel has bound
(`cavalry_proxy.c` and the claim branch of `process_incoming_msg`).

`Host.Serves`: every tenant of the proxy serves the slice at its index,
and the kernel has that slice bound to the tenant's CID, if the CID is
not stale. A claim writes the kernel's copy and then the proxy's, a
restart rebuilds the proxy's from the kernel's, and no request of a
guest writes either.

The last close of a slice node clears the kernel's binding, and nothing
tells the server. A claim the server refuses behind the kernel's bind
takes the binding back without looking whether the CID already had a
tenant. Both leave the CID stale until its next claim gets through
(`Net.staleAfter`), and `served_slice_bound` is what holds of every other
CID in every run.
-/
import AmbaVirt.Server.Turn

namespace AmbaVirt.Server

open Lib Kernel Cavalry Pool Gdma Function

variable {n : Nat} {s s' : State n} {cid : UInt32}

-- ==== the law

/-- Every tenant serves the slice at its index, bound to its CID if that
is not stale. -/
def Host.Serves (h : Host n) (stale : Set UInt32) (p : Proxy) : Prop :=
  ∀ j u, p.tenants j = some u → ∃ i : Fin n, i.val = j.val ∧
    u.On (h.desc i) ∧ (u.cid ∉ stale → (h.slices i).boundCid = u.cid)

/-- The law, with what the kernel guarantees of its own table. -/
structure State.Served (s : State n) (stale : Set UInt32) : Prop where
  kernel : SliceInv s.host.ledger
  serves : s.host.Serves stale s.proxy

variable {stale stale' : Set UInt32}

section Serves

variable {h : Host n} {p : Proxy}

/-- A change of the kernel's table that drops bindings of stale CIDs
only. -/
theorem Host.Serves.rehost {h' : Host n} (hs : h.Serves stale p)
    (hdesc : ∀ i, h'.desc i = h.desc i) (hsub : stale ⊆ stale')
    (hb : ∀ i (u : Tenant), u.cid ∉ stale' →
      (h.slices i).boundCid = u.cid → (h'.slices i).boundCid = u.cid) :
    h'.Serves stale' p := by
  intro j u hu
  obtain ⟨i, hij, hon, hbound⟩ := hs j u hu
  exact ⟨i, hij, (hdesc i).symm ▸ hon, fun hu => hb i u hu (hbound fun hst => hu (hsub hst))⟩

theorem Host.Serves.mono (hs : h.Serves stale p) (hsub : stale ⊆ stale') : h.Serves stale' p :=
  hs.rehost (fun _ => rfl) hsub fun _ _ _ hb => hb

theorem Host.Serves.of_from {p' : Proxy} (hs : h.Serves stale p)
    (hf : p.TenantsFrom p') : h.Serves stale p' := by
  intro j u' hu'
  obtain ⟨u, hu, hsame⟩ := hf j u' hu'
  obtain ⟨i, hij, hon, hbound⟩ := hs j u hu
  refine ⟨i, hij, hon.of_same hsame, ?_⟩
  rw [hsame.cid]
  exact hbound

theorem Host.Serves.register {p' : Proxy} (hs : h.Serves stale p) {i : Fin n}
    {d : SliceDesc} {fd : Int} {m : ShmMap} {hguest hphys} (hd : d = h.desc i)
    (hbound : (h.slices i).boundCid = cid)
    (hreg : p.registerTenant cid d.index.toNat fd m d.usableSize.toUInt64
      d.phys d.offset hguest hphys = .ok p') : h.Serves (stale \ {cid}) p' := by
  obtain ⟨hidx, t, hcid, htidx, hoff, hph, hsize, hten, -⟩ := registerTenant_ok hreg
  subst hd
  intro j u hu
  rw [hten] at hu
  rcases placeTenant_cases hu with ⟨rfl, rfl⟩ | ⟨-, hu, hne⟩
  · exact ⟨i, (h.index_eq i).symm, ⟨htidx, hoff, hph, hsize⟩, fun _ => hbound.trans hcid.symm⟩
  · obtain ⟨k, hkj, hon, hk⟩ := hs j u hu
    exact ⟨k, hkj, hon, fun hst => hk fun h => hst ⟨h, fun hu => hne (hu.trans hcid.symm)⟩⟩

theorem Host.mem_bindings {b : KernelBinding} (hb : b ∈ h.bindings) :
    ∃ i, b.slice = h.desc i ∧ (h.slices i).boundCid = b.cid := by
  obtain ⟨i, -, hi⟩ := List.mem_filterMap.mp (List.mem_of_mem_take hb)
  split at hi
  · cases hi
    exact ⟨i, rfl, rfl⟩
  · cases hi

/-- Registering bindings of the kernel one after the other, up to the
first that fails. -/
theorem Host.Serves.registerBindings {mapped : Bool} {windowSize : UInt64} {l : List KernelBinding}
    (hl : ∀ b ∈ l, ∃ i, b.slice = h.desc i ∧ (h.slices i).boundCid = b.cid)
    (hguest : ∀ b ∈ l, 2 < b.cid) (hs : h.Serves stale p) :
    h.Serves stale (p.registerBindings mapped windowSize l hguest).1 := by
  induction l generalizing p with
  | nil => exact hs
  | cons b l ih =>
    unfold Proxy.registerBindings
    dsimp only
    split
    · exact hs
    case h_2 p' hreg =>
      obtain ⟨i, hd, hbound⟩ := hl b List.mem_cons_self
      exact ih (fun b hb => hl b (List.mem_cons_of_mem _ hb)) _
        ((hs.register hd hbound hreg).mono Set.sdiff_subset)

/-- The tenants after a restore are the kernel's bindings, or those from
before if it was refused. -/
theorem Host.Serves.restore (hs : h.Serves stale p) (mapped : Bool) (windowSize : UInt64) :
    h.Serves stale (p.restoreBindings h.bindings mapped windowSize).1 := by
  unfold Proxy.restoreBindings
  split
  · exact hs
  split
  · exact hs
  apply Host.Serves.registerBindings
  · intro b hb
    exact Host.mem_bindings hb
  · intro j u hu
    rw [foldl_clientDisconnect_tenants] at hu
    cases hu

end Serves

-- ---- lifted to the server

theorem State.Served.of_from (h : s.Served stale) (hhost : s'.host = s.host)
    (hf : s.proxy.TenantsFrom s'.proxy) : s'.Served stale where
  kernel := hhost.symm ▸ h.kernel
  serves := hhost.symm ▸ h.serves.of_from hf

theorem State.Served.unbind (h : s.Served stale) (cid : UInt32) :
    (s.unbindCid cid).Served (insert cid stale) := by
  have hsub := Set.subset_insert cid stale
  unfold State.unbindCid
  split
  · exact ⟨h.kernel, h.serves.mono hsub⟩
  refine ⟨sliceInv_unbind h.kernel cid, ?_⟩
  apply h.serves.rehost (s.host.apply_desc _) hsub
  intro i u hu hbound
  change (sliceUnbindCid s.host.slices cid i).boundCid = u.cid
  rw [unbind_keeps_bound, hbound]
  rw [hbound]
  exact fun hcid => hu (.inl hcid)

theorem State.Served.fresh (h : s.Served stale)
    (hno : ∀ j u, s.proxy.tenants j = some u → u.cid ≠ cid) : s.Served (stale \ {cid}) := by
  refine ⟨h.kernel, fun j u hu => ?_⟩
  obtain ⟨i, hij, hon, hbound⟩ := h.serves j u hu
  exact ⟨i, hij, hon, fun hst => hbound fun hin => hst ⟨hin, hno j u hu⟩⟩

-- ==== claims

/-- The stale CIDs after a claim: one the kernel has bound and the server
refuses makes its CID stale, one it takes does not leave it so. -/
def State.staleClaim (s : State n) (stale : Set UInt32) (cid : UInt32)
    (nonce : Option UInt64) : Set UInt32 :=
  match s.claims cid nonce with
  | none => stale
  | some d => if s.Takes d then stale \ {cid} else insert cid stale

/-- The kernel's bind drops no binding. -/
theorem State.Served.bound (h : s.Served stale) {r : UInt64} {d : SliceDesc}
    (hb : s.host.bind cid r = .ok d) : (s.bound cid r).Served stale := by
  obtain ⟨i, -, -, -, -, hfree, hslices⟩ := Host.bind_spec hb
  refine ⟨sliceInv_step h.kernel (show SliceOp.Allowed _ (.bind cid r) from trivial), ?_⟩
  apply h.serves.rehost (s.host.apply_desc _) subset_rfl
  intro k u _ hbound
  rw [hslices]
  by_cases hk : k = i
  · subst hk
    rw [update_self]
    -- a tenant's slice is not free, so it was bound to this CID before
    rcases hfree with h0 | hcid
    · have hg := u.guest
      rw [← hbound, h0] at hg
      exact absurd hg (by decide)
    · exact hcid.symm.trans hbound
  · rw [update_of_ne hk]
    exact hbound

/-- Whatever a claim leads to. -/
theorem State.Served.claimSlice (h : s.Served stale) {nonce : Option UInt64}
    {result : Except Errno SliceDesc} (hc : s.claimSlice cid nonce = (result, s')) :
    s'.Served (s.staleClaim stale cid nonce) := by
  unfold State.staleClaim
  rcases claimSlice_cases hc with ⟨e, -, rfl, hnone⟩ | ⟨hmatched, r, d, rfl, hb, hrest⟩
  · rw [hnone]
    exact h
  rw [show s.claims cid (some r) = some d by simp [State.claims, hmatched, hb, Except.toOption]]
  dsimp only
  have hbound := h.bound hb
  rcases hrest with ⟨e, rfl, rfl, hno⟩ | ⟨p, hreg, hpool⟩
  · rw [if_neg hno]
    exact hbound.unbind cid
  suffices hfresh : s'.Served (stale \ {cid}) by
    refine ⟨hfresh.kernel, hfresh.serves.mono ?_⟩
    split
    · exact subset_rfl
    · exact Set.sdiff_subset.trans (Set.subset_insert cid stale)
  -- the proxy now has a tenant for the slice the kernel bound
  have hplaced : ∀ pools,
      ({ (s.bound cid r).setProxy p with pools } : State n).Served (stale \ {cid}) := by
    intro pools
    obtain ⟨i, -, -, hd, -, -, hslices⟩ := Host.bind_spec hb
    refine ⟨hbound.kernel, hbound.serves.register (i := i) ?_ ?_ hreg⟩
    · exact hd.trans (s.host.apply_desc _ i).symm
    · change ((s.host.apply (.bind cid r)).slices i).boundCid = cid
      rw [hslices, update_self]
  rcases hpool with ⟨e, pools, -, -, rfl⟩ | ⟨pools, -, -, rfl⟩
  · obtain ⟨hfrom, hhost⟩ := State.unregister_from
      ({ (s.bound cid r).setProxy p with pools } : State n) cid
    have hun := ((hplaced pools).of_from hhost hfrom).unbind cid
    have hgone := hun.fresh fun j u hu => by
      rw [(State.unbindCid_tables _ cid).1] at hu
      exact State.unregister_gone hreg hu
    rwa [Set.insert_sdiff_self_of_notMem fun h => h.2 rfl] at hgone
  · exact hplaced pools

-- ==== restarts

theorem State.Served.restorePool (h : s.Served stale) (b : KernelBinding) :
    (s.restorePool b).Served stale := by
  unfold State.restorePool
  split
  case h_1 pools e _ =>
    obtain ⟨hfrom, hhost⟩ :=
      State.unregister_from ({ s with pools } : State n) b.cid
    exact h.of_from hhost hfrom
  case h_2 pools _ => exact h.of_from rfl (.of_eq rfl)

theorem State.Served.restorePools (h : s.Served stale) (l : List KernelBinding) :
    (l.foldl State.restorePool s).Served stale := by
  induction l generalizing s with
  | nil => exact h
  | cons b l ih => exact ih (h.restorePool b)

theorem State.Served.restoreBindings (h : s.Served stale) : s.restoreBindings.Served stale := by
  have hp := h.serves.restore s.mapped s.activeWindowBytes
  unfold State.restoreBindings
  split
  case h_1 p e heq =>
    rw [heq] at hp
    exact ⟨h.kernel, hp⟩
  case h_2 p _ heq =>
  rw [heq] at hp
  have hset : (s.setProxy p).Served stale := ⟨h.kernel, hp⟩
  exact hset.restorePools s.host.bindings

theorem checkGeometry_tables (s : State n) :
    s.checkGeometry.host = s.host ∧ s.checkGeometry.daemon = s.daemon ∧
      s.checkGeometry.pools = s.pools := by
  unfold State.checkGeometry
  dsimp only
  split
  · exact ⟨rfl, rfl, rfl⟩
  split
  · exact ⟨rfl, rfl, rfl⟩
  split
  · exact ⟨rfl, rfl, rfl⟩
  split <;> exact ⟨rfl, rfl, rfl⟩

theorem State.Served.applyGeometry (h : s.Served stale) : s.applyGeometry.Served stale := by
  obtain ⟨hhost, hdaemon, -⟩ := checkGeometry_tables s
  have hchecked : s.checkGeometry.Served stale := by
    apply h.of_from hhost
    apply Proxy.TenantsFrom.of_eq
    unfold State.proxy
    rw [hdaemon]
  unfold State.applyGeometry
  dsimp only
  split
  · exact hchecked
  split
  · exact hchecked
  apply State.Served.restoreBindings
  split
  · exact hchecked
  · exact hchecked.of_from rfl (.of_eq rfl)

theorem State.served_boot (hinv : SliceInv h.ledger) (b : Boot) :
    (State.boot h b).Served stale := by
  apply State.Served.applyGeometry
  refine ⟨hinv, ?_⟩
  intro j u hu
  rw [show State.proxy _ = b.daemon.proxy from rfl, b.fresh j] at hu
  cases hu

-- ==== messages

variable {m : Msg} {env : MsgEnv} {out : Outcome n}

-- ==== whole system

/-- The stale CIDs after an event: the last close of a slice's node adds
the CID it was bound to, a new process starts without any. -/
def Net.staleAfter (t : Net n) (stale : Set UInt32) : Event → Set UInt32
  | .closeNode idx => stale ∪ { c | ∃ i : Fin n, i.val = idx ∧
      t.server.host.ledger.files i = 1 ∧ (t.server.host.slices i).boundCid = c }
  | .restart _ => ∅
  | e =>
    match t.claimOf e with
    | some (cid, nonce) => t.server.staleClaim stale cid nonce
    | none => stale

/-- Every run of the server, watched for stale CIDs. -/
def watchedSystem (n : Nat) : System (Net n × Set UInt32) Event where
  init w := (serverSystem n).init w.1 ∧ w.2 = ∅
  step w e w' := (serverSystem n).step w.1 e w'.1 ∧ w'.2 = w.1.staleAfter w.2 e

variable {t : Net n}

theorem State.Served.message {t' : Net n} {e : Event} (h : t.server.Served stale)
    (hm : (∃ cid m env, e = .vsock cid m env) ∨ ∃ k m env, e = .tcp k m env)
    (he : t.apply e = some t') : t'.server.Served (t.staleAfter stale e) := by
  have hstale : t.staleAfter stale e = match t.claimOf e with
      | some (cid, nonce) => t.server.staleClaim stale cid nonce
      | none => stale := by
    rcases hm with ⟨cid, m, env, rfl⟩ | ⟨k, m, env, rfl⟩ <;> rfl
  rw [hstale]
  rcases Net.apply_message hm he with
    ⟨hno, cid, hturn⟩ | ⟨cid, nonce, result, hof, hclaim⟩
  · rw [hno]
    exact h.of_from hturn.host hturn.tenants
  · rw [hof]
    exact h.claimSlice hclaim

theorem served_step {t' : Net n} {e : Event} (h : t.server.Served stale)
    (hok : e.Allowed t) (he : t.apply e = some t') :
    t'.server.Served (t.staleAfter stale e) := by
  cases e with
  | vsock cid m env => exact h.message (.inl ⟨cid, m, env, rfl⟩) he
  | tcp k m env => exact h.message (.inr ⟨k, m, env, rfl⟩) he
  | connect k =>
    cases he
    exact h
  | openNode idx random =>
    cases he
    change SliceOp.Allowed _ (.openIdx idx random) at hok
    refine ⟨sliceInv_step h.kernel hok, ?_⟩
    apply h.serves.rehost (t.server.host.apply_desc _) subset_rfl
    intro i u _ hbound
    rw [← hbound]
    apply open_keeps_bound h.kernel
    intro h0
    have hg := u.guest
    rw [← hbound, show (t.server.host.slices i).boundCid = 0 from h0] at hg
    exact absurd hg (by decide)
  | closeNode idx =>
    cases he
    change SliceOp.Allowed _ (.release idx) at hok
    refine ⟨sliceInv_step h.kernel hok, ?_⟩
    apply h.serves.rehost (t.server.host.apply_desc _) Set.subset_union_left
    intro i u hu hbound
    rw [← hbound]
    apply release_keeps_bound h.kernel
    intro hi
    -- the last close makes the CID stale
    have hpos : 0 < t.server.host.ledger.files i := by
      have := hok (hi ▸ i.isLt)
      rwa [show (⟨idx, hi ▸ i.isLt⟩ : Fin n) = i from Fin.ext hi.symm] at this
    have hlast : t.server.host.ledger.files i ≠ 1 := by
      intro hone
      exact hu (.inr ⟨i, hi, hone, hbound⟩)
    omega
  | evict cid =>
    cases he
    exact h.of_from rfl (.of_eq rfl)
  | moduleState phys size =>
    cases he
    apply State.Served.applyGeometry
    exact h.of_from rfl (.of_eq rfl)
  | restart b =>
    cases he
    exact State.served_boot h.kernel b

theorem served_reachable {w : Net n × Set UInt32} (h : (watchedSystem n).Reachable w) :
    w.1.server.Served w.2 := by
  apply System.Reachable.induct (I := fun w => w.1.server.Served w.2) _ _ h
  · rintro ⟨t, stale⟩ ⟨⟨h, b, hpub, rfl⟩, -⟩
    apply State.served_boot
    rw [hpub]
    exact sliceInv_init h.desc
  · rintro w e ⟨t', stale'⟩ - hinv ⟨⟨hok, he⟩, rfl⟩
    exact served_step hinv hok he

-- ---- what is executed

/-- The call is a GDMA copy or a run on the Cavalry device. -/
def Call.OnSlice : Call → Prop
  | .gdma _ | .runDags _ => True
  | _ => False

/-- The bytes of the window that are slice `d`. -/
def sliceSpan (w : Window) (d : SliceDesc) : Span :=
  ⟨w.shmPhys.toNat + d.offset.toNat, d.usableSize.toNat⟩

theorem tenant_of_dispatched {d : Daemon} {code : UInt32} {req : Rpc}
    {env : RpcEnv} {mfd : RunDagsMfd}
    (h : d.dispatched code req cid env = some mfd) :
    ∃ u, d.proxy.getTenant cid = some u := by
  have hproxy := (reopen_tables d env).1
  unfold Daemon.dispatched at h
  split at h
  · cases h
  dsimp only at h
  split at h
  · cases h
  rw [hproxy] at h
  split at h
  · have hrun := toOption_eq_some.mp h
    simp only [Proxy.handleRunDags, guards] at hrun
    obtain ⟨-, u, hu, -⟩ := hrun
    exact ⟨u, hu⟩
  · obtain ⟨job, hjob, -⟩ := Option.map_eq_some_iff.mp h
    have hrun := toOption_eq_some.mp hjob
    simp only [Proxy.handleRunRegisteredDag, guards] at hrun
    obtain ⟨u, hu, -⟩ := hrun
    exact ⟨u, hu⟩
  · cases h

theorem processSetBounds_calls {req : DevBoundsReq}
    (h : s.processSetBounds cid req env = some out) :
    out.calls = [] := by
  unfold State.processSetBounds at h
  split at h
  · cases h
    rfl
  split at h
  · cases h
  · cases h
    rfl
  · cases h
    rfl

theorem processMem_calls {op : MemOp} (h : s.processMem cid op env = some out) :
    out.calls = [] := by
  unfold State.processMem at h
  split at h
  · cases h
    rfl
  split at h
  · dsimp only at h
    split at h
    · cases h
    all_goals
      cases h
      rfl
  all_goals
    cases h
    rfl

/-- Only the GDMA and the Cavalry branch make calls on a slice. -/
theorem msg_of_call {c : Call}
    (hout : s.processIncomingMsg cid m env = some out) (hc : c ∈ out.calls)
    (hon : c.OnSlice) :
    (∃ kind copy, out = s.processGdma cid kind copy) ∨
      ∃ code req, s.processCavalry cid code req env = some out := by
  unfold State.processIncomingMsg at hout
  split at hout
  case h_7 kind copy =>
    cases hout
    exact .inl ⟨kind, copy, rfl⟩
  case h_9 code req => exact .inr ⟨code, req, hout⟩
  case h_10 | h_11 | h_12 | h_22 | h_26 | h_28 =>
    repeat' split at hout
    all_goals
      cases hout
      first | (cases List.mem_singleton.mp hc; cases hon) | cases hc
  case h_15 =>
    rw [processSetBounds_calls hout] at hc
    cases hc
  case h_19 =>
    rw [processMem_calls hout] at hc
    cases hc
  case h_24 =>
    cases hout
    unfold State.processSubmit at hc
    split at hc
    · cases hc
    · cases List.mem_singleton.mp hc
      cases hon
  all_goals
    cases hout
    cases hc

/-- A GDMA copy or a Cavalry run is on the slice of the sender's tenant. -/
theorem tenant_of_call {c : Call}
    (hout : s.processIncomingMsg cid m env = some out) (hc : c ∈ out.calls)
    (hon : c.OnSlice) :
    ∃ u, s.proxy.getTenant cid = some u ∧ ∀ job, c = .gdma job →
      job.reads ⊆ (tenantSpan s.window u).bytes ∧ job.writes ⊆ (tenantSpan s.window u).bytes := by
  rcases msg_of_call hout hc hon with ⟨kind, copy, rfl⟩ | ⟨code, req, hcav⟩
  · unfold State.processGdma at hc
    split at hc
    · cases hc
    split at hc
    case h_2 => cases hc
    case h_1 job hjob =>
    cases List.mem_singleton.mp hc
    obtain ⟨u, hu, hserver, hkernel, hexact⟩ := processGdma_ok hjob
    obtain ⟨hsrc, hdst, -⟩ := hexact.hulls hserver hkernel
    refine ⟨u, hu, ?_⟩
    intro job' hjob'
    cases hjob'
    exact ⟨job.reads_subset.trans hsrc.bytes_subset, job.writes_subset.trans hdst.bytes_subset⟩
  · unfold State.processCavalry at hcav
    split at hcav
    · cases hcav
      cases hc
    split at hcav
    · cases hcav
      cases hc
    split at hcav
    · cases hcav
    cases hcav
    obtain ⟨mfd, hmfd, rfl⟩ :=
      Option.map_eq_some_iff.mp (Option.mem_toList.mp hc)
    obtain ⟨u, hu⟩ := tenant_of_dispatched hmfd
    exact ⟨u, hu, nofun⟩

/-- Served slice equals bound slice, along every run: the tenant every
request of a CID that is not stale is served by is on a slice the kernel
has bound to that CID at that moment, and a GDMA copy or a Cavalry run
of the CID has such a tenant; the copy stays inside the slice. -/
theorem served_slice_bound {t : Net n} {stale : Set UInt32}
    (h : (watchedSystem n).Reachable (t, stale)) {cid : UInt32} (hcid : cid ∉ stale) :
    (∀ u, t.server.proxy.getTenant cid = some u → ∃ i, u.On (t.server.host.desc i) ∧
        (t.server.host.slices i).boundCid = cid) ∧
    ∀ m env out c, t.server.processIncomingMsg cid m env = some out → c ∈ out.calls → c.OnSlice →
      ∃ u i, t.server.proxy.getTenant cid = some u ∧ u.On (t.server.host.desc i) ∧
        (t.server.host.slices i).boundCid = cid ∧ ∀ job, c = .gdma job →
          job.reads ⊆ (sliceSpan t.server.window (t.server.host.desc i)).bytes ∧
          job.writes ⊆ (sliceSpan t.server.window (t.server.host.desc i)).bytes := by
  have hserved := served_reachable h
  have hten : ∀ u, t.server.proxy.getTenant cid = some u → ∃ i, u.On (t.server.host.desc i) ∧
        (t.server.host.slices i).boundCid = cid := by
    intro u hu
    obtain ⟨rfl, j, hj⟩ := Proxy.getTenant_mem hu
    obtain ⟨i, -, hon, hbound⟩ := hserved.serves j u hj
    exact ⟨i, hon, hbound hcid⟩
  refine ⟨hten, ?_⟩
  intro m env out c hout hc honslice
  obtain ⟨u, hu, hjob⟩ := tenant_of_call hout hc honslice
  obtain ⟨i, hon, hbound⟩ := hten u hu
  refine ⟨u, i, hu, hon, hbound, ?_⟩
  have hspan : tenantSpan t.server.window u = sliceSpan t.server.window (t.server.host.desc i) := by
    unfold tenantSpan sliceSpan
    rw [hon.offset, hon.size, UInt32.toNat_toUInt64]
  rw [← hspan]
  exact hjob

def sampleGdma : Msg :=
  .gdma .copyReq (some { sampleCopy with flags := 0, len := 64 })

def sampleVsockClaim : Event := .vsock 7 (.sliceClaim (some 5)) {}

/-- CID 7 claims slice 0, and its copy is executed on the slice the
kernel has bound to it. -/
theorem served_slice_bound_copy : ∃ t stale, (watchedSystem 8).Reachable (t, stale) ∧
      ∃ out job i, t.server.processIncomingMsg 7 sampleGdma {} = some out ∧
        out.calls = [.gdma job] ∧ (t.server.host.slices i).boundCid = 7 ∧
        job.writes ⊆ (sliceSpan t.server.window (t.server.host.desc i)).bytes := by
  obtain ⟨t, ht, hcopy⟩ : ∃ t, sampleOpened.exec sampleVsockClaim = some t ∧
      ((Gdma.processGdma t.server.proxy t.server.window (gdmaCap t.server.acl)
        7 .copyReq true { sampleCopy with flags := 0, len := 64 }).isOk = true) :=
    Option.any_eq_true _ _ |>.mp (by decide)
  obtain ⟨job, hjob⟩ : ∃ job, Gdma.processGdma t.server.proxy t.server.window
      (gdmaCap t.server.acl) 7 .copyReq true
      { sampleCopy with flags := 0, len := 64 } = .ok job := by
    cases hrun : Gdma.processGdma t.server.proxy t.server.window
        (gdmaCap t.server.acl) 7 .copyReq true
        { sampleCopy with flags := 0, len := 64 } with
    | error e =>
      rw [hrun] at hcopy
      cases hcopy
    | ok job => exact ⟨job, rfl⟩
  obtain ⟨out, hout, hcalls⟩ : ∃ out, t.server.processIncomingMsg 7 sampleGdma {} = some out ∧
        out.calls = [.gdma job] := by
    unfold State.processIncomingMsg sampleGdma
    simp only [State.processGdma, hjob]
    exact ⟨_, rfl, rfl⟩
  have hinit : (watchedSystem 8).Reachable (sampleNet, ∅) :=
    .init ⟨⟨sampleHost, sampleBoot, rfl, rfl⟩, rfl⟩
  have hopened : (watchedSystem 8).Reachable (sampleOpened, ∅) :=
    hinit.step (e := Event.openNode 0 5) ⟨⟨by decide, rfl⟩, rfl⟩
  have hstale : sampleOpened.staleAfter ∅ sampleVsockClaim = ∅ \ {7} := by
    have hclaims : sampleOpened.server.claims 7 (some 5) = some (sampleDesc 0) := by decide
    change sampleOpened.server.staleClaim ∅ 7 (some 5) = _
    unfold State.staleClaim
    rw [hclaims]
    exact if_pos (by decide)
  have hreach : (watchedSystem 8).Reachable (t, ∅ \ {7}) :=
    hopened.step ⟨Net.step_of_exec ht, hstale.symm⟩
  obtain ⟨u, i, -, -, hbound, hin⟩ := (served_slice_bound hreach fun h => h.2 rfl).2
    sampleGdma {} out (.gdma job) hout (hcalls ▸ List.mem_singleton_self _) trivial
  exact ⟨t, _, hreach, out, job, i, hout, hcalls, hbound, (hin job rfl).2⟩

-- ==== where it breaks

/-- The copy of CID 7 is executed, and the kernel has bound nothing. -/
def CopiesUnbound (t : Net 8) : Prop :=
  ((t.server.processIncomingMsg 7 sampleGdma {}).any fun out =>
      !out.calls.isEmpty) = true ∧
    t.server.host.bindings.length = 0

instance : DecidablePred CopiesUnbound := fun _ =>
  inferInstanceAs (Decidable (_ ∧ _))

/-- Two ways to be served on a slice that is bound to nobody: its node
was closed and another QEMU has opened it, or a server that could not
map the window refused the claim renewed after its restart. -/
theorem served_unbound : (∃ t, (serverSystem 8).Reachable t ∧ CopiesUnbound t ∧
      t.server.host.ledger.files 0 = 1) ∧
    ∃ t, (serverSystem 8).Reachable t ∧ CopiesUnbound t := by
  refine ⟨exists_reachable [.openNode 0 5, sampleVsockClaim, .closeNode 0, .openNode 0 9] ?_,
    exists_reachable [.openNode 0 5, sampleVsockClaim,
        .restart { sampleBoot with mapped := false }, sampleVsockClaim] ?_⟩
  all_goals decide

end AmbaVirt.Server
