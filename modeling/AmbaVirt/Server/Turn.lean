/-
What one message writes to the server's tables.

`Turn` is a message that is no claim: the kernel's table, the policy and
the window stay as they are, nobody becomes a tenant, and the pools see
one call at most. `Claimed` is a claim: only the CID that claims can
become a tenant, and if the claim fails it is none that it was not
before. Only this module looks into the branches of
`process_incoming_msg`.
-/
import AmbaVirt.Pool.Entries
import AmbaVirt.Server.Tcp

namespace AmbaVirt.Server

open Lib Kernel Cavalry Pool Gdma

variable {n : Nat} {s s' : State n} {cid : UInt32}

-- ==== no claim

/-- What a message of `cid` that is no claim does to the tables: it
registers nobody, and makes at most one call of the pools, for `cid`. -/
structure State.Turn (s : State n) (cid : UInt32) (s' : State n) : Prop where
  host : s'.host = s.host
  acl : s'.acl = s.acl
  window : s'.window = s.window
  geometry : s'.geometryMatched = s.geometryMatched ∧ s'.windowBytes = s.windowBytes
  draining : s.daemon.draining = true → s'.daemon.draining = true
  tenants : s.proxy.TenantsFrom s'.proxy
  pools : s'.pools = s.pools ∨ ∃ op : PoolOp, op.cid = cid ∧ op.registers = none ∧
      s.pools.Step op s'.pools

theorem State.Turn.refl (s : State n) (cid : UInt32) : s.Turn cid s :=
  ⟨rfl, rfl, rfl, ⟨rfl, rfl⟩, id, .of_eq rfl, .inl rfl⟩

theorem State.setTenantBounds_from (s : State n) (cid base size aoff asize : UInt32) :
    s.proxy.TenantsFrom (s.setTenantBounds cid base size aoff asize).proxy ∧
      (s.setTenantBounds cid base size aoff asize).host = s.host := by
  unfold State.setTenantBounds
  split
  case h_1 p hp => exact ⟨Cavalry.setTenantBounds_from hp, rfl⟩
  case h_2 => exact ⟨.of_eq rfl, rfl⟩

variable {pools : Pools}

/-- A call of the pools, and new bounds in the proxy or not. -/
theorem State.Turn.bounds {op : PoolOp} (hcid : op.cid = cid)
    (hop : op.registers = none) (hstep : s.pools.Step op pools)
    (base size aoff asize : UInt32) :
    s.Turn cid (({ s with pools } : State n).setTenantBounds cid base size aoff asize) := by
  obtain ⟨hfrom, hhost⟩ := State.setTenantBounds_from
    ({ s with pools } : State n) cid base size aoff asize
  have hrest : ∀ t : State n, t = { s with pools } →
      (t.setTenantBounds cid base size aoff asize).acl = s.acl ∧
      (t.setTenantBounds cid base size aoff asize).window = s.window ∧
      ((t.setTenantBounds cid base size aoff asize).geometryMatched = s.geometryMatched ∧
      (t.setTenantBounds cid base size aoff asize).windowBytes = s.windowBytes) ∧
      (t.setTenantBounds cid base size aoff asize).daemon.draining = s.daemon.draining ∧
      (t.setTenantBounds cid base size aoff asize).pools = pools := by
    rintro t rfl
    unfold State.setTenantBounds
    split
    all_goals exact ⟨rfl, rfl, ⟨rfl, rfl⟩, rfl, rfl⟩
  obtain ⟨hacl, hwin, hgeom, hdrain, hpools⟩ := hrest _ rfl
  refine ⟨hhost, hacl, hwin, hgeom, fun h => hdrain.trans h, hfrom, .inr ⟨op, hcid, hop, ?_⟩⟩
  rw [hpools]
  exact hstep

theorem State.Turn.call {op : PoolOp} (hcid : op.cid = cid)
    (hop : op.registers = none) (hstep : s.pools.Step op pools) :
    s.Turn cid { s with pools } :=
  ⟨rfl, rfl, rfl, ⟨rfl, rfl⟩, id, .of_eq rfl, .inr ⟨op, hcid, hop, hstep⟩⟩

variable {env : MsgEnv} {out : Outcome n}

theorem State.Turn.processSetBounds {req : DevBoundsReq}
    (h : s.processSetBounds cid req env = some out) :
    s.Turn cid out.server := by
  unfold State.processSetBounds at h
  split at h
  · cases h
    exact .refl s cid
  split at h
  · cases h
  · cases h
    exact .refl s cid
  case h_3 resp pools hok =>
  cases h
  split
  · exact .bounds rfl rfl (.setDeviceBounds hok) _ _ _ _
  · exact .call rfl rfl (.setDeviceBounds hok)

theorem State.Turn.processReleaseBounds (s : State n) (cid devType : UInt32) :
    s.Turn cid (s.processReleaseBounds cid devType).server := by
  have hstep := Pools.Step.releaseDeviceBounds (s := s.pools) cid devType
  unfold State.processReleaseBounds
  dsimp only
  split
  · split
    · exact .call rfl rfl hstep
    · split
      · exact .call rfl rfl hstep
      · exact .bounds rfl rfl hstep _ _ _ _
  · exact .call rfl rfl hstep

theorem State.Turn.processMem {op : MemOp}
    (h : s.processMem cid op env = some out) : s.Turn cid out.server := by
  unfold State.processMem at h
  split at h
  · cases h
    exact .refl s cid
  split at h
  · dsimp only at h
    split at h
    · cases h
    · cases h
      exact .refl s cid
    case h_3 resp pools hok =>
      cases h
      exact .call rfl rfl (.allocExtent hok)
  case h_2 barOffset =>
    cases h
    exact .call rfl rfl (.freeExtent cid barOffset)
  · cases h
    exact .refl s cid

theorem handleRpc_draining {d : Daemon} (h : d.draining = true)
    (code : UInt32) (req : Rpc) (cid : UInt32) (env : RpcEnv) :
    d.handleRpc code req cid env = some (.fail code .EHOSTDOWN, d) ∧
      d.dispatched code req cid env = none := by
  unfold Daemon.handleRpc Daemon.dispatched
  rw [h]
  exact ⟨rfl, rfl⟩

theorem State.Turn.processCavalry {code : UInt32} {req : Rpc}
    (h : s.processCavalry cid code req env = some out) :
    s.Turn cid out.server := by
  unfold State.processCavalry at h
  split at h
  · cases h
    exact .refl s cid
  split at h
  · cases h
    exact .refl s cid
  split at h
  · cases h
  case h_2 reply d hrpc =>
  cases h
  refine ⟨rfl, rfl, rfl, ⟨rfl, rfl⟩, fun hdrain => ?_, .of_eq (handleRpc_tenants hrpc), .inl rfl⟩
  rw [(handleRpc_draining hdrain code req cid env.rpc).1] at hrpc
  cases hrpc
  exact hdrain

theorem State.processGdma_server (s : State n) (cid : UInt32) (kind : GdmaMsg)
    (copy : Option GdmaCopy) : (s.processGdma cid kind copy).server = s := by
  unfold State.processGdma
  split
  · rfl
  · split <;> rfl

/-- Every message but a claim. -/
theorem State.Turn.processIncomingMsg {m : Msg} (hm : ∀ nonce, m ≠ .sliceClaim nonce)
    (h : s.processIncomingMsg cid m env = some out) :
    s.Turn cid out.server := by
  unfold State.processIncomingMsg at h
  split at h
  case h_7 kind copy =>
    cases h
    rw [State.processGdma_server]
    exact .refl s cid
  case h_9 code req => exact .processCavalry h
  case h_15 req => exact .processSetBounds h
  case h_17 devType =>
    cases h
    exact .processReleaseBounds s cid devType
  case h_19 op => exact .processMem h
  case h_29 nonce => exact absurd rfl (hm nonce)
  case h_10 | h_11 | h_22 =>
    repeat' split at h
    all_goals
      cases h
      exact .refl s cid
  case h_24 req =>
    cases h
    unfold State.processSubmit
    split
    · exact .refl s cid
    · exact ⟨rfl, rfl, rfl, ⟨rfl, rfl⟩, id, .of_eq rfl, .inl rfl⟩
  case h_26 channel =>
    split at h
    · cases h
      exact .refl s cid
    · cases h
      exact ⟨rfl, rfl, rfl, ⟨rfl, rfl⟩, id, .of_eq rfl, .inl rfl⟩
  all_goals
    cases h
    exact .refl s cid

-- ==== a claim

theorem State.unregister_from (s : State n) (cid : UInt32) :
    s.proxy.TenantsFrom (s.unregister cid).proxy ∧ (s.unregister cid).host = s.host := by
  unfold State.unregister
  split
  case h_1 p hp => exact ⟨unregisterTenant_from hp, rfl⟩
  case h_2 => exact ⟨.of_eq rfl, rfl⟩

/-- A state with the policy, the window and the drain flag of `s`. -/
structure State.Alike (s s' : State n) : Prop where
  acl : s'.acl = s.acl
  window : s'.window = s.window
  draining : s'.daemon.draining = s.daemon.draining

theorem State.Alike.unbindCid (h : s.Alike s') (cid : UInt32) : s.Alike (s'.unbindCid cid) := by
  unfold State.unbindCid
  split
  · exact h
  · exact ⟨h.acl, h.window, h.draining⟩

theorem State.Alike.unregister (h : s.Alike s') (cid : UInt32) : s.Alike (s'.unregister cid) := by
  unfold State.unregister
  split
  · exact ⟨h.acl, h.window, h.draining⟩
  · exact h

theorem State.unbindCid_tables (s : State n) (cid : UInt32) :
    (s.unbindCid cid).proxy = s.proxy ∧ (s.unbindCid cid).pools = s.pools := by
  unfold State.unbindCid
  split
  all_goals exact ⟨rfl, rfl⟩

theorem State.unregister_pools (s : State n) (cid : UInt32) :
    (s.unregister cid).pools = s.pools := by
  unfold State.unregister
  split
  all_goals rfl

theorem State.unregister_gone {p : Proxy} {idx : Nat} {fd : Int} {m : ShmMap}
    {size phys off : UInt64} {hguest hphys}
    (hreg : p.registerTenant cid idx fd m size phys off hguest hphys = .ok s.proxy)
    {i : Fin 8} {t : Tenant}
    (ht : (s.unregister cid).proxy.tenants i = some t) : t.cid ≠ cid := by
  obtain ⟨hidx, new, hcid, -, -, -, -, hten, -⟩ := registerTenant_ok hreg
  have hone : ∀ j v, s.proxy.tenants j = some v → v.cid = cid → j = ⟨idx, hidx⟩ := by
    intro j v hv hvc
    rw [hten] at hv
    rcases placeTenant_cases hv with ⟨hj, -⟩ | ⟨-, -, hne⟩
    · exact hj
    · exact absurd (hvc.trans hcid.symm) hne
  unfold State.unregister at ht
  split at ht
  case h_1 p hp =>
    apply unregisterTenant_gone hp _ ht
    intro i j t u ht hu hct hcu
    exact (hone i t ht hct).trans (hone j u hu hcu).symm
  case h_2 e he => exact unregisterTenant_error he ht

/-- What a claim of `cid` does to the tables. Its tenant and its pool
may be new; if they stay the claim has succeeded. -/
structure State.Claimed (s : State n) (cid : UInt32)
    (result : Except Errno SliceDesc) (s' : State n) : Prop
    extends s.Alike s' where
  tenants : s.proxy.TenantsFrom s'.proxy ∨ ∃ (idx : Fin 8) (t : Tenant), t.cid = cid ∧
      (s.proxy.placeTenant idx t).TenantsFrom s'.proxy ∧
      ((∃ d, result = .ok d) ∨ ∀ i u, s'.proxy.tenants i = some u → u.cid ≠ cid)
  pools : s'.pools = s.pools ∨ ∃ idx bar quota,
      s'.pools = (s.pools.registerTenant cid idx bar quota).1 ∧
      ((∃ d, result = .ok d) ∨ s'.pools.Lacks cid)

/-- The pools after a registration of `cid`, which may be refused. -/
theorem State.poolRegister_eq {d : SliceDesc} {status : Option Errno}
    (h : s.poolRegister cid d = (pools, status)) :
    pools = s.pools ∨ ∃ idx bar quota, pools = (s.pools.registerTenant cid idx bar quota).1 ∧
        (status = none ∨ pools.Lacks cid) := by
  unfold State.poolRegister at h
  split at h
  · refine .inr ⟨d.index, d.usableSize, d.usableSize, by rw [h], ?_⟩
    cases status with
    | none => exact .inl rfl
    | some e => exact .inr (Pools.registerTenant_refused h)
  · cases h
    exact .inl rfl

theorem State.claimSlice_claimed {nonce : Option UInt64} {result : Except Errno SliceDesc}
    (h : s.claimSlice cid nonce = (result, s')) : s.Claimed cid result s' := by
  rcases State.claimSlice_cases h with ⟨e, -, rfl, -⟩ | ⟨-, r, d, -, hb, hrest⟩
  · exact ⟨⟨rfl, rfl, rfl⟩, .inl (.of_eq rfl), .inl rfl⟩
  have hbound : s.Alike (s.bound cid r) := ⟨rfl, rfl, rfl⟩
  rcases hrest with ⟨e, -, rfl, -⟩ | ⟨p, hreg, hpool⟩
  · obtain ⟨hproxy, hpools⟩ := (s.bound cid r).unbindCid_tables cid
    exact ⟨hbound.unbindCid cid, .inl (.of_eq (by rw [hproxy]; rfl)), .inl hpools⟩
  obtain ⟨hidx, t, hcid, -, -, -, -, hten, -⟩ := registerTenant_ok hreg
  rcases hpool with ⟨e, pools, hpool, -, rfl⟩ | ⟨pools, hpool, rfl, rfl⟩
  · -- the pools refused: the new tenant goes again
    have hset : s.Alike { (s.bound cid r).setProxy p with pools } :=
      ⟨rfl, rfl, rfl⟩
    obtain ⟨hproxy, hpools⟩ := ({ (s.bound cid r).setProxy p with
      pools } : State n).unregister cid |>.unbindCid_tables cid
    obtain ⟨hfrom, -⟩ := State.unregister_from
      ({ (s.bound cid r).setProxy p with pools } : State n) cid
    refine ⟨(hset.unregister cid).unbindCid cid, .inr ⟨⟨_, hidx⟩, t, hcid, ?_, .inr ?_⟩, ?_⟩
    · rw [hproxy]
      exact (Proxy.TenantsFrom.of_eq hten).trans hfrom
    · intro i u hu
      rw [hproxy] at hu
      exact State.unregister_gone hreg hu
    rw [hpools, State.unregister_pools]
    rcases State.poolRegister_eq hpool with hsame | ⟨idx, bar, quota, heq, hor⟩
    · exact .inl hsame
    refine .inr ⟨idx, bar, quota, heq, .inr ?_⟩
    rcases hor with hno | hlacks
    · cases hno
    · exact hlacks
  · refine ⟨⟨rfl, rfl, rfl⟩, .inr ⟨⟨_, hidx⟩, t, hcid, .of_eq hten, .inl ⟨d, rfl⟩⟩, ?_⟩
    rcases State.poolRegister_eq hpool with hsame | ⟨idx, bar, quota, heq, -⟩
    · exact .inl hsame
    · exact .inr ⟨idx, bar, quota, heq, .inl ⟨d, rfl⟩⟩

-- ==== the events

/-- The CID and the nonce of an event that is a claim. -/
def Net.claimOf (t : Net n) : Event → Option (UInt32 × Option UInt64)
  | .vsock cid (.sliceClaim nonce) _ => some (cid, nonce)
  | .tcp k (.other (.sliceClaim nonce)) env =>
    some (t.server.claimCid (t.sessions k) nonce env.window, nonce)
  | _ => none

/-- A TCP message is a challenge, a claim, or a message of the session's
CID. -/
theorem processTcpMsg_cases {sess : Session} {m : TcpMsg}
    {r : Outcome n × Session} (h : s.processTcpMsg sess m env = some r) :
    ((∀ nonce, m ≠ .other (.sliceClaim nonce)) ∧ ∃ cid, s.Turn cid r.1.server) ∨
      ∃ nonce result, m = .other (.sliceClaim nonce) ∧
        s.claimSlice (s.claimCid sess nonce env.window) nonce = (result, r.1.server) := by
  unfold State.processTcpMsg at h
  split at h
  · cases h
    exact .inl ⟨nofun, 0, .refl s 0⟩
  · split at h
    all_goals
      cases h
      exact .inl ⟨nofun, 0, .refl s 0⟩
  · cases h
    exact .inl ⟨nofun, 0, .refl s 0⟩
  case h_4 nonce =>
    cases h
    refine .inr ⟨nonce, (s.claimSlice (s.claimCid sess nonce env.window) nonce).1, rfl, ?_⟩
    unfold State.tcpClaim
    dsimp only
    split
    all_goals rfl
  case h_5 m _ hnoclaim =>
    have hno : ∀ nonce, TcpMsg.other m ≠ .other (.sliceClaim nonce) := by
      intro nonce hm
      exact hnoclaim nonce (TcpMsg.other.inj hm)
    split at h
    · cases h
      exact .inl ⟨hno, 0, .refl s 0⟩
    case h_2 cid _ =>
    refine .inl ⟨hno, cid, ?_⟩
    split at h
    · cases h
      exact .refl s cid
    split at h
    · cases h
      exact .refl s cid
    · obtain ⟨out, hout, rfl⟩ := Option.map_eq_some_iff.mp h
      exact .processIncomingMsg hnoclaim hout

/-- A message, on either transport, is a turn or a claim. -/
theorem Net.apply_message {t t' : Net n} {e : Event}
    (he : (∃ cid m env, e = .vsock cid m env) ∨ ∃ k m env, e = .tcp k m env)
    (h : t.apply e = some t') :
    (t.claimOf e = none ∧ ∃ cid, t.server.Turn cid t'.server) ∨
      ∃ cid nonce result, t.claimOf e = some (cid, nonce) ∧
        t.server.claimSlice cid nonce = (result, t'.server) := by
  rcases he with ⟨cid, m, env, rfl⟩ | ⟨k, m, env, rfl⟩
  · obtain ⟨out, hout, rfl⟩ := Option.map_eq_some_iff.mp h
    by_cases hm : ∃ nonce, m = .sliceClaim nonce
    · obtain ⟨nonce, rfl⟩ := hm
      cases hout
      exact .inr ⟨cid, nonce, _, rfl, rfl⟩
    · refine .inl ⟨?_, cid, .processIncomingMsg (not_exists.mp hm) hout⟩
      unfold Net.claimOf
      grind
  · obtain ⟨r, hr, rfl⟩ := Option.map_eq_some_iff.mp h
    rcases processTcpMsg_cases hr with ⟨hno, hturn⟩ | ⟨nonce, result, rfl, hclaim⟩
    · refine .inl ⟨?_, hturn⟩
      unfold Net.claimOf
      grind
    · exact .inr ⟨_, nonce, result, rfl, hclaim⟩

end AmbaVirt.Server
