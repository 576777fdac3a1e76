/-
The moves of the server's tables, and the induction over them.

Whatever an event is, it changes the tenants, the pools and the geometry
by a few kinds of moves, each of which says what the new entry comes
from: a tenant is put on a slice the kernel describes, under a geometry
that matched, and a pool is made as large as such a slice. `moves_induct`
turns a property of fresh tables that every move keeps into one of every
reachable server.
-/
import AmbaVirt.Server.Binding

namespace AmbaVirt.Server

open Lib Kernel Cavalry Pool

variable {n : Nat} {s s' s'' : State n} {cid : UInt32}

-- ==== the moves

/-- One change of the tables. -/
inductive State.Move : State n → State n → Prop
  /-- No new tenant, and the pools and the geometry as they are. -/
  | keep {s s' : State n} (host : ∀ i, s'.host.desc i = s.host.desc i)
      (matched : s'.geometryMatched = s.geometryMatched)
      (bytes : s'.windowBytes = s.windowBytes)
      (tenants : s.proxy.TenantsFrom s'.proxy) (pools : s'.pools = s.pools) :
      Move s s'
  /-- A call of the pools that registers nobody. -/
  | call {s : State n} {op : PoolOp} {pools : Pools}
      (quiet : op.registers = none) (step : s.pools.Step op pools) :
      Move s { s with pools }
  /-- A tenant on a slice. -/
  | tenant {s : State n} {p : Proxy} {i : Fin n} {idx : Fin 8} {t : Tenant}
      (matched : s.geometryMatched = true) (on : t.On (s.host.desc i))
      (placed : p.tenants = (s.proxy.placeTenant idx t).tenants) :
      Move s (s.setProxy p)
  /-- A pool for a slice. -/
  | pool {s : State n} (cid : UInt32) (i : Fin n) (matched : s.geometryMatched = true)
      (usable : (s.host.desc i).usableSize ≠ 0) :
      Move s { s with
        pools := (s.pools.registerTenant cid (s.host.desc i).index
          (s.host.desc i).usableSize (s.host.desc i).usableSize).1 }
  /-- The geometry is read again. -/
  | survey (s : State n) : Move s s.checkGeometry
  /-- The pools come up. -/
  | start (s : State n) (bar : UInt32) : Move s { s with poolReady := true, pools := .init bar }

abbrev State.Moves : State n → State n → Prop :=
  Relation.ReflTransGen State.Move

/-- The tables of a process that has read nothing yet. -/
structure State.Fresh (s : State n) : Prop where
  tenants : ∀ i, s.proxy.tenants i = none
  pools : s.pools = .init 0
  matched : s.geometryMatched = false
  bytes : s.windowBytes = 0

-- ==== messages

theorem State.Turn.moves (h : s.Turn cid s') : s.Moves s' := by
  have hdesc : ∀ i, s'.host.desc i = s.host.desc i := fun i => by rw [h.host]
  rcases h.pools with hsame | ⟨op, -, hop, hstep⟩
  · exact .single (.keep hdesc h.geometry.1 h.geometry.2 h.tenants hsame)
  · exact .tail (.single (.call hop hstep)) (.keep hdesc h.geometry.1 h.geometry.2 h.tenants rfl)

theorem State.Moves.unregister (h : s.Moves s') (cid : UInt32) : s.Moves (s'.unregister cid) := by
  obtain ⟨hfrom, hhost⟩ := s'.unregister_from cid
  refine h.tail (.keep (fun i => by rw [hhost]) ?_ ?_ hfrom (s'.unregister_pools cid))
  all_goals
    unfold State.unregister
    split <;> rfl

theorem State.Moves.unbindCid (h : s.Moves s') (cid : UInt32) : s.Moves (s'.unbindCid cid) := by
  unfold State.unbindCid
  split
  · exact h
  · exact h.tail (.keep (s'.host.apply_desc _) rfl rfl (.of_eq rfl) rfl)

theorem State.Moves.register (h : s.Moves s')
    (hmatched : s'.geometryMatched = true) {i : Fin n} {d : SliceDesc}
    (hd : d = s'.host.desc i) {fd : Int} {m : ShmMap} {hguest hphys}
    {p : Proxy}
    (hreg : s'.proxy.registerTenant cid d.index.toNat fd m
      d.usableSize.toUInt64 d.phys d.offset hguest hphys = .ok p) :
    s.Moves (s'.setProxy p) := by
  obtain ⟨hidx, t, -, htidx, hoff, hph, hsize, hten, -⟩ := registerTenant_ok hreg
  subst hd
  exact h.tail (.tenant hmatched ⟨htidx, hoff, hph, hsize⟩ hten)

theorem State.Moves.poolRegister (h : s.Moves s') (hmatched : s'.geometryMatched = true) {i : Fin n}
    (husable : (s'.host.desc i).usableSize ≠ 0) {pools : Pools}
    {status : Option Errno}
    (hreg : s'.poolRegister cid (s'.host.desc i) = (pools, status)) :
    s.Moves { s' with pools } := by
  unfold State.poolRegister at hreg
  split at hreg
  · have hmove := h.tail (.pool cid i hmatched husable)
    rwa [hreg] at hmove
  · cases hreg
    exact h

theorem usable_ne_zero {d : SliceDesc} (h : d.usableSize.toUInt64 ≠ 0) : d.usableSize ≠ 0 := by
  intro h0
  rw [h0] at h
  exact h rfl

theorem State.claimSlice_moves {nonce : Option UInt64} {result : Except Errno SliceDesc}
    (h : s.claimSlice cid nonce = (result, s')) : s.Moves s' := by
  rcases State.claimSlice_cases h with
    ⟨e, -, rfl, -⟩ | ⟨hmatched, r, d, -, hb, hrest⟩
  · exact .refl
  have hdesc := s.host.apply_desc (.bind cid r)
  have hbound : s.Moves (s.bound cid r) :=
    .single (.keep hdesc rfl rfl (.of_eq rfl) rfl)
  rcases hrest with ⟨e, -, rfl, -⟩ | ⟨p, hreg, hpool⟩
  · exact hbound.unbindCid cid
  obtain ⟨i, -, -, rfl, -⟩ := Host.bind_spec hb
  have hplaced : s.Moves ((s.bound cid r).setProxy p) :=
    hbound.register (i := i) hmatched (hdesc i).symm hreg
  have hpools : ∀ pools status, ((s.bound cid r).setProxy p).poolRegister cid (s.host.desc i)
        = (pools, status) →
      s.Moves { (s.bound cid r).setProxy p with pools } := by
    intro pools status hpool
    have hi : ((s.bound cid r).setProxy p).host.desc i = s.host.desc i :=
      hdesc i
    rw [← hi] at hpool
    apply hplaced.poolRegister hmatched _ hpool
    rw [hi]
    obtain ⟨_, _, _, _, _, _, _, _, hsize, -⟩ := registerTenant_ok hreg
    exact usable_ne_zero hsize
  rcases hpool with ⟨e, pools, hpool, -, rfl⟩ | ⟨pools, hpool, -, rfl⟩
  · exact ((hpools pools _ hpool).unregister cid).unbindCid cid
  · exact hpools pools _ hpool

-- ==== restarts

/-- Registering bindings of the kernel, up to the first that fails. If
none does, every one has a slice that is not empty. -/
theorem State.Moves.registerBindings (h : s.Moves s')
    (hmatched : s'.geometryMatched = true) (mapped : Bool)
    (windowSize : UInt64) {l : List KernelBinding}
    (hl : ∀ b ∈ l, ∃ i, b.slice = s'.host.desc i)
    (hguest : ∀ b ∈ l, 2 < b.cid) :
    s.Moves (s'.setProxy (s'.proxy.registerBindings mapped windowSize l hguest).1) ∧
      ((s'.proxy.registerBindings mapped windowSize l hguest).2 = .ok () →
        ∀ b ∈ l, b.slice.usableSize ≠ 0) := by
  induction l generalizing s' with
  | nil => exact ⟨h, nofun⟩
  | cons b l ih =>
    unfold Proxy.registerBindings
    dsimp only
    split
    · exact ⟨h, nofun⟩
    case h_2 p hreg =>
    obtain ⟨i, hi⟩ := hl b List.mem_cons_self
    have hone : s.Moves (s'.setProxy p) := h.register hmatched hi hreg
    obtain ⟨hmoves, hall⟩ := ih hone hmatched (fun b hb => hl b (List.mem_cons_of_mem _ hb))
      (fun b hb => hguest b (List.mem_cons_of_mem _ hb))
    obtain ⟨_, _, _, _, _, _, _, _, hsize, -⟩ := registerTenant_ok hreg
    exact ⟨hmoves, fun hok => List.forall_mem_cons.mpr ⟨usable_ne_zero hsize, hall hok⟩⟩

theorem State.Moves.restorePool (h : s.Moves s')
    (hmatched : s'.geometryMatched = true) {b : KernelBinding}
    (hb : ∃ i, b.slice = s'.host.desc i) (husable : b.slice.usableSize ≠ 0) :
    s.Moves (s'.restorePool b) := by
  obtain ⟨i, hi⟩ := hb
  rw [hi] at husable
  unfold State.restorePool
  rw [hi]
  split
  case h_1 pools e hreg =>
    exact (h.poolRegister hmatched husable hreg).unregister b.cid
  case h_2 pools hreg => exact h.poolRegister hmatched husable hreg

theorem State.restorePool_kept (s : State n) (b : KernelBinding) : (s.restorePool b).host = s.host ∧
      (s.restorePool b).geometryMatched = s.geometryMatched := by
  unfold State.restorePool State.unregister
  split
  · split <;> exact ⟨rfl, rfl⟩
  · exact ⟨rfl, rfl⟩

theorem State.Moves.restorePools (h : s.Moves s')
    (hmatched : s'.geometryMatched = true) {l : List KernelBinding}
    (hl : ∀ b ∈ l, ∃ i, b.slice = s'.host.desc i)
    (husable : ∀ b ∈ l, b.slice.usableSize ≠ 0) :
    s.Moves (l.foldl State.restorePool s') := by
  induction l generalizing s' with
  | nil => exact h
  | cons b l ih =>
    obtain ⟨hhost, hkept⟩ := s'.restorePool_kept b
    have hone := h.restorePool hmatched (hl b List.mem_cons_self) (husable b List.mem_cons_self)
    apply ih hone (hkept.trans hmatched)
    · intro c hc
      rw [hhost]
      exact hl c (List.mem_cons_of_mem _ hc)
    · exact fun c hc => husable c (List.mem_cons_of_mem _ hc)

theorem State.Moves.restoreBindings (h : s.Moves s')
    (hmatched : s'.geometryMatched = true) : s.Moves s'.restoreBindings := by
  have hl : ∀ b ∈ s'.host.bindings, ∃ i, b.slice = s'.host.desc i := by
    intro b hb
    obtain ⟨i, hi, -⟩ := Host.mem_bindings hb
    exact ⟨i, hi⟩
  -- all tenants go first, unless the list is refused as a whole
  have hproxy : ∀ p status, s'.proxy.restoreBindings s'.host.bindings
      s'.mapped s'.activeWindowBytes = (p, status) →
      s.Moves (s'.setProxy p) ∧ (status = .ok () → ∀ b ∈ s'.host.bindings,
          b.slice.usableSize ≠ 0) := by
    intro p status heq
    unfold Proxy.restoreBindings at heq
    have hrefused {e : Errno} (hok : (.error e : Except Errno Unit) = .ok ()) :
        ∀ b ∈ s'.host.bindings, b.slice.usableSize ≠ 0 := by cases hok
    split at heq
    · cases heq
      exact ⟨h, hrefused⟩
    split at heq
    · cases heq
      exact ⟨h, hrefused⟩
    case h_2 hc =>
    have hguest : ∀ b ∈ s'.host.bindings, 2 < b.cid := fun b hb =>
      KernelBinding.guest_of_check (checkAll_ok.mp hc b hb)
    dsimp only at heq
    generalize hcleared : List.foldl Proxy.clientDisconnect _ _ = p₀ at heq
    have hnone : ∀ i, p₀.tenants i = none := by
      intro i
      rw [← hcleared, foldl_clientDisconnect_tenants]
    have hclear : s.Moves (s'.setProxy p₀) := by
      refine h.tail (.keep (fun _ => rfl) rfl rfl ?_ rfl)
      intro i t ht
      rw [show (s'.setProxy p₀).proxy.tenants i = none from hnone i] at ht
      cases ht
    have hreg := hclear.registerBindings hmatched s'.mapped s'.activeWindowBytes hl hguest
    rw [show (s'.setProxy p₀).proxy = p₀ from rfl, heq] at hreg
    exact hreg
  unfold State.restoreBindings
  split
  case h_1 p e heq => exact (hproxy p _ heq).1
  case h_2 p _ heq =>
    obtain ⟨hmoves, hall⟩ := hproxy p _ heq
    exact hmoves.restorePools hmatched hl (hall rfl)

theorem State.Moves.applyGeometry (h : s.Moves s') : s.Moves s'.applyGeometry := by
  have hsurvey : s.Moves s'.checkGeometry := h.tail (.survey s')
  unfold State.applyGeometry
  dsimp only
  split
  · exact hsurvey
  split
  · exact hsurvey
  case h_2 first _ _ hmatched =>
  rw [Bool.not_eq_false] at hmatched
  split
  · exact hsurvey.restoreBindings hmatched
  · exact State.Moves.restoreBindings (hsurvey.tail (.start _ _)) hmatched

theorem State.boot_moves (h : Host n) (b : Boot) :
    ∃ s₀ : State n, s₀.Fresh ∧ s₀.Moves (State.boot h b) := by
  refine ⟨_, ?_, State.Moves.applyGeometry .refl⟩
  exact ⟨b.fresh, rfl, rfl, rfl⟩

-- ==== the events

theorem Net.apply_moves {t t' : Net n} {e : Event} (h : t.apply e = some t') :
    t.server.Moves t'.server ∨ ∃ s₀ : State n, s₀.Fresh ∧ s₀.Moves t'.server := by
  have hmsg : ((∃ cid m env, e = .vsock cid m env) ∨
      ∃ k m env, e = .tcp k m env) → t.server.Moves t'.server := by
    intro hm
    rcases Net.apply_message hm h with
      ⟨-, cid, hturn⟩ | ⟨cid, nonce, result, -, hclaim⟩
    · exact hturn.moves
    · exact State.claimSlice_moves hclaim
  cases e with
  | vsock cid m env => exact .inl (hmsg (.inl ⟨cid, m, env, rfl⟩))
  | tcp k m env => exact .inl (hmsg (.inr ⟨k, m, env, rfl⟩))
  | connect k =>
    cases h
    exact .inl .refl
  | openNode | closeNode =>
    cases h
    exact .inl (.single (.keep (t.server.host.apply_desc _) rfl rfl (.of_eq rfl) rfl))
  | evict cid =>
    cases h
    exact .inl (.tail (.single (.call rfl (.unregister cid)))
      (.keep (fun _ => rfl) rfl rfl (.of_eq rfl) rfl))
  | moduleState phys size =>
    cases h
    have hinfo : t.server.Move { t.server with infoShmPhys := phys, infoShmSize := size } :=
      .keep (fun _ => rfl) rfl rfl (.of_eq rfl) rfl
    exact .inl (State.Moves.applyGeometry (.single hinfo))
  | restart b =>
    cases h
    exact .inr (State.boot_moves t.server.host b)

/-- What holds of fresh tables and is kept by every move holds of every
reachable server. -/
theorem moves_induct {I : State n → Prop} (hfresh : ∀ s, s.Fresh → I s)
    (hmove : ∀ s s' : State n, s.Move s' → I s → I s') {t : Net n}
    (h : (serverSystem n).Reachable t) : I t.server := by
  have hmoves : ∀ s s' : State n, s.Moves s' → I s → I s' := by
    intro s s' hm hs
    induction hm with
    | refl => exact hs
    | tail _ hstep ih => exact hmove _ _ hstep ih
  apply System.Reachable.induct (I := fun t => I t.server) _ _ h
  · intro t ht
    obtain ⟨h, b, -, rfl⟩ := ht
    obtain ⟨s₀, hf, hm⟩ := State.boot_moves h b
    exact hmoves _ _ hm (hfresh s₀ hf)
  · intro t e t' _ hinv hstep
    rcases Net.apply_moves hstep.2 with hm | ⟨s₀, hf, hm⟩
    · exact hmoves _ _ hm hinv
    · exact hmoves _ _ hm (hfresh s₀ hf)

end AmbaVirt.Server
