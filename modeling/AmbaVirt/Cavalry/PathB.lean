/-
Path B confinement: every physical address a run of a registered DAG
hands to the driver, against the host copy of the DAG and the slices of
the calling tenant.

A bound port is checked against the slices of the client at the time of
the run. Every other address comes from the registration, so the
invariant (`RegisteredDag.Sound`) speaks of each registered DAG alone
and survives every call that keeps or drops DAGs.

A port that does not start in the staging slice keeps the guest's value
and is dispatched as a physical address unless the run binds it
(`path_b_escapes`). `path_b_confined` says what suffices: the
registration names nothing that leaves the staging slice, and each port
a run leaves unbound was moved whole or lies in a slice.
-/
import AmbaVirt.Cavalry.Relocate
import AmbaVirt.Cavalry.Run

namespace AmbaVirt.Cavalry

open Lib

-- ==== confinement

def RegisteredDag.staging (dag : RegisteredDag) : Staging :=
  ⟨dag.srcBase, dag.hostMemSize, dag.hostMemPhys⟩

/-- The physical range lies in one slice in use of the tenant. -/
def Proxy.InTenantSlice (s : Proxy) (t : Tenant) (addr : UInt64) (n : Nat) :
    Prop :=
  t.physBase.toNat ≤ addr.toNat ∧ s.InSlice t.cid (addr.toNat - t.physBase.toNat) n

/-- The physical range lies in the host copy of the DAG or in a slice. -/
def Proxy.Confined (s : Proxy) (d : Dispatch) (addr : UInt64) (n : Nat) :
    Prop :=
  (s.dags d.slot).staging.InCopy addr n ∨ s.InTenantSlice d.tenant addr n

instance (s : Proxy) (t : Tenant) (addr : UInt64) (n : Nat) :
    Decidable (s.InTenantSlice t addr n) :=
  inferInstanceAs (Decidable (_ ∧ ∃ _, _))

instance (s : Proxy) (d : Dispatch) (addr : UInt64) (n : Nat) : Decidable (s.Confined d addr n) :=
  inferInstanceAs (Decidable (_ ∨ _))

/-- Every physical address of a dispatched request, and every pointer
the registration rewrote in the host copy, is confined. -/
structure Proxy.DispatchConfined (s : Proxy) (d : Dispatch) : Prop where
  dvi : ∀ k < d.mfd.dagCnt.toNat, s.Confined d (d.mfd.dagDesc k).dviDramAddrOffset
      (d.mfd.dagDesc k).dviImgSize.toNat
  poke : ∀ k < d.mfd.dagCnt.toNat, (d.mfd.dagDesc k).extraPokeListDramOffset ≠ 0 →
    s.Confined d (d.mfd.dagDesc k).extraPokeListDramOffset
      (pokeListSize (d.mfd.dagDesc k).extraPokeListCnt).toNat
  common : ∀ k < d.mfd.dagCnt.toNat, (d.mfd.dagDesc k).extraDagDescCommonOffset ≠ 0 →
    s.Confined d (d.mfd.dagDesc k).extraDagDescCommonOffset
      extraCommonSize.toNat
  list : ∀ k < d.mfd.dagCnt.toNat, (d.mfd.dagDesc k).extraDagDescListOffset ≠ 0 →
    s.Confined d (d.mfd.dagDesc k).extraDagDescListOffset
      extraListSize.toNat
  port : ∀ k < d.mfd.dagCnt.toNat, ∀ p < (d.mfd.dagDesc k).portCnt.toNat,
    s.Confined d ((d.mfd.dagDesc k).portDesc p).portDramAddr
      ((d.mfd.dagDesc k).portDesc p).portDramSize.toNat
  relocs : ∀ r ∈ (s.dags d.slot).relocs, s.Confined d r.target r.size

-- ==== what suffices

def Staging.DagInside (g : Staging) (src : DagDesc) : Prop :=
  g.Inside src.dviDramAddr src.dviImgSize.toNat ∧
  g.ExtraInside src.extraPokeListDaddr (pokeListSize src.extraPokeListCnt).toNat ∧
  g.ExtraInside src.extraDagDescCommonDaddr extraCommonSize.toNat ∧
  g.ExtraInside src.extraDagDescListDaddr extraListSize.toNat
  deriving Decidable

/-- The registration names nothing that leaves the staging slice: no
DVI image, no extra descriptor, no pointer in the staging bytes, where
no list overlaps another. The copy itself ends below `2 ^ 64`. -/
def RegisterArgs.Inside (a : RegisterArgs) (hostPhys : UInt64) : Prop :=
  hostPhys.toNat + a.reg.stagingSize.toNat < 2 ^ 64 ∧
  (∀ k < a.run.dagCnt.toNat, (a.staging hostPhys).DagInside (a.run.dagDesc k)) ∧
  (a.staging hostPhys).Staged a.dags
    ((a.staging hostPhys).hostCopy a.stagingShm a.host.contents)

instance (a : RegisterArgs) (hostPhys : UInt64) : Decidable (a.Inside hostPhys) :=
  inferInstanceAs (Decidable (_ ∧ _ ∧ _))

def Proxy.registerHost (s : Proxy) (a : RegisterArgs) : Option UInt64 :=
  (Fin.find? fun i => !(s.dags i).inUse).bind fun slot =>
    (s.hostPhys slot a.host).toOption

def RegisterInside (s : Proxy) : ProxyOp → Prop
  | .registerDag a => (s.handleRegisterDag a).toBool = true →
      ∀ phys ∈ s.registerHost a, a.Inside phys
  | _ => True

/-- A port of the guest's request was moved whole, or lies in a slice of
the client as it stands. -/
def Proxy.PortSettled (s : Proxy) (d : Dispatch) (port : PortDesc) : Prop :=
  if (s.dags d.slot).staging.Moves port then
    (s.dags d.slot).staging.Inside port.portDramAddr port.portDramSize.toNat
  else s.InTenantSlice d.tenant port.portDramAddr port.portDramSize.toNat
  deriving Decidable

/-- The condition on a run: it binds every port that is not settled. -/
structure Proxy.PortsSettled (s : Proxy) (d : Dispatch) : Prop where
  settled : ∀ k < (s.dags d.slot).head.dagCnt.toNat,
    ∀ p < ((s.dags d.slot).source k).portCnt.toNat, (k, p) ∉ d.bound →
      s.PortSettled d (((s.dags d.slot).source k).portDesc p)

instance (s : Proxy) (d : Dispatch) : Decidable (s.PortsSettled d) :=
  decidable_of_iff (∀ k < (s.dags d.slot).head.dagCnt.toNat,
    ∀ p < ((s.dags d.slot).source k).portCnt.toNat, (k, p) ∉ d.bound →
      s.PortSettled d (((s.dags d.slot).source k).portDesc p))
    ⟨fun h => ⟨h⟩, fun h => h.settled⟩

-- ==== invariant

/-- What a registration that stayed inside leaves behind. -/
structure RegisteredDag.Sound (dag : RegisteredDag) : Prop where
  fits : dag.hostMemPhys.toNat + dag.hostMemSize.toNat < 2 ^ 64
  template : ∀ k < dag.head.dagCnt.toNat, dag.templateDag k = dag.staging.templateDag (dag.source k)
  ports : ∀ k < dag.head.dagCnt.toNat, (dag.source k).portCnt.toNat ≤ CAVALRY_MAX_PORTS.toNat
  inside : ∀ k < dag.head.dagCnt.toNat, dag.staging.DagInside (dag.source k)
  relocs : ∀ r ∈ dag.relocs, dag.staging.Follows r ∧ dag.staging.Inside r.source r.size

def Proxy.Sound (s : Proxy) : Prop :=
  ∀ i, (s.dags i).inUse = true → (s.dags i).Sound

variable {s : Proxy}

theorem DagsKept.sound {D : RegisteredDag → Prop} {s' : Proxy}
    (h : DagsKept D s s') (hs : s.Sound) : s'.Sound := by
  intro i hi
  rcases h i with he | ⟨-, he⟩
  · rw [he] at hi ⊢
    exact hs i hi
  · rw [he] at hi
    cases hi

-- ==== the registration

theorem entry_sound {a : RegisterArgs} {phys : UInt64} (dagId : UInt32) (hin : a.Inside phys)
    (hdags : ∀ d < a.run.dagCnt.toNat, a.reg.checkDag (a.run.dagDesc d) = .ok ()) :
    (a.entry dagId phys).Sound where
  fits := hin.1
  template k hk := if_pos hk
  ports k hk := by
    have h := hdags k hk
    simp only [RegDesc.checkDag, guards] at h
    exact UInt32.not_lt.mp h.1
  inside := hin.2.1
  relocs := Staging.relocate_logged hin.2.2 (fun _ _ _ _ => rfl) nofun

theorem registerDag_sound {s' : Proxy} {a : RegisterArgs} {id : UInt32}
    (hs : s.Sound) (hin : ∀ phys ∈ s.registerHost a, a.Inside phys)
    (h : s.handleRegisterDag a = .ok (id, s')) : s'.Sound := by
  simp only [Proxy.handleRegisterDag, guards, checkAll_ok, pure_ok, Prod.mk.injEq] at h
  obtain ⟨t, -, -, -, -, -, hdags, slot, hslot, phys, hphys, -, rfl⟩ := h
  have hhost : phys ∈ s.registerHost a := by
    rw [Proxy.registerHost, hslot, Option.bind_some, hphys]
    rfl
  intro i hi
  dsimp only at hi ⊢
  by_cases he : i = slot
  · subst he
    rw [Function.update_self]
    exact entry_sound _ (hin phys hhost) fun d hd => hdags d (List.mem_range.mpr hd)
  · rw [Function.update_of_ne he] at hi ⊢
    exact hs i hi

theorem reachable_sound (h : (proxySystem.restrict RegisterInside).Reachable s) : s.Sound := by
  refine System.Reachable.induct ?_ ?_ h
  · intro s hs i hi
    rw [hs.2.2.2 i] at hi
    cases hi
  intro s op s' _ hI hstep
  obtain ⟨hC, rfl⟩ := hstep
  by_cases hop : ∃ a, op = .registerDag a
  · obtain ⟨a, rfl⟩ := hop
    dsimp only [Proxy.apply]
    cases hr : s.handleRegisterDag a with
    | error e => exact hI
    | ok r => exact registerDag_sound hI (hC (congrArg Except.toBool hr)) hr
  · exact (apply_kept s fun a ha => hop ⟨a, ha⟩).sound hI

-- ==== the run

variable {t : Tenant}

/-- A range the proxy checked, as a physical address, lies in a slice. -/
theorem inTenantSlice_of_validated {a n : UInt64}
    (ht : s.getTenant t.cid = some t) (h : s.validateRange a n t.cid = .ok ()) :
    s.InTenantSlice t (t.physBase + a) n.toNat := by
  obtain ⟨hshm, hslice⟩ := Proxy.validateRange_tenant ht h
  have hpos : 0 < n.toNat :=
    UInt64.pos_iff_ne_zero.mpr (Proxy.validateRange_size_ne_zero h)
  have hphys := t.physFits
  have hexact : (t.physBase + a).toNat = t.physBase.toNat + a.toNat :=
    toNat_add_exact (by omega)
  unfold Proxy.InTenantSlice
  rw [hexact, Nat.add_sub_cancel_left]
  exact ⟨Nat.le_add_right _ _, hslice⟩

/-- `m` is `base` with the ports in `bound` pointed at slices of the
tenant, and nothing else changed. -/
structure Rebound (s : Proxy) (t : Tenant) (base m : RunDagsMfd)
    (bound : List (Nat × Nat)) : Prop where
  head : m.toRunHead = base.toRunHead
  dag : ∀ d, m.dagDesc d = { base.dagDesc d with
    portDesc := (m.dagDesc d).portDesc
    portDramAddrFd := (m.dagDesc d).portDramAddrFd }
  kept : ∀ d p, (d, p) ∉ bound → (m.dagDesc d).portDesc p = (base.dagDesc d).portDesc p
  bound : ∀ d p, (d, p) ∈ bound → s.InTenantSlice t ((m.dagDesc d).portDesc p).portDramAddr
      ((m.dagDesc d).portDesc p).portDramSize.toNat

theorem Rebound.refl (s : Proxy) (t : Tenant) (m : RunDagsMfd) : Rebound s t m m [] :=
  ⟨rfl, fun _ => rfl, fun _ _ _ => rfl, fun _ _ h => by cases h⟩

theorem RunDagsMfd.bindPort_port_self (m : RunDagsMfd) (d p : Nat) (addr size : UInt64) :
    ((m.bindPort d p addr size).dagDesc d).portDesc p = { (m.dagDesc d).portDesc p with
          portDramAddr := addr, portDramSize := size } := by
  simp [bindPort]

theorem RunDagsMfd.bindPort_port_ne (m : RunDagsMfd) {d p k q : Nat}
    (addr size : UInt64) (hne : (k, q) ≠ (d, p)) :
    ((m.bindPort d p addr size).dagDesc k).portDesc q = (m.dagDesc k).portDesc q := by
  unfold bindPort
  by_cases hk : k = d
  · subst hk
    have hq : q ≠ p := fun hq => hne (by rw [hq])
    simp [hq]
  · simp [hk]

theorem RunDagsMfd.bindPort_dag (m : RunDagsMfd) (d p k : Nat) (addr size : UInt64) :
    (m.bindPort d p addr size).dagDesc k = { m.dagDesc k with
      portDesc := ((m.bindPort d p addr size).dagDesc k).portDesc
      portDramAddrFd :=
        ((m.bindPort d p addr size).dagDesc k).portDramAddrFd } := by
  unfold bindPort
  by_cases hk : k = d
  · subst hk
    simp
  · simp [hk]

variable {base m : RunDagsMfd} {bound : List (Nat × Nat)}

theorem Rebound.bindPort {d p : Nat} {addr size : UInt64}
    (h : Rebound s t base m bound) (hslice : s.InTenantSlice t addr size.toNat) :
    Rebound s t base (m.bindPort d p addr size) (bound ++ [(d, p)]) := by
  refine ⟨h.head, ?_, ?_, ?_⟩
  · intro k
    conv_lhs => rw [RunDagsMfd.bindPort_dag, h.dag k]
  · intro k q hkq
    rw [List.mem_append, List.mem_singleton, not_or] at hkq
    rw [RunDagsMfd.bindPort_port_ne m addr size hkq.2]
    exact h.kept k q hkq.1
  · intro k q hkq
    by_cases he : (k, q) = (d, p)
    · obtain ⟨rfl, rfl⟩ := Prod.mk.inj he
      rw [RunDagsMfd.bindPort_port_self]
      exact hslice
    · rw [RunDagsMfd.bindPort_port_ne m addr size he]
      rw [List.mem_append, List.mem_singleton] at hkq
      exact h.bound k q (hkq.resolve_right he)

theorem Rebound.bindHandle {sid : UInt32} {m' : RunDagsMfd} {b : PortBind}
    (ht : s.getTenant t.cid = some t) (h : Rebound s t base m bound)
    (hb : s.bindHandle t t.cid sid b m = .ok m') :
    Rebound s t base m' (bound ++ [(b.dagIdx.toNat, b.portIdx.toNat)]) := by
  simp only [Proxy.bindHandle, guards, pure_ok]
    at hb
  obtain ⟨hend, -, -, hrange, -, rfl⟩ := hb
  apply h.bindPort
  rw [UInt64.add_assoc]
  exact inTenantSlice_of_validated ht hrange

theorem Rebound.bindHandles {sid : UInt32} {m' : RunDagsMfd} {l : List PortBind}
    (ht : s.getTenant t.cid = some t) (h : Rebound s t base m bound)
    (hl : s.bindHandles t t.cid sid l m = .ok m') :
    Rebound s t base m' (bound ++ l.map fun b => (b.dagIdx.toNat, b.portIdx.toNat)) := by
  induction l generalizing m bound with
  | nil =>
    obtain rfl : m = m' := Except.ok.inj hl
    rw [List.map_nil, List.append_nil]
    exact h
  | cons b l ih =>
    obtain ⟨m₁, hb, hl⟩ := bind_ok.mp hl
    rw [List.map_cons, ← List.singleton_append, ← List.append_assoc]
    exact ih (h.bindHandle ht hb) hl

/-- What either call hands over: a DAG in use of the calling tenant,
with the bound ports in slices and the rest as registered. -/
structure Proxy.Dispatched (s : Proxy) (d : Dispatch) : Prop where
  inUse : (s.dags d.slot).inUse = true
  client : (s.dags d.slot).clientCid = d.tenant.cid
  tenant : s.getTenant d.tenant.cid = some d.tenant
  rebound : Rebound s d.tenant (s.dags d.slot).mfd d.mfd d.bound

variable {d : Dispatch}

theorem handleRunRegisteredDag_dispatched {req : Rpc} {cid : UInt32}
    {shm heap : Mem} (h : s.handleRunRegisteredDag req cid shm heap = .ok d) :
    s.Dispatched d := by
  simp only [Proxy.handleRunRegisteredDag, Proxy.ownedDag, guards, pure_ok] at h
  obtain ⟨t, ht, -, -, slot, ⟨i, hi, hown, rfl⟩, -, m, hm, -, rfl⟩ := h
  obtain rfl := Proxy.getTenant_cid ht
  have hfind := Fin.eq_true_of_find?_eq_some hi
  rw [Bool.and_eq_true] at hfind
  refine ⟨hfind.1, ?_, ht, ?_⟩
  · by_contra hne
    exact hown (.inr ⟨Proxy.getTenant_ne_zero ht, hne⟩)
  · exact (Rebound.refl s t _).bindHandles ht hm

theorem runDagWithHandles_dispatched {dag i o cid : UInt32}
    (h : s.runDagWithHandles dag i o cid = .ok d) :
    s.Dispatched d := by
  simp only [Proxy.runDagWithHandles, Proxy.liveDag, guards, pure_ok] at h
  obtain ⟨t, ht, -, -, hi, -, hiok, ho, -, hook, slot, ⟨j, hj, hown, rfl⟩, h⟩ := h
  obtain rfl := Proxy.getTenant_cid ht
  have hfind := Fin.eq_true_of_find?_eq_some hj
  rw [Bool.and_eq_true] at hfind
  split at h
  · rw [pure_ok] at h
    subst h
    refine ⟨hfind.1, not_not.mp hown, ht, ?_⟩
    exact ((Rebound.refl s t _).bindPort (inTenantSlice_of_validated ht hiok)).bindPort
        (inTenantSlice_of_validated ht hook)
  · rw [pure_ok] at h
    subst h
    exact ⟨hfind.1, not_not.mp hown, ht, Rebound.refl s t _⟩

theorem dispatch_dispatched {r : RunReq} (h : s.dispatch r = .ok d) : s.Dispatched d := by
  cases r with
  | registered => exact handleRunRegisteredDag_dispatched h
  | withHandles => exact runDagWithHandles_dispatched h

-- ==== what confinement needs

/-- The moved address of an extra descriptor is null or in the copy. -/
theorem Staging.ExtraInside.inCopy {g : Staging} {daddr : UInt64} {n : Nat}
    (hfits : g.hostPhys.toNat + g.size.toNat < 2 ^ 64)
    (h : g.ExtraInside daddr n) (hne : g.moveExtra daddr ≠ 0) :
    g.InCopy (g.moveExtra daddr) n := by
  unfold moveExtra at hne ⊢
  split
  case isTrue hc => exact (h hc.1 hc.2).inCopy hfits
  case isFalse hc =>
    rw [if_neg hc] at hne
    exact absurd rfl hne

section Dispatched

/-- A dispatched DAG is its source, moved, but for the bound ports. -/
theorem Proxy.Dispatched.dag_eq (h : s.Dispatched d) (hs : (s.dags d.slot).Sound) {k : Nat}
    (hk : k < (s.dags d.slot).head.dagCnt.toNat) :
    d.mfd.dagDesc k = { (s.dags d.slot).staging.templateDag ((s.dags d.slot).source k) with
        portDesc := (d.mfd.dagDesc k).portDesc
        portDramAddrFd := (d.mfd.dagDesc k).portDramAddrFd } := by
  rw [← hs.template k hk]
  exact h.rebound.dag k

theorem Proxy.Dispatched.dagCnt_eq (h : s.Dispatched d) :
    d.mfd.dagCnt = (s.dags d.slot).head.dagCnt :=
  congrArg RunHead.dagCnt h.rebound.head

/-- A port the run left alone, once settled, is confined. -/
theorem Proxy.PortsSettled.confined (hp : s.PortsSettled d)
    (h : s.Dispatched d) (hs : (s.dags d.slot).Sound) {k p : Nat}
    (hk : k < (s.dags d.slot).head.dagCnt.toNat)
    (hport : p < ((s.dags d.slot).source k).portCnt.toNat)
    (hfree : (k, p) ∉ d.bound) :
    s.Confined d ((d.mfd.dagDesc k).portDesc p).portDramAddr
      ((d.mfd.dagDesc k).portDesc p).portDramSize.toNat := by
  have hmax := hs.ports k hk
  have heq : (d.mfd.dagDesc k).portDesc p = (s.dags d.slot).staging.movePort
          (((s.dags d.slot).source k).portDesc p) := by
    rw [h.rebound.kept k p hfree]
    show ((s.dags d.slot).templateDag k).portDesc p = _
    rw [hs.template k hk]
    exact if_pos ⟨hport, by omega⟩
  have hset := hp.settled k hk p hport hfree
  rw [heq]
  unfold Staging.movePort
  unfold PortSettled at hset
  split at hset
  case isTrue hm =>
    rw [if_pos hm]
    exact .inl (hset.inCopy hs.fits)
  case isFalse hm =>
    rw [if_neg hm]
    exact .inr hset

theorem Proxy.Dispatched.confined (h : s.Dispatched d)
    (hs : (s.dags d.slot).Sound) (hp : s.PortsSettled d) :
    s.DispatchConfined d := by
  have hfits := hs.fits
  refine ⟨?_, ?_, ?_, ?_, ?_, ?_⟩
  · intro k hk
    rw [h.dagCnt_eq] at hk
    have hin := (hs.inside k hk).1
    rw [h.dag_eq hs hk]
    refine .inl ?_
    -- the registration refused a DVI below the staging slice
    have habove : ((s.dags d.slot).source k).dviDramAddr
        ≥ (s.dags d.slot).staging.srcBase.toUInt64 := by
      exact hin.1
    show (s.dags d.slot).staging.InCopy (if _ then _ else _) _
    rw [if_pos habove]
    exact hin.inCopy hfits
  · intro k hk hne
    rw [h.dagCnt_eq] at hk
    rw [h.dag_eq hs hk] at hne ⊢
    exact .inl ((hs.inside k hk).2.1.inCopy hfits hne)
  · intro k hk hne
    rw [h.dagCnt_eq] at hk
    rw [h.dag_eq hs hk] at hne ⊢
    exact .inl ((hs.inside k hk).2.2.1.inCopy hfits hne)
  · intro k hk hne
    rw [h.dagCnt_eq] at hk
    rw [h.dag_eq hs hk] at hne ⊢
    exact .inl ((hs.inside k hk).2.2.2.inCopy hfits hne)
  · intro k hk p hport
    rw [h.dagCnt_eq] at hk
    by_cases hb : (k, p) ∈ d.bound
    · exact .inr (h.rebound.bound k p hb)
    · rw [h.dag_eq hs hk] at hport
      exact hp.confined h hs hk hport hb
  · intro r hr
    exact .inl ((hs.relocs r hr).1.inCopy hfits (hs.relocs r hr).2)

end Dispatched

/-- Path B confinement, where it holds: in every run of the proxy whose
registrations stay inside their staging slices, whatever a run request
that settles its ports hands to the driver belongs to the calling tenant
and is confined to the DAG's host copy and the tenant's slices. -/
theorem path_b_confined {s : Proxy} {r : RunReq} {d : Dispatch}
    (hs : (proxySystem.restrict RegisterInside).Reachable s)
    (h : s.dispatch r = .ok d) (hp : s.PortsSettled d) :
    (s.dags d.slot).clientCid = d.tenant.cid ∧
      s.getTenant d.tenant.cid = some d.tenant ∧ s.DispatchConfined d := by
  have hd := dispatch_dispatched h
  have hsound := reachable_sound hs d.slot hd.inUse
  exact ⟨hd.client, hd.tenant, hd.confined hsound hp⟩

-- ==== two requests

/-- Calls that register no DAG meet the condition. -/
theorem reachable_foldl (ops : List ProxyOp) (hops : ∀ op ∈ ops, ∀ a, op ≠ .registerDag a)
    (h : (proxySystem.restrict RegisterInside).Reachable s) :
    (proxySystem.restrict RegisterInside).Reachable (ops.foldl Proxy.apply s) := by
  induction ops generalizing s with
  | nil => exact h
  | cons op ops ih =>
    rw [List.forall_mem_cons] at hops
    refine ih hops.2 (h.step ⟨?_, rfl⟩)
    cases op with
    | registerDag a => exact absurd rfl (hops.1 a)
    | _ => trivial

/-- An 8 GiB window at 4 GiB, before any tenant is registered. -/
def sampleBoot : Proxy where
  simulated := true
  shmSize := 0x200000000
  physBase := 0x100000000

theorem sampleTenant_guest : (2 : UInt32) < 10 := by decide

theorem sampleTenant_fits :
    (0x2C0000000 : UInt64).toNat + (0x3FFFF000 : UInt64).toNat ≤ 2 ^ 64 := by
  decide

/-- CID 7 comes up on slice 4 and CID 10 on slice 7. Each allocates
64 KiB. -/
def sampleTenants : List ProxyOp :=
  [.registerTenant 7 4 9 .mapped 0x3FFFF000 0x200000000 0x100000000 (by decide) (by decide),
    .registerTenant 10 7 9 .mapped 0x3FFFF000 0x2C0000000 0x1C0000000
      sampleTenant_guest sampleTenant_fits,
    .alloc 1 0x10000 7 1, .alloc 1 0x10000 10 1]

def sampleBringUp : List ProxyOp :=
  sampleTenants ++ [.allocHandle 2 0x1000 7 1]

def sampleUp : Proxy := sampleBringUp.foldl Proxy.apply sampleBoot

/-- The BAR of CID 7 with a registration in its arena: one DAG, its DVI
and an extra list with one preload in the allocation, and a port at the
physical address of CID 10's allocation. -/
def sampleRegisterShm : Mem :=
  let arena := CAVALRY_RPC_ARENA_OFFSET.toNat
  let dag := arena + 60 + 136
  let m := write64 (write64 (fun _ => 0) (dag + 600) 64) (dag + 592) 0x2C2000000
  let m := write64 (write32 (write32 m (dag + 44) 1) (dag + 28) 256) (dag + 16) 0x02000000
  let m := write32 (write64 m (dag + 72) 0x02001000) (arena + 60 + 24) 1
  let m := write64 (write32 m 0x02001000 1) 0x02001100 0x02002000
  let m := write32 (write64 m 0x02002000 0x02003000) 0x0200200C 128
  write32 (write32 m arena 0x02000000) (arena + 4) 0x10000

def sampleRegister : RegisterArgs where
  req :=
    { sessionId := 1, barOffset := CAVALRY_RPC_ARENA_OFFSET, arenaLen := 8980 }
  clientCid := 7
  arenaShm := sampleRegisterShm
  stagingShm := sampleRegisterShm

def sampleRegistered : Proxy := sampleUp.apply (.registerDag sampleRegister)

/-- CID 7 runs DAG 1 with the arena `m`. -/
def sampleRunDag (m : Mem) : RunReq :=
  .registered
    { sessionId := 1, dagId := 1, barOffset := CAVALRY_RPC_ARENA_OFFSET
      arenaLen := 648 } 7 m fun _ => 0

/-- An arena that binds port 0 of DAG 0 to 64 bytes of handle 1. -/
def sampleBinds : Mem :=
  let arena := CAVALRY_RPC_ARENA_OFFSET.toNat
  write32 (write32 (write32 (fun _ => 0) (arena + 4) 1) (arena + 16) 1) (arena + 24) 64

theorem reachable_sampleRegistered :
    (proxySystem.restrict RegisterInside).Reachable sampleRegistered := by
  have hboot : (proxySystem.restrict RegisterInside).Reachable sampleBoot :=
    .init ⟨fun _ => rfl, fun _ => rfl, fun _ => rfl, fun _ => rfl⟩
  have hup : (proxySystem.restrict RegisterInside).Reachable sampleUp :=
    reachable_foldl sampleBringUp (by simp [sampleBringUp, sampleTenants]) hboot
  have hhost : sampleUp.registerHost sampleRegister = some 0x300100000 := by
    decide +kernel
  have hin : sampleRegister.Inside 0x300100000 := by decide +kernel
  have hC : RegisterInside sampleUp (.registerDag sampleRegister) := by
    intro _ phys hphys
    rw [hhost, Option.mem_some_iff] at hphys
    rw [← hphys]
    exact hin
  exact hup.step ⟨hC, rfl⟩

/-- Bound, the request is dispatched and confined. -/
theorem path_b_confined_bound : ∃ d, sampleRegistered.dispatch (sampleRunDag sampleBinds) = .ok d ∧
      sampleRegistered.DispatchConfined d := by
  obtain ⟨d, hd, hp⟩ : ∃ d, sampleRegistered.dispatch
      (sampleRunDag sampleBinds) = .ok d ∧ sampleRegistered.PortsSettled d :=
    exists_ok_of_any (by decide +kernel)
  exact ⟨d, hd, (path_b_confined reachable_sampleRegistered hd hp).2.2⟩

/-- Unbound, the same request is dispatched with a port in the slice of
another tenant. -/
theorem path_b_escapes : ∃ s r d u, proxySystem.Reachable s ∧ s.dispatch r = .ok d ∧
      d.tenant.cid = 7 ∧ s.getTenant 10 = some u ∧
      s.InTenantSlice u ((d.mfd.dagDesc 0).portDesc 0).portDramAddr
        ((d.mfd.dagDesc 0).portDesc 0).portDramSize.toNat ∧
      ¬ s.DispatchConfined d := by
  obtain ⟨d, hd, hcid, hdag, hport, hslice, hout⟩ :
      ∃ d, sampleRegistered.dispatch (sampleRunDag fun _ => 0) = .ok d ∧
        d.tenant.cid = 7 ∧ 0 < d.mfd.dagCnt.toNat ∧
        0 < (d.mfd.dagDesc 0).portCnt.toNat ∧
        (∃ u ∈ sampleRegistered.getTenant 10, sampleRegistered.InTenantSlice u
          ((d.mfd.dagDesc 0).portDesc 0).portDramAddr
          ((d.mfd.dagDesc 0).portDesc 0).portDramSize.toNat) ∧
        ¬ sampleRegistered.Confined d ((d.mfd.dagDesc 0).portDesc 0).portDramAddr
          ((d.mfd.dagDesc 0).portDesc 0).portDramSize.toNat :=
    exists_ok_of_any (by decide +kernel)
  obtain ⟨u, hu, hslice⟩ := hslice
  exact ⟨sampleRegistered, sampleRunDag fun _ => 0, d, u,
    reachable_sampleRegistered.of_restrict, hd, hcid, hu, hslice,
    fun h => hout (h.port 0 hdag 0 hport)⟩

end AmbaVirt.Cavalry
