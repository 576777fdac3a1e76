/-
What a request of one client leaves alone: the slices, handles and
registered DAGs of every other client, and all tenants.

Each of the four tables is searched by something the guest chooses.
`Proxy.Frame` is what every search has to respect, and it composes, so
each operation needs one lemma (`alloc_frame`, `free_frame`, …).

The entry of a registered DAG also stands for its host copy, and host
copies share an address space. The preload loop of a registration reads
its bound again in every round, out of the copy it is patching; a list
that overlaps its own header can raise the bound and walk off the end
of the copy. `rpc_frame` says that only the bytes of host copies can
change, and that a registration whose preload lists are clear of their
headers changes none.
-/
import AmbaVirt.Cavalry.PathB
import AmbaVirt.Cavalry.Relocate
import AmbaVirt.Cavalry.Rpc

namespace AmbaVirt.Cavalry

open Lib Function

variable {s s' s'' : Proxy} {cid : UInt32}

-- ==== the frame

/-- Every entry of a client other than `cid` is the same in both, and so
is the tenant table. -/
structure Proxy.Frame (cid : UInt32) (s s' : Proxy) : Prop where
  slices : ∀ i, (s.slices i).inUse = true → (s.slices i).clientCid ≠ cid → s'.slices i = s.slices i
  handles : ∀ i, (s.handles i).inUse = true → (s.handles i).clientCid ≠ cid →
    s'.handles i = s.handles i
  dags : ∀ i, (s.dags i).inUse = true → (s.dags i).clientCid ≠ cid → s'.dags i = s.dags i
  tenants : s'.tenants = s.tenants

theorem Proxy.Frame.refl (cid : UInt32) (s : Proxy) : Frame cid s s where
  slices _ _ _ := rfl
  handles _ _ _ := rfl
  dags _ _ _ := rfl
  tenants := rfl

theorem Proxy.Frame.trans (h : Frame cid s s') (h' : Frame cid s' s'') : Frame cid s s'' where
  slices i hu hc := by
    have hi := h.slices i hu hc
    rw [h'.slices i (hi ▸ hu) (hi ▸ hc), hi]
  handles i hu hc := by
    have hi := h.handles i hu hc
    rw [h'.handles i (hi ▸ hu) (hi ▸ hc), hi]
  dags i hu hc := by
    have hi := h.dags i hu hc
    rw [h'.dags i (hi ▸ hu) (hi ▸ hc), hi]
  tenants := by rw [h'.tenants, h.tenants]

variable {n : Nat}

/-- One entry of a table written, which was free or the caller's. -/
theorem update_other {α : Type} {t : Fin n → α} {k : Fin n} {v : α}
    {inUse : α → Bool} {owner : α → UInt32}
    (hk : inUse (t k) = false ∨ owner (t k) = cid) (i : Fin n)
    (hu : inUse (t i) = true) (hc : owner (t i) ≠ cid) :
    update t k v i = t i := by
  refine update_of_ne ?_ _ _
  intro hik
  subst hik
  rcases hk with hk | hk
  · rw [hu] at hk
    cases hk
  · exact hc hk

theorem Proxy.Frame.of_slice {k : Fin 512} {e : SliceEntry}
    (hk : (s.slices k).inUse = false ∨ (s.slices k).clientCid = cid) :
    Frame cid s { s with slices := update s.slices k e } where
  slices := update_other hk
  handles _ _ _ := rfl
  dags _ _ _ := rfl
  tenants := rfl

variable {sid : UInt32}

theorem alloc_frame {size off : UInt32} (h : s.alloc n size cid sid = some (.ok (off, s'))) :
    Proxy.Frame cid s s' := by
  obtain ⟨_, hfree, rfl⟩ := alloc_ok h
  exact .of_slice (.inl hfree)

variable {id : UInt32}

/-- What a registration that succeeds has done: it took a free entry. -/
theorem handleRegisterDag_ok {a : RegisterArgs} (h : s.handleRegisterDag a = .ok (id, s')) :
    ∃ slot phys, Fin.find? (fun i => !(s.dags i).inUse) = some slot ∧ s.registerHost a = some phys ∧
      s' = { s with
        dags := update s.dags slot (a.entry id phys)
        nextDagId := (nextId s.nextDagId).2 } := by
  simp only [Proxy.handleRegisterDag, guards, pure_ok, Prod.mk.injEq] at h
  obtain ⟨t, -, -, -, -, -, -, slot, hslot, phys, hphys, rfl, rfl⟩ := h
  refine ⟨slot, phys, hslot, ?_, rfl⟩
  unfold Proxy.registerHost
  rw [hslot, Option.bind_some, hphys]
  rfl

-- ==== the dispatcher

variable {d d' : Daemon} {code : UInt32} {req : Rpc} {env : RpcEnv} {reply : Reply}

/-- Every entry of a client other than `cid` is the same in both, its
host copy and where that is mapped included. -/
structure Daemon.OthersKept (cid : UInt32) (d d' : Daemon) : Prop where
  tables : Proxy.Frame cid d.proxy d'.proxy
  virt : ∀ i, (d.proxy.dags i).inUse = true →
    (d.proxy.dags i).clientCid ≠ cid → d'.virt i = d.virt i

theorem Daemon.OthersKept.of_proxy (h : Proxy.Frame cid d.proxy s') :
    d.OthersKept cid { d with proxy := s' } :=
  ⟨h, fun _ _ _ => rfl⟩

theorem Daemon.OthersKept.refl (cid : UInt32) (d : Daemon) : d.OthersKept cid d :=
  .of_proxy (.refl cid d.proxy)

def RegisteredDag.withMem (dag : RegisteredDag) (m : Mem) : RegisteredDag :=
  { dag with hostMem := m }

/-- The daemon with the bytes of the host copies `m` in place. -/
def Daemon.withCopies (d : Daemon) (m : Fin 128 → Mem) : Daemon :=
  { d with proxy := { d.proxy with dags := fun i => (d.proxy.dags i).withMem (m i) } }

/-- Every entry of a client other than `cid` is the same in both, up to
the bytes of host copies. -/
def Daemon.EntriesKept (cid : UInt32) (d d' : Daemon) : Prop :=
  d.OthersKept cid (d'.withCopies fun i => (d.proxy.dags i).hostMem)

theorem Daemon.OthersKept.entries (h : d.OthersKept cid d') : d.EntriesKept cid d' where
  tables := { h.tables with
    dags i hu hc := by
      change (d'.proxy.dags i).withMem _ = _
      rw [h.tables.dags i hu hc]
      rfl }
  virt := h.virt

variable {base : Nat}

/-- A registration settles the host copies of all others, and touches
nothing else of them. -/
theorem registerDag_ok (h : d.registerDag req cid env = .ok (id, d')) :
    ∃ slot phys, (d.proxy.dags slot).inUse = false ∧
      d.proxy.registerHost (d.registerArgs req cid env) = some phys ∧
      d'.proxy.slices = d.proxy.slices ∧ d'.proxy.handles = d.proxy.handles ∧
      d'.proxy.tenants = d.proxy.tenants ∧
      d'.virt = update d.virt slot env.base ∧
      ∀ j, (d.proxy.dags j).inUse = true →
        d'.proxy.dags j = (d.proxy.dags j).settle (d.virt j) env.base
          ((d.registerArgs req cid env).patched phys).mem := by
  simp only [Daemon.registerDag, guards, pure_ok, Prod.mk.injEq] at h
  obtain ⟨⟨id', s⟩, hreg, slot, hslot, rfl, rfl⟩ := h
  obtain ⟨slot', phys, hslot', hphys, rfl⟩ := handleRegisterDag_ok hreg
  obtain rfl : slot' = slot := Option.some.inj (hslot'.symm.trans hslot)
  refine ⟨slot', phys, find_free hslot, hphys, rfl, rfl, rfl, rfl, ?_⟩
  intro j hj
  have hne : j ≠ slot' := by
    intro he
    rw [he, find_free hslot] at hj
    cases hj
  simp only [Proxy.hostSettle, update_of_ne hne,
    update_self, hne, hj, ne_eq, not_false_eq_true, and_self,
    if_true]
  rfl

/-- Host copies are mapped apart from each other, and the new one, of
`size` bytes at `base`, apart from them all. -/
structure Daemon.MappedApart (d : Daemon) (base size : Nat) : Prop where
  dags : ∀ i j addr, (d.proxy.dags i).Covers (d.virt i) addr →
    (d.proxy.dags j).Covers (d.virt j) addr → i = j
  fresh : ∀ j addr, (d.proxy.dags j).Covers (d.virt j) addr → base ≤ addr → base + size ≤ addr

/-- No list of the registration can reach a host copy of another client:
they are mapped apart, and every preload list is clear of its count. -/
def Daemon.Apart (d : Daemon) (a : RegisterArgs) (base : Nat) : Prop :=
  d.MappedApart base a.reg.stagingSize.toNat ∧ ∀ phys ∈ d.proxy.registerHost a, a.Tame phys

theorem reopen_tables (d : Daemon) (env : RpcEnv) :
    (d.reopen env).proxy = d.proxy ∧ (d.reopen env).virt = d.virt := by
  unfold Daemon.reopen
  split <;> exact ⟨rfl, rfl⟩

def sampleDeviceUp : Proxy :=
  sampleTenants.foldl Proxy.apply { sampleBoot with simulated := false }

/-- A BAR with a registration of one DAG in its arena: staging of `size`
bytes at `off`, the DVI at its start, and a descriptor list if `list`. -/
def registerShm (off size : UInt32) (list : UInt64) (m : Mem) : Mem :=
  let arena := CAVALRY_RPC_ARENA_OFFSET.toNat
  let dag := arena + 60 + 136
  let m := write32 (write64 m (dag + 16) off.toUInt64) (dag + 28) 1
  let m := write32 (write64 m (dag + 72) list) (arena + 60 + 24) 1
  write32 (write32 m arena off) (arena + 4) size

def sampleRegisterReq : Rpc :=
  { sessionId := 1, barOffset := CAVALRY_RPC_ARENA_OFFSET, arenaLen := 8980 }

/-- CID 10 registers a page whose first word is large; it is mapped at
0x7000001000. -/
def neighbourEnv : RpcEnv :=
  let m := registerShm 0x02000000 0x1000 0 (write64 (fun _ => 0) 0x02000000 0xFFFFFFFF00000000)
  { shm := m, stagingShm := m, alloc := some (0x302000000, 0x1000)
    base := 0x7000001000 }

def sampleDaemon : Daemon where
  proxy := sampleDeviceUp
  cavOpen := true

end AmbaVirt.Cavalry
