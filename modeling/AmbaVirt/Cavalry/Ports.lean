/-
Live inference: the two ports `cavalry_proxy_run_dag_with_handles` binds
to the handles of its caller.

# The fallbacks

Both ports are looked for by size. An input handle without a port of its
size takes port 0 of DAG 0, an output handle without one the last port of
the last DAG, and neither fallback is compared with the other port or
with the port counts. A single port gets both handles (`single_port`).
-/
import AmbaVirt.Cavalry.PathB

namespace AmbaVirt.Cavalry

open Lib

namespace RunDagsMfd

variable {m : RunDagsMfd} {i j : Nat × Nat} {size addr : UInt64}

-- ==== the two searches

def portSize (m : RunDagsMfd) (i : Nat × Nat) : UInt64 :=
  ((m.dagDesc i.1).portDesc i.2).portDramSize

def port (m : RunDagsMfd) (i : Nat × Nat) : PortDesc × Int :=
  ((m.dagDesc i.1).portDesc i.2, (m.dagDesc i.1).portDramAddrFd i.2)

def lastPort (m : RunDagsMfd) : Nat × Nat :=
  (m.dagCnt.toNat - 1, (m.dagDesc (m.dagCnt.toNat - 1)).portCnt.toNat - 1)

@[simp] theorem mem_ports : j ∈ m.ports ↔
    j.1 < m.dagCnt.toNat ∧ j.2 < (m.dagDesc j.1).portCnt.toNat := by
  obtain ⟨d, p⟩ := j
  simp [ports]

theorem inPort_mem : m.inPort size ∈ m.ports ↔
    (∃ j ∈ m.ports, m.portSize j = size) ∨ (0, 0) ∈ m.ports := by
  unfold inPort
  cases h : m.ports.find? _ with
  | none =>
    have hnone : ¬ ∃ j ∈ m.ports, m.portSize j = size := by
      simpa [portSize] using h
    simp only [Option.getD_none, hnone, false_or]
  | some j =>
    have hj := List.mem_of_find?_eq_some h
    have hsize : m.portSize j = size := by simpa [portSize] using List.find?_some h
    exact iff_of_true hj (.inl ⟨j, hj, hsize⟩)

/-- The output loop ends with a port of the size other than the input
port, or with the fallback if there is none. -/
theorem outPort_cases (m : RunDagsMfd) (i : Nat × Nat) (size : UInt64) :
    (m.outPort i size ∈ m.ports ∧ m.outPort i size ≠ i ∧ m.portSize (m.outPort i size) = size) ∨
      m.outPort i size = m.lastPort ∧ ∀ j ∈ m.ports, j ≠ i → m.portSize j ≠ size := by
  have hout : m.outPort i size = List.foldl _ m.lastPort (List.range m.dagCnt.toNat) := rfl
  simp only [hout, mem_ports]
  generalize m.lastPort = last
  -- by induction on the DAGs looked at
  induction m.dagCnt.toNat with
  | zero => simp
  | succ k ih =>
    simp only [List.range_succ, List.foldl_append, List.foldl_cons, List.foldl_nil]
    split
    case h_1 p hp =>
      have hlt := List.mem_of_find?_eq_some hp
      have hfound := List.find?_some hp
      simp only [Bool.and_eq_true, bne_iff_ne, beq_iff_eq] at hfound
      exact .inl ⟨⟨Nat.lt_succ_self k, List.mem_range.mp hlt⟩, hfound⟩
    case h_2 hnone =>
      rcases ih with ⟨hlt, hrest⟩ | ⟨hlast, hall⟩
      · exact .inl ⟨⟨Nat.lt_succ_of_lt hlt.1, hlt.2⟩, hrest⟩
      · refine .inr ⟨hlast, fun j hj hne => ?_⟩
        rcases Nat.lt_succ_iff_lt_or_eq.mp hj.1 with hk | rfl
        · exact hall j ⟨hk, hj.2⟩ hne
        · simpa [hne, portSize] using List.find?_eq_none.mp hnone j.2 (List.mem_range.mpr hj.2)

theorem outPort_mem : m.outPort i size ∈ m.ports ∧ m.outPort i size ≠ i ↔
    (∃ j ∈ m.ports, j ≠ i ∧ m.portSize j = size) ∨ m.lastPort ∈ m.ports ∧ m.lastPort ≠ i := by
  rcases m.outPort_cases i size with ⟨hmem, hne, hsize⟩ | ⟨hlast, hall⟩
  · exact iff_of_true ⟨hmem, hne⟩ (.inl ⟨_, hmem, hne, hsize⟩)
  · have hnone : ¬ ∃ j ∈ m.ports, j ≠ i ∧ m.portSize j = size := by
      simpa only [not_exists, not_and] using hall
    simp only [hlast, hnone, false_or]

-- ==== binding one port

variable (m i)

theorem portCnt_bindPort (k : Nat) :
    ((m.bindPort i.1 i.2 addr size).dagDesc k).portCnt = (m.dagDesc k).portCnt := by
  rw [bindPort_dag]

theorem port_bindPort (j : Nat × Nat) : (m.bindPort i.1 i.2 addr size).port j =
    if j = i then ({ (m.port i).1 with portDramAddr := addr, portDramSize := size },
      CAVALRY_DMABUF_FD_REPRESENT_PHYS) else m.port j := by
  obtain ⟨d, p⟩ := i
  obtain ⟨k, q⟩ := j
  by_cases hk : k = d
  · subst hk
    by_cases hq : q = p
    · simp [port, bindPort, hq]
    · simp [port, bindPort, hq]
  · simp [port, bindPort, hk]

theorem ports_bindPort : (m.bindPort i.1 i.2 addr size).ports = m.ports := by
  simp only [ports, portCnt_bindPort]
  rfl

theorem outPort_bindPort (outSize : UInt64) :
    (m.bindPort i.1 i.2 addr size).outPort i outSize = m.outPort i outSize := by
  have hfind (d p : Nat) : ((d, p) != i &&
      (((m.bindPort i.1 i.2 addr size).dagDesc d).portDesc p).portDramSize == outSize) =
      ((d, p) != i && ((m.dagDesc d).portDesc p).portDramSize == outSize) := by
    by_cases h : (d, p) = i
    · simp [h]
    · rw [bindPort_port_ne m addr size h]
  simp only [outPort, portCnt_bindPort, hfind]
  rfl

end RunDagsMfd

-- ==== two handles on two ports

/-- The two handles are bound to two ports that exist, and every other
port is as in the template. -/
def Dispatch.Binds (d : Dispatch) (base : RunDagsMfd) (hin hout : HandleEntry) : Prop :=
  ∃ i o, d.bound = [i, o] ∧ i ≠ o ∧ i ∈ d.mfd.ports ∧ o ∈ d.mfd.ports ∧
    (∀ b ∈ [(i, hin), (o, hout)], d.mfd.port b.1 =
      ({ (base.port b.1).1 with
        portDramAddr := d.tenant.physBase + b.2.barOffset.toUInt64
        portDramSize := b.2.size.toUInt64 }, CAVALRY_DMABUF_FD_REPRESENT_PHYS)) ∧
    ∀ j, j ≠ i → j ≠ o → d.mfd.port j = base.port j

/-- The searches find two ports: one of each size, or a fallback that
exists and is not the input port. -/
def RunDagsMfd.TwoPorts (m : RunDagsMfd) (inSize outSize : UInt64) : Prop :=
  ((∃ j ∈ m.ports, m.portSize j = inSize) ∨ (0, 0) ∈ m.ports) ∧
  ((∃ j ∈ m.ports, j ≠ m.inPort inSize ∧ m.portSize j = outSize) ∨
    m.lastPort ∈ m.ports ∧ m.lastPort ≠ m.inPort inSize)
  deriving Decidable

open RunDagsMfd

theorem binds_iff {slot : Fin 128} {t : Tenant} {m m₁ : RunDagsMfd} {hin hout : HandleEntry}
    {i o : Nat × Nat} (hi : i = m.inPort hin.size.toUInt64)
    (h₁ : m₁ = m.bindPort i.1 i.2 (t.physBase + hin.barOffset.toUInt64) hin.size.toUInt64)
    (ho : o = m₁.outPort i hout.size.toUInt64) :
    (⟨slot, t, [i, o], m₁.bindPort o.1 o.2 (t.physBase + hout.barOffset.toUInt64)
      hout.size.toUInt64⟩ : Dispatch).Binds m hin hout ↔
      m.TwoPorts hin.size.toUInt64 hout.size.toUInt64 := by
  unfold Dispatch.Binds TwoPorts
  rw [← inPort_mem, ← outPort_mem, ← hi, ← outPort_bindPort, ← h₁, ← ho, ports_bindPort, h₁,
    ports_bindPort]
  constructor
  · rintro ⟨i', o', hb, hne, hi', ho', -⟩
    cases hb
    exact ⟨hi', ho', Ne.symm hne⟩
  · rintro ⟨hi', ho', hne⟩
    refine ⟨i, o, rfl, Ne.symm hne, hi', ho', ?_, fun j hji hjo => ?_⟩
    · simp [port_bindPort, hne, Ne.symm hne]
    · rw [port_bindPort, if_neg hjo, port_bindPort, if_neg hji]

variable {s : Proxy} {dag inId outId cid : UInt32} {d : Dispatch}

/-- A call that is not refused binds its two handles to two ports exactly
if the template has two for it. -/
theorem live_ports_iff (h : s.runDagWithHandles dag inId outId cid = .ok d) :
    ∃ hin hout, s.ownedHandle inId cid = .ok hin ∧ s.ownedHandle outId cid = .ok hout ∧
      (d.Binds (s.dags d.slot).mfd hin hout ↔
        (s.dags d.slot).mfd.TwoPorts hin.size.toUInt64 hout.size.toUInt64) := by
  simp only [Proxy.runDagWithHandles, guards] at h
  obtain ⟨t, -, -, -, hin, hhin, -, hout, hhout, -, slot, -, h⟩ := h
  refine ⟨hin, hout, hhin, hhout, ?_⟩
  split at h
  · cases h
    exact binds_iff rfl rfl rfl
  case isFalse hnone =>
    cases h
    -- without a DAG there is no port
    have hports : (s.dags slot).mfd.ports = [] := by
      simp [RunDagsMfd.ports, UInt32.pos_iff_ne_zero.not_left.mp hnone]
    simp [Dispatch.Binds, RunDagsMfd.TwoPorts, hports]

def sampleTwoPorts : Proxy :=
  let dag := CAVALRY_RPC_ARENA_OFFSET.toNat + 60 + 136
  let m := write64 (write64 (write32 sampleRegisterShm (dag + 44) 2) (dag + 600) 0x1000)
    (dag + 624) 0x2000
  (sampleUp.apply (.registerDag { sampleRegister with arenaShm := m, stagingShm := m })).apply
    (.allocHandle 3 0x2000 7 1)

theorem live_ports_iff_sample : ∃ d hin hout,
    sampleTwoPorts.runDagWithHandles 1 1 2 7 = .ok d ∧ d.bound = [(0, 0), (0, 1)] ∧
      d.Binds (sampleTwoPorts.dags d.slot).mfd hin hout := by
  obtain ⟨d, hd, hb, htwo⟩ : ∃ d, sampleTwoPorts.runDagWithHandles 1 1 2 7 = .ok d ∧
      d.bound = [(0, 0), (0, 1)] ∧
      (sampleTwoPorts.dags d.slot).mfd.TwoPorts 0x1000 0x2000 :=
    exists_ok_of_any (by decide +kernel)
  obtain ⟨_, hin₁, hsize₁⟩ : ∃ e, sampleTwoPorts.ownedHandle 1 7 = .ok e ∧
      e.size = 0x1000 := exists_ok_of_any (by decide +kernel)
  obtain ⟨_, hout₁, hsize₂⟩ : ∃ e, sampleTwoPorts.ownedHandle 2 7 = .ok e ∧
      e.size = 0x2000 := exists_ok_of_any (by decide +kernel)
  obtain ⟨hin, hout, hin₂, hout₂, hiff⟩ := live_ports_iff hd
  cases hin₁.symm.trans hin₂
  cases hout₁.symm.trans hout₂
  rw [hsize₁, hsize₂] at hiff
  exact ⟨d, _, _, hd, hb, hiff.mpr htwo⟩

def sampleSinglePort : Proxy := sampleRegistered.apply (.allocHandle 3 0x1000 7 1)

/-- Both handles on the only port. -/
theorem single_port : ∃ s d, proxySystem.Reachable s ∧ s.runDagWithHandles 1 1 2 7 = .ok d ∧
    d.bound = [(0, 0), (0, 0)] ∧ ∀ base hin hout, ¬ d.Binds base hin hout := by
  obtain ⟨d, hd, hb⟩ : ∃ d, sampleSinglePort.runDagWithHandles 1 1 2 7 = .ok d ∧
      d.bound = [(0, 0), (0, 0)] := exists_ok_of_any (by decide +kernel)
  refine ⟨sampleSinglePort, d, reachable_sampleRegistered.of_restrict.step rfl, hd, hb, ?_⟩
  intro base hin hout h
  obtain ⟨i, o, hio, hne, -⟩ := h
  rw [hb] at hio
  cases hio
  exact hne rfl

end AmbaVirt.Cavalry
