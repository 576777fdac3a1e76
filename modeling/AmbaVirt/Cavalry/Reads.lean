/-
Which bytes of the arena copy the two descriptor handlers read
(`handle_run_dags`, `handle_register_dag`).

Both copy `arena_len` bytes out of the BAR and then read `dag_desc[d]`
for every `d < dag_cnt`. The array is a zero-length trailing member: the
length check covers the header in front of it and no descriptor. The
handlers are written here once more, as programs that log each field
they read, up to the check that stops them; `handleRunDags_eq` and
`handleRegisterDag_eq` say that they are those of `PathA` and `Register`.

The descriptors stand one behind the other, so the furthest read is in
the last one looked at. `descriptor_reads_iff` gives the exact number of
bytes the arena must have.
-/
import AmbaVirt.Lib.Reader
import AmbaVirt.Cavalry.Register

namespace AmbaVirt.Cavalry

open Lib Lib.Reader

variable {s : Proxy} {cid : UInt32} {m : Mem} {o : Nat}

-- ==== one descriptor

def Proxy.readPokeList (s : Proxy) (cid : UInt32) (o : Nat) : Reader Errno Unit :=
  get64 (o + 56) >>= fun daddr =>
    if daddr ≠ 0 then
      get32 (o + 52) >>= fun cnt =>
        lift (s.validateRange daddr (pokeListSize cnt) cid)
    else pure ()

def Proxy.readExtra (s : Proxy) (cid : UInt32) (o : Nat) (size : UInt64) : Reader Errno Unit :=
  get64 o >>= fun daddr => lift (s.validateExtra daddr size cid)

/-- Entry `p` of the `port_desc` array at `o`. -/
def Proxy.readPort (s : Proxy) (cid : UInt32) (o p : Nat) : Reader Errno Unit := do
  let addr ← get64 (o + 24 * p)
  let size ← get64 (o + 24 * p + 8)
  lift (s.validateRange addr size cid)

/-- One round of the validation loop of `handle_run_dags`, on the
descriptor at `o`. -/
def Proxy.readDag (s : Proxy) (cid : UInt32) (o : Nat) : Reader Errno Unit := do
  let portCnt ← get32 (o + 44)
  lift (refuseIf (portCnt > CAVALRY_MAX_PORTS) .EINVAL)
  let dviDramAddr ← get64 (o + 16)
  let dviImgSize ← get32 (o + 28)
  lift (s.validateRange dviDramAddr dviImgSize.toUInt64 cid)
  s.readPokeList cid o
  s.readExtra cid (o + 64) extraCommonSize
  s.readExtra cid (o + 72) extraListSize
  forEach (List.range portCnt.toNat) (s.readPort cid (o + 592))

/-- One round of the check loop of `handle_register_dag`. -/
def RegDesc.readDag (reg : RegDesc) (o : Nat) : Reader Errno Unit := do
  let portCnt ← get32 (o + 44)
  lift (refuseIf (portCnt > CAVALRY_MAX_PORTS) .EINVAL)
  let dviDramAddr ← get64 (o + 16)
  let dviImgSize ← get32 (o + 28)
  lift (refuseIf (dviDramAddr < reg.stagingBarOffset.toUInt64 ∨ dviImgSize = 0 ∨
    (dviDramAddr - reg.stagingBarOffset.toUInt64)
      + dviImgSize.toUInt64 > reg.stagingSize.toUInt64) .EFAULT)

/-- Every field of the descriptor at `o`, as the copying loops of both
handlers read them. -/
def dagFields (o : Nat) : List Span :=
  [⟨o, 4⟩, ⟨o + 4, 4⟩, ⟨o + 8, 4⟩, ⟨o + 16, 8⟩, ⟨o + 24, 4⟩, ⟨o + 28, 4⟩,
    ⟨o + 32, 4⟩, ⟨o + 36, 4⟩, ⟨o + 40, 4⟩, ⟨o + 44, 4⟩, ⟨o + 48, 4⟩,
    ⟨o + 52, 4⟩, ⟨o + 56, 8⟩, ⟨o + 64, 8⟩, ⟨o + 72, 8⟩, ⟨o + 80, 512⟩,
    ⟨o + 592, 6144⟩, ⟨o + 6736, 2048⟩]

/-- The header fields the copying reads, of the `struct cavalry_run_dags`
at `o`. -/
def runFields (o : Nat) : List Span :=
  [⟨o + 24, 4⟩, ⟨o + 32, 4⟩, ⟨o + 36, 4⟩, ⟨o + 40, 4⟩, ⟨o + 44, 4⟩,
    ⟨o + 48, 1⟩, ⟨o + 49, 1⟩, ⟨o + 52, 4⟩]

/-- What is copied out of a request of `cnt` DAGs at `o`. -/
def requestFields (o cnt : Nat) : List Span :=
  runFields o ++ (List.range cnt).flatMap fun d => dagFields (o + 136 + dagDescSize * d)

-- ==== the handlers

/-- `handle_run_dags` on its arena copy. -/
def Proxy.readRunDags (s : Proxy) (t : Tenant) (cid : UInt32) : Reader Errno RunDagsMfd := do
  let dagCnt ← get32 24
  lift (refuseIf (dagCnt = 0 ∨ dagCnt > MAX_DAG_CNT_CAP) .EINVAL)
  forEach (List.range dagCnt.toNat) fun d =>
    s.readDag cid (136 + dagDescSize * d)
  let run ← fetch (requestFields 0 dagCnt.toNat) fun m => decodeRunDags m 0
  return rebuildRun t run

/-- The second half of `handle_register_dag`, for `cnt` checked DAGs:
what it copies out goes into the registry entry. -/
def Proxy.readEntry (s : Proxy) (a : RegisterArgs) (cnt : Nat) : Reader Errno (UInt32 × Proxy) := do
  let slot ← lift (require (Fin.find? fun i => !(s.dags i).inUse) .ENOMEM)
  let hostPhys ← lift (s.hostPhys slot a.host)
  let id := nextId s.nextDagId
  fetch (requestFields 60 cnt) fun _ => (id.1, { s with
    dags := Function.update s.dags slot (a.entry id.1 hostPhys)
    nextDagId := id.2 })

/-- `handle_register_dag` on its arena copy. -/
def Proxy.readRegisterDag (s : Proxy) (a : RegisterArgs) : Reader Errno (UInt32 × Proxy) := do
  let off ← get32 0
  let size ← get32 4
  lift (s.validateRange off.toUInt64 size.toUInt64 a.clientCid)
  let dagCnt ← get32 (60 + 24)
  lift (refuseIf (dagCnt = 0 ∨ dagCnt > MAX_DAG_CNT_CAP) .EINVAL)
  forEach (List.range dagCnt.toNat) fun d =>
    (RegDesc.mk off size).readDag (196 + dagDescSize * d)
  s.readEntry a dagCnt.toNat

/-- The checks both handlers make before they copy the arena. -/
def Proxy.arenaTenant (s : Proxy) (req : Rpc) (cid : UInt32) (least : UInt64) :
    Except Errno Tenant := do
  let tenant ← require (s.getTenant cid) .ENODEV
  refuseIf (tenant.shmMap ≠ .mapped) .ENODEV
  tenant.checkArena req least
  return tenant

def Proxy.acceptRun (s : Proxy) (req : Rpc) (cid : UInt32) : Except Errno Tenant := do
  refuseIf (s.enforcePathB = true) .EPERM
  s.arenaTenant req cid runDagsSize

def Proxy.acceptRegister (s : Proxy) (a : RegisterArgs) : Except Errno Tenant :=
  s.arenaTenant a.req a.clientCid (regDescSize + runDagsSize)

/-- `handle_run_dags`, whole, with its reads logged. -/
def Proxy.logRunDags (s : Proxy) (req : Rpc) (cid : UInt32) : Reader Errno RunDagsMfd := do
  let tenant ← lift (s.acceptRun req cid)
  s.readRunDags tenant cid

/-- `handle_register_dag`, whole, with its reads logged. -/
def Proxy.logRegisterDag (s : Proxy) (a : RegisterArgs) : Reader Errno (UInt32 × Proxy) := do
  let _ ← lift (s.acceptRegister a)
  s.readRegisterDag a

-- ---- they are the handlers

theorem readPokeList_value : (s.readPokeList cid o).value m
    = s.validateExtra (decodeDag m o).extraPokeListDaddr
      (pokeListSize (decodeDag m o).extraPokeListCnt) cid := by
  unfold Proxy.readPokeList Proxy.validateExtra
  change Reader.value (if _ then _ else _) m = _
  split
  case isTrue h => exact (if_pos h).symm
  case isFalse h => exact (if_neg h).symm

theorem readDag_value : (s.readDag cid o).value m = s.validateDag cid (decodeDag m o) := by
  unfold Proxy.readDag Proxy.validateDag Proxy.readExtra
  simp only [value_bind, value_get32, value_get64, value_lift,
    value_forEach, readPokeList_value, Proxy.readPort]
  rfl

theorem regReadDag_value {reg : RegDesc} :
    (reg.readDag o).value m = reg.checkDag (decodeDag m o) := by
  unfold RegDesc.readDag RegDesc.checkDag
  simp only [value_bind, value_get32, value_get64, value_lift]
  rfl

/-- The logged program is `handle_run_dags`. -/
theorem handleRunDags_eq (s : Proxy) (req : Rpc) (cid : UInt32)
    (shm heap : Mem) : s.handleRunDags req cid shm heap
      = (s.logRunDags req cid).value (hostArenaCopy req shm heap) := by
  unfold Proxy.handleRunDags Proxy.logRunDags Proxy.readRunDags
  simp only [value_bind, value_get32, value_lift, value_forEach,
    value_fetch, value_pure, readDag_value, Proxy.acceptRun,
    Proxy.arenaTenant, bind_assoc, pure_bind]
  rfl

/-- The logged program is `handle_register_dag`. -/
theorem handleRegisterDag_eq (s : Proxy) (a : RegisterArgs) :
    s.handleRegisterDag a = (s.logRegisterDag a).value a.copy := by
  unfold Proxy.handleRegisterDag Proxy.logRegisterDag Proxy.readRegisterDag Proxy.readEntry
  simp only [value_bind, value_get32, value_lift, value_forEach,
    value_fetch, regReadDag_value, Proxy.acceptRegister, Proxy.arenaTenant,
    bind_assoc, pure_bind]
  rfl

-- ==== how far they read

/-- How far into a descriptor the port loop reads: to the end of the
last port it looks at. -/
def Proxy.portsExtent (s : Proxy) (cid : UInt32) (dag : DagDesc) : Nat :=
  592 + 16 + 24 * lastRound dag.portCnt.toNat fun p =>
    (s.validateRange (dag.portDesc p).portDramAddr (dag.portDesc p).portDramSize cid).toBool

/-- How far into a descriptor the validation reads, by the check that
stops it. -/
def Proxy.dagExtent (s : Proxy) (cid : UInt32) (dag : DagDesc) : Nat :=
  if dag.portCnt > CAVALRY_MAX_PORTS then 48
  else if (s.validateRange dag.dviDramAddr dag.dviImgSize.toUInt64 cid).toBool = false then 48
  else if (s.validateExtra dag.extraPokeListDaddr
      (pokeListSize dag.extraPokeListCnt) cid).toBool = false then 64
  else if (s.validateExtra dag.extraDagDescCommonDaddr extraCommonSize cid).toBool = false then 72
  else if (s.validateExtra dag.extraDagDescListDaddr extraListSize cid).toBool = false then 80
  else if dag.portCnt = 0 then 80
  else s.portsExtent cid dag

/-- The bytes of arena `handle_run_dags` reads from. -/
def Proxy.runNeeds (s : Proxy) (cid : UInt32) (run : RunDags) : Nat :=
  if run.dagCnt = 0 ∨ run.dagCnt > MAX_DAG_CNT_CAP then 28
  else
    let d := lastRound run.dagCnt.toNat fun d =>
      (s.validateDag cid (run.dagDesc d)).toBool
    if (s.validateDag cid (run.dagDesc d)).toBool then
      136 + dagDescSize * run.dagCnt.toNat
    else 136 + dagDescSize * d + s.dagExtent cid (run.dagDesc d)

/-- The registry slot and host memory a registration takes. -/
def Proxy.registerSlot (s : Proxy) (a : RegisterArgs) : Except Errno (Fin 128 × UInt64) := do
  let slot ← require (Fin.find? fun i => !(s.dags i).inUse) .ENOMEM
  let hostPhys ← s.hostPhys slot a.host
  return (slot, hostPhys)

/-- The bytes of arena `handle_register_dag` reads from. A registration
that is refused for want of host memory has read as far as the checks
of its last DAG. -/
def Proxy.registerNeeds (s : Proxy) (a : RegisterArgs) : Nat :=
  if (s.validateRange a.reg.stagingBarOffset.toUInt64
      a.reg.stagingSize.toUInt64 a.clientCid).toBool = false then 8
  else if a.run.dagCnt = 0 ∨ a.run.dagCnt > MAX_DAG_CNT_CAP then 88
  else
    let d := lastRound a.run.dagCnt.toNat fun d =>
      (a.reg.checkDag (a.run.dagDesc d)).toBool
    if (a.reg.checkDag (a.run.dagDesc d)).toBool ∧ (s.registerSlot a).toBool then
      196 + dagDescSize * a.run.dagCnt.toNat
    else 196 + dagDescSize * d + 48

-- ---- one descriptor

theorem readPort_reach (p : Nat) : (s.readPort cid o p).reach m = o + 24 * p + 16 := by
  unfold Proxy.readPort
  rw [reach_get64_bind, reach_get64_bind, reach_lift]
  omega

theorem readPort_value (p : Nat) : (s.readPort cid (o + 592) p).value m
      = s.validateRange ((decodeDag m o).portDesc p).portDramAddr
        ((decodeDag m o).portDesc p).portDramSize cid := rfl

theorem readPorts_reach (hn : (decodeDag m o).portCnt ≠ 0) :
    (forEach (List.range (decodeDag m o).portCnt.toNat) (s.readPort cid (o + 592))).reach m
      = o + s.portsExtent cid (decodeDag m o) := by
  have hpos : 0 < (decodeDag m o).portCnt.toNat := by
    rw [Nat.pos_iff_ne_zero]
    intro h0
    exact hn (UInt32.toNat_inj.mp h0)
  rw [reach_forEach_last _ hpos]
  · unfold Proxy.portsExtent
    simp only [readPort_reach, readPort_value]
    omega
  · intro i j hij
    rw [readPort_reach, readPort_reach]
    omega

theorem readPokeList_reach : (s.readPokeList cid o).reach m = o + 64 := by
  unfold Proxy.readPokeList
  rw [reach_get64_bind]
  split
  · rw [reach_get32_bind, reach_lift]
    omega
  · rw [reach_pure]
    omega

theorem readExtra_reach {size : UInt64} : (s.readExtra cid o size).reach m = o + 8 := by
  unfold Proxy.readExtra
  rw [reach_get64_bind, reach_lift]
  omega

theorem readExtra_value {size : UInt64} : (s.readExtra cid o size).value m
    = s.validateExtra (read64 m o) size cid := rfl

theorem readDag_reach : (s.readDag cid o).reach m = o + s.dagExtent cid (decodeDag m o) := by
  unfold Proxy.readDag Proxy.dagExtent
  have hport : read32 m (o + 44) = (decodeDag m o).portCnt := rfl
  rw [reach_get32_bind, hport]
  by_cases hcnt : (decodeDag m o).portCnt > CAVALRY_MAX_PORTS
  · rw [if_pos hcnt, reach_lift_bind_error (refuseIf_pos hcnt _)]
    omega
  rw [if_neg hcnt, reach_lift_bind (refuseIf_neg hcnt _), reach_get64_bind, reach_get32_bind]
  -- each check from here on either passes or is the last thing read
  have hdvi : s.validateRange (read64 m (o + 16)) (read32 m (o + 28)).toUInt64 cid = s.validateRange
        (decodeDag m o).dviDramAddr (decodeDag m o).dviImgSize.toUInt64 cid :=
    rfl
  rw [← hdvi]
  cases h₁ : s.validateRange (read64 m (o + 16)) (read32 m (o + 28)).toUInt64 cid with
  | error e =>
    rw [reach_lift_bind_error rfl, toBool_error, if_pos rfl]
    omega
  | ok u₁ =>
  rw [reach_lift_bind rfl, toBool_ok, if_neg (by decide)]
  cases h₂ : s.validateExtra (decodeDag m o).extraPokeListDaddr
      (pokeListSize (decodeDag m o).extraPokeListCnt) cid with
  | error e =>
    rw [reach_bind_error (readPokeList_value.trans h₂), readPokeList_reach,
      toBool_error, if_pos rfl]
    omega
  | ok u₂ =>
  rw [reach_bind_ok (readPokeList_value.trans h₂), readPokeList_reach,
    toBool_ok, if_neg (by decide)]
  cases h₃ : s.validateExtra (decodeDag m o).extraDagDescCommonDaddr
      extraCommonSize cid with
  | error e =>
    rw [reach_bind_error (readExtra_value.trans h₃), readExtra_reach, toBool_error, if_pos rfl]
    omega
  | ok u₃ =>
  rw [reach_bind_ok (readExtra_value.trans h₃), readExtra_reach, toBool_ok, if_neg (by decide)]
  cases h₄ : s.validateExtra (decodeDag m o).extraDagDescListDaddr
      extraListSize cid with
  | error e =>
    rw [reach_bind_error (readExtra_value.trans h₄), readExtra_reach, toBool_error, if_pos rfl]
    omega
  | ok u₄ =>
  rw [reach_bind_ok (readExtra_value.trans h₄), readExtra_reach, toBool_ok, if_neg (by decide)]
  by_cases h0 : (decodeDag m o).portCnt = 0
  · rw [if_pos h0, h0]
    change max _ (max _ (max _ (max _ (max _ (max _ 0))))) = _
    omega
  · rw [if_neg h0, readPorts_reach h0]
    unfold Proxy.portsExtent
    omega

theorem dagExtent_bounds (dag : DagDesc) :
    48 ≤ s.dagExtent cid dag ∧ s.dagExtent cid dag ≤ dagDescSize := by
  have hsize : dagDescSize = 8784 := rfl
  have hmax : CAVALRY_MAX_PORTS.toNat = 32 := rfl
  unfold Proxy.dagExtent
  by_cases hcnt : dag.portCnt > CAVALRY_MAX_PORTS
  · rw [if_pos hcnt]
    omega
  repeat' split
  all_goals try omega
  case isFalse h0 =>
    have hpos : 0 < dag.portCnt.toNat := by
      rw [Nat.pos_iff_ne_zero]
      intro hz
      exact h0 (UInt32.toNat_inj.mp hz)
    have hle : dag.portCnt.toNat ≤ 32 := by
      rw [gt_iff_lt, UInt32.lt_iff_toNat_lt, hmax] at hcnt
      omega
    have hlast := (lastRound_spec (fun p =>
      (s.validateRange (dag.portDesc p).portDramAddr
        (dag.portDesc p).portDramSize cid).toBool) hpos).1
    unfold Proxy.portsExtent
    omega

theorem regReadDag_reach {reg : RegDesc} : (reg.readDag o).reach m = o + 48 := by
  unfold RegDesc.readDag
  rw [reach_get32_bind]
  by_cases hcnt : read32 m (o + 44) > CAVALRY_MAX_PORTS
  · rw [reach_lift_bind_error (refuseIf_pos hcnt _)]
    omega
  · rw [reach_lift_bind (refuseIf_neg hcnt _), reach_get64_bind, reach_get32_bind, reach_lift]
    omega

-- ---- the request

theorem dagFields_end : spansEnd (dagFields o) = o + dagDescSize := by
  rw [spansEnd_eq (r := ⟨o + 6736, 2048⟩)]
  · rfl
  · simp [dagFields]
  · unfold dagFields
    simp only [List.forall_mem_cons, List.not_mem_nil, false_imp_iff, implies_true, and_true]
    omega

theorem flatMap_dagFields_end (n : Nat) : spansEnd ((List.range (n + 1)).flatMap fun d =>
      dagFields (o + dagDescSize * d)) = o + dagDescSize * (n + 1) := by
  have hsize : dagDescSize = 8784 := rfl
  induction n with
  | zero =>
    rw [List.range_one, List.flatMap_singleton, dagFields_end]
    omega
  | succ n ih =>
    rw [List.range_succ, List.flatMap_append, spansEnd_append, ih,
      List.flatMap_singleton, dagFields_end, hsize]
    omega

theorem requestFields_end {cnt : Nat} (hcnt : 0 < cnt) :
    spansEnd (requestFields o cnt) = o + 136 + dagDescSize * cnt := by
  obtain ⟨n, rfl⟩ := Nat.exists_eq_add_one.mpr hcnt
  have hhead : spansEnd (runFields o) ≤ o + 56 := by
    rw [spansEnd_le_iff]
    unfold runFields
    simp only [List.forall_mem_cons, List.not_mem_nil, false_imp_iff, implies_true, and_true]
    omega
  unfold requestFields
  rw [spansEnd_append, flatMap_dagFields_end]
  omega

theorem count_pos {cnt : UInt32} (h : ¬ (cnt = 0 ∨ cnt > MAX_DAG_CNT_CAP)) : 0 < cnt.toNat := by
  rw [Nat.pos_iff_ne_zero]
  intro h0
  exact h (.inl (UInt32.toNat_inj.mp h0))

/-- A loop over the descriptors at `b` and what follows it: the
descriptors stand one behind the other, so the loop reaches into the
last one it looks at, and what follows runs only if all have passed. -/
theorem descriptors_reach {α : Type} {f : Nat → Reader Errno Unit} {w : Nat → Nat} {b n : Nat}
    (hf : ∀ d, (f d).reach m = b + dagDescSize * d + w d)
    (hext : ∀ d, w d ≤ dagDescSize) (hn : 0 < n) (k : Reader Errno α) :
    let last := lastRound n fun d => ((f d).value m).toBool
    last < n ∧ (forEach (List.range n) f >>= fun _ => k).reach m = if ((f last).value m).toBool then
          max (b + dagDescSize * last + w last) (k.reach m)
        else b + dagDescSize * last + w last := by
  intro last
  have hsize : dagDescSize = 8784 := rfl
  have hmono : ∀ i j, i ≤ j → (f i).reach m ≤ (f j).reach m := by
    intro i j hij
    rw [hf, hf]
    rcases Nat.eq_or_lt_of_le hij with rfl | hlt
    · exact le_rfl
    · have := hext i
      rw [hsize] at this ⊢
      omega
  have hreach : (forEach (List.range n) f).reach m = b + dagDescSize * last + w last := by
    rw [reach_forEach_last hmono hn, hf]
  refine ⟨(lastRound_spec _ hn).1, ?_⟩
  rw [← checkAll_range_toBool (fun d => (f d).value m) hn, ← value_forEach]
  cases hval : (forEach (List.range n) f).value m with
  | error e =>
    rw [reach_bind_error hval, hreach, toBool_error, if_neg (by decide)]
  | ok u => rw [reach_bind_ok hval, hreach, toBool_ok, if_pos rfl]

theorem readRunDags_reach (s : Proxy) (t : Tenant) (cid : UInt32) (m : Mem) :
    (s.readRunDags t cid).reach m = s.runNeeds cid (decodeRunDags m 0) := by
  have hsize : dagDescSize = 8784 := rfl
  unfold Proxy.readRunDags Proxy.runNeeds
  have hread : read32 m 24 = (decodeRunDags m 0).dagCnt := rfl
  rw [reach_get32_bind, hread]
  by_cases hcnt : (decodeRunDags m 0).dagCnt = 0 ∨ (decodeRunDags m 0).dagCnt > MAX_DAG_CNT_CAP
  · rw [if_pos hcnt, reach_lift_bind_error (refuseIf_pos hcnt _)]
    omega
  rw [if_neg hcnt, reach_lift_bind (refuseIf_neg hcnt _)]
  have hround : ∀ d, (s.readDag cid (136 + dagDescSize * d)).value m
      = s.validateDag cid ((decodeRunDags m 0).dagDesc d) := by
    intro d
    rw [readDag_value]
    rfl
  obtain ⟨hlast, hloop⟩ := descriptors_reach (f := fun d => s.readDag cid (136 + dagDescSize * d))
    (fun d => readDag_reach) (fun d => (dagExtent_bounds _).2) (count_pos hcnt)
    (fetch (requestFields 0 (decodeRunDags m 0).dagCnt.toNat)
      (fun m => decodeRunDags m 0) >>= fun run => pure (rebuildRun t run))
  rw [hloop, reach_bind_ok (value_fetch _ _), reach_fetch,
    requestFields_end (count_pos hcnt), reach_pure]
  simp only [hround] at hlast ⊢
  have hext (dag : DagDesc) : s.dagExtent cid dag ≤ dagDescSize :=
    (dagExtent_bounds dag).2
  have hdag : ∀ d, decodeDag m (136 + dagDescSize * d)
      = (decodeRunDags m 0).dagDesc d := fun _ => rfl
  rw [hdag]
  generalize (lastRound (decodeRunDags m 0).dagCnt.toNat fun d =>
    (s.validateDag cid ((decodeRunDags m 0).dagDesc d)).toBool) = last at *
  have hlen := hext ((decodeRunDags m 0).dagDesc last)
  split
  · rw [hsize] at hlen ⊢
    omega
  · omega

/-- A registration copies the request out only once it has a slot and
host memory. -/
theorem readEntry_reach (s : Proxy) (a : RegisterArgs) {cnt : Nat}
    (hcnt : 0 < cnt) : (s.readEntry a cnt).reach m
      = if (s.registerSlot a).toBool then 196 + dagDescSize * cnt else 0 := by
  unfold Proxy.readEntry Proxy.registerSlot
  cases require (Fin.find? fun i => !(s.dags i).inUse) Errno.ENOMEM with
  | error e =>
    rfl
  | ok slot =>
    rw [reach_lift_bind rfl]
    change _ = if (s.hostPhys slot a.host >>= fun phys =>
      Except.ok (slot, phys)).toBool then _ else _
    cases s.hostPhys slot a.host with
    | error e =>
      rfl
    | ok hostPhys =>
      rw [reach_lift_bind rfl, reach_fetch, requestFields_end hcnt]
      rfl

theorem readRegisterDag_reach (s : Proxy) (a : RegisterArgs) :
    (s.readRegisterDag a).reach a.copy = s.registerNeeds a := by
  have hsize : dagDescSize = 8784 := rfl
  unfold Proxy.readRegisterDag Proxy.registerNeeds
  have hread : read32 a.copy (60 + 24) = a.run.dagCnt := rfl
  have hrange : s.validateRange (read32 a.copy 0).toUInt64
      (read32 a.copy 4).toUInt64 a.clientCid = s.validateRange
        a.reg.stagingBarOffset.toUInt64 a.reg.stagingSize.toUInt64
        a.clientCid := rfl
  rw [reach_get32_bind, reach_get32_bind, hrange]
  cases s.validateRange a.reg.stagingBarOffset.toUInt64 a.reg.stagingSize.toUInt64 a.clientCid with
  | error e =>
    rw [reach_lift_bind_error rfl, toBool_error, if_pos rfl]
    omega
  | ok u =>
  rw [reach_lift_bind rfl, toBool_ok, if_neg (by decide), reach_get32_bind, hread]
  by_cases hcnt : a.run.dagCnt = 0 ∨ a.run.dagCnt > MAX_DAG_CNT_CAP
  · rw [if_pos hcnt, reach_lift_bind_error (refuseIf_pos hcnt _)]
    omega
  rw [if_neg hcnt, reach_lift_bind (refuseIf_neg hcnt _)]
  have hround : ∀ d, (a.reg.readDag (196 + dagDescSize * d)).value a.copy
      = a.reg.checkDag (a.run.dagDesc d) := by
    intro d
    rw [regReadDag_value]
    rfl
  obtain ⟨hlast, hloop⟩ := descriptors_reach
    (f := fun d => a.reg.readDag (196 + dagDescSize * d)) (w := fun _ => 48)
    (m := a.copy) (fun d => regReadDag_reach) (fun d => by omega)
    (count_pos hcnt) (s.readEntry a a.run.dagCnt.toNat)
  have hreg : RegDesc.mk (read32 a.copy 0) (read32 a.copy 4) = a.reg := rfl
  rw [hreg, hloop, readEntry_reach s a (count_pos hcnt)]
  simp only [hround] at hlast ⊢
  by_cases hpass : (a.reg.checkDag (a.run.dagDesc (lastRound a.run.dagCnt.toNat fun d =>
        (a.reg.checkDag (a.run.dagDesc d)).toBool))).toBool = true
  · by_cases hslot : (s.registerSlot a).toBool = true
    · rw [if_pos hpass, if_pos hslot, if_pos ⟨hpass, hslot⟩, hsize]
      omega
    · rw [if_pos hpass, if_neg hslot, if_neg fun h => hslot h.2]
      omega
  · rw [if_neg hpass, if_neg fun h => hpass h.1]
    omega

-- ==== the whole

/-- A program behind checks that read nothing stays below `n` exactly if
it does whenever the checks pass. -/
theorem lift_reads_iff {α β : Type} {x : Except Errno α} {f : α → Reader Errno β} {n needs : Nat}
    (hf : ∀ a, (f a).reach m = needs) :
    (∀ r ∈ (lift x >>= f).reads m, r.lo + r.len ≤ n) ↔ (x.toBool = true → needs ≤ n) := by
  rw [← reach_le_iff]
  cases x with
  | error e =>
    rw [reach_lift_bind_error rfl, toBool_error]
    simp
  | ok a =>
    rw [reach_lift_bind rfl, hf, toBool_ok]
    simp

/-- Every byte the two handlers read of their copy lies inside the
`arena_len` bytes that were copied exactly if an accepted request has as
many bytes as the handler needs: the header and all of `dag_cnt`
descriptors if every check passes, and otherwise up to the field whose
check fails. -/
theorem descriptor_reads_iff (s : Proxy) (req : Rpc) (cid : UInt32)
    (shm heap : Mem) (a : RegisterArgs) :
    ((∀ r ∈ (s.logRunDags req cid).reads (hostArenaCopy req shm heap),
        r.lo + r.len ≤ req.arenaLen.toNat) ↔
      ((s.acceptRun req cid).toBool = true →
        s.runNeeds cid (decodeRunDags (hostArenaCopy req shm heap) 0) ≤ req.arenaLen.toNat)) ∧
    ((∀ r ∈ (s.logRegisterDag a).reads a.copy, r.lo + r.len ≤ a.req.arenaLen.toNat) ↔
      ((s.acceptRegister a).toBool = true → s.registerNeeds a ≤ a.req.arenaLen.toNat)) := by
  refine ⟨?_, ?_⟩
  · apply lift_reads_iff
    intro t
    exact readRunDags_reach s t cid _
  · apply lift_reads_iff
    intro _
    exact readRegisterDag_reach s a

/-- A registration of one DAG in an arena of exactly the checked
length. -/
def shortRegister : RegisterArgs where
  req := { sampleRun with arenaLen := 196 }
  clientCid := 7
  arenaShm :=
    let arena := CAVALRY_RPC_ARENA_OFFSET.toNat
    write32 (write32 (write32 (fun _ => 0) (arena + 84) 1) (arena + 4) 4096) arena 0x02000000
  stagingShm := fun _ => 0

/-- Both handlers accept a request that ends where its descriptors
begin, and read the first descriptor behind its end. -/
theorem descriptors_over_read :
    let req := { sampleRun with arenaLen := 136 }
    let copy := hostArenaCopy req sampleRunShm fun _ => 0
    ((sampleProxy.acceptRun req 7).toBool = true ∧ ∃ r ∈ (sampleProxy.logRunDags req 7).reads copy,
        r = ⟨180, 4⟩ ∧ ¬ r.lo + r.len ≤ req.arenaLen.toNat) ∧
    (sampleProxy.acceptRegister shortRegister).toBool = true ∧
      ∃ r ∈ (sampleProxy.logRegisterDag shortRegister).reads shortRegister.copy,
        r = ⟨240, 4⟩ ∧ ¬ r.lo + r.len ≤ shortRegister.req.arenaLen.toNat := by
  decide +kernel

end AmbaVirt.Cavalry
