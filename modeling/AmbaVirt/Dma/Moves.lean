/-
What one step of the DMA monitor can do, and where the transfers it
programs lie.

`Moves` lists the ways a step can change the monitor, with the guards
that let it and the effects it has; `exec_moves` says that there are no
others. Every invariant of the monitor is proved over that list and not
over the entry points.

A transfer is confined to its slice by arithmetic alone
(`bufferOf_confined`). That the slice is mapped is not: a slice that
`dma_map_resource` could not map has bus address 0, and nothing on the
way to the engine looks at it again.
-/
import AmbaVirt.Dma.Monitor

namespace AmbaVirt.Dma

open Lib Lib.System Function

variable {s s' : Monitor} {l : Fin 4}

-- ==== the list of moves

inductive Moves (s : Monitor) : Event → List Effect → Monitor → Prop
  | refused (e : Event) : Moves s e [] s
  | begin_ {id cid gen : UInt32} {uuid : List UInt8} {ep : Option Endpoint} : s.alloc = none →
      Moves s (.allocBegin id cid gen uuid) [] { s with alloc := some ⟨⟨ep, cid, gen, uuid⟩,
          AllocReq.first ⟨ep, cid, gen, uuid⟩⟩ }
  | go {capability : UInt64} {key : List UInt8} {th : AllocThread} {next : AllocPhase} :
      s.alloc = some th → s.visit th.req th.phase = .go next →
      Moves s (.allocStep capability key) [] { s with alloc := some { th with phase := next } }
  | done {capability : UInt64} {key : List UInt8} {th : AllocThread} {r : Except Errno AllocReply} :
      s.alloc = some th → s.visit th.req th.phase = .done r →
      Moves s (.allocStep capability key) [] { s with alloc := none }
  | grant {capability : UInt64} {key : List UInt8} {th : AllocThread} {l : Fin 4} :
      s.alloc = some th → s.visit th.req th.phase = .grant l →
      Moves s (.allocStep capability key) [.granted l capability ((s.leases l).epoch + 1)]
        (s.grant l th.req capability key)
  | activate {id : UInt32} {req : Request} {env : Monitor.DmaEnv} {l : Fin 4} :
      (s.leases l).Open → Moves s (.dispatch id req env) [] (s.modify l Lease.activated)
  | take {id : UInt32} {req : Request} {env : Monitor.DmaEnv} {l : Fin 4}
      {ep : Endpoint} {buf : UInt64} :
      (s.leases l).Open →
      (s.modify l Lease.activated).checkRequest l req = .ok (ep, buf) →
      Moves s (.dispatch id req env) [] ((s.modify l Lease.activated).give l (some ep))
  | submit {id : UInt32} {req : Request} {env : Monitor.DmaEnv} {l : Fin 4}
      {ep : Endpoint} {buf : UInt64} {dir : Dir} :
      (s.leases l).Open →
      (s.modify l Lease.activated).checkRequest l req = .ok (ep, buf) →
      Moves s (.dispatch id req env) [.programmed ⟨l, ep, dir, buf, req.length, req.cookie⟩]
        (((s.modify l Lease.activated).give l (some ep)).submit l req
          ⟨l, ep, dir, buf, req.length, req.cookie⟩)
  | finish {ep : Endpoint} {dir : Dir} {t : Transfer} : s.first? ep dir = some t →
      Moves s (.finished ep dir) [.stopped t]
        (({ s with engine := s.engine.erase t }).modify t.lease Lease.completed)
  | timeOut {l : Fin 4} : Moves s (.watchdogFired l)
        (s.terminated l (s.leases l).activeOperation.toList)
        ((s.terminate l (s.leases l).activeOperation.toList).modify l Lease.timedOut)
  | respond {w : Waiter} : w ∈ s.waiting → 0 < (s.leases w.lease).xferDone → Moves s (.woken w) []
        (({ s with waiting := s.waiting.erase w }).modify w.lease fun e => e.responded w.req.cookie)
  | drain {id : UInt32} {epoch : UInt64} {force : Bool} {l : Fin 4} :
      (s.leases l).Open → (s.leases l).inFlight = false →
      Moves s (.drain id epoch force) [] (s.modify l Lease.drained)
  | forceDrain {id : UInt32} {epoch : UInt64} {force : Bool} {l : Fin 4} :
      (s.leases l).Open → (s.leases l).inFlight = true →
      Moves s (.drain id epoch force) (s.terminated l [.memToDev, .devToMem])
        ((s.terminate l [.memToDev, .devToMem]).modify l Lease.forceDrained)
  | sleep {id : UInt32} {epoch : UInt64} {force : Bool} {l : Fin 4} : (s.leases l).Open →
      Moves s (.drain id epoch force) []
        (({ s with drains := l :: s.drains }).modify l Lease.drained)
  | drainWoken {l : Fin 4} : Moves s (.drainWoken l) []
        (({ s with drains := s.drains.erase l }).modify l Lease.waited)
  | drainTimedOut {l : Fin 4} : Moves s (.drainTimedOut l) [] { s with drains := s.drains.erase l }
  | release {id : UInt32} {epoch : UInt64} {remapped : Bool} {l : Fin 4} :
      Monitor.lookup id = some l → ¬ s.Stale l epoch →
      Moves s (.release id epoch remapped) [.cleared l] ((s.disown l).modify l Lease.released)
  | quarantine {id : UInt32} {epoch : UInt64} {remapped : Bool} {l : Fin 4} :
      Monitor.lookup id = some l → ¬ s.Stale l epoch →
      Moves s (.release id epoch remapped) [] ((s.disown l).modify l Lease.quarantined)
  | pardon {id : UInt32} {remapped : Bool} {l : Fin 4} :
      Monitor.lookup id = some l → (s.leases l).state = .quarantined →
      Moves s (.quarantineRelease id remapped) (if remapped then [.cleared l] else [])
        ((s.disown l).modify l Lease.pardoned)

-- ==== the entry points, move by move

theorem allocStep_moves {th : AllocThread} {capability : UInt64}
    {key : List UInt8} (hth : s.alloc = some th) :
    Moves s (.allocStep capability key) (s.allocStep th capability key).effects
      (s.allocStep th capability key).monitor := by
  unfold Monitor.allocStep
  split
  case h_1 next hv => exact .go hth hv
  case h_2 l hv => exact .grant hth hv
  case h_3 r hv => exact .done hth hv

theorem dispatchRequest_moves (id : UInt32) (req : Request) (env : Monitor.DmaEnv) :
    Moves s (.dispatch id req env) (s.dispatchRequest l req env).effects
      (s.dispatchRequest l req env).monitor := by
  unfold Monitor.dispatchRequest
  split
  case isTrue => exact .refused _
  case isFalse hopen =>
  have hopen := not_not.mp hopen
  dsimp only
  split
  case h_1 => exact .activate hopen
  case h_2 ep buf hcheck =>
  split
  case h_4 dir _ _ => exact .submit hopen hcheck
  all_goals exact .take hopen hcheck

theorem drainLease_moves (id : UInt32) (epoch : UInt64) (force : Bool) :
    Moves s (.drain id epoch force) (s.drainLease l epoch force).effects
      (s.drainLease l epoch force).monitor := by
  unfold Monitor.drainLease
  split
  case isTrue => exact .refused _
  case isFalse =>
  split
  case isTrue => exact .refused _
  case isFalse hopen =>
  have hopen := not_not.mp hopen
  split
  case isTrue hidle => exact .drain hopen hidle
  case isFalse hbusy =>
  split
  case isTrue =>
    exact .forceDrain hopen (Bool.eq_true_of_not_eq_false hbusy)
  case isFalse => exact .sleep hopen

theorem releaseLease_moves {id : UInt32} (hl : Monitor.lookup id = some l)
    (epoch : UInt64) (remapped : Bool) :
    Moves s (.release id epoch remapped) (s.releaseLease l epoch remapped).effects
      (s.releaseLease l epoch remapped).monitor := by
  unfold Monitor.releaseLease
  split
  case isTrue => exact .refused _
  case isFalse hfresh =>
  split
  case isTrue => exact .release hl hfresh
  case isFalse => exact .quarantine hl hfresh

theorem quarantineRelease_moves {id : UInt32} (hl : Monitor.lookup id = some l) (remapped : Bool) :
    Moves s (.quarantineRelease id remapped) (s.quarantineRelease l remapped).effects
      (s.quarantineRelease l remapped).monitor := by
  unfold Monitor.quarantineRelease
  split
  case isTrue => exact .refused _
  case isFalse hq => exact .pardon hl (not_not.mp hq)

variable {h : Host} {e : Event}

/-- Every step is one of the moves, and what it does goes to the log. -/
theorem exec_moves {h' : Host} (hstep : h.exec e = some h') :
    ∃ new, Moves h.monitor e new h'.monitor ∧ h'.log = new.reverse ++ h.log := by
  have hon : ∀ {α : Type} {id : UInt32} {f : Fin 4 → Outcome α}, some (h.onLease id f) = some h' →
      (∀ l, Monitor.lookup id = some l → Moves h.monitor e (f l).effects (f l).monitor) →
      ∃ new, Moves h.monitor e new h'.monitor ∧ h'.log = new.reverse ++ h.log := by
    intro α id f heq hf
    obtain rfl := Option.some.inj heq
    unfold Host.onLease
    split
    case h_1 => exact ⟨[], .refused e, rfl⟩
    case h_2 l hl => exact ⟨_, hf l hl, rfl⟩
  cases e with
  | allocBegin id cid gen uuid =>
    dsimp only [Host.exec] at hstep
    split at hstep
    case h_1 => cases hstep
    case h_2 =>
      cases hstep
      exact ⟨[], .refused _, rfl⟩
    case h_3 ep halloc _ =>
      cases hstep
      exact ⟨[], .begin_ halloc, rfl⟩
  | allocStep capability key =>
    obtain ⟨th, hth, rfl⟩ := Option.map_eq_some_iff.mp hstep
    exact ⟨_, allocStep_moves hth, rfl⟩
  | dispatch id req env =>
    exact hon hstep fun l _ => dispatchRequest_moves id req env
  | finished ep dir =>
    obtain ⟨t, ht, rfl⟩ := Option.map_eq_some_iff.mp hstep
    exact ⟨_, .finish ht, rfl⟩
  | watchdogFired l =>
    obtain ⟨-, heq⟩ := Option.ite_none_right_eq_some.mp hstep
    cases heq
    exact ⟨_, .timeOut, rfl⟩
  | woken w =>
    obtain ⟨hw, heq⟩ := Option.ite_none_right_eq_some.mp hstep
    cases heq
    exact ⟨_, .respond hw.1 hw.2, rfl⟩
  | drain id epoch force =>
    exact hon hstep fun l _ => drainLease_moves id epoch force
  | drainWoken l =>
    obtain ⟨-, heq⟩ := Option.ite_none_right_eq_some.mp hstep
    cases heq
    exact ⟨_, .drainWoken, rfl⟩
  | drainTimedOut l =>
    obtain ⟨-, heq⟩ := Option.ite_none_right_eq_some.mp hstep
    cases heq
    exact ⟨_, .drainTimedOut, rfl⟩
  | release id epoch remapped =>
    exact hon hstep fun l hl => releaseLease_moves hl epoch remapped
  | quarantineRelease id remapped =>
    exact hon hstep fun l hl => quarantineRelease_moves hl remapped

theorem submit_leases (ep : Option Endpoint) (req : Request) (t : Transfer) :
    (((s.modify l Lease.activated).give l ep).submit l req t).leases
      = (s.modify l fun e => (e.activated).submitted t).leases := by
  show update (update s.leases l _) l
    (Lease.submitted t (update s.leases l _ l)) = _
  rw [update_idem, update_self]
  rfl

-- ==== what no step changes

def Lease.SameSlice (e e' : Lease) : Prop :=
  e'.sliceDma = e.sliceDma ∧ e'.mapped = e.mapped

theorem Lease.SameSlice.refl (e : Lease) : e.SameSlice e := ⟨rfl, rfl⟩

variable {new : List Effect}

theorem Moves.sameSlice (h : Moves s e new s') (j : Fin 4) :
    (s.leases j).SameSlice (s'.leases j) := by
  cases h with
  | refused | begin_ | go | done | drainTimedOut => exact .refl _
  | submit =>
    rw [submit_leases]
    exact s.modify_rel _ Lease.SameSlice.refl ⟨rfl, rfl⟩ j
  | _ =>
    refine Monitor.modify_rel _ _ Lease.SameSlice.refl ?_ j
    exact ⟨rfl, rfl⟩

theorem Moves.chans (h : Moves s e new s') : s'.chans = s.chans := by
  cases h <;> rfl

/-- The slices and the channels are what `amba_virt_dma_init` found. -/
structure Fixed (c : Config) (s : Monitor) : Prop where
  slice : ∀ l, (c.lease l).SameSlice (s.leases l)
  chans : s.chans = c.chans

variable {c : Config}

theorem reachable_fixed (hr : (system c).Reachable h) : Fixed c h.monitor := by
  refine hr.induct (I := fun h => Fixed c h.monitor) ?_ ?_
  · rintro _ rfl
    exact ⟨fun _ => .refl _, rfl⟩
  intro h e h' _ hI hstep
  obtain ⟨new, hmoves, -⟩ := exec_moves hstep
  refine ⟨fun l => ?_, hmoves.chans.trans hI.chans⟩
  obtain ⟨hdma, hmap⟩ := hmoves.sameSlice l
  exact ⟨hdma.trans (hI.slice l).1, hmap.trans (hI.slice l).2⟩

-- ==== the range of a transfer

/-- The transfer stays behind the bootstrap page of its slice, inside the
slice and below 4 GiB, and the slice is mapped for the device. -/
structure Confined (e : Lease) (t : Transfer) : Prop where
  lower : e.sliceDma.toNat + AMBA_DMA_BOOTSTRAP_SIZE.toNat ≤ t.addr.toNat
  upper : t.addr.toNat + t.length.toNat ≤ e.sliceDma.toNat + AMBA_VIRT_DMA32_SLICE_SIZE.toNat
  bus : t.addr.toNat + t.length.toNat ≤ 2 ^ 32
  mapped : e.mapped = true

variable {req : Request} {buf : UInt64}

/-- The range checks keep a buffer behind the bootstrap page and inside
the slice. -/
theorem bufferOf_range {e : Lease} (hbuf : Monitor.bufferOf e req = .ok buf) :
    0 < req.length.toNat ∧ AMBA_DMA_BOOTSTRAP_SIZE.toNat ≤ req.offset.toNat ∧
      req.offset.toNat + req.length.toNat ≤ AMBA_VIRT_DMA32_SLICE_SIZE.toNat := by
  simp only [Monitor.bufferOf, guards] at hbuf
  obtain ⟨hlen, hrange, -⟩ := hbuf
  push Not at hlen hrange
  obtain ⟨hpos, hmax⟩ := hlen
  obtain ⟨hlow, -, hend⟩ := hrange
  have hsize : AMBA_VIRT_DMA32_SLICE_SIZE.toNat = 0x1000000 := rfl
  have hmega : (4 * 1024 * 1024 : UInt32).toNat = 0x400000 := rfl
  have hlen64 : req.length.toUInt64.toNat = req.length.toNat :=
    UInt32.toNat_toUInt64 _
  have hpos : req.length.toNat ≠ 0 := fun h => hpos (UInt32.toNat_inj.mp h)
  have hmax : req.length.toNat ≤ (4 * 1024 * 1024 : UInt32).toNat :=
    UInt32.le_iff_toNat_le.mp (UInt32.not_lt.mp hmax)
  have hend : req.offset.toNat ≤ 0x1000000 - req.length.toNat := by
    have hle := UInt64.le_iff_toNat_le.mp (UInt64.not_lt.mp hend)
    rwa [UInt64.toNat_sub_of_le _ _ (UInt64.le_iff_toNat_le.mpr (by omega)), hlen64, hsize] at hle
  exact ⟨Nat.pos_of_ne_zero hpos, UInt64.le_iff_toNat_le.mp (UInt64.not_lt.mp hlow), by omega⟩

theorem bufferOf_confined {e : Lease}
    (hfits : e.sliceDma.toNat + AMBA_VIRT_DMA32_SLICE_SIZE.toNat ≤ 2 ^ 64)
    (hbuf : Monitor.bufferOf e req = .ok buf) :
    e.sliceDma.toNat + AMBA_DMA_BOOTSTRAP_SIZE.toNat ≤ buf.toNat ∧ buf.toNat + req.length.toNat
        ≤ e.sliceDma.toNat + AMBA_VIRT_DMA32_SLICE_SIZE.toNat ∧
      buf.toNat + req.length.toNat ≤ 2 ^ 32 := by
  obtain ⟨hpos, hlow, hend⟩ := bufferOf_range hbuf
  simp only [Monitor.bufferOf, guards, pure_ok]
    at hbuf
  obtain ⟨-, -, -, hbus, rfl⟩ := hbuf
  have hsum : (e.sliceDma + req.offset).toNat
      = e.sliceDma.toNat + req.offset.toNat := toNat_add_exact (by omega)
  have hbus : (e.sliceDma + req.offset + req.length.toUInt64 - 1).toNat
      ≤ 0xFFFFFFFF := UInt64.le_iff_toNat_le.mp (UInt64.not_lt.mp hbus)
  rw [UInt64.toNat_sub, UInt64.toNat_add, hsum, UInt32.toNat_toUInt64] at hbus
  have hone : (1 : UInt64).toNat = 1 := rfl
  omega

-- ==== what the checks establish

variable {ep : Endpoint}

theorem endpointOf_ok (h : s.endpointOf l req = .ok ep) : (s.leases l).boundEndpoint = some ep ∧
      (∀ dir, s.chans ep dir = true) ∧
      (s.owner ep = none ∨ s.owner ep = some l) := by
  simp only [Monitor.endpointOf, guards, pure_ok] at h
  obtain ⟨asked, -, bound, hbound, hasked, -, hchans, howner, rfl⟩ := h
  have hep : asked.getD bound = bound := by
    cases asked with
    | none => rfl
    | some x =>
      have hx := not_not.mp (not_and.mp hasked (Option.some_ne_none x))
      exact Option.some.inj hx
  rw [hep] at hchans howner ⊢
  push Not at hchans
  refine ⟨hbound, fun dir => ?_, ?_⟩
  · cases dir with
    | memToDev => exact Bool.eq_true_of_not_eq_false hchans.1
    | devToMem => exact Bool.eq_true_of_not_eq_false hchans.2
  · by_cases hnone : s.owner bound = none
    · exact .inl hnone
    · exact .inr (not_not.mp (not_and.mp howner hnone))

structure Admitted (s : Monitor) (l : Fin 4) (req : Request) (ep : Endpoint)
    (buf : UInt64) : Prop where
  capability : req.capability = (s.leases l).capability
  epoch : req.epoch = (s.leases l).epoch
  fresh : ¬ Monitor.cookieIsReplayed (s.leases l) req.cookie
  idle : (s.leases l).inFlight = false
  buffer : Monitor.bufferOf (s.leases l) req = .ok buf
  bound : (s.leases l).boundEndpoint = some ep
  chans : ∀ dir, s.chans ep dir = true
  owner : s.owner ep = none ∨ s.owner ep = some l

/-- The checks are made on the record after it became `ACTIVE`, which
none of them looks at. -/
theorem checkRequest_ok (h : (s.modify l Lease.activated).checkRequest l req = .ok (ep, buf)) :
    Admitted s l req ep buf := by
  simp only [Monitor.checkRequest, guards, pure_ok, Monitor.modify_self] at h
  obtain ⟨hcap, hepoch, hfresh, hidle, buf', hbuf, ep', hep, heq⟩ := h
  cases heq
  obtain ⟨hbound, hchans, howner⟩ := endpointOf_ok hep
  rw [Monitor.modify_self] at hbound
  exact ⟨not_not.mp hcap, not_not.mp hepoch, hfresh,
    Bool.eq_false_of_not_eq_true hidle, hbuf, hbound, hchans, howner⟩

variable {t : Transfer}

/-- A request that is taken was admitted on an open lease. -/
theorem dispatchRequest_ok {env : Monitor.DmaEnv}
    (h : (s.dispatchRequest l req env).result = .ok t) :
    (s.leases l).Open ∧ ∃ ep buf, Admitted s l req ep buf := by
  unfold Monitor.dispatchRequest at h
  split at h
  case isTrue => cases h
  case isFalse hopen =>
  refine ⟨not_not.mp hopen, ?_⟩
  dsimp only at h
  split at h
  case h_1 => cases h
  case h_2 ep buf hcheck => exact ⟨ep, buf, checkRequest_ok hcheck⟩

/-- Event `e` programs the transfer `t`. -/
def Host.Programs (h : Host) (e : Event) (t : Transfer) : Prop :=
  ∃ h' new, h.exec e = some h' ∧ h'.log = new ++ h.log ∧ Effect.programmed t ∈ new

/-- A transfer is programmed on an open lease, for a request that was
admitted. -/
theorem Moves.programmed (h : Moves s e new s') (ht : Effect.programmed t ∈ new) :
    (s.leases t.lease).Open ∧ ∃ req, Admitted s t.lease req t.endpoint t.addr ∧
      t.length = req.length := by
  cases h with
  | submit hopen hcheck =>
    cases List.mem_singleton.mp ht
    exact ⟨hopen, _, checkRequest_ok hcheck, rfl⟩
  | timeOut | forceDrain =>
    obtain ⟨_, -, heq⟩ := List.mem_map.mp ht
    cases heq
  | grant | finish | release => cases List.mem_singleton.mp ht
  | @pardon id remapped =>
    cases remapped with
    | true => cases List.mem_singleton.mp ht
    | false => cases ht
  | _ => cases ht

theorem Host.Programs.admitted (ht : h.Programs e t) : (h.monitor.leases t.lease).Open ∧
    ∃ req, Admitted h.monitor t.lease req t.endpoint t.addr ∧ t.length = req.length := by
  obtain ⟨h', new, hexec, hlog, hmem⟩ := ht
  obtain ⟨new', hmoves, hlog'⟩ := exec_moves hexec
  have hnew : new = new'.reverse :=
    List.append_cancel_right (hlog.symm.trans hlog')
  rw [hnew, List.mem_reverse] at hmem
  exact hmoves.programmed hmem

-- ==== confinement

theorem lease_fresh (c : Config) (l : Fin 4) :
    c.lease l = { sliceDma := (c.lease l).sliceDma
                  mapped := (c.lease l).mapped } := by
  unfold Config.lease
  split
  case h_1 => split <;> rfl
  case h_2 => rfl

theorem lease_fits (c : Config) (l : Fin 4) :
    (c.lease l).sliceDma.toNat + AMBA_VIRT_DMA32_SLICE_SIZE.toNat ≤ 2 ^ 64 := by
  have hzero : (0 : UInt64).toNat + AMBA_VIRT_DMA32_SLICE_SIZE.toNat ≤ 2 ^ 64 := by decide
  unfold Config.lease
  split
  case h_1 a _ =>
    split
    case isTrue => exact a.2
    case isFalse => exact hzero
  case h_2 => exact hzero

theorem lease_mapped_iff (hdev : c.dmaDev = true) (l : Fin 4) :
    (c.lease l).mapped = true ↔ (c.map l).isSome = true := by
  unfold Config.lease
  split
  case h_1 a ha => rw [if_pos hdev, ha, Option.isSome_some]
  case h_2 hnone =>
    rw [hnone]
    exact Iff.rfl

theorem dmaDev_of_chans (h : c.chans ep .memToDev = true) : c.dmaDev = true := by
  unfold Config.dmaDev
  cases ep with
  | uart2 => rw [h, Bool.true_or, Bool.true_or]
  | uart3 => rw [h, Bool.or_true, Bool.true_or]

/-- A programmed transfer is always confined to its slice's addresses;
the slice is mapped if and only if `amba_virt_dma_init` could map it. -/
theorem programmed_confined_iff {c : Config} {h : Host} {e : Event}
    {t : Transfer} (hr : (system c).Reachable h) (ht : h.Programs e t) :
    Confined (h.monitor.leases t.lease) t ↔ (c.map t.lease).isSome = true := by
  obtain ⟨-, req, hadm, hlen⟩ := ht.admitted
  have hfix := reachable_fixed hr
  obtain ⟨hdma, hmap⟩ := hfix.slice t.lease
  have hchans : c.chans t.endpoint .memToDev = true := by
    rw [← hfix.chans]
    exact hadm.chans .memToDev
  have hdev : c.dmaDev = true := dmaDev_of_chans hchans
  have hfits := lease_fits c t.lease
  rw [← hdma] at hfits
  obtain ⟨hlow, hup, hbus⟩ := bufferOf_confined hfits hadm.buffer
  rw [← hlen] at hup hbus
  rw [← lease_mapped_iff hdev, ← hmap]
  exact ⟨Confined.mapped, fun hm => ⟨hlow, hup, hbus, hm⟩⟩

-- ==== a sample host

/-- Both UARTs have their channels, and slice 0 is mapped at `map`. -/
def sampleConfig (map : Option BusAddr) : Config where
  chans _ _ := true
  parent := false
  map i := if i = 0 then map else none

/-- The first slice of the low memory pool, mapped one to one. -/
def sampleMap : BusAddr := ⟨0x17C00000, by decide⟩

/-- Allocate a lease for a CID and an endpoint while nothing else runs: as
many visits as it takes to reach lease 0. -/
def sampleAlloc (endpointId cid : UInt32) (capability : UInt64) : List Event :=
  .allocBegin endpointId cid 1 [] :: List.replicate 11 (.allocStep capability [])

def sampleRequest (capability epoch cookie : UInt64) : Request where
  capability := capability
  epoch := epoch
  cookie := cookie
  endpointId := 0
  operation := 1
  offset := 4096
  length := 64

/-- What that request leads to on lease 0, on a slice at `base`. -/
def sampleTransfer (base cookie : UInt64) : Transfer :=
  ⟨0, .uart2, .memToDev, base + 4096, 64, cookie⟩

theorem boot_reachable (c : Config) : (system c).Reachable { monitor := c.boot } :=
  .init rfl

/-- Whether an event programs a transfer can be computed. -/
theorem Host.Programs.of_exec
    (hp : ((h.exec e).any fun h' => decide (h'.log = .programmed t :: h.log))
      = true) : h.Programs e t := by
  obtain ⟨h', hexec, hlog⟩ := (Option.any_eq_true _ _).mp hp
  exact ⟨h', [.programmed t], hexec, of_decide_eq_true hlog, List.mem_singleton_self _⟩

/-- CID 7 gets lease 0 and sends 64 bytes. -/
theorem programmed_confined_sample : ∃ h, (system (sampleConfig (some sampleMap))).Reachable h ∧
      h.Programs (.dispatch 0 (sampleRequest 0x51 2 1) {}) (sampleTransfer 0x17C00000 1) ∧
      Confined (h.monitor.leases 0) (sampleTransfer 0x17C00000 1) := by
  obtain ⟨h, hr, hp⟩ := (boot_reachable _).exists_exec (M := system (sampleConfig (some sampleMap)))
    (fun _ _ _ => id) (l := sampleAlloc 2 7 0x51)
    (p := fun h => ((h.exec (.dispatch 0 (sampleRequest 0x51 2 1) {})).any
      fun h' => decide (h'.log = .programmed (sampleTransfer 0x17C00000 1)
        :: h.log)) = true) (by decide)
  have hprog := Host.Programs.of_exec hp
  exact ⟨h, hr, hprog, (programmed_confined_iff hr hprog).mpr rfl⟩

/-- The same request on a host that could not map the slice: the engine
is given bus addresses from 4096 on. -/
theorem programmed_unmapped : ∃ h, (system (sampleConfig none)).Reachable h ∧
      h.Programs (.dispatch 0 (sampleRequest 0x51 2 1) {}) (sampleTransfer 0 1) ∧
      ¬ Confined (h.monitor.leases 0) (sampleTransfer 0 1) := by
  obtain ⟨h, hr, hp, hmap⟩ := (boot_reachable _).exists_exec (M := system (sampleConfig none))
    (fun _ _ _ => id) (l := sampleAlloc 2 7 0x51)
    (p := fun h => ((h.exec (.dispatch 0 (sampleRequest 0x51 2 1) {})).any
      fun h' => decide (h'.log = .programmed (sampleTransfer 0 1) :: h.log))
        = true ∧ (h.monitor.leases 0).mapped = false) (by decide)
  refine ⟨h, hr, .of_exec hp, ?_⟩
  intro hconf
  rw [hconf.mapped] at hmap
  cases hmap

end AmbaVirt.Dma
