/-
The staging copies of an authenticated DMA request
(`virt_dma_handle_authenticated_request`, virt_dma_broker.c), between the
shared memory of a guest and the slice of a DMA lease.

The handler maps 16 MiB of the lease's node and 16 MiB of a shared memory
node, and copies at the request's offset in both. Which nodes these are
is decided by the session's lease alone: the shared memory node of the
same number, or the alias of slice 0. The session's CID is not looked at.

Data for a device is copied before the kernel has seen the request, with
the sum of offset and length taken in 64 bits as the only check. Data
from a device is copied after the kernel has answered, and a length that
is not 0 is one the kernel has checked (`Reply.transferred_checked`).
-/
import AmbaVirt.Server.Tcp
import AmbaVirt.Dma.Moves

namespace AmbaVirt.Server

open Lib Kernel Dma

variable {n : Nat}

-- ==== the kernel's part

/-- How `AMBA_DMA_IOC_REQUEST` ends. An answer is what the dispatcher
returns when it wakes up, in some later state, for a request that was
submitted. -/
inductive Reply (l : Fin 4) (req : Request)
  | failed (e : Errno)
  | answered (taken woken : Monitor) (env : Monitor.DmaEnv) (t : Transfer)
      (submitted : (taken.dispatchRequest l req env).result = .ok t)

/-- What the handler finds in the response. -/
def Reply.response {l : Fin 4} {req : Request} : Reply l req → Except Errno Response
  | failed e => .error e
  | answered _ woken _ _ _ => (woken.respond ⟨l, req⟩).result

def STAGING_MAP_LEN : UInt64 := 16 * 1024 * 1024

variable {req : Request} {l : Fin 4}

/-- The kernel has checked what it reports as transferred. -/
theorem Reply.transferred_checked {r : Reply l req}
    {resp : Response} (h : r.response = .ok resp) :
    resp.transferred.toNat = 0 ∨ resp.transferred = req.length ∧ 4096 ≤ req.offset.toNat ∧
        req.offset.toNat + req.length.toNat ≤ STAGING_MAP_LEN.toNat := by
  cases r with
  | failed e => cases h
  | answered taken woken env t submitted =>
    obtain ⟨-, ep, buf, hadm⟩ := dispatchRequest_ok submitted
    obtain ⟨-, hlow, hend⟩ := bufferOf_range hadm.buffer
    cases h
    split
    · exact .inr ⟨rfl, hlow, hend⟩
    · exact .inl rfl

-- ==== the handler

/-- A copy between slice `slice` of the shared memory and the slice of a
lease: data for the device goes to the lease, data from it to the shared
memory. The offset is the same in both maps. -/
structure StagingCopy (n : Nat) where
  dir : Dir
  lease : Fin 4
  slice : Fin n
  offset : UInt64
  length : UInt32
  deriving DecidableEq

/-- How the system calls of one request end. -/
structure StagingEnv where
  leaseNode : Option Errno := none
  shmNode : Bool := true
  shmAlias : Bool := true
  leaseMaps : Bool := true
  shmMaps : Bool := true
  kernel : (l : Fin 4) → (req : Request) → Reply l req :=
    fun _ _ => .failed .EPERM

/-- The slice behind `shm_fd`: the node of the lease's number, or the
alias of the first one. -/
def shmSlice (n : Nat) (leaseId : UInt32) (env : StagingEnv) : Option (Fin n) :=
  if h : leaseId.toNat < n ∧ env.shmNode then some ⟨leaseId.toNat, h.1⟩
  else if h : 0 < n ∧ env.shmAlias then some ⟨0, h.1⟩
  else none

namespace Host

variable (h : Host n)

/-- The slice that could be mapped next to the lease. The kernel refuses
to map more than the slice has. -/
def stagingSlice (leaseId : UInt32) (env : StagingEnv) : Option (Fin n) :=
  (shmSlice n leaseId env).filter fun i =>
    env.leaseMaps && env.shmMaps &&
      decide (STAGING_MAP_LEN ≤ (h.desc i).sliceSize)

/-- A `memcpy` of the handler, if its check passes. -/
def stage (leaseId : UInt32) (env : StagingEnv) (l : Fin 4) (dir : Dir)
    (req : Request) (length : UInt32) : List (StagingCopy n) :=
  match h.stagingSlice leaseId env with
  | none => []
  | some i =>
    if Dir.ofOperation req.operation = some dir ∧
        req.offset + length.toUInt64 ≤ STAGING_MAP_LEN then
      [⟨dir, l, i, req.offset, length⟩]
    else []

/-- `virt_dma_handle_authenticated_request`: the response, and the copies
it makes. -/
def handleAuthenticatedRequest (leaseId : UInt32) (capability epoch : UInt64)
    (req : Request) (env : StagingEnv) : Response × List (StagingCopy n) :=
  match Monitor.lookup leaseId, env.leaseNode with
  | none, _ => (⟨req.cookie, some .ENOENT, 0⟩, [])
  | some _, some e => (⟨req.cookie, some e, 0⟩, [])
  | some l, none =>
    let kernelReq := { req with capability, epoch }
    let resp := match (env.kernel l kernelReq).response with
      | .error e => ⟨req.cookie, some e, 0⟩
      | .ok r => r
    (resp, h.stage leaseId env l .memToDev req req.length
      ++ h.stage leaseId env l .devToMem req resp.transferred)

end Host

-- ==== the copies

/-- The offsets a copy touches, in either map. -/
def StagingCopy.span (c : StagingCopy n) : Span :=
  ⟨c.offset.toNat, c.length.toNat⟩

/-- The lease behind its bootstrap page. -/
def leasePayload : Span := ⟨4096, 16 * 1024 * 1024 - 4096⟩

/-- The copy stays off the bootstrap page and inside the lease, and
touches only bytes of a slice that is bound to the CID in `h`. -/
structure StagingCopy.Confined (c : StagingCopy n) (h : Host n)
    (cid : UInt32) : Prop where
  lease : c.span.bytes ⊆ leasePayload.bytes
  shared : ∀ a ∈ c.span.bytes, (h.slices c.slice).boundCid = cid ∧
    a < (h.desc c.slice).sliceSize.toNat

/-- The number of the slice behind `shm_fd`. -/
def shmIndex (n : Nat) (leaseId : UInt32) (env : StagingEnv) : Nat :=
  if leaseId.toNat < n ∧ env.shmNode then leaseId.toNat else 0

/-- What is known of a copy: the request's direction and offset, the slice
of the lease's number, the 64-bit check, and for data from the device the
kernel's. -/
structure Staged (h : Host n) (leaseId : UInt32) (env : StagingEnv) (req : Request)
    (c : StagingCopy n) : Prop where
  dir : Dir.ofOperation req.operation = some c.dir
  offset : c.offset = req.offset
  length : c.length.toNat = 0 ∨ c.length = req.length
  slice : c.slice.val = shmIndex n leaseId env
  checked : c.offset + c.length.toUInt64 ≤ STAGING_MAP_LEN
  room : STAGING_MAP_LEN ≤ (h.desc c.slice).sliceSize
  sent : c.dir = .memToDev → c.length = req.length
  received : c.dir = .devToMem → c.length.toNat = 0 ∨ 4096 ≤ c.offset.toNat ∧
      c.offset.toNat + c.length.toNat ≤ STAGING_MAP_LEN.toNat

variable {h : Host n} {leaseId : UInt32} {c : StagingCopy n} {env : StagingEnv}

/-- What one `memcpy` is known to do. -/
theorem mem_stage {dir : Dir} {length : UInt32}
    (hc : c ∈ h.stage leaseId env l dir req length) :
    c.dir = dir ∧ Dir.ofOperation req.operation = some c.dir ∧
      c.slice.val = shmIndex n leaseId env ∧ c.offset = req.offset ∧ c.length = length ∧
      c.offset + c.length.toUInt64 ≤ STAGING_MAP_LEN ∧
      STAGING_MAP_LEN ≤ (h.desc c.slice).sliceSize := by
  unfold Host.stage at hc
  split at hc
  case h_1 => cases hc
  case h_2 i hi =>
  split at hc
  case isFalse => cases hc
  case isTrue hcheck =>
  cases List.mem_singleton.mp hc
  obtain ⟨hslice, hroom⟩ := Option.filter_eq_some_iff.mp hi
  rw [Bool.and_eq_true] at hroom
  refine ⟨rfl, hcheck.1, ?_, rfl, rfl, hcheck.2, of_decide_eq_true hroom.2⟩
  unfold shmSlice at hslice
  unfold shmIndex
  split at hslice
  case isTrue hnode =>
    cases hslice
    exact (if_pos hnode).symm
  case isFalse hno =>
    obtain ⟨_, hzero⟩ := Option.dite_none_right_eq_some.mp hslice
    have hi0 := congrArg Fin.val (Option.some.inj hzero)
    exact hi0.symm.trans (if_neg hno).symm

theorem mem_copies {capability epoch : UInt64}
    (hc : c ∈ (h.handleAuthenticatedRequest leaseId capability epoch req env).2) :
    Staged h leaseId env req c := by
  unfold Host.handleAuthenticatedRequest at hc
  split at hc
  case h_1 => cases hc
  case h_2 => cases hc
  case h_3 l _ _ =>
  rcases List.mem_append.mp hc with hc | hc
  · obtain ⟨hdir, hop, hslice, hoff, hlen, hcheck, hroom⟩ := mem_stage hc
    refine ⟨hop, hoff, .inr hlen, hslice, hcheck, hroom, fun _ => hlen, ?_⟩
    rw [hdir]
    nofun
  · obtain ⟨hdir, hop, hslice, hoff, hlen, hcheck, hroom⟩ := mem_stage hc
    have hkernel : c.length.toNat = 0 ∨ c.length = req.length ∧ 4096 ≤ c.offset.toNat ∧
        c.offset.toNat + c.length.toNat ≤ STAGING_MAP_LEN.toNat := by
      rw [hlen, hoff]
      split
      case h_1 => exact .inl rfl
      case h_2 r hr =>
      rcases Reply.transferred_checked hr with hzero | ⟨htr, hlow, hend⟩
      · exact .inl hzero
      · rw [htr]
        exact .inr ⟨rfl, hlow, hend⟩
    refine ⟨hop, hoff, hkernel.imp_right And.left, hslice, hcheck, hroom, ?_, fun _ =>
      hkernel.imp_right And.right⟩
    rw [hdir]
    nofun

variable {cid : UInt32} {s : State n}

theorem StagingCopy.confined_of_empty (hzero : c.length.toNat = 0) : c.Confined h cid := by
  have hempty : c.span.bytes = ∅ := Span.bytes_eq_empty hzero
  constructor
  · rw [hempty]
    exact Set.empty_subset _
  · rw [hempty]
    exact fun a ha => absurd ha (Set.notMem_empty a)

theorem StagingCopy.offset_mem (hpos : c.length.toNat ≠ 0) : c.offset.toNat ∈ c.span.bytes := by
  constructor
  · exact Nat.le_refl _
  · show c.offset.toNat < c.offset.toNat + c.length.toNat
    omega

/-- The copy is empty; or its slice is bound to the CID, and data for the
device starts behind the bootstrap page with no wrap of the sum. -/
def StagingCopy.Careful (c : StagingCopy n) (h : Host n) (cid : UInt32) :
    Prop :=
  c.length.toNat = 0 ∨ (c.dir = .memToDev → 4096 ≤ c.offset.toNat ∧
      c.offset.toNat + c.length.toNat < 2 ^ 64) ∧
    (h.slices c.slice).boundCid = cid

instance (c : StagingCopy n) (h : Host n) (cid : UInt32) : Decidable (c.Careful h cid) :=
  inferInstanceAs (Decidable (_ ∨ _))

/-- The 64-bit check bounds a copy from its own map, unless the sum of
offset and length wraps. -/
theorem Staged.confined_iff {h' : Host n} (hs : Staged h leaseId env req c)
    (hdesc : h'.desc c.slice = h.desc c.slice) :
    c.Confined h' cid ↔ c.Careful h' cid := by
  have hlen : STAGING_MAP_LEN.toNat = 16 * 1024 * 1024 := rfl
  constructor
  · intro hconf
    by_cases hzero : c.length.toNat = 0
    · exact .inl hzero
    refine .inr ⟨fun _ => ?_, (hconf.shared _ (c.offset_mem hzero)).1⟩
    have hlow := (hconf.lease (c.offset_mem hzero)).1
    have hlast := (hconf.lease (a := c.offset.toNat + c.length.toNat - 1)
      ⟨by show c.offset.toNat ≤ _; omega, by show _ < c.offset.toNat + c.length.toNat; omega⟩).2
    change 4096 ≤ c.offset.toNat at hlow
    change _ < 4096 + (16 * 1024 * 1024 - 4096) at hlast
    exact ⟨hlow, by omega⟩
  · rintro (hzero | ⟨hsent, hbound⟩)
    · exact StagingCopy.confined_of_empty hzero
    by_cases hzero : c.length.toNat = 0
    · exact StagingCopy.confined_of_empty hzero
    have hrange : 4096 ≤ c.offset.toNat ∧
        c.offset.toNat + c.length.toNat ≤ STAGING_MAP_LEN.toNat := by
      cases hdir : c.dir with
      | memToDev =>
        obtain ⟨hlow, hfits⟩ := hsent hdir
        have hcheck := UInt64.le_iff_toNat_le.mp hs.checked
        rw [toNat_add_exact (by rwa [UInt32.toNat_toUInt64]), UInt32.toNat_toUInt64] at hcheck
        exact ⟨hlow, hcheck⟩
      | devToMem => exact (hs.received hdir).resolve_left hzero
    have hroom := UInt64.le_iff_toNat_le.mp hs.room
    constructor
    · apply Span.Within.bytes_subset
      constructor
      · exact hrange.1
      · show c.offset.toNat + c.length.toNat ≤ 4096 + (16 * 1024 * 1024 - 4096)
        omega
    · intro a ha
      have hlt : a < c.offset.toNat + c.length.toNat := ha.2
      rw [hdesc]
      exact ⟨hbound, by omega⟩

-- ==== the sessions

/-- An authenticated session's DMA request is handed over with the
session's lease. -/
theorem processTcpMsg_dmaRequest {sess : Session}
    (hacts : sess.actsAs = some cid) (env : MsgEnv) :
    s.processTcpMsg sess (.other (.dmaRequest true)) env
      = some ({ server := s, calls := [.sessionLease sess.leaseId]
                answer := .lease }, sess) := by
  unfold State.processTcpMsg
  simp only [hacts]
  rfl

/-- Only an authenticated session's request is handed over. -/
theorem session_of_lease {sess sess' : Session} {env : MsgEnv} {out : Outcome n}
    (hout : s.processTcpMsg sess (.other (.dmaRequest true)) env
      = some (out, sess')) (hcall : .sessionLease leaseId ∈ out.calls) :
    leaseId = sess.leaseId ∧ sess.actsAs = some sess.clientCid := by
  cases hacts : sess.actsAs with
  | none =>
    unfold State.processTcpMsg at hout
    simp only [hacts] at hout
    cases hout
    cases hcall
  | some cid =>
    rw [processTcpMsg_dmaRequest hacts] at hout
    cases hout
    cases List.mem_singleton.mp hcall
    refine ⟨rfl, ?_⟩
    exact (Option.ite_none_right_eq_some.mp hacts).2.symm

/-- What a request needs: data for the device starts behind the bootstrap
page with no wrap of the sum, and the slice of the session's lease
number, or slice 0 through the alias, is bound to the session's CID. -/
def StagingCareful (h : Host n) (sess : Session) (req : Request) (env : StagingEnv) : Prop :=
  (Dir.ofOperation req.operation = some .memToDev →
    4096 ≤ req.offset.toNat ∧ req.offset.toNat + req.length.toNat < 2 ^ 64) ∧
  ∃ i : Fin n, i.val = shmIndex n sess.leaseId env ∧ (h.slices i).boundCid = sess.clientCid

/-- Authenticated DMA staging: a copy made for a TCP session stays on the
lease's payload and on a slice bound to the session's CID if the request
is empty or careful; and one that does is empty or of a careful request.
`h'` is the kernel's slice table at the moment of the copy. -/
theorem staging_confined {s : State n} {sess sess' : Session}
    {msgEnv : MsgEnv} {out : Outcome n} {leaseId : UInt32}
    {req : Request} {env : StagingEnv} {c : StagingCopy n} {h' : Host n}
    (hout : s.processTcpMsg sess (.other (.dmaRequest true)) msgEnv = some (out, sess'))
    (hcall : .sessionLease leaseId ∈ out.calls)
    (hc : c ∈ (s.host.handleAuthenticatedRequest leaseId sess.capability sess.epoch req env).2)
    (hdesc : ∀ i, h'.desc i = s.host.desc i) :
    (req.length = 0 ∨ StagingCareful h' sess req env →
      sess.actsAs = some sess.clientCid ∧ c.Confined h' sess.clientCid) ∧
    (c.Confined h' sess.clientCid → c.length = 0 ∨ StagingCareful h' sess req env) := by
  obtain ⟨rfl, hacts⟩ := session_of_lease hout hcall
  have hs := mem_copies hc
  have hiff : c.Confined h' sess.clientCid ↔ c.Careful h' sess.clientCid :=
    hs.confined_iff (hdesc c.slice)
  rw [hiff]
  constructor
  · rintro (hzero | ⟨hsent, i, hi, hbound⟩)
    · refine ⟨hacts, .inl ?_⟩
      rcases hs.length with hlen | hlen
      · exact hlen
      · rw [hlen, hzero]
        rfl
    · obtain rfl : c.slice = i := Fin.ext (hs.slice.trans hi.symm)
      refine ⟨hacts, .inr ⟨fun hdir => ?_, hbound⟩⟩
      rw [hs.offset, hs.sent hdir]
      exact hsent (hdir ▸ hs.dir)
  · rintro (hzero | ⟨hsent, hbound⟩)
    · exact .inl (UInt32.toNat_inj.mp hzero)
    · refine .inr ⟨fun hop => ?_, c.slice, hs.slice, hbound⟩
      have hdir : c.dir = .memToDev := Option.some.inj (hs.dir.symm.trans hop)
      rw [← hs.offset, ← hs.sent hdir]
      exact hsent hdir

-- ==== samples

/-- A request to send `length` bytes from `offset`. -/
def sampleStaging (offset : UInt64) (length : UInt32) : Request :=
  { capability := 0, epoch := 0, cookie := 1, endpointId := 2, operation := 1
    offset, length }

def sampleCopies (t : Net 8) (req : Request) : List (StagingCopy 8) :=
  (t.server.host.handleAuthenticatedRequest (t.sessions 0).leaseId
    (t.sessions 0).capability (t.sessions 0).epoch req {}).2

/-- A copy made for session 0, acting as CID 8800, is not confined. -/
def Strays (t : Net 8) (req : Request) : Prop :=
  (t.sessions 0).actsAs = some 8800 ∧ ∃ c ∈ sampleCopies t req, ¬ c.Confined t.server.host 8800

def straysCheck (t : Net 8) (req : Request) : Bool :=
  decide ((t.sessions 0).actsAs = some 8800) &&
    (sampleCopies t req).any fun c => decide ¬ c.Careful t.server.host 8800

theorem strays_of_check {t : Net 8} (h : straysCheck t req = true) :
    Strays t req := by
  unfold straysCheck at h
  rw [Bool.and_eq_true, decide_eq_true_eq, List.any_eq_true] at h
  obtain ⟨hacts, c, hc, hcareless⟩ := h
  refine ⟨hacts, c, hc, ?_⟩
  rw [(mem_copies hc).confined_iff rfl]
  exact of_decide_eq_true hcareless

/-- The session that has claimed slice 0 sends 64 bytes of it. -/
theorem staging_confined_sample : ∃ t, (serverSystem 8).Reachable t ∧
      ∃ c ∈ sampleCopies t (sampleStaging 4096 64),
        c.length = 64 ∧ c.Confined t.server.host 8800 := by
  obtain ⟨t, hreach, hacts, hcopy, hcid, hlease, hbound⟩ := exists_reachable
    (p := fun t => (t.sessions 0).actsAs = some 8800 ∧ (⟨.memToDev, 0, 0, 4096, 64⟩ : StagingCopy 8)
        ∈ sampleCopies t (sampleStaging 4096 64) ∧
      (t.sessions 0).clientCid = 8800 ∧ (t.sessions 0).leaseId = 0 ∧
      (t.server.host.slices 0).boundCid = 8800)
    [.openNode 0 5, sampleClaimEvent] (by decide)
  have hdesc : ∀ i, t.server.host.desc i = t.server.host.desc i := fun _ => rfl
  have hcareful : StagingCareful t.server.host (t.sessions 0) (sampleStaging 4096 64) {} := by
    refine ⟨fun _ => by decide, 0, ?_, by rw [hcid, hbound]⟩
    rw [hlease]
    rfl
  have hconf := ((staging_confined (processTcpMsg_dmaRequest hacts {}) (List.mem_singleton_self _)
    hcopy hdesc).1 (.inr hcareful)).2
  rw [hcid] at hconf
  exact ⟨t, hreach, _, hcopy, rfl, hconf⟩

/-- The session that has claimed slice 0 writes to the bootstrap page of
lease 0, and with an offset of `2 ^ 64 - 4` in front of both maps; after
a challenge for lease 1 it is served from slice 1. -/
theorem staging_strays : (∃ t, (serverSystem 8).Reachable t ∧ Strays t (sampleStaging 0 64) ∧
      Strays t (sampleStaging 0xFFFFFFFFFFFFFFFC 8)) ∧
    ∃ t, (serverSystem 8).Reachable t ∧ Strays t (sampleStaging 4096 64) := by
  constructor
  · obtain ⟨t, hreach, hboot, hwrap⟩ := exists_reachable
      (p := fun t => straysCheck t (sampleStaging 0 64) = true ∧
        straysCheck t (sampleStaging 0xFFFFFFFFFFFFFFFC 8) = true)
      [.openNode 0 5, sampleClaimEvent] (by decide)
    exact ⟨t, hreach, strays_of_check hboot, strays_of_check hwrap⟩
  · obtain ⟨t, hreach, hother⟩ := exists_reachable
      (p := fun t => straysCheck t (sampleStaging 4096 64) = true)
      [.openNode 0 5, sampleClaimEvent, .tcp 0 (.authChallenge (some (1, 2)))
          { challenge := fun l _ => some (l, 0x51) }] (by decide)
    exact ⟨t, hreach, strays_of_check hother⟩

end AmbaVirt.Server
