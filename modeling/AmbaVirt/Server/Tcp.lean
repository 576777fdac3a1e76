/-
TCP sessions (`process_tcp_msg`): how a connection without a vsock CID
comes to act as one.

A slice claim names a slice by its nonce; if it succeeds the session
acts as CID 8800 plus the slice's index. An authentication challenge
names a DMA lease; if it succeeds the session acts as CID 8900 plus the
lease, unless it has a CID already.

The claim branch writes the session's CID before the claim is tried and
never clears `authenticated`. So a session that was in stays in after a
later claim fails; a failed claim of a session that was out leaves it a
CID, which a challenge then turns into an identity; and a nonce the
server does not find in the claim pages may still be the kernel's, and
binds a slice to another CID than the session gets. `Sincere` excludes
the three, and `tcp_identity` is what holds of every run without them.
-/
import AmbaVirt.Server.Dispatch

namespace AmbaVirt.Server

open Lib Kernel Cavalry Function

variable {n : Nat}

-- ==== sessions

/-- How the most recent slice claim of a session ended. This is a
history variable: no function reads it. -/
inductive ClaimRecord
  | none
  | failed
  /-- The nonce resolved to slice `i`, and the kernel bound slice `i` to
  CID `8800 + i`. -/
  | bound (i : UInt32)
  /-- The claim succeeded in some other way. -/
  | astray
  deriving DecidableEq

/-- `struct tcp_client_session`; the session key is not used here. -/
structure Session where
  authenticated : Bool := false
  clientCid : UInt32 := 0
  leaseId : UInt32 := 0
  epoch : UInt64 := 0
  capability : UInt64 := 0
  lastClaim : ClaimRecord := .none
  deriving DecidableEq

inductive TcpMsg
  /-- AUTH_CHALLENGE of a lease and epoch. -/
  | authChallenge (req : Option (UInt32 × UInt64))
  | other (m : Msg)
  deriving DecidableEq

/-- The CID messages of the session are processed as. -/
def Session.actsAs (sess : Session) : Option UInt32 :=
  if sess.authenticated then some sess.clientCid else none

-- ==== the nonce

/-- `AMBA_VIRT_SLICE_CLAIM_MAGIC`. -/
def SLICE_CLAIM_MAGIC : UInt32 := 0x414d5343

/-- The `struct amba_virt_slice_claim` at `o` carries the nonce. -/
def claimAt (m : Mem) (o : Nat) (nonce : UInt64) : Bool :=
  read32 m o == SLICE_CLAIM_MAGIC && read64 m (o + 16) == nonce

/-- `tcp_resolve_slice_cid`: the first slice with a claim record of this
nonce, at the start or the end of its claim page. -/
def State.tcpResolveSliceCid (s : State n) (window : Mem) (nonce : UInt64) : Option UInt32 :=
  if nonce = 0 ∨ s.mapped = false ∨ s.geometryMatched = false then none
  else s.activeSlices.findSome? fun d =>
    if d.offset + d.sliceSize > s.activeWindowBytes ∨
        d.usableSize.toUInt64 + 24 > d.sliceSize then none
    else if claimAt window (d.offset.toNat + d.usableSize.toNat) nonce ||
        claimAt window (d.offset.toNat + d.sliceSize.toNat - 24) nonce then
      some (8800 + d.index)
    else none

-- ==== the messages

/-- The kernel binds slice number `i` to a CID. -/
def Host.binds (h : Host n) (i : Nat) (cid : UInt32) : Bool :=
  if hi : i < n then (h.slices ⟨i, hi⟩).boundCid == cid else false

def State.resolved (s : State n) (nonce : Option UInt64) (window : Mem) : Option UInt32 :=
  nonce.bind (s.tcpResolveSliceCid window)

def State.claimCid (s : State n) (sess : Session) (nonce : Option UInt64) (window : Mem) : UInt32 :=
  let cid := (s.resolved nonce window).getD sess.clientCid
  if cid ≤ 2 then 8800 else cid

/-- The SLICE_CLAIM branch of `process_tcp_msg`. -/
def State.tcpClaim (s : State n) (sess : Session) (nonce : Option UInt64)
    (window : Mem) : Outcome n × Session :=
  let cid := s.claimCid sess nonce window
  let (result, s') := s.claimSlice cid nonce
  match result with
  | .error e =>
    ({ server := s', answer := .claim (.error e) },
      { sess with clientCid := cid, lastClaim := .failed })
  | .ok d =>
    ({ server := s', answer := .claim (.ok d) }, { sess with
        authenticated := true
        clientCid := 8800 + d.index
        lastClaim :=
          if s.resolved nonce window = some (8800 + d.index) ∧
              s'.host.binds d.index.toNat (8800 + d.index) then
            .bound d.index
          else .astray })

/-- `virt_dma_handle_auth_challenge`, as the session sees it. -/
def authChallenge (env : MsgEnv) (leaseId : UInt32) (epoch : UInt64) : Option (UInt32 × UInt64) :=
  if leaseId ≥ 4 then none else env.challenge leaseId epoch

/-- The session after a challenge that was met. -/
def Session.authenticate (sess : Session) (leaseId : UInt32) (epoch : UInt64)
    (grant : UInt32 × UInt64) : Session :=
  { sess with
    authenticated := true
    epoch
    leaseId := grant.1
    capability := grant.2
    clientCid :=
      if sess.clientCid ≤ 2 then 8900 + (leaseId &&& 0x7f)
      else sess.clientCid }

/-- `process_tcp_msg`. -/
def State.processTcpMsg (s : State n) (sess : Session) (m : TcpMsg)
    (env : MsgEnv) : Option (Outcome n × Session) :=
  match m with
  | .authChallenge none => some ({ server := s }, sess)
  | .authChallenge (some (leaseId, epoch)) =>
    match authChallenge env leaseId epoch with
    | none => some ({ server := s, answer := .authChallenge false }, sess)
    | some grant =>
      some ({ server := s, answer := .authChallenge true }, sess.authenticate leaseId epoch grant)
  | .other .short => some ({ server := s }, sess)
  | .other (.sliceClaim nonce) => some (s.tcpClaim sess nonce env.window)
  | .other m =>
    match sess.actsAs with
    | none =>
      some ({ server := s
              answer := if m = .ping then .pong else .refused .EPERM },
        sess)
    | some cid =>
      if m = .dmaRequest false then some ({ server := s }, sess)
      else if m = .dmaRequest true then
        some ({ server := s, calls := [.sessionLease sess.leaseId]
                answer := .lease }, sess)
      else (s.processIncomingMsg cid m env).map fun out => (out, sess)

-- ==== the whole system

/-- The server with its TCP sessions, any number of them. -/
structure Net (n : Nat) where
  server : State n
  sessions : Nat → Session

inductive Event
  /-- A message over vsock; the kernel names the sender. -/
  | vsock (cid : UInt32) (m : Msg) (env : MsgEnv)
  /-- A message on TCP session `k`. -/
  | tcp (k : Nat) (m : TcpMsg) (env : MsgEnv)
  /-- A new connection takes the number `k`. -/
  | connect (k : Nat)
  /-- QEMU opens or closes a slice node. -/
  | openNode (idx : Nat) (random : UInt64)
  | closeNode (idx : Nat)
  | evict (cid : UInt32)
  /-- A host module came up: the geometry is read again. -/
  | moduleState (phys : UInt64) (size : UInt32)
  | restart (b : Boot)

namespace Net

/-- What an event does; `none` is a message still being worked on. -/
def apply (t : Net n) : Event → Option (Net n)
  | .vsock cid m env =>
    (t.server.processIncomingMsg cid m env).map fun out =>
      { t with server := out.server }
  | .tcp k m env =>
    (t.server.processTcpMsg (t.sessions k) m env).map fun r =>
      { server := r.1.server
        sessions := update t.sessions k r.2 }
  | .connect k =>
    some { t with sessions := update t.sessions k {} }
  | .openNode idx random =>
    some { t with
      server := { t.server with
        host := t.server.host.apply (.openIdx idx random) } }
  | .closeNode idx =>
    some { t with
      server := { t.server with
        host := t.server.host.apply (.release idx) } }
  | .evict cid => some { t with server := t.server.evict cid }
  | .moduleState phys size =>
    some { t with
      server := State.applyGeometry
        { t.server with infoShmPhys := phys, infoShmSize := size } }
  | .restart b =>
    some { server := State.boot t.server.host b, sessions := fun _ => {} }

end Net

/-- A node is closed only while it is open, and a first open draws a
fresh nonce. -/
def Event.Allowed (t : Net n) : Event → Prop
  | .openNode idx random =>
    SliceOp.Allowed t.server.host.ledger (.openIdx idx random)
  | .closeNode idx => SliceOp.Allowed t.server.host.ledger (.release idx)
  | _ => True

instance (t : Net n) : (e : Event) → Decidable (e.Allowed t)
  | .openNode idx random =>
    inferInstanceAs (Decidable (SliceOp.Allowed t.server.host.ledger (.openIdx idx random)))
  | .closeNode idx =>
    inferInstanceAs (Decidable (SliceOp.Allowed t.server.host.ledger (.release idx)))
  | .vsock .. | .tcp .. | .connect _ | .evict _ | .moduleState .. | .restart _ => .isTrue trivial

/-- All orders of events, from a server that comes up on slices just
published. -/
def serverSystem (n : Nat) : System (Net n) Event where
  init t := ∃ (h : Host n) (b : Boot), h.ledger = { slices := published h.desc } ∧
    t = { server := State.boot h b, sessions := fun _ => {} }
  step t e t' := e.Allowed t ∧ t.apply e = some t'

def Net.exec (t : Net n) (e : Event) : Option (Net n) :=
  if e.Allowed t then t.apply e else none

variable {t : Net n} {t' : Net n} {e : Event}

theorem Net.step_of_exec (h : t.exec e = some t') :
    (serverSystem n).step t e t' := by
  unfold Net.exec at h
  split at h
  case isTrue hok => exact ⟨hok, h⟩
  case isFalse => cases h

def sampleBoot : Boot where
  window := Gdma.sampleWindow
  infoShmPhys := 0x100000000
  infoShmSize := 0
  mapped := true
  daemon := {}
  acl := fun _ => none
  tapReady := false
  brokerActive := false
  fresh _ := rfl

def sampleNet : Net 8 :=
  { server := State.boot sampleHost sampleBoot, sessions := fun _ => {} }

theorem sampleNet_reachable : (serverSystem 8).Reachable sampleNet :=
  .init ⟨sampleHost, sampleBoot, rfl, rfl⟩

/-- A run on the sample host that ends in a state with property `p`. -/
theorem exists_reachable {p : Net 8 → Prop} [DecidablePred p] (es : List Event)
    (h : ((es.foldlM Net.exec sampleNet).any fun t => decide (p t)) = true) :
    ∃ t, (serverSystem 8).Reachable t ∧ p t :=
  sampleNet_reachable.exists_exec (fun _ _ _ => Net.step_of_exec) h

-- ==== what keeps identity

/-- The claim page of a slice carries the nonce. -/
def Records (window : Mem) (nonce : UInt64) (d : SliceDesc) : Prop :=
  d.usableSize.toUInt64 + 24 ≤ d.sliceSize ∧
    (claimAt window (d.offset.toNat + d.usableSize.toNat) nonce = true ∨
      claimAt window (d.offset.toNat + d.sliceSize.toNat - 24) nonce = true)

instance (window : Mem) (nonce : UInt64) (d : SliceDesc) : Decidable (Records window nonce d) :=
  inferInstanceAs (Decidable (_ ∧ _))

/-- A slice the kernel knows by this nonce is in use, and of the slices
in use its claim page alone carries the nonce. -/
def State.Recorded (s : State n) (window : Mem) (nonce : UInt64) : Prop :=
  ∀ i, (s.host.slices i).nonce = nonce → s.host.desc i ∈ s.activeSlices ∧
    ∀ d ∈ s.activeSlices, Records window nonce d ↔ d = s.host.desc i

/-- Which claims and challenges keep a session's identity straight: a
claim on a session that is not in yet, with a nonce on the claim page of
its own slice alone, and a challenge on a session that is in or has no
guest's CID. -/
def Sincere (t : Net n) : Event → Prop
  | .tcp k (.other (.sliceClaim nonce)) env =>
    (t.sessions k).authenticated = false ∧ ∀ v ∈ nonce, t.server.Recorded env.window v
  | .tcp k (.authChallenge (some _)) _ =>
    (t.sessions k).authenticated = true ∨ (t.sessions k).clientCid ≤ 2
  | _ => True

/-- What the end of its last claim says about a session. -/
structure Session.Sound (sess : Session) : Prop where
  /-- Without a claim it is out, or in for a lease. -/
  unclaimed : sess.lastClaim = .none → (sess.authenticated = false ∧ sess.clientCid = 0) ∨
      (8900 ≤ sess.clientCid ∧ sess.clientCid < 9028)
  failed : sess.lastClaim = .failed → sess.authenticated = false ∧ 2 < sess.clientCid
  bound : ∀ i, sess.lastClaim = .bound i → sess.clientCid = 8800 + i ∧ 2 < sess.clientCid
  straight : sess.lastClaim ≠ .astray

theorem Session.sound_fresh : Session.Sound {} :=
  ⟨fun _ => .inl ⟨rfl, rfl⟩, nofun, nofun, nofun⟩

-- ---- one step

theorem lease_cid_range (leaseId : UInt32) : (8900 : UInt32) ≤ 8900 + (leaseId &&& 0x7f) ∧
      8900 + (leaseId &&& 0x7f) < 9028 := by
  have hle : (leaseId &&& 0x7f).toNat ≤ 0x7f := by
    exact Nat.and_le_right
  rw [UInt32.le_iff_toNat_le, UInt32.lt_iff_toNat_lt, UInt32.toNat_add]
  change 8900 ≤ (8900 + _) % 2 ^ 32 ∧ (8900 + _) % 2 ^ 32 < 9028
  omega

variable {sess : Session}

/-- A challenge met keeps what a slice claim gave the session, and gives
a session without one a CID of the leases. -/
theorem Session.Sound.authenticate (h : sess.Sound)
    (hf : sess.lastClaim ≠ .failed) (leaseId : UInt32) (epoch : UInt64)
    (grant : UInt32 × UInt64) :
    (sess.authenticate leaseId epoch grant).Sound where
  unclaimed hc := by
    right
    unfold Session.authenticate
    rcases h.unclaimed hc with ⟨-, h0⟩ | ⟨hlo, hhi⟩
    · rw [if_pos (by rw [h0]; decide)]
      exact lease_cid_range leaseId
    have hlarge : ¬ sess.clientCid ≤ 2 := by
      rw [UInt32.le_iff_toNat_le] at hlo ⊢
      change 8900 ≤ _ at hlo
      change ¬ _ ≤ 2
      omega
    rw [if_neg hlarge]
    exact ⟨hlo, hhi⟩
  failed hc := absurd hc hf
  bound i hc := by
    obtain ⟨hcid, hlt⟩ := h.bound i hc
    unfold Session.authenticate
    dsimp only
    rw [if_neg (UInt32.not_le.mpr hlt)]
    exact ⟨hcid, hlt⟩
  straight := h.straight

theorem slice_cid_guest {i : UInt32} (h : i.toNat < 8) : 2 < 8800 + i := by
  rw [UInt32.lt_iff_toNat_lt, UInt32.toNat_add]
  change 2 < (8800 + _) % 2 ^ 32
  omega

variable {s : State n} {r : Outcome n × Session} {nonce : Option UInt64} {window : Mem}
  {cid : UInt32} {env : MsgEnv} {m : TcpMsg}

/-- A nonce that resolves to a slice is claimed as that slice's CID. -/
theorem claimCid_of_resolved (sess : Session) (hguest : 2 < cid)
    (h : s.resolved nonce window = some cid) :
    s.claimCid sess nonce window = cid := by
  unfold State.claimCid
  rw [h]
  exact if_neg (UInt32.not_le.mpr hguest)

theorem claimCid_guest : 2 < s.claimCid sess nonce window := by
  unfold State.claimCid
  dsimp only
  split
  · decide
  case isFalse h => exact UInt32.not_le.mp h

/-- The claim page a nonce is found on is the kernel's slice's, where
that one alone carries it. -/
theorem resolve_recorded {i : Fin n} {r : UInt64} (hr : r ≠ 0)
    (hmatched : s.geometryMatched = true) (hmapped : s.mapped = true)
    (hin : (s.host.desc i).offset + (s.host.desc i).sliceSize ≤ s.activeWindowBytes)
    (hmem : s.host.desc i ∈ s.activeSlices)
    (honly : ∀ d ∈ s.activeSlices, Records window r d ↔ d = s.host.desc i) :
    s.tcpResolveSliceCid window r = some (8800 + (s.host.desc i).index) := by
  unfold State.tcpResolveSliceCid
  rw [if_neg (by simp [hr, hmatched, hmapped])]
  obtain ⟨hroom, hclaim⟩ := (honly _ hmem).mpr rfl
  rw [← Bool.or_eq_true] at hclaim
  cases hfound : List.findSome? _ s.activeSlices with
  | none =>
    have hskip := List.findSome?_eq_none_iff.mp hfound _ hmem
    rw [if_neg, if_pos hclaim] at hskip
    · cases hskip
    · exact not_or.mpr ⟨UInt64.not_lt.mpr hin, UInt64.not_lt.mpr hroom⟩
  | some c =>
    obtain ⟨d, hd, hc⟩ := List.exists_of_findSome?_eq_some hfound
    split at hc
    · cases hc
    case isFalse hfits =>
    split at hc
    case isFalse => cases hc
    case isTrue hrec =>
    have hd := (honly d hd).mp
      ⟨UInt64.not_lt.mp (not_or.mp hfits).2, (Bool.or_eq_true _ _).mp hrec⟩
    rw [← hc, hd]

theorem binds_of_bound {h : Host n} {i : Fin n}
    (hb : (h.slices i).boundCid = cid) : h.binds i.val cid = true := by
  unfold Host.binds
  rw [dif_pos i.isLt]
  exact beq_iff_eq.mpr hb

/-- A claim leaves the session out, or in for the slice it resolved. -/
theorem tcpClaim_sound (hout : sess.authenticated = false)
    (hrec : ∀ v ∈ nonce, s.Recorded window v) :
    (s.tcpClaim sess nonce window).2.Sound := by
  obtain ⟨result, s', hclaim⟩ : ∃ result s',
      s.claimSlice (s.claimCid sess nonce window) nonce = (result, s') :=
    ⟨_, _, rfl⟩
  unfold State.tcpClaim
  dsimp only
  rw [hclaim]
  cases result with
  | error e => exact ⟨nofun, fun _ => ⟨hout, claimCid_guest⟩, nofun, nofun⟩
  | ok d =>
    obtain ⟨h8, hmatched, hmapped, hin, i, r, rfl, hr, hnonce, rfl, hbound⟩ :=
      State.claimSlice_ok hclaim
    obtain ⟨hmem, honly⟩ := hrec r rfl i hnonce
    have hres : s.resolved (some r) window = some (8800 + (s.host.desc i).index) :=
      resolve_recorded hr hmatched hmapped hin hmem honly
    have hguest := slice_cid_guest h8
    rw [claimCid_of_resolved sess hguest hres] at hbound
    have hbinds := binds_of_bound hbound
    rw [← s.host.index_eq i] at hbinds
    dsimp only
    rw [if_pos ⟨hres, hbinds⟩]
    refine ⟨nofun, nofun, ?_, nofun⟩
    intro j hj
    cases hj
    exact ⟨rfl, hguest⟩

/-- A message on a TCP session, sincere, leaves the session sound. -/
theorem processTcpMsg_sound {k : Nat} (hsound : (t.sessions k).Sound)
    (hs : Sincere t (.tcp k m env))
    (h : t.server.processTcpMsg (t.sessions k) m env = some r) :
    r.2.Sound := by
  unfold State.processTcpMsg at h
  split at h
  · cases h
    exact hsound
  case h_2 leaseId epoch =>
    split at h
    · cases h
      exact hsound
    case h_2 grant hgrant =>
    cases h
    apply hsound.authenticate
    intro hf
    obtain ⟨hout, hlt⟩ := hsound.failed hf
    rcases hs with hin | hle
    · rw [hout] at hin
      cases hin
    · exact UInt32.not_le.mpr hlt hle
  · cases h
    exact hsound
  case h_4 nonce =>
    cases h
    exact tcpClaim_sound hs.1 hs.2
  case h_5 m _ _ =>
    split at h
    · cases h
      exact hsound
    case h_2 cid _ =>
    split at h
    · cases h
      exact hsound
    split at h
    · cases h
      exact hsound
    · obtain ⟨out, -, rfl⟩ := Option.map_eq_some_iff.mp h
      exact hsound

theorem sound_step (hinv : ∀ k, (t.sessions k).Sound)
    (hs : Sincere t e) (h : t.apply e = some t') :
    ∀ k, (t'.sessions k).Sound := by
  cases e with
  | vsock cid m env =>
    obtain ⟨out, -, rfl⟩ := Option.map_eq_some_iff.mp h
    exact hinv
  | tcp k m env =>
    obtain ⟨r, hr, rfl⟩ := Option.map_eq_some_iff.mp h
    apply (forall_update_iff _ fun _ => Session.Sound).mpr
    exact ⟨processTcpMsg_sound (hinv k) hs hr, fun j _ => hinv j⟩
  | connect k =>
    cases h
    apply (forall_update_iff _ fun _ => Session.Sound).mpr
    exact ⟨Session.sound_fresh, fun j _ => hinv j⟩
  | restart b =>
    cases h
    intro k
    exact Session.sound_fresh
  | openNode | closeNode | evict | moduleState =>
    cases h
    exact hinv

-- ---- whole runs

theorem sessions_sound (h : ((serverSystem n).restrict Sincere).Reachable t) :
    ∀ k, (t.sessions k).Sound := by
  apply System.Reachable.induct (I := fun t => ∀ k, (t.sessions k).Sound)
    _ _ h
  · intro t ht k
    obtain ⟨h, b, -, rfl⟩ := ht
    exact Session.sound_fresh
  · intro t e t' _ hinv hstep
    exact sound_step hinv hstep.1 hstep.2.2

/-- A message of a session that is out changes nothing and calls
nothing, a claim apart. -/
theorem processTcpMsg_out (hout : sess.actsAs = none)
    (hclaim : ∀ nonce, m ≠ .other (.sliceClaim nonce))
    (h : s.processTcpMsg sess m env = some r) :
    r.1.server = s ∧ r.1.calls = [] := by
  unfold State.processTcpMsg at h
  split at h
  · cases h
    exact ⟨rfl, rfl⟩
  · split at h
    all_goals
      cases h
      exact ⟨rfl, rfl⟩
  · cases h
    exact ⟨rfl, rfl⟩
  · exact absurd rfl (hclaim _)
  · rw [hout] at h
    cases h
    exact ⟨rfl, rfl⟩

/-- TCP identity, along every run of sincere events: a session that acts
as a CID has no failed claim behind it, and if the CID is slice `i`'s,
its last claim resolved to slice `i` and the kernel bound slice `i` to
that CID; a session whose last claim failed gets nothing done. -/
theorem tcp_identity {t : Net n} (h : ((serverSystem n).restrict Sincere).Reachable t) (k : Nat) :
    (∀ cid, (t.sessions k).actsAs = some cid → (t.sessions k).lastClaim ≠ .failed ∧
      (t.sessions k).lastClaim ≠ .astray ∧
      ∀ i < 100, cid = 8800 + i → (t.sessions k).lastClaim = .bound i) ∧
    ((t.sessions k).lastClaim = .failed → ∀ m env r, (∀ nonce, m ≠ .other (.sliceClaim nonce)) →
        t.server.processTcpMsg (t.sessions k) m env = some r →
          r.1.server = t.server ∧ r.1.calls = []) := by
  have hsound := sessions_sound h k
  generalize t.sessions k = sess at hsound
  constructor
  · intro cid hacts
    unfold Session.actsAs at hacts
    split at hacts
    case isFalse => cases hacts
    case isTrue hauth =>
    cases hacts
    refine ⟨?_, hsound.straight, ?_⟩
    · intro hf
      rw [(hsound.failed hf).1] at hauth
      cases hauth
    intro i hi hcid
    cases hlast : sess.lastClaim with
    | none =>
      rcases hsound.unclaimed hlast with ⟨hno, -⟩ | ⟨hlo, -⟩
      · rw [hno] at hauth
        cases hauth
      exfalso
      rw [hcid, UInt32.le_iff_toNat_le, UInt32.toNat_add] at hlo
      rw [UInt32.lt_iff_toNat_lt] at hi
      change 8900 ≤ (8800 + _) % 2 ^ 32 at hlo
      change _ < 100 at hi
      omega
    | failed =>
      rw [(hsound.failed hlast).1] at hauth
      cases hauth
    | bound j =>
      obtain ⟨hj, -⟩ := hsound.bound j hlast
      rw [hcid, UInt32.add_right_inj] at hj
      rw [hj]
    | astray => exact absurd hlast hsound.straight
  · intro hf m env r hclaim hr
    apply processTcpMsg_out _ hclaim hr
    unfold Session.actsAs
    rw [(hsound.failed hf).1]
    rfl

def sampleClaimPage : Mem := fun a =>
  if a = 0x3FFFF000 then 0x43
  else if a = 0x3FFFF001 then 0x53
  else if a = 0x3FFFF002 then 0x4d
  else if a = 0x3FFFF003 then 0x41
  else if a = 0x3FFFF010 then 5
  else 0

def sampleClaimEvent : Event :=
  .tcp 0 (.other (.sliceClaim (some 5))) { window := sampleClaimPage }

def sampleOpened : Net 8 :=
  { sampleNet with
    server := { sampleNet.server with
      host := sampleNet.server.host.apply (.openIdx 0 5) } }

theorem sampleClaim_sincere : Sincere sampleOpened sampleClaimEvent := by
  refine ⟨rfl, ?_⟩
  intro v hv
  cases hv
  unfold State.Recorded
  decide

/-- Slice 0 is claimed over a session, which then acts as CID 8800. -/
theorem tcp_identity_claimed : ∃ t, ((serverSystem 8).restrict Sincere).Reachable t ∧
      (t.sessions 0).actsAs = some 8800 ∧
      (t.sessions 0).lastClaim = .bound 0 := by
  obtain ⟨t, ht, hacts⟩ : ∃ t, sampleOpened.exec sampleClaimEvent = some t ∧
      decide ((t.sessions 0).actsAs = some 8800) = true :=
    Option.any_eq_true _ _ |>.mp (by decide)
  have hinit : ((serverSystem 8).restrict Sincere).Reachable sampleNet :=
    .init ⟨sampleHost, sampleBoot, rfl, rfl⟩
  have hopened : ((serverSystem 8).restrict Sincere).Reachable sampleOpened :=
    hinit.step (e := .openNode 0 5) ⟨trivial, by decide, rfl⟩
  have hreach := hopened.step ⟨sampleClaim_sincere, Net.step_of_exec ht⟩
  have hacts := of_decide_eq_true hacts
  obtain ⟨-, -, hslice⟩ := (tcp_identity hreach 0).1 8800 hacts
  exact ⟨t, hreach, hacts, hslice 0 (by decide) rfl⟩

/-- Three ways to act as a slice's CID without its claim: a claim that
fails after one that succeeded, a challenge met after a claim that
failed, with no slice bound at all, and a nonce only the kernel knows,
for a slice that is bound to another CID. -/
theorem identity_kept : (∃ t, (serverSystem 8).Reachable t ∧ (t.sessions 0).actsAs = some 8800 ∧
      (t.sessions 0).lastClaim = .failed ∧ t.server.host.binds 0 8800) ∧
    (∃ t, (serverSystem 8).Reachable t ∧ (t.sessions 0).actsAs = some 8800 ∧
      (t.sessions 0).lastClaim = .failed ∧ t.server.host.bindings.length = 0) ∧
    ∃ t, (serverSystem 8).Reachable t ∧ (t.sessions 0).actsAs = some 8801 ∧
      (t.sessions 0).lastClaim = .astray ∧ t.server.host.binds 1 8800 := by
  refine ⟨exists_reachable [.openNode 0 5, sampleClaimEvent,
        .tcp 0 (.other (.sliceClaim (some 6))) {}] ?_,
    exists_reachable [.tcp 0 (.other (.sliceClaim (some 6))) {},
        .tcp 0 (.authChallenge (some (1, 0))) { challenge := fun l _ => some (l, 0) }] ?_,
    exists_reachable [.openNode 1 5, .tcp 0 (.other (.sliceClaim (some 5))) {}] ?_⟩
  all_goals decide

end AmbaVirt.Server
