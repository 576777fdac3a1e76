/-
The authentication challenge of the TCP broker
(`virt_dma_handle_auth_challenge`, virt_dma_broker.c), over the monitor.

The handler's system calls run one after the other on one monitor, and
an allocation is the three loops without interruption
(`allocLease_visits`). HMAC-SHA-256 is any function. That the session key
comes from the lease's key is said about all keys at once: whatever key
the kernel holds is the one the handler works with (`Genuine.key`).

# The fallback

If the lease cannot be read, is free or has no capability, the handler
allocates one for itself. It may get another lease than the one it was
asked for; if it gets none, it takes over the epoch it was asked with.
Either way its key is a function of the lease id and the epoch of the
request, which everyone has seen. `challenge_sound_iff` says that this is
the only way to go wrong.
-/
import AmbaVirt.Lib.Scan
import AmbaVirt.Dma.Moves

namespace AmbaVirt.Dma

open Lib Errno

-- ==== allocation in one piece

namespace Monitor

variable (s : Monitor) (r : AllocReq) (capability : UInt64) (key : List UInt8)

/-- The third loop: the first free lease is granted. -/
def allocFree : List (Fin 4) → Outcome AllocReply
  | [] => { monitor := s, result := .error .ENOSPC }
  | l :: rest =>
    if (s.leases l).state = .free then
      { monitor := s.grant l r capability key
        effects := [.granted l capability ((s.leases l).epoch + 1)]
        result := .ok ⟨l, r.endpoint, capability, (s.leases l).epoch + 1⟩ }
    else allocFree rest

/-- The second loop: the endpoint is not bound to a lease yet. -/
def allocBound : List (Fin 4) → Outcome AllocReply
  | [] => s.allocFree r capability key (List.finRange 4)
  | l :: rest =>
    if (s.leases l).state ≠ .free ∧ (s.leases l).boundEndpoint = r.endpoint
    then { monitor := s, result := .error .EBUSY }
    else allocBound rest

/-- From the second loop on, which is left out without an endpoint. -/
def allocSecond : Outcome AllocReply :=
  if r.endpoint = none then s.allocFree r capability key (List.finRange 4)
  else s.allocBound r capability key (List.finRange 4)

/-- The first loop: a CID that has a lease gets the same one again. -/
def allocOwned : List (Fin 4) → Outcome AllocReply
  | [] => s.allocSecond r capability key
  | l :: rest =>
    if s.Serves l r then
      if r.endpoint ≠ none ∧ r.endpoint ≠ (s.leases l).boundEndpoint then
        { monitor := s, result := .error .EBUSY }
      else
        { monitor := s
          result := .ok ⟨l, (s.leases l).boundEndpoint,
            (s.leases l).capability, (s.leases l).epoch⟩ }
    else allocOwned rest

/-- `amba_dma_alloc_lease` with a valid endpoint id, if no other call
comes between its visits. -/
def allocLease : Outcome AllocReply :=
  if r.vsockCid = 0 then s.allocSecond r capability key
  else s.allocOwned r capability key (List.finRange 4)

end Monitor

section Visits

variable {capability : UInt64} {key : List UInt8} {r : AllocReq}

abbrev Visits (capability : UInt64) (key : List UInt8) : Host → Host → Prop :=
  Relation.ReflTransGen fun a b =>
    a.exec (.allocStep capability key) = some b

def Host.allocating (h : Host) (r : AllocReq) (phase : AllocPhase) : Host :=
  { h with monitor := { h.monitor with alloc := some ⟨r, phase⟩ } }

theorem visit_go {h : Host} {phase next : AllocPhase} (hv : h.monitor.visit r phase = .go next) :
    (h.allocating r phase).exec (.allocStep capability key) = some (h.allocating r next) := by
  have hv' : ({ h.monitor with alloc := some ⟨r, phase⟩ } : Monitor).visit r phase = .go next := hv
  simp only [Host.exec, Host.allocating, Option.map_some, Monitor.allocStep, hv']
  rfl

theorem visit_done {h : Host} {phase : AllocPhase}
    {result : Except Errno AllocReply} (hidle : h.monitor.alloc = none)
    (hv : h.monitor.visit r phase = .done result) :
    (h.allocating r phase).exec (.allocStep capability key)
      = some (h.after { monitor := h.monitor, result }) := by
  have hv' : ({ h.monitor with alloc := some ⟨r, phase⟩ } : Monitor).visit r
      phase = .done result := hv
  have hback : ({ h.monitor with alloc := none } : Monitor) = h.monitor := by
    rw [← hidle]
  simp only [Host.exec, Host.allocating, Option.map_some, Monitor.allocStep, hv', Host.after, hback]

theorem visit_grant_exec {h : Host} {phase : AllocPhase} {l : Fin 4}
    (hv : h.monitor.visit r phase = .grant l) :
    (h.allocating r phase).exec (.allocStep capability key) = some (h.after
        { monitor := h.monitor.grant l r capability key
          effects := [.granted l capability ((h.monitor.leases l).epoch + 1)]
          result := .ok (⟨l, r.endpoint, capability,
            (h.monitor.leases l).epoch + 1⟩ : AllocReply) }) := by
  have hv' : ({ h.monitor with alloc := some ⟨r, phase⟩ } : Monitor).visit r phase = .grant l := hv
  simp only [Host.exec, Host.allocating, Option.map_some, Monitor.allocStep, hv']
  rfl

variable {h : Host} (hidle : h.monitor.alloc = none)
include hidle

theorem allocFree_visits (rest : List (Fin 4)) : Visits capability key (h.allocating r (.free rest))
      (h.after (h.monitor.allocFree r capability key rest)) := by
  induction rest with
  | nil => exact .single (visit_done hidle rfl)
  | cons l rest ih =>
    unfold Monitor.allocFree
    by_cases hfree : (h.monitor.leases l).state = .free
    · rw [if_pos hfree]
      exact .single (visit_grant_exec (if_pos hfree))
    · rw [if_neg hfree]
      exact .head (visit_go (if_neg hfree)) ih

theorem allocBound_visits (rest : List (Fin 4)) :
    Visits capability key (h.allocating r (.bound rest))
      (h.after (h.monitor.allocBound r capability key rest)) := by
  induction rest with
  | nil => exact .head (visit_go rfl) (allocFree_visits hidle _)
  | cons l rest ih =>
    unfold Monitor.allocBound
    by_cases htaken : (h.monitor.leases l).state ≠ .free ∧
        (h.monitor.leases l).boundEndpoint = r.endpoint
    · rw [if_pos htaken]
      exact .single (visit_done hidle (if_pos htaken))
    · rw [if_neg htaken]
      exact .head (visit_go (if_neg htaken)) ih

theorem allocSecond_visits : Visits capability key (h.allocating r r.second)
      (h.after (h.monitor.allocSecond r capability key)) := by
  unfold Monitor.allocSecond AllocReq.second
  by_cases hnone : r.endpoint = none
  · rw [if_pos hnone, if_pos hnone]
    exact allocFree_visits hidle _
  · rw [if_neg hnone, if_neg hnone]
    exact allocBound_visits hidle _

theorem allocOwned_visits (rest : List (Fin 4)) :
    Visits capability key (h.allocating r (.owned rest))
      (h.after (h.monitor.allocOwned r capability key rest)) := by
  induction rest with
  | nil => exact .head (visit_go rfl) (allocSecond_visits hidle)
  | cons l rest ih =>
    unfold Monitor.allocOwned
    by_cases hserves : h.monitor.Serves l r
    · rw [if_pos hserves]
      by_cases hother : r.endpoint ≠ none ∧ r.endpoint ≠ (h.monitor.leases l).boundEndpoint
      · rw [if_pos hother]
        exact .single (visit_done hidle ((if_pos hserves).trans (if_pos hother)))
      · rw [if_neg hother]
        exact .single (visit_done hidle ((if_pos hserves).trans (if_neg hother)))
    · rw [if_neg hserves]
      exact .head (visit_go (if_neg hserves)) ih

/-- An allocation none of whose visits is interrupted does what the loops
do in one piece. -/
theorem allocLease_visits : Visits capability key (h.allocating r r.first)
      (h.after (h.monitor.allocLease r capability key)) := by
  unfold Monitor.allocLease AllocReq.first
  by_cases hzero : r.vsockCid = 0
  · rw [if_pos hzero, if_pos hzero]
    exact allocSecond_visits hidle
  · rw [if_neg hzero, if_neg hzero]
    exact allocOwned_visits hidle _

end Visits

theorem allocLease_visits_boot : let r : AllocReq := ⟨none, 7, 0, []⟩
    let h : Host := ⟨(sampleConfig none).boot, []⟩
    Visits 1 [] (h.allocating r r.first) (h.after (h.monitor.allocLease r 1 [])) :=
  allocLease_visits rfl

-- ==== the challenge

/-- `struct amba_virt_auth_challenge_req`. -/
structure ChallengeReq where
  leaseId : UInt32
  epoch : UInt64
  clientNonce : List UInt8
  deriving DecidableEq

/-- `struct amba_dma_lease_info`, cleared by default. -/
structure LeaseInfo where
  leaseId : UInt32 := 0
  state : LeaseState := .free
  capability : UInt64 := 0
  epoch : UInt64 := 0
  hmacKey : List UInt8 := zeroKey
  deriving DecidableEq

/-- `AMBA_DMA_IOC_LEASE_GET_INFO`. -/
def Monitor.getInfo (s : Monitor) (l : Fin 4) : LeaseInfo where
  leaseId := l.val.toUInt32
  state := (s.leases l).state
  capability := (s.leases l).capability
  epoch := (s.leases l).epoch
  hmacKey := (s.leases l).hmacKey

/-- How the system calls of one challenge end. `first` and `second` are
the capability and key an allocation draws, `remapped` is for the release
between the two. -/
structure ChallengeEnv where
  node : Option Errno := none
  infoFails : Bool := false
  ctl : Bool := true
  first : UInt64 × List UInt8 := (1, zeroKey)
  second : UInt64 × List UInt8 := (1, zeroKey)
  remapped : Bool := true
  serverNonce : Option (List UInt8) := some []
  deriving DecidableEq

/-- A challenge that is met: the response, and what the session gets.
`hmacKey` is the handler's own copy of the key. -/
structure Grant where
  serverNonce : List UInt8
  serverTag : List UInt8
  sessionKey : List UInt8
  leaseId : UInt32
  capability : UInt64
  hmacKey : List UInt8
  deriving DecidableEq

def bytesOf (t : String) : List UInt8 :=
  t.toList.map fun c => c.toNat.toUInt8

section Challenge

variable (hmac : List UInt8 → List UInt8 → List UInt8)

def deriveKey (key clientNonce serverNonce : List UInt8) : List UInt8 :=
  hmac (hmac key (clientNonce ++ serverNonce)) (bytesOf "amba-dma-session-v1" ++ [1])

/-- `key_seed`, which has room for every lease id and epoch. -/
def keySeed (leaseId : UInt32) (epoch : UInt64) : List UInt8 :=
  bytesOf "AMBA_VIRT_LEASE_" ++ (decimal leaseId.toNat).map (fun c => c.toNat.toUInt8) ++
    bytesOf "_" ++ (decimal epoch.toNat).map (fun c => c.toNat.toUInt8)

def fallbackKey (leaseId : UInt32) (epoch : UInt64) : List UInt8 :=
  hmac (keySeed leaseId epoch) (bytesOf "LEASE_KEY")

namespace Monitor

variable (s : Monitor)

/-- The allocation of the fallback; without room the lease asked for is
released, whoever has it, and the allocation tried once more. -/
def reallocate (req : ChallengeReq) (l : Fin 4) (env : ChallengeEnv) : Outcome AllocReply :=
  let r : AllocReq := ⟨none, 8820 + req.leaseId, 1, List.replicate 16 0⟩
  let o := s.allocLease r env.first.1 env.first.2
  match o.result with
  | .error .ENOSPC | .error .EINVAL =>
    (o.monitor.releaseLease l 0 env.remapped).monitor.allocLease r env.second.1 env.second.2
  | _ => o

def fallbackLease (req : ChallengeReq) (l : Fin 4) (env : ChallengeEnv)
    (info : LeaseInfo) : Monitor × LeaseInfo :=
  if env.ctl then
    let o := s.reallocate req l env
    match o.result with
    | .error _ => (o.monitor, info)
    | .ok a =>
      (o.monitor, { info with leaseId := a.leaseId.val.toUInt32
                              capability := a.capability, epoch := a.epoch
                              state := .active })
  else (s, info)

def fallback (req : ChallengeReq) (l : Fin 4) (env : ChallengeEnv)
    (info : LeaseInfo) : Monitor × LeaseInfo :=
  let (s, info) := s.fallbackLease req l env info
  let info :=
    if info.capability = 0 then
      { info with leaseId := req.leaseId, state := .active, epoch := req.epoch }
    else info
  (s, { info with hmacKey := fallbackKey hmac req.leaseId info.epoch })

/-- The second half of the handler: what is answered for a lease. -/
def answer (req : ChallengeReq) (env : ChallengeEnv) (info : LeaseInfo) : Except Errno Grant := do
  refuseIf (info.state ≠ .active ∧ info.state ≠ .starting) .EPERM
  refuseIf (info.epoch ≠ req.epoch) .ESTALE
  let serverNonce ← require env.serverNonce EIO
  let sessionKey := deriveKey hmac info.hmacKey req.clientNonce serverNonce
  return { serverNonce, sessionKey, leaseId := info.leaseId
           serverTag := hmac sessionKey
             (bytesOf "SERVER_OK" ++ serverNonce ++ req.clientNonce)
           capability := info.capability, hmacKey := info.hmacKey }

/-- The lease could be read, is not free and has a capability. -/
def Usable (l : Fin 4) (env : ChallengeEnv) : Prop :=
  env.infoFails = false ∧ (s.leases l).state ≠ .free ∧ (s.leases l).capability ≠ 0
  deriving Decidable

def leaseInfo (req : ChallengeReq) (l : Fin 4) (env : ChallengeEnv) : Monitor × LeaseInfo :=
  let info := if env.infoFails then {} else s.getInfo l
  if env.infoFails = true ∨ info.state = .free ∨ info.capability = 0 then
    s.fallback hmac req l env info
  else (s, info)

/-- `virt_dma_handle_auth_challenge`: the monitor afterwards, and the
answer. -/
def handleAuthChallenge (req : ChallengeReq) (env : ChallengeEnv) : Monitor × Except Errno Grant :=
  match lookup req.leaseId with
  | none => (s, .error .EINVAL)
  | some l =>
    match env.node with
    | some e => (s, .error e)
    | none =>
      let (s, info) := s.leaseInfo hmac req l env
      (s, answer hmac req env info)

def withKey (l : Fin 4) (key : List UInt8) : Monitor :=
  s.modify l fun e => { e with hmacKey := key }

end Monitor

-- ==== what it uses

variable {hmac} {s : Monitor} {req : ChallengeReq} {env : ChallengeEnv} {l : Fin 4} {g : Grant}

theorem answer_ok {info : LeaseInfo} (h : Monitor.answer hmac req env info = .ok g) :
    info.epoch = req.epoch ∧ g.leaseId = info.leaseId ∧ g.hmacKey = info.hmacKey ∧
      g.sessionKey = deriveKey hmac info.hmacKey req.clientNonce g.serverNonce := by
  simp only [Monitor.answer, guards, pure_ok] at h
  obtain ⟨-, hepoch, nonce, -, rfl⟩ := h
  exact ⟨not_not.mp hepoch, rfl, rfl, rfl⟩

theorem leaseInfo_of_usable (h : s.Usable l env) :
    s.leaseInfo hmac req l env = (s, s.getInfo l) := by
  obtain ⟨hreads, hstate, hcap⟩ := h
  have hinfo : (if env.infoFails then ({} : LeaseInfo) else s.getInfo l) = s.getInfo l := by
    rw [hreads]
    rfl
  unfold Monitor.leaseInfo
  simp only [hinfo]
  apply if_neg
  rintro (hfails | hfree | hzero)
  · rw [hreads] at hfails
    cases hfails
  · exact hstate hfree
  · exact hcap hzero

/-- Otherwise the key is that of the fallback. -/
theorem leaseInfo_of_not_usable (h : ¬ s.Usable l env) : (s.leaseInfo hmac req l env).2.hmacKey
      = fallbackKey hmac req.leaseId (s.leaseInfo hmac req l env).2.epoch := by
  have hfall : s.leaseInfo hmac req l env = s.fallback hmac req l env
      (if env.infoFails then {} else s.getInfo l) := by
    apply if_pos
    by_contra hno
    push Not at hno
    obtain ⟨hreads, hstate, hcap⟩ := hno
    have hreads := Bool.eq_false_of_not_eq_true hreads
    rw [hreads] at hstate hcap
    exact h ⟨hreads, hstate, hcap⟩
  rw [hfall]
  rfl

theorem handle_ok (hl : Monitor.lookup req.leaseId = some l)
    (hg : (s.handleAuthChallenge hmac req env).2 = .ok g) :
    (s.handleAuthChallenge hmac req env).1 = (s.leaseInfo hmac req l env).1 ∧ env.node = none ∧
      Monitor.answer hmac req env (s.leaseInfo hmac req l env).2 = .ok g := by
  unfold Monitor.handleAuthChallenge at hg ⊢
  rw [hl] at hg ⊢
  cases hnode : env.node with
  | some e =>
    rw [hnode] at hg
    cases hg
  | none =>
    rw [hnode] at hg
    exact ⟨rfl, rfl, hg⟩

-- ==== soundness

/-- What a challenge that was met should mean for lease `l`. -/
structure Genuine (hmac : List UInt8 → List UInt8 → List UInt8) (s : Monitor)
    (req : ChallengeReq) (env : ChallengeEnv) (l : Fin 4) (g : Grant) :
    Prop where
  /-- The session gets the lease it asked for. -/
  lease : g.leaseId = req.leaseId
  /-- The epoch is the one the kernel has for that lease. -/
  epoch : ((s.handleAuthChallenge hmac req env).1.leases l).epoch = req.epoch
  /-- Whatever key the kernel holds for the lease, that key is used. -/
  key : ∀ k : List UInt8, k.length = 32 → ∃ g',
    ((s.withKey l k).handleAuthChallenge hmac req env).2 = .ok g' ∧ g'.hmacKey = k ∧
      g'.sessionKey = deriveKey hmac k req.clientNonce g'.serverNonce

theorem usable_withKey {k : List UInt8} : (s.withKey l k).Usable l env ↔ s.Usable l env := by
  unfold Monitor.Usable Monitor.withKey
  rw [Monitor.modify_self]

/-- The answer for a usable lease, whose key only goes into the result. -/
theorem answer_withKey {info : LeaseInfo}
    (h : Monitor.answer hmac req env info = .ok g) (k : List UInt8) :
    ∃ g', Monitor.answer hmac req env { info with hmacKey := k } = .ok g' := by
  simp only [Monitor.answer, guards, pure_ok] at h ⊢
  obtain ⟨hstate, hepoch, nonce, hnonce, -⟩ := h
  exact ⟨_, hstate, hepoch, nonce, hnonce, rfl⟩

theorem getInfo_withKey (k : List UInt8) :
    (s.withKey l k).getInfo l = { s.getInfo l with hmacKey := k } := by
  unfold Monitor.getInfo Monitor.withKey
  rw [Monitor.modify_self]

theorem handle_of_answer (hl : Monitor.lookup req.leaseId = some l) (hnode : env.node = none) :
    (s.handleAuthChallenge hmac req env).2
      = Monitor.answer hmac req env (s.leaseInfo hmac req l env).2 := by
  unfold Monitor.handleAuthChallenge
  rw [hl, hnode]

/-- With the fallback the key is a function of the request. -/
theorem hmacKey_of_not_usable (hl : Monitor.lookup req.leaseId = some l)
    (hg : (s.handleAuthChallenge hmac req env).2 = .ok g)
    (h : ¬ s.Usable l env) :
    g.hmacKey = fallbackKey hmac req.leaseId req.epoch := by
  obtain ⟨-, -, hans⟩ := handle_ok hl hg
  obtain ⟨hepoch, -, hkey, -⟩ := answer_ok hans
  rw [hkey, leaseInfo_of_not_usable h, hepoch]

theorem lookup_id {id : UInt32} (h : Monitor.lookup id = some l) : l.val.toUInt32 = id := by
  unfold Monitor.lookup at h
  split at h
  case isTrue hlt =>
    cases h
    exact UInt32.ofNat_toNat
  case isFalse => cases h

/-- Auth challenge soundness: a challenge that is met is met for the
lease asked for, at its current epoch and with its own key, exactly if
the lease could be read, is not free and has a capability. -/
theorem challenge_sound_iff (hl : Monitor.lookup req.leaseId = some l)
    (hg : (s.handleAuthChallenge hmac req env).2 = .ok g) :
    Genuine hmac s req env l g ↔ s.Usable l env := by
  constructor
  · intro hgrants
    by_contra hno
    -- two keys the kernel may hold, and one key that is used
    have hused : ∀ k : List UInt8, k.length = 32 → fallbackKey hmac req.leaseId req.epoch = k := by
      intro k hk
      obtain ⟨g', hg', hkey, -⟩ := hgrants.key k hk
      rw [← hmacKey_of_not_usable hl hg' (usable_withKey.not.mpr hno), hkey]
    have heq : List.replicate 32 (0 : UInt8) = List.replicate 32 1 :=
      (hused _ List.length_replicate).symm.trans (hused _ List.length_replicate)
    exact absurd heq (by decide)
  · intro husable
    obtain ⟨hmon, hnode, hans⟩ := handle_ok hl hg
    rw [leaseInfo_of_usable husable] at hmon hans
    obtain ⟨hepoch, hlease, -, -⟩ := answer_ok hans
    refine ⟨hlease.trans (lookup_id hl), ?_, ?_⟩
    · rw [hmon]
      exact hepoch
    intro k _
    obtain ⟨g', hg'⟩ := answer_withKey hans k
    rw [← getInfo_withKey] at hg'
    have hinfo : (s.withKey l k).leaseInfo hmac req l env
        = (s.withKey l k, (s.withKey l k).getInfo l) :=
      leaseInfo_of_usable (usable_withKey.mpr husable)
    refine ⟨g', ?_, ?_⟩
    · rw [handle_of_answer hl hnode, hinfo]
      exact hg'
    · obtain ⟨-, -, hkey, hsession⟩ := answer_ok hg'
      rw [getInfo_withKey] at hkey hsession
      exact ⟨hkey, hsession⟩

end Challenge

-- ==== samples

def sampleHmac (key message : List UInt8) : List UInt8 := key ++ message

def sampleChallenge : ChallengeReq :=
  { leaseId := 1, epoch := 2, clientNonce := [] }

def sampleStarted : Monitor := (sampleConfig none).boot

def sampleHeld : Monitor :=
  (sampleStarted.allocLease ⟨none, 7, 1, []⟩ 0x51 zeroKey).monitor

/-- The challenge of a lease that is held is met with the lease's key. -/
theorem challenge_sound_held : ∃ g, (sampleHeld.handleAuthChallenge sampleHmac
        { sampleChallenge with leaseId := 0 } {}).2 = .ok g ∧
      Genuine sampleHmac sampleHeld { sampleChallenge with leaseId := 0 } {} 0
        g :=
  ⟨_, rfl, (challenge_sound_iff rfl rfl).mpr (by decide)⟩

/-- Lease 1 is free. The session is let in for lease 0; and, if the
control node cannot be opened, for lease 1 at an epoch the kernel has
never had. Both times the session key is computed from the request and
the nonces. -/
theorem challenge_fallback : (∃ g, (sampleStarted.handleAuthChallenge sampleHmac sampleChallenge
        {}).2 = .ok g ∧ g.leaseId = 0 ∧
      g.sessionKey = deriveKey sampleHmac (fallbackKey sampleHmac 1 2)
        sampleChallenge.clientNonce g.serverNonce) ∧
    ∃ g, (sampleStarted.handleAuthChallenge sampleHmac
        { sampleChallenge with epoch := 77 } { ctl := false }).2 = .ok g ∧
      (sampleStarted.leases 1).epoch = 1 ∧
      g.sessionKey = deriveKey sampleHmac (fallbackKey sampleHmac 1 77)
        sampleChallenge.clientNonce g.serverNonce :=
  ⟨⟨_, rfl, rfl, rfl⟩, ⟨_, rfl, rfl, rfl⟩⟩

end AmbaVirt.Dma
