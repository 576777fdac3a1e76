/-
The sequenced call of the guest (`amba_virt_rpc_dev_seq`,
amba_virt_core.c): send a request, then read frames until one carries
the request's sequence number.

The call connects where there is no connection, and again where the
connection turns out to be dead or the send finds the peer gone. Another
thread may close the connection whenever the socket lock is free
(`Attach.dropped`). Every failure of the call closes the connection,
which keeps the stream in step for the next one.

Stale frames are read into the caller's reply buffer. One that is longer
than the buffer is a protocol error, and the call fails although the
reply may be next (`stale_too_long`). With every frame up to the reply
short enough, the reply is returned (`rpc_seq_reply_iff`), for any
segmentation of the stream.
-/
import AmbaVirt.Vsock.Frame

namespace AmbaVirt.Vsock

open Lib

-- ==== the messages

/-- The size of `struct amba_virt_msg`. -/
def MSG_SIZE : Nat := 16

/-- The field `seq`. -/
def seqOf (m : List UInt8) : UInt32 := read32 (listMem m) 4

def Matches (want : UInt32) (m : List UInt8) : Prop :=
  MSG_SIZE ≤ m.length ∧ seqOf m = want
  deriving Decidable

-- ==== the loop

/-- `(long)(deadline - jiffies) <= 0`. -/
def Expired (deadline jiffies : UInt64) : Prop :=
  deadline - jiffies = 0 ∨ deadline - jiffies ≥ 0x8000000000000000
  deriving Decidable

section Loop

variable (cap : Nat) (want : UInt32) (deadline : UInt64) (clock : Nat → UInt64)

/-- The receive loop. `spare` more frames may be discarded, and `clock i`
is the time at the start of turn `i`. -/
def seqLoop : Nat → Nat → Sock → Option (Except Errno (List UInt8) × Sock)
  | spare, turn, s =>
    if Expired deadline (clock turn) then some (.error .ETIMEDOUT, s)
    else
      match frameRecv cap s with
      | none => none
      | some (.error e, s) => some (.error e, s)
      | some (.ok m, s) =>
        if Matches want m then some (.ok m, s)
        else
          match spare with
          | 0 => some (.error .EPROTO, s)
          | spare + 1 => seqLoop spare (turn + 1) s

end Loop

-- ==== the call

/-- What it takes to get hold of the socket: how a new connection goes,
if one is needed, and whether another thread closes it again before the
lock is taken. -/
structure Attach where
  connect : Except Errno Sock
  dropped : Bool := false

/-- `amba_virt_vsock_connect`, then the socket under the lock. -/
def Attach.run (a : Attach) (conn : Option Sock) : Except Errno Sock := do
  let s ← match conn with
    | some s => .ok s
    | none => a.connect
  if a.dropped then .error .ENOTCONN else .ok s

/-- How the system calls of one call go. `dead` is the check of the
socket's state, a send of `none` succeeds, `wait` is the timeout in
jiffies and `start` the time at the beginning. -/
structure RpcEnv where
  first : Attach
  dead : Bool := false
  second : Attach
  send : Option Errno := none
  third : Attach
  resend : Option Errno := none
  start : UInt64
  wait : UInt64
  clock : Nat → UInt64

/-- A send that failed like this has not reached the server. -/
def PeerGone (e : Errno) : Prop :=
  e = .EPIPE ∨ e = .ECONNRESET ∨ e = .ENOTCONN ∨ e = .ESHUTDOWN

instance : DecidablePred PeerGone := fun _ =>
  inferInstanceAs (Decidable (_ ∨ _))

/-- Up to the receive loop: the socket, and how the send ended. -/
def sendRequest (conn : Option Sock) (env : RpcEnv) : Except Errno (Sock × Option Errno) := do
  let s ← env.first.run conn
  let s ← if env.dead then env.second.run none else .ok s
  match env.send with
  | none => .ok (s, none)
  | some e =>
    if PeerGone e then
      let s ← env.third.run none
      .ok (s, env.resend)
    else .ok (s, some e)

/-- The connection after the call: closed by every error but two. -/
def connAfter (e : Errno) (s : Sock) : Option Sock :=
  if e = .EINVAL ∨ e = .EMSGSIZE then some s else none

/-- `amba_virt_rpc_dev_seq` on a guest's device: the reply, and the
connection afterwards. -/
def rpcDevSeq (conn : Option Sock) (request : List UInt8) (cap : Nat)
    (env : RpcEnv) : Option (Except Errno (List UInt8) × Option Sock) :=
  if request.length < MSG_SIZE ∨ request.length > AMBA_VIRT_MAX_MSG ∨
      cap < MSG_SIZE ∨ cap > AMBA_VIRT_MAX_MSG then
    some (.error .EMSGSIZE, conn)
  else
    match sendRequest conn env with
    | .error e => some (.error e, none)
    | .ok (s, some e) => some (.error e, connAfter e s)
    | .ok (s, none) =>
      match seqLoop cap (seqOf request) (env.start + env.wait) env.clock 256 0 s with
      | none => none
      | some (.ok m, s) => some (.ok m, some s)
      | some (.error e, s) => some (.error e, connAfter e s)

-- ==== only the wanted reply

variable {cap : Nat} {want : UInt32} {deadline : UInt64} {clock : Nat → UInt64}

variable {s : Sock}

theorem seqLoop_ok {spare turn : Nat} {s' : Sock} {m : List UInt8}
    (h : seqLoop cap want deadline clock spare turn s = some (.ok m, s')) :
    Matches want m := by
  fun_induction seqLoop cap want deadline clock spare turn s with
  | case1 => cases h
  | case2 => cases h
  | case3 => cases h
  | case4 spare turn s _ m' s' _ hmatch =>
    cases h
    exact hmatch
  | case5 => cases h
  | case6 turn s _ m' s' _ _ spare ih => exact ih h

-- ==== bytes that keep coming

/-- Every call returns bytes. -/
def Flowing (script : List Recv) : Prop := ∀ r ∈ script, ∃ k, r = .got k

/-- Bytes that keep coming fill the buffer, one or more at a time. -/
theorem recvLoop_flowing {len : Nat} {script : List Recv}
    (done unread : List UInt8) (hflow : Flowing script)
    (hdone : done.length ≤ len) (hscript : len ≤ done.length + script.length)
    (hunread : len ≤ done.length + unread.length) :
    ∃ script', recvLoop len done unread script
        = some (.ok (done ++ unread.take (len - done.length)),
          ⟨unread.drop (len - done.length), script'⟩) ∧
      Flowing script' ∧
      script.length + done.length ≤ script'.length + len := by
  induction script generalizing done unread with
  | nil =>
    have hfull : len - done.length = 0 := by
      rw [List.length_nil] at hscript
      omega
    refine ⟨[], ?_, hflow, by omega⟩
    unfold recvLoop
    rw [if_neg (by omega), hfull, List.take_zero, List.append_nil, List.drop_zero]
  | cons r rest ih =>
    obtain ⟨⟨k, rfl⟩, hrest⟩ := List.forall_mem_cons.mp hflow
    unfold recvLoop
    by_cases hlt : done.length < len
    case neg =>
      have hfull : len - done.length = 0 := by omega
      refine ⟨.got k :: rest, ?_, hflow, by omega⟩
      rw [if_neg hlt, hfull, List.take_zero, List.append_nil, List.drop_zero]
    case pos =>
      rw [if_pos hlt]
      -- the part that comes now is not empty
      set n := min (k + 1) (len - done.length) with hn
      have hlen : (unread.take n).length = n := by
        rw [List.length_take]
        omega
      cases hpart : unread.take n with
      | nil =>
        rw [hpart, List.length_nil] at hlen
        omega
      | cons b bs =>
        rw [List.length_cons] at hscript
        have hlen' : (b :: bs).length = n := by rw [← hpart, hlen]
        obtain ⟨script', hrun, hflow', hcount⟩ := ih (done ++ b :: bs) (unread.drop n) hrest
          (by rw [List.length_append]; omega)
          (by rw [List.length_append]; omega)
          (by rw [List.length_append, List.length_drop]; omega)
        have hleft : len - (done ++ b :: bs).length = len - done.length - n := by
          rw [List.length_append]
          omega
        refine ⟨script', ?_, hflow', ?_⟩
        · simp only [Recv.bytes, ← hn, hpart, hlen']
          rw [hrun, hleft, List.drop_drop, ← hpart, List.append_assoc,
            ← List.take_add, Nat.add_sub_cancel' (by omega)]
        · rw [List.length_cons]
          omega

theorem recvExact_flowing {bs rest : List UInt8} (hs : s.unread = bs ++ rest)
    (hflow : Flowing s.arrivals) (henough : bs.length ≤ s.arrivals.length) :
    ∃ script, recvExact s bs.length = some (.ok bs, ⟨rest, script⟩) ∧
      Flowing script ∧ s.arrivals.length ≤ script.length + bs.length := by
  obtain ⟨script, hrun, hflow', hcount⟩ := recvLoop_flowing [] s.unread
    hflow (Nat.zero_le bs.length)
    (by rw [List.length_nil]; omega)
    (by rw [hs, List.length_append, List.length_nil]; omega)
  refine ⟨script, ?_, hflow', hcount⟩
  rw [recvExact, hrun, hs]
  simp

variable {f : Frame} {fs : List Frame}

theorem frameRecv_header (cap : Nat) (hs : s.unread = wire (f :: fs))
    (hflow : Flowing s.arrivals) (henough : f.encode.length ≤ s.arrivals.length) :
    ∃ script, Flowing script ∧ s.arrivals.length ≤ script.length + 4 ∧
      frameRecv cap s = if cap < f.bytes.length
        then some (.error .EPROTO, ⟨f.bytes ++ wire fs, script⟩)
        else recvExact ⟨f.bytes ++ wire fs, script⟩ f.bytes.length := by
  have hpos := f.pos
  have hsmall := f.small
  rw [wire_cons] at hs
  rw [f.length_encode] at henough
  obtain ⟨script, hhdr, hflow', hcount⟩ := recvExact_flowing hs hflow (by rw [length_le32]; omega)
  rw [length_le32] at hhdr hcount
  refine ⟨script, hflow', hcount, ?_⟩
  unfold frameRecv
  simp only [hhdr, read32_le32, f.length_field]
  apply ite_congr _ (fun _ => rfl) (fun _ => rfl)
  apply propext
  omega

/-- A frame whose bytes keep coming is received if the buffer has room
for it. -/
theorem frameRecv_flowing (hs : s.unread = wire (f :: fs))
    (hflow : Flowing s.arrivals) (henough : f.encode.length ≤ s.arrivals.length)
    (hcap : f.bytes.length ≤ cap) :
    ∃ s', frameRecv cap s = some (.ok f.bytes, s') ∧ s'.unread = wire fs ∧ Flowing s'.arrivals ∧
      s.arrivals.length ≤ s'.arrivals.length + f.encode.length := by
  obtain ⟨script, hflow₁, hcount, hrun⟩ := frameRecv_header cap hs hflow henough
  rw [f.length_encode] at henough ⊢
  obtain ⟨script', hbody, hflow', hcount'⟩ := recvExact_flowing
    (s := ⟨f.bytes ++ wire fs, script⟩) rfl hflow₁ (by dsimp only; omega)
  refine ⟨⟨wire fs, script'⟩, ?_, rfl, hflow', ?_⟩
  · rw [hrun, if_neg (by omega), hbody]
  · dsimp only at hcount' ⊢
    omega

theorem frameRecv_too_long (hs : s.unread = wire (f :: fs))
    (hflow : Flowing s.arrivals) (henough : f.encode.length ≤ s.arrivals.length)
    (hcap : cap < f.bytes.length) :
    ∃ s', frameRecv cap s = some (.error .EPROTO, s') := by
  obtain ⟨script, -, -, hrun⟩ := frameRecv_header cap hs hflow henough
  exact ⟨_, hrun.trans (if_pos hcap)⟩

/-- The loop finds a reply whose bytes keep coming behind at most `spare`
stale frames, if and only if all of them fit the buffer. -/
theorem seqLoop_flowing {spare turn : Nat} {stale : List Frame} {reply : Frame}
    {rest : List Frame} (hs : s.unread = wire (stale ++ reply :: rest))
    (hflow : Flowing s.arrivals)
    (henough : (wire (stale ++ [reply])).length ≤ s.arrivals.length)
    (hspare : stale.length ≤ spare)
    (htime : ∀ i ≤ stale.length, ¬ Expired deadline (clock (turn + i)))
    (hstale : ∀ f ∈ stale, ¬ Matches want f.bytes)
    (hreply : Matches want reply.bytes) :
    (∃ s', seqLoop cap want deadline clock spare turn s = some (.ok reply.bytes, s')) ↔
    ∀ f ∈ stale ++ [reply], f.bytes.length ≤ cap := by
  induction stale generalizing s spare turn with
  | nil =>
    have hlen : (wire ([] ++ [reply])).length = reply.encode.length := by
      simp [wire]
    rw [hlen] at henough
    have hnow : ¬ Expired deadline (clock turn) := htime 0 (Nat.le_refl _)
    unfold seqLoop
    rw [if_neg hnow, List.nil_append, List.forall_mem_singleton]
    by_cases hcap : reply.bytes.length ≤ cap
    · obtain ⟨s', hrun, -⟩ := frameRecv_flowing hs hflow henough hcap
      simp only [hrun, if_pos hreply]
      exact iff_of_true ⟨s', rfl⟩ hcap
    obtain ⟨s', hrun⟩ := frameRecv_too_long hs hflow henough (Nat.lt_of_not_le hcap)
    simp only [hrun]
    refine iff_of_false ?_ hcap
    rintro ⟨s'', h⟩
    cases h
  | cons f stale ih =>
    obtain ⟨hf, hstale⟩ := List.forall_mem_cons.mp hstale
    have hlen : (wire (f :: stale ++ [reply])).length
        = f.encode.length + (wire (stale ++ [reply])).length := by
      simp [wire]
    have hfirst : f.encode.length ≤ s.arrivals.length := by omega
    have hnow : ¬ Expired deadline (clock turn) := htime 0 (Nat.zero_le _)
    rw [List.length_cons] at hspare
    obtain ⟨spare, rfl⟩ : ∃ n, spare = n + 1 := ⟨spare - 1, by omega⟩
    unfold seqLoop
    rw [if_neg hnow, List.cons_append, List.forall_mem_cons]
    by_cases hcap : f.bytes.length ≤ cap
    · obtain ⟨s', hrun, hs', hflow', hcount⟩ := frameRecv_flowing hs hflow hfirst hcap
      simp only [hrun, if_neg hf]
      rw [ih hs' hflow' (by omega) (by omega) ?_ hstale]
      · exact (and_iff_right hcap).symm
      · intro i hi
        have := htime (i + 1) (by rw [List.length_cons]; omega)
        rwa [show turn + (i + 1) = turn + 1 + i by omega] at this
    · obtain ⟨s', hrun⟩ := frameRecv_too_long hs hflow hfirst (Nat.lt_of_not_le hcap)
      simp only [hrun]
      refine iff_of_false ?_ fun h => hcap h.1
      rintro ⟨s'', h⟩
      cases h

-- ==== the call

/-- Sequenced RPC matching: a reply is returned only with the request's
sequence number; and if the reply comes behind at most 256 stale frames
of any legal size, all of them before the deadline, it is returned
exactly if it and every stale frame fit the caller's buffer. -/
theorem rpc_seq_reply_iff (conn : Option Sock) {request : List UInt8} {cap : Nat} (env : RpcEnv)
    (hrequest : MSG_SIZE ≤ request.length ∧ request.length ≤ AMBA_VIRT_MAX_MSG)
    (hcap : MSG_SIZE ≤ cap ∧ cap ≤ AMBA_VIRT_MAX_MSG) :
    (∀ m conn', rpcDevSeq conn request cap env = some (.ok m, conn') → Matches (seqOf request) m) ∧
    ∀ (s : Sock) (stale : List Frame) (reply : Frame) (rest : List Frame),
      sendRequest conn env = .ok (s, none) →
      s.unread = wire (stale ++ reply :: rest) →
      stale.length ≤ 256 → (∀ f ∈ stale, ¬ Matches (seqOf request) f.bytes) →
      Matches (seqOf request) reply.bytes →
      Flowing s.arrivals →
      (wire (stale ++ [reply])).length ≤ s.arrivals.length →
      (∀ i ≤ stale.length, ¬ Expired (env.start + env.wait) (env.clock i)) →
      ((∃ conn', rpcDevSeq conn request cap env = some (.ok reply.bytes, conn')) ↔
      ∀ f ∈ stale ++ [reply], f.bytes.length ≤ cap) := by
  have hargs : ¬ (request.length < MSG_SIZE ∨ request.length > AMBA_VIRT_MAX_MSG ∨ cap < MSG_SIZE ∨
      cap > AMBA_VIRT_MAX_MSG) := by omega
  constructor
  · intro m conn' h
    unfold rpcDevSeq at h
    rw [if_neg hargs] at h
    split at h
    case h_1 => cases h
    case h_2 => cases h
    case h_3 =>
    split at h
    case h_1 => cases h
    case h_2 m' s' hloop =>
      cases h
      exact seqLoop_ok hloop
    case h_3 => cases h
  · intro s stale reply rest hsend hs hcount hstale hreply hflow henough htime
    have htime' : ∀ i ≤ stale.length, ¬ Expired (env.start + env.wait) (env.clock (0 + i)) := by
      intro i hi
      rw [Nat.zero_add]
      exact htime i hi
    rw [← seqLoop_flowing hs hflow henough hcount htime' hstale hreply]
    unfold rpcDevSeq
    simp only [if_neg hargs, hsend]
    split
    case h_1 hloop => simp [hloop]
    case h_2 m s' hloop => simp [hloop]
    case h_3 e s' hloop => simp [hloop]

-- ==== samples

/-- A header with sequence number `seq`, and `n` more bytes. -/
def sampleMsg (seq : UInt8) (n : Nat) : List UInt8 :=
  [1, 0, 0, 0, seq, 0, 0, 0] ++ List.replicate (8 + n) 0

def sampleStale : Frame := ⟨sampleMsg 4 4, by decide, by decide⟩

def sampleReply : Frame := ⟨sampleMsg 5 0, by decide, by decide⟩

def sampleSock : Sock :=
  ⟨wire [sampleStale, sampleReply], List.replicate 44 (.got 7)⟩

def sampleEnv : RpcEnv where
  first := { connect := .ok sampleSock }
  second := { connect := .ok sampleSock }
  third := { connect := .ok sampleSock }
  start := 0
  wait := 250
  clock i := i.toUInt64

/-- With a buffer of 32 bytes the late reply is skipped. -/
theorem rpc_seq_reply_sample : ∃ conn, rpcDevSeq none (sampleMsg 5 0) 32 sampleEnv
      = some (.ok sampleReply.bytes, conn) :=
  ((rpc_seq_reply_iff none sampleEnv (by decide) (by decide)).2 sampleSock
    [sampleStale] sampleReply [] rfl rfl (by decide) (by decide) (by decide)
    (fun _ hr => ⟨7, List.eq_of_mem_replicate hr⟩) (by decide)
    (by decide)).mpr (by decide)

/-- With a buffer for a bare header the call fails on the late reply; the
reply is behind it. -/
theorem stale_too_long : sampleSock.unread = wire [sampleStale, sampleReply] ∧
    ¬ Matches 5 sampleStale.bytes ∧ Matches 5 sampleReply.bytes ∧
    sampleReply.bytes.length ≤ 16 ∧
    rpcDevSeq none (sampleMsg 5 0) 16 sampleEnv = some (.error .EPROTO, none) := by
  refine ⟨rfl, by decide, by decide, by decide, ?_⟩
  rfl

end AmbaVirt.Vsock
