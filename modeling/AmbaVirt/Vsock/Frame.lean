/-
Frames on a vsock stream (amba_virt_core.c): `recv_exact`, `frame_recv`
and their two callers that keep a connection over many frames, the
receive worker of the host and the RECV call of the guest.

# The stream

A frame is four bytes of length and up to 4096 bytes of payload. Each
`kernel_recvmsg` returns some of the bytes that are still unread, or it
fails, with -EAGAIN if it timed out. A socket is what is unread and what
the next calls will do (`Sock`); a call with nothing left to happen is
still waiting, and `none`.

# Timeouts

`recv_exact` gives up on the first failure and forgets the bytes it has
got. Both callers take a timeout as a quiet connection and read on. If
it struck in the middle of a frame, the rest of that frame is read as a
header (`torn_frame`). If each timeout strikes between two frames
(`Calm`), what is delivered is a prefix of what was sent
(`framing_lossless`).
-/
import AmbaVirt.Basic
import AmbaVirt.Lib.Bytes
import AmbaVirt.Lib.Trans

namespace AmbaVirt.Vsock

open Lib

-- ==== the stream

/-- A frame that `frame_send` accepts. -/
structure Frame where
  bytes : List UInt8
  pos : 0 < bytes.length
  small : bytes.length ≤ AMBA_VIRT_MAX_MSG
  deriving DecidableEq

/-- What `frame_send` puts on the stream. -/
def Frame.encode (f : Frame) : List UInt8 :=
  le32 f.bytes.length.toUInt32 ++ f.bytes

def wire (fs : List Frame) : List UInt8 := fs.flatMap Frame.encode

theorem wire_cons (f : Frame) (fs : List Frame) :
    wire (f :: fs) = le32 f.bytes.length.toUInt32 ++ (f.bytes ++ wire fs) := by
  rfl

theorem Frame.length_encode (f : Frame) : f.encode.length = 4 + f.bytes.length := by
  rw [Frame.encode, List.length_append, length_le32]

theorem Frame.length_field (f : Frame) : f.bytes.length.toUInt32.toNat = f.bytes.length := by
  have hsmall := f.small
  have hmax : AMBA_VIRT_MAX_MSG = 4096 := rfl
  exact Nat.mod_eq_of_lt (by omega)

-- ==== the socket

/-- How one `kernel_recvmsg` ends: with at most `k + 1` bytes, at the end
of the stream, or with an error. -/
inductive Recv
  | got (k : Nat)
  | closed
  | failed (e : Errno)
  deriving DecidableEq

/-- What it returns, if `want` bytes are asked for. -/
def Recv.bytes (unread : List UInt8) (want : Nat) : Recv → Except Errno (List UInt8)
  | .got k => .ok (unread.take (min (k + 1) want))
  | .closed => .ok []
  | .failed e => .error e

structure Sock where
  unread : List UInt8
  arrivals : List Recv
  deriving DecidableEq

/-- The loop of `recv_exact`, with `done` received. -/
def recvLoop (len : Nat) (done unread : List UInt8) :
    List Recv → Option (Except Errno (List UInt8) × Sock)
  | [] => if done.length < len then none else some (.ok done, ⟨unread, []⟩)
  | r :: rest =>
    if done.length < len then
      match r.bytes unread (len - done.length) with
      | .error e =>
        some (.error (if e = .EAGAIN then .ETIMEDOUT else e), ⟨unread, rest⟩)
      | .ok [] => some (.error .ECONNRESET, ⟨unread, rest⟩)
      | .ok (b :: bs) =>
        recvLoop len (done ++ b :: bs) (unread.drop (b :: bs).length) rest
    else some (.ok done, ⟨unread, r :: rest⟩)

/-- `recv_exact`. -/
def recvExact (s : Sock) (len : Nat) : Option (Except Errno (List UInt8) × Sock) :=
  recvLoop len [] s.unread s.arrivals

/-- `frame_recv` into a buffer of `cap` bytes. -/
def frameRecv (cap : Nat) (s : Sock) : Option (Except Errno (List UInt8) × Sock) :=
  match recvExact s 4 with
  | none => none
  | some (.error e, s) => some (.error e, s)
  | some (.ok hdr, s) =>
    let n := (read32 (listMem hdr) 0).toNat
    if n = 0 ∨ n > AMBA_VIRT_MAX_MSG ∨ n > cap then some (.error .EPROTO, s)
    else recvExact s n

-- ==== what is read, and what left

theorem Recv.bytes_ok {r : Recv} {unread bs : List UInt8} {want : Nat}
    (h : r.bytes unread want = .ok bs) :
    bs.length ≤ want ∧ bs ++ unread.drop bs.length = unread := by
  cases r with
  | got k =>
    cases h
    constructor
    · rw [List.length_take]
      omega
    · exact (List.prefix_append_drop (List.take_prefix _ _)).symm
  | closed =>
    cases h
    exact ⟨Nat.zero_le _, rfl⟩
  | failed e => cases h

/-- What the loop returns is as long as asked for, and together with what
it leaves it is what there was. -/
theorem recvLoop_ok {len : Nat} {script : List Recv} {bs : List UInt8}
    {s : Sock} {done unread : List UInt8}
    (h : recvLoop len done unread script = some (.ok bs, s))
    (hle : done.length ≤ len) :
    bs.length = len ∧ bs ++ s.unread = done ++ unread := by
  induction script generalizing done unread with
  | nil =>
    obtain ⟨hnot, heq⟩ := Option.ite_none_left_eq_some.mp h
    cases heq
    exact ⟨by omega, rfl⟩
  | cons r rest ih =>
    unfold recvLoop at h
    split at h
    case isFalse hnot =>
      cases h
      exact ⟨by omega, rfl⟩
    case isTrue hlt =>
    split at h
    case h_1 => cases h
    case h_2 => cases h
    case h_3 b bs' hr =>
    obtain ⟨hlen, hsplit⟩ := Recv.bytes_ok hr
    have hle' : (done ++ b :: bs').length ≤ len := by
      rw [List.length_append]
      omega
    obtain ⟨hbs, hrest⟩ := ih h hle'
    refine ⟨hbs, ?_⟩
    rw [hrest, List.append_assoc, hsplit]

theorem recvExact_ok {s s' : Sock} {len : Nat} {bs : List UInt8}
    (h : recvExact s len = some (.ok bs, s')) :
    bs.length = len ∧ bs ++ s'.unread = s.unread :=
  recvLoop_ok h (Nat.zero_le _)

/-- At the start of a frame, `frame_recv` can only return that frame, and
then is at the start of the next one. -/
theorem frameRecv_ok {cap : Nat} {s s' : Sock} {fs : List Frame}
    {m : List UInt8} (hs : s.unread = wire fs)
    (h : frameRecv cap s = some (.ok m, s')) :
    ∃ f rest, fs = f :: rest ∧ m = f.bytes ∧ s'.unread = wire rest := by
  unfold frameRecv at h
  split at h
  case h_1 => cases h
  case h_2 => cases h
  case h_3 hdr s₁ hhdr =>
  obtain ⟨hfour, hsplit⟩ := recvExact_ok hhdr
  cases fs with
  | nil =>
    -- no header can come out of an empty stream
    rw [hs, wire, List.flatMap_nil, List.append_eq_nil_iff] at hsplit
    rw [hsplit.1] at hfour
    cases hfour
  | cons f rest =>
    rw [hs, wire_cons] at hsplit
    obtain ⟨hhead, htail⟩ := List.append_inj hsplit (hfour.trans (length_le32 _).symm)
    rw [hhead, read32_le32, f.length_field] at h
    dsimp only at h
    split at h
    case isTrue => cases h
    case isFalse =>
    obtain ⟨hlen, hbody⟩ := recvExact_ok h
    rw [htail] at hbody
    obtain ⟨hm, hrest⟩ := List.append_inj hbody hlen
    exact ⟨f, rest, rfl, hm, hrest⟩

-- ==== the connection

/-- A connection, seen from the receiver: what is unread, and the
messages handed on so far, oldest first. -/
structure Conn where
  unread : List UInt8
  delivered : List (List UInt8) := []
  opened : Bool := true
  deriving DecidableEq

/-- One `frame_recv` on an open connection. A timeout keeps the
connection, every other error ends it; `keeps` says whether a message
gets past the receiver. -/
def Conn.receive (c : Conn) (keeps : Bool) (script : List Recv) : Option Conn :=
  if c.opened then
    match frameRecv AMBA_VIRT_MAX_MSG ⟨c.unread, script⟩ with
    | none => none
    | some (.ok m, s) =>
      some { c with unread := s.unread
                    delivered :=
                      if keeps then c.delivered ++ [m] else c.delivered }
    | some (.error e, s) =>
      some { c with unread := s.unread, opened := decide (e = .ETIMEDOUT) }
  else none

/-- A turn of the loop of `conn_rx_worker`. The message goes to the
server's queue; its allocation succeeds. -/
def Conn.connRxWorker (c : Conn) (script : List Recv) : Option Conn :=
  c.receive true script

/-- The RECV call of a guest, which has a buffer of `AMBA_VIRT_MAX_MSG`
bytes; `copied` is whether `copy_to_user` succeeds. -/
def Conn.ioctlRecv (c : Conn) (script : List Recv) (copied : Bool) : Option Conn :=
  c.receive copied script

inductive Event
  | worker (script : List Recv)
  | recv (script : List Recv) (copied : Bool)
  deriving DecidableEq

def Event.script : Event → List Recv
  | .worker script => script
  | .recv script _ => script

def Event.keeps : Event → Bool
  | .worker _ => true
  | .recv _ copied => copied

def Conn.exec (c : Conn) : Event → Option Conn
  | .worker script => c.connRxWorker script
  | .recv script copied => c.ioctlRecv script copied

theorem Conn.exec_eq (c : Conn) (e : Event) : c.exec e = c.receive e.keeps e.script := by
  cases e <;> rfl

/-- A connection over which the peer sends the frames `sent`. -/
def system (sent : List Frame) : System Conn Event where
  init c := c = { unread := wire sent }
  step c e c' := c.exec e = some c'

-- ==== in step

def Recv.TimesOut (r : Recv) : Prop := r = .failed .EAGAIN ∨ r = .failed .ETIMEDOUT
  deriving Decidable

/-- A timeout strikes before the first byte of the call or not at all, and
a message is handed on. -/
def Calm (_ : Conn) (e : Event) : Prop :=
  e.keeps = true ∧ ∀ r ∈ e.script.tail, ¬ r.TimesOut
  deriving Decidable

/-- Without a timeout the loop does not time out. -/
theorem recvLoop_not_timeout {len : Nat} {script : List Recv} {s : Sock}
    {done unread : List UInt8} (hscript : ∀ r ∈ script, ¬ r.TimesOut) :
    recvLoop len done unread script ≠ some (.error .ETIMEDOUT, s) := by
  induction script generalizing done unread with
  | nil =>
    intro h
    cases (Option.ite_none_left_eq_some.mp h).2
  | cons r rest ih =>
    obtain ⟨hr, hrest⟩ := List.forall_mem_cons.mp hscript
    intro h
    unfold recvLoop at h
    split at h
    case isFalse => cases h
    case isTrue =>
    split at h
    case h_2 => cases h
    case h_3 => exact ih hrest h
    case h_1 e he =>
    cases r with
    | got | closed => cases he
    | failed e =>
      cases he
      simp only [Option.some.injEq, Prod.mk.injEq, Except.error.injEq] at h
      have heq := h.1
      split at heq
      case isTrue hagain => exact hr (.inl (congrArg Recv.failed hagain))
      case isFalse => exact hr (.inr (congrArg Recv.failed heq))

/-- The arrivals a loop leaves are the last of those it found. -/
theorem recvLoop_suffix {len : Nat} {script : List Recv} {bs : List UInt8} {s : Sock}
    {done unread : List UInt8} (h : recvLoop len done unread script = some (.ok bs, s)) :
    s.arrivals <:+ script := by
  induction script generalizing done unread with
  | nil =>
    cases (Option.ite_none_left_eq_some.mp h).2
    exact List.suffix_refl _
  | cons r rest ih =>
    unfold recvLoop at h
    split at h
    case isFalse =>
      cases h
      exact List.suffix_refl _
    case isTrue =>
    split at h
    case h_1 => cases h
    case h_2 => cases h
    case h_3 => exact (ih h).trans (List.suffix_cons _ _)

/-- A call of which only the first arrival may be a timeout: if it times
out it has read nothing, and what it leaves to arrive is without one. -/
theorem recvExact_calm {len : Nat} {s s' : Sock} (hlen : 0 < len)
    (hcalm : ∀ r ∈ s.arrivals.tail, ¬ r.TimesOut) :
    (recvExact s len = some (.error .ETIMEDOUT, s') → s'.unread = s.unread) ∧
      ∀ bs, recvExact s len = some (.ok bs, s') → ∀ r ∈ s'.arrivals, ¬ r.TimesOut := by
  obtain ⟨unread, script⟩ := s
  unfold recvExact
  cases script with
  | nil => simp [recvLoop, hlen]
  | cons r rest =>
    unfold recvLoop
    dsimp only [List.length_nil]
    rw [if_pos hlen]
    cases r.bytes unread (len - 0) with
    | error e =>
      refine ⟨fun h => ?_, nofun⟩
      rw [← (Prod.mk.inj (Option.some.inj h)).2]
    | ok bs =>
      cases bs with
      | nil => exact ⟨nofun, nofun⟩
      | cons b bs =>
        refine ⟨fun h => absurd h (recvLoop_not_timeout hcalm), fun _ h r hr => ?_⟩
        exact hcalm r ((recvLoop_suffix h).subset hr)

/-- A calm call that times out has read nothing. -/
theorem frameRecv_timeout {cap : Nat} {s s' : Sock} (hcalm : ∀ r ∈ s.arrivals.tail, ¬ r.TimesOut)
    (h : frameRecv cap s = some (.error .ETIMEDOUT, s')) : s'.unread = s.unread := by
  unfold frameRecv at h
  split at h
  case h_1 => cases h
  case h_2 e s₁ hhdr =>
    cases h
    exact (recvExact_calm (by decide) hcalm).1 hhdr
  case h_3 hdr s₁ hhdr =>
    dsimp only at h
    split at h
    case isTrue => cases h
    case isFalse =>
    exact absurd h (recvLoop_not_timeout ((recvExact_calm (by decide) hcalm).2 hdr hhdr))

/-- The first `k` frames are delivered, and an open connection is at the
start of the next one. -/
structure InStep (sent : List Frame) (c : Conn) (k : Nat) : Prop where
  delivered : c.delivered = (sent.take k).map Frame.bytes
  boundary : c.opened = true → c.unread = wire (sent.drop k)

theorem InStep.receive {sent : List Frame} {c c' : Conn} {k : Nat} {e : Event}
    (h : InStep sent c k) (hcalm : Calm c e)
    (hstep : c.receive e.keeps e.script = some c') :
    ∃ k', InStep sent c' k' := by
  obtain ⟨hopen, hstep⟩ := Option.ite_none_right_eq_some.mp hstep
  have hunread := h.boundary hopen
  cases hrun : frameRecv AMBA_VIRT_MAX_MSG ⟨c.unread, e.script⟩ with
  | none =>
    rw [hrun] at hstep
    cases hstep
  | some r =>
    obtain ⟨result, s⟩ := r
    rw [hrun] at hstep
    cases result with
    | error err =>
      cases hstep
      refine ⟨k, h.delivered, ?_⟩
      intro hstill
      obtain rfl := of_decide_eq_true hstill
      exact (frameRecv_timeout hcalm.2 hrun).trans hunread
    | ok m =>
      cases hstep
      obtain ⟨f, rest, hdrop, rfl, hrest⟩ := frameRecv_ok hunread hrun
      refine ⟨k + 1, ?_, ?_⟩
      · rw [if_pos hcalm.1, h.delivered, List.take_add, hdrop]
        simp
      · intro _
        rw [hrest, ← List.drop_drop, hdrop]
        rfl

/-- Vsock framing is lossless along every run in which each timeout
strikes between two frames: what the receiver has delivered is a prefix
of what was sent, and while the connection is open the next header is
read at the start of a frame. -/
theorem framing_lossless {sent : List Frame} {c : Conn}
    (h : ((system sent).restrict Calm).Reachable c) :
    c.delivered <+: sent.map Frame.bytes ∧
      (c.opened = true → ∃ k, c.unread = wire (sent.drop k)) := by
  have hinv : ∃ k, InStep sent c k := by
    refine h.induct (I := fun c => ∃ k, InStep sent c k) ?_ ?_
    · rintro _ rfl
      exact ⟨0, rfl, fun _ => rfl⟩
    intro c e c' _ ⟨k, hk⟩ ⟨hcalm, hstep⟩
    change c.exec e = some c' at hstep
    rw [c.exec_eq] at hstep
    exact hk.receive hcalm hstep
  obtain ⟨k, hk⟩ := hinv
  refine ⟨?_, fun hopen => ⟨k, hk.boundary hopen⟩⟩
  rw [hk.delivered]
  exact (List.take_prefix k sent).map Frame.bytes

-- ==== samples

def sampleFrame : Frame := ⟨[1, 0, 0, 0, 7], by decide, by decide⟩

/-- The frame arrives byte by byte, after a timeout in which nothing
did. -/
theorem framing_lossless_sample : ∃ c, ((system [sampleFrame]).restrict Calm).Reachable c ∧
      c.delivered = [[1, 0, 0, 0, 7]] ∧
      c.delivered <+: [sampleFrame].map Frame.bytes := by
  obtain ⟨c, hc, hd⟩ := System.Reachable.exists_exec (M := (system [sampleFrame]).restrict Calm)
    (f := fun c e => if Calm c e then c.exec e else none)
    (fun _ _ _ => Option.ite_none_right_eq_some.mp)
    (l := [.worker [.failed .EAGAIN], .worker (List.replicate 9 (.got 0))])
    (p := fun c => c.delivered = [[1, 0, 0, 0, 7]]) (.init rfl) (by decide)
  exact ⟨c, hc, hd, (framing_lossless hc).1⟩

/-- A message was delivered that was not the first one sent. -/
def Torn (c : Conn) : Prop := c.delivered = [[7]] ∧ c.opened = true

instance : DecidablePred Torn := fun _ => inferInstanceAs (Decidable (_ ∧ _))

/-- The host's worker, or the guest's RECV, gets the header and times
out. The next call takes the first four bytes of the payload for a
header and delivers the fifth as a message. -/
theorem torn_frame : (∃ c, (system [sampleFrame]).Reachable c ∧ Torn c ∧
      ¬ c.delivered <+: [sampleFrame].map Frame.bytes) ∧
    ∃ c, (system [sampleFrame]).Reachable c ∧ Torn c ∧
      ¬ c.delivered <+: [sampleFrame].map Frame.bytes := by
  have hnot : ∀ c : Conn, Torn c → ¬ c.delivered <+: [sampleFrame].map Frame.bytes := by
    intro c hc
    rw [hc.1]
    decide
  constructor
  · obtain ⟨c, hc, htorn⟩ := System.Reachable.exists_exec
      (M := system [sampleFrame]) (fun _ _ _ => id)
      (l := [.worker [.got 3, .failed .EAGAIN], .worker [.got 3, .got 0]])
      (p := Torn) (.init rfl) (by decide)
    exact ⟨c, hc, htorn, hnot c htorn⟩
  · obtain ⟨c, hc, htorn⟩ := System.Reachable.exists_exec
      (M := system [sampleFrame]) (fun _ _ _ => id)
      (l := [.recv [.got 3, .failed .EAGAIN] true, .recv [.got 3, .got 0] true])
      (p := Torn) (.init rfl) (by decide)
    exact ⟨c, hc, htorn, hnot c htorn⟩

end AmbaVirt.Vsock
