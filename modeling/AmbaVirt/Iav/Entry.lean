/-
The rows of the broker's ioctl table (tools/iav_ioctl_table.inc) with
what the allow-list adds to them (tools/iav_policy.c), as far as
`do_ioctl` uses them.

A check may refuse, and three of them write: QUERY_DESC bounds its wait,
WAIT_PLAYBACK_EOS replaces a zero timeout, and IMG_GET_MISC_INFO turns
presence flags into pointers. All others only judge, and a row takes what
they decide as a parameter. A post hook clears fields of the output, or
turns the pointers into flags again.

Offsets are those of the external iav_ioctl.h. A row carries them with
the proof that they lie in the structure its header names.
-/
import AmbaVirt.Iav.Arena
import AmbaVirt.Lib.Bytes

namespace AmbaVirt.Iav

open Lib

-- ==== inline marshalling

def AMBA_VIRT_IAV_INLINE_MISC_CHANS : Nat := 16
def AMBA_VIRT_IAV_INLINE_MISC_EXTRA_BYTES : Nat := 32

/-- `sizeof(struct amba_virt_iav_inline_misc)`: the arrays `query`, `valid`
and `extra`, then `count` and `reserved`. -/
def inlineMiscSize : Nat := 552

/-- Where `struct img_misc_info` has its three pointers. -/
structure MiscPtrs where
  query : Nat
  valid : Nat
  extra : Nat
  queryValid : (⟨query, 8⟩ : Span).Apart ⟨valid, 8⟩
  queryExtra : (⟨query, 8⟩ : Span).Apart ⟨extra, 8⟩
  validExtra : (⟨valid, 8⟩ : Span).Apart ⟨extra, 8⟩

/-- A pointer field, the array of the trailer it belongs to and the bytes
of an entry. -/
structure MiscArray where
  field : Nat
  array : Nat
  entry : Nat

def MiscPtrs.arrays (p : MiscPtrs) : List MiscArray :=
  [⟨p.query, 0, 1⟩, ⟨p.valid, 16, 1⟩, ⟨p.extra, 32, AMBA_VIRT_IAV_INLINE_MISC_EXTRA_BYTES⟩]

-- ==== checks

/-- The descriptor of a QUERY_DESC; a `Bool` says whether it asks for a
dma-buf. -/
inductive Desc
  | canvas (dmaBuf : Bool)
  | pyramid (dmaBuf : Bool)
  | frame
  | other

inductive Check
  | none
  /-- A check that writes nothing, with what it decides. -/
  | judge (f : Call → Mem → Except Errno Unit)
  /-- `check_query_desc`, and where `arg.frame.time_ms` is. -/
  | queryDesc (desc : Mem → Desc) (timeMs : Nat)
  /-- `check_wait_eos`, and where `timeout_ticks` is. -/
  | waitEos (decoderOk : Mem → Bool) (ticks : Nat)
  /-- `check_misc_info`. -/
  | miscInfo (p : MiscPtrs)

/-- What a check sees: the call, the longest wait, the argument's buffer
and its address, and where in it the trailer starts, if there is one. -/
structure CheckCall where
  call : Call
  blockMaxMs : UInt32
  arg : Mem
  addr : UInt64
  inlineBuf : Option Nat

/-- `check_misc_info`. -/
def MiscPtrs.check (p : MiscPtrs) (c : CheckCall) : Except Errno Mem := do
  let t ← require c.inlineBuf .EPERM
  let query := read64 c.arg p.query
  let valid := read64 c.arg p.valid
  let extra := read64 c.arg p.extra
  let count := read32 c.arg (t + 544)
  refuseIf (query > 1 ∨ valid > 1 ∨ extra > 1 ∨ read32 c.arg (t + 548) ≠ 0 ∨
    count.toNat > AMBA_VIRT_IAV_INLINE_MISC_CHANS) .EINVAL
  let m := clear c.arg (t + count.toNat) (t + 16)
  let m := clear m (t + 16) (t + 32)
  let m := clear m (t + 32) (t + 544)
  let m := write64 m p.query (if query = 0 then 0 else c.addr + UInt64.ofNat t)
  let m := write64 m p.valid (if valid = 0 then 0 else c.addr + UInt64.ofNat (t + 16))
  return write64 m p.extra (if extra = 0 then 0 else c.addr + UInt64.ofNat (t + 32))

def Check.run (k : Check) (c : CheckCall) : Except Errno Mem :=
  match k with
  | .none => .ok c.arg
  | .judge f => do
      f c.call c.arg
      return c.arg
  | .queryDesc desc timeMs =>
    match desc c.arg with
    | .canvas dmaBuf | .pyramid dmaBuf => do
        refuseIf (dmaBuf = true) .EPERM
        return c.arg
    | .frame =>
      let t := read32 c.arg timeMs
      -- all ones is non-blocking and stays so; 0 means forever
      if t ≠ 0xffffffff ∧ (t = 0 ∨ t > c.blockMaxMs) then
        .ok (write32 c.arg timeMs c.blockMaxMs)
      else .ok c.arg
    | .other => .error .EPERM
  | .waitEos decoderOk ticks => do
      refuseIf (decoderOk c.arg = false) .EINVAL
      return if c.arg ticks = 0 then Function.update c.arg ticks 255 else c.arg
  | .miscInfo p => p.check c

-- ==== posts

inductive Post
  | none
  /-- `post_decode_status` and `post_isp_nn`: fields that are cleared. -/
  | zero (l : List Span)
  /-- `post_misc_info`. -/
  | miscInfo (p : MiscPtrs)

def flagOf (ptr : UInt64) : UInt64 := if ptr = 0 then 0 else 1

def Post.run : Post → Mem → Mem
  | .none, m => m
  | .zero l, m => l.foldl (fun m s => clear m s.lo (s.lo + s.len)) m
  | .miscInfo p, m =>
    write64 (write64 (write64 m p.query (flagOf (read64 m p.query)))
      p.valid (flagOf (read64 m p.valid)))
      p.extra (flagOf (read64 m p.extra))

-- ==== arena fields

/-- Where a `struct iav_scale_buf_info` has what OP_ARENA translates. -/
structure ScaleBufLayout where
  pid : Nat
  y : Nat
  uv : Nat

namespace ScaleBufLayout

def spans (l : ScaleBufLayout) : List Span := [⟨l.pid, 4⟩, ⟨l.y, 8⟩, ⟨l.uv, 8⟩]

def load (l : ScaleBufLayout) (m : Mem) (b : ScaleBufInfo) : ScaleBufInfo :=
  { b with
    pid := read32 m l.pid
    yOffset := read64 m l.y
    uvOffset := read64 m l.uv }

def store (l : ScaleBufLayout) (b : ScaleBufInfo) (m : Mem) : Mem :=
  write64 (write64 (write32 m l.pid b.pid) l.y b.yOffset) l.uv b.uvOffset

end ScaleBufLayout

/-- The structure of one of the three arena calls: where the fields
OP_ARENA translates are, and how the others are read. -/
inductive ArenaLayout
  | imgScale (rest : Mem → ImgScale) (input output : ScaleBufLayout)
  | gdmaCopy (rest : Mem → GdmaCopy) (srcType srcOff dstType dstOff : Nat)
  | syncCache (rest : Mem → SyncCacheMemPart) (pid off : Nat)

namespace ArenaLayout

def spans : ArenaLayout → List Span
  | .imgScale _ i o => i.spans ++ o.spans
  | .gdmaCopy _ st so dt d => [⟨st, 4⟩, ⟨so, 8⟩, ⟨dt, 4⟩, ⟨d, 8⟩]
  | .syncCache _ pid off => [⟨pid, 4⟩, ⟨off, 8⟩]

def decode : ArenaLayout → Mem → Arg
  | .imgScale rest i o, m => .imgScale { rest m with
      inputBuf := i.load m (rest m).inputBuf
      outputBuf := o.load m (rest m).outputBuf }
  | .gdmaCopy rest st so dt d, m => .gdmaCopy { rest m with
      srcMmapType := read32 m st
      srcOffset := read64 m so
      dstMmapType := read32 m dt
      dstOffset := read64 m d }
  | .syncCache rest pid off, m => .syncCache { rest m with
      pid := read32 m pid
      offset := read64 m off }

/-- The stores of `arena_translate`. A buffer that named no block is
stored back as it was. -/
def store : ArenaLayout → Arg → Mem → Mem
  | .imgScale _ i o, .imgScale s, m =>
    o.store s.outputBuf (i.store s.inputBuf m)
  | .gdmaCopy _ st so dt d, .gdmaCopy g, m =>
    write64 (write32 (write64 (write32 m st g.srcMmapType) so g.srcOffset)
      dt g.dstMmapType) d g.dstOffset
  | .syncCache _ pid off, .syncCache c, m =>
    write64 (write32 m pid c.pid) off c.offset
  | _, _, m => m

def IsScale : ArenaLayout → Prop
  | .imgScale .. => True
  | _ => False

/-- `arena_restore`: of the three, only SET_IMG_SCALE is read back. -/
def restore : ArenaLayout → Mem → Mem → Mem
  | .imgScale _ i o, m, orig =>
    (i.spans ++ o.spans).foldl (fun m s => copyAt m orig s.lo s.len) m
  | _, m, _ => m

end ArenaLayout

-- ==== the row

/-- `enum iav_arg_kind`. -/
inductive ArgKind
  | none | value | ptr
  deriving DecidableEq

/-- Every field a check writes lies in a structure of `n` bytes. -/
def Check.Fits (n : Nat) : Check → Prop
  | .none => True
  | .judge _ => True
  | .queryDesc _ timeMs => timeMs + 4 ≤ n
  | .waitEos _ ticks => ticks < n
  | .miscInfo p => ∀ a ∈ p.arrays, a.field + 8 ≤ n

def Post.Fits (n : Nat) : Post → Prop
  | .none => True
  | .zero l => ∀ s ∈ l, s.lo + s.len ≤ n
  | .miscInfo p => ∀ a ∈ p.arrays, a.field + 8 ≤ n

/-- `struct iav_policy_entry`. IMG_GET_MISC_INFO is the one row that is
marshalled inline; the three rows of the arena have no wire size and no
post hook, and of them only SET_IMG_SCALE returns its argument. -/
structure PolicyEntry where
  kind : ArgKind
  dirR : Bool
  dirW : Bool
  size : Nat
  wire : Nat
  window : Bool
  audited : Bool
  inlined : Bool
  profiles : Profile → Bool
  check : Check
  post : Post
  arena : Option ArenaLayout
  checkFits : check.Fits size
  postFits : post.Fits size
  inlinedWire : inlined = true → wire = 0
  misc : ∀ p, check = .miscInfo p → kind = .ptr ∧ inlined = true ∧ post = .miscInfo p
  arenaShape : ∀ l, arena = some l → wire = 0 ∧ post = .none ∧
    (dirR = true → l.IsScale) ∧ ∀ s ∈ l.spans, s.lo + s.len ≤ size

-- ==== which bytes are written

namespace Post

variable {k : Post} {m : Mem} {n i : Nat}

theorem run_past (hfits : k.Fits n) (hi : n ≤ i) : k.run m i = m i := by
  cases k with
  | none => rfl
  | zero l =>
    apply foldl_apart
    · intro m s hs
      exact clear_apart (Span.not_mem_bytes.mp hs)
    · intro s hs
      have hin := hfits s hs
      exact Span.not_mem_bytes.mpr (by omega)
  | miscInfo p =>
    simp only [Fits, MiscPtrs.arrays, List.forall_mem_cons] at hfits
    rw [run, write64_apart (by omega), write64_apart (by omega), write64_apart (by omega)]

end Post

end AmbaVirt.Iav
