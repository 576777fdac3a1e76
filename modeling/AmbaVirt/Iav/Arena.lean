/-
OP_ARENA (tools/iav_broker.c): an ioctl whose buffers name blocks of the
caller's arena, its own slice of the pinned pool partition.

Admission (`ArenaReq.arenaAdmit`) confines each declared block to the slice,
translation (`ArenaXlat.translate`) rewrites the buffers that name a
block and records the block in the buffer's slot, and the policy check
(`Call.check`) bounds what the hardware touches by the slot. No stage is
enough alone: `arena_confined` needs that the slot of a buffer holds the
block this very buffer named, and that a buffer naming the pool
partition outright has no slot.

Translation adds offsets in 64 bits. The block's own ends do not wrap
because the slices of a `GuestPool` do not.
-/
import AmbaVirt.Iav.Policy

namespace AmbaVirt.Iav

open Lib Function

-- ==== the pool

def PAGE_BYTES : UInt64 := 4096
def AMBA_VIRT_IAV_ARENA_ALIGN : UInt64 := 0x10000
def AMBA_VIRT_IAV_F_ARENA : UInt64 := 0x10

/-- `AMBA_VIRT_IAV_MAX_ARG` and `_MAX_OUT`, which are the same number. -/
def AMBA_VIRT_IAV_MAX_ARG : Nat := 4040

/-- `sizeof(struct amba_virt_iav_arena_req)`. -/
def arenaReqSize : Nat := 56

/-- `struct virt_iav_guest_pool`: equal slices, none of which wraps. -/
structure GuestPool where
  partitionId : UInt32
  sliceCount : UInt32
  sliceBytes : UInt64
  fits : sliceCount.toNat * sliceBytes.toNat < 2 ^ 64

/-- `apply_guest_pool`, the one place that sets the broker's pool. -/
def applyGuestPool (partitionId : UInt32) : GuestPool where
  partitionId
  sliceCount := 8
  sliceBytes := 0x4000000
  fits := by decide

/-- The arena of slice `index`: the slice less its claim page. -/
def GuestPool.arena (p : GuestPool) (index : UInt32) : Span :=
  ⟨index.toNat * p.sliceBytes.toNat, p.sliceBytes.toNat - PAGE_BYTES.toNat⟩

-- ==== admission

/-- `struct amba_virt_iav_arena_blk`. -/
structure ArenaBlk where
  vid : UInt32 := 0
  reserved : UInt32 := 0
  offset : UInt64 := 0
  length : UInt64 := 0
  deriving DecidableEq

/-- `struct amba_virt_iav_arena_req`. -/
structure ArenaReq where
  count : UInt32
  reserved : UInt32 := 0
  blk : Fin 2 → ArenaBlk

/-- `is_anon_id`. -/
def IsAnonId (id : UInt32) : Prop := id &&& 0xff = 0xff ∧ id >>> 8 ≠ 0
  deriving Decidable

/-- One round of `arena_admit`. -/
def ArenaReq.admitBlk (h : ArenaReq) (usable : UInt64) (k : Fin 2) : Except Errno Unit :=
  let bk := h.blk k
  if k.val ≥ h.count.toNat then refuseIf (bk ≠ {}) .EINVAL
  else do
    refuseIf (bk.reserved ≠ 0 ∨ ¬ IsAnonId bk.vid) .EINVAL
    refuseIf (bk.length = 0 ∨ bk.offset % AMBA_VIRT_IAV_ARENA_ALIGN ≠ 0 ∨
      bk.length % PAGE_BYTES ≠ 0) .EINVAL
    refuseIf (bk.offset ≥ usable ∨ bk.length > usable - bk.offset) .EPERM
    checkAll ((List.finRange 2).filter (· < k)) fun j => do
      refuseIf ((h.blk j).vid = bk.vid) .EINVAL
      refuseIf (bk.offset < (h.blk j).offset + (h.blk j).length ∧
        (h.blk j).offset < bk.offset + bk.length) .EINVAL

/-- `arena_admit`. -/
def ArenaReq.arenaAdmit (h : ArenaReq) (usable : UInt64) : Except Errno Unit := do
  refuseIf (h.reserved ≠ 0 ∨ h.count = 0 ∨ h.count > 2) .EINVAL
  checkAll (List.finRange 2) (h.admitBlk usable)

theorem admit_blk {h : ArenaReq} {usable : UInt64}
    (hok : h.arenaAdmit usable = .ok ()) {k : Fin 2} (hk : k.val < h.count.toNat) :
    (h.blk k).offset.toNat + (h.blk k).length.toNat ≤ usable.toNat := by
  simp only [ArenaReq.arenaAdmit, guards, checkAll_ok]
    at hok
  have hblk := hok.2 k (List.mem_finRange k)
  rw [ArenaReq.admitBlk, if_neg (Nat.not_le.mpr hk)] at hblk
  simp only [guards] at hblk
  obtain ⟨-, -, hin, -⟩ := hblk
  obtain ⟨hoff, hlen⟩ := not_or.mp hin
  have hoff := UInt64.not_le.mp hoff
  have hlen := UInt64.not_lt.mp hlen
  rw [UInt64.le_iff_toNat_le, UInt64.toNat_sub_of_le _ _ (UInt64.le_of_lt hoff)] at hlen
  have hoff := UInt64.lt_iff_toNat_lt.mp hoff
  omega

-- ==== translation

/-- `struct arena_xlat`. -/
structure ArenaXlat where
  pid : UInt32
  index : UInt32
  sliceOff : UInt64
  count : UInt32
  blk : Fin 2 → ArenaBlk

/-- What the translation records: the block of each slot, and the blocks
that were named. -/
structure Moved where
  slots : Fin 2 → Option ArenaSlot := fun _ => none
  used : List (Fin 2) := []

namespace ArenaXlat

/-- `arena_blk_of`. -/
def blkOf (x : ArenaXlat) (vid : UInt32) : Option (Fin 2) :=
  Fin.find? fun k => decide (k.val < x.count.toNat) && (x.blk k).vid == vid

def base (x : ArenaXlat) (k : Fin 2) : UInt64 := x.sliceOff + (x.blk k).offset

/-- The checks of `arena_field`: the block a buffer names, if its offsets
lie in it. -/
def field (x : ArenaXlat) (pid : UInt32) (offs : List UInt64) : Except Errno (Fin 2) := do
  let k ← require (x.blkOf pid) .EINVAL
  refuseIf (∃ o ∈ offs, o > (x.blk k).length) .EINVAL
  return k

/-- The record `arena_field` keeps of a translated buffer. -/
def take (x : ArenaXlat) (m : Moved) (slot k : Fin 2) : Moved where
  slots := update m.slots slot (some ⟨x.base k, (x.blk k).length⟩)
  used := k :: m.used

/-- One buffer of SET_IMG_SCALE. The UV offset moves if the format has a
UV plane. -/
def moveScaleBuf (x : ArenaXlat) (slot : Fin 2) (hasUv : Bool)
    (b : ScaleBufInfo) (m : Moved) : Except Errno (ScaleBufInfo × Moved) :=
  if b.usePhys = true ∨ b.useDmaBufFd = true ∨ ¬ IsAnonId b.pid then
    .ok (b, m)
  else do
    let k ← x.field b.pid (if hasUv then [b.yOffset, b.uvOffset] else [b.yOffset])
    return ({ b with
      pid := x.pid
      yOffset := b.yOffset + x.base k
      uvOffset := if hasUv then b.uvOffset + x.base k else b.uvOffset },
      x.take m slot k)

/-- A buffer with one offset: a side of GDMA_COPY, or the range of
SYNC_CACHE_MEM_PART. -/
def moveBuf (x : ArenaXlat) (slot : Fin 2) (direct : Bool) (pid : UInt32)
    (off : UInt64) (m : Moved) : Except Errno ((UInt32 × UInt64) × Moved) :=
  if direct = true ∨ ¬ IsAnonId pid then .ok ((pid, off), m)
  else do
    let k ← x.field pid [off]
    return ((x.pid, off + x.base k), x.take m slot k)

/-- The buffers of `arena_translate`. -/
def move (x : ArenaXlat) : Arg → Except Errno (Arg × Moved)
  | .imgScale s => do
      let i ← x.moveScaleBuf 0 (s.format ≠ .yuv400) s.inputBuf {}
      let o ← x.moveScaleBuf 1 (s.outFormat ≠ .yuv400) s.outputBuf i.2
      return (.imgScale { s with inputBuf := i.1, outputBuf := o.1 }, o.2)
  | .gdmaCopy g => do
      let i ← x.moveBuf 0 (g.srcUsePhys || g.srcUseDmaBufFd) g.srcMmapType g.srcOffset {}
      let o ← x.moveBuf 1 (g.dstUsePhys || g.dstUseDmaBufFd) g.dstMmapType g.dstOffset i.2
      return (.gdmaCopy { g with
        srcMmapType := i.1.1, srcOffset := i.1.2
        dstMmapType := o.1.1, dstOffset := o.1.2 }, o.2)
  | .syncCache c => do
      let i ← x.moveBuf 0 false c.pid c.offset {}
      return (.syncCache { c with pid := i.1.1, offset := i.1.2 }, i.2)

/-- `arena_translate`: every declared block must have been named. -/
def translate (x : ArenaXlat) (a : Arg) : Except Errno (Arg × Moved) := do
  let r ← x.move a
  refuseIf (∃ k : Fin 2, k.val < x.count.toNat ∧ k ∉ r.2.used) .EINVAL
  return r

end ArenaXlat

-- ==== the call

/-- `enum iav_profile`. -/
inductive Profile
  | consumer | qualification | primary
  deriving DecidableEq

/-- An OP_ARENA message: its length, the header and the ioctl. `none` is
any ioctl but the three. -/
structure ArenaMsg where
  argLen : Nat
  header : ArenaReq
  call : Option Arg

/-- What the broker knows or asks while it serves the message: what the
guest negotiated, its profile, the pool, the caller's slice when the
message is admitted and again before the driver runs, the windows (id
and length) and aperture entries, the session lookup, and the hook that
counts the job in flight (`none` if there is none). -/
structure BrokerView where
  helloDone : Bool
  features : UInt64
  profile : Profile
  pool : Option GuestPool
  sliceOf : Option UInt32
  sliceOfAgain : Option UInt32
  stale : Bool
  windows : List (UInt32 × UInt64)
  aperture : List (UInt32 × UInt64)
  session : Except Errno Unit
  arenaBegin : Option Bool

/-- The length of the last window with this id. -/
def BrokerView.windowLen (v : BrokerView) (id : UInt32) : UInt64 :=
  v.windows.foldl (fun len w => if w.1 = id then w.2 else len) 0

def Arg.size (h : Header) : Arg → Nat
  | .imgScale _ => h.imgScaleSize
  | .gdmaCopy _ => h.gdmaCopySize
  | .syncCache _ => h.syncCacheSize

/-- `arena_slice`. -/
def BrokerView.arenaSlice (v : BrokerView) : Option (GuestPool × UInt32) := do
  let pool ← v.pool
  guard (pool.sliceBytes > PAGE_BYTES ∧ pool.sliceCount ≠ 0 ∧ pool.partitionId ≠ 0)
  let index ← v.sliceOf
  guard (index < pool.sliceCount)
  return (pool, index)

open Errno in
/-- `do_ioctl` for an arena call, up to the driver: the argument the
driver gets. The rows of all three ioctls take a pointer argument the
guest writes, need the primary or the qualification profile and use
windows. -/
def BrokerView.doIoctl (v : BrokerView) (h : Header) (argLen : Nat) (a : Arg)
    (x : ArenaXlat) : Except Errno Arg := do
  refuseIf (v.profile = .consumer) .EPERM
  refuseIf (a.size h = 0 ∨ a.size h > AMBA_VIRT_IAV_MAX_ARG) .EMSGSIZE
  refuseIf (argLen ≠ a.size h) .EMSGSIZE
  refuseIf (v.stale = true) EIO
  let r ← x.translate a
  let call : Call :=
    { decLen := v.windowLen 2, ovlLen := v.windowLen 3
      dspLen := v.windowLen 0, bsbLen := v.windowLen 1
      arenaPid := x.pid, arena := r.2.slots, aux := v.aperture }
  v.session
  call.check h r.1
  refuseIf (v.arenaBegin = some false) .EPERM
  refuseIf (v.arenaBegin.isSome ∧ v.sliceOfAgain ≠ some x.index) .EPERM
  return r.1

/-- The translation `op_arena` sets up. -/
def ArenaReq.xlat (h : ArenaReq) (p : GuestPool) (index : UInt32) : ArenaXlat where
  pid := p.partitionId
  index
  sliceOff := index.toUInt64 * p.sliceBytes
  count := h.count
  blk := h.blk

/-- `op_arena`, up to the driver. -/
def BrokerView.opArena (v : BrokerView) (h : Header) (q : ArenaMsg) : Except Errno Arg := do
  refuseIf (q.argLen < arenaReqSize) .EMSGSIZE
  refuseIf (¬ v.helloDone ∨ v.features &&& AMBA_VIRT_IAV_F_ARENA = 0) .EPERM
  refuseIf (v.profile = .consumer) .EPERM
  let a ← require q.call .EPERM
  let s ← require v.arenaSlice .EPERM
  q.header.arenaAdmit (s.1.sliceBytes - PAGE_BYTES)
  v.doIoctl h (q.argLen - arenaReqSize) a (q.header.xlat s.1 s.2)

-- ==== what translation leaves

/-- A buffer before and after: untouched and without a slot, or naming a
declared block, moved to the pool and with that block in its slot. -/
structure ArenaXlat.Moves (x : ArenaXlat) (m : Moved) (b b' : Buf) : Prop where
  slot : b'.slot = b.slot
  cases : (b'.pid = b.pid ∧ m.slots b.slot = none) ∨
    ∃ k : Fin 2, k.val < x.count.toNat ∧ (x.blk k).vid = b.pid ∧
      m.slots b.slot = some ⟨x.base k, (x.blk k).length⟩

variable {x : ArenaXlat} {pid pid' : UInt32} {slot : Fin 2} {m m' : Moved}

theorem field_ok {offs : List UInt64}
    {k : Fin 2} (h : x.field pid offs = .ok k) :
    k.val < x.count.toNat ∧ (x.blk k).vid = pid := by
  simp only [ArenaXlat.field, guards, pure_ok] at h
  obtain ⟨j, hj, -, rfl⟩ := h
  have := Fin.eq_true_of_find?_eq_some hj
  rw [Bool.and_eq_true, decide_eq_true_eq, beq_iff_eq] at this
  exact this

/-- What either kind of buffer does to the record: nothing, or it takes
its slot. -/
theorem moveScaleBuf_ok {uv : Bool}
    {b b' : ScaleBufInfo}
    (h : x.moveScaleBuf slot uv b m = .ok (b', m')) :
    (b'.pid = b.pid ∧ m' = m) ∨ ∃ k : Fin 2, k.val < x.count.toNat ∧ (x.blk k).vid = b.pid ∧
        m' = x.take m slot k := by
  unfold ArenaXlat.moveScaleBuf at h
  split at h
  · cases h
    exact .inl ⟨rfl, rfl⟩
  obtain ⟨k, hk, h⟩ := bind_ok.mp h
  cases h
  obtain ⟨hcount, hvid⟩ := field_ok hk
  exact .inr ⟨k, hcount, hvid, rfl⟩

theorem moveBuf_ok {direct : Bool} {off off' : UInt64}
    (h : x.moveBuf slot direct pid off m = .ok ((pid', off'), m')) :
    (pid' = pid ∧ m' = m) ∨ ∃ k : Fin 2, k.val < x.count.toNat ∧ (x.blk k).vid = pid ∧
        m' = x.take m slot k := by
  unfold ArenaXlat.moveBuf at h
  split at h
  · cases h
    exact .inl ⟨rfl, rfl⟩
  obtain ⟨k, hk, h⟩ := bind_ok.mp h
  cases h
  obtain ⟨hcount, hvid⟩ := field_ok hk
  exact .inr ⟨k, hcount, hvid, rfl⟩

section Slots

variable {b b' : Buf} {index : UInt32}

/-- A buffer whose own step left `m'` is moved in it, if its slot was
free before. -/
theorem moves_of_step (hslot : b'.slot = b.slot) (hfree : m.slots b.slot = none)
    (h : (b'.pid = b.pid ∧ m' = m) ∨ ∃ k : Fin 2, k.val < x.count.toNat ∧ (x.blk k).vid = b.pid ∧
        m' = x.take m b.slot k) : x.Moves m' b b' := by
  rcases h with ⟨hpid, rfl⟩ | ⟨k, hk, hvid, rfl⟩
  · exact ⟨hslot, .inl ⟨hpid, hfree⟩⟩
  · exact ⟨hslot, .inr ⟨k, hk, hvid, update_self _ _ _⟩⟩

/-- The step of another buffer leaves a slot alone. -/
theorem slots_of_step {other : Fin 2} (hne : slot ≠ other)
    (h : (pid' = pid ∧ m' = m) ∨ ∃ k : Fin 2, k.val < x.count.toNat ∧ (x.blk k).vid = pid ∧
        m' = x.take m other k) : m'.slots slot = m.slots slot := by
  rcases h with ⟨-, rfl⟩ | ⟨k, -, -, rfl⟩
  · rfl
  · exact update_of_ne hne _ _

theorem ArenaXlat.Moves.congr (h : x.Moves m b b')
    (hslots : m'.slots b.slot = m.slots b.slot) : x.Moves m' b b' :=
  ⟨h.slot, by rw [hslots]; exact h.cases⟩

end Slots

theorem move_bufs {a a' : Arg}
    (h : x.move a = .ok (a', m)) : List.Forall₂ (x.Moves m) a.bufs a'.bufs := by
  cases a with
  | imgScale s =>
    obtain ⟨⟨bi, mi⟩, hi, h⟩ := bind_ok.mp h
    obtain ⟨⟨bo, mo⟩, ho, h⟩ := bind_ok.mp h
    cases h
    have hi := moveScaleBuf_ok hi
    have ho := moveScaleBuf_ok ho
    have hslot0 := slots_of_step (show (0 : Fin 2) ≠ 1 by decide) ho
    have hslot1 := slots_of_step (show (1 : Fin 2) ≠ 0 by decide) hi
    refine .cons ?_ (.cons ?_ .nil)
    · refine ArenaXlat.Moves.congr ?_ hslot0
      exact moves_of_step rfl rfl hi
    · exact moves_of_step rfl hslot1 ho
  | gdmaCopy g =>
    obtain ⟨⟨⟨pi, oi⟩, mi⟩, hi, h⟩ := bind_ok.mp h
    obtain ⟨⟨⟨po, oo⟩, mo⟩, ho, h⟩ := bind_ok.mp h
    rw [pure_ok] at h
    cases h
    have hi := moveBuf_ok hi
    have ho := moveBuf_ok ho
    have hslot0 := slots_of_step (show (0 : Fin 2) ≠ 1 by decide) ho
    have hslot1 := slots_of_step (show (1 : Fin 2) ≠ 0 by decide) hi
    refine .cons ?_ (.cons ?_ .nil)
    · refine ArenaXlat.Moves.congr ?_ hslot0
      exact moves_of_step rfl rfl hi
    · exact moves_of_step rfl hslot1 ho
  | syncCache c =>
    obtain ⟨⟨⟨pi, oi⟩, mi⟩, hi, h⟩ := bind_ok.mp h
    cases h
    exact .cons (moves_of_step rfl rfl (moveBuf_ok hi)) .nil

-- ==== confinement

def GuestPool.block (p : GuestPool) (index : UInt32) (bk : ArenaBlk) : Span :=
  ⟨index.toNat * p.sliceBytes.toNat + bk.offset.toNat, bk.length.toNat⟩

/-- What holds of a buffer as the guest sent it (`b`) and as the driver
gets it (`b'`): it names a partition, and if that is the pool, the guest
named a declared block, which lies in its arena, and the hardware stays
in the block. -/
structure ArenaConfined (p : GuestPool) (index : UInt32) (h : ArenaReq)
    (b b' : Buf) : Prop where
  named : b'.direct = false
  pool : b'.pid = p.partitionId → ∃ k : Fin 2, k.val < h.count.toNat ∧ (h.blk k).vid = b.pid ∧
    (∀ s ∈ b'.spans, s.bytes ⊆ (p.block index (h.blk k)).bytes) ∧
    (p.block index (h.blk k)).Within (p.arena index)

theorem arenaSlice_ok {v : BrokerView} {p : GuestPool}
    (h : v.arenaSlice = some (p, index)) :
    v.pool = some p ∧ v.sliceOf = some index ∧ p.sliceBytes > PAGE_BYTES ∧ p.partitionId ≠ 0 ∧
      index < p.sliceCount := by
  simp only [BrokerView.arenaSlice, bind, Option.bind_eq_some_iff, pure,
    Option.guard_eq_some', exists_const, Option.some.injEq,
    Prod.mk.injEq] at h
  obtain ⟨p, hp, hguard, i, hi, hlt, rfl, rfl⟩ := h
  exact ⟨hp, hi, hguard.1, hguard.2.2, hlt⟩

theorem GuestPool.slice_end (p : GuestPool) (h : index < p.sliceCount) :
    index.toNat * p.sliceBytes.toNat + p.sliceBytes.toNat < 2 ^ 64 := by
  have hfits := p.fits
  have hmul : (index.toNat + 1) * p.sliceBytes.toNat ≤ p.sliceCount.toNat * p.sliceBytes.toNat :=
    Nat.mul_le_mul_right _ (UInt32.lt_iff_toNat_lt.mp h)
  rw [Nat.add_mul, Nat.one_mul] at hmul
  omega

section Block

variable {p : GuestPool} {index : UInt32} {h : ArenaReq} {k : Fin 2}
  (hpage : p.sliceBytes > PAGE_BYTES)
  (hadm : h.arenaAdmit (p.sliceBytes - PAGE_BYTES) = .ok ())
include hpage hadm

theorem block_within (hk : k.val < h.count.toNat) :
    (p.block index (h.blk k)).Within (p.arena index) := by
  have hblk := admit_blk hadm hk
  rw [UInt64.toNat_sub_of_le _ _ (UInt64.le_of_lt hpage)] at hblk
  unfold GuestPool.block GuestPool.arena
  constructor <;> dsimp only <;> omega

theorem block_exact (hindex : index < p.sliceCount) (hk : k.val < h.count.toNat) :
    ((h.xlat p index).base k).toNat = (p.block index (h.blk k)).lo ∧
      ((h.xlat p index).base k + (h.blk k).length).toNat
        = (p.block index (h.blk k)).lo + (p.block index (h.blk k)).len := by
  have hblk := admit_blk hadm hk
  rw [UInt64.toNat_sub_of_le _ _ (UInt64.le_of_lt hpage)] at hblk
  have hend := p.slice_end hindex
  have hslice : (index.toUInt64 * p.sliceBytes).toNat = index.toNat * p.sliceBytes.toNat := by
    rw [UInt64.toNat_mul, UInt32.toNat_toUInt64, Nat.mod_eq_of_lt]
    omega
  have hbase : ((h.xlat p index).base k).toNat = (p.block index (h.blk k)).lo := by
    show (index.toUInt64 * p.sliceBytes + (h.blk k).offset).toNat = _
    rw [toNat_add_exact (by rw [hslice]; omega), hslice]
    rfl
  refine ⟨hbase, ?_⟩
  have hlo : (p.block index (h.blk k)).lo
      = index.toNat * p.sliceBytes.toNat + (h.blk k).offset.toNat := rfl
  rw [toNat_add_exact (by rw [hbase, hlo]; omega), hbase]
  rfl

/-- The three stages together, for one buffer. -/
theorem confined_of_moves {c : Call} {b b' : Buf}
    (hindex : index < p.sliceCount) (hpid : p.partitionId ≠ 0)
    (hm : (h.xlat p index).Moves m b b') (hc : c.Admits b')
    (harena : c.arena = m.slots) (hcpid : c.arenaPid = p.partitionId) :
    ArenaConfined p index h b b' := by
  refine ⟨hc.named, ?_⟩
  intro hname
  rw [← hcpid] at hname hpid
  obtain ⟨s, hs, hspans⟩ := hc.arena hpid hname
  rw [hm.slot, harena] at hs
  rcases hm.cases with ⟨-, hnone⟩ | ⟨k, hk, hvid, hsome⟩
  · -- a buffer that was not translated has no slot
    rw [hnone] at hs
    cases hs
  obtain rfl := Option.some.inj (hsome.symm.trans hs)
  obtain ⟨hlo, hhi⟩ := block_exact hpage hadm hindex hk
  refine ⟨k, hk, hvid, ?_, block_within hpage hadm hk⟩
  intro s hs y hy
  obtain ⟨h₁, h₂⟩ := hspans s hs y hy
  exact ⟨hlo ▸ h₁, hhi ▸ h₂⟩

end Block

/-- OP_ARENA confinement: whatever the guest sends, if the driver is
called, each buffer of the call is confined. -/
theorem arena_confined {v : BrokerView} {h : Header} {q : ArenaMsg}
    {a' : Arg} (hok : v.opArena h q = .ok a') :
    ∃ p index a, v.pool = some p ∧ v.sliceOf = some index ∧ index < p.sliceCount ∧ q.call = some a ∧
      List.Forall₂ (ArenaConfined p index q.header) a.bufs a'.bufs := by
  simp only [BrokerView.opArena, guards] at hok
  obtain ⟨-, -, -, a, ha, ⟨p, index⟩, hslice, hadm, hok⟩ := hok
  obtain ⟨hpool, hsliceOf, hpage, hpid, hindex⟩ := arenaSlice_ok hslice
  simp only [BrokerView.doIoctl, ArenaXlat.translate, guards, pure_ok] at hok
  obtain ⟨-, -, -, -, r, ⟨⟨a', m⟩, hmove, -, rfl⟩, -, hcheck, -, -, rfl⟩ := hok
  have hadmAll := check_admits hcheck
  obtain ⟨hlen, hmoves⟩ := List.forall₂_iff_zip.mp (move_bufs hmove)
  refine ⟨p, index, a, hpool, hsliceOf, hindex, ha, ?_⟩
  rw [List.forall₂_iff_zip]
  refine ⟨hlen, ?_⟩
  intro b b' hbb
  exact confined_of_moves hpage hadm hindex hpid (hmoves hbb)
    (hadmAll b' (List.of_mem_zip hbb).2) rfl rfl

/-- The guest on slice 4 copies the first half of its block over the
second. -/
def sampleArenaMsg : ArenaMsg where
  argLen := 56 + 64
  header := { count := 1, blk := ![⟨0x1ff, 0, 0x20000, 0x10000⟩, {}] }
  call := some (.gdmaCopy
    { srcUsePhys := false, dstUsePhys := false
      srcUseDmaBufFd := false, dstUseDmaBufFd := false
      srcMmapType := 0x1ff, dstMmapType := 0x1ff
      srcOffset := 0, dstOffset := 0x8000
      srcPitch := 0x100, dstPitch := 0x100
      width := 0x100, height := 0x80 })

def sampleBrokerView : BrokerView where
  helloDone := true
  features := AMBA_VIRT_IAV_F_ARENA
  profile := .primary
  pool := some (applyGuestPool 0x2ff)
  sliceOf := some 4
  sliceOfAgain := some 4
  stale := false
  windows := []
  aperture := []
  session := .ok ()
  arenaBegin := some true

def sampleHeader : Header where
  partDsp := 1
  partBsb := 2
  partDecBsb := 3
  partOverlay := 4
  imgScaleSize := 256
  gdmaCopySize := 64
  syncCacheSize := 32

/-- The copy reaches the driver in the pool partition, confined. -/
theorem arena_confined_gdma : ∃ a a', sampleArenaMsg.call = some a ∧
      sampleBrokerView.opArena sampleHeader sampleArenaMsg = .ok a' ∧
      a'.bufs.map Buf.pid = [0x2ff, 0x2ff] ∧
      List.Forall₂ (ArenaConfined (applyGuestPool 0x2ff) 4
        sampleArenaMsg.header) a.bufs a'.bufs := by
  obtain ⟨a', ha', hpids⟩ : ∃ a', sampleBrokerView.opArena sampleHeader sampleArenaMsg = .ok a' ∧
        a'.bufs.map Buf.pid = [0x2ff, 0x2ff] :=
    exists_ok_of_any (by decide)
  obtain ⟨p, index, a, hp, hi, -, ha, hall⟩ := arena_confined ha'
  obtain rfl := Option.some.inj hp
  obtain rfl := Option.some.inj hi
  exact ⟨a, a', ha, ha', hpids, hall⟩

end AmbaVirt.Iav
