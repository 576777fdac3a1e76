/-
IMG_GET_MISC_INFO, the one ioctl whose argument holds user pointers
(tools/iav_policy.c, `check_misc_info` and `post_misc_info`).

The guest sends presence flags where the structure has its pointers, and
the three arrays they stand for in a trailer after it. The check points
the fields at the arrays of the broker's own copy of that trailer, or
leaves them NULL (`PointersOk`).

The address of the buffer is in the three fields and nowhere else, and
the post hook turns them into flags again. So two runs that differ in
that address alone have buffers that agree outside the fields and have
the same pointers NULL (`SamePointers`), a driver that does not use an
address as data keeps that (`Oblivious`), and the replies are equal.
-/
import AmbaVirt.Iav.Ioctl

namespace AmbaVirt.Iav

open Lib

-- ==== the pointers

/-- What the driver finds in the three fields, with the buffer at `addr`
and the trailer at `size`: NULL or the array of its own, and sixteen
entries through it are in the trailer, which is in the buffer. -/
structure PointersOk (addr : UInt64) (size : Nat) (r : MiscPtrs) (b : Mem) :
    Prop where
  own : ∀ a ∈ r.arrays, read64 b a.field = 0 ∨
    (read64 b a.field).toNat = addr.toNat + size + a.array
  inside : ∀ a ∈ r.arrays, read64 b a.field ≠ 0 → ∀ j < AMBA_VIRT_IAV_INLINE_MISC_CHANS * a.entry,
      addr.toNat + size ≤ (read64 b a.field).toNat + j ∧
      (read64 b a.field).toNat + j < addr.toNat + size + inlineMiscSize
  fits : size + inlineMiscSize ≤ AMBA_VIRT_MAX_MSG

def MiscPtrs.Holds (r : MiscPtrs) (i : Nat) : Prop :=
  ∃ a ∈ r.arrays, i ∈ (⟨a.field, 8⟩ : Span).bytes

/-- Two buffers that differ in their pointers at most, and have the same
of them NULL. -/
structure SamePointers (r : MiscPtrs) (b b' : Mem) : Prop where
  null : ∀ a ∈ r.arrays, read64 b a.field = 0 ↔ read64 b' a.field = 0
  rest : ∀ i, ¬ r.Holds i → b i = b' i

/-- The stores of `check_misc_info` and `post_misc_info`: a value for each
field. -/
def MiscPtrs.store (r : MiscPtrs) (m : Mem) (query valid extra : UInt64) :
    Mem :=
  write64 (write64 (write64 m r.query query) r.valid valid) r.extra extra

namespace MiscPtrs

variable {r : MiscPtrs} {m m' : Mem} {query valid extra : UInt64} {i : Nat}

theorem store_query : read64 (r.store m query valid extra) r.query = query := by
  have hv := r.queryValid
  have he := r.queryExtra
  unfold Span.Apart at hv he
  rw [store, read64_write64_apart he, read64_write64_apart hv, read64_write64]

theorem store_valid : read64 (r.store m query valid extra) r.valid = valid := by
  have he := r.validExtra
  unfold Span.Apart at he
  rw [store, read64_write64_apart he, read64_write64]

theorem store_extra : read64 (r.store m query valid extra) r.extra = extra := by
  rw [store, read64_write64]

theorem not_holds (h : ¬ r.Holds i) :
    (i < r.query ∨ r.query + 8 ≤ i) ∧ (i < r.valid ∨ r.valid + 8 ≤ i) ∧
      (i < r.extra ∨ r.extra + 8 ≤ i) := by
  have happ : ∀ a ∈ r.arrays, i < a.field ∨ a.field + 8 ≤ i := by
    intro a ha
    exact Span.not_mem_bytes.mp fun hi => h ⟨a, ha, hi⟩
  simp only [arrays, List.forall_mem_cons] at happ
  exact ⟨happ.1, happ.2.1, happ.2.2.1⟩

theorem store_apart (h : ¬ r.Holds i) : r.store m query valid extra i = m i := by
  obtain ⟨hq, hv, he⟩ := not_holds h
  rw [store, write64_apart he, write64_apart hv, write64_apart hq]

theorem store_congr (h : ¬ r.Holds i → m i = m' i) :
    r.store m query valid extra i = r.store m' query valid extra i := by
  by_cases hi : r.Holds i
  · obtain ⟨a, ha, hmem⟩ := hi
    obtain ⟨h₁, h₂⟩ := hmem
    simp only [arrays, List.mem_cons, List.not_mem_nil, or_false] at ha
    unfold store write64
    rcases ha with rfl | rfl | rfl <;> grind
  · rw [store_apart hi, store_apart hi, h hi]

end MiscPtrs

-- ==== the check

section Check

variable {r : MiscPtrs} {c : CheckCall} {t : Nat} {addr flag : UInt64} {o : Nat}

/-- The trailer as the check leaves it: the flags past `count` and both
output arrays are clear. -/
def trailerCleared (m : Mem) (t : Nat) : Mem :=
  clear (clear (clear m (t + (read32 m (t + 544)).toNat) (t + 16))
    (t + 16) (t + 32)) (t + 32) (t + 544)

def pointerFor (addr : UInt64) (flag : UInt64) (o : Nat) : UInt64 :=
  if flag = 0 then 0 else addr + UInt64.ofNat o

/-- The check, without a look at where the buffer is. -/
def MiscPtrs.Accepts (r : MiscPtrs) (m : Mem) (t : Nat) : Prop :=
  ¬ (read64 m r.query > 1 ∨ read64 m r.valid > 1 ∨ read64 m r.extra > 1 ∨ read32 m (t + 548) ≠ 0 ∨
    (read32 m (t + 544)).toNat > AMBA_VIRT_IAV_INLINE_MISC_CHANS)
  deriving Decidable

theorem MiscPtrs.check_eq (ht : c.inlineBuf = some t) : r.check c = if r.Accepts c.arg t then
      .ok (r.store (trailerCleared c.arg t) (pointerFor c.addr (read64 c.arg r.query) t)
        (pointerFor c.addr (read64 c.arg r.valid) (t + 16))
        (pointerFor c.addr (read64 c.arg r.extra) (t + 32)))
    else .error .EINVAL := by
  unfold MiscPtrs.check
  rw [ht]
  by_cases hacc : r.Accepts c.arg t
  · rw [if_pos hacc]
    dsimp only [require, bind, Except.bind]
    rw [refuseIf_neg hacc]
    rfl
  · rw [if_neg hacc]
    dsimp only [require, bind, Except.bind]
    rw [refuseIf_pos (not_not.mp hacc)]

theorem pointerFor_toNat (hflag : flag ≠ 0)
    (hfit : addr.toNat + o < 2 ^ 64) :
    (pointerFor addr flag o).toNat = addr.toNat + o := by
  have ho : (UInt64.ofNat o).toNat = o :=
    UInt64.toNat_ofNat_of_lt' (by show o < 2 ^ 64; omega)
  rw [pointerFor, if_neg hflag, toNat_add_exact (by rw [ho]; exact hfit), ho]

/-- A pointer into the buffer is not NULL: the argument before the trailer
is not empty. -/
theorem pointerFor_eq_zero (ho : 0 < o)
    (hfit : addr.toNat + o < 2 ^ 64) :
    pointerFor addr flag o = 0 ↔ flag = 0 := by
  constructor
  · intro hz
    by_contra hflag
    have hnat := pointerFor_toNat hflag hfit
    rw [hz] at hnat
    have : (0 : UInt64).toNat = 0 := rfl
    omega
  · intro hflag
    exact if_pos hflag

variable (hpos : 0 < t) (hfit : t + inlineMiscSize ≤ AMBA_VIRT_MAX_MSG)
include hpos hfit

theorem MiscPtrs.check_pointers (ht : c.inlineBuf = some t)
    (haddr : c.addr.toNat + AMBA_VIRT_MAX_MSG ≤ 2 ^ 64) {b : Mem}
    (h : r.check c = .ok b) : PointersOk c.addr t r b := by
  have hsize : inlineMiscSize = 552 := rfl
  have hown : ∀ a ∈ r.arrays, read64 b a.field = 0 ∨
      (read64 b a.field).toNat = c.addr.toNat + t + a.array := by
    have hptr : ∀ flag : UInt64, ∀ o, o ≤ 32 → pointerFor c.addr flag (t + o) = 0 ∨
          (pointerFor c.addr flag (t + o)).toNat = c.addr.toNat + t + o := by
      intro flag o ho
      by_cases hflag : flag = 0
      · exact .inl (if_pos hflag)
      · right
        rw [pointerFor_toNat hflag (by omega)]
        omega
    rw [check_eq ht] at h
    split at h
    · cases h
      simp only [arrays, List.forall_mem_cons, List.not_mem_nil,
        IsEmpty.forall_iff, implies_true, and_true]
      rw [store_query, store_valid, store_extra]
      exact ⟨hptr _ 0 (by omega), hptr _ 16 (by omega), hptr _ 32 (by omega)⟩
    · cases h
  refine ⟨hown, ?_, hfit⟩
  intro a ha hne j hj
  have hin : a.array + AMBA_VIRT_IAV_INLINE_MISC_CHANS * a.entry ≤ inlineMiscSize := by
    simp only [arrays, List.mem_cons, List.not_mem_nil, or_false] at ha
    rcases ha with rfl | rfl | rfl <;>
      simp [inlineMiscSize, AMBA_VIRT_IAV_INLINE_MISC_CHANS, AMBA_VIRT_IAV_INLINE_MISC_EXTRA_BYTES]
  rcases hown a ha with hz | hp
  · exact absurd hz hne
  · omega

theorem MiscPtrs.check_addr (ht : c.inlineBuf = some t)
    (haddr : c.addr.toNat + AMBA_VIRT_MAX_MSG ≤ 2 ^ 64)
    (haddr' : addr.toNat + AMBA_VIRT_MAX_MSG ≤ 2 ^ 64) :
    Agree (SamePointers r) (r.check c) (r.check { c with addr := addr }) := by
  have hsize : inlineMiscSize = 552 := rfl
  rw [check_eq ht, check_eq (c := { c with addr := addr }) ht]
  split
  · refine .ok ⟨?_, ?_⟩
    · have hnull : ∀ flag : UInt64, ∀ o, o ≤ 32 → (pointerFor c.addr flag (t + o) = 0 ↔
            pointerFor addr flag (t + o) = 0) := by
        intro flag o ho
        rw [pointerFor_eq_zero (by omega) (by omega), pointerFor_eq_zero (by omega) (by omega)]
      simp only [arrays, List.forall_mem_cons, List.not_mem_nil,
        IsEmpty.forall_iff, implies_true, and_true]
      rw [store_query, store_valid, store_extra, store_query, store_valid, store_extra]
      exact ⟨hnull _ 0 (by omega), hnull _ 16 (by omega), hnull _ 32 (by omega)⟩
    · intro i hi
      rw [store_apart hi, store_apart hi]
  · exact .error _

end Check

-- ==== the reply

/-- The post hook leaves nothing of what the pointers were. -/
theorem SamePointers.post {r : MiscPtrs} {b b' : Mem} (h : SamePointers r b b') :
    (Post.miscInfo r).run b = (Post.miscInfo r).run b' := by
  have hflag : ∀ a ∈ r.arrays, flagOf (read64 b a.field) = flagOf (read64 b' a.field) := by
    intro a ha
    exact if_congr (h.null a ha) rfl rfl
  simp only [MiscPtrs.arrays, List.forall_mem_cons] at hflag
  obtain ⟨hq, hv, he, -⟩ := hflag
  funext i
  show r.store b _ _ _ i = r.store b' _ _ _ i
  rw [hq, hv, he]
  exact MiscPtrs.store_congr (h.rest i)

/-- A driver, as a function of the buffer's address and contents. -/
abbrev Driver := UInt64 → Mem → DriverRun

/-- A driver that does not use the buffer's address as data: buffers that
differ in their pointers at most, it leaves so, and returns the same. -/
def Oblivious (r : MiscPtrs) (drv : Driver) : Prop :=
  ∀ addr addr' b b', SamePointers r b b' → (drv addr b).rc = (drv addr' b').rc ∧
    (drv addr b).errno = (drv addr' b').errno ∧
    SamePointers r (drv addr b).buf (drv addr' b').buf

/-- The answer to a request, with a driver: a refusal, or the reply. -/
def IoctlOp.respond (k : IoctlOp) (v : IoctlView) (q : IavReq) (m : Mem)
    (drv : Driver) : Except Errno Resp :=
  ((k.run v q).value m).map fun p => p.reply (drv v.addr p.buf)

def IoctlView.relocated (v : IoctlView) (addr : UInt64)
    (h : addr.toNat + AMBA_VIRT_MAX_MSG ≤ 2 ^ 64) : IoctlView :=
  { v with addr := addr, addrFits := h }

section Row

variable {v : IoctlView} {q : IavReq} {m : Mem} {e : PolicyEntry}
  {r : MiscPtrs} (htable : v.table q.cmd = some e)
  (hcheck : e.check = .miscInfo r) {x : Option ArenaXlat} {o n : Nat}

/-- A call that got to its check: the trailer follows the argument, and
nothing was translated. -/
theorem ready_misc {cmd : UInt32}
    {s : IoctlView.Ready} (hcheck : s.entry.check = .miscInfo r)
    (h : (v.ready cmd o n x).value m = .ok s) :
    (v.checkCall s).inlineBuf = some s.entry.size ∧ 0 < s.entry.size ∧
      s.entry.size + inlineMiscSize ≤ AMBA_VIRT_MAX_MSG ∧
      v.wireSizeFor s.entry = s.entry.size ∧ s.stage.layout = none := by
  obtain ⟨-, hfill, hstage⟩ := IoctlView.ready_ok h
  obtain ⟨hkind, hinl, -⟩ := s.entry.misc r hcheck
  have hsize := IoctlView.wireSizeFor_of_wire (v := v) (s.entry.inlinedWire hinl)
  have hlen : IoctlView.inlineLen s.entry = inlineMiscSize :=
    if_pos ⟨hkind, hinl⟩
  have hfilled := IoctlView.fillArg_ptr hkind hfill
  have hpos := hfilled.pos
  have hfits := hfilled.fits
  rw [hsize] at hpos hfits
  rw [hlen] at hfits
  have hout : AMBA_VIRT_IAV_MAX_OUT ≤ AMBA_VIRT_MAX_MSG := by decide
  refine ⟨?_, hpos, hfits.trans hout, hsize, ?_⟩
  · show (if IoctlView.inlineLen s.entry ≠ 0 then _ else _) = _
    rw [hlen, hsize]
    rfl
  have hx : x = none := by
    cases x with
    | none => rfl
    | some x => cases IoctlView.fillArg_inlined hkind hinl hfill
  subst hx
  have hs := Except.ok.inj hstage
  rw [← hs]

/-- A call issued twice, with the buffer in two places. -/
structure Relocated (r : MiscPtrs) (p p' : Issued) : Prop where
  entry : p.entry = p'.entry
  size : p.size = p'.size
  inlineLen : p.inlineLen = p'.inlineLen
  pointers : SamePointers r p.buf p'.buf
  post : p.entry.post = .miscInfo r
  header : p.size = p.entry.size
  arena : p.arena = none ∧ p'.arena = none

theorem Relocated.reply {p p' : Issued} (h : Relocated r p p')
    {d d' : DriverRun} (hrc : d.rc = d'.rc) (herrno : d.errno = d'.errno)
    (hbuf : SamePointers r d.buf d'.buf) : p.reply d = p'.reply d' := by
  refine Issued.reply_congr hrc herrno h.entry h.size h.inlineLen ?_
  intro _
  have hdrop : ∀ b, IoctlView.dropUnaudited p.entry p.size b = b := by
    intro b
    unfold IoctlView.dropUnaudited
    rw [if_neg]
    have := h.header
    omega
  unfold Issued.finish
  rw [← h.entry, ← h.size, hdrop, hdrop, h.arena.1, h.arena.2, h.post]
  exact hbuf.post

-- Nothing up to the check looks at the address, and the check gets it as
-- one field of the call.

section Fields

variable {addr : UInt64} (haddr : addr.toNat + AMBA_VIRT_MAX_MSG ≤ 2 ^ 64)

theorem relocated_view : (v.relocated addr haddr).toBrokerView = v.toBrokerView := rfl

theorem relocated_size : (v.relocated addr haddr).wireSizeFor = v.wireSizeFor := by
  unfold IoctlView.wireSizeFor
  rw [relocated_view]

theorem relocated_fill : (v.relocated addr haddr).fillArg = v.fillArg := by
  unfold IoctlView.fillArg
  rw [relocated_size, relocated_view]

theorem relocated_table : (v.relocated addr haddr).table = v.table := rfl

theorem relocated_ready : (v.relocated addr haddr).ready = v.ready := by
  unfold IoctlView.ready
  rw [relocated_size, relocated_view, relocated_fill, relocated_table]

theorem relocated_checkCall (s : IoctlView.Ready) : (v.relocated addr haddr).checkCall s
      = { v.checkCall s with addr := addr } := by
  unfold IoctlView.checkCall
  rfl

theorem relocated_beginJob : (v.relocated addr haddr).beginJob = v.beginJob := by
  unfold IoctlView.beginJob
  rw [relocated_view]

theorem relocated_issue : (v.relocated addr haddr).issue = v.issue := by
  unfold IoctlView.issue
  rw [relocated_size]

end Fields

theorem doIoctl_relocated {argValue : UInt64}
    (haddr : addr.toNat + AMBA_VIRT_MAX_MSG ≤ 2 ^ 64)
    (htable : v.table q.cmd = some e) (hcheck : e.check = .miscInfo r) :
    Agree (Relocated r) ((v.doIoctl q.cmd argValue o n x).value m)
      (((v.relocated addr haddr).doIoctl q.cmd argValue o n x).value m) := by
  unfold IoctlView.doIoctl
  simp only [Reader.value_bind, Reader.value_lift, Reader.value_pure]
  rw [relocated_ready, relocated_beginJob, relocated_issue]
  refine Agree.bind_same ?_
  intro s hs
  obtain ⟨hrow, -, -⟩ := IoctlView.ready_ok hs
  rw [htable] at hrow
  obtain rfl := Option.some.inj hrow
  obtain ⟨hin, hpos, hfit, hsize, hlayout⟩ := ready_misc hcheck hs
  have hrun : ∀ c, s.entry.check.run c = r.check c := by
    intro c
    rw [hcheck]
    rfl
  rw [hrun, hrun, relocated_checkCall]
  refine Agree.bind (MiscPtrs.check_addr hpos hfit hin v.addrFits haddr) ?_
  intro b b' _ hb
  refine Agree.bind_same ?_
  intro _ _
  exact .ok ⟨rfl, rfl, rfl, hb, (s.entry.misc r hcheck).2.2, hsize, hlayout, hlayout⟩

theorem run_relocated (haddr : addr.toNat + AMBA_VIRT_MAX_MSG ≤ 2 ^ 64)
    (htable : v.table q.cmd = some e) (hcheck : e.check = .miscInfo r)
    (k : IoctlOp) :
    Agree (Relocated r) ((k.run v q).value m) ((k.run (v.relocated addr haddr) q).value m) := by
  cases k with
  | ioctl => exact doIoctl_relocated haddr htable hcheck
  | slice =>
    simp only [IoctlOp.run, IoctlView.opSlice, Reader.value_bind,
      Reader.value_lift, Reader.value_fetch]
    refine Agree.bind_same fun _ _ => Agree.bind_same fun _ _ =>
      Agree.bind_same fun _ _ => Agree.bind_same fun _ _ =>
      Agree.bind_same fun _ _ => ?_
    exact doIoctl_relocated haddr htable hcheck
  | arena =>
    simp only [IoctlOp.run, IoctlView.opArena, Reader.value_bind,
      Reader.value_lift, Reader.value_fetch]
    refine Agree.bind_same fun _ _ => Agree.bind_same fun _ _ =>
      Agree.bind_same fun _ _ => Agree.bind_same fun _ _ =>
      Agree.bind_same fun _ _ => Agree.bind_same fun _ _ => ?_
    exact doIoctl_relocated haddr htable hcheck

end Row

-- ==== marshalling

/-- IMG_GET_MISC_INFO, for any request: the pointers the driver gets, and
that the reply does not depend on where the broker's buffer is. -/
theorem misc_info_marshalled {v : IoctlView} {q : IavReq} {e : PolicyEntry}
    {r : MiscPtrs} (htable : v.table q.cmd = some e)
    (hcheck : e.check = .miscInfo r) (k : IoctlOp) (m : Mem) :
    (∀ p, (k.run v q).value m = .ok p → PointersOk v.addr p.size r p.buf) ∧
    ∀ drv, Oblivious r drv → ∀ addr haddr,
      k.respond (v.relocated addr haddr) q m drv = k.respond v q m drv := by
  refine ⟨?_, ?_⟩
  · intro p hp
    obtain ⟨x, hdo, -⟩ := IoctlOp.run_ok hp
    unfold IoctlView.doIoctl at hdo
    simp only [Reader.value_bind, Reader.value_lift, Reader.value_pure, bind_ok,
      exists_unit] at hdo
    obtain ⟨s, hs, b, hb, -, hp⟩ := hdo
    cases hp
    obtain ⟨hrow, -, -⟩ := IoctlView.ready_ok hs
    rw [htable] at hrow
    obtain rfl := Option.some.inj hrow
    obtain ⟨hin, hpos, hfit, hsize, -⟩ := ready_misc hcheck hs
    rw [hcheck] at hb
    show PointersOk v.addr (v.wireSizeFor s.entry) r b
    rw [hsize]
    exact MiscPtrs.check_pointers hpos hfit hin v.addrFits hb
  · intro drv hdrv addr haddr
    symm
    refine (run_relocated haddr htable hcheck k).map_eq ?_
    intro p p' hpp
    obtain ⟨hrc, herrno, hbuf⟩ := hdrv v.addr addr p.buf p'.buf hpp.pointers
    exact hpp.reply hrc herrno hbuf

def sampleMiscPtrs : MiscPtrs where
  query := 40
  valid := 48
  extra := 56
  queryValid := by decide
  queryExtra := by decide
  validExtra := by decide

def sampleMiscEntry : PolicyEntry where
  kind := .ptr
  dirR := true
  dirW := true
  size := 64
  wire := 0
  window := false
  audited := false
  inlined := true
  profiles := fun r => r != .consumer
  check := .miscInfo sampleMiscPtrs
  post := .miscInfo sampleMiscPtrs
  arena := none
  checkFits := by simp [Check.Fits, MiscPtrs.arrays, sampleMiscPtrs]
  postFits := by simp [Post.Fits, MiscPtrs.arrays, sampleMiscPtrs]
  inlinedWire := fun _ => rfl
  misc := by
    intro p hp
    cases hp
    exact ⟨rfl, rfl, rfl⟩
  arenaShape := fun _ h => nomatch h

def sampleMiscReq : IavReq where
  proto := 1
  op := 3
  handle := 1
  cmd := 0
  argLen := 64 + 552
  argValue := 0
  arg2 := 0

/-- Buffers for `query_extra_raw` and `extra_raw_valid`, none for
`extra_raw`, on four channels. -/
def sampleMiscMsg : Mem :=
  write32 (write64 (write64 (fun _ => 0) (40 + 40) 1) (40 + 48) 1) (40 + 64 + 544) 4

/-- A driver that marks the four channels valid, if it has the array for
it. -/
def sampleMiscDriver : Driver := fun _ b =>
  ⟨0, 0, if read64 b 48 = 0 then b else fun i => if 80 ≤ i ∧ i < 84 then 1 else b i⟩

theorem oblivious_sampleMiscDriver : Oblivious sampleMiscPtrs sampleMiscDriver := by
  intro addr addr' b b' h
  refine ⟨rfl, rfl, ?_⟩
  have hnull : read64 b 48 = 0 ↔ read64 b' 48 = 0 := h.null ⟨48, 16, 1⟩ (by simp [
    MiscPtrs.arrays, sampleMiscPtrs])
  have hfield : ∀ m : Mem, ∀ a ∈ sampleMiscPtrs.arrays,
      read64 (fun i => if 80 ≤ i ∧ i < 84 then 1 else m i) a.field = read64 m a.field := by
    intro m a ha
    simp only [MiscPtrs.arrays, sampleMiscPtrs, List.mem_cons, List.not_mem_nil, or_false] at ha
    refine read64_congr fun k hk => if_neg ?_
    rcases ha with rfl | rfl | rfl <;> dsimp only <;> omega
  dsimp only [sampleMiscDriver]
  by_cases h0 : read64 b 48 = 0
  · rw [if_pos h0, if_pos (hnull.mp h0)]
    exact h
  · rw [if_neg h0, if_neg (mt hnull.mpr h0)]
    refine ⟨fun a ha => ?_, fun i hi => if_congr Iff.rfl rfl (h.rest i hi)⟩
    rw [hfield b a ha, hfield b' a ha]
    exact h.null a ha

/-- The driver gets two pointers into the trailer; the reply has the entries
it wrote and flags for the pointers, wherever the buffer is. -/
theorem misc_info_marshalled_query :
    let v := sampleIoctlView sampleMiscEntry AMBA_VIRT_IAV_F_INLINE
    ∃ p r, (IoctlOp.ioctl.run v sampleMiscReq).value sampleMiscMsg = .ok p ∧
      (read64 p.buf 40 = 0x7040 ∧ read64 p.buf 48 = 0x7050 ∧ read64 p.buf 56 = 0) ∧
      PointersOk v.addr p.size sampleMiscPtrs p.buf ∧
      (read32 r.out 80 = 0x01010101 ∧ read64 r.out 48 = 1) ∧
      ∀ addr haddr, IoctlOp.ioctl.respond (v.relocated addr haddr)
        sampleMiscReq sampleMiscMsg sampleMiscDriver = .ok r := by
  intro v
  obtain ⟨p, hp, hptr⟩ : ∃ p, (IoctlOp.ioctl.run v sampleMiscReq).value
      sampleMiscMsg = .ok p ∧ (read64 p.buf 40 = 0x7040 ∧
        read64 p.buf 48 = 0x7050 ∧ read64 p.buf 56 = 0) :=
    exists_ok_of_any (by decide)
  obtain ⟨r, hr, hout⟩ : ∃ r, IoctlOp.ioctl.respond v sampleMiscReq sampleMiscMsg
      sampleMiscDriver = .ok r ∧ (read32 r.out 80 = 0x01010101 ∧ read64 r.out 48 = 1) :=
    exists_ok_of_any (by decide)
  have hmisc := misc_info_marshalled (v := v) (q := sampleMiscReq)
    (e := sampleMiscEntry) (r := sampleMiscPtrs) rfl rfl .ioctl sampleMiscMsg
  refine ⟨p, r, hp, hptr, hmisc.1 p hp, hout, fun addr haddr => ?_⟩
  rw [hmisc.2 _ oblivious_sampleMiscDriver addr haddr]
  exact hr

end AmbaVirt.Iav
