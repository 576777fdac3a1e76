/-
What OP_IOCTL, OP_SLICE and OP_ARENA keep from the driver and from the
guest.

A guest that negotiated wire sizes sends more of an argument than the
ioctl's header names. Unless the row was audited, the broker clears what
is past the header size before the driver runs and before it replies,
and nothing in between puts it back (`Check.run_past`, `Post.run_past`,
`translate_past`).

What OP_ARENA translated is what `arena_restore` undoes. A reply is then
made of the guest's own bytes in those fields and of the driver's bytes
outside them (`finish_arena`). `reply_conceals` says this about two runs:
two brokers with any two pools answer the same, if their drivers do.
-/
import AmbaVirt.Iav.Ioctl

namespace AmbaVirt.Iav

open Lib

-- ==== writes of a stage

variable {m : Mem} {i : Nat} {t : IoctlView.Translated} {x : Option ArenaXlat} {l : ArenaLayout}
  {e : PolicyEntry}

theorem ScaleBufLayout.store_apart {l : ScaleBufLayout} {b : ScaleBufInfo}
    (h : ∀ s ∈ l.spans, i ∉ s.bytes) :
    l.store b m i = m i := by
  simp only [spans, List.forall_mem_cons, Span.not_mem_bytes] at h
  unfold store
  rw [write64_apart (by omega), write64_apart (by omega), write32_apart (by omega)]

theorem ArenaLayout.store_apart {a : Arg}
    (h : ∀ s ∈ l.spans, i ∉ s.bytes) : l.store a m i = m i := by
  cases l with
  | imgScale rest input output =>
    rw [spans, List.forall_mem_append] at h
    cases a with
    | imgScale s =>
      rw [store, ScaleBufLayout.store_apart h.2, ScaleBufLayout.store_apart h.1]
    | gdmaCopy g => rfl
    | syncCache c => rfl
  | gdmaCopy rest st so dt d =>
    simp only [spans, List.forall_mem_cons, Span.not_mem_bytes] at h
    cases a with
    | imgScale s => rfl
    | gdmaCopy g =>
      rw [store, write64_apart (by omega), write32_apart (by omega),
        write64_apart (by omega), write32_apart (by omega)]
    | syncCache c => rfl
  | syncCache rest pid off =>
    simp only [spans, List.forall_mem_cons, Span.not_mem_bytes] at h
    cases a with
    | imgScale s => rfl
    | gdmaCopy g => rfl
    | syncCache c =>
      rw [store, write64_apart (by omega), write32_apart (by omega)]

theorem IoctlView.translate_past {size : Nat}
    (h : IoctlView.translate e size x m = .ok t) (hi : e.size ≤ i) :
    t.buf i = m i := by
  cases x with
  | none =>
    cases h
    rfl
  | some x =>
    simp only [IoctlView.translate, guards, pure_ok] at h
    obtain ⟨-, l, hl, r, -, rfl⟩ := h
    apply ArenaLayout.store_apart
    intro s hs
    have hin := (e.arenaShape l hl).2.2.2 s hs
    exact Span.not_mem_bytes.mpr (by omega)

theorem Check.run_past {k : Check} {c : CheckCall} {n : Nat} (hfits : k.Fits n)
    (hmisc : ∀ p, k ≠ .miscInfo p) (h : k.run c = .ok m) (hi : n ≤ i) :
    m i = c.arg i := by
  cases k with
  | none =>
    cases h
    rfl
  | judge f =>
    simp only [run, bind_ok, exists_unit, pure_ok] at h
    rw [← h.2]
  | queryDesc desc timeMs =>
    have hfield : timeMs + 4 ≤ n := hfits
    unfold run at h
    dsimp only at h
    split at h
    · simp only [bind_ok, exists_unit, pure_ok] at h
      rw [← h.2]
    · simp only [bind_ok, exists_unit, pure_ok] at h
      rw [← h.2]
    · split at h
      · cases h
        exact write32_apart (by omega)
      · cases h
        rfl
    · cases h
  | waitEos decoderOk ticks =>
    have hfield : ticks < n := hfits
    simp only [run, bind_ok, exists_unit, pure_ok] at h
    rw [← h.2]
    split
    · exact Function.update_of_ne (by omega) _ _
    · rfl
  | miscInfo p => exact absurd rfl (hmisc p)

-- ==== what the driver sees

section Issued

variable {v : IoctlView} {o n : Nat} {p : Issued}

theorem orig_past (h : v.Issues e o n x m t p) (ha : e.audited = false)
    (hlo : e.size ≤ i) (hhi : i < p.size) : p.orig i = 0 := by
  by_cases hk : e.kind = .ptr
  · rw [h.size] at hhi
    exact (IoctlView.fillArg_ptr hk h.fill).past ha i hlo hhi
  · rw [IoctlView.fillArg_zero hk h.fill]

theorem buf_past (h : v.Issues e o n x m t p) (ha : e.audited = false)
    (hlo : e.size ≤ i) (hhi : i < p.size) : p.buf i = 0 := by
  have hmisc : ∀ r, e.check ≠ .miscInfo r := by
    intro r hr
    -- that row has no wire size, and no byte is past its header
    have hw := e.inlinedWire (e.misc r hr).2.1
    rw [h.size, IoctlView.wireSizeFor_of_wire hw] at hhi
    omega
  calc p.buf i = t.buf i := Check.run_past e.checkFits hmisc h.check hlo
    _ = p.orig i := IoctlView.translate_past h.stage hlo
    _ = 0 := orig_past h ha hlo hhi

-- ==== what the guest sees

variable {b orig : Mem}

theorem ArenaLayout.restore_apart (h : ∀ s ∈ l.spans, i ∉ s.bytes) : l.restore b orig i = b i := by
  cases l with
  | imgScale rest input output =>
    exact foldl_apart (fun m s => copyAt_not_mem) b h
  | gdmaCopy rest st so dt d => rfl
  | syncCache rest pid off => rfl

theorem ArenaLayout.restore_mem (hscale : l.IsScale)
    (h : ∃ s ∈ l.spans, i ∈ s.bytes) :
    l.restore b orig i = orig i := by
  cases l with
  | imgScale rest input output => exact foldl_copyAt_mem b h
  | gdmaCopy rest st so dt d => exact hscale.elim
  | syncCache rest pid off => exact hscale.elim

theorem Issues.layout (h : v.Issues e o n x m t p) (hl : p.arena = some l) : e.arena = some l := by
  rw [h.arena] at hl
  have hstage := h.stage
  cases x with
  | none =>
    cases hstage
    cases hl
  | some x =>
    simp only [IoctlView.translate, guards, pure_ok] at hstage
    obtain ⟨-, l', hl', r, -, rfl⟩ := hstage
    cases hl
    exact hl'

theorem finish_past (h : v.Issues e o n x m t p) (ha : e.audited = false)
    (b : Mem) (hlo : e.size ≤ i) (hhi : i < p.size) :
    p.finish b i = 0 := by
  have hdrop : e.post.run (IoctlView.dropUnaudited e p.size b) i = 0 := by
    rw [Post.run_past e.postFits hlo]
    exact IoctlView.dropUnaudited_past ha hlo hhi
  unfold Issued.finish
  rw [h.entry]
  cases hl : p.arena with
  | none => exact hdrop
  | some l =>
    dsimp only
    rw [ArenaLayout.restore_apart, hdrop]
    intro s hs
    have hin := (e.arenaShape l (Issues.layout h hl)).2.2.2 s hs
    exact Span.not_mem_bytes.mpr (by omega)

/-- What a translated call returns: the guest's bytes in the fields that
were translated, the driver's everywhere else. -/
theorem finish_arena (h : v.Issues e o n x m t p) (hl : p.arena = some l)
    (hscale : l.IsScale) (b : Mem) (i : Nat) :
    ((∃ s ∈ l.spans, i ∈ s.bytes) → p.finish b i = p.orig i) ∧ ((∀ s ∈ l.spans, i ∉ s.bytes) →
        p.finish b i = IoctlView.dropUnaudited e p.size b i) := by
  have hpost := (e.arenaShape l (Issues.layout h hl)).2.1
  unfold Issued.finish
  rw [h.entry, hl, hpost]
  exact ⟨ArenaLayout.restore_mem hscale, ArenaLayout.restore_apart⟩

end Issued

-- ==== two runs

section TwoRuns

variable {v v' : IoctlView} {o n : Nat} {x' : Option ArenaXlat}
  {t' : IoctlView.Translated} {p p' : Issued}

/-- What the guest negotiated decides the size of an argument and how it
is received; the pool does not. -/
theorem orig_eq (hdone : v'.helloDone = v.helloDone)
    (hfeat : v'.features = v.features) (hx : x'.isSome = x.isSome)
    (h : v.Issues e o n x m t p) (h' : v'.Issues e o n x' m t' p') :
    p'.size = p.size ∧ p'.inlineLen = p.inlineLen ∧ p'.orig = p.orig := by
  have hsize : v'.wireSizeFor e = v.wireSizeFor e := by
    unfold IoctlView.wireSizeFor
    rw [hdone, hfeat]
  have hfill : v'.fillArg e x'.isSome o n = v.fillArg e x.isSome o n := by
    unfold IoctlView.fillArg
    rw [hsize, hdone, hfeat, hx]
  have horig := h'.fill
  rw [hfill, h.fill] at horig
  refine ⟨by rw [h.size, h'.size, hsize], by rw [h.inlineLen, h'.inlineLen], ?_⟩
  exact (Except.ok.inj horig).symm

/-- Two drivers that return the same outside the translated fields. -/
structure DriverRun.SameBut (l : ArenaLayout) (d d' : DriverRun) : Prop where
  rc : d'.rc = d.rc
  errno : d'.errno = d.errno
  buf : ∀ i, (∀ s ∈ l.spans, i ∉ s.bytes) → d'.buf i = d.buf i

theorem reply_eq (hl : p.arena = some l) (hl' : p'.arena = some l)
    (h : v.Issues e o n x m t p) (h' : v'.Issues e o n x' m t' p')
    (hsize : p'.size = p.size) (hin : p'.inlineLen = p.inlineLen)
    (horig : p'.orig = p.orig) {d d' : DriverRun} (hd : d.SameBut l d') :
    p'.reply d' = p.reply d := by
  symm
  refine Issued.reply_congr hd.rc.symm hd.errno.symm
    (h.entry.trans h'.entry.symm) hsize.symm hin.symm ?_
  intro hr
  have hscale : l.IsScale := by
    refine (e.arenaShape l (Issues.layout h hl)).2.2.1 ?_
    rw [← h.entry]
    exact hr.2.2
  funext i
  obtain ⟨hmem, hapart⟩ := finish_arena h hl hscale d.buf i
  obtain ⟨hmem', hapart'⟩ := finish_arena h' hl' hscale d'.buf i
  by_cases hi : ∃ s ∈ l.spans, i ∈ s.bytes
  · rw [hmem hi, hmem' hi, horig]
  · have hi : ∀ s ∈ l.spans, i ∉ s.bytes := fun s hs hb => hi ⟨s, hs, hb⟩
    rw [hapart hi, hapart' hi, hsize]
    exact (IoctlView.dropUnaudited_congr (hd.buf i hi)).symm

end TwoRuns

-- ==== concealment

/-- What one translated call keeps from the guest: it returns nothing, or
the guest's own bytes in the fields that were translated; and a broker
with another pool, whose driver returns the same outside those fields,
gives the same reply. -/
structure Conceals (v : IoctlView) (q : IavReq) (m : Mem) (p : Issued)
    (d : DriverRun) (l : ArenaLayout) : Prop where
  writeOnly : p.entry.dirR = false → (p.reply d).outLen = 0
  own : ∀ i < (p.reply d).outLen, (∃ s ∈ l.spans, i ∈ s.bytes) →
    (p.reply d).out i = m (IoctlOp.arena.argOffset + i)
  pool : ∀ (v' : IoctlView) p' d', v'.table = v.table →
    v'.helloDone = v.helloDone → v'.features = v.features →
    (IoctlOp.arena.run v' q).value m = .ok p' → d.SameBut l d' →
    p'.reply d' = p.reply d

/-- A translated call is written by the guest and has its row's layout. -/
theorem Issues.arena_row {v : IoctlView} {o n : Nat}
    (h : v.Issues e o n x m t p) (hx : x.isSome = true) :
    e.kind = .ptr ∧ e.dirW = true ∧ ∃ l, p.arena = some l := by
  have hstage := h.stage
  have harena := h.arena
  cases x with
  | none => cases hx
  | some x =>
    simp only [IoctlView.translate, guards, pure_ok, not_or, not_not, Bool.not_eq_false] at hstage
    obtain ⟨⟨hk, hw, -⟩, l, -, r, -, rfl⟩ := hstage
    exact ⟨hk, hw, l, harena⟩

theorem arena_conceals {v : IoctlView} {q : IavReq}
    (h : (IoctlOp.arena.run v q).value m = .ok p) (d : DriverRun) :
    ∃ l, p.entry.arena = some l ∧ Conceals v q m p d l := by
  obtain ⟨x, hdo, hx⟩ := IoctlOp.run_ok h
  obtain ⟨e, t, he, hi⟩ := IoctlView.doIoctl_ok hdo
  obtain ⟨hkind, hw, l, hl⟩ := Issues.arena_row hi (hx.mpr rfl)
  have hrow := Issues.layout hi hl
  have hfill := IoctlView.fillArg_ptr hkind hi.fill
  refine ⟨l, by rw [hi.entry]; exact hrow, ?_, ?_, ?_⟩
  · intro hdir
    have hret : ¬ p.Returns d := by
      intro hr
      rw [hr.2.2] at hdir
      cases hdir
    exact Issued.reply_outLen_zero hret
  · intro i hlt hmem
    have hret : p.Returns d := by
      by_contra hr
      rw [Issued.reply_outLen_zero hr] at hlt
      exact absurd hlt (Nat.not_lt_zero i)
    obtain ⟨-, -, hscale, hspans⟩ := e.arenaShape l hrow
    have hdir := hret.2.2
    rw [hi.entry] at hdir
    have hown := (finish_arena hi hl (hscale hdir) d.buf i).1 hmem
    have hin : i < e.size := by
      obtain ⟨s, hs, hb⟩ := hmem
      have hend := hspans s hs
      exact lt_of_lt_of_le hb.2 hend
    rw [Issued.reply_out hret, hown]
    refine hfill.header i hin ?_
    have hlen := hfill.len
    have hwire := IoctlView.wireSizeFor_of_wire (v := v) (e.arenaShape l hrow).1
    rw [if_pos hw] at hlen
    omega
  · intro v' p' d' htable hdone hfeat h' hd
    obtain ⟨x', hdo', hx'⟩ := IoctlOp.run_ok h'
    obtain ⟨e', t', he', hi'⟩ := IoctlView.doIoctl_ok hdo'
    rw [htable, he] at he'
    obtain rfl := Option.some.inj he'
    obtain ⟨-, -, l', hl'⟩ := Issues.arena_row hi' (hx'.mpr rfl)
    have hlayout := Issues.layout hi' hl'
    rw [hrow] at hlayout
    obtain rfl := Option.some.inj hlayout
    have hsome : x'.isSome = x.isSome := by rw [hx.mpr rfl, hx'.mpr rfl]
    obtain ⟨hsize, hin, horig⟩ := orig_eq hdone hfeat hsome hi hi'
    exact reply_eq hl hl' hi hi' hsize hin horig hd

/-- Confidentiality of arguments and replies, for whatever the guest
sends and the driver does: past the header size of a row nobody audited
the driver gets zeros and so does the guest, and OP_ARENA conceals. -/
theorem reply_conceals {k : IoctlOp} {v : IoctlView} {q : IavReq} {m : Mem}
    {p : Issued} (h : (k.run v q).value m = .ok p) (d : DriverRun) :
    (p.entry.audited = false → ∀ i, p.entry.size ≤ i → i < p.size →
      p.buf i = 0 ∧ (p.reply d).out i = 0) ∧
    (k = .arena → ∃ l, p.entry.arena = some l ∧ Conceals v q m p d l) := by
  refine ⟨?_, ?_⟩
  · obtain ⟨x, hdo, -⟩ := IoctlOp.run_ok h
    obtain ⟨e, t, -, hi⟩ := IoctlView.doIoctl_ok hdo
    rw [hi.entry]
    intro ha i hlo hhi
    refine ⟨buf_past hi ha hlo hhi, ?_⟩
    by_cases hret : p.Returns d
    · rw [Issued.reply_out hret]
      exact finish_past hi ha d.buf hlo hhi
    · exact congrFun (if_neg hret) i
  · intro hk
    subst hk
    exact arena_conceals h d

def sampleScale : ImgScale where
  format := .yuv400
  outputFormatEnable := false
  outputFormat := .yuv400
  inputWinFormat := .u32
  input := ⟨0, 0, 256, 64⟩
  output := ⟨0, 0, 128, 32⟩
  inputBuf := ⟨false, false, 0, 0, 0, 256, 64⟩
  outputBuf := ⟨false, false, 0, 0, 0, 256, 64⟩

def sampleScaleLayout : ArenaLayout :=
  .imgScale (fun _ => sampleScale) ⟨0, 8, 16⟩ ⟨24, 32, 40⟩

def sampleScaleEntry : PolicyEntry where
  kind := .ptr
  dirR := true
  dirW := true
  size := 48
  wire := 0
  window := true
  audited := false
  inlined := false
  profiles := fun r => r != .consumer
  check := .judge fun c m => c.check sampleHeader (sampleScaleLayout.decode m)
  post := .none
  arena := some sampleScaleLayout
  checkFits := trivial
  postFits := trivial
  inlinedWire := fun _ => rfl
  misc := fun _ h => nomatch h
  arenaShape := by
    intro l hl
    cases hl
    exact ⟨rfl, rfl, fun _ => trivial, by decide⟩

def sampleScaleReq : IavReq where
  proto := 1
  op := 9
  handle := 1
  cmd := 0
  argLen := 56 + 48
  argValue := 0
  arg2 := 0

def sampleScaleMsg : Mem :=
  let m := write32 (write32 (fun _ => 0) 40 1) 48 0x1ff
  let m := write64 (write64 m 56 0x20000) 64 0x10000
  write64 (write32 (write32 m 96 0x1ff) (96 + 24) 0x1ff) (96 + 32) 0x8000

/-- The driver gets the pool partition; the guest is not shown it. -/
theorem reply_conceals_scale : ∃ p l, (IoctlOp.arena.run
        (sampleIoctlView sampleScaleEntry AMBA_VIRT_IAV_F_ARENA)
        sampleScaleReq).value sampleScaleMsg = .ok p ∧
      read32 p.buf 0 = 0x2ff ∧ p.entry.arena = some l ∧
      Conceals (sampleIoctlView sampleScaleEntry AMBA_VIRT_IAV_F_ARENA)
        sampleScaleReq sampleScaleMsg p ⟨0, 0, p.buf⟩ l := by
  obtain ⟨p, hp, hpid⟩ : ∃ p, (IoctlOp.arena.run
      (sampleIoctlView sampleScaleEntry AMBA_VIRT_IAV_F_ARENA)
      sampleScaleReq).value sampleScaleMsg = .ok p ∧ read32 p.buf 0 = 0x2ff :=
    exists_ok_of_any (by decide)
  obtain ⟨l, hl, hc⟩ := (reply_conceals hp ⟨0, 0, p.buf⟩).2 rfl
  exact ⟨p, l, hp, hpid, hl, hc⟩

end AmbaVirt.Iav
