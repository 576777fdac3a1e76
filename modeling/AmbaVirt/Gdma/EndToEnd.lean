/-
A copy from end to end: what a call of the guest's GDMA driver that
returns 0 has done to memory, guest and host code combined.

`Driver.Correct` is what the call is for: exactly its destination bytes
hold the former bytes of its source, and outside the staging areas no
other byte has changed. `copies_iff` decides when every returning call
is correct: the granted region has to start at offset 0 of the slice.

The host executes the driver's offsets from the start of the slice, so a
copy lands `granted_offset` bytes short of its destination, and the last
destination byte lies beyond everything the host writes
(`Copies.not_of_kept`). For `dma_memcpy` it is the last byte of the
staging area that is stale.
-/
import AmbaVirt.Gdma.Driver

namespace AmbaVirt.Gdma

open Lib Cavalry

-- ==== loading

theorem findZeroArea_eq_some {bitmap : Nat → Bool} {pages n page : Nat} (hn : 0 < n) :
    findZeroArea bitmap pages n = some page ↔
      page + n ≤ pages ∧ (∀ k < n, bitmap (page + k) = false) ∧
      ∀ p < page, p + n ≤ pages → ∃ k < n, bitmap (p + k) = true := by
  unfold findZeroArea
  rw [List.find?_range_eq_some]
  simp only [decide_eq_true_eq, List.mem_range, Bool.not_eq_true',
    decide_eq_false_iff_not, not_and, not_forall, Bool.not_eq_false,
    exists_prop]
  constructor
  · rintro ⟨⟨hfit, hfree⟩, -, hfirst⟩
    exact ⟨hfit, hfree, hfirst⟩
  · rintro ⟨hfit, hfree, hfirst⟩
    exact ⟨⟨hfit, hfree⟩, by omega, hfirst⟩

/-- A staging area is 2048 free pages, the first there are. -/
theorem Aperture.windowAlloc_stage {d d' : Aperture} {phys : UInt64} :
    d.windowAlloc GDMA_STAGE_SIZE = some (phys, d') ↔ 2 ^ 23 ≤ d.windowSize.toNat ∧
      ∃ page, findZeroArea d.bitmap d.windowPages 2048 = some page ∧
        d.windowPhys + (page * PAGE_SIZE).toUInt64 = phys ∧
        { d with
          bitmap := fun i =>
            decide (page ≤ i ∧ i < page + 2048) || d.bitmap i } = d' := by
  have hpages : (GDMA_STAGE_SIZE.toNat + PAGE_SIZE - 1) / PAGE_SIZE = 2048 :=
    rfl
  have hlen : (GDMA_STAGE_SIZE = 0 ∨ GDMA_STAGE_SIZE.toUInt64 > d.windowSize) ↔
      ¬ 2 ^ 23 ≤ d.windowSize.toNat := by
    have hstage : GDMA_STAGE_SIZE.toUInt64.toNat = 2 ^ 23 := rfl
    have hne : GDMA_STAGE_SIZE ≠ 0 := by decide
    rw [or_iff_right hne, gt_iff_lt, UInt64.lt_iff_toNat_lt, hstage]
    omega
  unfold Aperture.windowAlloc
  rw [hpages, if_congr hlen rfl rfl]
  dsimp only
  split
  · rename_i hlt
    simp only [reduceCtorEq, hlt, false_and]
  rename_i hge
  rw [not_not] at hge
  cases findZeroArea d.bitmap d.windowPages 2048 with
  | none => simp only [reduceCtorEq, false_and, exists_false, and_false]
  | some page =>
    simp only [Option.some.injEq, Prod.mk.injEq, hge, true_and,
      exists_eq_left']

def Bar.driver (bar : Bar) (g gs : UInt32) : Driver :=
  ⟨bar.phys + g.toUInt64, gs.toUInt64, bar.phys + g.toUInt64,
    bar.phys + g.toUInt64 + GDMA_STAGE_SIZE.toUInt64⟩

variable {g : UInt32} {d : Driver} {gs : UInt32} {bar : Bar}

/-- The driver loads when the region holds the two staging areas, which
are then its first 16 MiB. -/
theorem Bar.gdmaInit_ok_iff :
    bar.gdmaInit g gs = .ok d ↔ 2 ^ 24 ≤ gs.toNat ∧ d = bar.driver g gs := by
  have hpages : gs.toNat / PAGE_SIZE = gs.toNat / 4096 := rfl
  have hgs := UInt32.toNat_toUInt64 gs
  simp only [Bar.gdmaInit, guards, pure_ok, Prod.exists, Aperture.windowAlloc_stage, hpages]
  constructor
  · rintro ⟨src, w₁, ⟨-, page₁, hfind₁, rfl, rfl⟩, dst, w₂, ⟨-, page₂, hfind₂, rfl, rfl⟩, rfl⟩
    obtain ⟨hfit₁, -, hfirst₁⟩ := (findZeroArea_eq_some (by omega)).mp hfind₁
    obtain ⟨hfit₂, hfree₂, hfirst₂⟩ :=
      (findZeroArea_eq_some (by omega)).mp hfind₂
    -- nothing is taken at first, so the first area is at page 0
    have hpage₁ : page₁ = 0 := by
      by_contra hne
      obtain ⟨k, -, hk⟩ := hfirst₁ 0 (by omega) (by omega)
      cases hk
    subst hpage₁
    -- and the second one right after it
    have hpage₂ : page₂ = 2048 := by
      have hge : 2048 ≤ page₂ := by
        by_contra hlt
        have htaken := hfree₂ 0 (by omega)
        simp only [Nat.add_zero, Bool.or_false,
          decide_eq_false_iff_not] at htaken
        omega
      by_contra hne
      obtain ⟨k, -, hk⟩ := hfirst₂ 2048 (by omega) (by omega)
      simp only [Bool.or_false, decide_eq_true_eq] at hk
      omega
    subst hpage₂
    dsimp only at hfit₂
    refine ⟨by omega, ?_⟩
    rw [show (0 * PAGE_SIZE).toUInt64 = 0 from rfl, UInt64.add_zero]
    rfl
  · rintro ⟨hsize, rfl⟩
    have hfind₁ : findZeroArea (fun _ => false) (gs.toNat / 4096) 2048 = some 0 :=
      (findZeroArea_eq_some (by omega)).mpr
        ⟨by omega, fun k hk => rfl, fun p hp => absurd hp (by omega)⟩
    have hfind₂ : findZeroArea (fun i => decide (0 ≤ i ∧ i < 0 + 2048) || false)
        (gs.toNat / 4096) 2048 = some 2048 := by
      refine (findZeroArea_eq_some (by omega)).mpr ⟨by omega, ?_, ?_⟩
      · intro k hk
        rw [Bool.or_false, decide_eq_false_iff_not]
        omega
      intro p hp _
      refine ⟨0, by omega, ?_⟩
      rw [Bool.or_false, decide_eq_true_eq]
      omega
    refine ⟨_, _, ⟨by omega, 0, hfind₁, rfl, rfl⟩, _, _,
      ⟨by dsimp only; omega, 2048, hfind₂, rfl, rfl⟩, ?_⟩
    unfold Bar.driver
    rw [show (0 * PAGE_SIZE).toUInt64 = 0 from rfl, UInt64.add_zero]
    rfl

/-- What the calls rely on of a loaded driver. -/
structure Driver.Loaded (d : Driver) (bar : Bar) (grantedOffset : UInt32) :
    Prop where
  window : d.windowPhys.toNat = bar.phys.toNat + grantedOffset.toNat
  size : d.windowSize.toNat < 2 ^ 32
  src : d.stageSrcPhys = d.windowPhys
  dst : d.stageDstPhys.toNat = d.windowPhys.toNat + 2 ^ 23

theorem Bar.gdmaInit_loaded (h : bar.gdmaInit g gs = .ok d) : d.Loaded bar g := by
  obtain ⟨-, rfl⟩ := Bar.gdmaInit_ok_iff.mp h
  have hbar := bar.phys_lt
  have hg := g.toNat_lt
  have hwindow : (bar.phys + g.toUInt64).toNat = bar.phys.toNat + g.toNat := by
    rw [toNat_add_exact] <;> rw [UInt32.toNat_toUInt64]
    omega
  have hstage : GDMA_STAGE_SIZE.toUInt64.toNat = 2 ^ 23 := rfl
  refine ⟨hwindow, UInt32.toNat_toUInt64 gs ▸ gs.toNat_lt, rfl, ?_⟩
  unfold Bar.driver
  rw [toNat_add_exact] <;> rw [hstage]
  omega

-- ==== the checks

theorem Driver.windowRange_ok {phys len : UInt64} {off : UInt32}
    (h : d.windowRange phys len = .ok off) :
    phys.toNat = d.windowPhys.toNat + off.toNat ∧
      off.toNat + len.toNat ≤ d.windowSize.toNat ∧ 0 < len.toNat := by
  simp only [Driver.windowRange, guards, pure_ok, not_or, UInt64.lt_iff_toNat_lt, gt_iff_lt] at h
  obtain ⟨⟨hlen, hlo⟩, ⟨hoff, hfits⟩, hmax, rfl⟩ := h
  have hsub : (phys - d.windowPhys).toNat = phys.toNat - d.windowPhys.toNat :=
    UInt64.toNat_sub_of_le _ _ (UInt64.le_iff_toNat_le.mpr (by omega))
  have hrest : (d.windowSize - (phys - d.windowPhys)).toNat
      = d.windowSize.toNat - (phys - d.windowPhys).toNat :=
    UInt64.toNat_sub_of_le _ _ (UInt64.le_iff_toNat_le.mpr (by omega))
  have hoff32 : (phys - d.windowPhys).toUInt32.toNat = (phys - d.windowPhys).toNat := by
    have hval : UINT32_MAX.toNat = 2 ^ 32 - 1 := rfl
    rw [UInt64.toNat_toUInt32]
    omega
  have hpos : len.toNat ≠ 0 := fun he => hlen (UInt64.toNat_inj.mp he)
  omega

/-- What the two calls inside the window rely on, in offsets of the
granted region. -/
theorem Driver.windowRanges_ok {src dest srcLen dstLen : UInt64}
    {srcOff dstOff : UInt32} (hsize : d.windowSize.toNat < 2 ^ 32)
    (h : d.windowRanges src dest srcLen dstLen = .ok (srcOff, dstOff)) :
    src.toNat = d.windowPhys.toNat + srcOff.toNat ∧ dest.toNat = d.windowPhys.toNat + dstOff.toNat ∧
      srcOff.toNat + srcLen.toNat < 2 ^ 32 ∧
      dstOff.toNat + dstLen.toNat < 2 ^ 32 ∧
      (dstOff.toNat + dstLen.toNat ≤ srcOff.toNat ∨
        srcOff.toNat + srcLen.toNat ≤ dstOff.toNat) := by
  simp only [Driver.windowRanges, guards, pure_ok] at h
  obtain ⟨so, hsrc, dof, hdst, hapart, -, hpair⟩ := h
  cases hpair
  obtain ⟨hs, hsfit, -⟩ := Driver.windowRange_ok hsrc
  obtain ⟨ht, htfit, -⟩ := Driver.windowRange_ok hdst
  have hsum (off : UInt32) (len : UInt64) (hle : off.toNat + len.toNat < 2 ^ 32) :
      (off.toUInt64 + len).toNat = off.toNat + len.toNat := by
    rw [toNat_add_exact] <;> rw [UInt32.toNat_toUInt64]
    omega
  rw [UInt64.lt_iff_toNat_lt, UInt64.lt_iff_toNat_lt,
    hsum _ _ (by omega), hsum _ _ (by omega), UInt32.toNat_toUInt64,
    UInt32.toNat_toUInt64] at hapart
  omega

-- ==== the host

variable {j : GdmaJob} {done : UInt32} {c : GdmaCopy} {h : Host} {e : Env}

theorem hostGdmaCopy_job {w : Window} (h : w.hostGdmaCopy c = .ok j) :
    j = if c.pitched then
        .pitch (w.shmPhys + c.srcOff.toUInt64) (w.shmPhys + c.dstOff.toUInt64)
          c.srcPitch c.dstPitch c.width c.height
      else .linear (w.shmPhys + c.dstOff.toUInt64) (w.shmPhys + c.srcOff.toUInt64) c.len := by
  unfold Window.hostGdmaCopy at h
  by_cases hp : c.pitched
  · simp only [hp, if_true, guards, pure_ok] at h ⊢
    exact h.2.2.2.2.2.symm
  · simp only [hp, if_false, guards, pure_ok] at h ⊢
    exact h.2.2.2.2.2.symm

/-- A request the host has executed is a copy in the guest's slice, at
the offsets of the request from the start of the slice. -/
theorem Host.rpcCopy_run (hok : h.rpcCopy e done c = .ok j) (m : Mem) :
    j.run m = if c.pitched then
        transferRows m (h.base + c.dstOff.toNat) (h.base + c.srcOff.toNat)
          c.dstPitch.toNat c.srcPitch.toNat c.width.toNat c.height.toNat
      else transfer m m (h.base + c.dstOff.toNat) (h.base + c.srcOff.toNat) c.len.toNat := by
  simp only [Host.rpcCopy, guards, pure_ok] at hok
  obtain ⟨-, job, hserve, -, -, rfl⟩ := hok
  obtain ⟨t, ht, -, hkernel, hexact⟩ := processGdma_ok hserve
  cases h.found.symm.trans ht
  have hsrc : (h.window.shmPhys + (c.translate h.tenant.sliceOffset).srcOff.toUInt64).toNat
      = h.base + c.srcOff.toNat := by
    rw [hexact.srcPhys, hexact.srcOff]
    unfold Host.base tenantSpan
    dsimp only
    omega
  have hdst : (h.window.shmPhys + (c.translate h.tenant.sliceOffset).dstOff.toUInt64).toNat
      = h.base + c.dstOff.toNat := by
    rw [hexact.dstPhys, hexact.dstOff]
    unfold Host.base tenantSpan
    dsimp only
    omega
  have hpitched : (c.translate h.tenant.sliceOffset).pitched ↔ c.pitched :=
    Iff.rfl
  rw [hostGdmaCopy_job hkernel, ← hsrc, ← hdst]
  by_cases hp : c.pitched
  · rw [if_pos (hpitched.mpr hp), if_pos hp]
    rfl
  · rw [if_neg (mt hpitched.mp hp), if_neg hp]
    rfl

theorem Host.rpcCopy_linear {so dof len : UInt32}
    (hok : h.rpcCopy e done (linearCopy so dof len) = .ok j) (m : Mem) :
    j.run m = transfer m m (h.base + dof.toNat) (h.base + so.toNat) len.toNat := by
  have hflags : (0 : UInt32) &&& AMBA_VIRT_GDMA_F_PITCH = 0 := by decide
  exact (Host.rpcCopy_run hok m).trans (if_neg fun hne => hne hflags)

-- ==== the loops

section Loops

variable {σ : Type} {step : UInt32 → UInt32 → σ → Except Errno σ} {size : UInt32}

/-- What every chunk preserves holds of the whole. -/
theorem chunkLoop_rule {I : Nat → σ → Prop} (hstep : ∀ (done chunk : UInt32) (s s' : σ),
      done.toNat + chunk.toNat ≤ size.toNat → 0 < chunk.toNat →
      chunk.toNat ≤ 2 ^ 23 → I done.toNat s → step done chunk s = .ok s' →
      I (done.toNat + chunk.toNat) s') {s s' : σ} (hle : done.toNat ≤ size.toNat)
    (hinit : I done.toNat s) (h : chunkLoop step size done s = .ok s') :
    I size.toNat s' := by
  fun_induction chunkLoop step size done s with
  | case1 done s hlt ih =>
    rw [bind_ok] at h
    obtain ⟨mid, hmid, hrest⟩ := h
    have hlt' := UInt32.lt_iff_toNat_lt.mp hlt
    have hchunk := chunk_toNat hlt
    have hadd := add_chunk_toNat hlt
    have hnext := hstep done _ s mid (by omega) (by omega) (by omega) hinit hmid
    rw [hchunk, ← hadd] at hnext
    exact ih mid (by omega) hnext hrest
  | case2 done s hlt =>
    cases h
    rw [UInt32.lt_iff_toNat_lt] at hlt
    rwa [show size.toNat = done.toNat by omega]

/-- If no chunk depends on the state for its outcome, nor does the loop. -/
theorem chunkLoop_any (hany : ∀ (done chunk : UInt32) (s t s' : σ),
      step done chunk s = .ok s' → ∃ t', step done chunk t = .ok t') {s s' : σ} (t : σ)
    (h : chunkLoop step size done s = .ok s') :
    ∃ t', chunkLoop step size done t = .ok t' := by
  fun_induction chunkLoop step size done s generalizing t with
  | case1 done s hlt ih =>
    rw [bind_ok] at h
    obtain ⟨mid, hmid, hrest⟩ := h
    obtain ⟨mid', hmid'⟩ := hany _ _ _ t _ hmid
    obtain ⟨t', ht'⟩ := ih mid mid' hrest
    refine ⟨t', ?_⟩
    rw [chunkLoop, dif_pos hlt, bind_ok]
    exact ⟨mid', hmid', ht'⟩
  | case2 done s hlt =>
    refine ⟨t, ?_⟩
    rw [chunkLoop, dif_neg hlt]

end Loops

-- ==== what a call is for

def Driver.staging (d : Driver) (bar : Bar) (h : Host) : Set Nat :=
  (⟨h.at bar d.stageSrcPhys.toNat, GDMA_STAGE_SIZE.toNat⟩ : Span).bytes ∪
    (⟨h.at bar d.stageDstPhys.toNat, GDMA_STAGE_SIZE.toNat⟩ : Span).bytes

/-- Exactly the destination bytes hold the former source bytes, and no
other byte outside the staging areas has changed. -/
def Driver.Correct (d : Driver) (bar : Bar) (h : Host) (m m' : Memory) : Call → Prop
  | .noncache dest src size =>
    Copies (linearPairs (h.at bar dest.toNat) (h.at bar src.toNat)
      size.toNat) (d.staging bar h) m.phys m'.phys ∧ m'.ram = m.ram
  | .staged dest src size =>
    Copies (linearPairs dest.toNat src.toNat size.toNat) ∅ m.ram m'.ram ∧
      Copies ∅ (d.staging bar h) m.phys m'.phys
  | .pitch p =>
    Copies (rowPairs (h.at bar p.destAddr.toNat) (h.at bar p.srcAddr.toNat)
      p.destPitch.toNat p.srcPitch.toNat p.width.toNat p.height.toNat)
      (d.staging bar h) m.phys m'.phys ∧ m'.ram = m.ram

section Calls

variable {m m' : Memory}

/-- A BAR address of the granted region is as far into the slice as the
region starts, and its offset in the region. -/
theorem Driver.Loaded.at_eq (hl : d.Loaded bar g) {phys off : Nat}
    (hphys : phys = d.windowPhys.toNat + off) :
    h.at bar phys = h.base + (g.toNat + off) := by
  unfold Host.at
  rw [hphys, hl.window]
  omega

-- ---- dma_noncache_memcpy

variable {size : UInt32}

theorem noncacheLoop_ok {so dof : UInt32} (hso : so.toNat + size.toNat < 2 ^ 32)
    (hdo : dof.toNat + size.toNat < 2 ^ 32)
    (hapart : dof.toNat + size.toNat ≤ so.toNat ∨ so.toNat + size.toNat ≤ dof.toNat)
    (hok : chunkLoop (Driver.noncacheStep h e so dof) size 0 m = .ok m') :
    m'.phys = transfer m.phys m.phys (h.base + dof.toNat)
      (h.base + so.toNat) size.toNat ∧ m'.ram = m.ram := by
  refine chunkLoop_rule (I := fun done s =>
    s.phys = transfer m.phys m.phys (h.base + dof.toNat) (h.base + so.toNat)
      done ∧ s.ram = m.ram) ?_ (Nat.zero_le _) ⟨?_, rfl⟩ hok
  · rintro done chunk s s' hle - - ⟨hphys, hram⟩ hstep
    simp only [Driver.noncacheStep, bind_ok, pure_ok] at hstep
    obtain ⟨job, hjob, rfl⟩ := hstep
    refine ⟨?_, hram⟩
    have hs : (so + done).toNat = so.toNat + done.toNat := by
      rw [UInt32.toNat_add]
      omega
    have ht : (dof + done).toNat = dof.toNat + done.toNat := by
      rw [UInt32.toNat_add]
      omega
    rw [Host.rpcCopy_linear hjob, hphys, hs, ht, ← Nat.add_assoc, ← Nat.add_assoc]
    exact transfer_append (by omega)
  · exact (transfer_zero _ _ _ _).symm

variable {dest src : UInt64}

theorem noncache_ok (hl : d.Loaded bar g) (hok : d.dmaNoncacheMemcpy h e dest src size m = .ok m') :
    ∃ so dof : UInt32, src.toNat = d.windowPhys.toNat + so.toNat ∧
      dest.toNat = d.windowPhys.toNat + dof.toNat ∧ 0 < size.toNat ∧
      (dof.toNat + size.toNat ≤ so.toNat ∨ so.toNat + size.toNat ≤ dof.toNat) ∧
      m'.phys = transfer m.phys m.phys (h.base + dof.toNat)
        (h.base + so.toNat) size.toNat ∧ m'.ram = m.ram := by
  simp only [Driver.dmaNoncacheMemcpy, guards] at hok
  obtain ⟨hsize, ⟨so, dof⟩, hranges, hloop⟩ := hok
  obtain ⟨hs, ht, hso, hdo, hapart⟩ := Driver.windowRanges_ok hl.size hranges
  obtain ⟨hphys, hram⟩ := noncacheLoop_ok hso hdo hapart hloop
  have hpos : size.toNat ≠ 0 := fun he =>
    hsize (.inl (UInt32.toNat_inj.mp he))
  exact ⟨so, dof, hs, ht, by omega, hapart, hphys, hram⟩

theorem noncache_any (t : Memory) (hok : d.dmaNoncacheMemcpy h e dest src size m = .ok m') :
    ∃ t', d.dmaNoncacheMemcpy h e dest src size t = .ok t' := by
  simp only [Driver.dmaNoncacheMemcpy, guards] at hok ⊢
  obtain ⟨hsize, offs, hranges, hloop⟩ := hok
  obtain ⟨t', ht'⟩ := chunkLoop_any (fun done chunk s u s' hs => by
    simp only [Driver.noncacheStep, bind_ok, pure_ok] at hs ⊢
    obtain ⟨job, hjob, -⟩ := hs
    exact ⟨_, job, hjob, rfl⟩) t hloop
  exact ⟨t', hsize, offs, hranges, ht'⟩

theorem noncache_correct_iff (hl : d.Loaded bar g)
    (hok : d.dmaNoncacheMemcpy h e dest src size m = .ok m') :
    (∀ m m', d.dmaNoncacheMemcpy h e dest src size m = .ok m' →
      d.Correct bar h m m' (.noncache dest src size)) ↔ g = 0 := by
  constructor
  · intro hall
    by_contra hg
    have hpos : g.toNat ≠ 0 := fun he => hg (UInt32.toNat_inj.mp he)
    obtain ⟨so, dof, hs, ht, hsize, hapart, -⟩ := noncache_ok hl hok
    -- the last byte of the copy, and memory that is set only there
    let p : Nat × Nat :=
      (h.at bar src.toNat + (size.toNat - 1), h.at bar dest.toNat + (size.toNat - 1))
    have hsrc := hl.at_eq (h := h) hs
    have hdst := hl.at_eq (h := h) ht
    obtain ⟨z', hz⟩ := noncache_any ⟨single p.1, fun _ => 0⟩ hok
    obtain ⟨so', dof', hs', ht', -, -, hphys, -⟩ := noncache_ok hl hz
    obtain ⟨hcopies, -⟩ := hall _ _ hz
    have hp : p ∈ linearPairs (h.at bar dest.toNat) (h.at bar src.toNat)
        size.toNat := ⟨size.toNat - 1, by omega, rfl⟩
    refine Copies.not_of_kept hp ?_ ?_ hcopies
    · dsimp only [p]
      omega
    rw [hphys]
    refine transfer_apart (.inr ?_)
    dsimp only [p]
    omega
  · rintro rfl m m' hok
    obtain ⟨so, dof, hs, ht, -, -, hphys, hram⟩ := noncache_ok hl hok
    refine ⟨?_, hram⟩
    rw [hl.at_eq hs, hl.at_eq ht, UInt32.toNat_zero, Nat.zero_add, Nat.zero_add, hphys]
    exact transfer_copies _ _ _ _ _

-- ---- dma_pitch_memcpy

theorem rowsLen_toNat {height : UInt16} (pitch width : UInt16) (hh : height ≠ 0) :
    (rowsLen height pitch width).toNat = (height.toNat - 1) * pitch.toNat + width.toNat := by
  have hends := rowsEnd_toNat 0 height pitch width
  have hzero : (0 : UInt32).toNat = 0 := rfl
  unfold rowsEnd at hends
  rw [if_pos hh, hzero, Nat.zero_add] at hends
  rw [← hends]
  unfold rowsLen
  rw [show (0 : UInt32).toUInt64 = 0 from rfl, UInt64.zero_add]

variable {p : GdmaParam}

theorem pitch_ok (hl : d.Loaded bar g) (hok : d.dmaPitchMemcpy h e p m = .ok m') :
    ∃ so dof : UInt32, p.srcAddr.toNat = d.windowPhys.toNat + so.toNat ∧
      p.destAddr.toNat = d.windowPhys.toNat + dof.toNat ∧
      0 < p.height.toNat ∧ 0 < p.width.toNat ∧
      p.width.toNat ≤ p.destPitch.toNat ∧
      (dof.toNat + ((p.height.toNat - 1) * p.destPitch.toNat + p.width.toNat) ≤ so.toNat ∨
        so.toNat + ((p.height.toNat - 1) * p.srcPitch.toNat + p.width.toNat) ≤ dof.toNat) ∧
      m'.phys = transferRows m.phys (h.base + dof.toNat) (h.base + so.toNat)
        p.destPitch.toNat p.srcPitch.toNat p.width.toNat p.height.toNat ∧
      m'.ram = m.ram := by
  simp only [Driver.dmaPitchMemcpy, guards, pure_ok, not_or, UInt16.lt_iff_toNat_lt] at hok
  obtain ⟨⟨hheight, hwidth, -, -, hpitch, -⟩, ⟨so, dof⟩, hranges, job, hjob,
    rfl⟩ := hok
  obtain ⟨hs, ht, -, -, hapart⟩ := Driver.windowRanges_ok hl.size hranges
  rw [rowsLen_toNat _ _ hheight, rowsLen_toNat _ _ hheight] at hapart
  have hh : p.height.toNat ≠ 0 := fun he => hheight (UInt16.toNat_inj.mp he)
  have hw : p.width.toNat ≠ 0 := fun he => hwidth (UInt16.toNat_inj.mp he)
  have hflag : AMBA_VIRT_GDMA_F_PITCH &&& AMBA_VIRT_GDMA_F_PITCH ≠ 0 := by
    decide
  exact ⟨so, dof, hs, ht, by omega, by omega, by omega, hapart,
    (Host.rpcCopy_run hjob _).trans (if_pos hflag), rfl⟩

theorem pitch_any (t : Memory) (hok : d.dmaPitchMemcpy h e p m = .ok m') :
    ∃ t', d.dmaPitchMemcpy h e p t = .ok t' := by
  simp only [Driver.dmaPitchMemcpy, guards, pure_ok] at hok ⊢
  obtain ⟨hargs, offs, hranges, job, hjob, -⟩ := hok
  exact ⟨_, hargs, offs, hranges, job, hjob, rfl⟩

theorem pitch_correct_iff (hl : d.Loaded bar g) (hok : d.dmaPitchMemcpy h e p m = .ok m') :
    (∀ m m', d.dmaPitchMemcpy h e p m = .ok m' → d.Correct bar h m m' (.pitch p)) ↔ g = 0 := by
  constructor
  · intro hall
    by_contra hg
    have hpos : g.toNat ≠ 0 := fun he => hg (UInt32.toNat_inj.mp he)
    obtain ⟨so, dof, hs, ht, hh, hw, -, hapart, -⟩ := pitch_ok hl hok
    have hsrc := hl.at_eq (h := h) hs
    have hdst := hl.at_eq (h := h) ht
    -- the last byte of the last row
    let b : Nat × Nat :=
      (h.at bar p.srcAddr.toNat + (p.height.toNat - 1) * p.srcPitch.toNat + (p.width.toNat - 1),
        h.at bar p.destAddr.toNat + (p.height.toNat - 1) * p.destPitch.toNat + (p.width.toNat - 1))
    obtain ⟨z', hz⟩ := pitch_any ⟨single b.1, fun _ => 0⟩ hok
    obtain ⟨so', dof', hs', ht', -, -, -, -, hphys, -⟩ := pitch_ok hl hz
    obtain ⟨hcopies, -⟩ := hall _ _ hz
    have hb : b ∈ rowPairs (h.at bar p.destAddr.toNat)
        (h.at bar p.srcAddr.toNat) p.destPitch.toNat p.srcPitch.toNat
        p.width.toNat p.height.toNat :=
      ⟨p.height.toNat - 1, by omega, p.width.toNat - 1, by omega, rfl⟩
    refine Copies.not_of_kept hb ?_ ?_ hcopies
    · dsimp only [b]
      omega
    rw [hphys]
    refine transferRows_apart ?_
    intro r hr x hx
    have hmul : r * p.destPitch.toNat ≤ (p.height.toNat - 1) * p.destPitch.toNat :=
      Nat.mul_le_mul_right _ (by omega)
    dsimp only [b]
    omega
  · rintro rfl m m' hok
    obtain ⟨so, dof, hs, ht, -, -, hpitch, -, hphys, hram⟩ := pitch_ok hl hok
    refine ⟨?_, hram⟩
    rw [hl.at_eq hs, hl.at_eq ht, UInt32.toNat_zero, Nat.zero_add, Nat.zero_add, hphys]
    exact transferRows_copies _ _ hpitch

-- ---- dma_memcpy

/-- The staging areas from the start of the slice: as the guest uses
them and as the host is told. -/
theorem stagedStep_ok (hl : d.Loaded bar g) {chunk : UInt32}
    (hok : d.stagedStep bar h e dest src done chunk m = .ok m') :
    let phys := transfer m.phys m.ram (h.base + g.toNat) (src.toNat + done.toNat) chunk.toNat
    m'.phys = transfer phys phys (h.base + 2 ^ 23) h.base chunk.toNat ∧
      m'.ram = transfer m.ram m'.phys (dest.toNat + done.toNat)
        (h.base + (g.toNat + 2 ^ 23)) chunk.toNat := by
  simp only [Driver.stagedStep, bind_ok, pure_ok] at hok
  obtain ⟨job, hjob, rfl⟩ := hok
  have hsrc : (d.stageSrcPhys - d.windowPhys).toUInt32 = 0 := by
    rw [hl.src, UInt64.sub_self]
    rfl
  have hdst : (d.stageDstPhys - d.windowPhys).toUInt32.toNat = 2 ^ 23 := by
    have hd := hl.dst
    rw [UInt64.toNat_toUInt32, UInt64.toNat_sub_of_le]
    · omega
    · exact UInt64.le_iff_toNat_le.mpr (by omega)
  have hat : h.at bar d.stageSrcPhys.toNat = h.base + (g.toNat + 0) :=
    hl.at_eq (congrArg UInt64.toNat hl.src)
  rw [Host.rpcCopy_linear hjob, hsrc, hdst, hat, hl.at_eq hl.dst]
  exact ⟨rfl, rfl⟩

theorem staged_args (hok : d.dmaMemcpy bar h e dest src size m = .ok m') :
    0 < size.toNat ∧ (dest.toNat + size.toNat ≤ src.toNat ∨ src.toNat + size.toNat ≤ dest.toNat) ∧
      chunkLoop (d.stagedStep bar h e dest src) size 0 m = .ok m' := by
  simp only [Driver.dmaMemcpy, guards] at hok
  obtain ⟨hsize, hover, hapart, -, -, hloop⟩ := hok
  have hsum (a : UInt64) (ha : a.toNat + size.toNat < 2 ^ 64) :
      (a + size.toUInt64).toNat = a.toNat + size.toNat := by
    rw [toNat_add_exact] <;> rw [UInt32.toNat_toUInt64]
    exact ha
  have hpos : size.toNat ≠ 0 := fun he =>
    hsize (.inl (UInt32.toNat_inj.mp he))
  rw [UInt64.lt_iff_toNat_lt, UInt64.lt_iff_toNat_lt, hsum _ (by omega),
    hsum _ (by omega)] at hapart
  exact ⟨by omega, by omega, hloop⟩

theorem staged_any (t : Memory) (hok : d.dmaMemcpy bar h e dest src size m = .ok m') :
    ∃ t', d.dmaMemcpy bar h e dest src size t = .ok t' := by
  simp only [Driver.dmaMemcpy, guards] at hok ⊢
  obtain ⟨hsize, hover, hapart, hsrc, hdst, hloop⟩ := hok
  obtain ⟨t', ht'⟩ := chunkLoop_any (fun done chunk s u s' hs => by
    simp only [Driver.stagedStep, bind_ok, pure_ok] at hs ⊢
    obtain ⟨job, hjob, -⟩ := hs
    exact ⟨_, job, hjob, rfl⟩) t hloop
  exact ⟨t', hsize, hover, hapart, hsrc, hdst, ht'⟩

/-- With the region at the start of the slice the staging areas of guest
and host are the same: RAM is copied and only staging changes. -/
theorem stagedLoop_ok (hl : d.Loaded bar 0) (hapart : dest.toNat + size.toNat ≤ src.toNat ∨
      src.toNat + size.toNat ≤ dest.toNat)
    (hok : chunkLoop (d.stagedStep bar h e dest src) size 0 m = .ok m') :
    m'.ram = transfer m.ram m.ram dest.toNat src.toNat size.toNat ∧
      ∀ a, a < h.base ∨ h.base + 2 ^ 24 ≤ a → m'.phys a = m.phys a := by
  refine chunkLoop_rule (I := fun done s =>
    s.ram = transfer m.ram m.ram dest.toNat src.toNat done ∧
      ∀ a, a < h.base ∨ h.base + 2 ^ 24 ≤ a → s.phys a = m.phys a) ?_
    (Nat.zero_le _) ⟨?_, fun a _ => rfl⟩ hok
  · rintro done chunk s s' hle - hmax ⟨hram, hkept⟩ hstep
    obtain ⟨hphys', hram'⟩ := stagedStep_ok hl hstep
    rw [UInt32.toNat_zero, Nat.zero_add] at hram'
    rw [UInt32.toNat_zero, Nat.add_zero] at hphys'
    constructor
    · -- what the guest reads back is what the host was given
      have hback : ∀ i < chunk.toNat, s'.phys (h.base + 2 ^ 23 + i)
          = s.ram (src.toNat + done.toNat + i) := by
        intro i hi
        rw [hphys', transfer_at hi, transfer_at hi]
      rw [hram', transfer_congr hback, hram]
      exact transfer_append (by omega)
    · intro a ha
      rw [hphys', transfer_apart (by omega), transfer_apart (by omega)]
      exact hkept a ha
  · exact (transfer_zero _ _ _ _).symm

/-- With the region anywhere else the last byte the guest reads back is
one the host has not written: it is not the last byte of the source. -/
theorem stagedLoop_stale (hl : d.Loaded bar g) (hg : g.toNat ≠ 0)
    (hsize : 0 < size.toNat) (hapart : dest.toNat + size.toNat ≤ src.toNat ∨
      src.toNat + size.toNat ≤ dest.toNat)
    (hok : chunkLoop (d.stagedStep bar h e dest src) size 0
      ⟨fun _ => 0, single (src.toNat + (size.toNat - 1))⟩ = .ok m') :
    m'.ram (dest.toNat + (size.toNat - 1)) = 0 := by
  -- every chunk but the last copies zeros over zeros
  have hend := chunkLoop_rule (I := fun done s =>
    (done < size.toNat → s = ⟨fun _ => 0, single (src.toNat + (size.toNat - 1))⟩) ∧
    (done = size.toNat → s.ram (dest.toNat + (size.toNat - 1)) = 0)) ?_
    (Nat.zero_le _) ⟨fun _ => rfl, fun hz => absurd hz (by
      rw [UInt32.toNat_zero]
      omega)⟩ hok
  · exact hend.2 rfl
  rintro done chunk s s' hle hpos hmax ⟨hsame, -⟩ hstep
  cases hsame (by omega)
  obtain ⟨hphys', hram'⟩ := stagedStep_ok hl hstep
  constructor
  · intro hlt
    have hin : transfer (fun _ => 0) (single (src.toNat + (size.toNat - 1)))
        (h.base + g.toNat) (src.toNat + done.toNat) chunk.toNat = fun _ => 0 :=
      transfer_same fun i hi => single_ne (by omega)
    have hzero : transfer (fun _ => 0) (fun _ => 0) (h.base + 2 ^ 23) h.base
        chunk.toNat = fun _ => 0 :=
      transfer_same fun i hi => rfl
    rw [hin, hzero] at hphys'
    rw [hphys', transfer_same fun i hi => (single_ne (by omega)).symm]
      at hram'
    cases s'
    cases hphys'
    cases hram'
    rfl
  · intro hlast
    rw [show dest.toNat + (size.toNat - 1)
        = dest.toNat + done.toNat + (chunk.toNat - 1) by omega, hram',
      transfer_at (by omega), hphys', transfer_apart (by omega),
      transfer_apart (by omega)]

theorem staged_correct_iff (hl : d.Loaded bar g)
    (hok : d.dmaMemcpy bar h e dest src size m = .ok m') :
    (∀ m m', d.dmaMemcpy bar h e dest src size m = .ok m' →
      d.Correct bar h m m' (.staged dest src size)) ↔ g = 0 := by
  constructor
  · intro hall
    by_contra hg
    have hpos : g.toNat ≠ 0 := fun he => hg (UInt32.toNat_inj.mp he)
    obtain ⟨z', hz⟩ := staged_any ⟨fun _ => 0, single (src.toNat + (size.toNat - 1))⟩ hok
    obtain ⟨hsize, hapart, hloop⟩ := staged_args hz
    have hstale := stagedLoop_stale hl hpos hsize hapart hloop
    obtain ⟨hcopies, -⟩ := hall _ _ hz
    have hmoved := hcopies.moved _ ⟨size.toNat - 1, by omega, rfl⟩
    dsimp only at hmoved
    rw [hstale, single_same] at hmoved
    exact absurd hmoved (by decide)
  · rintro rfl m m' hok
    obtain ⟨-, hapart, hloop⟩ := staged_args hok
    obtain ⟨hram, hkept⟩ := stagedLoop_ok hl hapart hloop
    have hsrc : h.at bar d.stageSrcPhys.toNat = h.base + (0 + 0) :=
      hl.at_eq (congrArg UInt64.toNat hl.src)
    have hdst : h.at bar d.stageDstPhys.toNat = h.base + (0 + 2 ^ 23) :=
      hl.at_eq hl.dst
    have hstage : GDMA_STAGE_SIZE.toNat = 2 ^ 23 := rfl
    refine ⟨hram ▸ transfer_copies _ _ _ _ _, nofun, ?_⟩
    intro a _ hfree
    apply hkept
    simp only [Driver.staging, Set.mem_union, not_or, Span.not_mem_bytes, hsrc,
      hdst, hstage] at hfree
    omega

/-- End to end: the calls that return 0 with the same arguments, whatever
memory holds, are correct exactly when the granted region starts where
the slice does. -/
theorem copies_iff {gs : UInt32} (hinit : bar.gdmaInit g gs = .ok d)
    (call : Call) (hret : ∃ m m', d.call bar h e m call = .ok m') :
    (∀ m m', d.call bar h e m call = .ok m' → d.Correct bar h m m' call) ↔ g = 0 := by
  have hl := Bar.gdmaInit_loaded hinit
  obtain ⟨m, m', hok⟩ := hret
  cases call with
  | noncache dest src size => exact noncache_correct_iff hl hok
  | staged dest src size => exact staged_correct_iff hl hok
  | pitch p => exact pitch_correct_iff hl hok

end Calls

-- ==== samples

/-- The guest on slice 2 of `sampleProxy`. -/
def sampleHost : Host where
  proxy := sampleProxy
  window := sampleWindow
  hasCap := fun _ _ => true
  cid := 5
  tenant := sampleTenant 2
  found := rfl

def sampleBar : Bar where
  phys := 0x4000000000
  phys_lt := by decide

def sampleEnv : Env where
  rpc := fun _ => .ok ()
  engine := fun _ => .ok ()
  pfnValid := fun _ => true

def sampleDriver (g : UInt32) : Driver := sampleBar.driver g 0x1F00000

def sampleCall (g : UInt32) : Call :=
  .noncache ((sampleDriver g).windowPhys + 0x1200000) ((sampleDriver g).windowPhys + 0x1100000) 2

theorem sampleDriver_loads (g : UInt32) : sampleBar.gdmaInit g 0x1F00000 = .ok (sampleDriver g) :=
  Bar.gdmaInit_ok_iff.mpr ⟨by decide, rfl⟩

theorem chunkLoop_one {σ : Type}
    {step : UInt32 → UInt32 → σ → Except Errno σ} {size : UInt32} {s s' : σ}
    (hpos : 0 < size) (hle : size ≤ GDMA_STAGE_SIZE)
    (h : step 0 size s = .ok s') : chunkLoop step size 0 s = .ok s' := by
  have hmin : min (size - 0) GDMA_STAGE_SIZE = size := by
    rw [UInt32.sub_zero]
    exact if_pos hle
  rw [chunkLoop, dif_pos hpos, hmin, h]
  show chunkLoop step size (0 + size) s' = .ok s'
  rw [UInt32.zero_add, chunkLoop, dif_neg (UInt32.lt_irrefl size)]

/-- The sample call returns 0, and has copied from 17 MiB into the slice
to 18 MiB into it wherever the region is. -/
theorem sampleCall_ok (hr : (sampleDriver g).windowRanges ((sampleDriver g).windowPhys + 0x1100000)
        ((sampleDriver g).windowPhys + 0x1200000) 2 2
      = .ok (0x1100000, 0x1200000)) (m : Memory) :
    (sampleDriver g).call sampleBar sampleHost sampleEnv m (sampleCall g) = .ok { m with
        phys := transfer m.phys m.phys (sampleHost.base + 0x1200000)
          (sampleHost.base + 0x1100000) 2 } := by
  obtain ⟨job, hjob⟩ : ∃ job, sampleHost.rpcCopy sampleEnv 0
      (linearCopy (0x1100000 + 0) (0x1200000 + 0) 2) = .ok job :=
    exists_ok_of_toBool (by decide)
  have hrun : job.run m.phys = transfer m.phys m.phys
      (sampleHost.base + 0x1200000) (sampleHost.base + 0x1100000) 2 :=
    Host.rpcCopy_linear hjob m.phys
  simp only [Driver.call, sampleCall, Driver.dmaNoncacheMemcpy, guards]
  refine ⟨by decide, _, hr, chunkLoop_one (by decide) (by decide) ?_⟩
  simp only [Driver.noncacheStep, bind_ok, pure_ok]
  exact ⟨job, hjob, by rw [hrun]⟩

/-- A region at the start of the slice, as the driver asks for. -/
theorem copies_iff_sample : sampleBar.gdmaInit 0 0x1F00000 = .ok (sampleDriver 0) ∧
      (∃ m m', (sampleDriver 0).call sampleBar sampleHost sampleEnv m (sampleCall 0) = .ok m') ∧
      ∀ m m', (sampleDriver 0).call sampleBar sampleHost sampleEnv m (sampleCall 0) = .ok m' →
        (sampleDriver 0).Correct sampleBar sampleHost m m' (sampleCall 0) := by
  have hret : ∃ m m', (sampleDriver 0).call sampleBar sampleHost sampleEnv m
      (sampleCall 0) = .ok m' :=
    ⟨⟨fun _ => 0, fun _ => 0⟩, _, sampleCall_ok (by rfl) _⟩
  exact ⟨sampleDriver_loads 0, hret,
    (copies_iff (sampleDriver_loads 0) (sampleCall 0) hret).mpr rfl⟩

/-- A region 1 MiB into the slice, where the driver goes when another
device has the start: the call returns 0 with the second byte of the
source set and the second byte of the destination not. -/
theorem copy_misses_destination :
    sampleBar.gdmaInit 0x100000 0x1F00000 = .ok (sampleDriver 0x100000) ∧
      ∃ m m', (sampleDriver 0x100000).call sampleBar sampleHost sampleEnv m
          (sampleCall 0x100000) = .ok m' ∧
        m.phys (sampleHost.base + 0x1200001) = 1 ∧
        m'.phys (sampleHost.base + 0x1300001) = 0 ∧
        ¬ (sampleDriver 0x100000).Correct sampleBar sampleHost m m' (sampleCall 0x100000) := by
  have hcall := sampleCall_ok (g := 0x100000) (by rfl)
    ⟨single (sampleHost.base + 0x1200001), fun _ => 0⟩
  have hone : single (sampleHost.base + 0x1200001)
      (sampleHost.base + 0x1200001) = 1 := single_same _
  have hzero : transfer (single (sampleHost.base + 0x1200001))
      (single (sampleHost.base + 0x1200001)) (sampleHost.base + 0x1200000)
      (sampleHost.base + 0x1100000) 2 (sampleHost.base + 0x1300001) = 0 := by
    rw [transfer_apart (by omega)]
    exact single_ne (by omega)
  refine ⟨sampleDriver_loads _, _, _, hcall, ?_, ?_, ?_⟩
  · dsimp only
    exact hone
  · dsimp only
    exact hzero
  rintro ⟨hcopies, -⟩
  have hpair : (sampleHost.base + 0x1200001, sampleHost.base + 0x1300001) ∈ linearPairs
        (sampleHost.at sampleBar ((sampleDriver 0x100000).windowPhys + 0x1200000).toNat)
        (sampleHost.at sampleBar ((sampleDriver 0x100000).windowPhys + 0x1100000).toNat) 2 :=
    ⟨1, by decide, rfl⟩
  have hmoved := hcopies.moved _ hpair
  dsimp only at hmoved
  exact absurd hmoved (by decide)

end AmbaVirt.Gdma
