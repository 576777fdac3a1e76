/-
How the server composes a guest's aux aperture
(tools/virt_iav_aperture.c), and that whoever checks it later accepts it:
the kernel module that configures the node, and the broker that reports
it to the guest.

The partitions of the primary role are placed one after the other, each
at the next 64 KiB boundary (`place`). The size is then doubled from
8 KiB until all of it fits, and further while it is a size to be avoided
(`growTo`, `avoidLoop`). The partition ids are any list without
repetition.

Every size the search looks at is a power of two, or zero once the shift
has left the word. The lemmas follow the exponent.
-/
import AmbaVirt.Iav.Info
import AmbaVirt.Kernel.Aperture

namespace AmbaVirt.Iav

open Lib Kernel

/-- `struct virt_iav_aperture_part`. -/
structure AperturePart where
  pid : UInt32
  base : UInt64
  len : UInt64
  deriving DecidableEq

def AperturePart.span (p : AperturePart) : Span := ⟨p.base.toNat, p.len.toNat⟩

/-- A partition that is not left out. -/
def AperturePart.Usable (p : AperturePart) : Prop :=
  ¬ (p.len = 0 ∨ p.base % PAGE_BYTES ≠ 0 ∨ p.len % PAGE_BYTES ≠ 0 ∨ p.base + p.len < p.base)
  deriving Decidable

/-- The range of a partition placed at `off`. -/
def AperturePart.rangeAt (p : AperturePart) (off : UInt64) : AuxRange where
  phys := p.base
  len := p.len
  offset := off
  pid := p.pid

def partOf (parts : List AperturePart) (pid : UInt32) : Option AperturePart :=
  parts.reverse.find? (·.pid == pid)

/-- `round_up`. -/
def roundUp (v a : UInt64) : UInt64 := (v + a - 1) / a * a

/-- The loop over the ids of the primary role: where the next range may
start, and the ranges placed so far. -/
def place (parts : List AperturePart) :
    List UInt32 → UInt64 → List AuxRange → Except Errno (UInt64 × List AuxRange)
  | [], off, l => .ok (off, l)
  | pid :: pids, off, l =>
    match (partOf parts pid).filter fun p => decide p.Usable with
    | none => place parts pids off l
    | some p =>
      if l.length ≥ AMBA_VIRT_IAV_AUX_MAX_RANGES.toNat then .ok (off, l)
      else
        let off := roundUp off AMBA_VIRT_IAV_AUX_ALIGN
        if off > AMBA_VIRT_IAV_AUX_MAX_SIZE ∨
            p.len > AMBA_VIRT_IAV_AUX_MAX_SIZE - off then .error .E2BIG
        else place parts pids (off + p.len) (l ++ [p.rangeAt off])

/-- `while (size < need) size <<= 1`. -/
def growTo (need : UInt64) : Nat → UInt64 → Option UInt64
  | 0, _ => none
  | fuel + 1, size =>
    if size < need then growTo need fuel (size <<< 1) else some size

/-- The loop over the sizes to be avoided: the size after it, and whether
it was doubled. -/
def avoidPass : List UInt64 → UInt64 → UInt64 × Bool
  | [], size => (size, false)
  | a :: l, size =>
    if a = size then ((avoidPass l (size <<< 1)).1, true) else avoidPass l size

/-- The `do … while` around it. -/
def avoidLoop (avoid : List UInt64) : Nat → UInt64 → Option UInt64
  | 0, _ => none
  | fuel + 1, size =>
    let r := avoidPass avoid size
    if r.2 = true ∧ r.1 ≤ AMBA_VIRT_IAV_AUX_MAX_SIZE then
      avoidLoop avoid fuel r.1
    else some r.1

def cfgOf (size epoch : UInt64) (l : List AuxRange) : AuxCfg where
  size
  epoch
  count := l.length.toUInt32
  range := fun i => l.getD i {}

/-- `virt_iav_aperture_compose`: `none` if the search runs out of fuel,
`.ok none` if it returns 0. -/
def compose (pids : List UInt32) (parts : List AperturePart)
    (avoid : List UInt64) (epoch : UInt64) (fuel : Nat) :
    Option (Except Errno (Option AuxCfg)) :=
  if epoch = 0 then some (.error .EINVAL)
  else
    match place parts pids 0 [] with
    | .error e => some (.error e)
    | .ok (off, l) =>
      if l = [] then some (.ok none)
      else do
        let size ← growTo (off + PAGE_BYTES) 64 AMBA_VIRT_IAV_AUX_MIN_SIZE
        let size ← avoidLoop avoid fuel size
        if size > AMBA_VIRT_IAV_AUX_MAX_SIZE ∨ ¬ IsPow2U64 size then
          some (.error .E2BIG)
        else some (.ok (some (cfgOf size epoch l)))

/-- The sources `virt_iav_aperture_init` registers. -/
def sourcesOf (parts : List AperturePart) : AuxSources where
  count := parts.length.toUInt32
  src := fun i => (parts[i.val]?).elim {} fun p =>
    { phys := p.base, len := p.len, pid := p.pid }

/-- The view `virt_iav_aperture_get` gives of a configuration. -/
def viewOf (c : AuxCfg) : Aperture where
  size := c.size
  epoch := c.epoch
  count := c.count
  e := fun i =>
    if i.val < c.count.toNat then
      ⟨(c.range i).pid, (c.range i).phys, (c.range i).len, (c.range i).offset⟩
    else ⟨0, 0, 0, 0⟩

-- ==== the ranges

variable {off : UInt64}

theorem roundUp_spec (h : off.toNat ≤ 0x40000000) :
    off.toNat ≤ (roundUp off AMBA_VIRT_IAV_AUX_ALIGN).toNat ∧
      (roundUp off AMBA_VIRT_IAV_AUX_ALIGN).toNat % 0x10000 = 0 := by
  have ha : AMBA_VIRT_IAV_AUX_ALIGN.toNat = 0x10000 := rfl
  have hsum : (off + AMBA_VIRT_IAV_AUX_ALIGN - 1).toNat = off.toNat + 0xffff := by
    rw [UInt64.toNat_sub_of_le, toNat_add_exact (by omega), ha]
    · rfl
    · rw [UInt64.le_iff_toNat_le, toNat_add_exact (by omega), ha]
      show 1 ≤ _
      omega
  have hval : (roundUp off AMBA_VIRT_IAV_AUX_ALIGN).toNat
      = (off.toNat + 0xffff) / 0x10000 * 0x10000 := by
    unfold roundUp
    rw [UInt64.toNat_mul, UInt64.toNat_div, hsum, ha]
    omega
  omega

/-- A range is a usable partition of the list. -/
def Carries (parts : List AperturePart) (r : AuxRange) : Prop :=
  ∃ p ∈ parts, p.Usable ∧ p.pid = r.pid ∧ p.base = r.phys ∧ p.len = r.len

/-- What is known of the ranges placed below `off`. -/
structure Placed (parts : List AperturePart) (off : UInt64)
    (l : List AuxRange) : Prop where
  off_le : off.toNat ≤ 0x40000000
  length_le : l.length ≤ 16
  carries : ∀ r ∈ l, Carries parts r
  flags : ∀ r ∈ l, r.flags = 0
  aligned : ∀ r ∈ l, r.offset.toNat % 0x10000 = 0
  below : ∀ r ∈ l, r.offset.toNat + r.len.toNat ≤ off.toNat
  last : l ≠ [] → ∃ r ∈ l, r.offset.toNat + r.len.toNat = off.toNat
  sorted : l.Pairwise fun r o => r.offset.toNat + r.len.toNat ≤ o.offset.toNat
  pids : l.Pairwise fun r o => r.pid ≠ o.pid

theorem Placed.nil (parts : List AperturePart) : Placed parts 0 [] := by
  constructor <;> simp

variable {parts : List AperturePart} {p : AperturePart}

theorem partOf_some {pid : UInt32}
    (h : partOf parts pid = some p) : p ∈ parts ∧ p.pid = pid := by
  have hmem := List.mem_of_find?_eq_some h
  have hpid := List.find?_some h
  exact ⟨List.mem_reverse.mp hmem, by simpa using hpid⟩

variable {l : List AuxRange}

theorem Placed.snoc (h : Placed parts off l) (hp : p ∈ parts)
    (hu : p.Usable) (hroom : l.length < 16) (hnew : ∀ r ∈ l, r.pid ≠ p.pid)
    (hlen : (roundUp off AMBA_VIRT_IAV_AUX_ALIGN).toNat + p.len.toNat ≤ 0x40000000) :
    Placed parts (roundUp off AMBA_VIRT_IAV_AUX_ALIGN + p.len)
      (l ++ [p.rangeAt (roundUp off AMBA_VIRT_IAV_AUX_ALIGN)]) := by
  obtain ⟨hle, hal⟩ := roundUp_spec h.off_le
  have hend : (roundUp off AMBA_VIRT_IAV_AUX_ALIGN + p.len).toNat
      = (roundUp off AMBA_VIRT_IAV_AUX_ALIGN).toNat + p.len.toNat :=
    toNat_add_exact (by omega)
  have hsnoc {P : AuxRange → Prop} {o : AuxRange} :
      (∀ r ∈ l ++ [o], P r) ↔ (∀ r ∈ l, P r) ∧ P o := by
    rw [List.forall_mem_append, List.forall_mem_singleton]
  refine ⟨?_, ?_, ?_, ?_, ?_, ?_, ?_, ?_, ?_⟩
  · omega
  · rw [List.length_append, List.length_singleton]
    omega
  · exact hsnoc.mpr ⟨h.carries, p, hp, hu, rfl, rfl, rfl⟩
  · exact hsnoc.mpr ⟨h.flags, rfl⟩
  · exact hsnoc.mpr ⟨h.aligned, hal⟩
  · refine hsnoc.mpr ⟨fun r hr => ?_, hend.ge⟩
    have := h.below r hr
    omega
  · intro _
    exact ⟨_, List.mem_append_right l (List.mem_singleton.mpr rfl), hend.symm⟩
  · rw [List.pairwise_append]
    refine ⟨h.sorted, List.pairwise_singleton _ _, ?_⟩
    intro r hr o ho
    obtain rfl := List.mem_singleton.mp ho
    exact (h.below r hr).trans hle
  · rw [List.pairwise_append]
    refine ⟨h.pids, List.pairwise_singleton _ _, ?_⟩
    intro r hr o ho
    obtain rfl := List.mem_singleton.mp ho
    exact hnew r hr

variable {pids : List UInt32}

theorem place_ok {off' : UInt64} {l' : List AuxRange} (hnodup : pids.Nodup)
    (h : Placed parts off l) (hnew : ∀ r ∈ l, r.pid ∉ pids)
    (hok : place parts pids off l = .ok (off', l')) : Placed parts off' l' := by
  induction pids generalizing off l with
  | nil =>
    cases hok
    exact h
  | cons pid pids ih =>
    obtain ⟨hpid, hnd⟩ := List.nodup_cons.mp hnodup
    have hrest : ∀ r ∈ l, r.pid ∉ pids := fun r hr hm =>
      hnew r hr (List.mem_cons_of_mem _ hm)
    unfold place at hok
    split at hok
    · exact ih hnd h hrest hok
    rename_i p hfind
    rw [Option.filter_eq_some_iff, decide_eq_true_eq] at hfind
    obtain ⟨hp, rfl⟩ := partOf_some hfind.1
    split at hok
    · cases hok
      exact h
    rename_i hroom
    dsimp only at hok
    split at hok
    · cases hok
    rename_i hfits
    rw [not_or, UInt64.not_lt, UInt64.not_lt, UInt64.le_iff_toNat_le] at hfits
    have hmax : AMBA_VIRT_IAV_AUX_MAX_SIZE.toNat = 0x40000000 := rfl
    have hlen := hfits.2
    rw [UInt64.le_iff_toNat_le, UInt64.toNat_sub_of_le _ _
      (UInt64.le_iff_toNat_le.mpr hfits.1)] at hlen
    have hroom16 : l.length < 16 := Nat.not_le.mp hroom
    refine ih hnd (h.snoc hp hfind.2 hroom16 ?_ ?_) ?_ hok
    · intro r hr heq
      exact hnew r hr (heq ▸ List.mem_cons_self)
    · omega
    rw [List.forall_mem_append, List.forall_mem_singleton]
    exact ⟨hrest, hpid⟩

theorem Placed.need (h : Placed parts off l) : (off + PAGE_BYTES).toNat = off.toNat + 4096 := by
  have hpage : PAGE_BYTES.toNat = 4096 := rfl
  have hoff := h.off_le
  rw [toNat_add_exact (by omega), hpage]

-- ==== the size

variable {size : UInt64} {k : Nat}

theorem toNat_double (h : size.toNat = 2 ^ k % 2 ^ 64) :
    (size <<< 1).toNat = 2 ^ (k + 1) % 2 ^ 64 := by
  have hone : (1 : UInt64).toNat % 64 = 1 := rfl
  rw [UInt64.toNat_shiftLeft, hone, Nat.shiftLeft_eq, h, Nat.mod_mul_mod]
  rw [pow_one, ← pow_succ]

variable {fuel : Nat}

theorem growTo_some {need size' : UInt64} (hneed : need.toNat ≤ 2 ^ 63)
    (hsize : size.toNat = 2 ^ k) (h : growTo need fuel size = some size') :
    ∃ k', k ≤ k' ∧ size'.toNat = 2 ^ k' ∧ need.toNat ≤ 2 ^ k' ∧
      ∀ j, k ≤ j → j < k' → 2 ^ j < need.toNat := by
  induction fuel generalizing size k with
  | zero => cases h
  | succ fuel ih =>
    unfold growTo at h
    split at h
    · rename_i hlt
      rw [UInt64.lt_iff_toNat_lt, hsize] at hlt
      have hk : k < 63 := (Nat.pow_lt_pow_iff_right (by omega)).mp (lt_of_lt_of_le hlt hneed)
      have hdouble : (size <<< 1).toNat = 2 ^ (k + 1) := by
        have hpow : 2 ^ k < 2 ^ 64 := Nat.pow_lt_pow_right (by omega) (by omega)
        have hpow' : 2 ^ (k + 1) < 2 ^ 64 :=
          Nat.pow_lt_pow_right (by omega) (by omega)
        rw [toNat_double (hsize.trans (Nat.mod_eq_of_lt hpow).symm), Nat.mod_eq_of_lt hpow']
      obtain ⟨k', hk', hval, hge, hbefore⟩ := ih hdouble h
      refine ⟨k', by omega, hval, hge, ?_⟩
      intro j hj hj'
      rcases Nat.eq_or_lt_of_le hj with rfl | hj
      · exact hlt
      · exact hbefore j hj hj'
    · rename_i hge
      cases h
      rw [UInt64.lt_iff_toNat_lt, hsize, not_lt] at hge
      exact ⟨k, le_rfl, hsize, hge, fun j hj hj' => absurd hj' (by omega)⟩

theorem growTo_isSome {need : UInt64} (hneed : need.toNat ≤ 2 ^ 63)
    (hsize : size.toNat = 2 ^ k) (hfuel : 64 ≤ fuel + k) (hpos : 0 < fuel) :
    (growTo need fuel size).isSome := by
  induction fuel generalizing size k with
  | zero => omega
  | succ fuel ih =>
    unfold growTo
    split
    · rename_i hlt
      rw [UInt64.lt_iff_toNat_lt, hsize] at hlt
      have hk : k < 63 := (Nat.pow_lt_pow_iff_right (by omega)).mp (lt_of_lt_of_le hlt hneed)
      have hpow : 2 ^ k < 2 ^ 64 := Nat.pow_lt_pow_right (by omega) (by omega)
      have hpow' : 2 ^ (k + 1) < 2 ^ 64 :=
        Nat.pow_lt_pow_right (by omega) (by omega)
      refine ih (k := k + 1) ?_ (by omega) (by omega)
      rw [toNat_double (hsize.trans (Nat.mod_eq_of_lt hpow).symm), Nat.mod_eq_of_lt hpow']
    · rfl

/-- One pass over the sizes to be avoided: every exponent it passes is one
of them, and if it passes none the size is not. -/
theorem avoidPass_spec (avoid : List UInt64) (hsize : size.toNat = 2 ^ k % 2 ^ 64) :
    ∃ k', (avoidPass avoid size).1.toNat = 2 ^ k' % 2 ^ 64 ∧ k ≤ k' ∧
      (∀ j, k ≤ j → j < k' → ∃ a ∈ avoid, a.toNat = 2 ^ j % 2 ^ 64) ∧
      ((avoidPass avoid size).2 = false → k' = k ∧ size ∉ avoid) ∧
      ((avoidPass avoid size).2 = true → k < k' ∧ size ∈ avoid) := by
  induction avoid generalizing size k with
  | nil => exact ⟨k, hsize, le_rfl, fun j hj hj' => absurd hj' (by omega),
      fun _ => ⟨rfl, by simp⟩, by simp [avoidPass]⟩
  | cons a l ih =>
    unfold avoidPass
    split
    · rename_i ha
      subst ha
      obtain ⟨k', hval, hle, hpassed, -, -⟩ := ih (toNat_double hsize)
      refine ⟨k', hval, by omega, ?_, by simp, ?_⟩
      · intro j hj hj'
        rcases Nat.eq_or_lt_of_le hj with rfl | hj
        · exact ⟨a, List.mem_cons_self, hsize⟩
        · obtain ⟨b, hb, hbj⟩ := hpassed j hj hj'
          exact ⟨b, List.mem_cons_of_mem a hb, hbj⟩
      · intro _
        exact ⟨by omega, List.mem_cons_self⟩
    · rename_i ha
      obtain ⟨k', hval, hle, hpassed, hno, hyes⟩ := ih hsize
      refine ⟨k', hval, hle, ?_, ?_, ?_⟩
      · intro j hj hj'
        obtain ⟨b, hb, hbj⟩ := hpassed j hj hj'
        exact ⟨b, List.mem_cons_of_mem a hb, hbj⟩
      · intro hf
        obtain ⟨hk, hmem⟩ := hno hf
        refine ⟨hk, ?_⟩
        intro hin
        rcases List.mem_cons.mp hin with heq | hin
        · exact ha heq.symm
        · exact hmem hin
      · intro ht
        exact ⟨(hyes ht).1, List.mem_cons_of_mem a (hyes ht).2⟩

variable {avoid : List UInt64}

theorem avoidLoop_some {size' : UInt64} (hsize : size.toNat = 2 ^ k % 2 ^ 64)
    (h : avoidLoop avoid fuel size = some size')
    (hmax : size' ≤ AMBA_VIRT_IAV_AUX_MAX_SIZE) :
    ∃ k', size'.toNat = 2 ^ k' % 2 ^ 64 ∧ k ≤ k' ∧ size' ∉ avoid ∧
      ∀ j, k ≤ j → j < k' → ∃ a ∈ avoid, a.toNat = 2 ^ j % 2 ^ 64 := by
  induction fuel generalizing size k with
  | zero => cases h
  | succ fuel ih =>
    obtain ⟨k₁, hval, hle, hpassed, hno, -⟩ := avoidPass_spec avoid hsize
    unfold avoidLoop at h
    dsimp only at h
    split at h
    · obtain ⟨k', hval', hle', hnot, hpassed'⟩ := ih hval h
      refine ⟨k', hval', by omega, hnot, ?_⟩
      intro j hj hj'
      rcases Nat.lt_or_ge j k₁ with hlt | hge
      · exact hpassed j hj hlt
      · exact hpassed' j hge hj'
    · rename_i hexit
      cases h
      have hfalse : (avoidPass avoid size).2 = false := by
        rw [← Bool.not_eq_true]
        exact fun htrue => hexit ⟨htrue, hmax⟩
      obtain ⟨hk, hnot⟩ := hno hfalse
      have hsame : (avoidPass avoid size).1 = size := by
        rw [← UInt64.toNat_inj, hval, hk, hsize]
      refine ⟨k₁, hval, hle, ?_, hpassed⟩
      rw [hsame]
      exact hnot

/-- The search ends, unless zero is a size to be avoided: then it may
shift the size out of the word and never leave zero. -/
theorem avoidLoop_isSome (hzero : 0 ∉ avoid) (hsize : size.toNat = 2 ^ k % 2 ^ 64)
    (hfuel : (k < 64 ∧ 2 ≤ fuel ∧ 32 ≤ fuel + k) ∨ (64 ≤ k ∧ 1 ≤ fuel)) :
    (avoidLoop avoid fuel size).isSome := by
  induction fuel generalizing size k with
  | zero => omega
  | succ fuel ih =>
    obtain ⟨k₁, hval, -, -, -, hyes⟩ := avoidPass_spec avoid hsize
    unfold avoidLoop
    dsimp only
    split
    · rename_i hagain
      obtain ⟨hlt, hmem⟩ := hyes hagain.1
      have hle := UInt64.le_iff_toNat_le.mp hagain.2
      have hmax : AMBA_VIRT_IAV_AUX_MAX_SIZE.toNat = 2 ^ 30 := rfl
      -- a size that is avoided is not zero, so its exponent is in the word
      have hk : k < 64 := by
        by_contra hk
        have hdvd : 2 ^ 64 ∣ 2 ^ k := Nat.pow_dvd_pow 2 (by omega)
        rw [Nat.mod_eq_zero_of_dvd hdvd] at hsize
        have hz : size = 0 := UInt64.toNat_inj.mp hsize
        exact hzero (hz ▸ hmem)
      rcases Nat.lt_or_ge k₁ 64 with hk₁ | hk₁
      · have hpow : 2 ^ k₁ < 2 ^ 64 := Nat.pow_lt_pow_right (by omega) hk₁
        rw [hval, Nat.mod_eq_of_lt hpow, hmax] at hle
        have hk30 := (Nat.pow_le_pow_iff_right (by omega)).mp hle
        exact ih hval (.inl (by omega))
      · -- the size has become zero, and the next pass is the last
        exact ih hval (.inr (by omega))
    · rfl

-- ==== the validators

section Accepted

variable {epoch : UInt64}

theorem cfgOf_count (h : l.length ≤ 16) : (cfgOf size epoch l).count.toNat = l.length := by
  show l.length.toUInt32.toNat = l.length
  simp only [Nat.toUInt32_eq, UInt32.toNat_ofNat']
  omega

theorem cfgOf_range {i : Fin 16} (hi : i.val < l.length) :
    (cfgOf size epoch l).range i = l[i.val] := by
  show l.getD i.val {} = _
  rw [List.getD_eq_getElem _ _ hi]

theorem cfgOf_unused {i : Fin 16} (hi : l.length ≤ i.val) : (cfgOf size epoch l).range i = {} := by
  show l.getD i.val {} = _
  rw [List.getD_eq_default _ _ hi]

theorem cfgOf_ranges (h : l.length ≤ 16) : (cfgOf size epoch l).ranges = l := by
  unfold AuxCfg.ranges
  rw [cfgOf_count h]
  apply List.ext_getElem
  · simp only [List.length_take, List.length_ofFn]
    omega
  · intro i hi hi'
    rw [List.getElem_take, List.getElem_ofFn, cfgOf_range hi']

theorem AperturePart.Usable.sum (h : p.Usable) :
    p.base.toNat + p.len.toNat < 2 ^ 64 := by
  simp only [AperturePart.Usable, not_or, not_not] at h
  have hwrap := h.2.2.2
  rw [UInt64.lt_iff_toNat_lt, UInt64.toNat_add] at hwrap
  have hl := p.len.toNat_lt
  omega

variable {r : AuxRange} {w : WinBounds}

/-- A placed range lies in the module's window. -/
theorem Carries.physOk (h : Carries parts r) (hin : ∀ p ∈ parts, w.min ≤ p.base ∧
      p.base.toNat + p.len.toNat ≤ w.max.toNat) : w.PhysOk r.phys r.len := by
  obtain ⟨p, hp, hu, -, hbase, hlen⟩ := h
  have hsum := hu.sum
  obtain ⟨hmin, hmax⟩ := hin p hp
  simp only [AperturePart.Usable, not_or, not_not] at hu
  rw [← hbase, ← hlen]
  refine ⟨hu.1, hu.2.1, hu.2.2.1, hsum, hmin, ?_⟩
  rw [UInt64.le_iff_toNat_le, toNat_add_exact hsum]
  exact hmax

/-- Two placed ranges are different partitions, so their memory is
apart. -/
theorem Carries.apart {o : AuxRange} (hr : Carries parts r)
    (ho : Carries parts o) (hne : r.pid ≠ o.pid)
    (hdis : parts.Pairwise fun p q => p.span.Clear q.span) :
    ¬ (o.phys < r.phys + r.len ∧ r.phys < o.phys + o.len) := by
  obtain ⟨p, hp, hpu, hppid, hpbase, hplen⟩ := hr
  obtain ⟨q, hq, hqu, hqpid, hqbase, hqlen⟩ := ho
  have hpq : p ≠ q := by
    intro h
    rw [h, hqpid] at hppid
    exact hne hppid.symm
  have : Std.Symm fun p q : AperturePart => p.span.Clear q.span :=
    ⟨fun _ _ h => h.symm⟩
  have hclear := hdis.forall hp hq hpq
  have hps := hpu.sum
  have hqs := hqu.sum
  simp only [AperturePart.Usable, not_or, not_not] at hpu hqu
  have hpl : p.len.toNat ≠ 0 := fun h0 => hpu.1 (UInt64.toNat_inj.mp h0)
  have hql : q.len.toNat ≠ 0 := fun h0 => hqu.1 (UInt64.toNat_inj.mp h0)
  rw [← hpbase, ← hplen, ← hqbase, ← hqlen, UInt64.lt_iff_toNat_lt,
    UInt64.lt_iff_toNat_lt, toNat_add_exact hps, toNat_add_exact hqs]
  simp only [Span.Clear, Span.Apart, AperturePart.span] at hclear
  omega

structure Sized (off size : UInt64) (k : Nat) : Prop where
  eq : size.toNat = 2 ^ k
  min : 13 ≤ k
  max : k ≤ 30
  holds : off.toNat + 4096 ≤ 2 ^ k

theorem Sized.size_le (h : Sized off size k) : 0x2000 ≤ size.toNat ∧ size.toNat ≤ 0x40000000 := by
  have hmin : 2 ^ 13 ≤ 2 ^ k := Nat.pow_le_pow_right (by omega) h.min
  have hmax : 2 ^ k ≤ 2 ^ 30 := Nat.pow_le_pow_right (by omega) h.max
  rw [h.eq]
  exact ⟨hmin, hmax⟩

section

variable (h : Placed parts off l) {i j : Nat}

include h

theorem Placed.offset_fits (hs : Sized off size k) (hr : r ∈ l) :
    r.offset.toNat + r.len.toNat ≤ (size - PAGE_SIZE).toNat ∧
      (size - PAGE_SIZE).toNat = size.toNat - 4096 := by
  have hpage : PAGE_SIZE.toNat = 4096 := rfl
  have hholds := hs.holds
  rw [← hs.eq] at hholds
  have hsub : (size - PAGE_SIZE).toNat = size.toNat - 4096 := by
    rw [UInt64.toNat_sub_of_le, hpage]
    rw [UInt64.le_iff_toNat_le, hpage]
    omega
  have hbelow := h.below r hr
  omega

theorem Placed.aligned_mod (hr : r ∈ l) :
    r.offset % AMBA_VIRT_IAV_AUX_ALIGN = 0 := by
  rw [← UInt64.toNat_inj, UInt64.toNat_mod]
  exact h.aligned r hr

/-- Ranges at one place in the BAR there are none. -/
theorem Placed.offset_apart (hi : i < l.length) (hj : j < i) :
    ¬ (l[i].offset < l[j].offset + l[j].len ∧ l[j].offset < l[i].offset + l[i].len) := by
  have hsorted := List.pairwise_iff_getElem.mp h.sorted j i (by omega) hi hj
  have hbelow := h.below l[j] (List.getElem_mem (by omega))
  have hoff := h.off_le
  rw [UInt64.lt_iff_toNat_lt, toNat_add_exact (by omega)]
  omega

theorem Placed.pid_ne (hi : i < l.length) (hj : j < i) : l[j].pid ≠ l[i].pid :=
  List.pairwise_iff_getElem.mp h.pids j i (by omega) hi hj

/-- The kernel module accepts the configuration. -/
theorem Placed.validate (hs : Sized off size k) (hne : l ≠ []) (hepoch : epoch ≠ 0)
    (hin : ∀ p ∈ parts, w.min ≤ p.base ∧ p.base.toNat + p.len.toNat ≤ w.max.toNat)
    (hdis : parts.Pairwise fun p q => p.span.Clear q.span) :
    (cfgOf size epoch l).validate w = .ok () := by
  have hcount : (cfgOf size epoch l).count.toNat = l.length := cfgOf_count h.length_le
  have hpos := List.length_pos_iff.mpr hne
  have hlen := h.length_le
  have hsize := hs.size_le
  simp only [AuxCfg.validate, guards, checkAll_ok]
  refine ⟨?_, ?_, ?_, ?_⟩
  · simpa [cfgOf] using hepoch
  · rw [not_or, not_or, not_not, UInt64.not_lt, UInt64.not_lt]
    refine ⟨isPow2U64_iff.mpr ⟨k, hs.eq⟩, ?_, ?_⟩
    · exact hsize.1
    · rw [UInt64.le_iff_toNat_le]
      exact hsize.2
  · rw [not_or, UInt32.not_lt, UInt32.le_iff_toNat_le, hcount, ← UInt32.toNat_inj, hcount]
    exact ⟨hpos.ne', hlen⟩
  · intro i _
    unfold AuxCfg.validateRange
    rw [hcount]
    split
    · rename_i hi
      rw [cfgOf_unused hi, refuseIf_ok]
      simp
    have hi' : i.val < l.length := by omega
    have hmem : l[i.val] ∈ l := List.getElem_mem hi'
    obtain ⟨hfits, -⟩ := h.offset_fits hs hmem
    have hsub := (size - PAGE_SIZE).toNat_lt
    rw [cfgOf_range hi']
    simp only [guards, checkAll_ok, not_not]
    refine ⟨h.flags _ hmem, (h.carries _ hmem).physOk hin, ?_, ?_⟩
    · rw [not_or, not_or, not_not, UInt64.not_lt, UInt64.le_iff_toNat_le,
        toNat_add_exact (by omega)]
      exact ⟨h.aligned_mod hmem, by omega, hfits⟩
    intro j hj
    have hji : j.val < i.val := by simpa using hj
    have hj' : j.val < l.length := by omega
    rw [cfgOf_range hj']
    intro hclash
    rcases hclash with hoff | hphys
    · exact h.offset_apart hi' hji hoff
    · exact (h.carries _ (List.getElem_mem hj')).apart (h.carries _ hmem)
        (h.pid_ne hi' hji) hdis hphys

theorem Placed.checkSources (hlen : parts.length ≤ 32) :
    (cfgOf size epoch l).checkSources (sourcesOf parts) = .ok () := by
  have hcount : (sourcesOf parts).count.toNat = parts.length := by
    show parts.length.toUInt32.toNat = parts.length
    simp only [Nat.toUInt32_eq, UInt32.toNat_ofNat']
    omega
  unfold AuxCfg.checkSources
  rw [cfgOf_ranges h.length_le]
  simp only [checkAll_ok, refuseIf_ok, not_not]
  intro r hr
  obtain ⟨p, hp, -, hpid, hbase, hplen⟩ := h.carries r hr
  obtain ⟨i, hi, rfl⟩ := List.mem_iff_getElem.mp hp
  refine ⟨{ phys := parts[i].base, len := parts[i].len, pid := parts[i].pid }, ?_,
    hbase, hplen, hpid⟩
  unfold AuxSources.list
  rw [hcount, List.mem_take_iff_getElem]
  refine ⟨i, by simp; omega, ?_⟩
  rw [List.getElem_ofFn]
  simp [sourcesOf, hi]

/-- The broker accepts the view of it. -/
theorem Placed.apertureOf_view (hs : Sized off size k)
    (hne : l ≠ []) (hepoch : epoch ≠ 0) (hepoch32 : epoch.toNat < 2 ^ 32)
    (hpid : ∀ p ∈ parts, p.pid ≤ 0xff) :
    apertureOf (some (viewOf (cfgOf size epoch l))) = some (viewOf (cfgOf size epoch l)) := by
  have hcount : (cfgOf size epoch l).count.toNat = l.length := cfgOf_count h.length_le
  have hpos := List.length_pos_iff.mpr hne
  have hlen := h.length_le
  have hsize := hs.size_le
  rw [apertureOf, Option.filter_eq_some_iff, decide_eq_true_eq]
  refine ⟨rfl, ?_, ?_⟩
  · simp only [not_or, not_not, UInt32.not_lt, UInt64.not_lt]
    refine ⟨?_, ?_, isPow2U64_iff.mpr ⟨k, hs.eq⟩, ?_, hepoch, ?_⟩
    · intro h0
      have := congrArg UInt32.toNat h0
      exact absurd (hcount.symm.trans this) hpos.ne'
    · exact hcount.le.trans hlen
    · exact hsize.1
    · rw [UInt64.le_iff_toNat_le]
      show epoch.toNat ≤ 0xffffffff
      omega
  · intro i hi
    have hi' : i.val < l.length := hcount ▸ hi
    have hview (j : Fin 16) (hj : j.val < l.length) : (viewOf (cfgOf size epoch l)).e j
          = ⟨l[j.val].pid, l[j.val].phys, l[j.val].len, l[j.val].offset⟩ := by
      show (if j.val < (cfgOf size epoch l).count.toNat then _ else _) = _
      rw [if_pos (hcount ▸ hj), cfgOf_range hj]
    have hmem : l[i.val] ∈ l := List.getElem_mem hi'
    obtain ⟨hfits, -⟩ := h.offset_fits hs hmem
    obtain ⟨p, hp, hu, hppid, hpbase, hplen⟩ := h.carries _ hmem
    have hpid' := hpid p hp
    simp only [AperturePart.Usable, not_or, not_not] at hu
    rw [hview i hi']
    refine ⟨?_, ?_⟩
    · unfold Aperture.EntryOk
      simp only [not_or, not_not, UInt32.not_lt, UInt64.not_lt]
      rw [← hppid, ← hpbase, ← hplen]
      rw [← hplen] at hfits
      have hle : l[i.val].offset ≤ size - PAGE_BYTES := by
        exact le_trans (Nat.le_add_right _ _) hfits
      refine ⟨hpid', hu.1, hu.2.2.1, hu.2.1, h.aligned_mod hmem, hle, ?_, UInt64.not_lt.mp hu.2.2.2⟩
      show p.len.toNat ≤ (size - PAGE_BYTES - l[i.val].offset).toNat
      rw [UInt64.toNat_sub_of_le _ _ hle]
      show p.len.toNat ≤ (size - PAGE_SIZE).toNat - _
      omega
    · intro j hj
      have hji : j.val < i.val := hj
      rw [hview j (by omega)]
      unfold Aperture.EntriesApart
      rw [not_or]
      exact ⟨h.pid_ne hi' hji, h.offset_apart hi' hji⟩

end

end Accepted

/-- How a configuration was composed: its ranges, and the exponent of its
size with the ones passed over. -/
theorem compose_some {c : AuxCfg} (hpids : pids.Nodup)
    (h : compose pids parts avoid epoch fuel = some (.ok (some c))) :
    ∃ off l k, Placed parts off l ∧ l ≠ [] ∧ epoch ≠ 0 ∧ Sized off c.size k ∧
      c = cfgOf c.size epoch l ∧ c.size ∉ avoid ∧
      ∀ j, 13 ≤ j → j < k → 2 ^ j < off.toNat + 4096 ∨ ∃ a ∈ avoid, a.toNat = 2 ^ j := by
  unfold compose at h
  split at h
  · cases h
  rename_i hepoch
  split at h
  · cases h
  rename_i off l hplace
  have hpl := place_ok hpids (Placed.nil parts) (by simp) hplace
  split at h
  · cases h
  rename_i hne
  obtain ⟨s₁, hgrow, h⟩ := Option.bind_eq_some_iff.mp h
  obtain ⟨s₂, hloop, h⟩ := Option.bind_eq_some_iff.mp h
  split at h
  · cases h
  rename_i hfin
  cases h
  rw [not_or, UInt64.not_lt, not_not] at hfin
  have hoff := hpl.off_le
  have hneed := hpl.need
  obtain ⟨k₁, hk₁, hval₁, hge, hsmall⟩ :=
    growTo_some (k := 13) (by omega) rfl hgrow
  have hlt := s₁.toNat_lt
  obtain ⟨k, hval, hle, hnot, havoid⟩ := avoidLoop_some (k := k₁)
    (by rw [hval₁] at hlt ⊢; exact (Nat.mod_eq_of_lt hlt).symm) hloop hfin.1
  -- a power of two is not zero, so its exponent is in the word
  have hk : k < 64 := by
    by_contra hk
    have hdvd : 2 ^ 64 ∣ 2 ^ k := Nat.pow_dvd_pow 2 (by omega)
    rw [Nat.mod_eq_zero_of_dvd hdvd] at hval
    exact hfin.2.1 (UInt64.toNat_inj.mp hval)
  rw [Nat.mod_eq_of_lt (Nat.pow_lt_pow_right (by omega) hk)] at hval
  have hmax := UInt64.le_iff_toNat_le.mp hfin.1
  rw [hval] at hmax
  have hk30 : k ≤ 30 := (Nat.pow_le_pow_iff_right (by omega)).mp
    (show 2 ^ k ≤ 2 ^ 30 from hmax)
  have hmono : 2 ^ k₁ ≤ 2 ^ k := Nat.pow_le_pow_right (by omega) hle
  refine ⟨off, l, k, hpl, hne, hepoch, ⟨hval, by omega, hk30, by omega⟩,
    rfl, hnot, ?_⟩
  intro j hj hjk
  rcases Nat.lt_or_ge j k₁ with hjk₁ | hjk₁
  · have := hsmall j hj hjk₁
    omega
  obtain ⟨a, ha, haj⟩ := havoid j hjk₁ hjk
  have hpow : 2 ^ j < 2 ^ 64 := Nat.pow_lt_pow_right (by omega) (by omega)
  rw [Nat.mod_eq_of_lt hpow] at haj
  exact .inr ⟨a, ha, haj⟩

/-- A size an aperture with these ranges may have: a power of two from
8 KiB on that holds them and the header page and is not to be avoided. -/
def FitSize (c : AuxCfg) (avoid : List UInt64) (size : Nat) : Prop :=
  (∃ k, size = 2 ^ k) ∧ AMBA_VIRT_IAV_AUX_MIN_SIZE.toNat ≤ size ∧
    (∀ r ∈ c.ranges, r.offset.toNat + r.len.toNat + 4096 ≤ size) ∧
    ∀ a ∈ avoid, a.toNat ≠ size

/-- What the server composes is accepted by everyone who checks it, and
no smaller aperture would have done. -/
theorem compose_accepted {w : WinBounds} {pids : List UInt32}
    {parts : List AperturePart} {avoid : List UInt64} {epoch : UInt64}
    {fuel : Nat} {c : AuxCfg} (hpids : pids.Nodup)
    (hin : ∀ p ∈ parts, w.min ≤ p.base ∧ p.base.toNat + p.len.toNat ≤ w.max.toNat)
    (hdis : parts.Pairwise fun p q => p.span.Clear q.span)
    (hpid : ∀ p ∈ parts, p.pid ≤ 0xff) (hepoch : epoch.toNat < 2 ^ 32)
    (h : compose pids parts avoid epoch fuel = some (.ok (some c))) :
    c.validate w = .ok () ∧ (parts.length ≤ AMBA_VIRT_IAV_AUX_MAX_SOURCES.toNat →
        c.checkSources (sourcesOf parts) = .ok ()) ∧
      apertureOf (some (viewOf c)) = some (viewOf c) ∧
      IsLeast { size | FitSize c avoid size } c.size.toNat := by
  obtain ⟨off, l, k, hpl, hne, hepoch0, hs, hc, hnot, hpassed⟩ :=
    compose_some hpids h
  have hranges : c.ranges = l := by
    rw [hc]
    exact cfgOf_ranges hpl.length_le
  refine ⟨?_, ?_, ?_, ?_, ?_⟩
  · rw [hc]
    exact hpl.validate hs hne hepoch0 hin hdis
  · intro hlen
    rw [hc]
    exact hpl.checkSources hlen
  · rw [hc]
    exact hpl.apertureOf_view hs hne hepoch0 hepoch hpid
  · refine ⟨⟨k, hs.eq⟩, hs.size_le.1, ?_, ?_⟩
    · intro r hr
      rw [hranges] at hr
      have hbelow := hpl.below r hr
      have hholds := hs.holds
      rw [hs.eq]
      omega
    · intro a ha heq
      exact hnot (UInt64.toNat_inj.mp heq ▸ ha)
  · intro size hsize
    obtain ⟨⟨j, rfl⟩, hmin, hholds, havoid⟩ := hsize
    rw [hs.eq]
    by_contra hlt
    have hjk : j < k := (Nat.pow_lt_pow_iff_right (by omega)).mp (not_le.mp hlt)
    have hj : 13 ≤ j := (Nat.pow_le_pow_iff_right (by omega)).mp (show 2 ^ 13 ≤ 2 ^ j from hmin)
    obtain ⟨r, hr, hend⟩ := hpl.last hne
    rw [hranges] at hholds
    have hr' := hholds r hr
    rcases hpassed j hj hjk with hsmall | ⟨a, ha, haj⟩
    · omega
    · exact havoid a ha haj

def sampleParts : List AperturePart :=
  [⟨12, 0x80010000, 0x3000⟩, ⟨10, 0x80000000, 0x1000⟩]

/-- Two partitions, and 128 KiB to be avoided. -/
theorem compose_accepted_two : ∃ c,
    compose [10, 11, 12] sampleParts [0x20000] 7 20 = some (.ok (some c)) ∧
      c.size = 0x40000 ∧ c.validate sampleBounds = .ok () ∧
      apertureOf (some (viewOf c)) = some (viewOf c) := by
  obtain ⟨c, hc, hsize⟩ : ∃ c,
      compose [10, 11, 12] sampleParts [0x20000] 7 20 = some (.ok (some c)) ∧
        c.size = 0x40000 := ⟨cfgOf 0x40000 7 [{ phys := 0x80000000, len := 0x1000, pid := 10 },
            { phys := 0x80010000, len := 0x3000, offset := 0x10000, pid := 12 }],
          by rfl, rfl⟩
  obtain ⟨hval, -, hview, -⟩ := compose_accepted (w := sampleBounds) (by decide)
    (by decide) (by decide) (by decide) (by decide) hc
  exact ⟨c, hc, hsize, hval, hview⟩

/-- Composing ends, unless zero is a size to be avoided. -/
theorem compose_isSome (hpids : pids.Nodup) (hzero : 0 ∉ avoid)
    (hfuel : 20 ≤ fuel) :
    (compose pids parts avoid epoch fuel).isSome := by
  unfold compose
  split
  · rfl
  split
  · rfl
  rename_i off l hplace
  have hpl := place_ok hpids (Placed.nil parts) (by simp) hplace
  split
  · rfl
  have hoff := hpl.off_le
  have hneed := hpl.need
  have hgrows : (growTo (off + PAGE_BYTES) 64 AMBA_VIRT_IAV_AUX_MIN_SIZE).isSome :=
    growTo_isSome (k := 13) (by omega) rfl (by omega) (by omega)
  obtain ⟨s₁, hgrow⟩ := Option.isSome_iff_exists.mp hgrows
  obtain ⟨k₁, hk₁, hval₁, -, hsmall⟩ :=
    growTo_some (k := 13) (by omega) rfl hgrow
  have hlt := s₁.toNat_lt
  have hk : k₁ < 64 := by
    rw [hval₁] at hlt
    exact (Nat.pow_lt_pow_iff_right (by omega)).mp hlt
  have hmod : s₁.toNat = 2 ^ k₁ % 2 ^ 64 := by
    rw [hval₁] at hlt ⊢
    exact (Nat.mod_eq_of_lt hlt).symm
  have hloops : (avoidLoop avoid fuel s₁).isSome :=
    avoidLoop_isSome hzero hmod (.inl (by omega))
  obtain ⟨s₂, hloop⟩ := Option.isSome_iff_exists.mp hloops
  simp only [hgrow, hloop, Option.bind_eq_bind, Option.bind_some]
  split <;> rfl

theorem compose_isSome_two : (compose [10, 11, 12] sampleParts [0x20000] 7 20).isSome :=
  compose_isSome (by decide) (by decide) le_rfl

end AmbaVirt.Iav
