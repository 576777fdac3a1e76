/-
Slice binding in the host kernel module (amba_virt_nohyper.c): the
per-slice nonce, the bound CID and the open count, under the one mutex
`g_slice_lock` that makes each entry point atomic.

The four entry points are functions on a table of `n` published slices;
entries past the count are never read. `amba_virt_slice_open` takes the
first non-zero value of the random source as an argument. The claim page
a first open writes is left out: nothing modelled here reads it back.

What the entry points promise is about histories: how many file handles
of a slice are open, and which nonce its current first open was given.
`Ledger` computes both from the calls alone, so that `SliceInv` can
compare them with the table.
-/
import AmbaVirt.Lib.Trans
import AmbaVirt.Kernel.Geometry

namespace AmbaVirt.Kernel

open Lib Lib.System Function

variable {n : Nat}

-- ==== the table

/-- `struct amba_virt_slice_state`. The open count is a C `int`; it
counts file handles, so it never comes near the end of its range. -/
structure SliceState where
  desc : SliceDesc
  nonce : UInt64 := 0
  boundCid : UInt32 := 0
  openCount : Int := 0
  deriving DecidableEq, Inhabited

/-- `g_slice_states`, up to `g_slice_list.count`. -/
abbrev Slices (n : Nat) := Fin n → SliceState

/-- The table as `amba_virt_publish_slices` leaves it: descriptors set,
everything else zero. -/
def published (descs : Fin n → SliceDesc) : Slices n :=
  fun i => { desc := descs i }

-- ==== the entry points

/-- `amba_virt_slice_bind`: the first slice with this nonce, unless
another CID holds it or this CID holds another slice. -/
def sliceBind (s : Slices n) (cid : UInt32) (nonce : UInt64) :
    Except Errno (SliceDesc × Slices n) :=
  if cid ≤ 2 then .error .EINVAL
  else if nonce = 0 then .error .ENOENT
  else
    match Fin.find? fun i => (s i).nonce == nonce with
    | none => .error .ENOENT
    | some i =>
      if (s i).boundCid ≠ 0 ∧ (s i).boundCid ≠ cid then .error .EBUSY
      else if (Fin.find? fun j => j != i && (s j).boundCid == cid).isSome
      then .error .EBUSY
      else .ok ((s i).desc, update s i { s i with boundCid := cid })

/-- `amba_virt_slice_unbind_cid`. CID 0 is the free mark, so it unbinds
nothing. -/
def sliceUnbindCid (s : Slices n) (cid : UInt32) : Slices n :=
  if cid = 0 then s
  else fun i =>
    if (s i).boundCid = cid then { s i with boundCid := 0 } else s i

/-- The body of `amba_virt_slice_open` for one slice: the first open
draws a nonce and drops a stale binding. -/
def SliceState.opened (e : SliceState) (random : UInt64) : SliceState :=
  if e.openCount + 1 = 1 then
    { e with openCount := e.openCount + 1, nonce := random, boundCid := 0 }
  else { e with openCount := e.openCount + 1 }

/-- `amba_virt_slice_open`; `random` is the first non-zero value
`get_random_u64` returns. -/
def sliceOpen (s : Slices n) (idx : Nat) (random : UInt64) : Except Errno (Slices n) :=
  if h : idx < n then
    .ok (update s ⟨idx, h⟩ ((s ⟨idx, h⟩).opened random))
  else .error .ENODEV

/-- The body of `amba_virt_slice_release` for one slice: the last
release revokes nonce and binding. -/
def SliceState.released (e : SliceState) : SliceState :=
  if e.openCount - 1 ≤ 0 then
    { e with openCount := 0, nonce := 0, boundCid := 0 }
  else { e with openCount := e.openCount - 1 }

/-- `amba_virt_slice_release`. -/
def sliceRelease (s : Slices n) (idx : Nat) : Slices n :=
  if h : idx < n then
    update s ⟨idx, h⟩ (s ⟨idx, h⟩).released
  else s

-- ==== the ledger

inductive SliceOp
  | openIdx (idx : Nat) (random : UInt64)
  | release (idx : Nat)
  | bind (cid : UInt32) (nonce : UInt64)
  | unbindCid (cid : UInt32)
  deriving DecidableEq

/-- The table next to the bookkeeping a file system would keep about
it: the open file handles of each slice, the nonce handed out by the
current first open, and every nonce handed out so far. -/
structure Ledger (n : Nat) where
  slices : Slices n
  files : Fin n → Nat := fun _ => 0
  current : Fin n → Option UInt64 := fun _ => none
  issued : List UInt64 := []

/-- One more file handle on slice `i`; the first one is given `r`. -/
def Ledger.fileOpened (t : Ledger n) (i : Fin n) (r : UInt64) : Ledger n :=
  { t with
    files := update t.files i (t.files i + 1)
    current := update t.current i
      (if t.files i = 0 then some r else t.current i)
    issued := if t.files i = 0 then r :: t.issued else t.issued }

/-- One file handle less on slice `i`; the last one takes the nonce with
it. -/
def Ledger.fileClosed (t : Ledger n) (i : Fin n) : Ledger n :=
  { t with
    files := update t.files i (t.files i - 1)
    current := update t.current i
      (if t.files i = 1 then none else t.current i) }

/-- The calls a correct kernel makes: a release closes a file handle
that is open, and a first open draws a non-zero nonce no earlier open
was given. -/
def SliceOp.Allowed (t : Ledger n) : SliceOp → Prop
  | .openIdx idx r =>
    ∀ h : idx < n, t.files ⟨idx, h⟩ = 0 → r ≠ 0 ∧ r ∉ t.issued
  | .release idx => ∀ h : idx < n, 0 < t.files ⟨idx, h⟩
  | .bind _ _ => True
  | .unbindCid _ => True

instance (t : Ledger n) : (op : SliceOp) → Decidable (op.Allowed t)
  | .openIdx idx r =>
    inferInstanceAs (Decidable (∀ h : idx < n, t.files ⟨idx, h⟩ = 0 → r ≠ 0 ∧ r ∉ t.issued))
  | .release idx =>
    inferInstanceAs (Decidable (∀ h : idx < n, 0 < t.files ⟨idx, h⟩))
  | .bind _ _ => .isTrue trivial
  | .unbindCid _ => .isTrue trivial

/-- What a call does to the table and to the bookkeeping. A refused
call changes neither. -/
def Ledger.apply (t : Ledger n) : SliceOp → Ledger n
  | .openIdx idx r =>
    match sliceOpen t.slices idx r with
    | .ok s =>
      if h : idx < n then
        { t.fileOpened ⟨idx, h⟩ r with slices := s }
      else { t with slices := s }
    | .error _ => t
  | .release idx =>
    if h : idx < n then
      { t.fileClosed ⟨idx, h⟩ with slices := sliceRelease t.slices idx }
    else { t with slices := sliceRelease t.slices idx }
  | .bind cid nonce =>
    match sliceBind t.slices cid nonce with
    | .ok (_, s) => { t with slices := s }
    | .error _ => t
  | .unbindCid cid => { t with slices := sliceUnbindCid t.slices cid }

def sliceSystem (descs : Fin n → SliceDesc) : System (Ledger n) SliceOp where
  init t := t = { slices := published descs }
  step t op t' := op.Allowed t ∧ t' = t.apply op

-- ==== what a successful call does

variable {cid : UInt32}

/-- Everything a successful bind establishes, guards included. -/
theorem sliceBind_ok {s s' : Slices n} {nonce : UInt64} {d : SliceDesc}
    (h : sliceBind s cid nonce = .ok (d, s')) :
    ∃ i, 2 < cid ∧ nonce ≠ 0 ∧ (s i).nonce = nonce ∧ ((s i).boundCid = 0 ∨ (s i).boundCid = cid) ∧
      (∀ j, j ≠ i → (s j).boundCid ≠ cid) ∧ d = (s i).desc ∧
      s' = update s i { s i with boundCid := cid } := by
  unfold sliceBind at h
  split at h
  · cases h
  rename_i hcid
  split at h
  · cases h
  rename_i hnonce
  split at h
  · cases h
  rename_i i hfind
  have hn : (s i).nonce = nonce := by
    simpa using Fin.eq_true_of_find?_eq_some hfind
  split at h
  · cases h
  rename_i hbusy
  split at h
  · cases h
  rename_i hother
  have hother' : ∀ j, j ≠ i → (s j).boundCid ≠ cid := by
    simpa [Fin.isSome_find?_iff] using hother
  obtain ⟨rfl, rfl⟩ := Prod.mk.inj (Except.ok.inj h)
  refine ⟨i, by simpa using hcid, hnonce, hn, ?_, hother', rfl, rfl⟩
  by_cases h0 : (s i).boundCid = 0
  · exact .inl h0
  · exact .inr (by simpa [h0] using hbusy)

theorem apply_named (t : Ledger n) (idx : Nat) (r : UInt64) (i : Fin n) :
    (t.apply (.openIdx idx r)).slices i =
        (if i.val = idx then (t.slices i).opened r else t.slices i) ∧
      (t.apply (.release idx)).slices i =
        if i.val = idx then (t.slices i).released else t.slices i := by
  simp only [Ledger.apply, sliceOpen, sliceRelease]
  by_cases h : idx < n
  · by_cases hi : i = ⟨idx, h⟩
    · simp [h, hi]
    · have hne : i.val ≠ idx := fun he => hi (Fin.ext he)
      simp [h, hi, hne]
  · have hne : i.val ≠ idx := by omega
    simp [h, hne]

theorem apply_desc (t : Ledger n) (op : SliceOp) (i : Fin n) :
    ((t.apply op).slices i).desc = (t.slices i).desc := by
  cases op with
  | openIdx idx r =>
    rw [(apply_named t idx r i).1, SliceState.opened]
    repeat' split
    all_goals rfl
  | release idx =>
    rw [(apply_named t idx 0 i).2, SliceState.released]
    repeat' split
    all_goals rfl
  | bind cid nonce =>
    cases hb : sliceBind t.slices cid nonce with
    | error e => simp only [Ledger.apply, hb]
    | ok r =>
      obtain ⟨d, s'⟩ := r
      obtain ⟨k, -, -, -, -, -, -, rfl⟩ := sliceBind_ok hb
      simp only [Ledger.apply, hb]
      by_cases hi : i = k
      · subst hi
        rw [update_self]
      · rw [update_of_ne hi]
  | unbindCid cid =>
    simp only [Ledger.apply]
    unfold sliceUnbindCid
    split
    · rfl
    · dsimp only
      split <;> rfl

@[simp] theorem sliceUnbindCid_nonce (s : Slices n) (cid : UInt32)
    (i : Fin n) : (sliceUnbindCid s cid i).nonce = (s i).nonce := by
  unfold sliceUnbindCid
  split
  · rfl
  · dsimp only
    split <;> rfl

@[simp] theorem sliceUnbindCid_openCount (s : Slices n) (cid : UInt32)
    (i : Fin n) : (sliceUnbindCid s cid i).openCount = (s i).openCount := by
  unfold sliceUnbindCid
  split
  · rfl
  · dsimp only
    split <;> rfl

theorem sliceUnbindCid_boundCid (s : Slices n) (cid : UInt32) (i : Fin n) :
    (sliceUnbindCid s cid i).boundCid = 0 ∨ (sliceUnbindCid s cid i).boundCid = (s i).boundCid := by
  unfold sliceUnbindCid
  split
  · exact .inr rfl
  dsimp only
  split
  · exact .inl rfl
  · exact .inr rfl

-- ==== the invariant

/-- One slice of the table agrees with its line of the ledger: `files`
open handles, `cur` the nonce of the current first open. -/
structure SlotInv (e : SliceState) (files : Nat) (cur : Option UInt64) :
    Prop where
  /-- The open count counts the file handles. -/
  count : e.openCount = files
  /-- The nonce of the table is the one the current first open drew. -/
  nonce : e.nonce = cur.getD 0
  /-- There is a current nonce exactly while a file handle is open. -/
  live : cur = none ↔ files = 0
  /-- No nonce drawn is zero. -/
  nonzero : ∀ r, cur = some r → r ≠ 0
  /-- A bound slice is open. -/
  bound_open : e.boundCid ≠ 0 → files ≠ 0

/-- The table agrees with the ledger slice by slice, and nonces and
bindings are one to one across slices. -/
structure SliceInv (t : Ledger n) : Prop where
  slot : ∀ i, SlotInv (t.slices i) (t.files i) (t.current i)
  /-- A current nonce is one of the issued ones. -/
  issued : ∀ i r, t.current i = some r → r ∈ t.issued
  /-- No two slices share a current nonce. -/
  distinct : ∀ i j r, t.current i = some r → t.current j = some r → i = j
  /-- A CID is bound once. -/
  bound_once : ∀ i j, (t.slices i).boundCid ≠ 0 →
    (t.slices i).boundCid = (t.slices j).boundCid → i = j

theorem sliceInv_init (descs : Fin n → SliceDesc) :
    SliceInv ({ slices := published descs } : Ledger n) where
  slot _ := ⟨rfl, rfl, by simp, by simp, absurd rfl⟩
  issued _ _ h := by cases h
  distinct _ _ _ h := by cases h
  bound_once _ _ h := absurd rfl h

-- ---- one slice at a time

variable {e : SliceState} {files : Nat} {cur : Option UInt64}

/-- A first open draws `r`, a later one keeps the nonce. -/
theorem SlotInv.opened (h : SlotInv e files cur) {r : UInt64} (hr : files = 0 → r ≠ 0) :
    SlotInv (e.opened r) (files + 1) (if files = 0 then some r else cur) := by
  have hcount := h.count
  by_cases h0 : files = 0
  · simp only [SliceState.opened, hcount, h0, if_true]
    exact ⟨by simp, by simp, by simp, by simpa using hr h0, by simp⟩
  · have hne : ¬ ((files : Int) + 1 = 1) := by omega
    simp only [SliceState.opened, hcount, hne, h0, if_false]
    exact ⟨by simp, h.nonce, by simpa using mt h.live.mp h0, h.nonzero, by simp⟩

/-- The last release revokes the nonce and the binding. -/
theorem SlotInv.released (h : SlotInv e files cur) (hpos : 0 < files) :
    SlotInv e.released (files - 1) (if files = 1 then none else cur) := by
  have hcount := h.count
  by_cases h1 : files = 1
  · simp only [SliceState.released, hcount, h1]
    exact ⟨by simp, by simp, by simp, by simp, by simp⟩
  have hle : ¬ ((files : Int) - 1 ≤ 0) := by omega
  simp only [SliceState.released, hcount, hle, h1, if_false]
  refine ⟨by simp; omega, h.nonce, ?_, h.nonzero, fun _ => by omega⟩
  constructor
  · intro hc
    exact absurd (h.live.mp hc) (by omega)
  · intro hf
    omega

/-- Only an open slice has a nonce to match. -/
theorem SlotInv.files_of_nonce (h : SlotInv e files cur) (hn : e.nonce ≠ 0) :
    files ≠ 0 ∧ cur = some e.nonce := by
  cases cur with
  | none => exact absurd h.nonce hn
  | some r =>
    refine ⟨fun h0 => ?_, ?_⟩
    · cases h.live.mpr h0
    · rw [h.nonce]
      rfl

theorem SlotInv.rebound (h : SlotInv e files cur) (c : UInt32)
    (hf : c ≠ 0 → files ≠ 0) : SlotInv { e with boundCid := c } files cur :=
  ⟨h.count, h.nonce, h.live, h.nonzero, hf⟩

-- ---- the whole table

variable {t : Ledger n}

section

variable (hinv : SliceInv t)

include hinv

theorem sliceInv_bind {nonce : UInt64} {d : SliceDesc}
    {s' : Slices n} (h : sliceBind t.slices cid nonce = .ok (d, s')) :
    SliceInv { t with slices := s' } := by
  obtain ⟨k, hcid, hn0, hn, -, hother, -, rfl⟩ := sliceBind_ok h
  have hfiles := ((hinv.slot k).files_of_nonce (hn ▸ hn0)).1
  refine ⟨fun i => ?_, hinv.issued, hinv.distinct, fun i j hb he => ?_⟩
  · by_cases hi : i = k
    · subst hi
      simpa using (hinv.slot i).rebound cid fun _ => hfiles
    · simpa [hi] using hinv.slot i
  · -- only slice `k` changed, and no other slice carries its new CID
    by_cases hi : i = k <;> by_cases hj : j = k
    · rw [hi, hj]
    · subst hi
      exact absurd (by simpa [hj] using he.symm) (hother j hj)
    · subst hj
      exact absurd (by simpa [hi] using he) (hother i hi)
    · exact hinv.bound_once i j (by simpa [hi] using hb) (by simpa [hi, hj] using he)

/-- Clearing some bound CIDs keeps the invariant. -/
theorem SliceInv.clear_bound {t' : Ledger n}
    (hslot : ∀ i, SlotInv (t'.slices i) (t'.files i) (t'.current i))
    (hiss : ∀ i r, t'.current i = some r → r ∈ t'.issued)
    (hdist : ∀ i j r, t'.current i = some r → t'.current j = some r → i = j)
    (hb : ∀ i, (t'.slices i).boundCid = 0 ∨ (t'.slices i).boundCid = (t.slices i).boundCid) :
    SliceInv t' := by
  refine ⟨hslot, hiss, hdist, fun i j hi he => ?_⟩
  have hi' := (hb i).resolve_left hi
  have hj' := (hb j).resolve_left (he ▸ hi)
  exact hinv.bound_once i j (hi' ▸ hi) (by rw [← hi', ← hj', he])

theorem sliceInv_unbind (cid : UInt32) :
    SliceInv { t with slices := sliceUnbindCid t.slices cid } := by
  refine hinv.clear_bound (fun i => ?_) hinv.issued hinv.distinct
    (sliceUnbindCid_boundCid t.slices cid)
  have h := hinv.slot i
  refine ⟨by simpa using h.count, by simpa using h.nonce, h.live, h.nonzero, fun hb => ?_⟩
  rcases sliceUnbindCid_boundCid t.slices cid i with h0 | h0
  · exact absurd h0 hb
  · exact h.bound_open (h0 ▸ hb)

/-- An open counts one handle; the first one sets a nonce no other
slice can hold. -/
theorem sliceInv_open (k : Fin n) {r : UInt64} (hr : t.files k = 0 → r ≠ 0 ∧ r ∉ t.issued) :
    SliceInv { t.fileOpened k r with
      slices := update t.slices k ((t.slices k).opened r) } := by
  have hsub : ∀ q ∈ t.issued, q ∈ (if t.files k = 0 then r :: t.issued else t.issued) := by
    intro q hq
    split
    · exact List.mem_cons_of_mem _ hq
    · exact hq
  -- slice `k` ends with `r` if this was its first open
  have hcur : ∀ q, (if t.files k = 0 then some r else t.current k) = some q →
      (t.files k = 0 ∧ q = r) ∨ t.current k = some q := by
    intro q hq
    split at hq
    · exact .inl ⟨by assumption, (Option.some.inj hq).symm⟩
    · exact .inr hq
  refine hinv.clear_bound (fun i => ?_) (fun i q hq => ?_) (fun i j q hi hj => ?_) (fun i => ?_)
  · by_cases hi : i = k
    · subst hi
      simpa [Ledger.fileOpened] using (hinv.slot i).opened fun h0 => (hr h0).1
    · simpa [Ledger.fileOpened, hi] using hinv.slot i
  · by_cases hi : i = k
    · subst hi
      rcases hcur q (by simpa [Ledger.fileOpened] using hq) with ⟨h0, rfl⟩ | h
      · simp [Ledger.fileOpened, h0]
      · exact hsub q (hinv.issued i q h)
    · exact hsub q (hinv.issued i q (by simpa [Ledger.fileOpened, hi] using hq))
  · -- an issued nonce is not `r`, so `k` cannot meet another slice in it
    have hclash : ∀ l, l ≠ k → t.current l = some q →
        (if t.files k = 0 then some r else t.current k) = some q → False := by
      intro l hl hlq hkq
      rcases hcur q hkq with ⟨h0, rfl⟩ | h
      · exact (hr h0).2 (hinv.issued l q hlq)
      · exact hl (hinv.distinct l k q hlq h)
    by_cases hik : i = k <;> by_cases hjk : j = k
    · rw [hik, hjk]
    · subst hik
      exact (hclash j hjk (by simpa [Ledger.fileOpened, hjk] using hj)
        (by simpa [Ledger.fileOpened] using hi)).elim
    · subst hjk
      exact (hclash i hik (by simpa [Ledger.fileOpened, hik] using hi)
        (by simpa [Ledger.fileOpened] using hj)).elim
    · exact hinv.distinct i j q (by simpa [Ledger.fileOpened, hik] using hi)
        (by simpa [Ledger.fileOpened, hjk] using hj)
  · by_cases hi : i = k
    · subst hi
      by_cases h1 : (t.slices i).openCount + 1 = 1 <;>
        simp [SliceState.opened, h1]
    · exact .inr (by simp [hi])

/-- A release of an open handle only takes things away. -/
theorem sliceInv_release (k : Fin n) (hpos : 0 < t.files k) :
    SliceInv { t.fileClosed k with
      slices := update t.slices k (t.slices k).released } := by
  have hcur : ∀ i q, (t.fileClosed k).current i = some q → t.current i = some q := by
    intro i q hq
    by_cases hi : i = k
    · subst hi
      simp only [Ledger.fileClosed, update_self] at hq
      split at hq
      · cases hq
      · exact hq
    · simpa [Ledger.fileClosed, hi] using hq
  refine hinv.clear_bound (fun i => ?_) (fun i q hq => hinv.issued i q (hcur i q hq))
    (fun i j q hi hj => hinv.distinct i j q (hcur i q hi) (hcur j q hj))
    (fun i => ?_)
  · by_cases hi : i = k
    · subst hi
      simpa [Ledger.fileClosed] using (hinv.slot i).released hpos
    · simpa [Ledger.fileClosed, hi] using hinv.slot i
  · by_cases hi : i = k
    · subst hi
      by_cases h1 : (t.slices i).openCount - 1 ≤ 0 <;>
        simp [SliceState.released, h1]
    · exact .inr (by simp [hi])

theorem sliceInv_step {op : SliceOp} (hop : op.Allowed t) :
    SliceInv (t.apply op) := by
  cases op with
  | openIdx idx r =>
    by_cases h : idx < n
    · simpa [Ledger.apply, sliceOpen, h] using sliceInv_open hinv ⟨idx, h⟩ (hop h)
    · simpa [Ledger.apply, sliceOpen, h] using hinv
  | release idx =>
    by_cases h : idx < n
    · simpa [Ledger.apply, sliceRelease, h] using sliceInv_release hinv ⟨idx, h⟩ (hop h)
    · simpa [Ledger.apply, sliceRelease, h] using hinv
  | bind cid nonce =>
    cases hb : sliceBind t.slices cid nonce with
    | error e => simpa only [Ledger.apply, hb] using hinv
    | ok r => simpa only [Ledger.apply, hb] using sliceInv_bind hinv hb
  | unbindCid cid => exact sliceInv_unbind hinv cid

-- ---- which bindings survive

variable {i : Fin n}

/-- An open drops no binding: a bound slice is open already. -/
theorem open_keeps_bound (idx : Nat) (r : UInt64) (hb : (t.slices i).boundCid ≠ 0) :
    ((t.apply (.openIdx idx r)).slices i).boundCid = (t.slices i).boundCid := by
  have hcount := (hinv.slot i).count
  have hopen := (hinv.slot i).bound_open hb
  have hmore : (t.slices i).openCount + 1 ≠ 1 := by omega
  rw [(apply_named t idx r i).1, SliceState.opened, if_neg hmore]
  split <;> rfl

theorem release_keeps_bound (idx : Nat) (hpos : i.val = idx → 1 < t.files i) :
    ((t.apply (.release idx)).slices i).boundCid = (t.slices i).boundCid := by
  have hcount := (hinv.slot i).count
  rw [(apply_named t idx 0 i).2]
  split
  · unfold SliceState.released
    rw [if_neg (by omega)]
  · rfl

end

theorem unbind_keeps_bound (s : Slices n) (hne : (s i).boundCid ≠ cid) :
    (sliceUnbindCid s cid i).boundCid = (s i).boundCid := by
  unfold sliceUnbindCid
  split
  · rfl
  · exact congrArg SliceState.boundCid (if_neg hne)

theorem sliceInv_reachable {descs : Fin n → SliceDesc}
    (h : (sliceSystem descs).Reachable t) : SliceInv t := by
  refine h.induct ?_ ?_
  · rintro t rfl
    exact sliceInv_init descs
  · rintro t op t' - hinv ⟨hop, rfl⟩
    exact sliceInv_step hinv hop

-- ==== what binding promises

/-- CID `cid` is bound to slice `i`; CID 0 marks a free slice. -/
def Bound (s : Slices n) (cid : UInt32) (i : Fin n) : Prop :=
  cid ≠ 0 ∧ (s i).boundCid = cid

/-- The guarantees of the binding interface in one state. -/
structure BindingSafe (t : Ledger n) : Prop where
  /-- A CID is bound to at most one slice. -/
  cid_once : ∀ cid i j, Bound t.slices cid i → Bound t.slices cid j → i = j
  /-- A slice is bound to at most one CID. -/
  slice_once : ∀ cid cid' i, Bound t.slices cid i → Bound t.slices cid' i → cid = cid'
  /-- A slice has a nonce exactly while it is open. -/
  nonce_iff_open : ∀ i, (t.slices i).nonce ≠ 0 ↔ 0 < (t.slices i).openCount
  /-- The open count is the number of open file handles. -/
  open_count : ∀ i, (t.slices i).openCount = t.files i
  /-- A bound slice is open. -/
  bound_open : ∀ cid i, Bound t.slices cid i → 0 < (t.slices i).openCount
  /-- A bind succeeds only with the nonce the current first open of the
  slice it binds was given. -/
  bind_current : ∀ cid nonce d s', sliceBind t.slices cid nonce = .ok (d, s') →
    ∃ i, t.current i = some nonce ∧ d = (t.slices i).desc ∧
      s' = update t.slices i { t.slices i with boundCid := cid }
  /-- A nonce of an earlier open binds nothing. -/
  bind_stale : ∀ cid, ∀ nonce ∈ t.issued, (∀ i, t.current i ≠ some nonce) →
    ∃ e, sliceBind t.slices cid nonce = .error e

/-- Whatever the order of opens, releases, binds and unbinds, binding is
one to one, bound slices are open, and only the nonce of the current
first open binds. -/
theorem slice_binding_safe {descs : Fin n → SliceDesc} {t : Ledger n}
    (h : (sliceSystem descs).Reachable t) : BindingSafe t := by
  have hinv := sliceInv_reachable h
  have hopen : ∀ i, 0 < (t.slices i).openCount ↔ t.files i ≠ 0 := by
    intro i
    have := (hinv.slot i).count
    omega
  have hcurrent : ∀ i nonce, nonce ≠ 0 → (t.slices i).nonce = nonce → t.current i = some nonce := by
    intro i nonce hn0 hn
    subst hn
    exact ((hinv.slot i).files_of_nonce hn0).2
  constructor
  · rintro cid i j ⟨h0, hi⟩ ⟨-, hj⟩
    exact hinv.bound_once i j (hi ▸ h0) (hi.trans hj.symm)
  · rintro cid cid' i ⟨-, hi⟩ ⟨-, hi'⟩
    exact hi.symm.trans hi'
  · intro i
    rw [hopen i]
    refine ⟨fun hn => ((hinv.slot i).files_of_nonce hn).1, fun hf hn => ?_⟩
    have hslot := hinv.slot i
    cases hc : t.current i with
    | none => exact hf (hslot.live.mp hc)
    | some r =>
      refine hslot.nonzero r hc ?_
      rw [← hn, hslot.nonce, hc]
      rfl
  · exact fun i => (hinv.slot i).count
  · rintro cid i ⟨h0, hi⟩
    exact (hopen i).mpr ((hinv.slot i).bound_open (hi ▸ h0))
  · intro cid nonce d s' hb
    obtain ⟨i, -, hn0, hn, -, -, hd, hs'⟩ := sliceBind_ok hb
    exact ⟨i, hcurrent i nonce hn0 hn, hd, hs'⟩
  · intro cid nonce hmem hstale
    cases hb : sliceBind t.slices cid nonce with
    | error e => exact ⟨e, rfl⟩
    | ok r =>
      obtain ⟨i, -, hn0, hn, -⟩ := sliceBind_ok hb
      exact absurd (hcurrent i nonce hn0 hn) (hstale i)

/-- Two guests on two slices, each bound by the nonce of its own node. The
second open of slice 0 keeps the nonce of the first. -/
theorem slice_binding_safe_two_slices : ∃ t : Ledger 2, (t.slices 0).boundCid = 3 ∧
      (t.slices 1).boundCid = 4 ∧ BindingSafe t := by
  obtain ⟨t, ht, h0, h1⟩ := (Reachable.init
    (show (sliceSystem fun _ : Fin 2 => default).init _ from rfl)).exists_exec
      (f := fun t op => if op.Allowed t then some (t.apply op) else none)
      (l := [.openIdx 0 7, .openIdx 0 9, .openIdx 1 11, .bind 3 7, .bind 4 11])
      (p := fun t => (t.slices 0).boundCid = 3 ∧ (t.slices 1).boundCid = 4)
      (fun t op t' h => by
        obtain ⟨hop, ht'⟩ := Option.ite_none_right_eq_some.mp h
        exact ⟨hop, (Option.some.inj ht').symm⟩)
      (by decide)
  exact ⟨t, h0, h1, slice_binding_safe ht⟩

end AmbaVirt.Kernel
