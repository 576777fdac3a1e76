/-
Where the relocation of a registration reads and writes.

The loop over a preload list tests `i < elist->preload_list_cnt` against
memory it is patching. As long as the list is clear of that word, the
loop runs for the count it was admitted with and every write lands in
the host copy (`relocate_outside`). If all the lists are clear of each
other (`Staged`), the relocation reads no pointer it has written, so that
every pointer it rewrites is one the guest has staged (`relocate_logged`).
-/
import AmbaVirt.Cavalry.Register

namespace AmbaVirt.Cavalry

open Lib

variable {g : Staging} {p : Patch} {o : Nat}

/-- The preload entries named by the descriptor list at `elist` do not
overlap the word that counts them. -/
def Staging.PreloadsClear (g : Staging) (elist : Nat) (p : Patch) : Prop :=
  let plOff := (read64 p.mem (elist + 256) - g.srcBase.toUInt64).toUInt32
  Span.Apart ⟨elist, 4⟩ ⟨plOff.toNat, (read32 p.mem elist).toNat * preloadSize⟩
  deriving Decidable

def Staging.preloads (g : Staging) (elist : Nat) (m : Mem) : Span :=
  let cnt := read32 m elist
  let daddr := read64 m (elist + 256)
  let plOff := (daddr - g.srcBase.toUInt64).toUInt32
  if (cnt ≠ 0 ∧ daddr ≠ 0 ∧ daddr ≥ g.srcBase.toUInt64) ∧
      plOff.toNat + cnt.toNat * preloadSize ≤ g.size.toNat then
    ⟨plOff.toNat, cnt.toNat * preloadSize⟩
  else ⟨0, 0⟩

/-- The offset of the descriptor list of a DAG in the host copy, as the
relocation computes it. -/
def Staging.listAt (g : Staging) (src : DagDesc) : Nat :=
  (src.extraDagDescListDaddr - g.srcBase.toUInt64).toUInt32.toNat

/-- Every preload list is clear of its count when its turn comes. -/
def Staging.Tame (g : Staging) : List DagDesc → Patch → Prop
  | [], _ => True
  | src :: l, p =>
    g.PreloadsClear (g.listAt src) p ∧ g.Tame l (g.relocateDag src p)

instance decidableTame (g : Staging) : (l : List DagDesc) → (p : Patch) → Decidable (g.Tame l p)
  | [], _ => .isTrue trivial
  | src :: l, p =>
    have := decidableTame g l (g.relocateDag src p)
    inferInstanceAs (Decidable (_ ∧ _))

def Staging.HasList (g : Staging) (src : DagDesc) : Prop :=
  (src.extraDagDescListDaddr ≠ 0 ∧ src.extraDagDescListDaddr ≥ g.srcBase.toUInt64) ∧
    g.listAt src + extraListSize.toNat ≤ g.size.toNat
  deriving Decidable

/-- What the relocation of a DAG reads and writes: counts and pointers of
its descriptor list, and the preload entries. -/
def Staging.patchSpans (g : Staging) (m : Mem) (src : DagDesc) : List Span :=
  if g.HasList src then [⟨g.listAt src, 288⟩, g.preloads (g.listAt src) m] else []

-- ==== one list each

theorem Patch.rewrite_outside {at' : Nat} {r : Reloc}
    (h : o < at' ∨ at' + 8 ≤ o) : (p.rewrite at' r).mem o = p.mem o :=
  write64_apart h

namespace Staging

/-- A store to an entry of the list misses the word that counts them. -/
theorem count_rewrite {elist pl i n : Nat} {r : Reloc} (hi : i < n)
    (hclear : Span.Apart ⟨elist, 4⟩ ⟨pl, n * preloadSize⟩) :
    read32 (p.rewrite (pl + preloadSize * i) r).mem elist = read32 p.mem elist := by
  apply read32_write64_apart
  unfold Span.Apart preloadSize at hclear
  unfold preloadSize
  dsimp only at hclear
  omega

/-- The loop runs for the count it starts with, and writes to the entries. -/
theorem relocatePreloads_outside {elist pl : Nat} (fuel i : Nat) :
    ∀ p : Patch, (o < pl ∨ pl + (read32 p.mem elist).toNat * preloadSize ≤ o) →
      Span.Apart ⟨elist, 4⟩ ⟨pl, (read32 p.mem elist).toNat * preloadSize⟩ →
      (g.relocatePreloads elist pl fuel i p).mem o = p.mem o := by
  induction fuel generalizing i with
  | zero =>
    intro p _ _
    rfl
  | succ fuel ih =>
    intro p ho hclear
    unfold relocatePreloads
    dsimp only
    split
    case isFalse => rfl
    case isTrue hi =>
    have hentry : pl + preloadSize * i + 8 ≤ pl + (read32 p.mem elist).toNat * preloadSize := by
      have := hi.2
      unfold preloadSize
      omega
    split
    case isFalse => exact ih (i + 1) p ho hclear
    case isTrue =>
    rw [ih (i + 1) _ (by rw [count_rewrite hi.2 hclear]; exact ho)
      (by rw [count_rewrite hi.2 hclear]; exact hclear)]
    apply Patch.rewrite_outside
    omega

/-- The pointer to the entries and the entries are all that is written. -/
theorem relocatePreloadList_outside {elist : Nat}
    (hclear : Span.Apart ⟨elist, 4⟩ (g.preloads elist p.mem))
    (hptr : o < elist + 256 ∨ elist + 264 ≤ o) (ho : o ∉ (g.preloads elist p.mem).bytes) :
    (g.relocatePreloadList elist p).mem o = p.mem o := by
  unfold relocatePreloadList
  dsimp only
  split
  case isFalse => rfl
  case isTrue hlist =>
  generalize hr : Reloc.mk _ _ _ = r
  have hcount : read32 (p.rewrite (elist + 256) r).mem elist = read32 p.mem elist :=
    read32_write64_apart (by omega)
  split
  case isFalse => exact Patch.rewrite_outside hptr
  case isTrue hin =>
    rw [preloads, if_pos ⟨hlist, hcount ▸ hin⟩] at hclear ho
    rw [relocatePreloads_outside _ _ _ (by rw [hcount]; exact Span.not_mem_bytes.mp ho)
      (by rw [hcount]; exact hclear)]
    exact Patch.rewrite_outside hptr

theorem relocateList_outside {cntAt daddrAt elem : Nat} (h : o < daddrAt ∨ daddrAt + 8 ≤ o) :
    (g.relocateList cntAt daddrAt elem p).mem o = p.mem o := by
  unfold relocateList
  dsimp only
  split
  · exact Patch.rewrite_outside h
  · rfl

-- ==== all the lists

variable {src : DagDesc}

theorem relocateDag_outside
    (hclear : Span.Apart ⟨g.listAt src, 4⟩ (g.preloads (g.listAt src) p.mem))
    (ho : ∀ s ∈ g.patchSpans p.mem src, o ∉ s.bytes) : (g.relocateDag src p).mem o = p.mem o := by
  unfold relocateDag
  dsimp only
  split
  case isFalse => rfl
  case isTrue hdaddr =>
  split
  case isFalse => rfl
  case isTrue hfit =>
  rw [patchSpans, if_pos ⟨hdaddr, hfit⟩, List.forall_mem_cons, List.forall_mem_singleton,
    Span.not_mem_bytes] at ho
  change (o < g.listAt src ∨ g.listAt src + 288 ≤ o) ∧ _ at ho
  change (g.relocateList (g.listAt src + 12) (g.listAt src + 280) _ (g.relocateList
    (g.listAt src + 8) (g.listAt src + 272) _ (g.relocateList (g.listAt src + 4)
      (g.listAt src + 264) _ (g.relocatePreloadList (g.listAt src) p)))).mem o = _
  rw [relocateList_outside (by omega), relocateList_outside (by omega),
    relocateList_outside (by omega)]
  exact relocatePreloadList_outside hclear (by omega) ho.2

/-- An extra descriptor at or above the staging slice ends inside it. -/
def ExtraInside (g : Staging) (daddr : UInt64) (n : Nat) : Prop :=
  daddr ≠ 0 → daddr ≥ g.srcBase.toUInt64 → g.Inside daddr n
  deriving Decidable

/-- A list whose count and address stand in the descriptor list lies in the
staging slice. -/
def ListInside (g : Staging) (m : Mem) (cntAt daddrAt elemSize : Nat) : Prop :=
  read32 m cntAt ≠ 0 → g.ExtraInside (read64 m daddrAt) (elemSize * (read32 m cntAt).toNat)
  deriving Decidable

def EntryInside (g : Staging) (m : Mem) (entry : Nat) : Prop :=
  read64 m entry ≥ g.srcBase.toUInt64 →
    g.Inside (read64 m entry) (read32 m (entry + 12)).toNat
  deriving Decidable

def ListsInside (g : Staging) (src : DagDesc) (m : Mem) : Prop :=
  let elist := g.listAt src
  let loops := src.dagLoopCnt.toNat
  g.ListInside m elist (elist + 256) preloadSize ∧
  (∀ j < (g.preloads elist m).len / preloadSize,
    g.EntryInside m ((g.preloads elist m).lo + preloadSize * j)) ∧
  g.ListInside m (elist + 4) (elist + 264) runtimeSize ∧
  g.ListInside m (elist + 8) (elist + 272) (portDescSize * loops) ∧
  g.ListInside m (elist + 12) (elist + 280) (buildingBlockSize * loops)

instance (g : Staging) (src : DagDesc) (m : Mem) : Decidable (g.ListsInside src m) :=
  inferInstanceAs (Decidable (_ ∧ _ ∧ _))

/-- The staging bytes name nothing outside the slice, and no two of the
lists that are patched overlap. -/
def Staged (g : Staging) (dags : List DagDesc) (m : Mem) : Prop :=
  (dags.flatMap (g.patchSpans m)).Pairwise Span.Apart ∧
    ∀ src ∈ dags, g.HasList src → g.ListsInside src m

instance (g : Staging) (dags : List DagDesc) (m : Mem) : Decidable (g.Staged dags m) :=
  inferInstanceAs (Decidable (_ ∧ _))

/-- Every pointer rewritten so far follows its source, which lay in the
slice. -/
def Logged (g : Staging) (p : Patch) : Prop :=
  ∀ r ∈ p.relocs, g.Follows r ∧ g.Inside r.source r.size

theorem Logged.rewrite {r : Reloc} (hp : g.Logged p) (hr : g.Follows r)
    (hin : g.Inside r.source r.size) : g.Logged (p.rewrite o r) := by
  intro r' hr'
  rcases List.mem_cons.mp hr' with rfl | hr'
  · exact ⟨hr, hin⟩
  · exact hp r' hr'

theorem relocatePreloads_logged {elist pl : Nat} (fuel i : Nat) :
    ∀ p : Patch, Span.Apart ⟨elist, 4⟩ ⟨pl, (read32 p.mem elist).toNat * preloadSize⟩ →
      (∀ j, i ≤ j → j < (read32 p.mem elist).toNat → g.EntryInside p.mem (pl + preloadSize * j)) →
      g.Logged p → g.Logged (g.relocatePreloads elist pl fuel i p) := by
  induction fuel generalizing i with
  | zero => exact fun _ _ _ hp => hp
  | succ fuel ih =>
    intro p hclear hin hp
    unfold relocatePreloads
    dsimp only
    split
    case isFalse => exact hp
    case isTrue hi =>
    split
    case isFalse => exact ih (i + 1) p hclear (fun j hj => hin j (by omega)) hp
    case isTrue hd =>
    generalize hr : Reloc.mk _ _ _ = r
    have hcount := count_rewrite (p := p) (r := r) hi.2 hclear
    refine ih (i + 1) _ (by rw [hcount]; exact hclear) ?_ ?_
    · -- the entries to come are not written yet
      intro j hj hlt
      rw [hcount] at hlt
      have hj' := hin j (by omega) hlt
      unfold EntryInside preloadSize at hj' ⊢
      rw [Patch.rewrite, read64_write64_apart (by omega), read32_write64_apart (by omega)]
      exact hj'
    · rw [← hr]
      exact hp.rewrite ⟨hd, .inl rfl⟩ (hin i le_rfl hi.2 hd)

theorem relocatePreloadList_logged {elist : Nat}
    (hclear : Span.Apart ⟨elist, 288⟩ (g.preloads elist p.mem))
    (hlist : g.ListInside p.mem elist (elist + 256) preloadSize)
    (hin : ∀ j < (g.preloads elist p.mem).len / preloadSize,
      g.EntryInside p.mem ((g.preloads elist p.mem).lo + preloadSize * j)) (hp : g.Logged p) :
    g.Logged (g.relocatePreloadList elist p) := by
  unfold relocatePreloadList
  dsimp only
  split
  case isFalse => exact hp
  case isTrue hvisit =>
  generalize hr : Reloc.mk _ _ _ = r
  have hlog : g.Logged (p.rewrite (elist + 256) r) := by
    rw [← hr]
    exact hp.rewrite ⟨hvisit.2.2, .inr rfl⟩ (hlist hvisit.1 hvisit.2.1 hvisit.2.2)
  have hcount : read32 (p.rewrite (elist + 256) r).mem elist = read32 p.mem elist :=
    read32_write64_apart (by omega)
  split
  case isFalse => exact hlog
  case isTrue hfit =>
  rw [preloads, if_pos ⟨hvisit, hcount ▸ hfit⟩] at hclear hin
  unfold Span.Apart preloadSize at hclear
  unfold preloadSize at hin
  dsimp only at hclear hin
  refine relocatePreloads_logged _ _ _ ?_ ?_ hlog <;> unfold preloadSize
  · rw [hcount]
    unfold Span.Apart
    dsimp only
    omega
  · intro j _ hj
    rw [hcount] at hj
    have hj' := hin j (by omega)
    unfold EntryInside at hj' ⊢
    rw [Patch.rewrite, read64_write64_apart (by omega), read32_write64_apart (by omega)]
    exact hj'

theorem relocateList_logged {cntAt daddrAt elem : Nat}
    (hlist : g.ListInside p.mem cntAt daddrAt elem) (hp : g.Logged p) :
    g.Logged (g.relocateList cntAt daddrAt elem p) := by
  unfold relocateList
  dsimp only
  split
  case isTrue h => exact hp.rewrite ⟨h.2.2, .inl rfl⟩ (hlist h.1 h.2.1 h.2.2)
  case isFalse => exact hp

theorem ListInside.congr {m m' : Mem} {cntAt daddrAt elem : Nat}
    (h : g.ListInside m cntAt daddrAt elem) (hcnt : ∀ k < 4, m' (cntAt + k) = m (cntAt + k))
    (hdaddr : ∀ k < 8, m' (daddrAt + k) = m (daddrAt + k)) :
    g.ListInside m' cntAt daddrAt elem := by
  unfold ListInside
  rw [read32_congr hcnt, read64_congr hdaddr]
  exact h

theorem relocateDag_logged
    (hclear : Span.Apart ⟨g.listAt src, 288⟩ (g.preloads (g.listAt src) p.mem))
    (hin : g.ListsInside src p.mem) (hp : g.Logged p) : g.Logged (g.relocateDag src p) := by
  obtain ⟨hpre, hentries, hrun, hport, hblock⟩ := hin
  unfold relocateDag
  dsimp only
  split
  case isFalse => exact hp
  case isTrue =>
  split
  case isFalse => exact hp
  case isTrue =>
  change g.Logged (g.relocateList (g.listAt src + 12) (g.listAt src + 280) _ (g.relocateList
    (g.listAt src + 8) (g.listAt src + 272) _ (g.relocateList (g.listAt src + 4)
      (g.listAt src + 264) _ (g.relocatePreloadList (g.listAt src) p))))
  -- each list leaves the words of the next ones alone
  have hkept : ∀ o, g.listAt src ≤ o → o < g.listAt src + 288 →
      (o < g.listAt src + 256 ∨ g.listAt src + 264 ≤ o) →
      (g.relocatePreloadList (g.listAt src) p).mem o = p.mem o := by
    intro o hlo hhi hptr
    unfold Span.Apart at hclear
    dsimp only at hclear
    refine relocatePreloadList_outside ?_ hptr (Span.not_mem_bytes.mpr (by omega))
    unfold Span.Apart
    dsimp only
    omega
  refine relocateList_logged (hblock.congr ?_ ?_) (relocateList_logged (hport.congr ?_ ?_)
    (relocateList_logged (hrun.congr ?_ ?_) (relocatePreloadList_logged hclear hpre hentries hp)))
  all_goals
    intro k hk
    repeat rw [relocateList_outside (by omega)]
    exact hkept _ (by omega) (by omega) (by omega)

-- ==== agreement on what is read

/-- Two memories agree on the descriptor list of the DAG and its preload
entries. -/
def Agree (g : Staging) (src : DagDesc) (m m' : Mem) : Prop :=
  (∀ o, g.listAt src ≤ o → o < g.listAt src + 288 → m' o = m o) ∧
    ∀ o ∈ (g.preloads (g.listAt src) m).bytes, m' o = m o

variable {m m' : Mem}

theorem Agree.preloads (h : g.Agree src m m') :
    g.preloads (g.listAt src) m' = g.preloads (g.listAt src) m := by
  unfold Staging.preloads
  rw [read32_congr fun k hk => h.1 _ (by omega) (by omega),
    read64_congr fun k hk => h.1 _ (by omega) (by omega)]

theorem Agree.listsInside (h : g.Agree src m m') (hin : g.ListsInside src m) :
    g.ListsInside src m' := by
  obtain ⟨hpre, hentries, hrun, hport, hblock⟩ := hin
  refine ⟨hpre.congr ?_ ?_, ?_, hrun.congr ?_ ?_, hport.congr ?_ ?_, hblock.congr ?_ ?_⟩
  case refine_3 =>
    intro j hj
    rw [h.preloads] at hj ⊢
    unfold preloadSize at hj hentries ⊢
    unfold EntryInside
    rw [read64_congr fun k hk => h.2 _ ⟨by omega, by omega⟩,
      read32_congr fun k hk => h.2 _ ⟨by omega, by omega⟩]
    exact hentries j hj
  all_goals
    intro k hk
    exact h.1 _ (by omega) (by omega)

theorem relocateDag_of_not_hasList (h : ¬ g.HasList src) : g.relocateDag src p = p := by
  unfold relocateDag
  dsimp only
  split
  case isFalse => rfl
  case isTrue hd => exact if_neg fun hfit => h ⟨hd, hfit⟩

/-- One DAG: its pointers are logged, and what is apart from its lists
stays as it was. -/
theorem relocateDag_staged
    (hown : (g.patchSpans m src).Pairwise Span.Apart) (hin : g.HasList src → g.ListsInside src m)
    (hsame : ∀ s ∈ g.patchSpans m src, ∀ o ∈ s.bytes, p.mem o = m o) (hp : g.Logged p) :
    g.Logged (g.relocateDag src p) ∧ ∀ o, (∀ s ∈ g.patchSpans m src, o ∉ s.bytes) →
      (g.relocateDag src p).mem o = p.mem o := by
  by_cases hlist : g.HasList src
  case neg =>
    rw [relocateDag_of_not_hasList hlist]
    exact ⟨hp, fun _ _ => rfl⟩
  rw [patchSpans, if_pos hlist] at hown hsame
  have hagree : g.Agree src m p.mem :=
    ⟨fun o hlo hhi => hsame _ List.mem_cons_self o ⟨hlo, hhi⟩,
      hsame _ (List.mem_cons_of_mem _ (List.mem_singleton_self _))⟩
  have hclear := List.rel_of_pairwise_cons hown (List.mem_singleton_self _)
  rw [← hagree.preloads] at hclear
  refine ⟨relocateDag_logged hclear (hagree.listsInside (hin hlist)) hp, fun o ho => ?_⟩
  apply relocateDag_outside
  · unfold Span.Apart at hclear ⊢
    dsimp only at hclear ⊢
    omega
  · intro s hs
    rw [patchSpans, hagree.preloads] at hs
    exact ho s hs

/-- If the staging bytes are as asked, every pointer that is rewritten lay
in the slice. -/
theorem relocate_logged {dags : List DagDesc} (hstaged : g.Staged dags m)
    (hsame : ∀ s ∈ dags.flatMap (g.patchSpans m), ∀ o ∈ s.bytes, p.mem o = m o)
    (hp : g.Logged p) : g.Logged (g.relocate dags p) := by
  -- the DAGs to come find their lists as they were staged
  induction dags generalizing p with
  | nil => exact hp
  | cons src l ih =>
    obtain ⟨hapart, hin⟩ := hstaged
    rw [List.flatMap_cons] at hapart hsame
    obtain ⟨hown, hrest, hcross⟩ := List.pairwise_append.mp hapart
    obtain ⟨hlog, hkept⟩ := relocateDag_staged hown (hin src List.mem_cons_self)
      (fun s hs => hsame s (List.mem_append_left _ hs)) hp
    refine ih ⟨hrest, fun s hs => hin s (List.mem_cons_of_mem _ hs)⟩ ?_ hlog
    intro s hs o ho
    rw [hkept o fun r hr hor => Set.disjoint_left.mp (hcross r hr s hs).disjoint hor ho]
    exact hsame s (List.mem_append_right _ hs) o ho

end Staging

def RegisterArgs.Tame (a : RegisterArgs) (hostPhys : UInt64) : Prop :=
  (a.staging hostPhys).Tame a.dags ⟨(a.staging hostPhys).hostCopy a.stagingShm a.host.contents, []⟩

instance (a : RegisterArgs) (hostPhys : UInt64) : Decidable (a.Tame hostPhys) :=
  decidableTame _ _ _

end AmbaVirt.Cavalry
