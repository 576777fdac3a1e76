/-
The aux aperture nodes of the host kernel module (amba_virt_iav_win.c):
the registered sources, the configuration of each node, and the mappings
of it. Everything happens under `g_aux_lock`, so each entry point is one
step.

A node's scratch and header page are page frames, whose bytes are the
state's `ram`. A mapping (`Vma`) keeps what `iav_aux_mmap` put into the
page table, so that a write goes where the mapping says.

A source list is only replaced if it still names every configured range,
and a node is only configured from registered sources: neither call
checks the whole relation, and both keep it (`AuxInv.sources`). A node
is only configured or cleared while its mapping count is zero, and the
count is that of the live mappings (`AuxInv.maps`).
-/
import AmbaVirt.Basic
import AmbaVirt.Lib.Count
import AmbaVirt.Lib.Guard
import AmbaVirt.Lib.Layout
import AmbaVirt.Lib.Trans
import AmbaVirt.Lib.Word

namespace AmbaVirt.Kernel

open Lib Lib.System Function

def PAGE_SIZE : UInt64 := 4096
def AMBA_VIRT_IAV_AUX_MAX_RANGES : UInt32 := 16
def AMBA_VIRT_IAV_AUX_MAX_SOURCES : UInt32 := 32
def AMBA_VIRT_IAV_AUX_ALIGN : UInt64 := 0x10000
def AMBA_VIRT_IAV_AUX_MIN_SIZE : UInt64 := 0x2000
def AMBA_VIRT_IAV_AUX_MAX_SIZE : UInt64 := 0x40000000
def AMBA_VIRT_IAV_AUX_HDR_MAGIC : UInt32 := 0x50414d41
def AMBA_VIRT_IAV_AUX_HDR_VERSION : UInt32 := 1

-- ==== configurations

/-- `struct amba_virt_iav_aux_range`. -/
structure AuxRange where
  phys : UInt64 := 0
  len : UInt64 := 0
  offset : UInt64 := 0
  pid : UInt32 := 0
  flags : UInt32 := 0
  deriving DecidableEq

/-- `struct amba_virt_iav_aux_cfg`. -/
structure AuxCfg where
  size : UInt64 := 0
  epoch : UInt64 := 0
  count : UInt32 := 0
  flags : UInt32 := 0
  maps : UInt32 := 0
  reserved : UInt32 := 0
  range : Fin 16 → AuxRange := fun _ => {}

def AuxCfg.ranges (c : AuxCfg) : List AuxRange :=
  (List.ofFn c.range).take c.count.toNat

/-- `struct amba_virt_iav_aux_source`. -/
structure AuxSource where
  phys : UInt64 := 0
  len : UInt64 := 0
  pid : UInt32 := 0
  reserved : UInt32 := 0
  deriving DecidableEq

/-- `struct amba_virt_iav_aux_sources`. -/
structure AuxSources where
  count : UInt32 := 0
  reserved : UInt32 := 0
  src : Fin 32 → AuxSource := fun _ => {}

def AuxSources.list (s : AuxSources) : List AuxSource :=
  (List.ofFn s.src).take s.count.toNat

/-- The physical window of the module, `win_min` and `win_max`. -/
structure WinBounds where
  min : UInt64
  max : UInt64

/-- `iav_aux_phys_ok`. -/
def WinBounds.PhysOk (w : WinBounds) (phys len : UInt64) : Prop :=
  len ≠ 0 ∧ phys % PAGE_SIZE = 0 ∧ len % PAGE_SIZE = 0 ∧
    phys.toNat + len.toNat < 2 ^ 64 ∧ w.min ≤ phys ∧ phys + len ≤ w.max
  deriving Decidable

/-- `iav_aux_is_source`. -/
def AuxSources.IsSource (s : AuxSources) (r : AuxRange) : Prop :=
  ∃ x ∈ s.list, x.phys = r.phys ∧ x.len = r.len ∧ x.pid = r.pid
  deriving Decidable

namespace AuxCfg

variable (w : WinBounds) (c : AuxCfg)

/-- Two ranges at one place in the BAR, or one memory twice. -/
def Clash (r o : AuxRange) : Prop :=
  (r.offset < o.offset + o.len ∧ o.offset < r.offset + r.len) ∨
    (r.phys < o.phys + o.len ∧ o.phys < r.phys + r.len)
  deriving Decidable

/-- The body of the loop of `iav_aux_validate`. -/
def validateRange (i : Fin 16) : Except Errno Unit :=
  let r := c.range i
  if c.count.toNat ≤ i then refuseIf (r ≠ {}) .EINVAL
  else do
    refuseIf (r.flags ≠ 0) .EINVAL
    refuseIf (¬ w.PhysOk r.phys r.len) .ERANGE
    refuseIf (r.offset % AMBA_VIRT_IAV_AUX_ALIGN ≠ 0 ∨ 2 ^ 64 ≤ r.offset.toNat + r.len.toNat ∨
      r.offset + r.len > c.size - PAGE_SIZE) .EINVAL
    checkAll ((List.finRange 16).filter (· < i)) fun j =>
      refuseIf (Clash r (c.range j)) .EINVAL

/-- `iav_aux_validate`. -/
def validate : Except Errno Unit := do
  refuseIf (c.flags ≠ 0 ∨ c.maps ≠ 0 ∨ c.reserved ≠ 0 ∨ c.epoch = 0) .EINVAL
  refuseIf (¬ IsPow2U64 c.size ∨ c.size < AMBA_VIRT_IAV_AUX_MIN_SIZE ∨
    c.size > AMBA_VIRT_IAV_AUX_MAX_SIZE) .EINVAL
  refuseIf (c.count = 0 ∨ c.count > AMBA_VIRT_IAV_AUX_MAX_RANGES) .EINVAL
  checkAll (List.finRange 16) (c.validateRange w)

/-- The source check of `iav_aux_config`. -/
def checkSources (s : AuxSources) : Except Errno Unit :=
  checkAll c.ranges fun r => refuseIf (¬ s.IsSource r) .EPERM

end AuxCfg

/-- What `iav_aux_set_sources` asks of entry `i` of a new list. -/
def AuxSources.checkEntry (w : WinBounds) (s : AuxSources) (i : Fin 32) : Except Errno Unit :=
  let x := s.src i
  if s.count.toNat ≤ i then refuseIf (x ≠ {}) .EINVAL
  else refuseIf (x.reserved ≠ 0 ∨ ¬ w.PhysOk x.phys x.len) .EINVAL

-- ==== nodes

/-- `struct iav_aux`. A page is its frame number. The mapping count is a C
`int`; it counts mappings, so it never comes near the end of its range. -/
structure AuxNode where
  configured : Bool := false
  maps : Int := 0
  cfg : AuxCfg := {}
  scratch : Option Nat := none
  hdr : Option Nat := none

/-- The pages a node lacks are allocated: `a` and `b` are what
`alloc_page` returns for a scratch and for a header page. -/
def AuxNode.alloc (x : AuxNode) (a b : Option Nat) : AuxNode :=
  { x with scratch := x.scratch.or a, hdr := x.hdr.or b }

def AuxNode.Has (x : AuxNode) (p : Nat) : Prop :=
  x.scratch = some p ∨ x.hdr = some p

/-- What a page of the BAR is mapped to. -/
inductive AuxPage
  | real (phys : UInt64)
  | ram (pfn : Nat)
  deriving DecidableEq

/-- One `remap_pfn_range`: `len` bytes from BAR offset `off` on. -/
structure AuxPiece where
  off : UInt64
  len : UInt64
  page : AuxPage
  deriving DecidableEq

/-- A mapping of `[lo, hi)` of a node's BAR. -/
structure Vma where
  node : Fin 8
  lo : UInt64
  hi : UInt64
  pieces : List AuxPiece
  deriving DecidableEq

/-- The nodes, the sources, the bytes of the page frames and the live
mappings. -/
structure AuxState where
  node : Fin 8 → AuxNode := fun _ => {}
  sources : AuxSources := {}
  ram : Nat → Mem := fun _ _ => 0
  vmas : List Vma := []

/-- `iav_aux_range_at`. -/
def AuxCfg.rangeAt (c : AuxCfg) (off : UInt64) : Option AuxRange :=
  c.ranges.find? fun r => r.offset ≤ off ∧ off - r.offset < r.len

/-- The loop of `iav_aux_mmap`. Each round maps a page or more, so the
pages of the range are fuel enough. -/
def AuxNode.mapPieces (x : AuxNode) (last : UInt64) : Nat → UInt64 → List AuxPiece
  | 0, _ => []
  | fuel + 1, off =>
    if off < last then
      match x.cfg.rangeAt off with
      | some r =>
        let n := min last (r.offset + r.len) - off
        ⟨off, n, .real (r.phys + (off - r.offset))⟩ :: x.mapPieces last fuel (off + n)
      | none =>
        let pg := if off = x.cfg.size - PAGE_SIZE then x.hdr else x.scratch
        ⟨off, PAGE_SIZE, .ram (pg.getD 0)⟩ :: x.mapPieces last fuel (off + PAGE_SIZE)
    else []

/-- `struct amba_virt_iav_aux_hdr` of a node. -/
def AuxCfg.header (c : AuxCfg) (n : Fin 8) : List Field :=
  [.u32 0 AMBA_VIRT_IAV_AUX_HDR_MAGIC, .u32 4 AMBA_VIRT_IAV_AUX_HDR_VERSION,
    .u32 8 n.val.toUInt32, .u32 12 c.count, .u64 16 c.epoch, .u64 24 c.size]

/-- A cleared page with the header in its last 64 bytes. -/
def AuxCfg.headerPage (c : AuxCfg) (n : Fin 8) : Mem :=
  blit (fun _ => 0) (storeAll (fun _ => 0) (c.header n)) (4096 - 64) 64

namespace AuxState

variable (s : AuxState)

def setNode (n : Fin 8) (x : AuxNode) : AuxState :=
  { s with node := update s.node n x }

/-- The checks of `iav_aux_config`, before it allocates. -/
def configCheck (w : WinBounds) (n : Fin 8) (c : AuxCfg) : Except Errno Unit := do
  c.validate w
  refuseIf ((s.node n).maps ≠ 0) .EBUSY
  c.checkSources s.sources

/-- `iav_aux_config`, behind its checks. If one of the two pages is
missing the other is kept. -/
def configNode (n : Fin 8) (c : AuxCfg) (a b : Option Nat) : AuxState :=
  let x := (s.node n).alloc a b
  match x.scratch, x.hdr with
  | some p, some q =>
    { s.setNode n { x with cfg := c, configured := true } with
      ram := update (update s.ram p fun _ => 0) q
        (c.headerPage n) }
  | _, _ => s.setNode n x

/-- What `iav_aux_config` returns. -/
def configResult (w : WinBounds) (n : Fin 8) (c : AuxCfg) (a b : Option Nat) :
    Except Errno Unit := do
  s.configCheck w n c
  let x := (s.node n).alloc a b
  refuseIf (x.scratch = none ∨ x.hdr = none) .ENOMEM

/-- The checks of `iav_aux_set_sources`. -/
def sourcesCheck (w : WinBounds) (t : AuxSources) : Except Errno Unit := do
  refuseIf (t.reserved ≠ 0 ∨ t.count > AMBA_VIRT_IAV_AUX_MAX_SOURCES) .EINVAL
  checkAll (List.finRange 32) (t.checkEntry w)
  checkAll (List.finRange 8) fun n =>
    if (s.node n).configured = true then
      checkAll (s.node n).cfg.ranges fun r => refuseIf (¬ t.IsSource r) .EBUSY
    else .ok ()

def clearNode (n : Fin 8) : AuxState :=
  if (s.node n).maps ≠ 0 then s
  else s.setNode n { s.node n with configured := false, cfg := {} }

/-- The checks of `iav_aux_mmap`. -/
def mmapCheck (n : Fin 8) (off size : UInt64) (shared : Bool) : Except Errno Unit := do
  refuseIf (shared = false) .EINVAL
  refuseIf (2 ^ 64 ≤ off.toNat + size.toNat) .EINVAL
  refuseIf ((s.node n).configured = false) .ENODEV
  refuseIf (off + size > (s.node n).cfg.size) .EINVAL

/-- The mapping `iav_aux_mmap` makes. -/
def mmapVma (n : Fin 8) (off size : UInt64) : Vma where
  node := n
  lo := off
  hi := off + size
  pieces := (s.node n).mapPieces (off + size) (size / PAGE_SIZE).toNat off

/-- `maps++` or `maps--` of a node. -/
def addMaps (n : Fin 8) (k : Int) : AuxState :=
  s.setNode n { s.node n with maps := (s.node n).maps + k }

/-- A byte stored through a mapping, at BAR offset `o`. What goes to the
real ranges is not in the node. -/
def store (v : Vma) (o : UInt64) (b : UInt8) : AuxState :=
  match v.pieces.find? fun p => p.off ≤ o ∧ o - p.off < p.len with
  | some ⟨off, _, .ram pfn⟩ =>
    { s with
      ram := update s.ram pfn
        (update (s.ram pfn) (o - off).toNat b) }
  | _ => s

end AuxState

-- ==== the system

/-- A call of the module, or what a process does with a mapping: fork,
split (by `munmap` or `mprotect` of a part), unmap, store. A call that
fails before it takes the lock is none. -/
inductive AuxEvent
  | setSources (t : AuxSources)
  | config (n : Fin 8) (c : AuxCfg) (a b : Option Nat)
  | clear (n : Fin 8)
  | mmap (n : Fin 8) (off size : UInt64) (shared remapped : Bool)
  | fork (v : Vma)
  | split (v : Vma) (at_ : UInt64)
  | close (v : Vma)
  | store (v : Vma) (o : UInt64) (b : UInt8)

namespace AuxState

def Unused (s : AuxState) (p : Nat) : Prop := ∀ n, ¬ (s.node n).Has p

/-- `alloc_page` gives frames that are not in use, and a process only has
the mappings that are live. -/
def Allowed (s : AuxState) : AuxEvent → Prop
  | .config _ _ a b =>
    (∀ p ∈ a, s.Unused p) ∧ (∀ p ∈ b, s.Unused p) ∧ (∀ p ∈ a, p ∉ b)
  | .fork v | .close v => v ∈ s.vmas
  | .split v o => v ∈ s.vmas ∧ v.lo < o ∧ o < v.hi
  | .store v o _ => v ∈ s.vmas ∧ v.lo ≤ o ∧ o < v.hi
  | _ => True

def apply (w : WinBounds) (s : AuxState) : AuxEvent → AuxState
  | .setSources t =>
    if s.sourcesCheck w t = .ok () then { s with sources := t } else s
  | .config n c a b =>
    if s.configCheck w n c = .ok () then s.configNode n c a b else s
  | .clear n => s.clearNode n
  | .mmap n off size shared remapped =>
    if s.mmapCheck n off size shared = .ok () ∧ remapped = true then
      { s.addMaps n 1 with vmas := s.mmapVma n off size :: s.vmas }
    else s
  | .fork v => { s.addMaps v.node 1 with vmas := v :: s.vmas }
  | .split v o =>
    { s.addMaps v.node 1 with
      vmas := { v with hi := o } :: move s.vmas v { v with lo := o } }
  | .close v => { s.addMaps v.node (-1) with vmas := s.vmas.erase v }
  | .store v o b => s.store v o b

def live (s : AuxState) (n : Fin 8) : Nat := s.vmas.countP (·.node = n)

end AuxState

def auxSystem (w : WinBounds) : System AuxState AuxEvent where
  init s := s = {}
  step s e s' := s.Allowed e ∧ s' = s.apply w e

-- ==== the parts

namespace AuxNode

variable {x : AuxNode} {a b : Option Nat} {p : Nat}

theorem Has.alloc (h : x.Has p) : (x.alloc a b).Has p := by
  rcases h with h | h
  · exact .inl (by simp [AuxNode.alloc, h])
  · exact .inr (by simp [AuxNode.alloc, h])

theorem has_of_alloc (h : (x.alloc a b).Has p) : x.Has p ∨ p ∈ a ∨ p ∈ b := by
  rcases h with h | h
  · rcases Option.or_eq_some_iff.mp h with h | ⟨-, h⟩
    · exact .inl (.inl h)
    · exact .inr (.inl h)
  · rcases Option.or_eq_some_iff.mp h with h | ⟨-, h⟩
    · exact .inl (.inr h)
    · exact .inr (.inr h)

/-- What is mapped to memory of the module is one of the node's pages. -/
theorem mapPieces_owned {last off : UInt64} {fuel : Nat} (hs : x.scratch.isSome)
    (hh : x.hdr.isSome) {q : AuxPiece} (hq : q ∈ x.mapPieces last fuel off)
    (hp : q.page = .ram p) : x.Has p := by
  induction fuel generalizing off with
  | zero => cases hq
  | succ fuel ih =>
    unfold mapPieces at hq
    split at hq
    · split at hq
      · rcases List.mem_cons.mp hq with rfl | hq
        · cases hp
        · exact ih hq
      rcases List.mem_cons.mp hq with rfl | hq
      · obtain ⟨a, ha⟩ := Option.isSome_iff_exists.mp hs
        obtain ⟨b, hb⟩ := Option.isSome_iff_exists.mp hh
        split at hp
        · rw [hb] at hp
          exact .inr (hb.trans (congrArg some (AuxPage.ram.inj hp)))
        · rw [ha] at hp
          exact .inl (ha.trans (congrArg some (AuxPage.ram.inj hp)))
      · exact ih hq
    · cases hq

end AuxNode

namespace AuxState

variable {s s' : AuxState} {w : WinBounds} {n m : Fin 8} {c : AuxCfg} {a b : Option Nat} {k : Int}

@[simp] theorem setNode_self {x : AuxNode} : (s.setNode n x).node n = x :=
  update_self ..

theorem setNode_of_ne {x : AuxNode} (h : m ≠ n) : (s.setNode n x).node m = s.node m :=
  update_of_ne h ..

theorem addMaps_node : (s.addMaps n k).node m =
    { s.node m with maps := (s.node m).maps + if m = n then k else 0 } := by
  by_cases h : m = n
  · subst h
    rw [addMaps, setNode_self, if_pos rfl]
  · rw [addMaps, setNode_of_ne h, if_neg h, Int.add_zero]

variable {p : Nat}

theorem has_addMaps : ((s.addMaps n k).node m).Has p ↔ (s.node m).Has p := by
  rw [addMaps_node]
  rfl

theorem configNode_some {q : Nat} (hp : ((s.node n).alloc a b).scratch = some p)
    (hq : ((s.node n).alloc a b).hdr = some q) :
    s.configNode n c a b =
      { s.setNode n { (s.node n).alloc a b with cfg := c, configured := true } with
        ram := update (update s.ram p fun _ => 0) q
          (c.headerPage n) } := by
  unfold configNode
  dsimp only
  split
  · rename_i p' q' hp' hq'
    rw [Option.some.inj (hp.symm.trans hp'), Option.some.inj (hq.symm.trans hq')]
  · rename_i hnone
    exact absurd hq (hnone p q hp)

/-- What a configuration that passed its checks does: one of the pages is
missing and only the other is new, or the node is configured. -/
theorem configNode_cases (s : AuxState) (n : Fin 8) (c : AuxCfg) (a b : Option Nat) :
    s.configNode n c a b = s.setNode n ((s.node n).alloc a b) ∨
    ∃ p q, ((s.node n).alloc a b).scratch = some p ∧ ((s.node n).alloc a b).hdr = some q ∧
      s.configNode n c a b =
        { s.setNode n { (s.node n).alloc a b with cfg := c, configured := true } with
          ram := update (update s.ram p fun _ => 0) q
            (c.headerPage n) } := by
  by_cases hboth : ∃ p q, ((s.node n).alloc a b).scratch = some p ∧
      ((s.node n).alloc a b).hdr = some q
  · obtain ⟨p, q, hp, hq⟩ := hboth
    exact .inr ⟨p, q, hp, hq, configNode_some hp hq⟩
  left
  unfold configNode
  dsimp only
  split
  · rename_i p q hp hq
    exact absurd ⟨p, q, hp, hq⟩ hboth
  · rfl

theorem configNode_of_ne (h : m ≠ n) : (s.configNode n c a b).node m = s.node m := by
  rcases configNode_cases s n c a b with hc | ⟨p, q, -, -, hc⟩
  · rw [hc, setNode_of_ne h]
  · rw [hc]
    exact setNode_of_ne h

theorem has_configNode : ((s.configNode n c a b).node n).Has p ↔ ((s.node n).alloc a b).Has p := by
  rcases configNode_cases s n c a b with hc | ⟨p, q, -, -, hc⟩
  · rw [hc, setNode_self]
  rw [hc]
  rw [setNode_self]
  rfl

theorem configNode_vmas : (s.configNode n c a b).vmas = s.vmas := by
  rcases configNode_cases s n c a b with hc | ⟨p, q, -, -, hc⟩ <;> rw [hc] <;> rfl

theorem configNode_maps : ((s.configNode n c a b).node m).maps = (s.node m).maps := by
  by_cases h : m = n
  · subst h
    rcases configNode_cases s m c a b with hc | ⟨p, q, -, -, hc⟩
    · rw [hc, setNode_self]
      rfl
    rw [hc]
    rw [setNode_self]
    rfl
  · rw [configNode_of_ne h]

theorem configCheck_ok (h : s.configCheck w n c = .ok ()) :
    c.validate w = .ok () ∧ (s.node n).maps = 0 ∧ ∀ r ∈ c.ranges, s.sources.IsSource r := by
  simp only [configCheck, AuxCfg.checkSources, guards, checkAll_ok, not_not] at h
  exact h

theorem sourcesCheck_ok {t : AuxSources} (h : s.sourcesCheck w t = .ok ())
    (hn : (s.node n).configured = true) {r : AuxRange}
    (hr : r ∈ (s.node n).cfg.ranges) : t.IsSource r := by
  simp only [sourcesCheck, guards, checkAll_ok] at h
  have hnode := h.2.2 n (List.mem_finRange n)
  rw [if_pos hn] at hnode
  simp only [checkAll_ok, refuseIf_ok, not_not] at hnode
  exact hnode r hr

/-- A store goes to a page frame of the mapping. -/
theorem store_cases (s : AuxState) (v : Vma) (o : UInt64) (b : UInt8) :
    s.store v o b = s ∨ ∃ q ∈ v.pieces, ∃ pfn m, q.page = .ram pfn ∧
      s.store v o b = { s with ram := update s.ram pfn m } := by
  unfold store
  split
  · rename_i off len pfn hfind
    exact .inr ⟨_, List.mem_of_find?_eq_some hfind, pfn, _, rfl, rfl⟩
  · exact .inl rfl

end AuxState

-- ==== the invariant

/-- What every reachable state has: the ranges are registered, the counts
are those of the live mappings, no page frame is used twice, and a
mapping reaches no page frame but its own node's. -/
structure AuxInv (s : AuxState) : Prop where
  sources : ∀ n, (s.node n).configured = true → ∀ r ∈ (s.node n).cfg.ranges, s.sources.IsSource r
  maps : ∀ n, (s.node n).maps = s.live n
  pages : ∀ n, (s.node n).configured = true → (s.node n).scratch.isSome ∧ (s.node n).hdr.isSome
  apart : ∀ n m p, (s.node n).Has p → (s.node m).Has p → n = m
  two : ∀ n p, (s.node n).scratch = some p → (s.node n).hdr ≠ some p
  owned : ∀ v ∈ s.vmas, ∀ q ∈ v.pieces, ∀ p, q.page = .ram p → (s.node v.node).Has p

namespace AuxInv

variable {s : AuxState} {w : WinBounds}

theorem init : AuxInv {} where
  sources := by simp
  maps := by simp [AuxState.live]
  pages := by simp
  apart := by simp [AuxNode.Has]
  two := by simp
  owned := by simp

section

variable (h : AuxInv s)

include h

theorem setSources {t : AuxSources}
    (ht : s.sourcesCheck w t = .ok ()) : AuxInv { s with sources := t } :=
  { h with sources := fun _ hn _ hr => AuxState.sourcesCheck_ok ht hn hr }

variable {n : Fin 8} {a b : Option Nat}

theorem alloc_apart (ha : ∀ p ∈ a, s.Unused p) (hb : ∀ p ∈ b, s.Unused p) {m : Fin 8} {p : Nat}
    (hn : ((s.node n).alloc a b).Has p) (hm : (s.node m).Has p) : n = m := by
  rcases AuxNode.has_of_alloc hn with hn | hn | hn
  · exact h.apart n m p hn hm
  · exact absurd hm (ha p hn m)
  · exact absurd hm (hb p hn m)

theorem alloc_two (ha : ∀ p ∈ a, s.Unused p)
    (hb : ∀ p ∈ b, s.Unused p) (hab : ∀ p ∈ a, p ∉ b) {p : Nat}
    (hs : ((s.node n).alloc a b).scratch = some p) :
    ((s.node n).alloc a b).hdr ≠ some p := by
  intro hh
  rcases Option.or_eq_some_iff.mp hs with hs | ⟨-, hs⟩
  · rcases Option.or_eq_some_iff.mp hh with hh | ⟨-, hh⟩
    · exact h.two n p hs hh
    · exact hb p hh n (.inl hs)
  · rcases Option.or_eq_some_iff.mp hh with hh | ⟨-, hh⟩
    · exact ha p hs n (.inr hh)
    · exact hab p hs hh

theorem config {c : AuxCfg} (hc : s.configCheck w n c = .ok ())
    (ha : ∀ p ∈ a, s.Unused p) (hb : ∀ p ∈ b, s.Unused p) (hab : ∀ p ∈ a, p ∉ b) :
    AuxInv (s.configNode n c a b) := by
  obtain ⟨-, -, hsrc⟩ := AuxState.configCheck_ok hc
  have hsources : (s.configNode n c a b).sources = s.sources := by
    rcases AuxState.configNode_cases s n c a b with hc | ⟨p, q, -, -, hc⟩ <;>
      rw [hc] <;> rfl
  -- the configured node: as before, or the new configuration with both pages
  have hnode : ((s.configNode n c a b).node n = (s.node n).alloc a b) ∨
      ((s.configNode n c a b).node n = { (s.node n).alloc a b with cfg := c, configured := true } ∧
        ((s.node n).alloc a b).scratch.isSome ∧
        ((s.node n).alloc a b).hdr.isSome) := by
    rcases AuxState.configNode_cases s n c a b with hc | ⟨p, q, hp, hq, hc⟩
    · exact .inl (by rw [hc, AuxState.setNode_self])
    · refine .inr ⟨?_, by simp [hp], by simp [hq]⟩
      rw [hc]
      exact AuxState.setNode_self
  have hfields : ((s.configNode n c a b).node n).scratch = ((s.node n).alloc a b).scratch ∧
      ((s.configNode n c a b).node n).hdr = ((s.node n).alloc a b).hdr := by
    rcases hnode with hnode | ⟨hnode, -⟩ <;> rw [hnode] <;> exact ⟨rfl, rfl⟩
  refine ⟨?_, ?_, ?_, ?_, ?_, ?_⟩
  · intro m hm r hr
    rw [hsources]
    by_cases hmn : m = n
    · subst hmn
      rcases hnode with hnode | ⟨hnode, -⟩
      · rw [hnode] at hm hr
        exact h.sources m hm r hr
      · rw [hnode] at hr
        exact hsrc r hr
    · rw [AuxState.configNode_of_ne hmn] at hm hr
      exact h.sources m hm r hr
  · intro m
    rw [AuxState.configNode_maps, AuxState.live, AuxState.configNode_vmas]
    exact h.maps m
  · intro m hm
    by_cases hmn : m = n
    · subst hmn
      rcases hnode with hnode | ⟨hnode, hpages⟩
      · rw [hnode] at hm
        obtain ⟨hs, hh⟩ := h.pages m hm
        rw [hnode]
        constructor
        · simp [AuxNode.alloc, Option.isSome_or, hs]
        · simp [AuxNode.alloc, Option.isSome_or, hh]
      · rw [hnode]
        exact hpages
    · rw [AuxState.configNode_of_ne hmn] at hm ⊢
      exact h.pages m hm
  · intro m m' p hm hm'
    by_cases hmn : m = n
    · subst hmn
      rw [AuxState.has_configNode] at hm
      by_cases hmn' : m' = m
      · exact hmn'.symm
      · rw [AuxState.configNode_of_ne hmn'] at hm'
        exact h.alloc_apart ha hb hm hm'
    · rw [AuxState.configNode_of_ne hmn] at hm
      by_cases hmn' : m' = n
      · subst hmn'
        rw [AuxState.has_configNode] at hm'
        exact (h.alloc_apart ha hb hm' hm).symm
      · rw [AuxState.configNode_of_ne hmn'] at hm'
        exact h.apart m m' p hm hm'
  · intro m p hs
    by_cases hmn : m = n
    · subst hmn
      rw [hfields.1] at hs
      rw [hfields.2]
      exact h.alloc_two ha hb hab hs
    · rw [AuxState.configNode_of_ne hmn] at hs ⊢
      exact h.two m p hs
  · intro v hv q hq p hp
    rw [AuxState.configNode_vmas] at hv
    have hold := h.owned v hv q hq p hp
    by_cases hmn : v.node = n
    · rw [hmn] at hold ⊢
      rw [AuxState.has_configNode]
      exact hold.alloc
    · rwa [AuxState.configNode_of_ne hmn]

theorem clear (n : Fin 8) : AuxInv (s.clearNode n) := by
  unfold AuxState.clearNode
  split
  · exact h
  have hnode (m : Fin 8) : ∃ c d,
      ((s.setNode n { s.node n with configured := false, cfg := {} }).node m)
        = { s.node m with configured := d, cfg := c } ∧
      (d = true → c = (s.node m).cfg ∧ (s.node m).configured = true) := by
    by_cases hmn : m = n
    · subst hmn
      exact ⟨{}, false, by simp, by simp⟩
    · refine ⟨(s.node m).cfg, (s.node m).configured, ?_, fun hd => ⟨rfl, hd⟩⟩
      rw [AuxState.setNode_of_ne hmn]
  refine ⟨?_, ?_, ?_, ?_, ?_, ?_⟩
  · intro m hm r hr
    obtain ⟨c, d, heq, hd⟩ := hnode m
    rw [heq] at hm hr
    obtain ⟨rfl, hconf⟩ := hd hm
    exact h.sources m hconf r hr
  · intro m
    obtain ⟨c, d, heq, -⟩ := hnode m
    rw [heq]
    exact h.maps m
  · intro m hm
    obtain ⟨c, d, heq, hd⟩ := hnode m
    rw [heq] at hm ⊢
    exact h.pages m (hd hm).2
  · intro m m' p hm hm'
    obtain ⟨c, d, heq, -⟩ := hnode m
    obtain ⟨c', d', heq', -⟩ := hnode m'
    rw [heq] at hm
    rw [heq'] at hm'
    exact h.apart m m' p hm hm'
  · intro m p hs
    obtain ⟨c, d, heq, -⟩ := hnode m
    rw [heq] at hs ⊢
    exact h.two m p hs
  · intro v hv q hq p hp
    obtain ⟨c, d, heq, -⟩ := hnode v.node
    rw [heq]
    exact h.owned v hv q hq p hp

theorem remap {k : Int} {l : List Vma} (hcount : ∀ m, (l.countP (·.node = m) : Int)
      = s.vmas.countP (·.node = m) + if m = n then k else 0)
    (howned : ∀ v ∈ l, ∀ q ∈ v.pieces, ∀ p, q.page = .ram p →
      (s.node v.node).Has p) : AuxInv { s.addMaps n k with vmas := l } where
  sources m hm r hr := by
    have heq := AuxState.addMaps_node (s := s) (n := n) (k := k) (m := m)
    rw [heq] at hm hr
    exact h.sources m hm r hr
  maps m := by
    rw [AuxState.addMaps_node, AuxState.live]
    dsimp only
    rw [hcount, h.maps m]
    rfl
  pages m hm := by
    have heq := AuxState.addMaps_node (s := s) (n := n) (k := k) (m := m)
    rw [heq] at hm ⊢
    exact h.pages m hm
  apart m m' p hm hm' :=
    h.apart m m' p (AuxState.has_addMaps.mp hm) (AuxState.has_addMaps.mp hm')
  two m p hs := by
    have heq := AuxState.addMaps_node (s := s) (n := n) (k := k) (m := m)
    rw [heq] at hs ⊢
    exact h.two m p hs
  owned v hv q hq p hp := AuxState.has_addMaps.mpr (howned v hv q hq p hp)

theorem step {e : AuxEvent} (he : s.Allowed e) : AuxInv (s.apply w e) := by
  cases e with
  | setSources t =>
    simp only [AuxState.apply]
    split
    · rename_i ht
      exact h.setSources ht
    · exact h
  | config n c a b =>
    simp only [AuxState.apply]
    split
    · rename_i hc
      exact h.config hc he.1 he.2.1 he.2.2
    · exact h
  | clear n => exact h.clear n
  | mmap n off size shared remapped =>
    simp only [AuxState.apply]
    split
    · rename_i hm
      have hconf : (s.node n).configured = true := by
        have hchk := hm.1
        simp only [AuxState.mmapCheck, guards, Bool.not_eq_false] at hchk
        exact hchk.2.2.1
      apply h.remap
      · intro m
        by_cases hmn : m = n
        · simp [AuxState.mmapVma, hmn]
        · simp [AuxState.mmapVma, hmn, Ne.symm hmn]
      · intro v hv q hq p hp
        rcases List.mem_cons.mp hv with rfl | hv
        · obtain ⟨hs, hh⟩ := h.pages n hconf
          exact AuxNode.mapPieces_owned hs hh hq hp
        · exact h.owned v hv q hq p hp
    · exact h
  | fork v =>
    apply h.remap
    · intro m
      by_cases hmn : m = v.node
      · simp [hmn]
      · simp [hmn, Ne.symm hmn]
    · intro u hu q hq p hp
      rcases List.mem_cons.mp hu with rfl | hu
      · exact h.owned u he q hq p hp
      · exact h.owned u hu q hq p hp
  | split v o =>
    apply h.remap
    · intro m
      have hmove := countP_move (b := { v with lo := o }) he.1 (·.node = m)
      rw [List.countP_cons]
      by_cases hmn : m = v.node
      · simp only [hmn, decide_true, if_true] at hmove ⊢
        omega
      · simp only [Ne.symm hmn, hmn, decide_false] at hmove ⊢
        simp only [Bool.false_eq_true, if_false] at hmove ⊢
        omega
    · intro u hu q hq p hp
      rcases List.mem_cons.mp hu with rfl | hu
      · exact h.owned v he.1 q hq p hp
      · rcases mem_move hu with rfl | hu
        · exact h.owned v he.1 q hq p hp
        · exact h.owned u hu q hq p hp
  | close v =>
    apply h.remap
    · intro m
      have herase := countP_erase he (·.node = m)
      by_cases hmn : m = v.node
      · simp only [hmn, decide_true, if_true] at herase ⊢
        omega
      · simp only [Ne.symm hmn, hmn, decide_false] at herase ⊢
        simp only [Bool.false_eq_true, if_false] at herase ⊢
        omega
    · intro u hu q hq p hp
      exact h.owned u (List.mem_of_mem_erase hu) q hq p hp
  | store v o b =>
    show AuxInv (s.store v o b)
    rcases AuxState.store_cases s v o b with hst | ⟨q, -, pfn, m, -, hst⟩
    · rwa [hst]
    · rw [hst]
      exact { h with }

end

theorem reachable (h : (auxSystem w).Reachable s) : AuxInv s := by
  refine Reachable.induct (I := AuxInv) ?_ ?_ h
  · intro s hs
    rw [hs]
    exact init
  · intro s e s' _ hI hstep
    rw [hstep.2]
    exact hI.step hstep.1

end AuxInv

-- ==== mapped nodes

/-- A store through a mapping of node `n`. -/
def AuxEvent.StoresTo (n : Fin 8) : AuxEvent → Prop
  | .store v _ _ => v.node = n
  | _ => False

namespace AuxState

/-- Node `n` is configured as it was, on the same two pages. -/
structure Kept (s s' : AuxState) (n : Fin 8) : Prop where
  configured : (s'.node n).configured = (s.node n).configured
  cfg : (s'.node n).cfg = (s.node n).cfg
  scratch : (s'.node n).scratch = (s.node n).scratch
  hdr : (s'.node n).hdr = (s.node n).hdr

/-- The two pages of node `n` hold what they held. -/
def SamePages (s s' : AuxState) (n : Fin 8) : Prop :=
  ∀ p, (s.node n).Has p → s'.ram p = s.ram p

/-- Node `n` has the configuration `c`, a scratch page of zeros, and a
header page with the header of `c` and zeros. -/
def Fresh (s : AuxState) (n : Fin 8) (c : AuxCfg) : Prop :=
  (s.node n).configured = true ∧ (s.node n).cfg = c ∧
    ∃ p q, (s.node n).scratch = some p ∧ (s.node n).hdr = some q ∧
      s.ram p = (fun _ => 0) ∧ s.ram q = c.headerPage n

theorem Kept.of_eq {s s' : AuxState} {n : Fin 8} (h : s'.node n = s.node n) :
    Kept s s' n := by
  refine ⟨?_, ?_, ?_, ?_⟩ <;> rw [h]

theorem Kept.addMaps {s : AuxState} {n m : Fin 8} {k : Int} {l : List Vma} :
    Kept s { s.addMaps m k with vmas := l } n := by
  refine ⟨?_, ?_, ?_, ?_⟩ <;> (dsimp only; rw [addMaps_node])

end AuxState

namespace AuxInv

variable {s : AuxState} {w : WinBounds} {n : Fin 8}

theorem config_apart (h : AuxInv s) {m : Fin 8} (hmn : n ≠ m) {c : AuxCfg}
    {a b : Option Nat} (ha : ∀ p ∈ a, s.Unused p) (hb : ∀ p ∈ b, s.Unused p) :
    s.SamePages (s.configNode m c a b) n := by
  intro x hx
  rcases AuxState.configNode_cases s m c a b with hc | ⟨p, q, hp, hq, hc⟩
  · rw [hc]
    rfl
  have hne (y : Nat) (hy : ((s.node m).alloc a b).Has y) : x ≠ y := by
    intro hxy
    rw [hxy] at hx
    exact hmn (h.alloc_apart ha hb hy hx).symm
  rw [hc]
  dsimp only
  rw [update_of_ne (hne q (.inr hq)), update_of_ne (hne p (.inl hp))]

/-- While a node is mapped, nothing but a store through a mapping of it
changes it. -/
theorem kept (h : AuxInv s) {e : AuxEvent} (he : s.Allowed e) (hlive : s.live n ≠ 0) :
    s.Kept (s.apply w e) n ∧ (¬ e.StoresTo n → s.SamePages (s.apply w e) n) := by
  have hmaps : (s.node n).maps ≠ 0 := by
    rw [h.maps n]
    exact Int.natCast_ne_zero.mpr hlive
  cases e with
  | setSources t =>
    simp only [AuxState.apply]
    split <;> exact ⟨.of_eq rfl, fun _ _ _ => rfl⟩
  | config m c a b =>
    simp only [AuxState.apply]
    split
    · rename_i hc
      have hmn : n ≠ m := by
        intro hnm
        rw [hnm] at hmaps
        exact hmaps (AuxState.configCheck_ok hc).2.1
      exact ⟨.of_eq (AuxState.configNode_of_ne hmn), fun _ => h.config_apart hmn he.1 he.2.1⟩
    · exact ⟨.of_eq rfl, fun _ _ _ => rfl⟩
  | clear m =>
    simp only [AuxState.apply, AuxState.clearNode]
    split
    · exact ⟨.of_eq rfl, fun _ _ _ => rfl⟩
    rename_i hm
    have hmn : n ≠ m := by
      intro hnm
      rw [hnm] at hmaps
      exact hm hmaps
    exact ⟨.of_eq (AuxState.setNode_of_ne hmn), fun _ _ _ => rfl⟩
  | mmap m off size shared remapped =>
    simp only [AuxState.apply]
    split
    · exact ⟨.addMaps, fun _ _ _ => rfl⟩
    · exact ⟨.of_eq rfl, fun _ _ _ => rfl⟩
  | fork v | split v o | close v => exact ⟨.addMaps, fun _ _ _ => rfl⟩
  | store v o b =>
    show s.Kept (s.store v o b) n ∧ (_ → s.SamePages (s.store v o b) n)
    rcases AuxState.store_cases s v o b with hst | ⟨q, hq, pfn, m, hpage, hst⟩
    · rw [hst]
      exact ⟨.of_eq rfl, fun _ _ _ => rfl⟩
    rw [hst]
    refine ⟨.of_eq rfl, ?_⟩
    intro hnot p hp
    have hown := h.owned v he.1 q hq pfn hpage
    have hne : p ≠ pfn := by
      intro hpp
      rw [hpp] at hp
      exact hnot (h.apart v.node n pfn hown hp)
    exact update_of_ne hne ..

theorem fresh (h : AuxInv s) {c : AuxCfg} {a b : Option Nat} (he : s.Allowed (.config n c a b))
    (hret : s.configResult w n c a b = .ok ()) :
    (s.apply w (.config n c a b)).Fresh n c := by
  simp only [AuxState.configResult, guards, not_or] at hret
  obtain ⟨hc, hs, hh⟩ := hret
  simp only [AuxState.apply]
  rw [if_pos hc]
  obtain ⟨p, hp⟩ := Option.ne_none_iff_exists'.mp hs
  obtain ⟨q, hq⟩ := Option.ne_none_iff_exists'.mp hh
  have hpq : p ≠ q := by
    intro hpq
    exact h.alloc_two he.1 he.2.1 he.2.2 hp (hpq ▸ hq)
  rw [AuxState.configNode_some hp hq]
  refine ⟨by simp, by simp, p, q, by simp [hp], by simp [hq], ?_, ?_⟩
  · dsimp only
    rw [update_of_ne hpq, update_self]
  · dsimp only
    rw [update_self]

end AuxInv

/-- The nodes, over every order of calls and of what processes do with
their mappings. -/
theorem aux_nodes_sound {w : WinBounds} {s : AuxState} (h : (auxSystem w).Reachable s) :
    (∀ n, (s.node n).configured = true → ∀ r ∈ (s.node n).cfg.ranges, s.sources.IsSource r) ∧
    (∀ n, (s.node n).maps = s.live n) ∧
    (∀ n e s', s.live n ≠ 0 → (auxSystem w).step s e s' →
      s.Kept s' n ∧ (¬ e.StoresTo n → s.SamePages s' n)) ∧
    (∀ n c a b s', (auxSystem w).step s (.config n c a b) s' →
      s.configResult w n c a b = .ok () → s'.Fresh n c) := by
  have hI := AuxInv.reachable h
  refine ⟨hI.sources, hI.maps, ?_, ?_⟩
  · intro n e s' hlive hstep
    rw [hstep.2]
    exact hI.kept hstep.1 hlive
  · intro n c a b s' hstep hret
    rw [hstep.2]
    exact hI.fresh hstep.1 hret

def sampleBounds : WinBounds := ⟨0x80000000, 0x90000000⟩

def sampleSources : AuxSources where
  count := 1
  src := fun i => if i = 0 then { phys := 0x80000000, len := 0x1000, pid := 10 }
    else {}

def sampleAuxCfg : AuxCfg where
  size := 0x2000
  epoch := 7
  count := 1
  range := fun i => if i = 0 then { phys := 0x80000000, len := 0x1000, pid := 10 }
    else {}

def sampleAux : AuxState :=
  ((({} : AuxState).apply sampleBounds (.setSources sampleSources)).apply
    sampleBounds (.config 0 sampleAuxCfg (some 1) (some 2))).apply
    sampleBounds (.mmap 0 0 0x2000 true true)

theorem sampleAux_reachable : (auxSystem sampleBounds).Reachable sampleAux := by
  have h₁ : (auxSystem sampleBounds).Reachable
      (({} : AuxState).apply sampleBounds (.setSources sampleSources)) :=
    (Reachable.init rfl).step (e := .setSources sampleSources) ⟨trivial, rfl⟩
  have h₂ := h₁.step (e := .config 0 sampleAuxCfg (some 1) (some 2)) ⟨?_, rfl⟩
  · exact h₂.step (e := .mmap 0 0 0x2000 true true) ⟨trivial, rfl⟩
  -- no node has a page yet
  have hunused (p : Nat) : (({} : AuxState).apply sampleBounds
      (.setSources sampleSources)).Unused p := by
    intro n hp
    simp only [AuxState.apply] at hp
    split at hp <;> simp [AuxNode.Has] at hp
  exact ⟨fun p _ => hunused p, fun p _ => hunused p, by simp⟩

theorem aux_nodes_sound_mapped : sampleAux.live 0 = 1 ∧ (sampleAux.node 0).maps = 1 ∧
      (∀ r ∈ (sampleAux.node 0).cfg.ranges, sampleAux.sources.IsSource r) ∧
      sampleAux.Kept (sampleAux.apply sampleBounds (.clear 0)) 0 := by
  obtain ⟨hsrc, hmaps, hkept, -⟩ := aux_nodes_sound sampleAux_reachable
  have hlive : sampleAux.live 0 = 1 := by decide
  refine ⟨hlive, ?_, hsrc 0 (by decide), ?_⟩
  · rfl
  · exact (hkept 0 (.clear 0) _ (by rw [hlive]; decide) ⟨trivial, rfl⟩).1

end AmbaVirt.Kernel
