/-
What a guest may map: OP_INFO, which lists it, and OP_MAP, which
authorises it (tools/iav_broker.c).

Both look at the windows and at the caller's aux aperture, each in a loop
of its own, with its own tests of the profile and of what the guest
negotiated. `info_map_agree` says that they agree. They agree on less
than one may hope: OP_MAP stops at the first entry with the address it
is asked for, so two entries of an aperture with one address are listed
both and served as the first (`info_map_disagree`), and its limit is twice
the length modulo 2^64.

The windows are those `iav_broker_set_windows` accepted, and an aperture
is used only if `aperture_of` accepts the report.
-/
import AmbaVirt.Iav.Ioctl
import AmbaVirt.Lib.Search

namespace AmbaVirt.Iav

open Lib

def AMBA_VIRT_IAV_F_NC_WINDOWS : UInt64 := 0x1
def AMBA_VIRT_IAV_F_EXT_INFO : UInt64 := 0x4
def AMBA_VIRT_IAV_F_APERTURE : UInt64 := 0x8

def AMBA_VIRT_IAV_WIN_DEC : UInt32 := 2
def AMBA_VIRT_IAV_WIN_OVL : UInt32 := 3
def AMBA_VIRT_IAV_MAX_WINDOWS : UInt32 := 4

def AMBA_VIRT_IAV_ENT_ID_ARENA : UInt32 := 0x100
def AMBA_VIRT_IAV_ENT_ID_APERTURE : UInt32 := 0x200
def AMBA_VIRT_IAV_ENT_ID_AUX : UInt32 := 0x300

def AMBA_VIRT_IAV_ENT_PRIMARY_ONLY : UInt32 := 0x1
def AMBA_VIRT_IAV_ENT_NORMAL_NC : UInt32 := 0x2
def AMBA_VIRT_IAV_ENT_RING : UInt32 := 0x4
def AMBA_VIRT_IAV_ENT_ARENA : UInt32 := 0x8
def AMBA_VIRT_IAV_ENT_APERTURE : UInt32 := 0x10

-- ==== the windows

/-- `struct iav_broker_window`. -/
structure Window where
  id : UInt32
  base : UInt64
  partLen : UInt64
  size : UInt64
  pid : UInt32
  deriving DecidableEq

/-- What `iav_broker_set_windows` asks of one window. -/
def Window.Ok (w : Window) : Prop :=
  ¬ (w.id ≥ AMBA_VIRT_IAV_MAX_WINDOWS ∨ ¬ IsPow2U64 w.size ∨
    w.size % PAGE_BYTES ≠ 0 ∨ w.base % PAGE_BYTES ≠ 0 ∨ w.partLen = 0 ∨
    w.partLen > w.size ∨ w.base + w.size < w.base)
  deriving Decidable

def Window.Apart (w v : Window) : Prop :=
  ¬ (w.id = v.id ∨ (v.base < w.base + w.size ∧ w.base < v.base + v.size))

/-- The broker's windows, as `iav_broker_set_windows` accepts them. -/
structure WindowTable where
  list : List Window
  length_le : list.length ≤ AMBA_VIRT_IAV_MAX_WINDOWS.toNat
  ok : ∀ w ∈ list, w.Ok
  apart : list.Pairwise Window.Apart

-- ==== the aperture

/-- `struct iav_broker_aux_entry`. -/
structure AuxEntry where
  pid : UInt32
  base : UInt64
  len : UInt64
  offset : UInt64
  deriving DecidableEq

/-- `struct iav_broker_aperture`, as the server reports it. -/
structure Aperture where
  size : UInt64
  epoch : UInt64
  count : UInt32
  e : Fin 16 → AuxEntry

/-- `AMBA_VIRT_IAV_AUX_ALIGN`. -/
def AUX_ALIGN_BYTES : UInt64 := 0x10000

namespace Aperture

/-- What `aperture_of` asks of one entry. -/
def EntryOk (ap : Aperture) (e : AuxEntry) : Prop :=
  ¬ (e.pid > 0xff ∨ e.len = 0 ∨ e.len % PAGE_BYTES ≠ 0 ∨
    e.base % PAGE_BYTES ≠ 0 ∨ e.offset % AUX_ALIGN_BYTES ≠ 0 ∨
    e.offset > ap.size - PAGE_BYTES ∨
    e.len > ap.size - PAGE_BYTES - e.offset ∨ e.base + e.len < e.base)
  deriving Decidable

def EntriesApart (d e : AuxEntry) : Prop :=
  ¬ (d.pid = e.pid ∨ (e.offset < d.offset + d.len ∧ d.offset < e.offset + e.len))
  deriving Decidable

/-- The test of `aperture_of`. -/
def Valid (ap : Aperture) : Prop :=
  ¬ (ap.count = 0 ∨ ap.count > 16 ∨ ¬ IsPow2U64 ap.size ∨
    ap.size < 2 * PAGE_BYTES ∨ ap.epoch = 0 ∨ ap.epoch > 0xffffffff) ∧
  ∀ i : Fin 16, i.val < ap.count.toNat → ap.EntryOk (ap.e i) ∧
    ∀ j : Fin 16, j < i → EntriesApart (ap.e j) (ap.e i)
  deriving Decidable

def entries (ap : Aperture) : List AuxEntry :=
  (List.ofFn ap.e).take ap.count.toNat

/-- The offset of the next entry after `k`, or of the header page. -/
def next (ap : Aperture) (k : AuxEntry) : UInt64 :=
  ap.entries.foldl (fun next j =>
    if j.offset > k.offset ∧ j.offset < next then j.offset else next)
    (ap.size - PAGE_BYTES)

end Aperture

/-- `aperture_of`: a report that fails the test is no aperture. -/
def apertureOf (report : Option Aperture) : Option Aperture :=
  report.filter fun ap => decide ap.Valid

-- ==== the view

/-- What OP_INFO and OP_MAP look up, besides what `do_ioctl` does. -/
structure InfoView extends IoctlView where
  maxWindowId : UInt32
  windowTable : WindowTable
  apertureReport : Option Aperture
  windows_eq : windows = windowTable.list.map fun w => (w.id, w.partLen)
  aperture_eq : aperture = (apertureOf apertureReport).elim []
    fun ap => ap.entries.map fun e => (e.pid, e.len)

/-- `window_primary_only`. -/
def windowPrimaryOnly (id : UInt32) : Bool :=
  id == AMBA_VIRT_IAV_WIN_DEC || id == AMBA_VIRT_IAV_WIN_OVL

/-- `struct amba_virt_iav_window`. -/
structure InfoWindow where
  id : UInt32
  flags : UInt32 := 0
  base : UInt64
  size : UInt64
  partLen : UInt64
  deriving DecidableEq

/-- `struct amba_virt_iav_entry`. -/
structure InfoEntry where
  id : UInt32
  flags : UInt32
  base : UInt64 := 0
  size : UInt64
  partLen : UInt64 := 0
  offset : UInt64 := 0
  pid : UInt32 := 0
  reserved : UInt32 := 0
  deriving DecidableEq

/-- `sizeof(struct amba_virt_iav_window)`. -/
def infoWindowSize : Nat := 32

/-- `sizeof(struct amba_virt_iav_entry)`. -/
def infoEntrySize : Nat := 48

/-- The output of OP_INFO, in the legacy or in the extended form. -/
inductive InfoOut
  | legacy (l : List InfoWindow)
  | ext (l : List InfoEntry)

namespace InfoView

variable (v : InfoView)

def ext : Bool :=
  v.helloDone && v.features &&& AMBA_VIRT_IAV_F_EXT_INFO != 0

def Skipped (w : Window) : Prop :=
  windowPrimaryOnly w.id = true ∧ v.profile = .consumer
  deriving Decidable

def ncFlag : UInt32 :=
  if v.features &&& AMBA_VIRT_IAV_F_NC_WINDOWS ≠ 0 then
    AMBA_VIRT_IAV_ENT_NORMAL_NC else 0

def legacyWindows : List InfoWindow :=
  gather (fun n => ¬ n ≥ AMBA_VIRT_IAV_MAX_WINDOWS.toNat)
    (fun w => if v.Skipped w ∨ w.id ≥ AMBA_VIRT_IAV_MAX_WINDOWS then none
      else some { id := w.id, base := w.base, size := w.size, partLen := w.partLen })
    v.windowTable.list

def windowEntry (w : Window) : InfoEntry where
  id := w.id
  flags := AMBA_VIRT_IAV_ENT_RING |||
    (if windowPrimaryOnly w.id then AMBA_VIRT_IAV_ENT_PRIMARY_ONLY else 0) |||
    v.ncFlag
  base := w.base
  size := w.size
  partLen := w.partLen
  pid := w.pid

def extWindows : List InfoEntry :=
  gather (fun n => ¬ n * infoEntrySize + infoEntrySize > AMBA_VIRT_IAV_MAX_OUT)
    (fun w => if v.Skipped w ∨ w.id > v.maxWindowId then none
      else some (v.windowEntry w))
    v.windowTable.list

def ownAperture : Option Aperture :=
  if v.features &&& AMBA_VIRT_IAV_F_APERTURE ≠ 0 ∧ v.profile ≠ .consumer then
    apertureOf v.apertureReport
  else none

def apertureEntry (ap : Aperture) : InfoEntry where
  id := AMBA_VIRT_IAV_ENT_ID_APERTURE
  flags := AMBA_VIRT_IAV_ENT_APERTURE ||| AMBA_VIRT_IAV_ENT_PRIMARY_ONLY
  size := ap.size
  offset := ap.size - PAGE_BYTES
  reserved := ap.epoch.toUInt32

def auxEntry (ap : Aperture) (e : AuxEntry) : InfoEntry where
  id := AMBA_VIRT_IAV_ENT_ID_AUX + e.pid
  flags := AMBA_VIRT_IAV_ENT_APERTURE ||| AMBA_VIRT_IAV_ENT_PRIMARY_ONLY |||
    AMBA_VIRT_IAV_ENT_RING ||| v.ncFlag
  base := e.base
  size := ap.next e - e.offset
  partLen := e.len
  offset := e.offset
  pid := e.pid

/-- The aperture's entries, after `n` others. -/
def apertureEntries (n : Nat) : List InfoEntry :=
  match v.ownAperture with
  | none => []
  | some ap =>
    if n * infoEntrySize + (ap.count.toNat + 1) * infoEntrySize ≤ AMBA_VIRT_IAV_MAX_OUT then
      apertureEntry ap :: ap.entries.map (v.auxEntry ap)
    else []

/-- The entry of the caller's slice `index`. -/
def arenaEntry (p : GuestPool) (index : UInt32) : InfoEntry where
  id := AMBA_VIRT_IAV_ENT_ID_ARENA
  flags := AMBA_VIRT_IAV_ENT_ARENA ||| AMBA_VIRT_IAV_ENT_PRIMARY_ONLY
  base := v.parentBase + index.toUInt64 * p.sliceBytes
  size := p.sliceBytes
  partLen := p.sliceBytes - PAGE_BYTES
  pid := p.partitionId
  reserved := index

/-- The arena, after `n` others. -/
def arenaEntries (n : Nat) : List InfoEntry :=
  if v.features &&& AMBA_VIRT_IAV_F_ARENA ≠ 0 ∧ v.profile ≠ .consumer then
    match v.arenaSlice with
    | some s =>
      if n * infoEntrySize + infoEntrySize ≤ AMBA_VIRT_IAV_MAX_OUT then
        [v.arenaEntry s.1 s.2]
      else []
    | none => []
  else []

def extEntries : List InfoEntry :=
  let l := v.extWindows
  let l := l ++ v.apertureEntries l.length
  l ++ v.arenaEntries l.length

def info : InfoOut := if v.ext then .ext v.extEntries else .legacy v.legacyWindows

/-- `op_info`. -/
def opInfo (q : IavReq) : Except Errno InfoOut := do
  refuseIf (q.argLen ≠ 0) .EMSGSIZE
  return v.info

/-- `struct amba_virt_iav_map`. -/
structure MapOut where
  window : UInt32
  prot : UInt32
  windowOffset : UInt64
  length : UInt64
  deriving DecidableEq

def PROT_READ : UInt32 := 1
def PROT_WRITE : UInt32 := 2

/-- A mapping of window `w`. -/
def mapWindow (q : IavReq) (w : Window) : Except Errno MapOut := do
  refuseIf (v.Skipped w) .EPERM
  refuseIf (q.arg2 > 2 * w.partLen) .EINVAL
  return ⟨w.id, q.cmd, 0, q.arg2⟩

/-- A mapping of an entry of the caller's aperture. -/
def mapAux (q : IavReq) : Except Errno MapOut := do
  refuseIf (v.helloDone = false ∨
    v.features &&& AMBA_VIRT_IAV_F_APERTURE = 0 ∨ v.profile = .consumer) .EFAULT
  let ap ← require (apertureOf v.apertureReport) .EFAULT
  let e ← require (ap.entries.find? (·.base == q.argValue)) .EFAULT
  refuseIf (q.arg2 > 2 * e.len) .EINVAL
  return ⟨AMBA_VIRT_IAV_ENT_ID_AUX + e.pid, q.cmd, e.offset, q.arg2⟩

open Errno in
/-- `op_map`. -/
def opMap (q : IavReq) : Except Errno MapOut := do
  refuseIf (q.argLen ≠ 0) .EMSGSIZE
  v.session
  refuseIf (q.arg2 = 0 ∨ q.argValue % PAGE_BYTES ≠ 0 ∨ q.arg2 % PAGE_BYTES ≠ 0) .EINVAL
  refuseIf (q.cmd &&& ~~~(PROT_READ ||| PROT_WRITE) ≠ 0) .EPERM
  refuseIf (q.cmd &&& PROT_READ = 0) .EPERM
  refuseIf (v.stale = true) EIO
  match v.windowTable.list.find? (·.base == q.argValue) with
  | some w => v.mapWindow q w
  | none => v.mapAux q

end InfoView

-- ==== tables that were checked

section Tables

variable {v w : Window}

theorem Window.Ok.page (h : w.Ok) : w.base % PAGE_BYTES = 0 := by
  simp only [Window.Ok, not_or, not_not] at h
  exact h.2.2.2.1

theorem Window.Ok.id_lt (h : w.Ok) : w.id < AMBA_VIRT_IAV_MAX_WINDOWS := by
  simp only [Window.Ok, not_or, not_not] at h
  exact UInt32.not_le.mp h.1

theorem Window.Ok.base_lt (h : w.Ok) : w.base < w.base + w.size := by
  simp only [Window.Ok, not_or, not_not] at h
  obtain ⟨-, hpow, -, -, -, -, hwrap⟩ := h
  have hne : w.size.toNat ≠ 0 := fun h0 => hpow.1 (UInt64.toNat_inj.mp h0)
  have hs := w.size.toNat_lt
  rw [UInt64.lt_iff_toNat_lt, UInt64.toNat_add] at hwrap ⊢
  omega

theorem Window.Apart.symm (h : w.Apart v) : v.Apart w := by
  unfold Window.Apart at h ⊢
  rw [eq_comm, and_comm] at h
  exact h

instance : Std.Symm Window.Apart := ⟨fun _ _ => Window.Apart.symm⟩

theorem WindowTable.eq_of_base (t : WindowTable) (hw : w ∈ t.list)
    (hv : v ∈ t.list) (h : w.base = v.base) : w = v := by
  by_contra hne
  have hap := t.apart.forall hw hv hne
  refine hap (.inr ⟨?_, ?_⟩)
  · rw [← h]
    exact (t.ok w hw).base_lt
  · rw [h]
    exact (t.ok v hv).base_lt

variable {ap : Aperture}

theorem apertureOf_valid {report : Option Aperture}
    (h : apertureOf report = some ap) : ap.Valid := by
  simp only [apertureOf, Option.filter_eq_some_iff, decide_eq_true_eq] at h
  exact h.2

variable {e : AuxEntry}

theorem Aperture.mem_entries (h : e ∈ ap.entries) :
    ∃ i : Fin 16, i.val < ap.count.toNat ∧ ap.e i = e := by
  obtain ⟨i, hi, rfl⟩ := List.mem_take_iff_getElem.mp h
  have hlt := hi
  rw [List.length_ofFn] at hlt
  refine ⟨⟨i, by omega⟩, by dsimp only; omega, ?_⟩
  rw [List.getElem_ofFn]

theorem Aperture.Valid.entry (h : ap.Valid) (he : e ∈ ap.entries) : ap.EntryOk e := by
  obtain ⟨i, hi, rfl⟩ := Aperture.mem_entries he
  exact (h.2 i hi).1

theorem Aperture.Valid.len_lt (h : ap.Valid) (he : e ∈ ap.entries) : e.len.toNat < 2 ^ 63 := by
  have hhead := h.1
  have hentry := h.entry he
  simp only [not_or, not_not] at hhead
  simp only [Aperture.EntryOk, not_or, not_not] at hentry
  obtain ⟨-, -, hpow, hsize, -, -⟩ := hhead
  obtain ⟨-, -, -, -, -, hoff, hlen, -⟩ := hentry
  have hpage : (2 * PAGE_BYTES : UInt64).toNat = 8192 := rfl
  have hpage' : PAGE_BYTES.toNat = 4096 := rfl
  have hmax := hpow.toNat_le
  have hsize := UInt64.le_iff_toNat_le.mp (UInt64.not_lt.mp hsize)
  have hle : PAGE_BYTES ≤ ap.size := by
    rw [UInt64.le_iff_toNat_le]
    omega
  have hoff := UInt64.not_lt.mp hoff
  have hlen := UInt64.le_iff_toNat_le.mp (UInt64.not_lt.mp hlen)
  rw [UInt64.toNat_sub_of_le _ _ hoff, UInt64.toNat_sub_of_le _ _ hle] at hlen
  omega

theorem Aperture.Valid.count_le (h : ap.Valid) : ap.count.toNat ≤ 16 := by
  have hc := h.1
  simp only [not_or] at hc
  exact UInt32.le_iff_toNat_le.mp (UInt32.not_lt.mp hc.2.1)

end Tables

-- ==== what is listed

/-- What OP_INFO says of an entry, as far as a mapping is concerned. -/
structure Listed where
  id : UInt32
  base : UInt64
  partLen : UInt64

def InfoOut.listed : InfoOut → List Listed
  | .legacy l => l.map fun w => ⟨w.id, w.base, w.partLen⟩
  | .ext l => (l.filter (·.id != AMBA_VIRT_IAV_ENT_ID_ARENA)).map fun e => ⟨e.id, e.base, e.partLen⟩

/-- How OP_INFO is described once, for both forms: the windows the caller
may see, the descriptor of its aperture and the entries in it. -/
inductive InfoView.Lists (v : InfoView) : Listed → Prop
  | window {w : Window} (h : w ∈ v.windowTable.list) (hs : ¬ v.Skipped w) :
      v.Lists ⟨w.id, w.base, w.partLen⟩
  | descriptor {ap : Aperture} (hext : v.ext = true) (h : v.ownAperture = some ap) :
      v.Lists ⟨AMBA_VIRT_IAV_ENT_ID_APERTURE, 0, 0⟩
  | aux {ap : Aperture} {e : AuxEntry} (hext : v.ext = true)
      (h : v.ownAperture = some ap) (he : e ∈ ap.entries) :
      v.Lists ⟨AMBA_VIRT_IAV_ENT_ID_AUX + e.pid, e.base, e.len⟩

namespace InfoView

variable {v : InfoView}

theorem mem_legacyWindows {x : InfoWindow} : x ∈ v.legacyWindows ↔
    ∃ w ∈ v.windowTable.list, ¬ v.Skipped w ∧
      x = { id := w.id, base := w.base, size := w.size, partLen := w.partLen } := by
  have hlen := v.windowTable.length_le
  rw [legacyWindows, gather_eq fun n hn => by omega, List.mem_filterMap]
  constructor
  · intro h
    obtain ⟨w, hw, hx⟩ := h
    split at hx
    · cases hx
    · rename_i hs
      exact ⟨w, hw, fun h => hs (.inl h), (Option.some.inj hx).symm⟩
  · intro h
    obtain ⟨w, hw, hs, rfl⟩ := h
    have hid := UInt32.not_le.mpr (v.windowTable.ok w hw).id_lt
    exact ⟨w, hw, if_neg (not_or.mpr ⟨hs, hid⟩)⟩

theorem extWindows_eq : v.extWindows = v.windowTable.list.filterMap fun w =>
    if v.Skipped w ∨ w.id > v.maxWindowId then none
    else some (v.windowEntry w) := by
  have hlen := v.windowTable.length_le
  have h4 : AMBA_VIRT_IAV_MAX_WINDOWS.toNat = 4 := rfl
  apply gather_eq
  intro n hn
  unfold infoEntrySize AMBA_VIRT_IAV_MAX_OUT
  omega

variable {x : InfoEntry}

theorem mem_extWindows (hmax : v.maxWindowId = AMBA_VIRT_IAV_MAX_WINDOWS - 1) : x ∈ v.extWindows ↔
      ∃ w ∈ v.windowTable.list, ¬ v.Skipped w ∧ x = v.windowEntry w := by
  rw [extWindows_eq, List.mem_filterMap]
  constructor
  · intro h
    obtain ⟨w, hw, hx⟩ := h
    split at hx
    · cases hx
    · rename_i hs
      exact ⟨w, hw, fun h => hs (.inl h), (Option.some.inj hx).symm⟩
  · intro h
    obtain ⟨w, hw, hs, rfl⟩ := h
    have hid : ¬ w.id > v.maxWindowId := by
      have hlt := UInt32.lt_iff_toNat_lt.mp (v.windowTable.ok w hw).id_lt
      have h4 : AMBA_VIRT_IAV_MAX_WINDOWS.toNat = 4 := rfl
      have h3 : (AMBA_VIRT_IAV_MAX_WINDOWS - 1).toNat = 3 := rfl
      rw [hmax, gt_iff_lt, UInt32.lt_iff_toNat_lt]
      omega
    exact ⟨w, hw, if_neg (not_or.mpr ⟨hs, hid⟩)⟩

theorem extWindows_length : v.extWindows.length ≤ 4 := by
  rw [extWindows_eq]
  exact (List.length_filterMap_le _ _).trans v.windowTable.length_le

variable {ap : Aperture} {e : AuxEntry} {w : Window}

theorem ownAperture_valid (h : v.ownAperture = some ap) : ap.Valid := by
  unfold ownAperture at h
  split at h
  · exact apertureOf_valid h
  · cases h

theorem mem_apertureEntries :
    x ∈ v.apertureEntries v.extWindows.length ↔ ∃ ap, v.ownAperture = some ap ∧
      (x = apertureEntry ap ∨ ∃ e ∈ ap.entries, x = v.auxEntry ap e) := by
  unfold apertureEntries
  cases hap : v.ownAperture with
  | none => simp
  | some ap =>
    have hlen := extWindows_length (v := v)
    have hcount := (ownAperture_valid hap).count_le
    have hroom : v.extWindows.length * infoEntrySize +
        (ap.count.toNat + 1) * infoEntrySize ≤ AMBA_VIRT_IAV_MAX_OUT := by
      unfold infoEntrySize AMBA_VIRT_IAV_MAX_OUT
      omega
    dsimp only
    rw [if_pos hroom]
    simp only [List.mem_cons, List.mem_map, Option.some.injEq,
      exists_eq_left', eq_comm (b := x)]

theorem mem_arenaEntries {n : Nat} (h : x ∈ v.arenaEntries n) :
    x.id = AMBA_VIRT_IAV_ENT_ID_ARENA ∧ v.profile ≠ .consumer := by
  unfold arenaEntries at h
  split at h
  · rename_i hp
    split at h
    · split at h
      · rw [List.mem_singleton.mp h]
        exact ⟨rfl, hp.2⟩
      · cases h
    · cases h
  · cases h

/-- A guest that never said HELLO, or one that takes every entry. -/
def SeesAll (v : InfoView) : Prop :=
  v.helloDone = false ∨ (v.ext = true ∧ v.maxWindowId = AMBA_VIRT_IAV_MAX_WINDOWS - 1)

theorem aux_id_ne (hap : ap.Valid) (he : e ∈ ap.entries) :
    AMBA_VIRT_IAV_ENT_ID_AUX + e.pid ≠ AMBA_VIRT_IAV_ENT_ID_ARENA := by
  intro heq
  have hentry := hap.entry he
  simp only [Aperture.EntryOk, not_or] at hentry
  have hpid := UInt32.le_iff_toNat_le.mp (UInt32.not_lt.mp hentry.1)
  have hnat := congrArg UInt32.toNat heq
  rw [UInt32.toNat_add] at hnat
  have h3 : AMBA_VIRT_IAV_ENT_ID_AUX.toNat = 0x300 := rfl
  have h1 : AMBA_VIRT_IAV_ENT_ID_ARENA.toNat = 0x100 := rfl
  have hff : (0xff : UInt32).toNat = 0xff := rfl
  omega

theorem window_id_ne (hw : w.Ok) : w.id ≠ AMBA_VIRT_IAV_ENT_ID_ARENA := by
  intro heq
  have hid := hw.id_lt
  rw [heq] at hid
  exact absurd hid (by decide)

theorem mem_listed (hall : v.SeesAll) {x : Listed} : x ∈ v.info.listed ↔ v.Lists x := by
  unfold info
  by_cases hext : v.ext = true
  · have hmax : v.maxWindowId = AMBA_VIRT_IAV_MAX_WINDOWS - 1 := by
      rcases hall with hno | hyes
      · unfold ext at hext
        rw [hno] at hext
        cases hext
      · exact hyes.2
    rw [if_pos hext]
    simp only [InfoOut.listed, List.mem_map, List.mem_filter, extEntries,
      List.mem_append, mem_extWindows hmax, mem_apertureEntries, bne_iff_ne]
    constructor
    · intro h
      obtain ⟨y, ⟨hy, hid⟩, rfl⟩ := h
      rcases hy with (⟨w, hw, hs, rfl⟩ | ⟨ap, hap, rfl | ⟨e, he, rfl⟩⟩) | hy
      · exact .window hw hs
      · exact .descriptor hext hap
      · exact .aux hext hap he
      · exact absurd (mem_arenaEntries hy).1 hid
    · intro h
      cases h with
      | @window w hw hs =>
        exact ⟨v.windowEntry w, ⟨.inl (.inl ⟨w, hw, hs, rfl⟩),
          window_id_ne (v.windowTable.ok w hw)⟩, rfl⟩
      | @descriptor ap _ hap =>
        have hid : AMBA_VIRT_IAV_ENT_ID_APERTURE ≠ AMBA_VIRT_IAV_ENT_ID_ARENA := by decide
        exact ⟨apertureEntry ap, ⟨.inl (.inr ⟨ap, hap, .inl rfl⟩), hid⟩, rfl⟩
      | @aux ap e _ hap he =>
        exact ⟨v.auxEntry ap e, ⟨.inl (.inr ⟨ap, hap, .inr ⟨e, he, rfl⟩⟩),
          aux_id_ne (ownAperture_valid hap) he⟩, rfl⟩
  · rw [if_neg hext]
    simp only [InfoOut.listed, List.mem_map, mem_legacyWindows]
    constructor
    · intro h
      obtain ⟨y, ⟨w, hw, hs, rfl⟩, rfl⟩ := h
      exact .window hw hs
    intro h
    cases h with
    | @window w hw hs => exact ⟨_, ⟨w, hw, hs, rfl⟩, rfl⟩
    | descriptor h => exact absurd h hext
    | aux h => exact absurd h hext

-- ==== what is mapped

/-- A request to map `len` bytes at `base`, to be read or also written. -/
structure MapReq (q : IavReq) (base len : UInt64) : Prop where
  argLen : q.argLen = 0
  base : q.argValue = base
  len : q.arg2 = len
  prot : q.cmd = PROT_READ ∨ q.cmd = PROT_READ ||| PROT_WRITE

section Map

variable {q : IavReq} {base len : UInt64} (hq : MapReq q base len)
  (hlen : len ≠ 0) (hpage : len % PAGE_BYTES = 0)
  (hsession : v.session = .ok ()) (hstale : v.stale = false) {out : MapOut}
include hq hlen hpage hsession hstale

/-- Past the tests of the request, the window or the aperture decides. -/
theorem opMap_ok : v.opMap q = .ok out ↔ base % PAGE_BYTES = 0 ∧
      (match v.windowTable.list.find? (·.base == base) with
        | some w => v.mapWindow q w
        | none => v.mapAux q) = .ok out := by
  have hprot : ¬ q.cmd &&& ~~~(PROT_READ ||| PROT_WRITE) ≠ 0 ∧ ¬ q.cmd &&& PROT_READ = 0 := by
    rcases hq.prot with hp | hp
    · rw [hp]
      decide
    · rw [hp]
      decide
  unfold opMap
  simp only [guards]
  rw [hq.argLen, hq.base, hq.len, hsession, hstale]
  constructor
  · intro h
    obtain ⟨-, -, hpages, -, -, -, h⟩ := h
    simp only [not_or, not_not] at hpages
    exact ⟨hpages.2.1, h⟩
  · intro h
    refine ⟨by simp, rfl, ?_, hprot.1, hprot.2, by simp, h.2⟩
    simp only [not_or, not_not]
    exact ⟨hlen, h.1, hpage⟩

end Map

theorem not_gt_double {len part : UInt64} (h : part.toNat < 2 ^ 63) :
    ¬ len > 2 * part ↔ len.toNat ≤ 2 * part.toNat := by
  have h2 : (2 : UInt64).toNat = 2 := rfl
  rw [gt_iff_lt, UInt64.lt_iff_toNat_lt, UInt64.toNat_mul, h2]
  omega

variable {q : IavReq}

theorem mapWindow_ok (hw : w.partLen.toNat < 2 ^ 63) : (∃ out, v.mapWindow q w = .ok out) ↔
      ¬ v.Skipped w ∧ q.arg2.toNat ≤ 2 * w.partLen.toNat := by
  simp only [mapWindow, guards, pure_ok, not_gt_double hw]
  constructor
  · intro h
    obtain ⟨out, hs, hlen, -⟩ := h
    exact ⟨hs, hlen⟩
  · intro h
    exact ⟨_, h.1, h.2, rfl⟩

theorem mapAux_ok (hdone : v.helloDone = true)
    (hap : v.ownAperture = some ap)
    (hfind : ap.entries.find? (·.base == q.argValue) = some e) :
    (∃ out, v.mapAux q = .ok out) ↔ q.arg2.toNat ≤ 2 * e.len.toNat := by
  have hlen := (ownAperture_valid hap).len_lt (List.mem_of_find?_eq_some hfind)
  unfold ownAperture at hap
  split at hap
  · rename_i hp
    simp only [mapAux, guards, pure_ok]
    constructor
    · intro h
      obtain ⟨out, -, ap', hap', e', he', hle, -⟩ := h
      rw [hap] at hap'
      obtain rfl := Option.some.inj hap'
      rw [hfind] at he'
      obtain rfl := Option.some.inj he'
      exact (not_gt_double hlen).mp hle
    · intro h
      exact ⟨_, by simp [hdone, hp], ap, hap, e, hfind, (not_gt_double hlen).mpr h, rfl⟩
  · cases hap

end InfoView

-- ==== agreement

/-- The entries of the caller's aperture have addresses of their own, and
none is a window's. -/
structure InfoView.OwnBases (v : InfoView) : Prop where
  windows : ∀ ap, apertureOf v.apertureReport = some ap → ∀ e ∈ ap.entries,
    ∀ w ∈ v.windowTable.list, e.base ≠ w.base
  entries : ∀ ap, apertureOf v.apertureReport = some ap → ∀ d ∈ ap.entries,
    ∀ e ∈ ap.entries, d.base = e.base → d = e

namespace InfoView

variable {v : InfoView} {ap : Aperture}

theorem find?_entry (hown : v.OwnBases)
    (hap : apertureOf v.apertureReport = some ap)
    (he : e ∈ ap.entries) :
    ap.entries.find? (·.base == e.base) = some e := by
  cases hfind : ap.entries.find? (·.base == e.base) with
  | none =>
    have hno := List.find?_eq_none.mp hfind e he
    simp at hno
  | some d =>
    have hbase := List.find?_some hfind
    rw [beq_iff_eq] at hbase
    rw [hown.entries ap hap d (List.mem_of_find?_eq_some hfind) e he hbase]

theorem find?_window (hw : w ∈ v.windowTable.list) :
    v.windowTable.list.find? (·.base == w.base) = some w := by
  cases hfind : v.windowTable.list.find? (·.base == w.base) with
  | none =>
    have hno := List.find?_eq_none.mp hfind w hw
    simp at hno
  | some x =>
    have hbase := List.find?_some hfind
    rw [beq_iff_eq] at hbase
    rw [v.windowTable.eq_of_base (List.mem_of_find?_eq_some hfind) hw hbase]

theorem ownAperture_eq (h : v.ownAperture = some ap) :
    apertureOf v.apertureReport = some ap := by
  unfold ownAperture at h
  split at h
  · exact h
  · cases h

theorem ext_helloDone (h : v.ext = true) : v.helloDone = true := by
  unfold ext at h
  rw [Bool.and_eq_true] at h
  exact h.1

section Agree

variable {q : IavReq} {base len : UInt64} (hq : MapReq q base len)
  (hlen : len ≠ 0) (hpage : len % PAGE_BYTES = 0)
  (hsession : v.session = .ok ()) (hstale : v.stale = false)
  (hwin : ∀ w ∈ v.windowTable.list, w.partLen.toNat < 2 ^ 63)
include hq hlen hpage hsession hstale hwin

theorem lists_of_map (hall : v.SeesAll) (h : v.opMap q = .ok out) :
    ∃ x, v.Lists x ∧ x.base = base ∧ len.toNat ≤ 2 * x.partLen.toNat := by
  obtain ⟨-, h⟩ := (opMap_ok hq hlen hpage hsession hstale).mp h
  cases hfind : v.windowTable.list.find? (·.base == base) with
  | some w =>
    rw [hfind] at h
    have hw := List.mem_of_find?_eq_some hfind
    have hbase := List.find?_some hfind
    rw [beq_iff_eq] at hbase
    obtain ⟨hs, hle⟩ := (mapWindow_ok (hwin w hw)).mp ⟨out, h⟩
    rw [hq.len] at hle
    exact ⟨_, .window hw hs, hbase, hle⟩
  | none =>
    rw [hfind] at h
    simp only [mapAux, guards, pure_ok, not_or, Bool.not_eq_false] at h
    obtain ⟨⟨hdone, hfeat, hprof⟩, ap, hap, e, he, hle, -⟩ := h
    have hext : v.ext = true := by
      rcases hall with hno | hyes
      · rw [hno] at hdone
        cases hdone
      · exact hyes.1
    have hmem := List.mem_of_find?_eq_some he
    have hbase := List.find?_some he
    rw [beq_iff_eq, hq.base] at hbase
    rw [not_gt_double ((apertureOf_valid hap).len_lt hmem), hq.len] at hle
    exact ⟨_, .aux hext ((if_pos ⟨hfeat, hprof⟩).trans hap) hmem, hbase, hle⟩

theorem map_of_lists (hown : v.OwnBases) (hx : v.Lists x)
    (hbase : x.base = base) (hle : len.toNat ≤ 2 * x.partLen.toNat) :
    ∃ out, v.opMap q = .ok out := by
  simp only [opMap_ok hq hlen hpage hsession hstale]
  subst hbase
  cases hx with
  | @window w hw hs =>
    rw [find?_window hw]
    obtain ⟨out, hout⟩ : ∃ out, v.mapWindow q w = .ok out := by
      rw [mapWindow_ok (hwin w hw), hq.len]
      exact ⟨hs, hle⟩
    exact ⟨out, (v.windowTable.ok w hw).page, hout⟩
  | descriptor =>
    -- the descriptor has no length, so nothing is asked of it
    have hzero : len.toNat = 0 := Nat.le_zero.mp hle
    exact absurd (UInt64.toNat_inj.mp hzero) hlen
  | @aux ap e hext hap he =>
    dsimp only at hle ⊢
    have happ := ownAperture_eq hap
    have hno : v.windowTable.list.find? (·.base == e.base) = none := by
      rw [List.find?_eq_none]
      intro w hw heq
      rw [beq_iff_eq] at heq
      exact hown.windows ap happ e he w hw heq.symm
    have hentry := (apertureOf_valid happ).entry he
    simp only [Aperture.EntryOk, not_or, not_not] at hentry
    rw [hno]
    have hfind := find?_entry hown happ he
    rw [← show q.argValue = e.base from hq.base] at hfind
    obtain ⟨out, hout⟩ : ∃ out, v.mapAux q = .ok out := by
      rw [mapAux_ok (ext_helloDone hext) hap hfind, hq.len]
      exact hle
    exact ⟨out, hentry.2.2.2.1, hout⟩

end Agree

-- ---- consumers

/-- To a consumer only the first two windows exist. -/
theorem Lists.consumer (h : v.Lists x)
    (hc : v.profile = .consumer) : x.id < AMBA_VIRT_IAV_WIN_DEC := by
  have hnone : v.ownAperture = none := if_neg fun hp => hp.2 hc
  cases h with
  | @window w hw hs =>
    have hid := (v.windowTable.ok w hw).id_lt
    have hprim : windowPrimaryOnly w.id = false := by
      rw [← Bool.not_eq_true]
      exact fun hp => hs ⟨hp, hc⟩
    simp only [windowPrimaryOnly, Bool.or_eq_false_iff, beq_eq_false_iff_ne]
      at hprim
    have h2 : AMBA_VIRT_IAV_WIN_DEC.toNat = 2 := rfl
    have h4 : AMBA_VIRT_IAV_MAX_WINDOWS.toNat = 4 := rfl
    have hd : w.id.toNat ≠ 2 := fun he => hprim.1 (UInt32.toNat_inj.mp he)
    have ho : w.id.toNat ≠ 3 := fun he => hprim.2 (UInt32.toNat_inj.mp he)
    show w.id < AMBA_VIRT_IAV_WIN_DEC
    rw [UInt32.lt_iff_toNat_lt] at hid ⊢
    omega
  | descriptor _ hap =>
    rw [hnone] at hap
    cases hap
  | aux _ hap =>
    rw [hnone] at hap
    cases hap

theorem opMap_consumer (hc : v.profile = .consumer) (h : v.opMap q = .ok out) :
    out.window < AMBA_VIRT_IAV_WIN_DEC := by
  simp only [opMap, guards] at h
  obtain ⟨-, -, -, -, -, -, h⟩ := h
  split at h
  · rename_i w hfind
    simp only [mapWindow, guards, pure_ok] at h
    obtain ⟨hs, -, rfl⟩ := h
    exact (Lists.window (List.mem_of_find?_eq_some hfind) hs).consumer hc
  · simp only [mapAux, guards, not_or] at h
    exact absurd hc h.1.2.2

end InfoView

/-- OP_INFO and OP_MAP agree, for a live handle while the windows are not
stale; and to a consumer neither names the decode window, the overlay
window or an entry of an aperture. -/
theorem info_map_agree {v : InfoView} (hsession : v.session = .ok ())
    (hstale : v.stale = false) (hall : v.SeesAll) (hown : v.OwnBases)
    (hwin : ∀ w ∈ v.windowTable.list, w.partLen.toNat < 2 ^ 63) :
    (∀ q base len, InfoView.MapReq q base len → len ≠ 0 → len % PAGE_BYTES = 0 →
      ((∃ out, v.opMap q = .ok out) ↔ ∃ x ∈ v.info.listed,
        x.base = base ∧ len.toNat ≤ 2 * x.partLen.toNat)) ∧
    (v.profile = .consumer → (∀ x ∈ v.info.listed, x.id < AMBA_VIRT_IAV_WIN_DEC) ∧
      ∀ q out, v.opMap q = .ok out → out.window < AMBA_VIRT_IAV_WIN_DEC) := by
  refine ⟨?_, ?_⟩
  · intro q base len hq hlen hpage
    constructor
    · intro h
      obtain ⟨out, h⟩ := h
      obtain ⟨x, hx, hbase, hle⟩ := InfoView.lists_of_map hq hlen hpage hsession hstale hwin hall h
      exact ⟨x, (InfoView.mem_listed hall).mpr hx, hbase, hle⟩
    · intro h
      obtain ⟨x, hx, hbase, hle⟩ := h
      exact InfoView.map_of_lists hq hlen hpage hsession hstale hwin hown
        ((InfoView.mem_listed hall).mp hx) hbase hle
  · intro hc
    refine ⟨?_, ?_⟩
    · intro x hx
      exact ((InfoView.mem_listed hall).mp hx).consumer hc
    · intro q out h
      exact InfoView.opMap_consumer hc h

def sampleAperture (d e : AuxEntry) : Aperture where
  size := 0x40000
  epoch := 7
  count := 2
  e := fun i => if i = 0 then d else e

/-- The lookups of a primary guest that takes the extended form, over one
window and an aperture of two entries. -/
def sampleMapView (w : Window) (ap : Aperture) : IoctlView where
  toBrokerView :=
    { sampleBrokerView with
      features := AMBA_VIRT_IAV_F_EXT_INFO ||| AMBA_VIRT_IAV_F_APERTURE
      windows := [(w.id, w.partLen)]
      aperture := (apertureOf (some ap)).elim []
        fun ap => ap.entries.map fun e => (e.pid, e.len) }
  table := fun _ => none
  blockMaxMs := 2000
  parentBase := 0
  parentBytes := 0
  addr := 0x7000
  addrFits := sampleAddr_fits

theorem sampleMapView_aperture (w : Window) (ap : Aperture) :
    (sampleMapView w ap).aperture = (apertureOf (some ap)).elim []
      fun ap => ap.entries.map fun e => (e.pid, e.len) := by
  simp only [sampleMapView]

def sampleInfoView (w : Window) (hw : w.Ok) (d e : AuxEntry) : InfoView where
  toIoctlView := sampleMapView w (sampleAperture d e)
  maxWindowId := 3
  windowTable := ⟨[w], by simp [AMBA_VIRT_IAV_MAX_WINDOWS], by simpa using hw, by simp⟩
  apertureReport := some (sampleAperture d e)
  windows_eq := rfl
  aperture_eq := sampleMapView_aperture w (sampleAperture d e)

def sampleMapReq (base len : UInt64) : IavReq where
  proto := 1
  op := 4
  handle := 1
  cmd := 1
  argLen := 0
  argValue := base
  arg2 := len

def sampleWindow (base size : UInt64) : Window := ⟨0, base, size, size, 1⟩

/-- The second entry, mapped twice in a row. -/
theorem info_map_agree_aux :
    let v := sampleInfoView (sampleWindow 0x100000 0x2000) (by decide)
      ⟨10, 0x200000, 0x1000, 0⟩ ⟨11, 0x300000, 0x3000, 0x10000⟩
    (∃ out, v.opMap (sampleMapReq 0x300000 0x6000) = .ok out) ∧
      ∃ x ∈ v.info.listed, x.base = 0x300000 ∧ (0x6000 : UInt64).toNat ≤ 2 * x.partLen.toNat := by
  intro v
  have hown : v.OwnBases := by
    refine ⟨?_, ?_⟩
    · intro ap hap
      obtain rfl := Option.some.inj (hap.symm.trans
        (show apertureOf v.apertureReport = v.apertureReport by rfl))
      decide
    · intro ap hap
      obtain rfl := Option.some.inj (hap.symm.trans
        (show apertureOf v.apertureReport = v.apertureReport by rfl))
      decide
  have hmap : ∃ out, v.opMap (sampleMapReq 0x300000 0x6000) = .ok out :=
    exists_ok_of_toBool (by decide)
  have hiff := (info_map_agree (v := v) rfl rfl (.inr ⟨by decide, rfl⟩) hown
    (by decide)).1 (sampleMapReq 0x300000 0x6000) 0x300000 0x6000
    ⟨rfl, rfl, rfl, .inl rfl⟩ (by decide) (by decide)
  exact ⟨hmap, hiff.mp hmap⟩

/-- A mapping that is listed and refused, for a live handle while the
windows are not stale. -/
structure InfoView.Disagrees (v : InfoView) (q : IavReq) : Prop where
  session : v.session = .ok ()
  stale : v.stale = false
  sees : v.SeesAll
  windows : ∀ e ∈ (apertureOf v.apertureReport).elim [] Aperture.entries,
    ∀ w ∈ v.windowTable.list, e.base ≠ w.base
  req : InfoView.MapReq q q.argValue q.arg2
  pos : q.arg2 ≠ 0
  page : q.arg2 % PAGE_BYTES = 0
  listed : ∃ x ∈ v.info.listed, x.base = q.argValue ∧ q.arg2.toNat ≤ 2 * x.partLen.toNat
  refused : v.opMap q = .error .EINVAL

/-- Two entries of one aperture with one address: OP_MAP only looks at the
first. And a window of 2^63 bytes: twice its length is zero. -/
theorem info_map_disagree : (sampleInfoView (sampleWindow 0x100000 0x2000) (by decide)
      ⟨10, 0x200000, 0x1000, 0⟩ ⟨11, 0x200000, 0x3000, 0x10000⟩).Disagrees
      (sampleMapReq 0x200000 0x6000) ∧
    (sampleInfoView (sampleWindow 0 0x8000000000000000) (by decide)
      ⟨10, 0x200000, 0x1000, 0⟩ ⟨11, 0x300000, 0x3000, 0x10000⟩).Disagrees
      (sampleMapReq 0 0x1000) := by
  refine ⟨⟨rfl, rfl, .inr ⟨by decide, rfl⟩, by decide,
    ⟨rfl, rfl, rfl, .inl rfl⟩, by decide, by decide, by decide, ?_⟩,
    ⟨rfl, rfl, .inr ⟨by decide, rfl⟩, by decide,
    ⟨rfl, rfl, rfl, .inl rfl⟩, by decide, by decide, by decide, ?_⟩⟩
  · exact eq_error_of_errorOf (by decide)
  · exact eq_error_of_errorOf (by decide)

end AmbaVirt.Iav
