/-
`iav_jpeg_admit_info` (tools/iav_policy.c): the recogniser of the headers
of AmbaVirt.Jpeg.Grammar, and that it recognises exactly those.

The outer loop takes one segment a round, the inner one a Huffman table
a round of a DHT segment. Both move on by at least the bytes they have
read, and are written by recursion on what is left.

A round of the outer loop accepts a segment that the locals still allow
(`State.push`), so a run of it is a list of segments pushed one after the
other (`loop_iff`). What the locals then say, and that no push was
refused, is a statement about the list (`pushAll_iff`); the header is
admitted if it is the statement of `Header.Ok`.
-/
import AmbaVirt.Basic
import AmbaVirt.Jpeg.Grammar
import AmbaVirt.Lib.Reader

namespace AmbaVirt.Jpeg

open Lib
open Lib.Reader

structure Info where
  width : UInt32 := 0
  height : UInt32 := 0
  sub422 : Bool := false
  deriving DecidableEq

/-- The locals of `iav_jpeg_admit_info`. -/
structure State where
  sof : Bool := false
  dqt : Bool := false
  app0 : Bool := false
  dht : UInt32 := 0
  info : Info := {}

/-- `1u << t`. -/
def HuffTable.bit : HuffTable → UInt32
  | dcLuma => 1
  | dcChroma => 2
  | acLuma => 4
  | acChroma => 8

-- ==== the recogniser

/-- The sum of the 16 counts of a table at `k`. -/
def countsAt (m : Mem) (k : Nat) : Nat :=
  ((List.range 16).map fun c => (m (k + (c + 1))).toNat).sum

/-- The search for the table at `k`, among those of its length. -/
def tableAt (k sum : Nat) : Reader Errno (Option HuffTable) :=
  fetch ((HuffTable.all.filter (·.bytes.length = 17 + sum)).map fun t => ⟨k, t.bytes.length⟩)
    fun m => HuffTable.all.find? fun t =>
      t.bytes.length = 17 + sum ∧ HasBytes m k t.bytes

/-- One table, at `k` of a DHT segment that ends at `last`: the tables
seen now, and how many values it has. -/
def table (last k : Nat) (dht : UInt32) : Reader Errno (UInt32 × Nat) := do
  lift (refuseIf (last - k < 17) .EINVAL)
  let sum ← fetch [⟨k + 1, 16⟩] (countsAt · k)
  lift (refuseIf (sum > 256 ∨ last - k < 17 + sum) .EINVAL)
  let found ← tableAt k sum
  let t ← lift (require found .EINVAL)
  lift (refuseIf (dht &&& t.bit ≠ 0) .EINVAL)
  return (dht ||| t.bit, sum)

def dhtLoop (last k : Nat) (dht : UInt32) : Reader Errno UInt32 :=
  if k < last then do
    let r ← table last k dht
    dhtLoop last (k + 17 + r.2) r.1
  else pure dht
termination_by last - k

namespace State

/-- A SOF0 segment at `i`. -/
def takeSof0 (st : State) (i : Nat) (len : UInt32) : Reader Errno State := do
  lift (refuseIf (st.sof = true ∨ len ≠ 17) .EINVAL)
  let s ← fetch [⟨i + 4, 14⟩] fun m k => m (i + 4 + k)
  lift (refuseIf (s 0 ≠ 8 ∨ s 5 ≠ 3) .EINVAL)
  let h := be16 s 1
  let w := be16 s 3
  lift (refuseIf (h = 0 ∨ w = 0 ∨ h > 16384 ∨ w > 16384) .EINVAL)
  lift (refuseIf ((s 7 ≠ 0x22 ∧ s 7 ≠ 0x21) ∨ s 10 ≠ 0x11 ∨ s 13 ≠ 0x11) .EINVAL)
  return { st with sof := true, info := ⟨w, h, s 7 == 0x21⟩ }

/-- An APP0 segment at `i`. -/
def takeApp0 (st : State) (i : Nat) (len : UInt32) : Reader Errno State := do
  lift (refuseIf (st.app0 = true ∨ len < 16) .EINVAL)
  let same ← fetch [⟨i + 4, 5⟩] fun m => decide (HasBytes m (i + 4) jfif)
  lift (refuseIf (same = false) .EINVAL)
  return { st with app0 := true }

/-- A segment at `i` that is not SOS. -/
def take (st : State) (marker : UInt8) (i : Nat) (len : UInt32) : Reader Errno State :=
  if marker = 0xC0 then st.takeSof0 i len
  else if marker = 0xDB then pure { st with dqt := true }
  else if marker = 0xC4 then do
    let d ← dhtLoop (i + 2 + len.toNat) (i + 4) st.dht
    return { st with dht := d }
  else if marker = 0xE0 then st.takeApp0 i len
  else lift (.error .EINVAL)

/-- What SOS asks of the segments before it. -/
def Complete (st : State) : Prop :=
  st.sof = true ∧ st.dqt = true ∧ st.dht = 15
  deriving Decidable

end State

/-- A round of the outer loop: the scan begins, or there is more from
`2 + len` bytes on. -/
inductive Round
  | scan (info : Info)
  | more (st : State) (len : Nat)

def segment (n i : Nat) (st : State) : Reader Errno Round := do
  let a ← fetch [⟨i, 1⟩] (· i)
  lift (refuseIf (a ≠ 0xFF) .EINVAL)
  let marker ← fetch [⟨i + 1, 1⟩] (· (i + 1))
  lift (refuseIf (i + 4 > n) .EINVAL)
  let len ← fetch [⟨i + 2, 2⟩] (be16 · (i + 2))
  lift (refuseIf (len < 2 ∨ i + 2 + len.toNat > n) .EINVAL)
  if marker = SOS then do
    lift (refuseIf (¬ st.Complete) .EINVAL)
    return .scan st.info
  else do
    let st' ← st.take marker i len
    return .more st' len.toNat

def loop (n i : Nat) (st : State) : Reader Errno Info :=
  if i + 1 < n then do
    let r ← segment n i st
    match r with
    | .scan info => pure info
    | .more st' len => loop n (i + 2 + len) st'
  else lift (.error .EINVAL)
termination_by n - i

/-- `iav_jpeg_admit_info`. -/
def admitInfo (n : Nat) : Reader Errno Info := do
  lift (refuseIf (n < 4) .EINVAL)
  let a ← fetch [⟨0, 1⟩] (· 0)
  lift (refuseIf (a ≠ 0xFF) .EINVAL)
  let b ← fetch [⟨1, 1⟩] (· 1)
  lift (refuseIf (b ≠ 0xD8) .EINVAL)
  loop n 2 {}

-- ==== tables

def addTables : UInt32 → List HuffTable → Option UInt32
  | d, [] => some d
  | d, t :: ts => if d &&& t.bit ≠ 0 then none else addTables (d ||| t.bit) ts

section

variable {m : Mem} {k last : Nat} {ts : List HuffTable} {d : UInt32} {t : HuffTable}

theorem countsAt_table (h : HasBytes m k t.bytes) :
    countsAt m k + 17 = t.bytes.length := by
  rw [← t.counts_sum, countsAt]
  have hlen := t.length_ge
  congr 2
  apply List.map_congr_left
  intro c hc
  rw [List.mem_range] at hc
  rw [h.getD (by omega)]

theorem find?_table {sum : Nat} :
    (HuffTable.all.find? fun t => t.bytes.length = 17 + sum ∧ HasBytes m k t.bytes) = some t ↔
    t.bytes.length = 17 + sum ∧ HasBytes m k t.bytes := by
  constructor
  · intro h
    simpa using List.find?_some h
  intro h
  have hsome : (HuffTable.all.find? fun t => t.bytes.length = 17 + sum ∧
      HasBytes m k t.bytes).isSome := by
    rw [List.find?_isSome]
    exact ⟨t, t.mem_all, by simpa using h⟩
  obtain ⟨s, hs⟩ := Option.isSome_iff_exists.mp hsome
  have hs' : s.bytes.length = 17 + sum ∧ HasBytes m k s.bytes := by
    simpa using List.find?_some hs
  -- both start with the byte at `k`
  have hst : s = t := by
    apply HuffTable.eq_of_head
    rw [← hs'.2.getD (by omega), ← h.2.getD (by omega)]
  rw [hs, hst]

theorem flatMap_bytes_nil (h : (ts.flatMap HuffTable.bytes).length = 0) : ts = [] := by
  cases ts with
  | nil => rfl
  | cons t ts =>
    have := t.length_ge
    rw [List.flatMap_cons, List.length_append] at h
    omega

theorem table_iff {r : UInt32 × Nat} :
    (table last k d).value m = .ok r ↔ ∃ t : HuffTable, HasBytes m k t.bytes ∧
      k + t.bytes.length ≤ last ∧ d &&& t.bit = 0 ∧
      r = (d ||| t.bit, t.bytes.length - 17) := by
  simp only [table, tableAt, value_bind, value_lift, value_fetch, value_pure, guards, not_not]
  constructor
  · intro h
    obtain ⟨hroom, sum, hsum, hfit, found, hfound, t, rfl, hbit, h⟩ := h
    cases hsum
    cases h
    obtain ⟨hlen, hbytes⟩ := find?_table.mp (Except.ok.inj hfound)
    refine ⟨t, hbytes, by omega, hbit, ?_⟩
    rw [hlen, Nat.add_sub_cancel_left]
  · intro h
    obtain ⟨t, hbytes, hfit, hbit, rfl⟩ := h
    have hcount := countsAt_table hbytes
    have hle := t.length_le
    refine ⟨by omega, countsAt m k, rfl, by omega, some t, ?_, t, rfl, hbit, ?_⟩
    · rw [find?_table.mpr ⟨by omega, hbytes⟩]
    · rw [← hcount, Nat.add_sub_cancel]

/-- The inner loop takes the tables that stand between `k` and `last`. -/
theorem dhtLoop_iff {d' : UInt32} (hk : k ≤ last) : (dhtLoop last k d).value m = .ok d' ↔
      ∃ ts, HasBytes m k (ts.flatMap HuffTable.bytes) ∧
        k + (ts.flatMap HuffTable.bytes).length = last ∧
        addTables d ts = some d' := by
  induction hrest : last - k using Nat.strong_induction_on generalizing k d with
  | _ rest ih =>
    rw [dhtLoop]
    split
    · rename_i hlt
      simp only [value_bind, bind_ok, table_iff]
      constructor
      · intro h
        obtain ⟨r, ⟨t, hbytes, hfit, hbit, rfl⟩, h⟩ := h
        have hge := t.length_ge
        have hnext : k + 17 + (t.bytes.length - 17) = k + t.bytes.length := by omega
        rw [hnext, ih _ (by omega) hfit rfl] at h
        obtain ⟨ts, hts, hend, hadd⟩ := h
        refine ⟨t :: ts, ?_, ?_, ?_⟩
        · rw [List.flatMap_cons, hasBytes_append]
          exact ⟨hbytes, hts⟩
        · rw [List.flatMap_cons, List.length_append]
          omega
        · rw [addTables, if_neg (not_not.mpr hbit)]
          exact hadd
      · intro h
        obtain ⟨ts, hts, hend, hadd⟩ := h
        cases ts with
        | nil =>
          rw [List.flatMap_nil, List.length_nil] at hend
          omega
        | cons t ts =>
          rw [List.flatMap_cons, hasBytes_append] at hts
          rw [List.flatMap_cons, List.length_append] at hend
          have hge := t.length_ge
          rw [addTables] at hadd
          split at hadd
          · cases hadd
          rename_i hbit
          refine ⟨_, ⟨t, hts.1, by omega, not_not.mp hbit, rfl⟩, ?_⟩
          have hnext : k + 17 + (t.bytes.length - 17) = k + t.bytes.length := by omega
          rw [hnext, ih _ (by omega) (by omega) rfl]
          exact ⟨ts, hts.2, by omega, hadd⟩
    · rename_i hge
      have hkl : k = last := by omega
      subst hkl
      rw [value_pure]
      constructor
      · intro h
        cases h
        exact ⟨[], trivial, rfl, rfl⟩
      intro h
      obtain ⟨ts, -, hend, hadd⟩ := h
      have hnil : ts = [] := flatMap_bytes_nil (by omega)
      subst hnil
      rw [Option.some.inj hadd]

end

-- ==== segments

def Frame.info (f : Frame) : Info where
  width := f.width.toUInt32
  height := f.height.toUInt32
  sub422 := f.sub422

/-- The locals after one more segment, if they allow it. -/
def State.push (st : State) : Segment → Option State
  | .dqt _ => some { st with dqt := true }
  | .sof0 f =>
    if st.sof = true then none else some { st with sof := true, info := f.info }
  | .dht ts => (addTables st.dht ts).map fun d => { st with dht := d }
  | .app0 _ => if st.app0 = true then none else some { st with app0 := true }

section

variable {m : Mem} {i : Nat} {st st' : State} {len : UInt32} {marker : UInt8}

theorem length_frame (f : Frame) : f.body.length = 15 := rfl

/-- The frame that a SOF0 segment at `i` describes. -/
def frameAt (m : Mem) (i : Nat) : Frame where
  height := (be16 m (i + 5)).toNat
  width := (be16 m (i + 7)).toNat
  sub422 := m (i + 11) == 0x21
  id := fun c => m (i + 10 + 3 * c.val)
  tq := fun c => m (i + 12 + 3 * c.val)

theorem be16_shift (m : Mem) (i k : Nat) : be16 (fun j => m (i + j)) k = be16 m (i + k) := rfl

theorem takeSof0_iff : (st.takeSof0 i len).value m = .ok st' ↔
    ∃ f : Frame, f.Ok ∧ f.body.length + 2 = len.toNat ∧
      HasBytes m (i + 4) f.body ∧ st.push (.sof0 f) = some st' := by
  have h17 : len = 17 ↔ 15 + 2 = len.toNat := by
    rw [← UInt32.toNat_inj]
    exact eq_comm
  simp only [State.takeSof0, value_bind, value_lift, value_fetch, value_pure, guards, State.push,
    length_frame, not_or, not_not]
  constructor
  · intro h
    obtain ⟨⟨hsof, hlen⟩, s, hs, ⟨h8, h3⟩, hdim, hsamp, hst⟩ := h
    cases hs
    cases hst
    obtain ⟨hh, hw, hh', hw'⟩ := hdim
    have hh0 : (be16 m (i + 4 + 1)).toNat ≠ 0 := fun h0 =>
      hh (UInt32.toNat_inj.mp h0)
    have hw0 : (be16 m (i + 4 + 3)).toNat ≠ 0 := fun h0 =>
      hw (UInt32.toNat_inj.mp h0)
    rw [UInt32.not_lt, UInt32.le_iff_toNat_le] at hh' hw'
    have hmax : (16384 : UInt32).toNat = 16384 := rfl
    refine ⟨frameAt m i, ⟨Nat.one_le_iff_ne_zero.mpr hh0, hh',
      Nat.one_le_iff_ne_zero.mpr hw0, hw'⟩, h17.mp hlen, ?_, ?_⟩
    · obtain ⟨hhi, hlo⟩ := (be16_eq_iff (be16_lt m (i + 5))).mp rfl
      obtain ⟨whi, wlo⟩ := (be16_eq_iff (be16_lt m (i + 7))).mp rfl
      have h7 : m (i + 11) = if m (i + 11) == 0x21 then 0x21 else 0x22 := by
        by_cases h21 : m (i + 11) = 0x21
        · simp [h21]
        have h22 : m (i + 11) = 0x22 := by
          by_contra h22
          exact hsamp.1 ⟨h22, h21⟩
        simp [h22]
      exact ⟨h8, hhi, hlo, whi, wlo, h3, rfl, h7, rfl, rfl, hsamp.2.1, rfl, rfl,
        hsamp.2.2, rfl, trivial⟩
    · rw [if_neg hsof, be16_shift, be16_shift]
      simp [Frame.info, frameAt]
  · intro h
    obtain ⟨f, hf, hlen, hbytes, hst⟩ := h
    obtain ⟨hh1, hh2, hw1, hw2⟩ := hf
    split at hst
    · cases hst
    rename_i hsof
    cases hst
    obtain ⟨h8, hhi, hlo, whi, wlo, h3, -, h7, -, -, h10, -, -, h13, -⟩ := hbytes
    have hheight : (be16 m (i + 4 + 1)).toNat = f.height :=
      (be16_eq_iff (by omega)).mpr ⟨hhi, hlo⟩
    have hwidth : (be16 m (i + 4 + 3)).toNat = f.width :=
      (be16_eq_iff (by omega)).mpr ⟨whi, wlo⟩
    have hmax : (16384 : UInt32).toNat = 16384 := rfl
    refine ⟨⟨hsof, h17.mpr hlen⟩, _, rfl, ⟨h8, h3⟩, ?_, ?_, ?_⟩
    · rw [be16_shift, be16_shift, ← UInt32.toNat_inj, ← UInt32.toNat_inj,
        UInt32.not_lt, UInt32.not_lt, UInt32.le_iff_toNat_le,
        UInt32.le_iff_toNat_le, hheight, hwidth, hmax, UInt32.toNat_zero]
      exact ⟨by omega, by omega, hh2, hw2⟩
    · refine ⟨?_, h10, h13⟩
      have h7' : m (i + 4 + 7) = if f.sub422 then 0x21 else 0x22 := h7
      rw [h7']
      cases f.sub422 <;> simp
    · have h7' : m (i + 4 + 7) = if f.sub422 then 0x21 else 0x22 := h7
      have hsub : (m (i + 4 + 7) == 0x21) = f.sub422 := by
        rw [h7']
        cases f.sub422 <;> simp
      have hw' : be16 m (i + 4 + 3) = f.width.toUInt32 := by
        rw [← UInt32.toNat_inj, hwidth]
        simp only [Nat.toUInt32_eq, UInt32.toNat_ofNat']
        omega
      have hh' : be16 m (i + 4 + 1) = f.height.toUInt32 := by
        rw [← UInt32.toNat_inj, hheight]
        simp only [Nat.toUInt32_eq, UInt32.toNat_ofNat']
        omega
      rw [be16_shift, be16_shift, hw', hh', hsub]
      rfl

theorem takeApp0_iff (hlen : 2 ≤ len.toNat) (hlt : len.toNat < 65536) :
    (st.takeApp0 i len).value m = .ok st' ↔
    ∃ tail, (Segment.app0 tail).Ok ∧ (jfif ++ tail).length + 2 = len.toNat ∧
      HasBytes m (i + 4) (jfif ++ tail) ∧ st.push (.app0 tail) = some st' := by
  have h16 : len < 16 ↔ len.toNat < 16 := UInt32.lt_iff_toNat_lt
  have hjfif : jfif.length = 5 := rfl
  simp only [State.takeApp0, value_bind, value_lift, value_fetch, value_pure, guards, State.push,
    not_or]
  constructor
  · intro h
    obtain ⟨⟨happ, hlen16⟩, same, hsame, hyes, hst⟩ := h
    cases hsame
    cases hst
    have hstart : HasBytes m (i + 4) jfif := by simpa using hyes
    rw [h16] at hlen16
    -- the rest of the segment is whatever stands there
    obtain ⟨tail, htail, hrest⟩ := exists_hasBytes m (i + 4 + 5) (len.toNat - 7)
    have hbody : (jfif ++ tail).length + 2 = len.toNat := by
      rw [List.length_append, hjfif, htail]
      omega
    refine ⟨tail, ⟨?_, ?_⟩, hbody, hasBytes_append.mpr ⟨hstart, hrest⟩, if_neg happ⟩
    · exact hbody.trans_lt hlt
    · exact hbody.ge.trans' (by omega)
  · intro h
    obtain ⟨tail, hok, hlen', hbytes, hst⟩ := h
    split at hst
    · cases hst
    rename_i happ
    cases hst
    rw [hasBytes_append] at hbytes
    have hge : 16 ≤ (jfif ++ tail).length + 2 := hok.2
    refine ⟨⟨happ, by rw [h16]; omega⟩, _, rfl, ?_, rfl⟩
    simpa using hbytes.1

/-- A segment that is not SOS is taken exactly if it is one of the
grammar and the locals allow it. -/
theorem take_iff (hlen : 2 ≤ len.toNat) (hlt : len.toNat < 65536) :
    (st.take marker i len).value m = .ok st' ↔
      ∃ s : Segment, s.marker = marker ∧ s.Ok ∧ s.body.length + 2 = len.toNat ∧
        HasBytes m (i + 4) s.body ∧ st.push s = some st' := by
  constructor
  · intro h
    unfold State.take at h
    split at h
    · rename_i hm
      obtain ⟨f, hf, hl, hb, hst⟩ := takeSof0_iff.mp h
      exact ⟨.sof0 f, hm.symm, ⟨hl.trans_lt hlt, hf⟩, hl, hb, hst⟩
    split at h
    · rename_i hm
      cases h
      obtain ⟨body, hbody, hb⟩ := exists_hasBytes m (i + 4) (len.toNat - 2)
      have hl : body.length + 2 = len.toNat := by omega
      exact ⟨.dqt body, hm.symm, ⟨hl.trans_lt hlt, trivial⟩, hl, hb, rfl⟩
    · split at h
      · rename_i hm
        simp only [value_bind, value_pure, bind_ok] at h
        obtain ⟨d, hd, hst⟩ := h
        cases hst
        obtain ⟨ts, hts, hend, hadd⟩ := (dhtLoop_iff (by omega)).mp hd
        have hl : (ts.flatMap HuffTable.bytes).length + 2 = len.toNat := by omega
        exact ⟨.dht ts, hm.symm, ⟨hl.trans_lt hlt, trivial⟩, hl, hts, by simp [State.push, hadd]⟩
      · split at h
        · rename_i hm
          obtain ⟨tail, hok, hl, hb, hst⟩ := (takeApp0_iff hlen hlt).mp h
          exact ⟨.app0 tail, hm.symm, hok, hl, hb, hst⟩
        · cases h
  · intro h
    obtain ⟨s, rfl, hok, hl, hb, hst⟩ := h
    cases s with
    | sof0 f => exact takeSof0_iff.mpr ⟨f, hok.2, hl, hb, hst⟩
    | dqt body => exact congrArg Except.ok (Option.some.inj hst)
    | dht ts =>
      obtain ⟨d, hadd, hd⟩ := Option.map_eq_some_iff.mp hst
      have hl' : (ts.flatMap HuffTable.bytes).length + 2 = len.toNat := hl
      have hloop : (dhtLoop (i + 2 + len.toNat) (i + 4) st.dht).value m = .ok d :=
        (dhtLoop_iff (by omega)).mpr ⟨ts, hb, by omega, hadd⟩
      have htake : st.take (Segment.dht ts).marker i len
          = dhtLoop (i + 2 + len.toNat) (i + 4) st.dht >>= fun d =>
            pure { st with dht := d } := rfl
      rw [htake, value_bind, hloop]
      exact congrArg Except.ok hd
    | app0 tail => exact (takeApp0_iff hlen hlt).mpr ⟨tail, hok, hl, hb, hst⟩

end

-- ==== the loop

def State.pushAll (st : State) (l : List Segment) : Option State :=
  l.foldlM State.push st

section

variable {m : Mem} {n i : Nat} {st : State} {segs l : List Segment} {info : Info}

theorem marker_ne_sos (s : Segment) : s.marker ≠ SOS := by
  cases s <;> simp [Segment.marker, SOS]

/-- What a round accepts: the header of the scan, or a segment. -/
theorem segment_iff {r : Round} : (segment n i st).value m = .ok r ↔
    (∃ sos : List UInt8, sos.length + 2 < 65536 ∧
      HasBytes m i (segBytes SOS sos) ∧ i + (segBytes SOS sos).length ≤ n ∧
      st.Complete ∧ r = .scan st.info) ∨
    ∃ (s : Segment) (st' : State), s.Ok ∧ HasBytes m i s.bytes ∧
      i + s.bytes.length ≤ n ∧ st.push s = some st' ∧
      r = .more st' (s.body.length + 2) := by
  have h2 (len : UInt32) : len < 2 ↔ len.toNat < 2 := UInt32.lt_iff_toNat_lt
  have hlt := be16_lt m (i + 2)
  simp only [segment, value_bind, value_lift, value_fetch, guards, not_not, not_or, h2]
  constructor
  · intro h
    obtain ⟨_, ha, hff, _, hmark, hroom, _, hlen, ⟨hmin, hfit⟩, h⟩ := h
    cases ha
    cases hmark
    cases hlen
    split at h
    · rename_i hsos
      left
      simp only [value_bind, value_lift, value_pure, guards, not_not] at h
      obtain ⟨hcomplete, h⟩ := h
      cases h
      obtain ⟨sos, hsize, hb⟩ := exists_hasBytes m (i + 4) ((be16 m (i + 2)).toNat - 2)
      have hl : (be16 m (i + 2)).toNat = sos.length + 2 := by omega
      refine ⟨sos, hl.symm.trans_lt hlt, ?_, ?_, hcomplete, rfl⟩
      · exact (hasBytes_segBytes (by omega)).mpr ⟨hff, hsos, hl, hb⟩
      · rw [length_segBytes]
        omega
    · right
      simp only [value_bind, value_pure, bind_ok] at h
      obtain ⟨st', htake, h⟩ := h
      cases h
      obtain ⟨s, hm, hok, hl, hb, hst⟩ := (take_iff (by omega) hlt).mp htake
      refine ⟨s, st', hok, ?_, ?_, hst, by rw [hl]⟩
      · exact (hasBytes_segBytes hok.1).mpr ⟨hff, hm.symm, hl.symm, hb⟩
      · unfold Segment.bytes
        rw [length_segBytes]
        omega
  · intro h
    rcases h with ⟨sos, hsos, hb, hfit, hcomplete, rfl⟩ | ⟨s, st', hok, hb, hfit, hst, rfl⟩
    · rw [hasBytes_segBytes hsos] at hb
      rw [length_segBytes] at hfit
      obtain ⟨hff, hmark, hlen, -⟩ := hb
      refine ⟨_, rfl, hff, _, rfl, by omega, _, rfl, by omega, ?_⟩
      rw [if_pos hmark]
      simp only [value_bind, value_lift, value_pure, guards, not_not]
      exact ⟨hcomplete, trivial⟩
    · unfold Segment.bytes at hb hfit
      rw [hasBytes_segBytes hok.1] at hb
      rw [length_segBytes] at hfit
      obtain ⟨hff, hmark, hlen, hbody⟩ := hb
      refine ⟨_, rfl, hff, _, rfl, by omega, _, rfl, by omega, ?_⟩
      rw [if_neg (by rw [hmark]; exact marker_ne_sos s)]
      have htake : (st.take (m (i + 1)) i (be16 m (i + 2))).value m = .ok st' :=
        (take_iff (by omega) hlt).mpr ⟨s, hmark.symm, hok, hlen.symm, hbody, hst⟩
      rw [value_bind, htake, ← hlen]
      rfl

/-- The outer loop takes segments one after the other, and then the
header of the scan. -/
theorem loop_iff : (loop n i st).value m = .ok info ↔
    ∃ (segs : List Segment) (sos : List UInt8) (st' : State),
      (∀ s ∈ segs, s.Ok) ∧ sos.length + 2 < 65536 ∧
      HasBytes m i (segs.flatMap Segment.bytes ++ segBytes SOS sos) ∧
      i + (segs.flatMap Segment.bytes ++ segBytes SOS sos).length ≤ n ∧
      st.pushAll segs = some st' ∧ st'.Complete ∧ st'.info = info := by
  induction hrest : n - i using Nat.strong_induction_on generalizing i st with
  | _ rest ih =>
    rw [loop]
    split
    · rename_i hlt
      simp only [value_bind, bind_ok, segment_iff]
      constructor
      · intro h
        obtain ⟨r, hr, h⟩ := h
        rcases hr with ⟨sos, hsos, hb, hfit, hcomplete, rfl⟩ | ⟨s, st', hok, hb, hfit, hst, rfl⟩
        · cases h
          exact ⟨[], sos, st, by simp, hsos, hb, hfit, rfl, hcomplete, rfl⟩
        have hlen : s.bytes.length = s.body.length + 4 := length_segBytes
        have hnext : i + 2 + (s.body.length + 2) = i + s.bytes.length := by omega
        dsimp only at h
        rw [hnext, ih _ (by omega) rfl] at h
        obtain ⟨segs, sos, st'', hoks, hsos, hbs, hfits, hpush, hrest⟩ := h
        refine ⟨s :: segs, sos, st'', ?_, hsos, ?_, ?_, ?_, hrest⟩
        · simpa using ⟨hok, hoks⟩
        · rw [List.flatMap_cons, List.append_assoc, hasBytes_append]
          exact ⟨hb, hbs⟩
        · rw [List.flatMap_cons, List.append_assoc, List.length_append]
          omega
        · unfold State.pushAll
          rw [List.foldlM_cons, hst]
          exact hpush
      · intro h
        obtain ⟨segs, sos, st', hoks, hsos, hb, hfit, hpush, hcomplete, hinfo⟩ := h
        cases segs with
        | nil =>
          cases hpush
          refine ⟨_, .inl ⟨sos, hsos, hb, hfit, hcomplete, rfl⟩, ?_⟩
          rw [hinfo]
          rfl
        | cons s segs =>
          rw [List.flatMap_cons, List.append_assoc, hasBytes_append] at hb
          rw [List.flatMap_cons, List.append_assoc, List.length_append] at hfit
          unfold State.pushAll at hpush
          obtain ⟨st₁, hst₁, hpush⟩ := Option.bind_eq_some_iff.mp hpush
          have hlen : s.bytes.length = s.body.length + 4 := length_segBytes
          have hnext : i + 2 + (s.body.length + 2) = i + s.bytes.length := by
            omega
          refine ⟨_, .inr ⟨s, st₁, hoks s (by simp), hb.1, by omega, hst₁, rfl⟩, ?_⟩
          dsimp only
          rw [hnext, ih _ (by omega) rfl]
          exact ⟨segs, sos, st', fun s' hs' => hoks s' (by simp [hs']), hsos,
            hb.2, by omega, hpush, hcomplete, hinfo⟩
    · rename_i hge
      constructor
      · intro h
        cases h
      intro h
      obtain ⟨segs, sos, -, -, -, -, hfit, -⟩ := h
      rw [List.length_append, length_segBytes] at hfit
      omega

end

-- ==== from the locals

def maskOf : List HuffTable → UInt32
  | [] => 0
  | t :: ts => t.bit ||| maskOf ts

theorem maskOf_append (a b : List HuffTable) : maskOf (a ++ b) = maskOf a ||| maskOf b := by
  induction a with
  | nil => simp [maskOf]
  | cons t a ih => simp [maskOf, ih, UInt32.or_assoc]

theorem and_or_left (a b c : UInt32) : a &&& (b ||| c) = (a &&& b) ||| (a &&& c) := by
  rw [← UInt32.toNat_inj]
  simp only [UInt32.toNat_and, UInt32.toNat_or, Nat.and_or_distrib_left]

theorem maskOf_and (ts : List HuffTable) (t : HuffTable) :
    maskOf ts &&& t.bit = if t ∈ ts then t.bit else 0 := by
  induction ts with
  | nil => simp [maskOf]
  | cons s ts ih =>
    have hsplit : (s.bit ||| maskOf ts) &&& t.bit
        = (s.bit &&& t.bit) ||| (maskOf ts &&& t.bit) := by
      rw [UInt32.and_comm, and_or_left, UInt32.and_comm t.bit, UInt32.and_comm t.bit]
    rw [maskOf, hsplit, ih]
    by_cases hst : s = t
    · subst hst
      simp only [UInt32.and_self, List.mem_cons, true_or, if_true]
      split <;> simp
    have hzero : s.bit &&& t.bit = 0 := by
      cases s <;> cases t <;> first | rfl | exact absurd rfl hst
    rw [hzero, UInt32.zero_or]
    simp [List.mem_cons, Ne.symm hst]

theorem bit_ne_zero (t : HuffTable) : t.bit ≠ 0 := by
  cases t <;> decide

theorem maskOf_and_eq_zero :
    maskOf ts &&& t.bit = 0 ↔ t ∉ ts := by
  rw [maskOf_and]
  split
  · rename_i ht
    exact ⟨fun h => absurd h (bit_ne_zero t), fun h => absurd ht h⟩
  · rename_i ht
    exact ⟨fun _ => ht, fun _ => rfl⟩

theorem maskOf_eq_all : maskOf ts = 15 ↔ ∀ t, t ∈ ts := by
  constructor
  · intro h t
    by_contra ht
    rw [← maskOf_and_eq_zero, h] at ht
    cases t <;> exact absurd ht (by decide)
  · intro h
    have hlow (ts : List HuffTable) : maskOf ts &&& 15 = maskOf ts := by
      induction ts with
      | nil => rfl
      | cons t ts ih =>
        rw [maskOf, UInt32.and_comm, and_or_left, UInt32.and_comm 15 (maskOf ts), ih]
        cases t <;> rfl
    have hall (t : HuffTable) : maskOf ts &&& t.bit = t.bit := by
      rw [maskOf_and, if_pos (h t)]
    calc maskOf ts = maskOf ts &&& 15 := (hlow ts).symm
      _ = maskOf ts &&& (HuffTable.dcLuma.bit ||| (HuffTable.dcChroma.bit |||
            (HuffTable.acLuma.bit ||| HuffTable.acChroma.bit))) := rfl
      _ = 15 := by
          rw [and_or_left, and_or_left, and_or_left, hall, hall, hall, hall]
          rfl

theorem addTables_iff {us ts : List HuffTable} (hus : us.Nodup) :
    addTables (maskOf us) ts = some d ↔ (us ++ ts).Nodup ∧ d = maskOf (us ++ ts) := by
  induction ts generalizing us with
  | nil => simp [addTables, hus, eq_comm]
  | cons t ts ih =>
    rw [addTables]
    split
    · rename_i hbit
      have ht : t ∈ us := by
        by_contra ht
        exact hbit (maskOf_and_eq_zero.mpr ht)
      constructor
      · intro h
        cases h
      · intro h
        rw [List.nodup_append] at h
        exact absurd rfl (h.1.2.2 t ht t List.mem_cons_self)
    · rename_i hbit
      have ht : t ∉ us := maskOf_and_eq_zero.mp (not_not.mp hbit)
      have hmask : maskOf us ||| t.bit = maskOf (us ++ [t]) := by
        simp [maskOf_append, maskOf]
      have hnodup : (us ++ [t]).Nodup := by
        rw [List.nodup_append]
        refine ⟨hus, List.nodup_singleton t, ?_⟩
        intro a ha b hb hab
        rw [List.mem_singleton.mp hb] at hab
        exact ht (hab ▸ ha)
      rw [hmask, ih hnodup, List.append_assoc, List.singleton_append]

/-- What the locals say of the segments so far. -/
def stateOf (l : List Segment) : State where
  sof := !(frames l).isEmpty
  dqt := l.any Segment.isDqt
  app0 := l.any Segment.isApp0
  dht := maskOf (tables l)
  info := (frames l).getLast?.elim {} Frame.info

/-- What is asked of the segments, whatever comes after them. -/
def Sound (l : List Segment) : Prop :=
  (frames l).length ≤ 1 ∧ (tables l).Nodup ∧ l.countP Segment.isApp0 ≤ 1

theorem frames_append (a b : List Segment) : frames (a ++ b) = frames a ++ frames b :=
  List.filterMap_append

theorem tables_append (a b : List Segment) : tables (a ++ b) = tables a ++ tables b :=
  List.flatMap_append

theorem stateOf_dqt (l : List Segment) (body : List UInt8) :
    stateOf (l ++ [.dqt body]) = { stateOf l with dqt := true } := by
  simp [stateOf, frames, tables, Segment.isDqt, Segment.isApp0]

theorem stateOf_sof0 (l : List Segment) (f : Frame) :
    stateOf (l ++ [.sof0 f]) = { stateOf l with sof := true, info := f.info } := by
  simp [stateOf, frames, tables, Segment.isDqt, Segment.isApp0]

theorem stateOf_dht (l : List Segment) (ts : List HuffTable) :
    stateOf (l ++ [.dht ts]) = { stateOf l with dht := maskOf (tables l ++ ts) } := by
  simp [stateOf, frames, tables, Segment.isDqt, Segment.isApp0]

theorem stateOf_app0 (l : List Segment) (tail : List UInt8) :
    stateOf (l ++ [.app0 tail]) = { stateOf l with app0 := true } := by
  simp [stateOf, frames, tables, Segment.isDqt, Segment.isApp0]

theorem push_iff {s : Segment} (hl : Sound l) :
    (stateOf l).push s = some st ↔ Sound (l ++ [s]) ∧ st = stateOf (l ++ [s]) := by
  obtain ⟨hf, ht, ha⟩ := hl
  unfold Sound
  rw [frames_append, tables_append, List.countP_append, List.length_append]
  cases s with
  | dqt body =>
    rw [stateOf_dqt]
    constructor
    · intro h
      cases h
      exact ⟨⟨by simpa [frames] using hf, by simpa [tables] using ht,
        by simpa [Segment.isApp0] using ha⟩, rfl⟩
    · intro h
      exact congrArg some h.2.symm
  | sof0 f =>
    rw [stateOf_sof0]
    cases hframes : frames l with
    | nil =>
      have hsof : (stateOf l).sof = false := by simp [stateOf, hframes]
      simpa [State.push, hsof, frames, tables, Segment.isApp0, eq_comm] using fun _ => ⟨ht, ha⟩
    | cons g gs =>
      have hsof : (stateOf l).sof = true := by simp [stateOf, hframes]
      simp [State.push, hsof, frames]
  | dht ts =>
    rw [stateOf_dht]
    have hadd (d : UInt32) : addTables (maskOf (tables l)) ts = some d ↔
        (tables l ++ ts).Nodup ∧ d = maskOf (tables l ++ ts) := addTables_iff ht
    have hdht : (stateOf l).dht = maskOf (tables l) := rfl
    have htables : tables [.dht ts] = ts := by simp [tables]
    rw [State.push, hdht, htables, Option.map_eq_some_iff]
    constructor
    · intro h
      obtain ⟨d, hd, rfl⟩ := h
      obtain ⟨hnodup, rfl⟩ := (hadd d).mp hd
      exact ⟨⟨by simpa [frames] using hf, hnodup, by simpa [Segment.isApp0] using ha⟩, rfl⟩
    · intro h
      obtain ⟨⟨-, hnodup, -⟩, rfl⟩ := h
      exact ⟨_, (hadd _).mpr ⟨hnodup, rfl⟩, rfl⟩
  | app0 tail =>
    rw [stateOf_app0]
    by_cases happ : (stateOf l).app0 = true
    · have hpos : 0 < l.countP Segment.isApp0 := by
        rw [List.countP_pos_iff]
        simpa [stateOf] using happ
      simp only [State.push, happ, if_true]
      constructor
      · intro h
        cases h
      intro h
      have hone : [Segment.app0 tail].countP Segment.isApp0 = 1 := rfl
      omega
    · have hzero : l.countP Segment.isApp0 = 0 := by
        rw [List.countP_eq_zero]
        simpa [stateOf] using happ
      simp only [State.push, happ]
      constructor
      · intro h
        cases h
        exact ⟨⟨by simpa [frames] using hf, by simpa [tables] using ht,
          by simp [hzero, Segment.isApp0]⟩, rfl⟩
      · intro h
        exact congrArg some h.2.symm

/-- The locals after a list of segments, and when they allowed it. -/
theorem pushAll_iff :
    State.pushAll {} l = some st ↔ Sound l ∧ st = stateOf l := by
  induction l using List.reverseRecOn generalizing st with
  | nil =>
    have hnil : State.pushAll {} [] = some (stateOf []) := rfl
    have hsound : Sound [] := by simp [Sound, frames, tables]
    rw [hnil, Option.some_inj]
    exact ⟨fun h => ⟨hsound, h.symm⟩, fun h => h.2.symm⟩
  | append_singleton l s ih =>
    have happend : State.pushAll {} (l ++ [s]) = (State.pushAll {} l).bind fun st => st.push s := by
      unfold State.pushAll
      rw [List.foldlM_append]
      simp
    rw [happend, Option.bind_eq_some_iff]
    constructor
    · intro h
      obtain ⟨st₁, h₁, h⟩ := h
      obtain ⟨hl, rfl⟩ := ih.mp h₁
      exact (push_iff hl).mp h
    · intro h
      have hl : Sound l := by
        obtain ⟨hf, ht, ha⟩ := h.1
        rw [frames_append, List.length_append] at hf
        rw [tables_append, List.nodup_append] at ht
        rw [List.countP_append] at ha
        exact ⟨by omega, ht.1, by omega⟩
      exact ⟨stateOf l, ih.mpr ⟨hl, rfl⟩, (push_iff hl).mpr h⟩

/-- The segments of a header: sound, and nothing missing at the scan. -/
theorem header_ok_iff {sos : List UInt8} :
    (Header.mk segs sos).Ok ↔ (∀ s ∈ segs, s.Ok) ∧ sos.length + 2 < 65536 ∧
      Sound segs ∧ (stateOf segs).Complete := by
  constructor
  · intro h
    obtain ⟨hok, hsos, ⟨s, hs, hdqt⟩, hframe, htable, happ⟩ := h
    have hmem (t : HuffTable) : t ∈ tables segs := by
      rw [← List.count_pos_iff, htable t]
      exact Nat.one_pos
    have hnodup : (tables segs).Nodup := by
      rw [List.nodup_iff_count_le_one]
      intro t
      exact (htable t).le
    refine ⟨hok, hsos, ⟨hframe.le, hnodup, happ⟩, ?_, ?_, maskOf_eq_all.mpr hmem⟩
    · obtain ⟨f, hf⟩ := List.length_eq_one_iff.mp hframe
      have hf' : frames segs = [f] := hf
      simp [stateOf, hf']
    · rw [stateOf, List.any_eq_true]
      exact ⟨s, hs, hdqt⟩
  · intro h
    obtain ⟨hok, hsos, ⟨hframe, hnodup, happ⟩, hsof, hdqt, hdht⟩ := h
    rw [stateOf, List.any_eq_true] at hdqt
    refine ⟨hok, hsos, hdqt, ?_, ?_, happ⟩
    · have hne : frames segs ≠ [] := by simpa [stateOf] using hsof
      have hpos := List.length_pos_iff.mpr hne
      exact Nat.le_antisymm hframe hpos
    · intro t
      exact List.count_eq_one_of_mem hnodup (maskOf_eq_all.mp hdht t)

-- ==== what is read

section

variable {m : Mem} {n i : Nat} {st : State} {k last : Nat}

theorem reach_table_le (hk : k ≤ last)
    (hlast : last ≤ n) : (table last k d).reach m ≤ n := by
  simp only [table, reach_lift_bind_le, reach_fetch_bind_le, refuseIf_ok]
  intro _ hroom
  refine ⟨by omega, fun _ hfit => reach_bind_le.mpr ⟨?_, by simp⟩⟩
  unfold tableAt
  rw [reach_fetch, spansEnd_le_iff]
  intro r hr
  obtain ⟨t, ht, rfl⟩ := List.mem_map.mp hr
  have hlen : t.bytes.length = 17 + countsAt m k := by
    simpa using (List.mem_filter.mp ht).2
  dsimp only
  omega

theorem reach_dhtLoop_le (hk : k ≤ last)
    (hlast : last ≤ n) : (dhtLoop last k d).reach m ≤ n := by
  induction hrest : last - k using Nat.strong_induction_on generalizing k d with
  | _ rest ih =>
    rw [dhtLoop]
    split
    · refine reach_bind_le.mpr ⟨reach_table_le hk hlast, fun r hr => ?_⟩
      obtain ⟨t, -, hfit, -, rfl⟩ := table_iff.mp hr
      have hge := t.length_ge
      exact ih _ (by omega) (by dsimp only; omega) rfl
    · exact Nat.zero_le n

theorem reach_take_le {len : UInt32} (hlen : 2 ≤ len.toNat)
    (hfit : i + 2 + len.toNat ≤ n) : (st.take marker i len).reach m ≤ n := by
  unfold State.take
  split
  · simp only [State.takeSof0, reach_lift_bind_le, reach_fetch_bind_le, refuseIf_ok, not_or,
      not_not]
    intro _ h
    have h17 : len.toNat = 17 := by
      rw [h.2]
      rfl
    exact ⟨by omega, fun _ _ _ _ _ _ => Nat.zero_le n⟩
  split
  · exact Nat.zero_le n
  split
  · exact reach_bind_le.mpr ⟨reach_dhtLoop_le (by omega) hfit, by simp⟩
  split
  · simp only [State.takeApp0, reach_lift_bind_le, reach_fetch_bind_le, refuseIf_ok, not_or,
      UInt32.lt_iff_toNat_lt]
    intro _ h
    have h16 : (16 : UInt32).toNat = 16 := rfl
    exact ⟨by omega, fun _ _ => Nat.zero_le n⟩
  · exact Nat.zero_le n

theorem reach_segment_le (h : i + 1 < n) : (segment n i st).reach m ≤ n := by
  have h2 : (2 : UInt32).toNat = 2 := rfl
  simp only [segment, reach_lift_bind_le, reach_fetch_bind_le, refuseIf_ok, not_or,
    UInt32.lt_iff_toNat_lt]
  refine ⟨by omega, fun _ _ => ⟨by omega, fun _ hroom => ⟨by omega, fun _ hlen => ?_⟩⟩⟩
  split
  · simp
  · exact reach_bind_le.mpr ⟨reach_take_le (by omega) (by omega), by simp⟩

theorem reach_loop_le : (loop n i st).reach m ≤ n := by
  induction hrest : n - i using Nat.strong_induction_on generalizing i st with
  | _ rest ih =>
    rw [loop]
    split
    · rename_i hlt
      refine reach_bind_le.mpr ⟨reach_segment_le hlt, fun r _ => ?_⟩
      cases r with
      | scan info => exact Nat.zero_le n
      | more st' len => exact ih _ (by omega) rfl
    · exact Nat.zero_le n

theorem reach_admitInfo_le : (admitInfo n).reach m ≤ n := by
  simp only [admitInfo, reach_lift_bind_le, reach_fetch_bind_le, refuseIf_ok]
  intro _ hn
  exact ⟨by omega, fun _ _ => ⟨by omega, fun _ _ => reach_loop_le⟩⟩

end

-- ==== exactness

/-- Admission is membership in the grammar. -/
theorem admitInfo_iff : (admitInfo n).value m = .ok info ↔
      ∃ h : Header, h.Ok ∧ h.bytes <+: octets m n ∧ ∃ f, frames h.segs = [f] ∧ f.info = info := by
  have hbytes (h : Header) : h.bytes <+: octets m n ↔ m 0 = 0xFF ∧ m 1 = 0xD8 ∧
      HasBytes m 2 (h.segs.flatMap Segment.bytes ++ segBytes SOS h.sos) ∧
      2 + (h.segs.flatMap Segment.bytes ++ segBytes SOS h.sos).length ≤ n := by
    rw [prefix_octets, Header.bytes, hasBytes_append]
    simp only [hasBytes_cons, hasBytes_nil, List.length_append, List.length_cons,
      List.length_nil, Nat.zero_add, and_true]
    constructor
    · intro hb
      exact ⟨hb.2.1.1, hb.2.1.2, hb.2.2, hb.1⟩
    · intro hb
      exact ⟨hb.2.2.2, ⟨hb.1, hb.2.1⟩, hb.2.2.1⟩
  simp only [admitInfo, value_bind, value_lift, value_fetch, guards, not_not]
  constructor
  · intro h
    obtain ⟨hn, _, ha, h0, _, hb, h1, hloop⟩ := h
    cases ha
    cases hb
    obtain ⟨segs, sos, st, hoks, hsos, hbs, hfit, hpush, hcomplete, hinfo⟩ :=
      loop_iff.mp hloop
    obtain ⟨hsound, rfl⟩ := pushAll_iff.mp hpush
    have hok : (Header.mk segs sos).Ok :=
      header_ok_iff.mpr ⟨hoks, hsos, hsound, hcomplete⟩
    obtain ⟨f, hf⟩ := List.length_eq_one_iff.mp hok.frame
    refine ⟨⟨segs, sos⟩, hok, (hbytes _).mpr ⟨h0, h1, hbs, hfit⟩, f, hf, ?_⟩
    have hf' : frames segs = [f] := hf
    rw [← hinfo]
    simp [stateOf, hf']
  · intro h
    obtain ⟨⟨segs, sos⟩, hok, hb, f, hf, rfl⟩ := h
    obtain ⟨h0, h1, hbs, hfit⟩ := (hbytes _).mp hb
    obtain ⟨hoks, hsos, hsound, hcomplete⟩ := header_ok_iff.mp hok
    have hlen := hfit
    rw [List.length_append, length_segBytes] at hlen
    refine ⟨by omega, _, rfl, h0, _, rfl, h1, ?_⟩
    rw [loop_iff]
    refine ⟨segs, sos, stateOf segs, hoks, hsos, hbs, hfit,
      pushAll_iff.mpr ⟨hsound, rfl⟩, hcomplete, ?_⟩
    have hf' : frames segs = [f] := hf
    simp [stateOf, hf']

/-- The picture of a header that is sound fits its report. -/
theorem Frame.Ok.info {f : Frame} (h : f.Ok) :
    f.info.width.toNat = f.width ∧ f.info.height.toNat = f.height := by
  obtain ⟨hh1, hh2, hw1, hw2⟩ := h
  simp only [Frame.info, Nat.toUInt32_eq, UInt32.toNat_ofNat']
  omega

theorem frame_ok (h : ∀ s ∈ segs, s.Ok) {f : Frame}
    (hf : f ∈ frames segs) : f.Ok := by
  obtain ⟨s, hs, heq⟩ := List.mem_filterMap.mp hf
  cases s with
  | sof0 g =>
    obtain rfl := Option.some.inj heq
    exact (h _ hs).2
  | dqt body | dht ts | app0 tail => cases heq

/-- The report on a header of the grammar is that of its one frame. -/
theorem admitInfo_of_header {h : Header} (hok : h.Ok)
    (hb : h.bytes <+: octets m n) :
    ∃ f info, frames h.segs = [f] ∧ (admitInfo n).value m = .ok info ∧
      info.width.toNat = f.width ∧ info.height.toNat = f.height ∧
      info.sub422 = f.sub422 := by
  obtain ⟨f, hf⟩ := List.length_eq_one_iff.mp hok.frame
  obtain ⟨hw, hh⟩ := (frame_ok hok.segs (f := f) (by simp [hf])).info
  exact ⟨f, f.info, hf, admitInfo_iff.mpr ⟨h, hok, hb, f, hf, rfl⟩, hw, hh, rfl⟩

/-- `iav_jpeg_admit_info` is exact: it reads no byte past the end, admits
the headers of the grammar and no others, and reports the frame of the
header it admits. -/
theorem jpeg_admit_exact (m : Mem) (n : Nat) : (∀ r ∈ (admitInfo n).reads m, r.lo + r.len ≤ n) ∧
    ((∃ info, (admitInfo n).value m = .ok info) ↔ ∃ h : Header, h.Ok ∧ h.bytes <+: octets m n) ∧
    (∀ h : Header, h.Ok → h.bytes <+: octets m n →
      ∃ f info, frames h.segs = [f] ∧ (admitInfo n).value m = .ok info ∧
        info.width.toNat = f.width ∧ info.height.toNat = f.height ∧
        info.sub422 = f.sub422) := by
  refine ⟨reach_le_iff.mp reach_admitInfo_le, ?_, ?_⟩
  · constructor
    · intro h
      obtain ⟨info, h⟩ := h
      obtain ⟨hd, hok, hb, -⟩ := admitInfo_iff.mp h
      exact ⟨hd, hok, hb⟩
    · intro h
      obtain ⟨hd, hok, hb⟩ := h
      obtain ⟨-, info, -, hval, -⟩ := admitInfo_of_header hok hb
      exact ⟨info, hval⟩
  · intro hd hok hb
    exact admitInfo_of_header hok hb

theorem admitInfo_mono {k : Nat} (hk : k ≤ n) (h : (admitInfo k).value m = .ok info) :
    (admitInfo n).value m = .ok info := by
  obtain ⟨hd, hok, hb, hf⟩ := admitInfo_iff.mp h
  rw [prefix_octets] at hb
  exact admitInfo_iff.mpr ⟨hd, hok, prefix_octets.mpr ⟨hb.1.trans hk, hb.2⟩, hf⟩

/-- A stream of bytes is admitted at no length, or from one length on and
with one picture: what comes after the header does not matter. -/
theorem admit_threshold (m : Mem) : (∀ n info, (admitInfo n).value m ≠ .ok info) ∨
    ∃ k info, ∀ n i, (admitInfo n).value m = .ok i ↔ k ≤ n ∧ i = info := by
  classical
  by_cases h : ∃ n info, (admitInfo n).value m = .ok info
  · obtain ⟨info, hinfo⟩ := Nat.find_spec h
    refine .inr ⟨Nat.find h, info, fun n i => ⟨fun hi => ?_, ?_⟩⟩
    · -- the shortest admitted length decides the picture
      have hle := Nat.find_min' h ⟨i, hi⟩
      exact ⟨hle, Except.ok.inj (hi.symm.trans (admitInfo_mono hle hinfo))⟩
    · rintro ⟨hle, rfl⟩
      exact admitInfo_mono hle hinfo
  · exact .inl fun n info hi => h ⟨n, info, hi⟩

end AmbaVirt.Jpeg
