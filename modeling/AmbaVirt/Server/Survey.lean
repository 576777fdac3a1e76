/-
Where tenants and pools lie in the window, over every run.

The server serves slices only while the geometry it computes for the
window is the one the kernel enumerates. A tenant outlives that check,
but the descriptors never change, so what the check once found stays true
of them, and the size of the window the server works with is their sum
from then on. So every tenant's slice ends in the window, and every pool
is as large as a slice (`tenant_within`, `pool_within`).
-/
import AmbaVirt.Server.Moves

namespace AmbaVirt.Server

open Lib Kernel Cavalry Pool

variable {n : Nat} {s s' : State n} {cid : UInt32}

-- ==== the survey

/-- The kernel's slices are those a window of `windowBytes` is cut into,
wherever it is. -/
def State.Surveyed (s : State n) : Prop :=
  ∃ phys, computeGeometry phys s.windowBytes 4096
    s.host.enumSlices.length.toUInt32 = some s.host.enumSlices

theorem Host.enumSlices_congr {h h' : Host n}
    (hdesc : ∀ i, h'.desc i = h.desc i) : h'.enumSlices = h.enumSlices := by
  unfold Host.enumSlices
  rw [funext hdesc]

theorem State.Surveyed.congr (h : s.Surveyed) (hdesc : ∀ i, s'.host.desc i = s.host.desc i)
    (hbytes : s'.windowBytes = s.windowBytes) : s'.Surveyed := by
  unfold State.Surveyed
  rw [Host.enumSlices_congr hdesc, hbytes]
  exact h

theorem State.Surveyed.slices (h : s.Surveyed) : s.windowBytes ≠ 0 ∧ ∃ usable : UInt32, ∀ i,
      (s.host.desc i).usableSize = usable ∧
      (s.host.desc i).offset.toNat + usable.toNat ≤ s.windowBytes.toNat := by
  obtain ⟨phys, hgeom⟩ := h
  obtain ⟨hne, usable, hall⟩ := computeGeometry_placed hgeom
  refine ⟨hne, usable, fun i => ?_⟩
  have hmem : s.host.desc i ∈ s.host.enumSlices :=
    List.mem_ofFn.mpr ⟨i, rfl⟩
  obtain ⟨husable, hle, hend, -⟩ := hall _ hmem
  exact ⟨husable, by omega⟩

/-- What the geometry check leaves: the sum of the slices as the size of
the window, if it got that far, and a survey if it matched. -/
theorem checkGeometry_surveys (s : State n) : (s.checkGeometry.windowBytes = s.windowBytes ∨
      State.sumSlices s.host.enumSlices = some s.checkGeometry.windowBytes) ∧
    (s.checkGeometry.geometryMatched = true → s.checkGeometry.Surveyed) := by
  unfold State.checkGeometry
  dsimp only
  split
  · exact ⟨.inl rfl, nofun⟩
  split
  · exact ⟨.inl rfl, nofun⟩
  case h_2 sum hsum =>
  split
  · exact ⟨.inr hsum, nofun⟩
  case h_2 computed hgeom =>
  split
  case isTrue heq =>
    refine ⟨.inr hsum, fun _ => ⟨s.infoShmPhys, ?_⟩⟩
    rw [heq] at hgeom
    exact hgeom
  case isFalse => exact ⟨.inr hsum, nofun⟩

-- ==== the frame

/-- What has been surveyed: everything that is served. -/
structure State.Framed (s : State n) : Prop where
  summed : s.windowBytes = 0 ∨ State.sumSlices s.host.enumSlices = some s.windowBytes
  matched : s.geometryMatched = true → s.Surveyed
  tenants : ∀ ⦃i t⦄, s.proxy.tenants i = some t → s.Surveyed ∧ ∃ j, t.On (s.host.desc j)
  pools : ∀ ⦃i p⦄, s.pools.tenants i = some p →
    s.Surveyed ∧ ∃ j, p.barSize = (s.host.desc j).usableSize

theorem State.Framed.fresh (h : s.Fresh) : s.Framed where
  summed := .inl h.bytes
  matched hm := by
    rw [h.matched] at hm
    cases hm
  tenants i t ht := by
    rw [h.tenants i] at ht
    cases ht
  pools i p hp := by
    rw [h.pools] at hp
    cases hp

/-- A survey survives the next one: the window's size is the sum of the
same slices. -/
theorem State.Framed.surveyed_checkGeometry (h : s.Framed)
    (hs : s.Surveyed) : s.checkGeometry.Surveyed := by
  obtain ⟨hhost, -, -⟩ := checkGeometry_tables s
  obtain ⟨hne, -⟩ := hs.slices
  refine hs.congr (fun i => by rw [hhost]) ?_
  rcases (checkGeometry_surveys s).1 with hsame | hsum
  · exact hsame
  · rcases h.summed with h0 | hsum'
    · exact absurd h0 hne
    · exact Option.some.inj (hsum.symm.trans hsum')

theorem State.Framed.checkGeometry (h : s.Framed) : s.checkGeometry.Framed := by
  obtain ⟨hhost, hdaemon, hpools⟩ := checkGeometry_tables s
  obtain ⟨hbytes, hmatched⟩ := checkGeometry_surveys s
  refine ⟨?_, hmatched, ?_, ?_⟩
  · rw [hhost]
    rcases hbytes with hsame | hsum
    · rw [hsame]
      exact h.summed
    · exact .inr hsum
  · intro i t ht
    unfold State.proxy at ht
    rw [hdaemon] at ht
    obtain ⟨hs, j, hon⟩ := h.tenants ht
    exact ⟨h.surveyed_checkGeometry hs, j, by rw [hhost]; exact hon⟩
  · intro i p hp
    rw [hpools] at hp
    obtain ⟨hs, j, hbar⟩ := h.pools hp
    exact ⟨h.surveyed_checkGeometry hs, j, by rw [hhost]; exact hbar⟩

/-- New pools, whose sizes are those of before or a slice's. -/
theorem State.Framed.setPools (h : s.Framed) {pools : Pools}
    (hpools : ∀ i p', pools.tenants i = some p' →
      (∃ p, s.pools.tenants i = some p ∧ p'.barSize = p.barSize) ∨
        s.Surveyed ∧ ∃ j, p'.barSize = (s.host.desc j).usableSize) :
    ({ s with pools } : State n).Framed := by
  refine ⟨h.summed, h.matched, h.tenants, ?_⟩
  intro i p' hp'
  rcases hpools i p' hp' with ⟨p, hp, hbar⟩ | hnew
  · obtain ⟨hs, j, hj⟩ := h.pools hp
    exact ⟨hs, j, hbar.trans hj⟩
  · exact hnew

theorem State.Framed.move (h : s.Framed) (hm : s.Move s') : s'.Framed := by
  cases hm with
  | keep hdesc hmatched hbytes htenants hpools =>
    refine ⟨?_, ?_, ?_, ?_⟩
    · rw [hbytes, Host.enumSlices_congr hdesc]
      exact h.summed
    · intro hm
      rw [hmatched] at hm
      exact (h.matched hm).congr hdesc hbytes
    · intro i t' ht'
      obtain ⟨t, ht, hsame⟩ := htenants i t' ht'
      obtain ⟨hs, j, hon⟩ := h.tenants ht
      refine ⟨hs.congr hdesc hbytes, j, ?_⟩
      rw [hdesc]
      exact hon.of_same hsame
    · intro i p hp
      rw [hpools] at hp
      obtain ⟨hs, j, hbar⟩ := h.pools hp
      exact ⟨hs.congr hdesc hbytes, j, by rw [hdesc]; exact hbar⟩
  | @call op pools hquiet hstep =>
    have hnone : op.bar = none := by
      cases op with
      | register => cases hquiet
      | _ => rfl
    apply h.setPools
    intro i p' hp'
    rcases hstep.bars (by rw [hnone]; nofun) hp' with hold | hnew
    · exact .inl hold
    · rw [hnone] at hnew
      cases hnew
  | @tenant p i idx t hmatched hon hplaced =>
    refine ⟨h.summed, h.matched, ?_, h.pools⟩
    intro j u hu
    replace hu : p.tenants j = some u := hu
    rw [hplaced] at hu
    rcases placeTenant_cases hu with ⟨-, rfl⟩ | ⟨-, hu, -⟩
    · exact ⟨h.matched hmatched, i, hon⟩
    · exact h.tenants hu
  | pool cid i hmatched husable =>
    apply h.setPools
    intro j p' hp'
    have hstep := Pools.Step.register (s := s.pools) cid
      (s.host.desc i).index (s.host.desc i).usableSize
      (s.host.desc i).usableSize
    rcases hstep.bars (fun h0 => husable (Option.some.inj h0)) hp' with
      hold | hnew
    · exact .inl hold
    · exact .inr ⟨h.matched hmatched, i, (Option.some.inj hnew).symm⟩
  | survey => exact h.checkGeometry
  | start bar =>
    refine ⟨h.summed, h.matched, h.tenants, ?_⟩
    intro i p hp
    cases hp

theorem framed_reachable {t : Net n} (h : (serverSystem n).Reachable t) : t.server.Framed :=
  moves_induct (fun _ => State.Framed.fresh) (fun _ _ hm hf => hf.move hm) h

-- ==== in the window

theorem State.Surveyed.activeWindowBytes (h : s.Surveyed) :
    s.activeWindowBytes = s.windowBytes := by
  unfold State.activeWindowBytes
  rw [if_pos h.slices.1]

theorem State.Framed.tenant_within (h : s.Framed) {t : Tenant}
    (ht : s.proxy.getTenant cid = some t) :
    t.sliceOffset.toNat + t.shmSize.toNat ≤ s.activeWindowBytes.toNat := by
  obtain ⟨-, i, hi⟩ := Proxy.getTenant_mem ht
  obtain ⟨hs, j, hon⟩ := h.tenants hi
  obtain ⟨-, usable, hall⟩ := hs.slices
  obtain ⟨husable, hend⟩ := hall j
  rw [hs.activeWindowBytes, hon.offset, hon.size, husable, UInt32.toNat_toUInt64]
  exact hend

theorem State.Framed.pool_size (h : s.Framed) {t : Tenant}
    (ht : s.proxy.getTenant cid = some t) {i : Fin 8} {p : TenantPool}
    (hp : s.pools.tenants i = some p) : p.barSize.toNat = t.shmSize.toNat := by
  obtain ⟨-, k, hk⟩ := Proxy.getTenant_mem ht
  obtain ⟨hs, j, hon⟩ := h.tenants hk
  obtain ⟨-, l, hbar⟩ := h.pools hp
  obtain ⟨-, usable, hall⟩ := hs.slices
  rw [hbar, hon.size, (hall l).1, (hall j).1, UInt32.toNat_toUInt64]

end AmbaVirt.Server
