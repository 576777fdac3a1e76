/-
What the ioctls of the guest's Cavalry driver (amba_cavalry_hvm.c) write
to the RPC arena.

Each of the three computes its own limit. RUN_DAGS and REGISTER_DAG take
an arena of size 0 for one of the default size; REGISTER_DAG subtracts
the size of its descriptor from a smaller arena in 64 bits and is left
without a limit; RUN_REGISTERED_DAG has none. An arena is safe from all
three if and only if its largest descriptor fits (`arena_writes_iff`).
-/
import AmbaVirt.Cavalry.Run
import AmbaVirt.Lib.Span

namespace AmbaVirt.Guest

open Lib Cavalry

/-- What `amba_cavalry_negotiate_bounds` leaves of the arena:
`rpc_arena_offset` and `rpc_arena_size`. -/
structure Arena where
  off : UInt32
  size : UInt32
  deriving DecidableEq

/-- The ioctls that write to the arena, each with what it checks of its
argument. -/
inductive ArenaCall
  | runDags (dagCnt : UInt32)
  | registerDag (runDagsBytes : UInt32)
  | runRegisteredDag (portCnt : UInt32)
  deriving DecidableEq

namespace Arena

/-- `arena_sz`. -/
def sz (a : Arena) : UInt64 :=
  (if a.size ≠ 0 then a.size else CAVALRY_RPC_ARENA_SIZE).toUInt64

/-- The ranges of the BAR a call writes, where it does not fail before. -/
def writes (a : Arena) : ArenaCall → Except Errno (List Span)
  | .runDags dagCnt => do
    refuseIf (dagCnt = 0 ∨ dagCnt > 128) .EINVAL
    let reqSize := runDagsSize + dagCnt.toUInt64 * dagDescSize.toUInt64
    refuseIf (reqSize > a.sz) .EMSGSIZE
    return [⟨a.off.toNat, reqSize.toNat⟩]
  | .registerDag bytes => do
    refuseIf (bytes = 0 ∨ bytes.toUInt64 > a.sz - regDescSize) .EINVAL
    return [⟨a.off.toNat, regDescSize.toNat⟩,
      ⟨a.off.toNat + regDescSize.toNat, bytes.toNat⟩]
  | .runRegisteredDag portCnt => do
    refuseIf (portCnt > CAVALRY_MAX_PORTS) .EINVAL
    return [⟨a.off.toNat, runRegDescSize.toNat⟩]

def span (a : Arena) : Span := ⟨a.off.toNat, a.size.toNat⟩

def Confines (a : Arena) (call : ArenaCall) : Prop :=
  ∀ l, a.writes call = .ok l → ∀ r ∈ l, r.Within a.span

end Arena

variable {a : Arena}

theorem sz_of_fits (h : runRegDescSize.toNat ≤ a.size.toNat) : a.sz.toNat = a.size.toNat := by
  have hne : a.size ≠ 0 := fun hz => absurd (hz ▸ h) (by decide)
  rw [Arena.sz, if_pos hne, UInt32.toNat_toUInt64]

/-- Arena writes, where they are confined: to an arena that has room for
the descriptor of RUN_REGISTERED_DAG, and to no other. -/
theorem arena_writes_iff (a : Arena) :
    (∀ call, a.Confines call) ↔ runRegDescSize.toNat ≤ a.size.toNat := by
  constructor
  · intro h
    have hin := h (.runRegisteredDag 0) _ rfl _ (List.mem_singleton_self _)
    exact Nat.le_of_add_le_add_left hin.2
  intro hfits call l hl r hr
  have hsz := sz_of_fits hfits
  have hreg : regDescSize.toNat ≤ runRegDescSize.toNat := by decide
  cases call with
  | runDags dagCnt =>
    simp only [Arena.writes, guards, pure_ok] at hl
    obtain ⟨-, hle, rfl⟩ := hl
    rw [gt_iff_lt, UInt64.not_lt, UInt64.le_iff_toNat_le, hsz] at hle
    obtain rfl := List.mem_singleton.mp hr
    exact ⟨le_rfl, Nat.add_le_add_left hle _⟩
  | registerDag bytes =>
    simp only [Arena.writes, guards, pure_ok, not_or] at hl
    obtain ⟨⟨-, hle⟩, rfl⟩ := hl
    rw [gt_iff_lt, UInt64.not_lt, UInt64.le_iff_toNat_le, UInt64.toNat_sub_of_le _ _
      (UInt64.le_iff_toNat_le.mpr (by omega)), UInt32.toNat_toUInt64, hsz] at hle
    rcases List.mem_pair.mp hr with rfl | rfl
    · exact ⟨le_rfl, Nat.add_le_add_left (hreg.trans hfits) _⟩
    · refine ⟨Nat.le_add_right _ _, ?_⟩
      dsimp only [Arena.span]
      omega
  | runRegisteredDag portCnt =>
    simp only [Arena.writes, guards, pure_ok] at hl
    obtain ⟨-, rfl⟩ := hl
    obtain rfl := List.mem_singleton.mp hr
    exact ⟨le_rfl, Nat.add_le_add_left hfits _⟩

/-- An empty arena, and one of 32 bytes: in neither is there room for
what the calls write. -/
theorem arena_spills : ¬ (⟨0x1F00000, 0⟩ : Arena).Confines (.runDags 1) ∧
    ¬ (⟨0x1F00000, 32⟩ : Arena).Confines (.registerDag 0x10000) ∧
    ¬ (⟨0x1F00000, 32⟩ : Arena).Confines (.runRegisteredDag 0) := by
  have hout {a : Arena} {call r l} (hw : a.writes call = .ok (r :: l)) (hr : ¬ r.Within a.span) :
      ¬ a.Confines call := fun h => hr (h _ hw r List.mem_cons_self)
  exact ⟨hout rfl (by decide), hout rfl (by decide), hout rfl (by decide)⟩

end AmbaVirt.Guest
