/-
The IAV roles of tickets (virt_camera_policy.c): a table of lines, its
store, and the rule that says whether a ticket is primary.

A ticket without a line is a consumer, but for the default primary, which
is primary as long as no line makes another ticket so. `set_role` drops
every other primary line before it writes one, and a store with two of
them is not loaded; so in every state at most one line is primary
(`Sound`), and with the rule at most one ticket (`primary_unique`).
-/
import AmbaVirt.Lease.Table
import AmbaVirt.Lib.Count

namespace AmbaVirt.Lease

open Lib Function

def VIRT_CAMERA_STORE_MAX_BYTES : Nat := 4096

/-- `VIRT_IAV_DEFAULT_PRIMARY`. -/
def VIRT_IAV_DEFAULT_PRIMARY : Text := "amba_shm0".toList

/-- `enum virt_iav_role`. -/
inductive Role
  | consumer | primary
  deriving DecidableEq

/-- `virt_iav_role_name`. -/
def Role.name : Role → Text
  | .primary => "primary".toList
  | .consumer => "consumer".toList

/-- `struct role_line` of a line in use. -/
structure RoleLine where
  ticket : Text
  role : Role
  deriving DecidableEq

/-- `ROLES_*`. -/
inductive RolesState
  | missing | valid | invalid
  deriving DecidableEq

/-- `g_roles`. -/
abbrev RoleTable := Fin 64 → Option RoleLine

/-- The table, what it is worth, and the store, if there is a file. -/
structure Roles where
  lines : RoleTable := fun _ => none
  state : RolesState := .missing
  store : Option Text := none

-- ==== the rule

/-- `role_find`. -/
def roleFind (t : RoleTable) (ticket : Text) : Option (Fin 64) :=
  Fin.find? fun k => (t k).any (·.ticket == ticket)

/-- `role_primary_line_locked`. -/
def HasPrimary (t : RoleTable) : Prop := ∃ k, ∃ l ∈ t k, l.role = .primary
  deriving Decidable

/-- `role_of_locked`. -/
def Roles.roleOf (r : Roles) (ticket : Text) : Role :=
  if ticketOk ticket = false ∨ r.state = .invalid then .consumer
  else
    match (roleFind r.lines ticket).bind r.lines with
    | some l => l.role
    | none =>
      if HasPrimary r.lines then .consumer
      else if ticket = VIRT_IAV_DEFAULT_PRIMARY then .primary
      else .consumer

-- ==== the store

def linesFrom (cur : Text) : Text → List Text
  | [] => if cur = [] then [] else [cur.reverse]
  | c :: s =>
    if c = '\n' then cur.reverse :: linesFrom [] s else linesFrom (c :: cur) s

/-- `role_parse_line`. -/
def RoleLine.parse (line : Text) : Option RoleLine :=
  let ticket := line.takeWhile (· ≠ ' ')
  match line.dropWhile (· ≠ ' ') with
  | [] => none
  | _ :: role =>
    if ticketOk ticket = false ∨ ' ' ∈ role then none
    else if role = Role.primary.name then some ⟨ticket, .primary⟩
    else if role = Role.consumer.name then some ⟨ticket, .consumer⟩
    else none

/-- The lines of a store that parses: not too long, no ticket twice, and
at most one primary. -/
def parseRoles (text : Text) : Option (List RoleLine) := do
  let ls ← (linesFrom [] text).mapM RoleLine.parse
  if text.length ≤ VIRT_CAMERA_STORE_MAX_BYTES ∧ '\x00' ∉ text ∧
      ls.length ≤ 64 ∧ (ls.map RoleLine.ticket).Nodup ∧
      ls.countP (·.role = .primary) ≤ 1 then
    some ls
  else none

namespace Roles

/-- `virt_iav_role_load`; `readable` is whether the path can be opened, or
is known not to be there. -/
def load (r : Roles) (readable : Bool) : Roles :=
  match r.store with
  | none => { store := none, state := if readable then .missing else .invalid }
  | some text =>
    match if readable then parseRoles text else none with
    | none => { store := r.store, state := .invalid }
    | some ls =>
      { store := r.store, state := .valid, lines := fun k => ls[k.val]? }

/-- What `role_save_locked` writes. -/
def text (t : RoleTable) : Text :=
  (List.finRange 64).flatMap fun k =>
    match t k with
    | none => []
    | some l => l.ticket ++ ' ' :: l.role.name ++ ['\n']

/-- The end of `role_set`: the table is changed only if the store is
written, for which it must fit the buffer. -/
def commit (r : Roles) (t : RoleTable) (ok : Bool) : Roles × Except Refusal Unit :=
  if ok = true ∧ (text t).length < VIRT_CAMERA_STORE_MAX_BYTES then
    ({ lines := t, state := .valid, store := some (text t) }, .ok ())
  else (r, .error .persist)

/-- The table `role_set` works on: a corrupt store is repaired from
nothing. -/
def usable (r : Roles) : RoleTable :=
  if r.state = .invalid then fun _ => none else r.lines

/-- A new primary line takes every other one away. -/
def makeRoom (t : RoleTable) (ticket : Text) (role : Role) : RoleTable :=
  if role = .primary then
    fun k => (t k).filter fun l => l.role ≠ .primary ∨ l.ticket = ticket
  else t

/-- `role_set`; no role is "inherit". -/
def set (r : Roles) (ticket : Text) (what : Option Role) (ok : Bool) :
    Roles × Except Refusal Unit :=
  let found := roleFind r.usable ticket
  match what with
  | none =>
    match found with
    | none => r.commit r.usable ok
    | some k => r.commit (update r.usable k none) ok
  | some role =>
    let t := makeRoom r.usable ticket role
    match found.or (Fin.find? fun k => (t k).isNone) with
    | none => (r, .error .persist)
    | some k => r.commit (update t k (some ⟨ticket, role⟩)) ok

end Roles

def parseSetRole : List Text → Except Refusal (Text × Option Role)
  | [ticket, what] =>
    if ticketOk ticket = false then .error .inval
    else if what = "primary".toList then .ok (ticket, some .primary)
    else if what = "consumer".toList then .ok (ticket, some .consumer)
    else if what = "inherit".toList then .ok (ticket, none)
    else .error .inval
  | _ => .error .inval

/-- `virt_camera_policy_admin`, of which only SET_ROLE changes the
roles. -/
def Roles.command (r : Roles) (ok : Bool) (req : Text) : Roles :=
  match scanWords 63 4 req with
  | [] => r
  | cmd :: args =>
    if cmd = "SET_ROLE".toList then
      match parseSetRole args with
      | .error _ => r
      | .ok (ticket, what) => (r.set ticket what ok).1
    else r

-- ==== invariant

/-- Two lines that may not be in one table. -/
def Clash (l l' : RoleLine) : Prop :=
  l.ticket = l'.ticket ∨ (l.role = .primary ∧ l'.role = .primary)

variable {l : RoleLine}

theorem Clash.symm {l' : RoleLine} : Clash l l' → Clash l' l
  | .inl h => .inl h.symm
  | .inr h => .inr h.symm

/-- Every ticket has one line at most, and one line at most is primary. -/
def Sound (t : RoleTable) : Prop :=
  ∀ ⦃k k' l l'⦄, t k = some l → t k' = some l' → Clash l l' → k = k'

theorem sound_empty : Sound fun _ => none := by
  intro k k' l l' hl
  cases hl

variable {t : RoleTable}

theorem Sound.sub {t' : RoleTable} (h : Sound t)
    (hsub : ∀ k l, t' k = some l → t k = some l) : Sound t' :=
  fun _ _ _ _ hl hl' => h (hsub _ _ hl) (hsub _ _ hl')

variable {k : Fin 64}

/-- A line may be written where no other clashes with it. -/
theorem Sound.update (h : Sound t) {line : RoleLine}
    (hno : ∀ j l, j ≠ k → t j = some l → ¬ Clash line l) :
    Sound (update t k (some line)) := by
  intro i j l l' hl hl' hclash
  by_cases hi : i = k
  · by_cases hj : j = k
    · rw [hi, hj]
    · rw [hi, update_self, Option.some.injEq] at hl
      rw [update_of_ne hj] at hl'
      exact absurd (hl ▸ hclash) (hno j l' hj hl')
  · rw [update_of_ne hi] at hl
    by_cases hj : j = k
    · rw [hj, update_self, Option.some.injEq] at hl'
      exact absurd (hl' ▸ hclash.symm) (hno i l hi hl)
    · rw [update_of_ne hj] at hl'
      exact h hl hl' hclash

-- ---- the loaded

variable {ls : List RoleLine}

theorem parseRoles_some {text : Text} (h : parseRoles text = some ls) :
    (ls.map RoleLine.ticket).Nodup ∧ ls.countP (·.role = .primary) ≤ 1 := by
  simp only [parseRoles, Option.bind_eq_bind, Option.bind_eq_some_iff,
    Option.ite_none_right_eq_some, Option.some.injEq] at h
  obtain ⟨ls', -, ⟨-, -, -, hdistinct, hone⟩, rfl⟩ := h
  exact ⟨hdistinct, hone⟩

theorem index_eq_of_ticket (h : (ls.map RoleLine.ticket).Nodup) {i j : Nat}
    {l' : RoleLine} (hl : ls[i]? = some l) (hl' : ls[j]? = some l')
    (ht : l.ticket = l'.ticket) :
    i = j := by
  refine (List.getElem?_inj (l := ls.map RoleLine.ticket) ?_ h).mp ?_
  · rw [List.length_map]
    exact (List.getElem?_eq_some_iff.mp hl).1
  · rw [List.getElem?_map, List.getElem?_map, hl, hl']
    exact congrArg some ht

theorem sound_loaded {text : Text} (h : parseRoles text = some ls) : Sound fun k => ls[k.val]? := by
  obtain ⟨hdistinct, hone⟩ := parseRoles_some h
  rintro k k' l l' hl hl' (hticket | ⟨hp, hp'⟩)
  · exact Fin.ext (index_eq_of_ticket hdistinct hl hl' hticket)
  · exact Fin.ext (index_eq_of_countP hone hl hl' (decide_eq_true hp) (decide_eq_true hp'))

-- ---- the set

theorem roleFind_some {ticket : Text} (h : roleFind t ticket = some k) :
    ∃ l, t k = some l ∧ l.ticket = ticket := by
  have hk := (Fin.find?_eq_some_iff.mp h).1
  simpa only [Option.any_eq_true, beq_iff_eq] using hk

theorem roleFind_none {ticket : Text} (h : roleFind t ticket = none)
    (hl : t k = some l) : l.ticket ≠ ticket := by
  intro ht
  have hk := Fin.find?_eq_none_iff.mp h k
  rw [hl] at hk
  simp [ht] at hk

namespace Roles

variable {r : Roles}

theorem sound_load (r : Roles) (readable : Bool) : Sound (r.load readable).lines := by
  unfold load
  split
  · exact sound_empty
  split
  · exact sound_empty
  case h_2 ls hls =>
  split at hls
  · exact sound_loaded hls
  · cases hls

theorem sound_commit (h : Sound r.lines) (ht : Sound t) (ok : Bool) :
    Sound (r.commit t ok).1.lines := by
  unfold commit
  split
  · exact ht
  · exact h

theorem sound_usable (h : Sound r.lines) : Sound r.usable := by
  unfold usable
  split
  · exact sound_empty
  · exact h

variable {ticket : Text} {role : Role}

theorem makeRoom_sub (h : makeRoom t ticket role k = some l) : t k = some l := by
  unfold makeRoom at h
  split at h
  · exact (Option.filter_eq_some_iff.mp h).1
  · exact h

/-- The primary lines left for a new one are those of its ticket. -/
theorem makeRoom_primary (h : makeRoom t ticket .primary k = some l)
    (hp : l.role = .primary) : l.ticket = ticket := by
  have hl := (Option.filter_eq_some_iff.mp h).2
  simpa [hp] using hl

/-- A line left by `makeRoom` that clashes with the new one is of its
ticket. -/
theorem ticket_of_clash (h : makeRoom t ticket role k = some l)
    (hclash : Clash ⟨ticket, role⟩ l) : l.ticket = ticket := by
  rcases hclash with hticket | ⟨hrole, hp⟩
  · exact hticket.symm
  · change role = .primary at hrole
    rw [hrole] at h
    exact makeRoom_primary h hp

/-- The line written is the ticket's own, or the ticket had none. -/
theorem sound_written (h : Sound t) (hk : ∀ j l, t j = some l → l.ticket = ticket → j = k) :
    Sound (update (makeRoom t ticket role) k (some ⟨ticket, role⟩)) := by
  refine (h.sub fun _ _ => makeRoom_sub).update ?_
  intro j l hj hl hclash
  exact hj (hk j l (makeRoom_sub hl) (ticket_of_clash hl hclash))

theorem sound_set (h : Sound r.lines) (ticket : Text) (what : Option Role)
    (ok : Bool) : Sound (r.set ticket what ok).1.lines := by
  have husable := sound_usable h
  cases what with
  | none =>
    unfold set
    dsimp only
    split
    · exact sound_commit h husable ok
    case h_2 k _ =>
    refine sound_commit h (husable.sub ?_) ok
    intro j l hl
    by_cases hj : j = k
    · rw [hj, update_self] at hl
      cases hl
    · rwa [update_of_ne hj] at hl
  | some role =>
    unfold set
    dsimp only
    split
    · exact h
    case h_2 k hk =>
    refine sound_commit h (sound_written husable ?_) ok
    intro j l hl hticket
    cases hfound : roleFind r.usable ticket with
    | none => exact absurd hticket (roleFind_none hfound hl)
    | some k' =>
      rw [hfound, Option.some_or, Option.some.injEq] at hk
      obtain ⟨l', hl', hticket'⟩ := roleFind_some hfound
      exact hk ▸ husable hl hl' (.inl (hticket.trans hticket'.symm))

theorem sound_command (h : Sound r.lines) (ok : Bool) (req : Text) :
    Sound (r.command ok req).lines := by
  unfold command
  split
  · exact h
  split
  · split
    · exact h
    · exact sound_set h _ _ ok
  · exact h

/-- A primary ticket has a primary line, or no line is primary and it is
the default. -/
theorem roleOf_primary (h : r.roleOf ticket = .primary) :
    (∃ k l, r.lines k = some l ∧ l.ticket = ticket ∧ l.role = .primary) ∨
      ¬ HasPrimary r.lines ∧ ticket = VIRT_IAV_DEFAULT_PRIMARY := by
  unfold roleOf at h
  split at h
  · cases h
  split at h
  case h_1 l hl =>
    obtain ⟨k, hk, hkl⟩ := Option.bind_eq_some_iff.mp hl
    obtain ⟨l', hl', hticket⟩ := roleFind_some hk
    obtain rfl : l = l' := by simpa [hkl] using hl'
    exact .inl ⟨k, l, hkl, hticket, h⟩
  · by_cases hany : HasPrimary r.lines
    · simp [hany] at h
    · by_cases hdefault : ticket = VIRT_IAV_DEFAULT_PRIMARY
      · exact .inr ⟨hany, hdefault⟩
      · simp [hany, hdefault] at h

theorem primary_unique (h : Sound r.lines) {ticket' : Text}
    (ht : r.roleOf ticket = .primary) (ht' : r.roleOf ticket' = .primary) :
    ticket = ticket' := by
  rcases roleOf_primary ht with ⟨k, l, hl, rfl, hp⟩ | ⟨hno, hdefault⟩
  · rcases roleOf_primary ht' with ⟨k', l', hl', rfl, hp'⟩ | ⟨hno, -⟩
    · obtain rfl := h hl hl' (.inr ⟨hp, hp'⟩)
      rw [hl, Option.some.injEq] at hl'
      rw [hl']
    · exact absurd ⟨k, l, hl, hp⟩ hno
  · rcases roleOf_primary ht' with ⟨k', l', hl', -, hp'⟩ | ⟨-, hdefault'⟩
    · exact absurd ⟨k', l', hl', hp'⟩ hno
    · rw [hdefault, hdefault']

end Roles

end AmbaVirt.Lease
