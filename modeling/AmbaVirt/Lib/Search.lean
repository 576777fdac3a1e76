/-
Loops over candidates: the first that fits, and all there is room for.

First-fit search tries a candidate, and where something is in the way
goes on with the candidate the obstacle yields. It is a `while` loop and
need not end, so it is written with fuel: `none` is a search that has not
ended yet. `Found` is what holds of the candidate a search ends with. A
search whose jumps (`Jump`) go up, or else back to one place, ends unless
it comes to that place and from there to it again (`searchEnds_iff`).

Gathering appends what it finds to a bounded buffer, and skips what
there is no room for. Where the room is never short it is a `filterMap`
(`gather_eq`).
-/
import Mathlib

namespace Lib

/-- `while (fits c) { if (hit c yields c') c = c'; else break; }`: the
candidate the loop breaks at, or `some none` when none fits. -/
def firstFit {α : Type*} (fits : α → Prop) [DecidablePred fits]
    (hit : α → Option α) : Nat → α → Option (Option α)
  | 0, _ => none
  | fuel + 1, c =>
    if fits c then
      match hit c with
      | some c' => firstFit fits hit fuel c'
      | none => some (some c)
    else some none

section

variable {α : Type*} {fits : α → Prop} [DecidablePred fits] {hit : α → Option α}

/-- The candidate fits, nothing is in its way, and it is the first one or
came from an obstacle. -/
structure Found (fits : α → Prop) (hit : α → Option α) (start c : α) :
    Prop where
  fits : fits c
  free : hit c = none
  origin : c = start ∨ ∃ c', hit c' = some c

variable {fuel : Nat} {start c : α}

theorem firstFit_found (h : firstFit fits hit fuel start = some (some c)) :
    Found fits hit start c := by
  induction fuel generalizing start with
  | zero => cases h
  | succ fuel ih =>
    rw [firstFit] at h
    split at h
    · rename_i hfits
      cases hh : hit start with
      | none =>
        rw [hh] at h
        cases h
        exact ⟨hfits, hh, .inl rfl⟩
      | some c' =>
        rw [hh] at h
        obtain ⟨hf, hn, horig⟩ := ih h
        refine ⟨hf, hn, .inr ?_⟩
        rcases horig with rfl | horig
        · exact ⟨start, hh⟩
        · exact horig
    · cases h

-- ---- when it ends

/-- One turn of the loop: something is in the way at `c`, and the search
goes on at `c'`. -/
def Jump (fits : α → Prop) (hit : α → Option α) (c c' : α) : Prop :=
  fits c ∧ hit c = some c'

/-- With enough fuel the search has a result. -/
def SearchEnds (fits : α → Prop) [DecidablePred fits] (hit : α → Option α) (start : α) : Prop :=
  ∃ fuel, (firstFit fits hit fuel start).isSome

open Relation

variable {c' : α}

theorem firstFit_jump (h : Jump fits hit c c') (fuel : Nat) :
    firstFit fits hit (fuel + 1) c = firstFit fits hit fuel c' := by
  rw [firstFit, if_pos h.1, h.2]

theorem SearchEnds.of_jump (h : Jump fits hit c c')
    (hend : SearchEnds fits hit c') : SearchEnds fits hit c := by
  obtain ⟨fuel, hfuel⟩ := hend
  exact ⟨fuel + 1, by rwa [firstFit_jump h]⟩

theorem SearchEnds.jump (hend : SearchEnds fits hit c) (h : Jump fits hit c c') :
    SearchEnds fits hit c' := by
  obtain ⟨fuel, hfuel⟩ := hend
  cases fuel with
  | zero => cases hfuel
  | succ fuel => exact ⟨fuel, by rwa [← firstFit_jump h]⟩

theorem searchEnds_congr (h : ReflTransGen (Jump fits hit) c c') :
    SearchEnds fits hit c ↔ SearchEnds fits hit c' := by
  induction h with
  | refl => rfl
  | tail _ hjump ih => exact ih.trans ⟨(·.jump hjump), .of_jump hjump⟩

/-- A candidate that comes back to itself is visited for ever. -/
theorem firstFit_cycle (h : TransGen (Jump fits hit) c c) (fuel : Nat) :
    firstFit fits hit fuel c = none := by
  induction fuel generalizing c with
  | zero => rfl
  | succ fuel ih =>
    obtain ⟨c', hjump, hback⟩ := TransGen.head'_iff.mp h
    rw [firstFit_jump hjump]
    exact ih (TransGen.tail' hback hjump)

theorem not_searchEnds_of_cycle (h : TransGen (Jump fits hit) c c) : ¬ SearchEnds fits hit c := by
  rintro ⟨fuel, hfuel⟩
  rw [firstFit_cycle h] at hfuel
  cases hfuel

/-- While the jumps only go up, the search ends. -/
theorem searchEnds_of_up {m : α → Nat} {bound : Nat} (hm : ∀ c, m c < bound)
    (hup : ∀ c c', ReflTransGen (Jump fits hit) start c →
      Jump fits hit c c' → m c < m c') : SearchEnds fits hit start := by
  -- what is left below the bound shrinks with every jump
  induction hk : bound - m start using Nat.strong_induction_on generalizing start with
  | _ k ih =>
    by_cases hfits : fits start
    · cases hh : hit start with
      | none => exact ⟨1, by rw [firstFit, if_pos hfits, hh]; rfl⟩
      | some c' =>
        have hjump : Jump fits hit start c' := ⟨hfits, hh⟩
        have hlt := hup start c' .refl hjump
        have hbound := hm c'
        refine .of_jump hjump (ih _ (by omega) ?_ rfl)
        intro c c'' hreach
        exact hup c c'' (hreach.head hjump)
    · exact ⟨1, by rw [firstFit, if_neg hfits]; rfl⟩

/-- A search whose jumps go up, or back to `o`, ends exactly if it does
not come to `o` and from there to `o` again. -/
theorem searchEnds_iff {m : α → Nat} {bound : Nat} (hm : ∀ c, m c < bound)
    {o : α} (hjump : ∀ c c', Jump fits hit c c' → m c < m c' ∨ c' = o)
    (start : α) :
    SearchEnds fits hit start ↔ ¬ (ReflTransGen (Jump fits hit) start o ∧
        TransGen (Jump fits hit) o o) := by
  -- from where `o` is not reached again every jump goes up
  have hup : ∀ c, ¬ TransGen (Jump fits hit) c o → SearchEnds fits hit c := by
    intro c hno
    refine searchEnds_of_up hm fun d d' hd hdd' => ?_
    rcases hjump d d' hdd' with hlt | rfl
    · exact hlt
    · exact absurd (TransGen.tail' hd hdd') hno
  constructor
  · intro hend hcycle
    obtain ⟨hreach, hcycle⟩ := hcycle
    exact not_searchEnds_of_cycle hcycle ((searchEnds_congr hreach).mp hend)
  intro hno
  by_cases hreach : ReflTransGen (Jump fits hit) start o
  · exact (searchEnds_congr hreach).mpr (hup o fun h => hno ⟨hreach, h⟩)
  · exact hup start fun h => hreach h.to_reflTransGen

end

-- ==== gathering

/-- `for (a in l) if (f a is some b && room(n)) out[n++] = b;`. -/
def gather {α β : Type*} (room : Nat → Prop) [DecidablePred room]
    (f : α → Option β) (l : List α) : List β :=
  l.foldl (fun acc a =>
    match f a with
    | some b => if room acc.length then acc ++ [b] else acc
    | none => acc) []

theorem gather_eq {α β : Type*} {room : Nat → Prop} [DecidablePred room]
    {f : α → Option β} {l : List α} (h : ∀ n < l.length, room n) :
    gather room f l = l.filterMap f := by
  have hacc : ∀ (l : List α) (acc : List β), (∀ n < acc.length + l.length, room n) →
      l.foldl (fun acc a =>
        match f a with
        | some b => if room acc.length then acc ++ [b] else acc
        | none => acc) acc = acc ++ l.filterMap f := by
    intro l
    induction l with
    | nil =>
      intro acc _
      simp
    | cons a l ih =>
      intro acc hroom
      rw [List.length_cons] at hroom
      rw [List.foldl_cons, List.filterMap_cons]
      cases f a with
      | none => exact ih acc fun n hn => hroom n (by omega)
      | some b =>
        dsimp only
        rw [if_pos (hroom acc.length (by omega)), ih]
        · simp
        · intro n hn
          rw [List.length_append, List.length_singleton] at hn
          exact hroom n (by omega)
  have := hacc l [] (by simpa using h)
  simpa [gather] using this

end Lib
