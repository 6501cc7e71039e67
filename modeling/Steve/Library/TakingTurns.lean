import Mathlib.Data.List.Flatten
import Mathlib.Data.List.Range

/-!
# Lists taken in turns

Several lists are taken from the front, one item at each turn, in whatever order the turns come;
what the turns leave is taken list after list. Every item is taken once.
-/

namespace Steve.Library

variable {A : Type*}

/-- The items in the order in which they are taken. -/
def takeTurns : List ℕ → List (List A) → List A
  | [], lists => lists.flatten
  | who :: turns, lists =>
    match lists[who]? with
    | some (item :: rest) => item :: takeTurns turns (lists.set who rest)
    | _ => takeTurns turns lists

/-- Taking the first item of one of the lists takes it out of them all. -/
theorem flatten_set_perm {lists : List (List A)} {who : ℕ} {item : A} {rest : List A}
    (h : lists[who]? = some (item :: rest)) :
    lists.flatten.Perm (item :: (lists.set who rest).flatten) := by
  induction lists generalizing who with
  | nil => cases h
  | cons first others ih =>
    cases who with
    | zero =>
      rw [List.getElem?_cons_zero, Option.some.injEq] at h
      rw [h, List.set_cons_zero, List.flatten_cons, List.flatten_cons, List.cons_append]
    | succ who =>
      rw [List.getElem?_cons_succ] at h
      rw [List.set_cons_succ, List.flatten_cons, List.flatten_cons]
      exact ((ih h).append_left first).trans List.perm_middle

/-- Whatever the turns, every item is taken once. -/
theorem takeTurns_perm (turns : List ℕ) (lists : List (List A)) :
    (takeTurns turns lists).Perm lists.flatten := by
  induction turns generalizing lists with
  | nil => exact List.Perm.refl _
  | cons who turns ih =>
    rw [takeTurns]
    split
    next item rest hnext => exact ((ih _).cons item).trans (flatten_set_perm hnext).symm
    next => exact ih lists

/-- Consecutive ranges of one length make one range. -/
theorem flatten_ranges (count size : ℕ) :
    ((List.range count).map fun i => List.range' (i * size) size).flatten =
      List.range (count * size) := by
  induction count with
  | zero => rw [Nat.zero_mul]; rfl
  | succ count ih =>
    rw [List.range_succ, List.map_append, List.flatten_append, ih, List.map_singleton,
      List.flatten_singleton, Nat.succ_mul, List.range_eq_range', List.range_eq_range']
    have hnext : List.range' 0 (count * size) ++ List.range' (0 + 1 * (count * size)) size =
        List.range' 0 (count * size + size) := List.range'_append
    rw [Nat.zero_add, Nat.one_mul] at hnext
    exact hnext

end Steve.Library
