import Mathlib.Data.List.Basic

/-!
# Joining processes before their queue is read

A parent starts processes, joins them one after another, and only then reads the queue they
put their results on. A process does not exit before all it put is in the queue's pipe, and
the pipe takes only so much while nobody reads. So a join may never return, and the call it
is made in then neither returns nor raises.
-/

namespace Steve.Library

/-- How a call ends. -/
inductive CallOutcome (E A : Type*)
  | ok (value : A)
  | error (raised : E)
  /-- it never ends -/
  | blocked

/-- The outcome of a call that ends. -/
def CallOutcome.ofExcept {E A : Type*} : Except E A → CallOutcome E A
  | .ok value => .ok value
  | .error raised => .error raised

/-- Where a call returns an expected value under a condition, and without it does not return, it
returns exactly under the condition, and nothing but expected values. -/
theorem CallOutcome.returns_iff {E A : Type*} {outcome : CallOutcome E A} {condition : Prop}
    {expected : A → Prop} (hreturns : condition → ∃ value, outcome = .ok value ∧ expected value)
    (hfails : ¬ condition → ∀ value, outcome ≠ .ok value) :
    ((∃ value, outcome = .ok value) ↔ condition) ∧
      ∀ value, outcome = .ok value → expected value := by
  by_cases hcondition : condition
  · obtain ⟨returned, houtcome, hexpected⟩ := hreturns hcondition
    refine ⟨iff_of_true ⟨returned, houtcome⟩ hcondition, ?_⟩
    intro value hvalue
    have hsame : returned = value := CallOutcome.ok.inj (houtcome.symm.trans hvalue)
    exact hsame ▸ hexpected
  · have hnone := hfails hcondition
    refine ⟨iff_of_false ?_ hcondition, ?_⟩
    · intro h
      obtain ⟨value, hvalue⟩ := h
      exact hnone value hvalue
    · intro value hvalue
      exact absurd hvalue (hnone value)

section Joins

variable {P : Type*} (exits : ℕ → Bool)

/-- Join processes in turn, from a position on: those joined, and whether the loop ends. -/
def joinEach : ℕ → List P → List P × Bool
  | _, [] => ([], true)
  | i, process :: rest =>
    if exits i then
      let (joined, done) := joinEach (i + 1) rest
      (process :: joined, done)
    else ([], false)

/-- The loop joins processes that all exit. -/
theorem joinEach_of_exits (processes : List P) (i : ℕ)
    (h : ∀ j < processes.length, exits (i + j) = true) :
    joinEach exits i processes = (processes, true) := by
  induction processes generalizing i with
  | nil => rfl
  | cons process rest ih =>
    have hfirst : exits i = true := h 0 (Nat.zero_lt_succ _)
    have hrest : ∀ j < rest.length, exits (i + 1 + j) = true := by
      intro j hj
      rw [Nat.add_assoc, Nat.add_comm 1 j]
      exact h (j + 1) (Nat.succ_lt_succ hj)
    rw [joinEach, if_pos hfirst, ih (i + 1) hrest]

/-- The loop ends exactly when every process exits. -/
theorem joinEach_done_iff (processes : List P) (i : ℕ) :
    (joinEach exits i processes).2 = true ↔ ∀ j < processes.length, exits (i + j) = true := by
  constructor
  · intro h
    induction processes generalizing i with
    | nil =>
      intro j hj
      exact absurd hj (Nat.not_lt_zero j)
    | cons process rest ih =>
      rw [joinEach] at h
      split at h
      · rename_i hfirst
        intro j hj
        cases j with
        | zero => exact hfirst
        | succ j =>
          have hnext := ih (i + 1) h j (Nat.lt_of_succ_lt_succ hj)
          rwa [Nat.add_assoc, Nat.add_comm 1 j] at hnext
      · cases h
  · intro h
    rw [joinEach_of_exits exits processes i h]

end Joins

end Steve.Library
