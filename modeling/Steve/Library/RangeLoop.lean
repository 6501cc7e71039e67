import Mathlib.Data.Nat.Notation

/-!
# Loops over a range whose body may raise

`for i in range(count)` hands its body the numbers in turn; the first exception ends it. A
loop whose body never raises on the states it is given reaches its end, with whatever its
executions carry from one number to the next.
-/

namespace Steve.Library

variable {S E : Type*}

/-- Run the body for `count` numbers from `start` on, up to the first that raises. -/
def forRangeFrom (body : ℕ → S → Option E × S) : ℕ → ℕ → S → Option E × S
  | _, 0, state => (none, state)
  | start, count + 1, state =>
    match body start state with
    | (some raised, next) => (some raised, next)
    | (none, next) => forRangeFrom body (start + 1) count next

/-- `for i in range(count)`. -/
def forRange (body : ℕ → S → Option E × S) (count : ℕ) (state : S) : Option E × S :=
  forRangeFrom body 0 count state

/-- A loop whose body never raises ends with its invariant. -/
theorem forRangeFrom_spec {body : ℕ → S → Option E × S} {bound : ℕ} (Inv : ℕ → S → Prop)
    (hbody : ∀ i < bound, ∀ state, Inv i state →
      ∃ next, body i state = (none, next) ∧ Inv (i + 1) next) (start count : ℕ)
    (hbound : start + count ≤ bound) {state : S} (h : Inv start state) :
    ∃ final, forRangeFrom body start count state = (none, final) ∧ Inv (start + count) final := by
  induction count generalizing start state with
  | zero => exact ⟨state, rfl, h⟩
  | succ count ih =>
    obtain ⟨next, hnext, hinv⟩ := hbody start (by omega) state h
    obtain ⟨final, hfinal, hend⟩ := ih (start + 1) (by omega) hinv
    have hindex : start + 1 + count = start + (count + 1) := by omega
    rw [forRangeFrom, hnext]
    exact ⟨final, hfinal, hindex ▸ hend⟩

/-- A loop over a range whose body never raises ends with its invariant. -/
theorem forRange_spec {body : ℕ → S → Option E × S} {count : ℕ} (Inv : ℕ → S → Prop)
    (hbody : ∀ i < count, ∀ state, Inv i state →
      ∃ next, body i state = (none, next) ∧ Inv (i + 1) next) {state : S} (h : Inv 0 state) :
    ∃ final, forRange body count state = (none, final) ∧ Inv count final := by
  obtain ⟨final, hfinal, hend⟩ :=
    forRangeFrom_spec Inv hbody 0 count (Nat.le_of_eq (Nat.zero_add count)) h
  rw [Nat.zero_add] at hend
  exact ⟨final, hfinal, hend⟩

end Steve.Library
