import Mathlib.Data.Int.Notation
import Steve.Library.XorPattern

/-!
# Submission and completion rings

The `liburing` interface as it is documented, which the `io_uring` adapter is written against.
A prepared request waits in the submission ring; a submission hands all prepared requests to
the kernel, or returns a negative code and leaves them prepared; every submitted request
completes once, in order; and a completion stays the oldest one until it is marked as seen.
Requests are numbered in the order they are prepared.

The package that the adapter imports is not part of the repository. What these definitions say
of it is that its calls are those of the interface: that they take the buffers the adapter
passes, and give negative codes back to it.
-/

namespace Steve.Adapters

open Steve.Library

/-- What a request asks of the kernel. -/
inductive RingOperation
  | write (fd : ℕ) (view : List Byte) (offset : ℕ)
  | read (fd : ℕ) (view : List Byte) (offset : ℕ)
  deriving DecidableEq, Repr

/-- A request with its number and the result the kernel has for it. -/
structure RingRequest where
  ticket : ℕ
  operation : RingOperation
  userData : ℕ
  result : ℤ
  deriving DecidableEq, Repr

/-- The two rings: requests prepared but not submitted, and completions not marked seen. -/
structure Ring where
  nextTicket : ℕ
  prepared : List RingRequest
  completions : List RingRequest
  deriving DecidableEq, Repr

namespace Ring

/-- A ring as it is set up. -/
def empty : Ring := ⟨0, [], []⟩

/-- Fill a submission slot with the next request. -/
def prep (ring : Ring) (operation : RingOperation) (userData : ℕ) (result : ℤ) : Ring :=
  { ring with
    nextTicket := ring.nextTicket + 1
    prepared := ring.prepared ++ [⟨ring.nextTicket, operation, userData, result⟩] }

/-- Submit with the kernel answering `code`. -/
def submit (ring : Ring) (code : ℤ) : Ring :=
  if code < 0 then ring
  else { ring with prepared := [], completions := ring.completions ++ ring.prepared }

/-- The oldest completion not marked seen. -/
def waitCqe (ring : Ring) (pending : ring.completions ≠ []) : RingRequest :=
  ring.completions.head pending

/-- Mark the oldest completion as seen. -/
def cqeSeen (ring : Ring) : Ring := { ring with completions := ring.completions.tail }

/-- Nothing is left behind: no prepared request and no unseen completion. -/
structure Quiescent (ring : Ring) : Prop where
  prepared : ring.prepared = []
  completions : ring.completions = []

/-- After a submission that includes a new request, some completion is pending. -/
theorem submit_prep_pending (ring : Ring) (operation : RingOperation) (userData : ℕ) (result : ℤ)
    {code : ℤ} (hcode : ¬ code < 0) :
    ((ring.prep operation userData result).submit code).completions ≠ [] := by
  rw [submit, if_neg hcode]
  simp [prep]

/-- A submission of nothing changes nothing. -/
theorem Quiescent.submit {ring : Ring} (h : ring.Quiescent) (code : ℤ) :
    ring.submit code = ring := by
  cases ring with
  | mk nextTicket prepared completions =>
    obtain ⟨rfl, rfl⟩ := h
    rw [Ring.submit]
    split <;> rfl

/-- On a quiescent ring, a submitted request is the only completion. -/
theorem Quiescent.submit_prep {ring : Ring} (h : ring.Quiescent) (operation : RingOperation)
    (userData : ℕ) (result : ℤ) {code : ℤ} (hcode : ¬ code < 0) :
    (ring.prep operation userData result).submit code =
      ⟨ring.nextTicket + 1, [], [⟨ring.nextTicket, operation, userData, result⟩]⟩ := by
  rw [Ring.submit, if_neg hcode, prep, h.prepared, h.completions]
  rfl

end Ring

end Steve.Adapters
