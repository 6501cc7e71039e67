import Mathlib.Data.Set.Lattice
import Mathlib.Order.CompletePartialOrder
import Steve.Adapters.FileSemantics

/-!
# What a file holds after writes

A file is read byte by byte, with zeros past its end. A write puts its data into its own range
and leaves every other byte; so data once written stays in place as long as later writes keep
to ranges of their own.
-/

namespace Steve.Adapters

open Steve.Library

/-- The byte of a file at a position, zero past its end. -/
def byteAt (content : List Byte) (position : ℕ) : Byte := content.getD position 0

/-- The positions a transfer of some bytes from an offset on covers. -/
def byteRange (offset length : ℕ) : Set ℕ := Set.Ico offset (offset + length)

/-- A nonempty write makes a file reach to its end. -/
theorem writeAt_length {data : List Byte} (hdata : data ≠ []) (content : List Byte)
    (position : ℕ) :
    (writeAt content position data).length = max content.length (position + data.length) := by
  rw [writeAt, if_neg hdata]
  simp only [List.length_append, List.length_take, List.length_replicate, List.length_drop]
  omega

/-- A write shows its data in its own range and leaves every other byte. -/
theorem byteAt_writeAt (content : List Byte) (position : ℕ) (data : List Byte) (other : ℕ) :
    byteAt (writeAt content position data) other =
      if position ≤ other ∧ other < position + data.length then byteAt data (other - position)
      else byteAt content other := by
  unfold byteAt writeAt
  by_cases hdata : data = []
  · have hempty : ¬ (position ≤ other ∧ other < position + data.length) := by
      rw [hdata, List.length_nil]
      omega
    rw [if_pos hdata, if_neg hempty]
  · rw [if_neg hdata]
    have hbefore : (content.take position ++
        List.replicate (position - content.length) (0 : Byte)).length = position := by
      rw [List.length_append, List.length_take, List.length_replicate]
      omega
    simp only [List.getD_eq_getElem?_getD]
    rcases Nat.lt_or_ge other position with hlow | hhigh
    · -- before the write: the old bytes, or the zeros that fill up to it
      have hout : ¬ (position ≤ other ∧ other < position + data.length) := by omega
      rw [if_neg hout, List.append_assoc, List.getElem?_append_left (by rw [hbefore]; exact hlow)]
      rcases Nat.lt_or_ge other content.length with hin | hpast
      · rw [List.getElem?_append_left (by rw [List.length_take]; omega), List.getElem?_take,
          if_pos hlow]
      · rw [List.getElem?_append_right (by rw [List.length_take]; omega),
          List.getElem?_replicate, List.getElem?_eq_none hpast]
        split <;> rfl
    · rw [List.append_assoc, List.getElem?_append_right (by rw [hbefore]; exact hhigh), hbefore]
      by_cases hin : other < position + data.length
      · rw [if_pos ⟨hhigh, hin⟩, List.getElem?_append_left (by omega)]
      · have hout : ¬ (position ≤ other ∧ other < position + data.length) := fun h => hin h.2
        rw [if_neg hout, List.getElem?_append_right (by omega), List.getElem?_drop]
        congr 2
        omega

/-- A write leaves the bytes outside its range. -/
theorem byteAt_writeAt_of_notMem (content : List Byte) {position : ℕ} {data : List Byte}
    {other : ℕ} (h : other ∉ byteRange position data.length) :
    byteAt (writeAt content position data) other = byteAt content other := by
  rw [byteAt_writeAt]
  exact if_neg h

/-- A file holds data at an offset. -/
def Holds (content : List Byte) (offset : ℕ) (data : List Byte) : Prop :=
  readAt content offset data.length = data

instance (content : List Byte) (offset : ℕ) (data : List Byte) :
    Decidable (Holds content offset data) :=
  inferInstanceAs (Decidable (_ = _))

/-- A file holds data where it reaches far enough and has the data's bytes. -/
theorem holds_iff (content : List Byte) (offset : ℕ) {data : List Byte} (hdata : data ≠ []) :
    Holds content offset data ↔ offset + data.length ≤ content.length ∧
      ∀ position < data.length, byteAt content (offset + position) = byteAt data position := by
  have hlength := List.length_pos_of_ne_nil hdata
  unfold Holds readAt byteAt
  constructor
  · intro h
    have htaken := congrArg List.length h
    rw [List.length_take, List.length_drop] at htaken
    refine ⟨by omega, ?_⟩
    intro position hposition
    have hsame := congrArg (·[position]?) h
    simp only [List.getElem?_take, if_pos hposition, List.getElem?_drop] at hsame
    rw [List.getD_eq_getElem?_getD, List.getD_eq_getElem?_getD, hsame]
  · rintro ⟨hreach, hbytes⟩
    apply List.ext_getElem?
    intro position
    rw [List.getElem?_take]
    split
    · rename_i hposition
      have hsame := hbytes position hposition
      rw [List.getD_eq_getElem?_getD, List.getD_eq_getElem?_getD,
        List.getElem?_eq_getElem hposition,
        List.getElem?_eq_getElem (by omega : offset + position < content.length)] at hsame
      rw [List.getElem?_drop, List.getElem?_eq_getElem hposition,
        List.getElem?_eq_getElem (by omega : offset + position < content.length)]
      exact congrArg some hsame
    · rename_i hposition
      exact (List.getElem?_eq_none (Nat.not_lt.mp hposition)).symm

/-- A write is held. -/
theorem holds_writeAt_self (content : List Byte) (offset : ℕ) (data : List Byte) :
    Holds (writeAt content offset data) offset data := readAt_writeAt content offset data

/-- Held data stays held after a write to a range of its own. -/
theorem Holds.writeAt {content : List Byte} {offset : ℕ} {data : List Byte}
    (h : Holds content offset data) {position : ℕ} {other : List Byte}
    (hdisjoint : Disjoint (byteRange offset data.length) (byteRange position other.length)) :
    Holds (writeAt content position other) offset data := by
  by_cases hdata : data = []
  · rw [hdata]
    exact List.take_zero
  · by_cases hother : other = []
    · rw [Adapters.writeAt, if_pos hother]
      exact h
    · obtain ⟨hreach, hbytes⟩ := (holds_iff content offset hdata).mp h
      apply (holds_iff _ offset hdata).mpr
      refine ⟨?_, ?_⟩
      · rw [writeAt_length hother]
        exact Nat.le_trans hreach (Nat.le_max_left _ _)
      · intro byte hbyte
        rw [byteAt_writeAt_of_notMem, hbytes byte hbyte]
        apply Set.disjoint_left.mp hdisjoint
        exact ⟨Nat.le_add_right _ _, Nat.add_lt_add_left hbyte offset⟩

end Steve.Adapters
