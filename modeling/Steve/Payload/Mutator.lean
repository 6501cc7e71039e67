import Mathlib.Data.Int.Bitwise
import Mathlib.Data.Rat.Floor
import Steve.Library.Dict
import Steve.Adapters.Base

/-!
# The in-place payload mutator

The mutator owns one anonymous mapping, here a byte string of the mapping's size at a base
address, and caches the slices it hands out. A mutation reads a slice as little-endian
64-bit words and folds one mask into a leading run of them, in place; bytes after the last
whole word never change. A memory view carries the proof that it lies inside the mapping,
so no cached slice can reach past it.

Offsets, lengths and seeds are arbitrary integers. Slicing a memory view with them follows
Python: a negative bound counts from the end, and both bounds are clipped to the mapping.
Building a NumPy word from an integer outside 64 bits raises.
-/

namespace Steve.Payload

open Steve.Library
open Steve.Adapters (DirectBuffer)

/-- A region of a mapping of the given size: its first byte and its length. -/
@[ext]
structure MemoryView (size : ℕ) where
  start : ℕ
  length : ℕ
  inside : start + length ≤ size
  deriving DecidableEq, Repr

/-- A slice bound clipped to a sequence of the given length. -/
def sliceBound (length : ℕ) (bound : ℤ) : ℕ :=
  if bound < 0 then (bound + length).toNat else min bound.toNat length

/-- A clipped bound lies within the sequence. -/
theorem sliceBound_le (length : ℕ) (bound : ℤ) : sliceBound length bound ≤ length := by
  unfold sliceBound
  split <;> omega

/-- `view[start:stop]` of the whole mapping. -/
def sliceView (size : ℕ) (start stop : ℤ) : MemoryView size where
  start := sliceBound size start
  length := sliceBound size stop - sliceBound size start
  inside := by
    have hstart := sliceBound_le size start
    have hstop := sliceBound_le size stop
    omega

/-- The view of a whole mapping. -/
def MemoryView.whole (size : ℕ) : MemoryView size := ⟨0, size, Nat.le_of_eq (Nat.zero_add size)⟩

/-- `np.uint64(value)`, which raises outside the unsigned 64-bit range. -/
def npUint64 (value : ℤ) : Except PyException (BitVec 64) :=
  if 0 ≤ value ∧ value < 2 ^ 64 then .ok (BitVec.ofInt 64 value)
  else .error ⟨.overflowError, "Python integer out of bounds for uint64"⟩

/-- A mutator on a mapping of the given size, with its slice cache. -/
structure PySIMDPayloadMutator (size : ℕ) where
  address : ℕ
  buffer : List Byte
  bufferLength : buffer.length = size
  sliceCache : Dict (ℤ × ℤ) (DirectBuffer (MemoryView size))

namespace PySIMDPayloadMutator

variable {size : ℕ}

/-- A mutator on a fresh, zero-filled mapping, with the whole mapping cached. -/
def fresh (size address : ℕ) : PySIMDPayloadMutator size where
  address := address
  buffer := List.replicate size 0#8
  bufferLength := List.length_replicate
  sliceCache := Dict.empty.set (0, size) ⟨address, size, MemoryView.whole size⟩

/-- The bytes a view shows. -/
def viewBytes (mutator : PySIMDPayloadMutator size) (view : MemoryView size) : List Byte :=
  (mutator.buffer.drop view.start).take view.length

/-- A direct buffer with the bytes its view shows now. -/
def contents (mutator : PySIMDPayloadMutator size) (buf : DirectBuffer (MemoryView size)) :
    DirectBuffer (List Byte) :=
  ⟨buf.address, buf.size, mutator.viewBytes buf.view⟩

/-- Fold a mask into the first `count` words of a view, in place. -/
def xorViewWords (mutator : PySIMDPayloadMutator size) (view : MemoryView size)
    (mask : BitVec 64) (count : ℕ) (hcount : 8 * count ≤ view.length) :
    PySIMDPayloadMutator size where
  address := mutator.address
  buffer := mutator.buffer.take view.start ++ xorWords mask count (mutator.buffer.drop view.start)
  bufferLength := by
    have hlength := mutator.bufferLength
    have hinside := view.inside
    have hdrop : 8 * count ≤ (mutator.buffer.drop view.start).length := by
      rw [List.length_drop]
      omega
    rw [List.length_append, xorWords_length mask count _ hdrop, List.length_take,
      List.length_drop]
    omega
  sliceCache := mutator.sliceCache

/-- Return the cached slice, or check its end, cut it and cache it. -/
def getOrCreateSliceBuffer (mutator : PySIMDPayloadMutator size) (offset blockSize : ℤ) :
    Except PyException (DirectBuffer (MemoryView size)) × PySIMDPayloadMutator size :=
  match mutator.sliceCache.get? (offset, blockSize) with
  | some buf => (.ok buf, mutator)
  | none =>
    if offset + blockSize > size then
      let stop := offset + blockSize
      (.error ⟨.steve .payloadError,
        s!"Requested slice [{offset}:{stop}] exceeds buffer size {size}"⟩, mutator)
    else
      let buf : DirectBuffer (MemoryView size) :=
        ⟨mutator.address + offset, blockSize, sliceView size offset (offset + blockSize)⟩
      (.ok buf, { mutator with sliceCache := mutator.sliceCache.set (offset, blockSize) buf })

/-- The number of whole words in a view never takes more bytes than it has. -/
theorem wordCount_le (view : MemoryView size) : 8 * (view.length / 8) ≤ view.length :=
  Nat.mul_div_le view.length 8

/-- Neither does any number of leading whole words. -/
theorem leadingWords_le (view : MemoryView size) (count : ℕ) :
    8 * min count (view.length / 8) ≤ view.length :=
  (Nat.mul_le_mul_left 8 (Nat.min_le_right _ _)).trans (wordCount_le view)

/-- Fold the seed's mask into every whole word of a slice. -/
def applyEntropy (mutator : PySIMDPayloadMutator size) (offset blockSize seed : ℤ) :
    Except PyException (DirectBuffer (MemoryView size)) × PySIMDPayloadMutator size :=
  match mutator.getOrCreateSliceBuffer offset blockSize with
  | (.error e, mutator) => (.error e, mutator)
  | (.ok buf, mutator) =>
    if 8 ≤ buf.view.length then
      match npUint64 (Int.xor seed 0x5555555555555555) with
      | .error e => (.error e, mutator)
      | .ok mask =>
        (.ok buf, mutator.xorViewWords buf.view mask (buf.view.length / 8) (wordCount_le buf.view))
    else (.ok buf, mutator)

/-- Fold the seed's mask into a leading share of the whole words of a slice. The message of a
ratio out of range shows the exact rational in place of the float. -/
def mutateEntropyBlock (mutator : PySIMDPayloadMutator size) (offset length : ℤ)
    (entropyRatio : ℚ) (seed : ℤ) :
    Except PyException (DirectBuffer (MemoryView size)) × PySIMDPayloadMutator size :=
  if ¬ (0 ≤ entropyRatio ∧ entropyRatio ≤ 1) then
    (.error ⟨.steve .invalidEntropyError,
      s!"Entropy ratio {entropyRatio} must be between 0.0 and 1.0 inclusive"⟩, mutator)
  else
    match mutator.getOrCreateSliceBuffer offset length with
    | (.error e, mutator) => (.error e, mutator)
    | (.ok buf, mutator) =>
      if 8 ≤ buf.view.length then
        let uint64Count := buf.view.length / 8
        let mutateElements := ⌊uint64Count * entropyRatio⌋₊
        if 0 < mutateElements then
          match npUint64 (Int.xor seed 0x9E3779B97F4A7C15) with
          | .error e => (.error e, mutator)
          | .ok mask =>
            -- the slice `[:mutate_elements]` ends with the array
            (.ok buf, mutator.xorViewWords buf.view mask (min mutateElements uint64Count)
              (leadingWords_le buf.view mutateElements))
        else (.ok buf, mutator)
      else (.ok buf, mutator)

/-- Fold the seed's mask into a leading share of the whole words a direct buffer shows; a
ratio out of range is clamped. -/
def mutateDirectBuffer (mutator : PySIMDPayloadMutator size)
    (target : DirectBuffer (MemoryView size)) (seed : ℤ) (entropyRatio : ℚ) :
    Except PyException Unit × PySIMDPayloadMutator size :=
  if 8 ≤ target.view.length then
    let uint64Count := target.view.length / 8
    let mutateElements := ⌊uint64Count * min (max entropyRatio 0) 1⌋₊
    if 0 < mutateElements then
      match npUint64 (Int.xor seed 0x9E3779B97F4A7C15) with
      | .error e => (.error e, mutator)
      | .ok mask =>
        (.ok (), mutator.xorViewWords target.view mask (min mutateElements uint64Count)
          (leadingWords_le target.view mutateElements))
    else (.ok (), mutator)
  else (.ok (), mutator)

end PySIMDPayloadMutator

end Steve.Payload
