import Steve.Payload.SliceSafety

/-!
# The payload buffer as an exclusive-or accumulator

Every mutation folds one mask into leading words of one slice. On the whole buffer that is
folding in a byte pattern fixed by the arguments of the call, or, when the call raises,
nothing. So a run of calls folds in the sum of the patterns of those that did not raise,
whatever their slices overlap and in whatever order they come.
-/

namespace Steve.Payload

open Steve.Library
open Steve.Adapters (DirectBuffer)

variable {size : ℕ}

/-- A call that mutates the payload buffer. -/
inductive MutationCall (size : ℕ) where
  | applyEntropy (offset blockSize seed : ℤ)
  | mutateEntropyBlock (offset length : ℤ) (entropyRatio : ℚ) (seed : ℤ)
  | mutateDirectBuffer (target : DirectBuffer (MemoryView size)) (seed : ℤ) (entropyRatio : ℚ)

/-- A clamped share of some words is at most all of them. -/
theorem floor_share_le {ratio : ℚ} (h : ratio ≤ 1) (count : ℕ) : ⌊ratio * count⌋₊ ≤ count := by
  have hle : ratio * count ≤ count := mul_le_of_le_one_left (Nat.cast_nonneg count) h
  calc ⌊ratio * count⌋₊ ≤ ⌊(count : ℚ)⌋₊ := Nat.floor_le_floor hle
    _ = count := Nat.floor_natCast count

namespace MutationCall

/-- The offset and the length of a call, if it has any, are not negative. -/
def Nonneg : MutationCall size → Prop
  | applyEntropy offset blockSize _ => 0 ≤ offset ∧ 0 ≤ blockSize
  | mutateEntropyBlock offset length _ _ => 0 ≤ offset ∧ 0 ≤ length
  | mutateDirectBuffer _ _ _ => True

instance (call : MutationCall size) : Decidable call.Nonneg := by
  cases call <;> unfold Nonneg <;> infer_instance

/-- The first byte of the slice of a call. -/
def start : MutationCall size → ℕ
  | applyEntropy offset _ _ => offset.toNat
  | mutateEntropyBlock offset _ _ _ => offset.toNat
  | mutateDirectBuffer target _ _ => target.view.start

/-- The number of bytes of the slice of a call. -/
def length : MutationCall size → ℕ
  | applyEntropy _ blockSize _ => blockSize.toNat
  | mutateEntropyBlock _ length _ _ => length.toNat
  | mutateDirectBuffer target _ _ => target.view.length

/-- The share of the words a call is to mutate. -/
def ratio : MutationCall size → ℚ
  | applyEntropy _ _ _ => 1
  | mutateEntropyBlock _ _ entropyRatio _ => entropyRatio
  | mutateDirectBuffer _ _ entropyRatio => min (max entropyRatio 0) 1

/-- The seed of a call. -/
def seed : MutationCall size → ℤ
  | applyEntropy _ _ seed => seed
  | mutateEntropyBlock _ _ _ seed => seed
  | mutateDirectBuffer _ seed _ => seed

/-- The constant a call folds into its seed. -/
def whitening : MutationCall size → ℕ
  | applyEntropy _ _ _ => 0x5555555555555555
  | mutateEntropyBlock _ _ _ _ => 0x9E3779B97F4A7C15
  | mutateDirectBuffer _ _ _ => 0x9E3779B97F4A7C15

/-- The number of leading words a call mutates. -/
def words (call : MutationCall size) : ℕ := ⌊call.ratio * (call.length / 8 : ℕ)⌋₊

/-- The byte pattern of a call over the whole buffer: its mask over its leading words. -/
def pattern (call : MutationCall size) : ℕ → Byte :=
  patternFrom call.start
    (maskPattern (BitVec.ofInt 64 (Int.xor call.seed call.whitening)) call.words)

/-- The slice of a call ends inside the buffer. -/
def EndsInside : MutationCall size → Prop
  | applyEntropy offset blockSize _ => offset + blockSize ≤ size
  | mutateEntropyBlock offset length _ _ => offset + length ≤ size
  | mutateDirectBuffer _ _ _ => True

/-- The ratio of a call lies in the unit interval, where that is checked. -/
def RatioChecked : MutationCall size → Prop
  | applyEntropy _ _ _ => True
  | mutateEntropyBlock _ _ entropyRatio _ => 0 ≤ entropyRatio ∧ entropyRatio ≤ 1
  | mutateDirectBuffer _ _ _ => True

/-- A call that need not raise: its slice ends inside the buffer, its ratio passes the check,
and its seed has 64 bits unless it mutates no word. -/
structure Accepted (call : MutationCall size) : Prop where
  endsInside : call.EndsInside
  ratioChecked : call.RatioChecked
  seedFits : 0 < call.words → 0 ≤ call.seed ∧ call.seed < 2 ^ 64

instance (call : MutationCall size) : Decidable call.EndsInside := by
  cases call <;> unfold EndsInside <;> infer_instance

instance (call : MutationCall size) : Decidable call.RatioChecked := by
  cases call <;> unfold RatioChecked <;> infer_instance

instance (call : MutationCall size) : Decidable call.Accepted :=
  decidable_of_iff
    (call.EndsInside ∧ call.RatioChecked ∧ (0 < call.words → 0 ≤ call.seed ∧ call.seed < 2 ^ 64))
    ⟨fun h => ⟨h.1, h.2.1, h.2.2⟩, fun h => ⟨h.endsInside, h.ratioChecked, h.seedFits⟩⟩

/-- A pattern reaches only the whole words of the slice of its call. -/
theorem pattern_outside {call : MutationCall size} (hratio : call.ratio ≤ 1) {j : ℕ}
    (hj : j < call.start ∨ call.start + 8 * (call.length / 8) ≤ j) : call.pattern j = 0#8 := by
  have hwords : call.words ≤ call.length / 8 := floor_share_le hratio _
  exact patternFrom_maskPattern_outside _ (by omega)

end MutationCall

/-- A seed has 64 bits exactly when the value its mask is built from does. -/
theorem xor_fits_iff (seed : ℤ) {whitening : ℕ} (h : whitening < 2 ^ 64) :
    (0 ≤ Int.xor seed whitening ∧ Int.xor seed whitening < 2 ^ 64) ↔
      0 ≤ seed ∧ seed < 2 ^ 64 := by
  cases seed with
  | ofNat value =>
    have hxor : Int.xor (Int.ofNat value) whitening = ((value ^^^ whitening : ℕ) : ℤ) := rfl
    have hvalue : Int.ofNat value = (value : ℤ) := rfl
    have hiff : value ^^^ whitening < 2 ^ 64 ↔ value < 2 ^ 64 := by
      constructor
      · intro hlt
        have hback := Nat.xor_lt_two_pow hlt h
        rwa [Nat.xor_assoc, Nat.xor_self, Nat.xor_zero] at hback
      · intro hlt
        exact Nat.xor_lt_two_pow hlt h
    rw [hxor, hvalue]
    constructor
    · intro hfits
      exact ⟨by omega, by exact_mod_cast hiff.mp (by exact_mod_cast hfits.2)⟩
    · intro hfits
      exact ⟨by omega, by exact_mod_cast hiff.mpr (by exact_mod_cast hfits.2)⟩
  | negSucc value =>
    have hxor : Int.xor (Int.negSucc value) whitening = Int.negSucc (value ^^^ whitening) := rfl
    have hneg (n : ℕ) : ¬ 0 ≤ Int.negSucc n := by omega
    rw [hxor]
    exact iff_of_false (fun hfits => hneg _ hfits.1) (fun hfits => hneg _ hfits.1)

/-- A call answered as accepted or refused, with what it does to the buffer in each case. -/
structure ActsAs {α : Type*} (mutator : PySIMDPayloadMutator size)
    (result : Except PyException α × PySIMDPayloadMutator size) (accepted : Prop)
    (pattern : ℕ → Byte) : Prop where
  answered : result.1.isOk = true ↔ accepted
  folded : accepted → result.2.buffer = xorPattern pattern mutator.buffer
  untouched : ¬ accepted → result.2.buffer = mutator.buffer

/-- What a call does to a mutator it does to another with the same bytes. -/
theorem ActsAs.transfer {α : Type*} {mutator next : PySIMDPayloadMutator size}
    {result : Except PyException α × PySIMDPayloadMutator size} {accepted accepted' : Prop}
    {pattern : ℕ → Byte} (h : ActsAs next result accepted pattern)
    (hbuffer : next.buffer = mutator.buffer) (haccepted : accepted' ↔ accepted) :
    ActsAs mutator result accepted' pattern where
  answered := h.answered.trans haccepted.symm
  folded := fun hyes => hbuffer ▸ h.folded (haccepted.mp hyes)
  untouched := fun hno => hbuffer ▸ h.untouched (mt haccepted.mpr hno)

/-- A call that raises and leaves the bytes acts as any pattern it never folds. -/
theorem ActsAs.raised {α : Type*} {mutator next : PySIMDPayloadMutator size} (e : PyException)
    {accepted : Prop} (pattern : ℕ → Byte) (hbuffer : next.buffer = mutator.buffer)
    (haccepted : ¬ accepted) :
    ActsAs mutator ((.error e : Except PyException α), next) accepted pattern where
  answered := iff_of_false Bool.false_ne_true haccepted
  folded := fun hyes => absurd hyes haccepted
  untouched := fun _ => hbuffer

namespace PySIMDPayloadMutator

/-- Fold the mask of a value into the first words of a view, building it only when there is a
word to mutate. -/
def foldWords (mutator : PySIMDPayloadMutator size) (view : MemoryView size) (elements : ℕ)
    (value : ℤ) : Except PyException Unit × PySIMDPayloadMutator size :=
  if 0 < elements then
    match npUint64 value with
    | .error e => (.error e, mutator)
    | .ok mask =>
      (.ok (), mutator.xorViewWords view mask (min elements (view.length / 8))
        (leadingWords_le view elements))
  else (.ok (), mutator)

/-- Masking leading words of a view folds a pattern into the whole buffer. -/
theorem xorViewWords_buffer (mutator : PySIMDPayloadMutator size) (view : MemoryView size)
    (mask : BitVec 64) {count : ℕ} (hcount : 8 * count ≤ view.length) :
    (mutator.xorViewWords view mask count hcount).buffer =
      xorPattern (patternFrom view.start (maskPattern mask count)) mutator.buffer := by
  have hlength := mutator.bufferLength
  have hinside := view.inside
  have hwords : 8 * count ≤ (mutator.buffer.drop view.start).length := by
    rw [List.length_drop]
    omega
  change mutator.buffer.take view.start ++
    xorWords mask count (mutator.buffer.drop view.start) = _
  rw [xorWords_eq_xorPattern _ _ _ hwords, xorPattern_patternFrom]
  omega

/-- The pattern of no words is zero. -/
theorem patternFrom_maskPattern_zero (start : ℕ) (mask : BitVec 64) :
    patternFrom start (maskPattern mask 0) = fun _ => 0#8 := by
  funext j
  exact patternFrom_maskPattern_outside mask (by omega)

/-- Folding leading words acts as their pattern, unless there are some and the value has no 64
bits; it leaves the cache. -/
theorem foldWords_actsAs (mutator : PySIMDPayloadMutator size) (view : MemoryView size)
    {elements : ℕ} (h : elements ≤ view.length / 8) (value : ℤ) :
    ActsAs mutator (mutator.foldWords view elements value)
        (0 < elements → 0 ≤ value ∧ value < 2 ^ 64)
        (patternFrom view.start (maskPattern (BitVec.ofInt 64 value) elements)) ∧
      (mutator.foldWords view elements value).2.sliceCache = mutator.sliceCache ∧
      (mutator.foldWords view elements value).2.address = mutator.address := by
  rw [foldWords]
  by_cases hpos : 0 < elements
  · rw [if_pos hpos, npUint64]
    by_cases hfits : 0 ≤ value ∧ value < 2 ^ 64
    · rw [if_pos hfits]
      refine ⟨⟨iff_of_true rfl fun _ => hfits, fun _ => ?_, fun hraises => ?_⟩, rfl, rfl⟩
      · simp only [xorViewWords_buffer, Nat.min_eq_left h]
      · exact absurd (fun _ => hfits) hraises
    · rw [if_neg hfits]
      refine ⟨⟨iff_of_false Bool.false_ne_true fun haccepted => hfits (haccepted hpos),
        fun haccepted => absurd (haccepted hpos) hfits, fun _ => rfl⟩, rfl, rfl⟩
  · rw [if_neg hpos]
    have hzero : elements = 0 := by omega
    refine ⟨⟨iff_of_true rfl fun hsome => absurd hsome hpos, fun _ => ?_, fun _ => rfl⟩, rfl, rfl⟩
    rw [hzero, patternFrom_maskPattern_zero, xorPattern_zero]

/-- A view of fewer than eight bytes has no word to mutate. -/
theorem floor_share_of_short {length : ℕ} (h : ¬ 8 ≤ length) (ratio : ℚ) :
    ⌊ratio * (length / 8 : ℕ)⌋₊ = 0 := by
  rw [Nat.div_eq_of_lt (Nat.not_le.mp h), Nat.cast_zero, mul_zero, Nat.floor_zero]

/-- Mutating a direct buffer folds leading words of its view. -/
theorem mutateDirectBuffer_eq (mutator : PySIMDPayloadMutator size)
    (target : DirectBuffer (MemoryView size)) (seed : ℤ) (entropyRatio : ℚ) :
    mutator.mutateDirectBuffer target seed entropyRatio =
      mutator.foldWords target.view
        ⌊min (max entropyRatio 0) 1 * (target.view.length / 8 : ℕ)⌋₊
        (Int.xor seed 0x9E3779B97F4A7C15) := by
  rw [mutateDirectBuffer]
  by_cases hlength : 8 ≤ target.view.length
  · rw [if_pos hlength, mul_comm]
    rfl
  · rw [if_neg hlength, floor_share_of_short hlength]
    rfl

/-- Mutating a block by a ratio that passes the check folds leading words of its slice. -/
theorem mutateEntropyBlock_eq {mutator next : PySIMDPayloadMutator size} {offset length : ℤ}
    {entropyRatio : ℚ} (hratio : 0 ≤ entropyRatio ∧ entropyRatio ≤ 1) (seed : ℤ)
    {buf : DirectBuffer (MemoryView size)}
    (hslice : mutator.getOrCreateSliceBuffer offset length = (.ok buf, next)) :
    mutator.mutateEntropyBlock offset length entropyRatio seed =
      let folded := next.foldWords buf.view ⌊entropyRatio * (buf.view.length / 8 : ℕ)⌋₊
        (Int.xor seed 0x9E3779B97F4A7C15)
      (folded.1.map fun _ => buf, folded.2) := by
  simp only [mutateEntropyBlock, if_neg (not_not.mpr hratio), hslice, foldWords]
  by_cases hlength : 8 ≤ buf.view.length
  · simp only [if_pos hlength, mul_comm]
    split
    · cases npUint64 (Int.xor seed 0x9E3779B97F4A7C15) <;> rfl
    · rfl
  · simp only [if_neg hlength, floor_share_of_short hlength, Nat.lt_irrefl, if_false]
    rfl

/-- Applying entropy folds every whole word of its slice. -/
theorem applyEntropy_eq {mutator next : PySIMDPayloadMutator size} {offset blockSize : ℤ}
    (seed : ℤ) {buf : DirectBuffer (MemoryView size)}
    (hslice : mutator.getOrCreateSliceBuffer offset blockSize = (.ok buf, next)) :
    mutator.applyEntropy offset blockSize seed =
      let folded := next.foldWords buf.view (buf.view.length / 8)
        (Int.xor seed 0x5555555555555555)
      (folded.1.map fun _ => buf, folded.2) := by
  simp only [applyEntropy, hslice, foldWords, Nat.min_self]
  by_cases hlength : 8 ≤ buf.view.length
  · have hpos : 0 < buf.view.length / 8 := by omega
    simp only [if_pos hlength, if_pos hpos]
    cases npUint64 (Int.xor seed 0x5555555555555555) <;> rfl
  · have hnone : ¬ 0 < buf.view.length / 8 := by omega
    simp only [if_neg hlength, if_neg hnone]
    rfl

/-- Make a mutating call. -/
def mutate (mutator : PySIMDPayloadMutator size) :
    MutationCall size → Except PyException Unit × PySIMDPayloadMutator size
  | .applyEntropy offset blockSize seed =>
    let (answer, next) := mutator.applyEntropy offset blockSize seed
    (answer.map fun _ => (), next)
  | .mutateEntropyBlock offset length entropyRatio seed =>
    let (answer, next) := mutator.mutateEntropyBlock offset length entropyRatio seed
    (answer.map fun _ => (), next)
  | .mutateDirectBuffer target seed entropyRatio =>
    mutator.mutateDirectBuffer target seed entropyRatio

/-- Replace the bytes of the mapping, as a read into its direct buffers does. -/
def overwrite (mutator : PySIMDPayloadMutator size) (bytes : List Byte)
    (h : bytes.length = size) : PySIMDPayloadMutator size :=
  { mutator with buffer := bytes, bufferLength := h }

/-- A mutator the program can hold: built, then asked for slices, mutated, and its bytes
overwritten through the direct buffers handed out. -/
inductive Reachable : PySIMDPayloadMutator size → Prop where
  | fresh (address : ℕ) : Reachable (fresh size address)
  | slice {mutator : PySIMDPayloadMutator size} (offset blockSize : ℤ) (h : Reachable mutator) :
    Reachable (mutator.getOrCreateSliceBuffer offset blockSize).2
  | mutate {mutator : PySIMDPayloadMutator size} (call : MutationCall size)
    (h : Reachable mutator) : Reachable (mutator.mutate call).2
  | overwrite {mutator : PySIMDPayloadMutator size} (bytes : List Byte)
    (hbytes : bytes.length = size) (h : Reachable mutator) :
    Reachable (mutator.overwrite bytes hbytes)

/-- A mutator with the cache and address of another has its cached slices. -/
theorem CacheSound.congr {mutator next : PySIMDPayloadMutator size} (h : mutator.CacheSound)
    (hcache : next.sliceCache = mutator.sliceCache) (haddress : next.address = mutator.address) :
    next.CacheSound := by
  intro offset blockSize buf hcached
  rw [haddress]
  exact h offset blockSize buf (hcache ▸ hcached)

/-- Slice requests keep the cache sound. -/
theorem cacheSound_getOrCreateSliceBuffer {mutator : PySIMDPayloadMutator size}
    (h : mutator.CacheSound) (offset blockSize : ℤ) :
    (mutator.getOrCreateSliceBuffer offset blockSize).2.CacheSound := by
  by_cases hpast : (size : ℤ) < offset + blockSize
  · obtain ⟨e, hrefused, -⟩ := getOrCreateSliceBuffer_past_end h hpast
    rw [hrefused]
    exact h
  · obtain ⟨next, hserved, hnext, -⟩ := getOrCreateSliceBuffer_sound h (Int.not_lt.mp hpast)
    rw [hserved]
    exact hnext

/-- Applying entropy to a refused slice raises, and to any other folds leading words of it. -/
theorem mutate_applyEntropy {mutator : PySIMDPayloadMutator size} (h : mutator.CacheSound)
    {offset blockSize : ℤ} (hstop : offset + blockSize ≤ size) (seed : ℤ) :
    ∃ next : PySIMDPayloadMutator size,
      mutator.mutate (.applyEntropy offset blockSize seed) =
        next.foldWords (sliceView size offset (offset + blockSize))
          ((sliceView size offset (offset + blockSize)).length / 8)
          (Int.xor seed 0x5555555555555555) ∧
        next.CacheSound ∧ next.buffer = mutator.buffer := by
  obtain ⟨next, hslice, hnext, hbuffer, -⟩ := getOrCreateSliceBuffer_sound h hstop
  refine ⟨next, ?_, hnext, hbuffer⟩
  simp only [mutate, applyEntropy_eq seed hslice, sliceBuffer]
  cases hfolded : next.foldWords (sliceView size offset (offset + blockSize))
    ((sliceView size offset (offset + blockSize)).length / 8)
    (Int.xor seed 0x5555555555555555) with
  | mk answer final => cases answer <;> rfl

/-- So does mutating a block by a ratio that passes the check. -/
theorem mutate_mutateEntropyBlock {mutator : PySIMDPayloadMutator size} (h : mutator.CacheSound)
    {offset length : ℤ} (hstop : offset + length ≤ size) {entropyRatio : ℚ}
    (hratio : 0 ≤ entropyRatio ∧ entropyRatio ≤ 1) (seed : ℤ) :
    ∃ next : PySIMDPayloadMutator size,
      mutator.mutate (.mutateEntropyBlock offset length entropyRatio seed) =
        next.foldWords (sliceView size offset (offset + length))
          ⌊entropyRatio * ((sliceView size offset (offset + length)).length / 8 : ℕ)⌋₊
          (Int.xor seed 0x9E3779B97F4A7C15) ∧
        next.CacheSound ∧ next.buffer = mutator.buffer := by
  obtain ⟨next, hslice, hnext, hbuffer, -⟩ := getOrCreateSliceBuffer_sound h hstop
  refine ⟨next, ?_, hnext, hbuffer⟩
  simp only [mutate, mutateEntropyBlock_eq hratio seed hslice, sliceBuffer]
  cases hfolded : next.foldWords (sliceView size offset (offset + length))
    ⌊entropyRatio * ((sliceView size offset (offset + length)).length / 8 : ℕ)⌋₊
    (Int.xor seed 0x9E3779B97F4A7C15) with
  | mk answer final => cases answer <;> rfl

/-- Applying entropy past the end raises. -/
theorem mutate_applyEntropy_past_end {mutator : PySIMDPayloadMutator size}
    (h : mutator.CacheSound) {offset blockSize : ℤ} (hpast : (size : ℤ) < offset + blockSize)
    (seed : ℤ) :
    ∃ e, mutator.mutate (.applyEntropy offset blockSize seed) = (.error e, mutator) := by
  obtain ⟨e, hslice, -⟩ := getOrCreateSliceBuffer_past_end h hpast
  refine ⟨e, ?_⟩
  simp only [mutate, applyEntropy, hslice]
  rfl

/-- Mutating a block past the end, or by a ratio out of range, raises. -/
theorem mutate_mutateEntropyBlock_refused {mutator : PySIMDPayloadMutator size}
    (h : mutator.CacheSound) {offset length : ℤ} {entropyRatio : ℚ} (seed : ℤ)
    (hrefused : ¬ (0 ≤ entropyRatio ∧ entropyRatio ≤ 1) ∨ (size : ℤ) < offset + length) :
    ∃ e, mutator.mutate (.mutateEntropyBlock offset length entropyRatio seed) =
      (.error e, mutator) := by
  by_cases hratio : 0 ≤ entropyRatio ∧ entropyRatio ≤ 1
  · obtain ⟨e, hslice, -⟩ :=
      getOrCreateSliceBuffer_past_end h (hrefused.resolve_left (not_not.mpr hratio))
    refine ⟨e, ?_⟩
    simp only [mutate, mutateEntropyBlock, if_neg (not_not.mpr hratio), hslice]
    rfl
  · refine ⟨⟨.steve .invalidEntropyError,
      s!"Entropy ratio {entropyRatio} must be between 0.0 and 1.0 inclusive"⟩, ?_⟩
    simp only [mutate, mutateEntropyBlock, if_pos hratio]
    rfl

/-- Every mutating call keeps the cache sound, whatever its arguments. -/
theorem cacheSound_mutate {mutator : PySIMDPayloadMutator size} (h : mutator.CacheSound)
    (call : MutationCall size) : (mutator.mutate call).2.CacheSound := by
  cases call with
  | applyEntropy offset blockSize seed =>
    by_cases hpast : (size : ℤ) < offset + blockSize
    · obtain ⟨e, hraised⟩ := mutate_applyEntropy_past_end h hpast seed
      rw [hraised]
      exact h
    · obtain ⟨next, hserved, hnext, -⟩ := mutate_applyEntropy h (Int.not_lt.mp hpast) seed
      rw [hserved]
      obtain ⟨-, hcache, haddress⟩ := foldWords_actsAs next _ (Nat.le_refl _) _
      exact hnext.congr hcache haddress
  | mutateEntropyBlock offset length entropyRatio seed =>
    by_cases hrefused : ¬ (0 ≤ entropyRatio ∧ entropyRatio ≤ 1) ∨ (size : ℤ) < offset + length
    · obtain ⟨e, hraised⟩ := mutate_mutateEntropyBlock_refused h seed hrefused
      rw [hraised]
      exact h
    · rw [not_or, not_not, Int.not_lt] at hrefused
      obtain ⟨next, hserved, hnext, -⟩ :=
        mutate_mutateEntropyBlock h hrefused.2 hrefused.1 seed
      rw [hserved]
      obtain ⟨-, hcache, haddress⟩ :=
        foldWords_actsAs next _ (floor_share_le hrefused.1.2 _) _
      exact hnext.congr hcache haddress
  | mutateDirectBuffer target seed entropyRatio =>
    rw [mutate, mutateDirectBuffer_eq]
    obtain ⟨-, hcache, haddress⟩ :=
      foldWords_actsAs mutator target.view (floor_share_le (min_le_right _ _) _) _
    exact h.congr hcache haddress

/-- Every mutator the program can hold has a sound cache. -/
theorem Reachable.cacheSound {mutator : PySIMDPayloadMutator size} (h : mutator.Reachable) :
    mutator.CacheSound := by
  induction h with
  | fresh address => exact cacheSound_fresh size address
  | slice offset blockSize _ ih => exact cacheSound_getOrCreateSliceBuffer ih offset blockSize
  | mutate call _ ih => exact cacheSound_mutate ih call
  | overwrite bytes hbytes _ ih => exact ih.congr rfl rfl

/-- Every constant folded into a seed has 64 bits. -/
theorem whitening_lt (call : MutationCall size) : call.whitening < 2 ^ 64 := by
  cases call <;> exact of_decide_eq_true rfl

/-- Folding the words of an admitted call on its own slice is what the call is to do. -/
theorem foldWords_call {mutator next : PySIMDPayloadMutator size} (call : MutationCall size)
    {view : MemoryView size} (hbuffer : next.buffer = mutator.buffer)
    (hstart : view.start = call.start) (hlength : view.length = call.length)
    (hratio : call.ratio ≤ 1) (hstop : call.EndsInside) (hchecked : call.RatioChecked) :
    ActsAs mutator (next.foldWords view call.words (Int.xor call.seed call.whitening))
      call.Accepted call.pattern := by
  have hwords : call.words ≤ view.length / 8 := by
    rw [hlength]
    exact floor_share_le hratio _
  have hacts := (foldWords_actsAs next view hwords (Int.xor call.seed call.whitening)).1
  rw [hstart, xor_fits_iff call.seed (whitening_lt call)] at hacts
  refine hacts.transfer hbuffer ?_
  exact ⟨MutationCall.Accepted.seedFits, fun hfits => ⟨hstop, hchecked, hfits⟩⟩

/-- A call without negative entries acts as its pattern, or raises. -/
theorem mutate_actsAs {mutator : PySIMDPayloadMutator size} (h : mutator.CacheSound)
    (call : MutationCall size) (hnonneg : call.Nonneg) :
    ActsAs mutator (mutator.mutate call) call.Accepted call.pattern := by
  cases call with
  | applyEntropy offset blockSize seed =>
    by_cases hpast : (size : ℤ) < offset + blockSize
    · obtain ⟨e, hraised⟩ := mutate_applyEntropy_past_end h hpast seed
      rw [hraised]
      exact ActsAs.raised e _ rfl fun haccepted => Int.not_le.mpr hpast haccepted.endsInside
    · have hstop := Int.not_lt.mp hpast
      obtain ⟨next, hserved, -, hbuffer⟩ := mutate_applyEntropy h hstop seed
      obtain ⟨hstart, hlength⟩ := sliceView_of_nonneg hnonneg.1 hnonneg.2 hstop
      let call : MutationCall size := .applyEntropy offset blockSize seed
      have hwords : call.words = (sliceView size offset (offset + blockSize)).length / 8 := by
        simp [call, MutationCall.words, MutationCall.ratio, MutationCall.length, hlength]
      rw [hserved, ← hwords]
      exact foldWords_call call hbuffer hstart hlength (le_refl _) hstop trivial
  | mutateEntropyBlock offset length entropyRatio seed =>
    by_cases hrefused : ¬ (0 ≤ entropyRatio ∧ entropyRatio ≤ 1) ∨ (size : ℤ) < offset + length
    · obtain ⟨e, hraised⟩ := mutate_mutateEntropyBlock_refused h seed hrefused
      rw [hraised]
      refine ActsAs.raised e _ rfl fun haccepted => ?_
      exact hrefused.elim (fun hratio => hratio haccepted.ratioChecked)
        (fun hpast => Int.not_le.mpr hpast haccepted.endsInside)
    · rw [not_or, not_not, Int.not_lt] at hrefused
      obtain ⟨next, hserved, -, hbuffer⟩ :=
        mutate_mutateEntropyBlock h hrefused.2 hrefused.1 seed
      obtain ⟨hstart, hlength⟩ := sliceView_of_nonneg hnonneg.1 hnonneg.2 hrefused.2
      rw [hserved, hlength]
      exact foldWords_call (.mutateEntropyBlock offset length entropyRatio seed) hbuffer hstart
        hlength hrefused.1.2 hrefused.2 hrefused.1
  | mutateDirectBuffer target seed entropyRatio =>
    rw [mutate, mutateDirectBuffer_eq]
    exact foldWords_call (.mutateDirectBuffer target seed entropyRatio) rfl rfl rfl
      (min_le_right _ _) trivial trivial

/-- The patterns of the calls of a run that did not raise. -/
def foldedPatterns (mutator : PySIMDPayloadMutator size) (calls : List (MutationCall size)) :
    List (ℕ → Byte) :=
  ((machineTrace mutate mutator calls).filter fun entry => entry.output.isOk).map
    fun entry => entry.input.pattern

/-- A mutator whose buffer accumulates the patterns of its calls. -/
structure IsXorAccumulator (mutator : PySIMDPayloadMutator size) : Prop where
  /-- A run folds in the patterns of the calls that did not raise. -/
  accumulates (calls : List (MutationCall size)) (h : ∀ call ∈ calls, call.Nonneg) :
    (machineState mutate mutator calls).buffer =
      xorPattern (patternSum (mutator.foldedPatterns calls)) mutator.buffer
  /-- The order of the calls is irrelevant to the bytes. -/
  commutes (calls reordered : List (MutationCall size)) (h : ∀ call ∈ calls, call.Nonneg)
    (hperm : calls.Perm reordered) :
    (machineState mutate mutator reordered).buffer = (machineState mutate mutator calls).buffer
  /-- Repeating a call undoes it. -/
  undoes (call : MutationCall size) (h : call.Nonneg) :
    (machineState mutate mutator [call, call]).buffer = mutator.buffer
  /-- A call changes no byte outside the whole words of its slice. -/
  frame (call : MutationCall size) (h : call.Nonneg) (j : ℕ)
    (hj : j < call.start ∨ call.start + 8 * (call.length / 8) ≤ j) :
    (mutator.mutate call).2.buffer[j]? = mutator.buffer[j]?
  /-- A call raises exactly when its arguments are not accepted. -/
  raises (call : MutationCall size) (h : call.Nonneg) :
    (mutator.mutate call).1.isOk = true ↔ call.Accepted
  /-- A call that raises leaves every byte. -/
  raised (call : MutationCall size) (h : call.Nonneg)
    (hraised : ¬ (mutator.mutate call).1.isOk = true) :
    (mutator.mutate call).2.buffer = mutator.buffer

/-- The calls of a run that did not raise are the accepted ones. -/
theorem foldedPatterns_eq {mutator : PySIMDPayloadMutator size} (h : mutator.CacheSound)
    (calls : List (MutationCall size)) (hnonneg : ∀ call ∈ calls, call.Nonneg) :
    mutator.foldedPatterns calls =
      (calls.filter fun call => decide call.Accepted).map MutationCall.pattern := by
  induction calls generalizing mutator with
  | nil => rfl
  | cons call rest ih =>
    have hrest := ih (cacheSound_mutate h call) fun later hlater =>
      hnonneg later (List.mem_cons_of_mem _ hlater)
    have hanswered := (mutate_actsAs h call (hnonneg call List.mem_cons_self)).answered
    rw [foldedPatterns] at hrest ⊢
    by_cases haccepted : call.Accepted
    · rw [machineTrace, List.filter_cons, if_pos (hanswered.mpr haccepted), List.filter_cons,
        if_pos (decide_eq_true haccepted), List.map_cons, List.map_cons, hrest]
    · rw [machineTrace, List.filter_cons, if_neg (mt hanswered.mp haccepted), List.filter_cons,
        if_neg (by simpa using haccepted), hrest]

/-- A run of calls folds in the patterns of the accepted ones. -/
theorem machineState_mutate {mutator : PySIMDPayloadMutator size} (h : mutator.CacheSound)
    (calls : List (MutationCall size)) (hnonneg : ∀ call ∈ calls, call.Nonneg) :
    (machineState mutate mutator calls).buffer =
      xorPattern (patternSum ((calls.filter fun call => decide call.Accepted).map
        MutationCall.pattern)) mutator.buffer := by
  induction calls generalizing mutator with
  | nil => exact (xorPattern_zero mutator.buffer).symm
  | cons call rest ih =>
    have hrest := ih (cacheSound_mutate h call) fun later hlater =>
      hnonneg later (List.mem_cons_of_mem _ hlater)
    have hacts := mutate_actsAs h call (hnonneg call List.mem_cons_self)
    rw [machineState, List.foldl_cons, ← machineState, hrest]
    by_cases haccepted : call.Accepted
    · rw [List.filter_cons, if_pos (decide_eq_true haccepted), hacts.folded haccepted,
        List.map_cons, xorPattern_xorPattern]
      rfl
    · rw [List.filter_cons, if_neg (by simpa using haccepted), hacts.untouched haccepted]

/-- An accepted call has a ratio of at most one. -/
theorem ratio_le_one {call : MutationCall size} (h : call.RatioChecked) : call.ratio ≤ 1 := by
  cases call with
  | applyEntropy offset blockSize seed => exact le_refl _
  | mutateEntropyBlock offset length entropyRatio seed => exact h.2
  | mutateDirectBuffer target seed entropyRatio => exact min_le_right _ _

/-- The payload buffer of every mutator the program can hold is an exclusive-or accumulator. -/
theorem Reachable.isXorAccumulator {mutator : PySIMDPayloadMutator size}
    (h : mutator.Reachable) : mutator.IsXorAccumulator where
  accumulates calls hnonneg := by
    rw [foldedPatterns_eq h.cacheSound calls hnonneg]
    exact machineState_mutate h.cacheSound calls hnonneg
  commutes calls reordered hnonneg hperm := by
    have hreordered : ∀ call ∈ reordered, call.Nonneg :=
      fun call hcall => hnonneg call (hperm.mem_iff.mpr hcall)
    rw [machineState_mutate h.cacheSound calls hnonneg,
      machineState_mutate h.cacheSound reordered hreordered,
      patternSum_perm ((hperm.filter _).map _)]
  undoes call hnonneg := by
    have hfirst := mutate_actsAs h.cacheSound call hnonneg
    have hagain := mutate_actsAs (cacheSound_mutate h.cacheSound call) call hnonneg
    change ((mutator.mutate call).2.mutate call).2.buffer = mutator.buffer
    by_cases haccepted : call.Accepted
    · rw [hagain.folded haccepted, hfirst.folded haccepted, xorPattern_self]
    · rw [hagain.untouched haccepted, hfirst.untouched haccepted]
  frame call hnonneg j hj := by
    have hacts := mutate_actsAs h.cacheSound call hnonneg
    by_cases haccepted : call.Accepted
    · have hzero := MutationCall.pattern_outside (ratio_le_one haccepted.ratioChecked) hj
      rw [hacts.folded haccepted]
      exact getElem?_xorPattern_of_eq_zero hzero mutator.buffer
    · rw [hacts.untouched haccepted]
  raises call hnonneg := (mutate_actsAs h.cacheSound call hnonneg).answered
  raised call hnonneg hraised := by
    have hacts := mutate_actsAs h.cacheSound call hnonneg
    exact hacts.untouched (mt hacts.answered.mpr hraised)

/-- On a fresh mapping of 24 bytes, two overlapping calls fold both masks in, whichever comes
first, and a call past the end between them changes nothing. -/
theorem fresh_isXorAccumulator :
    (fresh 24 0x7f0000000000).IsXorAccumulator ∧
      (machineState mutate (fresh 24 0x7f0000000000)
          [.applyEntropy 3 20 7, .applyEntropy 20 8 7,
            .mutateEntropyBlock 8 16 (1 / 2) 9]).buffer =
        (machineState mutate (fresh 24 0x7f0000000000)
          [.mutateEntropyBlock 8 16 (1 / 2) 9, .applyEntropy 3 20 7,
            .applyEntropy 20 8 7]).buffer := by
  have hfresh : (fresh 24 0x7f0000000000).Reachable := .fresh 0x7f0000000000
  have haccumulator := Reachable.isXorAccumulator hfresh
  refine ⟨haccumulator, haccumulator.commutes _ _ (by decide) ?_⟩
  exact (List.Perm.swap _ _ _).trans ((List.Perm.swap _ _ []).cons _)

end PySIMDPayloadMutator

end Steve.Payload
