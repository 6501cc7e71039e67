import Steve.Payload.XorAccumulator

/-!
# The three ways to mutate a slice

`apply_entropy`, `mutate_entropy_block` and `mutate_direct_buffer` each carry their own copy
of the kernel. On a slice inside the mapping all three fold a seed's mask into leading words
of it, so they agree up to the constant folded into the seed, and each changes exactly the
share of the words that its ratio asks for.
-/

namespace Steve.Payload

open Steve.Library
open Steve.Adapters (DirectBuffer)

variable {size : ℕ}

/-- The share of the whole words of a length that a ratio asks for. -/
def shareOfWords (ratio : ℚ) (length : ℤ) : ℕ := ⌊ratio * (length.toNat / 8 : ℕ)⌋₊

/-- A larger ratio asks for no fewer words. -/
theorem shareOfWords_mono {ratio larger : ℚ} (h : ratio ≤ larger) (length : ℤ) :
    shareOfWords ratio length ≤ shareOfWords larger length := by
  apply Nat.floor_le_floor
  exact mul_le_mul_of_nonneg_right h (Nat.cast_nonneg _)

/-- The whole ratio asks for every whole word. -/
theorem shareOfWords_one (length : ℤ) : shareOfWords 1 length = length.toNat / 8 := by
  rw [shareOfWords, one_mul, Nat.floor_natCast]

/-- The seed whose mask under the constant of `mutate_entropy_block` is that of the given seed
under the constant of `apply_entropy`. -/
def rewhitenedSeed (seed : ℤ) : ℤ :=
  Int.xor (Int.xor seed 0x5555555555555555) 0x9E3779B97F4A7C15

/-- A 64-bit seed and a constant fold to a 64-bit value. -/
theorem xor_fits {seed : ℤ} (hseed : 0 ≤ seed ∧ seed < 2 ^ 64) {pattern : ℕ}
    (hpattern : pattern < 2 ^ 64) :
    0 ≤ Int.xor seed pattern ∧ Int.xor seed pattern < 2 ^ 64 :=
  (xor_fits_iff seed hpattern).mpr hseed

/-- Both constants lead to the same value. -/
theorem xor_rewhitenedSeed {seed : ℤ} (hseed : 0 ≤ seed) :
    Int.xor (rewhitenedSeed seed) 0x9E3779B97F4A7C15 = Int.xor seed 0x5555555555555555 := by
  obtain ⟨value, rfl⟩ := Int.eq_ofNat_of_zero_le hseed
  change ((value ^^^ 0x5555555555555555 ^^^ 0x9E3779B97F4A7C15 ^^^ 0x9E3779B97F4A7C15 : ℕ) : ℤ) =
    ((value ^^^ 0x5555555555555555 : ℕ) : ℤ)
  rw [Nat.xor_xor_cancel_right]

/-- A 64-bit value is the zero word only if it is zero. -/
theorem ofInt_eq_zero_iff {value : ℤ} (h : 0 ≤ value ∧ value < 2 ^ 64) :
    BitVec.ofInt 64 value = 0#64 ↔ value = 0 := by
  rw [← BitVec.toNat_inj, BitVec.toNat_ofInt]
  change (value % 2 ^ 64).toNat = 0 ↔ value = 0
  rw [Int.emod_eq_of_lt h.1 h.2]
  omega

namespace PySIMDPayloadMutator

/-- Mutate the slice of an offset and a length through its direct buffer. -/
def mutateSlice (mutator : PySIMDPayloadMutator size) (offset length seed : ℤ)
    (entropyRatio : ℚ) :
    Except PyException (DirectBuffer (MemoryView size)) × PySIMDPayloadMutator size :=
  match mutator.getOrCreateSliceBuffer offset length with
  | (.error e, next) => (.error e, next)
  | (.ok buf, next) =>
    let (answer, final) := next.mutateDirectBuffer buf seed entropyRatio
    (answer.map fun _ => buf, final)

/-- A whole word of a slice that reads differently in another mutator. -/
def ChangedWord (before after : PySIMDPayloadMutator size) (view : MemoryView size)
    (k : ℕ) : Prop :=
  k < view.length / 8 ∧ wordAt (before.viewBytes view) k ≠ wordAt (after.viewBytes view) k

/-- A mutation changed the first `count` whole words of a slice and no other byte. -/
structure ChangesPrefix (before after : PySIMDPayloadMutator size) (view : MemoryView size)
    (count : ℕ) : Prop where
  /-- as many words differ -/
  number : changedWords (before.viewBytes view) (after.viewBytes view) = count
  /-- they are the leading ones -/
  leading : ∀ k, ChangedWord before after view k ↔ k < count
  /-- every other byte of the mapping is as it was -/
  elsewhere : ∀ j, j < view.start ∨ view.start + 8 * count ≤ j →
    after.buffer[j]? = before.buffer[j]?

/-- Every word changed in the first is changed alike in the second. -/
def Extends (before first second : PySIMDPayloadMutator size) (view : MemoryView size) : Prop :=
  ∀ k, ChangedWord before first view k →
    ChangedWord before second view k ∧
      wordAt (second.viewBytes view) k = wordAt (first.viewBytes view) k

/-- A mask was folded into the first `count` whole words of a slice. -/
structure Folded (before after : PySIMDPayloadMutator size) (view : MemoryView size)
    (mask : BitVec 64) (count : ℕ) : Prop where
  count_le : count ≤ view.length / 8
  buffer : after.buffer =
    xorPattern (patternFrom view.start (maskPattern mask count)) before.buffer

/-- A view shows as many bytes as it is long. -/
theorem viewBytes_length (mutator : PySIMDPayloadMutator size) (view : MemoryView size) :
    (mutator.viewBytes view).length = view.length := by
  have hlength := mutator.bufferLength
  have hinside := view.inside
  rw [viewBytes, List.length_take, List.length_drop]
  omega

section Folded

variable {before after : PySIMDPayloadMutator size} {view : MemoryView size} {mask : BitVec 64}
  {count : ℕ}

/-- The view of a folded slice has the mask in its leading words. -/
theorem Folded.viewBytes (h : Folded before after view mask count) :
    after.viewBytes view = xorPattern (maskPattern mask count) (before.viewBytes view) := by
  have hlength := before.bufferLength
  have hinside := view.inside
  rw [PySIMDPayloadMutator.viewBytes, h.buffer, slice_xorPattern _ (by omega)]
  rfl

/-- A nonzero mask changes exactly the words it is folded into. -/
theorem Folded.changesPrefix (h : Folded before after view mask count) (hmask : mask ≠ 0#64) :
    ChangesPrefix before after view count := by
  have hcount := h.count_le
  have hlength := before.viewBytes_length view
  refine ⟨?_, ?_, ?_⟩
  · rw [h.viewBytes, changedWords_maskPattern _ _ _ (by omega), if_neg hmask]
  · intro k
    rw [ChangedWord, h.viewBytes]
    constructor
    · rintro ⟨hk, hchanged⟩
      exact ((wordAt_ne_maskPattern_iff _ _ _ k (by omega)).mp hchanged).1
    · intro hk
      exact ⟨by omega, (wordAt_ne_maskPattern_iff _ _ _ k (by omega)).mpr ⟨hk, hmask⟩⟩
  · intro j hj
    rw [h.buffer]
    exact getElem?_xorPattern_of_eq_zero (patternFrom_maskPattern_outside mask hj) before.buffer

/-- Folding the same mask into more words extends the change. -/
theorem Folded.extends (h : Folded before after view mask count)
    {further : PySIMDPayloadMutator size} {more : ℕ}
    (hfurther : Folded before further view mask more) (hle : count ≤ more) :
    Extends before after further view := by
  rintro k ⟨hk, hchanged⟩
  have hlength := before.viewBytes_length view
  rw [h.viewBytes] at hchanged ⊢
  have hleading := (wordAt_ne_maskPattern_iff _ _ _ k (by omega)).mp hchanged
  have hmore : k < more := Nat.lt_of_lt_of_le hleading.1 hle
  rw [ChangedWord, hfurther.viewBytes]
  refine ⟨⟨hk, (wordAt_ne_maskPattern_iff _ _ _ k (by omega)).mpr ⟨hmore, hleading.2⟩⟩, ?_⟩
  rw [wordAt_maskPattern _ _ _ k (by omega), wordAt_maskPattern _ _ _ k (by omega),
    if_pos hmore, if_pos hleading.1]

end Folded

/-- Renaming an answer does not change whether there is one. -/
theorem isOk_map {α β : Type} (f : α → β) (answer : Except PyException α) :
    (answer.map f).isOk = answer.isOk := by
  cases answer <;> rfl

/-- A slice that a request inside the mapping is answered with. -/
structure SliceAnswer (mutator next : PySIMDPayloadMutator size) (offset length : ℤ)
    (buf : DirectBuffer (MemoryView size)) : Prop where
  served : mutator.getOrCreateSliceBuffer offset length = (.ok buf, next)
  buffer : next.buffer = mutator.buffer
  view : buf.view = sliceView size offset (offset + length)
  length : buf.view.length = length.toNat

/-- Every request inside the mapping without a negative entry is answered with its slice. -/
theorem CacheSound.sliceAnswer {mutator : PySIMDPayloadMutator size} (h : mutator.CacheSound)
    {offset length : ℤ} (hoffset : 0 ≤ offset) (hlength : 0 ≤ length)
    (hstop : offset + length ≤ size) :
    ∃ buf next, SliceAnswer mutator next offset length buf := by
  obtain ⟨next, hserved, -, hbuffer, -⟩ := getOrCreateSliceBuffer_sound h hstop
  exact ⟨_, next, hserved, hbuffer, rfl, (sliceView_of_nonneg hoffset hlength hstop).2⟩

section Answered

variable {mutator next : PySIMDPayloadMutator size} {offset length : ℤ}
  {buf : DirectBuffer (MemoryView size)}

/-- Folding a value of 64 bits into leading words of an answered slice. -/
theorem SliceAnswer.foldWords (h : SliceAnswer mutator next offset length buf) {ratio : ℚ}
    (hratio : ratio ≤ 1) {value : ℤ} (hvalue : 0 ≤ value ∧ value < 2 ^ 64) :
    (next.foldWords buf.view (shareOfWords ratio length) value).1.isOk = true ∧
      Folded mutator (next.foldWords buf.view (shareOfWords ratio length) value).2
        (sliceView size offset (offset + length)) (BitVec.ofInt 64 value)
        (shareOfWords ratio length) := by
  have hshare : shareOfWords ratio length ≤ buf.view.length / 8 := by
    rw [h.length]
    exact floor_share_le hratio _
  have hacts := (foldWords_actsAs next buf.view hshare value).1
  refine ⟨hacts.answered.mpr fun _ => hvalue, ?_, ?_⟩
  · rw [← h.view]
    exact hshare
  · rw [hacts.folded fun _ => hvalue, h.buffer, h.view]

/-- Mutating a block folds the share of its ratio. -/
theorem SliceAnswer.mutateEntropyBlock (h : SliceAnswer mutator next offset length buf)
    {ratio : ℚ} (hratio : 0 ≤ ratio ∧ ratio ≤ 1) (seed : ℤ) :
    mutator.mutateEntropyBlock offset length ratio seed =
      let folded := next.foldWords buf.view (shareOfWords ratio length)
        (Int.xor seed 0x9E3779B97F4A7C15)
      (folded.1.map fun _ => buf, folded.2) := by
  rw [mutateEntropyBlock_eq hratio seed h.served, h.length, shareOfWords]

/-- So does mutating the slice through its direct buffer. -/
theorem SliceAnswer.mutateSlice (h : SliceAnswer mutator next offset length buf)
    {ratio : ℚ} (hratio : 0 ≤ ratio ∧ ratio ≤ 1) (seed : ℤ) :
    mutator.mutateSlice offset length seed ratio =
      let folded := next.foldWords buf.view (shareOfWords ratio length)
        (Int.xor seed 0x9E3779B97F4A7C15)
      (folded.1.map fun _ => buf, folded.2) := by
  have hclamped : min (max ratio 0) 1 = ratio := by
    rw [max_eq_left hratio.1, min_eq_left hratio.2]
  simp only [PySIMDPayloadMutator.mutateSlice, h.served, mutateDirectBuffer_eq, hclamped,
    h.length, shareOfWords]

/-- Applying entropy folds every whole word. -/
theorem SliceAnswer.applyEntropy (h : SliceAnswer mutator next offset length buf) (seed : ℤ) :
    mutator.applyEntropy offset length seed =
      let folded := next.foldWords buf.view (shareOfWords 1 length)
        (Int.xor seed 0x5555555555555555)
      (folded.1.map fun _ => buf, folded.2) := by
  rw [applyEntropy_eq seed h.served, shareOfWords_one, h.length]

end Answered

/-- What the three entry points do to one slice with one seed and one ratio. -/
structure EntryPointsAgree (mutator : PySIMDPayloadMutator size) (offset length seed : ℤ)
    (ratio : ℚ) : Prop where
  /-- none of them raises -/
  succeed : (mutator.mutateEntropyBlock offset length ratio seed).1.isOk = true ∧
    (mutator.applyEntropy offset length seed).1.isOk = true
  /-- mutating a block is mutating its slice through the direct buffer -/
  blockIsDirect : mutator.mutateEntropyBlock offset length ratio seed =
    mutator.mutateSlice offset length seed ratio
  /-- applying entropy is mutating the whole block with the other constant -/
  entropyIsBlock : mutator.applyEntropy offset length seed =
    mutator.mutateEntropyBlock offset length 1 (rewhitenedSeed seed)
  /-- a block changes in exactly the share of its words -/
  blockChanges : Int.xor seed 0x9E3779B97F4A7C15 ≠ 0 →
    ChangesPrefix mutator (mutator.mutateEntropyBlock offset length ratio seed).2
      (sliceView size offset (offset + length)) (shareOfWords ratio length)
  /-- so does a direct buffer -/
  directChanges : Int.xor seed 0x9E3779B97F4A7C15 ≠ 0 →
    ChangesPrefix mutator (mutator.mutateSlice offset length seed ratio).2
      (sliceView size offset (offset + length)) (shareOfWords ratio length)
  /-- applied entropy changes every whole word -/
  entropyChanges : Int.xor seed 0x5555555555555555 ≠ 0 →
    ChangesPrefix mutator (mutator.applyEntropy offset length seed).2
      (sliceView size offset (offset + length)) (length.toNat / 8)
  /-- a larger ratio only extends the change -/
  blockExtends : ∀ larger, ratio ≤ larger → larger ≤ 1 →
    Extends mutator (mutator.mutateEntropyBlock offset length ratio seed).2
      (mutator.mutateEntropyBlock offset length larger seed).2
      (sliceView size offset (offset + length))
  /-- through a direct buffer as well -/
  directExtends : ∀ larger, ratio ≤ larger → larger ≤ 1 →
    Extends mutator (mutator.mutateSlice offset length seed ratio).2
      (mutator.mutateSlice offset length seed larger).2
      (sliceView size offset (offset + length))

/-- Whatever the state of a mutator, its entry points agree on every slice inside the mapping,
for every 64-bit seed and every ratio. -/
theorem Reachable.entryPoints_agree {mutator : PySIMDPayloadMutator size}
    (h : mutator.Reachable) {offset length seed : ℤ} {ratio : ℚ} (hoffset : 0 ≤ offset)
    (hlength : 0 ≤ length) (hstop : offset + length ≤ size) (hseed : 0 ≤ seed ∧ seed < 2 ^ 64)
    (hratio : 0 ≤ ratio ∧ ratio ≤ 1) : mutator.EntryPointsAgree offset length seed ratio := by
  obtain ⟨buf, next, hslice⟩ := h.cacheSound.sliceAnswer hoffset hlength hstop
  have hblockValue := xor_fits hseed (by decide : 0x9E3779B97F4A7C15 < 2 ^ 64)
  have hentropyValue := xor_fits hseed (by decide : 0x5555555555555555 < 2 ^ 64)
  have hblock := hslice.foldWords hratio.2 hblockValue
  have hentropy := hslice.foldWords (le_refl 1) hentropyValue
  have hagree (ratio : ℚ) (hratio : 0 ≤ ratio ∧ ratio ≤ 1) :
      mutator.mutateEntropyBlock offset length ratio seed =
        mutator.mutateSlice offset length seed ratio := by
    rw [hslice.mutateEntropyBlock hratio, hslice.mutateSlice hratio]
  have hchanges (hmask : Int.xor seed 0x9E3779B97F4A7C15 ≠ 0) :
      ChangesPrefix mutator (mutator.mutateEntropyBlock offset length ratio seed).2
        (sliceView size offset (offset + length)) (shareOfWords ratio length) := by
    rw [hslice.mutateEntropyBlock hratio]
    exact hblock.2.changesPrefix (mt (ofInt_eq_zero_iff hblockValue).mp hmask)
  have hextends (larger : ℚ) (hle : ratio ≤ larger) (hlarger : larger ≤ 1) :
      Extends mutator (mutator.mutateEntropyBlock offset length ratio seed).2
        (mutator.mutateEntropyBlock offset length larger seed).2
        (sliceView size offset (offset + length)) := by
    rw [hslice.mutateEntropyBlock hratio, hslice.mutateEntropyBlock ⟨hratio.1.trans hle, hlarger⟩]
    exact hblock.2.extends (hslice.foldWords hlarger hblockValue).2 (shareOfWords_mono hle length)
  refine ⟨⟨?_, ?_⟩, hagree ratio hratio, ?_, hchanges, ?_, ?_, hextends, ?_⟩
  · rw [hslice.mutateEntropyBlock hratio, isOk_map]
    exact hblock.1
  · rw [hslice.applyEntropy, isOk_map]
    exact hentropy.1
  · rw [hslice.applyEntropy, hslice.mutateEntropyBlock ⟨zero_le_one, le_refl 1⟩,
      xor_rewhitenedSeed hseed.1]
  · rw [← hagree ratio hratio]
    exact hchanges
  · intro hmask
    rw [hslice.applyEntropy, ← shareOfWords_one]
    exact hentropy.2.changesPrefix (mt (ofInt_eq_zero_iff hentropyValue).mp hmask)
  · intro larger hle hlarger
    rw [← hagree ratio hratio, ← hagree larger ⟨hratio.1.trans hle, hlarger⟩]
    exact hextends larger hle hlarger

/-- On twenty bytes at an odd offset of a fresh mapping, half of the two words is one. -/
theorem entryPoints_agree_twenty_bytes :
    (fresh 24 0x7f0000000000).EntryPointsAgree 3 20 7 (1 / 2) ∧ shareOfWords (1 / 2) 20 = 1 := by
  have hfresh : (fresh 24 0x7f0000000000).Reachable := .fresh 0x7f0000000000
  refine ⟨Reachable.entryPoints_agree hfresh (by decide) (by decide) (by decide) (by decide) ?_, ?_⟩
  · norm_num
  · decide +kernel

end PySIMDPayloadMutator

end Steve.Payload
