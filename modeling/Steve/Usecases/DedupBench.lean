import Mathlib.Data.Finset.Image
import Steve.Library.ConsecutiveXor
import Steve.Library.RangeLoop
import Steve.Payload.BlockEntropy
import Steve.Usecases.WritePhase

/-!
# The deduplication and compression benchmark

For each of five ratios the benchmark mutates a fresh buffer once, measures a sample of its
first bytes, and then times further mutations. The words a ratio reaches lie at the front of
the buffer, where the sample is taken from, so every ratio but zero shows the same sample: eight
bytes repeated. The audit at the end mutates one buffer with the full ratio over and over,
and what it calls the zero pattern is what the mutations before have left.
-/

namespace Steve.Usecases

open Steve.Library
open Steve.Adapters
open Steve.Payload

/-- The arguments of a benchmark; the size and the iterations are natural numbers, so the negative
integers that the source takes as well are left out. -/
structure BenchParameters where
  bufferSizeMb : ℕ
  iterations : ℕ
  verifyDedup : Bool

/-- What a benchmark's surroundings decide. -/
structure BenchEnvironment where
  /-- the mutators' mappings in turn -/
  mmap : ℕ → Except PyException ℕ
  /-- `zlib.compress(data, level=6)` -/
  compress : List Byte → List Byte
  /-- `hashlib.sha256(data).hexdigest()` -/
  digest : List Byte → String
  /-- the time measured around the mutations of each ratio -/
  elapsedSec : ℕ → ℚ

/-- The numbers printed for a ratio, with the sample that its entropy is of. -/
structure BenchRow where
  ratio : ℚ
  sample : List Byte
  zlibSavings : ℚ
  gbps : ℚ
  gbSec : ℚ

/-- The numbers of different digests that an audit counts. -/
structure DedupAudit where
  zeroHashes : ℕ
  randHashes : ℕ

/-- A benchmark's report. -/
structure BenchReport where
  rows : List BenchRow
  audit : Option DedupAudit

/-- The ratios of the benchmark. -/
def benchRatios : List ℚ := [0, 1 / 4, 1 / 2, 3 / 4, 1]

/-- The size of the buffer. -/
def BenchParameters.bufferSizeBytes (params : BenchParameters) : ℕ :=
  params.bufferSizeMb * 1024 * 1024

/-- The percentage that a length takes off another one, if it takes any off. -/
def savingsPercent (shorter longer : ℚ) : ℚ := max 0 ((1 - shorter / longer) * 100)

/-- `measure_empirical_compression`: the savings in percent. -/
def measureEmpiricalCompression (compress : List Byte → List Byte) (data : List Byte) : ℚ :=
  if data = [] then 0 else savingsPercent (compress data).length data.length

/-- The savings in percent that an entropy of so many bits in a byte stands for. -/
noncomputable def theorySavings (shannonBits : ℝ) : ℝ := max 0 ((1 - shannonBits / 8) * 100)

/-- The timed mutations of one ratio. -/
def timedMutation {size : ℕ} (ratio : ℚ) (i : ℕ) (mutator : PySIMDPayloadMutator size) :
    Option PyException × PySIMDPayloadMutator size :=
  match mutator.mutateEntropyBlock 0 size ratio i with
  | (.error e, next) => (some e, next)
  | (.ok _, next) => (none, next)

/-- The measurements of one ratio. -/
def benchRow (params : BenchParameters) (env : BenchEnvironment) (number : ℕ) (ratio : ℚ) :
    Except PyException BenchRow :=
  let size := params.bufferSizeBytes
  match env.mmap number with
  | .error e => .error e
  | .ok address =>
    match (PySIMDPayloadMutator.fresh size address).mutateEntropyBlock 0 size ratio 42 with
    | (.error e, _) => .error e
    | (.ok buf, mutator) =>
      let sample := (mutator.viewBytes buf.view).take (min size 65536)
      match forRange (timedMutation ratio) params.iterations mutator with
      | (some e, _) => .error e
      | (none, _) =>
        let totalBytes := size * params.iterations
        .ok
          { ratio := ratio
            sample := sample
            zlibSavings := measureEmpiricalCompression env.compress sample
            gbps := ratePerSecond totalBytes (env.elapsedSec number)
            gbSec := totalBytes / atLeastNanosecond (env.elapsedSec number) / (1024 : ℕ) ^ 3 }

/-- The measurements of some ratios in turn. -/
def benchRows (params : BenchParameters) (env : BenchEnvironment) :
    ℕ → List ℚ → Except PyException (List BenchRow)
  | _, [] => .ok []
  | number, ratio :: rest =>
    match benchRow params env number ratio with
    | .error e => .error e
    | .ok row =>
      match benchRows params env (number + 1) rest with
      | .error e => .error e
      | .ok rows => .ok (row :: rows)

/-- The variables of an audit: the mutator and the digests met so far. -/
structure AuditState where
  mutator : PySIMDPayloadMutator 65536
  zeroHashes : Finset String
  randHashes : Finset String

/-- The digest of a buffer's first page. -/
def pageDigest (digest : List Byte → String) (mutator : PySIMDPayloadMutator 65536)
    (buf : DirectBuffer (MemoryView 65536)) : String :=
  digest ((mutator.viewBytes buf.view).take 4096)

/-- One block of an audit: no mutation, then one of the whole buffer. -/
def auditBlock (digest : List Byte → String) (b : ℕ) (state : AuditState) :
    Option PyException × AuditState :=
  match state.mutator.mutateEntropyBlock 0 65536 0 0 with
  | (.error e, mutator) => (some e, { state with mutator := mutator })
  | (.ok zeroBuf, mutator) =>
    let zeroHashes := insert (pageDigest digest mutator zeroBuf) state.zeroHashes
    match mutator.mutateEntropyBlock 0 65536 1 b with
    | (.error e, mutator) => (some e, ⟨mutator, zeroHashes, state.randHashes⟩)
    | (.ok randBuf, mutator) =>
      (none, ⟨mutator, zeroHashes, insert (pageDigest digest mutator randBuf) state.randHashes⟩)

/-- The audit of some blocks. -/
def dedupAudit (env : BenchEnvironment) (number blocks : ℕ) : Except PyException DedupAudit :=
  match env.mmap number with
  | .error e => .error e
  | .ok address =>
    match forRange (auditBlock env.digest) blocks ⟨.fresh 65536 address, ∅, ∅⟩ with
    | (some e, _) => .error e
    | (none, final) => .ok ⟨final.zeroHashes.card, final.randHashes.card⟩

/-- `run_dedup_compression_bench`. -/
def runDedupCompressionBench (params : BenchParameters) (env : BenchEnvironment) :
    Except PyException BenchReport :=
  match benchRows params env 0 benchRatios with
  | .error e => .error e
  | .ok rows =>
    if params.verifyDedup then
      match dedupAudit env benchRatios.length 16 with
      | .error e => .error e
      | .ok audit => .ok ⟨rows, some audit⟩
    else .ok ⟨rows, none⟩

section Rows

variable {params : BenchParameters} {env : BenchEnvironment}

/-- The sample of a ratio. -/
def benchSample (params : BenchParameters) (ratio : ℚ) : List Byte :=
  (xorPattern (maskPattern (ratioMask 42) (ratioWords ratio params.bufferSizeBytes))
    (List.replicate params.bufferSizeBytes 0#8)).take (min params.bufferSizeBytes 65536)

/-- What is measured of a ratio. -/
def measuredRow (params : BenchParameters) (env : BenchEnvironment) (number : ℕ) (ratio : ℚ) :
    BenchRow where
  ratio := ratio
  sample := benchSample params ratio
  zlibSavings := measureEmpiricalCompression env.compress (benchSample params ratio)
  gbps := ratePerSecond (params.bufferSizeBytes * params.iterations) (env.elapsedSec number)
  gbSec := (params.bufferSizeBytes * params.iterations : ℕ) /
    atLeastNanosecond (env.elapsedSec number) / (1024 : ℕ) ^ 3

/-- Timed mutations never raise. -/
theorem timedMutations_ok {size address iterations : ℕ} {ratio : ℚ}
    (hratio : 0 ≤ ratio ∧ ratio ≤ 1) (hseeds : iterations ≤ 2 ^ 64)
    {mutator : PySIMDPayloadMutator size} {bytes : List Byte}
    (h : mutator.WholeBlock address bytes) :
    ∃ final, forRange (timedMutation ratio) iterations mutator = (none, final) := by
  let Inv (_ : ℕ) (current : PySIMDPayloadMutator size) : Prop :=
    ∃ bytes, current.WholeBlock address bytes
  have hstep : ∀ i < iterations, ∀ current, Inv i current →
      ∃ next, timedMutation ratio i current = (none, next) ∧ Inv (i + 1) next := by
    rintro i hi current ⟨bytes, hblock⟩
    obtain ⟨next, hnext, hafter⟩ :=
      PySIMDPayloadMutator.mutateEntropyBlock_folds hratio (hi.trans_le hseeds) hblock
    exact ⟨next, by rw [timedMutation, hnext], _, hafter⟩
  obtain ⟨final, hfinal, -⟩ := forRange_spec Inv hstep ⟨bytes, h⟩
  exact ⟨final, hfinal⟩

/-- A ratio is measured on a fresh buffer. -/
theorem benchRow_ok {number address : ℕ} {ratio : ℚ} (hratio : 0 ≤ ratio ∧ ratio ≤ 1)
    (hseeds : params.iterations ≤ 2 ^ 64) (hmmap : env.mmap number = .ok address) :
    benchRow params env number ratio = .ok (measuredRow params env number ratio) := by
  have hseed : 42 < 2 ^ 64 := by norm_num
  obtain ⟨mutator, hmutate, hblock⟩ := PySIMDPayloadMutator.mutateEntropyBlock_folds hratio hseed
    (PySIMDPayloadMutator.fresh_wholeBlock 0 params.bufferSizeBytes address)
  obtain ⟨final, hfinal⟩ := timedMutations_ok hratio hseeds hblock
  have hview : mutator.viewBytes (MemoryView.whole params.bufferSizeBytes) = mutator.buffer :=
    congrArg DirectBuffer.view (mutator.contents_wholeBuffer address)
  have hsample : (mutator.viewBytes (MemoryView.whole params.bufferSizeBytes)).take
      (min params.bufferSizeBytes 65536) = benchSample params ratio := by
    rw [hview, hblock.buffer]
    rfl
  have hmutate : (PySIMDPayloadMutator.fresh params.bufferSizeBytes address).mutateEntropyBlock 0
      params.bufferSizeBytes ratio 42 =
        (.ok (PySIMDPayloadMutator.wholeBuffer params.bufferSizeBytes address), mutator) := hmutate
  simp only [benchRow, hmmap, hmutate, hfinal, PySIMDPayloadMutator.wholeBuffer, hsample]
  rfl

/-- Ratios are measured in turn. -/
theorem benchRows_ok (hseeds : params.iterations ≤ 2 ^ 64) {ratios : List ℚ}
    (hratios : ∀ ratio ∈ ratios, 0 ≤ ratio ∧ ratio ≤ 1) (number : ℕ)
    (hmmap : ∀ i < ratios.length, ∃ address, env.mmap (number + i) = .ok address) :
    benchRows params env number ratios =
      .ok (ratios.mapIdx fun i ratio => measuredRow params env (number + i) ratio) := by
  induction ratios generalizing number with
  | nil => rfl
  | cons ratio rest ih =>
    obtain ⟨address, haddress⟩ := hmmap 0 (Nat.succ_pos _)
    obtain ⟨hratio, hrest⟩ := List.forall_mem_cons.mp hratios
    have hlater : ∀ i < rest.length, ∃ address, env.mmap (number + 1 + i) = .ok address := by
      intro i hi
      have hnumber : number + 1 + i = number + (i + 1) := by omega
      rw [hnumber]
      exact hmmap (i + 1) (Nat.succ_lt_succ hi)
    rw [Nat.add_zero] at haddress
    rw [benchRows, benchRow_ok hratio hseeds haddress, ih hrest (number + 1) hlater,
      List.mapIdx_cons]
    simp only [Nat.add_zero, Nat.add_assoc, Nat.add_comm 1]

/-- A mebibyte holds the sample. -/
theorem sample_le (hsize : 1 ≤ params.bufferSizeMb) : 65536 ≤ params.bufferSizeBytes := by
  rw [BenchParameters.bufferSizeBytes]
  omega

/-- A ratio that reaches the sample's end shows a masked sample, whatever it is. -/
theorem benchSample_of_le {ratio : ℚ} (hsize : 1 ≤ params.bufferSizeMb)
    (hratio : 1 ≤ 16 * params.bufferSizeMb * ratio) :
    benchSample params ratio = maskedBlock (ratioMask 42) 65536 := by
  have hwords : params.bufferSizeBytes / 8 = params.bufferSizeMb * 131072 := by
    rw [BenchParameters.bufferSizeBytes]
    omega
  have hreached : 8192 ≤ ⌊(params.bufferSizeBytes / 8 : ℕ) * ratio⌋₊ := by
    apply Nat.le_floor
    rw [hwords]
    push_cast
    linarith
  have hmasked : 65536 ≤ 8 * ratioWords ratio params.bufferSizeBytes := by
    rw [ratioWords]
    omega
  rw [benchSample, Nat.min_eq_right (sample_le hsize)]
  exact take_maskPattern (by decide) hmasked (sample_le hsize)

/-- The ratio zero shows a sample of zeros. -/
theorem benchSample_zero (hsize : 1 ≤ params.bufferSizeMb) :
    benchSample params 0 = List.replicate 65536 0#8 := by
  rw [benchSample, ratioWords, mul_zero, Nat.floor_zero, Nat.zero_min, maskPattern_zero_words,
    xorPattern_zero, List.take_replicate, Nat.min_eq_right (sample_le hsize),
    Nat.min_eq_left (sample_le hsize)]

end Rows

section Audit

/-- What the first mutations with the full ratio leave in a block's words. -/
def auditMask (count : ℕ) : BitVec 64 := foldedMasks ratioMask count

/-- The seeds of the first mutations, and their patterns, each folded apart. -/
theorem auditMask_eq (count : ℕ) :
    auditMask count = BitVec.ofNat 64
      (consecutiveXor 0 count ^^^ if Even count then 0 else 0x9E3779B97F4A7C15) := by
  induction count with
  | zero => rfl
  | succ count ih =>
    change auditMask count ^^^ ratioMask count = _
    rw [ih, ratioMask, ← BitVec.ofNat_xor, consecutiveXor, Nat.zero_add]
    congr 1
    by_cases heven : Even count
    · rw [if_pos heven, if_neg (Nat.not_even_iff_odd.mpr heven.add_one), Nat.xor_zero,
        Nat.xor_assoc]
    · rw [if_neg heven, if_pos (Nat.not_even_iff_odd.mp heven).add_one, Nat.xor_zero,
        Nat.xor_comm count, Nat.xor_assoc, ← Nat.xor_assoc _ _ count, Nat.xor_self, Nat.zero_xor]

/-- An even number of mutations leaves zero or one. -/
theorem auditMask_of_even {count : ℕ} (h : Even count) :
    auditMask count = BitVec.ofNat 64 (count / 2 % 2) := by
  rw [auditMask_eq, if_pos h, Nat.xor_zero, consecutiveXor_of_even h]

/-- An odd number leaves the pattern, with the number or the one before it folded in. -/
theorem auditMask_of_odd {count : ℕ} (h : Odd count) :
    auditMask count =
      BitVec.ofNat 64 ((count - 1 + count / 2 % 2) ^^^ 0x9E3779B97F4A7C15) := by
  rw [auditMask_eq, if_neg (Nat.not_even_iff_odd.mpr h), consecutiveXor_of_odd h]

/-- Words that agree as bit vectors agree as naturals. -/
theorem ofNat_inj_of_lt {left right : ℕ} (hleft : left < 2 ^ 64) (hright : right < 2 ^ 64) :
    BitVec.ofNat 64 left = BitVec.ofNat 64 right ↔ left = right := by
  rw [← BitVec.toNat_inj, BitVec.toNat_ofNat, BitVec.toNat_ofNat, Nat.mod_eq_of_lt hleft,
    Nat.mod_eq_of_lt hright]

/-- An even and an odd number of mutations leave different masks. -/
theorem auditMask_ne {even odd : ℕ} (heven : Even even) (hodd : Odd odd) (hbound : odd ≤ 2 ^ 63) :
    auditMask even ≠ auditMask odd := by
  have hlow : odd - 1 + odd / 2 % 2 < 2 ^ 63 := by
    obtain ⟨half, rfl⟩ := hodd
    omega
  rw [auditMask_of_even heven, auditMask_of_odd hodd, Ne, ofNat_inj_of_lt (by omega)
    (Nat.xor_lt_two_pow (by omega) (by decide))]
  intro h
  have hpattern := congrArg (· ^^^ 0x9E3779B97F4A7C15) h
  simp only [Nat.xor_assoc, Nat.xor_self, Nat.xor_zero] at hpattern
  -- the pattern's highest bit stays, and the numbers folded have none so high
  rcases Nat.mod_two_eq_zero_or_one (even / 2) with hbit | hbit
  · rw [hbit, Nat.zero_xor] at hpattern
    omega
  · have hodd : 1 ^^^ 0x9E3779B97F4A7C15 = 0x9E3779B97F4A7C14 := by decide
    rw [hbit, hodd] at hpattern
    omega

/-- Two numbers of mutations leave the same exactly when both are even and differ by fours. -/
theorem auditMask_eq_iff {first second : ℕ} (hlt : first < second) (hbound : second ≤ 2 ^ 63) :
    auditMask first = auditMask second ↔ Even second ∧ 4 ∣ second - first := by
  rcases Nat.even_or_odd first with hfirst | hfirst <;>
    rcases Nat.even_or_odd second with hsecond | hsecond
  · rw [auditMask_of_even hfirst, auditMask_of_even hsecond, ofNat_inj_of_lt (by omega) (by omega)]
    obtain ⟨half, rfl⟩ := hfirst
    obtain ⟨other, rfl⟩ := hsecond
    constructor
    · intro h
      exact ⟨⟨other, rfl⟩, by omega⟩
    · rintro ⟨-, h⟩
      omega
  · refine iff_of_false (auditMask_ne hfirst hsecond hbound) ?_
    rintro ⟨heven, -⟩
    exact Nat.not_even_iff_odd.mpr hsecond heven
  · refine iff_of_false (auditMask_ne hsecond hfirst (by omega)).symm ?_
    rintro ⟨-, h⟩
    obtain ⟨half, rfl⟩ := hfirst
    obtain ⟨other, rfl⟩ := hsecond
    omega
  · have hsame : auditMask first ≠ auditMask second := by
      rw [auditMask_of_odd hfirst, auditMask_of_odd hsecond, Ne, ofNat_inj_of_lt
        (Nat.xor_lt_two_pow (by omega) (by decide)) (Nat.xor_lt_two_pow (by omega) (by decide)),
        Nat.xor_left_inj]
      obtain ⟨half, rfl⟩ := hfirst
      obtain ⟨other, rfl⟩ := hsecond
      omega
    refine iff_of_false hsame ?_
    rintro ⟨heven, -⟩
    exact Nat.not_even_iff_odd.mpr hsecond heven

/-- The even numbers among the `count` numbers from `start` on. -/
def evensFrom (start count : ℕ) : ℕ := (start + count + 1) / 2 - (start + 1) / 2

/-- A mask has come up before exactly when the number is even and four earlier ones have. -/
theorem auditMask_repeats_iff {start count : ℕ} (hbound : start + count ≤ 2 ^ 63) :
    auditMask (start + count) ∈ (Finset.range count).image (fun i => auditMask (start + i)) ↔
      Even (start + count) ∧ 4 ≤ count := by
  rw [Finset.mem_image]
  constructor
  · rintro ⟨i, hi, hsame⟩
    have hlt : i < count := Finset.mem_range.mp hi
    obtain ⟨heven, hfours⟩ := (auditMask_eq_iff (by omega) hbound).mp hsame
    exact ⟨heven, by omega⟩
  · rintro ⟨heven, hcount⟩
    refine ⟨count - 4, Finset.mem_range.mpr (by omega), ?_⟩
    exact (auditMask_eq_iff (by omega) hbound).mpr ⟨heven, by omega⟩

/-- Numbers of mutations in a row leave as many masks as there are odd ones among them, and two
more at most. -/
theorem card_auditMasks (start count : ℕ) (hbound : start + count ≤ 2 ^ 63) :
    ((Finset.range count).image fun i => auditMask (start + i)).card =
      count - evensFrom start count + min (evensFrom start count) 2 := by
  induction count with
  | zero => simp [evensFrom]
  | succ count ih =>
    have hcounted := ih (by omega)
    have hrepeats : auditMask (start + count) ∈
        (Finset.range count).image (fun i => auditMask (start + i)) ↔
          Even (start + count) ∧ 4 ≤ count := auditMask_repeats_iff (by omega)
    simp only [evensFrom] at hcounted ⊢
    rw [Finset.range_add_one, Finset.image_insert]
    by_cases heven : Even (start + count)
    · obtain ⟨half, hhalf⟩ := heven
      by_cases hfour : 4 ≤ count
      · rw [Finset.insert_eq_of_mem (hrepeats.mpr ⟨⟨half, hhalf⟩, hfour⟩), hcounted]
        omega
      · rw [Finset.card_insert_of_notMem (mt hrepeats.mp fun h => hfour h.2), hcounted]
        omega
    · rw [Finset.card_insert_of_notMem (mt hrepeats.mp fun h => heven h.1), hcounted]
      obtain ⟨half, hhalf⟩ := Nat.not_even_iff_odd.mp heven
      omega

/-- The page digested after some mutations. -/
def auditPage (count : ℕ) : List Byte := maskedBlock (auditMask count) 4096

/-- An audit after some blocks. -/
structure AuditInv (digest : List Byte → String) (address : ℕ) (b : ℕ) (state : AuditState) :
    Prop where
  block : state.mutator.WholeBlock address (maskedBlock (auditMask b) 65536)
  zeroHashes : state.zeroHashes = (Finset.range b).image fun i => digest (auditPage i)
  randHashes : state.randHashes = (Finset.range b).image fun i => digest (auditPage (1 + i))

/-- The digest of the whole buffer is of its first page. -/
theorem pageDigest_wholeBuffer (digest : List Byte → String)
    {mutator : PySIMDPayloadMutator 65536} {address count : ℕ}
    (h : mutator.WholeBlock address (maskedBlock (auditMask count) 65536)) :
    pageDigest digest mutator (PySIMDPayloadMutator.wholeBuffer 65536 address) =
      digest (auditPage count) := by
  have hview : mutator.viewBytes (PySIMDPayloadMutator.wholeBuffer 65536 address).view =
      mutator.buffer := congrArg DirectBuffer.view (mutator.contents_wholeBuffer address)
  rw [pageDigest, hview, h.buffer, maskedBlock,
    take_maskPattern (by decide) (by decide) (by decide), auditPage]

/-- The full ratio reaches every word of the audited buffer, and the ratio zero none. -/
theorem ratioWords_audit : ratioWords 1 65536 = 65536 / 8 ∧ ratioWords 0 65536 = 0 := by
  constructor
  · rw [ratioWords, mul_one, Nat.floor_natCast, Nat.min_self]
  · rw [ratioWords, mul_zero, Nat.floor_zero, Nat.zero_min]

/-- One more image of a range. -/
theorem image_range_succ {A : Type*} [DecidableEq A] (f : ℕ → A) (count : ℕ) :
    (Finset.range (count + 1)).image f = insert (f count) ((Finset.range count).image f) := by
  rw [Finset.range_add_one, Finset.image_insert]

/-- A block of an audit digests what the blocks before it left, and what it leaves. -/
theorem auditBlock_step {digest : List Byte → String} {address b : ℕ} {state : AuditState}
    (h : AuditInv digest address b state) (hb : b < 2 ^ 64) :
    ∃ next, auditBlock digest b state = (none, next) ∧ AuditInv digest address (b + 1) next := by
  obtain ⟨unmutated, hzero, hsame⟩ := PySIMDPayloadMutator.mutateEntropyBlock_folds
    ⟨le_refl (0 : ℚ), zero_le_one⟩ (Nat.two_pow_pos 64) h.block
  rw [ratioWords_audit.2, maskPattern_zero_words, xorPattern_zero] at hsame
  obtain ⟨mutated, hfull, hfolded⟩ := PySIMDPayloadMutator.mutateEntropyBlock_folds
    ⟨zero_le_one (α := ℚ), le_refl 1⟩ hb hsame
  rw [ratioWords_audit.1, maskedBlock_folds] at hfolded
  have hmutated : mutated.WholeBlock address (maskedBlock (auditMask (b + 1)) 65536) := hfolded
  have hzero : state.mutator.mutateEntropyBlock 0 65536 0 0 =
      (.ok (PySIMDPayloadMutator.wholeBuffer 65536 address), unmutated) := hzero
  have hfull : unmutated.mutateEntropyBlock 0 65536 1 b =
      (.ok (PySIMDPayloadMutator.wholeBuffer 65536 address), mutated) := hfull
  refine ⟨⟨mutated, insert (digest (auditPage b)) state.zeroHashes,
    insert (digest (auditPage (1 + b))) state.randHashes⟩, ?_, hmutated, ?_, ?_⟩
  · rw [Nat.add_comm 1 b]
    simp only [auditBlock, hzero, hfull, pageDigest_wholeBuffer digest hsame,
      pageDigest_wholeBuffer digest hmutated]
  · rw [image_range_succ, h.zeroHashes]
  · rw [image_range_succ, h.randHashes]

/-- Digests that tell an audit's pages apart are as many as its masks. -/
theorem card_auditDigests {digest : List Byte → String} {start count : ℕ}
    (hdigest : Set.InjOn digest {page | ∃ i < count, page = auditPage (start + i)}) :
    ((Finset.range count).image fun i => digest (auditPage (start + i))).card =
      ((Finset.range count).image fun i => auditMask (start + i)).card := by
  have himage : ((Finset.range count).image fun i => digest (auditPage (start + i))) =
      ((Finset.range count).image fun i => auditMask (start + i)).image
        fun mask => digest (maskedBlock mask 4096) := by
    rw [Finset.image_image]
    rfl
  rw [himage]
  apply Finset.card_image_of_injOn
  intro left hleft right hright hsame
  obtain ⟨i, hi, rfl⟩ := Finset.mem_image.mp hleft
  obtain ⟨j, hj, rfl⟩ := Finset.mem_image.mp hright
  apply maskedBlock_injective (by decide : 0 < 4096) (by decide)
  exact hdigest ⟨i, Finset.mem_range.mp hi, rfl⟩ ⟨j, Finset.mem_range.mp hj, rfl⟩ hsame

/-- The digests of as many masks in a row, among those of an audit. -/
theorem card_auditDigests_window {digest : List Byte → String} {start count blocks : ℕ}
    (hwindow : start + count ≤ blocks + 1) (hbound : start + count ≤ 2 ^ 63)
    (hdigest : Set.InjOn digest {page | ∃ i ≤ blocks, page = auditPage i}) :
    ((Finset.range count).image fun i => digest (auditPage (start + i))).card =
      count - evensFrom start count + min (evensFrom start count) 2 := by
  have hinjective : Set.InjOn digest {page | ∃ i < count, page = auditPage (start + i)} := by
    apply hdigest.mono
    rintro page ⟨i, hi, hpage⟩
    exact ⟨start + i, by omega, hpage⟩
  rw [card_auditDigests hinjective, card_auditMasks start count hbound]

/-- An audit makes all its mutations. -/
theorem auditBlocks_ok (digest : List Byte → String) (address : ℕ) {blocks : ℕ}
    (hblocks : blocks ≤ 2 ^ 64) :
    ∃ final, forRange (auditBlock digest) blocks ⟨.fresh 65536 address, ∅, ∅⟩ = (none, final) ∧
      AuditInv digest address blocks final := by
  have hfresh : AuditInv digest address 0 ⟨.fresh 65536 address, ∅, ∅⟩ := by
    refine ⟨?_, rfl, rfl⟩
    have hzeros : maskedBlock (auditMask 0) 65536 = blockAfter 0 65536 0 := maskedBlock_zero 65536
    rw [hzeros]
    exact PySIMDPayloadMutator.fresh_wholeBlock 0 65536 address
  have hstep : ∀ b < blocks, ∀ state, AuditInv digest address b state →
      ∃ next, auditBlock digest b state = (none, next) ∧
        AuditInv digest address (b + 1) next :=
    fun b hb _ hstate => auditBlock_step hstate (hb.trans_le hblocks)
  exact forRange_spec _ hstep hfresh

/-- An audit of any number of blocks finds the pages it calls zeroed and those it calls random
to repeat alike: every odd number of mutations leaves a page of its own, and the even ones two
pages at most. -/
theorem dedupAudit_counts (env : BenchEnvironment) (number blocks address : ℕ)
    (hmmap : env.mmap number = .ok address) (hblocks : blocks < 2 ^ 63)
    (hdigest : Set.InjOn env.digest {page | ∃ count ≤ blocks, page = auditPage count}) :
    dedupAudit env number blocks =
      .ok ⟨blocks / 2 + min ((blocks + 1) / 2) 2, (blocks + 1) / 2 + min (blocks / 2) 2⟩ := by
  obtain ⟨final, hfinal, hinv⟩ := auditBlocks_ok env.digest address
    (hblocks.le.trans (Nat.pow_le_pow_right two_pos (by decide)))
  have hzero : final.zeroHashes.card = blocks / 2 + min ((blocks + 1) / 2) 2 := by
    have hcard := card_auditDigests_window (by omega : 0 + blocks ≤ blocks + 1) (by omega) hdigest
    simp only [Nat.zero_add, evensFrom] at hcard
    rw [hinv.zeroHashes, hcard]
    omega
  have hrand : final.randHashes.card = (blocks + 1) / 2 + min (blocks / 2) 2 := by
    have hcard := card_auditDigests_window (by omega : 1 + blocks ≤ blocks + 1) (by omega) hdigest
    rw [evensFrom] at hcard
    rw [hinv.randHashes, hcard]
    omega
  simp only [dedupAudit, hmmap, hfinal, hzero, hrand]

end Audit

/-- The bytes that every sample but the zeroed one repeats are pairwise different. -/
theorem benchMask_nodup : (wordBytes (ratioMask 42)).Nodup := by decide

/-- The ratios are zero or reach the sample's end. -/
theorem benchRatios_reach {ratio : ℚ} (h : ratio ∈ benchRatios) :
    (0 ≤ ratio ∧ ratio ≤ 1) ∧ (ratio = 0 ∨ 1 / 4 ≤ ratio) := by
  simp only [benchRatios, List.mem_cons, List.not_mem_nil, or_false] at h
  rcases h with rfl | rfl | rfl | rfl | rfl <;> norm_num

/-- What a benchmark reports of its samples. -/
structure BenchReported (report : BenchReport) : Prop where
  ratios : report.rows.map BenchRow.ratio = benchRatios
  /-- the ratio zero shows zeros -/
  zeroed : ∀ row ∈ report.rows, row.ratio = 0 →
    row.sample = List.replicate 65536 0#8 ∧ shannonEntropy row.sample = 0 ∧
      theorySavings (shannonEntropy row.sample) = 100
  /-- and every other one the same eight bytes repeated -/
  masked : ∀ row ∈ report.rows, row.ratio ≠ 0 →
    row.sample = maskedBlock (ratioMask 42) 65536 ∧ shannonEntropy row.sample = 3 ∧
      theorySavings (shannonEntropy row.sample) = 62.5
  savings : ∀ row ∈ report.rows, ∀ other ∈ report.rows, row.ratio ≠ 0 → other.ratio ≠ 0 →
    row.zlibSavings = other.zlibSavings

/-- A zeroed sample has no entropy. -/
theorem theorySavings_zeros :
    theorySavings (shannonEntropy (List.replicate 65536 (0#8 : Byte))) = 100 := by
  rw [shannonEntropy_replicate, theorySavings]
  norm_num

/-- A masked sample has three bits in a byte. -/
theorem shannonEntropy_benchMask : shannonEntropy (maskedBlock (ratioMask 42) 65536) = 3 := by
  rw [shannonEntropy_maskedBlock _ (by decide) (by decide),
    shannonEntropy_wordBytes_of_nodup benchMask_nodup]

/-- What is measured of the ratios is what a benchmark reports. -/
theorem measuredRows_reported {params : BenchParameters} (env : BenchEnvironment)
    (hsize : 1 ≤ params.bufferSizeMb) (audit : Option DedupAudit) :
    BenchReported
      ⟨benchRatios.mapIdx fun i ratio => measuredRow params env (0 + i) ratio, audit⟩ := by
  have hrow : ∀ row ∈ benchRatios.mapIdx (fun i ratio => measuredRow params env (0 + i) ratio),
      (row.ratio = 0 ∨ 1 / 4 ≤ row.ratio) ∧ row.sample = benchSample params row.ratio ∧
        row.zlibSavings = measureEmpiricalCompression env.compress row.sample := by
    intro row hmem
    obtain ⟨i, hi, rfl⟩ := List.mem_mapIdx.mp hmem
    exact ⟨(benchRatios_reach (List.getElem_mem hi)).2, rfl, rfl⟩
  have hmasked : ∀ row ∈ benchRatios.mapIdx (fun i ratio => measuredRow params env (0 + i) ratio),
      row.ratio ≠ 0 → row.sample = maskedBlock (ratioMask 42) 65536 := by
    intro row hmem hratio
    obtain ⟨hreach, hsample, -⟩ := hrow row hmem
    have hquarter := hreach.resolve_left hratio
    have hmebibyte : (1 : ℚ) ≤ params.bufferSizeMb := by exact_mod_cast hsize
    rw [hsample]
    apply benchSample_of_le hsize
    nlinarith
  refine ⟨?_, ?_, ?_, ?_⟩
  · rfl
  · intro row hmem hratio
    have hsample : row.sample = List.replicate 65536 0#8 := by
      rw [(hrow row hmem).2.1, hratio, benchSample_zero hsize]
    rw [hsample]
    exact ⟨rfl, shannonEntropy_replicate _ _, theorySavings_zeros⟩
  · intro row hmem hratio
    rw [hmasked row hmem hratio, shannonEntropy_benchMask, theorySavings]
    exact ⟨rfl, rfl, by norm_num⟩
  · intro row hrowMem other hotherMem hrowRatio hotherRatio
    rw [(hrow row hrowMem).2.2, (hrow other hotherMem).2.2, hmasked row hrowMem hrowRatio,
      hmasked other hotherMem hotherRatio]

/-- A benchmark of at least a mebibyte runs to its end. It reports the same sample for every
ratio but zero, of three bits in a byte, and so the same savings for all of them. -/
theorem runDedupCompressionBench_reports (params : BenchParameters) (env : BenchEnvironment)
    (hsize : 1 ≤ params.bufferSizeMb) (hseeds : params.iterations ≤ 2 ^ 64)
    (hmmap : ∀ number < 6, ∃ address, env.mmap number = .ok address) :
    ∃ report, runDedupCompressionBench params env = .ok report ∧ BenchReported report := by
  have hmapped : ∀ i < benchRatios.length, ∃ address, env.mmap (0 + i) = .ok address := by
    intro i hi
    have hlength : benchRatios.length = 5 := rfl
    exact hmmap _ (by omega)
  have hrows := benchRows_ok hseeds (fun _ hratio => (benchRatios_reach hratio).1) 0 hmapped
  rw [runDedupCompressionBench, hrows]
  by_cases hverify : params.verifyDedup
  · obtain ⟨address, haddress⟩ := hmmap benchRatios.length (by decide)
    obtain ⟨final, hfinal, -⟩ := auditBlocks_ok env.digest address (by decide : 16 ≤ 2 ^ 64)
    have haudit : dedupAudit env benchRatios.length 16 =
        .ok ⟨final.zeroHashes.card, final.randHashes.card⟩ := by
      simp only [dedupAudit, haddress, hfinal]
    refine ⟨_, ?_, measuredRows_reported env hsize
      (some ⟨final.zeroHashes.card, final.randHashes.card⟩)⟩
    simp only [hverify, if_true, haudit]
  · refine ⟨_, ?_, measuredRows_reported env hsize none⟩
    simp only [hverify, if_false, Bool.false_eq_true]

/-- Surroundings that map every buffer, shrink nothing and digest pages to their characters. -/
def plainBench : BenchEnvironment where
  mmap := fun number => .ok (0x100000 * (number + 1))
  compress := id
  digest := fun data => String.ofList (data.map fun byte => Char.ofNat byte.toNat)
  elapsedSec := fun _ => 1

/-- A benchmark of one mebibyte with the audit. -/
theorem runDedupCompressionBench_reports_mebibyte :
    ∃ report, runDedupCompressionBench ⟨1, 500, true⟩ plainBench = .ok report ∧
      BenchReported report :=
  runDedupCompressionBench_reports ⟨1, 500, true⟩ plainBench (by decide) (by decide)
    fun _ _ => ⟨_, rfl⟩

/-- The characters of a page tell its bytes. -/
theorem plainBench_injective : Function.Injective plainBench.digest := by
  intro left right h
  have hcode : ∀ byte : Byte, (Char.ofNat byte.toNat).toNat = byte.toNat := by decide +kernel
  have hbytes : Function.Injective fun byte : Byte => Char.ofNat byte.toNat := by
    intro left right h
    apply BitVec.eq_of_toNat_eq
    rw [← hcode left, ← hcode right]
    exact congrArg Char.toNat h
  exact List.map_injective_iff.mpr hbytes (String.ofList_injective h)

/-- The audit of the source, of sixteen blocks, finds ten pages of either kind. -/
theorem dedupAudit_counts_sixteen :
    dedupAudit plainBench 5 16 = .ok ⟨10, 10⟩ :=
  dedupAudit_counts plainBench 5 16 _ rfl (by decide) plainBench_injective.injOn

end Steve.Usecases
