import Steve.Library.StepSystem
import Steve.Payload.Mutator

/-!
# When the slices handed out lie inside the mapping

A slice request first looks into the cache and then checks only its end. So every cached
buffer is the one its key describes, cut as Python cuts memory views, and ends inside the
mapping. It also starts there, with the size asked for, exactly when neither the offset nor
the size of the request is negative.
-/

namespace Steve.Payload

open Steve.Library
open Steve.Adapters (DirectBuffer)

variable {size : ℕ}

/-- The direct buffer of a slice request, as it is cut from the mapping. -/
def sliceBuffer (size address : ℕ) (offset blockSize : ℤ) : DirectBuffer (MemoryView size) :=
  ⟨address + offset, blockSize, sliceView size offset (offset + blockSize)⟩

/-- A buffer lies inside the mapping at an offset, with the given size. -/
structure InsideMapping (address : ℕ) (offset blockSize : ℤ)
    (buf : DirectBuffer (MemoryView size)) : Prop where
  startsInside : 0 ≤ offset
  sizeNonneg : 0 ≤ blockSize
  endsInside : offset + blockSize ≤ size
  address : buf.address = address + offset
  size : buf.size = blockSize
  viewStart : (buf.view.start : ℤ) = offset
  viewLength : (buf.view.length : ℤ) = blockSize

/-- A request without a negative entry is cut where it was asked for. -/
theorem sliceView_of_nonneg {offset blockSize : ℤ} (hoffset : 0 ≤ offset)
    (hblockSize : 0 ≤ blockSize) (hstop : offset + blockSize ≤ size) :
    (sliceView size offset (offset + blockSize)).start = offset.toNat ∧
      (sliceView size offset (offset + blockSize)).length = blockSize.toNat := by
  have hstart : sliceBound size offset = offset.toNat := by
    rw [sliceBound, if_neg (by omega), Nat.min_eq_left (by omega)]
  have hend : sliceBound size (offset + blockSize) = (offset + blockSize).toNat := by
    rw [sliceBound, if_neg (by omega), Nat.min_eq_left (by omega)]
  refine ⟨hstart, ?_⟩
  change sliceBound size (offset + blockSize) - sliceBound size offset = _
  rw [hstart, hend]
  omega

/-- A request whose end lies in the mapping is served inside exactly when it has no negative
entry. -/
theorem insideMapping_sliceBuffer_iff (address : ℕ) {offset blockSize : ℤ}
    (hstop : offset + blockSize ≤ size) :
    InsideMapping address offset blockSize (sliceBuffer size address offset blockSize) ↔
      0 ≤ offset ∧ 0 ≤ blockSize := by
  constructor
  · intro h
    exact ⟨h.startsInside, h.sizeNonneg⟩
  · intro h
    obtain ⟨hstart, hlength⟩ := sliceView_of_nonneg h.1 h.2 hstop
    refine ⟨h.1, h.2, hstop, rfl, rfl, ?_, ?_⟩
    · rw [sliceBuffer, hstart, Int.toNat_of_nonneg h.1]
    · rw [sliceBuffer, hlength, Int.toNat_of_nonneg h.2]

/-- The whole mapping is the slice of its size at offset zero. -/
theorem sliceBuffer_whole (size address : ℕ) :
    sliceBuffer size address 0 size = ⟨address, size, MemoryView.whole size⟩ := by
  have hwhole : (0 : ℤ) + size ≤ size := by omega
  obtain ⟨hstart, hlength⟩ :=
    sliceView_of_nonneg (Int.le_refl 0) (Int.natCast_nonneg size) hwhole
  have hview : sliceView size 0 (0 + size) = MemoryView.whole size :=
    MemoryView.ext hstart (hlength.trans (Int.toNat_natCast size))
  rw [sliceBuffer, hview, Int.add_zero]

namespace PySIMDPayloadMutator

/-- Every cached buffer is the one its key describes, and ends inside the mapping. -/
def CacheSound (mutator : PySIMDPayloadMutator size) : Prop :=
  ∀ offset blockSize buf, mutator.sliceCache.get? (offset, blockSize) = some buf →
    offset + blockSize ≤ size ∧ buf = sliceBuffer size mutator.address offset blockSize

/-- A fresh mutator's cache holds the whole mapping. -/
theorem cacheSound_fresh (size address : ℕ) : (fresh size address).CacheSound := by
  intro offset blockSize buf hcached
  rw [fresh, Dict.get?_set] at hcached
  split at hcached
  · rename_i hkey
    obtain ⟨rfl, rfl⟩ := Prod.mk.inj hkey
    cases hcached
    exact ⟨by omega, (sliceBuffer_whole size address).symm⟩
  · cases hcached

/-- A request past the end is refused and changes nothing. -/
theorem getOrCreateSliceBuffer_past_end {mutator : PySIMDPayloadMutator size}
    (h : mutator.CacheSound) {offset blockSize : ℤ} (hpast : (size : ℤ) < offset + blockSize) :
    ∃ e, mutator.getOrCreateSliceBuffer offset blockSize = (.error e, mutator) ∧
      e.cls = .steve .payloadError := by
  rw [getOrCreateSliceBuffer]
  cases hcached : mutator.sliceCache.get? (offset, blockSize) with
  | some buf =>
    have hend := (h offset blockSize buf hcached).1
    omega
  | none =>
    simp only [if_pos hpast]
    exact ⟨_, rfl, rfl⟩

/-- Any other request is answered with the slice it describes, which leaves the mapping and
keeps the cache sound; nothing but that slice joins the cache. -/
theorem getOrCreateSliceBuffer_sound {mutator : PySIMDPayloadMutator size}
    (h : mutator.CacheSound) {offset blockSize : ℤ} (hstop : offset + blockSize ≤ size) :
    ∃ next : PySIMDPayloadMutator size, mutator.getOrCreateSliceBuffer offset blockSize =
        (.ok (sliceBuffer size mutator.address offset blockSize), next) ∧
      next.CacheSound ∧ next.buffer = mutator.buffer ∧ next.address = mutator.address ∧
      ∀ key buf, next.sliceCache.get? key = some buf →
        buf = sliceBuffer size mutator.address offset blockSize ∧ key = (offset, blockSize) ∨
          mutator.sliceCache.get? key = some buf := by
  rw [getOrCreateSliceBuffer]
  cases hcached : mutator.sliceCache.get? (offset, blockSize) with
  | some buf =>
    refine ⟨mutator, ?_, h, rfl, rfl, fun key buf hbuf => Or.inr hbuf⟩
    rw [(h offset blockSize buf hcached).2]
  | none =>
    simp only [if_neg (Int.not_lt.mpr hstop)]
    have hlookup (key : ℤ × ℤ) (buf : DirectBuffer (MemoryView size))
        (hbuf : (mutator.sliceCache.set (offset, blockSize)
          (sliceBuffer size mutator.address offset blockSize)).get? key = some buf) :
        buf = sliceBuffer size mutator.address offset blockSize ∧ key = (offset, blockSize) ∨
          mutator.sliceCache.get? key = some buf := by
      rw [Dict.get?_set] at hbuf
      split at hbuf
      · rename_i hkey
        cases hbuf
        exact Or.inl ⟨rfl, hkey.symm⟩
      · exact Or.inr hbuf
    refine ⟨_, rfl, ?_, rfl, rfl, hlookup⟩
    intro other otherSize buf hother
    cases hlookup _ _ hother with
    | inl hnew =>
      obtain ⟨rfl, rfl⟩ := Prod.mk.inj hnew.2
      exact ⟨hstop, hnew.1⟩
    | inr hold => exact h other otherSize buf hold

/-- Every cached buffer lies inside the mapping, where its key says. -/
def CacheInside (mutator : PySIMDPayloadMutator size) : Prop :=
  ∀ offset blockSize buf, mutator.sliceCache.get? (offset, blockSize) = some buf →
    InsideMapping mutator.address offset blockSize buf

/-- A slice request served by a mutator. -/
def sliceRequest (mutator : PySIMDPayloadMutator size) (request : ℤ × ℤ) :
    Except PyException (DirectBuffer (MemoryView size)) × PySIMDPayloadMutator size :=
  mutator.getOrCreateSliceBuffer request.1 request.2

/-- A request was served safely: it was refused as a payload error and left the cache, or it
was answered with a buffer inside the mapping; and the cache holds only such buffers. -/
structure ServedSafely (entry : TraceEntry (PySIMDPayloadMutator size) (ℤ × ℤ)
    (Except PyException (DirectBuffer (MemoryView size)))) : Prop where
  answer : match entry.output with
    | .error e => e.cls = .steve .payloadError ∧ entry.after.sliceCache = entry.before.sliceCache
    | .ok buf => InsideMapping entry.before.address entry.input.1 entry.input.2 buf
  cache : entry.after.CacheInside

/-- A request that ends past the mapping, or has no negative entry. -/
def Admissible (size : ℕ) (request : ℤ × ℤ) : Prop :=
  (size : ℤ) < request.1 + request.2 ∨ 0 ≤ request.1 ∧ 0 ≤ request.2

/-- A mutator with sound cached buffers inside the mapping serves a request safely exactly
when it is admissible, and its cache stays sound either way. -/
theorem sliceRequest_servedSafely_iff {mutator : PySIMDPayloadMutator size}
    (hsound : mutator.CacheSound) (hinside : mutator.CacheInside) (request : ℤ × ℤ) :
    (ServedSafely ⟨mutator, request, (mutator.sliceRequest request).1,
        (mutator.sliceRequest request).2⟩ ↔ Admissible size request) ∧
      (mutator.sliceRequest request).2.CacheSound := by
  obtain ⟨offset, blockSize⟩ := request
  by_cases hpast : (size : ℤ) < offset + blockSize
  · obtain ⟨e, hrefused, hclass⟩ := getOrCreateSliceBuffer_past_end hsound hpast
    simp only [sliceRequest, hrefused]
    exact ⟨iff_of_true ⟨⟨hclass, rfl⟩, hinside⟩ (Or.inl hpast), hsound⟩
  · obtain ⟨next, hserved, hnext, -, haddress, hlookup⟩ :=
      getOrCreateSliceBuffer_sound hsound (Int.not_lt.mp hpast)
    simp only [sliceRequest, hserved]
    refine ⟨?_, hnext⟩
    have hcut := insideMapping_sliceBuffer_iff mutator.address (Int.not_lt.mp hpast)
    constructor
    · intro h
      exact Or.inr (hcut.mp h.answer)
    · intro h
      have hbuffer := hcut.mpr (h.resolve_left hpast)
      refine ⟨hbuffer, ?_⟩
      intro other otherSize buf hcached
      rw [haddress]
      cases hlookup _ _ hcached with
      | inl hnew =>
        obtain ⟨rfl, rfl⟩ := Prod.mk.inj hnew.2
        rw [hnew.1]
        exact hbuffer
      | inr hold => exact hinside other otherSize buf hold

/-- Every cached buffer of a fresh mutator lies inside the mapping. -/
theorem cacheInside_fresh (size address : ℕ) : (fresh size address).CacheInside := by
  intro offset blockSize buf hcached
  rw [fresh, Dict.get?_set] at hcached
  split at hcached
  · rename_i hkey
    obtain ⟨rfl, rfl⟩ := Prod.mk.inj hkey
    cases hcached
    rw [← sliceBuffer_whole]
    exact (insideMapping_sliceBuffer_iff address (by omega)).mpr ⟨by omega, by omega⟩
  · cases hcached

/-- Whatever slices are asked of a fresh mutator, all are served safely exactly when every
request ends past the mapping or has no negative entry. -/
theorem sliceRequests_servedSafely_iff (size address : ℕ) (requests : List (ℤ × ℤ)) :
    (∀ entry ∈ machineTrace sliceRequest (fresh size address) requests, ServedSafely entry) ↔
      ∀ request ∈ requests, Admissible size request := by
  have hrun := machineTrace_forall_iff sliceRequest
    (fun mutator => mutator.CacheSound ∧ mutator.CacheInside) ServedSafely
    (fun _ request => Admissible size request)
    (fun mutator request h => (sliceRequest_servedSafely_iff h.1 h.2 request).1)
    (fun mutator request h hserved =>
      ⟨(sliceRequest_servedSafely_iff h.1 h.2 request).2, hserved.cache⟩)
    (fresh size address) ⟨cacheSound_fresh size address, cacheInside_fresh size address⟩ requests
  rw [hrun]
  conv_rhs => rw [← machineTrace_map_input sliceRequest (fresh size address) requests]
  rw [List.forall_mem_map]

/-- A request before the start of the mapping is answered with an empty view at an address
below it, which claims to be as long as the whole mapping. -/
theorem sliceRequest_before_start :
    let mutator := fresh 4096 0x7f0000000000
    let served := mutator.sliceRequest (-4096, 4096)
    served.1 = .ok ⟨0x7efffffff000, 4096, ⟨0, 0, by omega⟩⟩ ∧
      ¬ ServedSafely ⟨mutator, (-4096, 4096), served.1, served.2⟩ := by
  refine ⟨rfl, ?_⟩
  intro h
  exact absurd h.answer.startsInside (by decide)

end PySIMDPayloadMutator

end Steve.Payload
