import Steve.Adapters.Posix

/-!
# The pool of page-aligned buffers

A pool maps its buffers once, at its construction, and hands them out by index around a ring.
Nothing in the modelled code writes into a pool's buffers, so their views show the zeros of
fresh mappings. After `close` the pool is empty, and the next index is reduced modulo zero.
-/

namespace Steve.Payload

open Steve.Library
open Steve.Adapters

/-- A pool with its buffers. -/
structure BufferPool where
  bufferCount : ℕ
  bufferSize : ℕ
  buffers : List (DirectBuffer (List Byte))

namespace BufferPool

/-- A buffer over a fresh mapping. -/
def freshBuffer (bufferSize address : ℕ) : DirectBuffer (List Byte) :=
  ⟨address, bufferSize, List.replicate bufferSize 0#8⟩

/-- `_allocate_pool`: map and check the remaining buffers, the next of which has the given
number. -/
def allocatePool (mmap : ℕ → Except PyException ℕ) (bufferSize : ℕ) :
    ℕ → ℕ → Except PyException (List (DirectBuffer (List Byte)))
  | _, 0 => .ok []
  | number, remaining + 1 =>
    match mmap number with
    | .error e => .error e
    | .ok address =>
      match assertAlignment (freshBuffer bufferSize address) 4096 with
      | some e => .error e
      | none =>
        match allocatePool mmap bufferSize (number + 1) remaining with
        | .error e => .error e
        | .ok buffers => .ok (freshBuffer bufferSize address :: buffers)

/-- `BufferPool(buffer_count, buffer_size)`, with the addresses of its mappings in turn. -/
def init (mmap : ℕ → Except PyException ℕ) (bufferCount bufferSize : ℕ) :
    Except PyException BufferPool :=
  match allocatePool mmap bufferSize 0 bufferCount with
  | .error e => .error e
  | .ok buffers => .ok ⟨bufferCount, bufferSize, buffers⟩

/-- `acquire`: the buffer of an index around the ring. -/
def acquire (pool : BufferPool) (index : ℕ) : Except PyException (DirectBuffer (List Byte)) :=
  match pool.buffers[index % pool.buffers.length]? with
  | some buffer => .ok buffer
  | none => .error ⟨.other "ZeroDivisionError", "integer modulo by zero"⟩

/-- `close`: release every buffer and mapping, dropping failures. -/
def close (pool : BufferPool) : BufferPool := { pool with buffers := [] }

/-- A zeroed, page-aligned buffer of the given size. -/
structure ZeroPage (bufferSize : ℕ) (buffer : DirectBuffer (List Byte)) : Prop where
  address : buffer.address % 4096 = 0
  size : buffer.size = bufferSize
  view : buffer.view = List.replicate bufferSize 0#8

/-- Mappings of the given number, all at page boundaries. -/
def MapsPages (mmap : ℕ → Except PyException ℕ) (count : ℕ) : Prop :=
  ∀ number < count, ∃ address, mmap number = .ok address ∧ address % 4096 = 0

/-- Page-aligned mappings fill the pool with zeroed pages. -/
theorem allocatePool_ok {mmap : ℕ → Except PyException ℕ} (bufferSize : ℕ) {count : ℕ}
    (hmmap : MapsPages mmap count) (number remaining : ℕ) (hcount : number + remaining ≤ count) :
    ∃ buffers, allocatePool mmap bufferSize number remaining = .ok buffers ∧
      buffers.length = remaining ∧ ∀ buffer ∈ buffers, ZeroPage bufferSize buffer := by
  induction remaining generalizing number with
  | zero => exact ⟨[], rfl, rfl, List.forall_mem_nil _⟩
  | succ remaining ih =>
    obtain ⟨address, haddress, hpage⟩ := hmmap number (by omega)
    obtain ⟨buffers, hbuffers, hlength, hpages⟩ := ih (number + 1) (by omega)
    have hpage : (freshBuffer bufferSize address).address % (4096 : ℕ) = 0 := by
      change (address : ℤ) % 4096 = 0
      omega
    have haligned : assertAlignment (freshBuffer bufferSize address) 4096 = none := by
      rw [assertAlignment, if_neg (not_not.mpr hpage)]
    refine ⟨freshBuffer bufferSize address :: buffers, ?_, ?_, ?_⟩
    · simp only [allocatePool, haddress, haligned, hbuffers]
    · rw [List.length_cons, hlength]
    · exact List.forall_mem_cons.mpr ⟨⟨hpage, rfl, rfl⟩, hpages⟩

/-- A pool that hands out zeroed pages for every index. -/
structure Serves (pool : BufferPool) (bufferCount bufferSize : ℕ) : Prop where
  count : pool.bufferCount = bufferCount
  acquire : ∀ index, ∃ buffer, pool.acquire index = .ok buffer ∧ ZeroPage bufferSize buffer

/-- A nonempty pool over page-aligned mappings serves every index. -/
theorem init_serves {mmap : ℕ → Except PyException ℕ} {bufferCount : ℕ} (hcount : 0 < bufferCount)
    (bufferSize : ℕ) (hmmap : MapsPages mmap bufferCount) :
    ∃ pool, init mmap bufferCount bufferSize = .ok pool ∧ pool.Serves bufferCount bufferSize := by
  obtain ⟨buffers, hbuffers, hlength, hpages⟩ :=
    allocatePool_ok bufferSize hmmap 0 bufferCount (Nat.le_of_eq (Nat.zero_add bufferCount))
  refine ⟨⟨bufferCount, bufferSize, buffers⟩, by rw [init, hbuffers], rfl, ?_⟩
  intro index
  have hindex : index % buffers.length < buffers.length := Nat.mod_lt _ (hlength ▸ hcount)
  refine ⟨buffers[index % buffers.length], ?_, hpages _ (List.getElem_mem hindex)⟩
  rw [BufferPool.acquire, List.getElem?_eq_getElem hindex]

end BufferPool

end Steve.Payload
