import Steve.Adapters.FileStore

/-!
# The object store and vector database adapters

Both adapters answer without reaching a service: every write and read counts its whole buffer,
and a vector write checks its buffer's address first. Neither keeps anything between calls, so
a buffer at a page boundary is always accepted.
-/

namespace Steve.Adapters

/-- `S3TargetAdapter` as the use cases call it. -/
def s3TargetAdapter : TargetAdapter Unit where
  construct := .ok ()
  initializeAdapter := fun state => (.ok (), state)
  capabilities := fun _ => .ok ⟨false, true, 512, 5242880⟩
  write := fun state _ _ payload => (.ok payload.view.length, state)
  flush := fun state _ => (.ok (), state)
  close := none

/-- `VectorTargetAdapter` as the use cases call it. -/
def vectorTargetAdapter : TargetAdapter Unit where
  construct := .ok ()
  initializeAdapter := fun state => (.ok (), state)
  capabilities := fun _ => .ok ⟨false, true, 256, 64⟩
  write := fun state _ _ payload =>
    match assertAlignment payload 64 with
    | some e => (.error e, state)
    | none => (.ok payload.view.length, state)
  flush := fun state _ => (.ok (), state)
  close := none

/-- `VectorTargetAdapter.read`. -/
def vectorRead (buffer : DirectBuffer (List Byte)) : ℕ := buffer.view.length

/-- An adapter that accepts page-aligned buffers at page-aligned offsets in full. -/
def AcceptsPages {σ : Type} (adapter : TargetAdapter σ) : Prop :=
  ∀ state target offset payload, AlignedTransfer offset payload →
    ∃ next, adapter.write state target offset payload = (.ok payload.view.length, next)

/-- The object store adapter accepts everything. -/
theorem s3TargetAdapter_acceptsPages : AcceptsPages s3TargetAdapter :=
  fun _ _ _ _ _ => ⟨_, rfl⟩

/-- The vector database adapter accepts pages. -/
theorem vectorTargetAdapter_acceptsPages : AcceptsPages vectorTargetAdapter := by
  intro state target offset payload haligned
  have haddress : payload.address % (64 : ℕ) = 0 := by
    have hpage := haligned.address
    omega
  have hpasses : assertAlignment payload 64 = none := by
    rw [assertAlignment, if_neg (not_not.mpr haddress)]
  refine ⟨state, ?_⟩
  simp only [vectorTargetAdapter, hpasses]

end Steve.Adapters
