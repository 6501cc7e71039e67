import Steve.Adapters.AlignmentAdmission
import Steve.Orchestrator.WorkerAccounting

/-!
# When a worker on the io_uring adapter meets an alignment error

A shard's offsets are multiples of its block size, and its buffer has that size at the
address of the mapping. On a page-aligned mapping all three pass the adapter's check in
every write of a run, or the size fails it in the first.
-/

namespace Steve.Adapters

variable {ω : Type}

/-- The adapter class as a worker uses it, with what the kernel answers in each of its calls
by their number. The first number is for setting up the rings as well. -/
def ioUringTargetAdapter (system : OperatingSystem ω) (hasRing : Bool)
    (kernel : ℕ → KernelAnswers) (os : ω) : TargetAdapter (IoUringTargetAdapter ω × ℕ) where
  construct := .ok (IoUringTargetAdapter.init hasRing 1024 os, 0)
  initializeAdapter := fun (adapter, calls) =>
    let (answer, next) := adapter.initializeAdapter system (kernel calls).initCode
    (answer, next, calls)
  capabilities := fun (adapter, _) => .ok ⟨true, true, adapter.queueDepth, 4096⟩
  write := fun (adapter, calls) target offset payload =>
    let (report, next) := adapter.write system (kernel calls) target offset payload
    (report.outcome, next, calls + 1)
  flush := fun (adapter, calls) target =>
    (.ok (), adapter.flush system (kernel calls).submitCode target, calls + 1)
  close := some fun (adapter, calls) => (.ok (), adapter.close system, calls)

/-- An adapter whose rings are set up, before its first call. -/
def readyIoUring (hasRing : Bool) (os : ω) : IoUringTargetAdapter ω × ℕ :=
  ({ IoUringTargetAdapter.init hasRing 1024 os with initialized := true }, 0)

end Steve.Adapters

namespace Steve.Orchestrator

open Steve.Library
open Steve.Adapters
open Steve.Validation

section Ready

variable {ω : Type} (system : OperatingSystem ω) (hasRing : Bool) (kernel : ℕ → KernelAnswers)
  (os : ω) (spec : WorkerShardSpec) (env : WorkerEnvironment)

/-- The bootstrap succeeds when the mapping and the rings do. -/
theorem ioUring_bootstraps {address : ℕ} (hmmap : env.mmap spec.blockSizeBytes = .ok address)
    (hinit : hasRing = true → 0 ≤ (kernel 0).initCode) :
    Bootstraps (ioUringTargetAdapter system hasRing kernel os) spec env
      (IoUringTargetAdapter.init hasRing 1024 os, 0) (readyIoUring hasRing os) address
      ⟨true, true, 1024, 4096⟩ where
  construct := rfl
  initializeAdapter := by
    cases hasRing with
    | false => rfl
    | true =>
      have hcode : ¬ (kernel 0).initCode < 0 := Int.not_lt.mpr (hinit rfl)
      simp only [ioUringTargetAdapter, IoUringTargetAdapter.initializeAdapter,
        IoUringTargetAdapter.init, Bool.false_eq_true, if_false, if_true, if_neg hcode]
      rfl
  mmap := hmmap
  capabilities := rfl

/-- A worker's write call as the adapter sees it. -/
def transferOf (kernel : KernelAnswers) (descriptor : TargetDescriptor) (call : WriteCall) :
    AdapterCall :=
  ⟨.write, kernel, descriptor, call.offset, call.payload⟩

/-- The calls of a shard on a page-aligned mapping pass the check exactly when the block size
does. -/
theorem shardWrite_pageAligned_iff {globalSeed : ℤ} {nodes : List (String × ℕ)} {target : ℤ}
    {blockSize : ℕ} (hspec : spec ∈ clusterShards globalSeed nodes target blockSize)
    {address : ℕ} (haddress : 4096 ∣ address) (kernel : KernelAnswers)
    (descriptor : TargetDescriptor) (t : ℕ) :
    PageAligned (transferOf kernel descriptor (shardWrite spec address t)) ↔
      4096 ∣ blockSize := by
  obtain ⟨nodeId, localCore, index, rfl⟩ := mem_clusterShards hspec
  constructor
  · intro h
    exact Int.natCast_dvd_natCast.mp h.size
  · intro h
    refine ⟨Int.natCast_dvd_natCast.mpr haddress, Int.natCast_dvd_natCast.mpr h, ?_⟩
    exact Nat.dvd_add (Nat.dvd_mul_left_of_dvd h _)
      (Nat.dvd_mul_left_of_dvd (Nat.dvd_mul_left_of_dvd h _) _)

/-- Some write call of a run is answered with an alignment error. -/
def MeetsAlignmentError {σ : Type} (adapter : TargetAdapter σ) (descriptor : TargetDescriptor)
    (ready : σ) (run : EngineRun) : Prop :=
  ∃ e, .error e ∈ writeReplies adapter descriptor ready run.attempted ∧ e.IsA .alignmentError

/-- A run ends with its first write call, which opens no file and leaves the operating system
as it was, and reports that nothing was written. -/
structure FailsAtOnce (descriptor : TargetDescriptor) (run : EngineRun) : Prop where
  firstWrite : run.attempted.length = 1
  unopened : (adapterAfter (ioUringTargetAdapter system hasRing kernel os) descriptor
    (readyIoUring hasRing os) run.attempted).1.fds = Dict.empty
  untouched : (adapterAfter (ioUringTargetAdapter system hasRing kernel os) descriptor
    (readyIoUring hasRing os) run.attempted).1.os = os
  result : ∃ result, run.outcome = .ok result ∧ result.totalOps = 0 ∧ result.totalBytes = 0

/-- A call that passes the check is not answered with an alignment error. -/
theorem answerWrite_aligned (descriptor : TargetDescriptor)
    (state : IoUringTargetAdapter ω × ℕ) {call : WriteCall}
    (halign : ∀ kernel, PageAligned (transferOf kernel descriptor call)) (e : PyException)
    (h : (answerWrite (ioUringTargetAdapter system hasRing kernel os) descriptor state call).1 =
      .error e) : ¬ e.IsA .alignmentError :=
  run_aligned_error system (halign (kernel state.2)) h

/-- A first call that does not is, and opens nothing. -/
theorem answerWrite_misaligned (descriptor : TargetDescriptor) {call : WriteCall}
    (halign : ∀ kernel, ¬ PageAligned (transferOf kernel descriptor call)) :
    ∃ e next, answerWrite (ioUringTargetAdapter system hasRing kernel os) descriptor
        (readyIoUring hasRing os) call = (.error e, next) ∧
      e.IsA .alignmentError ∧ next.1.os = os ∧ next.1.fds = Dict.empty := by
  have hinit : (readyIoUring hasRing os).1.Initializes (kernel 0).initCode := Or.inl rfl
  obtain ⟨e, next, hrun, hkind, hos, hfds⟩ := run_misaligned system hinit (halign (kernel 0))
  refine ⟨e, (next, 1), ?_, hkind, hos, hfds⟩
  change (((transferOf (kernel 0) descriptor call).run system (readyIoUring hasRing os).1).1.outcome,
    ((transferOf (kernel 0) descriptor call).run system (readyIoUring hasRing os).1).2, 1) = _
  rw [hrun]

/-- Replies that begin with an exception end there. -/
theorem repliesOf_of_error {byteCounts : List ℕ} {raised : Option PyException} {e : PyException}
    {rest : List (Except PyException ℕ)}
    (h : repliesOf byteCounts raised = .error e :: rest) :
    byteCounts = [] ∧ raised = some e ∧ rest = [] := by
  cases byteCounts with
  | nil =>
    cases raised with
    | none => cases h
    | some raised =>
      cases h
      exact ⟨rfl, rfl, rfl⟩
  | cons first others => cases h

/-- A run whose first write is refused makes no other. -/
theorem attempted_of_refused {σ : Type} {adapter : TargetAdapter σ}
    {descriptor : TargetDescriptor} {ready next : σ} {first : WriteCall} {rest : List WriteCall}
    {byteCounts : List ℕ} {raised : Option PyException} {e : PyException}
    (hanswer : answerWrite adapter descriptor ready first = (.error e, next))
    (hreplies : writeReplies adapter descriptor ready (first :: rest) =
      repliesOf byteCounts raised) :
    byteCounts = [] ∧ raised = some e ∧ rest = [] ∧
      adapterAfter adapter descriptor ready (first :: rest) = next := by
  have hstart : writeReplies adapter descriptor ready (first :: rest) =
      .error e :: writeReplies adapter descriptor next rest := by
    simp only [writeReplies, machineOutputs, hanswer]
  obtain ⟨hcounts, hraised, hrest⟩ := repliesOf_of_error (hreplies.symm.trans hstart)
  have hnil : rest = [] := by
    have hcount := congrArg List.length hrest
    rw [writeReplies, machineOutputs_length] at hcount
    exact List.length_eq_zero_iff.mp hcount
  subst hnil
  refine ⟨hcounts, hraised, rfl, ?_⟩
  change (answerWrite adapter descriptor ready first).2 = next
  rw [hanswer]

/-- A run of a shard makes its first write: a loop without a call has not raised, so it would
have made whole batches. -/
theorem exists_attempted_eq_cons {spec : WorkerShardSpec} {address laterBatches : ℕ} {σ : Type}
    {adapter : TargetAdapter σ} {descriptor : TargetDescriptor} {ready : σ}
    {attempted : List WriteCall} {byteCounts : List ℕ} {raised : Option PyException}
    (hcalls : attempted = shardWrites spec address attempted.length)
    (hreplies : writeReplies adapter descriptor ready attempted = repliesOf byteCounts raised)
    (hbatches : raised = none → attempted.length = (laterBatches + 1) * 1024) :
    ∃ rest, attempted = shardWrite spec address 0 :: rest := by
  cases attempted with
  | nil =>
    cases raised with
    | none =>
      have hnone : 0 = (laterBatches + 1) * 1024 := hbatches rfl
      omega
    | some e =>
      have hlength := congrArg List.length hreplies
      simp [writeReplies, machineOutputs, repliesOf] at hlength
  | cons first rest =>
    rw [List.length_cons, shardWrites, List.range_succ_eq_map, List.map_cons] at hcalls
    exact ⟨rest, congrArg (· :: rest) (List.cons.inj hcalls).1⟩

section Runs

variable {globalSeed : ℤ} {nodes : List (String × ℕ)} {target : ℤ} {blockSize : ℕ}
  {address : ℕ}

/-- A run in whole pages meets no alignment error. -/
theorem execute_aligned (hspec : spec ∈ clusterShards globalSeed nodes target blockSize)
    (hmmap : env.mmap spec.blockSizeBytes = .ok address) (haddress : 4096 ∣ address)
    (hinit : hasRing = true → 0 ≤ (kernel 0).initCode) (targetUri : String)
    (hsize : 4096 ∣ blockSize) :
    ¬ MeetsAlignmentError (ioUringTargetAdapter system hasRing kernel os)
      (workerDescriptor spec targetUri) (readyIoUring hasRing os)
      (execute (ioUringTargetAdapter system hasRing kernel os) spec env targetUri) := by
  obtain ⟨_, _, _, -, hcalls, -⟩ := execute_replies _ spec env (clusterShards_seed_lt hspec)
    (ioUring_bootstraps system hasRing kernel os spec env hmmap hinit) targetUri
  rintro ⟨e, he, hkind⟩
  let Passes (call : WriteCall) : Prop :=
    ∀ kernel, PageAligned (transferOf kernel (workerDescriptor spec targetUri) call)
  let Plain (answer : Except PyException ℕ) : Prop :=
    ∀ e, answer = .error e → ¬ e.IsA .alignmentError
  have hpasses : ∀ call ∈ (execute (ioUringTargetAdapter system hasRing kernel os) spec env
      targetUri).attempted, Passes call := by
    intro call hcall kernel
    rw [hcalls] at hcall
    obtain ⟨t, -, rfl⟩ := List.mem_map.mp hcall
    exact (shardWrite_pageAligned_iff spec hspec haddress kernel _ t).mpr hsize
  have hstep (state : IoUringTargetAdapter ω × ℕ) (call : WriteCall) (_ : True)
      (hpass : Passes call) := And.intro
    (answerWrite_aligned system hasRing kernel os _ state hpass) trivial
  exact machineOutputs_forall _ (fun _ => True) Passes Plain hstep (readyIoUring hasRing os)
    trivial _ hpasses _ he e rfl hkind

/-- Any other run fails on its first write. -/
theorem execute_misaligned (hspec : spec ∈ clusterShards globalSeed nodes target blockSize)
    (hmmap : env.mmap spec.blockSizeBytes = .ok address) (haddress : 4096 ∣ address)
    (hinit : hasRing = true → 0 ≤ (kernel 0).initCode) (targetUri : String)
    (hsize : ¬ 4096 ∣ blockSize) :
    MeetsAlignmentError (ioUringTargetAdapter system hasRing kernel os)
        (workerDescriptor spec targetUri) (readyIoUring hasRing os)
        (execute (ioUringTargetAdapter system hasRing kernel os) spec env targetUri) ∧
      FailsAtOnce system hasRing kernel os (workerDescriptor spec targetUri)
        (execute (ioUringTargetAdapter system hasRing kernel os) spec env targetUri) := by
  obtain ⟨byteCounts, raised, collector, houtcome, hcalls, hreplies, hops, hbytes, hbatches⟩ :=
    execute_replies _ spec env (clusterShards_seed_lt hspec)
      (ioUring_bootstraps system hasRing kernel os spec env hmmap hinit) targetUri
  generalize execute (ioUringTargetAdapter system hasRing kernel os) spec env targetUri = run at *
  obtain ⟨rest, hattempted⟩ := exists_attempted_eq_cons hcalls hreplies hbatches
  obtain ⟨e, next, hanswer, hkind, hos, hfds⟩ := answerWrite_misaligned system hasRing kernel os
    (workerDescriptor spec targetUri)
    fun kernel => mt (shardWrite_pageAligned_iff spec hspec haddress kernel _ 0).mp hsize
  obtain ⟨rfl, rfl, rfl, hafter⟩ :=
    attempted_of_refused hanswer ((congrArg _ hattempted).symm.trans hreplies)
  rw [← hattempted] at hafter
  constructor
  · refine ⟨e, ?_, hkind⟩
    rw [hreplies]
    exact List.mem_singleton_self _
  · refine ⟨?_, ?_, ?_, ⟨_, houtcome, hops, hbytes⟩⟩
    · rw [hattempted]
      rfl
    · rw [hafter]
      exact hfds
    · rw [hafter]
      exact hos

/-- A worker on the `io_uring` adapter meets an alignment error exactly when its block size is
no multiple of the page size, and then on its first write. -/
theorem execute_alignmentError_iff
    (hspec : spec ∈ clusterShards globalSeed nodes target blockSize)
    (hmmap : env.mmap spec.blockSizeBytes = .ok address) (haddress : 4096 ∣ address)
    (hinit : hasRing = true → 0 ≤ (kernel 0).initCode) (targetUri : String) :
    let adapter := ioUringTargetAdapter system hasRing kernel os
    let descriptor := workerDescriptor spec targetUri
    let run := execute adapter spec env targetUri
    (MeetsAlignmentError adapter descriptor (readyIoUring hasRing os) run ↔ ¬ 4096 ∣ blockSize) ∧
      (¬ 4096 ∣ blockSize → FailsAtOnce system hasRing kernel os descriptor run) := by
  have haligned := execute_aligned system hasRing kernel os spec env hspec hmmap haddress hinit
    targetUri
  have hmisaligned := execute_misaligned system hasRing kernel os spec env hspec hmmap haddress
    hinit targetUri
  exact ⟨⟨fun hmeets hsize => haligned hsize hmeets, fun hsize => (hmisaligned hsize).1⟩,
    fun hsize => (hmisaligned hsize).2⟩

end Runs

end Ready

/-- A shard that writes half pages fails on its first write. -/
theorem execute_alignmentError_half_page :
    let spec := shardSpec 0 1 0 2048 "node-0" 0 0
    let kernel : ℕ → KernelAnswers := fun _ => ⟨0, true, 0, true, 1, 2048, id⟩
    let system := (diskSystem fun _ length => length).toOperatingSystem
    FailsAtOnce system true kernel Disk.empty (workerDescriptor spec "file:///tmp/steve")
      (execute (ioUringTargetAdapter system true kernel Disk.empty) spec (acceptingRun 1 1).env
        "file:///tmp/steve") := by
  intro spec kernel system
  have hspec : spec ∈ clusterShards 0 [("node-0", 1)] 0 2048 := by decide
  exact (execute_alignmentError_iff system true kernel Disk.empty spec (acceptingRun 1 1).env hspec
    rfl (by decide) (fun _ => by decide) "file:///tmp/steve").2 (by decide)

end Steve.Orchestrator
