import Steve.Emulator.NodeWorker
import Steve.Payload.BlockMutation
import Steve.Payload.XorAccumulator

/-!
# What a run of an emulated worker mutates and writes

Whatever its surroundings decide, the calls a run makes are initial segments of two sequences
fixed by the shard: operation `k` hands the seed advanced by `k` to the mutator, and the block
with the masks of the first `k + 1` seeds to the operating system. An operation is begun
exactly when the timer still allows it and every operation before it has passed.
-/

namespace Steve.Emulator

open Steve.Library
open Steve.Adapters
open Steve.Orchestrator (WorkerShardSpec WriteCall)
open Steve.Payload
open Steve.Payload.PySIMDPayloadMutator

/-- The masks of the first `count` seeds from a seed on, folded into one. -/
def foldedMask (seed : ℕ) : ℕ → BitVec 64
  | 0 => 0#64
  | count + 1 => foldedMask seed count ^^^ seedMask (seed + count)

/-- A fresh block after that many operations. -/
def nodeBlock (seed size count : ℕ) : List Byte := maskedBlock (foldedMask seed count) size

/-- A fresh block is zero. -/
theorem nodeBlock_zero (seed size : ℕ) : nodeBlock seed size 0 = List.replicate size 0#8 :=
  maskedBlock_zero size

/-- One more operation folds the next seed's mask in. -/
theorem nodeBlock_succ (seed size count : ℕ) :
    nodeBlock seed size (count + 1) =
      xorPattern (maskPattern (seedMask (seed + count)) (size / 8)) (nodeBlock seed size count) :=
  (maskedBlock_folds _ _ size).symm

/-- The exception of a seed that does not fit its mask. -/
def maskOverflow : PyException := ⟨.overflowError, "Python integer out of bounds for uint64"⟩

/-- The value a mask is built from has 64 bits exactly when the seed has. -/
theorem maskValue_fits_iff (seed : ℕ) :
    (0 ≤ Int.xor seed 0x5555555555555555 ∧ Int.xor seed 0x5555555555555555 < 2 ^ 64) ↔
      seed < 2 ^ 64 := by
  refine (xor_fits_iff (seed : ℤ) (by decide : 0x5555555555555555 < 2 ^ 64)).trans ?_
  have hcast : (seed : ℤ) < 2 ^ 64 ↔ seed < 2 ^ 64 := by exact_mod_cast Iff.rfl
  exact ⟨fun h => hcast.mp h.2, fun h => ⟨Int.natCast_nonneg seed, hcast.mpr h⟩⟩

/-- A block of at least one word refuses a larger seed, and stays as it was. -/
theorem applyEntropy_refused {size : ℕ} {mutator : PySIMDPayloadMutator size} {address seed : ℕ}
    {bytes : List Byte} (hsize : 8 ≤ size) (hseed : ¬ seed < 2 ^ 64)
    (h : mutator.WholeBlock address bytes) :
    mutator.applyEntropy 0 size seed = (.error maskOverflow, mutator) := by
  have hview : 8 ≤ (wholeBuffer size address).view.length := hsize
  have hrefused : npUint64 (Int.xor seed 0x5555555555555555) = .error maskOverflow := by
    rw [npUint64, if_neg (mt (maskValue_fits_iff seed).mp hseed), maskOverflow]
  simp only [applyEntropy, h.served, if_pos hview, hrefused]

section Run

variable (spec : WorkerShardSpec) (env : NodeEnvironment)

/-- The mask of operation `k` can be built, or none is needed. -/
def MaskBuilds (k : ℕ) : Prop := spec.blockSizeBytes < 8 ∨ spec.seed + k < 2 ^ 64

instance (k : ℕ) : Decidable (MaskBuilds spec k) :=
  inferInstanceAs (Decidable (_ ∨ _))

/-- An operation that does not raise. -/
structure OperationPasses (k : ℕ) : Prop where
  mask : MaskBuilds spec k
  lseek : env.lseek k = .ok ()
  write : ∃ written, env.write k = .ok written

/-- The call of `apply_entropy` in operation `k`. -/
def entropyCall (k : ℕ) : EntropyCall :=
  ⟨spec.seed + k, if MaskBuilds spec k then none else some maskOverflow⟩

/-- The write call of operation `k`. -/
def nodeWrite (address k : ℕ) : WriteCall :=
  ⟨spec.baseOffsetBytes + k * spec.strideBytes,
    ⟨address, spec.blockSizeBytes, nodeBlock spec.seed spec.blockSizeBytes (k + 1)⟩⟩

/-- The first `count` values of a sequence, one more at the end. -/
theorem map_range_succ {α : Type} (f : ℕ → α) (count : ℕ) :
    (List.range count).map f ++ [f count] = (List.range (count + 1)).map f := by
  rw [List.range_succ, List.map_append, List.map_singleton]

/-- The loop's variables before an operation. -/
structure NodeRunning (address : ℕ) (state : NodeLoopState spec.blockSizeBytes) : Prop where
  calls : state.entropyCalls = (List.range state.ops).map (entropyCall spec)
  attempted : state.attempted = (List.range state.ops).map (nodeWrite spec address)
  block : state.mutator.WholeBlock address (nodeBlock spec.seed spec.blockSizeBytes state.ops)
  offset : state.offset = spec.baseOffsetBytes + state.ops * spec.strideBytes

/-- The logs after an operation that raised: it called the mutator, and may have called the
operating system. -/
structure NodeStopped (address : ℕ) (state : NodeLoopState spec.blockSizeBytes) : Prop where
  calls : state.entropyCalls = (List.range (state.ops + 1)).map (entropyCall spec)
  attempted : ∃ count, state.attempted = (List.range count).map (nodeWrite spec address)
  fails : ¬ OperationPasses spec env state.ops

/-- What holds of the loop's variables after some operations, the last of which may have
raised: only then has it not been counted. -/
structure NodeLoopInv (address : ℕ) (raised : Option PyException)
    (state : NodeLoopState spec.blockSizeBytes) : Prop where
  passed : ∀ j < state.ops, OperationPasses spec env j
  running : raised = none → NodeRunning spec address state
  stopped : raised ≠ none → NodeStopped spec env address state

/-- The loop starts with a fresh block and no calls. -/
theorem nodeLoopInv_init (address : ℕ) :
    NodeLoopInv spec env address none (nodeLoopInit spec address) where
  passed := fun _ hj => absurd hj (Nat.not_lt_zero _)
  running := by
    intro _
    refine ⟨rfl, rfl, ?_, ?_⟩
    · change (fresh _ address).WholeBlock address (nodeBlock _ _ 0)
      rw [nodeBlock_zero]
      exact fresh_wholeBlock spec.seed spec.blockSizeBytes address
    · simp [nodeLoopInit]
  stopped := fun hraised => absurd rfl hraised

/-- A loop whose last operation raised. -/
theorem NodeStopped.loopInv {address : ℕ} {state : NodeLoopState spec.blockSizeBytes}
    (h : NodeStopped spec env address state) (e : PyException)
    (hpassed : ∀ j < state.ops, OperationPasses spec env j) :
    NodeLoopInv spec env address (some e) state :=
  ⟨hpassed, nofun, fun _ => h⟩

/-- The log with the call of the operation that begins. -/
theorem NodeRunning.calls_begun {address : ℕ} {state : NodeLoopState spec.blockSizeBytes}
    (h : NodeRunning spec address state) {raised : Option PyException}
    (hraised : (if MaskBuilds spec state.ops then none else some maskOverflow) = raised) :
    state.entropyCalls ++ [⟨spec.seed + state.ops, raised⟩] =
      (List.range (state.ops + 1)).map (entropyCall spec) := by
  rw [h.calls, ← hraised, ← map_range_succ]
  rfl

/-- An operation whose mask cannot be built ends the loop. -/
theorem nodeLoopInv_refused {address : ℕ} {state : NodeLoopState spec.blockSizeBytes}
    (h : NodeLoopInv spec env address none state) (hmask : ¬ MaskBuilds spec state.ops) :
    NodeLoopInv spec env address (nodeLoopBody spec env state).1
      (nodeLoopBody spec env state).2 := by
  have hrunning := h.running rfl
  have hlarge : ¬ spec.seed + state.ops < 2 ^ 64 := fun hlt => hmask (Or.inr hlt)
  have hsize : 8 ≤ spec.blockSizeBytes := Nat.not_lt.mp fun hlt => hmask (Or.inl hlt)
  have hrefused := applyEntropy_refused hsize hlarge hrunning.block
  have hbegun := hrunning.calls_begun spec (if_neg hmask)
  simp only [nodeLoopBody, hrefused, hbegun]
  refine NodeStopped.loopInv spec env ?_ _ h.passed
  exact ⟨rfl, ⟨state.ops, hrunning.attempted⟩, fun hpasses => hmask hpasses.mask⟩

/-- One operation keeps the calls in sequence, and is counted unless it raises. -/
theorem nodeLoopInv_body {address : ℕ} {state : NodeLoopState spec.blockSizeBytes}
    (h : NodeLoopInv spec env address none state) :
    NodeLoopInv spec env address (nodeLoopBody spec env state).1
      (nodeLoopBody spec env state).2 := by
  by_cases hmask : MaskBuilds spec state.ops
  · have hrunning := h.running rfl
    obtain ⟨mutated, hmutated, hblock⟩ := applyEntropy_folds hmask hrunning.block
    rw [← nodeBlock_succ] at hblock
    have hbegun := hrunning.calls_begun spec (if_pos hmask)
    have hpayload : WriteCall.mk state.offset
          (mutated.contents (wholeBuffer spec.blockSizeBytes address)) =
        nodeWrite spec address state.ops := by
      rw [contents_wholeBuffer, hblock.buffer, hrunning.offset, nodeWrite]
    have hlog : state.attempted ++ [nodeWrite spec address state.ops] =
        (List.range (state.ops + 1)).map (nodeWrite spec address) := by
      rw [hrunning.attempted, map_range_succ]
    cases hlseek : env.lseek state.ops with
    | error e =>
      simp only [nodeLoopBody, hmutated, hlseek, hbegun]
      refine NodeStopped.loopInv spec env ?_ _ h.passed
      refine ⟨rfl, ⟨state.ops, hrunning.attempted⟩, fun hpasses => ?_⟩
      rw [hpasses.lseek] at hlseek
      cases hlseek
    | ok _ =>
      cases hwrite : env.write state.ops with
      | error e =>
        simp only [nodeLoopBody, hmutated, hlseek, hwrite, hbegun, hpayload, hlog]
        refine NodeStopped.loopInv spec env ?_ _ h.passed
        refine ⟨rfl, ⟨state.ops + 1, rfl⟩, fun hpasses => ?_⟩
        obtain ⟨written, hwritten⟩ := hpasses.write
        rw [hwritten] at hwrite
        cases hwrite
      | ok written =>
        simp only [nodeLoopBody, hmutated, hlseek, hwrite, hbegun, hpayload, hlog]
        refine ⟨fun j hj => ?_, fun _ => ⟨rfl, rfl, hblock, ?_⟩, fun hraised => absurd rfl hraised⟩
        · cases Nat.lt_succ_iff_lt_or_eq.mp hj with
          | inl hearlier => exact h.passed j hearlier
          | inr hlast => exact hlast ▸ ⟨hmask, hlseek, written, hwrite⟩
        · change state.offset + spec.strideBytes = _
          rw [hrunning.offset, Nat.succ_mul, Nat.add_assoc]
  · exact nodeLoopInv_refused spec env h hmask

/-- The whole loop keeps the calls in sequence. -/
theorem nodeLoopInv_nodeLoop (address : ℕ) :
    NodeLoopInv spec env address (nodeLoop spec env address).1 (nodeLoop spec env address).2 :=
  repeatUntilRaise_spec (NodeLoopInv spec env address)
    (fun _ hstate => nodeLoopInv_body spec env hstate) env.timedOps _
    (nodeLoopInv_init spec env address)

/-- Only an operation that does not raise is counted. -/
theorem nodeLoopBody_ops (state : NodeLoopState spec.blockSizeBytes) :
    ((nodeLoopBody spec env state).1 = none →
        (nodeLoopBody spec env state).2.ops = state.ops + 1) ∧
      ((nodeLoopBody spec env state).1 ≠ none →
        (nodeLoopBody spec env state).2.ops = state.ops) := by
  rw [nodeLoopBody]
  split
  · exact ⟨nofun, fun _ => rfl⟩
  · split
    · exact ⟨nofun, fun _ => rfl⟩
    · split
      · exact ⟨nofun, fun _ => rfl⟩
      · exact ⟨fun _ => rfl, fun hsome => absurd rfl hsome⟩

/-- A loop that does not raise counts every operation the timer allows. -/
theorem nodeLoop_ops_of_none {address : ℕ} (h : (nodeLoop spec env address).1 = none) :
    (nodeLoop spec env address).2.ops = env.timedOps := by
  have hgain := repeatUntilRaise_gain NodeLoopState.ops
    (fun state => (nodeLoopBody_ops spec env state).1) env.timedOps _ h
  rw [nodeLoop, hgain, Nat.mul_one]
  exact Nat.zero_add _

/-- A loop that raises has not counted them all. -/
theorem nodeLoop_ops_of_raised {address : ℕ} (h : (nodeLoop spec env address).1 ≠ none) :
    (nodeLoop spec env address).2.ops < env.timedOps := by
  have hlt := repeatUntilRaise_lt NodeLoopState.ops
    (fun state => (nodeLoopBody_ops spec env state).1)
    (fun state => (nodeLoopBody_ops spec env state).2) env.timedOps _ h
  exact Nat.lt_of_lt_of_eq hlt (Nat.zero_add _)

/-- The loop ends without raising exactly when every operation the timer allows passes. -/
theorem nodeLoop_completes_iff (address : ℕ) :
    (nodeLoop spec env address).1 = none ↔ ∀ j < env.timedOps, OperationPasses spec env j := by
  have hinv := nodeLoopInv_nodeLoop spec env address
  constructor
  · intro hnone j hj
    apply hinv.passed
    rw [nodeLoop_ops_of_none spec env hnone]
    exact hj
  · intro hpasses
    by_contra hraised
    exact (hinv.stopped hraised).fails (hpasses _ (nodeLoop_ops_of_raised spec env hraised))

/-- The loop hands the mutator the seeds of its first operations. -/
theorem nodeLoop_calls (address : ℕ) :
    (nodeLoop spec env address).2.entropyCalls =
      (List.range (nodeLoop spec env address).2.entropyCalls.length).map (entropyCall spec) := by
  have hinv := nodeLoopInv_nodeLoop spec env address
  cases hraised : (nodeLoop spec env address).1 with
  | none =>
    have hcalls := (hinv.running hraised).calls
    rw [hcalls, List.length_map, List.length_range]
  | some e =>
    have hcalls := (hinv.stopped (hraised ▸ Option.some_ne_none e)).calls
    rw [hcalls, List.length_map, List.length_range]

/-- The loop hands the operating system the blocks of its first operations. -/
theorem nodeLoop_attempted (address : ℕ) :
    (nodeLoop spec env address).2.attempted =
      (List.range (nodeLoop spec env address).2.attempted.length).map
        (nodeWrite spec address) := by
  have hinv := nodeLoopInv_nodeLoop spec env address
  cases hraised : (nodeLoop spec env address).1 with
  | none =>
    have hattempted := (hinv.running hraised).attempted
    rw [hattempted, List.length_map, List.length_range]
  | some e =>
    obtain ⟨count, hattempted⟩ := (hinv.stopped (hraised ▸ Option.some_ne_none e)).attempted
    rw [hattempted, List.length_map, List.length_range]

/-- The loop begins an operation exactly when the timer allows it and all before it pass. -/
theorem nodeLoop_begins_iff (address k : ℕ) :
    k < (nodeLoop spec env address).2.entropyCalls.length ↔
      k < env.timedOps ∧ ∀ j < k, OperationPasses spec env j := by
  have hinv := nodeLoopInv_nodeLoop spec env address
  cases hraised : (nodeLoop spec env address).1 with
  | none =>
    rw [(hinv.running hraised).calls, List.length_map, List.length_range,
      nodeLoop_ops_of_none spec env hraised]
    constructor
    · intro hk
      refine ⟨hk, fun j hj => hinv.passed j ?_⟩
      rw [nodeLoop_ops_of_none spec env hraised]
      exact Nat.lt_trans hj hk
    · exact fun h => h.1
  | some e =>
    have hsome : (nodeLoop spec env address).1 ≠ none := hraised ▸ Option.some_ne_none e
    have hstopped := hinv.stopped hsome
    have hops := nodeLoop_ops_of_raised spec env hsome
    rw [hstopped.calls, List.length_map, List.length_range]
    constructor
    · intro hk
      exact ⟨by omega, fun j hj => hinv.passed j (by omega)⟩
    · intro h
      by_contra hlate
      exact hstopped.fails (h.2 _ (by omega))

section Process

variable (nodeId : String) (coreId : ℕ) (targetPath : String)

/-- The surroundings let a run come as far as an operation, unless a mask stops it before: the
block is mapped, the file opens, the timer allows the operation, and the operating system
fails none of the operations before it. -/
structure Reaches (k : ℕ) : Prop where
  mapped : ∃ address, env.mmap spec.blockSizeBytes = .ok address
  opened : ∃ fd, env.openFile (nodeFile targetPath nodeId coreId) = .ok fd
  timed : k < env.timedOps
  earlier : ∀ j < k, env.lseek j = .ok () ∧ ∃ written, env.write j = .ok written

/-- A run either does not come to its loop, and then makes no call, or makes its loop's. -/
theorem run_cases :
    ((¬ ∃ address, env.mmap spec.blockSizeBytes = .ok address) ∨
        ¬ ∃ fd, env.openFile (nodeFile targetPath nodeId coreId) = .ok fd) ∧
      (runSimulatedNodeWorker nodeId coreId spec targetPath env).entropyCalls = [] ∧
      (runSimulatedNodeWorker nodeId coreId spec targetPath env).attempted = [] ∨
    ∃ address fd, env.mmap spec.blockSizeBytes = .ok address ∧
      env.openFile (nodeFile targetPath nodeId coreId) = .ok fd ∧
      (runSimulatedNodeWorker nodeId coreId spec targetPath env).entropyCalls =
        (nodeLoop spec env address).2.entropyCalls ∧
      (runSimulatedNodeWorker nodeId coreId spec targetPath env).attempted =
        (nodeLoop spec env address).2.attempted := by
  rw [runSimulatedNodeWorker]
  cases hmmap : env.mmap spec.blockSizeBytes with
  | error e => exact Or.inl ⟨Or.inl nofun, rfl, rfl⟩
  | ok address =>
    cases hopen : env.openFile (nodeFile targetPath nodeId coreId) with
    | error e => exact Or.inl ⟨Or.inr nofun, rfl, rfl⟩
    | ok fd => exact Or.inr ⟨address, fd, rfl, rfl, rfl, rfl⟩

/-- A run hands the mutator the seeds of its first operations. -/
theorem run_calls :
    (runSimulatedNodeWorker nodeId coreId spec targetPath env).entropyCalls =
      (List.range (runSimulatedNodeWorker nodeId coreId spec targetPath
        env).entropyCalls.length).map (entropyCall spec) := by
  obtain ⟨-, hcalls, -⟩ | ⟨address, -, -, -, hcalls, -⟩ :=
    run_cases spec env nodeId coreId targetPath
  · rw [hcalls]
    rfl
  · rw [hcalls]
    exact nodeLoop_calls spec env address

/-- A run begins an operation exactly when it is reached and no earlier mask fails. -/
theorem run_begins_iff (k : ℕ) :
    k < (runSimulatedNodeWorker nodeId coreId spec targetPath env).entropyCalls.length ↔
      Reaches spec env nodeId coreId targetPath k ∧ ∀ j < k, MaskBuilds spec j := by
  obtain ⟨hclosed, hcalls, -⟩ | ⟨address, fd, hmmap, hopen, hcalls, -⟩ :=
    run_cases spec env nodeId coreId targetPath
  · rw [hcalls]
    refine iff_of_false (Nat.not_lt_zero k) fun h => ?_
    exact hclosed.elim (fun hmap => hmap h.1.mapped) fun hfile => hfile h.1.opened
  · rw [hcalls, nodeLoop_begins_iff]
    constructor
    · rintro ⟨htimed, hpasses⟩
      refine ⟨⟨⟨address, hmmap⟩, ⟨fd, hopen⟩, htimed, fun j hj => ?_⟩, fun j hj => ?_⟩
      · exact ⟨(hpasses j hj).lseek, (hpasses j hj).write⟩
      · exact (hpasses j hj).mask
    · rintro ⟨hreached, hmasks⟩
      refine ⟨hreached.timed, fun j hj => ?_⟩
      exact ⟨hmasks j hj, (hreached.earlier j hj).1, (hreached.earlier j hj).2⟩

/-- A run hands the operating system the blocks of its first operations. -/
theorem run_attempted :
    ∃ address, (runSimulatedNodeWorker nodeId coreId spec targetPath env).attempted =
      (List.range (runSimulatedNodeWorker nodeId coreId spec targetPath
        env).attempted.length).map (nodeWrite spec address) := by
  obtain ⟨-, -, hattempted⟩ | ⟨address, -, -, -, -, hattempted⟩ :=
    run_cases spec env nodeId coreId targetPath
  · refine ⟨0, ?_⟩
    rw [hattempted]
    rfl
  · refine ⟨address, ?_⟩
    rw [hattempted]
    exact nodeLoop_attempted spec env address

/-- A run queues a result exactly when it comes to its loop, every operation the timer allows
passes, and the file closes. -/
theorem run_completes_iff :
    (runSimulatedNodeWorker nodeId coreId spec targetPath env).outcome.isOk = true ↔
      (∃ address, env.mmap spec.blockSizeBytes = .ok address) ∧
        (∃ fd, env.openFile (nodeFile targetPath nodeId coreId) = .ok fd) ∧
        (∀ j < env.timedOps, OperationPasses spec env j) ∧ env.closeFile = .ok () := by
  rw [runSimulatedNodeWorker]
  cases hmmap : env.mmap spec.blockSizeBytes with
  | error e => exact iff_of_false Bool.false_ne_true fun h => nomatch h.1
  | ok address =>
    cases hopen : env.openFile (nodeFile targetPath nodeId coreId) with
    | error e => exact iff_of_false Bool.false_ne_true fun h => nomatch h.2.1
    | ok fd =>
      rw [← nodeLoop_completes_iff spec env address]
      simp only
      generalize nodeLoop spec env address = loop
      obtain ⟨raised, final⟩ := loop
      cases env.closeFile with
      | error e => exact iff_of_false Bool.false_ne_true fun h => nomatch h.2.2.2
      | ok _ =>
        cases raised with
        | none => exact iff_of_true rfl ⟨⟨_, rfl⟩, ⟨_, rfl⟩, rfl, rfl⟩
        | some e => exact iff_of_false Bool.false_ne_true fun h => nomatch h.2.2.1

/-- A run whose operations all pass hands a block for each of them to the operating system. -/
theorem run_attempted_length {address fd : ℕ} (hmmap : env.mmap spec.blockSizeBytes = .ok address)
    (hopen : env.openFile (nodeFile targetPath nodeId coreId) = .ok fd)
    (hpasses : ∀ j < env.timedOps, OperationPasses spec env j) :
    (runSimulatedNodeWorker nodeId coreId spec targetPath env).attempted.length =
      env.timedOps := by
  have hnone := (nodeLoop_completes_iff spec env address).mpr hpasses
  have hrunning := (nodeLoopInv_nodeLoop spec env address).running hnone
  have hrun : (runSimulatedNodeWorker nodeId coreId spec targetPath env).attempted =
      (nodeLoop spec env address).2.attempted := by
    simp only [runSimulatedNodeWorker, hmmap, hopen]
  rw [hrun, hrunning.attempted, List.length_map, List.length_range,
    nodeLoop_ops_of_none spec env hnone]

end Process

end Run

end Steve.Emulator
