import Mathlib.Algebra.Order.Floor.Semiring
import Mathlib.Tactic.Linarith
import Steve.Orchestrator.PayloadUniqueness
import Steve.Orchestrator.Pinning

/-!
# When the entropy ratio governs what is written

The ratio of a plan never reaches its workers: shards and process arguments do not carry
it, and the hot loop folds its mask into the whole block. So a write changes either every
word of the buffer or, where the mask is zero, none.
-/

namespace Steve.Orchestrator

open Steve.Library
open Steve.Adapters
open Steve.Payload

/-- The buffer's contents before a write: a fresh mapping, then what the last write carried. -/
def contentBefore (size : ℕ) (writes : List WriteCall) : ℕ → List Byte
  | 0 => List.replicate size 0#8
  | t + 1 => (writes[t]?.map fun call => call.payload.view).getD []

/-- The share of a block's words that a ratio lets a write change. -/
def entropyShare (entropyRatio : ℚ) (blockSize : ℕ) : ℕ := ⌊entropyRatio * (blockSize / 8 : ℕ)⌋₊

/-- Every process of a fleet makes the write calls of its entry point, until it is killed. -/
def WritesAsEntryPoint (env : FleetEnvironment) : Prop :=
  ∀ i args, ∃ run : WorkerRun,
    (env.process i args).attempted <+: (finishedProcess run args).attempted

/-- A write of an entry point that may be killed carries the block of its number, and finds
the block of the number before. -/
theorem entryPoint_blocks {run : WorkerRun} {args : ProcessArgs} {writes : List WriteCall}
    (hseed : args.shardSpec.seed < 2 ^ 64)
    (hwrites : writes <+: (finishedProcess run args).attempted) {t : ℕ} {write : WriteCall}
    (hwrite : writes[t]? = some write) :
    write.payload.view =
        blockAfter args.shardSpec.seed args.shardSpec.blockSizeBytes (t + 1) ∧
      contentBefore args.shardSpec.blockSizeBytes writes t =
        blockAfter args.shardSpec.seed args.shardSpec.blockSizeBytes t := by
  have hview (s : ℕ) (hs : s < writes.length) : writes[s].payload.view =
      blockAfter args.shardSpec.seed args.shardSpec.blockSizeBytes (s + 1) := by
    let entry : WorkerRun := ⟨run.σ, run.adapter, run.env, args.targetUri⟩
    have hs' : s < (entry.writes args.shardSpec).length := Nat.lt_of_lt_of_le hs hwrites.length_le
    obtain ⟨address, hcall⟩ := entry.writes_getElem hseed s hs'
    have hsame : writes[s] = (entry.writes args.shardSpec)[s] := hwrites.getElem hs
    rw [hsame, hcall, shardWrite]
  obtain ⟨ht, rfl⟩ := List.getElem?_eq_some_iff.mp hwrite
  refine ⟨hview t ht, ?_⟩
  cases t with
  | zero => rfl
  | succ s =>
    have hs : s < writes.length := Nat.lt_of_succ_lt ht
    rw [contentBefore, List.getElem?_eq_getElem hs, Option.map_some, Option.getD_some, hview s hs]

/-- Only the full ratio lets a write change every word. -/
theorem le_entropyShare_iff {entropyRatio : ℚ} (hratio : 0 ≤ entropyRatio ∧ entropyRatio ≤ 1)
    {blockSize : ℕ} (hwords : 0 < blockSize / 8) :
    blockSize / 8 ≤ entropyShare entropyRatio blockSize ↔ entropyRatio = 1 := by
  have hpos : (0 : ℚ) < (blockSize / 8 : ℕ) := Nat.cast_pos.mpr hwords
  rw [entropyShare, Nat.le_floor_iff (mul_nonneg hratio.1 hpos.le), le_mul_iff_one_le_left hpos]
  exact ⟨fun h => le_antisymm hratio.2 h, fun h => h.ge⟩

section Fleet

variable (blueprint : WorkloadBlueprint) (env : FleetEnvironment)
  (orchestrator : MultiCoreOrchestrator)

/-- Plans that differ in their ratio spawn the same processes. -/
theorem spawnLoop_entropyRatio (entropyRatio : ℚ) (adapterCls : AdapterClass)
    (localShards : List WorkerShardSpec) (positions : List ℕ) (processes : List WorkerProcess) :
    spawnLoop { blueprint with entropyRatio := entropyRatio } env adapterCls localShards positions
        processes = spawnLoop blueprint env adapterCls localShards positions processes := by
  induction positions generalizing processes with
  | nil => rfl
  | cons i rest ih =>
    rw [spawnLoop, spawnLoop]
    cases localShards[i]? with
    | none => rfl
    | some shardSpec =>
      cases env.launch i with
      | some e => rfl
      | none => exact ih _

/-- The ratio of a plan has no effect on its run. -/
theorem start_entropyRatio (entropyRatio : ℚ) :
    orchestrator.start { blueprint with entropyRatio := entropyRatio } env =
      orchestrator.start blueprint env := by
  simp only [MultiCoreOrchestrator.start, spawnLoop_entropyRatio]
  rfl

/-- Every write of every spawned worker changes all words of its buffer, or none where the
worker's mask is zero. -/
theorem start_changedWords (hentry : WritesAsEntryPoint env) {i t : ℕ} {process : WorkerProcess}
    {write : WriteCall}
    (hprocess : (orchestrator.start blueprint env).spawned[i]? = some process)
    (hwrite : process.attempted[t]? = some write) :
    changedWords (contentBefore blueprint.blockSizeBytes process.attempted t) write.payload.view =
      if mask64 (Int.xor blueprint.globalSeed i) = zeroMaskState then 0
      else blueprint.blockSizeBytes / 8 := by
  obtain ⟨adapterCls, hspawned⟩ := orchestrator.start_spawned blueprint env
  obtain ⟨hi, hprocess⟩ := List.getElem?_eq_some_iff.mp hprocess
  have hfleet : process = env.process i (orchestrator.processArgs blueprint adapterCls i) := by
    rw [← hprocess, hspawned.getElem hi]
    simp [MultiCoreOrchestrator.fleet]
  obtain ⟨run, hwrites⟩ := hentry i (orchestrator.processArgs blueprint adapterCls i)
  rw [← hfleet] at hwrites
  obtain ⟨hafter, hbefore⟩ := entryPoint_blocks (workerSeed_lt _ _) hwrites hwrite
  have hblocks := changedWords_blockAfter (workerSeed blueprint.globalSeed i)
    blueprint.blockSizeBytes t
  simp only [seedMask_workerSeed_eq_zero_iff] at hblocks
  rw [← hblocks, hafter]
  exact congrArg (changedWords · _) hbefore

/-- In every run of the master, whichever of its processes start and however long they live,
a write of the worker of a position stays within the share of the plan's ratio exactly when
the ratio is one or the hash state of the position is the one whose mask is zero. -/
theorem start_entropyRatio_iff (hentry : WritesAsEntryPoint env)
    (hratio : 0 ≤ blueprint.entropyRatio ∧ blueprint.entropyRatio ≤ 1)
    (hpos : 0 < blueprint.blockSizeBytes) (hwords : 8 ∣ blueprint.blockSizeBytes) (i t : ℕ)
    (process : WorkerProcess) (write : WriteCall)
    (hprocess : (orchestrator.start blueprint env).spawned[i]? = some process)
    (hwrite : process.attempted[t]? = some write) :
    changedWords (contentBefore blueprint.blockSizeBytes process.attempted t)
        write.payload.view ≤ entropyShare blueprint.entropyRatio blueprint.blockSizeBytes ↔
      blueprint.entropyRatio = 1 ∨
        mask64 (Int.xor blueprint.globalSeed i) = zeroMaskState := by
  have hcount : 0 < blueprint.blockSizeBytes / 8 :=
    Nat.div_pos (Nat.le_of_dvd hpos hwords) (by decide)
  rw [start_changedWords blueprint env orchestrator hentry hprocess hwrite]
  split
  · rename_i hstate
    exact ⟨fun _ => Or.inr hstate, fun _ => Nat.zero_le _⟩
  · rename_i hstate
    rw [le_entropyShare_iff hratio hcount, or_iff_left hstate]

end Fleet

/-- A plan that writes single pages with the given ratio. -/
def pageBlueprint (entropyRatio : ℚ) : WorkloadBlueprint :=
  { fileBlueprint with blockSizeBytes := 4096, entropyRatio := entropyRatio }

/-- The arguments of the worker of the first core, whatever the ratio. -/
def pageArgs : ProcessArgs :=
  (MultiCoreOrchestrator.init plainHost [0]).processArgs (pageBlueprint 0) .posixDirectIo 0

/-- The worker's process. -/
def pageProcess : WorkerProcess := finishedProcess (acceptingRun 4 1) pageArgs

/-- It makes a write call. -/
theorem pageProcess_writes : 0 < pageProcess.attempted.length := by decide +kernel

/-- Its first write call. -/
def pageWrite : WriteCall := pageProcess.attempted.get ⟨0, pageProcess_writes⟩

/-- The call stands first in its log. -/
theorem pageProcess_attempted : pageProcess.attempted[0]? = some pageWrite :=
  List.getElem?_eq_getElem pageProcess_writes

/-- A run on one core spawns that process, whatever the ratio. -/
theorem pageBlueprint_spawned (entropyRatio : ℚ) :
    ((MultiCoreOrchestrator.init plainHost [0]).start (pageBlueprint entropyRatio)
      acceptingFleet).spawned[0]? = some pageProcess := by
  have hspawns : (MultiCoreOrchestrator.init plainHost [0]).Spawns (pageBlueprint entropyRatio)
      acceptingFleet .posixDirectIo := ⟨fileBlueprint_resolves, fun _ _ => rfl⟩
  rw [MultiCoreOrchestrator.start_eq _ _ _ hspawns, collectTelemetry_spawned]
  rfl

/-- Accepting workers make the write calls of their entry point. -/
theorem acceptingFleet_writes : WritesAsEntryPoint acceptingFleet :=
  fun _ _ => ⟨acceptingRun 4 1, List.prefix_rfl⟩

/-- A first write with the full ratio. -/
theorem start_entropyRatio_iff_full :
    changedWords (contentBefore 4096 pageProcess.attempted 0) pageWrite.payload.view ≤
        entropyShare 1 4096 ↔
      (1 : ℚ) = 1 ∨ mask64 (Int.xor 42 (0 : ℕ)) = zeroMaskState :=
  start_entropyRatio_iff (pageBlueprint 1) acceptingFleet
    (MultiCoreOrchestrator.init plainHost [0]) acceptingFleet_writes ⟨zero_le_one, le_rfl⟩
    (by decide) (by decide) 0 0 _ _ (pageBlueprint_spawned 1) pageProcess_attempted

/-- With the ratio zero, the first write changes all 512 words of the page. -/
theorem start_changes_page_at_ratio_zero :
    ((MultiCoreOrchestrator.init plainHost [0]).start (pageBlueprint 0)
        acceptingFleet).spawned[0]? = some pageProcess ∧
      pageProcess.attempted[0]? = some pageWrite ∧
      changedWords (contentBefore 4096 pageProcess.attempted 0) pageWrite.payload.view = 512 ∧
      entropyShare 0 4096 = 0 := by
  refine ⟨pageBlueprint_spawned 0, pageProcess_attempted, ?_, by simp [entropyShare]⟩
  have hchanged := start_changedWords (pageBlueprint 0) acceptingFleet
    (MultiCoreOrchestrator.init plainHost [0]) acceptingFleet_writes (pageBlueprint_spawned 0)
    pageProcess_attempted
  exact hchanged.trans (if_neg (by decide))

end Steve.Orchestrator
