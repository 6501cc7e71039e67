import Steve.Orchestrator.EntropyRatio
import Steve.Payload.BlockEntropy

/-!
# The entropy of what workers write

A worker's block carries its mask after an odd number of mutations and zeros after an even
one. Its writes therefore take turns between the entropy of the mask's eight bytes, at most
three bits in a byte, and none at all, whatever ratio the plan asks for.
-/

namespace Steve.Orchestrator

open Steve.Library
open Steve.Payload

/-- The entropy of a block after one more mutation than a number of them. -/
theorem shannonEntropy_blockAfter (seed : ℕ) {size : ℕ} (hpos : 0 < size) (hwords : 8 ∣ size)
    (t : ℕ) :
    shannonEntropy (blockAfter seed size (t + 1)) =
      if t % 2 = 0 then shannonEntropy (wordBytes (seedMask seed)) else 0 := by
  rw [blockAfter]
  by_cases heven : t % 2 = 0
  · rw [if_neg (by omega), if_pos heven, shannonEntropy_maskedBlock _ hpos hwords]
  · rw [if_pos (by omega), if_neg heven, shannonEntropy_replicate]

section Fleet

variable (blueprint : WorkloadBlueprint) (env : FleetEnvironment)
  (orchestrator : MultiCoreOrchestrator)

/-- A write of a spawned worker carries the block of its number. -/
theorem start_writes_block (hentry : WritesAsEntryPoint env) {i t : ℕ} {process : WorkerProcess}
    {write : WriteCall}
    (hprocess : (orchestrator.start blueprint env).spawned[i]? = some process)
    (hwrite : process.attempted[t]? = some write) :
    write.payload.view =
      blockAfter (workerSeed blueprint.globalSeed i) blueprint.blockSizeBytes (t + 1) := by
  obtain ⟨adapterCls, hspawned⟩ := orchestrator.start_spawned blueprint env
  obtain ⟨hi, hprocess⟩ := List.getElem?_eq_some_iff.mp hprocess
  have hfleet : process = env.process i (orchestrator.processArgs blueprint adapterCls i) := by
    rw [← hprocess, hspawned.getElem hi]
    simp [MultiCoreOrchestrator.fleet]
  obtain ⟨run, hwrites⟩ := hentry i (orchestrator.processArgs blueprint adapterCls i)
  rw [← hfleet] at hwrites
  exact (entryPoint_blocks (workerSeed_lt _ _) hwrites hwrite).1

/-- In every run of the master, every write of every worker has at most three bits of entropy
in a byte, and every second one carries zeros and has none. -/
theorem start_writtenEntropy (hentry : WritesAsEntryPoint env)
    (hpos : 0 < blueprint.blockSizeBytes) (hwords : 8 ∣ blueprint.blockSizeBytes) (i t : ℕ)
    (process : WorkerProcess) (write : WriteCall)
    (hprocess : (orchestrator.start blueprint env).spawned[i]? = some process)
    (hwrite : process.attempted[t]? = some write) :
    shannonEntropy write.payload.view ≤ 3 ∧
      shannonEntropy write.payload.view =
        (if t % 2 = 0 then
          shannonEntropy (wordBytes (seedMask (workerSeed blueprint.globalSeed i)))
        else 0) ∧
      (t % 2 = 1 → write.payload.view = List.replicate blueprint.blockSizeBytes 0) := by
  have hblock := start_writes_block blueprint env orchestrator hentry hprocess hwrite
  have hentropy := shannonEntropy_blockAfter (workerSeed blueprint.globalSeed i) hpos hwords t
  rw [← hblock] at hentropy
  refine ⟨?_, hentropy, ?_⟩
  · rw [hentropy]
    split
    · exact shannonEntropy_wordBytes_le _
    · norm_num
  · intro hodd
    rw [hblock, blockAfter, if_pos (by omega)]
    rfl

end Fleet

/-- The first write of a page. -/
theorem start_writtenEntropy_page :
    shannonEntropy pageWrite.payload.view ≤ 3 ∧
      shannonEntropy pageWrite.payload.view =
        (if 0 % 2 = 0 then shannonEntropy (wordBytes (seedMask (workerSeed 42 0))) else 0) ∧
      (0 % 2 = 1 → pageWrite.payload.view = List.replicate 4096 0) :=
  start_writtenEntropy (pageBlueprint 1) acceptingFleet (MultiCoreOrchestrator.init plainHost [0])
    acceptingFleet_writes (by decide) (by decide) 0 0 _ _ (pageBlueprint_spawned 1)
    pageProcess_attempted

end Steve.Orchestrator
