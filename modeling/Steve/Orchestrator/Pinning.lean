import Steve.Orchestrator.FleetTelemetry

/-!
# When the workers pin the requested cores

The core ids given to the controller fix only how many workers there are: the shard
generator numbers the node's cores from zero, and that number is what a worker pins to.
-/

namespace Steve.Orchestrator

open Steve.Adapters
open Steve.Payload
open Steve.Validation

/-- A run pins the requested cores: one worker a core, the worker of each position to the
core of that position, and so each core exactly once. -/
structure PinsCores (coreIds : List ℕ) (run : StartRun) : Prop where
  oneEach : run.spawned.length = coreIds.length
  positions : run.spawned.map WorkerProcess.pinned = coreIds.map fun coreId => [coreId]
  exactly : run.spawned.flatMap WorkerProcess.pinned = coreIds

section Fleet

variable (blueprint : WorkloadBlueprint) (env : FleetEnvironment)

/-- Every process of a fleet makes the pinning call of its entry point, whether or not it
survives the rest. -/
def PinsAsEntryPoint (orchestrator : MultiCoreOrchestrator) (adapterCls : AdapterClass) : Prop :=
  ∀ i < orchestrator.coreIds.length, ∃ run : WorkerRun,
    (env.process i (orchestrator.processArgs blueprint adapterCls i)).pinned =
      (finishedProcess run (orchestrator.processArgs blueprint adapterCls i)).pinned

/-- The fleet pins the cores from zero on. -/
theorem fleet_pinned (orchestrator : MultiCoreOrchestrator) (adapterCls : AdapterClass)
    (hentry : PinsAsEntryPoint blueprint env orchestrator adapterCls) :
    (orchestrator.fleet blueprint env adapterCls).map WorkerProcess.pinned =
      (List.range orchestrator.coreIds.length).map fun i => [i] := by
  rw [MultiCoreOrchestrator.fleet, List.map_map]
  apply List.map_congr_left
  intro i hi
  obtain ⟨run, hrun⟩ := hentry i (List.mem_range.mp hi)
  exact hrun

/-- Lists of single cores agree exactly when the cores do. -/
theorem map_singleton_inj {left right : List ℕ} :
    (left.map fun coreId => [coreId]) = right.map (fun coreId => [coreId]) ↔ left = right :=
  (List.map_injective_iff.mpr fun _ _ h => List.singleton_inj.mp h).eq_iff

/-- A controller given a nonempty list of core ids keeps it. -/
theorem init_coreIds (host : Host) {coreIds : List ℕ} (hnonempty : coreIds ≠ []) :
    (MultiCoreOrchestrator.init host coreIds).coreIds = coreIds := by
  cases coreIds with
  | nil => exact absurd rfl hnonempty
  | cons coreId rest => rfl

/-- A controller given any nonempty list of core ids pins exactly those cores, one worker
each, if and only if the list is the cores from zero on in order. -/
theorem start_pinsCores_iff (host : Host) (coreIds : List ℕ) (hnonempty : coreIds ≠ [])
    (adapterCls : AdapterClass)
    (hspawns : (MultiCoreOrchestrator.init host coreIds).Spawns blueprint env adapterCls)
    (hentry : PinsAsEntryPoint blueprint env (MultiCoreOrchestrator.init host coreIds)
      adapterCls) :
    PinsCores coreIds ((MultiCoreOrchestrator.init host coreIds).start blueprint env) ↔
      coreIds = List.range coreIds.length := by
  have hpinned := fleet_pinned blueprint env (MultiCoreOrchestrator.init host coreIds) adapterCls
    hentry
  rw [init_coreIds host hnonempty] at hpinned
  have hspawned : ((MultiCoreOrchestrator.init host coreIds).start blueprint env).spawned =
      (MultiCoreOrchestrator.init host coreIds).fleet blueprint env adapterCls := by
    rw [MultiCoreOrchestrator.start_eq _ _ _ hspawns, collectTelemetry_spawned]
  rw [← hspawned] at hpinned
  constructor
  · intro h
    have hpositions := h.positions
    rw [hpinned, map_singleton_inj] at hpositions
    exact hpositions.symm
  · intro h
    have hpositions : ((MultiCoreOrchestrator.init host coreIds).start blueprint
        env).spawned.map WorkerProcess.pinned = coreIds.map fun coreId => [coreId] := by
      rw [hpinned, ← h]
    refine ⟨?_, hpositions, ?_⟩
    · simpa using congrArg List.length hpositions
    · rw [List.flatMap_def, hpositions, ← List.flatMap_def, List.flatMap_singleton']

end Fleet

/-- A fleet of workers whose targets accept every write. -/
def acceptingFleet : FleetEnvironment where
  isWindows := false
  launch := fun _ => none
  process := fun _ args => finishedProcess (acceptingRun 4 1) args
  exits := fun _ _ => true
  drain := id
  elapsedSec := 1
  activity := []

/-- A host without an affinity mask. -/
def plainHost : Host := ⟨"node-0", none, some 8⟩

/-- Every fleet of accepting workers starts and makes its pinning calls. -/
theorem acceptingFleet_spawns (coreIds : List ℕ) :
    (MultiCoreOrchestrator.init plainHost coreIds).Spawns fileBlueprint acceptingFleet
        .posixDirectIo ∧
      PinsAsEntryPoint fileBlueprint acceptingFleet (MultiCoreOrchestrator.init plainHost coreIds)
        .posixDirectIo :=
  ⟨⟨fileBlueprint_resolves, fun _ _ => rfl⟩, fun _ _ => ⟨acceptingRun 4 1, rfl⟩⟩

/-- The cores 0, 1 and 2. -/
theorem start_pinsCores_iff_initial :
    PinsCores [0, 1, 2]
        ((MultiCoreOrchestrator.init plainHost [0, 1, 2]).start fileBlueprint acceptingFleet) ↔
      [0, 1, 2] = List.range 3 :=
  start_pinsCores_iff fileBlueprint acceptingFleet plainHost [0, 1, 2] (by decide) .posixDirectIo
    (acceptingFleet_spawns [0, 1, 2]).1 (acceptingFleet_spawns [0, 1, 2]).2

/-- A run restricted to cores 4 and 6 pins cores 0 and 1 instead. -/
theorem start_pins_other_cores :
    ¬ PinsCores [4, 6]
        ((MultiCoreOrchestrator.init plainHost [4, 6]).start fileBlueprint acceptingFleet) ∧
      ((MultiCoreOrchestrator.init plainHost [4, 6]).start fileBlueprint
        acceptingFleet).spawned.map WorkerProcess.pinned = [[0], [1]] := by
  have hpinned : ((MultiCoreOrchestrator.init plainHost [4, 6]).start fileBlueprint
      acceptingFleet).spawned.map WorkerProcess.pinned = [[0], [1]] := by
    rw [MultiCoreOrchestrator.start_eq _ _ _ (acceptingFleet_spawns [4, 6]).1,
      collectTelemetry_spawned]
    exact fleet_pinned _ _ _ _ (acceptingFleet_spawns [4, 6]).2
  refine ⟨?_, hpinned⟩
  intro h
  have hpositions := h.positions
  rw [hpinned] at hpositions
  exact absurd hpositions (by decide)

end Steve.Orchestrator
