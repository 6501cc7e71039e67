import Steve.Emulator.Cluster
import Steve.Emulator.NodeWrites
import Steve.Orchestrator.Regrouping

/-!
# What the emulator reports of its fleet

The emulator counts the processes it started and adds up the results it received. A worker
that raises puts no result, and nobody asks for it: the run still returns a summary, with
the dead worker among the cores and missing from everything else. The summary is about the
whole fleet exactly when the surroundings of every worker let it complete. A run returns one
exactly when all its processes start and their results fit the queue's pipe.
-/

namespace Steve.Emulator

open Steve.Library
open Steve.Adapters
open Steve.Orchestrator
open Steve.Validation

section Worker

variable (nodeId : String) (coreId : ℕ) (spec : WorkerShardSpec) (targetPath : String)
  (env : NodeEnvironment)

/-- The bytes operation `k` writes. -/
def writtenBytes (k : ℕ) : ℕ :=
  match env.write k with
  | .ok written => written
  | .error _ => 0

/-- The loop's counters after some operations. -/
structure NodeCounted (state : NodeLoopState spec.blockSizeBytes) : Prop where
  totalOps : state.collector.totalOps = state.ops
  totalBytes : state.collector.totalBytes = ((List.range state.ops).map (writtenBytes env)).sum

/-- An operation counts what it writes, or raises and counts nothing. -/
theorem nodeCounted_body {state : NodeLoopState spec.blockSizeBytes}
    (h : NodeCounted spec env state) : NodeCounted spec env (nodeLoopBody spec env state).2 := by
  rw [nodeLoopBody]
  split
  · exact ⟨h.totalOps, h.totalBytes⟩
  · split
    · exact ⟨h.totalOps, h.totalBytes⟩
    · split
      · exact ⟨h.totalOps, h.totalBytes⟩
      · rename_i written hwrite
        have hwritten : writtenBytes env state.ops = written := by
          rw [writtenBytes, hwrite]
        refine ⟨congrArg (· + 1) h.totalOps, ?_⟩
        change state.collector.totalBytes + written =
          ((List.range (state.ops + 1)).map (writtenBytes env)).sum
        rw [h.totalBytes, ← map_range_succ, List.sum_append, List.sum_singleton, hwritten]

/-- The counters hold at the end of the loop. -/
theorem nodeCounted_nodeLoop (address : ℕ) :
    NodeCounted spec env (nodeLoop spec env address).2 :=
  repeatUntilRaise_spec (fun _ state => NodeCounted spec env state)
    (fun _ hstate => nodeCounted_body spec env hstate) env.timedOps _ ⟨rfl, rfl⟩

/-- A result names its node and core, and counts every operation the timer allowed. -/
theorem run_result {result : WorkerTelemetryResult}
    (h : (runSimulatedNodeWorker nodeId coreId spec targetPath env).outcome = .ok result) :
    result.nodeId = nodeId ∧ result.coreId = coreId ∧ result.totalOps = env.timedOps ∧
      result.totalBytes = ((List.range env.timedOps).map (writtenBytes env)).sum := by
  rw [runSimulatedNodeWorker] at h
  cases hmmap : env.mmap spec.blockSizeBytes with
  | error e => simp [hmmap] at h
  | ok address =>
    cases hopen : env.openFile (nodeFile targetPath nodeId coreId) with
    | error e => simp [hmmap, hopen] at h
    | ok fd =>
      have hcounted := nodeCounted_nodeLoop spec env address
      have hops (hnone : (nodeLoop spec env address).1 = none) :=
        nodeLoop_ops_of_none spec env hnone
      simp only [hmmap, hopen] at h
      cases hclose : env.closeFile with
      | error e => simp [hclose] at h
      | ok _ =>
        cases hraised : (nodeLoop spec env address).1 with
        | some e => simp [hclose, hraised] at h
        | none =>
          simp only [hclose, hraised, Except.ok.injEq] at h
          subst h
          rw [← hops hraised]
          exact ⟨rfl, rfl, hcounted.totalOps, hcounted.totalBytes⟩

end Worker

section Fleet

variable (emulator : LocalClusterEmulator) (targetGbps : ℚ) (blockSize : ℕ)
  (env : EmulatorEnvironment)

/-- The surroundings of a task let its worker run to its end. -/
structure TaskCompletes (task : NodeTask) : Prop where
  mapped : ∃ address, (env.node task.nodeId task.coreId).mmap task.spec.blockSizeBytes = .ok address
  opened : ∃ fd, (env.node task.nodeId task.coreId).openFile
    (nodeFile env.baseTarget task.nodeId task.coreId) = .ok fd
  passes : ∀ j < (env.node task.nodeId task.coreId).timedOps,
    OperationPasses task.spec (env.node task.nodeId task.coreId) j
  closed : (env.node task.nodeId task.coreId).closeFile = .ok ()

/-- The tasks whose workers return a result. -/
def completedTasks (tasks : List NodeTask) : List NodeTask :=
  tasks.filter fun task => (LocalClusterEmulator.runTask env task).outcome.isOk

/-- A worker returns a result exactly when its surroundings let it. -/
theorem runTask_isOk_iff (task : NodeTask) :
    (LocalClusterEmulator.runTask env task).outcome.isOk = true ↔ TaskCompletes env task := by
  rw [LocalClusterEmulator.runTask, run_completes_iff]
  constructor
  · rintro ⟨hmapped, hopened, hpasses, hclosed⟩
    exact ⟨hmapped, hopened, hpasses, hclosed⟩
  · intro h
    exact ⟨h.mapped, h.opened, h.passes, h.closed⟩

/-- Every core of every node has one task, with the shard of that core. -/
theorem tasks_cores :
    ((emulator.tasks targetGbps blockSize).map fun task => (task.nodeId, task.coreId)) =
      clusterCores emulator.nodes := by
  rw [LocalClusterEmulator.tasks, List.map_flatMap, clusterCores]
  apply List.flatMap_congr
  intro node hnode
  obtain ⟨shards, hshards, hcores, -⟩ := nodeShards_eq 12345
    (truncated (targetGbps * 1024 ^ 3)) blockSize emulator.nodes_nodup hnode
  have hlength : shards.length = node.2 := by
    have := congrArg List.length hcores
    rwa [List.length_map, List.length_range] at this
  rw [hshards, Option.getD_some]
  apply List.ext_getElem
  · rw [List.length_map, List.length_mapIdx, List.length_map, List.length_range, hlength]
  · intro i _ _
    simp only [List.getElem_mapIdx, List.getElem_map, List.getElem_range]

/-- There are as many tasks as cores. -/
theorem tasks_length : (emulator.tasks targetGbps blockSize).length =
    emulator.nodeCount * emulator.coresPerNode := by
  have hlength := congrArg List.length (tasks_cores emulator targetGbps blockSize)
  rwa [List.length_map, clusterCores_length, emulator.totalCores_nodes] at hlength

/-- Processes that can all be started are started in turn. -/
theorem spawnNodes_eq (tasks : List NodeTask) (processes : List NodeRun)
    (hlaunch : ∀ k < processes.length + tasks.length, env.launch k = none) :
    LocalClusterEmulator.spawnNodes env tasks processes =
      (none, processes ++ tasks.map (LocalClusterEmulator.runTask env)) := by
  induction tasks generalizing processes with
  | nil => rw [LocalClusterEmulator.spawnNodes, List.map_nil, List.append_nil]
  | cons task rest ih =>
    rw [List.length_cons] at hlaunch
    rw [LocalClusterEmulator.spawnNodes, hlaunch _ (by omega)]
    simp only
    rw [ih, List.map_cons, List.append_assoc, List.singleton_append]
    intro k hk
    rw [List.length_append, List.length_singleton] at hk
    exact hlaunch k (by omega)

/-- What the queue holds once all processes have ended, seen through a measure of results
that a completed task determines. -/
theorem map_put {α : Type} (measure : WorkerTelemetryResult → α) (expected : NodeTask → α)
    (hmeasure : ∀ task result,
      (LocalClusterEmulator.runTask env task).outcome = .ok result →
        measure result = expected task) (tasks : List NodeTask) :
    (((tasks.map (LocalClusterEmulator.runTask env)).flatMap NodeRun.put).map measure) =
      (completedTasks env tasks).map expected := by
  induction tasks with
  | nil => rfl
  | cons task rest ih =>
    rw [List.map_cons, List.flatMap_cons, List.map_append, ih, completedTasks, completedTasks]
    cases houtcome : (LocalClusterEmulator.runTask env task).outcome with
    | error e =>
      rw [List.filter_cons_of_neg (by rw [houtcome]; exact Bool.false_ne_true), NodeRun.put,
        houtcome]
      rfl
    | ok result =>
      have hput : (LocalClusterEmulator.runTask env task).put.map measure = [expected task] := by
        rw [NodeRun.put, houtcome, List.map_singleton, hmeasure task result houtcome]
      rw [List.filter_cons_of_pos (by rw [houtcome]; rfl), hput]
      rfl

/-- What the summary of an emulated run says about its fleet. -/
structure FleetReport (summary : ClusterTelemetrySummary) : Prop where
  /-- every process is counted, whether or not its worker completed -/
  totalCores : summary.totalCores = emulator.nodeCount * emulator.coresPerNode
  /-- one result of each core whose worker completed -/
  workers : (summary.workers.map fun result => (result.nodeId, result.coreId)).Perm
    ((completedTasks env (emulator.tasks targetGbps blockSize)).map fun task =>
      (task.nodeId, task.coreId))
  totalOps : summary.totalOps =
    ((completedTasks env (emulator.tasks targetGbps blockSize)).map fun task =>
      (env.node task.nodeId task.coreId).timedOps).sum
  totalBytes : summary.totalBytes =
    ((completedTasks env (emulator.tasks targetGbps blockSize)).map fun task =>
      ((List.range (env.node task.nodeId task.coreId).timedOps).map
        (writtenBytes (env.node task.nodeId task.coreId))).sum).sum
  /-- the results are those of all cores exactly when every worker could complete -/
  complete : (summary.workers.map fun result => (result.nodeId, result.coreId)).Perm
      (clusterCores emulator.nodes) ↔
    ∀ task ∈ emulator.tasks targetGbps blockSize, TaskCompletes env task

/-- A process that cannot be started ends the launch with its exception. -/
theorem spawnNodes_fails {e : PyException} (tasks : List NodeTask) (processes : List NodeRun)
    (k : ℕ) (hk : k < tasks.length)
    (hearlier : ∀ j < k, env.launch (processes.length + j) = none)
    (hfails : env.launch (processes.length + k) = some e) :
    ∃ started, LocalClusterEmulator.spawnNodes env tasks processes = (some e, started) := by
  induction tasks generalizing processes k with
  | nil => exact absurd hk (Nat.not_lt_zero k)
  | cons task rest ih =>
    rw [LocalClusterEmulator.spawnNodes]
    cases k with
    | zero =>
      rw [Nat.add_zero] at hfails
      exact ⟨processes, by rw [hfails]⟩
    | succ k =>
      have hfirst := hearlier 0 (Nat.zero_lt_succ k)
      rw [Nat.add_zero] at hfirst
      rw [hfirst]
      apply ih (processes ++ [LocalClusterEmulator.runTask env task]) k (Nat.lt_of_succ_lt_succ hk)
      · intro j hj
        rw [List.length_append, List.length_singleton, Nat.add_assoc, Nat.add_comm 1 j]
        exact hearlier (j + 1) (Nat.succ_lt_succ hj)
      · rwa [List.length_append, List.length_singleton, Nat.add_assoc, Nat.add_comm 1 k]

/-- Every process of the fleet can be started. -/
def AllStart : Prop := ∀ k < emulator.nodeCount * emulator.coresPerNode, env.launch k = none

/-- What the fleet's processes put on the queue fits its pipe, unread. -/
def NodeResultsFit : Prop :=
  env.QueueHolds (emulator.nodeCount * emulator.coresPerNode)
    (((emulator.tasks targetGbps blockSize).map (LocalClusterEmulator.runTask env)).flatMap
      NodeRun.put)

/-- The joins of a run that starts all its processes. -/
theorem runEmulatedCluster_outcome (hstart : AllStart emulator env) :
    (emulator.runEmulatedCluster targetGbps blockSize env).outcome =
      if (joinEach (env.exits (((emulator.tasks targetGbps blockSize).map
          (LocalClusterEmulator.runTask env)).flatMap NodeRun.put)) 0
            ((emulator.tasks targetGbps blockSize).map
              (LocalClusterEmulator.runTask env))).2 = true then
        .ok (LocalClusterEmulator.emulatedSummary env
          (emulator.nodeCount * emulator.coresPerNode)
          (env.drain (((emulator.tasks targetGbps blockSize).map
            (LocalClusterEmulator.runTask env)).flatMap NodeRun.put)))
      else .blocked := by
  have hspawned := spawnNodes_eq env (emulator.tasks targetGbps blockSize) []
    (by simpa only [List.length_nil, Nat.zero_add, tasks_length] using fun k hk => hstart k hk)
  rw [List.nil_append] at hspawned
  simp only [LocalClusterEmulator.runEmulatedCluster, hspawned]
  split
  · rename_i hjoined
    rw [hjoined, if_neg Bool.false_ne_true]
  · rename_i hjoined
    rw [hjoined, if_pos rfl, List.length_map, tasks_length]

/-- The joins end exactly when the results fit the queue's pipe. -/
theorem joins_done_iff :
    (joinEach (env.exits (((emulator.tasks targetGbps blockSize).map
        (LocalClusterEmulator.runTask env)).flatMap NodeRun.put)) 0
          ((emulator.tasks targetGbps blockSize).map
            (LocalClusterEmulator.runTask env))).2 = true ↔
      NodeResultsFit emulator targetGbps blockSize env := by
  rw [joinEach_done_iff, List.length_map, tasks_length, NodeResultsFit]
  simp only [Nat.zero_add, EmulatorEnvironment.QueueHolds]

/-- The summary of the drained results is that of the whole fleet. -/
theorem emulatedSummary_reports (hqueue : env.QueueVisible) :
    FleetReport emulator targetGbps blockSize env
      (LocalClusterEmulator.emulatedSummary env (emulator.nodeCount * emulator.coresPerNode)
        (env.drain (((emulator.tasks targetGbps blockSize).map
          (LocalClusterEmulator.runTask env)).flatMap NodeRun.put))) := by
  have hresult (task : NodeTask) (result : WorkerTelemetryResult)
      (h : (LocalClusterEmulator.runTask env task).outcome = .ok result) :=
    run_result task.nodeId task.coreId task.spec env.baseTarget
      (env.node task.nodeId task.coreId) h
  have hdrained := hqueue (((emulator.tasks targetGbps blockSize).map
    (LocalClusterEmulator.runTask env)).flatMap NodeRun.put)
  have hworkers := hdrained.map fun result => (result.nodeId, result.coreId)
  rw [map_put env _ (fun task => (task.nodeId, task.coreId)) fun task result h => by
    rw [(hresult task result h).1, (hresult task result h).2.1]] at hworkers
  refine ⟨rfl, hworkers, ?_, ?_, ?_⟩
  · have hops := (hdrained.map WorkerTelemetryResult.totalOps).sum_eq
    rw [map_put env _ _ fun task result h => (hresult task result h).2.2.1] at hops
    exact hops
  · have hbytes := (hdrained.map WorkerTelemetryResult.totalBytes).sum_eq
    rw [map_put env _ _ fun task result h => (hresult task result h).2.2.2] at hbytes
    exact hbytes
  · have hall : (∀ task ∈ emulator.tasks targetGbps blockSize, TaskCompletes env task) ↔
        (completedTasks env (emulator.tasks targetGbps blockSize)).length =
          (emulator.tasks targetGbps blockSize).length := by
      rw [completedTasks, List.length_filter_eq_length_iff]
      simp only [runTask_isOk_iff]
    rw [hall]
    constructor
    · intro hperm
      have hlength := (hworkers.symm.trans hperm).length_eq
      rwa [List.length_map, ← tasks_cores emulator targetGbps blockSize, List.length_map]
        at hlength
    · intro hlength
      have hsame : completedTasks env (emulator.tasks targetGbps blockSize) =
          emulator.tasks targetGbps blockSize :=
        List.filter_sublist.eq_of_length hlength
      rw [hsame, tasks_cores] at hworkers
      exact hworkers

/-- The first process that cannot be started ends the run with its exception. -/
theorem runEmulatedCluster_raises {k : ℕ} (hk : k < emulator.nodeCount * emulator.coresPerNode)
    {e : PyException} (hfails : env.launch k = some e) (hearlier : ∀ j < k, env.launch j = none) :
    (emulator.runEmulatedCluster targetGbps blockSize env).outcome = .error e := by
  rw [← tasks_length emulator targetGbps blockSize] at hk
  obtain ⟨started, hspawned⟩ := spawnNodes_fails env (emulator.tasks targetGbps blockSize) [] k
    hk (by simpa only [List.length_nil, Nat.zero_add] using hearlier)
    (by simpa only [List.length_nil, Nat.zero_add] using hfails)
  simp only [LocalClusterEmulator.runEmulatedCluster, hspawned]

/-- Unless all processes start, one of them is the first that does not. -/
theorem exists_raises_of_not_allStart (hstart : ¬ AllStart emulator env) :
    ∃ e, (emulator.runEmulatedCluster targetGbps blockSize env).outcome = .error e := by
  have hfirst : ∃ k, k < emulator.nodeCount * emulator.coresPerNode ∧ env.launch k ≠ none := by
    simpa only [AllStart, not_forall, exists_prop] using hstart
  obtain ⟨hk, hfails⟩ := Nat.find_spec hfirst
  have hearlier : ∀ j < Nat.find hfirst, env.launch j = none := by
    intro j hj
    by_contra hlaunch
    exact Nat.find_min hfirst hj ⟨hj.trans hk, hlaunch⟩
  obtain ⟨e, he⟩ := Option.ne_none_iff_exists'.mp hfails
  exact ⟨e, runEmulatedCluster_raises emulator targetGbps blockSize env hk he hearlier⟩

/-- How an emulated run ends. -/
structure EmulationEnds (outcome : CallOutcome PyException ClusterTelemetrySummary) : Prop where
  /-- the first process that cannot be started ends it with its exception -/
  raises : ∀ k < emulator.nodeCount * emulator.coresPerNode, ∀ e, env.launch k = some e →
    (∀ j < k, env.launch j = none) → outcome = .error e
  returns : (∃ summary, outcome = .ok summary) ↔
    AllStart emulator env ∧ NodeResultsFit emulator targetGbps blockSize env
  report : ∀ summary, outcome = .ok summary →
    FleetReport emulator targetGbps blockSize env summary

/-- A run returns a summary exactly when all its processes start and their results fit the
queue's pipe, whatever becomes of the workers, and the summary is that of the fleet. -/
theorem runEmulatedCluster_reports (hqueue : env.QueueVisible) :
    EmulationEnds emulator targetGbps blockSize env
      (emulator.runEmulatedCluster targetGbps blockSize env).outcome := by
  have hreturns (h : AllStart emulator env ∧ NodeResultsFit emulator targetGbps blockSize env) :
      ∃ summary, (emulator.runEmulatedCluster targetGbps blockSize env).outcome = .ok summary ∧
        FleetReport emulator targetGbps blockSize env summary := by
    obtain ⟨hstart, hfit⟩ := h
    refine ⟨_, ?_, emulatedSummary_reports emulator targetGbps blockSize env hqueue⟩
    rw [runEmulatedCluster_outcome emulator targetGbps blockSize env hstart,
      if_pos ((joins_done_iff emulator targetGbps blockSize env).mpr hfit)]
  have hfails
      (h : ¬ (AllStart emulator env ∧ NodeResultsFit emulator targetGbps blockSize env)) :
      ∀ summary, (emulator.runEmulatedCluster targetGbps blockSize env).outcome ≠ .ok summary := by
    intro summary hsummary
    by_cases hstart : AllStart emulator env
    · have hfull : ¬ NodeResultsFit emulator targetGbps blockSize env := fun hfit =>
        h ⟨hstart, hfit⟩
      rw [runEmulatedCluster_outcome emulator targetGbps blockSize env hstart,
        if_neg (mt (joins_done_iff emulator targetGbps blockSize env).mp hfull)] at hsummary
      cases hsummary
    · obtain ⟨e, he⟩ := exists_raises_of_not_allStart emulator targetGbps blockSize env hstart
      rw [he] at hsummary
      cases hsummary
  obtain ⟨hiff, hreport⟩ := CallOutcome.returns_iff hreturns hfails
  refine ⟨?_, hiff, hreport⟩
  intro k hk e hlaunch hearlier
  exact runEmulatedCluster_raises emulator targetGbps blockSize env hk hlaunch hearlier

/-- Surroundings in which the second node cannot open its file. -/
def halfFleet : EmulatorEnvironment where
  tmpDir := "/tmp"
  launch := fun _ => none
  node := fun nodeId _ =>
    if nodeId = nodeName 0 then acceptingNode 4096 3
    else { acceptingNode 4096 3 with openFile := fun _ => .error ⟨24, "Too many open files"⟩ }
  exits := fun _ _ => true
  drain := id
  elapsedSec := 1

/-- Their run is reported on. -/
theorem runEmulatedCluster_reports_half_fleet :
    EmulationEnds ⟨2, 1⟩ 8 4096 halfFleet
      ((⟨2, 1⟩ : LocalClusterEmulator).runEmulatedCluster 8 4096 halfFleet).outcome :=
  runEmulatedCluster_reports ⟨2, 1⟩ 8 4096 halfFleet fun put => List.Perm.refl put

end Fleet

end Steve.Emulator
