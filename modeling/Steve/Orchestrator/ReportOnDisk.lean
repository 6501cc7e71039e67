import Steve.Library.DisjointRanges
import Steve.Orchestrator.ClusterFiles
import Steve.Orchestrator.FleetTelemetry

/-!
# The report counts the bytes on disk

One run of the master on a reliable file system whose workers write through the direct I/O
adapter, their system calls interleaved in any order until every process has made all its
calls. A write is answered by its length whatever the other processes do, so a process
reports what its engine reports alone. When the queue's pipe takes all the results, the
master returns a summary. Its byte count is the number of places in files that the finished
calls cover, each place counted once, and every finished block is held by its file.
-/

namespace Steve.Orchestrator

open Steve.Library
open Steve.Adapters
open Steve.Payload
open Steve.Validation

variable {ω : Type} {F : Type} [DecidableEq F] {system : PosixSystem ω}

/-- The shard of a position of the master's fleet. -/
def MultiCoreOrchestrator.shard (orchestrator : MultiCoreOrchestrator)
    (blueprint : WorkloadBlueprint) (i : ℕ) : WorkerShardSpec :=
  (orchestrator.processArgs blueprint .posixDirectIo i).shardSpec

/-- The processes of the master's fleet before their first system call. -/
def masterWriters (system : PosixSystem ω) (os : ω) (orchestrator : MultiCoreOrchestrator)
    (blueprint : WorkloadBlueprint) (workerEnv : ℕ → WorkerEnvironment) :
    Writers (Fin orchestrator.coreIds.length) ω :=
  Writers.init (fun i => resourcePath blueprint.targetUri (orchestrator.shard blueprint i).coreId)
    (fun i => (posixRun system os (workerEnv i) blueprint.targetUri).writes
      (orchestrator.shard blueprint i)) os

/-- The places in files that the finished calls of processes cover. -/
def writtenPlaces {ι : Type} (file : ι → F) (process : ι → WriterProcess) : Set (F × ℕ) :=
  {place | ∃ i, file i = place.1 ∧ ∃ call ∈ (process i).finished, place.2 ∈ call.range}

section Counting

variable {ι : Type} {file : ι → F} {calls : ι → List WriteCall}

omit [DecidableEq F]

/-- The covered places, call by call. -/
theorem writtenPlaces_eq {process : ι → WriterProcess}
    (hfinished : ∀ i, (process i).finished = calls i) :
    writtenPlaces file process = places (fun call : Σ i, Fin (calls i).length => file call.1)
      (fun call => ((calls call.1).get call.2).offset)
      (fun call => ((calls call.1).get call.2).payload.view.length) := by
  ext place
  constructor
  · rintro ⟨i, hfile, call, hcall, hrange⟩
    rw [hfinished] at hcall
    obtain ⟨a, rfl⟩ := List.get_of_mem hcall
    exact ⟨⟨i, a⟩, hfile, hrange⟩
  · rintro ⟨⟨i, a⟩, hfile, hrange⟩
    exact ⟨i, hfile, (calls i).get a, by rw [hfinished]; exact List.get_mem _ _, hrange⟩

/-- Calls that do not meet cover as many places as their payloads have bytes. -/
theorem ncard_writtenPlaces [Fintype ι] {process : ι → WriterProcess}
    (hfinished : ∀ i, (process i).finished = calls i) (hseparate : SeparateCalls file calls)
    (size : ℕ) (hsize : ∀ i, ∀ call ∈ calls i, call.payload.view.length = size) :
    (writtenPlaces file process).ncard = ∑ i, (calls i).length * size := by
  rw [writtenPlaces_eq hfinished, ncard_places]
  · rw [Fintype.sum_sigma]
    refine Finset.sum_congr rfl fun i _ => ?_
    rw [Finset.sum_congr rfl fun a _ => hsize i _ (List.get_mem (calls i) a)]
    simp
  · rintro ⟨i, a⟩ ⟨j, b⟩ hne hfile
    apply hseparate i j a b hfile
    rintro ⟨rfl, hindex⟩
    exact hne (by rw [Fin.ext hindex])

end Counting

section Fleet

variable {orchestrator : MultiCoreOrchestrator} {blueprint : WorkloadBlueprint}

/-- The master's shards are those of a cluster of its one node. -/
theorem shard_mem_clusterShards {i : ℕ} (hi : i < orchestrator.coreIds.length) :
    orchestrator.shard blueprint i ∈ clusterShards blueprint.globalSeed
      [(orchestrator.nodeId, orchestrator.coreIds.length)]
      (blueprint.targetThroughputGbps * 1024 ^ 3) blueprint.blockSizeBytes := by
  have hget := generateClusterShards_single blueprint.globalSeed orchestrator.nodeId
    orchestrator.coreIds.length (blueprint.targetThroughputGbps * 1024 ^ 3)
    blueprint.blockSizeBytes
  have hentry := (Dict.mem_entries_iff _ _ _).mpr hget
  rw [clusterShards, List.mem_flatten]
  refine ⟨_, List.mem_map.mpr ⟨_, hentry, rfl⟩, ?_⟩
  exact List.mem_map.mpr ⟨i, List.mem_range.mpr hi, rfl⟩

omit [DecidableEq F] in
/-- The write calls of the master's engines do not meet in any file. -/
theorem master_separateCalls (system : PosixSystem ω) (file : String → F) (os : ω)
    (hsize : 1 ≤ blueprint.blockSizeBytes) (workerEnv : ℕ → WorkerEnvironment) :
    SeparateCalls (fun i : Fin orchestrator.coreIds.length => file
        (resourcePath blueprint.targetUri (orchestrator.shard blueprint i).coreId))
      (fun i : Fin orchestrator.coreIds.length =>
        (posixRun system os (workerEnv i) blueprint.targetUri).writes
          (orchestrator.shard blueprint i)) := by
  have hseed (i : Fin orchestrator.coreIds.length) :
      (orchestrator.shard blueprint i).seed < 2 ^ 64 :=
    clusterShards_seed_lt (shard_mem_clusterShards i.isLt)
  have hrange (i : Fin orchestrator.coreIds.length) (t : ℕ) :
      writeRange (orchestrator.shard blueprint i) t =
        stridedBlock orchestrator.coreIds.length blueprint.blockSizeBytes i t := rfl
  intro i j a b _ hne
  rw [Fin.getElem_fin, Fin.getElem_fin, WorkerRun.writes_range _ (hseed i) a a.isLt,
    WorkerRun.writes_range _ (hseed j) b b.isLt, hrange, hrange]
  apply stridedBlock_disjoint hsize i.isLt j.isLt
  intro hequal
  exact hne ⟨Fin.ext hequal.1, hequal.2⟩

/-- What the process of a position puts on the queue. -/
def masterResult (system : PosixSystem ω) (os : ω) (orchestrator : MultiCoreOrchestrator)
    (blueprint : WorkloadBlueprint) (workerEnv : ℕ → WorkerEnvironment) (i : ℕ) :
    WorkerTelemetryResult :=
  match (execute (posixTargetAdapter system os) (orchestrator.shard blueprint i) (workerEnv i)
    blueprint.targetUri).outcome with
  | .ok result => result
  | .error e => bootstrapErrorResult (orchestrator.shard blueprint i) e

/-- A run of the master whose workers run their engines over the direct I/O adapter on a
reliable file system, with page-aligned buffers. -/
structure DiskRun (semantics : FileSemantics F system.toOperatingSystem) (os : ω)
    (orchestrator : MultiCoreOrchestrator) (blueprint : WorkloadBlueprint)
    (env : FleetEnvironment) (workerEnv : ℕ → WorkerEnvironment) (paths : Set String) :
    Prop where
  reliable : semantics.Reliable paths
  onPaths : ∀ i < orchestrator.coreIds.length,
    resourcePath blueprint.targetUri (orchestrator.shard blueprint i).coreId ∈ paths
  blocks : 1 ≤ blueprint.blockSizeBytes
  mapped : ∀ i < orchestrator.coreIds.length, ∃ address,
    (workerEnv i).mmap blueprint.blockSizeBytes = .ok address ∧ address % 4096 = 0
  spawns : orchestrator.Spawns blueprint env .posixDirectIo
  queueVisible : env.QueueVisible
  process : ∀ i args, env.process i args =
    finishedProcess (posixRun system os (workerEnv i) blueprint.targetUri) args

/-- A summary tells what the processes have left on disk. -/
structure TellsDisk (semantics : FileSemantics F system.toOperatingSystem)
    (orchestrator : MultiCoreOrchestrator) (blueprint : WorkloadBlueprint)
    (final : Writers (Fin orchestrator.coreIds.length) ω) (summary : ClusterTelemetrySummary) :
    Prop where
  totalCores : summary.totalCores = orchestrator.coreIds.length
  totalOps : summary.totalOps = ∑ i, (final.process i).finished.length
  /-- the byte count is the number of places covered, each counted once -/
  totalBytes : summary.totalBytes =
    (writtenPlaces (fun i => semantics.fileOf (final.process i).path) final.process).ncard
  /-- each worker reports the blocks of one process -/
  workers : ∀ worker ∈ summary.workers, ∃ i : Fin orchestrator.coreIds.length,
    worker.coreId = (i : ℕ) ∧ worker.totalOps = (final.process i).finished.length ∧
      worker.totalBytes = worker.totalOps * blueprint.blockSizeBytes
  /-- every block counted is in its place -/
  held : ∀ i, ∀ t < (final.process i).finished.length,
    Holds ((semantics.view final.os).content (semantics.fileOf (final.process i).path))
      (writeOffset (orchestrator.shard blueprint i) t)
      (blockAfter (orchestrator.shard blueprint i).seed blueprint.blockSizeBytes (t + 1))

variable {semantics : FileSemantics F system.toOperatingSystem} {os : ω} {env : FleetEnvironment}
  {workerEnv : ℕ → WorkerEnvironment} {paths : Set String}

/-- Every engine of the run completes. -/
theorem DiskRun.completes
    (h : DiskRun semantics os orchestrator blueprint env workerEnv paths) {i : ℕ}
    (hi : i < orchestrator.coreIds.length) :
    EngineCompletes system os (orchestrator.shard blueprint i) (workerEnv i) blueprint.targetUri
      (execute (posixTargetAdapter system os) (orchestrator.shard blueprint i) (workerEnv i)
        blueprint.targetUri)
      (masterResult system os orchestrator blueprint workerEnv i) := by
  obtain ⟨address, hmmap, hpage⟩ := h.mapped i hi
  obtain ⟨result, hresult⟩ := execute_completes (shard_mem_clusterShards hi) h.reliable
    (h.onPaths i hi) hmmap hpage os
  have hsame : masterResult system os orchestrator blueprint workerEnv i = result := by
    rw [masterResult, hresult.outcome]
  rwa [hsame]

/-- The queue holds one result of every position. -/
theorem DiskRun.put (h : DiskRun semantics os orchestrator blueprint env workerEnv paths) :
    (orchestrator.fleet blueprint env .posixDirectIo).flatMap WorkerProcess.put =
      (List.range orchestrator.coreIds.length).map
        (masterResult system os orchestrator blueprint workerEnv) := by
  rw [MultiCoreOrchestrator.fleet, List.flatMap_map, List.map_eq_flatMap]
  congr 1
  funext i
  rw [h.process]
  rfl

/-- An engine that completes reports the core it was given. -/
theorem execute_coreId {σ : Type} {adapter : TargetAdapter σ} {spec : WorkerShardSpec}
    {env : WorkerEnvironment} {targetUri : String} {result : WorkerTelemetryResult}
    (h : (execute adapter spec env targetUri).outcome = .ok result) :
    result.coreId = spec.coreId := by
  unfold execute at h
  split at h
  · cases h
  · split at h
    · cases h
    · split at h
      · cases h
      · split at h
        · cases h
        · simp only [runHotLoop] at h
          split at h
          · cases h
          · cases h
            rfl

/-- A sum over the first numbers, as a list and as a family. -/
theorem sum_map_range (count : ℕ) (value : ℕ → ℕ) :
    ((List.range count).map value).sum = ∑ i : Fin count, value i := by
  rw [Fin.sum_univ_eq_sum_range]
  rfl

/-- What the processes put on the queue fits its pipe, unread. -/
def ResultsFit (system : PosixSystem ω) (os : ω) (orchestrator : MultiCoreOrchestrator)
    (blueprint : WorkloadBlueprint) (env : FleetEnvironment)
    (workerEnv : ℕ → WorkerEnvironment) : Prop :=
  env.QueueHolds orchestrator.coreIds.length ((List.range orchestrator.coreIds.length).map
    (masterResult system os orchestrator blueprint workerEnv))

/-- When the results fit the queue's pipe, the run returns the summary of all of them. -/
theorem DiskRun.outcome_of_fit
    (h : DiskRun semantics os orchestrator blueprint env workerEnv paths)
    (hfit : ResultsFit system os orchestrator blueprint env workerEnv) :
    ∃ summary, (orchestrator.start blueprint env).outcome = .ok summary ∧
      summary.totalCores = orchestrator.coreIds.length ∧
      summary.workers.Perm ((List.range orchestrator.coreIds.length).map
        (masterResult system os orchestrator blueprint workerEnv)) ∧
      summary.totalOps = (summary.workers.map WorkerTelemetryResult.totalOps).sum ∧
      summary.totalBytes = (summary.workers.map WorkerTelemetryResult.totalBytes).sum := by
  have hperm := h.queueVisible ((orchestrator.fleet blueprint env .posixDirectIo).flatMap
    WorkerProcess.put)
  rw [h.put] at hperm
  have hclean : (env.drain ((List.range orchestrator.coreIds.length).map
      (masterResult system os orchestrator blueprint workerEnv))).filter
        (fun worker => worker.errorMessage.isSome) = [] := by
    rw [List.filter_eq_nil_iff]
    intro worker hworker
    obtain ⟨i, hi, rfl⟩ := List.mem_map.mp (hperm.mem_iff.mp hworker)
    rw [(h.completes (List.mem_range.mp hi)).clean]
    exact Bool.false_ne_true
  refine ⟨clusterSummary blueprint env orchestrator.coreIds.length
    (env.drain ((List.range orchestrator.coreIds.length).map
      (masterResult system os orchestrator blueprint workerEnv))), ?_, rfl, hperm, rfl, rfl⟩
  rw [ResultsFit, ← h.put] at hfit
  rw [orchestrator.start_outcome_of_holds blueprint env h.spawns hfit]
  simp only [reportTelemetry, h.put, hclean, ne_eq, not_true_eq_false, if_false,
    CallOutcome.ofExcept]

/-- When they do not, the run never ends. -/
theorem DiskRun.outcome_of_not_fit
    (h : DiskRun semantics os orchestrator blueprint env workerEnv paths)
    (hfull : ¬ ResultsFit system os orchestrator blueprint env workerEnv) :
    (orchestrator.start blueprint env).outcome = .blocked := by
  rw [ResultsFit, ← h.put] at hfull
  exact orchestrator.start_outcome_of_not_holds blueprint env h.spawns hfull

/-- The processes are sound after any schedule. -/
theorem DiskRun.sound (h : DiskRun semantics os orchestrator blueprint env workerEnv paths)
    (schedule : List (Fin orchestrator.coreIds.length)) :
    ((masterWriters system os orchestrator blueprint workerEnv).run system schedule).Sound
      semantics (fun i : Fin orchestrator.coreIds.length =>
        resourcePath blueprint.targetUri (orchestrator.shard blueprint i).coreId)
      (fun i : Fin orchestrator.coreIds.length =>
        (posixRun system os (workerEnv i) blueprint.targetUri).writes
          (orchestrator.shard blueprint i)) (semantics.view os) :=
  (writers_run h.reliable
    (fun i : Fin orchestrator.coreIds.length => h.onPaths i i.isLt)
    (master_separateCalls system semantics.fileOf os h.blocks workerEnv) os schedule).1

/-- Processes that have made all their calls left on disk what their results report. -/
theorem DiskRun.tells (h : DiskRun semantics os orchestrator blueprint env workerEnv paths)
    {final : Writers (Fin orchestrator.coreIds.length) ω}
    (hsound : final.Sound semantics
      (fun i : Fin orchestrator.coreIds.length =>
        resourcePath blueprint.targetUri (orchestrator.shard blueprint i).coreId)
      (fun i : Fin orchestrator.coreIds.length =>
        (posixRun system os (workerEnv i) blueprint.targetUri).writes
          (orchestrator.shard blueprint i)) (semantics.view os))
    (hjoined : ∀ i, (final.process i).pending = []) {summary : ClusterTelemetrySummary}
    (hcores : summary.totalCores = orchestrator.coreIds.length)
    (hworkers : summary.workers.Perm ((List.range orchestrator.coreIds.length).map
      (masterResult system os orchestrator blueprint workerEnv)))
    (hops : summary.totalOps = (summary.workers.map WorkerTelemetryResult.totalOps).sum)
    (hbytes : summary.totalBytes = (summary.workers.map WorkerTelemetryResult.totalBytes).sum) :
    TellsDisk semantics orchestrator blueprint final summary := by
  have hfinished : ∀ i, (final.process i).finished = (posixRun system os (workerEnv i)
      blueprint.targetUri).writes (orchestrator.shard blueprint i) := by
    intro i
    have hplan := hsound.inv.plan i
    rwa [hjoined i, List.append_nil] at hplan
  have hcount : ∀ i, (final.process i).finished.length =
      (masterResult system os orchestrator blueprint workerEnv i).totalOps := by
    intro i
    rw [hfinished i]
    exact (h.completes i.isLt).calls
  have hpaths : (fun i => semantics.fileOf (final.process i).path) =
      fun i : Fin orchestrator.coreIds.length => semantics.fileOf
        (resourcePath blueprint.targetUri (orchestrator.shard blueprint i).coreId) := by
    funext i
    rw [hsound.onPath i]
  have hseed : ∀ i : Fin orchestrator.coreIds.length,
      (orchestrator.shard blueprint i).seed < 2 ^ 64 := fun i =>
    clusterShards_seed_lt (shard_mem_clusterShards i.isLt)
  refine ⟨hcores, ?_, ?_, ?_, ?_⟩
  · rw [hops, (hworkers.map _).sum_eq, List.map_map, sum_map_range]
    exact Finset.sum_congr rfl fun i _ => (hcount i).symm
  · have hplaces := ncard_writtenPlaces hfinished
      (master_separateCalls system semantics.fileOf os h.blocks workerEnv)
      blueprint.blockSizeBytes (by
        intro i call hcall
        obtain ⟨t, ht, rfl⟩ := List.getElem_of_mem hcall
        obtain ⟨address, haddress⟩ := WorkerRun.writes_getElem _ (hseed i) t ht
        rw [haddress]
        exact blockAfter_length _ _ _)
    rw [hpaths, hplaces, hbytes, (hworkers.map _).sum_eq, List.map_map, sum_map_range]
    refine Finset.sum_congr rfl fun i _ => ?_
    rw [← hfinished i, hcount i]
    exact (h.completes i.isLt).totalBytes
  · intro worker hworker
    obtain ⟨i, hi, rfl⟩ := List.mem_map.mp (hworkers.mem_iff.mp hworker)
    have hi := List.mem_range.mp hi
    exact ⟨⟨i, hi⟩, execute_coreId (h.completes hi).outcome, (hcount ⟨i, hi⟩).symm,
      (h.completes hi).totalBytes⟩
  · intro i t ht
    obtain ⟨address, hcall⟩ := finished_getElem (hseed i) _ (hsound.inv.plan i) ht
    have hmem := List.getElem_mem ht
    rw [hcall] at hmem
    rw [hsound.onPath i]
    exact hsound.inv.held i _ hmem

/-- A process that is scheduled often enough is joined. -/
theorem DiskRun.joined (h : DiskRun semantics os orchestrator blueprint env workerEnv paths)
    (schedule : List (Fin orchestrator.coreIds.length))
    (hcount : ∀ i : Fin orchestrator.coreIds.length,
      2 * (((workerEnv i).laterBatches + 1) * 64) + 2 ≤ schedule.count i)
    (i : Fin orchestrator.coreIds.length) :
    (((masterWriters system os orchestrator blueprint workerEnv).run system
      schedule).process i).pending = [] := by
  obtain ⟨-, hfinished⟩ := writers_run h.reliable
    (fun i : Fin orchestrator.coreIds.length => h.onPaths i i.isLt)
    (master_separateCalls system semantics.fileOf os h.blocks workerEnv) os schedule
  have hcalls := (h.completes i.isLt).calls
  rw [(h.completes i.isLt).totalOps] at hcalls
  have hplan := (h.sound schedule).inv.plan i
  have hlength : ((posixRun system os (workerEnv i) blueprint.targetUri).writes
      (orchestrator.shard blueprint i)).length = ((workerEnv i).laterBatches + 1) * 64 := hcalls
  have hall : (((masterWriters system os orchestrator blueprint workerEnv).run system
      schedule).process i).finished = (posixRun system os (workerEnv i)
        blueprint.targetUri).writes (orchestrator.shard blueprint i) :=
    hfinished i (by
      rw [hlength]
      exact hcount i)
  rw [hall] at hplan
  exact List.append_right_eq_self.mp hplan

/-- However the system calls of the master's workers interleave, once all processes have made
their calls, the run returns a summary exactly when the results fit the queue's pipe, and the
summary tells what is on disk: its byte count is the number of places covered, and every block
it counts is held by its file. -/
theorem report_tells_disk (semantics : FileSemantics F system.toOperatingSystem) (os : ω)
    (orchestrator : MultiCoreOrchestrator) (blueprint : WorkloadBlueprint)
    (env : FleetEnvironment) (workerEnv : ℕ → WorkerEnvironment) (paths : Set String)
    (hrun : DiskRun semantics os orchestrator blueprint env workerEnv paths)
    (schedule : List (Fin orchestrator.coreIds.length))
    (hjoined : ∀ i, (((masterWriters system os orchestrator blueprint workerEnv).run system
      schedule).process i).pending = []) :
    ((∃ summary, (orchestrator.start blueprint env).outcome = .ok summary) ↔
        ResultsFit system os orchestrator blueprint env workerEnv) ∧
      ∀ summary, (orchestrator.start blueprint env).outcome = .ok summary →
        TellsDisk semantics orchestrator blueprint
          ((masterWriters system os orchestrator blueprint workerEnv).run system schedule)
          summary := by
  apply CallOutcome.returns_iff
  · intro hfit
    obtain ⟨summary, houtcome, hcores, hworkers, hops, hbytes⟩ := hrun.outcome_of_fit hfit
    exact ⟨summary, houtcome,
      hrun.tells (hrun.sound schedule) hjoined hcores hworkers hops hbytes⟩
  · intro hfull summary hsummary
    rw [hrun.outcome_of_not_fit hfull] at hsummary
    cases hsummary

end Fleet

/-- Blocks of one page, written to files below a directory. -/
def diskBlueprint : WorkloadBlueprint :=
  { fileBlueprint with blockSizeBytes := 4096 }

/-- The engine of a worker on an empty disk that moves all it is given, in two batches. -/
def diskWorkerEnv : ℕ → WorkerEnvironment :=
  fun _ => (acceptingRun 64 1).env

/-- Processes that run their engines on that disk. -/
def diskFleet : FleetEnvironment where
  isWindows := false
  launch := fun _ => none
  process := fun i args => finishedProcess (posixRun (diskSystem fun _ length => length) Disk.empty
    (diskWorkerEnv i) diskBlueprint.targetUri) args
  exits := fun _ _ => true
  drain := id
  elapsedSec := 1
  activity := []

/-- The two workers of a host, turn by turn. -/
def turnByTurn : List (Fin twoCores.coreIds.length) :=
  (List.replicate 258 [⟨0, by decide⟩, ⟨1, by decide⟩]).flatten

/-- The master's run on that disk. -/
theorem diskFleet_run : DiskRun (diskSemantics fun _ length => length) Disk.empty twoCores
    diskBlueprint diskFleet diskWorkerEnv Set.univ where
  reliable := diskSemantics_reliable
  onPaths := fun _ _ => trivial
  blocks := by decide
  mapped := fun _ _ => ⟨0x1000, rfl, rfl⟩
  spawns := ⟨fileBlueprint_resolves, fun _ _ => rfl⟩
  queueVisible := fun _ => List.Perm.refl _
  process := fun _ _ => rfl

/-- Two workers that take turns on an empty disk leave there what the summary counts. -/
theorem report_tells_disk_turns :
    ((∃ summary, (twoCores.start diskBlueprint diskFleet).outcome = .ok summary) ↔
        ResultsFit (diskSystem fun _ length => length) Disk.empty twoCores diskBlueprint diskFleet
          diskWorkerEnv) ∧
      ∀ summary, (twoCores.start diskBlueprint diskFleet).outcome = .ok summary →
        TellsDisk (diskSemantics fun _ length => length) twoCores diskBlueprint
          ((masterWriters (diskSystem fun _ length => length) Disk.empty twoCores diskBlueprint
            diskWorkerEnv).run (diskSystem fun _ length => length) turnByTurn) summary := by
  apply report_tells_disk (diskSemantics fun _ length => length) Disk.empty twoCores
    diskBlueprint diskFleet diskWorkerEnv Set.univ diskFleet_run turnByTurn
  apply diskFleet_run.joined
  intro i
  have hcount : turnByTurn.count i = 258 := by
    have hturn : ∀ i : Fin twoCores.coreIds.length,
        [⟨0, by decide⟩, ⟨1, by decide⟩].count i = 1 := by decide
    rw [turnByTurn, List.count_flatten, List.map_replicate, List.sum_replicate, hturn]
    exact Nat.mul_one 258
  rw [hcount]
  exact Nat.le_refl 258

end Steve.Orchestrator
