import Steve.Orchestrator.SharedFiles

/-!
# The fleet's blocks on disk

Every worker engine runs over the direct I/O adapter on one reliable file system, and the
processes' system calls interleave in any order. Whether two workers' paths lead to one file
or to two, no block is lost or overwritten: a file holds every block the engines have finished
writing, and once each process was scheduled often enough it holds all that the results report.
-/

namespace Steve.Orchestrator

open Steve.Library
open Steve.Adapters
open Steve.Payload
open Steve.Validation

section Engine

variable {ω : Type} {F : Type} [DecidableEq F] {system : PosixSystem ω}
  {semantics : FileSemantics F system.toOperatingSystem} {paths : Set String}

/-- A file system reliable on some paths is reliable on one of them. -/
theorem reliable_singleton (hreliable : semantics.Reliable paths) {path : String}
    (hpath : path ∈ paths) : semantics.Reliable {path} where
  mkdirParents := by
    rintro os _ rfl
    exact hreliable.mkdirParents os _ hpath
  openFile := by
    rintro os _ rfl
    exact hreliable.openFile os _ hpath
  lseek := hreliable.lseek
  write := hreliable.write
  read := hreliable.read
  readv := hreliable.readv
  readinto := hreliable.readinto
  fsync := hreliable.fsync
  closeFile := hreliable.closeFile

/-- A write from an aligned address moves its whole payload. -/
theorem posixWrite_addressed {adapter : PosixDirectIOAdapter ω}
    {store : String → List Byte} {target : TargetDescriptor}
    (h : PosixRepresents semantics {target.resourcePath} adapter store)
    (hreliable : semantics.Reliable {target.resourcePath}) (offset : ℕ)
    {payload : DirectBuffer (List Byte)} (haddress : payload.address % 4096 = 0) :
    ∃ next, adapter.write system target offset payload = (.ok payload.view.length, next) ∧
      ∃ stored, PosixRepresents semantics {target.resourcePath} next stored := by
  have haligned : assertAlignment payload 4096 = none := by
    rw [assertAlignment]
    exact if_neg (not_not.mpr haddress)
  obtain ⟨fd, opened, hfd, hopened, hcached⟩ := h.getOrOpenFd hreliable rfl
  obtain ⟨sought, hseek, hsought, hcursor⟩ := hopened.represents.lseek hreliable hcached offset
  obtain ⟨next, hwrite, hnext⟩ :=
    hsought.write hreliable (Set.injOn_singleton _ _) rfl hcursor payload.view
  refine ⟨{ opened with os := next }, ?_, _, hnext, hopened.fileIos⟩
  simp only [PosixDirectIOAdapter.write, haligned, hfd, hseek, hwrite]

/-- A shard's write calls are whole blocks from one address. -/
theorem shardWrites_payload (spec : WorkerShardSpec) (address count : ℕ) :
    ∀ call ∈ shardWrites spec address count,
      call.payload.address = address ∧ call.payload.view.length = spec.blockSizeBytes := by
  intro call hcall
  obtain ⟨t, -, rfl⟩ := List.mem_map.mp hcall
  exact ⟨rfl, blockAfter_length _ _ _⟩

/-- Writes from aligned addresses all answer with the length of their payload. -/
theorem posixReplies (start : ω) {adapter : PosixDirectIOAdapter ω}
    {store : String → List Byte} {target : TargetDescriptor}
    (h : PosixRepresents semantics {target.resourcePath} adapter store)
    (hreliable : semantics.Reliable {target.resourcePath}) {calls : List WriteCall}
    (haddress : ∀ call ∈ calls, call.payload.address % 4096 = 0) :
    writeReplies (posixTargetAdapter system start) target adapter calls =
      repliesOf (calls.map fun call => call.payload.view.length) none := by
  induction calls generalizing adapter store with
  | nil => rfl
  | cons call rest ih =>
    obtain ⟨hcall, hrest⟩ := List.forall_mem_cons.mp haddress
    obtain ⟨next, hwrite, stored, hnext⟩ := posixWrite_addressed h hreliable call.offset hcall
    have hfirst : answerWrite (posixTargetAdapter system start) target adapter call =
        (.ok call.payload.view.length, next) := hwrite
    have hlater := ih hnext hrest
    rw [writeReplies] at hlater ⊢
    rw [machineOutputs, hfirst, hlater]
    rfl

variable {globalSeed : ℤ} {nodes : List (String × ℕ)} {target : ℤ} {blockSize : ℕ}
  {spec : WorkerShardSpec} {env : WorkerEnvironment}

/-- What an engine over the direct I/O adapter does on a reliable file system. -/
structure EngineCompletes (system : PosixSystem ω) (os : ω) (spec : WorkerShardSpec)
    (env : WorkerEnvironment) (targetUri : String) (run : EngineRun)
    (result : WorkerTelemetryResult) : Prop where
  outcome : run.outcome = .ok result
  clean : result.errorMessage = none
  totalOps : result.totalOps = (env.laterBatches + 1) * 64
  totalBytes : result.totalBytes = result.totalOps * spec.blockSizeBytes
  calls : run.attempted.length = result.totalOps
  /-- a process making the calls alone leaves the system as the engine's adapter does -/
  systemCalls : ∃ fd, WriterProcess.alone system (2 * result.totalOps + 2)
      (WriterProcess.init (resourcePath targetUri spec.coreId) run.attempted) os =
    (⟨resourcePath targetUri spec.coreId, .opened fd, run.attempted, []⟩,
      (adapterAfter (posixTargetAdapter system os) (workerDescriptor spec targetUri)
        (PosixDirectIOAdapter.init os) run.attempted).os)

/-- With a page-aligned mapping, an engine completes all its batches. -/
theorem execute_completes (hspec : spec ∈ clusterShards globalSeed nodes target blockSize)
    (hreliable : semantics.Reliable paths) {targetUri : String}
    (hpath : resourcePath targetUri spec.coreId ∈ paths) {address : ℕ}
    (hmmap : env.mmap spec.blockSizeBytes = .ok address) (hpage : address % 4096 = 0) (os : ω) :
    ∃ result, EngineCompletes system os spec env targetUri
      (execute (posixTargetAdapter system os) spec env targetUri) result := by
  have hboot : Bootstraps (posixTargetAdapter system os) spec env (PosixDirectIOAdapter.init os)
      (PosixDirectIOAdapter.init os) address ⟨true, false, 64, 4096⟩ := ⟨rfl, rfl, hmmap, rfl⟩
  obtain ⟨byteCounts, raised, collector, houtcome, hcalls, hreplies, hops, hbytes, hbatches⟩ :=
    execute_replies _ spec env (clusterShards_seed_lt hspec) hboot targetUri
  have hinit : PosixRepresents semantics {(workerDescriptor spec targetUri).resourcePath}
      (PosixDirectIOAdapter.init os) (storeOf semantics os) :=
    ⟨represents_empty fun _ _ => rfl, rfl⟩
  have haddress : ∀ call ∈ (execute (posixTargetAdapter system os) spec env targetUri).attempted,
      call.payload.address % 4096 = 0 := by
    intro call hcall
    rw [hcalls] at hcall
    rw [(shardWrites_payload spec address _ call hcall).1]
    exact_mod_cast hpage
  have hfull := posixReplies os hinit (reliable_singleton hreliable hpath) haddress
  have hraised : raised = none := by
    apply (repliesOf_forall_ok byteCounts raised).mp
    rw [← hreplies, hfull]
    exact (repliesOf_forall_ok _ none).mpr rfl
  subst hraised
  have hcounts : byteCounts =
      (execute (posixTargetAdapter system os) spec env targetUri).attempted.map
        fun call => call.payload.view.length := by
    rw [hfull] at hreplies
    simp only [repliesOf, Option.toList_none, List.map_nil, List.append_nil] at hreplies
    exact (List.map_injective_iff.mpr (fun _ _ h => Except.ok.inj h) hreplies).symm
  have hlength := hbatches rfl
  have hnonempty : (execute (posixTargetAdapter system os) spec env targetUri).attempted ≠ [] := by
    rw [← List.length_pos_iff, hlength]
    exact Nat.mul_pos (Nat.succ_pos _) (by decide)
  have hcounted : collector.totalOps =
      (execute (posixTargetAdapter system os) spec env targetUri).attempted.length := by
    rw [hops, hcounts, List.length_map]
  refine ⟨workerResult spec env collector none, houtcome, rfl, hcounted.trans hlength, ?_,
    hcounted.symm, ?_⟩
  · have hblocks : ∀ call ∈ (execute (posixTargetAdapter system os) spec env
        targetUri).attempted, call.payload.view.length = spec.blockSizeBytes := by
      intro call hcall
      rw [hcalls] at hcall
      exact (shardWrites_payload spec address _ call hcall).2
    change collector.totalBytes = collector.totalOps * spec.blockSizeBytes
    rw [hbytes, hcounted, hcounts, List.map_congr_left hblocks, List.map_const',
      List.sum_replicate_nat]
  · have hsystem := alone_calls os hnonempty hfull
    have hresult : (workerResult spec env collector none).totalOps = collector.totalOps := rfl
    rw [← hcounted, ← hresult] at hsystem
    exact hsystem

end Engine

section Fleet

variable {ω : Type} {F : Type} [DecidableEq F] {system : PosixSystem ω}

/-- A worker engine over the direct I/O adapter. -/
def posixRun (system : PosixSystem ω) (os : ω) (env : WorkerEnvironment) (targetUri : String) :
    WorkerRun := ⟨_, posixTargetAdapter system os, env, targetUri⟩

/-- The processes of a fleet before their first system call. -/
def fleetWriters (system : PosixSystem ω) (os : ω) (shards : List WorkerShardSpec)
    (env : Fin shards.length → WorkerEnvironment) (targetUri : Fin shards.length → String) :
    Writers (Fin shards.length) ω :=
  Writers.init (fun i => resourcePath (targetUri i) (shards.get i).coreId)
    (fun i => (posixRun system os (env i) (targetUri i)).writes (shards.get i)) os

/-- What the engines report of a fleet and what its processes leave on disk after a schedule. -/
structure FleetOnDisk (semantics : FileSemantics F system.toOperatingSystem) (os : ω)
    (shards : List WorkerShardSpec) (env : Fin shards.length → WorkerEnvironment)
    (targetUri : Fin shards.length → String) (final : Writers (Fin shards.length) ω)
    (schedule : List (Fin shards.length)) : Prop where
  /-- every engine completes, and a process scheduled often enough has made all its calls -/
  completes : ∀ i, ∃ result, EngineCompletes system os (shards.get i) (env i) (targetUri i)
      (execute (posixTargetAdapter system os) (shards.get i) (env i) (targetUri i)) result ∧
    (2 * result.totalOps + 2 ≤ schedule.count i →
      (final.process i).finished.length = result.totalOps)
  /-- a finished block is in its place in its worker's file -/
  held : ∀ i, ∀ t < (final.process i).finished.length,
    Holds ((semantics.view final.os).content
        (semantics.fileOf (resourcePath (targetUri i) (shards.get i).coreId)))
      (writeOffset (shards.get i) t)
      (blockAfter (shards.get i).seed (shards.get i).blockSizeBytes (t + 1))
  /-- every other byte of every file is as it was -/
  untouched : ∀ file position, (∀ i,
      semantics.fileOf (resourcePath (targetUri i) (shards.get i).coreId) = file →
        ∀ t < (final.process i).finished.length, position ∉ writeRange (shards.get i) t) →
    byteAt ((semantics.view final.os).content file) position =
      byteAt ((semantics.view os).content file) position

/-- The `t`-th finished call of a process of the fleet is the shard's `t`-th write. -/
theorem finished_getElem {spec : WorkerShardSpec} (hseed : spec.seed < 2 ^ 64) (run : WorkerRun)
    {process : WriterProcess} (hplan : process.finished ++ process.pending = run.writes spec)
    {t : ℕ} (ht : t < process.finished.length) :
    ∃ address, process.finished[t] = shardWrite spec address t := by
  have hlength : t < (run.writes spec).length := by
    rw [← hplan, List.length_append]
    omega
  obtain ⟨address, hcall⟩ := run.writes_getElem hseed t hlength
  refine ⟨address, ?_⟩
  rw [← hcall]
  simp only [← hplan, List.getElem_append_left ht]

omit [DecidableEq F] in
/-- The write calls of a fleet's engines do not meet in any file. -/
theorem fleet_separateCalls (system : PosixSystem ω) (file : String → F) (os : ω) (globalSeed : ℤ)
    (nodes : List (String × ℕ)) (target : ℤ) (blockSize : ℕ)
    (hids : (nodes.map Prod.fst).Nodup) (hsize : 1 ≤ blockSize)
    (env : Fin (clusterShards globalSeed nodes target blockSize).length → WorkerEnvironment)
    (targetUri : Fin (clusterShards globalSeed nodes target blockSize).length → String) :
    SeparateCalls (fun i => file (resourcePath (targetUri i)
        ((clusterShards globalSeed nodes target blockSize).get i).coreId))
      (fun i => (posixRun system os (env i) (targetUri i)).writes
        ((clusterShards globalSeed nodes target blockSize).get i)) := by
  have hlength := clusterShards_length globalSeed nodes target blockSize hids
  have hseed (i : Fin (clusterShards globalSeed nodes target blockSize).length) :
      ((clusterShards globalSeed nodes target blockSize).get i).seed < 2 ^ 64 :=
    clusterShards_seed_lt (List.getElem_mem i.isLt)
  intro i j a b _ hne
  rw [Fin.getElem_fin, Fin.getElem_fin, WorkerRun.writes_range _ (hseed i) a a.isLt,
    WorkerRun.writes_range _ (hseed j) b b.isLt, List.get_eq_getElem, List.get_eq_getElem,
    clusterShards_writeRange globalSeed nodes target blockSize hids i i.isLt,
    clusterShards_writeRange globalSeed nodes target blockSize hids j j.isLt]
  apply stridedBlock_disjoint hsize (hlength ▸ i.isLt) (hlength ▸ j.isLt)
  intro hequal
  exact hne ⟨Fin.ext hequal.1, hequal.2⟩

/-- However the system calls of a fleet's processes interleave, on one file or many, no block
that an engine has finished writing is lost or overwritten. -/
theorem fleet_blocks_on_disk (semantics : FileSemantics F system.toOperatingSystem)
    {paths : Set String} (hreliable : semantics.Reliable paths) (globalSeed : ℤ)
    (nodes : List (String × ℕ)) (target : ℤ) (blockSize : ℕ)
    (hids : (nodes.map Prod.fst).Nodup) (hsize : 1 ≤ blockSize)
    (env : Fin (clusterShards globalSeed nodes target blockSize).length → WorkerEnvironment)
    (targetUri : Fin (clusterShards globalSeed nodes target blockSize).length → String)
    (hpaths : ∀ i, resourcePath (targetUri i)
      ((clusterShards globalSeed nodes target blockSize).get i).coreId ∈ paths)
    (hmmap : ∀ i, ∃ address, (env i).mmap blockSize = .ok address ∧ address % 4096 = 0) (os : ω)
    (schedule : List (Fin (clusterShards globalSeed nodes target blockSize).length)) :
    FleetOnDisk semantics os (clusterShards globalSeed nodes target blockSize) env targetUri
      ((fleetWriters system os (clusterShards globalSeed nodes target blockSize) env
        targetUri).run system schedule) schedule := by
  have hseed (i : Fin (clusterShards globalSeed nodes target blockSize).length) :
      ((clusterShards globalSeed nodes target blockSize).get i).seed < 2 ^ 64 :=
    clusterShards_seed_lt (List.getElem_mem i.isLt)
  have hblock (i : Fin (clusterShards globalSeed nodes target blockSize).length) :
      ((clusterShards globalSeed nodes target blockSize).get i).blockSizeBytes = blockSize := by
    obtain ⟨nodeId, localCore, h⟩ :=
      clusterShards_getElem globalSeed nodes target blockSize hids i i.isLt
    rw [List.get_eq_getElem, h]
    rfl
  have hseparate := fleet_separateCalls system semantics.fileOf os globalSeed nodes
    target blockSize hids hsize env targetUri
  obtain ⟨hsound, hfinished⟩ := writers_run hreliable hpaths hseparate os schedule
  have hcalls (i : Fin (clusterShards globalSeed nodes target blockSize).length) {t : ℕ}
      (ht : t < (((fleetWriters system os (clusterShards globalSeed nodes target blockSize) env
        targetUri).run system schedule).process i).finished.length) :
      ∃ address, (((fleetWriters system os (clusterShards globalSeed nodes target blockSize) env
        targetUri).run system schedule).process i).finished[t] =
          shardWrite ((clusterShards globalSeed nodes target blockSize).get i) address t :=
    finished_getElem (hseed i) _ (hsound.inv.plan i) ht
  refine ⟨?_, ?_, ?_⟩
  · intro i
    obtain ⟨address, haddress, hpage⟩ := hmmap i
    rw [← hblock i] at haddress
    obtain ⟨result, hresult⟩ := execute_completes (List.getElem_mem i.isLt) hreliable (hpaths i)
      haddress hpage os
    refine ⟨result, hresult, ?_⟩
    intro hcount
    rw [← hresult.calls] at hcount ⊢
    exact congrArg List.length (hfinished i hcount)
  · intro i t ht
    obtain ⟨address, hcall⟩ := hcalls i ht
    have hmem := List.getElem_mem ht
    rw [hcall] at hmem
    exact hsound.inv.held i _ hmem
  · intro file position houtside
    apply hsound.inv.untouched file position
    intro i hfile call hcall
    obtain ⟨t, ht, hget⟩ := List.getElem_of_mem hcall
    obtain ⟨address, hwrite⟩ := hcalls i ht
    obtain rfl : call = shardWrite _ address t := hget.symm.trans hwrite
    rw [WriteCall.range]
    simp only [shardWrite, blockAfter_length]
    exact houtside i hfile t ht

end Fleet

/-- Two nodes of one core each, which write one file of a shared disk. -/
def sharedDiskShards : List WorkerShardSpec :=
  clusterShards 0 [("node-0", 1), ("node-1", 1)] 0 4096

/-- The second worker writes between a seek of the first and its write. -/
def sharedDiskSchedule : List (Fin sharedDiskShards.length) :=
  [⟨0, by decide⟩, ⟨0, by decide⟩, ⟨0, by decide⟩, ⟨1, by decide⟩, ⟨1, by decide⟩, ⟨1, by decide⟩,
    ⟨1, by decide⟩, ⟨0, by decide⟩]

/-- Both blocks are in place on a disk that was empty. -/
theorem fleet_blocks_on_disk_one_file :
    FleetOnDisk (diskSemantics fun _ length => length) Disk.empty sharedDiskShards
      (fun _ => (acceptingRun 64 1).env) (fun _ => "posix:///mnt/shared")
      ((fleetWriters (diskSystem fun _ length => length) Disk.empty sharedDiskShards
        (fun _ => (acceptingRun 64 1).env) (fun _ => "posix:///mnt/shared")).run
          (diskSystem fun _ length => length) sharedDiskSchedule) sharedDiskSchedule :=
  fleet_blocks_on_disk (diskSemantics fun _ length => length) diskSemantics_reliable 0
    [("node-0", 1), ("node-1", 1)] 0 4096 (by decide) (by decide) _ _ (fun _ => trivial)
    (fun _ => ⟨0x1000, rfl, rfl⟩) Disk.empty sharedDiskSchedule

end Steve.Orchestrator
