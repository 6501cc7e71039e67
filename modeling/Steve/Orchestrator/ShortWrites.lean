import Mathlib.Algebra.Order.BigOperators.Group.List
import Steve.Adapters.Disk
import Steve.Adapters.FileStore
import Steve.Orchestrator.WorkerAccounting

/-!
# Worker runs over the direct I/O adapter

The adapter answers a write with the byte count of its one system call, and the worker adds
the count up and strides on. So the transfers of an error-free run are its write calls, each
cut to what the system moved, and every block is complete exactly when no write was short.
-/

namespace Steve.Orchestrator

open Steve.Library
open Steve.Adapters
open Steve.Payload
open Steve.Validation

/-- Values within a bound add up to as many times the bound exactly when all reach it. -/
theorem sum_eq_length_mul_iff {values : List ℕ} {bound : ℕ}
    (h : ∀ value ∈ values, value ≤ bound) :
    values.sum = values.length * bound ↔ ∀ value ∈ values, value = bound := by
  induction values with
  | nil => simp
  | cons value rest ih =>
    obtain ⟨hvalue, hrest⟩ := List.forall_mem_cons.mp h
    have hsum : rest.sum ≤ rest.length * bound := List.sum_le_card_nsmul rest bound hrest
    rw [List.forall_mem_cons, ← ih hrest, List.sum_cons, List.length_cons, Nat.succ_mul]
    omega

section Transfers

variable {ω : Type} {F : Type} [DecidableEq F] {system : PosixSystem ω}
  {semantics : FileSemantics F system.toOperatingSystem}

/-- Getting a descriptor keeps the cache open and transfers nothing. -/
theorem getOrOpenFd_ok {adapter next : PosixDirectIOAdapter ω} {target : TargetDescriptor}
    {fd : ℕ} (h : CacheOpen semantics adapter.fds adapter.os)
    (hfd : adapter.getOrOpenFd system target = (.ok fd, next)) :
    CacheOpen semantics next.fds next.os ∧ next.fds.get? target.resourcePath = some fd ∧
      (semantics.view next.os).writes = (semantics.view adapter.os).writes := by
  simp only [PosixDirectIOAdapter.getOrOpenFd] at hfd
  split at hfd
  · rename_i hcached
    cases hfd
    exact ⟨h, hcached, rfl⟩
  · split at hfd
    · cases hfd
    · rename_i ready hparent
      have hready : semantics.view ready = semantics.view adapter.os := by
        rw [PosixDirectIOAdapter.ensureParent] at hparent
        split at hparent
        · cases hparent
          rfl
        · rw [← semantics.mkdirParents adapter.os target.resourcePath, hparent]
      split at hfd
      · cases hfd
      · rename_i opened hopened
        cases hfd
        have hcache : CacheOpen semantics adapter.fds ready :=
          h.of_descriptor_eq (by rw [hready])
        refine ⟨hcache.set hopened, by rw [Dict.get?_set, if_pos rfl], ?_⟩
        rw [(semantics.openFile _ _ _ _ hopened).2, FileView.setDescriptor, hready]

/-- A successful write makes one transfer, at the call's offset, of part of the payload. -/
theorem posixWrite_ok {adapter next : PosixDirectIOAdapter ω} {target : TargetDescriptor}
    {offset count : ℕ} {payload : DirectBuffer (List Byte)}
    (h : CacheOpen semantics adapter.fds adapter.os)
    (hwrite : adapter.write system target offset payload = (.ok count, next)) :
    CacheOpen semantics next.fds next.os ∧ count ≤ payload.view.length ∧
      (semantics.view next.os).writes = (semantics.view adapter.os).writes ++
        [⟨semantics.fileOf target.resourcePath, offset, payload.view.take count⟩] := by
  simp only [PosixDirectIOAdapter.write] at hwrite
  split at hwrite
  · cases hwrite
  · split at hwrite
    · cases hwrite
    · rename_i fd opened hfd
      obtain ⟨hopened, hcached, hwrites⟩ := getOrOpenFd_ok h hfd
      obtain ⟨cursor, hcursor⟩ := hopened.cached _ _ hcached
      split at hwrite
      · cases hwrite
      · rename_i sought hseek
        have hsought := semantics.lseek _ _ _ _ _ _ hcursor hseek
        have hposition : (semantics.view sought).descriptor fd =
            some (semantics.fileOf target.resourcePath, offset) := by
          rw [hsought, FileView.setDescriptor_self]
        have hcache : CacheOpen semantics opened.fds sought :=
          hopened.of_update hcursor (congrArg FileView.descriptor hsought)
        split at hwrite
        · cases hwrite
        · rename_i written hmoved
          cases hwrite
          obtain ⟨hcount, -, hview⟩ := semantics.write _ _ _ _ _ _ _ hposition hmoved
          refine ⟨hcache.of_update hposition (congrArg FileView.descriptor hview), hcount, ?_⟩
          rw [hview, FileView.transfer, ← hwrites, hsought]
          rfl

/-- A transfer of part of a write call to a file. -/
structure TransferOf (file : F) (call : WriteCall) (transfer : FileWrite F) : Prop where
  file : transfer.file = file
  position : transfer.position = call.offset
  data : transfer.data <+: call.payload.view

/-- Write calls that all succeed make one transfer each, of as many bytes as they answer. -/
theorem writeReplies_transfers {descriptor : TargetDescriptor} (os : ω)
    {adapter : PosixDirectIOAdapter ω} {calls : List WriteCall} {byteCounts : List ℕ}
    (h : CacheOpen semantics adapter.fds adapter.os)
    (hreplies : writeReplies (posixTargetAdapter system os) descriptor adapter calls =
      repliesOf byteCounts none) :
    ∃ transfers,
      (semantics.view (adapterAfter (posixTargetAdapter system os) descriptor adapter
        calls).os).writes = (semantics.view adapter.os).writes ++ transfers ∧
      List.Forall₂ (TransferOf (semantics.fileOf descriptor.resourcePath)) calls transfers ∧
      transfers.map (fun transfer => transfer.data.length) = byteCounts := by
  induction calls generalizing adapter byteCounts with
  | nil =>
    have hnone : byteCounts = [] := by
      cases byteCounts with
      | nil => rfl
      | cons count rest => cases hreplies
    exact ⟨[], by rw [List.append_nil]; rfl, List.Forall₂.nil, hnone.symm⟩
  | cons call rest ih =>
    cases byteCounts with
    | nil => cases hreplies
    | cons count counts =>
      cases hwrite : adapter.write system descriptor call.offset call.payload with
      | mk answer next =>
        have hfirst : answerWrite (posixTargetAdapter system os) descriptor adapter call =
            (answer, next) := hwrite
        rw [writeReplies, machineOutputs, hfirst, repliesOf, List.map_cons, List.cons_append,
          List.cons.injEq] at hreplies
        obtain ⟨hanswer, hrest⟩ := hreplies
        subst hanswer
        obtain ⟨hnext, hcount, hwrites⟩ := posixWrite_ok h hwrite
        obtain ⟨transfers, hlog, hall, hcounts⟩ := ih hnext hrest
        refine ⟨⟨semantics.fileOf descriptor.resourcePath, call.offset,
          call.payload.view.take count⟩ :: transfers, ?_, ?_, ?_⟩
        · have hafter : adapterAfter (posixTargetAdapter system os) descriptor adapter
              (call :: rest) = adapterAfter (posixTargetAdapter system os) descriptor next rest := by
            rw [adapterAfter, machineState, List.foldl_cons, hfirst]
            rfl
          rw [hafter, hlog, hwrites, List.append_assoc, List.singleton_append]
        · exact List.Forall₂.cons ⟨rfl, rfl, List.take_prefix _ _⟩ hall
        · rw [List.map_cons, hcounts, List.length_take, Nat.min_eq_left hcount]

end Transfers

section Runs

variable {ω : Type} {F : Type} [DecidableEq F] {system : PosixSystem ω}
  (semantics : FileSemantics F system.toOperatingSystem) (os : ω) (spec : WorkerShardSpec)
  (env : WorkerEnvironment) (targetUri : String)

/-- The transfers a worker run makes over the direct I/O adapter. -/
def runTransfers : List (FileWrite F) :=
  (semantics.view (adapterAfter (posixTargetAdapter system os) (workerDescriptor spec targetUri)
    (PosixDirectIOAdapter.init os)
      (execute (posixTargetAdapter system os) spec env targetUri).attempted).os).writes.drop
        (semantics.view os).writes.length

/-- Every byte of the blocks a result counts is transferred to a file, and the result counts
as many bytes. -/
structure BlocksWritten (spec : WorkerShardSpec) (file : F) (transfers : List (FileWrite F))
    (result : WorkerTelemetryResult) : Prop where
  written : ∀ i < result.totalOps, ∀ position, writeOffset spec i ≤ position →
    position < writeOffset spec i + spec.blockSizeBytes →
      ∃ transfer ∈ transfers, transfer.file = file ∧ transfer.position ≤ position ∧
        position < transfer.position + transfer.data.length
  totalBytes : result.totalBytes = result.totalOps * spec.blockSizeBytes

variable {spec} {globalSeed : ℤ} {nodes : List (String × ℕ)} {target : ℤ} {blockSize : ℕ}

/-- An error-free run makes as many transfers as it counts operations, in whole batches, each
at its block's offset and within the block, and counts the bytes they move. -/
theorem execute_transfers (hspec : spec ∈ clusterShards globalSeed nodes target blockSize)
    {result : WorkerTelemetryResult}
    (hresult : (execute (posixTargetAdapter system os) spec env targetUri).outcome = .ok result)
    (hclean : result.errorMessage = none) :
    result.totalOps = (env.laterBatches + 1) * 64 ∧
      List.Forall₂ (fun t transfer =>
          transfer.file = semantics.fileOf (resourcePath targetUri spec.coreId) ∧
            transfer.position = writeOffset spec t ∧ transfer.data.length ≤ spec.blockSizeBytes)
        (List.range result.totalOps) (runTransfers semantics os spec env targetUri) ∧
      result.totalBytes = ((runTransfers semantics os spec env targetUri).map
        fun transfer => transfer.data.length).sum := by
  cases hmmap : env.mmap spec.blockSizeBytes with
  | error e =>
    simp only [execute, posixTargetAdapter, hmmap] at hresult
    cases hresult
  | ok address =>
    have hboot : Bootstraps (posixTargetAdapter system os) spec env (PosixDirectIOAdapter.init os)
        (PosixDirectIOAdapter.init os) address ⟨true, false, 64, 4096⟩ :=
      ⟨rfl, rfl, hmmap, rfl⟩
    obtain ⟨byteCounts, raised, collector, houtcome, hcalls, hreplies, hops, hbytes, hbatches⟩ :=
      execute_replies _ spec env (clusterShards_seed_lt hspec) hboot targetUri
    rw [hresult] at houtcome
    obtain rfl : workerResult spec env collector (raised.map (hotLoopErrorMessage spec)) = result :=
      (Except.ok.inj houtcome).symm
    obtain rfl : raised = none := Option.map_eq_none_iff.mp hclean
    have hcache : CacheOpen semantics (PosixDirectIOAdapter.init os).fds
        (PosixDirectIOAdapter.init os).os := cacheOpen_empty
    obtain ⟨transfers, hlog, hall, hcounts⟩ := writeReplies_transfers os hcache hreplies
    have htransfers : runTransfers semantics os spec env targetUri = transfers := by
      rw [runTransfers, hlog]
      exact List.drop_left
    have hlength : collector.totalOps =
        (execute (posixTargetAdapter system os) spec env targetUri).attempted.length := by
      rw [hops, ← hcounts, List.length_map, hall.length_eq]
    rw [htransfers]
    refine ⟨hlength.trans (hbatches rfl), ?_, ?_⟩
    · rw [hcalls, shardWrites, List.forall₂_map_left_iff] at hall
      change List.Forall₂ _ (List.range collector.totalOps) transfers
      rw [hlength]
      refine List.Forall₂.imp ?_ hall
      intro t transfer htransfer
      refine ⟨htransfer.file, htransfer.position, ?_⟩
      have hle := htransfer.data.length_le
      rwa [shardWrite, blockAfter_length] at hle
    · change collector.totalBytes = _
      rw [hbytes, hcounts]

/-- An error-free run, whose `t`-th system call moves `moved t` bytes, writes all its blocks
exactly when every call moves a whole block. -/
theorem execute_blocksWritten_iff
    (hspec : spec ∈ clusterShards globalSeed nodes target blockSize)
    (result : WorkerTelemetryResult)
    (hresult : (execute (posixTargetAdapter system os) spec env targetUri).outcome = .ok result)
    (hclean : result.errorMessage = none) (moved : ℕ → ℕ)
    (hmoved : ∀ t (ht : t < (runTransfers semantics os spec env targetUri).length),
      (runTransfers semantics os spec env targetUri)[t].data.length = moved t) :
    BlocksWritten spec (semantics.fileOf (resourcePath targetUri spec.coreId))
        (runTransfers semantics os spec env targetUri) result ↔
      ∀ t < (env.laterBatches + 1) * 64, moved t = spec.blockSizeBytes := by
  obtain ⟨hops, hall, hbytes⟩ := execute_transfers semantics os env targetUri hspec hresult hclean
  have hlength : (runTransfers semantics os spec env targetUri).length = result.totalOps := by
    rw [← hall.length_eq, List.length_range]
  have hbound : ∀ count ∈ (runTransfers semantics os spec env targetUri).map
      (fun transfer => transfer.data.length), count ≤ spec.blockSizeBytes := by
    intro count hcount
    obtain ⟨transfer, hmem, rfl⟩ := List.mem_map.mp hcount
    obtain ⟨t, ht, rfl⟩ := List.getElem_of_mem hmem
    exact (hall.get (by rw [hall.length_eq]; exact ht) ht).2.2
  have hcounted : result.totalBytes = result.totalOps * spec.blockSizeBytes ↔
      ∀ t < (env.laterBatches + 1) * 64, moved t = spec.blockSizeBytes := by
    rw [hbytes, ← hlength, ← List.length_map (f := fun transfer => transfer.data.length),
      sum_eq_length_mul_iff hbound, ← hops, ← hlength]
    constructor
    · intro h t ht
      rw [← hmoved t ht]
      exact h _ (List.mem_map_of_mem (List.getElem_mem ht))
    · intro h count hcount
      obtain ⟨transfer, hmem, rfl⟩ := List.mem_map.mp hcount
      obtain ⟨t, ht, rfl⟩ := List.getElem_of_mem hmem
      rw [hmoved t ht, h t ht]
  constructor
  · intro h
    exact hcounted.mp h.totalBytes
  · intro h
    refine ⟨?_, hcounted.mpr h⟩
    intro i hi position hlow hhigh
    have ht : i < (runTransfers semantics os spec env targetUri).length := by
      rw [hlength]
      exact hi
    obtain ⟨hfile, hposition, -⟩ := hall.get (by rw [hall.length_eq]; exact ht) ht
    simp only [List.get_eq_getElem, List.getElem_range] at hfile hposition
    refine ⟨_, List.getElem_mem ht, hfile, ?_, ?_⟩
    · rw [hposition]
      exact hlow
    · rw [hposition, hmoved i ht, h i (hops ▸ hi)]
      exact hhigh

end Runs

/-- The only shard of a cluster of one core that writes single words. -/
def wordShard : WorkerShardSpec := shardSpec 0 1 0 8 "node-0" 0 0

/-- It is the one the generator returns. -/
theorem wordShard_mem : wordShard ∈ clusterShards 0 [("node-0", 1)] 0 8 := by decide

/-- Two batches of its writes onto a disk with a script of transfers. -/
def wordRun (moved : ℕ → ℕ → ℕ) : EngineRun :=
  execute (posixTargetAdapter (diskSystem moved) Disk.empty) wordShard (acceptingRun 64 1).env
    "posix:///tmp/steve"

/-- The transfers of these batches. -/
def wordTransfers (moved : ℕ → ℕ → ℕ) : List (FileWrite String) :=
  runTransfers (diskSemantics moved) Disk.empty wordShard (acceptingRun 64 1).env
    "posix:///tmp/steve"

/-- What its result reports. -/
def wordReport (moved : ℕ → ℕ → ℕ) : Option (Option String × ℕ × ℕ) :=
  (wordRun moved).outcome.toOption.map fun result =>
    (result.errorMessage, result.totalOps, result.totalBytes)

/-- A reported run has a result. -/
theorem wordRun_of_report {moved : ℕ → ℕ → ℕ} {report : Option String × ℕ × ℕ}
    (h : wordReport moved = some report) :
    ∃ result, (wordRun moved).outcome = .ok result ∧
      (result.errorMessage, result.totalOps, result.totalBytes) = report := by
  rw [wordReport] at h
  cases houtcome : (wordRun moved).outcome with
  | error e =>
    rw [houtcome] at h
    cases h
  | ok result =>
    rw [houtcome] at h
    exact ⟨result, rfl, Option.some.inj h⟩

/-- Two batches of full writes. -/
theorem execute_blocksWritten_iff_full :
    ∃ result, (wordRun fun _ length => length).outcome = .ok result ∧
      (BlocksWritten wordShard "/tmp/steve_core_0.dat" (wordTransfers fun _ length => length)
          result ↔
        ∀ t < 128, (fun _ => 8) t = wordShard.blockSizeBytes) := by
  have hreport : wordReport (fun _ length => length) = some (none, 128, 1024) := by decide +kernel
  have hlengths : (wordTransfers fun _ length => length).map
      (fun transfer => transfer.data.length) = List.replicate 128 8 := by decide +kernel
  have hmoved : ∀ t (ht : t < (wordTransfers fun _ length => length).length),
      (wordTransfers fun _ length => length)[t].data.length = 8 := by
    intro t ht
    exact (List.eq_replicate_iff.mp hlengths).2 _ (List.mem_map_of_mem (List.getElem_mem ht))
  obtain ⟨result, hresult, hvalues⟩ := wordRun_of_report hreport
  have hpath : resourcePath "posix:///tmp/steve" 0 = "/tmp/steve_core_0.dat" := by decide
  have hiff := execute_blocksWritten_iff (diskSemantics fun _ length => length) Disk.empty
    (acceptingRun 64 1).env "posix:///tmp/steve" wordShard_mem result hresult
    (congrArg Prod.fst hvalues) (fun _ => 8) hmoved
  exact ⟨result, hresult, hpath ▸ hiff⟩

/-- A run whose second write moves half of its block reports no error. -/
theorem execute_short_write_unreported :
    ∃ result, (wordRun fun t length => if t = 1 then 4 else length).outcome = .ok result ∧
      result.errorMessage = none ∧
      ¬ BlocksWritten wordShard "/tmp/steve_core_0.dat"
        (wordTransfers fun t length => if t = 1 then 4 else length) result := by
  have hreport : wordReport (fun t length => if t = 1 then 4 else length) =
      some (none, 128, 1020) := by decide +kernel
  obtain ⟨result, hresult, hvalues⟩ := wordRun_of_report hreport
  rw [Prod.mk.injEq, Prod.mk.injEq] at hvalues
  refine ⟨result, hresult, hvalues.1, ?_⟩
  intro hwritten
  have hbytes := hwritten.totalBytes
  rw [hvalues.2.1, hvalues.2.2] at hbytes
  exact absurd hbytes (by decide)

end Steve.Orchestrator
