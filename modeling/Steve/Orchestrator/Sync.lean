import Mathlib.Data.Finset.Card
import Steve.Library.Binary64
import Steve.Library.Dict
import Steve.Library.StepSystem

/-!
# The cluster barrier servicer

A call to `signal_ready` runs without interruption up to its wait on the release event.
It returns at once when the event is set; otherwise it stays suspended until the event
loop resumes it, some time after the event was set, and only then reads the start time.
A system state holds the servicer, the suspended calls, and every response so far; its
events are new signals, each with the clock reading it would make, and resumptions.

A clock reading is a binary64 number of seconds, and the start time is computed from it in
binary64 arithmetic. A clock may show anything at any signal, also less than before. A request
without a node id signals for the local node.
-/

namespace Steve.Orchestrator

open Steve.Library

/-- A readiness request; the node id attribute may be absent. -/
structure ReadyRequest where
  nodeId : Option String
  deriving DecidableEq, Repr

/-- `getattr(request, "node_id", "local_node")`. -/
def ReadyRequest.signalledNode (request : ReadyRequest) : String :=
  request.nodeId.getD "local_node"

/-- The barrier's answer to one call. -/
structure BarrierWaitResponse where
  release : Bool
  synchronizedStartUs : ℤ
  deriving DecidableEq, Repr

/-- The servicer's fields. -/
structure ClusterSyncServicer where
  expectedNodeCount : ℕ
  syncLeadTimeMs : ℤ
  readyNodes : Dict String ReadyRequest
  releaseEvent : Bool
  synchronizedStartUs : ℤ

namespace ClusterSyncServicer

/-- A servicer nobody has signalled. -/
def init (expectedNodeCount : ℕ) (syncLeadTimeMs : ℤ) : ClusterSyncServicer where
  expectedNodeCount := expectedNodeCount
  syncLeadTimeMs := syncLeadTimeMs
  readyNodes := Dict.empty
  releaseEvent := false
  synchronizedStartUs := 0

/-- `int((time.time() * 1_000_000) + (lead_ms * 1_000))`: the first product and the sum are
rounded, the second product is of integers. A clock counts 64 bits of nanoseconds, so that
nothing overflows before the lead does, at `2 ^ 1024` microseconds. -/
def futureEpochUs (syncLeadTimeMs : ℤ) (clock : Binary64) : ℤ :=
  (clock * ((1000000 : ℤ) : Binary64) + ((syncLeadTimeMs * 1000 : ℤ) : Binary64)).trunc

/-- `signal_ready` up to its wait: file the request, then release a full barrier. -/
def signalReady (servicer : ClusterSyncServicer) (request : ReadyRequest) (clock : Binary64) :
    ClusterSyncServicer :=
  let readyNodes := servicer.readyNodes.set request.signalledNode request
  -- a barrier that is already released still passes this test, and is stamped again
  if servicer.expectedNodeCount ≤ readyNodes.length then
    { servicer with
      readyNodes := readyNodes
      synchronizedStartUs := futureEpochUs servicer.syncLeadTimeMs clock
      releaseEvent := true }
  else { servicer with readyNodes := readyNodes }

@[simp] theorem signalReady_expectedNodeCount (servicer : ClusterSyncServicer)
    (request : ReadyRequest) (clock : Binary64) :
    (servicer.signalReady request clock).expectedNodeCount = servicer.expectedNodeCount := by
  simp only [signalReady]
  split <;> rfl

@[simp] theorem signalReady_syncLeadTimeMs (servicer : ClusterSyncServicer)
    (request : ReadyRequest) (clock : Binary64) :
    (servicer.signalReady request clock).syncLeadTimeMs = servicer.syncLeadTimeMs := by
  simp only [signalReady]
  split <;> rfl

/-- Every signal files its request, whether or not it fills the barrier. -/
@[simp] theorem signalReady_readyNodes (servicer : ClusterSyncServicer)
    (request : ReadyRequest) (clock : Binary64) :
    (servicer.signalReady request clock).readyNodes =
      servicer.readyNodes.set request.signalledNode request := by
  simp only [signalReady]
  split <;> rfl

/-- A signal sets the event when it finds the barrier full and never clears it. -/
theorem signalReady_releaseEvent (servicer : ClusterSyncServicer) (request : ReadyRequest)
    (clock : Binary64) :
    (servicer.signalReady request clock).releaseEvent = true ↔
      servicer.releaseEvent = true ∨
        servicer.expectedNodeCount ≤
          (servicer.readyNodes.set request.signalledNode request).length := by
  simp only [signalReady]
  split
  · rename_i hfull
    simp [hfull]
  · rename_i hshort
    simp [hshort]

/-- A signal that finds the barrier full stamps it; any other leaves the start alone. -/
theorem signalReady_synchronizedStartUs (servicer : ClusterSyncServicer)
    (request : ReadyRequest) (clock : Binary64) :
    (servicer.signalReady request clock).synchronizedStartUs =
      if servicer.expectedNodeCount ≤
          (servicer.readyNodes.set request.signalledNode request).length then
        futureEpochUs servicer.syncLeadTimeMs clock
      else servicer.synchronizedStartUs := by
  simp only [signalReady]
  split <;> rfl

/-- The response built once the wait is over. -/
def response (servicer : ClusterSyncServicer) : BarrierWaitResponse :=
  ⟨true, servicer.synchronizedStartUs⟩

end ClusterSyncServicer

/-- The servicer with its suspended calls and the responses returned so far. -/
structure BarrierSystem where
  servicer : ClusterSyncServicer
  suspended : List ℕ
  returned : List (ℕ × BarrierWaitResponse)

/-- What may happen next: a new call, or the resumption of a suspended one. -/
inductive BarrierEvent
  | signal (call : ℕ) (request : ReadyRequest) (clock : Binary64)
  | resume (call : ℕ)

/-- The system before any call. -/
def BarrierSystem.init (expectedNodeCount : ℕ) (syncLeadTimeMs : ℤ) : BarrierSystem where
  servicer := ClusterSyncServicer.init expectedNodeCount syncLeadTimeMs
  suspended := []
  returned := []

/-- One scheduling step; a caller that cannot run is refused. -/
def barrierStep (system : BarrierSystem) : BarrierEvent → Option BarrierSystem
  | .signal call request clock =>
    let servicer := system.servicer.signalReady request clock
    if servicer.releaseEvent then
      some { system with
        servicer := servicer
        returned := system.returned ++ [(call, servicer.response)] }
    else
      some { system with
        servicer := servicer
        suspended := system.suspended ++ [call] }
  | .resume call =>
    if call ∈ system.suspended ∧ system.servicer.releaseEvent = true then
      some { system with
        suspended := system.suspended.erase call
        returned := system.returned ++ [(call, system.servicer.response)] }
    else none

/-- The distinct node ids that signalled during a schedule. -/
def signalledNodes (events : List BarrierEvent) : Finset String :=
  (events.filterMap fun
    | .signal _ request _ => some request.signalledNode
    | .resume _ => none).toFinset

/-- A resumption signals for nobody. -/
@[simp] theorem signalledNodes_append_resume (past : List BarrierEvent) (call : ℕ) :
    signalledNodes (past ++ [.resume call]) = signalledNodes past := by
  simp [signalledNodes]

/-- A signal adds its node to those that signalled. -/
@[simp] theorem signalledNodes_append_signal (past : List BarrierEvent) (call : ℕ)
    (request : ReadyRequest) (clock : Binary64) :
    signalledNodes (past ++ [.signal call request clock]) =
      insert request.signalledNode (signalledNodes past) := by
  simp [signalledNodes, List.filterMap_append, List.toFinset_append, Finset.union_comm]

/-- Everything one accepted step can do: a signal files its node and either finds the
barrier full, stamps it and returns, or finds it short and is suspended unless an earlier
call released it; a resumption returns the current start. -/
theorem barrierStep_cases {system next : BarrierSystem} {event : BarrierEvent}
    (h : barrierStep system event = some next) :
    (∃ call request clock, event = .signal call request clock ∧
      next.servicer = system.servicer.signalReady request clock ∧
      ((next.servicer.releaseEvent = true ∧ next.suspended = system.suspended ∧
          next.returned = system.returned ++ [(call, next.servicer.response)]) ∨
        (next.servicer.releaseEvent = false ∧ next.suspended = system.suspended ++ [call] ∧
          next.returned = system.returned))) ∨
    (∃ call, event = .resume call ∧ call ∈ system.suspended ∧
      system.servicer.releaseEvent = true ∧ next.servicer = system.servicer ∧
      next.suspended = system.suspended.erase call ∧
      next.returned = system.returned ++ [(call, system.servicer.response)]) := by
  cases event with
  | signal call request clock =>
    simp only [barrierStep] at h
    split at h
    · rename_i hevent
      cases h
      exact Or.inl ⟨call, request, clock, rfl, rfl, Or.inl ⟨hevent, rfl, rfl⟩⟩
    · rename_i hevent
      cases h
      exact Or.inl ⟨call, request, clock, rfl, rfl,
        Or.inr ⟨by simpa using hevent, rfl, rfl⟩⟩
  | resume call =>
    simp only [barrierStep] at h
    split at h
    · rename_i hguard
      cases h
      exact Or.inr ⟨call, rfl, hguard.1, hguard.2, rfl, rfl, rfl⟩
    · cases h

end Steve.Orchestrator
