import Steve.Orchestrator.Sync

/-!
# Barrier safety

The ready map holds exactly the distinct nodes that have signalled, because a repeated
signal overwrites its own entry. The event is therefore set precisely once enough distinct
nodes have signalled, in every state that any interleaving can reach.
-/

namespace Steve.Orchestrator

open Steve.Library

/-- What ties a reachable system to the schedule that produced it. -/
structure BarrierInv (expected : ℕ) (past : List BarrierEvent) (system : BarrierSystem) :
    Prop where
  expectedCount : system.servicer.expectedNodeCount = expected
  ready : system.servicer.readyNodes.keys.toFinset = signalledNodes past
  released : system.servicer.releaseEvent = true ↔ expected ≤ (signalledNodes past).card
  returned : system.returned ≠ [] → system.servicer.releaseEvent = true

/-- Filing one more request keeps the ready map equal to the nodes that signalled. -/
theorem BarrierInv.ready_set {expected : ℕ} {past : List BarrierEvent} {system : BarrierSystem}
    (h : BarrierInv expected past system) (request : ReadyRequest) :
    (system.servicer.readyNodes.set request.signalledNode request).keys.toFinset =
      insert request.signalledNode (signalledNodes past) := by
  ext node
  rw [List.mem_toFinset, Dict.mem_keys_set, Finset.mem_insert, ← h.ready, List.mem_toFinset]

/-- The size of the ready map after one more signal. -/
theorem BarrierInv.length_set {expected : ℕ} {past : List BarrierEvent} {system : BarrierSystem}
    (h : BarrierInv expected past system) (request : ReadyRequest) :
    (system.servicer.readyNodes.set request.signalledNode request).length =
      (insert request.signalledNode (signalledNodes past)).card := by
  rw [← h.ready_set request, Dict.length_eq_keys_length,
    List.toFinset_card_of_nodup (Dict.keys_nodup _)]

/-- Nobody has signalled at the start, and a barrier expecting a node is not released. -/
theorem barrierInv_init {expected : ℕ} (lead : ℤ) (hexpected : 1 ≤ expected) :
    BarrierInv expected [] (BarrierSystem.init expected lead) where
  expectedCount := rfl
  ready := rfl
  released := by
    change false = true ↔ expected ≤ 0
    simp only [Bool.false_eq_true, false_iff]
    omega
  returned := by simp [BarrierSystem.init]

/-- Every accepted step keeps the invariant. -/
theorem barrierInv_step {expected : ℕ} {past : List BarrierEvent} {system next : BarrierSystem}
    {event : BarrierEvent} (h : BarrierInv expected past system)
    (hstep : barrierStep system event = some next) :
    BarrierInv expected (past ++ [event]) next := by
  obtain ⟨call, request, clock, rfl, hservicer, hrest⟩ |
    ⟨call, rfl, -, hevent, hservicer, -, -⟩ := barrierStep_cases hstep
  · have hreleased : next.servicer.releaseEvent = true ↔
        expected ≤ (signalledNodes (past ++ [.signal call request clock])).card := by
      have hgrow : (signalledNodes past).card ≤
          (insert request.signalledNode (signalledNodes past)).card :=
        Finset.card_le_card (Finset.subset_insert _ _)
      rw [hservicer, ClusterSyncServicer.signalReady_releaseEvent, h.released, h.expectedCount,
        h.length_set, signalledNodes_append_signal]
      omega
    refine ⟨by simp [hservicer, h.expectedCount], ?_, hreleased, ?_⟩
    · rw [hservicer, ClusterSyncServicer.signalReady_readyNodes, h.ready_set,
        signalledNodes_append_signal]
    · intro hreturned
      obtain ⟨hset, -, -⟩ | ⟨hunset, -, hsame⟩ := hrest
      · exact hset
      · -- an unset event now was unset before, so nobody had returned
        rw [hsame] at hreturned
        have hbefore := h.returned hreturned
        rw [hservicer] at hunset ⊢
        exact (ClusterSyncServicer.signalReady_releaseEvent _ _ _).mpr (Or.inl hbefore)
  · refine ⟨by rw [hservicer, h.expectedCount], ?_, ?_, ?_⟩
    · rw [hservicer, h.ready, signalledNodes_append_resume]
    · rw [hservicer, h.released, signalledNodes_append_resume]
    · intro _
      rw [hservicer]
      exact hevent

/-- The invariant holds in every reachable state. -/
theorem barrierInv_of_run {expected : ℕ} (lead : ℤ) (hexpected : 1 ≤ expected)
    (events : List BarrierEvent) (final : BarrierSystem)
    (hrun : runSchedule barrierStep (BarrierSystem.init expected lead) events = some final) :
    BarrierInv expected events final :=
  runSchedule_invariant (BarrierInv expected) (barrierInv_init lead hexpected)
    (fun _ _ _ _ h hstep => barrierInv_step h hstep) events final hrun

/-- In every reachable state the event is set exactly when enough distinct nodes have
signalled; hence no call has returned earlier, and afterwards every suspended call can be
resumed. -/
theorem barrier_released_iff (expected : ℕ) (lead : ℤ) (hexpected : 1 ≤ expected)
    (events : List BarrierEvent) (final : BarrierSystem)
    (hrun : runSchedule barrierStep (BarrierSystem.init expected lead) events = some final) :
    (final.servicer.releaseEvent = true ↔ expected ≤ (signalledNodes events).card) ∧
      (final.returned ≠ [] → expected ≤ (signalledNodes events).card) ∧
      (expected ≤ (signalledNodes events).card → ∀ call ∈ final.suspended,
        ∃ next, barrierStep final (.resume call) = some next) := by
  have h := barrierInv_of_run lead hexpected events final hrun
  refine ⟨h.released, fun hreturned => h.released.mp (h.returned hreturned), ?_⟩
  intro hfull call hcall
  have hevent := h.released.mpr hfull
  exact ⟨_, by rw [barrierStep, if_pos ⟨hcall, hevent⟩]⟩

/-- Two nodes, the first of which retries before the second releases the barrier. -/
def retriedSchedule : List BarrierEvent :=
  [.signal 0 ⟨some "node-1"⟩ (0 : ℤ), .signal 1 ⟨some "node-1"⟩ (1 : ℤ),
    .signal 2 ⟨some "node-2"⟩ (2 : ℤ), .resume 0]

/-- The retried schedule runs, and the barrier is as safe there as everywhere. -/
theorem barrier_released_iff_retried :
    ∃ final, runSchedule barrierStep (BarrierSystem.init 2 500) retriedSchedule = some final ∧
      (final.servicer.releaseEvent = true ↔ 2 ≤ (signalledNodes retriedSchedule).card) ∧
      (final.returned ≠ [] → 2 ≤ (signalledNodes retriedSchedule).card) ∧
      (2 ≤ (signalledNodes retriedSchedule).card → ∀ call ∈ final.suspended,
        ∃ next, barrierStep final (.resume call) = some next) :=
  ⟨_, rfl, barrier_released_iff 2 500 (by decide) retriedSchedule _ rfl⟩

end Steve.Orchestrator
