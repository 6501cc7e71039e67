import Mathlib.Data.List.Range
import Mathlib.Data.List.Perm.Subperm
import Steve.Emulator.Cluster
import Steve.Orchestrator.SyncAgreement

/-!
# The emulator's handshake

The emulator gathers one signal of every node and goes on when all of them have returned.
The event loop may take the gathered calls in any order. Since the nodes have distinct names
and each signals once, exactly the last signal finds the barrier full: it releases the
others, stamps the only start time, and whatever the loop runs next, all calls return.
-/

namespace Steve.Emulator

open Steve.Library
open Steve.Orchestrator

/-- The call of a signal. -/
def signalCall : BarrierEvent → Option ℕ
  | .signal call _ _ => some call
  | .resume _ => none

/-- The calls that signalled during a schedule. -/
def signalCalls (events : List BarrierEvent) : List ℕ := events.filterMap signalCall

/-- The resumptions of a schedule. -/
def resumeCount (events : List BarrierEvent) : ℕ :=
  events.countP fun event => (signalCall event).isNone

/-- A schedule of the gathered calls: call `i` signals for node `i`, at most once. -/
structure Gathered (nodeCount : ℕ) (events : List BarrierEvent) : Prop where
  own : ∀ call request clock, BarrierEvent.signal call request clock ∈ events →
    call < nodeCount ∧ request = ⟨some (nodeName call)⟩
  once : (signalCalls events).Nodup

section Schedules

/-- Every event is a signal or a resumption. -/
theorem length_eq_signals_add_resumes (events : List BarrierEvent) :
    events.length = (signalCalls events).length + resumeCount events := by
  induction events with
  | nil => rfl
  | cons event rest ih =>
    cases event with
    | signal call request clock =>
      have hcalls : signalCalls (.signal call request clock :: rest) =
          call :: signalCalls rest := rfl
      have hresumes : resumeCount (.signal call request clock :: rest) = resumeCount rest := by
        simp [resumeCount, signalCall]
      rw [List.length_cons, hcalls, hresumes, List.length_cons, ih]
      omega
    | resume call =>
      have hcalls : signalCalls (.resume call :: rest) = signalCalls rest := rfl
      have hresumes : resumeCount (.resume call :: rest) = resumeCount rest + 1 := by
        simp [resumeCount, signalCall]
      rw [List.length_cons, hcalls, hresumes, ih]
      omega

/-- A schedule without signalling calls has no clock readings either. -/
theorem signalClocks_eq_nil {events : List BarrierEvent} (h : signalCalls events = []) :
    events.filterMap signalClock = [] := by
  rw [signalCalls, List.filterMap_eq_nil_iff] at h
  rw [List.filterMap_eq_nil_iff]
  intro event hevent
  have hnone := h event hevent
  cases event with
  | signal call request clock => cases hnone
  | resume call => rfl

/-- A later signal comes after the earlier ones. -/
theorem signalCalls_append (first second : List BarrierEvent) :
    signalCalls (first ++ second) = signalCalls first ++ signalCalls second :=
  List.filterMap_append

variable {nodeCount : ℕ} {events : List BarrierEvent}

/-- The part of a gathered schedule before some event is gathered. -/
theorem Gathered.of_append {first second : List BarrierEvent}
    (h : Gathered nodeCount (first ++ second)) : Gathered nodeCount first where
  own := by
    intro call request clock hmem
    exact h.own call request clock (List.mem_append_left second hmem)
  once := by
    have honce := h.once
    rw [signalCalls_append] at honce
    exact honce.of_append_left

/-- Only calls of the gathered nodes signal. -/
theorem Gathered.signalCalls_subset (h : Gathered nodeCount events) :
    signalCalls events ⊆ List.range nodeCount := by
  intro call hcall
  obtain ⟨event, hevent, hsome⟩ := List.mem_filterMap.mp hcall
  cases event with
  | signal own request clock =>
    cases hsome
    exact List.mem_range.mpr (h.own _ request clock hevent).1
  | resume other => cases hsome

/-- At most as many calls signal as there are nodes. -/
theorem Gathered.length_le (h : Gathered nodeCount events) :
    (signalCalls events).length ≤ nodeCount := by
  have hle := (h.once.subperm h.signalCalls_subset).length_le
  rwa [List.length_range] at hle

/-- The nodes that signalled are those of the calls. -/
theorem Gathered.signalledNodes_eq (h : Gathered nodeCount events) :
    signalledNodes events = ((signalCalls events).map nodeName).toFinset := by
  have hnodes : (events.filterMap fun
      | .signal _ request _ => some request.signalledNode
      | .resume _ => none) = (signalCalls events).map nodeName := by
    rw [signalCalls, List.map_filterMap]
    apply List.filterMap_congr
    intro event hevent
    cases event with
    | signal call request clock =>
      rw [(h.own call request clock hevent).2]
      rfl
    | resume call => rfl
  exact congrArg List.toFinset hnodes

/-- Every signal is one of another node. -/
theorem Gathered.card_signalledNodes (h : Gathered nodeCount events) :
    (signalledNodes events).card = (signalCalls events).length := by
  rw [h.signalledNodes_eq, List.toFinset_card_of_nodup (h.once.map nodeName_injective),
    List.length_map]

/-- A signal that finds the barrier full is the last one. -/
theorem Gathered.fullSignal_last (h : Gathered nodeCount events) {clock : Binary64}
    (hfull : FullSignal nodeCount events clock) :
    (events.filterMap signalClock).getLast? = some clock := by
  obtain ⟨past, call, request, rest, rfl, hcard⟩ := hfull
  have hsplit : past ++ .signal call request clock :: rest =
      (past ++ [.signal call request clock]) ++ rest := by
    rw [List.append_assoc, List.singleton_append]
  rw [hsplit] at h ⊢
  have hearlier := h.of_append.card_signalledNodes
  rw [signalledNodes_append_signal] at hearlier
  have hlength := h.length_le
  rw [signalCalls_append, List.length_append, ← hearlier] at hlength
  have hnone : signalCalls rest = [] := List.length_eq_zero_iff.mp (by omega)
  rw [List.filterMap_append, signalClocks_eq_nil hnone, List.append_nil, List.filterMap_append]
  exact List.getLast?_concat

end Schedules

section Handshake

/-- What ties the calls of a reachable system to its schedule. -/
structure HandshakeInv (nodeCount : ℕ) (lead : ℤ) (past : List BarrierEvent)
    (system : BarrierSystem) : Prop where
  stamps : StampInv nodeCount lead past system
  /-- every call that signalled is suspended or has returned -/
  calls : (system.suspended ++ system.returned.map Prod.fst).Perm (signalCalls past)
  /-- the call that released the others returned without being resumed -/
  resumed : resumeCount past +
    (if system.servicer.releaseEvent = true then 1 else 0) ≤ system.returned.length

/-- Nothing has signalled at the start. -/
theorem handshakeInv_init {nodeCount : ℕ} (lead : ℤ) (hnodes : 1 ≤ nodeCount) :
    HandshakeInv nodeCount lead [] (BarrierSystem.init nodeCount lead) where
  stamps := stampInv_init lead hnodes
  calls := List.Perm.nil
  resumed := Nat.le_refl 0

/-- A signal adds no resumption. -/
theorem resumeCount_append_signal (past : List BarrierEvent) (call : ℕ)
    (request : ReadyRequest) (clock : Binary64) :
    resumeCount (past ++ [.signal call request clock]) = resumeCount past := by
  simp [resumeCount, signalCall]

/-- A resumption is counted. -/
theorem resumeCount_append_resume (past : List BarrierEvent) (call : ℕ) :
    resumeCount (past ++ [.resume call]) = resumeCount past + 1 := by
  simp [resumeCount, signalCall]

/-- Every accepted step keeps the calls accounted for. -/
theorem handshakeInv_step {nodeCount : ℕ} {lead : ℤ} {past : List BarrierEvent}
    {system next : BarrierSystem} {event : BarrierEvent}
    (h : HandshakeInv nodeCount lead past system)
    (hstep : barrierStep system event = some next) :
    HandshakeInv nodeCount lead (past ++ [event]) next := by
  have hstamps := stampInv_step h.stamps hstep
  have hresumed := h.resumed
  obtain ⟨call, request, clock, rfl, -, hrest⟩ |
    ⟨call, rfl, hcall, hevent, hservicer, hsuspended, hreturned⟩ := barrierStep_cases hstep
  · have hcalls : signalCalls (past ++ [.signal call request clock]) =
        signalCalls past ++ [call] := signalCalls_append past _
    obtain ⟨hset, hsuspended, hreturned⟩ | ⟨hunset, hsuspended, hreturned⟩ := hrest
    · -- a call that finds the barrier full returns at once
      refine ⟨hstamps, ?_, ?_⟩
      · rw [hcalls, hsuspended, hreturned, List.map_append, ← List.append_assoc]
        exact h.calls.append_right [call]
      · rw [resumeCount_append_signal, hreturned, if_pos hset, List.length_append]
        exact Nat.add_le_add_right (Nat.le_trans (Nat.le_add_right _ _) hresumed) 1
    · refine ⟨hstamps, ?_, ?_⟩
      · rw [hcalls, hsuspended, hreturned, List.append_assoc]
        have hmoved : ([call] ++ system.returned.map Prod.fst).Perm
            (system.returned.map Prod.fst ++ [call]) := List.perm_append_comm
        refine (hmoved.append_left system.suspended).trans ?_
        rw [← List.append_assoc]
        exact h.calls.append_right [call]
      · rw [resumeCount_append_signal, hreturned, if_neg (by rw [hunset]; exact Bool.false_ne_true)]
        exact Nat.le_trans (Nat.le_add_right _ _) hresumed
  · have hcalls : signalCalls (past ++ [.resume call]) = signalCalls past := by
      rw [signalCalls_append]
      exact List.append_nil _
    refine ⟨hstamps, ?_, ?_⟩
    · rw [hcalls, hsuspended, hreturned, List.map_append, List.map_singleton]
      refine List.Perm.trans ?_ h.calls
      refine List.Perm.trans ?_ ((List.perm_cons_erase hcall).symm.append_right _)
      rw [← List.append_assoc]
      exact List.perm_append_comm
    · rw [hevent, if_pos rfl] at hresumed
      rw [resumeCount_append_resume, hreturned, hservicer, hevent, if_pos rfl,
        List.length_append, List.length_singleton]
      exact Nat.add_le_add_right hresumed 1

/-- The invariant holds in every reachable state. -/
theorem handshakeInv_of_run {nodeCount : ℕ} (lead : ℤ) (hnodes : 1 ≤ nodeCount)
    (events : List BarrierEvent) (final : BarrierSystem)
    (hrun : runSchedule barrierStep (BarrierSystem.init nodeCount lead) events = some final) :
    HandshakeInv nodeCount lead events final :=
  runSchedule_invariant (HandshakeInv nodeCount lead) (handshakeInv_init lead hnodes)
    (fun _ _ _ _ h hstep => handshakeInv_step h hstep) events final hrun

/-- A call that has returned was released. -/
theorem HandshakeInv.released_of_returned {nodeCount : ℕ} {lead : ℤ} {past : List BarrierEvent}
    {system : BarrierSystem} (h : HandshakeInv nodeCount lead past system)
    (hreturned : system.returned ≠ []) : nodeCount ≤ (signalledNodes past).card :=
  h.stamps.safety.released.mp (h.stamps.safety.returned hreturned)

/-- What holds after any steps of the handshake of a cluster. -/
structure HandshakeCompletes (nodeCount : ℕ) (events : List BarrierEvent)
    (final : BarrierSystem) : Prop where
  /-- no call returns before every node has signalled -/
  waits : final.returned ≠ [] → ∀ i < nodeCount, nodeName i ∈ signalledNodes events
  /-- until all calls have returned, one of them can run, whatever the clock shows then -/
  progress : final.returned.length < nodeCount → ∀ clock, ∃ event next,
    (∀ reading, signalClock event = some reading → reading = clock) ∧
      barrierStep final event = some next ∧ Gathered nodeCount (events ++ [event])
  /-- and the calls run out of steps -/
  bounded : events.length < 2 * nodeCount
  agree : StartsAgree final

/-- A node that has not signalled can. -/
theorem Gathered.signal_enabled {nodeCount : ℕ} {events : List BarrierEvent}
    (hgathered : Gathered nodeCount events) (final : BarrierSystem) (clock : Binary64)
    (hshort : (signalCalls events).length < nodeCount) :
    ∃ event next, (∀ reading, signalClock event = some reading → reading = clock) ∧
      barrierStep final event = some next ∧ Gathered nodeCount (events ++ [event]) := by
  obtain ⟨i, hi, hnew⟩ : ∃ i < nodeCount, i ∉ signalCalls events := by
    by_contra hnone
    have hall : List.range nodeCount ⊆ signalCalls events := by
      intro i hi
      by_contra hnew
      exact hnone ⟨i, List.mem_range.mp hi, hnew⟩
    have hle := (List.nodup_range.subperm hall).length_le
    rw [List.length_range] at hle
    omega
  have henabled : ∃ next,
      barrierStep final (.signal i ⟨some (nodeName i)⟩ clock) = some next := by
    simp only [barrierStep]
    split
    · exact ⟨_, rfl⟩
    · exact ⟨_, rfl⟩
  obtain ⟨next, hnext⟩ := henabled
  refine ⟨_, next, ?_, hnext, ?_, ?_⟩
  · intro reading hreading
    exact (Option.some.inj hreading).symm
  · intro call request shown hmem
    rw [List.mem_append, List.mem_singleton] at hmem
    cases hmem with
    | inl hold => exact hgathered.own call request shown hold
    | inr hlast =>
      cases hlast
      exact ⟨hi, rfl⟩
  · rw [signalCalls_append]
    exact hgathered.once.append (List.nodup_singleton i)
      (List.disjoint_singleton.mpr hnew)

/-- However the event loop takes the gathered calls, the handshake completes. -/
theorem handshake_completes (nodeCount : ℕ) (lead : ℤ) (hnodes : 1 ≤ nodeCount)
    (events : List BarrierEvent) (hgathered : Gathered nodeCount events)
    (final : BarrierSystem)
    (hrun : runSchedule barrierStep (BarrierSystem.init nodeCount lead) events = some final) :
    HandshakeCompletes nodeCount events final := by
  have h := handshakeInv_of_run lead hnodes events final hrun
  have hcard := hgathered.card_signalledNodes
  have hlength := hgathered.length_le
  have hcalls : final.suspended.length + final.returned.length =
      (signalCalls events).length := by
    rw [← h.calls.length_eq, List.length_append, List.length_map]
  refine ⟨?_, ?_, ?_, ?_⟩
  · intro hreturned i hi
    have hfull := h.released_of_returned hreturned
    have hall : List.range nodeCount ⊆ signalCalls events := by
      apply (hgathered.once.subperm hgathered.signalCalls_subset).perm_of_length_le _ |>.symm.subset
      rw [List.length_range]
      omega
    rw [hgathered.signalledNodes_eq, List.mem_toFinset]
    exact List.mem_map_of_mem (hall (List.mem_range.mpr hi))
  · intro hreturned clock
    by_cases hshort : (signalCalls events).length < nodeCount
    · exact hgathered.signal_enabled final clock hshort
    · have hevent : final.servicer.releaseEvent = true := by
        apply h.stamps.safety.released.mpr
        omega
      obtain ⟨call, hcall⟩ := List.exists_mem_of_length_pos (l := final.suspended) (by omega)
      refine ⟨.resume call, _, ?_, by rw [barrierStep, if_pos ⟨hcall, hevent⟩], ?_, ?_⟩
      · intro reading hreading
        cases hreading
      · intro other request shown hmem
        rw [List.mem_append, List.mem_singleton] at hmem
        cases hmem with
        | inl hold => exact hgathered.own other request shown hold
        | inr hlast => cases hlast
      · rw [signalCalls_append]
        exact (List.append_nil (signalCalls events)).symm ▸ hgathered.once
  · have hresumed := h.resumed
    rw [length_eq_signals_add_resumes]
    by_cases hreturned : final.returned = []
    · rw [hreturned, List.length_nil] at hresumed
      omega
    · rw [if_pos (h.stamps.safety.returned hreturned)] at hresumed
      omega
  · intro left hleft right hright
    obtain ⟨first, hfirst, hfirstEq⟩ := h.stamps.stamped left hleft
    obtain ⟨second, hsecond, hsecondEq⟩ := h.stamps.stamped right hright
    have hlast := hgathered.fullSignal_last hfirst
    rw [hgathered.fullSignal_last hsecond, Option.some.injEq] at hlast
    rw [hfirstEq, hsecondEq, hlast]

/-- Two nodes, the second of which signals first and is released by the other. -/
def twoNodeHandshake : List BarrierEvent :=
  [.signal 1 ⟨some (nodeName 1)⟩ (0 : ℤ), .signal 0 ⟨some (nodeName 0)⟩ (1 : ℤ), .resume 1]

/-- Each of them signals once. -/
theorem twoNodeHandshake_gathered : Gathered 2 twoNodeHandshake where
  own := by
    intro call request clock hmem
    simp only [twoNodeHandshake, List.mem_cons, BarrierEvent.signal.injEq, reduceCtorEq,
      List.not_mem_nil, or_false] at hmem
    obtain ⟨rfl, rfl, -⟩ | ⟨rfl, rfl, -⟩ := hmem
    · exact ⟨by decide, rfl⟩
    · exact ⟨by decide, rfl⟩
  once := by decide

/-- Their handshake completes. -/
theorem handshake_completes_two_nodes :
    ∃ final, runSchedule barrierStep (BarrierSystem.init 2 500) twoNodeHandshake = some final ∧
      HandshakeCompletes 2 twoNodeHandshake final :=
  ⟨_, rfl, handshake_completes 2 500 (by decide) _ twoNodeHandshake_gathered _ rfl⟩

end Handshake

end Steve.Emulator
