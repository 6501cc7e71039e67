import Steve.Orchestrator.SyncSafety

/-!
# When the barrier's responses agree

Every signal that finds the barrier full stamps a new start time, also after release: a
retry, or a node beyond the expected count. Such a signal returns at once with its own
stamp, and a resumed caller returns the latest one. The returned start times are therefore
exactly the stamps of the full signals, and they agree exactly when the clock readings of
those signals have one and the same rounded stamp. No order of the readings is needed for
this: it holds for a clock that runs backwards as well.
-/

namespace Steve.Orchestrator

open Steve.Library

/-- All responses returned so far carry the same start time. -/
def StartsAgree (system : BarrierSystem) : Prop :=
  ∀ left ∈ system.returned, ∀ right ∈ system.returned,
    left.2.synchronizedStartUs = right.2.synchronizedStartUs

/-- The clock reading of a signal. -/
def signalClock : BarrierEvent → Option Binary64
  | .signal _ _ clock => some clock
  | .resume _ => none

/-- The clock is read by a signal at which enough distinct nodes, its own included, have
signalled. -/
def FullSignal (expected : ℕ) (events : List BarrierEvent) (clock : Binary64) : Prop :=
  ∃ past call request rest, events = past ++ .signal call request clock :: rest ∧
    expected ≤ (insert request.signalledNode (signalledNodes past)).card

/-- All signals that find the barrier full read clock values with one rounded stamp. -/
def StampsAgree (expected : ℕ) (lead : ℤ) (events : List BarrierEvent) : Prop :=
  ∀ left right, FullSignal expected events left → FullSignal expected events right →
    ClusterSyncServicer.futureEpochUs lead left = ClusterSyncServicer.futureEpochUs lead right

/-- A resumption adds no full signal. -/
theorem fullSignal_append_resume (expected : ℕ) (past : List BarrierEvent) (call : ℕ)
    (clock : Binary64) :
    FullSignal expected (past ++ [.resume call]) clock ↔ FullSignal expected past clock := by
  constructor
  · rintro ⟨before, signaller, request, rest, hevents, hfull⟩
    cases rest using List.reverseRecOn with
    | nil =>
      have hlast := (List.append_inj' hevents rfl).2
      cases hlast
    | append_singleton rest event =>
      rw [← List.cons_append, ← List.append_assoc] at hevents
      exact ⟨before, signaller, request, rest, (List.append_inj' hevents rfl).1, hfull⟩
  · rintro ⟨before, signaller, request, rest, rfl, hfull⟩
    exact ⟨before, signaller, request, rest ++ [.resume call], by simp, hfull⟩

/-- A signal adds its own clock reading to the full signals when it finds the barrier full. -/
theorem fullSignal_append_signal (expected : ℕ) (past : List BarrierEvent) (call : ℕ)
    (request : ReadyRequest) (now clock : Binary64) :
    FullSignal expected (past ++ [.signal call request now]) clock ↔
      FullSignal expected past clock ∨
        (clock = now ∧ expected ≤ (insert request.signalledNode (signalledNodes past)).card) := by
  constructor
  · rintro ⟨before, signaller, other, rest, hevents, hfull⟩
    cases rest using List.reverseRecOn with
    | nil =>
      obtain ⟨hpast, hlast⟩ := List.append_inj' hevents rfl
      cases hlast
      subst hpast
      exact Or.inr ⟨rfl, hfull⟩
    | append_singleton rest event =>
      rw [← List.cons_append, ← List.append_assoc] at hevents
      exact Or.inl ⟨before, signaller, other, rest, (List.append_inj' hevents rfl).1, hfull⟩
  · rintro (⟨before, signaller, other, rest, rfl, hfull⟩ | ⟨rfl, hfull⟩)
    · exact ⟨before, signaller, other, rest ++ [.signal call request now], by simp, hfull⟩
    · exact ⟨past, call, request, [], rfl, hfull⟩

/-- The returned start times are exactly the stamps of the full signals. -/
structure StampInv (expected : ℕ) (lead : ℤ) (past : List BarrierEvent)
    (system : BarrierSystem) : Prop where
  safety : BarrierInv expected past system
  leadTime : system.servicer.syncLeadTimeMs = lead
  current : system.servicer.releaseEvent = true → ∃ clock, FullSignal expected past clock ∧
    system.servicer.synchronizedStartUs = ClusterSyncServicer.futureEpochUs lead clock
  stamped : ∀ entry ∈ system.returned, ∃ clock, FullSignal expected past clock ∧
    entry.2.synchronizedStartUs = ClusterSyncServicer.futureEpochUs lead clock
  answered : ∀ clock, FullSignal expected past clock → ∃ entry ∈ system.returned,
    entry.2.synchronizedStartUs = ClusterSyncServicer.futureEpochUs lead clock

/-- A new system has no full signals and no responses. -/
theorem stampInv_init {expected : ℕ} (lead : ℤ) (hexpected : 1 ≤ expected) :
    StampInv expected lead [] (BarrierSystem.init expected lead) where
  safety := barrierInv_init lead hexpected
  leadTime := rfl
  current := by simp [BarrierSystem.init, ClusterSyncServicer.init]
  stamped := by simp [BarrierSystem.init]
  answered := by
    rintro clock ⟨past, call, request, rest, hevents, -⟩
    simp at hevents

/-- A resumption returns the current stamp. -/
theorem stampInv_resume {expected : ℕ} {lead : ℤ} {past : List BarrierEvent}
    {system next : BarrierSystem} {call : ℕ} (h : StampInv expected lead past system)
    (hsafety : BarrierInv expected (past ++ [.resume call]) next)
    (hevent : system.servicer.releaseEvent = true) (hservicer : next.servicer = system.servicer)
    (hreturned : next.returned = system.returned ++ [(call, system.servicer.response)]) :
    StampInv expected lead (past ++ [.resume call]) next := by
  have hstamp := h.current hevent
  refine ⟨hsafety, by rw [hservicer, h.leadTime], ?_, ?_, ?_⟩
  · simp only [fullSignal_append_resume, hservicer]
    exact h.current
  · intro entry hentry
    simp only [fullSignal_append_resume]
    rw [hreturned, List.mem_append, List.mem_singleton] at hentry
    obtain hentry | rfl := hentry
    · exact h.stamped entry hentry
    · exact hstamp
  · intro clock hclock
    rw [fullSignal_append_resume] at hclock
    obtain ⟨entry, hentry, heq⟩ := h.answered clock hclock
    exact ⟨entry, by simp [hreturned, hentry], heq⟩

/-- A signal at a full barrier returns its own stamp. -/
theorem stampInv_signal_full {expected : ℕ} {lead : ℤ} {past : List BarrierEvent}
    {system next : BarrierSystem} {call : ℕ} {request : ReadyRequest} {clock : Binary64}
    (h : StampInv expected lead past system)
    (hsafety : BarrierInv expected (past ++ [.signal call request clock]) next)
    (hfull : expected ≤ (insert request.signalledNode (signalledNodes past)).card)
    (hservicer : next.servicer = system.servicer.signalReady request clock)
    (hreturned : next.returned = system.returned ++ [(call, next.servicer.response)]) :
    StampInv expected lead (past ++ [.signal call request clock]) next := by
  have hstart : next.servicer.synchronizedStartUs =
      ClusterSyncServicer.futureEpochUs lead clock := by
    rw [hservicer, ClusterSyncServicer.signalReady_synchronizedStartUs, h.safety.expectedCount,
      h.safety.length_set, if_pos hfull, h.leadTime]
  have hnew : FullSignal expected (past ++ [.signal call request clock]) clock :=
    (fullSignal_append_signal ..).mpr (Or.inr ⟨rfl, hfull⟩)
  refine ⟨hsafety, by simp [hservicer, h.leadTime], fun _ => ⟨clock, hnew, hstart⟩, ?_, ?_⟩
  · intro entry hentry
    rw [hreturned, List.mem_append, List.mem_singleton] at hentry
    obtain hentry | rfl := hentry
    · obtain ⟨earlier, hearlier, heq⟩ := h.stamped entry hentry
      exact ⟨earlier, (fullSignal_append_signal ..).mpr (Or.inl hearlier), heq⟩
    · exact ⟨clock, hnew, hstart⟩
  · intro other hother
    rw [fullSignal_append_signal] at hother
    obtain hother | ⟨rfl, -⟩ := hother
    · obtain ⟨entry, hentry, heq⟩ := h.answered other hother
      exact ⟨entry, by simp [hreturned, hentry], heq⟩
    · exact ⟨(call, next.servicer.response), by simp [hreturned], hstart⟩

/-- A signal at a barrier that is still short changes no stamp. -/
theorem stampInv_signal_short {expected : ℕ} {lead : ℤ} {past : List BarrierEvent}
    {system next : BarrierSystem} {call : ℕ} {request : ReadyRequest} {clock : Binary64}
    (h : StampInv expected lead past system)
    (hsafety : BarrierInv expected (past ++ [.signal call request clock]) next)
    (hshort : ¬ expected ≤ (insert request.signalledNode (signalledNodes past)).card)
    (hservicer : next.servicer = system.servicer.signalReady request clock)
    (hunset : next.servicer.releaseEvent = false)
    (hreturned : next.returned = system.returned) :
    StampInv expected lead (past ++ [.signal call request clock]) next := by
  have hsame (other : Binary64) : FullSignal expected (past ++ [.signal call request clock]) other ↔
      FullSignal expected past other := by
    rw [fullSignal_append_signal]
    simp [hshort]
  refine ⟨hsafety, by simp [hservicer, h.leadTime], ?_, ?_, ?_⟩
  · intro hset
    rw [hunset] at hset
    cases hset
  · simpa only [hsame, hreturned] using h.stamped
  · simpa only [hsame, hreturned] using h.answered

/-- Every accepted step keeps the stamps and the responses matched. -/
theorem stampInv_step {expected : ℕ} {lead : ℤ} {past : List BarrierEvent}
    {system next : BarrierSystem} {event : BarrierEvent} (h : StampInv expected lead past system)
    (hstep : barrierStep system event = some next) :
    StampInv expected lead (past ++ [event]) next := by
  have hsafety := barrierInv_step h.safety hstep
  obtain ⟨call, request, clock, rfl, hservicer, hrest⟩ |
    ⟨call, rfl, -, hevent, hservicer, -, hreturned⟩ := barrierStep_cases hstep
  · have hreleased := hsafety.released
    rw [signalledNodes_append_signal] at hreleased
    obtain ⟨hset, -, hreturned⟩ | ⟨hunset, -, hreturned⟩ := hrest
    · exact stampInv_signal_full h hsafety (hreleased.mp hset) hservicer hreturned
    · refine stampInv_signal_short h hsafety ?_ hservicer hunset hreturned
      intro hfull
      rw [hreleased.mpr hfull] at hunset
      cases hunset
  · exact stampInv_resume h hsafety hevent hservicer hreturned

/-- After any run the responses agree exactly when all signals that found the barrier full
read clock values with one rounded stamp. -/
theorem barrier_startsAgree_iff (expected : ℕ) (lead : ℤ) (hexpected : 1 ≤ expected)
    (events : List BarrierEvent) (final : BarrierSystem)
    (hrun : runSchedule barrierStep (BarrierSystem.init expected lead) events = some final) :
    StartsAgree final ↔ StampsAgree expected lead events := by
  have h : StampInv expected lead events final :=
    runSchedule_invariant (StampInv expected lead) (stampInv_init lead hexpected)
      (fun _ _ _ _ h hstep => stampInv_step h hstep) events final hrun
  constructor
  · intro hagree left right hleft hright
    obtain ⟨first, hfirst, hfirstEq⟩ := h.answered left hleft
    obtain ⟨second, hsecond, hsecondEq⟩ := h.answered right hright
    rw [← hfirstEq, ← hsecondEq]
    exact hagree first hfirst second hsecond
  · intro hstamps left hleft right hright
    obtain ⟨first, hfirst, hfirstEq⟩ := h.stamped left hleft
    obtain ⟨second, hsecond, hsecondEq⟩ := h.stamped right hright
    rw [hfirstEq, hsecondEq]
    exact hstamps first second hfirst hsecond

/-- On the retried schedule only the last signal finds the barrier full. -/
theorem barrier_startsAgree_iff_retried :
    ∃ final, runSchedule barrierStep (BarrierSystem.init 2 500) retriedSchedule = some final ∧
      (StartsAgree final ↔ StampsAgree 2 500 retriedSchedule) :=
  ⟨_, rfl, barrier_startsAgree_iff 2 500 (by decide) retriedSchedule _ rfl⟩

/-- The stamp of a whole second. -/
theorem futureEpochUs_intCast {lead second : ℤ} (hlead : |lead * 1000| ≤ 2 ^ 53)
    (hsecond : |second| ≤ 2 ^ 53) (hproduct : |second * 1000000| ≤ 2 ^ 53)
    (hsum : |second * 1000000 + lead * 1000| ≤ 2 ^ 53) :
    ClusterSyncServicer.futureEpochUs lead second = second * 1000000 + lead * 1000 := by
  rw [ClusterSyncServicer.futureEpochUs, Binary64.intCast_mul hsecond (by norm_num),
    Binary64.intCast_add hproduct hlead, Binary64.trunc_intCast hsum]

/-- Two readings of the same microsecond of a present-day clock have different stamps. -/
example : ClusterSyncServicer.futureEpochUs 500 (.ofExact (1700000000 + 3 / 2 ^ 22)) =
      1700000000500000 ∧
    ClusterSyncServicer.futureEpochUs 500 (.ofExact (1700000000 + 4 / 2 ^ 22)) =
      1700000000500001 := by
  decide +kernel

/-- A node that signals again one second later. -/
def retriedSecond : List BarrierEvent :=
  [.signal 0 ⟨some "node-1"⟩ (0 : ℤ), .signal 1 ⟨some "node-1"⟩ (1 : ℤ)]

/-- A one-node barrier answers a retry one second later with another start time, although the
clock does not run backwards. -/
theorem barrier_starts_disagree :
    (retriedSecond.filterMap signalClock).Pairwise (· ≤ ·) ∧
      ∃ final, runSchedule barrierStep (BarrierSystem.init 1 500) retriedSecond = some final ∧
        ¬ StartsAgree final := by
  refine ⟨by decide +kernel, _, rfl, ?_⟩
  intro hagree
  have hstart := hagree _ List.mem_cons_self _ (List.mem_cons_of_mem _ List.mem_cons_self)
  change ClusterSyncServicer.futureEpochUs 500 (0 : ℤ) =
    ClusterSyncServicer.futureEpochUs 500 (1 : ℤ) at hstart
  rw [futureEpochUs_intCast (by norm_num) (by norm_num) (by norm_num) (by norm_num),
    futureEpochUs_intCast (by norm_num) (by norm_num) (by norm_num) (by norm_num)] at hstart
  exact absurd hstart (by decide)

end Steve.Orchestrator
