import Steve.Usecases.WritePhase

/-!
# Write loops gathered on one adapter

`asyncio.gather` runs the write loops of several tasks on one adapter. The event loop may
switch tasks between any two writes, and never within one. If the tasks write to paths of
their own, then after any turns each task's file holds exactly the blocks of the turns it had,
whatever the others did in between, and a task with enough turns has finished.
-/

namespace Steve.Usecases

open Steve.Library
open Steve.Adapters
open Steve.Payload

variable {σ ι : Type} {P C : ι → Type}

/-- A write loop of some steps, as a task. -/
structure GatherTask (P C : Type) where
  phase : WritePhase P C
  count : ℕ

/-- The variables of a task: the steps it has made, its loop's own variables, and the exception
that ended it. -/
structure TaskState (P C : Type) where
  next : ℕ
  source : P
  recorded : C
  raised : Option PyException

/-- Tasks on one adapter, with the first exception any of them raised. -/
structure GatherState (σ : Type) (P C : ι → Type) where
  adapter : σ
  task : ∀ i, TaskState (P i) (C i)
  raised : Option PyException

/-- A task that has not begun. -/
def TaskState.init {P C : Type} (source : P) (recorded : C) : TaskState P C :=
  ⟨0, source, recorded, none⟩

/-- A task's turn: the next step of its loop, unless it has ended. -/
def GatherTask.advance {P C : Type} (task : GatherTask P C) (adapter : TargetAdapter σ) (state : σ)
    (current : TaskState P C) : σ × TaskState P C :=
  if current.raised.isSome ∨ task.count ≤ current.next then (state, current)
  else
    match task.phase.body adapter current.next ⟨state, current.source, current.recorded⟩ with
    | (some e, after) => (after.adapter, ⟨current.next, after.source, after.recorded, some e⟩)
    | (none, after) => (after.adapter, ⟨current.next + 1, after.source, after.recorded, none⟩)

section Machine

variable [DecidableEq ι]

/-- The turn of one of the tasks. -/
def GatherState.step (tasks : ∀ i, GatherTask (P i) (C i)) (adapter : TargetAdapter σ)
    (state : GatherState σ P C) (who : ι) : GatherState σ P C where
  adapter := ((tasks who).advance adapter state.adapter (state.task who)).1
  task := Function.update state.task who
    ((tasks who).advance adapter state.adapter (state.task who)).2
  raised := state.raised.or
    ((tasks who).advance adapter state.adapter (state.task who)).2.raised

/-- The tasks after some turns. -/
def GatherState.run (tasks : ∀ i, GatherTask (P i) (C i)) (adapter : TargetAdapter σ)
    (state : GatherState σ P C) (turns : List ι) : GatherState σ P C :=
  turns.foldl (GatherState.step tasks adapter) state

end Machine

/-- What the loop of a task writes: blocks of one size, where, and with which contents, from
which states of its source. -/
structure BlockPlan (P : Type) where
  size : ℕ
  place : ℕ → ℕ
  data : ℕ → List Byte
  Ready : ℕ → P → Prop

/-- The tasks' loops write as planned. -/
structure Planned (tasks : ∀ i, GatherTask (P i) (C i)) (plan : ∀ i, BlockPlan (P i)) : Prop where
  supplies : ∀ i,
    (tasks i).phase.Supplies (plan i).size (tasks i).count (plan i).data (plan i).Ready
  offset : ∀ i, ∀ step < (tasks i).count,
    (tasks i).phase.offset step = (plan i).place step * (plan i).size
  ownPaths : ∀ i j, i ≠ j →
    (tasks i).phase.target.resourcePath ≠ (tasks j).phase.target.resourcePath

/-- A task that had some turns and raised nothing. -/
structure TaskServed {P C : Type} (task : GatherTask P C) (plan : BlockPlan P) (initial : C)
    (turns : ℕ) (current : TaskState P C) : Prop where
  next : current.next = min task.count turns
  unraised : current.raised = none
  ready : plan.Ready current.next current.source
  recorded : current.recorded = task.phase.recordedAfter plan.size current.next initial

section Sound

variable {ω F : Type} [DecidableEq F] {system : PosixSystem ω}

/-- Tasks after turns, over the files that the store held before. -/
structure Gathered (semantics : FileSemantics F system.toOperatingSystem) (paths : Set String)
    (tasks : ∀ i, GatherTask (P i) (C i)) (plan : ∀ i, BlockPlan (P i))
    (store : String → List Byte) (initial : ∀ i, C i) (turns : ι → ℕ)
    (state : GatherState (PosixDirectIOAdapter ω) P C) : Prop where
  served : ∀ i, TaskServed (tasks i) (plan i) (initial i) (turns i) (state.task i)
  unraised : state.raised = none
  files : ∃ current, PosixRepresents semantics paths state.adapter current ∧
    (∀ i, current (tasks i).phase.target.resourcePath =
      writeBlocks (plan i).size (plan i).place (plan i).data
        (store (tasks i).phase.target.resourcePath) (state.task i).next) ∧
    ∀ path, (∀ i, path ≠ (tasks i).phase.target.resourcePath) → current path = store path

variable {semantics : FileSemantics F system.toOperatingSystem} {paths : Set String}
  {tasks : ∀ i, GatherTask (P i) (C i)} {plan : ∀ i, BlockPlan (P i)}
  {store : String → List Byte} {initial : ∀ i, C i}

/-- A turn of a task that has finished its loop changes nothing. -/
theorem GatherTask.advance_finished {P C : Type} {task : GatherTask P C}
    (adapter : TargetAdapter σ) (state : σ) {current : TaskState P C}
    (h : task.count ≤ current.next) : task.advance adapter state current = (state, current) := by
  rw [GatherTask.advance, if_pos (Or.inr h)]

/-- A turn of a task with steps left writes and records its next block. -/
theorem TaskServed.advance {P C : Type} {task : GatherTask P C} {plan : BlockPlan P} {initial : C}
    {turns : ℕ} {current : TaskState P C} (h : TaskServed task plan initial turns current)
    (hreliable : semantics.Reliable paths) (hdistinct : Set.InjOn semantics.fileOf paths)
    (hpath : task.phase.target.resourcePath ∈ paths)
    (hsupplies : task.phase.Supplies plan.size task.count plan.data plan.Ready) (os : ω)
    {adapter : PosixDirectIOAdapter ω} {store : String → List Byte}
    (hstore : PosixRepresents semantics paths adapter store) (hnext : current.next < task.count) :
    ∃ after next, task.advance (posixTargetAdapter system os) adapter current = (after, next) ∧
      PosixRepresents semantics paths after
        (Function.update store task.phase.target.resourcePath
          (writeAt (store task.phase.target.resourcePath) (task.phase.offset current.next)
            (plan.data current.next))) ∧
      next.next = current.next + 1 ∧ TaskServed task plan initial (turns + 1) next := by
  let state : PhaseState (PosixDirectIOAdapter ω) P C :=
    ⟨adapter, current.source, current.recorded⟩
  obtain ⟨after, hbody, hstored, hrecorded, hready⟩ : ∃ after,
      task.phase.body (posixTargetAdapter system os) current.next state = (none, after) ∧ _ :=
    WritePhase.body_writes hreliable hdistinct hpath hsupplies os hnext hstore h.ready
  have hrunning : ¬ (current.raised.isSome ∨ task.count ≤ current.next) := by
    rw [h.unraised]
    exact not_or.mpr ⟨Bool.false_ne_true, Nat.not_le.mpr hnext⟩
  refine ⟨after.adapter, ⟨current.next + 1, after.source, after.recorded, none⟩, ?_, hstored, rfl,
    ?_, rfl, hready, ?_⟩
  · rw [GatherTask.advance, if_neg hrunning, hbody]
  · have hcounted := h.next
    change current.next + 1 = _
    omega
  · rw [WritePhase.recordedAfter_succ, ← h.recorded]
    exact hrecorded

/-- A task that has finished its loop is served by further turns. -/
theorem TaskServed.more {P C : Type} {task : GatherTask P C} {plan : BlockPlan P} {initial : C}
    {turns : ℕ} {current : TaskState P C} (h : TaskServed task plan initial turns current)
    (hfinished : task.count ≤ current.next) :
    TaskServed task plan initial (turns + 1) current := by
  refine ⟨?_, h.unraised, h.ready, h.recorded⟩
  have hnext := h.next
  omega

/-- Tasks that have not begun. -/
theorem gathered_init (plan : ∀ i, BlockPlan (P i)) {adapter : PosixDirectIOAdapter ω}
    (hstore : PosixRepresents semantics paths adapter store) {source : ∀ i, P i}
    (hready : ∀ i, (plan i).Ready 0 (source i)) (initial : ∀ i, C i) :
    Gathered semantics paths tasks plan store initial (fun _ => 0)
      ⟨adapter, fun i => TaskState.init (source i) (initial i), none⟩ where
  served := fun i => ⟨(Nat.min_zero _).symm, rfl, hready i, rfl⟩
  unraised := rfl
  files := ⟨store, hstore, fun _ => rfl, fun _ _ => rfl⟩

variable [DecidableEq ι]

/-- One turn of a task leaves what the others wrote, and adds its next block. -/
theorem Gathered.step {turns : ι → ℕ} {state : GatherState (PosixDirectIOAdapter ω) P C}
    (h : Gathered semantics paths tasks plan store initial turns state)
    (hreliable : semantics.Reliable paths) (hdistinct : Set.InjOn semantics.fileOf paths)
    (hpaths : ∀ i, (tasks i).phase.target.resourcePath ∈ paths) (hplanned : Planned tasks plan)
    (os : ω) (who : ι) :
    Gathered semantics paths tasks plan store initial
      (Function.update turns who (turns who + 1))
      (state.step tasks (posixTargetAdapter system os) who) := by
  obtain ⟨current, hrepresents, hwritten, hothers⟩ := h.files
  have hserved := h.served who
  by_cases hfinished : (tasks who).count ≤ (state.task who).next
  · -- the task has made all its steps, and its turn passes
    have hstate : state.step tasks (posixTargetAdapter system os) who = state := by
      rw [GatherState.step, GatherTask.advance_finished _ _ hfinished, hserved.unraised,
        Option.or_none, Function.update_eq_self]
    rw [hstate]
    refine ⟨?_, h.unraised, h.files⟩
    intro i
    by_cases hwho : i = who
    · subst hwho
      rw [Function.update_self]
      exact hserved.more hfinished
    · rw [Function.update_of_ne hwho]
      exact h.served i
  · have hnext : (state.task who).next < (tasks who).count := Nat.not_le.mp hfinished
    obtain ⟨adapter, after, hadvance, hstored, hcounted, hafter⟩ := hserved.advance hreliable
      hdistinct (hpaths who) (hplanned.supplies who) os hrepresents hnext
    have hstate : state.step tasks (posixTargetAdapter system os) who =
        ⟨adapter, Function.update state.task who after, none⟩ := by
      rw [GatherState.step, hadvance, h.unraised, Option.none_or, hafter.unraised]
    rw [hstate]
    refine ⟨?_, rfl, _, hstored, ?_, ?_⟩
    · intro i
      change TaskServed _ _ _ _ (Function.update state.task who after i)
      by_cases hwho : i = who
      · subst hwho
        rw [Function.update_self, Function.update_self]
        exact hafter
      · rw [Function.update_of_ne hwho, Function.update_of_ne hwho]
        exact h.served i
    · intro i
      change _ = writeBlocks _ _ _ _ (Function.update state.task who after i).next
      by_cases hwho : i = who
      · subst hwho
        rw [Function.update_self, Function.update_self, hcounted, writeBlocks, hwritten,
          hplanned.offset i _ hnext]
      · rw [Function.update_of_ne (hplanned.ownPaths i who hwho), Function.update_of_ne hwho,
          hwritten]
    · intro path hpath
      rw [Function.update_of_ne (hpath who), hothers path hpath]

/-- After any turns every task has had its own, and its file shows them. -/
theorem Gathered.run {turns : ι → ℕ} {state : GatherState (PosixDirectIOAdapter ω) P C}
    (h : Gathered semantics paths tasks plan store initial turns state)
    (hreliable : semantics.Reliable paths) (hdistinct : Set.InjOn semantics.fileOf paths)
    (hpaths : ∀ i, (tasks i).phase.target.resourcePath ∈ paths) (hplanned : Planned tasks plan)
    (os : ω) (schedule : List ι) :
    Gathered semantics paths tasks plan store initial (fun i => turns i + schedule.count i)
      (state.run tasks (posixTargetAdapter system os) schedule) := by
  induction schedule generalizing turns state with
  | nil => exact h
  | cons who rest ih =>
    have hnext := ih (h.step hreliable hdistinct hpaths hplanned os who)
    have hcounts : (fun i => Function.update turns who (turns who + 1) i + rest.count i) =
        fun i => turns i + (who :: rest).count i := by
      funext i
      rw [List.count_cons]
      by_cases hwho : who = i
      · subst hwho
        rw [Function.update_self, if_pos (beq_self_eq_true who)]
        omega
      · rw [Function.update_of_ne (Ne.symm hwho), if_neg (by simpa using hwho), Nat.add_zero]
    rw [hcounts] at hnext
    exact hnext

end Sound

end Steve.Usecases
