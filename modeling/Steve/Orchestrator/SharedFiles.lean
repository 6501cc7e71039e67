import Steve.Adapters.FileImage
import Steve.Adapters.FileRefinement
import Steve.Orchestrator.Tiling
import Steve.Orchestrator.WorkerAccounting

/-!
# Worker processes on shared files

A worker process is taken apart into its system calls: creating the parent directory, opening,
and for every write call a seek and a write on a descriptor of its own. The scheduler may
switch processes between any two of them. If no two calls of the plan meet in a file, each
finished call is held by its file from then on, bytes outside all finished calls are as they
were, and a process scheduled often enough finishes its calls, whatever the others do.
-/

namespace Steve.Orchestrator

open Steve.Library
open Steve.Adapters

/-- Where a process stands between two of its system calls. -/
inductive WriterPhase
  | start
  | parentReady
  | opened (fd : ℕ)
  | sought (fd : ℕ)
  | raised (e : OsError)
  deriving DecidableEq

/-- The descriptor a process has open. -/
def WriterPhase.fd? : WriterPhase → Option ℕ
  | opened fd => some fd
  | sought fd => some fd
  | _ => none

/-- A process writing one file: the calls it has finished, and those still to make. -/
structure WriterProcess where
  path : String
  phase : WriterPhase
  finished : List WriteCall
  pending : List WriteCall

/-- A process that has made no system call yet. -/
def WriterProcess.init (path : String) (calls : List WriteCall) : WriterProcess :=
  ⟨path, .start, [], calls⟩

section Machine

variable {ω : Type} (system : PosixSystem ω)

/-- The next system call of a process; without pending calls, or once one has failed, it makes
no more. -/
def WriterProcess.advance (process : WriterProcess) (os : ω) : WriterProcess × ω :=
  match process.pending with
  | [] => (process, os)
  | call :: rest =>
    match process.phase with
    | .start =>
      match PosixDirectIOAdapter.ensureParent system process.path os with
      | (.error e, os) => ({ process with phase := .raised e }, os)
      | (.ok (), os) => ({ process with phase := .parentReady }, os)
    | .parentReady =>
      match system.openFile os process.path with
      | (.error e, os) => ({ process with phase := .raised e }, os)
      | (.ok fd, os) => ({ process with phase := .opened fd }, os)
    | .opened fd =>
      match system.lseek os fd call.offset with
      | (.error e, os) => ({ process with phase := .raised e }, os)
      | (.ok (), os) => ({ process with phase := .sought fd }, os)
    | .sought fd =>
      match system.write os fd call.payload.view with
      | (.error e, os) => ({ process with phase := .raised e }, os)
      | (.ok _, os) =>
        (⟨process.path, .opened fd, process.finished ++ [call], rest⟩, os)
    | .raised _ => (process, os)

/-- Processes on one operating system. -/
structure Writers (ι ω : Type) where
  process : ι → WriterProcess
  os : ω

variable {ι : Type} [DecidableEq ι]

/-- The next system call of one of the processes. -/
def Writers.step (state : Writers ι ω) (who : ι) : Writers ι ω where
  process := Function.update state.process who
    ((state.process who).advance system state.os).1
  os := ((state.process who).advance system state.os).2

/-- The processes after a schedule. -/
def Writers.run (state : Writers ι ω) (schedule : List ι) : Writers ι ω :=
  schedule.foldl (Writers.step system) state

/-- Processes that have made no system call yet. -/
def Writers.init (path : ι → String) (calls : ι → List WriteCall) (os : ω) : Writers ι ω :=
  ⟨fun i => WriterProcess.init (path i) (calls i), os⟩

end Machine

section Moves

variable {F : Type} [DecidableEq F]

/-- What a system call of a process does to the files and descriptors. -/
inductive WriterMove (file : F) :
    WriterProcess → FileView F → WriterProcess → FileView F → Prop
  | idle {process : WriterProcess} {view : FileView F} (hpending : process.pending = []) :
    WriterMove file process view process view
  | prepare {process : WriterProcess} {view : FileView F} (hphase : process.phase = .start) :
    WriterMove file process view { process with phase := .parentReady } view
  | opens {process : WriterProcess} {view : FileView F} {fd : ℕ}
    (hphase : process.phase = .parentReady) (hfree : view.descriptor fd = none) :
    WriterMove file process view { process with phase := .opened fd }
      (view.setDescriptor fd file 0)
  | seeks {process : WriterProcess} {view : FileView F} {fd cursor : ℕ} {call : WriteCall}
    {rest : List WriteCall} (hphase : process.phase = .opened fd)
    (hpending : process.pending = call :: rest)
    (hopen : view.descriptor fd = some (file, cursor)) :
    WriterMove file process view { process with phase := .sought fd }
      (view.setDescriptor fd file call.offset)
  | writes {process : WriterProcess} {view : FileView F} {fd : ℕ} {call : WriteCall}
    {rest : List WriteCall} (hphase : process.phase = .sought fd)
    (hpending : process.pending = call :: rest)
    (hcursor : view.descriptor fd = some (file, call.offset)) :
    WriterMove file process view
      ⟨process.path, .opened fd, process.finished ++ [call], rest⟩
      (view.transfer fd file call.offset call.payload.view)

/-- The descriptor of a process is open on its file, at its next call once sought; and no call
of the process has failed. -/
structure WriterOpen (file : F) (view : FileView F) (process : WriterProcess) : Prop where
  descriptor : ∀ fd, process.phase.fd? = some fd →
    ∃ cursor, view.descriptor fd = some (file, cursor)
  sought : ∀ fd, process.phase = .sought fd → ∃ call rest, process.pending = call :: rest ∧
    view.descriptor fd = some (file, call.offset)
  unraised : ∀ e, process.phase ≠ .raised e

variable {ω : Type} {system : PosixSystem ω}
  {semantics : FileSemantics F system.toOperatingSystem} {paths : Set String}

/-- On a reliable file system every system call of a process is one of the moves. -/
theorem WriterProcess.advance_move (hreliable : semantics.Reliable paths) (os : ω)
    {process : WriterProcess} (hpath : process.path ∈ paths)
    (h : WriterOpen (semantics.fileOf process.path) (semantics.view os) process) :
    WriterMove (semantics.fileOf process.path) process (semantics.view os)
      (process.advance system os).1 (semantics.view (process.advance system os).2) := by
  obtain ⟨path, phase, finished, pending⟩ := process
  cases pending with
  | nil => exact .idle rfl
  | cons call rest =>
    cases phase with
    | start =>
      have hparent : ∃ ready,
          PosixDirectIOAdapter.ensureParent system path os = (.ok (), ready) ∧
            semantics.view ready = semantics.view os := by
        unfold PosixDirectIOAdapter.ensureParent
        split
        · exact ⟨os, rfl, rfl⟩
        · exact ⟨_, Prod.ext (hreliable.mkdirParents os path hpath) rfl,
            semantics.mkdirParents os path⟩
      obtain ⟨ready, hready, hview⟩ := hparent
      simp only [WriterProcess.advance, hready, hview]
      exact .prepare rfl
    | parentReady =>
      obtain ⟨fd, hfd⟩ := hreliable.openFile os path hpath
      obtain ⟨next, hopened⟩ : ∃ next, system.openFile os path = (.ok fd, next) :=
        ⟨_, Prod.ext hfd rfl⟩
      obtain ⟨hfree, hview⟩ := semantics.openFile os path fd next hopened
      simp only [WriterProcess.advance, hopened, hview]
      exact .opens rfl hfree
    | opened fd =>
      obtain ⟨cursor, hopen⟩ := h.descriptor fd rfl
      obtain ⟨next, hseek⟩ : ∃ next, system.lseek os fd call.offset = (.ok (), next) :=
        ⟨_, Prod.ext (hreliable.lseek os fd _ cursor call.offset hopen) rfl⟩
      simp only [WriterProcess.advance, hseek,
        semantics.lseek os fd _ cursor call.offset next hopen hseek]
      exact .seeks rfl rfl hopen
    | sought fd =>
      obtain ⟨first, later, hpending, hcursor⟩ := h.sought fd rfl
      obtain ⟨rfl, rfl⟩ := List.cons.inj hpending
      obtain ⟨next, hwrite⟩ : ∃ next,
          system.write os fd call.payload.view = (.ok call.payload.view.length, next) :=
        ⟨_, Prod.ext (hreliable.write os fd _ call.offset call.payload.view hcursor) rfl⟩
      obtain ⟨-, -, hview⟩ := semantics.write os fd _ call.offset _ _ next hcursor hwrite
      rw [List.take_length] at hview
      simp only [WriterProcess.advance, hwrite, hview]
      exact .writes rfl rfl hcursor
    | raised e => exact absurd rfl (h.unraised e)

end Moves

section Invariant

variable {F : Type} {ι : Type}

/-- No two write calls of a plan meet in a file. -/
def SeparateCalls (file : ι → F) (calls : ι → List WriteCall) : Prop :=
  ∀ (i j : ι) (a : Fin (calls i).length) (b : Fin (calls j).length), file i = file j →
    ¬ (i = j ∧ (a : ℕ) = b) → Disjoint ((calls i)[a]).range ((calls j)[b]).range

/-- What holds between any two system calls of the processes. -/
structure WritersInv (file : ι → F) (calls : ι → List WriteCall) (initial : FileView F)
    (process : ι → WriterProcess) (view : FileView F) : Prop where
  plan : ∀ i, (process i).finished ++ (process i).pending = calls i
  opened : ∀ i, WriterOpen (file i) view (process i)
  own : ∀ i j fd, (process i).phase.fd? = some fd → (process j).phase.fd? = some fd → i = j
  held : ∀ i, ∀ call ∈ (process i).finished,
    Holds (view.content (file i)) call.offset call.payload.view
  untouched : ∀ other position,
    (∀ i, file i = other → ∀ call ∈ (process i).finished, position ∉ call.range) →
      byteAt (view.content other) position = byteAt (initial.content other) position

/-- Processes that have made no system call yet satisfy the invariant. -/
theorem writersInv_init (file : ι → F) (path : ι → String) (calls : ι → List WriteCall)
    (view : FileView F) :
    WritersInv file calls view (fun i => WriterProcess.init (path i) (calls i)) view where
  plan := fun _ => rfl
  opened := by
    intro i
    refine ⟨?_, ?_, ?_⟩
    · intro fd hfd
      cases hfd
    · intro fd hsought
      cases hsought
    · intro e hraised
      cases hraised
  own := by
    intro i j fd hfd
    cases hfd
  held := fun i => List.forall_mem_nil _
  untouched := fun _ _ _ => rfl

/-- A process is open as long as its own descriptor stays. -/
theorem WriterOpen.congr {file : F} {view next : FileView F} {process : WriterProcess}
    (h : WriterOpen file view process)
    (hview : ∀ fd, process.phase.fd? = some fd → next.descriptor fd = view.descriptor fd) :
    WriterOpen file next process where
  descriptor := by
    intro fd hfd
    rw [hview fd hfd]
    exact h.descriptor fd hfd
  sought := by
    intro fd hphase
    rw [hview fd (by rw [hphase, WriterPhase.fd?])]
    exact h.sought fd hphase
  unraised := h.unraised

/-- A process on an opened descriptor. -/
theorem writerOpen_opened {file : F} {view : FileView F} {fd cursor : ℕ} {process : WriterProcess}
    (hphase : process.phase = .opened fd) (hview : view.descriptor fd = some (file, cursor)) :
    WriterOpen file view process where
  descriptor := by
    intro other hother
    rw [hphase, WriterPhase.fd?, Option.some.injEq] at hother
    exact ⟨cursor, hother ▸ hview⟩
  sought := by
    intro other hother
    rw [hphase] at hother
    cases hother
  unraised := by
    intro e hraised
    rw [hphase] at hraised
    cases hraised

/-- The next call of a process does not meet a call finished before it. -/
theorem SeparateCalls.next {file : ι → F} {calls : ι → List WriteCall}
    (h : SeparateCalls file calls) {process : ι → WriterProcess}
    (hplan : ∀ i, (process i).finished ++ (process i).pending = calls i) {i who : ι}
    (hfile : file i = file who) {call next : WriteCall} {rest : List WriteCall}
    (hcall : call ∈ (process i).finished) (hnext : (process who).pending = next :: rest) :
    Disjoint call.range next.range := by
  obtain ⟨a, ha, rfl⟩ := List.getElem_of_mem hcall
  have hwho := hplan who
  rw [hnext] at hwho
  have hi : a < (calls i).length := by
    rw [← hplan i, List.length_append]
    omega
  have hb : (process who).finished.length < (calls who).length := by
    rw [← hwho, List.length_append, List.length_cons]
    omega
  have hgeti : (calls i)[a] = (process i).finished[a] := by
    simp only [← hplan i, List.getElem_append_left ha]
  have hgetwho : (calls who)[(process who).finished.length] = next := by
    simp only [← hwho, List.getElem_append_right (Nat.le_refl _), Nat.sub_self,
      List.getElem_cons_zero]
  have hdistinct : ¬ (i = who ∧ a = (process who).finished.length) := by
    rintro ⟨rfl, hlast⟩
    exact Nat.ne_of_lt ha hlast
  have hdisjoint := h i who ⟨a, hi⟩ ⟨_, hb⟩ hfile hdistinct
  rw [← hgeti, ← hgetwho]
  exact hdisjoint

variable [DecidableEq F]

/-- After a move of its own, a process is still open on its file. -/
theorem WriterMove.opened {file : F} {process next : WriterProcess} {view after : FileView F}
    (hmove : WriterMove file process view next after) (h : WriterOpen file view process) :
    WriterOpen file after next := by
  cases hmove with
  | idle hpending => exact h
  | prepare hphase =>
    refine ⟨?_, ?_, ?_⟩
    · intro fd hfd
      cases hfd
    · intro fd hsought
      cases hsought
    · intro e hraised
      cases hraised
  | opens hphase hfree => exact writerOpen_opened rfl (FileView.setDescriptor_self _ _ _ _)
  | seeks hphase hpending hopen =>
    refine ⟨?_, ?_, ?_⟩
    · intro other hother
      obtain rfl := Option.some.inj hother
      exact ⟨_, FileView.setDescriptor_self _ _ _ _⟩
    · intro other hother
      obtain rfl := WriterPhase.sought.inj hother
      exact ⟨_, _, hpending, FileView.setDescriptor_self _ _ _ _⟩
    · intro e hraised
      cases hraised
  | writes hphase hpending hcursor => exact writerOpen_opened rfl (Function.update_self _ _ _)

/-- A move leaves the open descriptors of other processes, and does not make them its own. -/
theorem WriterMove.frame {file : F} {process next : WriterProcess} {view after : FileView F}
    (hmove : WriterMove file process view next after) {fd : ℕ}
    (hother : process.phase.fd? ≠ some fd) (hopen : view.descriptor fd ≠ none) :
    after.descriptor fd = view.descriptor fd ∧ next.phase.fd? ≠ some fd := by
  cases hmove with
  | idle hpending => exact ⟨rfl, hother⟩
  | prepare hphase => exact ⟨rfl, fun heq => by cases heq⟩
  | opens hphase hfree =>
    rename_i opened
    have hne : fd ≠ opened := fun heq => hopen (heq ▸ hfree)
    exact ⟨FileView.setDescriptor_of_ne _ hne _ _, fun heq => hne (Option.some.inj heq).symm⟩
  | seeks hphase hpending hcursor =>
    rename_i opened _ _ _
    have hne : fd ≠ opened := by
      rintro rfl
      exact hother (by rw [hphase, WriterPhase.fd?])
    exact ⟨FileView.setDescriptor_of_ne _ hne _ _, fun heq => hne (Option.some.inj heq).symm⟩
  | writes hphase hpending hcursor =>
    rename_i sought _ _
    have hne : fd ≠ sought := by
      rintro rfl
      exact hother (by rw [hphase, WriterPhase.fd?])
    exact ⟨Function.update_of_ne hne _ _, fun heq => hne (Option.some.inj heq).symm⟩

/-- What a move does to the calls and the files: nothing, or it finishes the next call by
writing it to the process's file. -/
theorem WriterMove.content {file : F} {process next : WriterProcess} {view after : FileView F}
    (hmove : WriterMove file process view next after) :
    (next.finished = process.finished ∧ next.pending = process.pending ∧
        after.content = view.content) ∨
      ∃ call, process.pending = call :: next.pending ∧
        next.finished = process.finished ++ [call] ∧
        after.content = Function.update view.content file
          (writeAt (view.content file) call.offset call.payload.view) := by
  cases hmove with
  | idle hpending => exact Or.inl ⟨rfl, rfl, rfl⟩
  | prepare hphase => exact Or.inl ⟨rfl, rfl, rfl⟩
  | opens hphase hfree => exact Or.inl ⟨rfl, rfl, rfl⟩
  | seeks hphase hpending hopen => exact Or.inl ⟨rfl, rfl, rfl⟩
  | writes hphase hpending hcursor => exact Or.inr ⟨_, hpending, rfl, rfl⟩

/-- A move keeps the calls of a process together. -/
theorem WriterMove.plan {file : F} {process next : WriterProcess} {view after : FileView F}
    (hmove : WriterMove file process view next after) :
    next.finished ++ next.pending = process.finished ++ process.pending := by
  rcases hmove.content with ⟨hfinished, hpending, -⟩ | ⟨call, hpending, hfinished, -⟩
  · rw [hfinished, hpending]
  · rw [hfinished, hpending, List.append_assoc, List.singleton_append]

/-- Finished calls stay finished. -/
theorem WriterMove.finished_subset {file : F} {process next : WriterProcess}
    {view after : FileView F} (hmove : WriterMove file process view next after) :
    process.finished ⊆ next.finished := by
  rcases hmove.content with ⟨hfinished, -, -⟩ | ⟨call, -, hfinished, -⟩
  · rw [hfinished]
    exact List.Subset.refl _
  · rw [hfinished]
    exact List.subset_append_left _ _

section Step

variable {file : ι → F} {calls : ι → List WriteCall} {initial view after : FileView F}
  {process : ι → WriterProcess} {who : ι} {next : WriterProcess}

/-- A move leaves the open descriptors of the others. -/
theorem WritersInv.frame (hinv : WritersInv file calls initial process view)
    (hmove : WriterMove (file who) (process who) view next after) {i : ι} (hi : i ≠ who) {fd : ℕ}
    (hfd : (process i).phase.fd? = some fd) :
    after.descriptor fd = view.descriptor fd ∧ next.phase.fd? ≠ some fd := by
  obtain ⟨cursor, hopen⟩ := (hinv.opened i).descriptor fd hfd
  apply hmove.frame
  · intro hwho
    exact hi (hinv.own i who fd hfd hwho)
  · rw [hopen]
    exact Option.some_ne_none _

/-- After a move, the files still hold every call finished before it. -/
theorem WritersInv.held_move (hinv : WritersInv file calls initial process view)
    (hseparate : SeparateCalls file calls)
    (hmove : WriterMove (file who) (process who) view next after) {i : ι} {call : WriteCall}
    (hcall : call ∈ (process i).finished) :
    Holds (after.content (file i)) call.offset call.payload.view := by
  rcases hmove.content with ⟨-, -, hcontent⟩ | ⟨new, hpending, -, hcontent⟩
  · rw [hcontent]
    exact hinv.held i call hcall
  · rw [hcontent]
    by_cases hfile : file i = file who
    · rw [hfile, Function.update_self, ← hfile]
      exact (hinv.held i call hcall).writeAt (hseparate.next hinv.plan hfile hcall hpending)
    · rw [Function.update_of_ne hfile]
      exact hinv.held i call hcall

/-- After a move, the process's file holds the calls it has finished. -/
theorem WritersInv.held_self (hinv : WritersInv file calls initial process view)
    (hseparate : SeparateCalls file calls)
    (hmove : WriterMove (file who) (process who) view next after) {call : WriteCall}
    (hcall : call ∈ next.finished) :
    Holds (after.content (file who)) call.offset call.payload.view := by
  rcases hmove.content with ⟨hfinished, -, -⟩ | ⟨new, -, hfinished, hcontent⟩
  · rw [hfinished] at hcall
    exact hinv.held_move hseparate hmove hcall
  · rw [hfinished] at hcall
    rcases List.mem_append.mp hcall with hold | hnew
    · exact hinv.held_move hseparate hmove hold
    · rw [List.mem_singleton.mp hnew, hcontent, Function.update_self]
      exact holds_writeAt_self _ _ _

variable [DecidableEq ι]

/-- After a move, distinct processes still have distinct descriptors. -/
theorem WritersInv.own_move (hinv : WritersInv file calls initial process view)
    (hmove : WriterMove (file who) (process who) view next after) (i j : ι) (fd : ℕ)
    (hi : (Function.update process who next i).phase.fd? = some fd)
    (hj : (Function.update process who next j).phase.fd? = some fd) : i = j := by
  by_cases hiwho : i = who
  · by_cases hjwho : j = who
    · rw [hiwho, hjwho]
    · rw [hiwho, Function.update_self] at hi
      rw [Function.update_of_ne hjwho] at hj
      exact absurd hi (hinv.frame hmove hjwho hj).2
  · rw [Function.update_of_ne hiwho] at hi
    by_cases hjwho : j = who
    · rw [hjwho, Function.update_self] at hj
      exact absurd hj (hinv.frame hmove hiwho hi).2
    · rw [Function.update_of_ne hjwho] at hj
      exact hinv.own i j fd hi hj

/-- A move leaves the bytes outside all calls finished after it. -/
theorem WritersInv.untouched_move (hinv : WritersInv file calls initial process view)
    (hmove : WriterMove (file who) (process who) view next after) (other : F) (position : ℕ)
    (houtside : ∀ i, file i = other → ∀ call ∈ (Function.update process who next i).finished,
      position ∉ call.range) :
    byteAt (after.content other) position = byteAt (initial.content other) position := by
  have hbefore : ∀ i, file i = other → ∀ call ∈ (process i).finished, position ∉ call.range := by
    intro i hfile call hcall
    apply houtside i hfile call
    by_cases hi : i = who
    · subst hi
      rw [Function.update_self]
      exact hmove.finished_subset hcall
    · rwa [Function.update_of_ne hi]
  rw [← hinv.untouched other position hbefore]
  rcases hmove.content with ⟨-, -, hcontent⟩ | ⟨new, -, hfinished, hcontent⟩
  · rw [hcontent]
  · rw [hcontent]
    by_cases hother : other = file who
    · subst hother
      rw [Function.update_self]
      apply byteAt_writeAt_of_notMem
      apply houtside who rfl new
      rw [Function.update_self, hfinished]
      exact List.mem_append_right _ List.mem_cons_self
    · rw [Function.update_of_ne hother]

/-- A move of one process keeps the invariant of all. -/
theorem WritersInv.move (hinv : WritersInv file calls initial process view)
    (hseparate : SeparateCalls file calls)
    (hmove : WriterMove (file who) (process who) view next after) :
    WritersInv file calls initial (Function.update process who next) after where
  plan := by
    intro i
    by_cases hi : i = who
    · subst hi
      rw [Function.update_self, hmove.plan]
      exact hinv.plan i
    · rw [Function.update_of_ne hi]
      exact hinv.plan i
  opened := by
    intro i
    by_cases hi : i = who
    · subst hi
      rw [Function.update_self]
      exact hmove.opened (hinv.opened i)
    · rw [Function.update_of_ne hi]
      exact (hinv.opened i).congr fun fd hfd => (hinv.frame hmove hi hfd).1
  own := hinv.own_move hmove
  held := by
    intro i call hcall
    by_cases hi : i = who
    · subst hi
      rw [Function.update_self] at hcall
      exact hinv.held_self hseparate hmove hcall
    · rw [Function.update_of_ne hi] at hcall
      exact hinv.held_move hseparate hmove hcall
  untouched := hinv.untouched_move hmove

end Step

end Invariant

section Progress

/-- An upper bound on the system calls a process has still to make. -/
def WriterProcess.callsLeft (process : WriterProcess) : ℕ :=
  match process.pending with
  | [] => 0
  | _ :: rest =>
    2 * rest.length + match process.phase with
      | .start => 4
      | .parentReady => 3
      | .opened _ => 2
      | .sought _ => 1
      | .raised _ => 0

variable {F : Type} [DecidableEq F]

/-- Every move uses up a system call, if any is left. -/
theorem WriterMove.callsLeft {file : F} {process next : WriterProcess} {view after : FileView F}
    (hmove : WriterMove file process view next after) : next.callsLeft ≤ process.callsLeft - 1 := by
  obtain ⟨path, phase, finished, pending⟩ := process
  cases hmove with
  | idle hpending =>
    obtain rfl : pending = [] := hpending
    exact Nat.le_refl _
  | prepare hphase =>
    obtain rfl : phase = .start := hphase
    cases pending with
    | nil => exact Nat.le_refl _
    | cons call rest => exact Nat.le_refl _
  | opens hphase hfree =>
    obtain rfl : phase = .parentReady := hphase
    cases pending with
    | nil => exact Nat.le_refl _
    | cons call rest => exact Nat.le_refl _
  | seeks hphase hpending hopen =>
    obtain rfl := hphase
    obtain rfl := hpending
    exact Nat.le_refl _
  | writes hphase hpending hcursor =>
    rename_i fd call rest
    obtain rfl := hphase
    obtain rfl := hpending
    cases rest with
    | nil => exact Nat.le_refl _
    | cons later rest =>
      simp only [WriterProcess.callsLeft, List.length_cons]
      omega

/-- A process that has not failed and has no system calls left has finished its calls. -/
theorem WriterProcess.pending_eq_nil {process : WriterProcess}
    (hunraised : ∀ e, process.phase ≠ .raised e) (hleft : process.callsLeft = 0) :
    process.pending = [] := by
  obtain ⟨path, phase, finished, pending⟩ := process
  cases pending with
  | nil => rfl
  | cons call rest =>
    cases phase with
    | raised e => exact absurd rfl (hunraised e)
    | start | parentReady | opened | sought =>
      simp only [WriterProcess.callsLeft] at hleft
      omega

end Progress

section Runs

variable {ω : Type} {F : Type} [DecidableEq F] {system : PosixSystem ω}
  {semantics : FileSemantics F system.toOperatingSystem} {paths : Set String}
  {ι : Type} {path : ι → String} {calls : ι → List WriteCall}

/-- No system call changes the path of a process. -/
theorem WriterProcess.advance_path (process : WriterProcess) (os : ω) :
    (process.advance system os).1.path = process.path := by
  unfold WriterProcess.advance
  split
  · rfl
  · split <;> first | rfl | (split <;> rfl)

/-- Processes on their paths that satisfy the invariant. -/
structure Writers.Sound (semantics : FileSemantics F system.toOperatingSystem) (path : ι → String)
    (calls : ι → List WriteCall) (initial : FileView F) (state : Writers ι ω) : Prop where
  onPath : ∀ i, (state.process i).path = path i
  inv : WritersInv (fun i => semantics.fileOf (path i)) calls initial state.process
    (semantics.view state.os)

/-- A system call of one of the processes is one of its moves. -/
theorem Writers.Sound.advance {initial : FileView F} {state : Writers ι ω}
    (h : state.Sound semantics path calls initial) (hreliable : semantics.Reliable paths)
    (hpaths : ∀ i, path i ∈ paths) (who : ι) :
    WriterMove (semantics.fileOf (path who)) (state.process who) (semantics.view state.os)
      ((state.process who).advance system state.os).1
      (semantics.view ((state.process who).advance system state.os).2) := by
  have hopened := h.inv.opened who
  rw [← h.onPath who] at hopened ⊢
  exact (state.process who).advance_move hreliable state.os (h.onPath who ▸ hpaths who) hopened

variable [DecidableEq ι]

/-- A system call keeps the processes sound. -/
theorem Writers.Sound.step {initial : FileView F} {state : Writers ι ω}
    (h : state.Sound semantics path calls initial) (hreliable : semantics.Reliable paths)
    (hpaths : ∀ i, path i ∈ paths)
    (hseparate : SeparateCalls (fun i => semantics.fileOf (path i)) calls) (who : ι) :
    (state.step system who).Sound semantics path calls initial where
  onPath := by
    intro i
    by_cases hi : i = who
    · subst hi
      simp only [Writers.step, Function.update_self, WriterProcess.advance_path]
      exact h.onPath i
    · simp only [Writers.step, Function.update_of_ne hi]
      exact h.onPath i
  inv := h.inv.move hseparate (h.advance hreliable hpaths who)

/-- After any schedule the processes are sound. -/
theorem Writers.Sound.run {initial : FileView F} {state : Writers ι ω}
    (h : state.Sound semantics path calls initial) (hreliable : semantics.Reliable paths)
    (hpaths : ∀ i, path i ∈ paths)
    (hseparate : SeparateCalls (fun i => semantics.fileOf (path i)) calls) (schedule : List ι) :
    (state.run system schedule).Sound semantics path calls initial := by
  induction schedule generalizing state with
  | nil => exact h
  | cons who rest ih => exact ih (h.step hreliable hpaths hseparate who)

/-- A process has at most as many system calls left as it had, less those it was scheduled. -/
theorem Writers.Sound.callsLeft_run {initial : FileView F} {state : Writers ι ω}
    (h : state.Sound semantics path calls initial) (hreliable : semantics.Reliable paths)
    (hpaths : ∀ i, path i ∈ paths)
    (hseparate : SeparateCalls (fun i => semantics.fileOf (path i)) calls) (schedule : List ι)
    (i : ι) :
    ((state.run system schedule).process i).callsLeft ≤
      (state.process i).callsLeft - schedule.count i := by
  induction schedule generalizing state with
  | nil => exact Nat.le_refl _
  | cons who rest ih =>
    have hrest := ih (h.step hreliable hpaths hseparate who)
    have hmove := (h.advance hreliable hpaths who).callsLeft
    rw [Writers.run, List.foldl_cons, ← Writers.run]
    by_cases hi : i = who
    · subst hi
      simp only [Writers.step, Function.update_self] at hrest
      rw [List.count_cons_self]
      simp only [Writers.step] at hrest ⊢
      omega
    · simp only [Writers.step, Function.update_of_ne hi] at hrest
      rw [List.count_cons_of_ne (Ne.symm hi)]
      exact hrest

/-- Processes that start together are sound after any schedule, and each has finished its calls
once it was scheduled for two system calls a call and two more. -/
theorem writers_run (hreliable : semantics.Reliable paths) (hpaths : ∀ i, path i ∈ paths)
    (hseparate : SeparateCalls (fun i => semantics.fileOf (path i)) calls) (os : ω)
    (schedule : List ι) :
    ((Writers.init path calls os).run system schedule).Sound semantics path calls
        (semantics.view os) ∧
      ∀ i, 2 * (calls i).length + 2 ≤ schedule.count i →
        (((Writers.init path calls os).run system schedule).process i).finished = calls i := by
  have hinit : (Writers.init path calls os).Sound semantics path calls (semantics.view os) :=
    ⟨fun _ => rfl, writersInv_init _ path calls _⟩
  have hsound := hinit.run hreliable hpaths hseparate schedule
  refine ⟨hsound, ?_⟩
  intro i hcount
  have hstart : ((Writers.init path calls os).process i).callsLeft ≤
      2 * (calls i).length + 2 := by
    simp only [Writers.init, WriterProcess.init, WriterProcess.callsLeft]
    split
    · exact Nat.zero_le _
    · rename_i call rest hcalls
      rw [hcalls, List.length_cons]
      omega
  have hleft := hinit.callsLeft_run hreliable hpaths hseparate schedule i
  have hpending := WriterProcess.pending_eq_nil (hsound.inv.opened i).unraised (by omega)
  have hplan := hsound.inv.plan i
  rwa [hpending, List.append_nil] at hplan

end Runs

section Engine

variable {ω : Type} {system : PosixSystem ω}

/-- What the direct I/O adapter does in a write that succeeds. -/
theorem posixWrite_calls {adapter next : PosixDirectIOAdapter ω} {target : TargetDescriptor}
    {offset count : ℕ} {payload : DirectBuffer (List Byte)}
    (h : adapter.write system target offset payload = (.ok count, next)) :
    ∃ fd opened sought, assertAlignment payload 4096 = none ∧
      adapter.getOrOpenFd system target = (.ok fd, opened) ∧
        system.lseek opened.os fd offset = (.ok (), sought) ∧
        system.write sought fd payload.view = (.ok count, next.os) ∧ next.fds = opened.fds := by
  simp only [PosixDirectIOAdapter.write] at h
  split at h
  · cases h
  · rename_i haligned
    split at h
    · cases h
    · rename_i fd opened hfd
      split at h
      · cases h
      · rename_i sought hseek
        split at h
        · cases h
        · rename_i written hwrite
          cases h
          exact ⟨fd, opened, sought, haligned, hfd, hseek, hwrite, rfl⟩

/-- Make system calls of one process only. -/
def WriterProcess.alone (system : PosixSystem ω) (count : ℕ) (process : WriterProcess) (os : ω) :
    WriterProcess × ω :=
  (fun state => state.1.advance system state.2)^[count] (process, os)

/-- With its descriptor open, a process makes a call with the adapter's two system calls. -/
theorem alone_write {adapter next : PosixDirectIOAdapter ω} {target : TargetDescriptor} {fd : ℕ}
    {call : WriteCall} {count : ℕ} (finished rest : List WriteCall)
    (hcached : adapter.fds.get? target.resourcePath = some fd)
    (h : adapter.write system target call.offset call.payload = (.ok count, next)) :
    WriterProcess.alone system 2 ⟨target.resourcePath, .opened fd, finished, call :: rest⟩
        adapter.os =
      (⟨target.resourcePath, .opened fd, finished ++ [call], rest⟩, next.os) ∧
      next.fds.get? target.resourcePath = some fd := by
  obtain ⟨opened, after, sought, -, hfd, hseek, hwrite, hfds⟩ := posixWrite_calls h
  simp only [PosixDirectIOAdapter.getOrOpenFd, hcached] at hfd
  obtain ⟨hsame, rfl⟩ := Prod.mk.inj hfd
  obtain rfl := Except.ok.inj hsame
  refine ⟨?_, hfds ▸ hcached⟩
  simp only [WriterProcess.alone, Function.iterate_succ_apply, Function.iterate_zero_apply,
    WriterProcess.advance, hseek, hwrite]

/-- A process that starts takes two more system calls to open its file. -/
theorem alone_open {adapter next : PosixDirectIOAdapter ω} {target : TargetDescriptor} {fd : ℕ}
    {call : WriteCall} (rest : List WriteCall)
    (hcached : adapter.fds.get? target.resourcePath = none)
    (h : adapter.getOrOpenFd system target = (.ok fd, next)) :
    WriterProcess.alone system 2 (WriterProcess.init target.resourcePath (call :: rest))
        adapter.os =
      (⟨target.resourcePath, .opened fd, [], call :: rest⟩, next.os) ∧
      next.fds.get? target.resourcePath = some fd := by
  simp only [PosixDirectIOAdapter.getOrOpenFd, hcached] at h
  split at h
  · cases h
  · rename_i ready hparent
    split at h
    · cases h
    · rename_i opened hopened
      cases h
      refine ⟨?_, by rw [Dict.get?_set, if_pos rfl]⟩
      simp only [WriterProcess.alone, Function.iterate_succ_apply, Function.iterate_zero_apply,
        WriterProcess.advance, WriterProcess.init, hparent, hopened]

/-- System calls made after others. -/
theorem WriterProcess.alone_add (first second : ℕ) (process : WriterProcess) (os : ω) :
    process.alone system (second + first) os =
      (process.alone system first os).1.alone system second (process.alone system first os).2 :=
  Function.iterate_add_apply _ second first (process, os)

/-- With its descriptor open, a process alone does what the adapter does in successful calls. -/
theorem alone_writes {target : TargetDescriptor} {fd : ℕ} (start : ω)
    {adapter : PosixDirectIOAdapter ω} (finished : List WriteCall) {pending : List WriteCall}
    {byteCounts : List ℕ} (hcached : adapter.fds.get? target.resourcePath = some fd)
    (hreplies : writeReplies (posixTargetAdapter system start) target adapter pending =
      repliesOf byteCounts none) :
    WriterProcess.alone system (2 * pending.length)
        ⟨target.resourcePath, .opened fd, finished, pending⟩ adapter.os =
      (⟨target.resourcePath, .opened fd, finished ++ pending, []⟩,
        (adapterAfter (posixTargetAdapter system start) target adapter pending).os) := by
  induction pending generalizing adapter finished byteCounts with
  | nil =>
    rw [List.append_nil]
    rfl
  | cons call rest ih =>
    cases byteCounts with
    | nil => cases hreplies
    | cons count counts =>
      rw [writeReplies, machineOutputs, repliesOf, List.map_cons, List.cons_append,
        List.cons.injEq] at hreplies
      obtain ⟨hanswer, hrest⟩ := hreplies
      obtain ⟨next, hwrite⟩ : ∃ next,
          adapter.write system target call.offset call.payload = (.ok count, next) :=
        ⟨_, Prod.ext hanswer rfl⟩
      have hfirst : answerWrite (posixTargetAdapter system start) target adapter call =
          (.ok count, next) := hwrite
      rw [hfirst] at hrest
      obtain ⟨hcall, hnext⟩ := alone_write finished rest hcached hwrite
      have hafter : adapterAfter (posixTargetAdapter system start) target adapter (call :: rest) =
          adapterAfter (posixTargetAdapter system start) target next rest := by
        rw [adapterAfter, machineState, List.foldl_cons, hfirst]
        rfl
      rw [List.length_cons, Nat.mul_succ, WriterProcess.alone_add, hcall, hafter,
        ih (finished ++ [call]) hnext hrest, List.append_assoc, List.singleton_append]

/-- A write does not depend on whether the descriptor was got before. -/
theorem write_opened {adapter opened : PosixDirectIOAdapter ω} {target : TargetDescriptor} {fd : ℕ}
    (hcached : opened.fds.get? target.resourcePath = some fd)
    (h : adapter.getOrOpenFd system target = (.ok fd, opened)) (offset : ℕ)
    {payload : DirectBuffer (List Byte)} (haligned : assertAlignment payload 4096 = none) :
    opened.write system target offset payload = adapter.write system target offset payload := by
  have hopened : opened.getOrOpenFd system target = (.ok fd, opened) := by
    simp only [PosixDirectIOAdapter.getOrOpenFd, hcached]
  simp only [PosixDirectIOAdapter.write, haligned, h, hopened]

/-- A process alone does what a new adapter does in successful calls. -/
theorem alone_calls {target : TargetDescriptor} (os : ω) {calls : List WriteCall}
    {byteCounts : List ℕ} (hcalls : calls ≠ [])
    (hreplies : writeReplies (posixTargetAdapter system os) target (PosixDirectIOAdapter.init os)
      calls = repliesOf byteCounts none) :
    ∃ fd, WriterProcess.alone system (2 * calls.length + 2)
        (WriterProcess.init target.resourcePath calls) os =
      (⟨target.resourcePath, .opened fd, calls, []⟩,
        (adapterAfter (posixTargetAdapter system os) target (PosixDirectIOAdapter.init os)
          calls).os) := by
  cases calls with
  | nil => exact absurd rfl hcalls
  | cons call rest =>
    have hfirst := congrArg List.head? hreplies
    cases byteCounts with
    | nil => cases hreplies
    | cons count counts =>
      obtain ⟨next, hwrite⟩ : ∃ next, (PosixDirectIOAdapter.init os).write system target
          call.offset call.payload = (.ok count, next) :=
        ⟨_, Prod.ext (Option.some.inj hfirst) rfl⟩
      obtain ⟨fd, opened, -, haligned, hfd, -⟩ := posixWrite_calls hwrite
      obtain ⟨hopen, hcached⟩ := alone_open rest rfl hfd
      have hsame : answerWrite (posixTargetAdapter system os) target opened call =
          answerWrite (posixTargetAdapter system os) target (PosixDirectIOAdapter.init os) call :=
        write_opened hcached hfd call.offset haligned
      have hafter : adapterAfter (posixTargetAdapter system os) target opened (call :: rest) =
          adapterAfter (posixTargetAdapter system os) target (PosixDirectIOAdapter.init os)
            (call :: rest) := by
        rw [adapterAfter, adapterAfter, machineState, machineState, List.foldl_cons,
          List.foldl_cons, hsame]
      rw [writeReplies, machineOutputs, ← hsame, ← machineOutputs, ← writeReplies] at hreplies
      refine ⟨fd, ?_⟩
      have halone := alone_writes os [] hcached hreplies
      change WriterProcess.alone system (2 * (rest.length + 1) + 2) _
        (PosixDirectIOAdapter.init os).os = _
      rw [WriterProcess.alone_add, hopen, ← hafter]
      exact halone

end Engine

end Steve.Orchestrator
