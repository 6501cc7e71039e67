import Mathlib.Data.Set.Lattice
import Mathlib.Order.CompletePartialOrder
import Steve.Adapters.RingRefinement
import Steve.Library.Interleaving

/-!
# Tasks sharing an adapter

The tasks of an event loop take turns on one adapter: they share its descriptor cache, its
rings, and the cursors of its descriptors, and any of them may flush or close it. As long as
each task keeps to resources of its own, it gets the answers, and leaves the files, that it
would alone, on either adapter and on either path of the second.
-/

namespace Steve.Adapters

open Steve.Library

/-- A call on one of the given paths, if it names one. -/
def StoreCall.On (paths : Set String) : StoreCall → Prop
  | .write target _ _ => target.resourcePath ∈ paths
  | .read target _ _ => target.resourcePath ∈ paths
  | .flush target => target.resourcePath ∈ paths
  | .close => True

/-- An aligned call is on one of its paths. -/
theorem StoreCall.Aligned.on {paths : Set String} {call : StoreCall} (h : call.Aligned paths) :
    call.On paths := by
  cases call with
  | write target offset payload => exact h.1
  | read target offset buffer => exact h.1
  | flush target => exact h
  | close => trivial

/-- An aligned call on some paths is one on more. -/
theorem StoreCall.Aligned.mono {paths more : Set String} {call : StoreCall}
    (h : call.Aligned paths) (hsub : paths ⊆ more) : call.Aligned more := by
  cases call with
  | write target offset payload => exact ⟨hsub h.1, h.2⟩
  | read target offset buffer => exact ⟨hsub h.1, h.2⟩
  | flush target => exact hsub h
  | close => trivial

/-- Stores alike on the paths of a call answer it alike and stay alike there. -/
theorem referenceStep_congr {paths : Set String} {call : StoreCall} (hcall : call.On paths)
    {store store' : String → List Byte} (h : Set.EqOn store store' paths) :
    (referenceStep store call).1 = (referenceStep store' call).1 ∧
      Set.EqOn (referenceStep store call).2 (referenceStep store' call).2 paths := by
  cases call with
  | write target offset payload =>
    refine ⟨rfl, ?_⟩
    intro path hpath
    simp only [referenceStep, h hcall]
    by_cases hsame : path = target.resourcePath
    · rw [hsame, Function.update_self, Function.update_self]
    · rw [Function.update_of_ne hsame, Function.update_of_ne hsame]
      exact h hpath
  | read target offset buffer =>
    simp only [referenceStep, h hcall]
    exact ⟨trivial, h⟩
  | flush target => exact ⟨rfl, h⟩
  | close => exact ⟨rfl, h⟩

/-- A call leaves the store on paths that are not its own. -/
theorem referenceStep_frame {paths others : Set String} (hdisjoint : Disjoint paths others)
    {call : StoreCall} (hcall : call.On others) (store : String → List Byte) :
    Set.EqOn (referenceStep store call).2 store paths := by
  cases call with
  | write target offset payload =>
    intro path hpath
    have hne : path ≠ target.resourcePath := by
      rintro rfl
      exact Set.disjoint_left.mp hdisjoint hpath hcall
    exact Function.update_of_ne hne _ _
  | read target offset buffer => exact Set.eqOn_refl _ _
  | flush target => exact Set.eqOn_refl _ _
  | close => exact Set.eqOn_refl _ _

section Backed

variable {S I ι : Type} [DecidableEq ι]

/-- A machine that serves calls as a store does, which it represents. -/
structure StoreBacked (machine : S → I → StoreAnswer × S) (call : I → StoreCall)
    (content : S → String → List Byte) (paths : Set String) (Valid : I → Prop)
    (Represents : S → (String → List Byte) → Prop) : Prop where
  step : ∀ state store input, Represents state store → Valid input →
    (machine state input).1 = (referenceStep store (call input)).1 ∧
      Represents (machine state input).2 (referenceStep store (call input)).2
  content : ∀ state store, Represents state store → Set.EqOn (content state) store paths

/-- Each task gets the answers, and leaves the files, that it would alone. -/
def Isolated (machine : S → I → StoreAnswer × S) (content : S → String → List Byte)
    (owned : ι → Set String) (initial : S) (schedule : List (ι × I)) : Prop :=
  ∀ task, ownOutputs machine task initial schedule =
      machineOutputs machine initial (ownInputs task schedule) ∧
    Set.EqOn (content (scheduleState machine initial schedule))
      (content (machineState machine initial (ownInputs task schedule))) (owned task)

variable {machine : S → I → StoreAnswer × S} {call : I → StoreCall}
  {content : S → String → List Byte} {paths : Set String} {Valid : I → Prop}
  {Represents : S → (String → List Byte) → Prop}

/-- On a machine backed by a store, tasks that keep to resources of their own are isolated. -/
theorem StoreBacked.isolated
    (hbacked : StoreBacked machine call content paths Valid Represents) {owned : ι → Set String}
    (howned : ∀ task, owned task ⊆ paths)
    (hdisjoint : ∀ task other, task ≠ other → Disjoint (owned task) (owned other))
    {schedule : List (ι × I)}
    (hcalls : ∀ entry ∈ schedule, Valid entry.2 ∧ (call entry.2).On (owned entry.1))
    {initial : S} {store : String → List Byte} (hinitial : Represents initial store) :
    Isolated machine content owned initial schedule := by
  intro task
  let Rel (state own : S) : Prop := ∃ store store', Represents state store ∧
    Represents own store' ∧ Set.EqOn store store' (owned task)
  have hown : ∀ state own input, Rel state own →
      Valid input ∧ (call input).On (owned task) →
        (machine state input).1 = (machine own input).1 ∧
          Rel (machine state input).2 (machine own input).2 := by
    rintro state own input ⟨store, store', hstate, hstate', hsame⟩ ⟨hvalid, hcall⟩
    obtain ⟨hanswer, hnext⟩ := hbacked.step state store input hstate hvalid
    obtain ⟨hanswer', hnext'⟩ := hbacked.step own store' input hstate' hvalid
    obtain ⟨halike, hafter⟩ := referenceStep_congr hcall hsame
    exact ⟨hanswer.trans (halike.trans hanswer'.symm), _, _, hnext, hnext', hafter⟩
  have hother : ∀ state own who input, who ≠ task → Rel state own →
      Valid input ∧ (call input).On (owned who) → Rel (machine state input).2 own := by
    rintro state own who input hwho ⟨store, store', hstate, hstate', hsame⟩ ⟨hvalid, hcall⟩
    obtain ⟨-, hnext⟩ := hbacked.step state store input hstate hvalid
    have hframe := referenceStep_frame (hdisjoint task who (Ne.symm hwho)) hcall store
    exact ⟨_, store', hnext, hstate', hframe.trans hsame⟩
  obtain ⟨hanswers, final, final', hfinal, hfinal', hsame⟩ :=
    ownOutputs_simulation task Rel (fun entry => Valid entry.2 ∧ (call entry.2).On (owned entry.1))
      hown hother hcalls ⟨store, store, hinitial, hinitial, Set.eqOn_refl _ _⟩
  refine ⟨hanswers, ?_⟩
  have hcontent := (hbacked.content _ _ hfinal).mono (howned task)
  have hcontent' := (hbacked.content _ _ hfinal').mono (howned task)
  exact hcontent.trans (hsame.trans hcontent'.symm)

end Backed

section Adapters

variable {ω : Type} {F : Type} [DecidableEq F] {system : PosixSystem ω}
  (semantics : FileSemantics F system.toOperatingSystem) {paths : Set String}

/-- The direct I/O adapter is backed by the store of its files. -/
theorem posix_storeBacked (hreliable : semantics.Reliable paths)
    (hdistinct : Set.InjOn semantics.fileOf paths) :
    StoreBacked (posixStep system) id (fun adapter => storeOf semantics adapter.os) paths
      (StoreCall.Aligned paths) (PosixRepresents semantics paths) where
  step := fun _ _ _ h haligned => h.step hreliable hdistinct haligned
  content := fun _ _ h => h.represents.content

/-- The second adapter without a ring is. -/
theorem fallback_storeBacked (hreliable : semantics.Reliable paths)
    (hdistinct : Set.InjOn semantics.fileOf paths) :
    StoreBacked (ioUringStep system.toOperatingSystem) Prod.snd
      (fun adapter => storeOf semantics adapter.os) paths
      (fun input => input.2.Aligned paths) (FallbackRepresents semantics paths) where
  step := fun _ _ _ h haligned => h.step hreliable hdistinct haligned
  content := fun _ _ h => h.represents.content

/-- The second adapter on a ring is, for calls that nothing disturbs. -/
theorem ring_storeBacked (hreliable : semantics.Reliable paths)
    (hdistinct : Set.InjOn semantics.fileOf paths) {kernel : RingKernel ω}
    (hkernel : kernel.Performs semantics) :
    StoreBacked (ringStep system.toOperatingSystem kernel) Prod.snd
      (fun adapter => storeOf semantics adapter.os) paths (Undisturbed paths)
      (fun adapter store => ∃ initialized,
        RingRepresents semantics paths adapter (initialized, store)) where
  step := by
    rintro adapter store input ⟨initialized, h⟩ hundisturbed
    obtain ⟨hanswer, hnext⟩ := h.step hreliable hdistinct hkernel hundisturbed.accepted
    obtain ⟨halike, hstore⟩ :=
      ringReferenceStep_undisturbed system.strerror (initialized, store) hundisturbed
    refine ⟨hanswer.trans halike,
      (ringReferenceStep system.strerror (initialized, store) input).2.1, ?_⟩
    change _ = (referenceStep store input.2).2 at hstore
    rw [← hstore]
    exact hnext
  content := fun _ _ h => h.choose_spec.represents.content

variable {ι : Type} [DecidableEq ι]

/-- Tasks with resources of their own are isolated on the direct I/O adapter, on the fallback of
the other, and, where nothing disturbs their calls, on its ring. -/
theorem tasks_isolated (hreliable : semantics.Reliable paths)
    (hdistinct : Set.InjOn semantics.fileOf paths) {kernel : RingKernel ω}
    (hkernel : kernel.Performs semantics) (os : ω) (queueDepth : ℕ) {owned : ι → Set String}
    (howned : ∀ task, owned task ⊆ paths)
    (hdisjoint : ∀ task other, task ≠ other → Disjoint (owned task) (owned other))
    (schedule : List (ι × (KernelAnswers × StoreCall)))
    (haligned : ∀ entry ∈ schedule, entry.2.2.Aligned (owned entry.1)) :
    Isolated (posixStep system) (fun adapter => storeOf semantics adapter.os) owned
        (PosixDirectIOAdapter.init os) (schedule.map fun entry => (entry.1, entry.2.2)) ∧
      Isolated (ioUringStep system.toOperatingSystem)
        (fun adapter => storeOf semantics adapter.os) owned
        (IoUringTargetAdapter.init false queueDepth os) schedule ∧
      ((∀ entry ∈ schedule, Undisturbed paths entry.2) →
        Isolated (ringStep system.toOperatingSystem kernel)
          (fun adapter => storeOf semantics adapter.os) owned
          (IoUringTargetAdapter.init true queueDepth os) schedule) := by
  have hempty : Represents semantics paths Dict.empty os (storeOf semantics os) :=
    represents_empty fun _ _ => rfl
  refine ⟨?_, ?_, ?_⟩
  · apply (posix_storeBacked semantics hreliable hdistinct).isolated howned hdisjoint _
      ⟨hempty, rfl⟩
    intro entry hentry
    obtain ⟨given, hgiven, rfl⟩ := List.mem_map.mp hentry
    exact ⟨(haligned given hgiven).mono (howned _), (haligned given hgiven).on⟩
  · apply (fallback_storeBacked semantics hreliable hdistinct).isolated howned hdisjoint _
      ⟨hempty, rfl⟩
    intro entry hentry
    exact ⟨(haligned entry hentry).mono (howned _), (haligned entry hentry).on⟩
  · intro hundisturbed
    apply (ring_storeBacked semantics hreliable hdistinct hkernel).isolated howned hdisjoint _
      ⟨false, hempty, rfl, Ring.empty, rfl, rfl, rfl⟩
    intro entry hentry
    exact ⟨hundisturbed entry hentry, (haligned entry hentry).on⟩

end Adapters

/-- Two tasks with a file each, the second of which closes the adapter between the first one's
write and its read. -/
def twoTaskCalls : List (Bool × (KernelAnswers × StoreCall)) :=
  [(false, (ringAnswers true, .write ⟨"file://a", "a"⟩ (0 * 4096) (pageBuffer 1))),
    (true, (ringAnswers true, .write ⟨"file://b", "b"⟩ (3 * 4096) (pageBuffer 2))),
    (true, (ringAnswers true, .close)),
    (false, (ringAnswers true, .read ⟨"file://a", "a"⟩ (0 * 4096) (pageBuffer 0)))]

/-- They are isolated on a disk on the direct I/O adapter. -/
theorem tasks_isolated_two_files :
    Isolated (posixStep (diskSystem fun _ length => length))
      (fun adapter => storeOf (diskSemantics fun _ length => length) adapter.os)
      (fun task => if task then {"b"} else {"a"}) (PosixDirectIOAdapter.init Disk.empty)
      (twoTaskCalls.map fun entry => (entry.1, entry.2.2)) :=
  (tasks_isolated (diskSemantics fun _ length => length) diskSemantics_reliable
    Function.injective_id.injOn (diskKernel_performs _) Disk.empty 64
    (fun _ => Set.subset_univ _)
    (by
      intro task other hne
      cases task <;> cases other <;>
        simp only [ne_eq, not_true_eq_false, Bool.false_eq_true, if_true, if_false,
          Set.disjoint_singleton_left, Set.mem_singleton_iff] at hne ⊢ <;> decide)
    twoTaskCalls
    (by
      simp only [twoTaskCalls, List.forall_mem_cons]
      exact ⟨⟨rfl, pageBuffer_aligned 0 1⟩, ⟨rfl, pageBuffer_aligned 3 2⟩, trivial,
        ⟨rfl, pageBuffer_aligned 0 0⟩, List.forall_mem_nil _⟩)).1

end Steve.Adapters
