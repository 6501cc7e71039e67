import Steve.Adapters.SystemTrace
import Steve.Library.ResourceLedger

/-!
# The table of open descriptors

The operating system keeps a table of open descriptors: opening adds one that was not open,
closing removes one, nothing else changes it. The log of system calls reads as a ledger of
descriptors. A cache accounts for them if the ledger settles to it and everything cached is
open; what follows says which system calls keep such accounts.
-/

namespace Steve.Adapters

open Steve.Library

variable {ω : Type}

/-- The open descriptors of an operating system, as its calls change them. -/
structure DescriptorTable (system : OperatingSystem ω) where
  isOpen : ω → ℕ → Prop
  mkdirParents : ∀ os path fd, isOpen (system.mkdirParents os path).2 fd ↔ isOpen os fd
  openFile_ok : ∀ os path fd next, system.openFile os path = (.ok fd, next) →
    ¬ isOpen os fd ∧ ∀ other, isOpen next other ↔ other = fd ∨ isOpen os other
  openFile_error : ∀ os path e next, system.openFile os path = (.error e, next) →
    ∀ fd, isOpen next fd ↔ isOpen os fd
  lseek : ∀ os fd offset other, isOpen (system.lseek os fd offset).2 other ↔ isOpen os other
  write : ∀ os fd bytes other, isOpen (system.write os fd bytes).2 other ↔ isOpen os other
  read : ∀ os fd size other, isOpen (system.read os fd size).2 other ↔ isOpen os other
  fsync : ∀ os fd other, isOpen (system.fsync os fd).2 other ↔ isOpen os other
  closeFile : ∀ os fd other, isOpen (system.closeFile os fd).2 other ↔
    other ≠ fd ∧ isOpen os other

/-- The same for a POSIX system, whose two ways of reading into a buffer keep the table. -/
structure PosixDescriptorTable (system : PosixSystem ω) extends
    DescriptorTable system.toOperatingSystem where
  readv : ∀ transfer, system.readv = some transfer →
    ∀ os fd size other, isOpen (transfer os fd size).2 other ↔ isOpen os other
  readinto : ∀ os fd size other, isOpen (system.readinto os fd size).2 other ↔ isOpen os other

/-- What a logged call means for the descriptors: an opening acquires one under its path, a
close releases one. -/
def SystemEvent.ledgerEntry (event : SystemEvent) : Option (LedgerEntry String ℕ) :=
  match event.call with
  | .openFile path (some fd) => some (.acquire path fd)
  | .closeFile fd => some (.release fd)
  | _ => none

/-- The log of an adapter's system calls as a ledger of descriptors. -/
def descriptorLedger (log : List SystemEvent) : List (LedgerEntry String ℕ) :=
  log.filterMap SystemEvent.ledgerEntry

/-- One more logged call adds its entry, if it has one. -/
theorem descriptorLedger_concat (log : List SystemEvent) (event : SystemEvent) :
    descriptorLedger (log ++ [event]) = descriptorLedger log ++ event.ledgerEntry.toList := by
  rw [descriptorLedger, List.filterMap_append, ← descriptorLedger]
  cases hentry : event.ledgerEntry with
  | none => rw [List.filterMap_cons_none hentry]; rfl
  | some entry => rw [List.filterMap_cons_some hentry]; rfl

/-- The descriptors of an adapter are accounted for: those opened and not yet closed are the
cached ones, each under the path it was opened for, and open. -/
structure Accounts {system : OperatingSystem ω} (table : DescriptorTable system)
    (os : ω × List SystemEvent) (fds : Dict String ℕ) : Prop where
  settled : settle (descriptorLedger os.2) = some fds.entries
  areOpen : ∀ entry ∈ fds.entries, table.isOpen os.1 entry.2

/-- The operating system has changed no descriptor. -/
structure Quiet {system : OperatingSystem ω} (table : DescriptorTable system)
    (before after : ω × List SystemEvent) : Prop where
  ledger : descriptorLedger after.2 = descriptorLedger before.2
  isOpen : ∀ fd, table.isOpen after.1 fd ↔ table.isOpen before.1 fd

section Table

variable {system : OperatingSystem ω} {table : DescriptorTable system}

theorem Quiet.refl (os : ω × List SystemEvent) : Quiet table os os := ⟨rfl, fun _ => Iff.rfl⟩

theorem Quiet.trans {first second third : ω × List SystemEvent} (h : Quiet table first second)
    (h' : Quiet table second third) : Quiet table first third :=
  ⟨h'.ledger.trans h.ledger, fun fd => (h'.isOpen fd).trans (h.isOpen fd)⟩

/-- Where no descriptor changes, they stay accounted for. -/
theorem Accounts.of_quiet {before after : ω × List SystemEvent} {fds : Dict String ℕ}
    (h : Accounts table before fds) (hquiet : Quiet table before after) :
    Accounts table after fds :=
  ⟨hquiet.ledger ▸ h.settled, fun entry hentry => (hquiet.isOpen _).mpr (h.areOpen entry hentry)⟩

/-- A logged call that neither opens nor closes is quiet if it keeps the table. -/
theorem quiet_logged {α : Type} (call : SystemCall) {os : ω × List SystemEvent}
    (answer : Except OsError α × ω)
    (hcall : ∀ failure, SystemEvent.ledgerEntry ⟨call, failure⟩ = none)
    (hopen : ∀ fd, table.isOpen answer.2 fd ↔ table.isOpen os.1 fd) :
    Quiet table os (logged call os.2 answer).2 := by
  refine ⟨?_, hopen⟩
  rw [logged, descriptorLedger_concat, hcall]
  exact List.append_nil _

/-- Seeking and transferring is quiet if both are. -/
theorem quiet_seekThen {α : Type} (raise : OsError → PyException) {os : ω × List SystemEvent}
    {seek : Except OsError Unit × (ω × List SystemEvent)}
    {transfer : ω × List SystemEvent → Except OsError α × (ω × List SystemEvent)}
    (hseek : Quiet table os seek.2) (htransfer : ∀ state, Quiet table state (transfer state).2) :
    Quiet table os (seekThen raise seek transfer).2 := by
  unfold seekThen
  split
  · exact hseek
  · rename_i sought
    have hboth := hseek.trans (htransfer sought)
    split
    · rename_i heq
      rw [heq] at hboth
      exact hboth
    · rename_i heq
      rw [heq] at hboth
      exact hboth

/-- An opened descriptor was not cached, and is accounted for once it is. -/
theorem Accounts.opened {os next : ω × List SystemEvent} {fds : Dict String ℕ}
    (h : Accounts table os fds) {path : String} {fd : ℕ} (hpath : path ∉ fds.keys)
    (hopen : (tracedOs system).openFile os path = (.ok fd, next)) :
    Accounts table next (fds.set path fd) := by
  cases hanswer : system.openFile os.1 path with
  | mk answer state =>
    simp only [tracedOs, logged, hanswer, Prod.mk.injEq] at hopen
    obtain ⟨rfl, rfl⟩ := hopen
    obtain ⟨hnew, hkept⟩ := table.openFile_ok os.1 path fd state hanswer
    have hfree : fd ∉ fds.entries.map Prod.snd := by
      intro hmem
      obtain ⟨entry, hentry, rfl⟩ := List.mem_map.mp hmem
      exact hnew (h.areOpen entry hentry)
    refine ⟨?_, ?_⟩
    · rw [descriptorLedger_concat, Dict.entries_set_of_notMem _ _ _ hpath]
      exact settle_acquire path h.settled hfree
    · rw [Dict.entries_set_of_notMem _ _ _ hpath]
      intro entry hentry
      rw [hkept]
      rcases List.mem_append.mp hentry with hold | hlast
      · exact Or.inr (h.areOpen entry hold)
      · exact Or.inl (congrArg Prod.snd (List.mem_singleton.mp hlast))

/-- Closing descriptors one after the other releases them. -/
theorem descriptorLedger_closeAll (system : OperatingSystem ω) (os : ω × List SystemEvent)
    (closing : List ℕ) :
    descriptorLedger (closing.foldl (fun os fd => ((tracedOs system).closeFile os fd).2) os).2 =
      descriptorLedger os.2 ++ closing.map .release := by
  induction closing generalizing os with
  | nil => exact (List.append_nil _).symm
  | cons fd rest ih =>
    have hfirst : descriptorLedger ((tracedOs system).closeFile os fd).2.2 =
        descriptorLedger os.2 ++ [.release fd] := descriptorLedger_concat _ _
    rw [List.foldl_cons, ih, hfirst, List.append_assoc]
    rfl

/-- Closing every cached descriptor leaves nothing to account for. -/
theorem Accounts.closedAll {os : ω × List SystemEvent} {fds : Dict String ℕ}
    (h : Accounts table os fds) :
    Accounts table (fds.values.foldl (fun os fd => ((tracedOs system).closeFile os fd).2) os)
      Dict.empty := by
  refine ⟨?_, List.forall_mem_nil _⟩
  have hreleased : fds.values.map LedgerEntry.release =
      fds.entries.map fun entry => LedgerEntry.release (K := String) entry.2 :=
    List.map_map
  rw [descriptorLedger_closeAll, hreleased]
  exact settle_release_all h.settled

/-- Creating a parent directory is quiet. -/
theorem quiet_ensureParent (table : DescriptorTable system) (path : String)
    (os : ω × List SystemEvent) :
    Quiet table os (IoUringTargetAdapter.ensureParent (tracedOs system) path os).2 := by
  unfold IoUringTargetAdapter.ensureParent
  split
  · exact Quiet.refl os
  · exact quiet_logged (.mkdirParents path) _ (fun _ => rfl) (table.mkdirParents os.1 path)

/-- A failed opening is quiet. -/
theorem quiet_openFile {os next : ω × List SystemEvent} {path : String} {e : OsError}
    (table : DescriptorTable system)
    (hopen : (tracedOs system).openFile os path = (.error e, next)) : Quiet table os next := by
  cases hanswer : system.openFile os.1 path with
  | mk answer state =>
    simp only [tracedOs, logged, hanswer, Prod.mk.injEq] at hopen
    obtain ⟨rfl, rfl⟩ := hopen
    refine ⟨?_, table.openFile_error os.1 path e state hanswer⟩
    rw [descriptorLedger_concat]
    exact List.append_nil _

/-- Opening a path that is not cached keeps the accounts, wherever it fails; the descriptor
has to be cached if there is one. -/
theorem Accounts.openMissing {os : ω × List SystemEvent} {fds : Dict String ℕ}
    (h : Accounts table os fds) {path : String} (hpath : path ∉ fds.keys)
    {parent : Except OsError Unit × (ω × List SystemEvent)}
    (hparent : IoUringTargetAdapter.ensureParent (tracedOs system) path os = parent) :
    Accounts table parent.2 fds ∧
      (∀ e next, (tracedOs system).openFile parent.2 path = (.error e, next) →
        Accounts table next fds) ∧
      ∀ fd next, (tracedOs system).openFile parent.2 path = (.ok fd, next) →
        Accounts table next (fds.set path fd) := by
  have hquiet := quiet_ensureParent table path os
  rw [hparent] at hquiet
  have hkept := h.of_quiet hquiet
  exact ⟨hkept, fun e next hopen => hkept.of_quiet (quiet_openFile table hopen),
    fun fd next hopen => hkept.opened hpath hopen⟩

end Table

end Steve.Adapters
