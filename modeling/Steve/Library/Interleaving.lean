import Steve.Library.StepSystem

/-!
# Parties taking turns on one machine

Several parties give their inputs to one total machine, in any order. If a relation between
the machine and a machine of one party's own is kept by the party's inputs, which both answer
alike, and by the inputs of the others, which the own machine never sees, then the party gets
the answers it would get alone.
-/

namespace Steve.Library

variable {S I O ι : Type*} [DecidableEq ι]

/-- The inputs of one party. -/
def ownInputs (party : ι) (schedule : List (ι × I)) : List I :=
  (schedule.filter fun entry => entry.1 = party).map Prod.snd

/-- The answers one party gets. -/
def ownOutputs (machine : S → I → O × S) (party : ι) : S → List (ι × I) → List O
  | _, [] => []
  | state, (who, input) :: rest =>
    if who = party then
      (machine state input).1 :: ownOutputs machine party (machine state input).2 rest
    else ownOutputs machine party (machine state input).2 rest

/-- The state after a schedule. -/
def scheduleState (machine : S → I → O × S) (state : S) (schedule : List (ι × I)) : S :=
  machineState machine state (schedule.map Prod.snd)

/-- A party's first input. -/
@[simp] theorem ownInputs_cons_self (party : ι) (input : I) (rest : List (ι × I)) :
    ownInputs party ((party, input) :: rest) = input :: ownInputs party rest := by
  rw [ownInputs, List.filter_cons_of_pos (by simp)]
  rfl

/-- An input of another party. -/
theorem ownInputs_cons_of_ne {party who : ι} (h : who ≠ party) (input : I) (rest : List (ι × I)) :
    ownInputs party ((who, input) :: rest) = ownInputs party rest := by
  rw [ownInputs, List.filter_cons_of_neg (by simpa using h)]
  rfl

/-- A relation kept by a party's own inputs, answered alike, and by those of the others gives
the party the answers, and leaves the relation to the state, of its inputs alone. -/
theorem ownOutputs_simulation {T : Type*} {machine : S → I → O × S} {alone : T → I → O × T}
    (party : ι) (Rel : S → T → Prop) (Valid : ι × I → Prop)
    (hown : ∀ state own input, Rel state own → Valid (party, input) →
      (machine state input).1 = (alone own input).1 ∧
        Rel (machine state input).2 (alone own input).2)
    (hother : ∀ state own who input, who ≠ party → Rel state own → Valid (who, input) →
      Rel (machine state input).2 own)
    {schedule : List (ι × I)} (hvalid : ∀ entry ∈ schedule, Valid entry) {state : S} {own : T}
    (h : Rel state own) :
    ownOutputs machine party state schedule =
        machineOutputs alone own (ownInputs party schedule) ∧
      Rel (scheduleState machine state schedule)
        (machineState alone own (ownInputs party schedule)) := by
  induction schedule generalizing state own with
  | nil => exact ⟨rfl, h⟩
  | cons entry rest ih =>
    obtain ⟨who, input⟩ := entry
    obtain ⟨hfirst, hrest⟩ := List.forall_mem_cons.mp hvalid
    by_cases hwho : who = party
    · subst hwho
      obtain ⟨hanswer, hnext⟩ := hown state own input h hfirst
      obtain ⟨hanswers, hfinal⟩ := ih hrest hnext
      rw [ownOutputs, if_pos rfl, ownInputs_cons_self, machineOutputs, hanswer, hanswers]
      exact ⟨rfl, hfinal⟩
    · rw [ownOutputs, if_neg hwho, ownInputs_cons_of_ne hwho]
      exact ih hrest (hother state own who input hwho h hfirst)

end Steve.Library
