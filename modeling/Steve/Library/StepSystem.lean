import Mathlib.Data.List.Basic

/-!
# Runs of a step function

Three kinds of machine are used. A partial step function may refuse an event; its runs
over a schedule are the schedules whose every event is accepted. A loop repeats a body
that may raise and so end it early. A total machine answers each input; its trace keeps,
for each step, the state before, the input, the answer, and the state after. Each kind has
one induction rule, so that a development proves what one step does and takes the whole
run from here.
-/

namespace Steve.Library

section Schedules

variable {S E : Type*}

/-- Feed the events of a schedule to a partial step function, failing at a refused event. -/
def runSchedule (step : S → E → Option S) : S → List E → Option S
  | state, [] => some state
  | state, event :: rest => (step state event).bind fun next => runSchedule step next rest

@[simp] theorem runSchedule_nil (step : S → E → Option S) (state : S) :
    runSchedule step state [] = some state := rfl

/-- A nonempty schedule runs exactly when its first event is accepted and the rest runs. -/
theorem runSchedule_cons_eq_some {step : S → E → Option S} {state final : S} {event : E}
    {rest : List E} :
    runSchedule step state (event :: rest) = some final ↔
      ∃ next, step state event = some next ∧ runSchedule step next rest = some final :=
  Option.bind_eq_some_iff

/-- A schedule in two parts runs the second from where the first leads. -/
theorem runSchedule_append (step : S → E → Option S) (state : S) (first second : List E) :
    runSchedule step state (first ++ second) =
      (runSchedule step state first).bind fun next => runSchedule step next second := by
  induction first generalizing state with
  | nil => rfl
  | cons event rest ih =>
    rw [List.cons_append, runSchedule, runSchedule, Option.bind_assoc]
    simp only [ih]

/-- What one accepted step preserves holds after every run.

The invariant may mention the schedule run so far, so it can compare the state with the
history that produced it. -/
theorem runSchedule_invariant {step : S → E → Option S} {initial : S}
    (Inv : List E → S → Prop) (hinit : Inv [] initial)
    (hstep : ∀ past state event next, Inv past state → step state event = some next →
      Inv (past ++ [event]) next)
    (schedule : List E) (final : S) (hrun : runSchedule step initial schedule = some final) :
    Inv schedule final := by
  suffices h : ∀ (past : List E) (state : S) (rest : List E), Inv past state →
      runSchedule step state rest = some final → Inv (past ++ rest) final by
    simpa using h [] initial schedule hinit hrun
  intro past state rest
  induction rest generalizing past state with
  | nil =>
    intro hinv hrest
    rw [runSchedule_nil, Option.some.injEq] at hrest
    rw [List.append_nil, ← hrest]
    exact hinv
  | cons event rest ih =>
    intro hinv hrest
    obtain ⟨next, hnext, hrest⟩ := runSchedule_cons_eq_some.mp hrest
    simpa using ih (past ++ [event]) next (hstep past state event next hinv hnext) hrest

end Schedules

section Loops

variable {S E : Type*}

/-- Repeat a loop body until a count runs out or the body raises. -/
def repeatUntilRaise (body : S → Option E × S) : ℕ → S → Option E × S
  | 0, state => (none, state)
  | count + 1, state =>
    match body state with
    | (some raised, next) => (some raised, next)
    | (none, next) => repeatUntilRaise body count next

/-- What one execution of the body takes from a state reached without raising to the
state it leaves, raising or not, the whole loop takes there as well. -/
theorem repeatUntilRaise_spec {body : S → Option E × S} (Holds : Option E → S → Prop)
    (hbody : ∀ state, Holds none state → Holds (body state).1 (body state).2) (count : ℕ)
    (state : S) (h : Holds none state) :
    Holds (repeatUntilRaise body count state).1 (repeatUntilRaise body count state).2 := by
  induction count generalizing state with
  | zero => exact h
  | succ count ih =>
    have hnext := hbody state h
    rw [repeatUntilRaise]
    cases hresult : body state with
    | mk raised next =>
      rw [hresult] at hnext
      cases raised with
      | some raised => exact hnext
      | none => exact ih next hnext

/-- A loop that ends without raising adds up what its executions of the body add. -/
theorem repeatUntilRaise_gain {body : S → Option E × S} (measure : S → ℕ) {gain : ℕ}
    (hbody : ∀ state, (body state).1 = none → measure (body state).2 = measure state + gain)
    (count : ℕ) (state : S) (h : (repeatUntilRaise body count state).1 = none) :
    measure (repeatUntilRaise body count state).2 = measure state + count * gain := by
  induction count generalizing state with
  | zero => simp [repeatUntilRaise]
  | succ count ih =>
    have hnext := hbody state
    rw [repeatUntilRaise] at h ⊢
    cases hresult : body state with
    | mk raised next =>
      rw [hresult] at h hnext
      cases raised with
      | some raised => cases h
      | none =>
        simp only at h ⊢
        rw [ih next h, hnext rfl, Nat.add_assoc, Nat.succ_mul, Nat.add_comm gain]

/-- A loop that raises does so before it has used up its count. -/
theorem repeatUntilRaise_lt {body : S → Option E × S} (measure : S → ℕ)
    (hgain : ∀ state, (body state).1 = none → measure (body state).2 = measure state + 1)
    (hraise : ∀ state, (body state).1 ≠ none → measure (body state).2 = measure state)
    (count : ℕ) (state : S) (h : (repeatUntilRaise body count state).1 ≠ none) :
    measure (repeatUntilRaise body count state).2 < measure state + count := by
  induction count generalizing state with
  | zero => exact absurd rfl h
  | succ count ih =>
    have hkept := hraise state
    have hnext := hgain state
    rw [repeatUntilRaise] at h ⊢
    cases hresult : body state with
    | mk raised next =>
      rw [hresult] at h hnext hkept
      cases raised with
      | some raised =>
        have hsame : measure next = measure state := hkept (Option.some_ne_none raised)
        change measure next < _
        omega
      | none =>
        have hone : measure next = measure state + 1 := hnext rfl
        have hrest := ih next h
        change measure (repeatUntilRaise body count next).2 < _
        omega

end Loops

section Traces

variable {S I O : Type*}

/-- One step of a total machine with the states around it. -/
structure TraceEntry (S I O : Type*) where
  before : S
  input : I
  output : O
  after : S

/-- Every step a total machine makes on a sequence of inputs. -/
def machineTrace (machine : S → I → O × S) : S → List I → List (TraceEntry S I O)
  | _, [] => []
  | state, input :: rest =>
    ⟨state, input, (machine state input).1, (machine state input).2⟩ ::
      machineTrace machine (machine state input).2 rest

/-- The steps of a trace take its inputs in turn. -/
@[simp] theorem machineTrace_map_input (machine : S → I → O × S) (state : S) (inputs : List I) :
    (machineTrace machine state inputs).map TraceEntry.input = inputs := by
  induction inputs generalizing state with
  | nil => rfl
  | cons input rest ih => rw [machineTrace, List.map_cons, ih]

/-- The answers of a total machine to a sequence of inputs. -/
def machineOutputs (machine : S → I → O × S) : S → List I → List O
  | _, [] => []
  | state, input :: rest =>
    (machine state input).1 :: machineOutputs machine (machine state input).2 rest

/-- The state a sequence of inputs takes a total machine to. -/
def machineState (machine : S → I → O × S) (state : S) (inputs : List I) : S :=
  inputs.foldl (fun state input => (machine state input).2) state

/-- A machine answers each input once. -/
@[simp] theorem machineOutputs_length (machine : S → I → O × S) (state : S) (inputs : List I) :
    (machineOutputs machine state inputs).length = inputs.length := by
  induction inputs generalizing state with
  | nil => rfl
  | cons input rest ih => simp [machineOutputs, ih]

/-- The answer to a last input is given in the state the others lead to. -/
theorem machineOutputs_concat (machine : S → I → O × S) (state : S) (inputs : List I)
    (input : I) :
    machineOutputs machine state (inputs ++ [input]) =
      machineOutputs machine state inputs ++
        [(machine (machineState machine state inputs) input).1] := by
  induction inputs generalizing state with
  | nil => rfl
  | cons first rest ih =>
    rw [List.cons_append, machineOutputs, machineOutputs, ih]
    rfl

/-- A last input acts on the state the others lead to. -/
theorem machineState_concat (machine : S → I → O × S) (state : S) (inputs : List I)
    (input : I) :
    machineState machine state (inputs ++ [input]) =
      (machine (machineState machine state inputs) input).2 := by
  rw [machineState, List.foldl_concat]
  rfl

/-- What every step from the invariant on a valid input answers, and keeps, holds of every
answer of a run. -/
theorem machineOutputs_forall (machine : S → I → O × S) (Inv : S → Prop) (Valid : I → Prop)
    (Holds : O → Prop)
    (hstep : ∀ state input, Inv state → Valid input →
      Holds (machine state input).1 ∧ Inv (machine state input).2)
    (initial : S) (hinit : Inv initial) (inputs : List I)
    (hvalid : ∀ input ∈ inputs, Valid input) :
    ∀ output ∈ machineOutputs machine initial inputs, Holds output := by
  induction inputs generalizing initial with
  | nil => exact List.forall_mem_nil _
  | cons input rest ih =>
    obtain ⟨hholds, hnext⟩ := hstep initial input hinit (hvalid input List.mem_cons_self)
    rw [machineOutputs, List.forall_mem_cons]
    exact ⟨hholds, ih _ hnext fun later hlater => hvalid later (List.mem_cons_of_mem _ hlater)⟩

/-- Two machines whose steps keep a relation and answer alike give the same answers to every
sequence of valid inputs. -/
theorem machineOutputs_simulation {T J : Type*} {machine : S → I → O × S}
    {reference : T → J → O × T} (relabel : I → J) (Rel : S → T → Prop) (Valid : I → Prop)
    (hstep : ∀ state model input, Rel state model → Valid input →
      (machine state input).1 = (reference model (relabel input)).1 ∧
        Rel (machine state input).2 (reference model (relabel input)).2)
    {state : S} {model : T} (h : Rel state model) {inputs : List I}
    (hvalid : ∀ input ∈ inputs, Valid input) :
    machineOutputs machine state inputs =
      machineOutputs reference model (inputs.map relabel) := by
  induction inputs generalizing state model with
  | nil => rfl
  | cons input rest ih =>
    obtain ⟨hanswer, hnext⟩ := hstep state model input h (hvalid input List.mem_cons_self)
    rw [List.map_cons, machineOutputs, machineOutputs, hanswer,
      ih hnext fun later hlater => hvalid later (List.mem_cons_of_mem _ hlater)]

/-- Along a trace, a step property that re-establishes the invariant holds of every step
exactly when its condition, read in the state before the step, does.

Under the invariant one step has the property if and only if the condition holds of it,
and a step with the property restores the invariant. -/
theorem machineTrace_forall_iff (machine : S → I → O × S) (Inv : S → Prop)
    (Property : TraceEntry S I O → Prop) (Condition : S → I → Prop)
    (hstep : ∀ state input, Inv state →
      (Property ⟨state, input, (machine state input).1, (machine state input).2⟩ ↔
        Condition state input))
    (hrestore : ∀ state input, Inv state →
      Property ⟨state, input, (machine state input).1, (machine state input).2⟩ →
        Inv (machine state input).2)
    (initial : S) (hinit : Inv initial) (inputs : List I) :
    (∀ entry ∈ machineTrace machine initial inputs, Property entry) ↔
      ∀ entry ∈ machineTrace machine initial inputs, Condition entry.before entry.input := by
  induction inputs generalizing initial with
  | nil => simp [machineTrace]
  | cons input rest ih =>
    simp only [machineTrace, List.forall_mem_cons]
    rw [← hstep initial input hinit]
    constructor
    · rintro ⟨hhead, htail⟩
      exact ⟨hhead, (ih _ (hrestore initial input hinit hhead)).mp htail⟩
    · rintro ⟨hhead, htail⟩
      exact ⟨hhead, (ih _ (hrestore initial input hinit hhead)).mpr htail⟩

end Traces

end Steve.Library
