import Mathlib

/-!
# Runs of a deterministic machine

An action fixes everything a step leaves open, so a machine is a partial step
function. `Run` is a finite execution whose every step meets a side condition
on the state before it; the invariant rules turn a fact about one step into a
fact about every run.
-/

namespace RtThread.Std

universe u v w

/-- A partial step function which emits events. An action with no result is not
possible in that state. -/
structure Machine (State : Type u) (Action : Type v) (Event : Type w) where
  step : State → Action → Option (State × List Event)

namespace Machine

variable {State : Type u} {Action : Type v} {Event : Type w}

/-- A finite execution from `start` whose steps all meet `allowed`. -/
inductive Run (machine : Machine State Action Event) (allowed : State → Action → Prop)
    (start : State) : List Action → List Event → State → Prop where
  | nil : Run machine allowed start [] [] start
  | snoc {actions events state action emitted next}
      (prior : Run machine allowed start actions events state)
      (admitted : allowed state action)
      (transition : machine.step state action = some (next, emitted)) :
      Run machine allowed start (actions ++ [action]) (events ++ emitted) next

variable {machine : Machine State Action Event} {allowed allowed' : State → Action → Prop}
  {start state : State} {actions : List Action} {events : List Event}

/-- Relax the side condition of a run. -/
theorem Run.mono (run : machine.Run allowed start actions events state)
    (weaker : ∀ state action, allowed state action → allowed' state action) :
    machine.Run allowed' start actions events state := by
  induction run with
  | nil => exact .nil
  | snoc _ admitted transition ih => exact .snoc ih (weaker _ _ admitted) transition

/-- Continue one run by another. -/
theorem Run.append {middle : State} {actions' : List Action} {events' : List Event}
    (first : machine.Run allowed start actions events middle)
    (second : machine.Run allowed middle actions' events' state) :
    machine.Run allowed start (actions ++ actions') (events ++ events') state := by
  induction second with
  | nil => simpa using first
  | snoc _ admitted transition ih =>
      rw [← List.append_assoc, ← List.append_assoc]
      exact .snoc ih admitted transition

/-- Without actions nothing happens. -/
theorem Run.none (run : machine.Run allowed start [] events state) :
    events = [] ∧ state = start := by
  generalize whole : [] = all at run
  cases run with
  | nil => exact ⟨rfl, rfl⟩
  | snoc => simp at whole

/-- The last step of a run. -/
theorem Run.last {action : Action}
    (run : machine.Run allowed start (actions ++ [action]) events state) :
    ∃ prior before emitted, machine.Run allowed start actions prior before ∧
      allowed before action ∧ machine.step before action = some (state, emitted) ∧
      events = prior ++ emitted := by
  generalize whole : actions ++ [action] = all at run
  cases run with
  | nil => simp at whole
  | snoc prior admitted transition =>
      obtain ⟨rfl, last⟩ := List.append_inj' whole rfl
      obtain rfl := List.singleton_inj.mp last
      exact ⟨_, _, _, prior, admitted, transition, rfl⟩

/-- What holds at the start and is preserved by every admitted step holds at the
end of every run. -/
theorem Run.invariant {Inv : State → Prop} (run : machine.Run allowed start actions events state)
    (initial : Inv start)
    (preserved : ∀ state action next emitted, Inv state → allowed state action →
      machine.step state action = some (next, emitted) → Inv next) : Inv state := by
  induction run with
  | nil => exact initial
  | snoc _ admitted transition ih => exact preserved _ _ _ _ ih admitted transition

/-- The invariant rule for facts which also mention the events emitted so far. -/
theorem Run.history {Inv : List Event → State → Prop}
    (run : machine.Run allowed start actions events state) (initial : Inv [] start)
    (preserved : ∀ events state action next emitted, Inv events state → allowed state action →
      machine.step state action = some (next, emitted) → Inv (events ++ emitted) next) :
    Inv events state := by
  induction run with
  | nil => exact initial
  | snoc _ admitted transition ih => exact preserved _ _ _ _ _ ih admitted transition

/-- Execute a list of actions, collecting the events. -/
def execute (machine : Machine State Action Event) (start : State) :
    List Action → Option (State × List Event)
  | [] => some (start, [])
  | action :: actions => do
      let (next, emitted) ← machine.step start action
      let (final, events) ← machine.execute next actions
      pure (final, emitted ++ events)

/-- Execute one action and then the others. -/
theorem execute_cons {action : Action} {next : State} {emitted : List Event}
    (step : machine.step start action = some (next, emitted))
    (rest : machine.execute next actions = some (state, events)) :
    machine.execute start (action :: actions) = some (state, emitted ++ events) := by
  simp [execute, step, rest]

/-- Execute some actions and then others. -/
theorem execute_append {middle : State} {actions' : List Action} {events' : List Event}
    (first : machine.execute start actions = some (middle, events))
    (second : machine.execute middle actions' = some (state, events')) :
    machine.execute start (actions ++ actions') = some (state, events ++ events') := by
  induction actions generalizing start events with
  | nil =>
      obtain ⟨rfl, rfl⟩ := Prod.mk.inj (Option.some_inj.mp first)
      exact second
  | cons action actions ih =>
      simp only [execute, Option.bind_eq_bind, Option.bind_eq_some_iff] at first
      obtain ⟨⟨next, emitted⟩, transition, ⟨final, rest⟩, tail, done⟩ := first
      simp only [Option.pure_def, Option.some.injEq, Prod.mk.injEq] at done
      obtain ⟨rfl, rfl⟩ := done
      rw [List.cons_append, List.append_assoc]
      exact execute_cons transition (ih tail)

/-- A run is what its actions execute to. -/
theorem Run.execute (run : machine.Run allowed start actions events state) :
    machine.execute start actions = some (state, events) := by
  induction run with
  | nil => rfl
  | snoc _ _ transition ih =>
      refine execute_append ih ?_
      simp [Machine.execute, transition]

/-- The actions determine the events and the last state. -/
theorem Run.unique {events' : List Event} {state' : State}
    (run : machine.Run allowed start actions events state)
    (run' : machine.Run allowed' start actions events' state') :
    events = events' ∧ state = state' := by
  have same := run.execute.symm.trans run'.execute
  obtain ⟨rfl, rfl⟩ := Prod.mk.inj (Option.some_inj.mp same)
  exact ⟨rfl, rfl⟩

/-- When the steps that emit good events only are those that meet a side condition, the
runs whose events are all good are those whose steps all meet it. -/
theorem Run.good_iff {Inv : State → Prop} {Good : Event → Prop}
    (run : machine.Run allowed start actions events state) (initial : Inv start)
    (preserved : ∀ state action next emitted, Inv state → allowed state action →
      machine.step state action = some (next, emitted) →
        Inv next ∧ ((∀ event ∈ emitted, Good event) ↔ allowed' state action)) :
    (∀ event ∈ events, Good event) ↔ machine.Run allowed' start actions events state := by
  have kept : ∀ {actions events state}, machine.Run allowed start actions events state →
      Inv state := fun run => run.invariant initial
    fun state action next emitted inv admitted transition =>
      (preserved state action next emitted inv admitted transition).1
  induction run with
  | nil => exact ⟨fun _ => .nil, fun _ => by simp⟩
  | @snoc actions events state action emitted next prior admitted transition ih =>
      have single := (preserved _ _ _ _ (kept prior) admitted transition).2
      rw [List.forall_mem_append]
      refine (and_congr ih single).trans ⟨?_, ?_⟩
      · rintro ⟨run, admitted'⟩
        exact .snoc run admitted' transition
      · intro run
        obtain ⟨events', before, emitted', prior', admitted', -, -⟩ := run.last
        obtain ⟨rfl, rfl⟩ := prior.unique prior'
        exact ⟨prior', admitted'⟩

/-- A successful execution is a run of every side condition that its actions
meet in all states. -/
theorem run_of_execute (admitted : ∀ action ∈ actions, ∀ state, allowed state action)
    (success : machine.execute start actions = some (state, events)) :
    machine.Run allowed start actions events state := by
  induction actions generalizing start events with
  | nil =>
      simp only [execute, Option.some.injEq, Prod.mk.injEq] at success
      obtain ⟨rfl, rfl⟩ := success
      exact .nil
  | cons action actions ih =>
      simp only [execute, Option.bind_eq_bind, Option.bind_eq_some_iff] at success
      obtain ⟨⟨next, emitted⟩, transition, ⟨final, rest⟩, tail, done⟩ := success
      simp only [Option.pure_def, Option.some.injEq, Prod.mk.injEq] at done
      obtain ⟨rfl, rfl⟩ := done
      have first : machine.Run allowed start [action] emitted next := by
        simpa using Run.snoc .nil (admitted action (by simp) start) transition
      exact first.append (ih (fun other member => admitted other (by simp [member])) tail)

/-- The machine which refuses the steps that are not allowed. -/
def restrict (machine : Machine State Action Event) (allowed : State → Action → Prop)
    [∀ state action, Decidable (allowed state action)] : Machine State Action Event where
  step state action := if allowed state action then machine.step state action else none

/-- What the restricted machine executes, the machine executes. -/
theorem execute_of_restrict [∀ state action, Decidable (allowed state action)]
    (success : (machine.restrict allowed).execute start actions = some (state, events)) :
    machine.execute start actions = some (state, events) := by
  induction actions generalizing start events with
  | nil => exact success
  | cons action actions ih =>
      simp only [execute, Option.bind_eq_bind, Option.bind_eq_some_iff] at success
      obtain ⟨⟨next, emitted⟩, transition, ⟨final, rest⟩, tail, done⟩ := success
      simp only [Option.pure_def, Option.some.injEq, Prod.mk.injEq] at done
      obtain ⟨rfl, rfl⟩ := done
      obtain ⟨-, transition⟩ := Option.ite_none_right_eq_some.mp transition
      exact execute_cons transition (ih tail)

/-- A successful execution of the restricted machine is a run that is allowed. -/
theorem run_of_execute_restrict [∀ state action, Decidable (allowed state action)]
    (success : (machine.restrict allowed).execute start actions = some (state, events)) :
    machine.Run allowed start actions events state := by
  have run : (machine.restrict allowed).Run (fun _ _ => True) start actions events state :=
    run_of_execute (by simp) success
  clear success
  induction run with
  | nil => exact .nil
  | snoc _ _ transition ih =>
      obtain ⟨admitted, transition⟩ := Option.ite_none_right_eq_some.mp transition
      exact .snoc ih admitted transition

/-- The machine which also emits notes on each step it takes. -/
def annotate {Note : Type w} (machine : Machine State Action Event)
    (notes : State → Action → List Note) : Machine State Action (Note ⊕ Event) where
  step state action := (machine.step state action).map fun (next, emitted) =>
    (next, (notes state action).map Sum.inl ++ emitted.map Sum.inr)

variable {Note : Type w} {notes : State → Action → List Note} {annotated : List (Note ⊕ Event)}

theorem annotate_step {action : Action} {next : State} {emitted : List (Note ⊕ Event)}
    (step : (machine.annotate notes).step state action = some (next, emitted)) :
    ∃ shown, machine.step state action = some (next, shown) ∧
      emitted = (notes state action).map Sum.inl ++ shown.map Sum.inr := by
  obtain ⟨⟨next, shown⟩, transition, done⟩ := Option.map_eq_some_iff.mp step
  obtain ⟨rfl, rfl⟩ := Prod.mk.inj done
  exact ⟨shown, transition, rfl⟩

theorem left_of_annotated (annotated : List (Note ⊕ Event)) (noted : List Note)
    (shown : List Event) :
    (annotated ++ (noted.map Sum.inl ++ shown.map Sum.inr)).filterMap Sum.getLeft? =
      annotated.filterMap Sum.getLeft? ++ noted := by
  simp [List.filterMap_append, List.filterMap_map, Function.comp_def]

theorem right_of_annotated (annotated : List (Note ⊕ Event)) (noted : List Note)
    (shown : List Event) :
    (annotated ++ (noted.map Sum.inl ++ shown.map Sum.inr)).filterMap Sum.getRight? =
      annotated.filterMap Sum.getRight? ++ shown := by
  simp [List.filterMap_append, List.filterMap_map, Function.comp_def]

/-- Every run can be annotated. -/
theorem Run.annotate (run : machine.Run allowed start actions events state)
    (notes : State → Action → List Note) :
    ∃ annotated, (machine.annotate notes).Run allowed start actions annotated state ∧
      annotated.filterMap Sum.getRight? = events := by
  induction run with
  | nil => exact ⟨[], .nil, rfl⟩
  | @snoc actions events state action emitted next _ admitted transition ih =>
      obtain ⟨annotated, run, rfl⟩ := ih
      have step : (machine.annotate notes).step state action =
          some (next, (notes state action).map Sum.inl ++ emitted.map Sum.inr) :=
        Option.map_eq_some_iff.mpr ⟨_, transition, rfl⟩
      exact ⟨_, .snoc run admitted step, right_of_annotated ..⟩

end Machine

end RtThread.Std
