import RtThread.Std.Machine

/-!
# Machines that remember

A machine with the events emitted so far in its state, so that the side condition of
a run, and its invariant, may depend on them. `AtEach` is a condition on every event
that may mention the events before it.
-/

namespace RtThread.Std

universe u v w

namespace Machine

variable {State : Type u} {Action : Type v} {Event : Type w}
  {machine : Machine State Action Event} {start : State} {past events : List Event}

/-- The machine whose states have the events emitted so far. -/
def remember (machine : Machine State Action Event) :
    Machine (State × List Event) Action Event where
  step := fun (state, past) action =>
    (machine.step state action).map fun (next, emitted) => ((next, past ++ emitted), emitted)

theorem remember_step {state final : State × List Event} {action : Action}
    {emitted : List Event} (step : machine.remember.step state action = some (final, emitted)) :
    machine.step state.1 action = some (final.1, emitted) ∧ final.2 = state.2 ++ emitted := by
  obtain ⟨⟨next, shown⟩, transition, made⟩ := Option.map_eq_some_iff.mp step
  obtain ⟨rfl, rfl⟩ := Prod.mk.inj made
  exact ⟨transition, rfl⟩

/-- A run of the machine that remembers is a run, and remembers its events. -/
theorem Run.of_remember {allowed : State × List Event → Action → Prop} {actions : List Action}
    {final : State × List Event}
    (run : machine.remember.Run allowed (start, past) actions events final) :
    machine.Run (fun _ _ => True) start actions events final.1 ∧ final.2 = past ++ events := by
  induction run with
  | nil => exact ⟨.nil, (List.append_nil past).symm⟩
  | snoc _ _ transition ih =>
      obtain ⟨run, remembered⟩ := ih
      obtain ⟨step, more⟩ := remember_step transition
      refine ⟨.snoc run trivial step, ?_⟩
      rw [more, remembered, List.append_assoc]

end Machine

section

variable {Event : Type w} {condition : List Event → Event → Prop} {events more : List Event}
  {event : Event}

/-- Every event meets the condition at the events before it. -/
def AtEach (condition : List Event → Event → Prop) (events : List Event) : Prop :=
  ∀ before event after, events = before ++ event :: after → condition before event

theorem AtEach.nil : AtEach condition [] := by
  intro before event after split
  simp at split

theorem AtEach.snoc (each : AtEach condition events) (last : condition events event) :
    AtEach condition (events ++ [event]) := by
  intro before other after split
  rcases List.eq_nil_or_concat after with rfl | ⟨front, final, rfl⟩
  · obtain ⟨rfl, same⟩ := List.append_inj' split rfl
    obtain rfl := List.singleton_inj.mp same
    exact last
  · rw [List.concat_eq_append, ← List.cons_append, ← List.append_assoc] at split
    exact each before other front (List.append_inj' split rfl).1

end

end RtThread.Std
