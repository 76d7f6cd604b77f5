import RtThread.Std.Machine

/-!
# Simulations

One machine simulates another when each step of the other is matched by steps which show the same
events and keep a relation between the states.
-/

namespace RtThread.Std

universe u u' v v' w

namespace Machine

variable {State : Type u} {Action : Type v} {Event : Type w} {State' : Type u'} {Action' : Type v'}
  {machine : Machine State Action Event} {machine' : Machine State' Action' Event}
  {allowed : State → Action → Prop} {allowed' : State' → Action' → Prop}
  {start state : State} {start' : State'} {actions : List Action} {events : List Event}

/-- Every run of a machine is matched by a run of one that simulates it step by step. -/
theorem Run.simulated (run : machine.Run allowed start actions events state)
    (Related : State → State' → Prop) (act : Action → Action') (initial : Related start start')
    (matched : ∀ state action next emitted state', Related state state' → allowed state action →
      machine.step state action = some (next, emitted) →
        ∃ next', allowed' state' (act action) ∧
          machine'.step state' (act action) = some (next', emitted) ∧ Related next next') :
    ∃ state', machine'.Run allowed' start' (actions.map act) events state' ∧
      Related state state' := by
  induction run with
  | nil => exact ⟨start', .nil, initial⟩
  | snoc _ admitted transition ih =>
      obtain ⟨before', prior', related⟩ := ih
      obtain ⟨next', admitted', transition', related'⟩ :=
        matched _ _ _ _ _ related admitted transition
      refine ⟨next', ?_, related'⟩
      rw [List.map_append]
      exact prior'.snoc admitted' transition'

end Machine

end RtThread.Std
