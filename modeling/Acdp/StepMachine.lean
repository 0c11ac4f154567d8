import Mathlib.Tactic

/-!
# Partial step machines and their runs

A machine has a partial step function; a run follows a list of actions and
is defined when every action is enabled in turn.  Two notions speak about a
whole run: `Throughout` is a property of every state reached along it, and
`Along` is a condition on every step taken, stated on the state before the
step.  The rules below derive the first from the second and, where a step
that breaks the condition also breaks the property, the second from the
first.
-/

namespace Acdp

structure StepMachine (State Action : Type*) where
  step : State → Action → Option State

namespace StepMachine

variable {State Action : Type*}

def run (machine : StepMachine State Action) :
    State → List Action → Option State
  | state, [] => some state
  | state, action :: rest =>
      match machine.step state action with
      | none => none
      | some next => machine.run next rest

/-- Every state reached by the run, the first and the last included, has the
property. -/
def Throughout (machine : StepMachine State Action) (property : State → Prop)
    (state : State) (trace : List Action) : Prop :=
  ∀ before, before <+: trace →
    ∀ reached, machine.run state before = some reached → property reached

def Along (machine : StepMachine State Action)
    (condition : State → Action → Prop) : State → List Action → Prop
  | _, [] => True
  | state, action :: rest =>
      ∀ next, machine.step state action = some next →
        condition state action ∧ machine.Along condition next rest

@[simp] theorem run_nil (machine : StepMachine State Action)
    (state : State) :
    machine.run state [] = some state := rfl

theorem run_cons (machine : StepMachine State Action)
    (state : State) (action : Action) (rest : List Action) :
    machine.run state (action :: rest) =
      (machine.step state action).bind (fun next => machine.run next rest) := by
  simp only [run]
  cases machine.step state action <;> rfl

theorem run_append (machine : StepMachine State Action)
    (state : State) (before after : List Action) :
    machine.run state (before ++ after) =
      (machine.run state before).bind (fun next => machine.run next after) := by
  induction before generalizing state with
  | nil => rfl
  | cons action rest ih =>
      rw [List.cons_append, run_cons, run_cons, Option.bind_assoc]
      congr 1
      funext next
      exact ih next

/-- A run is undefined just when an action is not enabled at its turn. -/
theorem run_eq_none_iff {machine : StepMachine State Action} {state : State}
    {trace : List Action} :
    machine.run state trace = none ↔
      ∃ before action after reached, trace = before ++ action :: after ∧
        machine.run state before = some reached ∧
        machine.step reached action = none := by
  constructor
  · intro hnone
    induction trace generalizing state with
    | nil => cases hnone
    | cons action rest ih =>
        rw [run_cons] at hnone
        cases hstep : machine.step state action with
        | none => exact ⟨[], action, rest, state, rfl, rfl, hstep⟩
        | some next =>
            rw [hstep, Option.bind_some] at hnone
            obtain ⟨before, stopping, after, reached, rfl, hrun, hstop⟩ :=
              ih hnone
            refine ⟨action :: before, stopping, after, reached, rfl, ?_, hstop⟩
            rw [run_cons, hstep]
            exact hrun
  · rintro ⟨before, action, after, reached, rfl, hrun, hstop⟩
    rw [run_append, hrun, Option.bind_some, run_cons, hstop]
    rfl

/-- Some run ends in the state. -/
def Reaches (machine : StepMachine State Action) (state reached : State) :
    Prop :=
  ∃ trace, machine.run state trace = some reached

theorem reaches_refl (machine : StepMachine State Action) (state : State) :
    machine.Reaches state state :=
  ⟨[], rfl⟩

theorem Reaches.next {machine : StepMachine State Action}
    {state reached next : State} (hreached : machine.Reaches state reached)
    {action : Action} (hnext : machine.step reached action = some next) :
    machine.Reaches state next := by
  obtain ⟨trace, hrun⟩ := hreached
  refine ⟨trace ++ [action], ?_⟩
  rw [run_append, hrun, Option.bind_some, run_cons, hnext]
  rfl

theorem Reaches.trans {machine : StepMachine State Action}
    {state reached final : State} (hreached : machine.Reaches state reached)
    (hfinal : machine.Reaches reached final) : machine.Reaches state final := by
  obtain ⟨trace, hrun⟩ := hreached
  obtain ⟨rest, hrest⟩ := hfinal
  refine ⟨trace ++ rest, ?_⟩
  rw [run_append, hrun, Option.bind_some, hrest]

theorem throughout_nil (machine : StepMachine State Action)
    (property : State → Prop) (state : State) :
    machine.Throughout property state [] ↔ property state := by
  constructor
  · intro hthrough
    exact hthrough [] (List.prefix_refl []) state rfl
  · intro hproperty before hbefore reached hrun
    rw [List.prefix_nil.mp hbefore, run_nil, Option.some.injEq] at hrun
    rw [← hrun]
    exact hproperty

theorem throughout_cons (machine : StepMachine State Action)
    (property : State → Prop) (state : State) (action : Action)
    (rest : List Action) :
    machine.Throughout property state (action :: rest) ↔
      property state ∧ ∀ next, machine.step state action = some next →
        machine.Throughout property next rest := by
  constructor
  · intro hthrough
    refine ⟨hthrough [] (List.nil_prefix) state rfl, ?_⟩
    intro next hstep before hbefore reached hrun
    apply hthrough (action :: before)
      (List.cons_prefix_cons.mpr ⟨rfl, hbefore⟩)
    rw [run_cons, hstep]
    exact hrun
  · rintro ⟨hfirst, hrest⟩ before hbefore reached hrun
    cases before with
    | nil =>
        rw [run_nil, Option.some.injEq] at hrun
        rw [← hrun]
        exact hfirst
    | cons head tail =>
        obtain ⟨hhead, htail⟩ := List.cons_prefix_cons.mp hbefore
        subst hhead
        rw [run_cons] at hrun
        cases hstep : machine.step state head with
        | none => simp [hstep] at hrun
        | some next =>
            rw [hstep, Option.bind_some] at hrun
            exact hrest next hstep tail htail reached hrun

/-- A property that every step preserves holds where a run ends. -/
theorem run_invariant
    {machine : StepMachine State Action} {invariant : State → Prop}
    (hkeep : ∀ state action next, invariant state →
      machine.step state action = some next → invariant next)
    {state : State} (hinvariant : invariant state) {trace : List Action}
    {reached : State} (hrun : machine.run state trace = some reached) :
    invariant reached := by
  induction trace generalizing state with
  | nil =>
      rw [run_nil, Option.some.injEq] at hrun
      rw [← hrun]
      exact hinvariant
  | cons action rest ih =>
      rw [run_cons, Option.bind_eq_some_iff] at hrun
      obtain ⟨next, hstep, hrest⟩ := hrun
      exact ih (hkeep state action next hinvariant hstep) hrest

/-- A property of the actions so far and of the state that they led to is
kept by whole runs if each step keeps it. -/
theorem run_history
    {machine : StepMachine State Action}
    (property : List Action → State → Prop)
    (hkeep : ∀ past state action next, property past state →
      machine.step state action = some next → property (past ++ [action]) next)
    {state : State} {past : List Action} (hproperty : property past state)
    {trace : List Action} {reached : State}
    (hrun : machine.run state trace = some reached) :
    property (past ++ trace) reached := by
  induction trace generalizing state past with
  | nil =>
      rw [List.append_nil, ← Option.some.inj hrun]
      exact hproperty
  | cons action rest ih =>
      rw [run_cons, Option.bind_eq_some_iff] at hrun
      obtain ⟨next, hstep, hrest⟩ := hrun
      rw [List.append_cons]
      exact ih (hkeep past state action next hproperty hstep) hrest

theorem Along.cons {machine : StepMachine State Action}
    {condition : State → Action → Prop} {state next : State} {action : Action}
    {rest : List Action} (hstep : machine.step state action = some next)
    (hcondition : condition state action)
    (hrest : machine.Along condition next rest) :
    machine.Along condition state (action :: rest) := by
  intro other hother
  rw [hstep, Option.some.injEq] at hother
  rw [← hother]
  exact ⟨hcondition, hrest⟩

/-- A condition that every step from an invariant state meets is met along
every run. -/
theorem along_of_invariant
    {machine : StepMachine State Action} {invariant : State → Prop}
    {condition : State → Action → Prop}
    (hkeep : ∀ state action next, invariant state →
      machine.step state action = some next → invariant next)
    (hmeet : ∀ state action next, invariant state →
      machine.step state action = some next → condition state action)
    {state : State} (hinvariant : invariant state) (trace : List Action) :
    machine.Along condition state trace := by
  induction trace generalizing state with
  | nil => trivial
  | cons action rest ih =>
      intro next hstep
      exact ⟨hmeet state action next hinvariant hstep,
        ih (hkeep state action next hinvariant hstep)⟩

/-- A condition on the actions alone is met along a run whose actions meet
it. -/
theorem along_of_forall {machine : StepMachine State Action}
    {condition : Action → Prop} {trace : List Action}
    (hcondition : ∀ action ∈ trace, condition action) (state : State) :
    machine.Along (fun _ action => condition action) state trace := by
  induction trace generalizing state with
  | nil => trivial
  | cons action rest ih =>
      obtain ⟨hfirst, hrest⟩ := List.forall_mem_cons.mp hcondition
      intro next _
      exact ⟨hfirst, ih hrest next⟩

/-- A run whose steps all meet a condition has every property that the
condition keeps. -/
theorem throughout_of_along
    {machine : StepMachine State Action} {invariant property : State → Prop}
    {condition : State → Action → Prop}
    (hkeep : ∀ state action next, invariant state →
      machine.step state action = some next → condition state action →
      invariant next)
    (himplies : ∀ state, invariant state → property state)
    {state : State} (hinvariant : invariant state) {trace : List Action}
    (halong : machine.Along condition state trace) :
    machine.Throughout property state trace := by
  induction trace generalizing state with
  | nil =>
      rw [throughout_nil]
      exact himplies state hinvariant
  | cons action rest ih =>
      rw [throughout_cons]
      refine ⟨himplies state hinvariant, ?_⟩
      intro next hstep
      obtain ⟨hcondition, hrest⟩ := halong next hstep
      exact ih (hkeep state action next hinvariant hstep hcondition) hrest

/-- The condition is exact: where it is what keeps the invariant, and a step
that breaks it leads to a state without the property, a run has the
property throughout just when all its steps meet the condition. -/
theorem throughout_iff_along
    {machine : StepMachine State Action} {invariant property : State → Prop}
    {condition : State → Action → Prop}
    (hkeep : ∀ state action next, invariant state →
      machine.step state action = some next → condition state action →
      invariant next)
    (himplies : ∀ state, invariant state → property state)
    (hbreak : ∀ state action next, invariant state →
      machine.step state action = some next → property next →
      condition state action)
    {state : State} (hinvariant : invariant state) (trace : List Action) :
    machine.Throughout property state trace ↔
      machine.Along condition state trace := by
  refine ⟨?_, throughout_of_along hkeep himplies hinvariant⟩
  induction trace generalizing state with
  | nil =>
      intro _
      trivial
  | cons action rest ih =>
      rw [throughout_cons]
      rintro ⟨_, hrest⟩ next hstep
      have hthrough := hrest next hstep
      have hnext : property next := hthrough [] List.nil_prefix next rfl
      have hcondition := hbreak state action next hinvariant hstep hnext
      exact ⟨hcondition,
        ih (hkeep state action next hinvariant hstep hcondition) hthrough⟩

/-! ## Runs that leave their first state -/

/-- Some step leaves the first state, and the rest of the run does not come
back to it. -/
def Departs (machine : StepMachine State Action) (state : State)
    (trace : List Action) : Prop :=
  ∃ before action after next, trace = before ++ action :: after ∧
    machine.run state before = some state ∧
    machine.step state action = some next ∧
    machine.Throughout (fun reached => reached ≠ state) next after

/-- A run that ends elsewhere has left its first state for the last time. -/
theorem departs_of_run_ne {machine : StepMachine State Action}
    {state reached : State} {trace : List Action}
    (hrun : machine.run state trace = some reached)
    (hne : reached ≠ state) : machine.Departs state trace := by
  -- after a return to the first state the rest is a shorter run from there
  induction hlength : trace.length using Nat.strong_induction_on
    generalizing trace with
  | _ length ih =>
      cases trace with
      | nil =>
          rw [run_nil, Option.some.injEq] at hrun
          exact absurd hrun.symm hne
      | cons action rest =>
          rw [run_cons, Option.bind_eq_some_iff] at hrun
          obtain ⟨next, hstep, hrest⟩ := hrun
          by_cases haway : machine.Throughout (fun other => other ≠ state)
              next rest
          · exact ⟨[], action, rest, next, rfl, rfl, hstep, haway⟩
          · unfold Throughout at haway
            push Not at haway
            obtain ⟨back, ⟨later, rfl⟩, other, hback, rfl⟩ := haway
            rw [run_append, hback, Option.bind_some] at hrest
            have hshorter : later.length < length := by
              rw [← hlength, List.length_cons, List.length_append]
              omega
            obtain ⟨before, leaving, after, away, rfl, hbefore, hleave,
                hstay⟩ := ih later.length hshorter hrest rfl
            refine ⟨action :: back ++ before, leaving, after, away, ?_, ?_,
              hleave, hstay⟩
            · simp
            · rw [run_append, run_cons, hstep, Option.bind_some, hback,
                Option.bind_some]
              exact hbefore

theorem run_ne_iff_departs {machine : StepMachine State Action}
    {state reached : State} {trace : List Action}
    (hrun : machine.run state trace = some reached) :
    reached ≠ state ↔ machine.Departs state trace := by
  refine ⟨departs_of_run_ne hrun, ?_⟩
  rintro ⟨before, action, after, next, rfl, hbefore, hstep, haway⟩
  rw [run_append, hbefore, Option.bind_some, run_cons, hstep,
    Option.bind_some] at hrun
  exact haway after (List.prefix_refl after) reached hrun

end StepMachine
end Acdp
