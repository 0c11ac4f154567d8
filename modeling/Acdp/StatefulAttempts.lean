import Mathlib.Tactic

/-!
# Computations that keep their state when they stop

A computation with state returns a value or stops with a reason, and what it
changed before it stopped stays changed.  `Ends` says what is true of the
state in either case; the rules below follow the primitives a computation is
made of.
-/

namespace Acdp
namespace Attempt

variable {Stop State Value Result : Type}

def Ends (program : EStateM Stop State Value) (state : State)
    (returned : Value → State → Prop) (stopped : Stop → State → Prop) : Prop :=
  match program state with
  | .ok value next => returned value next
  | .error reason next => stopped reason next

/-- The state in which a computation leaves off. -/
def final (program : EStateM Stop State Value) (state : State) : State :=
  match program state with
  | .ok _ next => next
  | .error _ next => next

def fromAnswer (answer : Except Stop Value) : EStateM Stop State Value :=
  fun state =>
    match answer with
    | .ok value => .ok value state
    | .error reason => .error reason state

variable {program : EStateM Stop State Value} {state : State}
  {returned : Value → State → Prop} {stopped : Stop → State → Prop}

theorem bind_of_ok {rest : Value → EStateM Stop State Result} {value : Value}
    {next : State} (hprogram : program state = .ok value next) :
    (program >>= rest) state = rest value next := by
  change EStateM.bind program rest state = rest value next
  rw [EStateM.bind, hprogram]

theorem get_ok (state : State) :
    (get : EStateM Stop State State) state = .ok state state := rfl

theorem fromAnswer_ok (value : Value) (state : State) :
    (fromAnswer (.ok value) : EStateM Stop State Value) state =
      .ok value state := rfl

theorem ends_bind {rest : Value → EStateM Stop State Result}
    {finished : Result → State → Prop} :
    Ends (program >>= rest) state finished stopped ↔
      Ends program state
        (fun value next => Ends (rest value) next finished stopped) stopped := by
  change (match EStateM.bind program rest state with
    | .ok value next => finished value next
    | .error reason next => stopped reason next) ↔ _
  unfold Ends EStateM.bind
  cases program state <;> exact Iff.rfl

theorem ends_pure {value : Value} :
    Ends (pure value) state returned stopped ↔ returned value state := Iff.rfl

theorem ends_throw {reason : Stop} :
    Ends (throw reason : EStateM Stop State Value) state returned stopped ↔
      stopped reason state := Iff.rfl

theorem ends_get {found : State → State → Prop} :
    Ends (get : EStateM Stop State State) state found stopped ↔
      found state state := Iff.rfl

theorem ends_modify {change : State → State} {done : Unit → State → Prop} :
    Ends (modify change : EStateM Stop State Unit) state done stopped ↔
      done () (change state) := Iff.rfl

theorem ends_fromAnswer_ok {value : Value} :
    Ends (fromAnswer (.ok value)) state returned stopped ↔
      returned value state := Iff.rfl

theorem ends_fromAnswer_error {reason : Stop} :
    Ends (fromAnswer (.error reason)) state returned stopped ↔
      stopped reason state := Iff.rfl

theorem Ends.mono {returned' : Value → State → Prop}
    {stopped' : Stop → State → Prop}
    (hends : Ends program state returned stopped)
    (hreturned : ∀ value next, returned value next → returned' value next)
    (hstopped : ∀ reason next, stopped reason next → stopped' reason next) :
    Ends program state returned' stopped' := by
  unfold Ends at *
  cases hrun : program state with
  | ok value next =>
      rw [hrun] at hends
      exact hreturned value next hends
  | error reason next =>
      rw [hrun] at hends
      exact hstopped reason next hends

/-- A property that both ways of ending give holds of the state at the end. -/
theorem Ends.final {property : State → Prop}
    (hends : Ends program state returned stopped)
    (hreturned : ∀ value next, returned value next → property next)
    (hstopped : ∀ reason next, stopped reason next → property next) :
    property (final program state) := by
  unfold Ends at hends
  unfold Attempt.final
  cases hrun : program state with
  | ok value next =>
      rw [hrun] at hends
      exact hreturned value next hends
  | error reason next =>
      rw [hrun] at hends
      exact hstopped reason next hends

theorem Ends.of_error (hends : Ends program state returned stopped)
    {reason : Stop} {next : State} (hrun : program state = .error reason next) :
    stopped reason next := by
  unfold Ends at hends
  rw [hrun] at hends
  exact hends

end Attempt
end Acdp
