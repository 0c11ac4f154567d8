import Acdp.StepMachine

/-!
# Checking first and acting later

A client checks that a counter is below its limit, and adds one to it later or
gives up; other clients do the same in between.  With a bound on the clients
that have checked and not acted yet, the counter goes beyond its limit by less
than that bound, and this is all that can be said.
-/

namespace Acdp

/-! ## Runs that keep a property -/

namespace StepMachine

variable {State Action : Type*} {machine : StepMachine State Action}
  {property : State → Prop} {state reached : State}

def ReachesWithin (machine : StepMachine State Action)
    (property : State → Prop) (state reached : State) : Prop :=
  ∃ trace, machine.run state trace = some reached ∧
    machine.Throughout property state trace

theorem ReachesWithin.refl (hstate : property state) :
    machine.ReachesWithin property state state :=
  ⟨[], rfl, (throughout_nil machine property state).mpr hstate⟩

theorem ReachesWithin.followed {next : State}
    (hreached : machine.ReachesWithin property state reached) (action : Action)
    (hstep : machine.step reached action = some next)
    (hnext : property next) : machine.ReachesWithin property state next := by
  obtain ⟨trace, hrun, hthrough⟩ := hreached
  refine ⟨trace ++ [action], ?_, ?_⟩
  · rw [run_append, hrun, Option.bind_some, run_cons, hstep]
    rfl
  · intro before hbefore other hother
    rcases List.prefix_concat_iff.mp hbefore with rfl | hearlier
    · rw [run_append, hrun, Option.bind_some, run_cons, hstep] at hother
      rw [← Option.some.inj hother]
      exact hnext
    · exact hthrough before hearlier other hother

/-- The property holds where such a run ends. -/
theorem ReachesWithin.holds
    (hreached : machine.ReachesWithin property state reached) :
    property reached := by
  obtain ⟨trace, hrun, hthrough⟩ := hreached
  exact hthrough trace (List.prefix_refl trace) reached hrun

/-- What the first state has and the steps between states with the property
keep, the last state has. -/
theorem ReachesWithin.induction {invariant : State → Prop}
    (hkeep : ∀ state action next, invariant state → property next →
      machine.step state action = some next → invariant next)
    (hstate : invariant state)
    (hreached : machine.ReachesWithin property state reached) :
    invariant reached := by
  obtain ⟨trace, hrun, hthrough⟩ := hreached
  induction trace generalizing state with
  | nil =>
      rw [run_nil, Option.some.injEq] at hrun
      rw [← hrun]
      exact hstate
  | cons action rest ih =>
      rw [run_cons, Option.bind_eq_some_iff] at hrun
      obtain ⟨next, hstep, hrest⟩ := hrun
      have hlater := ((throughout_cons _ _ _ _ _).mp hthrough).2 next hstep
      have hnext : property next := hlater [] List.nil_prefix next rfl
      exact ih (hkeep state action next hstate hnext hstep) hrest hlater

end StepMachine

/-! ## The counter -/

/-- The counter, and how many have checked it and not acted yet. -/
structure CheckThenAct where
  count : ℤ
  pending : ℕ

namespace CheckThenAct

inductive Action where
  | check
  | act
  | abort

def step (limit : ℤ) (self : CheckThenAct) : Action → Option CheckThenAct
  | .check =>
      if self.count < limit then some ⟨self.count, self.pending + 1⟩ else none
  | .act =>
      if 0 < self.pending then some ⟨self.count + 1, self.pending - 1⟩
      else none
  | .abort =>
      if 0 < self.pending then some ⟨self.count, self.pending - 1⟩ else none

def machine (limit : ℤ) : StepMachine CheckThenAct Action := ⟨step limit⟩

/-- At most so many are between their check and their act. -/
def AtMost (bound : ℕ) (self : CheckThenAct) : Prop := self.pending ≤ bound

/-- Even if all of them act, the counter does not get above. -/
def Below (top : ℤ) (self : CheckThenAct) : Prop :=
  self.count + self.pending ≤ top

variable {limit start : ℤ} {bound : ℕ} {self next reached : CheckThenAct}

theorem step_check (hbelow : self.count < limit) :
    (machine limit).step self .check =
      some ⟨self.count, self.pending + 1⟩ := if_pos hbelow

theorem step_act (count : ℤ) (pending : ℕ) :
    (machine limit).step ⟨count, pending + 1⟩ .act =
      some ⟨count + 1, pending⟩ := by
  simp [machine, step]

theorem step_abort (count : ℤ) (pending : ℕ) :
    (machine limit).step ⟨count, pending + 1⟩ .abort =
      some ⟨count, pending⟩ := by
  simp [machine, step]

/-- A check is made below the limit, with at most `bound` in all; an act only
moves one of them to the counter. -/
theorem Below.step {action : Action}
    (hbelow : self.Below (max start (limit + bound - 1)))
    (hbound : next.AtMost bound)
    (hstep : (machine limit).step self action = some next) :
    next.Below (max start (limit + bound - 1)) := by
  unfold Below at *
  unfold AtMost at hbound
  change CheckThenAct.step limit self action = some next at hstep
  cases action with
  | check =>
      simp only [CheckThenAct.step, Option.ite_none_right_eq_some] at hstep
      obtain ⟨hlimit, hnext⟩ := hstep
      rw [← Option.some.inj hnext] at hbound ⊢
      apply le_max_of_le_right
      push_cast at *
      omega
  | act =>
      simp only [CheckThenAct.step, Option.ite_none_right_eq_some] at hstep
      obtain ⟨hpending, hnext⟩ := hstep
      rw [← Option.some.inj hnext]
      push_cast [Nat.cast_sub (Nat.succ_le_of_lt hpending)]
      omega
  | abort =>
      simp only [CheckThenAct.step, Option.ite_none_right_eq_some] at hstep
      obtain ⟨hpending, hnext⟩ := hstep
      rw [← Option.some.inj hnext]
      push_cast [Nat.cast_sub (Nat.succ_le_of_lt hpending)]
      omega

theorem count_le_step {action : Action}
    (hstep : (machine limit).step self action = some next) :
    self.count ≤ next.count := by
  change CheckThenAct.step limit self action = some next at hstep
  cases action <;>
    simp only [CheckThenAct.step, Option.ite_none_right_eq_some] at hstep <;>
    rw [← Option.some.inj hstep.2]
  exact le_add_of_nonneg_right zero_le_one

theorem below_of_reachesWithin
    (hreached : (machine limit).ReachesWithin (AtMost bound) ⟨start, 0⟩
      reached) : reached.Below (max start (limit + bound - 1)) := by
  apply StepMachine.ReachesWithin.induction _ _ hreached
  · intro state action next hstate hnext hstep
    exact hstate.step hnext hstep
  · simp [Below]

/-! ## How far the counter gets -/

/-- One after the other, clients take the counter up to its limit. -/
theorem reaches_of_le (hbound : 1 ≤ bound) {steps : ℕ}
    (hsteps : start + steps ≤ limit) :
    (machine limit).ReachesWithin (AtMost bound) ⟨start, 0⟩
      ⟨start + steps, 0⟩ := by
  induction steps with
  | zero =>
      rw [Nat.cast_zero, add_zero]
      exact .refl (Nat.zero_le bound)
  | succ steps ih =>
      push_cast at hsteps ⊢
      have hbelow : start + (steps : ℤ) < limit := by omega
      have hsingle : AtMost bound ⟨start + steps, 1⟩ := hbound
      have hnone : AtMost bound ⟨start + steps + 1, 0⟩ := Nat.zero_le bound
      rw [← add_assoc]
      exact ((ih (by omega)).followed .check (step_check hbelow)
        hsingle).followed .act (step_act _ 0) hnone

/-- All at once, clients check a counter that is below its limit. -/
theorem reaches_pending {before : CheckThenAct} {count : ℤ} {pending : ℕ}
    (hbefore : (machine limit).ReachesWithin (AtMost bound) before ⟨count, 0⟩)
    (hbelow : count < limit) (hpending : pending ≤ bound) :
    (machine limit).ReachesWithin (AtMost bound) before ⟨count, pending⟩ := by
  induction pending with
  | zero => exact hbefore
  | succ pending ih =>
      have hmost : AtMost bound ⟨count, pending + 1⟩ := hpending
      exact (ih (by omega)).followed .check (step_check hbelow) hmost

/-- Then they act, whatever the counter has become. -/
theorem reaches_acted {before : CheckThenAct} {count : ℤ} {pending : ℕ}
    (hbefore : (machine limit).ReachesWithin (AtMost bound) before
      ⟨count, pending⟩) :
    (machine limit).ReachesWithin (AtMost bound) before
      ⟨count + pending, 0⟩ := by
  induction pending generalizing count with
  | zero =>
      rw [Nat.cast_zero, add_zero]
      exact hbefore
  | succ pending ih =>
      have hless : AtMost bound ⟨count + 1, pending⟩ :=
        (Nat.le_succ pending).trans hbefore.holds
      have hrest := ih (hbefore.followed .act (step_act count pending) hless)
      rw [add_assoc, add_comm (1 : ℤ)] at hrest
      exact_mod_cast hrest

/-- The last one before the limit is joined by as many as may check with
it. -/
theorem reaches_overshoot (hstart : start < limit) (hbound : 1 ≤ bound) :
    (machine limit).ReachesWithin (AtMost bound) ⟨start, 0⟩
      ⟨limit + bound - 1, 0⟩ := by
  have hsteps : start + ((limit - 1 - start).toNat : ℤ) = limit - 1 := by omega
  have hbelow : start + ((limit - 1 - start).toNat : ℤ) ≤ limit := by omega
  have halmost := reaches_of_le hbound hbelow
  rw [hsteps] at halmost
  have hchecked := reaches_pending halmost (by omega) (le_refl bound)
  have hacted := reaches_acted hchecked
  rw [sub_add_eq_add_sub] at hacted
  exact hacted

end CheckThenAct
end Acdp
