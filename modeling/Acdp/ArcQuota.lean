import Acdp.StepMachine
import Acdp.ArcCorrectness

/-!
# The client-side quota under concurrent calls

`create_presentation` loads the counter, compares it, does fallible work and
then increments the counter in a second atomic operation.  Calls that share
a credential interleave at these points.  The machine below has one action
per point; a call appears in `returned` when it comes back to its caller.
-/

namespace Acdp
namespace Auth

variable {ι F G Coins : Type}

structure PresentationCall (F Coins : Type) where
  presentationContext : Bytes
  nonce : UInt64
  random : PresentationRandomness F Coins

inductive CallPhase (G : Type) where
  | waiting
  | checked
  | built (presentation : ARCPresentation G)
  | returned

structure QuotaState (ι G : Type) where
  presentationsUsed : UInt64
  phase : ι → CallPhase G
  returned : List (ι × Result (ARCPresentation G))

def QuotaState.initial (ι G : Type) : QuotaState ι G where
  presentationsUsed := 0
  phase _ := .waiting
  returned := []

inductive QuotaAction (ι : Type) where
  | load (call : ι)
  | build (call : ι)
  | fetchAdd (call : ι)

def QuotaState.okCount (state : QuotaState ι G) : ℕ :=
  state.returned.countP (fun entry => entry.2.isOk)

section Machine

variable [DecidableEq ι]

def QuotaState.setPhase (state : QuotaState ι G) (call : ι)
    (phase : CallPhase G) : QuotaState ι G :=
  { state with phase := Function.update state.phase call phase }

def QuotaState.finish (state : QuotaState ι G) (call : ι)
    (result : Result (ARCPresentation G)) : QuotaState ι G :=
  { state.setPhase call .returned with
    returned := state.returned ++ [(call, result)] }

variable [Field F] [AddCommGroup G] [Module F G]
variable [DecidableEq F]

def presentationMachine (backend : ArcBackend F G Coins)
    (credential : ARCCredential F G) (generators : ARCGenerators G)
    (calls : ι → PresentationCall F Coins) :
    StepMachine (QuotaState ι G) (QuotaAction ι) where
  step state
    | .load call =>
        match state.phase call with
        | .waiting =>
            match credential.checkQuota state.presentationsUsed with
            | .error e => some (state.finish call (.error e))
            | .ok () => some (state.setPhase call .checked)
        | _ => none
    | .build call =>
        match state.phase call with
        | .checked =>
            match credential.buildPresentation backend
                (calls call).presentationContext (calls call).nonce
                generators (calls call).random with
            | .error e => some (state.finish call (.error e))
            | .ok presentation =>
                some (state.setPhase call (.built presentation))
        | _ => none
    | .fetchAdd call =>
        match state.phase call with
        | .built presentation =>
            some
              { state.finish call (.ok presentation) with
                presentationsUsed := state.presentationsUsed + 1 }
        | _ => none

end Machine

@[simp] theorem QuotaState.okCount_setPhase [DecidableEq ι]
    (state : QuotaState ι G) (call : ι) (phase : CallPhase G) :
    (state.setPhase call phase).okCount = state.okCount := rfl

@[simp] theorem QuotaState.presentationsUsed_setPhase [DecidableEq ι]
    (state : QuotaState ι G) (call : ι) (phase : CallPhase G) :
    (state.setPhase call phase).presentationsUsed =
      state.presentationsUsed := rfl

@[simp] theorem QuotaState.presentationsUsed_finish [DecidableEq ι]
    (state : QuotaState ι G) (call : ι)
    (result : Result (ARCPresentation G)) :
    (state.finish call result).presentationsUsed =
      state.presentationsUsed := rfl

@[simp] theorem QuotaState.okCount_finish_error [DecidableEq ι]
    (state : QuotaState ι G) (call : ι) (e : ACDPError) :
    (state.finish call (.error e)).okCount = state.okCount := by
  simp [QuotaState.okCount, QuotaState.finish, Except.isOk,
    Except.toBool]

theorem QuotaState.okCount_finish_ok [DecidableEq ι]
    (state : QuotaState ι G) (call : ι)
    (presentation : ARCPresentation G) (used : UInt64) :
    ({ state.finish call (.ok presentation) with
        presentationsUsed := used } : QuotaState ι G).okCount =
      state.okCount + 1 := by
  simp [QuotaState.okCount, QuotaState.finish, Except.isOk,
    Except.toBool]

def QuotaKept (maxPresentations : UInt64) (state : QuotaState ι G) : Prop :=
  state.okCount ≤ maxPresentations.toNat ∧
    state.presentationsUsed ≤ maxPresentations

def QuotaExact (maxPresentations : UInt64) (state : QuotaState ι G) : Prop :=
  state.presentationsUsed.toNat = state.okCount ∧
    state.okCount ≤ maxPresentations.toNat

theorem QuotaExact.kept {maxPresentations : UInt64}
    {state : QuotaState ι G} (hexact : QuotaExact maxPresentations state) :
    QuotaKept maxPresentations state := by
  refine ⟨hexact.2, ?_⟩
  rw [UInt64.le_iff_toNat_le, hexact.1]
  exact hexact.2

/-- The call has passed its check and not come back. -/
def CallPhase.hasLoaded : CallPhase G → Bool
  | .checked => true
  | .built _ => true
  | _ => false

theorem QuotaState.hasLoaded_setPhase [DecidableEq ι]
    (state : QuotaState ι G) (call other : ι) (phase : CallPhase G) :
    ((state.setPhase call phase).phase other).hasLoaded =
      if other = call then phase.hasLoaded
      else (state.phase other).hasLoaded := by
  change (Function.update state.phase call phase other).hasLoaded = _
  rw [Function.update_apply]
  split_ifs <;> rfl

theorem QuotaState.hasLoaded_finish [DecidableEq ι]
    {state : QuotaState ι G} {call other : ι}
    (result : Result (ARCPresentation G))
    (hloaded : ((state.finish call result).phase other).hasLoaded = true) :
    other ≠ call ∧ (state.phase other).hasLoaded = true := by
  change ((state.setPhase call .returned).phase other).hasLoaded = true
    at hloaded
  rw [QuotaState.hasLoaded_setPhase] at hloaded
  split_ifs at hloaded with hother
  · cases hloaded
  · exact ⟨hother, hloaded⟩

theorem checkQuota_eq_ok_iff {credential : ARCCredential F G}
    {used : UInt64} :
    credential.checkQuota used = .ok () ↔
      used < credential.maxPresentations := by
  unfold ARCCredential.checkQuota
  split_ifs with hused
  · exact iff_of_false (by simp) (UInt64.not_lt.mpr hused)
  · exact iff_of_true rfl (UInt64.not_le.mp hused)

/-! ## Schedules -/

/-- Between the load of a call and its own increment no other call increments
the counter. -/
def Undisturbed (trace : List (QuotaAction ι)) : Prop :=
  ∀ before between after call,
    trace = before ++ .load call :: (between ++ .fetchAdd call :: after) →
      ∀ other, other ≠ call → .fetchAdd other ∉ between

theorem Undisturbed.of_append {trace later : List (QuotaAction ι)}
    (hundisturbed : Undisturbed (trace ++ later)) : Undisturbed trace := by
  intro before between after call htrace
  apply hundisturbed before between (after ++ later) call
  rw [htrace]
  simp

/-- What the load of a call has checked still holds if no other call has
incremented the counter since. -/
structure LoadsCurrent (maxPresentations : UInt64)
    (past : List (QuotaAction ι)) (state : QuotaState ι G) : Prop where
  exact : QuotaExact maxPresentations state
  loaded : ∀ call, (state.phase call).hasLoaded = true →
    ∃ before between, past = before ++ .load call :: between ∧
      ((∀ other, other ≠ call → .fetchAdd other ∉ between) →
        state.presentationsUsed < maxPresentations)

theorem QuotaExact.fetchAdd [DecidableEq ι] {maxPresentations : UInt64}
    {state : QuotaState ι G} (hexact : QuotaExact maxPresentations state)
    (hbelow : state.presentationsUsed < maxPresentations) (call : ι)
    (presentation : ARCPresentation G) :
    QuotaExact maxPresentations
      { state.finish call (.ok presentation) with
        presentationsUsed := state.presentationsUsed + 1 } := by
  have hless : state.presentationsUsed.toNat < maxPresentations.toNat :=
    UInt64.lt_iff_toNat_lt.mp hbelow
  have hmax := maxPresentations.toNat_lt
  have hsum : (state.presentationsUsed + 1).toNat =
      state.presentationsUsed.toNat + 1 := by
    rw [UInt64.toNat_add]
    exact Nat.mod_eq_of_lt (by
      rw [UInt64.toNat_one]
      omega)
  have hstate := hexact.1
  unfold QuotaExact
  rw [QuotaState.okCount_finish_ok]
  change (state.presentationsUsed + 1).toNat = _ ∧ _
  rw [hsum]
  omega

/-- A step of a call that increments nothing, and leaves the other calls
where they are. -/
theorem LoadsCurrent.next {maxPresentations : UInt64}
    {past : List (QuotaAction ι)} {state next : QuotaState ι G}
    (hcurrent : LoadsCurrent maxPresentations past state)
    {action : QuotaAction ι}
    (hused : next.presentationsUsed = state.presentationsUsed)
    (hcount : next.okCount = state.okCount)
    (hphases : ∀ call, (next.phase call).hasLoaded = true →
      (state.phase call).hasLoaded = true ∨
        (action = .load call ∧
          state.presentationsUsed < maxPresentations)) :
    LoadsCurrent maxPresentations (past ++ [action]) next where
  exact := by
    unfold QuotaExact
    rw [hused, hcount]
    exact hcurrent.exact
  loaded := by
    intro call hloaded
    rw [hused]
    rcases hphases call hloaded with hearlier | ⟨rfl, hbelow⟩
    · obtain ⟨before, between, rfl, hstill⟩ := hcurrent.loaded call hearlier
      refine ⟨before, between ++ [action], by simp, ?_⟩
      intro hothers
      apply hstill
      intro other hother hmember
      exact hothers other hother (List.mem_append_left _ hmember)
    · exact ⟨past, [], rfl, fun _ => hbelow⟩

section Runs

variable [DecidableEq ι] [Field F] [AddCommGroup G] [Module F G]
variable [DecidableEq F]
variable {backend : ArcBackend F G Coins} {credential : ARCCredential F G}
variable {generators : ARCGenerators G}
variable {calls : ι → PresentationCall F Coins}

/-- A step either leaves the counter and the granted calls alone, and then only
a load that has found the counter below the limit lets a call go on; or it is
the increment that grants a call. -/
theorem presentationMachine_step_cases
    {state next : QuotaState ι G} {action : QuotaAction ι}
    (hstep : (presentationMachine backend credential generators calls).step
      state action = some next) :
    (next.presentationsUsed = state.presentationsUsed ∧
        next.okCount = state.okCount ∧
        ∀ call, (next.phase call).hasLoaded = true →
          (state.phase call).hasLoaded = true ∨
            (action = .load call ∧
              state.presentationsUsed < credential.maxPresentations)) ∨
      ∃ call presentation,
        action = .fetchAdd call ∧
          state.phase call = .built presentation ∧
          next =
            { state.finish call (.ok presentation) with
              presentationsUsed := state.presentationsUsed + 1 } := by
  cases action with
  | load call =>
      left
      cases hphase : state.phase call <;>
        simp only [presentationMachine, hphase, reduceCtorEq] at hstep
      cases hquota : credential.checkQuota state.presentationsUsed with
      | error e =>
          simp only [hquota, Option.some.injEq] at hstep
          subst next
          refine ⟨by simp, by simp, ?_⟩
          intro other hloaded
          exact Or.inl (QuotaState.hasLoaded_finish _ hloaded).2
      | ok passed =>
          simp only [hquota, Option.some.injEq] at hstep
          subst next
          refine ⟨by simp, by simp, ?_⟩
          intro other hloaded
          rw [QuotaState.hasLoaded_setPhase] at hloaded
          split_ifs at hloaded with hother
          · rw [hother]
            exact Or.inr ⟨rfl, checkQuota_eq_ok_iff.mp hquota⟩
          · exact Or.inl hloaded
  | build call =>
      left
      cases hphase : state.phase call <;>
        simp only [presentationMachine, hphase, reduceCtorEq] at hstep
      cases hbuild : credential.buildPresentation backend
          (calls call).presentationContext (calls call).nonce generators
          (calls call).random with
      | error e =>
          simp only [hbuild, Option.some.injEq] at hstep
          subst next
          refine ⟨by simp, by simp, ?_⟩
          intro other hloaded
          exact Or.inl (QuotaState.hasLoaded_finish _ hloaded).2
      | ok presentation =>
          simp only [hbuild, Option.some.injEq] at hstep
          subst next
          refine ⟨by simp, by simp, ?_⟩
          intro other hloaded
          rw [QuotaState.hasLoaded_setPhase] at hloaded
          split_ifs at hloaded with hother
          · rw [hother, hphase]
            exact Or.inl rfl
          · exact Or.inl hloaded
  | fetchAdd call =>
      right
      cases hphase : state.phase call <;>
        simp only [presentationMachine, hphase, reduceCtorEq,
          Option.some.injEq] at hstep
      next presentation =>
        exact ⟨call, presentation, rfl, hphase, hstep.symm⟩

/-! ## The quota -/

/-- A step that makes a call fail leaves the counter alone. -/
def FailureNeutral (machine : StepMachine (QuotaState ι G) (QuotaAction ι))
    (state : QuotaState ι G) (action : QuotaAction ι) : Prop :=
  ∀ next call e, machine.step state action = some next →
    next.returned = state.returned ++ [(call, .error e)] →
    next.presentationsUsed = state.presentationsUsed

theorem LoadsCurrent.step {past : List (QuotaAction ι)}
    {state next : QuotaState ι G} {action : QuotaAction ι}
    (hcurrent : LoadsCurrent credential.maxPresentations past state)
    (hstep : (presentationMachine backend credential generators calls).step
      state action = some next)
    (hundisturbed : Undisturbed (past ++ [action])) :
    LoadsCurrent credential.maxPresentations (past ++ [action]) next := by
  rcases presentationMachine_step_cases hstep with
    ⟨hused, hcount, hphases⟩ | ⟨call, presentation, rfl, hbuilt, rfl⟩
  · exact hcurrent.next hused hcount hphases
  · constructor
    · -- nobody has incremented since the load of this call
      obtain ⟨before, between, rfl, hstill⟩ := hcurrent.loaded call (by
        rw [hbuilt]
        rfl)
      apply hcurrent.exact.fetchAdd
      apply hstill
      exact hundisturbed before between [] call (by simp)
    · intro other hloaded
      obtain ⟨hother, hearlier⟩ :=
        QuotaState.hasLoaded_finish (.ok presentation) hloaded
      obtain ⟨before, between, rfl, _⟩ := hcurrent.loaded other hearlier
      refine ⟨before, between ++ [.fetchAdd call], by simp, ?_⟩
      intro hothers
      exact absurd (List.mem_append_right _ List.mem_cons_self)
        (hothers call hother.symm)

theorem presentationMachine_failureNeutral (state : QuotaState ι G)
    (action : QuotaAction ι) :
    FailureNeutral (presentationMachine backend credential generators calls)
      state action := by
  intro next call e hstep hreturned
  rcases presentationMachine_step_cases hstep with
    ⟨hused, _, _⟩ | ⟨granted, presentation, _, _, hnext⟩
  · exact hused
  · rw [hnext] at hreturned
    simp [QuotaState.finish] at hreturned

/-- From a fresh credential, a schedule keeps the quota in every state it
reaches if no increment falls between the load of another call and the
increment of that call; and in every schedule a failing call leaves the counter
alone. -/
theorem presentationMachine_quota_of_undisturbed
    (backend : ArcBackend F G Coins) (credential : ARCCredential F G)
    (generators : ARCGenerators G) (calls : ι → PresentationCall F Coins)
    (trace : List (QuotaAction ι)) :
    let machine := presentationMachine backend credential generators calls
    (Undisturbed trace →
        machine.Throughout (QuotaKept credential.maxPresentations)
          (QuotaState.initial ι G) trace) ∧
      machine.Along (FailureNeutral machine)
        (QuotaState.initial ι G) trace := by
  intro machine
  constructor
  · rintro hundisturbed before ⟨after, rfl⟩ reached hrun
    have hinitial : LoadsCurrent credential.maxPresentations []
        (QuotaState.initial ι G) := by
      constructor
      · simp [QuotaExact, QuotaState.initial, QuotaState.okCount]
      · intro call hloaded
        cases hloaded
    have hcurrent := StepMachine.run_history
      (fun past state => Undisturbed past →
        LoadsCurrent credential.maxPresentations past state)
      (fun _ _ _ _ hcurrent hstep hpast =>
        (hcurrent hpast.of_append).step hstep hpast)
      (fun _ => hinitial) hrun
    exact (hcurrent hundisturbed.of_append).exact.kept
  · exact StepMachine.along_of_invariant (fun _ _ _ _ _ => trivial)
      (fun state action _ _ _ =>
        presentationMachine_failureNeutral state action) trivial trace

/-- A presentation reads the counter in its check and nowhere else. -/
theorem createPresentation_withUsed
    (backend : ArcBackend F G Coins) (credential : ARCCredential F G)
    (used : UInt64) (context : Bytes) (nonce : UInt64)
    (generators : ARCGenerators G)
    (random : PresentationRandomness F Coins) :
    ARCCredential.createPresentation backend
        { credential with presentationsUsed := used }
        context nonce generators random =
      match credential.checkQuota used with
      | .error e => (.error e, { credential with presentationsUsed := used })
      | .ok () =>
          match credential.buildPresentation backend context nonce
              generators random with
          | .error e =>
              (.error e, { credential with presentationsUsed := used })
          | .ok presentation =>
              (.ok presentation,
                { credential with presentationsUsed := used + 1 }) := rfl

/-- A call that nobody interrupts is `createPresentation`: the machine
returns its result and leaves its counter. -/
theorem presentationMachine_run_alone
    (backend : ArcBackend F G Coins) (credential : ARCCredential F G)
    (generators : ARCGenerators G) (calls : ι → PresentationCall F Coins)
    (state : QuotaState ι G) (call : ι)
    (hwaiting : state.phase call = .waiting) :
    let machine := presentationMachine backend credential generators calls
    let alone :=
      ARCCredential.createPresentation backend
        { credential with presentationsUsed := state.presentationsUsed }
        (calls call).presentationContext (calls call).nonce generators
        (calls call).random
    ∃ trace next,
      trace <+: [.load call, .build call, .fetchAdd call] ∧
        machine.run state trace = some next ∧
        next.returned = state.returned ++ [(call, alone.1)] ∧
        next.presentationsUsed = alone.2.presentationsUsed := by
  intro machine alone
  cases hquota : credential.checkQuota state.presentationsUsed with
  | error e =>
      refine ⟨[.load call], state.finish call (.error e), by simp, ?_, ?_⟩
      · simp [machine, StepMachine.run, presentationMachine, hwaiting,
          hquota]
      · simp only [alone, createPresentation_withUsed, hquota]
        exact ⟨rfl, rfl⟩
  | ok passed =>
      cases hbuild : credential.buildPresentation backend
          (calls call).presentationContext (calls call).nonce generators
          (calls call).random with
      | error e =>
          refine ⟨[.load call, .build call],
            (state.setPhase call .checked).finish call (.error e),
            by simp, ?_, ?_⟩
          · simp [machine, StepMachine.run, presentationMachine, hwaiting,
              hquota, QuotaState.setPhase, hbuild]
          · simp only [alone, createPresentation_withUsed, hquota, hbuild]
            exact ⟨rfl, rfl⟩
      | ok presentation =>
          refine ⟨[.load call, .build call, .fetchAdd call],
            { ((state.setPhase call .checked).setPhase call
                (.built presentation)).finish call (.ok presentation) with
              presentationsUsed := state.presentationsUsed + 1 },
            by simp, ?_, ?_⟩
          · simp [machine, StepMachine.run, presentationMachine, hwaiting,
              hquota, QuotaState.setPhase, QuotaState.finish, hbuild]
          · simp only [alone, createPresentation_withUsed, hquota, hbuild]
            exact ⟨rfl, trivial⟩

end Runs

/-! ## Two calls on a credential for one presentation -/

/-- Both calls pass their check before either increments. -/
theorem presentationMachine_overrun :
    let credential : ARCCredential (ZMod 11) (ZMod 11) :=
      { m1 := 4, u := 1, uPrime := 2 + 4 * 3, x1 := 3
        maxPresentations := 1, presentationsUsed := 0 }
    let machine := presentationMachine smallBackend credential
      (ARCGenerators.new smallBackend)
      (fun call : ℕ => ⟨[116], UInt64.ofNat call, ⟨2, 3, 4, ()⟩⟩)
    ∃ state,
      machine.run (QuotaState.initial ℕ (ZMod 11))
          [.load 0, .load 1, .build 0, .build 1, .fetchAdd 0,
            .fetchAdd 1] = some state ∧
        state.okCount = 2 ∧ state.presentationsUsed = 2 ∧
        ¬ QuotaKept credential.maxPresentations state := by
  intro credential machine
  let key : ServerPrivateKey (ZMod 11) := ⟨2, 3, 5, 7⟩
  have hx1 : credential.x1 =
      key.x1 • (ARCGenerators.new smallBackend).g := by
    decide
  have hmac : key.macKey.IsMac credential.m1 0 credential.u
      credential.uPrime := by
    unfold MacKey.IsMac
    decide
  have hbuild (nonce : UInt64)
      (hinvertible : credential.m1 + nonceScalar nonce ≠ 0)
      (hnonce : nonce < 2) :
      ∃ presentation, credential.buildPresentation smallBackend [116] nonce
        (ARCGenerators.new smallBackend) ⟨2, 3, 4, ()⟩ =
          .ok presentation := by
    obtain ⟨presentation, hpresentation, _⟩ :=
      buildPresentation_verifies smallBackend_complete hx1 hmac [116]
        ⟨2, 3, 4, ()⟩ hnonce hinvertible
    exact ⟨presentation, hpresentation⟩
  obtain ⟨first, hfirst⟩ := hbuild 0 (by decide) (by decide)
  obtain ⟨second, hsecond⟩ := hbuild 1 (by decide) (by decide)
  have hquota : credential.checkQuota 0 = .ok () := by decide
  refine ⟨⟨2, ?_, [(0, .ok first), (1, .ok second)]⟩, ?_, ?_, ?_, ?_⟩
  · exact Function.update (Function.update (Function.update (Function.update
      (Function.update (Function.update (fun _ => CallPhase.waiting)
        0 .checked) 1 .checked) 0 (.built first)) 1 (.built second))
        0 .returned) 1 .returned
  · simp [machine, StepMachine.run, presentationMachine,
      QuotaState.initial, hquota, QuotaState.setPhase, QuotaState.finish,
      hfirst, hsecond]
  · rfl
  · rfl
  · intro hkept
    exact absurd hkept.1 (by
      simp [QuotaState.okCount, Except.isOk, Except.toBool, credential])

/-- Two calls one after the other, of which the second is refused. -/
theorem undisturbed_sequential :
    Undisturbed [.load 0, .build 0, .fetchAdd 0, .load (1 : ℕ)] := by
  intro before between after call htrace other hother hmember
  rcases before with _ | ⟨_, _ | ⟨_, _ | ⟨_, _ | ⟨_, before⟩⟩⟩⟩
  · -- the load of the first call, before its own increment
    rcases between with _ | ⟨_, _ | ⟨_, _ | ⟨_, between⟩⟩⟩
    · simp at htrace
    · simp [← List.mem_singleton.mp hmember] at htrace
    · simp at htrace
    · simp at htrace
  · simp at htrace
  · simp at htrace
  · simp at htrace
  · simp at htrace

theorem presentationMachine_quota_sequential :
    let credential : ARCCredential (ZMod 11) (ZMod 11) :=
      { m1 := 4, u := 1, uPrime := 2 + 4 * 3, x1 := 3
        maxPresentations := 1, presentationsUsed := 0 }
    let machine := presentationMachine smallBackend credential
      (ARCGenerators.new smallBackend)
      (fun call : ℕ => ⟨[116], UInt64.ofNat call, ⟨2, 3, 4, ()⟩⟩)
    machine.Throughout (QuotaKept credential.maxPresentations)
      (QuotaState.initial ℕ (ZMod 11))
      [.load 0, .build 0, .fetchAdd 0, .load 1] := by
  intro credential machine
  exact (presentationMachine_quota_of_undisturbed smallBackend credential _ _
    _).1 undisturbed_sequential

end Auth
end Acdp
