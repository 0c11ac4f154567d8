import Acdp.SandboxExecution
import Acdp.SandboxService
import Acdp.StepMachine
import Mathlib.Data.List.AList

/-!
# The registry of executions

The service enters an execution in its registry before it calls the runtime,
for a request of its own as for a node of a plan.  No entry is written again,
so all stay queued and cleaning up removes none of them.  The registry is
accurate in every state of a run exactly when no execution ends whose entry
has not been replaced by one with the same identifier.
-/

namespace Acdp
namespace Sandbox

open Auth (Uuid)
open Common (ExecutionPlan)

abbrev ExecutionId := Uuid

/-- An entry of the registry.  `call` is the number of the call that made
it. -/
structure RegisteredExecution where
  call : ℕ
  id : ExecutionId
  request : ExecutionRequest
  state : ExecutionState

abbrev Registry := AList (fun _ : ExecutionId => RegisteredExecution)

/-- A call of the runtime has not returned, has returned a stream that is
open, or has failed or ended its stream. -/
inductive CallStage where
  | calling
  | streaming
  | ended
deriving DecidableEq

structure RuntimeCall where
  id : ExecutionId
  stage : CallStage

/-- A run of the interpreter: what it has still to execute, and the call that
it waits for. -/
structure PlanRun where
  requests : List ExecutionRequest
  current : Option ℕ

structure SandboxService where
  executions : Registry
  calls : List RuntimeCall
  plans : List PlanRun

/-- What a run of the interpreter has executed, in turn. -/
def planRequests (plan : ExecutionPlan) (environment : Environment) :
    List ExecutionRequest :=
  (interpretPlan plan environment).effects.filterMap
    (fun effect => match effect.2 with
      | .execute request => some request
      | _ => none)

namespace SandboxService

def new : SandboxService where
  executions := ∅
  calls := []
  plans := []

/-- The entry is made and the runtime called. -/
def executeWithId (self : SandboxService) (id : ExecutionId)
    (request : ExecutionRequest) : SandboxService :=
  { self with
    executions :=
      self.executions.insert id ⟨self.calls.length, id, request, .new⟩
    calls := self.calls ++ [⟨id, .calling⟩] }

/-- The identifier is the one that was drawn. -/
def execute (self : SandboxService) (drawn : ExecutionId)
    (request : ExecutionRequest) : SandboxService :=
  self.executeWithId drawn request

def executePlan (self : SandboxService) (plan : ExecutionPlan)
    (environment : Environment) : SandboxService :=
  { self with
    plans := self.plans ++ [⟨planRequests plan environment, none⟩] }

/-- The call has failed or its stream has ended. -/
def Ended (self : SandboxService) (call : ℕ) : Prop :=
  self.calls[call]?.map RuntimeCall.stage = some .ended

instance (self : SandboxService) (call : ℕ) : Decidable (self.Ended call) :=
  inferInstanceAs (Decidable (_ = _))

/-- The next node of a plan that runs code, once the stream of the one before
has been read to its end. -/
def executeNode (self : SandboxService) (index : ℕ) (drawn : ExecutionId) :
    Option SandboxService :=
  match self.plans[index]? with
  | some ⟨request :: rest, current⟩ =>
      if ∀ call ∈ current, self.Ended call then
        some { self.execute drawn request with
          plans := self.plans.set index ⟨rest, some self.calls.length⟩ }
      else none
  | _ => none

def advance (self : SandboxService) (call : ℕ) (before after : CallStage) :
    Option SandboxService :=
  match self.calls[call]? with
  | some found =>
      if found.stage = before then
        some { self with calls := self.calls.set call ⟨found.id, after⟩ }
      else none
  | none => none

def getExecution (self : SandboxService) (id : ExecutionId) :
    Option RegisteredExecution :=
  self.executions.lookup id

def listExecutions (self : SandboxService) : List RegisteredExecution :=
  self.executions.entries.map Sigma.snd

def retain (registry : Registry) (keep : RegisteredExecution → Bool) :
    Registry where
  entries := registry.entries.filter (fun entry => keep entry.2)
  nodupKeys := registry.nodupKeys.sublist List.filter_sublist

/-- Nothing holds the state of an entry for writing, so all can be read. -/
def cleanupCompleted (self : SandboxService) : SandboxService :=
  { self with
    executions := retain self.executions
      (fun entry => !entry.state.status.isTerminal) }

inductive Action where
  | execute (drawn : ExecutionId) (request : ExecutionRequest)
  | executeWithId (id : ExecutionId) (request : ExecutionRequest)
  | executePlan (plan : ExecutionPlan) (environment : Environment)
  | executeNode (index : ℕ) (drawn : ExecutionId)
  | cleanupCompleted
  | runtimeReturns (call : ℕ)
  | runtimeFails (call : ℕ)
  | streamEnds (call : ℕ)

/-- The call that ends with the action. -/
def Action.ends : Action → Option ℕ
  | .runtimeFails call => some call
  | .streamEnds call => some call
  | _ => none

def step (self : SandboxService) : Action → Option SandboxService
  | .execute drawn request => some (self.execute drawn request)
  | .executeWithId id request => some (self.executeWithId id request)
  | .executePlan plan environment => some (self.executePlan plan environment)
  | .executeNode index drawn => self.executeNode index drawn
  | .cleanupCompleted => some self.cleanupCompleted
  | .runtimeReturns call => self.advance call .calling .streaming
  | .runtimeFails call => self.advance call .calling .ended
  | .streamEnds call => self.advance call .streaming .ended

def machine : StepMachine SandboxService Action := ⟨step⟩

/-- The entry of an execution that has ended has a terminal status, those
that are listed as queued or running have not ended, and cleaning up leaves
only executions that have not ended, each once. -/
structure Accurate (service : SandboxService) : Prop where
  terminal : ∀ id entry, service.getExecution id = some entry →
    service.Ended entry.call → entry.state.status.isTerminal = true
  listed : ∀ entry ∈ service.listExecutions,
    entry.state.status = .queued ∨ entry.state.status = .running →
      ¬ service.Ended entry.call
  cleaned : ∀ entry ∈ service.cleanupCompleted.listExecutions,
    ¬ service.Ended entry.call
  bounded : service.cleanupCompleted.listExecutions.length ≤
    service.calls.countP (fun call => call.stage != .ended)

/-- No execution ends whose entry is there. -/
def Displaced (self : SandboxService) (action : Action) : Prop :=
  ∀ call ∈ action.ends, ∀ entry ∈ self.listExecutions, entry.call ≠ call

section Steps

variable {self next : SandboxService}

theorem advance_eq {call : ℕ} {before after : CallStage}
    (hnext : self.advance call before after = some next) :
    ∃ found, self.calls[call]? = some found ∧ found.stage = before ∧
      next = { self with calls := self.calls.set call ⟨found.id, after⟩ } := by
  unfold advance at hnext
  split at hnext
  · next found hfound =>
      split_ifs at hnext with hstage
      exact ⟨found, hfound, hstage, (Option.some.inj hnext).symm⟩
  · cases hnext

theorem executeNode_eq {index : ℕ} {drawn : ExecutionId}
    (hnext : self.executeNode index drawn = some next) :
    ∃ request plans,
      next = { self.executeWithId drawn request with plans := plans } := by
  unfold executeNode at hnext
  split at hnext
  · next request rest current hplan =>
      split_ifs at hnext
      exact ⟨request, _, (Option.some.inj hnext).symm⟩
  · cases hnext

/-- A step makes an entry for a new call, lets a call go on, cleans up, or
leaves registry and calls as they are. -/
theorem step_cases {action : Action} (hnext : self.step action = some next) :
    (∃ id request plans,
      next = { self.executeWithId id request with plans := plans } ∧
        action.ends = none) ∨
    (∃ call found stage, self.calls[call]? = some found ∧
      found.stage ≠ .ended ∧
      next = { self with calls := self.calls.set call ⟨found.id, stage⟩ } ∧
      action.ends = if stage = .ended then some call else none) ∨
    (next = self.cleanupCompleted ∧ action.ends = none) ∨
    ∃ plans, next = { self with plans := plans } ∧ action.ends = none := by
  cases action with
  | execute drawn request =>
      exact Or.inl ⟨drawn, request, self.plans,
        (Option.some.inj hnext).symm, rfl⟩
  | executeWithId id request =>
      exact Or.inl ⟨id, request, self.plans,
        (Option.some.inj hnext).symm, rfl⟩
  | executePlan plan environment =>
      exact Or.inr (Or.inr (Or.inr ⟨_, (Option.some.inj hnext).symm, rfl⟩))
  | executeNode index drawn =>
      obtain ⟨request, plans, hplans⟩ := executeNode_eq hnext
      exact Or.inl ⟨drawn, request, plans, hplans, rfl⟩
  | cleanupCompleted =>
      exact Or.inr (Or.inr (Or.inl ⟨(Option.some.inj hnext).symm, rfl⟩))
  | runtimeReturns call =>
      obtain ⟨found, hfound, hstage, hset⟩ := advance_eq hnext
      exact Or.inr (Or.inl ⟨call, found, .streaming, hfound,
        by simp [hstage], hset, rfl⟩)
  | runtimeFails call =>
      obtain ⟨found, hfound, hstage, hset⟩ := advance_eq hnext
      exact Or.inr (Or.inl ⟨call, found, .ended, hfound,
        by simp [hstage], hset, rfl⟩)
  | streamEnds call =>
      obtain ⟨found, hfound, hstage, hset⟩ := advance_eq hnext
      exact Or.inr (Or.inl ⟨call, found, .ended, hfound,
        by simp [hstage], hset, rfl⟩)

/-! ## What the registry holds -/

theorem mem_of_getExecution {id : ExecutionId} {entry : RegisteredExecution}
    (hget : self.getExecution id = some entry) :
    entry ∈ self.listExecutions :=
  List.mem_map.mpr ⟨⟨id, entry⟩, AList.mem_lookup_iff.mp hget, rfl⟩

theorem listExecutions_executeWithId (id : ExecutionId)
    (request : ExecutionRequest) :
    (self.executeWithId id request).listExecutions =
      ⟨self.calls.length, id, request, .new⟩ ::
        (self.executions.erase id).entries.map Sigma.snd := by
  unfold listExecutions executeWithId
  rw [AList.entries_insert, List.map_cons]
  rfl

theorem erase_sublist (id : ExecutionId) :
    ((self.executions.erase id).entries.map Sigma.snd).Sublist
      self.listExecutions :=
  (List.kerase_sublist id self.executions.entries).map Sigma.snd

/-- What there is in the registry in every state of a run. -/
structure Registered (service : SandboxService) : Prop where
  untouched : ∀ entry ∈ service.listExecutions, entry.state = .new
  numbered : ∀ entry ∈ service.listExecutions,
    entry.call < service.calls.length
  distinct : (service.listExecutions.map RegisteredExecution.call).Nodup

theorem new_registered : new.Registered where
  untouched := by simp [listExecutions, new]
  numbered := by simp [listExecutions, new]
  distinct := List.nodup_nil

/-- Nothing has a terminal status, so nothing is removed. -/
theorem Registered.cleanupCompleted_eq (hregistered : self.Registered) :
    self.cleanupCompleted = self := by
  have hall : self.executions.entries.filter
      (fun entry => !entry.2.state.status.isTerminal) =
        self.executions.entries := by
    rw [List.filter_eq_self]
    intro entry hentry
    rw [hregistered.untouched entry.2 (List.mem_map_of_mem hentry)]
    rfl
  have hretain : retain self.executions
      (fun entry => !entry.state.status.isTerminal) = self.executions :=
    AList.ext hall
  unfold cleanupCompleted
  rw [hretain]

theorem Registered.executeWithId (hregistered : self.Registered)
    (id : ExecutionId) (request : ExecutionRequest) :
    (self.executeWithId id request).Registered := by
  have hlist := @listExecutions_executeWithId self id request
  have hold : ∀ entry ∈ (self.executions.erase id).entries.map Sigma.snd,
      entry ∈ self.listExecutions :=
    fun entry hentry => (erase_sublist id).subset hentry
  constructor
  · rw [hlist, List.forall_mem_cons]
    exact ⟨rfl, fun entry hentry =>
      hregistered.untouched entry (hold entry hentry)⟩
  · rw [hlist, List.forall_mem_cons]
    have hlength : (self.executeWithId id request).calls.length =
        self.calls.length + 1 := by simp [SandboxService.executeWithId]
    rw [hlength]
    refine ⟨Nat.lt_succ_self _, fun entry hentry => ?_⟩
    exact (hregistered.numbered entry (hold entry hentry)).trans
      (Nat.lt_succ_self _)
  · rw [hlist, List.map_cons, List.nodup_cons]
    constructor
    · intro hmem
      obtain ⟨entry, hentry, hcall⟩ := List.mem_map.mp hmem
      have hbelow := hregistered.numbered entry (hold entry hentry)
      exact hbelow.ne hcall
    · exact ((erase_sublist id).map RegisteredExecution.call).nodup
        hregistered.distinct

theorem Registered.afterStep (hregistered : self.Registered) {action : Action}
    (hnext : self.step action = some next) : next.Registered := by
  obtain ⟨id, request, plans, rfl, _⟩ | ⟨call, found, stage, _, _, rfl, _⟩ |
    ⟨rfl, _⟩ | ⟨plans, rfl, _⟩ := step_cases hnext
  · have hafter := hregistered.executeWithId id request
    exact ⟨hafter.untouched, hafter.numbered, hafter.distinct⟩
  · refine ⟨hregistered.untouched, ?_, hregistered.distinct⟩
    intro entry hentry
    rw [List.length_set]
    exact hregistered.numbered entry hentry
  · rw [hregistered.cleanupCompleted_eq]
    exact hregistered
  · exact ⟨hregistered.untouched, hregistered.numbered, hregistered.distinct⟩

/-- Every identifier under which something was called is in the registry. -/
structure Complete (service : SandboxService) : Prop where
  registered : service.Registered
  entered : ∀ call ∈ service.calls, call.id ∈ service.executions

theorem Complete.afterStep (hcomplete : self.Complete) {action : Action}
    (hnext : self.step action = some next) : next.Complete := by
  refine ⟨hcomplete.registered.afterStep hnext, ?_⟩
  obtain ⟨id, request, plans, rfl, _⟩ |
    ⟨call, found, stage, hfound, _, rfl, _⟩ | ⟨rfl, _⟩ | ⟨plans, rfl, _⟩ :=
    step_cases hnext
  · intro call hcall
    refine (AList.mem_insert _).mpr ?_
    obtain hold | hnew := List.mem_append.mp hcall
    · exact Or.inr (hcomplete.entered call hold)
    · rw [List.mem_singleton.mp hnew]
      exact Or.inl rfl
  · intro other hother
    obtain hold | rfl := List.mem_or_eq_of_mem_set hother
    · exact hcomplete.entered other hold
    · exact hcomplete.entered found (List.mem_of_getElem? hfound)
  · rw [hcomplete.registered.cleanupCompleted_eq]
    exact hcomplete.entered
  · exact hcomplete.entered

/-- The registry keeps an entry for every identifier that was ever used. -/
theorem complete_of_reaches (hreached : machine.Reaches new self) :
    self.Complete := by
  obtain ⟨trace, hrun⟩ := hreached
  refine StepMachine.run_invariant ?_ ⟨new_registered, by simp [new]⟩ hrun
  intro before action after hcomplete hstep
  exact hcomplete.afterStep hstep

/-! ## When it is accurate -/

/-- No execution in the registry has ended. -/
structure Current (service : SandboxService) : Prop where
  registered : service.Registered
  underWay : ∀ entry ∈ service.listExecutions, ¬ service.Ended entry.call

theorem new_current : new.Current where
  registered := new_registered
  underWay := by simp [listExecutions, new]

theorem countP_range_calls (self : SandboxService) :
    (List.range self.calls.length).countP
        (fun call => decide (¬ self.Ended call)) =
      self.calls.countP (fun call => call.stage != .ended) := by
  have hcalls : (List.range self.calls.length).map
      (fun call => self.calls[call]?) = self.calls.map some := by
    apply List.ext_getElem
    · simp
    · intro call _ hright
      rw [List.length_map] at hright
      simp [hright]
  have hcount := congrArg (List.countP (fun found : Option RuntimeCall =>
    decide (¬ found.map RuntimeCall.stage = some .ended))) hcalls
  rw [List.countP_map, List.countP_map] at hcount
  exact hcount.trans (List.countP_congr (by simp))

theorem Current.bounded (hcurrent : self.Current) :
    self.listExecutions.length ≤
      self.calls.countP (fun call => call.stage != .ended) := by
  have hsubset : self.listExecutions.map RegisteredExecution.call ⊆
      (List.range self.calls.length).filter
        (fun call => decide (¬ self.Ended call)) := by
    intro call hcall
    obtain ⟨entry, hentry, rfl⟩ := List.mem_map.mp hcall
    rw [List.mem_filter, List.mem_range, decide_eq_true_iff]
    exact ⟨hcurrent.registered.numbered entry hentry,
      hcurrent.underWay entry hentry⟩
  have hle := (List.subperm_of_subset hcurrent.registered.distinct
    hsubset).length_le
  rw [List.length_map, ← List.countP_eq_length_filter] at hle
  exact hle.trans_eq self.countP_range_calls

theorem Current.accurate (hcurrent : self.Current) : self.Accurate where
  terminal id entry hget hended :=
    absurd hended (hcurrent.underWay entry (mem_of_getExecution hget))
  listed entry hentry _ := hcurrent.underWay entry hentry
  cleaned := by
    rw [hcurrent.registered.cleanupCompleted_eq]
    exact hcurrent.underWay
  bounded := by
    rw [hcurrent.registered.cleanupCompleted_eq]
    exact hcurrent.bounded

theorem ended_set_iff {call other : ℕ} {found : RuntimeCall}
    {stage : CallStage} (hfound : self.calls[call]? = some found)
    (hrunning : found.stage ≠ .ended) :
    ({ self with calls := self.calls.set call ⟨found.id, stage⟩ } :
        SandboxService).Ended other ↔
      self.Ended other ∨ (other = call ∧ stage = .ended) := by
  obtain ⟨hcall, hget⟩ := List.getElem?_eq_some_iff.mp hfound
  unfold Ended
  by_cases hother : call = other
  · subst hother
    simp [hcall, hget, hrunning]
  · simp [List.getElem?_set_ne hother, Ne.symm hother]

theorem Current.executeWithId (hcurrent : self.Current) (id : ExecutionId)
    (request : ExecutionRequest) :
    (self.executeWithId id request).Current where
  registered := hcurrent.registered.executeWithId id request
  underWay := by
    rw [listExecutions_executeWithId, List.forall_mem_cons]
    unfold Ended SandboxService.executeWithId
    refine ⟨by simp, fun entry hentry => ?_⟩
    have hold := (erase_sublist id).subset hentry
    rw [List.getElem?_append_left (hcurrent.registered.numbered entry hold)]
    exact hcurrent.underWay entry hold

theorem Current.afterStep (hcurrent : self.Current) {action : Action}
    (hnext : self.step action = some next) (hdisplaced : self.Displaced action) :
    next.Current := by
  refine ⟨hcurrent.registered.afterStep hnext, ?_⟩
  obtain ⟨id, request, plans, rfl, _⟩ |
    ⟨call, found, stage, hfound, hrunning, rfl, hends⟩ | ⟨rfl, _⟩ |
    ⟨plans, rfl, _⟩ := step_cases hnext
  · exact (hcurrent.executeWithId id request).underWay
  · intro entry hentry hended
    obtain hbefore | ⟨hcall, hstage⟩ :=
      (ended_set_iff hfound hrunning).mp hended
    · exact hcurrent.underWay entry hentry hbefore
    · rw [if_pos hstage] at hends
      exact hdisplaced call hends entry hentry hcall
  · rw [hcurrent.registered.cleanupCompleted_eq]
    exact hcurrent.underWay
  · exact hcurrent.underWay

/-- An execution that ends is still listed as queued. -/
theorem Current.displaced_of_next (hcurrent : self.Current) {action : Action}
    (hnext : self.step action = some next) (hafter : next.Accurate) :
    self.Displaced action := by
  intro call hends entry hentry hcall
  obtain ⟨id, request, plans, rfl, hnone⟩ |
    ⟨other, found, stage, hfound, hrunning, rfl, hsome⟩ | ⟨rfl, hnone⟩ |
    ⟨plans, rfl, hnone⟩ := step_cases hnext
  · rw [hnone] at hends
    cases hends
  · rw [hsome] at hends
    split_ifs at hends with hstage
    · obtain rfl := Option.some.inj hends
      refine hafter.listed entry hentry (Or.inl ?_)
        ((ended_set_iff hfound hrunning).mpr (Or.inr ⟨hcall, hstage⟩))
      rw [hcurrent.registered.untouched entry hentry]
      rfl
    · cases hends
  · rw [hnone] at hends
    cases hends
  · rw [hnone] at hends
    cases hends

end Steps

/-- The registry is accurate in every state of a run exactly when no execution
ends whose entry is still there. -/
theorem throughout_accurate_iff (trace : List Action) :
    machine.Throughout Accurate new trace ↔
      machine.Along Displaced new trace := by
  apply StepMachine.throughout_iff_along ?_ ?_ ?_ new_current
  · intro before action after hcurrent hstep hdisplaced
    exact hcurrent.afterStep hstep hdisplaced
  · intro reached hcurrent
    exact hcurrent.accurate
  · intro before action after hcurrent hstep hafter
    exact hcurrent.displaced_of_next hstep hafter

/-! ## One execution that ends -/

def endedTrace : List Action :=
  [.executeWithId (.filled 16 1) (.new "print(1)"), .runtimeReturns 0,
    .streamEnds 0, .cleanupCompleted]

/-- The entry is still there, and still queued. -/
theorem endedTrace_not_accurate :
    ∃ reached, machine.run new endedTrace = some reached ∧
      reached.Ended 0 ∧
      reached.listExecutions.map (fun entry => entry.state.status) =
        [.queued] ∧
      ¬ machine.Throughout Accurate new endedTrace := by
  refine ⟨_, rfl, rfl, rfl, ?_⟩
  intro hthrough
  have haccurate := hthrough endedTrace (List.prefix_refl _) _ rfl
  exact haccurate.listed _ (List.mem_singleton.mpr rfl) (Or.inl rfl) rfl

end SandboxService

end Sandbox
end Acdp
