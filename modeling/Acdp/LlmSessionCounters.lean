import Acdp.LlmSessions

/-!
# The counters of a session

The counters and the score of a session are brought up to date when a
prediction is added, and not when it is marked with the tool that was used.
They are those of the stored predictions in every state of a run exactly when
no marking changes whether a prediction counts as accurate.
-/

namespace Acdp
namespace Llm

open Auth (DateTime)
open Common (MessageFlow MessageId SessionId)

/-! ## Marking a prediction -/

section Marking

variable {messageId : MessageId} {actualTool : String}
  {predictions : List SessionPrediction} {prediction : SessionPrediction}

theorem length_markFirst (messageId : MessageId) (actualTool : String)
    (predictions : List SessionPrediction) :
    (markFirst messageId actualTool predictions).length =
      predictions.length := by
  induction predictions with
  | nil => rfl
  | cons first rest ih =>
      rw [markFirst]
      split_ifs
      · rfl
      · rw [List.length_cons, List.length_cons, ih]

/-- What the score of a session depends on. -/
def SessionPrediction.mark (self : SessionPrediction) : Bool × Float32 :=
  (self.wasAccurate, self.confidence)

/-- Marking a prediction changes the count of accurate ones by what it changes
of that prediction. -/
theorem countP_markFirst
    (hfind : findPrediction messageId predictions = some prediction) :
    (markFirst messageId actualTool predictions).countP
        SessionPrediction.wasAccurate + prediction.wasAccurate.toNat =
      predictions.countP SessionPrediction.wasAccurate +
        (prediction.markActual actualTool).wasAccurate.toNat := by
  induction predictions with
  | nil => cases hfind
  | cons first rest ih =>
      rw [findPrediction, List.find?_cons] at hfind
      rw [markFirst]
      split_ifs with hfirst
      · simp only [hfirst, decide_true, Option.some.injEq] at hfind
        subst hfind
        simp only [List.countP_cons]
        cases first.wasAccurate <;>
          cases (first.markActual actualTool).wasAccurate <;> simp
      · simp only [hfirst, decide_false] at hfind
        have hrest := ih hfind
        simp only [List.countP_cons]
        omega

theorem map_mark_markFirst
    (hkeep : ∀ prediction, findPrediction messageId predictions =
      some prediction →
        prediction.wasAccurate =
          (prediction.markActual actualTool).wasAccurate) :
    (markFirst messageId actualTool predictions).map SessionPrediction.mark =
      predictions.map SessionPrediction.mark := by
  induction predictions with
  | nil => rfl
  | cons first rest ih =>
      rw [markFirst]
      split_ifs with hfirst
      · have hsame := hkeep first (by simp [findPrediction, hfirst])
        simp [SessionPrediction.mark, hsame, SessionPrediction.markActual]
      · rw [List.map_cons, List.map_cons, ih]
        intro prediction hfind
        apply hkeep
        simpa [findPrediction, hfirst] using hfind

/-- The score only looks at whether the predictions were accurate, and at
their confidence. -/
theorem optimizationScore_congr {left right : List SessionPrediction}
    (hmarks : left.map SessionPrediction.mark =
      right.map SessionPrediction.mark) :
    optimizationScore left = optimizationScore right := by
  have hrecent : (left.reverse.take recentWindow).map SessionPrediction.mark =
      (right.reverse.take recentWindow).map SessionPrediction.mark := by
    rw [List.map_take, List.map_take, List.map_reverse, List.map_reverse,
      hmarks]
  have hlength := congrArg List.length hrecent
  have hcount := congrArg (List.countP Prod.fst) hrecent
  have hconfidence := congrArg (List.map Prod.snd) hrecent
  rw [List.length_map, List.length_map] at hlength
  rw [List.countP_map, List.countP_map] at hcount
  rw [List.map_map, List.map_map] at hconfidence
  have hempty : (left.reverse.take recentWindow).isEmpty =
      (right.reverse.take recentWindow).isEmpty := by
    rw [Bool.eq_iff_iff, List.isEmpty_iff_length_eq_zero,
      List.isEmpty_iff_length_eq_zero, hlength]
  change _ = (right.reverse.take recentWindow).countP
    SessionPrediction.wasAccurate at hcount
  change _ = (right.reverse.take recentWindow).map
    SessionPrediction.confidence at hconfidence
  unfold optimizationScore
  dsimp only
  rw [hempty, hlength, ← hcount, ← hconfidence]
  rfl

end Marking

namespace SessionPredictionContext

/-- The counters and the score are those of the stored predictions. -/
structure Exact (context : SessionPredictionContext) : Prop where
  total : context.totalPredictions = context.predictions.length
  successful : context.successfulPredictions =
    context.predictions.countP SessionPrediction.wasAccurate
  score : context.optimizationScore =
    Llm.optimizationScore context.predictions

variable {context : SessionPredictionContext}

theorem exact_new (sessionId : SessionId) (now : DateTime) :
    (new sessionId now).Exact where
  total := rfl
  successful := rfl
  score := rfl

theorem Exact.addMessage (hexact : context.Exact) (message : MessageFlow)
    (now : DateTime) : (context.addMessage message now).Exact where
  total := hexact.total
  successful := hexact.successful
  score := hexact.score

theorem Exact.addPrediction (hexact : context.Exact)
    (prediction : SessionPrediction) (now : DateTime) :
    (context.addPrediction prediction now).Exact where
  total := by
    change context.totalPredictions + 1 = (context.predictions ++ _).length
    rw [hexact.total, List.length_append]
    rfl
  successful := by
    change (if prediction.wasAccurate then context.successfulPredictions + 1
      else context.successfulPredictions) =
        (context.predictions ++ [prediction]).countP _
    rw [List.countP_append, List.countP_singleton, hexact.successful]
    split_ifs <;> rfl
  score := rfl

/-- Marking keeps the counters exact exactly when it does not change whether
the prediction counts as accurate. -/
theorem Exact.recordActual_iff (hexact : context.Exact)
    (messageId : MessageId) (actualTool : String) (now : DateTime) :
    (context.recordActual messageId actualTool now).Exact ↔
      ∀ prediction,
        findPrediction messageId context.predictions = some prediction →
          prediction.wasAccurate =
            (prediction.prediction.toolName == actualTool) := by
  unfold recordActual
  cases hfind : findPrediction messageId context.predictions with
  | none => simp [hexact]
  | some prediction =>
      have hcount :=
        @countP_markFirst messageId actualTool context.predictions _ hfind
      constructor
      · intro hafter other hother
        obtain rfl := Option.some.inj hother
        have hsuccessful := hafter.successful
        dsimp only at hsuccessful
        rw [hexact.successful] at hsuccessful
        have hbit : prediction.wasAccurate.toNat =
            (prediction.markActual actualTool).wasAccurate.toNat := by
          omega
        change _ = (prediction.markActual actualTool).wasAccurate
        revert hbit
        cases prediction.wasAccurate <;>
          cases (prediction.markActual actualTool).wasAccurate <;> simp
      · intro hkeep
        have hsame := hkeep prediction rfl
        have hmarks : (markFirst messageId actualTool
            context.predictions).map SessionPrediction.mark =
              context.predictions.map SessionPrediction.mark := by
          apply map_mark_markFirst
          intro found hfound
          rw [hfind, Option.some.injEq] at hfound
          rw [← hfound]
          exact hsame
        refine ⟨?_, ?_, ?_⟩
        · dsimp only
          rw [length_markFirst]
          exact hexact.total
        · dsimp only
          rw [hexact.successful]
          change _ = (prediction.markActual actualTool).wasAccurate at hsame
          rw [← hsame] at hcount
          omega
        · dsimp only
          rw [optimizationScore_congr hmarks]
          exact hexact.score

end SessionPredictionContext

/-! ## All sessions -/

namespace Sessions

variable {self : Sessions}

/-- Every session has exact counters. -/
def Exact (self : Sessions) : Prop :=
  ∀ sessionId context, self sessionId = some context → context.Exact

theorem Exact.insert (hexact : self.Exact)
    {context : SessionPredictionContext} (hcontext : context.Exact)
    (sessionId : SessionId) : (self.insert sessionId context).Exact := by
  intro other found hfound
  rw [Sessions.insert, Function.update_apply] at hfound
  split_ifs at hfound
  · rw [← Option.some.inj hfound]
    exact hcontext
  · exact hexact other found hfound

theorem Exact.entry (hexact : self.Exact) (sessionId : SessionId)
    (now : DateTime) : (self.entry sessionId now).Exact := by
  rw [Sessions.entry]
  cases hfound : self sessionId with
  | none => exact SessionPredictionContext.exact_new sessionId now
  | some context => exact hexact sessionId context hfound

theorem Exact.addMessage (hexact : self.Exact) (sessionId : SessionId)
    (message : MessageFlow) (now : DateTime) :
    (self.addMessage sessionId message now).Exact := by
  rw [Sessions.addMessage]
  cases hfound : self sessionId with
  | none => exact hexact
  | some context =>
      exact hexact.insert
        ((hexact sessionId context hfound).addMessage message now) sessionId

theorem Exact.recordActualTool_iff (hexact : self.Exact)
    (sessionId : SessionId) (messageId : MessageId) (actualTool : String)
    (now : DateTime) :
    (self.recordActualTool sessionId messageId actualTool now).Exact ↔
      ∀ context, self sessionId = some context → ∀ prediction,
        findPrediction messageId context.predictions = some prediction →
          prediction.wasAccurate =
            (prediction.prediction.toolName == actualTool) := by
  rw [Sessions.recordActualTool]
  cases hfound : self sessionId with
  | none => simp [hexact]
  | some context =>
      have hcontext := hexact sessionId context hfound
      constructor
      · intro hafter other hother
        obtain rfl := Option.some.inj hother
        exact (hcontext.recordActual_iff messageId actualTool now).mp
          (hafter sessionId _ (by simp [Sessions.insert]))
      · intro hkeep
        exact hexact.insert ((hcontext.recordActual_iff messageId actualTool
          now).mpr (hkeep context rfl)) sessionId

theorem Exact.cleanup (hexact : self.Exact) (cutoff : DateTime) :
    (self.cleanupInactiveSessions cutoff).Exact := by
  intro sessionId context hfound
  exact hexact sessionId context (Option.filter_eq_some_iff.mp hfound).1

end Sessions

namespace SessionManager

/-- Counters are exact, also in the copies that calls hold. -/
structure Invariant (manager : SessionManager) : Prop where
  sessions : manager.sessions.Exact
  held : ∀ context ∈ manager.held, context.Exact
  predicting : ∀ call ∈ manager.predicting, call.context.Exact

def CountersExact (self : SessionManager) : Prop := self.sessions.Exact

/-- The marking does not change whether the prediction counts as accurate. -/
def MarkKeepsAccuracy (self : SessionManager) : SessionAction → Prop
  | .recordActualTool sessionId messageId actualTool _ =>
      ∀ context, self.sessions sessionId = some context → ∀ prediction,
        findPrediction messageId context.predictions = some prediction →
          prediction.wasAccurate =
            (prediction.prediction.toolName == actualTool)
  | _ => True

theorem new_invariant : new.Invariant where
  sessions := fun _ _ hfound => absurd hfound (Option.some_ne_none _).symm
  held := fun _ hmem => absurd hmem List.not_mem_nil
  predicting := fun _ hmem => absurd hmem List.not_mem_nil

section Steps

variable {manager next : SessionManager}

theorem Invariant.predicted (hinvariant : manager.Invariant)
    {call : PredictCall} {index : ℕ}
    (hcall : manager.predicting[index]? = some call) (now : DateTime)
    (outcome : Option PredictionOutcome) :
    (manager.predicted call index now outcome).Invariant := by
  have hrest : ∀ other ∈ manager.predicting.eraseIdx index,
      other.context.Exact := fun other hother =>
    hinvariant.predicting other (List.mem_of_mem_eraseIdx hother)
  cases outcome with
  | none => exact ⟨hinvariant.sessions, hinvariant.held, hrest⟩
  | some outcome =>
      have hcontext := hinvariant.predicting call
        (List.mem_of_getElem? hcall)
      exact ⟨hinvariant.sessions.insert
        (hcontext.addPrediction _ now) _, hinvariant.held, hrest⟩

theorem Invariant.step (hinvariant : manager.Invariant)
    {action : SessionAction}
    (hstep : SessionManager.step manager action = some next)
    (hkeeps : manager.MarkKeepsAccuracy action) : next.Invariant := by
  have hentry := hinvariant.sessions.entry
  cases action with
  | getOrCreateSession sessionId now =>
      obtain rfl := Option.some.inj hstep
      refine ⟨hinvariant.sessions.insert (hentry sessionId now) sessionId, ?_,
        hinvariant.predicting⟩
      intro context hcontext
      rcases List.mem_append.mp hcontext with hold | hnew
      · exact hinvariant.held context hold
      · rw [List.mem_singleton.mp hnew]
        exact hentry sessionId now
  | updateSession index =>
      obtain ⟨context, hheld, rfl⟩ := Option.map_eq_some_iff.mp hstep
      have hcontext := hinvariant.held context (List.mem_of_getElem? hheld)
      exact ⟨hinvariant.sessions.insert hcontext _, hinvariant.held,
        hinvariant.predicting⟩
  | addMessage sessionId message now =>
      obtain rfl := Option.some.inj hstep
      exact ⟨hinvariant.sessions.addMessage sessionId message now,
        hinvariant.held, hinvariant.predicting⟩
  | predict sessionId messageId now =>
      obtain rfl := Option.some.inj hstep
      refine ⟨hinvariant.sessions.insert (hentry sessionId now) sessionId,
        hinvariant.held, ?_⟩
      intro call hcall
      rcases List.mem_append.mp hcall with hold | hnew
      · exact hinvariant.predicting call hold
      · rw [List.mem_singleton.mp hnew]
        exact hentry sessionId now
  | predicted index outcome now =>
      obtain ⟨call, hcall, rfl⟩ := Option.map_eq_some_iff.mp hstep
      exact hinvariant.predicted hcall now outcome
  | recordActualTool sessionId messageId actualTool now =>
      obtain rfl := Option.some.inj hstep
      exact ⟨(hinvariant.sessions.recordActualTool_iff sessionId messageId
        actualTool now).mpr hkeeps, hinvariant.held, hinvariant.predicting⟩
  | recordPrediction sessionId prediction now =>
      obtain rfl := Option.some.inj hstep
      exact ⟨hinvariant.sessions.insert
        ((hentry sessionId now).addPrediction prediction now) sessionId,
        hinvariant.held, hinvariant.predicting⟩
  | cleanupInactiveSessions cutoff =>
      obtain rfl := Option.some.inj hstep
      exact ⟨hinvariant.sessions.cleanup cutoff, hinvariant.held,
        hinvariant.predicting⟩

theorem Invariant.markKeepsAccuracy_of_next (hinvariant : manager.Invariant)
    {action : SessionAction}
    (hstep : SessionManager.step manager action = some next)
    (hnext : next.CountersExact) : manager.MarkKeepsAccuracy action := by
  cases action with
  | recordActualTool sessionId messageId actualTool now =>
      obtain rfl := Option.some.inj hstep
      exact (hinvariant.sessions.recordActualTool_iff sessionId messageId
        actualTool now).mp hnext
  | _ => trivial

end Steps

/-- The counters are exact in every state of a run exactly when no marking in
it changes whether a prediction counts as accurate. -/
theorem throughout_countersExact_iff (trace : List SessionAction) :
    machine.Throughout CountersExact new trace ↔
      machine.Along MarkKeepsAccuracy new trace := by
  apply StepMachine.throughout_iff_along ?_ ?_ ?_ new_invariant
  · intro before action after hinvariant hstep hkeeps
    exact hinvariant.step hstep hkeeps
  · intro reached hinvariant
    exact hinvariant.sessions
  · intro before action after hinvariant hstep hafter
    exact hinvariant.markKeepsAccuracy_of_next hstep hafter

/-! ## A prediction that is marked -/

def sampleSession : SessionId := ⟨.filled 16 1⟩

def sampleMessage : MessageId := ⟨.filled 16 2⟩

def samplePrediction : SessionPrediction :=
  .new sampleMessage ⟨"read_file", 0.9, "", ⟨.null, .null⟩⟩ none 3
    Auth.smallInstant

def markedTrace : List SessionAction :=
  [.recordPrediction sampleSession samplePrediction Auth.smallInstant,
    .recordActualTool sampleSession sampleMessage "read_file"
      Auth.smallInstant]

/-- The prediction turns out to be accurate, and is not counted as such. -/
theorem markedTrace_not_countersExact :
    ∃ reached context, machine.run new markedTrace = some reached ∧
      reached.sessions sampleSession = some context ∧
      context.successfulPredictions = 0 ∧
      context.predictions.countP SessionPrediction.wasAccurate = 1 ∧
      ¬ machine.Throughout CountersExact new markedTrace := by
  refine ⟨_, _, rfl, rfl, rfl, rfl, ?_⟩
  intro hthrough
  have hexact := hthrough markedTrace (List.prefix_refl _) _ rfl
  have hsuccessful := (hexact sampleSession _ rfl).successful
  cases hsuccessful

end SessionManager

end Llm
end Acdp
