import Acdp.LlmSessions

/-!
# Calls on one session that overlap

What the calls on one session should have left in it is what they leave when
each of them takes effect at once, as it completes.  A call that predicts
writes back the copy it has read: nothing is lost exactly as long as that copy
still has the messages and predictions of the session, and no message is
added to a session that does not exist yet.
-/

namespace Acdp
namespace Llm

open Auth (DateTime)
open Common (MessageFlow MessageId SessionId)

structure SessionContent where
  messages : List MessageFlow
  predictions : List SessionPrediction

namespace SessionContent

def empty : SessionContent := ⟨[], []⟩

def addMessage (self : SessionContent) (message : MessageFlow) :
    SessionContent :=
  { self with messages := self.messages ++ [message] }

def addPrediction (self : SessionContent) (prediction : SessionPrediction) :
    SessionContent :=
  { self with predictions := self.predictions ++ [prediction] }

def recordActual (self : SessionContent) (messageId : MessageId)
    (actualTool : String) : SessionContent :=
  { self with predictions := markFirst messageId actualTool self.predictions }

theorem addMessage_ne (self : SessionContent) (message : MessageFlow) :
    self ≠ self.addMessage message := by
  intro hsame
  have hlength := congrArg (fun content => content.messages.length) hsame
  simp [addMessage] at hlength

theorem addPrediction_inj {left right : SessionContent}
    {prediction : SessionPrediction} :
    left.addPrediction prediction = right.addPrediction prediction ↔
      left = right := by
  constructor
  · intro hsame
    obtain ⟨leftMessages, leftPredictions⟩ := left
    obtain ⟨rightMessages, rightPredictions⟩ := right
    simpa [addPrediction] using hsame
  · intro hsame
    rw [hsame]

end SessionContent

def SessionPredictionContext.content (self : SessionPredictionContext) :
    SessionContent :=
  ⟨self.messageHistory, self.predictions⟩

/-- What a session has, nothing if it does not exist. -/
def Sessions.content (self : Sessions) (sessionId : SessionId) :
    SessionContent :=
  match self sessionId with
  | none => .empty
  | some context => context.content

/-- The calls on one session, and what they should have left in it. -/
structure SessionCalls where
  manager : SessionManager
  expected : SessionContent

namespace SessionCalls

def new : SessionCalls := ⟨.new, .empty⟩

/-- The action belongs to a call on the session that predicts, adds a message
or records. -/
def Calls (sessionId : SessionId) : SessionAction → Prop
  | .addMessage called _ _ => called = sessionId
  | .predict called _ _ => called = sessionId
  | .predicted _ _ _ => True
  | .recordActualTool called _ _ _ => called = sessionId
  | .recordPrediction called _ _ => called = sessionId
  | _ => False

instance (sessionId : SessionId) (action : SessionAction) :
    Decidable (Calls sessionId action) := by
  cases action <;> unfold Calls <;> infer_instance

/-- What should be in the session once the action has taken effect. -/
def complete (self : SessionCalls) : SessionAction → SessionContent
  | .addMessage _ message _ => self.expected.addMessage message
  | .recordPrediction _ prediction _ => self.expected.addPrediction prediction
  | .recordActualTool _ messageId actualTool _ =>
      self.expected.recordActual messageId actualTool
  | .predicted index (some outcome) now =>
      match self.manager.predicting[index]? with
      | some call =>
          self.expected.addPrediction (call.sessionPrediction outcome now)
      | none => self.expected
  | _ => self.expected

def step (sessionId : SessionId) (self : SessionCalls)
    (action : SessionAction) : Option SessionCalls :=
  if Calls sessionId action then
    (self.manager.step action).map (fun manager =>
      ⟨manager, self.complete action⟩)
  else none

def machine (sessionId : SessionId) :
    StepMachine SessionCalls SessionAction :=
  ⟨step sessionId⟩

/-- The session has every message added and every prediction recorded, once
and in the order in which the calls completed, with the tools recorded for
them. -/
def NoLostUpdate (sessionId : SessionId) (self : SessionCalls) : Prop :=
  self.manager.sessions.content sessionId = self.expected

/-- What an action has to find: a session to add a message to, and, where a
copy is written back, a session that is still as it was read. -/
def Undisturbed (sessionId : SessionId) (self : SessionCalls) :
    SessionAction → Prop
  | .addMessage _ _ _ => (self.manager.sessions sessionId).isSome = true
  | .predicted index (some _) _ =>
      ∀ call, self.manager.predicting[index]? = some call →
        call.context.content = self.manager.sessions.content sessionId
  | _ => True

/-! ## What each call leaves in the session -/

section Content

variable {sessions : Sessions} {sessionId : SessionId}

@[simp] theorem content_insert (context : SessionPredictionContext) :
    (sessions.insert sessionId context).content sessionId =
      context.content := by
  simp [Sessions.content, Sessions.insert]

@[simp] theorem content_entry (now : DateTime) :
    (sessions.entry sessionId now).content = sessions.content sessionId := by
  rw [Sessions.entry, Sessions.content]
  cases sessions sessionId <;> rfl

theorem content_addMessage (message : MessageFlow) (now : DateTime) :
    (sessions.addMessage sessionId message now).content sessionId =
      if (sessions sessionId).isSome then
        (sessions.content sessionId).addMessage message
      else sessions.content sessionId := by
  rw [Sessions.addMessage]
  cases hfound : sessions sessionId with
  | none => rfl
  | some context =>
      rw [Option.isSome_some, if_pos rfl]
      dsimp only
      rw [content_insert, Sessions.content, hfound]
      rfl

theorem markFirst_eq_of_findPrediction {messageId : MessageId}
    {actualTool : String} {predictions : List SessionPrediction}
    (hfind : findPrediction messageId predictions = none) :
    markFirst messageId actualTool predictions = predictions := by
  induction predictions with
  | nil => rfl
  | cons first rest ih =>
      rw [findPrediction, List.find?_cons] at hfind
      rw [markFirst]
      split_ifs with hfirst
      · simp [hfirst] at hfind
      · simp only [hfirst, decide_false] at hfind
        rw [ih hfind]

theorem content_recordActualTool (messageId : MessageId)
    (actualTool : String) (now : DateTime) :
    (sessions.recordActualTool sessionId messageId actualTool now).content
        sessionId =
      (sessions.content sessionId).recordActual messageId actualTool := by
  rw [Sessions.recordActualTool]
  cases hfound : sessions sessionId with
  | none => simp [Sessions.content, hfound, SessionContent.empty,
      SessionContent.recordActual, markFirst]
  | some context =>
      dsimp only
      rw [content_insert, Sessions.content, hfound,
        SessionPredictionContext.recordActual]
      cases hfind : findPrediction messageId context.predictions with
      | none =>
          simp [SessionPredictionContext.content, SessionContent.recordActual,
            markFirst_eq_of_findPrediction hfind]
      | some prediction => rfl

theorem content_recordPrediction (prediction : SessionPrediction)
    (now : DateTime) :
    (sessions.recordPredictionForSession sessionId prediction now).content
        sessionId =
      (sessions.content sessionId).addPrediction prediction := by
  rw [Sessions.recordPredictionForSession, content_insert,
    ← @content_entry sessions sessionId now]
  rfl

end Content

/-! ## Whole runs -/

/-- Nothing is lost so far, and every copy of the session is one of it. -/
structure Invariant (sessionId : SessionId) (calls : SessionCalls) : Prop where
  kept : calls.NoLostUpdate sessionId
  keyed : ∀ context, calls.manager.sessions sessionId = some context →
    context.sessionId = sessionId
  calling : ∀ call ∈ calls.manager.predicting,
    call.context.sessionId = sessionId

theorem new_invariant (sessionId : SessionId) : new.Invariant sessionId where
  kept := rfl
  keyed := fun _ hfound => absurd hfound (Option.some_ne_none _).symm
  calling := fun _ hmem => absurd hmem List.not_mem_nil

section Steps

variable {sessionId : SessionId} {calls next : SessionCalls}

theorem step_eq {action : SessionAction}
    (hstep : step sessionId calls action = some next) :
    Calls sessionId action ∧ ∃ manager,
      calls.manager.step action = some manager ∧
        next = ⟨manager, calls.complete action⟩ := by
  rw [step, Option.ite_none_right_eq_some, Option.map_eq_some_iff] at hstep
  obtain ⟨hcalls, manager, hmanager, hnext⟩ := hstep
  exact ⟨hcalls, manager, hmanager, hnext.symm⟩

theorem sessionId_insert {sessions : Sessions}
    {context found : SessionPredictionContext}
    (hcontext : context.sessionId = sessionId)
    (hfound : sessions.insert sessionId context sessionId = some found) :
    found.sessionId = sessionId := by
  rw [Sessions.insert, Function.update_self, Option.some.injEq] at hfound
  rw [← hfound]
  exact hcontext

theorem Invariant.sessionId_entry (hinvariant : calls.Invariant sessionId)
    (now : DateTime) :
    (calls.manager.sessions.entry sessionId now).sessionId = sessionId := by
  rw [Sessions.entry]
  cases hfound : calls.manager.sessions sessionId with
  | none => rfl
  | some context => exact hinvariant.keyed context hfound

theorem sessionId_recordActual (context : SessionPredictionContext)
    (messageId : MessageId) (actualTool : String) (now : DateTime) :
    (context.recordActual messageId actualTool now).sessionId =
      context.sessionId := by
  rw [SessionPredictionContext.recordActual]
  cases findPrediction messageId context.predictions <;> rfl

theorem Invariant.keyed_addMessage (hinvariant : calls.Invariant sessionId)
    (message : MessageFlow) (now : DateTime) (context : SessionPredictionContext)
    (hfound : (calls.manager.sessions.addMessage sessionId message now)
      sessionId = some context) : context.sessionId = sessionId := by
  cases hold : calls.manager.sessions sessionId with
  | none =>
      simp only [Sessions.addMessage, hold] at hfound
      cases hfound
  | some old =>
      simp only [Sessions.addMessage, hold] at hfound
      have hadded : (old.addMessage message now).sessionId = sessionId :=
        hinvariant.keyed old hold
      exact sessionId_insert hadded hfound

theorem Invariant.keyed_recordActualTool
    (hinvariant : calls.Invariant sessionId) (messageId : MessageId)
    (actualTool : String) (now : DateTime) (context : SessionPredictionContext)
    (hfound : (calls.manager.sessions.recordActualTool sessionId messageId
      actualTool now) sessionId = some context) :
    context.sessionId = sessionId := by
  cases hold : calls.manager.sessions sessionId with
  | none =>
      simp only [Sessions.recordActualTool, hold] at hfound
      cases hfound
  | some old =>
      simp only [Sessions.recordActualTool, hold] at hfound
      refine sessionId_insert ?_ hfound
      rw [sessionId_recordActual]
      exact hinvariant.keyed old hold

/-- What one call adds and whose copy it writes back. -/
theorem Invariant.content_predicted (hinvariant : calls.Invariant sessionId)
    {index : ℕ} {call : PredictCall}
    (hcall : calls.manager.predicting[index]? = some call) (now : DateTime)
    (outcome : PredictionOutcome) :
    (calls.manager.predicted call index now (some outcome)).sessions.content
        sessionId =
      call.context.content.addPrediction
        (call.sessionPrediction outcome now) := by
  have hsession := hinvariant.calling call (List.mem_of_getElem? hcall)
  change (calls.manager.sessions.insert call.context.sessionId
    (call.updatedContext outcome now)).content sessionId = _
  rw [hsession, content_insert]
  rfl

theorem Invariant.predicted (hinvariant : calls.Invariant sessionId)
    {index : ℕ} {call : PredictCall}
    (hcall : calls.manager.predicting[index]? = some call) (now : DateTime)
    (outcome : Option PredictionOutcome)
    (hundisturbed : calls.Undisturbed sessionId
      (.predicted index outcome now)) :
    Invariant sessionId
      ⟨calls.manager.predicted call index now outcome,
        calls.complete (.predicted index outcome now)⟩ := by
  have hsession := hinvariant.calling call (List.mem_of_getElem? hcall)
  have hrest : ∀ other ∈ calls.manager.predicting.eraseIdx index,
      other.context.sessionId = sessionId := fun other hother =>
    hinvariant.calling other (List.mem_of_mem_eraseIdx hother)
  cases outcome with
  | none => exact ⟨hinvariant.kept, hinvariant.keyed, hrest⟩
  | some outcome =>
      refine ⟨?_, ?_, hrest⟩
      · have hcopy := hundisturbed call hcall
        unfold NoLostUpdate complete
        rw [hinvariant.content_predicted hcall, hcopy, hinvariant.kept]
        simp only [hcall]
      · intro context hfound
        change (calls.manager.sessions.insert call.context.sessionId
          (call.updatedContext outcome now)) sessionId = some context at hfound
        rw [hsession] at hfound
        have hupdated : (call.updatedContext outcome now).sessionId =
            sessionId := hsession
        exact sessionId_insert hupdated hfound

theorem Invariant.step (hinvariant : calls.Invariant sessionId)
    {action : SessionAction}
    (hstep : SessionCalls.step sessionId calls action = some next)
    (hundisturbed : calls.Undisturbed sessionId action) :
    next.Invariant sessionId := by
  obtain ⟨hcalls, manager, hmanager, rfl⟩ := step_eq hstep
  have hkept := hinvariant.kept
  unfold NoLostUpdate at hkept
  cases action with
  | getOrCreateSession called now => exact hcalls.elim
  | updateSession index => exact hcalls.elim
  | cleanupInactiveSessions cutoff => exact hcalls.elim
  | addMessage called message now =>
      obtain rfl : called = sessionId := hcalls
      obtain rfl := Option.some.inj hmanager
      unfold Undisturbed at hundisturbed
      refine ⟨?_, hinvariant.keyed_addMessage message now, hinvariant.calling⟩
      unfold NoLostUpdate complete
      rw [content_addMessage, if_pos hundisturbed, hkept]
  | predict called messageId now =>
      obtain rfl : called = sessionId := hcalls
      obtain rfl := Option.some.inj hmanager
      refine ⟨?_, ?_, ?_⟩
      · unfold NoLostUpdate complete Sessions.getOrCreateSession
        rw [content_insert, content_entry, hkept]
      · intro context hfound
        exact sessionId_insert (hinvariant.sessionId_entry now) hfound
      · intro call hcall
        rcases List.mem_append.mp hcall with hold | hnew
        · exact hinvariant.calling call hold
        · rw [List.mem_singleton.mp hnew]
          exact hinvariant.sessionId_entry now
  | predicted index outcome now =>
      obtain ⟨call, hcall, rfl⟩ := Option.map_eq_some_iff.mp hmanager
      exact hinvariant.predicted hcall now outcome hundisturbed
  | recordActualTool called messageId actualTool now =>
      obtain rfl : called = sessionId := hcalls
      obtain rfl := Option.some.inj hmanager
      refine ⟨?_, hinvariant.keyed_recordActualTool messageId actualTool now,
        hinvariant.calling⟩
      unfold NoLostUpdate complete
      rw [content_recordActualTool, hkept]
  | recordPrediction called prediction now =>
      obtain rfl : called = sessionId := hcalls
      obtain rfl := Option.some.inj hmanager
      refine ⟨?_, ?_, hinvariant.calling⟩
      · unfold NoLostUpdate complete
        rw [content_recordPrediction, hkept]
      · intro context hfound
        have hupdated : ((calls.manager.sessions.entry called
            now).addPrediction prediction now).sessionId = called :=
          hinvariant.sessionId_entry now
        exact sessionId_insert hupdated hfound

/-- An update that is lost shows in the session at once. -/
theorem Invariant.undisturbed_of_next (hinvariant : calls.Invariant sessionId)
    {action : SessionAction}
    (hstep : SessionCalls.step sessionId calls action = some next)
    (hnext : next.NoLostUpdate sessionId) :
    calls.Undisturbed sessionId action := by
  obtain ⟨hcalls, manager, hmanager, rfl⟩ := step_eq hstep
  have hkept := hinvariant.kept
  unfold NoLostUpdate at hkept hnext
  cases action with
  | addMessage called message now =>
      obtain rfl : called = sessionId := hcalls
      obtain rfl := Option.some.inj hmanager
      unfold Undisturbed
      by_contra hmissing
      dsimp only at hnext
      rw [content_addMessage, if_neg hmissing, hkept] at hnext
      exact calls.expected.addMessage_ne message hnext
  | predicted index outcome now =>
      obtain ⟨call, hcall, rfl⟩ := Option.map_eq_some_iff.mp hmanager
      cases outcome with
      | none => trivial
      | some outcome =>
          intro other hother
          rw [hcall, Option.some.injEq] at hother
          subst hother
          dsimp only at hnext
          rw [hinvariant.content_predicted hcall] at hnext
          simp only [complete, hcall] at hnext
          rw [hkept]
          exact SessionContent.addPrediction_inj.mp hnext
  | _ => trivial

end Steps

/-- No update of the session is lost in a run exactly when every message finds
the session and every copy is written back over the session it was taken
from. -/
theorem throughout_noLostUpdate_iff (sessionId : SessionId)
    (trace : List SessionAction) :
    (machine sessionId).Throughout (NoLostUpdate sessionId) new trace ↔
      (machine sessionId).Along (Undisturbed sessionId) new trace := by
  apply StepMachine.throughout_iff_along ?_ ?_ ?_ (new_invariant sessionId)
  · intro before action after hinvariant hstep hundisturbed
    exact hinvariant.step hstep hundisturbed
  · intro reached hinvariant
    exact hinvariant.kept
  · intro before action after hinvariant hstep hafter
    exact hinvariant.undisturbed_of_next hstep hafter

/-! ## A prediction recorded while another one is made -/

def toolPrediction : ToolPrediction :=
  ⟨"tools.list", 0.8, "Matched 'tools/list' pattern", ⟨.null, .null⟩⟩

def overlapSession : SessionId := ⟨.filled 16 1⟩

def recordedPrediction : SessionPrediction :=
  .new ⟨.filled 16 2⟩ toolPrediction none 3 Auth.smallInstant

def overlapTrace : List SessionAction :=
  [.predict overlapSession ⟨.filled 16 3⟩ Auth.smallInstant,
    .recordPrediction overlapSession recordedPrediction Auth.smallInstant,
    .predicted 0 (some ⟨toolPrediction, "record", 5⟩) Auth.smallInstant]

/-- All calls have completed, two predictions were recorded, and the session
has one. -/
theorem overlapTrace_loses_prediction :
    ∃ reached,
      (machine overlapSession).run new overlapTrace = some reached ∧
      reached.manager.predicting = [] ∧
      reached.expected.predictions.length = 2 ∧
      (reached.manager.sessions.content overlapSession).predictions.length =
        1 ∧
      ¬ (machine overlapSession).Throughout (NoLostUpdate overlapSession) new
        overlapTrace := by
  refine ⟨_, rfl, rfl, rfl, rfl, ?_⟩
  intro hthrough
  have hkept := hthrough overlapTrace (List.prefix_refl _) _ rfl
  have hlength := congrArg
    (fun content : SessionContent => content.predictions.length) hkept
  cases hlength

end SessionCalls

end Llm
end Acdp
