import Acdp.CommonTypes
import Acdp.StepMachine

/-!
# Prediction sessions

A session keeps its messages, its predictions and counters about them.  The
manager works on its sessions under one lock, a call at a time, except that a
prediction is made on a copy: the call reads the session, waits for the
predictor, and writes the copy back with the prediction added.
-/

namespace Acdp
namespace Llm

open Auth (DateTime)
open Common (MessageFlow MessageId SessionId)
open Json

open Float.Model in
/-- `as f64`, which is exact: the value is taken apart and put together
anew. -/
def asF64 (value : Float32) : Float :=
  .ofModel <| .pack <|
    match value.toModel.unpack with
    | .finite sign mantissa exponent _ =>
        UnpackedFloat.round Format.binary64 sign mantissa exponent
    | special => special

structure ToolPrediction where
  toolName : String
  confidence : Float32
  reasoning : String
  parameters : OrderedValue

structure SessionPrediction where
  messageId : MessageId
  prediction : ToolPrediction
  actualTool : Option String
  wasAccurate : Bool
  confidence : Float32
  latencyMs : ℕ
  timestamp : DateTime
  predictionRecordId : Option String

namespace SessionPrediction

def new (messageId : MessageId) (prediction : ToolPrediction)
    (predictionRecordId : Option String) (latencyMs : ℕ) (now : DateTime) :
    SessionPrediction where
  messageId := messageId
  prediction := prediction
  actualTool := none
  wasAccurate := false
  confidence := prediction.confidence
  latencyMs := latencyMs
  timestamp := now
  predictionRecordId := predictionRecordId

def markActual (self : SessionPrediction) (actualTool : String) :
    SessionPrediction :=
  { self with
    wasAccurate := self.prediction.toolName == actualTool
    actualTool := some actualTool }

end SessionPrediction

/-- The first prediction for the message. -/
def findPrediction (messageId : MessageId)
    (predictions : List SessionPrediction) : Option SessionPrediction :=
  predictions.find? (fun prediction => prediction.messageId = messageId)

/-- The first prediction for the message is marked, if there is one. -/
def markFirst (messageId : MessageId) (actualTool : String) :
    List SessionPrediction → List SessionPrediction
  | [] => []
  | prediction :: rest =>
      if prediction.messageId = messageId then
        prediction.markActual actualTool :: rest
      else prediction :: markFirst messageId actualTool rest

def recentWindow : ℕ := 10

/-- What `update_optimization_score` computes from the predictions. -/
def optimizationScore (predictions : List SessionPrediction) : Float32 :=
  let recentPredictions := predictions.reverse.take recentWindow
  if recentPredictions.isEmpty then 0.0
  else
    let count := Float32.ofNat recentPredictions.length
    let accurateCount :=
      Float32.ofNat (recentPredictions.countP SessionPrediction.wasAccurate)
    let avgConfidence :=
      (recentPredictions.map SessionPrediction.confidence).foldl (· + ·) 0.0 /
        count
    (accurateCount / count) * 0.7 + avgConfidence * 0.3

structure SessionPredictionContext where
  sessionId : SessionId
  messageHistory : List MessageFlow
  predictions : List SessionPrediction
  totalPredictions : ℕ
  successfulPredictions : ℕ
  optimizationScore : Float32
  lastUpdated : DateTime

namespace SessionPredictionContext

def new (sessionId : SessionId) (now : DateTime) :
    SessionPredictionContext where
  sessionId := sessionId
  messageHistory := []
  predictions := []
  totalPredictions := 0
  successfulPredictions := 0
  optimizationScore := 0.0
  lastUpdated := now

def addMessage (self : SessionPredictionContext) (message : MessageFlow)
    (now : DateTime) : SessionPredictionContext :=
  { self with
    messageHistory := self.messageHistory ++ [message]
    lastUpdated := now }

def addPrediction (self : SessionPredictionContext)
    (prediction : SessionPrediction) (now : DateTime) :
    SessionPredictionContext :=
  { self with
    totalPredictions := self.totalPredictions + 1
    successfulPredictions :=
      if prediction.wasAccurate then self.successfulPredictions + 1
      else self.successfulPredictions
    predictions := self.predictions ++ [prediction]
    optimizationScore :=
      Llm.optimizationScore (self.predictions ++ [prediction])
    lastUpdated := now }

def accuracy (self : SessionPredictionContext) : Float32 :=
  if self.totalPredictions = 0 then 0.0
  else
    Float32.ofNat self.successfulPredictions /
      Float32.ofNat self.totalPredictions

/-- A prediction is marked with the tool that was used, if it is there. -/
def recordActual (self : SessionPredictionContext) (messageId : MessageId)
    (actualTool : String) (now : DateTime) : SessionPredictionContext :=
  match findPrediction messageId self.predictions with
  | none => self
  | some _ =>
      { self with
        predictions := markFirst messageId actualTool self.predictions
        lastUpdated := now }

end SessionPredictionContext

/-- The sessions of a manager. -/
abbrev Sessions := SessionId → Option SessionPredictionContext

namespace Sessions

variable (self : Sessions)

def insert (sessionId : SessionId) (context : SessionPredictionContext) :
    Sessions :=
  Function.update self sessionId (some context)

/-- The session, or a new one. -/
def entry (sessionId : SessionId) (now : DateTime) :
    SessionPredictionContext :=
  (self sessionId).getD (.new sessionId now)

def getOrCreateSession (sessionId : SessionId) (now : DateTime) : Sessions :=
  self.insert sessionId (self.entry sessionId now)

def updateSession (context : SessionPredictionContext) : Sessions :=
  self.insert context.sessionId context

def addMessage (sessionId : SessionId) (message : MessageFlow)
    (now : DateTime) : Sessions :=
  match self sessionId with
  | none => self
  | some context => self.insert sessionId (context.addMessage message now)

def recordActualTool (sessionId : SessionId) (messageId : MessageId)
    (actualTool : String) (now : DateTime) : Sessions :=
  match self sessionId with
  | none => self
  | some context =>
      self.insert sessionId (context.recordActual messageId actualTool now)

def recordPredictionForSession (sessionId : SessionId)
    (prediction : SessionPrediction) (now : DateTime) : Sessions :=
  self.insert sessionId
    ((self.entry sessionId now).addPrediction prediction now)

def cleanupInactiveSessions (cutoff : DateTime) : Sessions := fun sessionId =>
  (self sessionId).filter (fun context => cutoff < context.lastUpdated)

end Sessions

/-- A call of `predict_for_session` that waits for the predictor, with the
copy of the session it has read. -/
structure PredictCall where
  context : SessionPredictionContext
  messageId : MessageId

/-- What the predictor returned to the call, and how long it took. -/
structure PredictionOutcome where
  prediction : ToolPrediction
  recordId : String
  latencyMs : ℕ

namespace PredictCall

def sessionPrediction (self : PredictCall) (outcome : PredictionOutcome)
    (now : DateTime) : SessionPrediction :=
  .new self.messageId outcome.prediction (some outcome.recordId)
    outcome.latencyMs now

/-- What the call writes back. -/
def updatedContext (self : PredictCall) (outcome : PredictionOutcome)
    (now : DateTime) : SessionPredictionContext :=
  self.context.addPrediction (self.sessionPrediction outcome now) now

end PredictCall

/-! ## The manager and its callers -/

/-- `held` are the contexts that callers have read and may write back. -/
structure SessionManager where
  sessions : Sessions
  held : List SessionPredictionContext
  predicting : List PredictCall

/-- Each action is what a call does under one acquisition of the lock. -/
inductive SessionAction where
  | getOrCreateSession (sessionId : SessionId) (now : DateTime)
  | updateSession (index : ℕ)
  | addMessage (sessionId : SessionId) (message : MessageFlow) (now : DateTime)
  | predict (sessionId : SessionId) (messageId : MessageId) (now : DateTime)
  | predicted (index : ℕ) (outcome : Option PredictionOutcome) (now : DateTime)
  | recordActualTool (sessionId : SessionId) (messageId : MessageId)
      (actualTool : String) (now : DateTime)
  | recordPrediction (sessionId : SessionId) (prediction : SessionPrediction)
      (now : DateTime)
  | cleanupInactiveSessions (cutoff : DateTime)

namespace SessionManager

def new : SessionManager := ⟨fun _ => none, [], []⟩

/-- A call whose predictor fails writes nothing back. -/
def predicted (self : SessionManager) (call : PredictCall) (index : ℕ)
    (now : DateTime) : Option PredictionOutcome → SessionManager
  | none => { self with predicting := self.predicting.eraseIdx index }
  | some outcome =>
      { self with
        sessions := self.sessions.updateSession (call.updatedContext outcome now)
        predicting := self.predicting.eraseIdx index }

def step (self : SessionManager) : SessionAction → Option SessionManager
  | .getOrCreateSession sessionId now =>
      some { self with
        sessions := self.sessions.getOrCreateSession sessionId now
        held := self.held ++ [self.sessions.entry sessionId now] }
  | .updateSession index =>
      self.held[index]?.map (fun context =>
        { self with sessions := self.sessions.updateSession context })
  | .addMessage sessionId message now =>
      some { self with
        sessions := self.sessions.addMessage sessionId message now }
  | .predict sessionId messageId now =>
      some { self with
        sessions := self.sessions.getOrCreateSession sessionId now
        predicting := self.predicting ++
          [⟨self.sessions.entry sessionId now, messageId⟩] }
  | .predicted index outcome now =>
      self.predicting[index]?.map
        (fun call => self.predicted call index now outcome)
  | .recordActualTool sessionId messageId actualTool now =>
      some { self with
        sessions :=
          self.sessions.recordActualTool sessionId messageId actualTool now }
  | .recordPrediction sessionId prediction now =>
      some { self with
        sessions :=
          self.sessions.recordPredictionForSession sessionId prediction now }
  | .cleanupInactiveSessions cutoff =>
      some { self with
        sessions := self.sessions.cleanupInactiveSessions cutoff }

def machine : StepMachine SessionManager SessionAction := ⟨step⟩

end SessionManager

end Llm
end Acdp
