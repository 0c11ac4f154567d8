import Acdp.CoreInterceptor
import Acdp.LlmInterceptor
import Acdp.LlmToolPredictor
import Acdp.StepMachine
import Mathlib.Data.List.AList

/-!
# Predictions that wait for a response

A message that goes out is predicted, which enters a row, and then filed under
the text of its identifier; a response that comes in takes the entry out and
resolves its row.  Each prediction for a request is resolved once, with the
tool of the request and by its own response, exactly when no response is
filed, no entry takes the place of another, and a response that finds an entry
has the identifier of its request, whose tool is known and can be stored.
-/

namespace Acdp
namespace Llm

open Acdp.Core Json
open Auth (DateTime)
open Common (MessageId SessionId)
open LlmInterceptor (determineActualTool extractMcpContext extractRequestId)

inductive RoutingMode where
  | bypass
  | semantic
  | hybrid
deriving DecidableEq

structure PendingPrediction where
  recordId : String
  predictedTool : String
  actualTool : Option String
  sessionId : Option SessionId
  messageId : Option MessageId

abbrev PendingPredictions := AList (fun _ : String => PendingPrediction)

/-- A message whose prediction has been made, but not filed. -/
structure PredictedMessage where
  message : JsonRpcMessage
  outcome : ToolPredictor.PredictionOutcome
  sessionId : Option SessionId
  messageId : MessageId

namespace PredictedMessage

def pendingPrediction (self : PredictedMessage) : PendingPrediction where
  recordId := self.outcome.recordId
  predictedTool := self.outcome.prediction.toolName
  actualTool := determineActualTool self.message
  sessionId := self.sessionId
  messageId := some self.messageId

end PredictedMessage

/-- A request that has been predicted and sent, and whether a response with
its identifier has arrived since. -/
structure SentRequest where
  request : JsonRpcRequest
  recordId : String
  answered : Bool

def SentRequest.actualTool (self : SentRequest) : Option String :=
  determineActualTool (.request self.request)

def SentRequest.answer (self : SentRequest) (response : JsonRpcResponse) :
    SentRequest :=
  if self.request.id = response.id then { self with answered := true }
  else self

/-- The row of the request is resolved with its tool when its response has
arrived, and before that with nothing. -/
structure SentRequest.Tracked (sent : SentRequest)
    (database : PredictionsDatabase) : Prop where
  entered : sent.recordId ∈ database.ids
  resolved : sent.answered = true →
    ∃ tool, sent.actualTool = some tool ∧
      database.toolOf sent.recordId = some tool
  waits : sent.answered = false → database.toolOf sent.recordId = none

theorem SentRequest.Tracked.insert {sent : SentRequest}
    {database inserted : PredictionsDatabase} {record : PredictionRecord}
    (htracked : sent.Tracked database)
    (hinsert : database.insert record = some inserted)
    (hactual : record.actualTool = none) : sent.Tracked inserted where
  entered := by
    rw [(PredictionsDatabase.ids_insert hinsert).2]
    exact List.mem_append_left _ htracked.entered
  resolved hanswered := by
    rw [PredictionsDatabase.toolOf_insert hinsert hactual]
    exact htracked.resolved hanswered
  waits hwaits := by
    rw [PredictionsDatabase.toolOf_insert hinsert hactual]
    exact htracked.waits hwaits

/-- What the session manager is told about a message. -/
structure SessionMark where
  sessionId : SessionId
  messageId : MessageId
  actualTool : String

/-- `sent` keeps account of the requests; the interceptor does not look at
it. -/
structure InterceptorState where
  routingMode : RoutingMode
  pending : PendingPredictions
  database : PredictionsDatabase
  predicted : List PredictedMessage
  sessionMarks : List SessionMark
  sent : List SentRequest

namespace InterceptorState

def new (routingMode : RoutingMode) : InterceptorState where
  routingMode := routingMode
  pending := ∅
  database := .empty
  predicted := []
  sessionMarks := []
  sent := []

section Operations

variable (self : InterceptorState)

def shouldIntercept (direction : MessageDirection) (message : JsonRpcMessage) :
    Bool :=
  match direction, message with
  | .outgoing, _ => true
  | .incoming, .response _ => true
  | .incoming, _ => false

/-- The mode and the rules decide whether a prediction is asked for. -/
def predicts (ruleMatches : Bool) : Bool :=
  match self.routingMode with
  | .bypass => false
  | .semantic => true
  | .hybrid => !ruleMatches

/-- The prediction is that of any predictor; its row has the identifier that
was drawn for it.  Where it cannot be entered, the message has no
prediction. -/
def predictTool (floats : FloatText) (hashContext : String → String)
    (message : JsonRpcMessage) (sessionId : Option SessionId)
    (messageId : MessageId) (drawn : String) (prediction : ToolPrediction)
    (now : DateTime) : InterceptorState :=
  match ToolPredictor.persistPrediction hashContext self.database drawn
      (extractMcpContext floats message) prediction now with
  | none => self
  | some (database, outcome) =>
      { self with
        database := database
        predicted :=
          self.predicted ++ [⟨message, outcome, sessionId, messageId⟩] }

/-- What is filed for a predicted message. -/
def fileMessage (found : PredictedMessage) : PendingPredictions :=
  match extractRequestId found.message with
  | some requestId => self.pending.insert requestId found.pendingPrediction
  | none => self.pending

/-- A request is sent once it has been filed. -/
def sendMessage (found : PredictedMessage) : List SentRequest :=
  match found.message with
  | .request request =>
      self.sent ++ [⟨request, found.outcome.recordId, false⟩]
  | _ => self.sent

def file (index : ℕ) : Option InterceptorState :=
  self.predicted[index]?.map (fun found =>
    { self with
      pending := self.fileMessage found
      predicted := self.predicted.eraseIdx index
      sent := self.sendMessage found })

/-- The row of an entry is resolved, if its tool is known and the database
stores it. -/
def resolve (found : PendingPrediction) (stored : Bool) :
    PredictionsDatabase :=
  match found.actualTool with
  | some actualTool =>
      if stored then
        self.database.updatePredictionResult found.recordId actualTool
      else self.database
  | none => self.database

def markSession (found : PendingPrediction) : List SessionMark :=
  match found.actualTool, found.sessionId, found.messageId with
  | some actualTool, some sessionId, some messageId =>
      self.sessionMarks ++ [⟨sessionId, messageId, actualTool⟩]
  | _, _, _ => self.sessionMarks

def updatePredictionAccuracy (message : JsonRpcMessage) (stored : Bool) :
    InterceptorState :=
  match extractRequestId message with
  | none => self
  | some requestId =>
      match self.pending.lookup requestId with
      | none => self
      | some found =>
          { self with
            pending := self.pending.erase requestId
            database := self.resolve found stored
            sessionMarks := self.markSession found }

/-- A response that arrives answers the requests with its identifier. -/
def arrive (message : JsonRpcMessage) : List SentRequest :=
  match message with
  | .response response => self.sent.map (fun sent => sent.answer response)
  | _ => self.sent

/-- `stored` says whether the database takes the update. -/
def incoming (message : JsonRpcMessage) (stored : Bool) : InterceptorState :=
  if shouldIntercept .incoming message then
    { self.updatePredictionAccuracy message stored with
      sent := self.arrive message }
  else self

end Operations

inductive Action where
  | setRoutingMode (mode : RoutingMode)
  | outgoing (message : JsonRpcMessage) (ruleMatches : Bool)
      (sessionId : Option SessionId) (messageId : MessageId) (drawn : String)
      (prediction : ToolPrediction) (now : DateTime)
  | file (index : ℕ)
  | incoming (message : JsonRpcMessage) (stored : Bool)

section Machine

variable (floats : FloatText) (hashContext : String → String)

def step (self : InterceptorState) : Action → Option InterceptorState
  | .setRoutingMode mode => some { self with routingMode := mode }
  | .outgoing message ruleMatches sessionId messageId drawn prediction now =>
      if self.predicts ruleMatches then
        some (self.predictTool floats hashContext message sessionId messageId
          drawn prediction now)
      else some self
  | .file index => self.file index
  | .incoming message stored => some (self.incoming message stored)

def machine : StepMachine InterceptorState Action := ⟨step floats hashContext⟩

end Machine

/-! ## What should hold of the entries -/

/-- Every request is resolved by its response and by nothing else, and the
entries are those of the requests that wait for one. -/
structure ResolvedOnce (found : InterceptorState) : Prop where
  tracked : ∀ sent ∈ found.sent, sent.Tracked found.database
  entries : ∀ key entry, found.pending.lookup key = some entry →
    ∃ sent ∈ found.sent, sent.answered = false ∧
      sent.request.id.display = key ∧ sent.recordId = entry.recordId
  filed : ∀ sent ∈ found.sent, sent.answered = false →
    ∃ entry, found.pending.lookup sent.request.id.display = some entry ∧
      entry.recordId = sent.recordId ∧ entry.actualTool = sent.actualTool

/-- What is filed is a request under a key that is free, or a message without
an identifier. -/
def FilesFree (self : InterceptorState) (message : JsonRpcMessage) : Prop :=
  match message with
  | .request request => request.id.display ∉ self.pending
  | .response _ => False
  | .notification _ => True

/-- A response finds an entry only under its own identifier, and its tool is
known and stored. -/
def AnswersOwn (self : InterceptorState) (message : JsonRpcMessage)
    (stored : Bool) : Prop :=
  match message with
  | .response response =>
      ∀ sent ∈ self.sent, sent.answered = false →
        sent.request.id.display = response.id.display →
          sent.request.id = response.id ∧ sent.actualTool.isSome = true ∧
            stored = true
  | _ => True

def Orderly (self : InterceptorState) : Action → Prop
  | .file index => ∀ found, self.predicted[index]? = some found →
      self.FilesFree found.message
  | .incoming message stored => self.AnswersOwn message stored
  | _ => True

/-! ## Answers -/

section Answers

variable (sent : SentRequest) (response : JsonRpcResponse)

@[simp] theorem answer_request : (sent.answer response).request =
    sent.request := by
  unfold SentRequest.answer
  split_ifs <;> rfl

@[simp] theorem answer_recordId : (sent.answer response).recordId =
    sent.recordId := by
  unfold SentRequest.answer
  split_ifs <;> rfl

@[simp] theorem answer_actualTool : (sent.answer response).actualTool =
    sent.actualTool := by
  unfold SentRequest.actualTool
  rw [answer_request]

theorem answer_answered_eq_false_iff :
    (sent.answer response).answered = false ↔
      sent.answered = false ∧ sent.request.id ≠ response.id := by
  unfold SentRequest.answer
  split_ifs with hid <;> simp [hid]

theorem answer_answered_eq_true_iff :
    (sent.answer response).answered = true ↔
      sent.answered = true ∨ sent.request.id = response.id := by
  unfold SentRequest.answer
  split_ifs with hid <;> simp [hid]

variable {sent response} {database : PredictionsDatabase}

/-- A response is nothing to a request that has another identifier or its
response already. -/
theorem tracked_answer_idle (htracked : sent.Tracked database)
    (hidle : sent.answered = false → sent.request.id ≠ response.id) :
    (sent.answer response).Tracked database := by
  constructor
  · rw [answer_recordId]
    exact htracked.entered
  · intro htrue
    rw [answer_actualTool, answer_recordId]
    obtain hbefore | hid := (answer_answered_eq_true_iff _ _).mp htrue
    · exact htracked.resolved hbefore
    · apply htracked.resolved
      by_contra hwaits
      exact hidle (Bool.eq_false_iff.mpr hwaits) hid
  · intro hfalse
    rw [answer_recordId]
    exact htracked.waits ((answer_answered_eq_false_iff _ _).mp hfalse).1

theorem tracked_answer_own (htracked : sent.Tracked database)
    (hid : sent.request.id = response.id) {tool : String}
    (htool : sent.actualTool = some tool) :
    (sent.answer response).Tracked
      (database.updatePredictionResult sent.recordId tool) := by
  constructor
  · rw [answer_recordId, PredictionsDatabase.ids_updatePredictionResult]
    exact htracked.entered
  · intro _
    rw [answer_actualTool, answer_recordId]
    exact ⟨tool, htool,
      PredictionsDatabase.toolOf_updatePredictionResult_self htracked.entered
        tool⟩
  · intro hfalse
    exact absurd hid ((answer_answered_eq_false_iff _ _).mp hfalse).2

theorem tracked_update_ne (htracked : sent.Tracked database)
    {recordId : String} (hother : sent.recordId ≠ recordId) (tool : String) :
    sent.Tracked (database.updatePredictionResult recordId tool) := by
  have hsame := database.toolOf_updatePredictionResult_ne hother tool
  constructor
  · rw [PredictionsDatabase.ids_updatePredictionResult]
    exact htracked.entered
  · rw [hsame]
    exact htracked.resolved
  · rw [hsame]
    exact htracked.waits

end Answers

/-! ## The invariant -/

/-- What has been predicted and not filed has a row of its own, which is not
resolved. -/
structure Invariant (found : InterceptorState) : Prop where
  resolvedOnce : found.ResolvedOnce
  unfiled : ∀ predicted ∈ found.predicted,
    predicted.outcome.recordId ∈ found.database.ids ∧
      found.database.toolOf predicted.outcome.recordId = none
  distinct : (found.sent.map SentRequest.recordId ++
    found.predicted.map (fun predicted => predicted.outcome.recordId)).Nodup

theorem new_invariant (routingMode : RoutingMode) :
    (new routingMode).Invariant where
  resolvedOnce :=
    { tracked := by simp [new]
      entries := by
        intro key entry hlookup
        cases hlookup
      filed := by simp [new] }
  unfiled := by simp [new]
  distinct := List.nodup_nil

section Invariants

variable {self next : InterceptorState}

theorem Invariant.recordId_inj (hinvariant : self.Invariant)
    {left right : SentRequest} (hleft : left ∈ self.sent)
    (hright : right ∈ self.sent) (hsame : left.recordId = right.recordId) :
    left = right :=
  List.inj_on_of_nodup_map
    (List.nodup_append.mp hinvariant.distinct).1 hleft hright hsame

theorem Invariant.recordId_ne (hinvariant : self.Invariant)
    {sent : SentRequest} (hsent : sent ∈ self.sent)
    {predicted : PredictedMessage} (hpredicted : predicted ∈ self.predicted) :
    sent.recordId ≠ predicted.outcome.recordId :=
  (List.nodup_append.mp hinvariant.distinct).2.2 _
    (List.mem_map_of_mem hsent) _ (List.mem_map_of_mem hpredicted)

/-- Requests that wait have different keys. -/
theorem Invariant.display_inj (hinvariant : self.Invariant)
    {left right : SentRequest} (hleft : left ∈ self.sent)
    (hright : right ∈ self.sent) (hleftWaits : left.answered = false)
    (hrightWaits : right.answered = false)
    (hsame : left.request.id.display = right.request.id.display) :
    left = right := by
  obtain ⟨entry, hentry, hrecord, _⟩ :=
    hinvariant.resolvedOnce.filed left hleft hleftWaits
  obtain ⟨other, hother, hotherRecord, _⟩ :=
    hinvariant.resolvedOnce.filed right hright hrightWaits
  rw [← hsame, hentry, Option.some.injEq] at hother
  subst hother
  exact hinvariant.recordId_inj hleft hright
    (hrecord.symm.trans hotherRecord)

/-! ### Predictions -/

theorem toolOf_of_notMem {database : PredictionsDatabase} {id : String}
    (habsent : id ∉ database.ids) : database.toolOf id = none := by
  unfold PredictionsDatabase.toolOf
  have hnone : database.records.find? (fun record => record.id = id) =
      none := by
    rw [List.find?_eq_none]
    intro record hrecord
    rw [decide_eq_true_iff]
    rintro rfl
    exact habsent (List.mem_map_of_mem hrecord)
  rw [hnone]
  rfl

theorem Invariant.predictTool (hinvariant : self.Invariant)
    (floats : FloatText) (hashContext : String → String)
    (message : JsonRpcMessage) (sessionId : Option SessionId)
    (messageId : MessageId) (drawn : String) (prediction : ToolPrediction)
    (now : DateTime) :
    (self.predictTool floats hashContext message sessionId messageId drawn
      prediction now).Invariant := by
  unfold InterceptorState.predictTool
  split
  · exact hinvariant
  · next database outcome hpersist =>
      obtain ⟨inserted, hentered, hpair⟩ := Option.map_eq_some_iff.mp hpersist
      obtain ⟨rfl, rfl⟩ := Prod.mk.inj hpair
      obtain ⟨stored, hinsert⟩ :=
        PredictionsDatabase.insert_of_recordPrediction hentered
      obtain ⟨hfresh, hids⟩ := PredictionsDatabase.ids_insert hinsert
      have htool := PredictionsDatabase.toolOf_insert hinsert rfl
      refine ⟨⟨?_, hinvariant.resolvedOnce.entries,
        hinvariant.resolvedOnce.filed⟩, ?_, ?_⟩
      · intro sent hsent
        exact (hinvariant.resolvedOnce.tracked sent hsent).insert hinsert rfl
      · intro predicted hpredicted
        dsimp only
        rw [htool, hids, List.mem_append, List.mem_singleton]
        obtain hold | hnew := List.mem_append.mp hpredicted
        · obtain ⟨hentered, hnone⟩ := hinvariant.unfiled predicted hold
          exact ⟨Or.inl hentered, hnone⟩
        · obtain rfl := List.mem_singleton.mp hnew
          exact ⟨Or.inr rfl, toolOf_of_notMem hfresh⟩
      · rw [List.map_append, ← List.append_assoc, List.nodup_append]
        refine ⟨hinvariant.distinct, by simp, ?_⟩
        intro id hid other hother
        rw [List.map_singleton, List.mem_singleton] at hother
        rintro rfl
        rw [hother] at hid
        obtain hsent | hpredicted := List.mem_append.mp hid
        · obtain ⟨sent, hmem, hsame⟩ := List.mem_map.mp hsent
          have hentered :=
            (hinvariant.resolvedOnce.tracked sent hmem).entered
          rw [hsame] at hentered
          exact hfresh hentered
        · obtain ⟨predicted, hmem, hsame⟩ := List.mem_map.mp hpredicted
          have hentered := (hinvariant.unfiled predicted hmem).1
          rw [hsame] at hentered
          exact hfresh hentered

/-! ### Filing -/

theorem file_eq {index : ℕ} (hnext : self.file index = some next) :
    ∃ found, self.predicted[index]? = some found ∧
      found ∈ self.predicted ∧
      (found :: self.predicted.eraseIdx index).Perm self.predicted ∧
      next =
        { self with
          pending := self.fileMessage found
          predicted := self.predicted.eraseIdx index
          sent := self.sendMessage found } := by
  obtain ⟨found, hfound, rfl⟩ := Option.map_eq_some_iff.mp hnext
  obtain ⟨hindex, hget⟩ := List.getElem?_eq_some_iff.mp hfound
  refine ⟨found, hfound, List.mem_of_getElem? hfound, ?_, rfl⟩
  rw [← hget]
  exact List.getElem_cons_eraseIdx_perm hindex

/-- A request is filed under a free key. -/
theorem Invariant.fileRequest (hinvariant : self.Invariant)
    {request : JsonRpcRequest} {found : PredictedMessage}
    (hmem : found ∈ self.predicted) (hmessage : found.message = .request request)
    (hfree : request.id.display ∉ self.pending) :
    ResolvedOnce
      { self with
        pending :=
          self.pending.insert request.id.display found.pendingPrediction
        sent := self.sent ++ [⟨request, found.outcome.recordId, false⟩] } := by
  obtain ⟨hentered, hnone⟩ := hinvariant.unfiled found hmem
  have hother : ∀ sent ∈ self.sent, sent.answered = false →
      sent.request.id.display ≠ request.id.display := by
    intro sent hsent hwaits hsame
    obtain ⟨entry, hentry, _⟩ :=
      hinvariant.resolvedOnce.filed sent hsent hwaits
    rw [hsame] at hentry
    exact hfree (AList.lookup_isSome.mp (by rw [hentry]; rfl))
  constructor
  · intro sent hsent
    obtain hold | hnew := List.mem_append.mp hsent
    · exact hinvariant.resolvedOnce.tracked sent hold
    · obtain rfl := List.mem_singleton.mp hnew
      exact ⟨hentered, by simp, fun _ => hnone⟩
  · intro key entry hlookup
    by_cases hkey : key = request.id.display
    · subst hkey
      rw [AList.lookup_insert, Option.some.injEq] at hlookup
      subst hlookup
      exact ⟨_, List.mem_append_right _ (List.mem_singleton.mpr rfl), rfl,
        rfl, rfl⟩
    · rw [AList.lookup_insert_ne hkey] at hlookup
      obtain ⟨sent, hsent, hfacts⟩ :=
        hinvariant.resolvedOnce.entries key entry hlookup
      exact ⟨sent, List.mem_append_left _ hsent, hfacts⟩
  · intro sent hsent hwaits
    obtain hold | hnew := List.mem_append.mp hsent
    · rw [AList.lookup_insert_ne (hother sent hold hwaits)]
      exact hinvariant.resolvedOnce.filed sent hold hwaits
    · obtain rfl := List.mem_singleton.mp hnew
      refine ⟨found.pendingPrediction, AList.lookup_insert _, rfl, ?_⟩
      change determineActualTool found.message = _
      rw [hmessage]
      rfl

theorem Invariant.file (hinvariant : self.Invariant) {index : ℕ}
    (hnext : self.file index = some next)
    (horderly : self.Orderly (.file index)) : next.Invariant := by
  obtain ⟨found, hfound, hmem, hperm, rfl⟩ := file_eq hnext
  have hfree := horderly found hfound
  have hunfiled : ∀ predicted ∈ self.predicted.eraseIdx index,
      predicted ∈ self.predicted :=
    fun predicted hpredicted => List.mem_of_mem_eraseIdx hpredicted
  have hids := (hperm.map (fun predicted : PredictedMessage =>
    predicted.outcome.recordId)).append_left
      (self.sent.map SentRequest.recordId)
  have hdistinct := hids.nodup_iff.mpr hinvariant.distinct
  rw [List.map_cons] at hdistinct
  cases hmessage : found.message with
  | request request =>
      unfold FilesFree at hfree
      rw [hmessage] at hfree
      refine ⟨?_, fun predicted hpredicted =>
        hinvariant.unfiled predicted (hunfiled predicted hpredicted), ?_⟩
      · have hresolved := hinvariant.fileRequest hmem hmessage hfree
        unfold fileMessage sendMessage extractRequestId
        rw [hmessage]
        exact ⟨hresolved.tracked, hresolved.entries, hresolved.filed⟩
      · unfold sendMessage
        rw [hmessage]
        rw [List.map_append, List.append_assoc]
        exact hdistinct
  | response response =>
      unfold FilesFree at hfree
      rw [hmessage] at hfree
      exact hfree.elim
  | notification notification =>
      refine ⟨?_, fun predicted hpredicted =>
        hinvariant.unfiled predicted (hunfiled predicted hpredicted), ?_⟩
      · unfold fileMessage sendMessage extractRequestId
        rw [hmessage]
        exact ⟨hinvariant.resolvedOnce.tracked,
          hinvariant.resolvedOnce.entries, hinvariant.resolvedOnce.filed⟩
      · unfold sendMessage
        rw [hmessage]
        exact (List.Sublist.append_left (List.sublist_cons_self _ _)
          _).nodup hdistinct

/-! ### Responses -/

theorem incoming_response_of_none {response : JsonRpcResponse}
    (hlookup : self.pending.lookup response.id.display = none)
    (stored : Bool) :
    self.incoming (.response response) stored =
      { self with
        sent := self.sent.map (fun sent => sent.answer response) } := by
  unfold incoming shouldIntercept updatePredictionAccuracy extractRequestId
  simp only [hlookup, if_true]
  rfl

theorem incoming_response_of_some {response : JsonRpcResponse}
    {entry : PendingPrediction}
    (hlookup : self.pending.lookup response.id.display = some entry)
    (stored : Bool) :
    self.incoming (.response response) stored =
      { self with
        pending := self.pending.erase response.id.display
        database := self.resolve entry stored
        sessionMarks := self.markSession entry
        sent := self.sent.map (fun sent => sent.answer response) } := by
  unfold incoming shouldIntercept updatePredictionAccuracy extractRequestId
  simp only [hlookup, if_true]
  rfl

theorem incoming_of_ne_response {message : JsonRpcMessage}
    (hmessage : ∀ response, message ≠ .response response) (stored : Bool) :
    self.incoming message stored = self := by
  cases message with
  | response response => exact absurd rfl (hmessage response)
  | _ => rfl

/-- Without an entry there is no request that waits for the response. -/
theorem Invariant.not_waiting_of_none (hinvariant : self.Invariant)
    {response : JsonRpcResponse}
    (hlookup : self.pending.lookup response.id.display = none)
    {sent : SentRequest} (hsent : sent ∈ self.sent)
    (hwaits : sent.answered = false) :
    sent.request.id.display ≠ response.id.display := by
  intro hsame
  obtain ⟨entry, hentry, _⟩ := hinvariant.resolvedOnce.filed sent hsent hwaits
  rw [hsame, hlookup] at hentry
  cases hentry

theorem Invariant.answer_of_none (hinvariant : self.Invariant)
    {response : JsonRpcResponse}
    (hlookup : self.pending.lookup response.id.display = none) :
    ResolvedOnce { self with
      sent := self.sent.map (fun sent => sent.answer response) } := by
  constructor
  · intro answered hanswered
    obtain ⟨sent, hsent, rfl⟩ := List.mem_map.mp hanswered
    apply tracked_answer_idle (hinvariant.resolvedOnce.tracked sent hsent)
    intro hwaits hid
    exact hinvariant.not_waiting_of_none hlookup hsent hwaits
      (congrArg RequestId.display hid)
  · intro key entry hentry
    obtain ⟨sent, hsent, hwaits, hkey, hrecord⟩ :=
      hinvariant.resolvedOnce.entries key entry hentry
    have hother := hinvariant.not_waiting_of_none hlookup hsent hwaits
    refine ⟨_, List.mem_map_of_mem hsent, ?_, by simpa using hkey,
      by simpa using hrecord⟩
    exact (answer_answered_eq_false_iff _ _).mpr ⟨hwaits, fun hid =>
      hother (congrArg RequestId.display hid)⟩
  · intro answered hanswered hfalse
    obtain ⟨sent, hsent, rfl⟩ := List.mem_map.mp hanswered
    rw [answer_request, answer_recordId, answer_actualTool]
    exact hinvariant.resolvedOnce.filed sent hsent
      ((answer_answered_eq_false_iff _ _).mp hfalse).1

/-- The entry that a response finds is that of the one request that waits
under its key. -/
theorem Invariant.exists_waiting (hinvariant : self.Invariant)
    {response : JsonRpcResponse} {entry : PendingPrediction}
    (hlookup : self.pending.lookup response.id.display = some entry) :
    ∃ sent ∈ self.sent, sent.answered = false ∧
      sent.request.id.display = response.id.display ∧
      entry.recordId = sent.recordId ∧ entry.actualTool = sent.actualTool := by
  obtain ⟨sent, hsent, hwaits, hkey, _⟩ :=
    hinvariant.resolvedOnce.entries _ entry hlookup
  obtain ⟨found, hfound, hrecord, htool⟩ :=
    hinvariant.resolvedOnce.filed sent hsent hwaits
  rw [hkey, hlookup, Option.some.injEq] at hfound
  subst hfound
  exact ⟨sent, hsent, hwaits, hkey, hrecord, htool⟩

/-- A response that takes out the entry of its own request resolves it and
leaves the others as they are. -/
theorem Invariant.answer_of_some (hinvariant : self.Invariant)
    {response : JsonRpcResponse} {entry : PendingPrediction}
    {waiting : SentRequest} (hwaiting : waiting ∈ self.sent)
    (hwaits : waiting.answered = false)
    (hid : waiting.request.id = response.id)
    (hrecord : entry.recordId = waiting.recordId) {tool : String}
    (htool : waiting.actualTool = some tool) :
    ResolvedOnce { self with
      pending := self.pending.erase response.id.display
      database :=
        self.database.updatePredictionResult entry.recordId tool
      sent := self.sent.map (fun sent => sent.answer response) } := by
  have hdisplay : ∀ sent ∈ self.sent, sent.answered = false →
      sent.request.id.display = response.id.display → sent = waiting := by
    intro sent hsent hfalse hsame
    exact hinvariant.display_inj hsent hwaiting hfalse hwaits
      (by rw [hsame, hid])
  constructor
  · intro answered hanswered
    obtain ⟨sent, hsent, rfl⟩ := List.mem_map.mp hanswered
    have htracked := hinvariant.resolvedOnce.tracked sent hsent
    dsimp only
    rw [hrecord]
    by_cases hsame : sent = waiting
    · rw [← hsame] at hid htool ⊢
      exact tracked_answer_own htracked hid htool
    · have hother : sent.recordId ≠ waiting.recordId := fun hequal =>
        hsame (hinvariant.recordId_inj hsent hwaiting hequal)
      apply tracked_answer_idle (tracked_update_ne htracked hother tool)
      intro hfalse hsameId
      exact hsame
        (hdisplay sent hsent hfalse (congrArg RequestId.display hsameId))
  · intro key found hfound
    by_cases hkey : key = response.id.display
    · rw [hkey, AList.lookup_erase] at hfound
      cases hfound
    · rw [AList.lookup_erase_ne hkey] at hfound
      obtain ⟨sent, hsent, hfalse, hdisplayed, hsame⟩ :=
        hinvariant.resolvedOnce.entries key found hfound
      refine ⟨_, List.mem_map_of_mem hsent, ?_, by simpa using hdisplayed,
        by simpa using hsame⟩
      refine (answer_answered_eq_false_iff _ _).mpr ⟨hfalse, ?_⟩
      intro hsameId
      exact hkey (hdisplayed.symm.trans (congrArg RequestId.display hsameId))
  · intro answered hanswered hfalse
    obtain ⟨sent, hsent, rfl⟩ := List.mem_map.mp hanswered
    obtain ⟨hbefore, hother⟩ := (answer_answered_eq_false_iff _ _).mp hfalse
    have hkey : sent.request.id.display ≠ response.id.display := by
      intro hsame
      exact hother (by rw [hdisplay sent hsent hbefore hsame, hid])
    rw [answer_request, answer_recordId, answer_actualTool]
    dsimp only
    rw [AList.lookup_erase_ne hkey]
    exact hinvariant.resolvedOnce.filed sent hsent hbefore

theorem map_recordId_answer (sents : List SentRequest)
    (response : JsonRpcResponse) :
    (sents.map (fun sent => sent.answer response)).map SentRequest.recordId =
      sents.map SentRequest.recordId := by
  rw [List.map_map]
  apply List.map_congr_left
  intro sent _
  exact answer_recordId sent response

theorem Invariant.incoming (hinvariant : self.Invariant)
    {message : JsonRpcMessage} {stored : Bool}
    (horderly : self.AnswersOwn message stored) :
    (self.incoming message stored).Invariant := by
  cases message with
  | response response =>
      cases hlookup : self.pending.lookup response.id.display with
      | none =>
          rw [incoming_response_of_none hlookup]
          refine ⟨hinvariant.answer_of_none hlookup, hinvariant.unfiled, ?_⟩
          rw [map_recordId_answer]
          exact hinvariant.distinct
      | some entry =>
          obtain ⟨sent, hsent, hwaits, hdisplay, hrecord, htool⟩ :=
            hinvariant.exists_waiting hlookup
          obtain ⟨hid, hsome, rfl⟩ := horderly sent hsent hwaits hdisplay
          obtain ⟨tool, hactual⟩ := Option.isSome_iff_exists.mp hsome
          have hresolve : self.resolve entry true =
              self.database.updatePredictionResult entry.recordId tool := by
            unfold InterceptorState.resolve
            rw [htool, hactual]
            rfl
          have hresolved :=
            hinvariant.answer_of_some hsent hwaits hid hrecord hactual
          rw [incoming_response_of_some hlookup, hresolve]
          refine ⟨⟨hresolved.tracked, hresolved.entries, hresolved.filed⟩,
            ?_, ?_⟩
          · intro predicted hpredicted
            obtain ⟨hentered, hnone⟩ := hinvariant.unfiled predicted hpredicted
            have hne := hinvariant.recordId_ne hsent hpredicted
            rw [← hrecord] at hne
            rw [PredictionsDatabase.ids_updatePredictionResult,
              PredictionsDatabase.toolOf_updatePredictionResult_ne hne.symm]
            exact ⟨hentered, hnone⟩
          · rw [map_recordId_answer]
            exact hinvariant.distinct
  | request request =>
      rw [incoming_of_ne_response (by simp)]
      exact hinvariant
  | notification notification =>
      rw [incoming_of_ne_response (by simp)]
      exact hinvariant

theorem Invariant.afterStep (hinvariant : self.Invariant) {floats : FloatText}
    {hashContext : String → String} {action : Action}
    (hnext : self.step floats hashContext action = some next)
    (horderly : self.Orderly action) : next.Invariant := by
  cases action with
  | setRoutingMode mode =>
      obtain rfl := Option.some.inj hnext
      exact ⟨⟨hinvariant.resolvedOnce.tracked, hinvariant.resolvedOnce.entries,
        hinvariant.resolvedOnce.filed⟩, hinvariant.unfiled,
        hinvariant.distinct⟩
  | outgoing message ruleMatches sessionId messageId drawn prediction now =>
      rw [InterceptorState.step] at hnext
      split_ifs at hnext
      · obtain rfl := Option.some.inj hnext
        exact hinvariant.predictTool ..
      · obtain rfl := Option.some.inj hnext
        exact hinvariant
  | file index => exact hinvariant.file hnext horderly
  | incoming message stored =>
      obtain rfl := Option.some.inj hnext
      exact hinvariant.incoming horderly

/-! ### What goes wrong otherwise -/

/-- An entry for a response is that of no request, and an entry that takes the
place of another leaves a request without one. -/
theorem Invariant.filesFree_of_next (hinvariant : self.Invariant) {index : ℕ}
    (hnext : self.file index = some next) (hafter : next.ResolvedOnce) :
    self.Orderly (.file index) := by
  intro other hother
  obtain ⟨found, hfound, hmem, _, rfl⟩ := file_eq hnext
  obtain rfl := Option.some.inj (hother.symm.trans hfound)
  have hnew : ∀ sent ∈ self.sent, sent.recordId ≠ other.outcome.recordId :=
    fun sent hsent => hinvariant.recordId_ne hsent hmem
  unfold FilesFree
  cases hmessage : other.message with
  | request request =>
      intro hkey
      obtain ⟨entry, hentry⟩ :=
        Option.isSome_iff_exists.mp (AList.lookup_isSome.mpr hkey)
      obtain ⟨sent, hsent, hwaits, hdisplay, _⟩ :=
        hinvariant.resolvedOnce.entries _ entry hentry
      have hkept : sent ∈ self.sendMessage other := by
        unfold sendMessage
        rw [hmessage]
        exact List.mem_append_left _ hsent
      obtain ⟨replaced, hreplaced, hrecord, _⟩ :=
        hafter.filed sent hkept hwaits
      have hlookup : (self.fileMessage other).lookup request.id.display =
          some other.pendingPrediction := by
        unfold fileMessage extractRequestId
        simp only [hmessage, AList.lookup_insert]
      dsimp only at hreplaced
      rw [hdisplay, hlookup, Option.some.injEq] at hreplaced
      exact hnew sent hsent (by rw [← hrecord, ← hreplaced]; rfl)
  | response response =>
      have hlookup : (self.fileMessage other).lookup response.id.display =
          some other.pendingPrediction := by
        unfold fileMessage extractRequestId
        simp only [hmessage, AList.lookup_insert]
      obtain ⟨sent, hsent, _, _, hrecord⟩ :=
        hafter.entries _ _ hlookup
      have hold : sent ∈ self.sent := by
        unfold sendMessage at hsent
        rw [hmessage] at hsent
        exact hsent
      exact hnew sent hold hrecord
  | notification notification => trivial

/-- A response that takes out an entry leaves a request without one, if that
has another identifier, and otherwise a request that is answered and not
resolved. -/
theorem Invariant.answersOwn_of_next (hinvariant : self.Invariant)
    {message : JsonRpcMessage} {stored : Bool}
    (hafter : (self.incoming message stored).ResolvedOnce) :
    self.AnswersOwn message stored := by
  cases message with
  | response response =>
      intro sent hsent hwaits hdisplay
      obtain ⟨entry, hentry, hrecord, htool⟩ :=
        hinvariant.resolvedOnce.filed sent hsent hwaits
      rw [hdisplay] at hentry
      rw [incoming_response_of_some hentry] at hafter
      have hmem : sent.answer response ∈
          self.sent.map (fun sent => sent.answer response) :=
        List.mem_map_of_mem hsent
      have hid : sent.request.id = response.id := by
        by_contra hother
        obtain ⟨kept, hkept, _⟩ := hafter.filed _ hmem
          ((answer_answered_eq_false_iff _ _).mpr ⟨hwaits, hother⟩)
        rw [answer_request, hdisplay] at hkept
        dsimp only at hkept
        rw [AList.lookup_erase] at hkept
        cases hkept
      obtain ⟨tool, hactual, hstored⟩ := (hafter.tracked _ hmem).resolved
        ((answer_answered_eq_true_iff _ _).mpr (Or.inr hid))
      rw [answer_actualTool] at hactual
      rw [answer_recordId] at hstored
      refine ⟨hid, by rw [hactual]; rfl, ?_⟩
      by_contra hlost
      have hbefore :=
        (hinvariant.resolvedOnce.tracked sent hsent).waits hwaits
      unfold InterceptorState.resolve at hstored
      rw [htool, hactual] at hstored
      simp only [hlost, Bool.false_eq_true, if_false, hbefore] at hstored
      cases hstored
  | request request => trivial
  | notification notification => trivial

theorem Invariant.orderly_of_next (hinvariant : self.Invariant)
    {floats : FloatText} {hashContext : String → String} {action : Action}
    (hnext : self.step floats hashContext action = some next)
    (hafter : next.ResolvedOnce) : self.Orderly action := by
  cases action with
  | setRoutingMode mode => trivial
  | outgoing message ruleMatches sessionId messageId drawn prediction now =>
      trivial
  | file index => exact hinvariant.filesFree_of_next hnext hafter
  | incoming message stored =>
      obtain rfl := Option.some.inj hnext
      exact hinvariant.answersOwn_of_next hafter

end Invariants

/-- Every prediction is resolved once in a run exactly when no response is
filed, no entry takes the place of another, and every response finds the entry
of its own request, whose tool is known and stored. -/
theorem throughout_resolvedOnce_iff (floats : FloatText)
    (hashContext : String → String) (routingMode : RoutingMode)
    (trace : List Action) :
    (machine floats hashContext).Throughout ResolvedOnce (new routingMode)
        trace ↔
      (machine floats hashContext).Along Orderly (new routingMode) trace := by
  apply StepMachine.throughout_iff_along ?_ ?_ ?_ (new_invariant routingMode)
  · intro before action after hinvariant hstep horderly
    exact hinvariant.afterStep hstep horderly
  · intro reached hinvariant
    exact hinvariant.resolvedOnce
  · intro before action after hinvariant hstep hafter
    exact hinvariant.orderly_of_next hstep hafter

/-! ## A number and a string with the same text -/

def collidingPrediction : ToolPrediction :=
  ⟨"tools.list", 0.8, "Matched 'tools/list' pattern", ⟨.null, .null⟩⟩

def sendTrace (id : RequestId) (method drawn : String) : List Action :=
  [.outgoing (.request (.withoutParams id method)) false none
      ⟨.filled 16 1⟩ drawn collidingPrediction Auth.smallInstant,
    .file 0]

def collidingTrace : List Action :=
  sendTrace (.number 1) "tools/list" "a" ++
    sendTrace (.string "1") "resources/list" "b" ++
    [.incoming (.response (.success (.number 1) ⟨.null, .null⟩)) true]

def noFloats : FloatText := ⟨fun _ => "0.5", fun _ => none⟩

/-- The response to the first request resolves the row of the second, and that
of the first stays as it is. -/
theorem collidingTrace_not_resolvedOnce :
    ∃ reached,
      (machine noFloats (fun _ => "0")).run (new .semantic) collidingTrace =
        some reached ∧
      reached.pending = ∅ ∧
      reached.database.toolOf "a" = none ∧
      reached.database.toolOf "b" = some "resources/list" ∧
      ¬ (machine noFloats (fun _ => "0")).Throughout ResolvedOnce
        (new .semantic) collidingTrace := by
  refine ⟨_, rfl, rfl, rfl, rfl, ?_⟩
  intro hthrough
  have hresolved := hthrough collidingTrace (List.prefix_refl _) _ rfl
  obtain ⟨tool, _, hstored⟩ :=
    (hresolved.tracked _ List.mem_cons_self).resolved rfl
  cases hstored

end InterceptorState

end Llm
end Acdp
