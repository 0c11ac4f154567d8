import Acdp.LitertServerTools
import Acdp.StepMachine

/-!
# Runs of the LiteRT server

A message is answered in two steps, between which other clients are served:
its session is found or made, and then it is handled.  The model becomes ready
at some time.  A session is never removed, and no answer waits for it to be
initialised.
-/

namespace Acdp

namespace Transport

open Acdp.Core Json
open Auth (Uuid)

namespace LitertServer

structure Session where
  id : String
  initialized : Bool

/-- The table of sessions, each under its own identifier. -/
structure Sessions where
  find : String → Option Session
  named : ∀ id session, find id = some session → session.id = id

namespace Sessions

def empty : Sessions := ⟨fun _ => none, fun _ _ hnone => by cases hnone⟩

/-- The session under the identifier, or a new one. -/
def sessionFor (self : Sessions) (id : String) : Session :=
  (self.find id).getD ⟨id, false⟩

theorem sessionFor_id (self : Sessions) (id : String) :
    (self.sessionFor id).id = id := by
  unfold sessionFor
  cases hfind : self.find id with
  | none => rfl
  | some session => exact self.named id session hfind

/-- The table after `get_or_create_session`. -/
def opened (self : Sessions) (id : String) : Sessions where
  find other :=
    if other = id then some (self.sessionFor id) else self.find other
  named := by
    intro other session hfind
    split_ifs at hfind with hsame
    · rw [← Option.some.inj hfind, self.sessionFor_id, hsame]
    · exact self.named other session hfind

def markInitialized (self : Sessions) (id : String) : Sessions where
  find other :=
    (self.find other).map (fun session =>
      if other = id then { session with initialized := true } else session)
  named := by
    intro other session hfind
    obtain ⟨before, hbefore, rfl⟩ := Option.map_eq_some_iff.mp hfind
    have hnamed := self.named other before hbefore
    split_ifs <;> exact hnamed

end Sessions

/-- A message between the two steps of its answer, with the session that was
found for it. -/
structure Handling where
  session : Session
  message : JsonRpcMessage

def Handling.key (self : Handling) : String × JsonRpcMessage :=
  (self.session.id, self.message)

end LitertServer

open LitertServer

/-- The server, with the messages that are being handled and what has been
answered so far. -/
structure LitertServer where
  sessions : Sessions
  llmReady : Bool
  handling : List Handling
  answered : List (Handling × HttpAnswer)

namespace LitertServer

variable (formats : Formats)

def initial : LitertServer := ⟨.empty, false, [], []⟩

/-- A session header, and the identifier that is made up where there is
none. -/
structure Naming where
  header : Option String
  fresh : Uuid

def Naming.sessionId (self : Naming) : String :=
  self.header.getD (uuidText self.fresh)

/-- What the clients, the scheduler and the loading of the model can do; the
service is what it gives while the message is handled. -/
inductive Action where
  | setLlmService
  | post (naming : Naming) (body : OrderedValue)
  | get (naming : Naming)
  | handle (index : ℕ) (service : LlmService)

/-- `handle_notification`. -/
def handleNotification (sessions : Sessions) (session : Session)
    (notif : JsonRpcNotification) : Sessions :=
  if notif.method = "initialized" then sessions.markInitialized session.id
  else sessions

/-- The second step of `handle_sse_post`. -/
def handleMessage (self : LitertServer) (service : LlmService)
    (handling : Handling) : Sessions × HttpAnswer :=
  match handling.message with
  | .request req =>
      (self.sessions, .response handling.session.id
        (handleRequest formats (if self.llmReady then some service else none)
          req))
  | .notification notif =>
      (handleNotification self.sessions handling.session notif,
        .response handling.session.id okResponse)
  | .response _ => (self.sessions, .status .badRequest)

/-- A body that is no message is refused before any session is made. -/
def step (self : LitertServer) : Action → Option LitertServer
  | .setLlmService => some { self with llmReady := true }
  | .post naming body =>
      match JsonRpcMessage.fromValue body with
      | none => some self
      | some message =>
          some { self with
            sessions := self.sessions.opened naming.sessionId
            handling := self.handling ++
              [⟨self.sessions.sessionFor naming.sessionId, message⟩] }
  | .get naming =>
      some { self with sessions := self.sessions.opened naming.sessionId }
  | .handle index service =>
      (self.handling[index]?).map fun handling =>
        let (sessions, answer) := self.handleMessage formats service handling
        { self with
          sessions := sessions
          handling := self.handling.eraseIdx index
          answered := self.answered ++ [(handling, answer)] }

def machine : StepMachine LitertServer Action := ⟨step formats⟩

/-! ## What is asked for and answered -/

/-- The message that is posted, under the identifier of its session. -/
def Action.posted : Action → Option (String × JsonRpcMessage)
  | .post naming body =>
      (JsonRpcMessage.fromValue body).map
        (fun message => (naming.sessionId, message))
  | _ => none

/-- The session that is asked for. -/
def Action.asked : Action → Option String
  | .post naming body =>
      (JsonRpcMessage.fromValue body).map (fun _ => naming.sessionId)
  | .get naming => some naming.sessionId
  | _ => none

def methods : List String :=
  ["initialize", "tools/list", "tools/call", "resources/list", "prompts/list"]

/-- The answer is the one for this message. -/
def Answers (handling : Handling) (answer : HttpAnswer) : Prop :=
  match handling.message with
  | .request req => ∃ response,
      answer = .response handling.session.id response ∧
        response.jsonrpc = "2.0" ∧ response.id = req.id ∧
        Xor (response.result.isSome = true) (response.error.isSome = true) ∧
        (response.error.map JsonRpcError.code = some (-32601) ↔
          req.method ∉ methods)
  | .notification _ => answer = .response handling.session.id okResponse
  | .response _ => answer = .status .badRequest

/-- A notification that initialises the session has been answered. -/
def Initialized (self : LitertServer) (id : String) : Prop :=
  ∃ entry ∈ self.answered, entry.1.session.id = id ∧
    ∃ notif, entry.1.message = .notification notif ∧
      notif.method = "initialized"

theorem handleMethod_not_found_iff (llmService : Option LlmService)
    (method : String) (params : Option OrderedValue) :
    Fails (handleMethod formats llmService method params) (-32601) ↔
      method ∉ methods := by
  have hcall : ¬ Fails (handleToolsCall formats llmService params)
      (-32601) := by
    intro hfails
    rcases (handleToolsCall_regular params).code hfails with h | h
    · exact absurd h (by decide)
    · exact absurd h (by decide)
  unfold handleMethod
  split_ifs with hinitialize hlist hcalls hresources hprompts
  · exact iff_of_false fails_ok_iff.mp (by simp [methods, hinitialize])
  · exact iff_of_false fails_ok_iff.mp (by simp [methods, hlist])
  · exact iff_of_false hcall (by simp [methods, hcalls])
  · exact iff_of_false fails_ok_iff.mp (by simp [methods, hresources])
  · exact iff_of_false fails_ok_iff.mp (by simp [methods, hprompts])
  · exact iff_of_true (fails_error_iff.mpr rfl)
      (by simp [methods, hinitialize, hlist, hcalls, hresources, hprompts])

theorem handleRequest_answers (llmService : Option LlmService)
    (req : JsonRpcRequest) :
    let response := handleRequest formats llmService req
    response.jsonrpc = "2.0" ∧ response.id = req.id ∧
      Xor (response.result.isSome = true) (response.error.isSome = true) ∧
      (response.error.map JsonRpcError.code = some (-32601) ↔
        req.method ∉ methods) := by
  rw [← handleMethod_not_found_iff formats llmService req.method req.params]
  unfold handleRequest
  cases handleMethod formats llmService req.method req.params with
  | ok result => simp [Xor]
  | error error => simp [Xor, Fails]

theorem handleMessage_answers (self : LitertServer) (service : LlmService)
    (handling : Handling) :
    Answers handling (self.handleMessage formats service handling).2 := by
  obtain ⟨session, message⟩ := handling
  cases message with
  | request req => exact ⟨_, rfl, handleRequest_answers formats _ req⟩
  | notification notif => rfl
  | response resp => rfl

/-! ## Sessions -/

namespace Sessions

variable (self : Sessions)

theorem isSome_find_opened_iff (id other : String) :
    ((self.opened id).find other).isSome = true ↔
      other = id ∨ (self.find other).isSome = true := by
  unfold opened
  by_cases hsame : other = id
  · simp [hsame]
  · simp [hsame]

theorem isSome_find_markInitialized (id other : String) :
    ((self.markInitialized id).find other).isSome =
      (self.find other).isSome := by
  simp [markInitialized]

theorem initialized_opened_iff (id other : String) :
    (∃ session, (self.opened id).find other = some session ∧
        session.initialized = true) ↔
      ∃ session, self.find other = some session ∧
        session.initialized = true := by
  by_cases hsame : other = id
  · have hopened : (self.opened id).find other =
        some ((self.find other).getD ⟨id, false⟩) := by
      rw [hsame]
      exact if_pos rfl
    rw [hopened]
    cases self.find other with
    | none => simp
    | some session => simp
  · have hopened : (self.opened id).find other = self.find other :=
      if_neg hsame
    rw [hopened]

theorem initialized_markInitialized_iff (id other : String) :
    (∃ session, (self.markInitialized id).find other = some session ∧
        session.initialized = true) ↔
      (other = id ∧ (self.find other).isSome = true) ∨
        ∃ session, self.find other = some session ∧
          session.initialized = true := by
  have hmarked : (self.markInitialized id).find other =
      (self.find other).map (fun session =>
        if other = id then { session with initialized := true }
        else session) := rfl
  rw [hmarked]
  cases self.find other with
  | none => simp
  | some session =>
      by_cases hsame : other = id
      · simp [hsame]
      · simp [hsame]

end Sessions

/-! ## The account of a run -/

/-- What the actions so far have led to. -/
structure Account (formats : Formats) (past : List Action)
    (server : LitertServer) : Prop where
  messages : (past.filterMap Action.posted).Perm
    (server.answered.map (fun entry => entry.1.key) ++
      server.handling.map Handling.key)
  sessions : ∀ id, (server.sessions.find id).isSome = true ↔
    id ∈ past.filterMap Action.asked
  initialized : ∀ id,
    (∃ session, server.sessions.find id = some session ∧
      session.initialized = true) ↔ server.Initialized id
  answers : ∀ entry ∈ server.answered,
    ∃ (before : LitertServer) (service : LlmService),
    (before.handleMessage formats service entry.1).2 = entry.2
  known : ∀ handling ∈ server.handling,
    (server.sessions.find handling.session.id).isSome = true

theorem account_initial (formats : Formats) :
    Account formats [] initial where
  messages := .nil
  sessions := by simp [initial, Sessions.empty]
  initialized := by simp [initial, Sessions.empty, Initialized]
  answers := by simp [initial]
  known := by simp [initial]

variable {formats : Formats} {past : List Action} {self : LitertServer}

theorem filterMap_concat {α β : Type*} (f : α → Option β) (past : List α)
    (action : α) :
    (past ++ [action]).filterMap f =
      past.filterMap f ++ (f action).toList := by
  rw [List.filterMap_append]
  cases h : f action <;> simp [h]

/-- A session is asked for; a message may come with it. -/
theorem Account.opened (haccount : Account formats past self) {action : Action}
    {id : String} (hasked : action.asked = some id)
    (arrived : List JsonRpcMessage)
    (hposted : action.posted.toList = arrived.map (fun message =>
      (id, message))) :
    Account formats (past ++ [action]) { self with
      sessions := self.sessions.opened id
      handling := self.handling ++ arrived.map (fun message =>
        ⟨self.sessions.sessionFor id, message⟩) } where
  messages := by
    have hkeys : (arrived.map (fun message =>
        (⟨self.sessions.sessionFor id, message⟩ : Handling))).map
          Handling.key = arrived.map (fun message => (id, message)) := by
      rw [List.map_map]
      apply List.map_congr_left
      intro message _
      simp [Handling.key, self.sessions.sessionFor_id]
    rw [filterMap_concat, hposted, List.map_append, hkeys,
      ← List.append_assoc]
    exact haccount.messages.append_right _
  sessions := by
    intro other
    rw [Sessions.isSome_find_opened_iff, haccount.sessions, filterMap_concat,
      hasked, Option.toList_some, List.mem_append, List.mem_singleton, or_comm]
  initialized := by
    intro other
    rw [Sessions.initialized_opened_iff]
    exact haccount.initialized other
  answers := haccount.answers
  known := by
    intro handling hhandling
    rw [Sessions.isSome_find_opened_iff]
    rcases List.mem_append.mp hhandling with hold | hnew
    · exact Or.inr (haccount.known handling hold)
    · obtain ⟨message, _, rfl⟩ := List.mem_map.mp hnew
      exact Or.inl (self.sessions.sessionFor_id id)

/-- Handling a message makes and removes no session. -/
theorem isSome_find_handleMessage (service : LlmService) (handling : Handling)
    (id : String) :
    ((self.handleMessage formats service handling).1.find id).isSome =
      (self.sessions.find id).isSome := by
  unfold handleMessage handleNotification
  cases handling.message with
  | request req => rfl
  | notification notif =>
      dsimp only
      split_ifs
      · exact self.sessions.isSome_find_markInitialized _ id
      · rfl
  | response resp => rfl

/-- A session is initialised by its own notification and by nothing else. -/
theorem initialized_handleMessage_iff (service : LlmService)
    {handling : Handling}
    (hknown : (self.sessions.find handling.session.id).isSome = true)
    (id : String) :
    (∃ session, (self.handleMessage formats service handling).1.find id =
        some session ∧ session.initialized = true) ↔
      (handling.session.id = id ∧ ∃ notif,
        handling.message = .notification notif ∧
          notif.method = "initialized") ∨
      ∃ session, self.sessions.find id = some session ∧
        session.initialized = true := by
  unfold handleMessage handleNotification
  cases handling.message with
  | request req => simp
  | response resp => simp
  | notification notif =>
      dsimp only
      split_ifs with hmethod
      · rw [Sessions.initialized_markInitialized_iff]
        apply or_congr_left
        constructor
        · rintro ⟨rfl, _⟩
          exact ⟨rfl, notif, rfl, hmethod⟩
        · rintro ⟨rfl, _⟩
          exact ⟨rfl, hknown⟩
      · simp [hmethod]

theorem Account.handle (haccount : Account formats past self)
    (service : LlmService) {index : ℕ} {handling : Handling}
    (hhandling : self.handling[index]? = some handling) :
    Account formats (past ++ [.handle index service])
      { self with
        sessions := (self.handleMessage formats service handling).1
        handling := self.handling.eraseIdx index
        answered := self.answered ++
          [(handling, (self.handleMessage formats service handling).2)] } where
  messages := by
    obtain ⟨hindex, rfl⟩ := List.getElem?_eq_some_iff.mp hhandling
    have hsplit := (List.getElem_cons_eraseIdx_perm hindex).map Handling.key
    rw [filterMap_concat, List.map_append, List.append_assoc]
    simp only [Action.posted, Option.toList_none, List.append_nil]
    exact haccount.messages.trans (hsplit.symm.append_left _)
  sessions := by
    intro id
    rw [filterMap_concat, isSome_find_handleMessage, haccount.sessions]
    simp only [Action.asked, Option.toList_none, List.append_nil]
  initialized := by
    intro id
    have hknown := haccount.known handling (List.mem_of_getElem? hhandling)
    rw [initialized_handleMessage_iff service hknown, haccount.initialized]
    simp only [Initialized, List.mem_append, List.mem_singleton,
      or_and_right, exists_or, exists_eq_left]
    exact or_comm
  answers := by
    rw [List.forall_mem_append, List.forall_mem_singleton]
    exact ⟨haccount.answers, self, service, rfl⟩
  known := by
    intro other hother
    rw [isSome_find_handleMessage]
    exact haccount.known other (List.mem_of_mem_eraseIdx hother)

theorem Account.step (haccount : Account formats past self) {action : Action}
    {next : LitertServer} (hstep : self.step formats action = some next) :
    Account formats (past ++ [action]) next := by
  have hquiet (hposted : action.posted = none) (hasked : action.asked = none)
      (llmReady : Bool) :
      Account formats (past ++ [action])
        { self with llmReady := llmReady } := by
    obtain ⟨hmessages, hsessions, hinitialized, hanswers, hknown⟩ := haccount
    refine ⟨?_, ?_, hinitialized, hanswers, hknown⟩
    · rw [filterMap_concat, hposted, Option.toList_none, List.append_nil]
      exact hmessages
    · rw [filterMap_concat, hasked, Option.toList_none, List.append_nil]
      exact hsessions
  cases action with
  | setLlmService =>
      rw [← Option.some.inj hstep]
      exact hquiet rfl rfl true
  | post naming body =>
      simp only [LitertServer.step] at hstep
      cases hmessage : JsonRpcMessage.fromValue body with
      | none =>
          rw [hmessage] at hstep
          rw [← Option.some.inj hstep]
          exact hquiet (by simp [Action.posted, hmessage])
            (by simp [Action.asked, hmessage]) self.llmReady
      | some message =>
          rw [hmessage] at hstep
          rw [← Option.some.inj hstep]
          exact haccount.opened (by simp [Action.asked, hmessage]) [message]
            (by simp [Action.posted, hmessage])
  | get naming =>
      rw [← Option.some.inj hstep]
      have hopened : Account formats (past ++ [.get naming]) _ :=
        haccount.opened rfl [] rfl
      rw [List.map_nil, List.append_nil] at hopened
      exact hopened
  | handle index service =>
      obtain ⟨handling, hhandling, rfl⟩ := Option.map_eq_some_iff.mp hstep
      exact haccount.handle service hhandling

theorem account_of_run {trace : List Action} {reached : LitertServer}
    (hrun : (machine formats).run initial trace = some reached) :
    Account formats trace reached :=
  StepMachine.run_history (Account formats)
    (fun _ _ _ _ haccount hstep => haccount.step hstep)
    (account_initial formats) hrun

/-! ## Runs -/

/-- In every run each message that was posted has been answered once or is
still being handled, under its own session; every answer is the one for its
message; and no message has to wait for another. -/
theorem posted_answered_once {formats : Formats} {trace : List Action}
    {reached : LitertServer}
    (hrun : (machine formats).run initial trace = some reached) :
    (trace.filterMap Action.posted).Perm
        (reached.answered.map (fun entry => entry.1.key) ++
          reached.handling.map Handling.key) ∧
      (∀ entry ∈ reached.answered, Answers entry.1 entry.2) ∧
      ∀ index < reached.handling.length, ∀ service,
        ((machine formats).step reached (.handle index service)).isSome =
          true := by
  have haccount := account_of_run hrun
  refine ⟨haccount.messages, ?_, ?_⟩
  · intro entry hentry
    obtain ⟨before, service, hanswer⟩ := haccount.answers entry hentry
    rw [← hanswer]
    exact before.handleMessage_answers formats service entry.1
  · intro index hindex service
    have hhandling := List.getElem?_eq_getElem hindex
    simp only [machine, step, hhandling, Option.map_some, Option.isSome_some]

/-- A session is there exactly if it was asked for, it counts as initialised
exactly if its own notification was answered, and whoever is answered has
one. -/
theorem sessions_of_run {formats : Formats} {trace : List Action}
    {reached : LitertServer}
    (hrun : (machine formats).run initial trace = some reached) :
    (∀ id, (reached.sessions.find id).isSome = true ↔
        id ∈ trace.filterMap Action.asked) ∧
      (∀ id, (∃ session, reached.sessions.find id = some session ∧
        session.initialized = true) ↔ reached.Initialized id) ∧
      ∀ entry ∈ reached.answered,
        (reached.sessions.find entry.1.session.id).isSome = true := by
  have haccount := account_of_run hrun
  refine ⟨haccount.sessions, haccount.initialized, ?_⟩
  intro entry hentry
  have hposted : entry.1.key ∈ trace.filterMap Action.posted :=
    haccount.messages.mem_iff.mpr
      (List.mem_append_left _ (List.mem_map_of_mem hentry))
  obtain ⟨action, haction, hkey⟩ := List.mem_filterMap.mp hposted
  rw [haccount.sessions]
  refine List.mem_filterMap.mpr ⟨action, haction, ?_⟩
  cases action with
  | post naming body =>
      obtain ⟨message, hmessage, hsame⟩ := Option.map_eq_some_iff.mp hkey
      have hid : naming.sessionId = entry.1.session.id :=
        congrArg Prod.fst hsame
      simp only [Action.asked, hmessage, Option.map_some, hid]
  | setLlmService => cases hkey
  | get naming => cases hkey
  | handle index service => cases hkey

/-! ## A run -/

def plainFormats : Formats :=
  ⟨fun _ => "80", fun _ => "50.0", fun _ => "Ready"⟩

def silentService : LlmService where
  startGeneration _ := .error "No model engine available"
  predictTool _ := .error "No model engine available"
  modelStatus := .notLoaded
  downloadProgress := none

def inSession : Naming := ⟨some "client-session-01", nilUuid⟩

def initializedBody : OrderedValue :=
  .ofMembers [("jsonrpc", .ofString "2.0"), ("method", .ofString "initialized")]

def listBody : OrderedValue :=
  .ofMembers [("jsonrpc", .ofString "2.0"), ("id", .ofString "1"),
    ("method", .ofString "tools/list")]

/-- The listing comes in before the notification and is answered after it. -/
def crossingTrace : List Action :=
  [.post inSession listBody, .post inSession initializedBody,
    .handle 1 silentService, .setLlmService, .handle 0 silentService]

theorem crossing_run :
    ∃ reached, (machine plainFormats).run initial crossingTrace =
        some reached ∧ reached.answered.length = 2 ∧ reached.handling = [] ∧
      reached.Initialized "client-session-01" :=
  ⟨_, rfl, rfl, rfl, _, List.mem_cons_self, rfl, _, rfl, rfl⟩

theorem posted_answered_once_crossing :
    ∃ reached, (machine plainFormats).run initial crossingTrace =
        some reached ∧ reached.answered.length = 2 ∧
      (crossingTrace.filterMap Action.posted).Perm
        (reached.answered.map (fun entry => entry.1.key)) := by
  obtain ⟨reached, hrun, hlength, hnone, _⟩ := crossing_run
  have hperm := (posted_answered_once hrun).1
  rw [hnone, List.map_nil, List.append_nil] at hperm
  exact ⟨reached, hrun, hlength, hperm⟩

theorem sessions_of_run_crossing :
    ∃ reached, (machine plainFormats).run initial crossingTrace =
        some reached ∧
      ∃ session, reached.sessions.find "client-session-01" = some session ∧
        session.initialized = true := by
  obtain ⟨reached, hrun, _, _, hinitialized⟩ := crossing_run
  exact ⟨reached, hrun,
    ((sessions_of_run hrun).2.1 "client-session-01").mpr hinitialized⟩

end LitertServer

end Transport
end Acdp
