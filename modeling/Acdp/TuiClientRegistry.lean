import Acdp.StepMachine
import Acdp.TuiAppState

/-!
# The clients that are registered

The TCP listener looks at the number of clients before it registers one, in a
lock of its own, and takes the client out when its task is over.  The HTTP
server registers the client of a new session without a look, before it knows
whether there is a backend and whether it will take the message, and nothing
takes that client out again.
-/

namespace Acdp
namespace Tui

open Acdp.Core

/-- What the accept loop does next, with the number of clients that it has
found when it looked. -/
inductive AcceptPhase where
  | waiting
  | measured (currentClients : ℕ)
  | admitted (currentClients : ℕ)
  deriving DecidableEq, Repr

def AcceptPhase.found : AcceptPhase → Option ℕ
  | .waiting => none
  | .measured currentClients => some currentClients
  | .admitted currentClients => some currentClients

inductive StatusCode where
  | ok
  | accepted
  | badRequest
  | internalServerError
  deriving DecidableEq, Repr

def StatusCode.isError : StatusCode → Bool
  | .ok => false
  | .accepted => false
  | .badRequest => true
  | .internalServerError => true

structure HttpSession where
  sessionId : String
  clientId : ClientId
  deriving DecidableEq, Repr

/-- A request that is being handled; `made` is the session it has created. -/
structure HttpRequest where
  sessionId : String
  message : JsonRpcMessage
  made : Option HttpSession

structure HttpAnswer where
  status : StatusCode
  made : Option HttpSession

/-- `connections` are the clients whose TCP tasks have not ended, `backends`
those whose backend tasks have not; `creating` is the request that holds the
lock of the sessions while it creates one, `waiting` the requests before they
have had that lock and `entered` those after.  `arrivals` and `departures`
count the sessions that were registered and the clients that were taken out
since the accept loop last looked. -/
structure ClientRegistry where
  app : AppStateInner
  listener : AcceptPhase
  arrivals : ℕ
  departures : ℕ
  connections : List ClientId
  backends : List ClientId
  sessions : List HttpSession
  waiting : List HttpRequest
  creating : Option HttpRequest
  entered : List HttpRequest
  answered : List HttpAnswer

namespace ClientRegistry

def start (app : AppStateInner) : ClientRegistry where
  app := { app with clients := [], metrics := {} }
  listener := .waiting
  arrivals := 0
  departures := 0
  connections := []
  backends := []
  sessions := []
  waiting := []
  creating := none
  entered := []
  answered := []

/-- A request to the HTTP server is named by its place among those at the same
point.  Identifiers are given by the generator of identifiers. -/
inductive Action where
  | accept
  | acceptFails
  | compareLimit
  | registerConnection (id : ClientId)
  | disconnect (id : ClientId)
  | tick
  | post (header : Option String) (fresh : String)
      (body : Except String JsonRpcMessage)
  | lookUp (place : ℕ)
  | registerSession (id : ClientId)
  | startBackend
  | respond (place : ℕ)
  | backendEnds (id : ClientId)

section Steps

variable (self : ClientRegistry)

/-- The identifier is not in use. -/
def Unused (id : ClientId) : Prop :=
  id ∉ self.app.ids ∧ id ∉ self.connections ∧ id ∉ self.backends

instance (id : ClientId) : Decidable (self.Unused id) :=
  inferInstanceAs (Decidable (_ ∧ _ ∧ _))

def answer (status : StatusCode) (made : Option HttpSession) :
    ClientRegistry :=
  { self with answered := self.answered ++ [⟨status, made⟩] }

/-- The end of `handle_mcp_request`, by the kind of the message. -/
def statusFor : JsonRpcMessage → StatusCode
  | .request _ => .ok
  | .notification _ => .accepted
  | .response _ => .badRequest

def backendConfigured : Bool :=
  self.app.backendUrl.isSome || self.app.backendCommand ≠ ""

/-- `accept` has returned, and the clients are counted. -/
def measure : ClientRegistry :=
  { self with
    listener := .measured self.app.clients.length
    arrivals := 0
    departures := 0 }

def compareLimit (currentClients : ℕ) : ClientRegistry :=
  if self.app.maxClients ≤ currentClients then
    { self with listener := .waiting }
  else { self with listener := .admitted currentClients }

def registerConnection (id : ClientId) : ClientRegistry :=
  { self with
    app := self.app.register id
    connections := self.connections ++ [id]
    listener := .waiting }

def disconnect (id : ClientId) : ClientRegistry :=
  { self with
    app := self.app.cleanUp id
    departures := self.departures +
      (self.app.clients.length - (self.app.cleanUp id).clients.length)
    connections := self.connections.erase id }

def post (header : Option String) (fresh : String) :
    Except String JsonRpcMessage → ClientRegistry
  | .error _ => self.answer .badRequest none
  | .ok message =>
      { self with
        waiting := self.waiting ++ [⟨header.getD fresh, message, none⟩] }

def lookUp (request : HttpRequest) : ClientRegistry :=
  if self.sessions.any (fun session => session.sessionId = request.sessionId)
  then { self with entered := self.entered ++ [request] }
  else { self with creating := some request }

/-- The client is registered and the session entered; the lock of the
sessions is kept. -/
def registerSession (request : HttpRequest) (id : ClientId) :
    ClientRegistry :=
  let session := ⟨request.sessionId, id⟩
  { self with
    app := self.app.register id
    arrivals := self.arrivals + 1
    sessions := self.sessions ++ [session]
    creating := some { request with made := some session } }

def startBackend (request : HttpRequest) (session : HttpSession) :
    ClientRegistry :=
  if self.backendConfigured then
    { self with
      creating := none
      backends := self.backends ++ [session.clientId]
      entered := self.entered ++ [request] }
  else
    answer { self with creating := none } .internalServerError request.made

def step : Action → Option ClientRegistry
  | .accept =>
      if self.listener = .waiting then some self.measure else none
  | .acceptFails => if self.listener = .waiting then some self else none
  | .compareLimit =>
      match self.listener with
      | .measured currentClients => some (self.compareLimit currentClients)
      | _ => none
  | .registerConnection id =>
      match self.listener with
      | .admitted _ =>
          if self.Unused id then some (self.registerConnection id) else none
      | _ => none
  | .disconnect id =>
      if id ∈ self.connections then some (self.disconnect id) else none
  | .tick => some { self with app := self.app.updateMetrics }
  | .post header fresh body => some (self.post header fresh body)
  | .lookUp place =>
      if self.creating.isNone then
        self.waiting[place]?.map
          (lookUp { self with waiting := self.waiting.eraseIdx place })
      else none
  | .registerSession id =>
      match self.creating with
      | some request =>
          if request.made = none ∧ self.Unused id then
            some (self.registerSession request id)
          else none
      | none => none
  | .startBackend =>
      self.creating.bind fun request =>
        request.made.map (self.startBackend request)
  | .respond place =>
      self.entered[place]?.map fun request =>
        answer { self with entered := self.entered.eraseIdx place }
          (statusFor request.message) request.made
  | .backendEnds id =>
      if id ∈ self.backends then
        some { self with backends := self.backends.erase id }
      else none

end Steps

def machine : StepMachine ClientRegistry Action where
  step := step

/-! ## What the registry promises -/

/-- A client's connection is open, its backend task runs, or the request that
registers it is about to start that task. -/
def Served (self : ClientRegistry) (id : ClientId) : Prop :=
  id ∈ self.connections ∨ id ∈ self.backends ∨
    ∃ request session, self.creating = some request ∧
      request.made = some session ∧ session.clientId = id

structure WellRegistered (registry : ClientRegistry) : Prop where
  limited : registry.app.clients.length ≤ registry.app.maxClients
  counted : registry.app.metrics.activeConnections =
    registry.app.clients.length
  served : ∀ id ∈ registry.app.ids, registry.Served id
  unchanged : ∀ answer ∈ registry.answered, answer.status.isError = true →
    ∀ session, answer.made = some session →
      session ∉ registry.sessions ∧ session.clientId ∉ registry.app.ids

/-- The condition on each step.  The accept loop has found room; if a session
has been registered since, there must have been room for both, or as many
clients are gone. -/
def Admits (self : ClientRegistry) : Action → Prop
  | .registerConnection _ =>
      ∀ currentClients, self.listener = .admitted currentClients →
        self.arrivals ≠ 0 →
          currentClients + self.arrivals <
            self.app.maxClients + self.departures
  | .registerSession _ => self.app.clients.length < self.app.maxClients
  | .startBackend => self.backendConfigured = true
  | .respond place =>
      ∀ request, self.entered[place]? = some request → request.made ≠ none →
        ∀ response, request.message ≠ .response response
  | .backendEnds _ => False
  | _ => True

/-! ## Registered clients are served -/

/-- The clients of the two servers are apart, and a session that was made
stays. -/
structure Tidy (registry : ClientRegistry) : Prop where
  nodup : registry.backends.Nodup
  apart : ∀ id ∈ registry.backends, id ∉ registry.connections
  registered : ∀ id ∈ registry.backends, id ∈ registry.app.ids
  created : ∀ request session, registry.creating = some request →
    request.made = some session →
    session ∈ registry.sessions ∧ session.clientId ∈ registry.app.ids ∧
      session.clientId ∉ registry.connections ∧
      session.clientId ∉ registry.backends
  entered : ∀ request ∈ registry.entered, ∀ session,
    request.made = some session → session ∈ registry.sessions
  waiting : ∀ request ∈ registry.waiting, request.made = none
  clean : ∀ answer ∈ registry.answered, answer.status.isError = true →
    answer.made = none

structure Orderly (registry : ClientRegistry) : Prop where
  wellRegistered : registry.WellRegistered
  tidy : registry.Tidy

variable {self next : ClientRegistry}

theorem start_orderly (app : AppStateInner) : (start app).Orderly where
  wellRegistered :=
    { limited := Nat.zero_le _
      counted := rfl
      served := fun _ hid => absurd hid List.not_mem_nil
      unchanged := fun _ hanswer => absurd hanswer List.not_mem_nil }
  tidy :=
    { nodup := List.nodup_nil
      apart := fun _ hid => absurd hid List.not_mem_nil
      registered := fun _ hid => absurd hid List.not_mem_nil
      created := fun _ _ hcreating => by cases hcreating
      entered := fun _ hrequest => absurd hrequest List.not_mem_nil
      waiting := fun _ hrequest => absurd hrequest List.not_mem_nil
      clean := fun _ hanswer => absurd hanswer List.not_mem_nil }

/-- The accept loop goes on, or the metrics are counted afresh. -/
theorem Orderly.of_same (horderly : self.Orderly)
    (happ : next.app.clients = self.app.clients ∧
      next.app.maxClients = self.app.maxClients ∧
      next.app.metrics.activeConnections = self.app.clients.length)
    (hrest : next.connections = self.connections ∧
      next.backends = self.backends ∧ next.sessions = self.sessions ∧
      next.waiting = self.waiting ∧ next.creating = self.creating ∧
      next.entered = self.entered ∧ next.answered = self.answered) :
    next.Orderly := by
  obtain ⟨⟨hlimited, _, hserved, hunchanged⟩,
    ⟨hnodup, hapart, hregistered, hcreated, hentered, hwaiting, hclean⟩⟩ :=
    horderly
  obtain ⟨hclients, hmax, hactive⟩ := happ
  obtain ⟨hconnections, hbackends, hsessions, hwait, hcreating, henter,
    hanswered⟩ := hrest
  have hids : next.app.ids = self.app.ids := by
    unfold AppStateInner.ids
    rw [hclients]
  constructor
  · refine ⟨?_, ?_, ?_, ?_⟩
    · rw [hclients, hmax]
      exact hlimited
    · rw [hactive, hclients]
    · unfold Served
      rw [hids, hconnections, hbackends, hcreating]
      exact hserved
    · rw [hanswered, hsessions, hids]
      exact hunchanged
  · refine ⟨?_, ?_, ?_, ?_, ?_, ?_, ?_⟩
    · rw [hbackends]
      exact hnodup
    · rw [hbackends, hconnections]
      exact hapart
    · rw [hbackends, hids]
      exact hregistered
    · rw [hcreating, hsessions, hids, hconnections, hbackends]
      exact hcreated
    · rw [henter, hsessions]
      exact hentered
    · rw [hwait]
      exact hwaiting
    · rw [hanswered]
      exact hclean

/-! ## Connections -/

theorem registerConnection_orderly {id : ClientId} (horderly : self.Orderly)
    (hunused : self.Unused id)
    (hroom : self.app.clients.length < self.app.maxClients) :
    (self.registerConnection id).Orderly := by
  obtain ⟨hnew, hconnection, hbackend⟩ := hunused
  obtain ⟨hwell, htidy⟩ := horderly
  have hids := AppStateInner.register_ids hnew
  have hlength := AppStateInner.register_length hnew
  have hnotCreating : ∀ request session, self.creating = some request →
      request.made = some session → session.clientId ≠ id := by
    rintro request session hcreating hmade rfl
    exact hnew (htidy.created request session hcreating hmade).2.1
  constructor
  · refine ⟨?_, rfl, ?_, ?_⟩
    · dsimp only [registerConnection]
      rw [hlength]
      exact hroom
    · intro other hother
      dsimp only [registerConnection] at hother
      rw [hids, List.mem_append, List.mem_singleton] at hother
      rcases hother with hold | rfl
      · rcases hwell.served other hold with hopen | hrest
        · exact Or.inl (List.mem_append_left _ hopen)
        · exact Or.inr hrest
      · exact Or.inl (List.mem_append_right _ (List.mem_singleton_self _))
    · intro answer hanswer herror session hmade
      rw [htidy.clean answer hanswer herror] at hmade
      cases hmade
  · refine ⟨htidy.nodup, ?_, ?_, ?_, htidy.entered, htidy.waiting,
      htidy.clean⟩
    · intro other hother hopen
      dsimp only [registerConnection] at hopen
      rw [List.mem_append, List.mem_singleton] at hopen
      rcases hopen with hold | rfl
      · exact htidy.apart other hother hold
      · exact hbackend hother
    · intro other hother
      dsimp only [registerConnection]
      rw [hids]
      exact List.mem_append_left _ (htidy.registered other hother)
    · intro request session hcreating hmade
      obtain ⟨hsession, hclient, hclosed, hidle⟩ :=
        htidy.created request session hcreating hmade
      dsimp only [registerConnection]
      rw [hids, List.mem_append, List.mem_append, List.mem_singleton]
      refine ⟨hsession, Or.inl hclient, ?_, hidle⟩
      rintro (hopen | hsame)
      · exact hclosed hopen
      · exact hnotCreating request session hcreating hmade hsame

theorem cleanUp_counted (hcounted : self.app.metrics.activeConnections =
    self.app.clients.length) (id : ClientId) :
    (self.app.cleanUp id).metrics.activeConnections =
      (self.app.cleanUp id).clients.length := by
  unfold AppStateInner.cleanUp
  cases self.app.get id with
  | none => exact hcounted
  | some conn => rfl

theorem cleanUp_maxClients (app : AppStateInner) (id : ClientId) :
    (app.cleanUp id).maxClients = app.maxClients := by
  unfold AppStateInner.cleanUp
  cases app.get id with
  | none => rfl
  | some conn => rfl

theorem disconnect_orderly {id : ClientId} (horderly : self.Orderly)
    (hopen : id ∈ self.connections) : (self.disconnect id).Orderly := by
  obtain ⟨hwell, htidy⟩ := horderly
  constructor
  · refine ⟨?_, cleanUp_counted hwell.counted id, ?_, ?_⟩
    · dsimp only [disconnect]
      rw [cleanUp_maxClients]
      exact (AppStateInner.cleanUp_length_le id).trans hwell.limited
    · intro other hother
      obtain ⟨hold, hne⟩ := AppStateInner.mem_ids_cleanUp hother
      rcases hwell.served other hold with hother | hrest
      · exact Or.inl ((List.mem_erase_of_ne hne).mpr hother)
      · exact Or.inr hrest
    · intro answer hanswer herror session hmade
      rw [htidy.clean answer hanswer herror] at hmade
      cases hmade
  · refine ⟨htidy.nodup, ?_, ?_, ?_, htidy.entered, htidy.waiting,
      htidy.clean⟩
    · intro other hother hmem
      exact htidy.apart other hother (List.mem_of_mem_erase hmem)
    · intro other hother
      refine AppStateInner.mem_ids_of_cleanUp (htidy.registered other hother) ?_
      rintro rfl
      exact htidy.apart other hother hopen
    · intro request session hcreating hmade
      obtain ⟨hsession, hclient, hclosed, hidle⟩ :=
        htidy.created request session hcreating hmade
      refine ⟨hsession, AppStateInner.mem_ids_of_cleanUp hclient ?_,
        fun hmem => hclosed (List.mem_of_mem_erase hmem), hidle⟩
      rintro rfl
      exact hclosed hopen

/-! ## Requests to the HTTP server -/

theorem Orderly.answer (horderly : self.Orderly) {status : StatusCode}
    {made : Option HttpSession}
    (hmade : status.isError = true → made = none) :
    (self.answer status made).Orderly := by
  obtain ⟨hwell, htidy⟩ := horderly
  have hclean : ∀ answer ∈ self.answered ++ [⟨status, made⟩],
      answer.status.isError = true → answer.made = none := by
    intro answer hanswer
    rcases List.mem_append.mp hanswer with hold | hnew
    · exact htidy.clean answer hold
    · rw [List.mem_singleton.mp hnew]
      exact hmade
  constructor
  · refine ⟨hwell.limited, hwell.counted, hwell.served, ?_⟩
    intro answer hanswer herror session hsession
    rw [hclean answer hanswer herror] at hsession
    cases hsession
  · exact ⟨htidy.nodup, htidy.apart, htidy.registered, htidy.created,
      htidy.entered, htidy.waiting, hclean⟩

theorem post_orderly (horderly : self.Orderly) (header : Option String)
    (fresh : String) (body : Except String JsonRpcMessage) :
    (self.post header fresh body).Orderly := by
  cases body with
  | error error => exact horderly.answer (fun _ => rfl)
  | ok message =>
      obtain ⟨hwell, htidy⟩ := horderly
      refine ⟨⟨hwell.limited, hwell.counted, hwell.served, hwell.unchanged⟩,
        ⟨htidy.nodup, htidy.apart, htidy.registered, htidy.created,
          htidy.entered, ?_, htidy.clean⟩⟩
      intro request hrequest
      rcases List.mem_append.mp hrequest with hold | hnew
      · exact htidy.waiting request hold
      · rw [List.mem_singleton.mp hnew]

theorem lookUp_orderly {place : ℕ} {request : HttpRequest}
    (horderly : self.Orderly) (hfree : self.creating = none)
    (hrequest : self.waiting[place]? = some request) :
    (lookUp { self with waiting := self.waiting.eraseIdx place }
      request).Orderly := by
  obtain ⟨hwell, htidy⟩ := horderly
  have hmade : request.made = none :=
    htidy.waiting request (List.mem_of_getElem? hrequest)
  have hwaiting : ∀ other ∈ self.waiting.eraseIdx place, other.made = none :=
    fun other hother =>
      htidy.waiting other (List.eraseIdx_subset hother)
  unfold lookUp
  split_ifs
  · refine ⟨⟨hwell.limited, hwell.counted, hwell.served, hwell.unchanged⟩,
      ⟨htidy.nodup, htidy.apart, htidy.registered, htidy.created, ?_, hwaiting,
        htidy.clean⟩⟩
    intro other hother session hsession
    rcases List.mem_append.mp hother with hold | hnew
    · exact htidy.entered other hold session hsession
    · rw [List.mem_singleton.mp hnew, hmade] at hsession
      cases hsession
  · have hserved : ∀ id ∈ self.app.ids,
        id ∈ self.connections ∨ id ∈ self.backends := by
      intro id hid
      rcases hwell.served id hid with hopen | hruns | ⟨other, _, hother, _⟩
      · exact Or.inl hopen
      · exact Or.inr hruns
      · rw [hfree] at hother
        cases hother
    refine ⟨⟨hwell.limited, hwell.counted, ?_, hwell.unchanged⟩,
      ⟨htidy.nodup, htidy.apart, htidy.registered, ?_, htidy.entered, hwaiting,
        htidy.clean⟩⟩
    · intro id hid
      rcases hserved id hid with hopen | hruns
      · exact Or.inl hopen
      · exact Or.inr (Or.inl hruns)
    · rintro _ session ⟨rfl⟩ hsession
      rw [hmade] at hsession
      cases hsession

theorem registerSession_orderly {request : HttpRequest} {id : ClientId}
    (horderly : self.Orderly) (hcreating : self.creating = some request)
    (hmade : request.made = none) (hunused : self.Unused id)
    (hroom : self.app.clients.length < self.app.maxClients) :
    (self.registerSession request id).Orderly := by
  obtain ⟨hnew, hconnection, hbackend⟩ := hunused
  obtain ⟨hwell, htidy⟩ := horderly
  have hids := AppStateInner.register_ids hnew
  have hlength := AppStateInner.register_length hnew
  constructor
  · refine ⟨?_, rfl, ?_, ?_⟩
    · dsimp only [registerSession]
      rw [hlength]
      exact hroom
    · intro other hother
      dsimp only [registerSession] at hother
      rw [hids, List.mem_append, List.mem_singleton] at hother
      rcases hother with hold | rfl
      · rcases hwell.served other hold with hopen | hruns |
          ⟨found, session, hfound, hsession, _⟩
        · exact Or.inl hopen
        · exact Or.inr (Or.inl hruns)
        · rw [hcreating] at hfound
          cases hfound
          rw [hmade] at hsession
          cases hsession
      · exact Or.inr (Or.inr ⟨_, _, rfl, rfl, rfl⟩)
    · intro answer hanswer herror session hsession
      rw [htidy.clean answer hanswer herror] at hsession
      cases hsession
  · refine ⟨htidy.nodup, htidy.apart, ?_, ?_, ?_, htidy.waiting, htidy.clean⟩
    · intro other hother
      dsimp only [registerSession]
      rw [hids]
      exact List.mem_append_left _ (htidy.registered other hother)
    · rintro _ session ⟨rfl⟩ ⟨rfl⟩
      dsimp only [registerSession]
      rw [hids]
      exact ⟨List.mem_append_right _ (List.mem_singleton_self _),
        List.mem_append_right _ (List.mem_singleton_self _), hconnection,
        hbackend⟩
    · intro other hother session hsession
      exact List.mem_append_left _ (htidy.entered other hother session hsession)

theorem startBackend_orderly {request : HttpRequest} {session : HttpSession}
    (horderly : self.Orderly) (hcreating : self.creating = some request)
    (hmade : request.made = some session)
    (hconfigured : self.backendConfigured = true) :
    (self.startBackend request session).Orderly := by
  obtain ⟨hwell, htidy⟩ := horderly
  obtain ⟨hsession, hclient, hclosed, hidle⟩ :=
    htidy.created request session hcreating hmade
  unfold startBackend
  rw [if_pos hconfigured]
  constructor
  · refine ⟨hwell.limited, hwell.counted, ?_, hwell.unchanged⟩
    intro id hid
    rcases hwell.served id hid with hopen | hruns |
      ⟨found, other, hfound, hother, rfl⟩
    · exact Or.inl hopen
    · exact Or.inr (Or.inl (List.mem_append_left _ hruns))
    · rw [hcreating] at hfound
      cases hfound
      rw [hmade] at hother
      cases hother
      exact Or.inr (Or.inl
        (List.mem_append_right _ (List.mem_singleton_self _)))
  · refine ⟨?_, ?_, ?_, ?_, ?_, htidy.waiting, htidy.clean⟩
    · refine List.nodup_append.mpr ⟨htidy.nodup, List.nodup_singleton _, ?_⟩
      intro id hid other hother hsame
      rw [hsame, List.mem_singleton.mp hother] at hid
      exact hidle hid
    · intro id hid
      rcases List.mem_append.mp hid with hold | hnew
      · exact htidy.apart id hold
      · rw [List.mem_singleton.mp hnew]
        exact hclosed
    · intro id hid
      rcases List.mem_append.mp hid with hold | hnew
      · exact htidy.registered id hold
      · rw [List.mem_singleton.mp hnew]
        exact hclient
    · intro other found hother
      cases hother
    · intro other hother found hfound
      rcases List.mem_append.mp hother with hold | hnew
      · exact htidy.entered other hold found hfound
      · rw [List.mem_singleton.mp hnew, hmade] at hfound
        cases hfound
        exact hsession

theorem respond_orderly {place : ℕ} {request : HttpRequest}
    (horderly : self.Orderly)
    (hmade : request.made ≠ none →
      ∀ response, request.message ≠ .response response) :
    (answer { self with entered := self.entered.eraseIdx place }
      (statusFor request.message) request.made).Orderly := by
  obtain ⟨hwell, htidy⟩ := horderly
  have hleft : Orderly
      { self with entered := self.entered.eraseIdx place } := by
    refine ⟨⟨hwell.limited, hwell.counted, hwell.served, hwell.unchanged⟩,
      ⟨htidy.nodup, htidy.apart, htidy.registered, htidy.created, ?_,
        htidy.waiting, htidy.clean⟩⟩
    intro other hother
    exact htidy.entered other (List.eraseIdx_subset hother)
  refine hleft.answer ?_
  intro herror
  cases hmessage : request.message with
  | request call =>
      rw [hmessage] at herror
      cases herror
  | notification notification =>
      rw [hmessage] at herror
      cases herror
  | response response =>
      by_contra hnone
      exact hmade hnone response hmessage

/-! ## What a step finds -/

theorem exists_measured (hstep : self.step .compareLimit = some next) :
    ∃ currentClients, self.listener = .measured currentClients ∧
      next = self.compareLimit currentClients := by
  cases hlistener : self.listener with
  | measured currentClients =>
      simp only [step, hlistener, Option.some.injEq] at hstep
      exact ⟨currentClients, rfl, hstep.symm⟩
  | waiting => simp [step, hlistener] at hstep
  | admitted currentClients => simp [step, hlistener] at hstep

/-- Before a connection is registered the accept loop has let it in. -/
theorem exists_admitted {id : ClientId}
    (hstep : self.step (.registerConnection id) = some next) :
    (∃ currentClients, self.listener = .admitted currentClients) ∧
      self.Unused id ∧ next = self.registerConnection id := by
  simp only [step] at hstep
  split at hstep
  · next currentClients hlistener =>
      split_ifs at hstep with hunused
      cases hstep
      exact ⟨⟨currentClients, hlistener⟩, hunused, rfl⟩
  · cases hstep

theorem exists_creating {id : ClientId}
    (hstep : self.step (.registerSession id) = some next) :
    ∃ request, self.creating = some request ∧ request.made = none ∧
      self.Unused id ∧ next = self.registerSession request id := by
  cases hcreating : self.creating with
  | none => simp [step, hcreating] at hstep
  | some request =>
      simp only [step, hcreating] at hstep
      split_ifs at hstep with hready
      cases hstep
      exact ⟨request, rfl, hready.1, hready.2, rfl⟩

/-- The session of the request was made before its backend is looked for. -/
theorem exists_made (hstep : self.step .startBackend = some next) :
    ∃ request session, self.creating = some request ∧
      request.made = some session ∧
      next = self.startBackend request session := by
  obtain ⟨request, hcreating, hmap⟩ := Option.bind_eq_some_iff.mp hstep
  obtain ⟨session, hmade, rfl⟩ := Option.map_eq_some_iff.mp hmap
  exact ⟨request, session, hcreating, hmade, rfl⟩

/-! ## What the accept loop has found -/

/-- The clients are those that were found and the sessions since, without those
that are gone; a connection that is let in was compared with the limit. -/
structure Measured (registry : ClientRegistry) : Prop where
  counted : ∀ currentClients, registry.listener.found = some currentClients →
    registry.app.clients.length + registry.departures =
      currentClients + registry.arrivals
  room : ∀ currentClients, registry.listener = .admitted currentClients →
    currentClients < registry.app.maxClients

theorem start_measured (app : AppStateInner) : (start app).Measured where
  counted _ hfound := by cases hfound
  room _ hlistener := by cases hlistener

namespace Measured

theorem of_same (hmeasured : self.Measured)
    (hclients : next.app.clients = self.app.clients)
    (hmax : next.app.maxClients = self.app.maxClients)
    (hlistener : next.listener = self.listener)
    (harrivals : next.arrivals = self.arrivals)
    (hdepartures : next.departures = self.departures) : next.Measured := by
  constructor
  · rw [hclients, hlistener, harrivals, hdepartures]
    exact hmeasured.counted
  · rw [hmax, hlistener]
    exact hmeasured.room

theorem of_waiting (hlistener : self.listener = .waiting) :
    self.Measured := by
  constructor
  · intro currentClients hfound
    rw [hlistener] at hfound
    cases hfound
  · intro currentClients hadmitted
    rw [hlistener] at hadmitted
    cases hadmitted

theorem compareLimit (hmeasured : self.Measured) {currentClients : ℕ}
    (hlistener : self.listener = .measured currentClients) :
    (self.compareLimit currentClients).Measured := by
  unfold ClientRegistry.compareLimit
  split_ifs with hfull
  · exact of_waiting rfl
  · constructor
    · rintro _ ⟨rfl⟩
      apply hmeasured.counted
      rw [hlistener]
      rfl
    · rintro _ ⟨rfl⟩
      exact Nat.lt_of_not_le hfull

theorem disconnect (hmeasured : self.Measured) (id : ClientId) :
    (self.disconnect id).Measured := by
  constructor
  · intro currentClients hfound
    have hcounted := hmeasured.counted currentClients hfound
    have hfewer := @AppStateInner.cleanUp_length_le self.app id
    dsimp only [ClientRegistry.disconnect]
    omega
  · intro currentClients hlistener
    dsimp only [ClientRegistry.disconnect]
    rw [cleanUp_maxClients]
    exact hmeasured.room currentClients hlistener

theorem registerSession (hmeasured : self.Measured) (request : HttpRequest)
    {id : ClientId} (hnew : id ∉ self.app.ids) :
    (self.registerSession request id).Measured := by
  constructor
  · intro currentClients hfound
    have hcounted := hmeasured.counted currentClients hfound
    dsimp only [ClientRegistry.registerSession]
    rw [AppStateInner.register_length hnew]
    omega
  · exact hmeasured.room

theorem step {action : Action} (hmeasured : self.Measured)
    (hstep : self.step action = some next) : next.Measured := by
  cases action with
  | accept =>
      simp only [ClientRegistry.step] at hstep
      split_ifs at hstep
      cases hstep
      constructor
      · rintro _ ⟨rfl⟩
        rfl
      · intro currentClients hlistener
        cases hlistener
  | acceptFails =>
      simp only [ClientRegistry.step] at hstep
      split_ifs at hstep
      cases hstep
      exact hmeasured
  | compareLimit =>
      obtain ⟨currentClients, hlistener, rfl⟩ := exists_measured hstep
      exact hmeasured.compareLimit hlistener
  | registerConnection id =>
      obtain ⟨_, _, rfl⟩ := exists_admitted hstep
      exact of_waiting rfl
  | disconnect id =>
      simp only [ClientRegistry.step] at hstep
      split_ifs at hstep
      cases hstep
      exact hmeasured.disconnect id
  | tick =>
      cases hstep
      exact hmeasured.of_same rfl rfl rfl rfl rfl
  | post header fresh body =>
      cases hstep
      cases body with
      | error error => exact hmeasured.of_same rfl rfl rfl rfl rfl
      | ok message => exact hmeasured.of_same rfl rfl rfl rfl rfl
  | lookUp place =>
      simp only [ClientRegistry.step] at hstep
      split_ifs at hstep
      obtain ⟨request, _, rfl⟩ := Option.map_eq_some_iff.mp hstep
      unfold ClientRegistry.lookUp
      split_ifs
      · exact hmeasured.of_same rfl rfl rfl rfl rfl
      · exact hmeasured.of_same rfl rfl rfl rfl rfl
  | registerSession id =>
      obtain ⟨request, _, _, hunused, rfl⟩ := exists_creating hstep
      exact hmeasured.registerSession request hunused.1
  | startBackend =>
      obtain ⟨request, session, _, _, rfl⟩ := exists_made hstep
      unfold ClientRegistry.startBackend
      split_ifs
      · exact hmeasured.of_same rfl rfl rfl rfl rfl
      · exact hmeasured.of_same rfl rfl rfl rfl rfl
  | respond place =>
      obtain ⟨request, _, rfl⟩ := Option.map_eq_some_iff.mp hstep
      exact hmeasured.of_same rfl rfl rfl rfl rfl
  | backendEnds id =>
      simp only [ClientRegistry.step] at hstep
      split_ifs at hstep
      cases hstep
      exact hmeasured.of_same rfl rfl rfl rfl rfl

/-- The connection that is let in finds room just when there is some left by
the sessions since. -/
theorem room_iff (hmeasured : self.Measured) {currentClients : ℕ}
    (hlistener : self.listener = .admitted currentClients) :
    self.app.clients.length < self.app.maxClients ↔
      (self.arrivals ≠ 0 →
        currentClients + self.arrivals <
          self.app.maxClients + self.departures) := by
  have hroom := hmeasured.room currentClients hlistener
  have hfound : self.listener.found = some currentClients := by
    rw [hlistener]
    rfl
  have hcounted := hmeasured.counted currentClients hfound
  constructor
  · omega
  · intro hadmits
    by_cases hnone : self.arrivals = 0
    · omega
    · have hleft := hadmits hnone
      omega

end Measured

/-! ## Runs of the two servers -/

theorem step_orderly {action : Action} (horderly : self.Orderly)
    (hmeasured : self.Measured) (hstep : self.step action = some next)
    (hadmits : self.Admits action) : next.Orderly := by
  have hcounted := horderly.wellRegistered.counted
  cases action with
  | accept =>
      simp only [step] at hstep
      split_ifs at hstep
      cases hstep
      exact horderly.of_same ⟨rfl, rfl, hcounted⟩
        ⟨rfl, rfl, rfl, rfl, rfl, rfl, rfl⟩
  | acceptFails =>
      simp only [step] at hstep
      split_ifs at hstep
      cases hstep
      exact horderly
  | compareLimit =>
      obtain ⟨currentClients, _, rfl⟩ := exists_measured hstep
      unfold compareLimit
      split_ifs
      · exact horderly.of_same ⟨rfl, rfl, hcounted⟩
          ⟨rfl, rfl, rfl, rfl, rfl, rfl, rfl⟩
      · exact horderly.of_same ⟨rfl, rfl, hcounted⟩
          ⟨rfl, rfl, rfl, rfl, rfl, rfl, rfl⟩
  | registerConnection id =>
      obtain ⟨⟨currentClients, hlistener⟩, hunused, rfl⟩ :=
        exists_admitted hstep
      exact registerConnection_orderly horderly hunused
        ((hmeasured.room_iff hlistener).mpr (hadmits currentClients hlistener))
  | disconnect id =>
      simp only [step] at hstep
      split_ifs at hstep with hopen
      cases hstep
      exact disconnect_orderly horderly hopen
  | tick =>
      cases hstep
      exact horderly.of_same ⟨rfl, rfl, rfl⟩ ⟨rfl, rfl, rfl, rfl, rfl, rfl, rfl⟩
  | post header fresh body =>
      cases hstep
      exact post_orderly horderly header fresh body
  | lookUp place =>
      simp only [step] at hstep
      split_ifs at hstep with hfree
      obtain ⟨request, hrequest, rfl⟩ := Option.map_eq_some_iff.mp hstep
      exact lookUp_orderly horderly (Option.isNone_iff_eq_none.mp hfree)
        hrequest
  | registerSession id =>
      obtain ⟨request, hcreating, hmade, hunused, rfl⟩ :=
        exists_creating hstep
      exact registerSession_orderly horderly hcreating hmade hunused hadmits
  | startBackend =>
      obtain ⟨request, session, hcreating, hmade, rfl⟩ := exists_made hstep
      exact startBackend_orderly horderly hcreating hmade hadmits
  | respond place =>
      obtain ⟨request, hrequest, rfl⟩ := Option.map_eq_some_iff.mp hstep
      exact respond_orderly horderly (hadmits request hrequest)
  | backendEnds id => exact False.elim hadmits

/-- Where a step breaks the condition, the registry is not as promised after
it. -/
theorem admits_of_wellRegistered {action : Action} (horderly : self.Orderly)
    (hmeasured : self.Measured) (hstep : self.step action = some next)
    (hnext : next.WellRegistered) : self.Admits action := by
  have htidy := horderly.tidy
  cases action with
  | registerConnection id =>
      obtain ⟨_, hunused, rfl⟩ := exists_admitted hstep
      have hlimited := hnext.limited
      dsimp only [registerConnection] at hlimited
      rw [AppStateInner.register_length hunused.1] at hlimited
      intro currentClients hlistener
      exact (hmeasured.room_iff hlistener).mp hlimited
  | registerSession id =>
      obtain ⟨request, _, _, hunused, rfl⟩ := exists_creating hstep
      have hlimited := hnext.limited
      dsimp only [registerSession] at hlimited
      rw [AppStateInner.register_length hunused.1] at hlimited
      exact hlimited
  | startBackend =>
      obtain ⟨request, session, hcreating, hmade, rfl⟩ := exists_made hstep
      change self.backendConfigured = true
      by_contra hmissing
      unfold startBackend at hnext
      rw [if_neg hmissing] at hnext
      exact (hnext.unchanged _ (List.mem_append_right _
        (List.mem_singleton_self _)) rfl session hmade).1
        (htidy.created request session hcreating hmade).1
  | respond place =>
      obtain ⟨request, hrequest, rfl⟩ := Option.map_eq_some_iff.mp hstep
      intro found hfound hmade response hresponse
      rw [hrequest] at hfound
      cases hfound
      obtain ⟨session, hsession⟩ := Option.ne_none_iff_exists'.mp hmade
      refine (hnext.unchanged _ (List.mem_append_right _
        (List.mem_singleton_self _)) ?_ session hsession).1
        (htidy.entered request (List.mem_of_getElem? hrequest) session
          hsession)
      rw [hresponse]
      rfl
  | backendEnds id =>
      simp only [step] at hstep
      split_ifs at hstep with hruns
      cases hstep
      change False
      rcases hnext.served id (htidy.registered id hruns) with hopen | hstill |
        ⟨request, session, hcreating, hmade, rfl⟩
      · exact htidy.apart id hruns hopen
      · exact htidy.nodup.not_mem_erase hstill
      · exact (htidy.created request session hcreating hmade).2.2.2 hruns
  | _ => trivial

/-- The registry is as promised throughout a run just when every step of it
meets the condition. -/
theorem throughout_wellRegistered_iff (app : AppStateInner)
    (trace : List Action) :
    machine.Throughout WellRegistered (start app) trace ↔
      machine.Along Admits (start app) trace := by
  refine StepMachine.throughout_iff_along ?_
    (fun found (hfound : Orderly found ∧ Measured found) =>
      hfound.1.wellRegistered) ?_
    ⟨start_orderly app, start_measured app⟩ trace
  · rintro before action after ⟨horderly, hmeasured⟩ hstep hadmits
    exact ⟨step_orderly horderly hmeasured hstep hadmits,
      hmeasured.step hstep⟩
  · rintro before action after ⟨horderly, hmeasured⟩ hstep hnext
    exact admits_of_wellRegistered horderly hmeasured hstep hnext

def firstCall : JsonRpcMessage := .request ⟨"2.0", .number 1, "ping", none⟩

/-- A new session while no backend is configured. -/
def unconfiguredCall : List Action :=
  [.post none "session" (.ok firstCall), .lookUp 0, .registerSession "client",
    .startBackend]

theorem unconfiguredCall_not_wellRegistered :
    ¬ machine.Throughout WellRegistered (start {}) unconfiguredCall := by
  intro hthrough
  have hreached := hthrough _ (List.prefix_refl _) _ rfl
  exact (hreached.unchanged ⟨.internalServerError, some ⟨"session", "client"⟩⟩
    (List.mem_singleton_self _) rfl _ rfl).1 (List.mem_singleton_self _)

end ClientRegistry

end Tui
end Acdp
