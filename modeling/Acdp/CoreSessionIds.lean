import Acdp.ByteStrings
import Acdp.CoreHttpSseTransport

/-!
# Session identifiers

A session identifier comes from a response header, which is checked, from the
session monitor, which reads it out of the text of an event, or from a default
that connecting puts in place.  The default aside, all identifiers that a
transport holds or sends pass the check exactly when the ones that its
requests take from the session monitor do.
-/

namespace Acdp
namespace Core

open Auth (Duration)

/-- `char::is_alphanumeric`, by the Unicode tables of the standard
library. -/
structure CharTables where
  isAlphanumeric : Char → Bool
  ascii : ∀ char : Char, char.toNat < 128 →
    isAlphanumeric char = char.isAlphanum

/-- The transport with its session monitor: `sessionReceiver` holds what the
monitor in place has announced and no request has taken yet, and `carried`
lists the identifiers put into headers and queries. -/
structure SessionTransport where
  transport : HttpSseTransport
  sessionReceiver : Option (List String)
  carried : List String

namespace SessionTransport

def new (basePath : String) : SessionTransport where
  transport := ⟨false, .autoDetect, basePath, none, true⟩
  sessionReceiver := none
  carried := []

def sessionId (self : SessionTransport) : Option String :=
  self.transport.sessionId

def setSessionId (self : SessionTransport) (sessionId : Option String) :
    SessionTransport :=
  { self with transport := { self.transport with sessionId := sessionId } }

def setProtocolVersion (self : SessionTransport)
    (version : McpProtocolVersion) : SessionTransport :=
  { self with
    transport := { self.transport with protocolVersion := version } }

def carry (self : SessionTransport) : SessionTransport :=
  { self with carried := self.carried ++ self.sessionId.toList }

variable (tables : CharTables) (json : SerdeJson)

def validateSessionId (validateSessionIds : Bool) (sessionId : String) :
    McpResult Unit :=
  if !validateSessionIds then .ok ()
  else if (asBytes sessionId).length < 16 then
    .error (.transport (.invalidConfig HttpSseTransport.transportType
      "Session ID too short - security risk"))
  else if !sessionId.toList.all (fun char =>
      tables.isAlphanumeric char || char == '-') then
    .error (.transport (.invalidConfig HttpSseTransport.transportType
      "Session ID contains invalid characters"))
  else .ok ()

/-! ## The session monitor -/

def sessionPath : String := "/sse?sessionId="

def sessionParameter : String := "sessionId="

def isSessionChar (char : Char) : Bool :=
  ('a' ≤ char && char ≤ 'f') || ('A' ≤ char && char ≤ 'F') ||
    char.isDigit || char == '-'

/-- `extract_session_from_event_data_static`. -/
def extractSessionFromEventData (data : String) : Option String :=
  match Text.fromFirst sessionPath.toList data.toList with
  | some path =>
      some (String.ofList (path.takeWhile (fun char =>
        !Text.isWhiteSpace char)))
  | none =>
      (Text.captureAfter sessionParameter.toList isSessionChar
        data.toList).map String.ofList

/-- What the monitor announces of an event; messages go into a channel of
their own. -/
def announcement (data : String) : Option String :=
  match json.message data with
  | .ok _ => none
  | .error _ => extractSessionFromEventData data

def hear (self : SessionTransport) (events : List String) :
    SessionTransport :=
  { self with
    sessionReceiver := self.sessionReceiver.map
      (fun waiting => waiting ++ events.filterMap (announcement json)) }

def applyAnnouncement (sessionId : Option String) (sessionInfo : String) :
    Option String :=
  if Text.startsWith sessionInfo sessionPath then
    match Text.splitSecond sessionInfo sessionParameter with
    | some text => some text
    | none => sessionId
  else some sessionInfo

def getFreshSessionId (self : SessionTransport) : SessionTransport :=
  if self.transport.protocolVersion = .streamableHttp then self
  else
    match self.sessionReceiver with
    | none => self
    | some waiting =>
        { self.setSessionId (waiting.foldl applyAnnouncement self.sessionId)
          with sessionReceiver := some [] }

/-! ## Connecting and sending -/

/-- `monitored` says whether one of the discovery endpoints gives an event
stream. -/
def startContinuousSessionMonitoring (self : SessionTransport)
    (monitored : Bool) : SessionTransport :=
  if self.transport.basePath = "/mcp" then
    self.setProtocolVersion .streamableHttp
  else if monitored then { self with sessionReceiver := some [] }
  else self

/-- `probe` says whether the server answers the test of connectivity. -/
def connect (self : SessionTransport) (monitored probe : Bool) :
    SessionTransport :=
  let self := self.startContinuousSessionMonitoring monitored
  if probe then
    { self with
      transport := { self.transport with
        connected := true
        sessionId := self.sessionId.or (some "default") } }
  else self

/-- The wait of the legacy protocol for an identifier, with the attempts that
are left and the events of each sleep; the timer of the call runs out in the
sleep after the last one listed. -/
def awaitSessionId :
    ℕ → List (List String) → SessionTransport → SessionTransport × Bool
  | 0, _, self => (self, true)
  | attempts + 1, sleeps, self =>
      if self.sessionId.isSome then (self, true)
      else
        let self := self.getFreshSessionId
        if self.sessionId.isSome then (self, true)
        else
          match sleeps with
          | [] => (self, false)
          | events :: sleeps =>
              awaitSessionId attempts sleeps (self.hear json events)

/-- What comes before the request is built: the latest announcement is taken,
and the legacy protocol waits for one.  The flag says that the request is
built at all. -/
def prepareRequest (self : SessionTransport) (sleeps : List (List String)) :
    SessionTransport × Bool :=
  let self := self.getFreshSessionId
  let version := self.transport.detectProtocolVersion
  let self := self.setProtocolVersion version
  if version = .httpSse then awaitSessionId json 50 sleeps self
  else (self, true)

def sendRequest (self : SessionTransport) (request : JsonRpcRequest)
    (timeout : Option Duration) (sleeps : List (List String))
    (exchange : HttpExchange) : SessionTransport :=
  if !self.transport.connected then self
  else
    let (self, ready) := self.prepareRequest json sleeps
    if ready then
      { self.carry with
        transport := (self.transport.sendRequest json request timeout
          exchange).1 }
    else self

def sendNotification (self : SessionTransport) : SessionTransport :=
  if !self.transport.connected then self else self.carry

/-- The session is ended on the server before it is forgotten. -/
def disconnect (self : SessionTransport) : SessionTransport :=
  { self.carry with
    transport := { self.transport with connected := false, sessionId := none } }

inductive Action where
  | connect (monitored probe : Bool)
  | monitorEvent (data : String)
  | sendRequest (request : JsonRpcRequest) (timeout : Option Duration)
      (sleeps : List (List String)) (exchange : HttpExchange)
  | sendNotification
  | disconnect

def step (self : SessionTransport) : Action → SessionTransport
  | .connect monitored probe => self.connect monitored probe
  | .monitorEvent data => self.hear json [data]
  | .sendRequest request timeout sleeps exchange =>
      self.sendRequest json request timeout sleeps exchange
  | .sendNotification => self.sendNotification
  | .disconnect => self.disconnect

def machine : StepMachine SessionTransport Action :=
  ⟨fun self action => some (self.step json action)⟩

/-! ## Identifiers that have been checked -/

variable (permitted : List String)

def Accepted (self : SessionTransport) (sessionId : String) : Prop :=
  validateSessionId tables self.transport.validateSessionIds sessionId = .ok ()

/-- The identifier is one of those permitted without a check, or it passes the
check. -/
def Admitted (self : SessionTransport) (sessionId : String) : Prop :=
  sessionId ∈ permitted ∨ self.Accepted tables sessionId

structure Vetted (found : SessionTransport) : Prop where
  sessionId : ∀ id, found.sessionId = some id → found.Admitted tables permitted id
  carried : ∀ id ∈ found.carried, found.Admitted tables permitted id

/-- The identifier in an announcement. -/
def announcedId (sessionInfo : String) : String :=
  if Text.startsWith sessionInfo sessionPath then
    (Text.splitSecond sessionInfo sessionParameter).getD ""
  else sessionInfo

def announcedLast (announcements : List String) : Option String :=
  announcements.getLast?.map announcedId

def pendingId (self : SessionTransport) : Option String :=
  if self.transport.protocolVersion = .streamableHttp then none
  else self.sessionReceiver.bind announcedLast

/-- The identifier that a request finds in announcements: in what waits
already, or, when the legacy protocol has none, in the events of the first
sleep that announces one. -/
def foundId (self : SessionTransport) (sleeps : List (List String)) :
    Option String :=
  self.pendingId.or
    (if self.sessionId = none ∧
        self.transport.detectProtocolVersion = .httpSse then
      self.sessionReceiver.bind fun _ =>
        (sleeps.take 49).findSome? fun events =>
          announcedLast (events.filterMap (announcement json))
    else none)

def Keeps (self : SessionTransport) : Action → Prop
  | .connect _ probe =>
      probe = true → self.sessionId = none →
        self.Admitted tables permitted "default"
  | .sendRequest _ _ sleeps _ =>
      self.transport.connected = true →
        ∀ id, self.foundId json sleeps = some id →
          self.Admitted tables permitted id
  | _ => True

variable {tables json permitted} {self : SessionTransport}

theorem accepted_iff (sessionId : String) :
    self.Accepted tables sessionId ↔
      (self.transport.validateSessionIds = true →
        16 ≤ (asBytes sessionId).length ∧
          ∀ char ∈ sessionId.toList,
            tables.isAlphanumeric char = true ∨ char = '-') := by
  have hall : sessionId.toList.all (fun char =>
      tables.isAlphanumeric char || char == '-') = true ↔
      ∀ char ∈ sessionId.toList,
        tables.isAlphanumeric char = true ∨ char = '-' := by
    simp only [List.all_eq_true, Bool.or_eq_true, beq_iff_eq]
  rw [← hall]
  unfold Accepted validateSessionId
  by_cases hflag : self.transport.validateSessionIds = true
  · by_cases hshort : (asBytes sessionId).length < 16
    · simp [hflag, hshort]
    · by_cases hchars : sessionId.toList.all (fun char =>
          tables.isAlphanumeric char || char == '-') = true
      · simp [hflag, hchars, Nat.le_of_not_lt hshort]
      · simp [hflag, hshort, hchars]
  · simp [hflag]

theorem not_accepted_default
    (hflag : self.transport.validateSessionIds = true) :
    ¬ self.Accepted tables "default" := by
  rw [accepted_iff]
  intro haccepted
  have hlength := (haccepted hflag).1
  have hseven : (asBytes "default").length = 7 := by decide
  omega

/-! ## What is announced -/

theorem isSome_fromFirst {part text : List Char} (hpart : part <:+: text) :
    (Text.fromFirst part text).isSome = true := by
  induction text with
  | nil => simp [Text.fromFirst, List.infix_nil.mp hpart]
  | cons char rest ih =>
      unfold Text.fromFirst
      by_cases hlead : part <+: char :: rest
      · simp [hlead]
      · rw [if_neg hlead]
        exact ih ((List.infix_cons_iff.mp hpart).resolve_left hlead)

theorem applyAnnouncement_eq (sessionId : Option String)
    (sessionInfo : String) :
    applyAnnouncement sessionId sessionInfo =
      some (announcedId sessionInfo) := by
  unfold applyAnnouncement announcedId
  by_cases hlead : Text.startsWith sessionInfo sessionPath = true
  · rw [if_pos hlead, if_pos hlead]
    have hpath : sessionPath.toList <+: sessionInfo.toList :=
      Text.startsWith_iff.mp hlead
    have hparameter : sessionParameter.toList <:+: sessionPath.toList := by
      decide
    have hfound := isSome_fromFirst (hparameter.trans hpath.isInfix)
    obtain ⟨tail, htail⟩ := Option.isSome_iff_exists.mp hfound
    simp [Text.splitSecond, htail]
  · rw [if_neg hlead, if_neg hlead]

theorem foldl_applyAnnouncement (announcements : List String)
    (sessionId : Option String) :
    announcements.foldl applyAnnouncement sessionId =
      (announcedLast announcements).or sessionId := by
  induction announcements using List.reverseRecOn with
  | nil => rfl
  | append_singleton before last ih =>
      rw [List.foldl_append]
      simp [applyAnnouncement_eq, announcedLast]

theorem getFreshSessionId_sessionId (self : SessionTransport) :
    self.getFreshSessionId.sessionId = self.pendingId.or self.sessionId := by
  unfold getFreshSessionId pendingId
  by_cases hmodern : self.transport.protocolVersion = .streamableHttp
  · simp [hmodern]
  · rw [if_neg hmodern, if_neg hmodern]
    cases hreceiver : self.sessionReceiver with
    | none => simp
    | some waiting => exact foldl_applyAnnouncement waiting self.sessionId

/-- Nothing but the identifier and what waits for a request differs. -/
def Refreshed (before after : SessionTransport) : Prop :=
  ∃ sessionId sessionReceiver, after =
    { before.setSessionId sessionId with sessionReceiver := sessionReceiver }

theorem getFreshSessionId_refreshed (self : SessionTransport) :
    Refreshed self self.getFreshSessionId := by
  unfold getFreshSessionId
  by_cases hmodern : self.transport.protocolVersion = .streamableHttp
  · rw [if_pos hmodern]
    exact ⟨self.sessionId, self.sessionReceiver, rfl⟩
  · rw [if_neg hmodern]
    cases hreceiver : self.sessionReceiver with
    | none => exact ⟨self.sessionId, self.sessionReceiver, rfl⟩
    | some waiting => exact ⟨_, _, rfl⟩

theorem Refreshed.hear (json : SerdeJson) {before after : SessionTransport}
    (hrefreshed : Refreshed before after) (events : List String) :
    Refreshed before (after.hear json events) := by
  obtain ⟨sessionId, sessionReceiver, rfl⟩ := hrefreshed
  exact ⟨sessionId, _, rfl⟩

theorem Refreshed.trans {before middle after : SessionTransport}
    (hfirst : Refreshed before middle) (hsecond : Refreshed middle after) :
    Refreshed before after := by
  obtain ⟨_, _, rfl⟩ := hfirst
  obtain ⟨sessionId, sessionReceiver, rfl⟩ := hsecond
  exact ⟨sessionId, sessionReceiver, rfl⟩

theorem Refreshed.protocolVersion {before after : SessionTransport}
    (hrefreshed : Refreshed before after) :
    after.transport.protocolVersion = before.transport.protocolVersion := by
  obtain ⟨_, _, rfl⟩ := hrefreshed
  rfl

theorem getFreshSessionId_sessionReceiver
    (hlegacy : self.transport.protocolVersion ≠ .streamableHttp) :
    self.getFreshSessionId.sessionReceiver =
      self.sessionReceiver.map (fun _ => []) := by
  unfold getFreshSessionId
  rw [if_neg hlegacy]
  cases hreceiver : self.sessionReceiver with
  | none => simpa using hreceiver
  | some waiting => rfl

theorem awaitSessionId_of_announced {attempts : ℕ}
    {sleeps : List (List String)} (hnone : self.sessionId = none)
    (hsome : self.getFreshSessionId.sessionId.isSome = true) :
    awaitSessionId json (attempts + 1) sleeps self =
      (self.getFreshSessionId, true) := by
  simp [awaitSessionId, hnone, hsome]

theorem awaitSessionId_of_silent {attempts : ℕ}
    {sleeps : List (List String)} (hnone : self.sessionId = none)
    (hsilent : self.getFreshSessionId.sessionId = none) :
    awaitSessionId json (attempts + 1) sleeps self =
      match sleeps with
      | [] => (self.getFreshSessionId, false)
      | events :: sleeps => awaitSessionId json attempts sleeps
          (self.getFreshSessionId.hear json events) := by
  rw [awaitSessionId]
  simp only [hnone, hsilent, Option.isSome_none, Bool.false_eq_true, if_false]

/-- An identifier that waits already is found before all later ones. -/
theorem found_of_announced {id : String} (later : Option String)
    (hlegacy : self.transport.protocolVersion ≠ .streamableHttp)
    (hnone : self.sessionId = none)
    (hsession : self.getFreshSessionId.sessionId = some id) :
    self.getFreshSessionId.sessionId = self.sessionReceiver.bind
      (fun waiting => (announcedLast waiting).or later) := by
  have hfresh := self.getFreshSessionId_sessionId
  rw [pendingId, if_neg hlegacy, hnone, Option.or_none, hsession] at hfresh
  rw [hsession]
  cases hwaiting : self.sessionReceiver with
  | none => simp [hwaiting] at hfresh
  | some waiting =>
      rw [hwaiting, Option.bind_some] at hfresh
      simp [← hfresh]

/-- The wait ends with the identifier of what waits already or, failing that,
of the first sleep that announces one; the events of the last sleep are not
looked at. -/
theorem awaitSessionId_spec (json : SerdeJson)
    (sleeps : List (List String)) :
    ∀ (attempts : ℕ) (self : SessionTransport),
      self.transport.protocolVersion ≠ .streamableHttp →
      self.sessionId = none →
      let waited := awaitSessionId json (attempts + 1) sleeps self
      Refreshed self waited.1 ∧
        (waited.2 = false → waited.1.sessionId = none) ∧
        waited.1.sessionId = self.sessionReceiver.bind (fun waiting =>
          (announcedLast waiting).or ((sleeps.take attempts).findSome?
            fun events =>
              announcedLast (events.filterMap (announcement json)))) := by
  induction sleeps with
  | nil =>
      intro attempts self hlegacy hnone waited
      have hfresh := self.getFreshSessionId_sessionId
      have hrefreshed := self.getFreshSessionId_refreshed
      rw [pendingId, if_neg hlegacy, hnone, Option.or_none] at hfresh
      cases hsession : self.getFreshSessionId.sessionId with
      | some id =>
          have hwaited : waited = (self.getFreshSessionId, true) :=
            awaitSessionId_of_announced hnone (by rw [hsession]; rfl)
          rw [hwaited]
          exact ⟨hrefreshed, by simp,
            found_of_announced _ hlegacy hnone hsession⟩
      | none =>
          have hwaited : waited = (self.getFreshSessionId, false) :=
            awaitSessionId_of_silent hnone hsession
          rw [hwaited]
          exact ⟨hrefreshed, fun _ => hsession, by simpa using hfresh⟩
  | cons events sleeps ih =>
      intro attempts self hlegacy hnone waited
      have hfresh := self.getFreshSessionId_sessionId
      have hrefreshed := self.getFreshSessionId_refreshed
      have hreceiver := getFreshSessionId_sessionReceiver hlegacy
      rw [pendingId, if_neg hlegacy, hnone, Option.or_none] at hfresh
      cases hsession : self.getFreshSessionId.sessionId with
      | some id =>
          have hwaited : waited = (self.getFreshSessionId, true) :=
            awaitSessionId_of_announced hnone (by rw [hsession]; rfl)
          rw [hwaited]
          exact ⟨hrefreshed, by simp,
            found_of_announced _ hlegacy hnone hsession⟩
      | none =>
          have hwaited : waited = awaitSessionId json attempts sleeps
              (self.getFreshSessionId.hear json events) :=
            awaitSessionId_of_silent hnone hsession
          have hheard := hrefreshed.hear json events
          rw [hsession] at hfresh
          cases attempts with
          | zero =>
              rw [hwaited]
              refine ⟨hheard, by simp [awaitSessionId], ?_⟩
              simp only [awaitSessionId, List.take_zero, List.findSome?_nil,
                Option.or_none]
              exact hsession.trans hfresh
          | succ attempts =>
              obtain ⟨hlater, hready, hfound⟩ := ih attempts
                (self.getFreshSessionId.hear json events)
                (by rw [hheard.protocolVersion]; exact hlegacy) hsession
              rw [hwaited]
              refine ⟨hheard.trans hlater, hready, ?_⟩
              rw [hfound]
              cases hwaiting : self.sessionReceiver with
              | none => simp [hear, hreceiver, hwaiting]
              | some waiting =>
                  rw [hwaiting, Option.bind_some] at hfresh
                  simp only [hear, hreceiver, hwaiting, ← hfresh,
                    Option.map_some, Option.bind_some, List.nil_append,
                    List.take_succ_cons, List.findSome?_cons, Option.none_or]
                  cases announcedLast
                      (events.filterMap (announcement json)) with
                  | none => rfl
                  | some id => rfl

theorem legacy_of_detected
    (hdetected : self.transport.detectProtocolVersion = .httpSse) :
    self.transport.protocolVersion ≠ .streamableHttp := by
  intro hmodern
  simp [HttpSseTransport.detectProtocolVersion, hmodern] at hdetected

theorem foundId_of_some {sleeps : List (List String)} {id : String}
    (hfresh : self.pendingId.or self.sessionId = some id) :
    (self.foundId json sleeps).or self.sessionId = some id := by
  unfold foundId
  cases hpending : self.pendingId with
  | some pending => simpa [hpending] using hfresh
  | none =>
      rw [hpending, Option.none_or] at hfresh
      simp [hfresh]

theorem prepareRequest_spec (json : SerdeJson) (self : SessionTransport)
    (sleeps : List (List String)) :
    let prepared := self.prepareRequest json sleeps
    prepared.1.transport.validateSessionIds =
        self.transport.validateSessionIds ∧
      prepared.1.carried = self.carried ∧
      (prepared.2 = false → prepared.1.sessionId = none) ∧
      prepared.1.sessionId = (self.foundId json sleeps).or self.sessionId := by
  intro prepared
  have hfresh := self.getFreshSessionId_sessionId
  have hdetected : self.getFreshSessionId.transport.detectProtocolVersion =
      self.transport.detectProtocolVersion := by
    obtain ⟨_, _, hrefreshed⟩ := self.getFreshSessionId_refreshed
    rw [hrefreshed]
    rfl
  obtain ⟨_, _, hrefreshed⟩ := self.getFreshSessionId_refreshed
  simp only [prepared, prepareRequest, hdetected]
  by_cases hlegacy : self.transport.detectProtocolVersion = .httpSse
  · have hversion := legacy_of_detected hlegacy
    have hreceiver := getFreshSessionId_sessionReceiver hversion
    simp only [hlegacy, if_true]
    cases hsession : self.getFreshSessionId.sessionId with
    | some id =>
        have hready : awaitSessionId json 50 sleeps
            (self.getFreshSessionId.setProtocolVersion .httpSse) =
              (self.getFreshSessionId.setProtocolVersion .httpSse, true) := by
          rw [awaitSessionId, if_pos]
          exact Option.isSome_iff_exists.mpr ⟨id, hsession⟩
        rw [hready]
        rw [hsession] at hfresh
        refine ⟨by rw [hrefreshed]; rfl, by rw [hrefreshed]; rfl, by simp, ?_⟩
        rw [foundId_of_some hfresh.symm]
        exact hsession
    | none =>
        rw [hsession] at hfresh
        obtain ⟨hpending, hnone⟩ := Option.or_eq_none_iff.mp hfresh.symm
        obtain ⟨⟨_, _, hwaited⟩, hready, hfound⟩ := awaitSessionId_spec json
          sleeps 49 (self.getFreshSessionId.setProtocolVersion .httpSse)
          (by simp [setProtocolVersion]) hsession
        refine ⟨by rw [hwaited, hrefreshed]; rfl,
          by rw [hwaited, hrefreshed]; rfl, hready, ?_⟩
        simp only [hfound, foundId, hpending, hnone, hlegacy, and_self, if_true,
          Option.none_or, Option.or_none]
        simp only [setProtocolVersion, hreceiver]
        cases self.sessionReceiver with
        | none => rfl
        | some waiting => rfl
  · rw [if_neg hlegacy]
    refine ⟨by rw [hrefreshed]; rfl, by rw [hrefreshed]; rfl, by simp, ?_⟩
    simp only [foundId, hlegacy, and_false, if_false, Option.or_none]
    exact hfresh

theorem toNat_lt_of_isAlphanum {char : Char}
    (halphanum : char.isAlphanum = true) : char.toNat < 128 := by
  have hcodes : (decide ('A'.val ≤ char.val ∧ char.val ≤ 'Z'.val) ||
      (decide ('a'.val ≤ char.val) && decide (char.val ≤ 'z'.val)) ||
      (decide ('0'.val ≤ char.val) && decide (char.val ≤ '9'.val))) = true :=
    halphanum
  simp only [Bool.or_eq_true, Bool.and_eq_true, decide_eq_true_eq,
    UInt32.le_iff_toNat_le] at hcodes
  simp at hcodes
  omega

/-- A header that passes the check of the transport passes it by the Unicode
tables too. -/
theorem accepted_of_header {id : String}
    (hvalid : self.transport.validateSessionId id = .ok ()) :
    self.Accepted tables id := by
  rw [accepted_iff]
  intro hflag
  unfold HttpSseTransport.validateSessionId at hvalid
  simp only [hflag, Bool.not_true, Bool.false_eq_true, if_false] at hvalid
  split_ifs at hvalid with hshort hchars
  simp only [Bool.not_eq_true', Bool.not_eq_false, List.all_eq_true,
    Bool.or_eq_true, beq_iff_eq] at hchars
  refine ⟨?_, ?_⟩
  · have hlength := length_le_asBytes id
    omega
  · intro char hchar
    rcases hchars char hchar with halphanum | hdash
    · left
      rw [tables.ascii char (toNat_lt_of_isAlphanum halphanum)]
      exact halphanum
    · exact Or.inr hdash

/-! ## Every step -/

theorem Admitted.of_flag {other : SessionTransport} {id : String}
    (hadmitted : self.Admitted tables permitted id)
    (hflag : other.transport.validateSessionIds =
      self.transport.validateSessionIds) :
    other.Admitted tables permitted id := by
  unfold Admitted Accepted
  rw [hflag]
  exact hadmitted

theorem Vetted.carry (hvetted : Vetted tables permitted self) :
    Vetted tables permitted self.carry where
  sessionId := hvetted.sessionId
  carried := by
    intro id hid
    rcases List.mem_append.mp hid with hold | hnew
    · exact hvetted.carried id hold
    · exact hvetted.sessionId id (by simpa using hnew)

/-- Whether all identifiers have been checked depends on them and on the
configuration alone. -/
theorem vetted_congr {other : SessionTransport}
    (hflag : other.transport.validateSessionIds =
      self.transport.validateSessionIds)
    (hsession : other.sessionId = self.sessionId)
    (hcarried : other.carried = self.carried) :
    Vetted tables permitted other ↔ Vetted tables permitted self := by
  constructor
  · intro hvetted
    refine ⟨?_, ?_⟩
    · intro id hid
      exact (hvetted.sessionId id (hsession.trans hid)).of_flag hflag.symm
    · intro id hid
      exact (hvetted.carried id (by rw [hcarried]; exact hid)).of_flag
        hflag.symm
  · intro hvetted
    refine ⟨?_, ?_⟩
    · intro id hid
      exact (hvetted.sessionId id (hsession.symm.trans hid)).of_flag hflag
    · intro id hid
      exact (hvetted.carried id (by rw [← hcarried]; exact hid)).of_flag hflag

theorem startContinuousSessionMonitoring_spec (self : SessionTransport)
    (monitored : Bool) :
    let after := self.startContinuousSessionMonitoring monitored
    after.transport.validateSessionIds = self.transport.validateSessionIds ∧
      after.sessionId = self.sessionId ∧ after.carried = self.carried := by
  intro after
  simp only [after, startContinuousSessionMonitoring]
  split_ifs
  · exact ⟨rfl, rfl, rfl⟩
  · exact ⟨rfl, rfl, rfl⟩
  · exact ⟨rfl, rfl, rfl⟩

theorem connect_spec (self : SessionTransport) (monitored probe : Bool) :
    let after := self.connect monitored probe
    after.transport.validateSessionIds = self.transport.validateSessionIds ∧
      after.carried = self.carried ∧
      after.sessionId =
        if probe then self.sessionId.or (some "default")
        else self.sessionId := by
  obtain ⟨hflag, hsession, hcarried⟩ :=
    self.startContinuousSessionMonitoring_spec monitored
  unfold connect
  generalize self.startContinuousSessionMonitoring monitored = started at *
  cases probe with
  | false => exact ⟨hflag, hcarried, hsession⟩
  | true =>
      refine ⟨hflag, hcarried, ?_⟩
      rw [← hsession]
      rfl

theorem connect_vetted_iff (hvetted : Vetted tables permitted self)
    (monitored probe : Bool) :
    Vetted tables permitted (self.connect monitored probe) ↔
      Keeps tables json permitted self (.connect monitored probe) := by
  obtain ⟨hflag, hcarried, hsession⟩ := self.connect_spec monitored probe
  simp only [Keeps]
  by_cases hdefault : probe = true ∧ self.sessionId = none
  · obtain ⟨rfl, hnone⟩ := hdefault
    rw [if_pos rfl, hnone, Option.none_or] at hsession
    simp only [hnone, true_implies]
    constructor
    · intro hafter
      exact (hafter.sessionId "default" hsession).of_flag hflag.symm
    · intro hdefault
      refine ⟨?_, ?_⟩
      · intro id hid
        rw [hsession, Option.some.injEq] at hid
        rw [← hid]
        exact hdefault.of_flag hflag
      · intro id hid
        exact (hvetted.carried id (by rwa [← hcarried])).of_flag hflag
  · have hsame : (self.connect monitored probe).sessionId = self.sessionId := by
      rw [hsession]
      cases hprobe : probe with
      | false => rfl
      | true =>
          obtain ⟨id, hid⟩ := Option.ne_none_iff_exists'.mp
            (fun hnone => hdefault ⟨hprobe, hnone⟩)
          simp [hid]
    refine iff_of_true ((vetted_congr hflag hsame hcarried).mpr hvetted) ?_
    intro hprobe hnone
    exact absurd ⟨hprobe, hnone⟩ hdefault

theorem sendRequest_vetted_iff (hvetted : Vetted tables permitted self)
    (request : JsonRpcRequest) (timeout : Option Duration)
    (sleeps : List (List String)) (exchange : HttpExchange) :
    Vetted tables permitted (self.sendRequest json request timeout sleeps exchange) ↔
      Keeps tables json permitted self (.sendRequest request timeout sleeps exchange) := by
  by_cases hconnected : self.transport.connected = true
  · obtain ⟨hflag, hcarried, hready, hsession⟩ :=
      prepareRequest_spec json self sleeps
    simp only [sendRequest, Keeps, hconnected, Bool.not_true,
      Bool.false_eq_true, if_false, true_implies]
    generalize self.prepareRequest json sleeps = prepared at *
    obtain ⟨prepared, ready⟩ := prepared
    dsimp only at hflag hcarried hready hsession ⊢
    have hpreserved : (∀ id, prepared.sessionId = some id →
        self.Admitted tables permitted id) ↔
        ∀ id, self.foundId json sleeps = some id → self.Admitted tables permitted id := by
      rw [hsession]
      cases hfound : self.foundId json sleeps with
      | some id => simp
      | none => simpa using hvetted.sessionId
    rw [← hpreserved]
    cases ready with
    | false =>
        -- the call gave up waiting, and there is no identifier
        have hnone := hready rfl
        refine iff_of_true ?_ (by simp [hnone])
        refine ⟨by simp [hnone], ?_⟩
        intro id hid
        exact (hvetted.carried id (by rwa [← hcarried])).of_flag hflag
    | true =>
        obtain ⟨hkept, hreply⟩ := prepared.transport.sendRequest_sessionFrom
          json request timeout exchange
        simp only [if_true]
        constructor
        · intro hafter id hid
          refine (hafter.carried id ?_).of_flag (hkept.trans hflag).symm
          simp [carry, hid]
        · intro hprepared
          have hfound : Vetted tables permitted prepared := by
            refine ⟨fun id hid => (hprepared id hid).of_flag hflag, ?_⟩
            intro id hid
            exact (hvetted.carried id (by rwa [← hcarried])).of_flag hflag
          refine ⟨?_, fun id hid =>
            (hfound.carry.carried id hid).of_flag hkept⟩
          intro id hid
          rcases hreply with hsame | ⟨header, hheader, hvalid⟩
          · exact (hfound.sessionId id (hsame.symm.trans hid)).of_flag hkept
          · have hid : some header = some id := hheader.symm.trans hid
            rw [Option.some.injEq] at hid
            rw [← hid]
            exact Admitted.of_flag (Or.inr (accepted_of_header hvalid)) hkept
  · simp only [sendRequest, Keeps, hconnected, Bool.not_false, if_true,
      Bool.false_eq_true, false_implies]
    exact iff_of_true hvetted trivial

theorem step_vetted_iff (hvetted : Vetted tables permitted self) (action : Action) :
    Vetted tables permitted (self.step json action) ↔
      Keeps tables json permitted self action := by
  cases action with
  | connect monitored probe => exact connect_vetted_iff hvetted monitored probe
  | monitorEvent data =>
      exact iff_of_true ⟨hvetted.sessionId, hvetted.carried⟩ trivial
  | sendRequest request timeout sleeps exchange =>
      exact sendRequest_vetted_iff hvetted request timeout sleeps exchange
  | sendNotification =>
      refine iff_of_true ?_ trivial
      simp only [step, sendNotification]
      split_ifs
      · exact hvetted
      · exact hvetted.carry
  | disconnect =>
      exact iff_of_true ⟨by simp [step, disconnect, SessionTransport.sessionId],
        hvetted.carry.carried⟩ trivial

/-- All identifiers that a transport holds or sends have been checked, exactly
when it starts with such and every step keeps them. -/
theorem throughout_vetted_iff (tables : CharTables) (json : SerdeJson)
    (start : SessionTransport) (trace : List Action) :
    (machine json).Throughout (Vetted tables permitted) start trace ↔
      Vetted tables permitted start ∧
        (machine json).Along (Keeps tables json permitted) start trace := by
  have hexact : Vetted tables permitted start →
      ((machine json).Throughout (Vetted tables permitted) start trace ↔
        (machine json).Along (Keeps tables json permitted) start trace) := by
    intro hstart
    refine StepMachine.throughout_iff_along ?_ (fun _ hvetted => hvetted) ?_
      hstart trace
    · intro before action after hvetted hstep hkeeps
      simp only [machine, Option.some.injEq] at hstep
      rw [← hstep]
      exact (step_vetted_iff hvetted action).mpr hkeeps
    · intro before action after hvetted hstep hafter
      simp only [machine, Option.some.injEq] at hstep
      rw [← hstep] at hafter
      exact (step_vetted_iff hvetted action).mp hafter
  constructor
  · intro hthrough
    have hstart : Vetted tables permitted start :=
      hthrough [] List.nil_prefix start rfl
    exact ⟨hstart, (hexact hstart).mp hthrough⟩
  · rintro ⟨hstart, halong⟩
    exact (hexact hstart).mpr halong

/-! ## A new transport -/

/-- Nothing has been connected yet. -/
structure Idle (found : SessionTransport) : Prop where
  connected : found.transport.connected = false
  sessionId : found.sessionId = none
  carried : found.carried = []
  validateSessionIds : found.transport.validateSessionIds = true

theorem Idle.vetted (hidle : Idle self) : Vetted tables permitted self where
  sessionId := by simp [hidle.sessionId]
  carried := by simp [hidle.carried]

theorem Idle.step (hidle : Idle self) {action : Action}
    (hprobe : ∀ monitored, action ≠ .connect monitored true) :
    Idle (self.step json action) := by
  cases action with
  | connect monitored probe =>
      cases probe with
      | true => exact absurd rfl (hprobe monitored)
      | false =>
          change Idle (self.startContinuousSessionMonitoring monitored)
          unfold startContinuousSessionMonitoring
          split_ifs
          · exact ⟨hidle.connected, hidle.sessionId, hidle.carried,
              hidle.validateSessionIds⟩
          · exact ⟨hidle.connected, hidle.sessionId, hidle.carried,
              hidle.validateSessionIds⟩
          · exact hidle
  | monitorEvent data =>
      exact ⟨hidle.connected, hidle.sessionId, hidle.carried,
        hidle.validateSessionIds⟩
  | sendRequest request timeout sleeps exchange =>
      simpa [SessionTransport.step, sendRequest, hidle.connected] using hidle
  | sendNotification =>
      simpa [SessionTransport.step, sendNotification, hidle.connected]
        using hidle
  | disconnect =>
      refine ⟨rfl, rfl, ?_, hidle.validateSessionIds⟩
      simp [SessionTransport.step, disconnect, carry, hidle.carried,
        hidle.sessionId]

/-- The default identifier is one the check refuses, so the identifiers of a
transport that is new are checked only as long as it does not connect. -/
theorem throughout_vetted_of_idle_iff (tables : CharTables) (json : SerdeJson)
    {start : SessionTransport} (hidle : Idle start) (trace : List Action) :
    (machine json).Throughout (Vetted tables []) start trace ↔
      ∀ action ∈ trace, ∀ monitored, action ≠ .connect monitored true := by
  induction trace generalizing start with
  | nil =>
      rw [StepMachine.throughout_nil]
      exact iff_of_true hidle.vetted (by simp)
  | cons action rest ih =>
      rw [StepMachine.throughout_cons]
      simp only [machine, Option.some.injEq, forall_eq', List.forall_mem_cons]
      by_cases hprobe : ∀ monitored, action ≠ .connect monitored true
      · have hnext : Idle (start.step json action) := hidle.step hprobe
        constructor
        · rintro ⟨_, hthrough⟩
          exact ⟨hprobe, (ih hnext).mp hthrough⟩
        · rintro ⟨_, hrest⟩
          exact ⟨hidle.vetted, (ih hnext).mpr hrest⟩
      · refine iff_of_false ?_ (fun hall => hprobe hall.1)
        rintro ⟨_, hthrough⟩
        push Not at hprobe
        obtain ⟨monitored, rfl⟩ := hprobe
        have hvetted : Vetted tables [] (start.connect monitored true) :=
          hthrough [] List.nil_prefix _ rfl
        obtain ⟨hflag, _, hsession⟩ := start.connect_spec monitored true
        rw [if_pos rfl, hidle.sessionId, Option.none_or] at hsession
        refine not_accepted_default (hflag.trans hidle.validateSessionIds)
          ((hvetted.sessionId "default" hsession).resolve_left ?_)
        exact List.not_mem_nil

theorem new_idle (basePath : String) : Idle (new basePath) :=
  ⟨rfl, rfl, rfl, rfl⟩

/-- Where the default identifier is permitted, those that a new transport holds
or sends are vetted exactly as long as each request takes from the session
monitor, if anything, one that the check accepts. -/
theorem new_throughout_vetted_iff (tables : CharTables) (json : SerdeJson)
    (basePath : String) (trace : List Action) :
    (machine json).Throughout (Vetted tables ["default"]) (new basePath)
        trace ↔
      (machine json).Along (Keeps tables json ["default"]) (new basePath)
        trace := by
  rw [throughout_vetted_iff]
  exact and_iff_right (new_idle basePath).vetted

/-! ## Identifiers that are not checked -/

def asciiTables : CharTables where
  isAlphanumeric := Char.isAlphanum
  ascii _ _ := rfl

def announcingJson : SerdeJson where
  parse _ := .error "expected value"
  floats := ⟨fun _ => "0.0", fun _ => some 0⟩
  mismatch _ := "data did not match any variant"

/-- Connecting puts an identifier in place that the check refuses. -/
theorem connected_not_vetted :
    ¬ (machine announcingJson).Throughout (Vetted asciiTables [])
      (new "/mcp") [.connect false true] := by
  intro hthrough
  have hvetted := hthrough _ (List.prefix_refl _) _ rfl
  exact (hvetted.sessionId "default" rfl).elim List.not_mem_nil
    (not_accepted_default rfl)

def appendedId : String := "550e8400-e29b-41d4&admin=1"

def parametersTrace : List Action :=
  [.connect true true, .monitorEvent (sessionPath ++ appendedId),
    .sendRequest (.withoutParams (.number 1) "tools/list") none []
      ⟨.error "connection closed", none, none, .inTime⟩]

/-- What a server appends to the identifier goes into the query. -/
theorem parametersTrace_not_vetted :
    ((machine announcingJson).run (new "/sse") parametersTrace).map carried =
        some [appendedId] ∧
      ¬ (machine announcingJson).Throughout (Vetted asciiTables ["default"])
        (new "/sse") parametersTrace := by
  have hreached : ((machine announcingJson).run (new "/sse")
      parametersTrace).map (fun reached =>
        (reached.transport.validateSessionIds, reached.carried)) =
      some (true, [appendedId]) := by
    decide +kernel
  obtain ⟨reached, hrun, hids⟩ := Option.map_eq_some_iff.mp hreached
  rw [Prod.mk.injEq] at hids
  refine ⟨by rw [hrun, Option.map_some, hids.2], ?_⟩
  intro hthrough
  have hvetted := hthrough parametersTrace (List.prefix_refl _) reached hrun
  have hadmitted := hvetted.carried appendedId (by simp [hids.2])
  have haccepted := hadmitted.resolve_left (by decide)
  rw [accepted_iff] at haccepted
  exact absurd ((haccepted hids.1).2 '&' (by decide)) (by decide)

end SessionTransport

end Core
end Acdp
