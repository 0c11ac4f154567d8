import Acdp.CoreStdioTransport

/-!
# Delivery through the stdio transport

Every message the child writes is handed to the call that waits for it or goes
through the queue of `receive_message`, and no entry of the map of pending
requests outlives its call.  A run has this property in all its states exactly
when no call leaves the map behind, by its timer or by a failure to send, no
two identifiers are confused, and no message is written to a reading task that
has ended.
-/

namespace Acdp
namespace Core
namespace StdioTransport

open Auth (Duration)

def answerOf : JsonRpcRequest × McpResult JsonRpcResponse →
    Option JsonRpcMessage
  | (_, .ok response) => some (.response response)
  | (_, .error _) => none

def heldAnswer (self : StdioTransport) : Option JsonRpcMessage :=
  (self.call.bind StdioCall.answer).map .response

def ledger (self : StdioTransport) : Ledger JsonRpcMessage where
  arrived := self.arrived ++ self.unread
  handed := self.results.filterMap answerOf ++ self.heldAnswer.toList
  received := self.received
  queued := self.inbound

structure Conserves (transport : StdioTransport) : Prop where
  delivered : transport.ledger.Conserved
  results : ∀ request response, (request, .ok response) ∈ transport.results →
    response.id = request.id
  held : ∀ call response, transport.call = some call →
    call.answer = some response → response.id = call.request.id
  idle : transport.call = none → transport.pendingRequests = []

/-- What holds beside the property: the map holds the entry of the call in
progress until its answer is there, and nothing else; every message has been
read. -/
structure Orderly (transport : StdioTransport) : Prop extends Conserves transport where
  filed : ∀ call, transport.call = some call →
    transport.pendingRequests = if call.answer.isSome then []
      else [(call.request.id.display, call.channel)]
  busy : transport.call ≠ none → transport.connected = true
  read : transport.unread = []

def Awaits (self : StdioTransport) (request : JsonRpcRequest) : Prop :=
  ∃ call, self.call = some call ∧ call.answer = none ∧ call.request = request

/-- The step is not one of those that lose a message or leave an entry
behind. -/
def Keeps (json : SerdeJson) (self : StdioTransport) : Action → Prop
  | .sendRequest _ _ => self.connected = true → self.writing = true
  | .resume expired => expired = true → ∀ request, ¬ self.Awaits request
  | .line text => ∀ message, messageOn json text = some message →
      self.reading = true ∧ self.connected = true ∧
        ∀ request response, self.Awaits request →
          message = .response response →
          response.id.display = request.id.display →
          response.id = request.id
  | .disconnect => self.inbound = []
  | _ => True

theorem orderly_opened : opened.Orderly := by
  constructor
  · constructor
    · exact Ledger.conserved_empty
    · simp [opened]
    · simp [opened]
    · simp [opened]
  · simp [opened]
  · simp [opened]
  · rfl

/-! ## Reading -/

theorem readLine_eq (json : SerdeJson) (self : StdioTransport)
    (line : String) :
    self.readLine json line =
      (messageOn json line).elim self self.dispatch := by
  unfold readLine messageOn
  by_cases hempty : Text.trim line = ""
  · simp [hempty]
  · cases hmessage : json.message (Text.trim line) with
    | error e => simp [hempty, hmessage, Except.toOption]
    | ok message => simp [hempty, hmessage, Except.toOption]

theorem writeLine_eq (json : SerdeJson) (self : StdioTransport)
    (line : String) :
    self.writeLine json line =
      (messageOn json line).elim self (fun message =>
        if self.reading then self.dispatch message
        else { self with unread := self.unread ++ [message] }) := by
  unfold writeLine
  rw [readLine_eq]
  cases messageOn json line with
  | none => simp
  | some message => rfl

theorem dispatch_of_lookup_none {self : StdioTransport}
    {message : JsonRpcMessage}
    (hlookup : ∀ response, message = .response response →
      self.pendingRequests.lookup response.id.display = none) :
    self.dispatch message =
      { self with arrived := self.arrived ++ [message] }.forward message := by
  cases message with
  | request req => rfl
  | notification notif => rfl
  | response resp => simp only [dispatch, hlookup resp rfl]

/-- A message is handed to the waiting call if it is a response whose
identifier has the text of the request's, and forwarded otherwise. -/
theorem Orderly.dispatch_cases {self : StdioTransport}
    (horderly : self.Orderly) (message : JsonRpcMessage) :
    (∃ call response, self.call = some call ∧ call.answer = none ∧
        message = .response response ∧
        response.id.display = call.request.id.display ∧
        self.dispatch message =
          { self with
            arrived := self.arrived ++ [message]
            pendingRequests := []
            call := some { call with answer := some response } }) ∨
      (∀ request response, self.Awaits request →
          message = .response response →
          response.id.display ≠ request.id.display) ∧
        self.dispatch message =
          { self with arrived := self.arrived ++ [message] }.forward
            message := by
  by_cases hawaited : ∃ call response, self.call = some call ∧
      call.answer = none ∧ message = .response response ∧
      response.id.display = call.request.id.display
  · obtain ⟨call, response, hcall, hanswer, hmessage, hkey⟩ := hawaited
    refine Or.inl ⟨call, response, hcall, hanswer, hmessage, hkey, ?_⟩
    have hfiled := horderly.filed call hcall
    simp [dispatch, hmessage, hfiled, hanswer, hkey, removePending, deliver,
      hcall]
  · refine Or.inr ⟨?_, ?_⟩
    · rintro request response ⟨call, hcall, hanswer, rfl⟩ hmessage hkey
      exact hawaited ⟨call, response, hcall, hanswer, hmessage, hkey⟩
    · apply dispatch_of_lookup_none
      intro response hmessage
      cases hcall : self.call with
      | none => simp [horderly.idle hcall]
      | some call =>
          have hfiled := horderly.filed call hcall
          cases hanswer : call.answer with
          | some answer => simp [hfiled, hanswer]
          | none =>
              have hne : response.id.display ≠ call.request.id.display := by
                intro hkey
                exact hawaited
                  ⟨call, response, hcall, hanswer, hmessage, hkey⟩
              simp [hfiled, hanswer, hne]

/-! ## Steps -/

theorem ledger_finish_error {self : StdioTransport}
    (hheld : self.heldAnswer = none) (request : JsonRpcRequest)
    (e : McpError) :
    (self.finish request (.error e)).ledger = self.ledger := by
  have hnone : [(request, (.error e : McpResult JsonRpcResponse))].filterMap
      answerOf = [] := rfl
  have hafter : (self.finish request (.error e)).heldAnswer = none := rfl
  simp only [ledger, hheld, hafter, Option.toList_none, List.append_nil]
  simp [finish, hnone]

theorem ledger_finish_ok {self : StdioTransport} {call : StdioCall}
    {response : JsonRpcResponse} (hcall : self.call = some call)
    (hanswer : call.answer = some response) :
    (self.finish call.request (.ok response)).ledger = self.ledger := by
  have hone : [(call.request, (.ok response : McpResult JsonRpcResponse))].filterMap
      answerOf = [.response response] := rfl
  simp [ledger, finish, heldAnswer, hcall, hanswer, hone]

theorem mem_results_append {self : StdioTransport} {request : JsonRpcRequest}
    {result : McpResult JsonRpcResponse}
    (hresults : ∀ earlier response, (earlier, .ok response) ∈ self.results →
      response.id = earlier.id)
    (hresult : ∀ response, result = .ok response →
      response.id = request.id) :
    ∀ earlier response,
      (earlier, .ok response) ∈ self.results ++ [(request, result)] →
        response.id = earlier.id := by
  intro earlier response hmem
  rcases List.mem_append.mp hmem with hold | hnew
  · exact hresults earlier response hold
  · rw [List.mem_singleton, Prod.mk.injEq] at hnew
    rw [hnew.1]
    exact hresult response hnew.2.symm

/-- A call that has returned leaves an orderly transport if it leaves no
entry behind. -/
theorem Orderly.finish {self : StdioTransport} (horderly : self.Orderly)
    {request : JsonRpcRequest} {result : McpResult JsonRpcResponse}
    (hledger : (self.finish request result).ledger = self.ledger)
    (hresult : ∀ response, result = .ok response → response.id = request.id)
    (hempty : self.pendingRequests = []) :
    (self.finish request result).Orderly := by
  constructor
  · constructor
    · rw [hledger]
      exact horderly.delivered
    · exact mem_results_append horderly.results hresult
    · simp [StdioTransport.finish]
    · intro _
      exact hempty
  · simp [StdioTransport.finish]
  · simp [StdioTransport.finish]
  · exact horderly.read

theorem Orderly.sendRequest {self : StdioTransport}
    (horderly : self.Orderly) (hidle : self.call = none)
    (request : JsonRpcRequest) (timeout : Option Duration)
    (hkeeps : self.connected = true → self.writing = true) :
    (self.sendRequest request timeout).Orderly := by
  have hledger := horderly.delivered
  have hheld : self.heldAnswer = none := by
    simp [heldAnswer, hidle]
  by_cases hconnected : self.connected = true
  · have hwriting := hkeeps hconnected
    simp only [StdioTransport.sendRequest, hconnected, hwriting, if_true]
    constructor
    · constructor
      · simpa [ledger, heldAnswer, hidle] using hledger
      · exact horderly.results
      · rintro call response hcall hanswer
        rw [Option.some.injEq] at hcall
        simp [← hcall] at hanswer
      · simp
    · simp [insertPending, horderly.idle hidle]
    · simp
    · exact horderly.read
  · simp only [StdioTransport.sendRequest, hconnected, if_false,
      Bool.false_eq_true]
    apply horderly.finish (ledger_finish_error hheld request notConnected)
    · simp
    · exact horderly.idle hidle

theorem Orderly.resume {self : StdioTransport} (horderly : self.Orderly)
    {call : StdioCall} (hcall : self.call = some call) (expired : Bool)
    (hkeeps : expired = true → ∀ request, ¬ self.Awaits request) :
    (self.resume call expired).Orderly := by
  have hfiled := horderly.filed call hcall
  unfold StdioTransport.resume
  cases hanswer : call.answer with
  | some response =>
      apply horderly.finish (ledger_finish_ok hcall hanswer)
      · intro other hother
        rw [Except.ok.injEq] at hother
        rw [← hother]
        exact horderly.held call response hcall hanswer
      · simpa [hanswer] using hfiled
  | none =>
      have halive : self.senderAlive call.channel = true := by
        simp [senderAlive, hfiled, hanswer]
      have hwaits : expired = false := by
        rw [← Bool.not_eq_true]
        intro hexpired
        exact hkeeps hexpired call.request ⟨call, hcall, hanswer, rfl⟩
      simpa [halive, hwaits] using horderly

theorem ledger_arrive {self : StdioTransport} (hread : self.unread = [])
    (message : JsonRpcMessage) :
    { self with arrived := self.arrived ++ [message] }.ledger =
      self.ledger.lose message := by
  simp [ledger, Ledger.lose, hread, heldAnswer]

theorem Orderly.forward {self : StdioTransport} (horderly : self.Orderly)
    (hconnected : self.connected = true) (message : JsonRpcMessage) :
    ({ self with arrived := self.arrived ++ [message] }.forward
      message).Orderly := by
  rw [StdioTransport.forward, if_pos hconnected]
  have hledger := horderly.delivered.enqueue message
  exact
    { delivered := by
        simpa [ledger, Ledger.enqueue, heldAnswer, horderly.read] using hledger
      results := horderly.results
      held := horderly.held
      idle := horderly.idle
      filed := horderly.filed
      busy := horderly.busy
      read := horderly.read }

theorem Orderly.answer {self : StdioTransport} (horderly : self.Orderly)
    {call : StdioCall} {response : JsonRpcResponse}
    (hcall : self.call = some call) (hanswer : call.answer = none)
    (hid : response.id = call.request.id) :
    Orderly
      { self with
        arrived := self.arrived ++ [.response response]
        pendingRequests := []
        call := some { call with answer := some response } } := by
  have hledger := horderly.delivered.hand (.response response)
  have hconnected := horderly.busy (by simp [hcall])
  constructor
  · constructor
    · simpa [ledger, Ledger.hand, heldAnswer, hcall, hanswer,
        horderly.read] using hledger
    · exact horderly.results
    · rintro other reply hother hreply
      rw [Option.some.injEq] at hother
      rw [← hother, Option.some.injEq] at hreply
      rw [← hother, ← hreply]
      exact hid
    · simp
  · rintro other hother
    rw [Option.some.injEq] at hother
    simp [← hother]
  · simp [hconnected]
  · exact horderly.read

theorem Orderly.writeLine {self : StdioTransport} (horderly : self.Orderly)
    (json : SerdeJson) (line : String)
    (hkeeps : self.Keeps json (.line line)) :
    (self.writeLine json line).Orderly := by
  rw [writeLine_eq]
  cases hmessage : messageOn json line with
  | none => exact horderly
  | some message =>
      obtain ⟨hreading, hconnected, hids⟩ := hkeeps message hmessage
      rw [Option.elim_some, if_pos hreading]
      rcases horderly.dispatch_cases message with hhanded | hforwarded
      · obtain ⟨call, response, hcall, hanswer, hresponse, hkey, hnext⟩ :=
          hhanded
        rw [hnext, hresponse]
        apply horderly.answer hcall hanswer
        exact hids call.request response ⟨call, hcall, hanswer, rfl⟩
          hresponse hkey
      · rw [hforwarded.2]
        exact horderly.forward hconnected message

theorem Orderly.receiveMessage {self : StdioTransport}
    (horderly : self.Orderly) : self.receiveMessage.Orderly := by
  unfold StdioTransport.receiveMessage
  split
  next message rest hconnected hinbound =>
    have hledger := horderly.delivered
    rw [ledger, hinbound] at hledger
    exact
      { delivered := hledger.receive
        results := horderly.results
        held := horderly.held
        idle := horderly.idle
        filed := horderly.filed
        busy := horderly.busy
        read := horderly.read }
  next => exact horderly

theorem Orderly.disconnect {self : StdioTransport} (horderly : self.Orderly)
    (hidle : self.call = none) (hinbound : self.inbound = []) :
    self.disconnect.Orderly := by
  have hledger := horderly.delivered
  rw [ledger, hinbound] at hledger
  exact
    { delivered := hledger
      results := horderly.results
      held := horderly.held
      idle := fun _ => rfl
      filed := by simp [StdioTransport.disconnect, hidle]
      busy := by simp [StdioTransport.disconnect, hidle]
      read := horderly.read }

/-! ## Runs -/

theorem machine_step_cases {json : SerdeJson} {self next : StdioTransport}
    {action : Action} (hstep : (machine json).step self action = some next) :
    (∃ request timeout, action = .sendRequest request timeout ∧
        self.call = none ∧ next = self.sendRequest request timeout) ∨
      (∃ call expired, action = .resume expired ∧ self.call = some call ∧
        next = self.resume call expired) ∨
      (∃ text, action = .line text ∧ next = self.writeLine json text) ∨
      (action = .receiveMessage ∧ next = self.receiveMessage) ∨
      (action = .disconnect ∧ self.call = none ∧ next = self.disconnect) ∨
      (action = .stopWriting ∧ next = { self with writing := false }) ∨
      ((action = .invalidLine ∨ action = .stopReading) ∧
        next = { self with reading := false }) := by
  cases hcall : self.call with
  | none => cases action <;> simp_all [machine]
  | some call => cases action <;> simp_all [machine]

theorem Orderly.step {json : SerdeJson} {self next : StdioTransport}
    {action : Action} (horderly : self.Orderly)
    (hstep : (machine json).step self action = some next)
    (hkeeps : self.Keeps json action) : next.Orderly := by
  rcases machine_step_cases hstep with
    ⟨request, timeout, rfl, hidle, rfl⟩ | ⟨call, expired, rfl, hcall, rfl⟩ |
    ⟨text, rfl, rfl⟩ | ⟨rfl, rfl⟩ | ⟨rfl, hidle, rfl⟩ | ⟨rfl, rfl⟩ |
    ⟨haction, rfl⟩
  · exact horderly.sendRequest hidle request timeout hkeeps
  · exact horderly.resume hcall expired hkeeps
  · exact horderly.writeLine json text hkeeps
  · exact horderly.receiveMessage
  · exact horderly.disconnect hidle hkeeps
  · exact { horderly with }
  · exact { horderly with }

theorem Orderly.keeps_of_conserves {json : SerdeJson}
    {self next : StdioTransport} {action : Action} (horderly : self.Orderly)
    (hstep : (machine json).step self action = some next)
    (hconserves : next.Conserves) : self.Keeps json action := by
  rcases machine_step_cases hstep with
    ⟨request, timeout, rfl, hidle, rfl⟩ | ⟨call, expired, rfl, hcall, rfl⟩ |
    ⟨text, rfl, rfl⟩ | ⟨rfl, rfl⟩ | ⟨rfl, hidle, rfl⟩ | ⟨rfl, rfl⟩ |
    ⟨haction, rfl⟩
  · intro hconnected
    by_contra hwriting
    have hempty := hconserves.idle (by
      simp [StdioTransport.sendRequest, hconnected, hwriting,
        StdioTransport.finish])
    simp [StdioTransport.sendRequest, hconnected, hwriting,
      StdioTransport.finish, insertPending] at hempty
  · rintro hexpired request ⟨other, hother, hanswer, _⟩
    rw [hcall, Option.some.injEq] at hother
    rw [← hother] at hanswer
    have hfiled := horderly.filed call hcall
    have halive : self.senderAlive call.channel = true := by
      simp [senderAlive, hfiled, hanswer]
    have hempty := hconserves.idle (by
      simp [StdioTransport.resume, hanswer, halive, hexpired,
        StdioTransport.finish])
    simp [StdioTransport.resume, hanswer, halive, hexpired,
      StdioTransport.finish, hfiled] at hempty
  · intro message hmessage
    rw [writeLine_eq, hmessage, Option.elim_some] at hconserves
    have hreading : self.reading = true := by
      by_contra hended
      rw [if_neg hended] at hconserves
      have hlost : { self with unread := self.unread ++ [message] }.ledger =
          self.ledger.lose message := by
        simp [ledger, Ledger.lose, heldAnswer]
      apply horderly.delivered.not_lose message
      rw [← hlost]
      exact hconserves.delivered
    rw [if_pos hreading] at hconserves
    refine ⟨hreading, ?_⟩
    rcases horderly.dispatch_cases message with hhanded | hforwarded
    · obtain ⟨call, response, hcall, hanswer, hresponse, hkey, hnext⟩ :=
        hhanded
      refine ⟨horderly.busy (by simp [hcall]), ?_⟩
      rintro request reply ⟨other, hother, _, rfl⟩ hreply _
      rw [hcall, Option.some.injEq] at hother
      rw [hresponse, JsonRpcMessage.response.injEq] at hreply
      rw [hnext] at hconserves
      rw [← hother, ← hreply]
      exact hconserves.held { call with answer := some response } response
        rfl rfl
    · obtain ⟨hunawaited, hnext⟩ := hforwarded
      have hconnected : self.connected = true := by
        by_contra hclosed
        have hlost : (self.dispatch message).ledger =
            self.ledger.lose message := by
          rw [hnext, StdioTransport.forward, if_neg hclosed]
          exact ledger_arrive horderly.read message
        apply horderly.delivered.not_lose message
        rw [← hlost]
        exact hconserves.delivered
      refine ⟨hconnected, ?_⟩
      intro request response hawaits hresponse hkey
      exact absurd hkey (hunawaited request response hawaits hresponse)
  · trivial
  · have hlength : self.disconnect.inbound.length = self.inbound.length :=
      horderly.delivered.queued_length_eq hconserves.delivered
    exact List.eq_nil_of_length_eq_zero hlength.symm
  · trivial
  · rcases haction with rfl | rfl
    · trivial
    · trivial

/-- A run of the opened transport conserves its messages and its map in every
state exactly when all its steps keep them. -/
theorem machine_conserves_iff (json : SerdeJson) (trace : List Action) :
    (machine json).Throughout Conserves opened trace ↔
      (machine json).Along (Keeps json) opened trace :=
  StepMachine.throughout_iff_along
    (fun _ _ _ horderly hstep hkeeps => horderly.step hstep hkeeps)
    (fun _ horderly => horderly.toConserves)
    (fun _ _ _ horderly hstep hconserves =>
      horderly.keeps_of_conserves hstep hconserves)
    orderly_opened trace

/-! ## A late answer -/

def lateLine : String :=
  "\x7b\"jsonrpc\":\"2.0\",\"id\":1,\"result\":\"done\"\x7d"

def lateJson : SerdeJson where
  parse text :=
    if text = lateLine then
      .ok (.obj [("jsonrpc", .str "2.0"), ("id", .int 1),
        ("result", .str "done")])
    else .error "expected value"
  floats := ⟨fun _ => "0.0", fun _ => some 0⟩
  mismatch _ := "data did not match any variant"

def lateTrace : List Action :=
  [.sendRequest (.withoutParams (.number 1) "ping") none, .resume true,
    .line lateLine]

def summary (self : StdioTransport) :
    (ℕ × ℕ × ℕ × ℕ) × List (String × ℕ) :=
  ((self.ledger.arrived.length, self.ledger.handed.length,
    self.ledger.received.length, self.ledger.queued.length),
    self.pendingRequests)

/-- A call that timed out leaves its entry behind, and the answer that comes
after it is lost. -/
theorem lateTrace_loses_answer :
    ((machine lateJson).run opened (lateTrace.take 2)).map summary =
        some ((0, 0, 0, 0), [("1", 0)]) ∧
      ((machine lateJson).run opened lateTrace).map summary =
        some ((1, 0, 0, 0), []) ∧
      ¬ (machine lateJson).Throughout Conserves opened lateTrace := by
  have hlost : ((machine lateJson).run opened lateTrace).map summary =
      some ((1, 0, 0, 0), []) := by
    rfl
  refine ⟨by rfl, hlost, ?_⟩
  intro hthrough
  obtain ⟨reached, hreached, hsummary⟩ := Option.map_eq_some_iff.mp hlost
  have hlength := (hthrough lateTrace (List.prefix_refl _) reached
    hreached).delivered.length_eq
  simp only [summary, Prod.mk.injEq] at hsummary
  omega

end StdioTransport
end Core
end Acdp
