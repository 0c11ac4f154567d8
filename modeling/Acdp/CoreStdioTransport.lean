import Acdp.AuthCapabilities
import Acdp.CoreError
import Acdp.CoreMessages
import Acdp.MessageLedger
import Acdp.StepMachine
import Acdp.TextOperations

/-!
# The stdio transport

A connected transport shares two things between its callers and the task that
reads the child's output: the map of pending requests, from the text of an
identifier to the channel of the call that waits for it, and the queue of
messages for `receive_message`.  Callers hold the transport exclusively, so at
most one call is in progress.  The steps below are the atomic points of the
code; the state also keeps what has happened so far.  The child goes on writing
when the task has ended, which a line that is not UTF-8 is enough for.
-/

namespace Acdp
namespace Core

open Auth (Duration)

def debugDuration (duration : Duration) : String :=
  Text.spanText duration.secs.toNat duration.nanos

/-- A call that waits on its channel, with what the channel holds. -/
structure StdioCall where
  channel : ℕ
  request : JsonRpcRequest
  timeout : Duration
  answer : Option JsonRpcResponse

structure StdioTransport where
  connected : Bool
  /-- The task that writes to the child's input still takes messages. -/
  writing : Bool
  /-- The task that reads the child's output is running. -/
  reading : Bool
  pendingRequests : List (String × ℕ)
  inbound : List JsonRpcMessage
  outbound : List JsonRpcMessage
  call : Option StdioCall
  channels : ℕ
  /-- What the reading task has read. -/
  arrived : List JsonRpcMessage
  /-- What the child has written since that task ended. -/
  unread : List JsonRpcMessage
  results : List (JsonRpcRequest × McpResult JsonRpcResponse)
  received : List JsonRpcMessage

namespace StdioTransport

def opened : StdioTransport where
  connected := true
  writing := true
  reading := true
  pendingRequests := []
  inbound := []
  outbound := []
  call := none
  channels := 0
  arrived := []
  unread := []
  results := []
  received := []

def notConnected : McpError :=
  .transport (.notConnected "stdio" "Transport not connected")

def finish (self : StdioTransport) (request : JsonRpcRequest)
    (result : McpResult JsonRpcResponse) : StdioTransport :=
  { self with call := none, results := self.results ++ [(request, result)] }

def insertPending (key : String) (channel : ℕ)
    (pending : List (String × ℕ)) : List (String × ℕ) :=
  (key, channel) :: pending.filter (fun entry => entry.1 != key)

def removePending (key : String) (pending : List (String × ℕ)) :
    List (String × ℕ) :=
  pending.filter (fun entry => entry.1 != key)

/-- `send_request` up to the point where it waits. -/
def sendRequest (self : StdioTransport) (request : JsonRpcRequest)
    (timeout : Option Duration) : StdioTransport :=
  if self.connected then
    let filed := { self with
      channels := self.channels + 1
      pendingRequests := insertPending request.id.display self.channels
        self.pendingRequests }
    if self.writing then
      { filed with
        outbound := self.outbound ++ [.request request]
        call := some
          { channel := self.channels
            request := request
            timeout := timeout.getD (Duration.fromSecs 30)
            answer := none } }
    else
      filed.finish request (.error (.transport (.processError
        "Failed to send request to child process")))
  else self.finish request (.error notConnected)

/-- The sending end of a channel is in the map or has been dropped. -/
def senderAlive (self : StdioTransport) (channel : ℕ) : Bool :=
  self.pendingRequests.any (fun entry => entry.2 == channel)

/-- The waiting call looks at its channel; `expired` says that its timer has
run out. -/
def resume (self : StdioTransport) (call : StdioCall) (expired : Bool) :
    StdioTransport :=
  match call.answer with
  | some response => self.finish call.request (.ok response)
  | none =>
      if !self.senderAlive call.channel then
        self.finish call.request (.error (.transport (.processError
          "Response channel closed unexpectedly")))
      else if expired then
        self.finish call.request (.error (.transport (.timeoutError "stdio"
          ("Request " ++ call.request.id.display ++ " timed out after " ++
            debugDuration call.timeout))))
      else self

/-- `inbound_sender.send`, which fails once the receiver is gone; the reading
task then ends. -/
def forward (self : StdioTransport) (message : JsonRpcMessage) :
    StdioTransport :=
  if self.connected then { self with inbound := self.inbound ++ [message] }
  else { self with reading := false }

/-- `response_sender.send`, which is lost when the call no longer waits. -/
def deliver (self : StdioTransport) (channel : ℕ)
    (response : JsonRpcResponse) : StdioTransport :=
  match self.call with
  | some call =>
      if call.channel = channel then
        { self with call := some { call with answer := some response } }
      else self
  | none => self

/-- What the reading task does with a message. -/
def dispatch (self : StdioTransport) (message : JsonRpcMessage) :
    StdioTransport :=
  let self := { self with arrived := self.arrived ++ [message] }
  match message with
  | .response response =>
      match self.pendingRequests.lookup response.id.display with
      | some channel =>
          { self with pendingRequests :=
              removePending response.id.display self.pendingRequests }
            |>.deliver channel response
      | none => self.forward message
  | _ => self.forward message

def messageOn (json : SerdeJson) (line : String) : Option JsonRpcMessage :=
  if Text.trim line = "" then none else (json.message (Text.trim line)).toOption

/-- One line of the child's output.  Empty lines and lines that are no
message are skipped. -/
def readLine (json : SerdeJson) (self : StdioTransport) (line : String) :
    StdioTransport :=
  let trimmed := Text.trim line
  if trimmed = "" then self
  else
    match json.message trimmed with
    | .ok message => self.dispatch message
    | .error _ => self

/-- The child writes a line, which nothing reads once the task has ended. -/
def writeLine (json : SerdeJson) (self : StdioTransport) (line : String) :
    StdioTransport :=
  if self.reading then self.readLine json line
  else { self with unread := self.unread ++ (messageOn json line).toList }

/-- `receive_message`, which changes nothing where it fails or waits. -/
def receiveMessage (self : StdioTransport) : StdioTransport :=
  match self.connected, self.inbound with
  | true, message :: rest =>
      { self with inbound := rest, received := self.received ++ [message] }
  | _, _ => self

def disconnect (self : StdioTransport) : StdioTransport :=
  { self with
    connected := false
    inbound := []
    pendingRequests := [] }

/-! ## Steps -/

inductive Action where
  | sendRequest (request : JsonRpcRequest) (timeout : Option Duration)
  | resume (expired : Bool)
  | line (text : String)
  /-- A line that is not UTF-8, on which `read_line` fails. -/
  | invalidLine
  | receiveMessage
  | disconnect
  | stopWriting
  /-- The output is at its end, or cannot be read. -/
  | stopReading

/-- Calls need the transport exclusively, so none starts while another one
waits. -/
def machine (json : SerdeJson) : StepMachine StdioTransport Action where
  step self action :=
    match action, self.call with
    | .sendRequest request timeout, none =>
        some (self.sendRequest request timeout)
    | .resume expired, some call => some (self.resume call expired)
    | .line text, _ => some (self.writeLine json text)
    | .invalidLine, _ => some { self with reading := false }
    | .receiveMessage, none => some self.receiveMessage
    | .disconnect, none => some self.disconnect
    | .stopWriting, _ => some { self with writing := false }
    | .stopReading, _ => some { self with reading := false }
    | _, _ => none

end StdioTransport

end Core
end Acdp
