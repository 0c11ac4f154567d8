import Acdp.TransportBackendConnection

/-!
# What a relay owes

A relay between a client and a backend keeps account of what it has blocked,
forwarded and delivered.  It is complete when every request and notification
of the client has been blocked or has gone out once, and every response of the
backend has been delivered once under the identifier of the request.  While
interceptors keep identifiers, each kind of step keeps the account balanced.
-/

namespace Acdp
namespace Tui

open Acdp.Core
open Transport (Exchange)

/-- What the interceptors say about a message. -/
abbrev Verdict := Except String InterceptionResult

structure Forwarded where
  original : JsonRpcMessage
  sent : JsonRpcMessage
  transmissions : ℕ

structure Delivery where
  given : JsonRpcMessage
  written : JsonRpcMessage

/-- `answers` are the responses that a backend has returned from `send`. -/
structure RelayLedger where
  blocked : List JsonRpcMessage
  forwarded : List Forwarded
  answers : List JsonRpcResponse
  delivered : List Delivery

def isCall : JsonRpcMessage → Bool
  | .request _ => true
  | .notification _ => true
  | .response _ => false

def responseOf : JsonRpcMessage → Option JsonRpcResponse
  | .response response => some response
  | _ => none

namespace RelayLedger

def new : RelayLedger := ⟨[], [], [], []⟩

def block (self : RelayLedger) (message : JsonRpcMessage) : RelayLedger :=
  { self with blocked := self.blocked ++ [message] }

def forward (self : RelayLedger) (original sent : JsonRpcMessage)
    (exchange : Exchange) : RelayLedger :=
  { self with
    forwarded := self.forwarded ++ [⟨original, sent, exchange.transmissions⟩]
    answers := self.answers ++ exchange.answers }

def deliver (self : RelayLedger) (given written : JsonRpcMessage) :
    RelayLedger :=
  { self with delivered := self.delivered ++ [⟨given, written⟩] }

end RelayLedger

/-- The delivered message is a response to the forwarded request. -/
def Delivery.Answers (delivery : Delivery) (forwarded : Forwarded) : Prop :=
  ∃ request response, forwarded.sent = .request request ∧
    delivery.given = .response response ∧ request.id = response.id

def Delivery.CarriesIdOf (delivery : Delivery) (message : JsonRpcMessage) :
    Prop :=
  ∀ request, message = .request request →
    ∃ response, delivery.written = .response response ∧
      response.id = request.id

/-- The calls of the client and the responses of the backend are accounted
for. -/
structure Relays (calls : List JsonRpcMessage)
    (responses : List JsonRpcResponse) (ledger : RelayLedger) : Prop where
  settled : (calls.filter isCall).Perm
    ((ledger.blocked ++ ledger.forwarded.map Forwarded.original).filter isCall)
  once : ∀ forwarded ∈ ledger.forwarded,
    isCall forwarded.original = true → forwarded.transmissions = 1
  delivered : ledger.delivered.filterMap
    (fun delivery => responseOf delivery.given) = responses ++ ledger.answers
  ids : ∀ delivery ∈ ledger.delivered, ∀ forwarded ∈ ledger.forwarded,
    delivery.Answers forwarded → delivery.CarriesIdOf forwarded.original

/-! ## Balanced accounts -/

/-- A request that is still one keeps its identifier. -/
def KeepsRequestId (original sent : JsonRpcMessage) : Prop :=
  ∀ before after, original = .request before → sent = .request after →
    after.id = before.id

def KeepsResponseId (given written : JsonRpcMessage) : Prop :=
  ∀ response, given = .response response →
    ∃ other, written = .response other ∧ other.id = response.id

/-- Nothing has been answered on the spot, and no identifier was changed. -/
structure Balanced (calls : List JsonRpcMessage)
    (responses : List JsonRpcResponse) (ledger : RelayLedger) : Prop where
  settled : (calls.filter isCall).Perm
    ((ledger.blocked ++ ledger.forwarded.map Forwarded.original).filter isCall)
  once : ∀ forwarded ∈ ledger.forwarded,
    isCall forwarded.original = true → forwarded.transmissions = 1
  unanswered : ledger.answers = []
  delivered : ledger.delivered.filterMap
    (fun delivery => responseOf delivery.given) = responses
  requestIds : ∀ forwarded ∈ ledger.forwarded,
    KeepsRequestId forwarded.original forwarded.sent
  responseIds : ∀ delivery ∈ ledger.delivered,
    KeepsResponseId delivery.given delivery.written

namespace Balanced

variable {calls : List JsonRpcMessage} {responses : List JsonRpcResponse}
  {ledger : RelayLedger}

theorem relays (hbalanced : Balanced calls responses ledger) :
    Relays calls responses ledger where
  settled := hbalanced.settled
  once := hbalanced.once
  delivered := by
    rw [hbalanced.unanswered, List.append_nil]
    exact hbalanced.delivered
  ids := by
    rintro delivery hdelivery forwarded hforwarded
      ⟨sent, response, hsent, hgiven, hid⟩ request hrequest
    obtain ⟨other, hwritten, hother⟩ :=
      hbalanced.responseIds delivery hdelivery response hgiven
    refine ⟨other, hwritten, ?_⟩
    rw [hother, ← hid]
    exact hbalanced.requestIds forwarded hforwarded request sent hrequest hsent

theorem new : Balanced [] [] RelayLedger.new where
  settled := List.Perm.refl _
  once _ hmem := absurd hmem List.not_mem_nil
  unanswered := rfl
  delivered := rfl
  requestIds _ hmem := absurd hmem List.not_mem_nil
  responseIds _ hmem := absurd hmem List.not_mem_nil

/-- A message of the client that is no request and no notification. -/
theorem skip (hbalanced : Balanced calls responses ledger)
    {message : JsonRpcMessage} (hmessage : isCall message = false) :
    Balanced (calls ++ [message]) responses ledger where
  settled := by
    rw [List.filter_append, List.filter_cons_of_neg (by simp [hmessage]),
      List.filter_nil, List.append_nil]
    exact hbalanced.settled
  once := hbalanced.once
  unanswered := hbalanced.unanswered
  delivered := hbalanced.delivered
  requestIds := hbalanced.requestIds
  responseIds := hbalanced.responseIds

theorem block (hbalanced : Balanced calls responses ledger)
    (message : JsonRpcMessage) :
    Balanced (calls ++ [message]) responses (ledger.block message) where
  settled := by
    have hmoved : (ledger.blocked ++ [message] ++
          ledger.forwarded.map Forwarded.original).Perm
        (ledger.blocked ++ ledger.forwarded.map Forwarded.original ++
          [message]) := by
      rw [List.append_assoc, List.append_assoc]
      exact List.Perm.append_left _ List.perm_append_comm
    refine List.Perm.trans ?_ (hmoved.symm.filter _)
    rw [List.filter_append, List.filter_append]
    exact hbalanced.settled.append_right _
  once := hbalanced.once
  unanswered := hbalanced.unanswered
  delivered := hbalanced.delivered
  requestIds := hbalanced.requestIds
  responseIds := hbalanced.responseIds

theorem forward (hbalanced : Balanced calls responses ledger)
    {message sent : JsonRpcMessage} {exchange : Exchange}
    (hkeeps : KeepsRequestId message sent)
    (honce : isCall message = true → exchange.transmissions = 1)
    (hunanswered : exchange.answers = []) :
    Balanced (calls ++ [message]) responses
      (ledger.forward message sent exchange) where
  settled := by
    dsimp only [RelayLedger.forward]
    rw [List.map_append, ← List.append_assoc, List.filter_append,
      List.filter_append]
    exact hbalanced.settled.append_right _
  once := by
    intro forwarded hmem
    rcases List.mem_append.mp hmem with hold | hnew
    · exact hbalanced.once forwarded hold
    · rw [List.mem_singleton.mp hnew]
      exact honce
  unanswered := by
    dsimp only [RelayLedger.forward]
    rw [hbalanced.unanswered, hunanswered, List.append_nil]
  delivered := hbalanced.delivered
  requestIds := by
    intro forwarded hmem
    rcases List.mem_append.mp hmem with hold | hnew
    · exact hbalanced.requestIds forwarded hold
    · rw [List.mem_singleton.mp hnew]
      exact hkeeps
  responseIds := hbalanced.responseIds

theorem deliver (hbalanced : Balanced calls responses ledger)
    {given written : JsonRpcMessage} (hkeeps : KeepsResponseId given written) :
    Balanced calls (responses ++ (responseOf given).toList)
      (ledger.deliver given written) where
  settled := hbalanced.settled
  once := hbalanced.once
  unanswered := hbalanced.unanswered
  delivered := by
    dsimp only [RelayLedger.deliver]
    rw [List.filterMap_append, hbalanced.delivered]
    cases hresponse : responseOf given with
    | none => simp [hresponse]
    | some response => simp [hresponse]
  requestIds := hbalanced.requestIds
  responseIds := by
    intro delivery hmem
    rcases List.mem_append.mp hmem with hold | hnew
    · exact hbalanced.responseIds delivery hold
    · rw [List.mem_singleton.mp hnew]
      exact hkeeps

end Balanced

end Tui
end Acdp
