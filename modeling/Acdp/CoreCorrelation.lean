import Acdp.CoreSseDelivery
import Acdp.CoreStdioDelivery
import Acdp.IntegerText

/-!
# Correlation of responses

The transports file a request under the text of its identifier and look a
response up by the text of its own.  Two different identifiers have one text
exactly when one of them is a string that spells the other; apart from such
pairs a response reaches a call only if it carries the identifier of the
request.
-/

namespace Acdp
namespace Core

namespace RequestId

/-- One identifier is a string that spells the other, which is a number or
`null`. -/
def Confusable : RequestId → RequestId → Prop
  | .string text, .number value => text = toString value.toInt
  | .number value, .string text => text = toString value.toInt
  | .string text, .null => text = "null"
  | .null, .string text => text = "null"
  | _, _ => False

instance (a b : RequestId) : Decidable (Confusable a b) := by
  unfold Confusable
  split <;> infer_instance

theorem repr_ne_null (value : Int64) : value.toInt.repr ≠ "null" :=
  IntegerText.repr_ne value.toInt 'n' (by decide) (by decide)

theorem display_eq_iff (a b : RequestId) :
    a.display = b.display ↔ a = b ∨ Confusable a b := by
  cases a with
  | string text => cases b <;> simp [display, Confusable]
  | number value =>
      cases b with
      | string text => simp [display, Confusable, eq_comm]
      | number other => simp [display, Confusable, Int64.toInt_inj]
      | null => simp [display, Confusable, repr_ne_null]
  | null =>
      cases b with
      | string text => simp [display, Confusable, eq_comm]
      | number value => simp [display, Confusable, (repr_ne_null value).symm]
      | null => simp [display, Confusable]

theorem Confusable.ne {a b : RequestId} (hconfusable : Confusable a b) :
    a ≠ b := by
  intro heq
  subst heq
  cases a <;> exact hconfusable

/-- The texts of two identifiers tell them apart unless they are
confusable. -/
theorem eq_of_display_eq_iff (a b : RequestId) :
    (a.display = b.display → a = b) ↔ ¬ Confusable a b := by
  rw [display_eq_iff]
  constructor
  · intro heq hconfusable
    exact hconfusable.ne (heq (Or.inr hconfusable))
  · intro hdistinct hsame
    exact hsame.resolve_right hdistinct

end RequestId

/-! ## The map of pending requests -/

namespace StdioTransport

open Auth (Duration)
open HttpSseTransport (awaited)

theorem lookup_removePending {key other : String} (hne : other ≠ key)
    (pending : List (String × ℕ)) :
    (removePending key pending).lookup other = pending.lookup other := by
  induction pending with
  | nil => rfl
  | cons entry rest ih =>
      obtain ⟨name, channel⟩ := entry
      by_cases hname : name = key
      · have hother : (other == name) = false := by
          simp [hname, hne]
        have hskip : removePending key ((name, channel) :: rest) =
            removePending key rest := by
          simp [removePending, hname]
        rw [hskip, ih, List.lookup_cons, hother]
      · have hkeep : removePending key ((name, channel) :: rest) =
            (name, channel) :: removePending key rest := by
          simp [removePending, hname]
        rw [hkeep, List.lookup_cons, List.lookup_cons, ih]

theorem mem_removePending {key : String} {pending : List (String × ℕ)}
    {entry : String × ℕ} :
    entry ∈ removePending key pending ↔ entry ∈ pending ∧ entry.1 ≠ key := by
  simp [removePending]

/-- Whatever earlier calls have left in the map, the entry of the call in
progress is there until its answer comes, and no other one leads to its
channel. -/
structure Registered (transport : StdioTransport) : Prop where
  allocated : ∀ entry ∈ transport.pendingRequests,
    entry.2 < transport.channels
  filed : ∀ call, transport.call = some call → call.answer = none →
    transport.pendingRequests.lookup call.request.id.display =
      some call.channel
  owned : ∀ call, transport.call = some call →
    ∀ entry ∈ transport.pendingRequests, entry.2 = call.channel →
      call.answer = none ∧ entry.1 = call.request.id.display

theorem registered_opened : opened.Registered := by
  constructor <;> simp [opened]

theorem Registered.finish {self : StdioTransport}
    (hregistered : self.Registered) (request : JsonRpcRequest)
    (result : McpResult JsonRpcResponse) :
    (self.finish request result).Registered := by
  constructor
  · exact hregistered.allocated
  · simp [StdioTransport.finish]
  · simp [StdioTransport.finish]

theorem Registered.sendRequest {self : StdioTransport}
    (hregistered : self.Registered) (request : JsonRpcRequest)
    (timeout : Option Duration) :
    (self.sendRequest request timeout).Registered := by
  have hallocated : ∀ entry ∈ insertPending request.id.display self.channels
      self.pendingRequests, entry.2 < self.channels + 1 := by
    intro entry hmem
    rcases List.mem_cons.mp hmem with hnew | hold
    · rw [hnew]
      exact Nat.lt_succ_self self.channels
    · have hlt := hregistered.allocated entry (mem_removePending.mp hold).1
      omega
  by_cases hconnected : self.connected = true
  · by_cases hwriting : self.writing = true
    · rw [StdioTransport.sendRequest, if_pos hconnected, if_pos hwriting]
      constructor
      · exact hallocated
      · rintro call hcall _
        rw [Option.some.injEq] at hcall
        simp [← hcall, insertPending]
      · intro call hcall entry hmem hchannel
        rw [Option.some.injEq] at hcall
        subst hcall
        rcases List.mem_cons.mp hmem with hnew | hold
        · simp [hnew]
        · have hlt := hregistered.allocated entry (mem_removePending.mp hold).1
          simp only at hchannel
          omega
    · rw [StdioTransport.sendRequest, if_pos hconnected, if_neg hwriting]
      constructor
      · exact hallocated
      · simp [StdioTransport.finish]
      · simp [StdioTransport.finish]
  · rw [StdioTransport.sendRequest, if_neg hconnected]
    exact hregistered.finish request _

theorem Registered.resume {self : StdioTransport}
    (hregistered : self.Registered) (call : StdioCall) (expired : Bool) :
    (self.resume call expired).Registered := by
  unfold StdioTransport.resume
  split
  · exact hregistered.finish _ _
  · split_ifs
    · exact hregistered.finish _ _
    · exact hregistered.finish _ _
    · exact hregistered

def offer (message : JsonRpcMessage) (call : StdioCall) : StdioCall :=
  { call with
    answer := call.answer.or (awaited call.request.id.display message) }

theorem offer_eq_id {message : JsonRpcMessage}
    (hother : ∀ key, awaited key message = none) : offer message = id := by
  funext call
  simp [offer, hother]

theorem forward_call (self : StdioTransport) (message : JsonRpcMessage) :
    (self.forward message).call = self.call := by
  unfold forward
  split_ifs <;> rfl

theorem forward_pendingRequests (self : StdioTransport)
    (message : JsonRpcMessage) :
    (self.forward message).pendingRequests = self.pendingRequests := by
  unfold forward
  split_ifs <;> rfl

theorem deliver_of_channel_ne {self : StdioTransport} {channel : ℕ}
    (hne : ∀ call, self.call = some call → call.channel ≠ channel)
    (response : JsonRpcResponse) :
    self.deliver channel response = self := by
  unfold deliver
  split
  next call hcall => rw [if_neg (hne call hcall)]
  next => rfl

structure Framed (before after : StdioTransport) : Prop where
  connected : after.connected = before.connected
  reading : before.connected = true → after.reading = before.reading
  channels : after.channels = before.channels
  results : after.results = before.results

theorem framed_forward (self : StdioTransport) (message : JsonRpcMessage) :
    Framed self (self.forward message) := by
  unfold forward
  split_ifs with hconnected
  · constructor <;> simp
  · constructor <;> simp [hconnected]

theorem framed_deliver (self : StdioTransport) (channel : ℕ)
    (response : JsonRpcResponse) :
    Framed self (self.deliver channel response) := by
  unfold deliver
  split
  · split_ifs <;> constructor <;> simp
  · constructor <;> simp

theorem framed_dispatch (self : StdioTransport) (message : JsonRpcMessage) :
    Framed self (self.dispatch message) := by
  cases message with
  | request req => exact { framed_forward _ _ with }
  | notification notif => exact { framed_forward _ _ with }
  | response response =>
      simp only [dispatch]
      split
      · exact { framed_deliver _ _ _ with }
      · exact { framed_forward _ _ with }

theorem deliver_pendingRequests (self : StdioTransport) (channel : ℕ)
    (response : JsonRpcResponse) :
    (self.deliver channel response).pendingRequests =
      self.pendingRequests := by
  unfold deliver
  split
  · split_ifs <;> rfl
  · rfl

theorem removePending_of_lookup_none {key : String}
    {pending : List (String × ℕ)} (hlookup : pending.lookup key = none) :
    removePending key pending = pending := by
  apply List.filter_eq_self.mpr
  intro entry hmem
  have hne := List.lookup_eq_none_iff.mp hlookup entry hmem
  rw [bne_iff_ne]
  exact fun hkey => by simp [hkey] at hne

theorem mem_of_lookup_eq_some {key : String} {channel : ℕ}
    {pending : List (String × ℕ)}
    (hlookup : pending.lookup key = some channel) :
    (key, channel) ∈ pending := by
  obtain ⟨before, after, hpending, _⟩ := List.lookup_eq_some_iff.mp hlookup
  simp [hpending]

theorem dispatch_pendingRequests (self : StdioTransport)
    (message : JsonRpcMessage) :
    (self.dispatch message).pendingRequests =
      match message with
      | .response response =>
          removePending response.id.display self.pendingRequests
      | _ => self.pendingRequests := by
  cases message with
  | request req => exact forward_pendingRequests _ _
  | notification notif => exact forward_pendingRequests _ _
  | response response =>
      simp only [dispatch]
      cases hlookup : self.pendingRequests.lookup response.id.display with
      | some channel => exact deliver_pendingRequests _ _ _
      | none =>
          rw [forward_pendingRequests]
          exact (removePending_of_lookup_none hlookup).symm

theorem Registered.offer_eq {self : StdioTransport}
    (hregistered : self.Registered) {call : StdioCall}
    (hcall : self.call = some call) {response : JsonRpcResponse}
    (hlookup : self.pendingRequests.lookup response.id.display ≠
      some call.channel) :
    offer (.response response) call = call := by
  cases hanswer : call.answer with
  | some answer =>
      obtain ⟨channel, request, timeout, answer⟩ := call
      subst hanswer
      rfl
  | none =>
      have hfiled := hregistered.filed call hcall hanswer
      have hne : response.id.display ≠ call.request.id.display := by
        intro hkey
        rw [hkey] at hlookup
        exact hlookup hfiled
      simp [offer, awaited, hne]

/-- The reading task answers the call in progress with the first response
that has the text of its identifier, and with nothing else. -/
theorem Registered.dispatch_call {self : StdioTransport}
    (hregistered : self.Registered) (message : JsonRpcMessage) :
    (self.dispatch message).call = self.call.map (offer message) := by
  cases message with
  | request req =>
      rw [offer_eq_id (fun _ => rfl), Option.map_id_fun]
      exact forward_call _ _
  | notification notif =>
      rw [offer_eq_id (fun _ => rfl), Option.map_id_fun]
      exact forward_call _ _
  | response response =>
      cases hcall : self.call with
      | none =>
          simp only [dispatch]
          split
          · simp [deliver, hcall]
          · simp [forward_call, hcall]
      | some call =>
          by_cases hmine : self.pendingRequests.lookup response.id.display =
              some call.channel
          · obtain ⟨hanswer, hkey⟩ := hregistered.owned call hcall
              (response.id.display, call.channel)
              (mem_of_lookup_eq_some hmine) rfl
            simp only at hkey
            rw [hkey] at hmine
            simp [dispatch, hkey, hmine, deliver, hcall, offer, hanswer,
              awaited]
          · rw [Option.map_some, hregistered.offer_eq hcall hmine, ← hcall]
            simp only [dispatch]
            split
            next channel hlookup =>
              rw [deliver_of_channel_ne]
              intro other hother hchannel
              rw [hcall, Option.some.injEq] at hother
              rw [hother, hchannel] at hmine
              exact hmine hlookup
            next => exact forward_call _ _

theorem Registered.dispatch {self : StdioTransport}
    (hregistered : self.Registered) (message : JsonRpcMessage) :
    (self.dispatch message).Registered := by
  have hcalls := hregistered.dispatch_call message
  have hpending := dispatch_pendingRequests self message
  have hchannels := (framed_dispatch self message).channels
  constructor
  · intro entry hmem
    rw [hchannels]
    apply hregistered.allocated
    rw [hpending] at hmem
    cases message with
    | request req => exact hmem
    | notification notif => exact hmem
    | response response => exact (mem_removePending.mp hmem).1
  · intro after hafter hanswer
    rw [hcalls, Option.map_eq_some_iff] at hafter
    obtain ⟨call, hcall, rfl⟩ := hafter
    obtain ⟨hunanswered, hother⟩ := Option.or_eq_none_iff.mp hanswer
    have hfiled := hregistered.filed call hcall hunanswered
    rw [hpending]
    cases message with
    | request req => exact hfiled
    | notification notif => exact hfiled
    | response response =>
        have hne : call.request.id.display ≠ response.id.display := by
          intro hkey
          simp [awaited, hkey] at hother
        exact (lookup_removePending hne _).trans hfiled
  · intro after hafter entry hmem hchannel
    rw [hcalls, Option.map_eq_some_iff] at hafter
    obtain ⟨call, hcall, rfl⟩ := hafter
    rw [hpending] at hmem
    cases message with
    | request req =>
        simpa [offer, awaited] using
          hregistered.owned call hcall entry hmem hchannel
    | notification notif =>
        simpa [offer, awaited] using
          hregistered.owned call hcall entry hmem hchannel
    | response response =>
        obtain ⟨hmem, hkept⟩ := mem_removePending.mp hmem
        obtain ⟨hunanswered, hkey⟩ :=
          hregistered.owned call hcall entry hmem hchannel
        have hne : response.id.display ≠ call.request.id.display := by
          rw [← hkey]
          exact hkept.symm
        simp [offer, awaited, hunanswered, hkey, hne]

theorem Registered.readLine {self : StdioTransport}
    (hregistered : self.Registered) (json : SerdeJson) (line : String) :
    (self.readLine json line).Registered := by
  rw [readLine_eq]
  cases messageOn json line with
  | none => exact hregistered
  | some message => exact hregistered.dispatch message

theorem Registered.writeLine {self : StdioTransport}
    (hregistered : self.Registered) (json : SerdeJson) (line : String) :
    (self.writeLine json line).Registered := by
  unfold StdioTransport.writeLine
  split_ifs
  · exact hregistered.readLine json line
  · exact { hregistered with }

theorem framed_readLine (json : SerdeJson) (self : StdioTransport)
    (line : String) : Framed self (self.readLine json line) := by
  rw [readLine_eq]
  cases messageOn json line with
  | none => constructor <;> simp
  | some message => exact framed_dispatch self message

theorem Registered.step {json : SerdeJson} {self next : StdioTransport}
    {action : Action} (hregistered : self.Registered)
    (hstep : (machine json).step self action = some next) :
    next.Registered := by
  rcases machine_step_cases hstep with
    ⟨request, timeout, rfl, hidle, rfl⟩ | ⟨call, expired, rfl, hcall, rfl⟩ |
    ⟨text, rfl, rfl⟩ | ⟨rfl, rfl⟩ | ⟨rfl, hidle, rfl⟩ | ⟨rfl, rfl⟩ |
    ⟨_, rfl⟩
  · exact hregistered.sendRequest request timeout
  · exact hregistered.resume call expired
  · exact hregistered.writeLine json text
  · unfold StdioTransport.receiveMessage
    split
    · exact { hregistered with }
    · exact hregistered
  · constructor
    · simp [StdioTransport.disconnect]
    · simp [StdioTransport.disconnect, hidle]
    · simp [StdioTransport.disconnect]
  · exact { hregistered with }
  · exact { hregistered with }

theorem registered_of_run {json : SerdeJson} {trace : List Action}
    {self : StdioTransport}
    (hrun : (machine json).run opened trace = some self) :
    self.Registered :=
  StepMachine.run_invariant
    (fun _ _ _ hregistered hstep => hregistered.step hstep)
    registered_opened hrun

/-- The reading task hands the response to the call that waits on the
request. -/
def Hands (self : StdioTransport) (request : JsonRpcRequest)
    (response : JsonRpcResponse) : Prop :=
  self.Awaits request ∧
    (self.dispatch (.response response)).call.bind StdioCall.answer =
      some response

theorem Registered.hands_iff {self : StdioTransport}
    (hregistered : self.Registered) (request : JsonRpcRequest)
    (response : JsonRpcResponse) :
    self.Hands request response ↔
      self.Awaits request ∧ response.id.display = request.id.display := by
  unfold Hands
  apply and_congr_right
  rintro ⟨call, hcall, hanswer, rfl⟩
  rw [hregistered.dispatch_call, hcall]
  by_cases hkey : response.id.display = call.request.id.display
  · simp [offer, hanswer, awaited, hkey]
  · simp [offer, hanswer, awaited, hkey]

def awaiting (request : JsonRpcRequest) : StdioTransport :=
  opened.sendRequest request none

theorem awaits_awaiting (request : JsonRpcRequest) :
    (awaiting request).Awaits request :=
  ⟨_, rfl, rfl, rfl⟩

theorem run_awaiting (json : SerdeJson) (request : JsonRpcRequest) :
    (machine json).run opened [.sendRequest request none] =
      some (awaiting request) := rfl

end StdioTransport

namespace HttpSseTransport

/-- The messages a wait goes through, in its order. -/
def heard (monitor : Option (List JsonRpcMessage))
    (receiver : Option Inbound) : List JsonRpcMessage :=
  monitor.getD [] ++ receiver.elim [] Inbound.messages

theorem waitForSseResponse_eq_ok_iff (requestId : String)
    (monitor : Option (List JsonRpcMessage)) (receiver : Option Inbound)
    (response : JsonRpcResponse) :
    waitForSseResponse requestId monitor receiver = .ok response ↔
      (heard monitor receiver).findSome? (awaited requestId) =
        some response := by
  rw [heard, List.findSome?_append]
  unfold waitForSseResponse
  cases (monitor.getD []).findSome? (awaited requestId) with
  | some found => simp
  | none =>
      cases receiver with
      | none => simp
      | some inbound =>
          cases hfound : inbound.messages.findSome? (awaited requestId) with
          | some found => simp [hfound]
          | none => cases hending : inbound.ending <;> simp [hfound, hending]

theorem display_of_findSome_awaited {requestId : String}
    {messages : List JsonRpcMessage} {response : JsonRpcResponse}
    (hfound : messages.findSome? (awaited requestId) = some response) :
    response.id.display = requestId := by
  obtain ⟨message, _, hmessage⟩ := List.exists_of_findSome?_eq_some hfound
  exact ((SseChannel.awaited_eq_some_iff requestId message response).mp
    hmessage).2

end HttpSseTransport

/-- A response reaches a call only if it carries the identifier of the
request, on either transport and from every state, exactly when the two
identifiers are not confusable. -/
theorem correlation_by_identity_iff (json : SerdeJson)
    (request : JsonRpcRequest) (response : JsonRpcResponse) :
    ((∀ trace transport,
        (StdioTransport.machine json).run StdioTransport.opened trace =
          some transport →
        transport.Hands request response → response.id = request.id) ↔
      ¬ RequestId.Confusable response.id request.id) ∧
    ((∀ monitor receiver,
        HttpSseTransport.waitForSseResponse request.id.display monitor
          receiver = .ok response → response.id = request.id) ↔
      ¬ RequestId.Confusable response.id request.id) ∧
    ((response.id.display = request.id.display →
        response.id = request.id) ↔
      ¬ RequestId.Confusable response.id request.id) := by
  have hkeys := RequestId.eq_of_display_eq_iff response.id request.id
  refine ⟨?_, ?_, hkeys⟩
  · rw [← hkeys]
    constructor
    · intro hreader hkey
      have hrun := StdioTransport.run_awaiting json request
      have hregistered := StdioTransport.registered_of_run hrun
      apply hreader [.sendRequest request none]
        (StdioTransport.awaiting request) hrun
      rw [hregistered.hands_iff]
      exact ⟨StdioTransport.awaits_awaiting request, hkey⟩
    · intro hdistinct trace transport hrun hhands
      have hregistered := StdioTransport.registered_of_run hrun
      exact hdistinct ((hregistered.hands_iff request response).mp hhands).2
  · rw [← hkeys]
    constructor
    · intro hwaits hkey
      apply hwaits none (some ⟨[.response response], .closed⟩)
      rw [HttpSseTransport.waitForSseResponse_eq_ok_iff]
      simp [HttpSseTransport.heard, HttpSseTransport.awaited, hkey]
    · intro hdistinct monitor receiver hwait
      rw [HttpSseTransport.waitForSseResponse_eq_ok_iff] at hwait
      exact hdistinct (HttpSseTransport.display_of_findSome_awaited hwait)

def numberedRequest : JsonRpcRequest := .withoutParams (.number 1) "ping"

def spelledResponse : JsonRpcResponse := ⟨"2.0", .string "1", none, none⟩

/-- A response to `"1"` reaches the call that waits on `1`. -/
theorem correlation_confuses_spelled_number :
    ¬ (∀ trace transport,
        (StdioTransport.machine StdioTransport.lateJson).run
          StdioTransport.opened trace = some transport →
        transport.Hands numberedRequest spelledResponse →
        spelledResponse.id = numberedRequest.id) ∧
      ¬ (∀ monitor receiver,
        HttpSseTransport.waitForSseResponse numberedRequest.id.display monitor
          receiver = .ok spelledResponse →
        spelledResponse.id = numberedRequest.id) ∧
      ¬ (spelledResponse.id.display = numberedRequest.id.display →
        spelledResponse.id = numberedRequest.id) := by
  have hne : spelledResponse.id ≠ numberedRequest.id := by decide
  refine ⟨?_, ?_, ?_⟩
  · intro hreader
    apply hne
    apply hreader [.sendRequest numberedRequest none]
      (StdioTransport.awaiting numberedRequest) rfl
    exact ⟨StdioTransport.awaits_awaiting numberedRequest, rfl⟩
  · intro hwaits
    apply hne
    exact hwaits none (some ⟨[.response spelledResponse], .closed⟩) rfl
  · intro hkeys
    exact hne (hkeys rfl)

end Core
end Acdp
