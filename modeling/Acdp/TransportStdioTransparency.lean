import Acdp.CoreMessageFidelity
import Acdp.JsonLines
import Acdp.TransportStdioHandler

/-!
# What the stdio handler makes of a line

A line that can be read as one message is written again from the message, so
the handler changes lines that no interceptor changes.  It leaves the value of
a line alone exactly when the message types hold all of it.
-/

namespace Acdp
namespace Transport

open Acdp.Core Json

/-! ## Interceptors that let everything pass -/

def PassesThrough (interceptor : MessageInterceptor) : Prop :=
  ∀ context result, interceptor.intercept context = .ok result →
    result.modified = false ∧ result.block = false

def LetsEverythingPass (manager : InterceptorManager) : Prop :=
  ∀ interceptor ∈ manager.interceptors, PassesThrough interceptor

theorem run_of_passesThrough {interceptors : List MessageInterceptor}
    (hpass : ∀ interceptor ∈ interceptors, PassesThrough interceptor)
    (pass : InterceptorManager.Pass) :
    ∃ final, (pass.run interceptors).outcome = .inr final ∧
      final.currentMessage = pass.currentMessage ∧
      final.wasModified = pass.wasModified := by
  induction interceptors generalizing pass with
  | nil => exact ⟨pass, rfl, rfl, rfl⟩
  | cons interceptor rest ih =>
      rw [List.forall_mem_cons] at hpass
      simp only [InterceptorManager.Pass.run]
      by_cases hselected : interceptor.shouldIntercept pass.context = true
      · rw [if_pos hselected]
        cases hresult : interceptor.intercept pass.withCurrentContext.context with
        | error e => exact ih hpass.2 pass.withCurrentContext
        | ok result =>
            obtain ⟨hmodified, hblock⟩ := hpass.1 _ _ hresult
            have habsorb : pass.withCurrentContext.absorb result =
                pass.withCurrentContext := by
              simp [InterceptorManager.Pass.absorb, hmodified]
            simp only [hblock, Bool.false_eq_true, if_false]
            rw [habsorb]
            exact ih hpass.2 pass.withCurrentContext
      · rw [if_neg hselected]
        exact ih hpass.2 pass

theorem processMessage_of_passesThrough {manager : InterceptorManager}
    (hpass : ∀ interceptor ∈ manager.interceptors, PassesThrough interceptor)
    (message : JsonRpcMessage) (direction : MessageDirection)
    (metadata : InterceptionMetadata) (now : Auth.DateTime)
    (elapsedMillis : ℕ) :
    (manager.processMessageWithMetadata message direction metadata now
      elapsedMillis).result = .ok (.passThrough message) := by
  obtain ⟨final, houtcome, hmessage, hmodified⟩ := run_of_passesThrough hpass
    (.start (InterceptorManager.contextOf message direction metadata now)
      message)
  have hfinish : final.finish = .passThrough message := by
    have hunchanged : final.wasModified = false := hmodified
    rw [InterceptorManager.Pass.finish, hunchanged, hmessage]
    rfl
  simp only [InterceptorManager.processMessageWithMetadata, houtcome, hfinish]

namespace StdioHandler

/-! ## Lines that no interceptor changes -/

variable {json : SerdeJson}

def rewrittenLine (json : SerdeJson) (content : String) : String :=
  match json.message (Text.trim content) with
  | .ok message => print (message.serialize json.floats) ++ "\n"
  | .error _ => content

theorem processLine_of_passesThrough {handler : StdioHandler}
    (hpass : ∀ interceptor ∈ handler.interceptorManager.interceptors,
      PassesThrough interceptor)
    (direction : MessageDirection)
    (observe : StdioHandler → JsonRpcMessage → StdioHandler)
    (content : String) (clock : Clock) :
    (processLine direction observe json handler content clock).result =
      .ok (rewrittenLine json content, false) := by
  unfold processLine rewrittenLine
  cases json.message (Text.trim content) with
  | error e => rfl
  | ok message =>
      have hresult := processMessage_of_passesThrough hpass message direction
        handler.interceptionMetadata clock.now clock.elapsedMillis
      simp only [interceptMessage, hresult]
      rfl

/-- The document that a line is the text of, if it is JSON. -/
def documentOf (json : SerdeJson) (line : String) : Option Json :=
  (json.parse (Text.trim line)).toOption

/-- There is no line break but at the end. -/
def SingleLine (text : String) : Prop := '\n' ∉ text.toList.dropLast

def Transparent (json : SerdeJson) (content : String)
    (filtered : Filtered) : Prop :=
  ∃ out modified, filtered.result = .ok (out, modified) ∧
    (documentOf json content = none → out = content) ∧
    ∀ doc, documentOf json content = some doc →
      (SingleLine content → SingleLine out) ∧
      ∃ written, documentOf json out = some written ∧
        Same json.floats doc written

/-- Where the line is read as a message, the message holds all of it. -/
def Survives (json : SerdeJson) (content : String) : Prop :=
  ∀ doc, documentOf json content = some doc →
    (JsonRpcMessage.ofDocument json.floats doc).isSome = true →
    Carried json.floats doc

/-- What the JSON library writes for the message in the line it also reads
back. -/
def ReadsBack (json : SerdeJson) (content : String) : Prop :=
  ∀ message, json.message (Text.trim content) = .ok message →
    json.parse (print (message.serialize json.floats)) =
      .ok (message.serialize json.floats)

theorem message_eq_ok_iff (text : String) (message : JsonRpcMessage) :
    json.message text = .ok message ↔
      ∃ doc, json.parse text = .ok doc ∧
        JsonRpcMessage.ofDocument json.floats doc = some message := by
  simp only [SerdeJson.message, SerdeJson.read]
  cases json.parse text with
  | error e => simp [bind, Except.bind]
  | ok doc =>
      cases hread : JsonRpcMessage.ofDocument json.floats doc <;>
        simp [bind, Except.bind, hread]

theorem documentOf_eq_some_iff (line : String) (doc : Json) :
    documentOf json line = some doc ↔
      json.parse (Text.trim line) = .ok doc := by
  unfold documentOf
  cases json.parse (Text.trim line) <;> simp [Except.toOption]

theorem singleLine_print {doc : Json} (hproper : Proper doc) :
    SingleLine (print doc ++ "\n") := by
  have htext : (print doc ++ "\n").toList = (print doc).toList ++ ['\n'] := by
    rw [String.toList_append]
    rfl
  rw [SingleLine, htext, List.dropLast_concat]
  exact hproper.noBreak

theorem documentOf_print {message : JsonRpcMessage}
    (hreads : json.parse (print (message.serialize json.floats)) =
      .ok (message.serialize json.floats)) :
    documentOf json (print (message.serialize json.floats) ++ "\n") =
      some (message.serialize json.floats) := by
  obtain ⟨members, hmembers⟩ := message.exists_serialize_obj json.floats
  rw [hmembers] at hreads ⊢
  rw [documentOf_eq_some_iff, trim_print_obj]
  exact hreads

theorem transparent_iff {content : String} {filtered : Filtered}
    (hresult : filtered.result = .ok (rewrittenLine json content, false))
    (hfloats : ∀ bits, DecimalText (json.floats.print bits))
    (hreads : ReadsBack json content) :
    Transparent json content filtered ↔ Survives json content := by
  unfold Transparent
  rw [hresult]
  cases hread : json.message (Text.trim content) with
  | error e =>
      have hline : rewrittenLine json content = content := by
        rw [rewrittenLine, hread]
      have hsurvives : Survives json content := by
        intro doc hdoc hmessage
        obtain ⟨message, hmessage⟩ := Option.isSome_iff_exists.mp hmessage
        rw [documentOf_eq_some_iff] at hdoc
        have hok := (message_eq_ok_iff _ message).mpr ⟨doc, hdoc, hmessage⟩
        rw [hread] at hok
        cases hok
      refine iff_of_true ?_ hsurvives
      rw [hline]
      exact ⟨content, false, rfl, fun _ => rfl,
        fun doc hdoc => ⟨id, doc, hdoc, Same.refl json.floats doc⟩⟩
  | ok message =>
      obtain ⟨doc, hparse, hmessage⟩ := (message_eq_ok_iff _ message).mp hread
      have hdocument : documentOf json content = some doc :=
        (documentOf_eq_some_iff content doc).mpr hparse
      have hline : rewrittenLine json content =
          print (message.serialize json.floats) ++ "\n" := by
        rw [rewrittenLine, hread]
      have hwritten := documentOf_print (hreads message hread)
      have hsame := JsonRpcMessage.same_serialize_iff json.floats hmessage
      constructor
      · rintro ⟨out, modified, hout, _, htransparent⟩ other hother _
        rw [hdocument, Option.some.injEq] at hother
        subst hother
        obtain ⟨_, written, hdoc, hequal⟩ := htransparent doc hdocument
        rw [Except.ok.injEq, Prod.mk.injEq] at hout
        rw [← hout.1, hline, hwritten, Option.some.injEq] at hdoc
        rw [← hdoc] at hequal
        exact hsame.mp hequal
      · intro hsurvives
        have hcarried := hsurvives doc hdocument (by rw [hmessage]; rfl)
        refine ⟨_, false, rfl, ?_, ?_⟩
        · intro hnone
          rw [hdocument] at hnone
          cases hnone
        · intro other hother
          rw [hdocument, Option.some.injEq] at hother
          rw [← hother, hline]
          exact ⟨fun _ => singleLine_print (message.proper_serialize hfloats),
            _, hwritten, hsame.mpr hcarried⟩

/-- With interceptors that change nothing, both directions leave the value of
a line alone exactly when the message types hold all of it. -/
theorem process_transparent_iff {handler : StdioHandler}
    (hpass : ∀ interceptor ∈ handler.interceptorManager.interceptors,
      PassesThrough interceptor)
    (hfloats : ∀ bits, DecimalText (json.floats.print bits))
    (content : String) (hreads : ReadsBack json content) (clock : Clock) :
    (Transparent json content (processOutgoing json handler content clock) ↔
        Survives json content) ∧
      (Transparent json content (processIncoming json handler content clock) ↔
        Survives json content) :=
  ⟨transparent_iff (processLine_of_passesThrough hpass _ _ content clock)
      hfloats hreads,
    transparent_iff (processLine_of_passesThrough hpass _ _ content clock)
      hfloats hreads⟩

/-! A successful response whose result is `null`. -/

def nullAnswer : Json :=
  .obj [("jsonrpc", .str "2.0"), ("id", .int 1), ("result", .null)]

def shortAnswer : Json := .obj [("jsonrpc", .str "2.0"), ("id", .int 1)]

def answerJson : SerdeJson where
  parse text :=
    if text = print nullAnswer then .ok nullAnswer
    else if text = print shortAnswer then .ok shortAnswer
    else .error "expected value at line 1 column 1"
  floats := tableFloats
  mismatch _ :=
    "data did not match any variant of untagged enum JsonRpcMessage"

def plainHandler : StdioHandler where
  stats := {}
  interceptorManager := .new
  sessionId := none
  pendingQueries := ∅
  queryRx := none
  availableTools := none
  completions := []

def plainClock : Clock := ⟨Auth.smallInstant, 0, 0⟩

theorem tableFloats_decimalText (bits : UInt64) :
    DecimalText (tableFloats.print bits) := by
  by_cases hbits : bits = 0x3FF8000000000000
  · have hprint : tableFloats.print bits = "1.5" := by
      simp [tableFloats, hbits]
    rw [hprint]
    exact ⟨by simp [isNumberChar, IntegerText.isNumeral], '.', by simp,
      by decide⟩
  · have hprint : tableFloats.print bits = "0.0" := by
      simp [tableFloats, hbits]
    rw [hprint]
    exact ⟨by simp [isNumberChar, IntegerText.isNumeral], '.', by simp,
      by decide⟩

theorem answerJson_reads_shortAnswer :
    answerJson.parse (print shortAnswer) = .ok shortAnswer := by
  have htext : print shortAnswer ≠ print nullAnswer := by decide
  simp only [answerJson, if_neg htext, ↓reduceIte]

theorem answerJson_readsBack {doc : Json}
    (hmessage : JsonRpcMessage.ofDocument tableFloats doc =
      some (.response ⟨"2.0", .number 1, none, none⟩))
    {content : String} (hparse : answerJson.parse (Text.trim content) = .ok doc) :
    ReadsBack answerJson content := by
  intro message hread
  obtain ⟨other, hother, hshort⟩ := (message_eq_ok_iff _ message).mp hread
  rw [hparse, Except.ok.injEq] at hother
  rw [← hother] at hshort
  have hequal : message = .response ⟨"2.0", .number 1, none, none⟩ := by
    have hsome := hshort.symm.trans hmessage
    exact Option.some.inj hsome
  rw [hequal]
  exact answerJson_reads_shortAnswer

theorem process_transparent_iff_plain :
    (Transparent answerJson (print shortAnswer ++ "\n")
        (processOutgoing answerJson plainHandler (print shortAnswer ++ "\n")
          plainClock) ↔
      Survives answerJson (print shortAnswer ++ "\n")) ∧
    (Transparent answerJson (print shortAnswer ++ "\n")
        (processIncoming answerJson plainHandler (print shortAnswer ++ "\n")
          plainClock) ↔
      Survives answerJson (print shortAnswer ++ "\n")) := by
  have hmessage : JsonRpcMessage.ofDocument tableFloats shortAnswer =
      some (.response ⟨"2.0", .number 1, none, none⟩) := rfl
  have hparse : answerJson.parse (Text.trim (print shortAnswer ++ "\n")) =
      .ok shortAnswer := by
    rw [shortAnswer, trim_print_obj]
    exact answerJson_reads_shortAnswer
  exact process_transparent_iff (fun _ hmem => (List.not_mem_nil hmem).elim)
    tableFloats_decimalText _ (answerJson_readsBack hmessage hparse) plainClock

theorem nullAnswer_not_transparent :
    ¬ Transparent answerJson (print nullAnswer ++ "\n")
      (processIncoming answerJson plainHandler (print nullAnswer ++ "\n")
        plainClock) := by
  have hparse : answerJson.parse (Text.trim (print nullAnswer ++ "\n")) =
      .ok nullAnswer := by
    rw [nullAnswer, trim_print_obj]
    simp [answerJson, nullAnswer]
  have hmessage : JsonRpcMessage.ofDocument tableFloats nullAnswer =
      some (.response ⟨"2.0", .number 1, none, none⟩) := rfl
  have hresult : (processIncoming answerJson plainHandler
      (print nullAnswer ++ "\n") plainClock).result =
        .ok (rewrittenLine answerJson (print nullAnswer ++ "\n"), false) :=
    processLine_of_passesThrough (fun _ hmem => (List.not_mem_nil hmem).elim)
      _ _ _ plainClock
  rw [transparent_iff hresult tableFloats_decimalText
    (answerJson_readsBack hmessage hparse)]
  intro hsurvives
  have hcarried := hsurvives nullAnswer
    ((documentOf_eq_some_iff _ _).mpr hparse) (by rw [answerJson, hmessage]; rfl)
  rw [nullAnswer] at hcarried
  cases hcarried with
  | request _ hmethod =>
      obtain ⟨text, htext⟩ := hmethod
      simp [entries_cons] at htext
  | response _ hresult =>
      exact (hresult .null (by simp [entries_cons])).1 rfl
  | notification hnames =>
      have hname := hnames ("id", .int 1) (by simp)
      simp [JsonRpcNotification.memberNames] at hname

end StdioHandler

end Transport
end Acdp
