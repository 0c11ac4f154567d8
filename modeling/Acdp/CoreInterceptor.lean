import Acdp.AuthPrimitives
import Acdp.CoreError
import Acdp.CoreMessages

/-!
# Message interceptors

The manager passes every message through a list of interceptors.  The loop
keeps the message twice: as the current message, which every interceptor that
runs is given, and inside the context, which the selection of the next
interceptor looks at.  The context is brought up to date only when an
interceptor has been selected, so a selection may look at a message that has
been rewritten since.
-/

namespace Acdp
namespace Core

open Json
open Auth (DateTime)

inductive MessageDirection where
  | outgoing
  | incoming
  deriving DecidableEq, Repr

structure MessageContext where
  message : JsonRpcMessage
  direction : MessageDirection
  timestamp : DateTime
  sessionId : Option String
  metadata : List (String × OrderedValue)

def MessageContext.new (message : JsonRpcMessage)
    (direction : MessageDirection) (now : DateTime) : MessageContext where
  message := message
  direction := direction
  timestamp := now
  sessionId := none
  metadata := []

structure InterceptionResult where
  modified : Bool
  message : JsonRpcMessage
  block : Bool
  reasoning : Option String
  confidence : Option Float

namespace InterceptionResult

def passThrough (message : JsonRpcMessage) : InterceptionResult where
  modified := false
  message := message
  block := false
  reasoning := none
  confidence := none

def rewritten (message : JsonRpcMessage) (reasoning : String)
    (confidence : Float) : InterceptionResult where
  modified := true
  message := message
  block := false
  reasoning := some reasoning
  confidence := some confidence

def blocked (reasoning : String) : InterceptionResult where
  modified := false
  message := .notification ⟨"2.0", "blocked", none⟩
  block := true
  reasoning := some reasoning
  confidence := none

end InterceptionResult

structure MessageInterceptor where
  name : String
  priority : UInt32 := 50
  shouldIntercept : MessageContext → Bool
  intercept : MessageContext → McpResult InterceptionResult

structure InterceptorManagerStats where
  totalMessagesProcessed : UInt64 := 0
  totalModificationsMade : UInt64 := 0
  totalMessagesBlocked : UInt64 := 0
  avgProcessingTimeMs : Float := 0.0
  messagesByMethod : List (String × UInt64) := []

structure InterceptionMetadata where
  sessionId : Option String := none
  extra : List (String × OrderedValue) := []

structure InterceptorManager where
  interceptors : List MessageInterceptor
  stats : InterceptorManagerStats

namespace InterceptorManager

def new : InterceptorManager := ⟨[], {}⟩

/-- The list is sorted by priority after every addition; interceptors of
equal priority stay in the order of their addition. -/
def addInterceptor (self : InterceptorManager)
    (interceptor : MessageInterceptor) : InterceptorManager :=
  { self with
    interceptors := (self.interceptors ++ [interceptor]).mergeSort
      (fun left right => left.priority ≤ right.priority) }

def removeInterceptor (self : InterceptorManager) (name : String) :
    InterceptorManager × Bool :=
  let kept := self.interceptors.filter (fun other => other.name != name)
  ({ self with interceptors := kept },
    kept.length != self.interceptors.length)

/-! ## The loop -/

structure Pass where
  context : MessageContext
  currentMessage : JsonRpcMessage
  wasModified : Bool
  modificationReasoning : List String
  confidenceSum : Float
  confidenceCount : ℕ

/-- What the loop leaves behind: the blocking result or the final variables,
and for each interceptor it reached the message it ran on, if it ran. -/
structure Passage (α : Type) where
  outcome : InterceptionResult ⊕ α
  runs : List (Option JsonRpcMessage)

def Passage.record {α : Type} (run : Option JsonRpcMessage)
    (later : Passage α) : Passage α :=
  { later with runs := run :: later.runs }

namespace Pass

def start (context : MessageContext) (message : JsonRpcMessage) : Pass where
  context := context
  currentMessage := message
  wasModified := false
  modificationReasoning := []
  confidenceSum := 0.0
  confidenceCount := 0

def withCurrentContext (self : Pass) : Pass :=
  { self with context := { self.context with message := self.currentMessage } }

def absorb (self : Pass) (result : InterceptionResult) : Pass :=
  if result.modified then
    { self with
      currentMessage := result.message
      wasModified := true
      modificationReasoning :=
        self.modificationReasoning ++ result.reasoning.toList
      confidenceSum :=
        match result.confidence with
        | some confidence => self.confidenceSum + confidence
        | none => self.confidenceSum
      confidenceCount :=
        match result.confidence with
        | some _ => self.confidenceCount + 1
        | none => self.confidenceCount }
  else self

def run : List MessageInterceptor → Pass → Passage Pass
  | [], self => ⟨.inr self, []⟩
  | interceptor :: rest, self =>
      if interceptor.shouldIntercept self.context then
        let self := self.withCurrentContext
        match interceptor.intercept self.context with
        | .ok result =>
            if result.block then ⟨.inl result, [some self.currentMessage]⟩
            else
              (run rest (self.absorb result)).record (some self.currentMessage)
        | .error _ => (run rest self).record (some self.currentMessage)
      else (run rest self).record none

def finish (self : Pass) : InterceptionResult :=
  let finalConfidence :=
    if 0 < self.confidenceCount then
      self.confidenceSum / Float.ofNat self.confidenceCount
    else 0.0
  if self.wasModified then
    .rewritten self.currentMessage
      ("; ".intercalate self.modificationReasoning) finalConfidence
  else .passThrough self.currentMessage

end Pass

/-! ## Processing a message -/

namespace Stats

/-- The running mean over all processed messages. -/
def processed (stats : InterceptorManagerStats) (elapsedMillis : ℕ) :
    InterceptorManagerStats :=
  let total := stats.totalMessagesProcessed + 1
  { stats with
    totalMessagesProcessed := total
    avgProcessingTimeMs :=
      (stats.avgProcessingTimeMs * (total - 1).toFloat +
        Float.ofNat elapsedMillis) / total.toFloat }

def countMethod (stats : InterceptorManagerStats) (method : String) :
    InterceptorManagerStats :=
  { stats with
    messagesByMethod := insertMember method
      ((stats.messagesByMethod.lookup method).getD 0 + 1)
      stats.messagesByMethod }

def afterBlock (stats : InterceptorManagerStats) (elapsedMillis : ℕ) :
    InterceptorManagerStats :=
  { processed stats elapsedMillis with
    totalMessagesBlocked := stats.totalMessagesBlocked + 1 }

/-- The method that is counted is the one in the context. -/
def afterPass (stats : InterceptorManagerStats) (pass : Pass)
    (elapsedMillis : ℕ) : InterceptorManagerStats :=
  let stats := processed stats elapsedMillis
  let stats :=
    if pass.wasModified then
      { stats with
        totalModificationsMade := stats.totalModificationsMade + 1 }
    else stats
  match pass.context.message.method with
  | some method => countMethod stats method
  | none => stats

end Stats

def contextOf (message : JsonRpcMessage) (direction : MessageDirection)
    (metadata : InterceptionMetadata) (now : DateTime) : MessageContext :=
  { MessageContext.new message direction now with
    sessionId := metadata.sessionId
    metadata := collectMembers metadata.extra }

structure Processed where
  result : McpResult InterceptionResult
  manager : InterceptorManager
  runs : List (Option JsonRpcMessage)

def processMessageWithMetadata (self : InterceptorManager)
    (message : JsonRpcMessage) (direction : MessageDirection)
    (metadata : InterceptionMetadata) (now : DateTime) (elapsedMillis : ℕ) :
    Processed :=
  let context := contextOf message direction metadata now
  let passage := (Pass.start context message).run self.interceptors
  match passage.outcome with
  | .inl blocked =>
      { result := .ok blocked
        manager :=
          { self with stats := Stats.afterBlock self.stats elapsedMillis }
        runs := passage.runs }
  | .inr pass =>
      { result := .ok pass.finish
        manager :=
          { self with stats := Stats.afterPass self.stats pass elapsedMillis }
        runs := passage.runs }

theorem processMessage_isOk (manager : InterceptorManager)
    (message : JsonRpcMessage) (direction : MessageDirection)
    (metadata : InterceptionMetadata) (now : DateTime) (elapsedMillis : ℕ) :
    ∃ interception, (manager.processMessageWithMetadata message direction
      metadata now elapsedMillis).result = .ok interception := by
  unfold processMessageWithMetadata
  dsimp only
  split
  · exact ⟨_, rfl⟩
  · exact ⟨_, rfl⟩

def processMessage (self : InterceptorManager) (message : JsonRpcMessage)
    (direction : MessageDirection) (now : DateTime) (elapsedMillis : ℕ) :
    Processed :=
  self.processMessageWithMetadata message direction {} now elapsedMillis

/-! ## The reference pipeline -/

namespace Reference

/-- The message as rewritten by the given results, the last one being the
latest. -/
def currentMessage (original : JsonRpcMessage)
    (rewrites : List InterceptionResult) : JsonRpcMessage :=
  (rewrites.getLast?.map InterceptionResult.message).getD original

def contextAt (context : MessageContext)
    (rewrites : List InterceptionResult) : MessageContext :=
  { context with message := currentMessage context.message rewrites }

/-- Every interceptor is asked, and then run, on the message as rewritten by
all earlier ones.  A result that blocks ends the pipeline; an error, or a
result that modifies nothing, leaves the message as it was. -/
def run (context : MessageContext) :
    List MessageInterceptor → List InterceptionResult →
      Passage (List InterceptionResult)
  | [], rewrites => ⟨.inr rewrites, []⟩
  | interceptor :: rest, rewrites =>
      let current := contextAt context rewrites
      if interceptor.shouldIntercept current then
        match interceptor.intercept current with
        | .ok result =>
            if result.block then ⟨.inl result, [some current.message]⟩
            else
              (run context rest
                (if result.modified then rewrites ++ [result]
                else rewrites)).record (some current.message)
        | .error _ => (run context rest rewrites).record (some current.message)
      else (run context rest rewrites).record none

def meanConfidence (confidences : List Float) : Float :=
  if 0 < confidences.length then
    confidences.foldl (· + ·) 0.0 / Float.ofNat confidences.length
  else 0.0

/-- The result is a modification exactly when something was rewritten, and
then carries the last rewritten message. -/
def finish (original : JsonRpcMessage) (rewrites : List InterceptionResult) :
    InterceptionResult :=
  match rewrites.getLast? with
  | none => .passThrough original
  | some last =>
      .rewritten last.message
        ("; ".intercalate (rewrites.filterMap InterceptionResult.reasoning))
        (meanConfidence (rewrites.filterMap InterceptionResult.confidence))

end Reference

/-- At every interceptor the pipeline reaches, the message that the last
interceptor to run was given, and the message as rewritten since, lead to the
same selection. -/
def SelectionsAgree (context : MessageContext) :
    List MessageInterceptor → JsonRpcMessage → List InterceptionResult → Prop
  | [], _, _ => True
  | interceptor :: rest, seen, rewrites =>
      let current := Reference.contextAt context rewrites
      interceptor.shouldIntercept { context with message := seen } =
          interceptor.shouldIntercept current ∧
        if interceptor.shouldIntercept current then
          match interceptor.intercept current with
          | .ok result =>
              result.block = false →
                SelectionsAgree context rest current.message
                  (if result.modified then rewrites ++ [result]
                  else rewrites)
          | .error _ =>
              SelectionsAgree context rest current.message rewrites
        else SelectionsAgree context rest seen rewrites

/-! ## The loop against the reference -/

def Passage.result {α : Type} (finish : α → InterceptionResult)
    (passage : Passage α) : InterceptionResult :=
  passage.outcome.elim id finish

@[simp] theorem Passage.runs_record {α : Type} (run : Option JsonRpcMessage)
    (later : Passage α) :
    (later.record run).runs = run :: later.runs := rfl

namespace Pass

/-- The variables of the loop after the given rewrites, where the last
interceptor to run was given the message `seen`. -/
def after (context : MessageContext) (seen : JsonRpcMessage)
    (rewrites : List InterceptionResult) : Pass where
  context := { context with message := seen }
  currentMessage := Reference.currentMessage context.message rewrites
  wasModified := !rewrites.isEmpty
  modificationReasoning := rewrites.filterMap InterceptionResult.reasoning
  confidenceSum :=
    (rewrites.filterMap InterceptionResult.confidence).foldl (· + ·) 0.0
  confidenceCount :=
    (rewrites.filterMap InterceptionResult.confidence).length

variable (context : MessageContext) (seen : JsonRpcMessage)
  (rewrites : List InterceptionResult)

theorem withCurrentContext_after :
    (after context seen rewrites).withCurrentContext =
      after context (Reference.currentMessage context.message rewrites)
        rewrites := rfl

theorem absorb_after (result : InterceptionResult) :
    (after context seen rewrites).absorb result =
      after context seen
        (if result.modified then rewrites ++ [result] else rewrites) := by
  by_cases hmodified : result.modified = true
  · rw [if_pos hmodified]
    cases hreasoning : result.reasoning with
    | none =>
        cases hconfidence : result.confidence with
        | none =>
            simp [absorb, after, Reference.currentMessage, hmodified,
              hreasoning, hconfidence]
        | some confidence =>
            simp [absorb, after, Reference.currentMessage, hmodified,
              hreasoning, hconfidence]
    | some reasoning =>
        cases hconfidence : result.confidence with
        | none =>
            simp [absorb, after, Reference.currentMessage, hmodified,
              hreasoning, hconfidence]
        | some confidence =>
            simp [absorb, after, Reference.currentMessage, hmodified,
              hreasoning, hconfidence]
  · simp [absorb, hmodified]

theorem finish_after :
    (after context seen rewrites).finish =
      Reference.finish context.message rewrites := by
  cases hlast : rewrites.getLast? with
  | none =>
      rw [List.getLast?_eq_none_iff] at hlast
      simp [hlast, finish, after, Reference.finish, Reference.currentMessage]
  | some last =>
      have hmodified : (!rewrites.isEmpty) = true := by
        cases rewrites with
        | nil => simp at hlast
        | cons first later => rfl
      have hcurrent :
          Reference.currentMessage context.message rewrites = last.message := by
        rw [Reference.currentMessage, hlast]
        rfl
      simp only [finish, after, Reference.finish, hlast, hmodified, hcurrent,
        if_true]
      rfl

theorem run_cons_after (interceptor : MessageInterceptor)
    (rest : List MessageInterceptor) :
    run (interceptor :: rest) (after context seen rewrites) =
      if interceptor.shouldIntercept { context with message := seen } then
        match interceptor.intercept
            (Reference.contextAt context rewrites) with
        | .ok result =>
            if result.block then
              ⟨.inl result,
                [some (Reference.currentMessage context.message rewrites)]⟩
            else
              (run rest (after context
                (Reference.currentMessage context.message rewrites)
                (if result.modified then rewrites ++ [result]
                else rewrites))).record
                (some (Reference.currentMessage context.message rewrites))
        | .error _ =>
            (run rest (after context
              (Reference.currentMessage context.message rewrites)
              rewrites)).record
              (some (Reference.currentMessage context.message rewrites))
      else (run rest (after context seen rewrites)).record none := by
  simp only [run, withCurrentContext_after, absorb_after]
  rfl

end Pass

section Refinement

variable (context : MessageContext)

/-- Where the selections agree the loop simulates the reference. -/
theorem run_eq_of_selectionsAgree (interceptors : List MessageInterceptor) :
    ∀ (seen : JsonRpcMessage) (rewrites : List InterceptionResult),
      SelectionsAgree context interceptors seen rewrites →
        (Pass.run interceptors
            (Pass.after context seen rewrites)).result Pass.finish =
          (Reference.run context interceptors rewrites).result
            (Reference.finish context.message) ∧
        (Pass.run interceptors (Pass.after context seen rewrites)).runs =
          (Reference.run context interceptors rewrites).runs := by
  induction interceptors with
  | nil =>
      intro seen rewrites _
      exact ⟨Pass.finish_after context seen rewrites, rfl⟩
  | cons interceptor rest ih =>
      intro seen rewrites hagree
      obtain ⟨hselection, hlater⟩ := hagree
      rw [Pass.run_cons_after, Reference.run, hselection]
      by_cases hselected : interceptor.shouldIntercept
          (Reference.contextAt context rewrites) = true
      · simp only [if_pos hselected] at hlater ⊢
        cases hanswer : interceptor.intercept
            (Reference.contextAt context rewrites) with
        | error e =>
            simp only [hanswer] at hlater
            have hrest := ih _ _ hlater
            exact ⟨hrest.1, congrArg _ hrest.2⟩
        | ok result =>
            simp only [hanswer] at hlater
            by_cases hblock : result.block = true
            · simp only [if_pos hblock]
              exact ⟨rfl, rfl⟩
            · simp only [if_neg hblock]
              have hrest := ih _ _ (hlater (Bool.eq_false_iff.mpr hblock))
              exact ⟨hrest.1, congrArg _ hrest.2⟩
      · simp only [if_neg hselected] at hlater ⊢
        have hrest := ih _ _ hlater
        exact ⟨hrest.1, congrArg _ hrest.2⟩

theorem selection_eq_of_runs_eq {interceptor : MessageInterceptor}
    {rest : List MessageInterceptor} {seen : JsonRpcMessage}
    {rewrites : List InterceptionResult}
    (hruns : (Pass.run (interceptor :: rest)
        (Pass.after context seen rewrites)).runs =
      (Reference.run context (interceptor :: rest) rewrites).runs) :
    interceptor.shouldIntercept { context with message := seen } =
      interceptor.shouldIntercept (Reference.contextAt context rewrites) := by
  rw [Pass.run_cons_after, Reference.run] at hruns
  cases hseen : interceptor.shouldIntercept { context with message := seen }
  all_goals
    cases hselected : interceptor.shouldIntercept
      (Reference.contextAt context rewrites)
  -- Equal selections need nothing; otherwise one side records a run.
  case false.false => rfl
  case true.true => rfl
  all_goals
    cases hanswer : interceptor.intercept
        (Reference.contextAt context rewrites) with
    | error e => simp [hseen, hselected, hanswer] at hruns
    | ok result =>
        cases hblock : result.block
        all_goals simp [hseen, hselected, hanswer, hblock] at hruns

theorem selectionsAgree_of_runs_eq (interceptors : List MessageInterceptor) :
    ∀ (seen : JsonRpcMessage) (rewrites : List InterceptionResult),
      (Pass.run interceptors (Pass.after context seen rewrites)).runs =
          (Reference.run context interceptors rewrites).runs →
        SelectionsAgree context interceptors seen rewrites := by
  induction interceptors with
  | nil =>
      intro seen rewrites _
      trivial
  | cons interceptor rest ih =>
      intro seen rewrites hruns
      have hselection := selection_eq_of_runs_eq context hruns
      refine ⟨hselection, ?_⟩
      rw [Pass.run_cons_after, Reference.run, hselection] at hruns
      by_cases hselected : interceptor.shouldIntercept
          (Reference.contextAt context rewrites) = true
      · simp only [if_pos hselected] at hruns ⊢
        cases hanswer : interceptor.intercept
            (Reference.contextAt context rewrites) with
        | error e =>
            simp only [hanswer, Passage.runs_record] at hruns
            exact ih _ _ (List.cons.inj hruns).2
        | ok result =>
            intro hblock
            simp only [hanswer, hblock, Bool.false_eq_true, if_false,
              Passage.runs_record] at hruns
            exact ih _ _ (List.cons.inj hruns).2
      · simp only [if_neg hselected] at hruns ⊢
        exact ih _ _ (List.cons.inj hruns).2

end Refinement

/-- A message is processed as by the reference, with the same result and the
same interceptors run on the same messages, exactly when the selections
agree. -/
theorem processMessage_eq_reference_iff (manager : InterceptorManager)
    (message : JsonRpcMessage) (direction : MessageDirection)
    (metadata : InterceptionMetadata) (now : DateTime) (elapsedMillis : ℕ) :
    let context := contextOf message direction metadata now
    let processed := manager.processMessageWithMetadata message direction
      metadata now elapsedMillis
    let reference := Reference.run context manager.interceptors []
    processed.result =
          .ok (reference.result (Reference.finish message)) ∧
        processed.runs = reference.runs ↔
      SelectionsAgree context manager.interceptors message [] := by
  intro context processed reference
  have hstart : Pass.start context message = Pass.after context message [] :=
    rfl
  have hresult : processed.result = .ok ((Pass.run manager.interceptors
      (Pass.after context message [])).result Pass.finish) := by
    simp only [processed, processMessageWithMetadata, Passage.result]
    rw [hstart]
    split <;> simp_all
  have hruns : processed.runs = (Pass.run manager.interceptors
      (Pass.after context message [])).runs := by
    simp only [processed, processMessageWithMetadata]
    rw [hstart]
    split <;> simp_all
  rw [hresult, hruns]
  constructor
  · intro hsame
    exact selectionsAgree_of_runs_eq context _ _ _ hsame.2
  · intro hagree
    have hsame := run_eq_of_selectionsAgree context _ _ _ hagree
    exact ⟨congrArg Except.ok hsame.1, hsame.2⟩

/-! ## A guard that is not asked -/

def listTools : JsonRpcMessage :=
  .request (.withoutParams (.number 1) "tools/list")

def callTool : JsonRpcMessage :=
  .request (.withoutParams (.number 1) "tools/call")

def rewriter : MessageInterceptor where
  name := "rewriter"
  priority := 10
  shouldIntercept _ := true
  intercept _ := .ok (.rewritten callTool "rewritten" 1.0)

def guard : MessageInterceptor where
  name := "guard"
  priority := 20
  shouldIntercept context := context.message.method == some "tools/call"
  intercept _ := .ok (.blocked "tool calls are denied")

def guardedManager : InterceptorManager :=
  (new.addInterceptor rewriter).addInterceptor guard

theorem guardedManager_eq : guardedManager = ⟨[rewriter, guard], {}⟩ := by
  have hsorted : [rewriter, guard].mergeSort
      (fun left right => left.priority ≤ right.priority) =
        [rewriter, guard] :=
    List.mergeSort_of_pairwise (by simp [rewriter, guard])
  simp [guardedManager, addInterceptor, new, hsorted]

/-- The rewritten message leaves the pipeline although the guard would block
it: the guard is asked about the message before the rewrite. -/
theorem guardedManager_skips_guard :
    let processed := guardedManager.processMessage listTools .outgoing
      Auth.smallInstant 0
    let reference := Reference.run
      (contextOf listTools .outgoing {} Auth.smallInstant)
      guardedManager.interceptors []
    processed.result = .ok (.rewritten callTool "rewritten"
        ((0.0 + 1.0) / Float.ofNat 1)) ∧
      processed.runs = [some listTools, none] ∧
      reference.result (Reference.finish listTools) =
        .blocked "tool calls are denied" ∧
      reference.runs = [some listTools, some callTool] ∧
      ¬ (processed.result =
          .ok (reference.result (Reference.finish listTools)) ∧
        processed.runs = reference.runs) := by
  rw [guardedManager_eq]
  intro processed reference
  have hruns : processed.runs = [some listTools, none] := rfl
  have hreference : reference.runs = [some listTools, some callTool] := rfl
  refine ⟨rfl, hruns, rfl, hreference, ?_⟩
  rw [hruns, hreference]
  simp

end InterceptorManager

end Core
end Acdp
