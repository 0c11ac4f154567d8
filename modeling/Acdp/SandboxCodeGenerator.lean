import Acdp.CommonGencode
import Acdp.LlmTokenStream
import Mathlib.Data.List.AList

/-!
# Code from a model's response

The generator asks for a fenced block and looks for it line by line in the
text that it puts together from the tokens.  That text has no lines any more:
it is the words of the response, with single spaces.  No block is found in it,
so what is executed is all of it, prose and fences included.
-/

namespace Acdp
namespace Sandbox

open Auth (DateTime Uuid)
open Common (CapabilityId CapabilityToken ExecutionPlan ExecutionPolicy
  PlanNode)
open Json (FloatText OrderedValue)
open Llm (Generation LlmError)

abbrev PlanMetadata := AList (fun _ : String => String)

/-- The context is listed in the order of its iteration. -/
structure CodeGenerationSpec where
  description : String
  targetLanguage : Option String
  context : List (String × OrderedValue)

structure CodeGenerationRequest where
  requestId : Uuid
  spec : CodeGenerationSpec
  policy : ExecutionPolicy
  metadata : PlanMetadata

inductive ExecutionPayload where
  | script (language code : String)
  | empty

structure GeneratedPlan extends ExecutionPlan where
  payload : ExecutionPayload
  metadata : PlanMetadata
  createdAt : DateTime

structure CodeGenerationResponse where
  plan : GeneratedPlan
  warnings : List String
  diagnostics : List String

namespace LlmCodeGenerator

def contextLine (floats : FloatText) (entry : String × OrderedValue) :
    String :=
  " - " ++ entry.1 ++ ": " ++ Json.print (entry.2.serialize floats) ++ "\n"

def buildPrompt (floats : FloatText) (request : CodeGenerationRequest) :
    String :=
  let task :=
    "You are a secure code generation assistant. Generate minimal " ++
      request.spec.targetLanguage.getD "python" ++
      " code that satisfies the following description:\n" ++
      request.spec.description ++ "\n"
  let context :=
    if request.spec.context = [] then ""
    else
      "\nContext:\n" ++
        String.join (request.spec.context.map (contextLine floats))
  task ++ context ++
    "\nReturn ONLY the code, wrapped in a fenced code block."

def trimStart (line : String) : String :=
  String.ofList (line.toList.dropWhile Text.isWhiteSpace)

def isFence (line : String) : Bool := Text.startsWith (trimStart line) "```"

/-- The lines of the first block. -/
def collectBlock (inside : Bool) : List String → List String
  | [] => []
  | line :: rest =>
      if isFence line then
        if inside then [] else collectBlock true rest
      else if inside then line :: collectBlock inside rest
      else collectBlock inside rest

def extractCodeBlock (response : String) : Option String :=
  match collectBlock false (Text.lines response) with
  | [] => none
  | collected => some ("\n".intercalate collected)

def codeOf (generated : String) : String :=
  Text.trim ((extractCodeBlock generated).getD (Text.trim generated))

def sandboxExec : CapabilityId := ⟨"sandbox_exec"⟩

def grantExecution (policy : ExecutionPolicy) : ExecutionPolicy :=
  if policy.capabilities.any (fun token => decide (token.id = sandboxExec))
  then policy
  else
    { policy with
      capabilities := policy.capabilities ++
        [⟨sandboxExec, .sandboxExecution, .trusted, [.sandboxExecution]⟩] }

def orInsert (metadata : PlanMetadata) (key value : String) : PlanMetadata :=
  if key ∈ metadata then metadata else metadata.insert key value

def preview (text : String) : String := String.ofList (text.toList.take 200)

def planOf (floats : FloatText) (request : CodeGenerationRequest)
    (now : DateTime) (generated : String) : CodeGenerationResponse where
  plan :=
    { planId := request.requestId
      graph := ⟨[⟨"run_python", .runPython (codeOf generated) sandboxExec⟩]⟩
      policy := grantExecution request.policy
      payload :=
        .script (request.spec.targetLanguage.getD "python") (codeOf generated)
      metadata := orInsert
        (orInsert request.metadata "prompt_preview"
          (preview (buildPrompt floats request)))
        "generated_code_preview" (preview (codeOf generated))
      createdAt := now }
  warnings := []
  diagnostics := []

/-- A conversation that can be had, or why not. -/
abbrev Conversation := Except LlmError (String → Except LlmError String)

def sendPrompt (engine : Option Conversation) (prompt : String) :
    Except LlmError String :=
  match engine with
  | none => .error (.configError "No model engine available")
  | some conversation => conversation.bind (fun send => send prompt)

/-- `none` as long as the response is still being read. -/
def generatePlan (floats : FloatText) (engine : Option Conversation)
    (request : CodeGenerationRequest) (now : DateTime)
    (turns : List Generation.Turn) :
    Option (Except LlmError CodeGenerationResponse) :=
  match sendPrompt engine (buildPrompt floats request) with
  | .error error => some (.error error)
  | .ok response =>
      (Generation.machine.run (.start response) turns).bind fun final =>
        if final.collected then
          some (.ok (planOf floats request now final.generated))
        else none

end LlmCodeGenerator

/-- What the plan executes. -/
structure GeneratedPlan.Executes (plan : GeneratedPlan) (code : String) :
    Prop where
  payload : ∃ language, plan.payload = .script language code
  graph : ∃ id capability,
    plan.graph.nodes = [⟨id, .runPython code capability⟩]

namespace LlmCodeGenerator

/-! ## Responses with a fenced block -/

def NoFence (text : String) : Prop :=
  ∀ line ∈ Text.lines text, isFence line = false

def WholeLines (text : String) : Prop :=
  text = "" ∨ text.toList.getLast? = some '\n'

/-- A response with one block between two pieces of prose. -/
structure FencedParts (response before opening code closing after : String) :
    Prop where
  text : response = before ++ opening ++ "\n" ++ code ++ closing ++ after
  before : WholeLines before ∧ NoFence before
  opening : '\n' ∉ opening.toList ∧ isFence opening = true
  code : WholeLines code ∧ NoFence code
  closing : '\n' ∉ closing.toList ∧ isFence closing = true
  after : (after = "" ∨ after.toList.head? = some '\n') ∧ NoFence after

def Fenced (response code : String) : Prop :=
  ∃ before opening closing after,
    FencedParts response before opening code closing after

theorem words_append_of_wholeLines {text : String} (htext : WholeLines text)
    (rest : List Char) :
    Text.words (text.toList ++ rest) =
      Text.words text.toList ++ Text.words rest := by
  have hwhite : Text.isWhiteSpace '\n' = true := by decide
  rcases htext with rfl | hlast
  · rfl
  · obtain ⟨front, hfront⟩ := List.getLast?_eq_some_iff.mp hlast
    rw [hfront, List.append_assoc, List.singleton_append,
      Text.words_append_white _ _ hwhite, Text.words_append_white _ _ hwhite]
    simp [Text.words, Text.wordsFrom]

theorem words_ne_nil_of_isFence {line : String} (hline : isFence line = true) :
    Text.words line.toList ≠ [] := by
  rw [isFence, Text.startsWith_iff] at hline
  have hmem : '`' ∈ (trimStart line).toList := by
    apply hline.subset
    simp
  rw [trimStart, String.toList_ofList] at hmem
  rw [← Text.words_dropWhile]
  exact Text.words_ne_nil_of_mem hmem (by decide)

/-- A response has more words than the code in it. -/
theorem FencedParts.length_words
    {response before opening code closing after : String}
    (hparts : FencedParts response before opening code closing after) :
    (Text.words code.toList).length < (Text.words response.toList).length := by
  have hwhite : Text.isWhiteSpace '\n' = true := by decide
  have hafter : Text.words (closing.toList ++ after.toList) =
      Text.words closing.toList ++ Text.words after.toList := by
    rcases hparts.after.1 with hempty | hhead
    · rw [hempty]
      simp [Text.words, Text.wordsFrom]
    · obtain ⟨rest, hrest⟩ := List.head?_eq_some_iff.mp hhead
      rw [hrest, Text.words_append_white _ _ hwhite,
        Text.words_cons_white hwhite]
  have hopening := List.length_pos_of_ne_nil
    (words_ne_nil_of_isFence hparts.opening.2)
  rw [hparts.text]
  simp only [String.toList_append, List.append_assoc]
  rw [words_append_of_wholeLines hparts.before.1]
  change _ < (_ ++ Text.words (opening.toList ++ '\n' ::
    (code.toList ++ (closing.toList ++ after.toList)))).length
  rw [Text.words_append_white _ _ hwhite,
    words_append_of_wholeLines hparts.code.1, hafter]
  simp only [List.length_append]
  omega

theorem Fenced.length_words {response code : String}
    (hfenced : Fenced response code) :
    (Text.words code.toList).length < (Text.words response.toList).length := by
  obtain ⟨before, opening, closing, after, hparts⟩ := hfenced
  exact hparts.length_words

theorem Fenced.not_singleSpaced {response code : String}
    (hfenced : Fenced response code) :
    ¬ Text.SingleSpaced response.toList := by
  obtain ⟨before, opening, closing, after, hparts⟩ := hfenced
  intro hspaced
  have hnewline : '\n' = ' ' := by
    apply hspaced.spaces '\n' _ (by decide)
    rw [hparts.text]
    simp
  cases hnewline

/-! ## What is left of a response -/

theorem length_linesFrom_le (current : List Char) {chars : List Char}
    (hchars : '\n' ∉ chars) : (Text.linesFrom current chars).length ≤ 1 := by
  induction chars generalizing current with
  | nil =>
      rw [Text.linesFrom]
      split_ifs <;> simp
  | cons char rest ih =>
      rw [List.mem_cons, not_or] at hchars
      rw [Text.linesFrom, if_neg (Ne.symm hchars.1)]
      exact ih _ hchars.2

theorem collectBlock_of_length_le {lines : List String}
    (hlines : lines.length ≤ 1) : collectBlock false lines = [] := by
  cases lines with
  | nil => rfl
  | cons line rest =>
      have hrest : rest = [] := by
        rw [List.length_cons] at hlines
        exact List.length_eq_zero_iff.mp (by omega)
      rw [hrest]
      simp [collectBlock]

/-- No block is found in a text without line feeds. -/
theorem codeOf_of_noNewline {generated : String}
    (hgenerated : '\n' ∉ generated.toList) :
    codeOf generated = Text.trim (Text.trim generated) := by
  have hnone : extractCodeBlock generated = none := by
    rw [extractCodeBlock, Text.lines,
      collectBlock_of_length_le (length_linesFrom_le [] hgenerated)]
  rw [codeOf, hnone, Option.getD_none]

theorem newline_notMem_joined (response : String) :
    '\n' ∉ Generation.joined (Llm.responseTokens response) := by
  intro hmem
  rw [Generation.joined_responseTokens] at hmem
  have hspaced := Text.singleSpaced_joinWords
    (fun _ hword => Text.isWord_of_mem_words hword) |>.spaces _ hmem (by decide)
  cases hspaced

theorem words_codeOf {response generated : String}
    (hgenerated : generated.toList =
      Generation.joined (Llm.responseTokens response)) :
    Text.words (codeOf generated).toList = Text.words response.toList := by
  have hnewline : '\n' ∉ generated.toList := by
    rw [hgenerated]
    exact newline_notMem_joined response
  rw [codeOf_of_noNewline hnewline, Text.words_trim, Text.words_trim,
    hgenerated, Generation.words_responseTokens]

theorem Fenced.codeOf_ne {response code generated : String}
    (hfenced : Fenced response code)
    (hgenerated : generated.toList =
      Generation.joined (Llm.responseTokens response)) :
    codeOf generated ≠ Text.trim code := by
  intro hsame
  have hwords := words_codeOf hgenerated
  rw [hsame, Text.words_trim] at hwords
  have hlength := hfenced.length_words
  rw [hwords] at hlength
  exact lt_irrefl _ hlength

theorem code_eq_of_executes {floats : FloatText}
    {request : CodeGenerationRequest} {now : DateTime}
    {generated code : String}
    (hexecutes : (planOf floats request now generated).plan.Executes code) :
    codeOf generated = code := by
  obtain ⟨language, hpayload⟩ := hexecutes.payload
  injection hpayload

/-- The response comes through as it is, and its block is what is executed. -/
structure RunsWhatWasWritten (response : String) (plan : GeneratedPlan) :
    Prop where
  tokens : String.join (Llm.responseTokens response) = response
  code : ∀ code, Fenced response code → plan.Executes (Text.trim code)

theorem toList_join (texts : List String) :
    (String.join texts).toList = Generation.joined texts := by
  have hfold : ∀ front : String,
      (texts.foldl (fun text part => text ++ part) front).toList =
        front.toList ++ Generation.joined texts := by
    induction texts with
    | nil => simp [Generation.joined]
    | cons part rest ih =>
        intro front
        rw [List.foldl_cons, ih]
        simp [Generation.joined]
  exact hfold ""

/-- A plan is made of every response that the engine gives. -/
theorem exists_generatePlan {floats : FloatText}
    {engine : Option Conversation} {request : CodeGenerationRequest}
    (now : DateTime) {response : String}
    (hresponse : sendPrompt engine (buildPrompt floats request) =
      .ok response) :
    ∃ turns made,
      generatePlan floats engine request now turns = some (.ok made) := by
  obtain ⟨turns, final, hrun, hcollected⟩ := Generation.start_reads response
  refine ⟨turns, planOf floats request now final.generated, ?_⟩
  rw [generatePlan, hresponse]
  dsimp only
  rw [hrun, Option.bind_some, if_pos hcollected]

/-- A plan is made of the tokens of the response. -/
theorem exists_generated_of_generatePlan {floats : FloatText}
    {engine : Option Conversation} {request : CodeGenerationRequest}
    {now : DateTime} {turns : List Generation.Turn} {response : String}
    {made : CodeGenerationResponse}
    (hresponse : sendPrompt engine (buildPrompt floats request) = .ok response)
    (hmade : generatePlan floats engine request now turns = some (.ok made)) :
    ∃ generated, made = planOf floats request now generated ∧
      generated.toList = Generation.joined (Llm.responseTokens response) := by
  rw [generatePlan, hresponse] at hmade
  dsimp only at hmade
  obtain ⟨final, hrun, hfinal⟩ := Option.bind_eq_some_iff.mp hmade
  split_ifs at hfinal with hcollected
  cases hfinal
  exact ⟨final.generated, rfl, Generation.generated_of_run hrun hcollected⟩

theorem Fenced.not_executes {floats : FloatText}
    {request : CodeGenerationRequest} {now : DateTime}
    {response code generated : String} (hfenced : Fenced response code)
    (hgenerated : generated.toList =
      Generation.joined (Llm.responseTokens response)) :
    ¬ (planOf floats request now generated).plan.Executes
      (Text.trim code) := by
  intro hexecutes
  exact hfenced.codeOf_ne hgenerated (code_eq_of_executes hexecutes)

/-- A plan runs what was written exactly where the response has no white space
but single spaces between words, which no response with a block has: the code
of its block is never what is executed. -/
theorem generatedCode_iff {floats : FloatText} {engine : Option Conversation}
    {request : CodeGenerationRequest} {now : DateTime}
    {turns : List Generation.Turn} {response : String}
    {made : CodeGenerationResponse}
    (hresponse : sendPrompt engine (buildPrompt floats request) = .ok response)
    (hmade : generatePlan floats engine request now turns = some (.ok made)) :
    (RunsWhatWasWritten response made.plan ↔
        Text.SingleSpaced response.toList) ∧
      ∀ code, Fenced response code → ¬ made.plan.Executes (Text.trim code) := by
  obtain ⟨generated, rfl, hgenerated⟩ :=
    exists_generated_of_generatePlan hresponse hmade
  refine ⟨⟨?_, ?_⟩, fun code hfenced => hfenced.not_executes hgenerated⟩
  · intro hruns
    rw [← Generation.joined_responseTokens_eq_iff, ← toList_join, hruns.tokens]
  · intro hspaced
    constructor
    · rw [← String.toList_inj, toList_join]
      exact (Generation.joined_responseTokens_eq_iff response).mpr hspaced
    · intro code hfenced
      exact absurd hspaced hfenced.not_singleSpaced

/-- The engine writes one line of code in a block. -/
def printOne : String := "```\nprint(1)\n```"

def printOneEngine : Option Conversation := some (.ok (fun _ => .ok printOne))

def blankFloats : FloatText where
  print _ := ""
  parse _ := none

def printRequest : CodeGenerationRequest where
  requestId := .filled 16 0
  spec := ⟨"print one", none, []⟩
  policy := ⟨some 30, [], .disabled, []⟩
  metadata := ∅

theorem fenced_printOne : Fenced printOne "print(1)\n" := by
  refine ⟨"", "```", "```", "", ?_⟩
  constructor
  · rfl
  · simp [WholeLines, NoFence, Text.lines, Text.linesFrom]
  · simp [isFence, trimStart, Text.isWhiteSpace]
  · refine ⟨Or.inr (by simp), ?_⟩
    simp [NoFence, Text.lines, Text.linesFrom, Text.stripCarriageReturn,
      isFence, trimStart, Text.isWhiteSpace, Text.startsWith,
      List.isPrefixOf]
  · simp [isFence, trimStart, Text.isWhiteSpace]
  · simp [NoFence, Text.lines, Text.linesFrom]

theorem generatedCode_printOne :
    ∃ turns made,
      generatePlan blankFloats printOneEngine printRequest Auth.smallInstant
          turns = some (.ok made) ∧
        (RunsWhatWasWritten printOne made.plan ↔
          Text.SingleSpaced printOne.toList) ∧
        ∀ code, Fenced printOne code →
          ¬ made.plan.Executes (Text.trim code) := by
  have hresponse : sendPrompt printOneEngine
      (buildPrompt blankFloats printRequest) = .ok printOne := rfl
  obtain ⟨turns, made, hmade⟩ :=
    exists_generatePlan Auth.smallInstant hresponse
  exact ⟨turns, made, hmade, generatedCode_iff hresponse hmade⟩

/-- The plan for the response does not run the code of its block. -/
theorem not_runsWhatWasWritten :
    ∃ turns made,
      generatePlan blankFloats printOneEngine printRequest Auth.smallInstant
          turns = some (.ok made) ∧
        ¬ RunsWhatWasWritten printOne made.plan := by
  have hresponse : sendPrompt printOneEngine
      (buildPrompt blankFloats printRequest) = .ok printOne := rfl
  obtain ⟨turns, made, hmade⟩ :=
    exists_generatePlan Auth.smallInstant hresponse
  obtain ⟨generated, rfl, hgenerated⟩ :=
    exists_generated_of_generatePlan hresponse hmade
  refine ⟨turns, _, hmade, ?_⟩
  intro hruns
  exact fenced_printOne.not_executes hgenerated (hruns.code _ fenced_printOne)

end LlmCodeGenerator

end Sandbox
end Acdp
