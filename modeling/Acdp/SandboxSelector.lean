import Acdp.RankedChoice
import Acdp.SandboxPolicy

/-!
# Selecting a runtime

A tool gets one of the available runtimes that its policy allows: the one it
asks for, where it can have it, and otherwise the most secure of those that
are left.  What the declared trust level of a tool changes about that is what
its own policy leaves open.
-/

namespace Acdp
namespace Sandbox

open Ranked RuntimeType

structure ToolDefinition where
  id : String
  name : String
  trustLevel : TrustLevel
  runtime : RuntimeRequirement
  description : String

structure RuntimeDecision where
  runtimeType : RuntimeType
  limits : ResourceLimits
  isOverride : Bool
  reason : String
  auditRequired : Bool

inductive SelectionError where
  | noCompatibleRuntime (toolId : String)
  | unsupportedLanguage (language : Language)
deriving DecidableEq

/-- The order in which a set of runtimes is gone through is up to the set. -/
structure RuntimeOrder where
  arrange : Finset RuntimeType → List RuntimeType
  mem_arrange : ∀ set runtime, runtime ∈ arrange set ↔ runtime ∈ set

structure RuntimeSelector where
  policy : SecurityPolicy
  availableRuntimes : Finset RuntimeType
  order : RuntimeOrder

def supportsLanguage : RuntimeType → Language → Bool
  | .v8, .javaScript => true
  | .wasm, .wasm => true
  | .wasm, .python => true
  | .process, _ => true
  | _, _ => false

def debugRuntimes (runtimes : List RuntimeType) : String :=
  "[" ++ String.intercalate ", " (runtimes.map debug) ++ "]"

/-- The first of the candidates once they are sorted. -/
def mostSecure (candidates : List RuntimeType) (hsome : candidates ≠ []) :
    RuntimeType :=
  (sortByKey securityRank candidates).head (sortByKey_ne_nil hsome)

def chooseSpecific (candidates : List RuntimeType) (hsome : candidates ≠ [])
    (runtime : RuntimeType) : RuntimeType × Bool × String :=
  if runtime ∈ candidates then
    (runtime, false,
      "Tool requested " ++ runtime.debug ++ " and it's allowed")
  else
    (mostSecure candidates hsome, true,
      "Tool requested " ++ runtime.debug ++ " but policy only allows " ++
        debugRuntimes (sortByKey securityRank candidates))

def chooseAuto (candidates : List RuntimeType) (hsome : candidates ≠ [])
    (language : Language) :
    Option RuntimeType → RuntimeType × Bool × String
  | some pref =>
      if pref ∈ candidates then
        (pref, false, "Auto-selected preferred runtime " ++ pref.debug)
      else
        let chosen := mostSecure candidates hsome
        (chosen, true,
          "Preferred " ++ pref.debug ++ " not available, selected " ++
            chosen.debug ++ " for " ++ language.debug)
  | none =>
      let chosen := mostSecure candidates hsome
      (chosen, false,
        "Auto-selected most secure runtime " ++ chosen.debug ++ " for " ++
          language.debug)

def chooseAnyOf (candidates : List RuntimeType) (hsome : candidates ≠ [])
    (runtimes : List RuntimeType) : RuntimeType × Bool × String :=
  let acceptable := runtimes.filter (fun runtime => runtime ∈ candidates)
  match minByKey securityRank acceptable with
  | none =>
      -- none of the requested runtimes is acceptable
      let fallback := mostSecure candidates hsome
      (fallback, true,
        "None of requested runtimes " ++ debugRuntimes runtimes ++
          " allowed, fallback to " ++ fallback.debug)
  | some chosen =>
      (chosen, false,
        "Selected most secure from acceptable runtimes: " ++ chosen.debug)

/-- The runtime a tool gets among the candidates, whether it is an override,
and why. -/
def choose (candidates : List RuntimeType) (hsome : candidates ≠ []) :
    RuntimeRequirement →
      Except SelectionError (RuntimeType × Bool × String)
  | .specific runtime => .ok (chooseSpecific candidates hsome runtime)
  | .auto language preferred =>
      let candidates :=
        candidates.filter (fun runtime => supportsLanguage runtime language)
      if hsome : candidates ≠ [] then
        .ok (chooseAuto candidates hsome language preferred)
      else .error (.unsupportedLanguage language)
  | .anyOf runtimes => .ok (chooseAnyOf candidates hsome runtimes)

namespace RuntimeSelector

/-- The same selector where sets are gone through in another order. -/
def rearranged (self : RuntimeSelector) (order : RuntimeOrder) :
    RuntimeSelector :=
  { self with order := order }

def candidates (self : RuntimeSelector) (tool : ToolDefinition) :
    List RuntimeType :=
  self.order.arrange
    (self.policy.allowedRuntimes tool.id tool.trustLevel ∩
      self.availableRuntimes)

def selectRuntime (self : RuntimeSelector) (tool : ToolDefinition) :
    Except SelectionError RuntimeDecision :=
  if hsome : self.candidates tool ≠ [] then
    match choose (self.candidates tool) hsome tool.runtime with
    | .ok (chosen, isOverride, reason) =>
        .ok {
          runtimeType := chosen
          limits := self.policy.getLimits tool.id tool.trustLevel
          isOverride := isOverride
          reason := reason
          auditRequired := self.policy.requiresAudit tool.id tool.trustLevel }
    | .error error => .error error
  else .error (.noCompatibleRuntime tool.id)

end RuntimeSelector

/-! ## What may be chosen -/

namespace RuntimeRequirement

def Runs : RuntimeRequirement → RuntimeType → Prop
  | .auto language _, runtime => supportsLanguage runtime language = true
  | _, _ => True

def Requests : RuntimeRequirement → RuntimeType → Prop
  | .specific requested, runtime => runtime = requested
  | .auto _ preferred, runtime => preferred = some runtime
  | .anyOf runtimes, runtime => runtime ∈ runtimes

/-- The requirement names one runtime, and it is this one. -/
def Dictates : RuntimeRequirement → RuntimeType → Prop
  | .anyOf _, _ => False
  | requirement, runtime => requirement.Requests runtime

def StatesNoPreference : RuntimeRequirement → Prop
  | .auto _ none => True
  | _ => False

/-- An offered runtime that can run the tool and, if any such runtime is
requested, is requested itself. -/
structure Choice (requirement : RuntimeRequirement)
    (offered : RuntimeType → Prop) (runtime : RuntimeType) : Prop where
  isOffered : offered runtime
  runs : requirement.Runs runtime
  requested : ∀ other, offered other → requirement.Runs other →
    requirement.Requests other → requirement.Requests runtime

end RuntimeRequirement

theorem mostSecure_leastRanked (candidates : List RuntimeType)
    (hsome : candidates ≠ []) :
    LeastRanked securityRank (· ∈ candidates)
      (mostSecure candidates hsome) := by
  have hnonempty : sortByKey securityRank candidates ≠ [] :=
    sortByKey_ne_nil hsome
  have hsorted := (List.cons_head_tail hnonempty).symm
  exact leastRanked_of_sortByKey hsorted

/-- What a way of choosing has to do for a requirement. -/
structure Chooses (requirement : RuntimeRequirement)
    (candidates : List RuntimeType)
    (choice : RuntimeType × Bool × String) : Prop where
  least : LeastRanked securityRank (requirement.Choice (· ∈ candidates))
    choice.1
  override_iff : choice.2.1 = false ↔
    requirement.Requests choice.1 ∨ requirement.StatesNoPreference

/-- The most secure candidate is right where none is requested. -/
theorem leastRanked_choice_of_none {requirement : RuntimeRequirement}
    {candidates : List RuntimeType} (hsome : candidates ≠ [])
    (hruns : ∀ runtime ∈ candidates, requirement.Runs runtime)
    (hnone : ∀ runtime ∈ candidates, ¬ requirement.Requests runtime) :
    LeastRanked securityRank (requirement.Choice (· ∈ candidates))
      (mostSecure candidates hsome) := by
  have hleast := mostSecure_leastRanked candidates hsome
  refine ⟨⟨hleast.meets, hruns _ hleast.meets, ?_⟩, ?_⟩
  · intro other hother _ hrequested
    exact absurd hrequested (hnone other hother)
  · intro other hother
    exact hleast.least other hother.isOffered

/-- A preference that no candidate meets is overridden. -/
theorem chooses_fallback {requirement : RuntimeRequirement}
    {candidates : List RuntimeType} (hsome : candidates ≠ [])
    (hruns : ∀ runtime ∈ candidates, requirement.Runs runtime)
    (hnone : ∀ runtime ∈ candidates, ¬ requirement.Requests runtime)
    (hstated : ¬ requirement.StatesNoPreference) (reason : String) :
    Chooses requirement candidates
      (mostSecure candidates hsome, true, reason) := by
  have hleast := leastRanked_choice_of_none hsome hruns hnone
  refine ⟨hleast, iff_of_false Bool.noConfusion ?_⟩
  rintro (hrequested | hnothing)
  · exact hnone _ hleast.meets.isOffered hrequested
  · exact hstated hnothing

/-- A requested candidate is right where no other one is requested. -/
theorem leastRanked_choice_of_requested {requirement : RuntimeRequirement}
    {candidates : List RuntimeType} {runtime : RuntimeType}
    (hmem : runtime ∈ candidates) (hruns : requirement.Runs runtime)
    (honly : ∀ other, requirement.Requests other ↔ other = runtime) :
    LeastRanked securityRank (requirement.Choice (· ∈ candidates))
      runtime := by
  have hrequested := (honly runtime).mpr rfl
  refine ⟨⟨hmem, hruns, fun _ _ _ _ => hrequested⟩, ?_⟩
  intro other hother
  have hsame := (honly other).mp
    (hother.requested runtime hmem hruns hrequested)
  rw [hsame]

theorem chooseSpecific_chooses (candidates : List RuntimeType)
    (hsome : candidates ≠ []) (runtime : RuntimeType) :
    Chooses (.specific runtime) candidates
      (chooseSpecific candidates hsome runtime) := by
  rw [chooseSpecific]
  split_ifs with hmem
  · refine ⟨leastRanked_choice_of_requested hmem trivial (fun _ => Iff.rfl), ?_⟩
    exact iff_of_true rfl (Or.inl rfl)
  · have hnone : ∀ other ∈ candidates,
        ¬ (RuntimeRequirement.specific runtime).Requests other := by
      rintro other hother rfl
      exact hmem hother
    refine chooses_fallback hsome ?_ hnone id _
    exact fun _ _ => trivial

theorem chooseAuto_chooses (candidates : List RuntimeType)
    (hsome : candidates ≠ []) (language : Language)
    (preferred : Option RuntimeType)
    (hruns : ∀ runtime ∈ candidates, supportsLanguage runtime language = true) :
    Chooses (.auto language preferred) candidates
      (chooseAuto candidates hsome language preferred) := by
  cases preferred with
  | none =>
      refine ⟨leastRanked_choice_of_none hsome hruns ?_, ?_⟩
      · intro runtime _ hrequested
        cases hrequested
      · exact iff_of_true rfl (Or.inr trivial)
  | some pref =>
      rw [chooseAuto]
      split_ifs with hmem
      · refine ⟨leastRanked_choice_of_requested hmem (hruns pref hmem) ?_, ?_⟩
        · intro other
          exact Option.some_inj.trans eq_comm
        · exact iff_of_true rfl (Or.inl rfl)
      · have hnone : ∀ other ∈ candidates,
            ¬ (RuntimeRequirement.auto language (some pref)).Requests
              other := by
          intro other hother hrequested
          rw [← Option.some_inj.mp hrequested] at hother
          exact hmem hother
        refine chooses_fallback hsome ?_ hnone id _
        exact hruns

theorem chooseAnyOf_chooses (candidates : List RuntimeType)
    (hsome : candidates ≠ []) (runtimes : List RuntimeType) :
    Chooses (.anyOf runtimes) candidates
      (chooseAnyOf candidates hsome runtimes) := by
  have hacceptable : ∀ runtime,
      runtime ∈ runtimes.filter (fun runtime => runtime ∈ candidates) ↔
        runtime ∈ runtimes ∧ runtime ∈ candidates := by
    intro runtime
    rw [List.mem_filter, decide_eq_true_eq]
  rw [chooseAnyOf]
  cases hmin : minByKey securityRank
      (runtimes.filter (fun runtime => runtime ∈ candidates)) with
  | none =>
      have hempty := minByKey_eq_none_iff.mp hmin
      have hnone : ∀ other ∈ candidates,
          ¬ (RuntimeRequirement.anyOf runtimes).Requests other := by
        intro other hother hrequested
        have hmem := (hacceptable other).mpr ⟨hrequested, hother⟩
        rw [hempty] at hmem
        exact List.not_mem_nil hmem
      refine chooses_fallback hsome ?_ hnone id _
      exact fun _ _ => trivial
  | some chosen =>
      have hleast := leastRanked_of_minByKey hmin
      obtain ⟨hrequested, hmem⟩ := (hacceptable chosen).mp hleast.meets
      refine ⟨⟨⟨hmem, trivial, fun _ _ _ _ => hrequested⟩, ?_⟩, ?_⟩
      · intro other hother
        apply hleast.least
        rw [hacceptable]
        exact ⟨hother.requested chosen hmem trivial hrequested,
          hother.isOffered⟩
      · exact iff_of_true rfl (Or.inl hrequested)

/-- A choice among the candidates that can run the tool is a choice among all
of them. -/
theorem Chooses.of_filter {language : Language}
    {preferred : Option RuntimeType} {candidates : List RuntimeType}
    {choice : RuntimeType × Bool × String}
    (hchooses : Chooses (.auto language preferred)
      (candidates.filter (fun runtime => supportsLanguage runtime language))
      choice) :
    Chooses (.auto language preferred) candidates choice := by
  refine ⟨hchooses.least.congr ?_, hchooses.override_iff⟩
  intro runtime
  constructor
  · rintro ⟨hoffered, hruns, hrequested⟩
    refine ⟨List.mem_of_mem_filter hoffered, hruns, ?_⟩
    intro other hother hothers
    exact hrequested other (List.mem_filter.mpr ⟨hother, hothers⟩) hothers
  · rintro ⟨hoffered, hruns, hrequested⟩
    refine ⟨List.mem_filter.mpr ⟨hoffered, hruns⟩, hruns, ?_⟩
    intro other hother
    exact hrequested other (List.mem_of_mem_filter hother)

theorem chooses_of_choose {candidates : List RuntimeType}
    {hsome : candidates ≠ []} {requirement : RuntimeRequirement}
    {choice : RuntimeType × Bool × String}
    (hchoice : choose candidates hsome requirement = .ok choice) :
    Chooses requirement candidates choice := by
  cases requirement with
  | specific runtime =>
      rw [choose, Except.ok.injEq] at hchoice
      rw [← hchoice]
      exact chooseSpecific_chooses candidates hsome runtime
  | auto language preferred =>
      rw [choose] at hchoice
      split_ifs at hchoice with hruns
      rw [Except.ok.injEq] at hchoice
      rw [← hchoice]
      apply Chooses.of_filter
      apply chooseAuto_chooses
      intro runtime hmem
      exact (List.mem_filter.mp hmem).2
  | anyOf runtimes =>
      rw [choose, Except.ok.injEq] at hchoice
      rw [← hchoice]
      exact chooseAnyOf_chooses candidates hsome runtimes

/-- Choosing only fails where no candidate can run the tool. -/
theorem choose_eq_error_iff {candidates : List RuntimeType}
    {hsome : candidates ≠ []} {requirement : RuntimeRequirement} :
    (∃ error, choose candidates hsome requirement = .error error) ↔
      ∀ runtime ∈ candidates, ¬ requirement.Runs runtime := by
  obtain ⟨first, hfirst⟩ := List.exists_mem_of_ne_nil candidates hsome
  cases requirement with
  | specific runtime =>
      apply iff_of_false
      · rintro ⟨error, herror⟩
        cases herror
      · exact fun hnone => hnone first hfirst trivial
  | auto language preferred =>
      rw [choose]
      split_ifs with hruns
      · obtain ⟨runtime, hmem⟩ := List.exists_mem_of_ne_nil _ hruns
        obtain ⟨hcandidate, hlanguage⟩ := List.mem_filter.mp hmem
        apply iff_of_false
        · rintro ⟨error, herror⟩
          cases herror
        · exact fun hnone => hnone runtime hcandidate hlanguage
      · rw [not_not, List.filter_eq_nil_iff] at hruns
        exact iff_of_true ⟨_, rfl⟩ hruns
  | anyOf runtimes =>
      apply iff_of_false
      · rintro ⟨error, herror⟩
        cases herror
      · exact fun hnone => hnone first hfirst trivial

namespace RuntimeSelector

variable (self : RuntimeSelector) (tool : ToolDefinition)

/-- The runtime is available, and the policy allows it to the tool. -/
def Offers (runtime : RuntimeType) : Prop :=
  runtime ∈ self.availableRuntimes ∧
    self.policy.isRuntimeAllowed tool.id tool.trustLevel runtime = true

def Admissible (runtime : RuntimeType) : Prop :=
  self.Offers tool runtime ∧ tool.runtime.Runs runtime

theorem mem_candidates (runtime : RuntimeType) :
    runtime ∈ self.candidates tool ↔ self.Offers tool runtime := by
  rw [candidates, self.order.mem_arrange, Finset.mem_inter,
    ← SecurityPolicy.isRuntimeAllowed_iff, Offers, and_comm]

variable {self tool}

theorem leastRanked_of_selectRuntime {decision : RuntimeDecision}
    (hdecision : self.selectRuntime tool = .ok decision) :
    LeastRanked securityRank (tool.runtime.Choice (self.Offers tool))
        decision.runtimeType ∧
      (decision.isOverride = false ↔
        tool.runtime.Requests decision.runtimeType ∨
          tool.runtime.StatesNoPreference) ∧
      decision.limits = self.policy.getLimits tool.id tool.trustLevel ∧
      decision.auditRequired =
        self.policy.requiresAudit tool.id tool.trustLevel := by
  rw [selectRuntime] at hdecision
  split_ifs at hdecision with hsome
  cases hchoice : choose (self.candidates tool) hsome tool.runtime with
  | error error => simp [hchoice] at hdecision
  | ok choice =>
      rw [hchoice] at hdecision
      simp only [Except.ok.injEq] at hdecision
      subst hdecision
      have hchooses := chooses_of_choose hchoice
      have hoffers : (· ∈ self.candidates tool) = self.Offers tool :=
        funext fun runtime => propext (self.mem_candidates tool runtime)
      have hleast := hchooses.least
      rw [hoffers] at hleast
      exact ⟨hleast, hchooses.override_iff, rfl, rfl⟩

theorem selectRuntime_eq_error_iff :
    (∃ error, self.selectRuntime tool = .error error) ↔
      ∀ runtime, ¬ self.Admissible tool runtime := by
  have hoffers := self.mem_candidates tool
  rw [selectRuntime]
  split_ifs with hsome
  · have herror : (∃ error,
        choose (self.candidates tool) hsome tool.runtime = .error error) ↔
          ∀ runtime, ¬ self.Admissible tool runtime := by
      rw [choose_eq_error_iff]
      constructor
      · intro hnone runtime hadmissible
        exact hnone runtime ((hoffers runtime).mpr hadmissible.1)
          hadmissible.2
      · intro hnone runtime hmem hruns
        exact hnone runtime ⟨(hoffers runtime).mp hmem, hruns⟩
    rw [← herror]
    cases choose (self.candidates tool) hsome tool.runtime with
    | error error => simp
    | ok choice => simp
  · rw [not_not] at hsome
    refine iff_of_true ⟨_, rfl⟩ ?_
    intro runtime hadmissible
    have hmem := (hoffers runtime).mpr hadmissible.1
    rw [hsome] at hmem
    exact List.not_mem_nil hmem

/-- The error says whether nothing is offered, or nothing that runs the
language. -/
theorem error_of_selectRuntime {error : SelectionError}
    (herror : self.selectRuntime tool = .error error) :
    ((∀ runtime, ¬ self.Offers tool runtime) ∧
      error = .noCompatibleRuntime tool.id) ∨
    (∃ runtime, self.Offers tool runtime) ∧
      ∃ language preferred, tool.runtime = .auto language preferred ∧
        error = .unsupportedLanguage language := by
  have hoffers := self.mem_candidates tool
  rw [selectRuntime] at herror
  split_ifs at herror with hsome
  · obtain ⟨runtime, hmem⟩ := List.exists_mem_of_ne_nil _ hsome
    refine Or.inr ⟨⟨runtime, (hoffers runtime).mp hmem⟩, ?_⟩
    cases hrequired : tool.runtime with
    | specific requested => simp [hrequired, choose] at herror
    | auto language preferred =>
        refine ⟨language, preferred, rfl, ?_⟩
        rw [hrequired, choose] at herror
        split_ifs at herror with hruns
        cases herror
        rfl
    | anyOf runtimes => simp [hrequired, choose] at herror
  · rw [not_not] at hsome
    cases herror
    refine Or.inl ⟨?_, rfl⟩
    intro runtime hoffered
    have hmem := (hoffers runtime).mpr hoffered
    rw [hsome] at hmem
    exact List.not_mem_nil hmem

/-- The same offers lead to the same runtime, in whatever order they are gone
through. -/
theorem runtimeType_eq_of_offers {selector : RuntimeSelector}
    {demanded : ToolDefinition} {decision other : RuntimeDecision}
    (hoffers : self.Offers tool = selector.Offers demanded)
    (hruntime : demanded.runtime = tool.runtime)
    (hdecision : self.selectRuntime tool = .ok decision)
    (hother : selector.selectRuntime demanded = .ok other) :
    decision.runtimeType = other.runtimeType := by
  have hleast := (leastRanked_of_selectRuntime hdecision).1
  have hotherLeast := (leastRanked_of_selectRuntime hother).1
  rw [hruntime, ← hoffers] at hotherLeast
  exact hleast.unique securityRank_injective hotherLeast

theorem error_eq_of_offers {selector : RuntimeSelector}
    {demanded : ToolDefinition} {error other : SelectionError}
    (hoffers : self.Offers tool = selector.Offers demanded)
    (hid : demanded.id = tool.id) (hruntime : demanded.runtime = tool.runtime)
    (herror : self.selectRuntime tool = .error error)
    (hother : selector.selectRuntime demanded = .error other) :
    error = other := by
  rcases error_of_selectRuntime herror with
    ⟨hnothing, rfl⟩ | ⟨⟨runtime, hoffered⟩, language, preferred, hrequired, rfl⟩
  · rcases error_of_selectRuntime hother with
      ⟨_, rfl⟩ | ⟨⟨runtime, hoffered⟩, _⟩
    · rw [hid]
    · rw [← hoffers] at hoffered
      exact absurd hoffered (hnothing runtime)
  · rcases error_of_selectRuntime hother with
      ⟨hnothing, _⟩ | ⟨_, spoken, _, hdemanded, rfl⟩
    · rw [hoffers] at hoffered
      exact absurd hoffered (hnothing runtime)
    · rw [hruntime, hrequired] at hdemanded
      injection hdemanded with hlanguage
      rw [hlanguage]

/-- The process runtime is only offered where it is globally allowed. -/
theorem Offers.allowProcessRuntime {runtime : RuntimeType}
    (hoffers : self.Offers tool runtime) (hprocess : runtime = .process) :
    self.policy.allowProcessRuntime = true := by
  by_contra hdisabled
  rw [Bool.not_eq_true] at hdisabled
  have hbanned : self.policy.isRuntimeAllowed tool.id tool.trustLevel runtime =
      false := by
    rw [SecurityPolicy.isRuntimeAllowed, if_pos ⟨hprocess, hdisabled⟩]
  rw [hoffers.2] at hbanned
  cases hbanned

/-- The policy's two answers agree, what is selected obeys it, and something
is selected whenever it can be. -/
theorem selectRuntime_obeys_policy :
    (∀ (policy : SecurityPolicy) (toolId : String) (trustLevel : TrustLevel)
      (runtime : RuntimeType),
      policy.isRuntimeAllowed toolId trustLevel runtime = true ↔
        runtime ∈ policy.allowedRuntimes toolId trustLevel) ∧
    ∀ (self : RuntimeSelector) (tool : ToolDefinition),
      (∀ decision, self.selectRuntime tool = .ok decision →
        decision.runtimeType ∈ self.availableRuntimes ∧
        self.policy.isRuntimeAllowed tool.id tool.trustLevel
          decision.runtimeType = true ∧
        (decision.runtimeType = .process →
          self.policy.allowProcessRuntime = true) ∧
        tool.runtime.Runs decision.runtimeType ∧
        (decision.isOverride = false ↔
          tool.runtime.Requests decision.runtimeType ∨
            tool.runtime.StatesNoPreference) ∧
        (¬ tool.runtime.Dictates decision.runtimeType →
          LeastRanked securityRank (tool.runtime.Choice (self.Offers tool))
            decision.runtimeType)) ∧
      ((∃ error, self.selectRuntime tool = .error error) ↔
        ∀ runtime, ¬ self.Admissible tool runtime) := by
  refine ⟨SecurityPolicy.isRuntimeAllowed_iff, ?_⟩
  intro self tool
  refine ⟨?_, selectRuntime_eq_error_iff⟩
  intro decision hdecision
  obtain ⟨hleast, hoverride, _, _⟩ := leastRanked_of_selectRuntime hdecision
  have hoffers := hleast.meets.isOffered
  exact ⟨hoffers.1, hoffers.2, hoffers.allowProcessRuntime,
    hleast.meets.runs, hoverride, fun _ => hleast⟩

end RuntimeSelector

/-! ## What the declared trust level decides -/

/-- The same runtime, limits and audit requirement, or the same error. -/
def SameSelection :
    Except SelectionError RuntimeDecision →
      Except SelectionError RuntimeDecision → Prop
  | .ok decision, .ok other =>
      decision.runtimeType = other.runtimeType ∧
        decision.limits = other.limits ∧
        decision.auditRequired = other.auditRequired
  | .error error, .error other => error = other
  | _, _ => False

def ToolDefinition.declaring (tool : ToolDefinition)
    (trustLevel : TrustLevel) : ToolDefinition :=
  { tool with trustLevel := trustLevel }

namespace SecurityPolicy

variable (self : SecurityPolicy) (available : Finset RuntimeType)

/-- By the trust levels alone, the same available runtimes are allowed. -/
def SameDefaultRuntimes (left right : TrustLevel) : Prop :=
  ∀ runtime ∈ available,
    (runtime = .process → self.allowProcessRuntime = true) →
      (runtime ∈ (self.allowedRuntimesByTrust left).getD ∅ ↔
        runtime ∈ (self.allowedRuntimesByTrust right).getD ∅)

def SameDefaultLimits (left right : TrustLevel) : Prop :=
  (self.limitsByTrust left).getD .default =
    (self.limitsByTrust right).getD .default

end SecurityPolicy

def TrustLevel.AlwaysAudited (trustLevel : TrustLevel) : Prop :=
  trustLevel = .system ∨ trustLevel = .trusted

/-- A tool's policy leaves nothing to the trust level that the two levels do
not agree on. -/
structure ToolPolicy.DecidesFor (toolPolicy : ToolPolicy)
    (selector : RuntimeSelector) (toolId : String)
    (left right : TrustLevel) : Prop where
  runtimes : toolPolicy.allowedRuntimes ≠ [] ∨
    selector.policy.SameDefaultRuntimes selector.availableRuntimes left right
  terms : (∃ runtime ∈ selector.availableRuntimes,
      selector.policy.isRuntimeAllowed toolId left runtime = true) →
    (toolPolicy.limits.isSome = true ∨
      selector.policy.SameDefaultLimits left right) ∧
    (toolPolicy.auditRequired = true ∨
      (left.AlwaysAudited ↔ right.AlwaysAudited))

namespace SecurityPolicy

variable {self : SecurityPolicy} {toolId : String} {toolPolicy : ToolPolicy}
  {left right : TrustLevel}

theorem isRuntimeAllowed_of_listed
    (hpolicy : self.toolPolicies toolId = some toolPolicy)
    (hlisted : toolPolicy.allowedRuntimes ≠ []) (runtime : RuntimeType) :
    self.isRuntimeAllowed toolId left runtime =
      self.isRuntimeAllowed toolId right runtime := by
  simp [isRuntimeAllowed, hpolicy, hlisted]

theorem isRuntimeAllowed_of_unlisted
    (hpolicy : self.toolPolicies toolId = some toolPolicy)
    (hlisted : toolPolicy.allowedRuntimes = []) (runtime : RuntimeType) :
    self.isRuntimeAllowed toolId left runtime = true ↔
      (runtime = .process → self.allowProcessRuntime = true) ∧
        runtime ∈ (self.allowedRuntimesByTrust left).getD ∅ := by
  rw [isRuntimeAllowed_iff]
  simp [allowedRuntimes, hpolicy, hlisted, mem_withoutProcess]

/-- The two levels allow the same available runtimes where the tool's policy
lists some, or the levels alone agree. -/
theorem allowed_iff_of_policy (available : Finset RuntimeType)
    (hpolicy : self.toolPolicies toolId = some toolPolicy) :
    (∀ runtime ∈ available,
      (self.isRuntimeAllowed toolId left runtime = true ↔
        self.isRuntimeAllowed toolId right runtime = true)) ↔
      toolPolicy.allowedRuntimes ≠ [] ∨
        self.SameDefaultRuntimes available left right := by
  by_cases hlisted : toolPolicy.allowedRuntimes = []
  · simp only [isRuntimeAllowed_of_unlisted hpolicy hlisted, hlisted,
      ne_eq, not_true_eq_false, false_or, SameDefaultRuntimes]
    apply forall₂_congr
    intro runtime _
    constructor
    · intro hsame hallowed
      constructor
      · intro hmem
        exact (hsame.mp ⟨hallowed, hmem⟩).2
      · intro hmem
        exact (hsame.mpr ⟨hallowed, hmem⟩).2
    · intro hsame
      constructor
      · rintro ⟨hallowed, hmem⟩
        exact ⟨hallowed, (hsame hallowed).mp hmem⟩
      · rintro ⟨hallowed, hmem⟩
        exact ⟨hallowed, (hsame hallowed).mpr hmem⟩
  · refine iff_of_true ?_ (Or.inl hlisted)
    intro runtime _
    have hsame : self.isRuntimeAllowed toolId left runtime =
        self.isRuntimeAllowed toolId right runtime :=
      isRuntimeAllowed_of_listed hpolicy hlisted runtime
    rw [hsame]

theorem getLimits_eq_iff
    (hpolicy : self.toolPolicies toolId = some toolPolicy) :
    self.getLimits toolId left = self.getLimits toolId right ↔
      toolPolicy.limits.isSome = true ∨ self.SameDefaultLimits left right := by
  rw [getLimits, getLimits, hpolicy, Option.bind_some, SameDefaultLimits]
  cases toolPolicy.limits with
  | none => simp
  | some limits => simp

theorem requiresAudit_eq_iff
    (hpolicy : self.toolPolicies toolId = some toolPolicy) :
    self.requiresAudit toolId left = self.requiresAudit toolId right ↔
      toolPolicy.auditRequired = true ∨
        (left.AlwaysAudited ↔ right.AlwaysAudited) := by
  rw [requiresAudit, requiresAudit, hpolicy]
  cases haudit : toolPolicy.auditRequired with
  | true => simp [haudit]
  | false =>
      rw [Bool.eq_iff_iff]
      simp [haudit, TrustLevel.AlwaysAudited]

end SecurityPolicy

namespace RuntimeSelector

variable {self : RuntimeSelector} {tool : ToolDefinition}
  {toolPolicy : ToolPolicy} {left right : TrustLevel}

/-- A tool that asks for a runtime it can have gets it. -/
theorem selectRuntime_of_offers {runtime : RuntimeType}
    (hrequired : tool.runtime = .specific runtime)
    (hoffers : self.Offers tool runtime) :
    ∃ decision, self.selectRuntime tool = .ok decision ∧
      decision.runtimeType = runtime := by
  cases hselect : self.selectRuntime tool with
  | error error =>
      have hnone := selectRuntime_eq_error_iff.mp ⟨error, hselect⟩
      refine absurd ⟨hoffers, ?_⟩ (hnone runtime)
      rw [hrequired]
      trivial
  | ok decision =>
      refine ⟨decision, rfl, ?_⟩
      have hchoice := (leastRanked_of_selectRuntime hselect).1.meets
      rw [hrequired] at hchoice
      exact hchoice.requested runtime hoffers trivial rfl

/-- The same runtimes are offered on the same terms, so the same one is chosen,
in whatever order they are gone through. -/
theorem sameSelection_of_decidesFor (order : RuntimeOrder)
    (hpolicy : self.policy.toolPolicies tool.id = some toolPolicy)
    (hdecides : toolPolicy.DecidesFor self tool.id left right) :
    SameSelection (self.selectRuntime (tool.declaring left))
      ((self.rearranged order).selectRuntime (tool.declaring right)) := by
  have hoffers : self.Offers (tool.declaring left) =
      (self.rearranged order).Offers (tool.declaring right) := by
    have hallowed := (self.policy.allowed_iff_of_policy
      self.availableRuntimes hpolicy).mpr hdecides.runtimes
    funext runtime
    exact propext (and_congr_right (hallowed runtime))
  cases hselect : self.selectRuntime (tool.declaring left) with
  | error error =>
      have hnone := selectRuntime_eq_error_iff.mp ⟨error, hselect⟩
      unfold Admissible at hnone
      rw [hoffers] at hnone
      obtain ⟨other, hother⟩ := selectRuntime_eq_error_iff.mpr hnone
      rw [hother]
      exact error_eq_of_offers hoffers rfl rfl hselect hother
  | ok decision =>
      obtain ⟨hleast, _, hlimits, haudit⟩ :=
        leastRanked_of_selectRuntime hselect
      have hoffered := hleast.meets.isOffered
      cases hother : (self.rearranged order).selectRuntime
          (tool.declaring right) with
      | error error =>
          have hnone := selectRuntime_eq_error_iff.mp ⟨error, hother⟩
          refine absurd ⟨?_, hleast.meets.runs⟩ (hnone decision.runtimeType)
          rw [← hoffers]
          exact hoffered
      | ok other =>
          obtain ⟨_, _, hotherLimits, hotherAudit⟩ :=
            leastRanked_of_selectRuntime hother
          obtain ⟨hsameLimits, hsameAudit⟩ :=
            hdecides.terms ⟨decision.runtimeType, hoffered⟩
          refine ⟨runtimeType_eq_of_offers hoffers rfl hselect hother, ?_, ?_⟩
          · rw [hlimits, hotherLimits]
            exact (SecurityPolicy.getLimits_eq_iff hpolicy).mpr hsameLimits
          · rw [haudit, hotherAudit]
            exact (SecurityPolicy.requiresAudit_eq_iff hpolicy).mpr hsameAudit

/-- A tool that is allowed a runtime at one level is allowed it at the other,
on the same terms, if no requirement makes a difference. -/
theorem offers_of_sameSelection {order : RuntimeOrder} {toolId : String}
    {runtime : RuntimeType}
    (hsame : ∀ tool : ToolDefinition, tool.id = toolId →
      SameSelection (self.selectRuntime (tool.declaring left))
        ((self.rearranged order).selectRuntime (tool.declaring right)))
    (havailable : runtime ∈ self.availableRuntimes)
    (hallowed : self.policy.isRuntimeAllowed toolId left runtime = true) :
    self.policy.isRuntimeAllowed toolId right runtime = true ∧
      self.policy.getLimits toolId left = self.policy.getLimits toolId right ∧
      self.policy.requiresAudit toolId left =
        self.policy.requiresAudit toolId right := by
  let asking : ToolDefinition := ⟨toolId, "", left, .specific runtime, ""⟩
  have hrequired : (asking.declaring left).runtime = .specific runtime := rfl
  obtain ⟨decision, hselect, hruntime⟩ :=
    selectRuntime_of_offers hrequired ⟨havailable, hallowed⟩
  have hselection := hsame asking rfl
  rw [hselect] at hselection
  cases hother : (self.rearranged order).selectRuntime
      (asking.declaring right) with
  | error error =>
      rw [hother] at hselection
      exact hselection.elim
  | ok other =>
      rw [hother] at hselection
      obtain ⟨hruntimes, hlimits, haudit⟩ := hselection
      obtain ⟨_, _, hleftLimits, hleftAudit⟩ :=
        leastRanked_of_selectRuntime hselect
      obtain ⟨hleast, _, hrightLimits, hrightAudit⟩ :=
        leastRanked_of_selectRuntime hother
      have hoffered := hleast.meets.isOffered.2
      rw [← hruntimes, hruntime] at hoffered
      rw [hleftLimits, hrightLimits] at hlimits
      rw [hleftAudit, hrightAudit] at haudit
      exact ⟨hoffered, hlimits, haudit⟩

theorem runtimeType_of_sameSelection
    {selection other : Except SelectionError RuntimeDecision}
    (hsame : SameSelection selection other) :
    selection.map RuntimeDecision.runtimeType =
      other.map RuntimeDecision.runtimeType := by
  cases selection with
  | error error =>
      cases other with
      | error other => exact congrArg Except.error hsame
      | ok decision => exact hsame.elim
  | ok decision =>
      cases other with
      | error error => exact hsame.elim
      | ok other => exact congrArg Except.ok hsame.1

theorem sameSelection_symm
    {selection other : Except SelectionError RuntimeDecision}
    (hsame : SameSelection selection other) : SameSelection other selection := by
  cases selection with
  | error error =>
      cases other with
      | error error => exact hsame.symm
      | ok decision => exact hsame
  | ok decision =>
      cases other with
      | error error => exact hsame
      | ok other => exact ⟨hsame.1.symm, hsame.2.1.symm, hsame.2.2.symm⟩

/-- Whatever a tool requires, it gets the same at two trust levels it may
declare, exactly when its policy leaves nothing to the level that the two
levels do not agree on; the two selections may go through sets in orders of
their own. -/
theorem sameSelection_iff_decidesFor (self : RuntimeSelector)
    (order : RuntimeOrder) (toolId : String) (toolPolicy : ToolPolicy)
    (hpolicy : self.policy.toolPolicies toolId = some toolPolicy)
    (left right : TrustLevel) :
    (∀ tool : ToolDefinition, tool.id = toolId →
      SameSelection (self.selectRuntime (tool.declaring left))
        ((self.rearranged order).selectRuntime (tool.declaring right))) ↔
      toolPolicy.DecidesFor self toolId left right := by
  constructor
  · intro hsame
    constructor
    · rw [← self.policy.allowed_iff_of_policy self.availableRuntimes hpolicy]
      intro runtime havailable
      constructor
      · intro hallowed
        exact (offers_of_sameSelection hsame havailable hallowed).1
      · intro hallowed
        have hback : ∀ tool : ToolDefinition, tool.id = toolId →
            SameSelection
              ((self.rearranged order).selectRuntime (tool.declaring right))
              (((self.rearranged order).rearranged self.order).selectRuntime
                (tool.declaring left)) :=
          fun tool hid => sameSelection_symm (hsame tool hid)
        exact (offers_of_sameSelection hback havailable hallowed).1
    · rintro ⟨runtime, havailable, hallowed⟩
      obtain ⟨_, hlimits, haudit⟩ :=
        offers_of_sameSelection hsame havailable hallowed
      exact ⟨(SecurityPolicy.getLimits_eq_iff hpolicy).mp hlimits,
        (SecurityPolicy.requiresAudit_eq_iff hpolicy).mp haudit⟩
  · rintro hdecides tool rfl
    exact sameSelection_of_decidesFor order hpolicy hdecides

/-! ### A policy that leaves the runtimes to the tool -/

def listedOrder : RuntimeOrder where
  arrange set := [wasm, v8, process].filter (fun runtime => runtime ∈ set)
  mem_arrange set runtime := by
    cases runtime <;> simp

/-- The order the other way round. -/
def oppositeOrder : RuntimeOrder where
  arrange set := [process, v8, wasm].filter (fun runtime => runtime ∈ set)
  mem_arrange set runtime := by
    cases runtime <;> simp

def helperSelector (toolPolicy : ToolPolicy) : RuntimeSelector where
  policy :=
    { SecurityPolicy.default with
      toolPolicies := fun toolId =>
        if toolId = "helper" then some toolPolicy else none }
  availableRuntimes := {wasm, v8}
  order := listedOrder

def helperTool : ToolDefinition :=
  ⟨"helper", "Helper", .untrusted, .specific v8, ""⟩

def fullPolicy : ToolPolicy :=
  ⟨"helper", .untrusted, [wasm], some .strict, true⟩

theorem sameSelection_of_fullPolicy :
    SameSelection
      ((helperSelector fullPolicy).selectRuntime
        (helperTool.declaring .untrusted))
      (((helperSelector fullPolicy).rearranged oppositeOrder).selectRuntime
        (helperTool.declaring .system)) := by
  refine (sameSelection_iff_decidesFor (helperSelector fullPolicy)
    oppositeOrder "helper" fullPolicy rfl .untrusted .system).mpr ?_
    helperTool rfl
  exact ⟨Or.inl (List.cons_ne_nil _ _), fun _ => ⟨Or.inl rfl, Or.inl rfl⟩⟩

def emptyPolicy : ToolPolicy := ⟨"helper", .untrusted, [], none, false⟩

/-- The tool is configured as untrusted, declares itself trusted, and gets
another runtime for it. -/
theorem not_sameSelection_of_emptyPolicy :
    (helperSelector emptyPolicy).policy.toolPolicies helperTool.id =
      some emptyPolicy ∧
    emptyPolicy.trustLevel = .untrusted ∧
    ((helperSelector emptyPolicy).selectRuntime
      (helperTool.declaring .untrusted)).map RuntimeDecision.runtimeType =
        .ok wasm ∧
    ((helperSelector emptyPolicy).selectRuntime
      (helperTool.declaring .trusted)).map RuntimeDecision.runtimeType =
        .ok v8 ∧
    ¬ SameSelection
      ((helperSelector emptyPolicy).selectRuntime
        (helperTool.declaring .untrusted))
      ((helperSelector emptyPolicy).selectRuntime
        (helperTool.declaring .trusted)) := by
  have huntrusted : ((helperSelector emptyPolicy).selectRuntime
      (helperTool.declaring .untrusted)).map RuntimeDecision.runtimeType =
        .ok wasm := by
    rfl
  have htrusted : ((helperSelector emptyPolicy).selectRuntime
      (helperTool.declaring .trusted)).map RuntimeDecision.runtimeType =
        .ok v8 := by
    rfl
  refine ⟨rfl, rfl, huntrusted, htrusted, ?_⟩
  intro hsame
  have hruntimes := runtimeType_of_sameSelection hsame
  rw [huntrusted, htrusted] at hruntimes
  cases hruntimes

end RuntimeSelector

end Sandbox
end Acdp
