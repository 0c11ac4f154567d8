import Acdp.SandboxService

/-!
# Capability safety of plans

A run of the interpreter acts in node order and not after a node that fails,
and every act is under the first token of its node's capability.  The store
always holds the latest output of each capability, so a file is written with
nothing but what an earlier node of the same capability put out.
-/

namespace Acdp
namespace Common

def PlanNodeKind.capability : PlanNodeKind → CapabilityId
  | .runPython _ capability => capability
  | .readFile _ outputCapability => outputCapability
  | .writeFile _ inputCapability => inputCapability
  | .emit inputCapability => inputCapability

def PlanNodeKind.sink : PlanNodeKind → CapabilitySink
  | .runPython _ _ => .sandboxExecution
  | .readFile _ _ => .fileRead
  | .writeFile _ _ => .fileWrite
  | .emit _ => .emit

end Common

namespace Sandbox

open Common

section Plans

variable (plan : ExecutionPlan) (environment : Environment)

/-- The output of a node in the environment, whoever asks. -/
def NodeOutputs (position : ℕ) (node : PlanNode) (capability : CapabilityId)
    (text : String) : Prop :=
  match node.kind with
  | .runPython code outputId =>
      outputId = capability ∧ ∃ stream,
        environment.execute position (executionRequest plan code) =
            .ok stream ∧
          stdoutText stream = text
  | .readFile path outputCapability =>
      outputCapability = capability ∧
        environment.readToString position path = .ok text
  | .writeFile _ _ => False
  | .emit _ => False

def Outputs (capability : CapabilityId) (position : ℕ) (text : String) :
    Prop :=
  ∃ node, plan.graph.nodes[position]? = some node ∧
    NodeOutputs plan environment position node capability text

/-- The output most recently produced before a position. -/
def LatestOutput (position : ℕ) (capability : CapabilityId) (text : String) :
    Prop :=
  LatestBefore (Outputs plan environment capability) position text

/-- Everything a node asks for is answered, and a value is held for what it
writes. -/
def NodeAnswered (Holds : CapabilityId → String → Prop) (position : ℕ)
    (node : PlanNode) : Prop :=
  match node.kind with
  | .runPython code _ =>
      ∃ stream result,
        environment.execute position (executionRequest plan code) =
            .ok stream ∧
          stream.result = some result ∧
          recordPlanResult plan environment position node.id result
              (stdoutText stream) (stderrText stream) = .ok () ∧
          result.success = true
  | .readFile path _ =>
      ∃ content, environment.readToString position path = .ok content
  | .writeFile path inputCapability =>
      ∃ text, Holds inputCapability text ∧
        environment.write position path (asBytes text) = .ok ()
  | .emit _ => True

def NodeSucceeds (position : ℕ) (node : PlanNode) : Prop :=
  Permits plan node.kind.capability node.kind.sink ∧
    NodeAnswered plan environment (LatestOutput plan environment position)
      position node

def Fails (position : ℕ) : Prop :=
  ∃ node, plan.graph.nodes[position]? = some node ∧
    ¬ NodeSucceeds plan environment position node

/-- What a node does, whatever it writes. -/
inductive ActsAs : PlanNodeKind → Effect → Prop
  | runPython (code : String) (capability : CapabilityId) :
      ActsAs (.runPython code capability)
        (.execute (executionRequest plan code))
  | readFile (path : String) (outputCapability : CapabilityId) :
      ActsAs (.readFile path outputCapability) (.readToString path)
  | writeFile (path : String) (inputCapability : CapabilityId)
      (data : Bytes) :
      ActsAs (.writeFile path inputCapability) (.write path data)

structure CapabilitySafe (effects : List (ℕ × Effect)) : Prop where
  inOrder : effects.Pairwise (fun earlier later => earlier.1 ≤ later.1)
  stopped : ∀ failing, Fails plan environment failing →
    ∀ found ∈ effects, found.1 ≤ failing
  refused : plan.policy.mounts ≠ [] ∨ plan.policy.network ≠ .disabled →
    effects = []
  permitted : ∀ position effect, (position, effect) ∈ effects →
    ∃ node, plan.graph.nodes[position]? = some node ∧
      ActsAs plan node.kind effect ∧
      Permits plan node.kind.capability effect.sink
  written : ∀ position path data, (position, .write path data) ∈ effects →
    ∃ node, plan.graph.nodes[position]? = some node ∧
      ∃ text, LatestOutput plan environment position node.kind.capability
          text ∧
        data = asBytes text

/-! ## One node -/

variable {plan environment}

theorem nodeOutputs_unique {position : ℕ} {node : PlanNode}
    {capability : CapabilityId} {text other : String}
    (htext : NodeOutputs plan environment position node capability text)
    (hother : NodeOutputs plan environment position node capability other) :
    other = text := by
  unfold NodeOutputs at htext hother
  cases hkind : node.kind with
  | runPython code outputId =>
      simp only [hkind] at htext hother
      obtain ⟨_, stream, hstream, hsame⟩ := htext
      obtain ⟨_, stream', hstream', hsame'⟩ := hother
      rw [hstream, Except.ok.injEq] at hstream'
      rw [← hsame, ← hsame', hstream']
  | readFile path outputCapability =>
      simp only [hkind] at htext hother
      have hsame := htext.2
      rw [hother.2, Except.ok.injEq] at hsame
      exact hsame
  | writeFile path inputCapability => simp [hkind] at htext
  | emit inputCapability => simp [hkind] at htext

/-- A node has one effect at most: the one of its kind, under the token it
needs, with the value of its capability if it writes. -/
structure EffectOf (plan : ExecutionPlan) (node : PlanNode)
    (state : InterpreterState) (effect : Effect) : Prop where
  actsAs : ActsAs plan node.kind effect
  permits : Permits plan node.kind.capability effect.sink
  data : ∀ path data, effect = .write path data →
    ∃ text, state.valueStore node.kind.capability = some text ∧
      data = asBytes text

/-- What is known of a node that returns: it had its token and its answers,
and its output is stored. -/
structure Returned (plan : ExecutionPlan) (environment : Environment)
    (position : ℕ) (node : PlanNode) (state next : InterpreterState) :
    Prop where
  permits : Permits plan node.kind.capability node.kind.sink
  answered : NodeAnswered plan environment
    (fun capability text => state.valueStore capability = some text)
    position node
  stored : (∃ text, NodeOutputs plan environment position node
        node.kind.capability text ∧
      next.valueStore =
        storeValue state.valueStore node.kind.capability text) ∨
    ((∀ capability text,
        ¬ NodeOutputs plan environment position node capability text) ∧
      next.valueStore = state.valueStore)

/-- A node begins with its check and is left where it fails. -/
theorem ensureNodeCapability_bind (plan : ExecutionPlan)
    (capability : CapabilityId) (sink : CapabilitySink)
    (next : CapabilityToken → Acting Effect Stop InterpreterState) :
    (∃ token, (ensureNodeCapability plan capability sink >>= next) =
        next token ∧ Permits plan capability sink) ∨
      ∃ reason, (ensureNodeCapability plan capability sink >>= next) =
        Acting.stop reason := by
  unfold ensureNodeCapability
  rcases ensureCapability_cases plan capability sink with
    ⟨token, htoken, hpermits⟩ | ⟨error, herror, _⟩
  · rw [htoken]
    exact Or.inl ⟨token, rfl, hpermits⟩
  · rw [herror]
    exact Or.inr ⟨.failed error, rfl⟩

theorem finishExecution_effects (plan : ExecutionPlan)
    (environment : Environment) (position : ℕ) (nodeId : String)
    (capability : CapabilityId) (state : InterpreterState)
    (stream : ExecutionStream) :
    (finishExecution plan environment position nodeId capability state
      stream).effects = [] := by
  unfold finishExecution
  cases hresult : stream.result with
  | none => rfl
  | some result =>
      simp only
      cases hrecord : recordPlanResult plan environment position nodeId result
          (stdoutText stream) (stderrText stream) with
      | error reason => rfl
      | ok _ =>
          rw [Acting.attempt_ok_bind]
          split_ifs
          · rfl
          · rfl

theorem finishExecution_returned {position : ℕ} {nodeId : String}
    {capability : CapabilityId} {state next : InterpreterState}
    {stream : ExecutionStream}
    (hending : (finishExecution plan environment position nodeId capability
      state stream).ending = .ok next) :
    next = state.output capability (stdoutText stream) ∧
      ∃ result, stream.result = some result ∧
        recordPlanResult plan environment position nodeId result
            (stdoutText stream) (stderrText stream) = .ok () ∧
        result.success = true := by
  unfold finishExecution at hending
  cases hresult : stream.result with
  | none => simp [hresult] at hending
  | some result =>
      simp only [hresult] at hending
      cases hrecord : recordPlanResult plan environment position nodeId result
          (stdoutText stream) (stderrText stream) with
      | error reason => simp [hrecord] at hending
      | ok _ =>
          rw [hrecord, Acting.attempt_ok_bind] at hending
          by_cases hsuccess : result.success = true
          · rw [if_pos hsuccess, Acting.pure_ending,
              Except.ok.injEq] at hending
            exact ⟨hending.symm, result, rfl, hrecord, hsuccess⟩
          · rw [if_neg hsuccess, Acting.stop_ending] at hending
            cases hending

theorem effectOf_of_mem {position : ℕ} {node : PlanNode}
    {state : InterpreterState} {effect : Effect}
    (hmem : effect ∈
      (interpretNode plan environment position node state).effects) :
    EffectOf plan node state effect := by
  unfold interpretNode at hmem
  cases hkind : node.kind with
  | runPython code capability =>
      simp only [hkind] at hmem
      rcases ensureNodeCapability_bind plan capability .sandboxExecution _ with
        ⟨token, hchecked, hpermits⟩ | ⟨reason, hstopped⟩
      · rw [hchecked, Acting.perform_bind] at hmem
        have hsame : effect = .execute (executionRequest plan code) := by
          cases hstream : environment.execute position
              (executionRequest plan code) with
          | error reason => simpa [hstream] using hmem
          | ok stream => simpa [hstream, finishExecution_effects] using hmem
        rw [hsame]
        refine ⟨?_, ?_, fun path data hwrite => Effect.noConfusion hwrite⟩
        · rw [hkind]
          exact .runPython code capability
        · rw [hkind]
          exact hpermits
      · rw [hstopped] at hmem
        cases hmem
  | readFile path outputCapability =>
      simp only [hkind] at hmem
      rcases ensureNodeCapability_bind plan outputCapability .fileRead _ with
        ⟨token, hchecked, hpermits⟩ | ⟨reason, hstopped⟩
      · rw [hchecked, Acting.perform_bind] at hmem
        have hsame : effect = .readToString path := by
          cases hcontent : environment.readToString position path with
          | error reason => simpa [hcontent] using hmem
          | ok content => simpa [hcontent] using hmem
        rw [hsame]
        refine ⟨?_, ?_, fun path data hwrite => Effect.noConfusion hwrite⟩
        · rw [hkind]
          exact .readFile path outputCapability
        · rw [hkind]
          exact hpermits
      · rw [hstopped] at hmem
        cases hmem
  | writeFile path inputCapability =>
      simp only [hkind] at hmem
      rcases ensureNodeCapability_bind plan inputCapability .fileWrite _ with
        ⟨token, hchecked, hpermits⟩ | ⟨reason, hstopped⟩
      · rw [hchecked] at hmem
        cases hvalue : state.valueStore inputCapability with
        | none => simp [hvalue] at hmem
        | some value =>
            have hsame : effect = .write path (asBytes value) := by
              cases hwrite : environment.write position path
                  (asBytes value) with
              | error reason => simpa [hvalue, hwrite] using hmem
              | ok _ => simpa [hvalue, hwrite] using hmem
            rw [hsame]
            refine ⟨?_, ?_, ?_⟩
            · rw [hkind]
              exact .writeFile path inputCapability (asBytes value)
            · rw [hkind]
              exact hpermits
            · intro path' data hwrite
              rw [Effect.write.injEq] at hwrite
              exact ⟨value, by rw [hkind]; exact hvalue, hwrite.2.symm⟩
      · rw [hstopped] at hmem
        cases hmem
  | emit inputCapability =>
      simp only [hkind] at hmem
      rcases ensureNodeCapability_bind plan inputCapability .emit _ with
        ⟨token, hchecked, _⟩ | ⟨reason, hstopped⟩
      · rw [hchecked] at hmem
        cases hmem
      · rw [hstopped] at hmem
        cases hmem

theorem returned_of_ending {position : ℕ} {node : PlanNode}
    {state next : InterpreterState}
    (hending : (interpretNode plan environment position node state).ending =
      .ok next) :
    Returned plan environment position node state next := by
  unfold interpretNode at hending
  cases hkind : node.kind with
  | runPython code capability =>
      simp only [hkind] at hending
      rcases ensureNodeCapability_bind plan capability .sandboxExecution _ with
        ⟨token, hchecked, hpermits⟩ | ⟨reason, hstopped⟩
      · rw [hchecked, Acting.perform_bind] at hending
        cases hstream : environment.execute position
            (executionRequest plan code) with
        | error reason => simp [hstream] at hending
        | ok stream =>
            simp only [hstream, Acting.attempt_ok_bind] at hending
            obtain ⟨hnext, result, hresult, hrecorded, hsuccess⟩ :=
              finishExecution_returned hending
            refine ⟨by rw [hkind]; exact hpermits, ?_, Or.inl ?_⟩
            · simp only [NodeAnswered, hkind]
              exact ⟨stream, result, hstream, hresult, hrecorded, hsuccess⟩
            · refine ⟨stdoutText stream, ?_, by rw [hnext, hkind]; rfl⟩
              simp only [NodeOutputs, hkind]
              exact ⟨rfl, stream, hstream, rfl⟩
      · rw [hstopped] at hending
        cases hending
  | readFile path outputCapability =>
      simp only [hkind] at hending
      rcases ensureNodeCapability_bind plan outputCapability .fileRead _ with
        ⟨token, hchecked, hpermits⟩ | ⟨reason, hstopped⟩
      · rw [hchecked, Acting.perform_bind] at hending
        cases hcontent : environment.readToString position path with
        | error reason => simp [hcontent] at hending
        | ok content =>
            simp only [hcontent, Acting.attempt_ok_bind, Acting.pure_ending,
              Except.ok.injEq] at hending
            refine ⟨by rw [hkind]; exact hpermits, ?_, Or.inl ?_⟩
            · simp only [NodeAnswered, hkind]
              exact ⟨content, hcontent⟩
            · refine ⟨content, ?_, by rw [← hending, hkind]; rfl⟩
              simp only [NodeOutputs, hkind]
              exact ⟨rfl, hcontent⟩
      · rw [hstopped] at hending
        cases hending
  | writeFile path inputCapability =>
      simp only [hkind] at hending
      rcases ensureNodeCapability_bind plan inputCapability .fileWrite _ with
        ⟨token, hchecked, hpermits⟩ | ⟨reason, hstopped⟩
      · rw [hchecked] at hending
        cases hvalue : state.valueStore inputCapability with
        | none => simp [hvalue] at hending
        | some value =>
            cases hwrite : environment.write position path (asBytes value) with
            | error reason => simp [hvalue, hwrite] at hending
            | ok _ =>
                simp only [hvalue, hwrite, Acting.perform_bind,
                  Acting.attempt_ok_bind, Acting.pure_ending,
                  Except.ok.injEq] at hending
                refine ⟨by rw [hkind]; exact hpermits, ?_, Or.inr ?_⟩
                · simp only [NodeAnswered, hkind]
                  exact ⟨value, hvalue, hwrite⟩
                · simp only [NodeOutputs, hkind]
                  exact ⟨fun _ _ hfalse => hfalse, by rw [hending]⟩
      · rw [hstopped] at hending
        cases hending
  | emit inputCapability =>
      simp only [hkind] at hending
      rcases ensureNodeCapability_bind plan inputCapability .emit _ with
        ⟨token, hchecked, hpermits⟩ | ⟨reason, hstopped⟩
      · rw [hchecked, Acting.pure_ending, Except.ok.injEq] at hending
        refine ⟨by rw [hkind]; exact hpermits, ?_, Or.inr ?_⟩
        · simp only [NodeAnswered, hkind]
        · simp only [NodeOutputs, hkind]
          exact ⟨fun _ _ hfalse => hfalse, by rw [← hending]⟩
      · rw [hstopped] at hending
        cases hending

/-! ## The run -/

/-- The store holds the latest output of every capability. -/
def Remembers (plan : ExecutionPlan) (environment : Environment)
    (position : ℕ) (state : InterpreterState) : Prop :=
  ∀ capability text, state.valueStore capability = some text ↔
    LatestOutput plan environment position capability text

theorem remembers_initial : Remembers plan environment 0 .initial := by
  intro capability text
  constructor
  · intro hvalue
    cases hvalue
  · intro hlatest
    exact absurd hlatest (not_latestBefore_zero text)

theorem nodeOutputs_capability {position : ℕ} {node : PlanNode}
    {capability : CapabilityId} {text : String}
    (houtputs : NodeOutputs plan environment position node capability text) :
    node.kind.capability = capability := by
  unfold NodeOutputs at houtputs
  cases hkind : node.kind with
  | runPython code outputId =>
      simp only [hkind] at houtputs
      exact houtputs.1
  | readFile path outputCapability =>
      simp only [hkind] at houtputs
      exact houtputs.1
  | writeFile path inputCapability => simp [hkind] at houtputs
  | emit inputCapability => simp [hkind] at houtputs

theorem outputs_iff {position : ℕ} {node : PlanNode}
    (hnode : plan.graph.nodes[position]? = some node)
    (capability : CapabilityId) (text : String) :
    Outputs plan environment capability position text ↔
      NodeOutputs plan environment position node capability text := by
  constructor
  · rintro ⟨other, hother, houtputs⟩
    rw [hnode, Option.some.injEq] at hother
    rwa [hother]
  · intro houtputs
    exact ⟨node, hnode, houtputs⟩

theorem Returned.remembers {position : ℕ} {node : PlanNode}
    {state next : InterpreterState}
    (hreturned : Returned plan environment position node state next)
    (hnode : plan.graph.nodes[position]? = some node)
    (hremembers : Remembers plan environment position state) :
    Remembers plan environment (position + 1) next := by
  intro capability text
  have hsilent (hnone : ∀ other,
      ¬ NodeOutputs plan environment position node capability other) :
      state.valueStore capability = some text ↔
        LatestOutput plan environment (position + 1) capability text := by
    rw [hremembers capability text]
    refine (latestBefore_succ_of_silent ?_ text).symm
    intro other houtputs
    exact hnone other ((outputs_iff hnode capability other).mp houtputs)
  rcases hreturned.stored with ⟨output, houtputs, hstore⟩ | ⟨hnone, hstore⟩
  · rw [hstore, storeValue]
    by_cases hsame : capability = node.kind.capability
    · subst hsame
      rw [Function.update_self, Option.some.injEq]
      refine (latestBefore_succ_of_gives
        ((outputs_iff hnode _ output).mpr houtputs) ?_ text).symm
      intro other hother
      exact nodeOutputs_unique houtputs ((outputs_iff hnode _ other).mp hother)
    · rw [Function.update_of_ne hsame]
      apply hsilent
      intro other hother
      exact hsame (nodeOutputs_capability hother).symm
  · rw [hstore]
    exact hsilent (hnone capability)

theorem Returned.succeeds {position : ℕ} {node : PlanNode}
    {state next : InterpreterState}
    (hreturned : Returned plan environment position node state next)
    (hremembers : Remembers plan environment position state) :
    NodeSucceeds plan environment position node := by
  refine ⟨hreturned.permits, ?_⟩
  have hanswered := hreturned.answered
  unfold NodeAnswered at hanswered ⊢
  cases hkind : node.kind with
  | runPython code capability => simpa only [hkind] using hanswered
  | readFile path outputCapability => simpa only [hkind] using hanswered
  | writeFile path inputCapability =>
      simp only [hkind] at hanswered ⊢
      obtain ⟨text, hvalue, hwritten⟩ := hanswered
      exact ⟨text, (hremembers inputCapability text).mp hvalue, hwritten⟩
  | emit inputCapability => trivial

theorem refuse_effects (position : ℕ) (text : String) (error : PlanError) :
    (refuse environment position text error).effects = [] := by
  unfold refuse
  cases environment.recordExecutionOutcome position false (.error text) with
  | error reason => rfl
  | ok _ => rfl

theorem finishPlan_effects (state : InterpreterState) :
    (finishPlan plan environment state).effects = [] := by
  unfold finishPlan
  cases state.lastOutput with
  | none => exact refuse_effects _ _ _
  | some finalId => rfl

/-- All effects of a run are effects of its loop, and there are none where
the policy asks for mounts or the network. -/
theorem interpretPlan_effects (plan : ExecutionPlan)
    (environment : Environment) :
    (interpretPlan plan environment).effects = [] ∨
      (plan.policy.mounts = [] ∧ plan.policy.network = .disabled ∧
        (interpretPlan plan environment).effects =
          (Acting.loop (interpretNode plan environment) 0 plan.graph.nodes
            .initial).effects) := by
  unfold interpretPlan
  split_ifs with hnodes hmounts hnetwork
  · exact Or.inl (refuse_effects _ _ _)
  · exact Or.inl (refuse_effects _ _ _)
  · exact Or.inl (refuse_effects _ _ _)
  · refine Or.inr ⟨not_not.mp hmounts, not_not.mp hnetwork, ?_⟩
    cases hending : (Acting.loop (interpretNode plan environment) 0
        plan.graph.nodes .initial).ending with
    | error reason => rw [Acting.bind_of_error hending]
    | ok state =>
        rw [Acting.bind_of_ok hending, finishPlan_effects, List.append_nil]

theorem capabilitySafe_nil (plan : ExecutionPlan) (environment : Environment) :
    CapabilitySafe plan environment [] where
  inOrder := List.Pairwise.nil
  stopped := fun _ _ _ hmem => absurd hmem (List.not_mem_nil)
  refused := fun _ => rfl
  permitted := fun _ _ hmem => absurd hmem (List.not_mem_nil)
  written := fun _ _ _ hmem => absurd hmem (List.not_mem_nil)

theorem interpretPlan_capabilitySafe (plan : ExecutionPlan)
    (environment : Environment) :
    CapabilitySafe plan environment
      (interpretPlan plan environment).effects := by
  rcases interpretPlan_effects plan environment with
    hnone | ⟨hmounts, hnetwork, heffects⟩
  · rw [hnone]
    exact capabilitySafe_nil plan environment
  · have hkeep : ∀ position node state next,
        Acting.Turn (Remembers plan environment) plan.graph.nodes position
          node state →
        (interpretNode plan environment position node state).ending =
          .ok next →
        Remembers plan environment (position + 1) next := by
      intro position node state next hturn hending
      exact (returned_of_ending hending).remembers hturn.item_eq
        hturn.invariant
    have hfound (position : ℕ) (effect : Effect)
        (hmem : (position, effect) ∈
          (interpretPlan plan environment).effects) :=
      Acting.exists_of_mem_loop hkeep remembers_initial (heffects ▸ hmem)
    constructor
    · rw [heffects]
      exact Acting.loop_inOrder _ 0 _
    · rintro failing ⟨node, hnode, hfails⟩ ⟨position, effect⟩ hmem
      by_contra hafter
      obtain ⟨item, reached, next, hturn, hending⟩ :=
        (hfound position effect hmem).2 failing (Nat.lt_of_not_le hafter)
      have hitem := hturn.item_eq
      rw [hnode, Option.some.injEq] at hitem
      rw [hitem] at hfails
      exact hfails ((returned_of_ending hending).succeeds hturn.invariant)
    · rintro (hmount | hopen)
      · exact absurd hmounts hmount
      · exact absurd hnetwork hopen
    · intro position effect hmem
      obtain ⟨node, reached, hturn, heffect⟩ := (hfound position effect hmem).1
      have hof := effectOf_of_mem heffect
      exact ⟨node, hturn.item_eq, hof.actsAs, hof.permits⟩
    · intro position path data hmem
      obtain ⟨node, reached, hturn, heffect⟩ := (hfound position _ hmem).1
      obtain ⟨text, hvalue, hdata⟩ :=
        (effectOf_of_mem heffect).data path data rfl
      exact ⟨node, hturn.item_eq, text,
        (hturn.invariant _ text).mp hvalue, hdata⟩

end Plans

end Sandbox
end Acdp
