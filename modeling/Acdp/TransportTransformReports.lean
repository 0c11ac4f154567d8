import Acdp.StepMachine
import Acdp.TransportTransformEffects

/-!
# What the transform interceptor reports

The interceptor flags a message as modified when a rule has succeeded on it.
A rule may succeed without effect, and rules may undo each other.  The
messages that the rules pass on are the states of a machine whose actions are
the rules; the flag tells the truth when no rule succeeds, or when some rule
takes the message away from what it was and no later one brings it back.
-/

namespace Acdp
namespace Transport

open Acdp.Core Json
open KeyedTree (Apart)

namespace TransformRule

variable {build : TransformBuild} {rule : TransformRule}
  {value result newValue : OrderedValue} {parents : List String}
  {field last newName : String}

/-! ## Changes of the value -/

/-- The path's last segment is a name in an object. -/
def InObject (value : OrderedValue) (path : List String) : Prop :=
  ∃ parent members, getAtPath value path.dropLast = some parent ∧
    parent.val = .object members

theorem setAtPath_changes_iff :
    (∃ result, setAtPath value (parents ++ [field]) newValue = .ok result ∧
        result ≠ value) ↔
      InObject value (parents ++ [field]) ∧
        getAtPath value (parents ++ [field]) ≠ some newValue := by
  simp only [setAtPath_eq_ok_iff]
  rw [KeyedTree.updateAt_changes_iff]
  unfold InObject getAtPath
  rw [List.dropLast_concat, KeyedTree.getAt_concat]
  constructor
  · rintro ⟨parent, changed, hparent, hchange, hne⟩
    obtain ⟨⟨members, hobject⟩, habsent⟩ :=
      OrderedValue.insertField_changes_iff.mp ⟨changed, hchange, hne⟩
    refine ⟨⟨parent, members, hparent, hobject⟩, ?_⟩
    rw [hparent]
    exact habsent
  · rintro ⟨⟨parent, members, hparent, hobject⟩, habsent⟩
    rw [hparent] at habsent
    obtain ⟨changed, hchange, hne⟩ :=
      OrderedValue.insertField_changes_iff.mpr ⟨⟨members, hobject⟩, habsent⟩
    exact ⟨parent, changed, hparent, hchange, hne⟩

theorem removeAtPath_changes_iff :
    (∃ result, removeAtPath value (parents ++ [field]) = .ok result ∧
        result ≠ value) ↔
      (getAtPath value (parents ++ [field])).isSome := by
  have hupdate : (∃ result,
      removeAtPath value (parents ++ [field]) = .ok result ∧
        result ≠ value) ↔
      ∃ result, OrderedValue.tree.updateAt
        (fun parent => parent.removeField field) parents value =
        some result ∧ result ≠ value := by
    apply exists_congr
    intro result
    rw [removeAtPath_eq_ok_iff]
    constructor
    · rintro ⟨hsome | ⟨_, hsame, _⟩, hne⟩
      · exact ⟨hsome, hne⟩
      · exact absurd hsame hne
    · rintro ⟨hsome, hne⟩
      exact ⟨Or.inl hsome, hne⟩
  rw [hupdate, KeyedTree.updateAt_changes_iff, getAtPath,
    KeyedTree.getAt_concat_isSome_iff]
  constructor
  · rintro ⟨parent, changed, hparent, hchange, hne⟩
    exact ⟨parent, hparent,
      OrderedValue.removeField_changes_iff.mp ⟨changed, hchange, hne⟩⟩
  · rintro ⟨parent, hparent, hmember⟩
    obtain ⟨changed, hchange, hne⟩ :=
      OrderedValue.removeField_changes_iff.mpr hmember
    exact ⟨parent, changed, hparent, hchange, hne⟩

theorem renameAtPath_ne_iff :
    renameAtPath value (parents ++ [last]) newName ≠ value ↔
      (getAtPath value (parents ++ [last])).isSome ∧ newName ≠ last := by
  have hupdate : renameAtPath value (parents ++ [last]) newName ≠ value ↔
      ∃ result, OrderedValue.tree.updateAt
        (fun parent => parent.renameField last newName) parents value =
        some result ∧ result ≠ value := by
    rw [renameAtPath_concat]
    cases OrderedValue.tree.updateAt
      (fun parent => parent.renameField last newName) parents value <;> simp
  rw [hupdate, KeyedTree.updateAt_changes_iff, getAtPath,
    KeyedTree.getAt_concat_isSome_iff]
  constructor
  · rintro ⟨parent, changed, hparent, hchange, hne⟩
    obtain ⟨hmember, hname⟩ :=
      OrderedValue.renameField_changes_iff.mp ⟨changed, hchange, hne⟩
    exact ⟨⟨parent, hparent, hmember⟩, hname⟩
  · rintro ⟨⟨parent, hparent, hmember⟩, hname⟩
    obtain ⟨changed, hchange, hne⟩ :=
      OrderedValue.renameField_changes_iff.mpr ⟨hmember, hname⟩
    exact ⟨parent, changed, hparent, hchange, hne⟩

/-- The rule makes another value of this one.  Each operation has its own
way of succeeding without effect. -/
def ChangesValue (build : TransformBuild) (rule : TransformRule)
    (value : OrderedValue) : Prop :=
  match rule.operation with
  | .set newValue =>
      InObject value rule.pathParts ∧
        getAtPath value rule.pathParts ≠ some newValue
  | .addIfMissing _ =>
      InObject value rule.pathParts ∧ getAtPath value rule.pathParts = none
  | .remove => (getAtPath value rule.pathParts).isSome
  | .rename newName =>
      (getAtPath value rule.pathParts).isSome ∧
        rule.pathParts.getLast? ≠ some newName
  | .function name _ =>
      ∃ target changed, getAtPath value rule.pathParts = some target ∧
        functionOf build name target = some (.ok changed) ∧ changed ≠ target

theorem applyFunction_changes_iff {path : List String} {name : String}
    {args : List OrderedValue} :
    (∃ result, applyFunction build value path name args =
        some (.ok result) ∧ result ≠ value) ↔
      ∃ target changed, getAtPath value path = some target ∧
        functionOf build name target = some (.ok changed) ∧
        changed ≠ target := by
  cases htarget : getAtPath value path with
  | none => simp [applyFunction, htarget]
  | some target =>
      constructor
      · rintro ⟨result, happly, hne⟩
        simp only [applyFunction, htarget, Option.map_eq_some_iff] at happly
        obtain ⟨outcome, hfunction, houtcome⟩ := happly
        cases outcome with
        | error e => cases houtcome
        | ok changed =>
            refine ⟨target, changed, rfl, hfunction, ?_⟩
            rintro rfl
            have hfixed := applyFunction_of_fixed htarget hfunction args
            simp only [applyFunction, htarget, hfunction, Option.map_some,
              houtcome, Option.some.injEq, Except.ok.injEq] at hfixed
            exact hne hfixed
      · rintro ⟨found, changed, hfound, hfunction, hne⟩
        rw [Option.some.injEq] at hfound
        subst hfound
        obtain ⟨result, happly, hread, _⟩ :=
          applyFunction_of_changed htarget hfunction args
        refine ⟨result, happly, ?_⟩
        rintro rfl
        rw [htarget, Option.some.injEq] at hread
        exact hne hread.symm

theorem applyToValue_changes_iff :
    (∃ result, rule.applyToValue build value = some (.ok result) ∧
        result ≠ value) ↔
      rule.ChangesValue build value := by
  obtain ⟨parents, last, hparts⟩ := rule.exists_pathParts_eq
  cases hoperation : rule.operation with
  | set newValue =>
      simp only [applyToValue, ChangesValue, hoperation, hparts,
        Option.some.injEq]
      exact setAtPath_changes_iff
  | addIfMissing newValue =>
      simp only [applyToValue, ChangesValue, hoperation, hparts]
      cases hmember : getAtPath value (parents ++ [last]) with
      | none =>
          simp only [Option.isNone_none, if_true, Option.some.injEq]
          rw [setAtPath_changes_iff, hmember]
          simp
      | some child => simp
  | remove =>
      simp only [applyToValue, ChangesValue, hoperation, hparts,
        Option.some.injEq]
      exact removeAtPath_changes_iff
  | rename newName =>
      simp only [applyToValue, ChangesValue, hoperation, hparts,
        Option.some.injEq, Except.ok.injEq, exists_eq_left',
        List.getLast?_concat]
      rw [renameAtPath_ne_iff, ne_comm, ne_eq, ne_eq, Option.some.injEq]
  | function name args =>
      simp only [applyToValue, ChangesValue, hoperation]
      exact applyFunction_changes_iff

/-! ## Changes of the message -/

/-- The rule makes another message of this one. -/
def ActsOn (build : TransformBuild) (rule : TransformRule)
    (message : JsonRpcMessage) : Prop :=
  ∃ value, payload message = some value ∧ rule.ChangesValue build value

theorem withPayload_eq_iff {message : JsonRpcMessage}
    (hpayload : payload message = some value) :
    withPayload message result = message ↔ result = value := by
  cases message with
  | request req =>
      obtain ⟨jsonrpc, id, method, params⟩ := req
      obtain rfl : params = some value := hpayload
      simp [withPayload]
  | response resp =>
      obtain ⟨jsonrpc, id, payload, error⟩ := resp
      obtain rfl : payload = some value := hpayload
      simp [withPayload]
  | notification notif =>
      obtain ⟨jsonrpc, method, params⟩ := notif
      obtain rfl : params = some value := hpayload
      simp [withPayload]

theorem apply_changes_iff {message : JsonRpcMessage} :
    (∃ modified, rule.apply build message = some (.ok modified) ∧
        modified ≠ message) ↔
      rule.ActsOn build message := by
  unfold ActsOn
  cases hpayload : payload message with
  | none =>
      have happly : rule.apply build message = some (.ok message) := by
        simp only [apply, hpayload]
      rw [happly]
      simp
  | some value =>
      have happly : rule.apply build message =
          (rule.applyToValue build value).map (fun outcome =>
            outcome.map (withPayload message)) := by
        simp only [apply, hpayload]
      simp only [Option.some.injEq, exists_eq_left']
      rw [happly, ← applyToValue_changes_iff]
      constructor
      · rintro ⟨modified, hmodified, hne⟩
        rw [Option.map_eq_some_iff] at hmodified
        obtain ⟨outcome, houtcome, hmap⟩ := hmodified
        cases outcome with
        | error e => cases hmap
        | ok result =>
            refine ⟨result, houtcome, ?_⟩
            rintro rfl
            apply hne
            rw [← Except.ok.inj hmap]
            exact (withPayload_eq_iff hpayload).mpr rfl
      · rintro ⟨result, hresult, hne⟩
        refine ⟨withPayload message result, ?_, ?_⟩
        · rw [hresult]
          rfl
        · exact mt (withPayload_eq_iff hpayload).mp hne

/-! ## Overflows -/

/-- The rule counts up the greatest `i64` where overflows are checked. -/
def Overflows (build : TransformBuild) (rule : TransformRule)
    (message : JsonRpcMessage) : Prop :=
  build.overflowChecks = true ∧
    (∃ args, rule.operation = .function "increment" args) ∧
    ∃ value target, payload message = some value ∧
      getAtPath value rule.pathParts = some target ∧
      integerOf target.val = some (2 ^ 63 - 1)

theorem asI64_eq_max_iff {number : Value} :
    asI64 number = some Int64.maxValue ↔
      integerOf number = some (2 ^ 63 - 1) := by
  have hmax : Int64.maxValue.toInt = 2 ^ 63 - 1 := by decide
  constructor
  · intro hword
    cases hinteger : integerOf number with
    | none =>
        rw [asI64_of_integerOf_none hinteger] at hword
        cases hword
    | some n =>
        rcases asI64_of_integerOf hinteger with
          ⟨_, word, hfound, rfl⟩ | ⟨_, hnone⟩
        · rw [hword, Option.some.injEq] at hfound
          rw [← hfound, hmax]
        · rw [hword] at hnone
          cases hnone
  · intro hinteger
    rcases asI64_of_integerOf hinteger with
      ⟨_, word, hfound, hword⟩ | ⟨hbeyond, _⟩
    · rw [hfound, Int64.toInt_inj.mp (hword.trans hmax.symm)]
    · omega

theorem functionOf_eq_none_iff {name : String} {target : OrderedValue} :
    functionOf build name target = none ↔
      build.overflowChecks = true ∧ name = "increment" ∧
        integerOf target.val = some (2 ^ 63 - 1) := by
  rw [← asI64_eq_max_iff]
  unfold functionOf
  split_ifs with hupper hlower hincrement
  · subst hupper
    split <;> simp
  · subst hlower
    split <;> simp
  · subst hincrement
    cases hword : asI64 target.val with
    | none => simp
    | some word => simp [incremented]
  · simp [hincrement]

theorem apply_eq_none_iff {message : JsonRpcMessage} :
    rule.apply build message = none ↔ rule.Overflows build message := by
  unfold Overflows
  cases hpayload : payload message with
  | none => simp [apply, hpayload]
  | some value =>
      have happly : rule.apply build message = none ↔
          rule.applyToValue build value = none := by
        simp only [apply, hpayload, Option.map_eq_none_iff]
      rw [happly]
      cases hoperation : rule.operation with
      | function name args =>
          simp only [applyToValue, hoperation]
          cases htarget : getAtPath value rule.pathParts with
          | none => simp [applyFunction, htarget]
          | some target =>
              have hnone : applyFunction build value rule.pathParts name
                  args = none ↔ functionOf build name target = none := by
                simp only [applyFunction, htarget, Option.map_eq_none_iff]
              rw [hnone, functionOf_eq_none_iff]
              simp [htarget]
      | addIfMissing newValue =>
          simp only [applyToValue, hoperation]
          split_ifs <;> simp
      | _ => simp [applyToValue, hoperation]

/-- What is left of the message after one rule: a rule that fails leaves it
as it is. -/
def rewriteBy (build : TransformBuild) (message : JsonRpcMessage)
    (rule : TransformRule) : Option JsonRpcMessage :=
  (rule.apply build message).map (fun outcome =>
    outcome.toOption.getD message)

/-- The messages that rules lead to, one after the other. -/
def rewriting (build : TransformBuild) :
    StepMachine JsonRpcMessage TransformRule where
  step := rewriteBy build

theorem rewriteBy_ne_iff {message : JsonRpcMessage} :
    (∃ next, rewriteBy build message rule = some next ∧ next ≠ message) ↔
      rule.ActsOn build message := by
  rw [← apply_changes_iff]
  unfold rewriteBy
  rcases rule.apply build message with _ | (e | modified)
  · simp
  · simp [Except.toOption]
  · simp [Except.toOption]

end TransformRule

namespace TransformInterceptor

open TransformRule

variable {build : TransformBuild} {context : MessageContext}

/-! ## The loop over the rules -/

/-- The rules whose pattern fits the message's method. -/
def matchingRules (context : MessageContext) (rules : List TransformRule) :
    List TransformRule :=
  rules.filter (fun rule => rule.matches context)

theorem matchingRules_cons_of_matches {rule : TransformRule}
    (hmatches : rule.matches context = true) (rest : List TransformRule) :
    matchingRules context (rule :: rest) =
      rule :: matchingRules context rest :=
  List.filter_cons_of_pos hmatches

theorem matchingRules_cons_of_not {rule : TransformRule}
    (hmatches : ¬ rule.matches context = true) (rest : List TransformRule) :
    matchingRules context (rule :: rest) = matchingRules context rest :=
  List.filter_cons_of_neg hmatches

/-- A turn of the loop is a step of the machine where the rule matches. -/
theorem turn_currentMessage (build : TransformBuild)
    (context : MessageContext) (pass : RulePass) (rule : TransformRule) :
    (turn build context pass rule).map RulePass.currentMessage =
      if rule.matches context then rewriteBy build pass.currentMessage rule
      else some pass.currentMessage := by
  unfold turn rewriteBy
  split_ifs
  · rw [Option.map_map]
    congr 1
    funext outcome
    cases outcome <;> rfl
  · rfl

theorem foldlM_turn_currentMessage (build : TransformBuild)
    (context : MessageContext) (rules : List TransformRule)
    (pass : RulePass) :
    (rules.foldlM (turn build context) pass).map RulePass.currentMessage =
      (rewriting build).run pass.currentMessage
        (matchingRules context rules) := by
  induction rules generalizing pass with
  | nil => rfl
  | cons rule rest ih =>
      have hturn := turn_currentMessage build context pass rule
      rw [List.foldlM_cons, Option.bind_eq_bind, Option.map_bind]
      by_cases hmatches : rule.matches context = true
      · rw [if_pos hmatches] at hturn
        rw [matchingRules_cons_of_matches hmatches, StepMachine.run_cons]
        change _ = (rewriteBy build pass.currentMessage rule).bind _
        rw [← hturn, Option.bind_map]
        congr 1
        funext next
        exact ih next
      · have hskip : turn build context pass rule = some pass := by
          rw [turn, if_neg hmatches]
        rw [matchingRules_cons_of_not hmatches, hskip, Option.bind_some]
        exact ih pass

/-- A rule that succeeds sets the flag, and no later rule takes it back. -/
theorem turn_wasModified {pass next : RulePass} {rule : TransformRule}
    (hturn : turn build context pass rule = some next) :
    (next = pass ∧ (rule.matches context = true →
        ∃ e, rule.apply build pass.currentMessage = some (.error e))) ∨
      (next.wasModified = true ∧ rule.matches context = true ∧
        ∃ modified,
          rule.apply build pass.currentMessage = some (.ok modified)) := by
  unfold turn at hturn
  split_ifs at hturn with hmatches
  · rw [Option.map_eq_some_iff] at hturn
    obtain ⟨outcome, happly, rfl⟩ := hturn
    cases outcome with
    | error e => exact Or.inl ⟨rfl, fun _ => ⟨e, happly⟩⟩
    | ok modified => exact Or.inr ⟨rfl, hmatches, modified, happly⟩
  · rw [Option.some.injEq] at hturn
    exact Or.inl ⟨hturn.symm, fun hother => absurd hother hmatches⟩

theorem foldlM_turn_keeps_flag {rules : List TransformRule}
    {pass final : RulePass} (hflag : pass.wasModified = true)
    (hrun : rules.foldlM (turn build context) pass = some final) :
    final.wasModified = true := by
  induction rules generalizing pass with
  | nil =>
      rw [List.foldlM_nil] at hrun
      obtain rfl : pass = final := Option.some.inj hrun
      exact hflag
  | cons rule rest ih =>
      rw [List.foldlM_cons, Option.bind_eq_bind, Option.bind_eq_some_iff]
        at hrun
      obtain ⟨next, hturn, hrest⟩ := hrun
      rcases turn_wasModified hturn with ⟨rfl, _⟩ | ⟨hset, _⟩
      · exact ih hflag hrest
      · exact ih hset hrest

/-- The flag stays down just when every matching rule fails on the message
that the loop began with. -/
theorem foldlM_turn_wasModified_iff {rules : List TransformRule}
    {pass final : RulePass} (hflag : pass.wasModified = false)
    (hrun : rules.foldlM (turn build context) pass = some final) :
    final.wasModified = false ↔
      ∀ rule ∈ matchingRules context rules,
        ∃ e, rule.apply build pass.currentMessage = some (.error e) := by
  induction rules with
  | nil =>
      rw [List.foldlM_nil] at hrun
      obtain rfl : pass = final := Option.some.inj hrun
      simp [hflag, matchingRules]
  | cons rule rest ih =>
      rw [List.foldlM_cons, Option.bind_eq_bind, Option.bind_eq_some_iff]
        at hrun
      obtain ⟨next, hturn, hrest⟩ := hrun
      rcases turn_wasModified hturn with
        ⟨rfl, hfails⟩ | ⟨hset, hmatches, modified, hsucceeds⟩
      · by_cases hmatches : rule.matches context = true
        · rw [matchingRules_cons_of_matches hmatches, List.forall_mem_cons,
            ih hrest]
          exact (and_iff_right (hfails hmatches)).symm
        · rw [matchingRules_cons_of_not hmatches]
          exact ih hrest
      · have hup := foldlM_turn_keeps_flag hset hrest
        rw [matchingRules_cons_of_matches hmatches, List.forall_mem_cons,
          hsucceeds]
        simp [hup]

/-! ## The report -/

/-- The call returns the message that the matching rules lead to; the flag
and the counter say whether it differs from the original. -/
def ReportsTruthfully (build : TransformBuild) (self : TransformInterceptor)
    (context : MessageContext) (clock : Clock) : Prop :=
  ∃ next result, intercept build self context clock = some (next, result) ∧
    (rewriting build).run context.message
      (matchingRules context self.rules) = some result.message ∧
    (result.modified = true ↔ result.message ≠ context.message) ∧
    (result.message ≠ context.message →
      next.stats.totalModified = self.stats.totalModified + 1) ∧
    (result.message = context.message →
      next.stats.totalModified = self.stats.totalModified)

def EveryRuleFails (build : TransformBuild) (context : MessageContext)
    (rules : List TransformRule) : Prop :=
  ∀ rule ∈ matchingRules context rules,
    ∃ e, rule.apply build context.message = some (.error e)

/-- No rule counts up the greatest `i64` at its turn. -/
def NeverOverflows (build : TransformBuild) (context : MessageContext)
    (rules : List TransformRule) : Prop :=
  ∀ before rule after message,
    matchingRules context rules = before ++ rule :: after →
    (rewriting build).run context.message before = some message →
      ¬ rule.Overflows build message

/-- Some rule acts on the original message, and no later rule restores
it. -/
def ChangeLasts (build : TransformBuild) (context : MessageContext)
    (rules : List TransformRule) : Prop :=
  ∃ before rule after,
    matchingRules context rules = before ++ rule :: after ∧
    (rewriting build).run context.message before = some context.message ∧
    rule.ActsOn build context.message ∧
    ∀ next, rewriteBy build context.message rule = some next →
      (rewriting build).Throughout (fun message => message ≠ context.message)
        next after

theorem run_of_forall_fails {message : JsonRpcMessage}
    {trace : List TransformRule}
    (hfails : ∀ rule ∈ trace,
      ∃ e, rule.apply build message = some (.error e)) :
    (rewriting build).run message trace = some message := by
  induction trace with
  | nil => rfl
  | cons rule rest ih =>
      obtain ⟨⟨e, herror⟩, hrest⟩ := List.forall_mem_cons.mp hfails
      have hstep : (rewriting build).step message rule = some message := by
        change rewriteBy build message rule = some message
        rw [rewriteBy, herror]
        rfl
      rw [StepMachine.run_cons, hstep, Option.bind_some]
      exact ih hrest

theorem neverOverflows_iff {rules : List TransformRule} :
    NeverOverflows build context rules ↔
      (rewriting build).run context.message
        (matchingRules context rules) ≠ none := by
  have hstep (message : JsonRpcMessage) (rule : TransformRule) :
      (rewriting build).step message rule = none ↔
        rule.Overflows build message := by
    rw [← apply_eq_none_iff]
    exact Option.map_eq_none_iff
  rw [ne_eq, StepMachine.run_eq_none_iff]
  constructor
  · rintro hnever ⟨before, rule, after, message, htrace, hrun, hstop⟩
    exact hnever before rule after message htrace hrun
      ((hstep message rule).mp hstop)
  · intro hruns before rule after message htrace hrun hoverflow
    exact hruns ⟨before, rule, after, message, htrace, hrun,
      (hstep message rule).mpr hoverflow⟩

theorem changeLasts_iff {rules : List TransformRule} {final : JsonRpcMessage}
    (hrun : (rewriting build).run context.message
      (matchingRules context rules) = some final) :
    ChangeLasts build context rules ↔ final ≠ context.message := by
  rw [StepMachine.run_ne_iff_departs hrun]
  constructor
  · rintro ⟨before, rule, after, htrace, hbefore, hacts, haway⟩
    obtain ⟨next, hnext, _⟩ := rewriteBy_ne_iff.mpr hacts
    exact ⟨before, rule, after, next, htrace, hbefore, hnext,
      haway next hnext⟩
  · rintro ⟨before, rule, after, next, htrace, hbefore, hnext, haway⟩
    have hne : next ≠ context.message :=
      haway [] List.nil_prefix next rfl
    refine ⟨before, rule, after, htrace, hbefore, ?_, ?_⟩
    · exact rewriteBy_ne_iff.mp ⟨next, hnext, hne⟩
    · intro other hother
      have hsame : some next = some other := hnext.symm.trans hother
      rw [← Option.some.inj hsame]
      exact haway

theorem reportsTruthfully_iff (build : TransformBuild)
    (self : TransformInterceptor) (context : MessageContext) (clock : Clock) :
    ReportsTruthfully build self context clock ↔
      EveryRuleFails build context self.rules ∨
        (NeverOverflows build context self.rules ∧
          ChangeLasts build context self.rules) := by
  have hmessages := foldlM_turn_currentMessage build context self.rules
    ⟨context.message, false, []⟩
  rw [neverOverflows_iff]
  unfold ReportsTruthfully intercept applyRules
  cases hpass : self.rules.foldlM (turn build context)
      ⟨context.message, false, []⟩ with
  | none =>
      rw [hpass, Option.map_none] at hmessages
      apply iff_of_false
      · rintro ⟨next, result, hnone, _⟩
        cases hnone
      · rintro (hfails | ⟨hruns, _⟩)
        · rw [run_of_forall_fails hfails] at hmessages
          cases hmessages
        · exact hruns hmessages.symm
  | some pass =>
      obtain ⟨message, wasModified, appliedRules⟩ := pass
      rw [hpass, Option.map_some] at hmessages
      have hflag : wasModified = false ↔
          EveryRuleFails build context self.rules :=
        foldlM_turn_wasModified_iff rfl hpass
      rw [changeLasts_iff hmessages.symm, ← hflag, ← hmessages]
      cases wasModified with
      | false =>
          have hsame : message = context.message := by
            rw [run_of_forall_fails (hflag.mp rfl)] at hmessages
            exact Option.some.inj hmessages
          refine iff_of_true ⟨_, _, rfl, rfl, ?_, ?_, ?_⟩ (Or.inl rfl)
          · simp [InterceptionResult.passThrough, hsame]
          · intro hne
            exact absurd hsame hne
          · intro _
            rfl
      | true =>
          simp only [Bool.true_eq_false, false_or, ne_eq, reduceCtorEq,
            not_false_eq_true, true_and]
          constructor
          · rintro ⟨next, result, hreturn, hmessage, hmodified, _⟩
            obtain rfl : InterceptionResult.rewritten message _ _ = result :=
              congrArg Prod.snd (Option.some.inj hreturn)
            exact hmodified.mp rfl
          · intro hne
            refine ⟨_, _, rfl, rfl, ?_, ?_, ?_⟩
            · exact iff_of_true rfl hne
            · intro _
              rfl
            · intro hsame
              exact absurd hsame hne

/-- A rule for a field of every message. -/
def labelling : TransformInterceptor :=
  new.addRule ⟨"label", "*", "label", .set ⟨.bool true, .bool true⟩⟩

/-- A request without parameters, which no rule has anything to change in. -/
def pingContext : MessageContext :=
  .new (.request ⟨"2.0", .number 1, "ping", none⟩) .outgoing
    Auth.smallInstant

theorem labelling_flags_unchanged_ping :
    ¬ ReportsTruthfully asciiBuild labelling pingContext
      ⟨Auth.smallInstant, 0⟩ := by
  rintro ⟨next, result, hreturn, _, hmodified, _⟩
  obtain rfl : InterceptionResult.rewritten pingContext.message _ _ = result :=
    congrArg Prod.snd (Option.some.inj hreturn)
  exact hmodified.mp rfl rfl

end TransformInterceptor
end Transport
end Acdp
