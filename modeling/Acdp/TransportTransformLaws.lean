import Acdp.TransportTransform

/-!
# The laws of the path operations

Setting, adding and removing a field walk the value by separate routines,
with a case of its own for a path of one segment.  Each of them is one update
of the object that the path's last segment is a name in.  What is then read
at the path, below it and beside it follows from the laws of keyed trees.
-/

namespace Acdp
namespace Transport

open Acdp.Core Json
open KeyedTree (Apart)

namespace TransformRule

variable {value result newValue : OrderedValue} {parents : List String}
  {field : String}

theorem exists_pathParts_eq (self : TransformRule) :
    ∃ parents field, self.pathParts = parents ++ [field] := by
  have hne : self.pathParts ≠ [] := by
    simp [pathParts, List.splitOn_ne_nil]
  exact ⟨self.pathParts.dropLast, self.pathParts.getLast hne,
    (List.dropLast_append_getLast hne).symm⟩

/-! ## One update of the parent -/

theorem setAtPath_eq_ok_iff :
    setAtPath value (parents ++ [field]) newValue = .ok result ↔
      OrderedValue.tree.updateAt
        (fun parent => parent.insertField field newValue) parents value =
        some result := by
  unfold setAtPath
  rw [List.getLast?_concat, List.dropLast_concat]
  cases parents with
  | nil =>
      simp only [List.nil_append, List.length_singleton, if_true,
        KeyedTree.updateAt]
      cases value.insertField field newValue <;> simp
  | cons first rest =>
      have hlength : ((first :: rest) ++ [field]).length ≠ 1 := by simp
      simp only [hlength, if_false]
      cases OrderedValue.tree.updateAt
        (fun parent => parent.insertField field newValue) (first :: rest)
        value <;> simp

/-- Where the parent is missing, only a path of one segment fails. -/
theorem removeAtPath_eq_ok_iff :
    removeAtPath value (parents ++ [field]) = .ok result ↔
      OrderedValue.tree.updateAt
          (fun parent => parent.removeField field) parents value =
          some result ∨
        (parents ≠ [] ∧ result = value ∧
          OrderedValue.tree.updateAt
            (fun parent => parent.removeField field) parents value =
            none) := by
  unfold removeAtPath
  rw [List.getLast?_concat, List.dropLast_concat]
  cases parents with
  | nil =>
      simp only [List.nil_append, List.length_singleton, if_true,
        KeyedTree.updateAt]
      cases value.removeField field <;> simp
  | cons first rest =>
      have hlength : ((first :: rest) ++ [field]).length ≠ 1 := by simp
      simp only [hlength, if_false]
      cases OrderedValue.tree.updateAt
        (fun parent => parent.removeField field) (first :: rest) value with
      | none => simp [eq_comm]
      | some updated => simp

theorem keepsOthers_insertField (field : String) (newValue : OrderedValue) :
    OrderedValue.tree.KeepsOthers
      (fun parent => parent.insertField field newValue) {field} := by
  intro parent changed hchange other hother
  have hget := OrderedValue.get_insertField hchange other
  have hne : other ≠ field := hother
  rw [if_neg hne] at hget
  exact hget

theorem keepsOthers_removeField (field : String) :
    OrderedValue.tree.KeepsOthers
      (fun parent => parent.removeField field) {field} := by
  intro parent changed hchange other hother
  have hget := OrderedValue.get_removeField hchange other
  have hne : other ≠ field := hother
  rw [if_neg hne] at hget
  exact hget

/-- Paths apart from the path of a member are not below the parent's member,
and not above it. -/
theorem getAt_of_apart {change : OrderedValue → Option OrderedValue}
    {other : List String}
    (hkeeps : OrderedValue.tree.KeepsOthers change {field})
    (hupdate : OrderedValue.tree.updateAt change parents value = some result)
    (hapart : Apart (parents ++ [field]) other) :
    getAtPath result other = getAtPath value other := by
  apply KeyedTree.getAt_updateAt_of_keepsOthers hkeeps hupdate
  · intro habove
    exact hapart.2 (habove.trans (List.prefix_append parents [field]))
  · intro key hkey
    rw [Set.mem_singleton_iff.mp hkey]
    exact hapart.1

/-! ## Reading at the path -/

theorem getAtPath_of_setAtPath
    (hset : setAtPath value (parents ++ [field]) newValue = .ok result) :
    getAtPath result (parents ++ [field]) = some newValue := by
  rw [setAtPath_eq_ok_iff] at hset
  obtain ⟨parent, changed, hparent, hchange⟩ :=
    KeyedTree.updateAt_isSome_iff.mp ⟨result, hset⟩
  rw [getAtPath, KeyedTree.getAt_concat, KeyedTree.getAt_updateAt hset,
    hparent, Option.bind_some, hchange, Option.bind_some]
  exact (OrderedValue.get_insertField hchange field).trans (if_pos rfl)

theorem getAtPath_of_removeAtPath
    (hremove : removeAtPath value (parents ++ [field]) = .ok result) :
    getAtPath result (parents ++ [field]) = none := by
  rw [removeAtPath_eq_ok_iff] at hremove
  rw [getAtPath, KeyedTree.getAt_concat]
  rcases hremove with hupdate | ⟨_, rfl, hmissing⟩
  · obtain ⟨parent, changed, hparent, hchange⟩ :=
      KeyedTree.updateAt_isSome_iff.mp ⟨result, hupdate⟩
    rw [KeyedTree.getAt_updateAt hupdate, hparent, Option.bind_some, hchange,
      Option.bind_some]
    exact (OrderedValue.get_removeField hchange field).trans (if_pos rfl)
  · -- a parent with such a member could have been updated
    rw [Option.bind_eq_none_iff]
    intro parent hparent
    by_contra hmember
    obtain ⟨child, hchild⟩ := Option.ne_none_iff_exists'.mp hmember
    obtain ⟨members, hobject⟩ := OrderedValue.exists_object_of_get hchild
    obtain ⟨changed, hchange⟩ :=
      OrderedValue.removeField_of_object hobject field
    obtain ⟨updated, hupdate⟩ : ∃ updated, OrderedValue.tree.updateAt
        (fun parent => parent.removeField field) parents result =
        some updated :=
      KeyedTree.updateAt_isSome_iff.mpr ⟨parent, changed, hparent, hchange⟩
    rw [hmissing] at hupdate
    cases hupdate

theorem removeAtPath_again
    (hremove : removeAtPath value (parents ++ [field]) = .ok result) :
    removeAtPath result (parents ++ [field]) = .ok result := by
  have hnone := getAtPath_of_removeAtPath hremove
  rw [removeAtPath_eq_ok_iff] at hremove ⊢
  rcases hremove with hupdate | ⟨hparents, rfl, hmissing⟩
  · left
    obtain ⟨parent, changed, hparent, hchange⟩ :=
      KeyedTree.updateAt_isSome_iff.mp ⟨result, hupdate⟩
    have hchanged :
        OrderedValue.tree.getAt parents result = some changed := by
      rw [KeyedTree.getAt_updateAt hupdate, hparent, Option.bind_some,
        hchange]
    rw [getAtPath, KeyedTree.getAt_concat, hchanged, Option.bind_some]
      at hnone
    obtain ⟨_, _, hobject⟩ := OrderedValue.removeField_eq_some hchange
    exact KeyedTree.updateAt_of_fixed hchanged
      (OrderedValue.removeField_get_none hobject hnone)
  · exact Or.inr ⟨hparents, rfl, hmissing⟩

/-! ## The laws of a rule -/

/-- What setting, adding and removing do to the value a rule is applied
to. -/
structure ObeysPathLaws (build : TransformBuild) (rule : TransformRule)
    (value : OrderedValue) : Prop where
  set : ∀ newValue, rule.operation = .set newValue →
    ∀ result, rule.applyToValue build value = some (.ok result) →
      getAtPath result rule.pathParts = some newValue
  remove : rule.operation = .remove →
    ∀ result, rule.applyToValue build value = some (.ok result) →
      getAtPath result rule.pathParts = none ∧
        rule.applyToValue build result = some (.ok result)
  present : ∀ newValue, rule.operation = .addIfMissing newValue →
    (getAtPath value rule.pathParts).isSome = true →
      rule.applyToValue build value = some (.ok value)
  twice : ∀ newValue, rule.operation = .addIfMissing newValue →
    ∀ result, rule.applyToValue build value = some (.ok result) →
      rule.applyToValue build result = some (.ok result)
  frame : (∃ newValue, rule.operation = .set newValue ∨
      rule.operation = .addIfMissing newValue ∨ rule.operation = .remove) →
    ∀ result, rule.applyToValue build value = some (.ok result) →
      ∀ other, Apart rule.pathParts other →
        getAtPath result other = getAtPath value other

theorem applyToValue_addIfMissing_of_some {build : TransformBuild}
    {rule : TransformRule}
    (hoperation : rule.operation = .addIfMissing newValue)
    (hpresent : (getAtPath value rule.pathParts).isSome = true) :
    rule.applyToValue build value = some (.ok value) := by
  have hnone : (getAtPath value rule.pathParts).isNone = false := by
    rw [← Option.not_isSome, hpresent]
    rfl
  simp only [applyToValue, hoperation, hnone, Bool.false_eq_true, if_false]

theorem frame_setAtPath {other : List String}
    (hset : setAtPath value (parents ++ [field]) newValue = .ok result)
    (hapart : Apart (parents ++ [field]) other) :
    getAtPath result other = getAtPath value other :=
  getAt_of_apart (keepsOthers_insertField field newValue)
    (setAtPath_eq_ok_iff.mp hset) hapart

theorem frame_removeAtPath {other : List String}
    (hremove : removeAtPath value (parents ++ [field]) = .ok result)
    (hapart : Apart (parents ++ [field]) other) :
    getAtPath result other = getAtPath value other := by
  rcases removeAtPath_eq_ok_iff.mp hremove with hupdate | ⟨_, rfl, _⟩
  · exact getAt_of_apart (keepsOthers_removeField field) hupdate hapart
  · rfl

theorem obeysPathLaws (build : TransformBuild) (rule : TransformRule)
    (value : OrderedValue) : rule.ObeysPathLaws build value := by
  obtain ⟨parents, field, hparts⟩ := rule.exists_pathParts_eq
  refine ⟨?_, ?_, ?_, ?_, ?_⟩
  · intro newValue hoperation result happly
    simp only [applyToValue, hoperation, hparts, Option.some.injEq] at happly
    rw [hparts]
    exact getAtPath_of_setAtPath happly
  · intro hoperation result happly
    simp only [applyToValue, hoperation, hparts, Option.some.injEq] at happly
    refine ⟨?_, ?_⟩
    · rw [hparts]
      exact getAtPath_of_removeAtPath happly
    · simp only [applyToValue, hoperation, hparts, Option.some.injEq]
      exact removeAtPath_again happly
  · intro newValue hoperation hpresent
    exact applyToValue_addIfMissing_of_some hoperation hpresent
  · intro newValue hoperation result happly
    apply applyToValue_addIfMissing_of_some hoperation
    simp only [applyToValue, hoperation, hparts] at happly
    rw [hparts]
    split_ifs at happly with hmissing
    · rw [Option.some.injEq] at happly
      rw [getAtPath_of_setAtPath happly]
      rfl
    · rw [Option.some.injEq, Except.ok.injEq] at happly
      rw [← happly]
      rw [Option.isNone_iff_eq_none] at hmissing
      exact Option.isSome_iff_ne_none.mpr hmissing
  · rintro ⟨newValue, hoperation⟩ result happly other hapart
    rw [hparts] at hapart
    rcases hoperation with hoperation | hoperation | hoperation
    · simp only [applyToValue, hoperation, hparts, Option.some.injEq]
        at happly
      exact frame_setAtPath happly hapart
    · simp only [applyToValue, hoperation, hparts] at happly
      split_ifs at happly with hmissing
      · rw [Option.some.injEq] at happly
        exact frame_setAtPath happly hapart
      · rw [Option.some.injEq, Except.ok.injEq] at happly
        rw [happly]
    · simp only [applyToValue, hoperation, hparts, Option.some.injEq]
        at happly
      exact frame_removeAtPath happly hapart

end TransformRule

namespace TransformInterceptor

theorem turn_of_error {build : TransformBuild} {context : MessageContext}
    {pass : RulePass} {rule : TransformRule} {e : String}
    (hfails : rule.apply build pass.currentMessage = some (.error e)) :
    turn build context pass rule = some pass := by
  unfold turn
  split_ifs
  · rw [hfails]
    rfl
  · rfl

/-- A rule that fails might as well not be in the list. -/
theorem applyRules_skip_failing {build : TransformBuild}
    {context : MessageContext} {before after : List TransformRule}
    {rule : TransformRule} {pass : RulePass} {e : String}
    (hbefore : applyRules build context before = some pass)
    (hfails : rule.apply build pass.currentMessage = some (.error e)) :
    applyRules build context (before ++ rule :: after) =
      applyRules build context (before ++ after) := by
  unfold applyRules at hbefore ⊢
  rw [List.foldlM_append, List.foldlM_append, hbefore]
  change (turn build context pass rule >>= fun next =>
      after.foldlM (turn build context) next) =
    after.foldlM (turn build context) pass
  rw [turn_of_error hfails]
  rfl

/-- The laws of the rules on any value, and of the interceptor where a rule
fails: the call goes on as if the rule were not in the list. -/
theorem transformRule_laws (build : TransformBuild) :
    (∀ (rule : TransformRule) (value : OrderedValue),
      rule.ObeysPathLaws build value) ∧
    ∀ (self : TransformInterceptor) (context : MessageContext)
      (clock : Clock) (before after : List TransformRule)
      (rule : TransformRule) (pass : RulePass) (e : String),
      applyRules build context before = some pass →
      rule.apply build pass.currentMessage = some (.error e) →
      turn build context pass rule = some pass ∧
        (intercept build { self with rules := before ++ rule :: after }
            context clock).map Prod.snd =
          (intercept build { self with rules := before ++ after }
            context clock).map Prod.snd := by
  refine ⟨TransformRule.obeysPathLaws build, ?_⟩
  intro self context clock before after rule pass e hbefore hfails
  refine ⟨turn_of_error hfails, ?_⟩
  unfold intercept
  rw [Option.map_map, Option.map_map,
    applyRules_skip_failing hbefore hfails]
  rfl

end TransformInterceptor
end Transport
end Acdp
