import Acdp.LlmEnrichment
import Acdp.LlmPredictions

/-!
# The table of routing rules

Rules are entered with a confidence, which feedback changes later.  For a text
the rule of highest confidence is taken among those whose pattern is in the
text; which of several with the same confidence comes first is left to the
database.
-/

namespace Acdp
namespace Llm

open Auth (DateTime)

structure RoutingRuleRow extends RoutingRule where
  id : String
  pattern : String
  targetTool : String
  createdAt : DateTime
  updatedAt : DateTime
  enabled : Bool

/-- The rows of the table; the identifier is its primary key. -/
structure RoutingRulesDatabase where
  rows : List RoutingRuleRow
  ids_nodup : (rows.map RoutingRuleRow.id).Nodup

/-- `ORDER BY confidence DESC`. -/
structure ConfidenceOrder where
  arrange : List RoutingRuleRow → List RoutingRuleRow
  perm : ∀ rows, (arrange rows).Perm rows
  descending : ∀ rows, (arrange rows).Pairwise (fun first second =>
    Double.key second.confidence ≤ Double.key first.confidence)

namespace RoutingRuleRow

def withConfidence (self : RoutingRuleRow) (ruleId : String)
    (confidence : UInt64) (now : DateTime) : RoutingRuleRow :=
  if self.id = ruleId then
    { self with
      confidence := confidence
      updatedAt := now }
  else self

@[simp] theorem withConfidence_id (self : RoutingRuleRow) (ruleId : String)
    (confidence : UInt64) (now : DateTime) :
    (self.withConfidence ruleId confidence now).id = self.id := by
  unfold withConfidence
  split_ifs <;> rfl

end RoutingRuleRow

namespace RoutingRulesDatabase

def empty : RoutingRulesDatabase := ⟨[], List.nodup_nil⟩

variable (self : RoutingRulesDatabase)

def ids : List String := self.rows.map RoutingRuleRow.id

def insert (row : RoutingRuleRow) : Option RoutingRulesDatabase :=
  if hkey : row.id ∈ self.rows.map RoutingRuleRow.id then none
  else
    some ⟨self.rows ++ [row], by
      rw [List.map_append, List.map_singleton, List.nodup_append_comm]
      exact List.nodup_cons.mpr ⟨hkey, self.ids_nodup⟩⟩

def update (ruleId : String) (confidence : UInt64) (now : DateTime) :
    RoutingRulesDatabase where
  rows := self.rows.map (fun row => row.withConfidence ruleId confidence now)
  ids_nodup := by
    rw [List.map_map]
    convert self.ids_nodup using 2
    funext row
    exact row.withConfidence_id ruleId confidence now

/-- The row of a new rule; the identifier is the one that was drawn for it. -/
def newRow (id pattern targetTool targetTransport : String)
    (confidence : UInt64) (now : DateTime) : Option RoutingRuleRow :=
  (storedReal confidence).map fun stored =>
    { targetTransport := targetTransport
      confidence := stored
      id := id
      pattern := pattern
      targetTool := targetTool
      createdAt := now
      updatedAt := now
      enabled := true }

def createRule (id pattern targetTool targetTransport : String)
    (confidence : UInt64) (now : DateTime) : Option RoutingRulesDatabase :=
  (newRow id pattern targetTool targetTransport confidence now).bind
    self.insert

/-- Where no row has the identifier, nothing is refused. -/
def updateRuleConfidence (ruleId : String) (newConfidence : UInt64)
    (now : DateTime) : Option RoutingRulesDatabase :=
  match storedReal newConfidence with
  | some stored => some (self.update ruleId stored now)
  | none => if ruleId ∈ self.ids then none else some self

def findMatchingRule (order : ConfidenceOrder) (requestContent : String) :
    Option RoutingRuleRow :=
  (order.arrange (self.rows.filter RoutingRuleRow.enabled)).find?
    (fun rule => Text.contains requestContent rule.pattern)

/-! ## Calls -/

inductive Call where
  | createRule (id pattern targetTool targetTransport : String)
      (confidence : UInt64) (now : DateTime)
  | updateRuleConfidence (ruleId : String) (newConfidence : UInt64)
      (now : DateTime)

/-- A call that fails leaves the table as it is. -/
def call : Call → RoutingRulesDatabase
  | .createRule id pattern targetTool targetTransport confidence now =>
      (self.createRule id pattern targetTool targetTransport confidence
        now).getD self
  | .updateRuleConfidence ruleId newConfidence now =>
      (self.updateRuleConfidence ruleId newConfidence now).getD self

def after (calls : List Call) : RoutingRulesDatabase := calls.foldl call empty

namespace Call

/-- The row that a call enters where its identifier is free. -/
def newRow : Call → Option RoutingRuleRow
  | .createRule id pattern targetTool targetTransport confidence now =>
      RoutingRulesDatabase.newRow id pattern targetTool targetTransport
        confidence now
  | .updateRuleConfidence _ _ _ => none

/-- What a call makes of a row that is there. -/
def onRow (said : Call) (row : RoutingRuleRow) : RoutingRuleRow :=
  match said with
  | .createRule _ _ _ _ _ _ => row
  | .updateRuleConfidence ruleId newConfidence now =>
      (storedReal newConfidence).elim row
        (fun stored => row.withConfidence ruleId stored now)

theorem onRow_update (ruleId : String) (newConfidence : UInt64)
    (now : DateTime) (row : RoutingRuleRow) :
    (updateRuleConfidence ruleId newConfidence now).onRow row =
      (storedReal newConfidence).elim row
        (fun stored => row.withConfidence ruleId stored now) := rfl

theorem onRow_id (said : Call) (row : RoutingRuleRow) :
    (said.onRow row).id = row.id := by
  cases said with
  | createRule id pattern targetTool targetTransport confidence now => rfl
  | updateRuleConfidence ruleId newConfidence now =>
      rw [onRow_update]
      cases storedReal newConfidence with
      | none => rfl
      | some stored => exact row.withConfidence_id ruleId stored now

end Call

/-- A rule as the calls have made it: the first call to enter its identifier
entered it, and the later ones have changed it. -/
def MadeBy (calls : List Call) (rule : RoutingRuleRow) : Prop :=
  ∃ before creation later first, calls = before ++ creation :: later ∧
    creation.newRow = some first ∧
    (∀ earlier ∈ before, ∀ row, earlier.newRow = some row →
      row.id ≠ first.id) ∧
    rule = later.foldl (fun row said => said.onRow row) first

variable {self}

theorem rows_insert_getD (row : RoutingRuleRow) :
    ((self.insert row).getD self).rows =
      self.rows ++ if row.id ∈ self.ids then [] else [row] := by
  unfold insert ids
  by_cases hkey : row.id ∈ self.rows.map RoutingRuleRow.id
  · rw [dif_pos hkey, if_pos hkey, List.append_nil, Option.getD_none]
  · rw [dif_neg hkey, if_neg hkey, Option.getD_some]

/-- One call changes the rows that are there and may enter one more. -/
theorem rows_call (said : Call) :
    (self.call said).rows =
      self.rows.map said.onRow ++
        (said.newRow.filter (fun row => row.id ∉ self.ids)).toList := by
  cases said with
  | createRule id pattern targetTool targetTransport confidence now =>
      have hsame : self.rows.map (Call.onRow
          (.createRule id pattern targetTool targetTransport confidence
            now)) = self.rows := List.map_id _
      rw [hsame, call, createRule, Call.newRow]
      cases newRow id pattern targetTool targetTransport confidence now with
      | none => simp
      | some row =>
          rw [Option.bind_some, rows_insert_getD, Option.filter_some]
          by_cases hkey : row.id ∈ self.ids <;> simp [hkey]
  | updateRuleConfidence ruleId newConfidence now =>
      rw [Call.newRow, Option.filter_none, Option.toList_none,
        List.append_nil, call, updateRuleConfidence]
      cases hstored : storedReal newConfidence with
      | some stored =>
          apply List.map_congr_left
          intro row _
          rw [Call.onRow_update, hstored, Option.elim_some]
      | none =>
          have hsame : self.rows.map
              (Call.onRow (.updateRuleConfidence ruleId newConfidence now)) =
                self.rows := by
            apply List.map_id''
            intro row
            rw [Call.onRow_update, hstored, Option.elim_none]
          rw [hsame]
          dsimp only
          split_ifs <;> rfl

theorem ids_call (said : Call) (id : String) :
    id ∈ (self.call said).ids ↔
      id ∈ self.ids ∨ ∃ row, said.newRow = some row ∧ row.id = id := by
  have hmap : (self.rows.map said.onRow).map RoutingRuleRow.id =
      self.ids := by
    rw [List.map_map, ids]
    apply List.map_congr_left
    intro row _
    exact said.onRow_id row
  rw [ids, rows_call, List.map_append, hmap, List.mem_append]
  constructor
  · rintro (hold | hnew)
    · exact Or.inl hold
    · obtain ⟨row, hrow, rfl⟩ := List.mem_map.mp hnew
      rw [Option.mem_toList, Option.filter_eq_some_iff] at hrow
      exact Or.inr ⟨row, hrow.1, rfl⟩
  · rintro (hold | ⟨row, hrow, rfl⟩)
    · exact Or.inl hold
    · by_cases hkey : row.id ∈ self.ids
      · exact Or.inl hkey
      · right
        apply List.mem_map_of_mem
        rw [Option.mem_toList, Option.filter_eq_some_iff]
        exact ⟨hrow, by simpa using hkey⟩

theorem after_concat (calls : List Call) (last : Call) :
    after (calls ++ [last]) = (after calls).call last :=
  List.foldl_concat call empty last calls

theorem mem_ids_after_iff {calls : List Call} {id : String} :
    id ∈ (after calls).ids ↔
      ∃ said ∈ calls, ∃ row, said.newRow = some row ∧ row.id = id := by
  induction calls using List.reverseRecOn with
  | nil => simp [after, ids, empty]
  | append_singleton calls last ih =>
      rw [after_concat, ids_call, ih]
      simp only [List.mem_append, List.mem_singleton, or_and_right, exists_or,
        exists_eq_left]

theorem madeBy_concat_iff {calls : List Call} {last : Call}
    {rule : RoutingRuleRow} :
    MadeBy (calls ++ [last]) rule ↔
      (∃ old, MadeBy calls old ∧ last.onRow old = rule) ∨
        (last.newRow = some rule ∧ rule.id ∉ (after calls).ids) := by
  constructor
  · rintro ⟨before, creation, later, first, hcalls, hfirst, hfree, rfl⟩
    induction later using List.reverseRecOn with
    | nil =>
        obtain ⟨rfl, hlast⟩ := List.append_inj' hcalls rfl
        rw [List.cons.injEq] at hlast
        right
        refine ⟨by rw [hlast.1, hfirst, List.foldl_nil], ?_⟩
        rw [mem_ids_after_iff]
        rintro ⟨said, hsaid, row, hrow, hid⟩
        exact hfree said hsaid row hrow hid
    | append_singleton later final _ =>
        rw [← List.cons_append, ← List.append_assoc] at hcalls
        obtain ⟨rfl, hlast⟩ := List.append_inj' hcalls rfl
        rw [List.cons.injEq] at hlast
        left
        refine ⟨_, ⟨before, creation, later, first, rfl, hfirst, hfree, rfl⟩,
          ?_⟩
        rw [List.foldl_concat, hlast.1]
  · rintro (⟨old, ⟨before, creation, later, first, rfl, hfirst, hfree, rfl⟩,
      rfl⟩ | ⟨hnew, hfree⟩)
    · refine ⟨before, creation, later ++ [last], first, by simp, hfirst,
        hfree, ?_⟩
      rw [List.foldl_concat]
    · refine ⟨calls, last, [], rule, rfl, hnew, ?_, rfl⟩
      intro earlier hearlier row hrow hid
      exact hfree (mem_ids_after_iff.mpr ⟨earlier, hearlier, row, hrow, hid⟩)

/-- The table has the rules that the calls have made. -/
theorem mem_rows_after_iff {calls : List Call} {rule : RoutingRuleRow} :
    rule ∈ (after calls).rows ↔ MadeBy calls rule := by
  induction calls using List.reverseRecOn generalizing rule with
  | nil =>
      refine iff_of_false List.not_mem_nil ?_
      rintro ⟨before, creation, later, first, hcalls, _⟩
      cases before <;> cases hcalls
  | append_singleton calls last ih =>
      rw [after_concat, rows_call, madeBy_concat_iff, List.mem_append,
        List.mem_map, Option.mem_toList, Option.filter_eq_some_iff,
        decide_eq_true_iff]
      simp only [ih]

/-- No call disables a rule. -/
theorem enabled_after {calls : List Call} {rule : RoutingRuleRow}
    (hrule : rule ∈ (after calls).rows) : rule.enabled = true := by
  induction calls using List.reverseRecOn generalizing rule with
  | nil => exact absurd hrule List.not_mem_nil
  | append_singleton calls last ih =>
      rw [after_concat, rows_call, List.mem_append, List.mem_map,
        Option.mem_toList, Option.filter_eq_some_iff] at hrule
      rcases hrule with ⟨old, hold, rfl⟩ | ⟨hnew, _⟩
      · have henabled := ih hold
        cases last with
        | createRule id pattern targetTool targetTransport confidence now =>
            exact henabled
        | updateRuleConfidence ruleId newConfidence now =>
            rw [Call.onRow_update]
            cases storedReal newConfidence with
            | none => exact henabled
            | some stored =>
                rw [Option.elim_some, RoutingRuleRow.withConfidence]
                split_ifs <;> exact henabled
      · cases last with
        | createRule id pattern targetTool targetTransport confidence now =>
            rw [Call.newRow, newRow, Option.map_eq_some_iff] at hnew
            obtain ⟨stored, _, rfl⟩ := hnew
            rfl
        | updateRuleConfidence ruleId newConfidence now => cases hnew

/-! ## The rule for a text -/

/-- A rule of highest confidence among those in the text. -/
structure BestMatch (candidates : RoutingRuleRow → Prop) (content : String)
    (rule : RoutingRuleRow) : Prop where
  candidate : candidates rule
  matching : Text.contains content rule.pattern = true
  highest : ∀ other, candidates other →
    Text.contains content other.pattern = true →
      Double.key other.confidence ≤ Double.key rule.confidence

theorem mem_arrange_iff (order : ConfidenceOrder) {rule : RoutingRuleRow} :
    rule ∈ order.arrange (self.rows.filter RoutingRuleRow.enabled) ↔
      rule ∈ self.rows ∧ rule.enabled = true := by
  rw [(order.perm _).mem_iff, List.mem_filter]

theorem bestMatch_of_findMatchingRule {order : ConfidenceOrder}
    {content : String} {rule : RoutingRuleRow}
    (hfound : self.findMatchingRule order content = some rule) :
    BestMatch (fun row => row ∈ self.rows ∧ row.enabled = true) content
      rule := by
  have hordered :=
    order.descending (self.rows.filter RoutingRuleRow.enabled)
  obtain ⟨hmatching, before, later, hrows, hbefore⟩ :=
    List.find?_eq_some_iff_append.mp hfound
  constructor
  · rw [← mem_arrange_iff order]
    exact List.mem_of_find?_eq_some hfound
  · exact hmatching
  · intro other hother hcontains
    rw [← mem_arrange_iff order, hrows, List.mem_append, List.mem_cons]
      at hother
    rcases hother with hfirst | rfl | hlast
    · have hnot := hbefore other hfirst
      rw [hcontains] at hnot
      cases hnot
    · exact le_refl _
    · rw [hrows, List.pairwise_append, List.pairwise_cons] at hordered
      exact hordered.2.1.1 other hlast

theorem findMatchingRule_eq_none_iff {order : ConfidenceOrder}
    {content : String} :
    self.findMatchingRule order content = none ↔
      ∀ row ∈ self.rows, row.enabled = true →
        Text.contains content row.pattern = false := by
  unfold findMatchingRule
  rw [List.find?_eq_none]
  simp only [mem_arrange_iff, Bool.not_eq_true, and_imp]

/-- After any calls a rule is found for a text just when the pattern of one
that the calls have made is in the text, and it is a best one of those, with
the confidence that the last calls have left it. -/
theorem findMatchingRule_after (order : ConfidenceOrder) (calls : List Call)
    (content : String) :
    (∀ rule, (after calls).findMatchingRule order content = some rule →
      BestMatch (MadeBy calls) content rule) ∧
    ((after calls).findMatchingRule order content = none ↔
      ∀ rule, MadeBy calls rule →
        Text.contains content rule.pattern = false) := by
  constructor
  · intro rule hfound
    obtain ⟨hcandidate, hmatching, hhighest⟩ :=
      bestMatch_of_findMatchingRule hfound
    refine ⟨mem_rows_after_iff.mp hcandidate.1, hmatching, ?_⟩
    intro other hother
    have hrow := mem_rows_after_iff.mpr hother
    exact hhighest other ⟨hrow, enabled_after hrow⟩
  · rw [findMatchingRule_eq_none_iff]
    constructor
    · intro hnone rule hrule
      have hrow := mem_rows_after_iff.mpr hrule
      exact hnone rule hrow (enabled_after hrow)
    · intro hnone rule hrow _
      exact hnone rule (mem_rows_after_iff.mp hrow)

end RoutingRulesDatabase
end Llm
end Acdp
