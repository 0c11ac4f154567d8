import Acdp.TransportTransformLaws

/-!
# Renaming and counting up

Renaming takes a member out of its object and inserts its value under the
new name, over whatever was there.  Counting up reads the target as an `i64`
and adds one in that type.  This file determines when a rename leaves all
other members alone and when an integer is really counted up or left as it
is.
-/

namespace Acdp
namespace Transport

open Acdp.Core Json
open KeyedTree (Apart)

namespace TransformRule

variable {value result : OrderedValue} {parents : List String}
  {last newName : String}

/-! ## Renaming -/

theorem renameAtPath_concat (value : OrderedValue) (parents : List String)
    (last newName : String) :
    renameAtPath value (parents ++ [last]) newName =
      (OrderedValue.tree.updateAt
        (fun parent => parent.renameField last newName) parents value).getD
        value := by
  unfold renameAtPath
  rw [List.getLast?_concat, List.dropLast_concat]

/-- Only the key of the addressed member differs: its value stands under the
new name, and the other members of its object keep theirs. -/
structure KeyChanged (parents : List String) (last newName : String)
    (value result : OrderedValue) : Prop where
  moved : getAtPath result (parents ++ [newName]) =
    getAtPath value (parents ++ [last])
  gone : newName ≠ last → getAtPath result (parents ++ [last]) = none
  kept : ∀ other ≠ last, ∀ member,
    getAtPath value (parents ++ [other]) = some member →
      getAtPath result (parents ++ [other]) = some member
  added : ∀ other, other ≠ newName → other ≠ last →
    getAtPath value (parents ++ [other]) = none →
      getAtPath result (parents ++ [other]) = none
  frame : ∀ other, Apart parents other →
    getAtPath result other = getAtPath value other

/-- The rule changes the key of the addressed member and nothing else; where
it fails or addresses no member, the value stays as it is. -/
def RenamesOnly (build : TransformBuild) (rule : TransformRule)
    (newName : String) (value : OrderedValue) : Prop :=
  (∃ e, rule.applyToValue build value = some (.error e)) ∨
    ∃ result, rule.applyToValue build value = some (.ok result) ∧
      ∀ parents last, rule.pathParts = parents ++ [last] →
        if (getAtPath value rule.pathParts).isSome then
          KeyChanged parents last newName value result
        else result = value

/-- The new name is the old one, or no other member has it, unless with the
value that is moved there. -/
def NewNameFree (rule : TransformRule) (newName : String)
    (value : OrderedValue) : Prop :=
  ∀ parents last, rule.pathParts = parents ++ [last] →
    ∀ child, getAtPath value rule.pathParts = some child →
      newName = last ∨
        ∀ member, getAtPath value (parents ++ [newName]) = some member →
          member = child

theorem renameAtPath_of_none
    (hnone : getAtPath value (parents ++ [last]) = none) (newName : String) :
    renameAtPath value (parents ++ [last]) newName = value := by
  rw [renameAtPath_concat]
  cases hupdate : OrderedValue.tree.updateAt
      (fun parent => parent.renameField last newName) parents value with
  | none => rfl
  | some updated =>
      obtain ⟨parent, renamed, hparent, hrename⟩ :=
        KeyedTree.updateAt_isSome_iff.mp ⟨updated, hupdate⟩
      rw [getAtPath, KeyedTree.getAt_concat, hparent, Option.bind_some]
        at hnone
      rw [OrderedValue.renameField_of_get_none hnone] at hrename
      cases hrename

/-- The members of the object afterwards, name by name, and the rest of the
value. -/
theorem renameAtPath_of_some {child : OrderedValue}
    (hchild : getAtPath value (parents ++ [last]) = some child)
    (newName : String) :
    (∀ other,
      getAtPath (renameAtPath value (parents ++ [last]) newName)
          (parents ++ [other]) =
        if other = newName then some child
        else if other = last then none
        else getAtPath value (parents ++ [other])) ∧
      ∀ other, Apart parents other →
        getAtPath (renameAtPath value (parents ++ [last]) newName) other =
          getAtPath value other := by
  rw [getAtPath, KeyedTree.getAt_concat, Option.bind_eq_some_iff] at hchild
  obtain ⟨parent, hparent, hget⟩ := hchild
  obtain ⟨renamed, hrename, hmembers⟩ :=
    OrderedValue.renameField_of_get hget newName
  obtain ⟨updated, hupdate⟩ : ∃ updated, OrderedValue.tree.updateAt
      (fun parent => parent.renameField last newName) parents value =
      some updated :=
    KeyedTree.updateAt_isSome_iff.mpr ⟨parent, renamed, hparent, hrename⟩
  have hresult : renameAtPath value (parents ++ [last]) newName =
      updated := by
    rw [renameAtPath_concat, hupdate, Option.getD_some]
  have hrenamed :
      OrderedValue.tree.getAt parents updated = some renamed := by
    rw [KeyedTree.getAt_updateAt hupdate, hparent, Option.bind_some, hrename]
  rw [hresult]
  constructor
  · intro other
    rw [getAtPath, getAtPath, KeyedTree.getAt_concat, KeyedTree.getAt_concat,
      hrenamed, hparent, Option.bind_some, Option.bind_some]
    exact hmembers other
  · intro other hapart
    exact KeyedTree.getAt_updateAt_of_apart hupdate hapart

theorem keyChanged_renameAtPath_iff {child : OrderedValue}
    (hchild : getAtPath value (parents ++ [last]) = some child)
    (newName : String) :
    KeyChanged parents last newName value
        (renameAtPath value (parents ++ [last]) newName) ↔
      (newName = last ∨
        ∀ member, getAtPath value (parents ++ [newName]) = some member →
          member = child) := by
  obtain ⟨hmembers, hframe⟩ := renameAtPath_of_some hchild newName
  have hmoved := (hmembers newName).trans (if_pos rfl)
  constructor
  · intro hchanged
    by_cases hsame : newName = last
    · exact Or.inl hsame
    · right
      intro member hmember
      have hkept := hchanged.kept newName hsame member hmember
      rw [hmoved, Option.some.injEq] at hkept
      exact hkept.symm
  · intro hfree
    refine ⟨?_, ?_, ?_, ?_, hframe⟩
    · rw [hmoved, hchild]
    · intro hne
      rw [hmembers, if_neg (Ne.symm hne), if_pos rfl]
    · intro other hother member hmember
      rw [hmembers]
      split_ifs with hnew
      · rcases hfree with hsame | honly
        · exact absurd (hnew.trans hsame) hother
        · rw [hnew] at hmember
          rw [honly member hmember]
      · exact hmember
    · intro other hnew hother hnone
      rw [hmembers, if_neg hnew, if_neg hother]
      exact hnone

theorem renamesOnly_iff {build : TransformBuild} {rule : TransformRule}
    (hoperation : rule.operation = .rename newName) (value : OrderedValue) :
    rule.RenamesOnly build newName value ↔ rule.NewNameFree newName value := by
  obtain ⟨parents, last, hparts⟩ := rule.exists_pathParts_eq
  have happly : rule.applyToValue build value =
      some (.ok (renameAtPath value (parents ++ [last]) newName)) := by
    simp only [applyToValue, hoperation, hparts]
  have hunique : ∀ others other, parents ++ [last] = others ++ [other] →
      parents = others ∧ last = other := by
    intro others other hsame
    obtain ⟨hparents, hlast⟩ := List.append_inj' hsame rfl
    exact ⟨hparents, List.singleton_inj.mp hlast⟩
  unfold RenamesOnly NewNameFree
  rw [happly, hparts]
  cases hchild : getAtPath value (parents ++ [last]) with
  | none =>
      have hresult := renameAtPath_of_none hchild newName
      refine iff_of_true (Or.inr ⟨_, rfl, ?_⟩) ?_
      · intro others other _
        exact hresult
      · intro others other _ child hnone
        cases hnone
  | some child =>
      have hiff := keyChanged_renameAtPath_iff hchild newName
      constructor
      · rintro (⟨e, herror⟩ | ⟨result, hok, hchanged⟩)
        · cases herror
        · rw [Option.some.injEq, Except.ok.injEq] at hok
          have hkey := hchanged parents last rfl
          rw [← hok, if_pos Option.isSome_some] at hkey
          intro others other hsame found hfound
          obtain ⟨rfl, rfl⟩ := hunique others other hsame
          rw [← Option.some.inj hfound]
          exact hiff.mp hkey
      · intro hfree
        refine Or.inr ⟨_, rfl, ?_⟩
        intro others other hsame
        obtain ⟨rfl, rfl⟩ := hunique others other hsame
        rw [if_pos Option.isSome_some]
        exact hiff.mpr (hfree parents last rfl child rfl)

/-! ## Counting up -/

/-- The integer that a value holds, if it is one. -/
def integerOf : Value → Option ℤ
  | .number (.posInt n) => some n.toNat
  | .number (.negInt n _ _) => some n
  | _ => none

theorem integerOf_numberOfInt64 (n : Int64) :
    integerOf (.number (Llm.numberOfInt64 n)) = some n.toInt := by
  have hupper := n.toInt_lt
  unfold Llm.numberOfInt64
  split_ifs with hsign
  · have hword : (UInt64.ofNat n.toInt.toNat).toNat = n.toInt.toNat :=
      UInt64.toNat_ofNat_of_lt' (by
        have hsize : UInt64.size = 2 ^ 64 := rfl
        omega)
    simp only [integerOf, hword, Int.toNat_of_nonneg hsign]
  · rfl

/-- An integer is read as an `i64` when it is below the maximum of the type
or equal to it. -/
theorem asI64_of_integerOf {value : Value} {n : ℤ}
    (hinteger : integerOf value = some n) :
    (n ≤ 2 ^ 63 - 1 ∧ ∃ word, asI64 value = some word ∧ word.toInt = n) ∨
      (2 ^ 63 - 1 < n ∧ asI64 value = none) := by
  cases value with
  | number number =>
      cases number with
      | posInt word =>
          have hword : (word.toNat : ℤ) = n := Option.some.inj hinteger
          by_cases hlow : word.toNat < 2 ^ 63
          · refine Or.inl ⟨by omega, Int64.ofNat word.toNat, ?_, ?_⟩
            · simp only [asI64, Number.asI64, hlow, if_true]
            · rw [Int64.toInt_ofNat_of_lt hlow, hword]
          · refine Or.inr ⟨by omega, ?_⟩
            simp only [asI64, Number.asI64, hlow, if_false]
      | negInt low lower negative =>
          have hlow : low = n := Option.some.inj hinteger
          refine Or.inl ⟨by omega, Int64.ofInt low, rfl, ?_⟩
          rw [Int64.toInt_ofInt_of_le lower (by omega), hlow]
      | float bits => cases hinteger
  | _ => cases hinteger

theorem toInt_add_one {n : Int64} (hbelow : n.toInt ≠ 2 ^ 63 - 1) :
    (n + 1).toInt = n.toInt + 1 := by
  have hlower := n.le_toInt
  have hupper := n.toInt_lt
  have hone : (1 : Int64).toInt = 1 := by decide
  rw [Int64.toInt_add, hone]
  exact Int.bmod_eq_of_le (by omega) (by omega)

theorem asI64_of_integerOf_none {value : Value}
    (hinteger : integerOf value = none) : asI64 value = none := by
  cases value with
  | number number =>
      cases number with
      | posInt word => cases hinteger
      | negInt low lower negative => cases hinteger
      | float bits => rfl
  | _ => rfl

/-- The place at the path holds the next integer, and places apart from it
hold what they held. -/
structure CountedUp (path : List String) (n : ℤ)
    (value result : OrderedValue) : Prop where
  counted : ∃ next, getAtPath result path = some next ∧
    integerOf next.val = some (n + 1)
  frame : ∀ other, Apart path other →
    getAtPath result other = getAtPath value other

/-- The rule returns, with the addressed integer counted up or the value as
it was. -/
def IncrementsOnly (build : TransformBuild) (rule : TransformRule)
    (value : OrderedValue) : Prop :=
  ∃ result, rule.applyToValue build value = some (.ok result) ∧
    (result = value ∨
      ∃ target n, getAtPath value rule.pathParts = some target ∧
        integerOf target.val = some n ∧
        CountedUp rule.pathParts n value result)

/-- The path does not lead to the greatest `i64`. -/
def NotAtMaximum (rule : TransformRule) (value : OrderedValue) : Prop :=
  ∀ target, getAtPath value rule.pathParts = some target →
    integerOf target.val ≠ some (2 ^ 63 - 1)

section Increment

variable {build : TransformBuild} {path : List String}
  {target : OrderedValue}

theorem functionOf_increment_of_none (build : TransformBuild)
    (hword : asI64 target.val = none) :
    functionOf build "increment" target = some (.ok target) := by
  simp [functionOf, hword]

theorem functionOf_increment_of_some {word : Int64} (build : TransformBuild)
    (hword : asI64 target.val = some word) :
    functionOf build "increment" target =
      (incremented build word).map (fun next =>
        .ok ⟨.number (Llm.numberOfInt64 next), .number _⟩) := by
  simp [functionOf, hword]

theorem applyFunction_of_fixed {funcName : String}
    (htarget : getAtPath value path = some target)
    (hfixed : functionOf build funcName target = some (.ok target))
    (args : List OrderedValue) :
    applyFunction build value path funcName args = some (.ok value) := by
  have hupdate : OrderedValue.tree.updateAt (fun _ => some target) path
      value = some value :=
    KeyedTree.updateAt_of_fixed htarget rfl
  simp only [applyFunction, htarget, hfixed, Option.map_some, Except.map,
    hupdate, Option.getD_some]

/-- What a function makes of the target stands at the path afterwards. -/
theorem applyFunction_of_changed {funcName : String} {changed : OrderedValue}
    (htarget : getAtPath value path = some target)
    (hchanged : functionOf build funcName target = some (.ok changed))
    (args : List OrderedValue) :
    ∃ result,
      applyFunction build value path funcName args = some (.ok result) ∧
      getAtPath result path = some changed ∧
      ∀ other, Apart path other →
        getAtPath result other = getAtPath value other := by
  obtain ⟨updated, hupdate⟩ : ∃ updated, OrderedValue.tree.updateAt
      (fun _ => some changed) path value = some updated :=
    KeyedTree.updateAt_isSome_iff.mpr ⟨target, changed, htarget, rfl⟩
  refine ⟨updated, ?_, ?_, ?_⟩
  · simp only [applyFunction, htarget, hchanged, Option.map_some, Except.map,
      hupdate, Option.getD_some]
  · have hread := KeyedTree.getAt_updateAt hupdate
    change OrderedValue.tree.getAt path value = some target at htarget
    rw [htarget] at hread
    exact hread
  · intro other hapart
    exact KeyedTree.getAt_updateAt_of_apart hupdate hapart

theorem incremented_of_ne_max {word : Int64}
    (hbelow : word.toInt ≠ 2 ^ 63 - 1) :
    incremented build word = some (word + 1) := by
  have hne : word ≠ Int64.maxValue := by
    rintro rfl
    exact hbelow (by decide)
  simp [incremented, hne]

/-- At the greatest integer the sum panics or wraps to the least. -/
theorem incremented_max {word : Int64} (hmax : word.toInt = 2 ^ 63 - 1)
    {next : Int64} (hnext : incremented build word = some next) :
    next.toInt = -2 ^ 63 := by
  have hword : word = Int64.maxValue := by
    rw [← Int64.toInt_inj, hmax]
    decide
  rw [hword, incremented] at hnext
  split_ifs at hnext with hchecks
  rw [Option.some.injEq] at hnext
  rw [← hnext]
  decide

/-- An integer below the maximum is counted up. -/
theorem countedUp_of_ne_max {word : Int64}
    (htarget : getAtPath value path = some target)
    (hword : asI64 target.val = some word)
    (hbelow : word.toInt ≠ 2 ^ 63 - 1) (build : TransformBuild)
    (args : List OrderedValue) :
    ∃ result,
      applyFunction build value path "increment" args =
        some (.ok result) ∧
      CountedUp path word.toInt value result := by
  have hchanged : functionOf build "increment" target =
      some (.ok ⟨.number (Llm.numberOfInt64 (word + 1)), .number _⟩) := by
    rw [functionOf_increment_of_some build hword, incremented_of_ne_max hbelow,
      Option.map_some]
  obtain ⟨result, happly, hread, hframe⟩ :=
    applyFunction_of_changed htarget hchanged args
  refine ⟨result, happly, ⟨_, hread, ?_⟩, hframe⟩
  rw [integerOf_numberOfInt64, toInt_add_one hbelow]

/-- The maximum is never counted up: the sum panics, or the least integer
stands in its place. -/
theorem integerOf_of_max {word : Int64} {args : List OrderedValue}
    {result : OrderedValue}
    (htarget : getAtPath value path = some target)
    (hword : asI64 target.val = some word)
    (hmax : word.toInt = 2 ^ 63 - 1)
    (happly : applyFunction build value path "increment" args =
      some (.ok result)) :
    ∃ after, getAtPath result path = some after ∧
      integerOf after.val = some (-2 ^ 63) := by
  have hfunction := functionOf_increment_of_some build hword
  cases hnext : incremented build word with
  | none =>
      rw [hnext, Option.map_none] at hfunction
      simp only [applyFunction, htarget, hfunction, Option.map_none] at happly
      cases happly
  | some next =>
      rw [hnext, Option.map_some] at hfunction
      obtain ⟨updated, hupdated, hread, -⟩ :=
        applyFunction_of_changed htarget hfunction args
      rw [happly, Option.some.injEq, Except.ok.injEq] at hupdated
      refine ⟨_, hupdated ▸ hread, ?_⟩
      rw [integerOf_numberOfInt64, incremented_max hmax hnext]

/-- Of the integers that are read as an `i64` all but the maximum are counted
up or left as they are. -/
theorem increment_counts_iff {word : Int64}
    (htarget : getAtPath value path = some target)
    (hword : asI64 target.val = some word)
    (hinteger : integerOf target.val = some word.toInt)
    (args : List OrderedValue) :
    (∃ result, applyFunction build value path "increment" args =
        some (.ok result) ∧
      (result = value ∨
        ∃ target n, getAtPath value path = some target ∧
          integerOf target.val = some n ∧ CountedUp path n value result)) ↔
      word.toInt ≠ 2 ^ 63 - 1 := by
  constructor
  · rintro ⟨result, hresult, hchange⟩ hmax
    obtain ⟨after, hafter, hleast⟩ :=
      integerOf_of_max htarget hword hmax hresult
    rcases hchange with hsame | ⟨found, n, hfound, hn, hcounted⟩
    · rw [hsame, htarget, Option.some.injEq] at hafter
      rw [← hafter, hinteger, hmax, Option.some.injEq] at hleast
      omega
    · obtain ⟨next, hnext, hsucc⟩ := hcounted.counted
      rw [hafter, Option.some.injEq] at hnext
      rw [htarget, Option.some.injEq] at hfound
      rw [← hfound, hinteger, hmax, Option.some.injEq] at hn
      rw [← hnext, hleast, Option.some.injEq] at hsucc
      omega
  · intro hbelow
    obtain ⟨result, hresult, hcounted⟩ :=
      countedUp_of_ne_max htarget hword hbelow build args
    exact ⟨result, hresult,
      Or.inr ⟨target, word.toInt, htarget, hinteger, hcounted⟩⟩

end Increment

theorem incrementsOnly_iff {build : TransformBuild} {rule : TransformRule}
    {args : List OrderedValue}
    (hoperation : rule.operation = .function "increment" args)
    (value : OrderedValue) :
    rule.IncrementsOnly build value ↔ rule.NotAtMaximum value := by
  have happly : rule.applyToValue build value =
      applyFunction build value rule.pathParts "increment" args := by
    simp only [applyToValue, hoperation]
  unfold IncrementsOnly NotAtMaximum
  rw [happly]
  cases htarget : getAtPath value rule.pathParts with
  | none =>
      have hvalue : applyFunction build value rule.pathParts "increment"
          args = some (.ok value) := by
        simp only [applyFunction, htarget]
      refine iff_of_true ⟨value, hvalue, Or.inl rfl⟩ ?_
      intro target hnone
      cases hnone
  | some target =>
      have hcondition :
          (∀ found, some target = some found →
            integerOf found.val ≠ some (2 ^ 63 - 1)) ↔
            integerOf target.val ≠ some (2 ^ 63 - 1) := by
        simp
      rw [hcondition]
      cases hinteger : integerOf target.val with
      | none =>
          have hfixed := applyFunction_of_fixed htarget
            (functionOf_increment_of_none build
              (asI64_of_integerOf_none hinteger)) args
          exact iff_of_true ⟨value, hfixed, Or.inl rfl⟩ (by simp)
      | some n =>
          rcases asI64_of_integerOf hinteger with
            ⟨hfits, word, hword, rfl⟩ | ⟨hbeyond, hnone⟩
          · rw [← htarget, increment_counts_iff htarget hword hinteger args,
              ne_eq, ne_eq, Option.some.injEq]
          · have hfixed := applyFunction_of_fixed htarget
              (functionOf_increment_of_none build hnone) args
            refine iff_of_true ⟨value, hfixed, Or.inl rfl⟩ ?_
            rw [ne_eq, Option.some.injEq]
            omega

/-! ## Both operations -/

/-- A rename changes nothing but one key exactly where the new name is free,
and an increment counts up or leaves the value exactly where the path does
not lead to the greatest `i64`. -/
theorem renameAndIncrement_iff (build : TransformBuild) (rule : TransformRule)
    (value : OrderedValue) :
    (∀ newName, rule.operation = .rename newName →
      (rule.RenamesOnly build newName value ↔
        rule.NewNameFree newName value)) ∧
    ∀ args, rule.operation = .function "increment" args →
      (rule.IncrementsOnly build value ↔ rule.NotAtMaximum value) := by
  constructor
  · intro newName hoperation
    exact renamesOnly_iff hoperation value
  · intro args hoperation
    exact incrementsOnly_iff hoperation value

/-! A message whose object has a member of the new name already, and a
counter at the maximum. -/

def asciiBuild : TransformBuild where
  lower := ⟨fun char => [char], fun _ => false, fun _ => false⟩
  upper := fun char => [char]
  overflowChecks := true

def renameDraft : TransformRule where
  name := "publish"
  methodPattern := "*"
  path := "draft"
  operation := .rename "final"

def twoTexts : OrderedValue where
  val := .object [("draft", .str "new"), ("final", .str "old")]
  property := .object (by unfold Sorted; decide +kernel) (by
    intro member hmember
    simp only [List.mem_cons, List.not_mem_nil, or_false] at hmember
    rcases hmember with rfl | rfl <;> exact .str _)

def incrementCount : TransformRule where
  name := "count"
  methodPattern := "*"
  path := "count"
  operation := .function "increment" []

def fullCounter : OrderedValue where
  val := .object [("count", .number (Llm.numberOfInt64 Int64.maxValue))]
  property := .object (List.pairwise_singleton _ _) (by
    intro member hmember
    rw [List.mem_singleton.mp hmember]
    exact .number _)

/-- The member of the new name loses its text, and the counter panics where
overflows are checked and wraps around where they are not. -/
theorem renameDraft_destroys_final :
    ¬ renameDraft.RenamesOnly asciiBuild "final" twoTexts ∧
    ¬ incrementCount.IncrementsOnly asciiBuild fullCounter ∧
    ¬ incrementCount.IncrementsOnly { asciiBuild with overflowChecks := false }
        fullCounter := by
  have hdraft : renameDraft.pathParts = [] ++ ["draft"] := by decide +kernel
  have hcount : incrementCount.pathParts = ["count"] := by decide +kernel
  have hfull : ∃ target, getAtPath fullCounter ["count"] = some target ∧
      integerOf target.val = some (2 ^ 63 - 1) :=
    ⟨⟨_, .number _⟩, rfl, by decide +kernel⟩
  obtain ⟨target, htarget, hinteger⟩ := hfull
  have hmaximum : ¬ incrementCount.NotAtMaximum fullCounter := by
    intro hbelow
    exact hbelow target (by rw [hcount, htarget]) hinteger
  refine ⟨?_, ?_, ?_⟩
  · rw [renamesOnly_iff rfl]
    intro hfree
    have hdraftValue : getAtPath twoTexts renameDraft.pathParts =
        some ⟨.str "new", .str _⟩ := by
      rw [hdraft]
      rfl
    rcases hfree [] "draft" hdraft _ hdraftValue with hsame | honly
    · exact absurd hsame (by decide)
    · have hold := honly ⟨.str "old", .str _⟩ rfl
      have htexts := Value.str.inj (congrArg Subtype.val hold)
      exact absurd htexts (by decide)
  · rw [incrementsOnly_iff rfl]
    exact hmaximum
  · rw [incrementsOnly_iff rfl]
    exact hmaximum

end TransformRule
end Transport
end Acdp
