import Acdp.JsonRecords
import Acdp.KeyedTrees

/-!
# Paths through JSON values

The members of objects make JSON values a keyed tree; arrays and scalars have
no children under names.  Inserting, removing and renaming a member act on
one object and are described by what the names of the object lead to.
-/

namespace Acdp
namespace Json

section Members

variable {α : Type*}

/-- `Map::remove`. -/
def removeMember (name : String) (members : List (String × α)) :
    List (String × α) :=
  members.filter (fun member => member.1 != name)

theorem sorted_removeMember {members : List (String × α)}
    (hsorted : Sorted members) (name : String) :
    Sorted (removeMember name members) :=
  hsorted.filter _

theorem lookup_removeMember (name other : String)
    (members : List (String × α)) :
    (removeMember name members).lookup other =
      if other = name then none else members.lookup other := by
  induction members with
  | nil => simp [removeMember]
  | cons head rest ih =>
      obtain ⟨key, value⟩ := head
      rw [lookup_cons_eq_if]
      by_cases hkey : key = name
      · have hdrop : removeMember name ((key, value) :: rest) =
            removeMember name rest := by
          simp [removeMember, hkey]
        rw [hdrop, ih, hkey]
        by_cases hother : other = name
        · rw [if_pos hother, if_pos hother]
        · rw [if_neg hother, if_neg hother, if_neg hother]
      · have hkeep : removeMember name ((key, value) :: rest) =
            (key, value) :: removeMember name rest := by
          simp [removeMember, hkey]
        rw [hkeep, lookup_cons_eq_if, ih]
        by_cases hother : other = key
        · have hne : other ≠ name := hother ▸ hkey
          rw [if_pos hother, if_neg hne, if_pos hother]
        · rw [if_neg hother, if_neg hother]

end Members

namespace OrderedValue

/-- `Value::as_object_mut` and `Map::insert`; `none` where the value is no
object. -/
def insertField (value : OrderedValue) (name : String)
    (child : OrderedValue) : Option OrderedValue :=
  match value with
  | ⟨.object members, hnormal⟩ =>
      some ⟨.object (insertMember name child.val members), by
        cases hnormal with
        | object hsorted hmembers =>
            refine .object (sorted_insertMember hsorted) ?_
            intro member hmember
            rcases mem_insertMember hmember with hnew | hold
            · rw [hnew]
              exact child.property
            · exact hmembers member hold⟩
  | _ => none

/-- `Value::as_object_mut` and `Map::remove`. -/
def removeField (value : OrderedValue) (name : String) :
    Option OrderedValue :=
  match value with
  | ⟨.object members, hnormal⟩ =>
      some ⟨.object (removeMember name members), by
        cases hnormal with
        | object hsorted hmembers =>
            refine .object (sorted_removeMember hsorted name) ?_
            intro member hmember
            exact hmembers member (List.mem_of_mem_filter hmember)⟩
  | _ => none

theorem map_val_get (value : OrderedValue) (name : String) :
    (value.get name).map Subtype.val = value.val.get name := by
  unfold get
  split
  · simp_all
  · simp_all

theorem get_eq_some_iff {value child : OrderedValue} {name : String} :
    value.get name = some child ↔ value.val.get name = some child.val := by
  rw [← map_val_get, Option.map_eq_some_iff]
  constructor
  · intro hget
    exact ⟨child, hget, rfl⟩
  · rintro ⟨found, hget, hval⟩
    rw [hget, Subtype.ext hval]

theorem get_eq_iff {value other : OrderedValue} {name key : String} :
    value.get name = other.get key ↔
      value.val.get name = other.val.get key := by
  rw [← map_val_get, ← map_val_get]
  exact (Option.map_injective Subtype.val_injective).eq_iff.symm

theorem get_eq_none_iff {value : OrderedValue} {name : String} :
    value.get name = none ↔ value.val.get name = none := by
  rw [← map_val_get, Option.map_eq_none_iff]

/-- Members of an object, as the one shape that has any. -/
theorem sorted_of_object {value : OrderedValue}
    {members : List (String × Value)} (hvalue : value.val = .object members) :
    Sorted members := by
  have hnormal := value.property
  rw [hvalue] at hnormal
  cases hnormal with
  | object hsorted _ => exact hsorted

theorem insertField_eq_some {value child updated : OrderedValue}
    {name : String} (hinsert : value.insertField name child = some updated) :
    ∃ members, value.val = .object members ∧
      updated.val = .object (insertMember name child.val members) := by
  unfold insertField at hinsert
  split at hinsert
  · rw [Option.some.injEq] at hinsert
    exact ⟨_, rfl, by rw [← hinsert]⟩
  · cases hinsert

theorem insertField_of_object {value : OrderedValue}
    {members : List (String × Value)} (hvalue : value.val = .object members)
    (name : String) (child : OrderedValue) :
    ∃ updated, value.insertField name child = some updated := by
  obtain ⟨raw, hnormal⟩ := value
  obtain rfl : raw = .object members := hvalue
  exact ⟨_, rfl⟩

theorem removeField_eq_some {value updated : OrderedValue} {name : String}
    (hremove : value.removeField name = some updated) :
    ∃ members, value.val = .object members ∧
      updated.val = .object (removeMember name members) := by
  unfold removeField at hremove
  split at hremove
  · rw [Option.some.injEq] at hremove
    exact ⟨_, rfl, by rw [← hremove]⟩
  · cases hremove

theorem removeField_of_object {value : OrderedValue}
    {members : List (String × Value)} (hvalue : value.val = .object members)
    (name : String) : ∃ updated, value.removeField name = some updated := by
  obtain ⟨raw, hnormal⟩ := value
  obtain rfl : raw = .object members := hvalue
  exact ⟨_, rfl⟩

theorem exists_object_of_get {value child : OrderedValue} {name : String}
    (hget : value.get name = some child) :
    ∃ members, value.val = .object members := by
  rw [get_eq_some_iff] at hget
  cases hvalue : value.val with
  | object members => exact ⟨members, rfl⟩
  | _ => simp [hvalue, Value.get] at hget

theorem get_insertField {value child updated : OrderedValue} {name : String}
    (hinsert : value.insertField name child = some updated) (other : String) :
    updated.get other = if other = name then some child
      else value.get other := by
  obtain ⟨members, hvalue, hupdated⟩ := insertField_eq_some hinsert
  have hlookup := lookup_insertMember (sorted_of_object hvalue) name other
    child.val
  by_cases hother : other = name
  · rw [if_pos hother] at hlookup ⊢
    rw [get_eq_some_iff, hupdated]
    exact hlookup
  · rw [if_neg hother] at hlookup ⊢
    rw [get_eq_iff, hupdated, hvalue]
    exact hlookup

theorem get_removeField {value updated : OrderedValue} {name : String}
    (hremove : value.removeField name = some updated) (other : String) :
    updated.get other = if other = name then none else value.get other := by
  obtain ⟨members, hvalue, hupdated⟩ := removeField_eq_some hremove
  have hlookup := lookup_removeMember name other members
  by_cases hother : other = name
  · rw [if_pos hother] at hlookup ⊢
    rw [get_eq_none_iff, hupdated]
    exact hlookup
  · rw [if_neg hother] at hlookup ⊢
    rw [get_eq_iff, hupdated, hvalue]
    exact hlookup

/-- Objects are equal when their names lead to the same values. -/
theorem eq_of_get {value other : OrderedValue}
    {members others : List (String × Value)}
    (hvalue : value.val = .object members)
    (hother : other.val = .object others)
    (hget : ∀ name, value.get name = other.get name) : value = other := by
  apply Subtype.ext
  rw [hvalue, hother]
  congr 1
  apply eq_of_lookup (sorted_of_object hvalue) (sorted_of_object hother)
  intro name
  have hname := get_eq_iff.mp (hget name)
  rw [hvalue, hother] at hname
  exact hname

theorem insertField_get {value child : OrderedValue} {name : String}
    (hget : value.get name = some child) :
    value.insertField name child = some value := by
  obtain ⟨members, hvalue⟩ := exists_object_of_get hget
  obtain ⟨updated, hinsert⟩ := insertField_of_object hvalue name child
  obtain ⟨_, _, hupdated⟩ := insertField_eq_some hinsert
  rw [hinsert, Option.some.injEq]
  apply eq_of_get hupdated hvalue
  intro other
  rw [get_insertField hinsert]
  split_ifs with hother
  · rw [hother, hget]
  · rfl

theorem removeField_get_none {value : OrderedValue}
    {members : List (String × Value)} {name : String}
    (hvalue : value.val = .object members) (hget : value.get name = none) :
    value.removeField name = some value := by
  obtain ⟨updated, hremove⟩ := removeField_of_object hvalue name
  obtain ⟨_, _, hupdated⟩ := removeField_eq_some hremove
  rw [hremove, Option.some.injEq]
  apply eq_of_get hupdated hvalue
  intro other
  rw [get_removeField hremove]
  split_ifs with hother
  · rw [hother, hget]
  · rfl

/-- Values as a tree whose children are the members of objects. -/
def tree : KeyedTree String OrderedValue where
  get := OrderedValue.get
  put := OrderedValue.insertField
  get_put := get_insertField
  put_of_get := by
    intro value name child hget replacement
    obtain ⟨members, hvalue⟩ := exists_object_of_get hget
    exact insertField_of_object hvalue name replacement
  put_get := insertField_get

/-- `Map::remove` and, where there was a member, `Map::insert` under the new
name. -/
def renameField (value : OrderedValue) (name newName : String) :
    Option OrderedValue := do
  let child ← value.get name
  let removed ← value.removeField name
  removed.insertField newName child

theorem renameField_of_get {value child : OrderedValue} {name : String}
    (hget : value.get name = some child) (newName : String) :
    ∃ renamed, value.renameField name newName = some renamed ∧
      ∀ other, renamed.get other =
        if other = newName then some child
        else if other = name then none
        else value.get other := by
  obtain ⟨members, hvalue⟩ := exists_object_of_get hget
  obtain ⟨removed, hremove⟩ := removeField_of_object hvalue name
  obtain ⟨_, _, hremoved⟩ := removeField_eq_some hremove
  obtain ⟨renamed, hinsert⟩ := insertField_of_object hremoved newName child
  refine ⟨renamed, ?_, ?_⟩
  · rw [renameField, hget, Option.bind_eq_bind, Option.bind_some, hremove]
    exact hinsert
  · intro other
    rw [get_insertField hinsert, get_removeField hremove]

theorem renameField_of_get_none {value : OrderedValue} {name : String}
    (hget : value.get name = none) (newName : String) :
    value.renameField name newName = none := by
  rw [renameField, hget]
  rfl

/-! Each operation on one object may succeed without a change. -/

theorem insertField_changes_iff {value child : OrderedValue} {name : String} :
    (∃ updated, value.insertField name child = some updated ∧
        updated ≠ value) ↔
      (∃ members, value.val = .object members) ∧
        value.get name ≠ some child := by
  constructor
  · rintro ⟨updated, hinsert, hne⟩
    obtain ⟨members, hobject, _⟩ := insertField_eq_some hinsert
    refine ⟨⟨members, hobject⟩, ?_⟩
    intro hpresent
    rw [insertField_get hpresent, Option.some.injEq] at hinsert
    exact hne hinsert.symm
  · rintro ⟨⟨members, hobject⟩, habsent⟩
    obtain ⟨updated, hinsert⟩ := insertField_of_object hobject name child
    refine ⟨updated, hinsert, ?_⟩
    rintro rfl
    exact habsent ((get_insertField hinsert name).trans (if_pos rfl))

theorem removeField_changes_iff {value : OrderedValue} {name : String} :
    (∃ updated, value.removeField name = some updated ∧ updated ≠ value) ↔
      (value.get name).isSome = true := by
  constructor
  · rintro ⟨updated, hremove, hne⟩
    obtain ⟨members, hobject, _⟩ := removeField_eq_some hremove
    rw [Option.isSome_iff_ne_none]
    intro habsent
    rw [removeField_get_none hobject habsent, Option.some.injEq] at hremove
    exact hne hremove.symm
  · intro hpresent
    obtain ⟨child, hchild⟩ := Option.isSome_iff_exists.mp hpresent
    obtain ⟨members, hobject⟩ := exists_object_of_get hchild
    obtain ⟨updated, hremove⟩ := removeField_of_object hobject name
    refine ⟨updated, hremove, ?_⟩
    rintro rfl
    have hgone := (get_removeField hremove name).trans (if_pos rfl)
    rw [hchild] at hgone
    cases hgone

theorem renameField_self {value child : OrderedValue} {name : String}
    (hget : value.get name = some child) :
    value.renameField name name = some value := by
  obtain ⟨renamed, hrename, hmembers⟩ := renameField_of_get hget name
  obtain ⟨members, hobject⟩ := exists_object_of_get hget
  obtain ⟨others, hrenamed⟩ : ∃ others, renamed.val = .object others :=
    exists_object_of_get ((hmembers name).trans (if_pos rfl))
  rw [hrename, Option.some.injEq]
  apply eq_of_get hrenamed hobject
  intro other
  rw [hmembers]
  split_ifs with hother
  · rw [hother, hget]
  · rfl

theorem renameField_changes_iff {value : OrderedValue}
    {name newName : String} :
    (∃ updated, value.renameField name newName = some updated ∧
        updated ≠ value) ↔
      (value.get name).isSome = true ∧ newName ≠ name := by
  cases hget : value.get name with
  | none => simp [renameField_of_get_none hget]
  | some child =>
      obtain ⟨renamed, hrename, hmembers⟩ := renameField_of_get hget newName
      constructor
      · rintro ⟨updated, hupdated, hne⟩
        refine ⟨rfl, ?_⟩
        rintro rfl
        rw [renameField_self hget, Option.some.injEq] at hupdated
        exact hne hupdated.symm
      · rintro ⟨_, hname⟩
        refine ⟨renamed, hrename, ?_⟩
        rintro rfl
        have hgone := hmembers name
        rw [if_neg (Ne.symm hname), if_pos rfl, hget] at hgone
        cases hgone

end OrderedValue
end Json
end Acdp
