import Acdp.JsonRecords

/-!
# Objects that are extended

Members are inserted into an object under names of their own.  The object is
extended as long as no member that it has is written over with another value.
-/

namespace Acdp
namespace Json

theorem Value.Normal.object_parts {members : List (String × Value)}
    (hnormal : (Value.object members).Normal) :
    Sorted members ∧ ∀ member ∈ members, member.2.Normal := by
  cases hnormal with
  | object hsorted hmembers => exact ⟨hsorted, hmembers⟩

namespace OrderedMap

/-- `Map::new`. -/
def empty : OrderedMap where
  members := []
  sorted := List.Pairwise.nil
  normal := by simp

/-- `Map::insert`. -/
def insert (map : OrderedMap) (name : String) (value : OrderedValue) :
    OrderedMap where
  members := insertMember name value.val map.members
  sorted := sorted_insertMember map.sorted
  normal := by
    intro member hmember
    rcases mem_insertMember hmember with rfl | hold
    · exact value.property
    · exact map.normal member hold

/-- `Map::get`. -/
def find (map : OrderedMap) (name : String) : Option Value :=
  map.members.lookup name

/-- `Value::Object`. -/
def toValue (map : OrderedMap) : OrderedValue :=
  ⟨.object map.members, .object map.sorted map.normal⟩

/-- The members of an object, and none of anything else. -/
def ofValue? : Option OrderedValue → OrderedMap
  | some ⟨.object members, hnormal⟩ =>
      ⟨members, hnormal.object_parts.1, hnormal.object_parts.2⟩
  | _ => empty

theorem toValue_injective : Function.Injective toValue := by
  intro map other hsame
  obtain ⟨members, sorted, normal⟩ := map
  obtain ⟨others, _, _⟩ := other
  have hvalues := congrArg Subtype.val hsame
  obtain rfl : members = others := Value.object.inj hvalues
  rfl

@[simp] theorem find_empty (name : String) : empty.find name = none := rfl

theorem find_insert (map : OrderedMap) (key name : String)
    (value : OrderedValue) :
    (map.insert key value).find name =
      if name = key then some value.val else map.find name :=
  lookup_insertMember map.sorted key name value.val

theorem find_insert_self (map : OrderedMap) (name : String)
    (value : OrderedValue) :
    (map.insert name value).find name = some value.val := by
  rw [find_insert, if_pos rfl]

theorem find_insert_of_ne (map : OrderedMap) {key name : String}
    (hne : name ≠ key) (value : OrderedValue) :
    (map.insert key value).find name = map.find name := by
  rw [find_insert, if_neg hne]

/-- Every member is kept, and only the names listed are new. -/
structure Extends (names : List String) (before after : OrderedMap) :
    Prop where
  kept : ∀ name value, before.find name = some value →
    after.find name = some value
  others : ∀ name, name ∉ names → after.find name = before.find name

/-- A member of the name, if there is one, has the value already. -/
def Allows (map : OrderedMap) (name : String) (value : Value) : Prop :=
  ∀ old, map.find name = some old → old = value

theorem allows_empty (name : String) (value : Value) :
    empty.Allows name value := by
  intro old hold
  rw [find_empty] at hold
  cases hold

/-- Two members extend an object just when it allows both. -/
theorem extends_insert_insert_iff (map : OrderedMap) {first second : String}
    (hne : first ≠ second) (value other : OrderedValue) :
    Extends [first, second] map
        ((map.insert first value).insert second other) ↔
      map.Allows first value.val ∧ map.Allows second other.val := by
  have hfirst : ((map.insert first value).insert second other).find first =
      some value.val := by
    rw [find_insert_of_ne _ hne, find_insert_self]
  have hsecond : ((map.insert first value).insert second other).find second =
      some other.val :=
    find_insert_self _ _ _
  constructor
  · intro hextends
    constructor
    · intro old hold
      have hkept := hextends.kept first old hold
      rw [hfirst, Option.some.injEq] at hkept
      exact hkept.symm
    · intro old hold
      have hkept := hextends.kept second old hold
      rw [hsecond, Option.some.injEq] at hkept
      exact hkept.symm
  · rintro ⟨hallows, hallowsOther⟩
    have hrest : ∀ name, name ≠ first → name ≠ second →
        ((map.insert first value).insert second other).find name =
          map.find name := by
      intro name hname hother
      rw [find_insert_of_ne _ hother, find_insert_of_ne _ hname]
    constructor
    · intro name old hold
      by_cases hname : name = first
      · subst hname
        rw [hfirst, hallows old hold]
      · by_cases hother : name = second
        · subst hother
          rw [hsecond, hallowsOther old hold]
        · rw [hrest name hname hother, hold]
    · intro name hname
      simp only [List.mem_cons, List.not_mem_nil, or_false,
        not_or] at hname
      exact hrest name hname.1 hname.2

end OrderedMap
end Json
end Acdp
