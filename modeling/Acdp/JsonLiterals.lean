import Acdp.JsonPaths

/-!
# Values written in place

Values are put together from texts, lists and members, where a member that
comes later takes the place of an earlier one of its name.
-/

namespace Acdp
namespace Json

namespace OrderedValue

def ofString (text : String) : OrderedValue := ⟨.str text, .str text⟩

def ofNumber (number : Number) : OrderedValue :=
  ⟨.number number, .number number⟩

def ofList (elements : List OrderedValue) : OrderedValue where
  val := .array (elements.map Subtype.val)
  property := .array (fun element helement => by
    obtain ⟨value, _, rfl⟩ := List.mem_map.mp helement
    exact value.property)

/-- The member of a map under the name of a member of a literal. -/
def rawMember (member : String × OrderedValue) : String × Value :=
  (member.1, member.2.val)

def ofMembers (members : List (String × OrderedValue)) : OrderedValue where
  val := .object (collectMembers (members.map rawMember))
  property := .object (sorted_collectMembers _) (fun member hmember => by
    obtain ⟨given, _, rfl⟩ := List.mem_map.mp (mem_collectMembers hmember)
    exact given.2.property)

/-! ## What a name leads to -/

theorem lookup_map_rawMember (members : List (String × OrderedValue))
    (name : String) :
    (members.map rawMember).lookup name =
      (members.lookup name).map Subtype.val := by
  induction members with
  | nil => rfl
  | cons member rest ih =>
      obtain ⟨key, value⟩ := member
      rw [List.map_cons, rawMember, lookup_cons_eq_if, lookup_cons_eq_if]
      by_cases hname : name = key
      · rw [if_pos hname, if_pos hname]
        rfl
      · rw [if_neg hname, if_neg hname, ih]

theorem get_ofMembers {members : List (String × OrderedValue)}
    (hnames : (members.map Prod.fst).Nodup) (name : String) :
    (ofMembers members).get name = members.lookup name := by
  have hraw : ((members.map rawMember).map Prod.fst).Nodup := by
    rw [List.map_map]
    exact hnames
  apply Option.map_injective Subtype.val_injective
  rw [map_val_get]
  exact (lookup_collectMembers hraw name).trans
    (lookup_map_rawMember members name)

/-! ## Depth -/

@[simp] theorem fits_ofString (depth : ℕ) (text : String) :
    (ofString text).val.fits depth = true := by
  cases depth <;> rfl

theorem fits_ofList {depth : ℕ} {elements : List OrderedValue}
    (helements : ∀ element ∈ elements, element.val.fits depth = true) :
    (ofList elements).val.fits (depth + 1) = true := by
  simp only [ofList, Value.fits, List.all_map, List.all_eq_true]
  exact helements

theorem fits_ofMembers {depth : ℕ} {members : List (String × OrderedValue)}
    (hmembers : ∀ member ∈ members, member.2.val.fits depth = true) :
    (ofMembers members).val.fits (depth + 1) = true := by
  simp only [ofMembers, Value.fits, List.all_eq_true]
  intro member hmember
  obtain ⟨given, hgiven, rfl⟩ := List.mem_map.mp (mem_collectMembers hmember)
  exact hmembers given hgiven

end OrderedValue

end Json
end Acdp
