import Mathlib.Data.String.Basic
import Mathlib.Tactic

/-!
# Paths by their components

A path is a text whose names stand between slashes.  Empty names and points
do not count when paths are compared, but for a slash or a point that the
path begins with.
-/

namespace Acdp
namespace Paths

/-! ## Parts between slashes -/

def parts (path : String) : List String :=
  (path.toList.splitOn '/').map String.ofList

theorem splitOnAux_slash (text : String) (start position : String.Pos.Raw)
    (found : List String) :
    text.splitOnAux "/" start position 0 found =
      text.splitAux (· == '/') start position found := by
  have hget : String.Pos.Raw.get "/" 0 = '/' := rfl
  have hnext : String.Pos.Raw.next "/" 0 = ⟨1⟩ := rfl
  have hend : String.Pos.Raw.atEnd "/" ⟨1⟩ = true := rfl
  fun_induction String.splitAux text (· == '/') start position found with
  | case1 start position found hdone found' =>
      unfold String.splitOnAux
      rw [if_pos hdone]
  | case2 start position found hdone _ hslash next ih =>
      unfold String.splitOnAux
      rw [if_neg hdone, hget, if_pos hslash]
      dsimp only
      rw [hnext, if_pos hend]
      have hback : (String.Pos.Raw.next text position).unoffsetBy ⟨1⟩ =
          position := by
        have hchar := beq_iff_eq.mp hslash
        rw [String.Pos.Raw.next, hchar]
        apply String.Pos.Raw.ext
        change position.byteIdx + 1 - 1 = position.byteIdx
        omega
      rw [hback]
      exact ih
  | case3 start position found hdone _ hslash ih =>
      unfold String.splitOnAux
      rw [if_neg hdone, hget, if_neg hslash]
      exact ih

theorem splitOn_slash (path : String) : path.splitOn "/" = parts path := by
  rw [String.splitOn, if_neg (by decide), splitOnAux_slash, parts,
    List.splitOn_eq_splitOnP]
  exact String.splitToList_of_valid path (· == '/')

theorem parts_ne_nil (path : String) : parts path ≠ [] := by
  rw [parts, Ne, List.map_eq_nil_iff]
  exact List.splitOn_ne_nil _ _

theorem parts_append_slash (front rest : String) :
    parts (front ++ "/" ++ rest) = parts front ++ parts rest := by
  have hsplit := List.splitOn_append_cons_self (a := '/') front.toList
    rest.toList
  simp [parts, hsplit]

theorem parts_of_notMem {name : String} (hname : '/' ∉ name.toList) :
    parts name = [name] := by
  rw [parts, List.splitOn_eq_singleton hname, List.map_singleton,
    String.ofList_toList]

theorem mem_splitOn {Symbol : Type*} [DecidableEq Symbol] {sep : Symbol}
    {text part : List Symbol} (hpart : part ∈ text.splitOn sep) :
    sep ∉ part ∧ part.length + text.count sep ≤ text.length := by
  induction text generalizing part with
  | nil =>
      rw [List.splitOn_nil, List.mem_singleton] at hpart
      simp [hpart]
  | cons symbol text ih =>
      rw [List.splitOn_cons_eq_if_modifyHead] at hpart
      obtain ⟨first, rest, hsplit⟩ :=
        List.exists_cons_of_ne_nil (List.splitOn_ne_nil sep text)
      split_ifs at hpart with hsep
      · rw [beq_iff_eq] at hsep
        rw [hsep, List.count_cons_self, List.length_cons]
        rcases List.mem_cons.mp hpart with rfl | hrest
        · have hcount := List.count_le_length (a := sep) (l := text)
          simpa using hcount
        · obtain ⟨hnot, hle⟩ := ih hrest
          exact ⟨hnot, by omega⟩
      · rw [beq_iff_eq] at hsep
        rw [hsplit] at hpart ih
        rw [List.count_cons_of_ne hsep, List.length_cons]
        rcases List.mem_cons.mp hpart with rfl | hrest
        · obtain ⟨hnot, hle⟩ := ih List.mem_cons_self
          refine ⟨?_, by rw [List.length_cons]; omega⟩
          rw [List.mem_cons, not_or]
          exact ⟨Ne.symm hsep, hnot⟩
        · obtain ⟨hnot, hle⟩ := ih (List.mem_cons_of_mem _ hrest)
          exact ⟨hnot, by omega⟩

theorem notMem_of_mem_parts {path part : String} (hpart : part ∈ parts path) :
    '/' ∉ part.toList := by
  obtain ⟨chars, hchars, rfl⟩ := List.mem_map.mp hpart
  rw [String.toList_ofList]
  exact (mem_splitOn hchars).1

/-- A part is shorter than a path that has a slash. -/
theorem length_lt_of_mem_parts {path part : String}
    (hslash : '/' ∈ path.toList) (hpart : part ∈ parts path) :
    part.toList.length < path.toList.length := by
  obtain ⟨chars, hchars, rfl⟩ := List.mem_map.mp hpart
  have hle := (mem_splitOn hchars).2
  have hcount := List.count_pos_iff.mpr hslash
  rw [String.toList_ofList]
  omega

theorem intercalate_parts (path : String) :
    "/".intercalate (parts path) = path := by
  apply String.toList_injective
  rw [String.toList_intercalate, parts, List.map_map]
  have hid : String.toList ∘ String.ofList = id := by
    funext chars
    exact String.toList_ofList
  rw [hid, List.map_id]
  exact List.intercalate_splitOn '/'

theorem parts_intercalate {names : List String} (hne : names ≠ [])
    (hnames : ∀ name ∈ names, '/' ∉ name.toList) :
    parts ("/".intercalate names) = names := by
  have hsplit :
      (['/'].intercalate (names.map String.toList)).splitOn '/' =
        names.map String.toList :=
    List.splitOn_intercalate '/' (by simpa using hnames) (by simpa using hne)
  rw [parts, String.toList_intercalate]
  change ((['/'].intercalate (names.map String.toList)).splitOn '/').map
    String.ofList = names
  rw [hsplit, List.map_map]
  have hid : String.ofList ∘ String.toList = id := by
    funext name
    exact String.ofList_toList
  rw [hid, List.map_id]

/-! ## Components -/

def IsName (part : String) : Prop := part ≠ "" ∧ part ≠ "."

instance (part : String) : Decidable (IsName part) :=
  inferInstanceAs (Decidable (_ ∧ _))

def names (path : String) : List String :=
  (parts path).filter (fun part => decide (IsName part))

/-- The slash or the point at the beginning. -/
def anchor (parts : List String) : List String :=
  if parts.head? = some "." then ["."]
  else if parts.head? = some "" ∧ 1 < parts.length then ["/"]
  else []

/-- What paths are compared by. -/
def components (path : String) : List String :=
  anchor (parts path) ++ names path

theorem names_of_isName {name : String} (hslash : '/' ∉ name.toList)
    (hname : IsName name) : names name = [name] := by
  simp [names, parts_of_notMem hslash, hname]

theorem names_of_not_isName {name : String} (hslash : '/' ∉ name.toList)
    (hname : ¬ IsName name) : names name = [] := by
  simp [names, parts_of_notMem hslash, hname]

theorem mem_parts_of_mem_names {path name : String}
    (hname : name ∈ names path) : name ∈ parts path :=
  (List.mem_filter.mp hname).1

end Paths
end Acdp
