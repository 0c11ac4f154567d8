import Acdp.LlmModelReadiness
import Acdp.PathComponents

/-!
# Where models are cached

A download writes to a temporary path and then to the path of the model, both
made from the name with its slashes replaced.  What is loaded after a download
is the path made from the name as it is.
-/

namespace Acdp
namespace Llm

open Paths (parts names components IsName anchor)
open Text (CaseTables)

namespace Path

/-- Two paths are the same when their components are. -/
def Same (left right : Path) : Prop := components left = components right

def stem (name : String) : String := (splitName name).1

/-- A name that a file can have. -/
def Ordinary (name : String) : Prop := IsName name ∧ name ≠ ".."

instance (name : String) : Decidable (Ordinary name) :=
  inferInstanceAs (Decidable (_ ∧ _))

/-! ## Joining a name -/

theorem join_of_absolute {path part : String}
    (hpart : Text.startsWith part "/" = true) : join path part = part := by
  rw [join, if_pos hpart]

/-- The parts of a path are in front of what is joined to it. -/
theorem exists_parts_join (path : Path) :
    ∃ front, (front = [] ↔ path = "") ∧
      ∀ part, ¬ Text.startsWith part "/" = true →
        parts (join path part) = front ++ parts part := by
  by_cases hpath : path = ""
  · refine ⟨[], by simp [hpath], ?_⟩
    intro part hpart
    rw [join, if_neg hpart, if_pos (Or.inl hpath), hpath, String.empty_append,
      List.nil_append]
  · by_cases hlast : path.toList.getLast? = some '/'
    · obtain ⟨front, hfront⟩ := List.getLast?_eq_some_iff.mp hlast
      have hslash : path = String.ofList front ++ "/" := by
        apply String.toList_injective
        simpa using hfront
      refine ⟨parts (String.ofList front), ?_, ?_⟩
      · exact iff_of_false (Paths.parts_ne_nil _) hpath
      · intro part hpart
        rw [join, if_neg hpart, if_pos (Or.inr hlast), hslash,
          Paths.parts_append_slash]
    · refine ⟨parts path, ?_, ?_⟩
      · exact iff_of_false (Paths.parts_ne_nil _) hpath
      · intro part hpart
        rw [join, if_neg hpart, if_neg (by simp [hpath, hlast]),
          Paths.parts_append_slash]

theorem not_startsWith_of_notMem {name : String} (hname : '/' ∉ name.toList) :
    ¬ Text.startsWith name "/" = true := by
  intro hstarts
  have hlead : ['/'] <+: name.toList := by
    simpa [Text.startsWith] using hstarts
  exact hname (hlead.subset (List.mem_singleton_self '/'))

/-! ## Replacing the extension -/

theorem dropWhile_parts (path : Path) :
    backwards path =
      (parts path).reverse.dropWhile (fun part => !decide (IsName part)) := by
  rw [backwards, Paths.splitOn_slash]
  congr 1
  funext part
  by_cases hempty : part = ""
  · simp [IsName, hempty]
  · simp [IsName, hempty]

theorem filter_backwards (path : Path) :
    (backwards path).filter (fun part => decide (IsName part)) =
      (names path).reverse := by
  rw [names, ← List.filter_reverse, dropWhile_parts]
  generalize (parts path).reverse = backward
  induction backward with
  | nil => rfl
  | cons part rest ih =>
      by_cases hname : IsName part
      · simp [hname]
      · simpa [hname] using ih

theorem exists_isName_of_backwards {path : Path} {file : String}
    {rest : List String} (hback : backwards path = file :: rest) :
    IsName file := by
  rw [dropWhile_parts] at hback
  have hhead := List.head?_dropWhile_not
    (fun part => !decide (IsName part)) (parts path).reverse
  rw [hback] at hhead
  simpa using hhead

theorem mem_parts_of_mem_backwards {path : Path} {part : String}
    (hpart : part ∈ backwards path) : part ∈ parts path := by
  rw [dropWhile_parts] at hpart
  exact List.mem_reverse.mp ((List.dropWhile_sublist _).subset hpart)

theorem slash_notMem_stem {name : String} (hname : '/' ∉ name.toList) :
    '/' ∉ (stem name).toList := by
  unfold stem splitName
  dsimp only
  split
  · exact hname
  · exact hname
  · next first chars _ hdrop =>
      rw [String.toList_ofList, List.mem_reverse]
      intro hmem
      apply hname
      rw [← List.mem_reverse]
      apply List.mem_of_mem_drop
      rw [hdrop]
      exact List.mem_cons_of_mem first hmem

/-- The name of a temporary file. -/
def tempName (name : String) : String := stem name ++ ".tmp"

theorem slash_notMem_tempName {name : String} (hname : '/' ∉ name.toList) :
    '/' ∉ (tempName name).toList := by
  have hstem := slash_notMem_stem hname
  simp [tempName, hstem]

theorem toList_tempName (name : String) :
    (tempName name).toList = (stem name).toList ++ ['.', 't', 'm', 'p'] := by
  rw [tempName, String.toList_append]
  rfl

theorem ordinary_tempName (name : String) : Ordinary (tempName name) := by
  have hlast : (tempName name).toList.getLast? = some 'p' := by
    simp [toList_tempName]
  refine ⟨⟨?_, ?_⟩, ?_⟩
  all_goals
    intro hsame
    rw [hsame] at hlast
    simp at hlast

theorem tempName_inj {left right : String} :
    tempName left = tempName right ↔ stem left = stem right := by
  constructor
  · intro hsame
    have hchars := congrArg String.toList hsame
    rw [toList_tempName, toList_tempName, List.append_left_inj] at hchars
    exact String.toList_injective hchars
  · intro hsame
    rw [tempName, tempName, hsame]

theorem withExtension_of_file {path : Path} {file : String}
    {rest : List String} (hback : backwards path = file :: rest)
    (hfile : file ≠ "..") :
    withExtension path "tmp" =
      "/".intercalate (rest.reverse ++ [tempName file]) := by
  have hname : fileName path = some file := by
    rw [fileName, hback]
    simp [hfile]
  rw [withExtension, fileStem, hname, hback]
  simp [tempName, stem, String.append_assoc]

theorem withExtension_of_none {path : Path} (hname : fileName path = none) :
    withExtension path "tmp" = path := by
  rw [withExtension, fileStem, hname]
  rfl

/-- A path that is given an extension keeps as many names as it had. -/
theorem length_names_withExtension (path : Path) :
    (names (withExtension path "tmp")).length = (names path).length := by
  cases hback : backwards path with
  | nil => rw [withExtension_of_none (by rw [fileName, hback]; rfl)]
  | cons file rest =>
      by_cases hfile : file = ".."
      · rw [withExtension_of_none (by rw [fileName, hback]; simp [hfile])]
      · have hslash : ∀ part ∈ rest.reverse ++ [tempName file],
            '/' ∉ part.toList := by
          have hall : ∀ part ∈ file :: rest, '/' ∉ part.toList := by
            intro part hpart
            rw [← hback] at hpart
            exact Paths.notMem_of_mem_parts (mem_parts_of_mem_backwards hpart)
          rw [List.forall_mem_cons] at hall
          intro part hpart
          rcases List.mem_append.mp hpart with hrest | hlast
          · exact hall.2 part (List.mem_reverse.mp hrest)
          · rw [List.mem_singleton.mp hlast]
            exact slash_notMem_tempName hall.1
        have hnames : (names path).length =
            (rest.filter (fun part => decide (IsName part))).length + 1 := by
          rw [← List.length_reverse, ← filter_backwards, hback]
          simp [exists_isName_of_backwards hback]
        rw [withExtension_of_file hback hfile, names,
          Paths.parts_intercalate (by simp) hslash, hnames]
        simp [(ordinary_tempName file).1, List.filter_reverse]

theorem not_isName_slash_or_anchor {path name : String}
    (hname : name ∈ names path) : name ≠ "/" ∧ name ≠ "." := by
  have hslash := Paths.notMem_of_mem_parts (Paths.mem_parts_of_mem_names hname)
  refine ⟨?_, (of_decide_eq_true (List.mem_filter.mp hname).2).2⟩
  intro hsame
  rw [hsame] at hslash
  simp at hslash

/-- The same paths have the same names. -/
theorem Same.names_eq {left right : Path} (hsame : Same left right) :
    names left = names right := by
  have hkeep : ∀ path : Path,
      (components path).filter
        (fun part => decide (part ≠ "/" ∧ part ≠ ".")) = names path := by
    intro path
    have hanchor : (anchor (parts path)).filter
        (fun part => decide (part ≠ "/" ∧ part ≠ ".")) = [] := by
      unfold anchor
      split_ifs
      · simp
      · simp
      · rfl
    rw [components, List.filter_append, hanchor, List.nil_append,
      List.filter_eq_self]
    intro name hname
    exact decide_eq_true (not_isName_slash_or_anchor hname)
  rw [← hkeep left, ← hkeep right, hsame]

/-! ## Names in a directory -/

/-- What stands in front of the names that are joined to a directory. -/
theorem exists_names_join (path : Path) :
    ∃ before : List String, ∀ part, ¬ Text.startsWith part "/" = true →
      names (join path part) = before ++ names part := by
  obtain ⟨front, -, hparts⟩ := exists_parts_join path
  refine ⟨front.filter (fun part => decide (IsName part)), ?_⟩
  intro part hpart
  rw [names, hparts part hpart, List.filter_append]
  rfl

/-- What a name without slashes that is joined to a directory is replaced by
there. -/
theorem withExtension_join {path : Path} {name : String}
    (hslash : '/' ∉ name.toList) (hname : Ordinary name) :
    withExtension (join path name) "tmp" = join path (tempName name) := by
  obtain ⟨front, -, hparts⟩ := exists_parts_join path
  have hjoin := hparts name (not_startsWith_of_notMem hslash)
  have htemp := hparts (tempName name)
    (not_startsWith_of_notMem (slash_notMem_tempName hslash))
  rw [Paths.parts_of_notMem hslash] at hjoin
  rw [Paths.parts_of_notMem (slash_notMem_tempName hslash)] at htemp
  have hback : backwards (join path name) = name :: front.reverse := by
    rw [dropWhile_parts, hjoin, List.reverse_append]
    simp [hname.1]
  rw [withExtension_of_file hback hname.2, List.reverse_reverse, ← htemp,
    Paths.intercalate_parts]

theorem withExtension_join_parent (path : Path) :
    withExtension (join path "..") "tmp" = join path ".." := by
  obtain ⟨front, -, hparts⟩ := exists_parts_join path
  have hslash : '/' ∉ "..".toList := by decide
  have hjoin := hparts ".." (not_startsWith_of_notMem hslash)
  rw [Paths.parts_of_notMem hslash] at hjoin
  apply withExtension_of_none
  rw [fileName, dropWhile_parts, hjoin, List.reverse_append]
  simp [IsName]

/-- Only the empty name and the point are lost in a directory. -/
theorem same_join_of_not_isName {path : Path} (hpath : path ≠ "")
    {left right : String} (hleft : ¬ IsName left) (hright : ¬ IsName right)
    (hslashLeft : '/' ∉ left.toList) (hslashRight : '/' ∉ right.toList) :
    Same (join path left) (join path right) := by
  obtain ⟨front, hfront, hparts⟩ := exists_parts_join path
  have hjoinLeft := hparts left (not_startsWith_of_notMem hslashLeft)
  have hjoinRight := hparts right (not_startsWith_of_notMem hslashRight)
  rw [Paths.parts_of_notMem hslashLeft] at hjoinLeft
  rw [Paths.parts_of_notMem hslashRight] at hjoinRight
  obtain ⟨first, rest, hcons⟩ :=
    List.exists_cons_of_ne_nil (mt hfront.mp hpath)
  unfold Same components names
  rw [hjoinLeft, hjoinRight, List.filter_append, List.filter_append, hcons]
  simp [anchor, hleft, hright]

end Path

namespace ModelManager

open Acdp.Llm.Path (Same Ordinary stem tempName)

variable {cacheDir : Path}

/-! ## What is loaded after a download -/

/-- The path that is loaded after a download. -/
def loadedPath (cacheDir : Path) (modelName : String) : Path :=
  Path.join cacheDir modelName

theorem toList_safeName (modelName : String) :
    (safeName modelName).toList =
      modelName.toList.map (fun char => if char = '/' then '_' else char) := by
  rw [safeName, String.toList_map]

theorem slash_notMem_safeName (modelName : String) :
    '/' ∉ (safeName modelName).toList := by
  rw [toList_safeName, List.mem_map]
  rintro ⟨char, -, hchar⟩
  split_ifs at hchar with hslash
  · simp at hchar
  · exact hslash hchar

theorem safeName_of_notMem {modelName : String}
    (hslash : '/' ∉ modelName.toList) : safeName modelName = modelName := by
  apply String.toList_injective
  rw [toList_safeName]
  refine (List.map_congr_left ?_).trans (List.map_id _)
  intro char hchar
  rw [if_neg]
  · rfl
  · intro hsame
    rw [hsame] at hchar
    exact hslash hchar

theorem underscore_mem_safeName {modelName : String}
    (hslash : '/' ∈ modelName.toList) :
    '_' ∈ (safeName modelName).toList := by
  rw [toList_safeName]
  exact List.mem_map.mpr ⟨'/', hslash, rfl⟩

/-- A name without underscores stands for itself alone. -/
theorem eq_of_safeName {modelName other : String}
    (hsafe : safeName modelName = other) (hother : '_' ∉ other.toList) :
    modelName = other := by
  by_cases hslash : '/' ∈ modelName.toList
  · rw [← hsafe] at hother
    exact absurd (underscore_mem_safeName hslash) hother
  · rw [← hsafe, safeName_of_notMem hslash]

/-- The names of a name with a slash are shorter than its safe name. -/
theorem safeName_notMem_names {modelName : String}
    (hslash : '/' ∈ modelName.toList) :
    safeName modelName ∉ names modelName := by
  intro hmem
  have hlt := Paths.length_lt_of_mem_parts hslash
    (Paths.mem_parts_of_mem_names hmem)
  rw [toList_safeName, List.length_map] at hlt
  omega

theorem isName_safeName {modelName : String}
    (hslash : '/' ∈ modelName.toList) : IsName (safeName modelName) := by
  have hmem := underscore_mem_safeName hslash
  constructor
  all_goals
    intro hsame
    rw [hsame] at hmem
    simp at hmem

/-- The path that was written is loaded just when the name has no slash. -/
theorem same_loaded_iff (cacheDir : Path) (modelName : String) :
    Same (loadedPath cacheDir modelName) (modelPath cacheDir modelName) ↔
      '/' ∉ modelName.toList := by
  constructor
  · intro hsame hslash
    have hnames := hsame.names_eq
    obtain ⟨before, hbefore⟩ := Path.exists_names_join cacheDir
    have hsafe := hbefore (safeName modelName)
      (Path.not_startsWith_of_notMem (slash_notMem_safeName modelName))
    rw [Paths.names_of_isName (slash_notMem_safeName modelName)
      (isName_safeName hslash)] at hsafe
    rw [modelPath, hsafe, loadedPath] at hnames
    apply safeName_notMem_names hslash
    by_cases habsolute : Text.startsWith modelName "/" = true
    · rw [Path.join_of_absolute habsolute] at hnames
      rw [hnames]
      simp
    · rw [hbefore modelName habsolute, List.append_right_inj] at hnames
      rw [hnames]
      simp
  · intro hslash
    rw [loadedPath, modelPath, safeName_of_notMem hslash]
    rfl

/-! ## Which models keep apart -/

/-- Neither model is written over by a download of the other. -/
structure Apart (cacheDir : Path) (first second : String) : Prop where
  cached : ¬ Same (modelPath cacheDir first) (modelPath cacheDir second)
  temporary : ¬ Same (tempPath cacheDir first) (tempPath cacheDir second)
  first_over : ¬ Same (tempPath cacheDir first) (modelPath cacheDir second)
  second_over : ¬ Same (tempPath cacheDir second) (modelPath cacheDir first)

/-- Of the names of two files in the cache: they differ before their last
points, and neither is the name of the temporary file of the other.  The empty
name and the point both stand for the cache itself. -/
structure Unambiguous (cacheDir : Path) (first second : String) : Prop where
  named : cacheDir ≠ "" → IsName first ∨ IsName second
  stems : Ordinary first → Ordinary second → stem first ≠ stem second
  first_over : Ordinary first → Ordinary second → tempName first ≠ second
  second_over : Ordinary first → Ordinary second → tempName second ≠ first

theorem Apart.symm {first second : String}
    (hapart : Apart cacheDir first second) : Apart cacheDir second first where
  cached hsame := hapart.cached (Eq.symm hsame)
  temporary hsame := hapart.temporary (Eq.symm hsame)
  first_over := hapart.second_over
  second_over := hapart.first_over

section Cache

variable {before : List String}

/-- What is in front of the names in a cache. -/
def Contains (cacheDir : Path) (before : List String) : Prop :=
  ∀ part, ¬ Text.startsWith part "/" = true →
    names (Path.join cacheDir part) = before ++ names part

theorem names_join_safe (hbefore : Contains cacheDir before) {name : String}
    (hslash : '/' ∉ name.toList) (hname : IsName name) :
    names (Path.join cacheDir name) = before ++ [name] := by
  rw [hbefore name (Path.not_startsWith_of_notMem hslash),
    Paths.names_of_isName hslash hname]

theorem names_modelPath (hbefore : Contains cacheDir before)
    {modelName : String} (hname : IsName (safeName modelName)) :
    names (modelPath cacheDir modelName) = before ++ [safeName modelName] :=
  names_join_safe hbefore (slash_notMem_safeName modelName) hname

theorem names_tempPath (hbefore : Contains cacheDir before)
    {modelName : String} (hname : Ordinary (safeName modelName)) :
    names (tempPath cacheDir modelName) =
      before ++ [tempName (safeName modelName)] := by
  have hslash := slash_notMem_safeName modelName
  rw [tempPath, modelPath, Path.withExtension_join hslash hname]
  exact names_join_safe hbefore (Path.slash_notMem_tempName hslash)
    (Path.ordinary_tempName _).1

theorem tempPath_of_parent {modelName : String}
    (hname : safeName modelName = "..") :
    tempPath cacheDir modelName = modelPath cacheDir modelName := by
  rw [tempPath, modelPath, hname, Path.withExtension_join_parent]

/-- The paths of a name that is none have no name more than the cache. -/
theorem length_names_of_not_isName (hbefore : Contains cacheDir before)
    {modelName : String} (hname : ¬ IsName (safeName modelName)) :
    (names (modelPath cacheDir modelName)).length = before.length ∧
      (names (tempPath cacheDir modelName)).length = before.length := by
  have hslash := slash_notMem_safeName modelName
  have hlength : (names (modelPath cacheDir modelName)).length =
      before.length := by
    rw [modelPath, hbefore _ (Path.not_startsWith_of_notMem hslash),
      Paths.names_of_not_isName hslash hname, List.append_nil]
  refine ⟨hlength, ?_⟩
  rw [tempPath, Path.length_names_withExtension, hlength]

/-- The paths of a name have one name more than the cache. -/
theorem length_names_of_isName (hbefore : Contains cacheDir before)
    {modelName : String} (hname : IsName (safeName modelName)) :
    (names (modelPath cacheDir modelName)).length = before.length + 1 ∧
      (names (tempPath cacheDir modelName)).length = before.length + 1 := by
  have hlength : (names (modelPath cacheDir modelName)).length =
      before.length + 1 := by
    rw [names_modelPath hbefore hname]
    simp
  refine ⟨hlength, ?_⟩
  rw [tempPath, Path.length_names_withExtension, hlength]

variable {first second : String}

/-- Paths with different numbers of names differ. -/
theorem apart_of_isName (hbefore : Contains cacheDir before)
    (hfirst : IsName (safeName first)) (hsecond : ¬ IsName (safeName second)) :
    Apart cacheDir first second := by
  obtain ⟨hmodel, htemp⟩ := length_names_of_isName hbefore hfirst
  obtain ⟨hother, hothertemp⟩ := length_names_of_not_isName hbefore hsecond
  constructor
  all_goals
    intro hsame
    have hlength := congrArg List.length hsame.names_eq
    omega

/-- The directory above is no file. -/
theorem apart_of_parent (hbefore : Contains cacheDir before)
    (hfirst : safeName first = "..") (hsecond : Ordinary (safeName second)) :
    Apart cacheDir first second := by
  have hname : IsName (safeName first) := by
    rw [hfirst]
    decide
  have hmodel := names_modelPath hbefore hname
  rw [hfirst] at hmodel
  have hother := names_modelPath hbefore hsecond.1
  have htemp := names_tempPath hbefore hsecond
  have hparent := Path.ordinary_tempName (safeName second)
  constructor
  all_goals
    intro hsame
    have hnames := hsame.names_eq
  · rw [hmodel, hother] at hnames
    exact hsecond.2 (by simpa using hnames.symm)
  · rw [tempPath_of_parent hfirst, hmodel, htemp] at hnames
    exact hparent.2 (by simpa using hnames.symm)
  · rw [tempPath_of_parent hfirst, hmodel, hother] at hnames
    exact hsecond.2 (by simpa using hnames.symm)
  · rw [hmodel, htemp] at hnames
    exact hparent.2 (by simpa using hnames)

/-- Two files are apart when their names and temporary names are. -/
theorem apart_iff_of_ordinary (hbefore : Contains cacheDir before)
    (hfirst : Ordinary (safeName first))
    (hsecond : Ordinary (safeName second)) :
    Apart cacheDir first second ↔
      stem (safeName first) ≠ stem (safeName second) ∧
        tempName (safeName first) ≠ safeName second ∧
          tempName (safeName second) ≠ safeName first := by
  have hpath : ∀ modelName : String, Ordinary (safeName modelName) →
      tempPath cacheDir modelName =
        Path.join cacheDir (tempName (safeName modelName)) := by
    intro modelName hname
    exact Path.withExtension_join (slash_notMem_safeName modelName) hname
  constructor
  · intro hapart
    refine ⟨?_, ?_, ?_⟩
    · intro hstems
      apply hapart.temporary
      rw [hpath first hfirst, hpath second hsecond,
        Path.tempName_inj.mpr hstems]
      rfl
    · intro hsame
      apply hapart.first_over
      rw [hpath first hfirst, hsame]
      rfl
    · intro hsame
      apply hapart.second_over
      rw [hpath second hsecond, hsame]
      rfl
  · rintro ⟨hstems, hfirstOver, hsecondOver⟩
    have hmodelFirst := names_modelPath hbefore hfirst.1
    have hmodelSecond := names_modelPath hbefore hsecond.1
    have htempFirst := names_tempPath hbefore hfirst
    have htempSecond := names_tempPath hbefore hsecond
    constructor
    all_goals
      intro hsame
      have hnames := hsame.names_eq
    · rw [hmodelFirst, hmodelSecond] at hnames
      apply hstems
      simpa using congrArg (List.map stem) hnames
    · rw [htempFirst, htempSecond] at hnames
      exact hstems (Path.tempName_inj.mp (by simpa using hnames))
    · rw [htempFirst, hmodelSecond] at hnames
      exact hfirstOver (by simpa using hnames)
    · rw [htempSecond, hmodelFirst] at hnames
      exact hsecondOver (by simpa using hnames)

/-- Without a directory the empty name and the point are two paths. -/
theorem apart_of_empty (hempty : safeName first = "")
    (hpoint : safeName second = ".") : Apart "" first second := by
  have hback : Path.backwards "" = [] ∧ Path.backwards "." = [] := by
    rw [Path.dropWhile_parts, Path.dropWhile_parts]
    decide
  have hfirst : modelPath "" first = "" := by
    rw [modelPath, hempty]
    rfl
  have hsecond : modelPath "" second = "." := by
    rw [modelPath, hpoint]
    rfl
  have htempFirst : tempPath "" first = "" := by
    rw [tempPath, hfirst]
    apply Path.withExtension_of_none
    rw [Path.fileName, hback.1]
    rfl
  have htempSecond : tempPath "" second = "." := by
    rw [tempPath, hsecond]
    apply Path.withExtension_of_none
    rw [Path.fileName, hback.2]
    rfl
  have hdiffer : ¬ Same "" "." := by
    unfold Same
    decide
  constructor
  · rwa [hfirst, hsecond]
  · rwa [htempFirst, htempSecond]
  · rwa [htempFirst, hsecond]
  · rw [htempSecond, hfirst]
    intro hsame
    exact hdiffer (Eq.symm hsame)

theorem eq_or_eq_of_not_isName {name : String} (hname : ¬ IsName name) :
    name = "" ∨ name = "." := by
  unfold IsName at hname
  tauto

/-- Names that are none are the same path in a directory. -/
theorem apart_iff_of_not_isName (hne : first ≠ second)
    (hfirst : ¬ IsName (safeName first))
    (hsecond : ¬ IsName (safeName second)) :
    Apart cacheDir first second ↔ cacheDir = "" := by
  constructor
  · intro hapart
    by_contra hcache
    apply hapart.cached
    exact Path.same_join_of_not_isName hcache hfirst hsecond
      (slash_notMem_safeName first) (slash_notMem_safeName second)
  · rintro rfl
    rcases eq_or_eq_of_not_isName hfirst with hempty | hpoint
    · rcases eq_or_eq_of_not_isName hsecond with hsame | hpoint
      · apply absurd _ hne
        rw [eq_of_safeName hempty (by decide), eq_of_safeName hsame (by decide)]
      · exact apart_of_empty hempty hpoint
    · rcases eq_or_eq_of_not_isName hsecond with hempty | hsame
      · exact (apart_of_empty hempty hpoint).symm
      · apply absurd _ hne
        rw [eq_of_safeName hpoint (by decide), eq_of_safeName hsame (by decide)]

end Cache

/-- Which files a name stands for decides what is kept apart. -/
theorem apart_iff_unambiguous (cacheDir : Path) {first second : String}
    (hne : first ≠ second) :
    Apart cacheDir first second ↔
      Unambiguous cacheDir (safeName first) (safeName second) := by
  obtain ⟨before, hbefore⟩ := Path.exists_names_join cacheDir
  have hvacuous : (¬ Ordinary (safeName first) ∨
      ¬ Ordinary (safeName second)) →
      (cacheDir ≠ "" → IsName (safeName first) ∨ IsName (safeName second)) →
      Unambiguous cacheDir (safeName first) (safeName second) := by
    intro hnone hnamed
    constructor
    · exact hnamed
    all_goals
      intro hfirst hsecond
      rcases hnone with hnot | hnot
      · exact absurd hfirst hnot
      · exact absurd hsecond hnot
  by_cases hfirst : IsName (safeName first)
  · by_cases hsecond : IsName (safeName second)
    · by_cases hparent : safeName first = ".."
      · have hother : safeName second ≠ ".." := by
          intro hsame
          apply hne
          rw [eq_of_safeName hparent (by decide),
            eq_of_safeName hsame (by decide)]
        refine iff_of_true
          (apart_of_parent hbefore hparent ⟨hsecond, hother⟩)
          (hvacuous (Or.inl ?_) (fun _ => Or.inl hfirst))
        intro hordinary
        exact hordinary.2 hparent
      · by_cases hparentSecond : safeName second = ".."
        · refine iff_of_true
            (apart_of_parent hbefore hparentSecond ⟨hfirst, hparent⟩).symm
            (hvacuous (Or.inr ?_) (fun _ => Or.inl hfirst))
          intro hordinary
          exact hordinary.2 hparentSecond
        · rw [apart_iff_of_ordinary hbefore ⟨hfirst, hparent⟩
            ⟨hsecond, hparentSecond⟩]
          constructor
          · rintro ⟨hstems, hfirstOver, hsecondOver⟩
            exact ⟨fun _ => Or.inl hfirst, fun _ _ => hstems,
              fun _ _ => hfirstOver, fun _ _ => hsecondOver⟩
          · intro hunambiguous
            have hone : Ordinary (safeName first) := ⟨hfirst, hparent⟩
            have htwo : Ordinary (safeName second) := ⟨hsecond, hparentSecond⟩
            exact ⟨hunambiguous.stems hone htwo,
              hunambiguous.first_over hone htwo,
              hunambiguous.second_over hone htwo⟩
    · refine iff_of_true (apart_of_isName hbefore hfirst hsecond)
        (hvacuous (Or.inr ?_) (fun _ => Or.inl hfirst))
      intro hordinary
      exact hsecond hordinary.1
  · by_cases hsecond : IsName (safeName second)
    · refine iff_of_true (apart_of_isName hbefore hsecond hfirst).symm
        (hvacuous (Or.inl ?_) (fun _ => Or.inr hsecond))
      intro hordinary
      exact hfirst hordinary.1
    · rw [apart_iff_of_not_isName hne hfirst hsecond]
      constructor
      · intro hcache
        refine hvacuous (Or.inl fun hordinary => hfirst hordinary.1) ?_
        intro hne
        exact absurd hcache hne
      · intro hunambiguous
        by_contra hcache
        rcases hunambiguous.named hcache with hname | hname
        · exact hfirst hname
        · exact hsecond hname

/-! ## The manager -/

section Manager

variable {Engine : Type} (tables : CaseTables) (world : ModelWorld Engine)

/-- Nothing is loaded, configured or cached, and the model that is chosen is
downloaded. -/
structure DownloadsFirst (manager : ModelManager Engine) (modelName : String)
    (after : ModelManager Engine) : Prop where
  nothing : manager.currentModel = none
  unconfigured : semanticPath world manager.config = none
  uncached : ∃ models, listCachedModels tables manager.config world.home
      world.cache = .ok models ∧ modelToUse manager.config models = none
  chosen : modelToDownload tables world manager.config = .ok modelName
  downloaded : ∃ progress,
    downloadModel world modelName manager = .ok progress after

theorem exists_downloaded {world : ModelWorld Engine}
    {self : ModelManager Engine} {modelName : String}
    (hdownloads : world.Downloads self.config modelName) :
    ∃ progress, downloadModel world modelName self =
      .ok progress (Attempt.final (downloadModel world modelName) self) := by
  have hends := downloadModel_ends world modelName self
  unfold Attempt.Ends at hends
  unfold Attempt.final
  cases hrun : downloadModel world modelName self with
  | ok progress next => exact ⟨progress, rfl⟩
  | error error next =>
      rw [hrun] at hends
      exact absurd hdownloads hends.1

/-- What is loaded after a download. -/
theorem DownloadsFirst.loads {tables : CaseTables}
    {world : ModelWorld Engine} {self after : ModelManager Engine}
    {modelName : String}
    (hfirst : DownloadsFirst tables world self modelName after) :
    ∃ cacheDir reply,
      world.Serves self.config modelName cacheDir reply ∧
        ModelManager.ensureModelAvailable tables world self =
          loadModel tables world (loadedPath cacheDir modelName) after := by
  obtain ⟨progress, hdownloaded⟩ := hfirst.downloaded
  obtain ⟨models, hcached, hnone⟩ := hfirst.uncached
  have hends := downloadModel_ends world modelName self
  unfold Attempt.Ends at hends
  rw [hdownloaded] at hends
  obtain ⟨⟨cacheDir, reply, hserves⟩, hsame, -, -⟩ := hends
  refine ⟨cacheDir, reply, hserves, ?_⟩
  rw [ModelManager.ensureModelAvailable, Attempt.bind_of_ok (Attempt.get_ok self)]
  simp only [hfirst.nothing, hfirst.unconfigured, hcached]
  rw [Attempt.bind_of_ok (Attempt.fromAnswer_ok models self)]
  simp only [hnone, hfirst.chosen]
  rw [Attempt.bind_of_ok (Attempt.fromAnswer_ok modelName self),
    Attempt.bind_of_ok hdownloaded, hserves.located,
    Attempt.bind_of_ok (Attempt.fromAnswer_ok cacheDir after), loadedPath]

end Manager

/-- What is loaded after a download is what the download wrote just when the
name has no slash, and two models keep apart just when their files do. -/
theorem model_addressing (Engine : Type) :
    (∀ (tables : CaseTables) (world : ModelWorld Engine)
        (self after : ModelManager Engine) (modelName : String),
      DownloadsFirst tables world self modelName after →
        ∃ cacheDir, self.config.cacheDir world.home = .ok cacheDir ∧
          world.rename (tempPath cacheDir modelName)
            (modelPath cacheDir modelName) = .ok () ∧
          ensureModelAvailable tables world self =
            loadModel tables world (loadedPath cacheDir modelName) after ∧
          (Same (loadedPath cacheDir modelName)
              (modelPath cacheDir modelName) ↔ '/' ∉ modelName.toList)) ∧
      ∀ (cacheDir : Path) (first second : String), first ≠ second →
        (Apart cacheDir first second ↔
          Unambiguous cacheDir (safeName first) (safeName second)) := by
  constructor
  · intro tables world self after modelName hfirst
    obtain ⟨cacheDir, reply, hserves, hloads⟩ := hfirst.loads
    exact ⟨cacheDir, hserves.located, hserves.renamed, hloads,
      same_loaded_iff cacheDir modelName⟩
  · intro cacheDir first second hne
    exact apart_iff_unambiguous cacheDir hne

/-- Downloads succeed, with nothing in them. -/
def online : ModelWorld Unit :=
  { offline with send := fun _ => .ok ⟨⟨200, "OK"⟩, none, []⟩ }

def preferring (modelName : String) : ModelManager Unit :=
  new { localConfig with model := ⟨some modelName, "models"⟩ }

def downloadedModel (modelName : String) : ModelManager Unit :=
  Attempt.final (downloadModel online modelName) (preferring modelName)

theorem cacheDir_preferring (modelName : String) :
    (preferring modelName).config.cacheDir online.home = .ok "models" := by
  change expandPath none "models" = .ok "models"
  decide

theorem online_downloads (modelName : String) :
    online.Downloads (preferring modelName).config modelName := by
  refine ⟨"models", ⟨⟨200, "OK"⟩, none, []⟩, ?_⟩
  exact {
    located := cacheDir_preferring modelName
    created := rfl
    replied := rfl
    accepted := rfl
    opened := rfl
    received := by simp
    flushed := rfl
    renamed := rfl }

theorem preferring_downloadsFirst (modelName : String) :
    DownloadsFirst plainTables online (preferring modelName) modelName
      (downloadedModel modelName) where
  nothing := rfl
  unconfigured := rfl
  uncached := by
    refine ⟨[], ?_, rfl⟩
    rw [listCachedModels, cacheDir_preferring]
    rfl
  chosen := rfl
  downloaded := exists_downloaded (online_downloads modelName)

theorem gemma_addressing :
    (∃ cacheDir, (preferring "google/gemma").config.cacheDir online.home =
        .ok cacheDir ∧
      online.rename (tempPath cacheDir "google/gemma")
        (modelPath cacheDir "google/gemma") = .ok () ∧
      ensureModelAvailable plainTables online (preferring "google/gemma") =
        loadModel plainTables online (loadedPath cacheDir "google/gemma")
          (downloadedModel "google/gemma") ∧
      (Same (loadedPath cacheDir "google/gemma")
          (modelPath cacheDir "google/gemma") ↔
        '/' ∉ "google/gemma".toList)) ∧
      (Apart "models" "phi.1" "phi.2" ↔
        Unambiguous "models" (safeName "phi.1") (safeName "phi.2")) :=
  ⟨(model_addressing Unit).1 plainTables online _ _ "google/gemma"
      (preferring_downloadsFirst "google/gemma"),
    (model_addressing Unit).2 "models" "phi.1" "phi.2" (by decide)⟩

/-- The model of another owner is looked for in a directory of its own, and
two versions of a model have one temporary file. -/
theorem gemma_not_addressed :
    ensureModelAvailable plainTables online (preferring "google/gemma") =
        loadModel plainTables online "models/google/gemma"
          (downloadedModel "google/gemma") ∧
      modelPath "models" "google/gemma" = "models/google_gemma" ∧
      ¬ Same "models/google/gemma" "models/google_gemma" ∧
      ¬ Apart "models" "phi.1" "phi.2" := by
  have hloads := (preferring_downloadsFirst "google/gemma").loads
  obtain ⟨cacheDir, reply, hserves, hloads⟩ := hloads
  have hcache : Except.ok "models" = Except.ok cacheDir := hserves.located
  rw [Except.ok.injEq] at hcache
  subst hcache
  have hloaded : loadedPath "models" "google/gemma" =
      "models/google/gemma" := by decide
  have hsafe : safeName "google/gemma" = "google_gemma" := by
    apply String.toList_injective
    rw [toList_safeName]
    decide
  have hwritten : modelPath "models" "google/gemma" =
      "models/google_gemma" := by
    rw [modelPath, hsafe]
    decide
  refine ⟨?_, hwritten, ?_, ?_⟩
  · rw [hloads, hloaded]
  · rw [← hloaded, ← hwritten, same_loaded_iff]
    decide
  · rw [apart_iff_unambiguous "models" (by decide),
      safeName_of_notMem (show '/' ∉ "phi.1".toList by decide),
      safeName_of_notMem (show '/' ∉ "phi.2".toList by decide)]
    intro hunambiguous
    exact hunambiguous.stems (by decide) (by decide) (by decide)

end ModelManager
end Llm
end Acdp
