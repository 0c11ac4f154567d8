import Acdp.JsonGrammar
import Acdp.LlmModelManager
import Acdp.TextSearch

/-!
# The JSON text of an answer

What a model answers is searched for a fenced block first, and then for the
outermost braces.  The search for the fences does not know the strings of the
text between them.
-/

namespace Acdp
namespace Llm
namespace DSpyToolPredictor

open Json

/-! ## Extraction -/

def fence : List Char := "```".toList

def jsonFence : List Char := "```json".toList

/-- From the first opening to the next fence. -/
def codeBlock (opening trimmed : List Char) : Option (List Char) := do
  let tail ← Text.fromFirst opening trimmed
  let body := tail.drop opening.length
  if fence <:+: body then some (Text.beforeFirst fence body) else none

def rfind (mark : Char) (text : List Char) : Option ℕ :=
  (text.reverse.findIdx? (fun char => char == mark)).map
    (fun back => text.length - 1 - back)

def braced (trimmed : List Char) : Option (List Char) := do
  let start ← trimmed.findIdx? (fun char => char == '\x7b')
  let last ← rfind '\x7d' trimmed
  if start < last then some ((trimmed.take (last + 1)).drop start) else none

def extractJson (text : String) : Except LlmError String :=
  let trimmed := (Text.trim text).toList
  match codeBlock jsonFence trimmed with
  | some jsonText => .ok (Text.trim (String.ofList jsonText))
  | none =>
      match codeBlock fence trimmed with
      | some jsonText => .ok (Text.trim (String.ofList jsonText))
      | none =>
          match braced trimmed with
          | some jsonText => .ok (String.ofList jsonText)
          | none => .ok (String.ofList trimmed)

/-! ## Answers with an object in them -/

def tick : Char := '\x60'

def Prose (text : List Char) : Prop :=
  ∀ char ∈ text, char ≠ tick ∧ char ≠ '\x7b' ∧ char ≠ '\x7d'

def Blank (text : List Char) : Prop :=
  ∀ char ∈ text, Text.isWhiteSpace char = true

/-- Where in an answer the object is. -/
inductive Placement where
  | bare
  | jsonFenced
  | fenced
  deriving DecidableEq

def Placement.answer (front before object after back : List Char) :
    Placement → List Char
  | .bare => front ++ (object ++ back)
  | .jsonFenced =>
      front ++ (jsonFence ++ (before ++ (object ++ (after ++
        (fence ++ back)))))
  | .fenced =>
      front ++ (fence ++ (before ++ (object ++ (after ++ (fence ++ back)))))

/-- What is extracted is read as the value. -/
def Recovers (floats : FloatText) (answer : List Char) (value : Value) :
    Prop :=
  ∃ jsonText, extractJson (String.ofList answer) = .ok jsonText ∧
    ReadsText floats jsonText.toList value

/-! ## Code blocks -/

theorem fence_prefix_jsonFence : fence <+: jsonFence := by decide

theorem eq_tick_of_mem_fence {char : Char} (hchar : char ∈ fence) :
    char = tick := by
  revert hchar
  simp [fence, tick]

/-- The fence that closes a block is the first one behind its opening. -/
theorem codeBlock_of_closed {opening front body : List Char}
    (hopening : opening.head? = some tick) (hfront : tick ∉ front)
    (hbody : ¬ fence <:+: body ++ fence.dropLast) (back : List Char) :
    codeBlock opening (front ++ (opening ++ (body ++ (fence ++ back)))) =
      some body := by
  have hfound : Text.fromFirst opening
      (front ++ (opening ++ (body ++ (fence ++ back)))) =
        some (opening ++ (body ++ (fence ++ back))) := by
    rw [Text.fromFirst_append hopening hfront]
    exact Text.fromFirst_of_prefix (List.prefix_append _ _)
  have hfence : fence <:+: body ++ (fence ++ back) :=
    ⟨body, back, by rw [List.append_assoc]⟩
  simp only [codeBlock, hfound, Option.bind_eq_bind, Option.bind_some,
    List.drop_left, if_pos hfence, Text.beforeFirst_of_not_infix hbody]

theorem exists_of_codeBlock {opening text body : List Char}
    (hblock : codeBlock opening text = some body) :
    ∃ between, opening ++ (between ++ fence) <:+: text := by
  unfold codeBlock at hblock
  cases hfound : Text.fromFirst opening text with
  | none => simp [hfound] at hblock
  | some tail =>
      obtain ⟨⟨rest, hrest⟩, hsuffix⟩ := Text.prefix_of_fromFirst hfound
      have hfence : fence <:+: rest := by
        by_contra hfence
        simp [hfound, ← hrest, hfence] at hblock
      obtain ⟨between, after, hafter⟩ := hfence
      refine ⟨between, List.IsInfix.trans ?_ hsuffix.isInfix⟩
      refine ⟨[], after, ?_⟩
      rw [← hrest, ← hafter, List.nil_append, List.append_assoc]

/-! ## The text around the object -/

theorem Prose.tick_not_mem {text : List Char} (hprose : Prose text) :
    tick ∉ text := by
  intro htick
  exact (hprose tick htick).1 rfl

theorem Blank.tick_not_mem {text : List Char} (hblank : Blank text) :
    tick ∉ text := by
  intro htick
  have hwhite : Text.isWhiteSpace tick = true := hblank tick htick
  revert hwhite
  decide

theorem Prose.sublist {text part : List Char} (hprose : Prose text)
    (hpart : part.Sublist text) : Prose part := by
  intro char hchar
  exact hprose char (hpart.subset hchar)

theorem Prose.append {front back : List Char} (hfront : Prose front)
    (hback : Prose back) : Prose (front ++ back) := by
  intro char hchar
  rcases List.mem_append.mp hchar with hmem | hmem
  · exact hfront char hmem
  · exact hback char hmem

theorem Blank.append {front back : List Char} (hfront : Blank front)
    (hback : Blank back) : Blank (front ++ back) := by
  intro char hchar
  rcases List.mem_append.mp hchar with hmem | hmem
  · exact hfront char hmem
  · exact hback char hmem

theorem blank_of_space {text : List Char} (hspace : Space text) :
    Blank text := by
  have hall : ∀ char ∈ spaceChars, Text.isWhiteSpace char = true :=
    List.all_iff_forall_prop.mp (by decide)
  intro char hchar
  exact hall char (hspace char hchar)

theorem prose_of_space {text : List Char} (hspace : Space text) :
    Prose text := by
  have hall : ∀ char ∈ spaceChars,
      char ≠ tick ∧ char ≠ '\x7b' ∧ char ≠ '\x7d' :=
    List.all_iff_forall_prop.mp (by decide)
  intro char hchar
  exact hall char (hspace char hchar)

theorem toList_trim_blank {before middle after : List Char} {first last : Char}
    (hbefore : Blank before) (hafter : Blank after)
    (hhead : middle.head? = some first)
    (hfirst : Text.isWhiteSpace first = false)
    (hlast : middle.getLast? = some last)
    (hend : Text.isWhiteSpace last = false) :
    (Text.trim (String.ofList (before ++ (middle ++ after)))).toList =
      middle := by
  have hleft : before.dropWhile Text.isWhiteSpace = [] :=
    List.dropWhile_eq_nil_iff.mpr hbefore
  have hright : after.rdropWhile Text.isWhiteSpace = [] :=
    List.rdropWhile_eq_nil_iff.mpr hafter
  rw [Text.toList_trim_append hhead hfirst hlast hend, hleft, hright,
    List.nil_append, List.append_nil]

/-- Trimming takes from the prose only. -/
theorem exists_toList_trim {front middle back : List Char} {first last : Char}
    (hfront : Prose front) (hback : Prose back)
    (hhead : middle.head? = some first)
    (hfirst : Text.isWhiteSpace first = false)
    (hlast : middle.getLast? = some last)
    (hend : Text.isWhiteSpace last = false) :
    ∃ left right, Prose left ∧ Prose right ∧
      (Text.trim (String.ofList (front ++ (middle ++ back)))).toList =
        left ++ (middle ++ right) := by
  refine ⟨front.dropWhile Text.isWhiteSpace,
    back.rdropWhile Text.isWhiteSpace, ?_, ?_, ?_⟩
  · exact hfront.sublist (List.dropWhile_sublist _)
  · exact hback.sublist (List.rdropWhile_prefix _ _).sublist
  · exact Text.toList_trim_append hhead hfirst hlast hend front back

/-- The text of an object from brace to brace, with space around it. -/
structure ObjectParts (members : List (String × Json))
    (object lead core tail : List Char) : Prop where
  split : object = lead ++ (core ++ tail)
  lead : Space lead
  tail : Space tail
  derives : Derives (.value (.obj members)) core
  head : core.head? = some '\x7b'
  last : core.getLast? = some '\x7d'

theorem exists_objectParts {members : List (String × Json)}
    {object : List Char} (hobject : Derives (.document (.obj members)) object) :
    ∃ lead core tail, ObjectParts members object lead core tail := by
  obtain ⟨lead, core, tail, hlead, htail, hcore, hsplit⟩ :=
    hobject.exists_value
  obtain ⟨body, hbody⟩ := hcore.exists_braces
  refine ⟨lead, core, tail, hsplit, hlead, htail, hcore, ?_, ?_⟩
  · rw [hbody]
    rfl
  · rw [hbody, ← List.cons_append, List.getLast?_concat]

/-! ## Braces -/

theorem findIdx?_append_mark {front back : List Char} {mark : Char}
    (hfront : mark ∉ front) :
    (front ++ mark :: back).findIdx? (fun char => char == mark) =
      some front.length := by
  have hnone : front.findIdx? (fun char => char == mark) = none := by
    rw [List.findIdx?_eq_none_iff]
    intro char hchar
    rw [beq_eq_false_iff_ne]
    rintro rfl
    exact hfront hchar
  rw [List.findIdx?_append, hnone, Option.none_or, List.findIdx?_cons]
  simp

theorem rfind_append_mark {front back : List Char} {mark : Char}
    (hback : mark ∉ back) :
    rfind mark (front ++ mark :: back) = some front.length := by
  have hreverse : (front ++ mark :: back).reverse =
      back.reverse ++ mark :: front.reverse := by simp
  have hmem : mark ∉ back.reverse := by simpa using hback
  rw [rfind, hreverse, findIdx?_append_mark hmem, Option.map_some,
    Option.some.injEq]
  simp only [List.length_append, List.length_cons, List.length_reverse]
  omega

theorem braced_append {left core right : List Char}
    (hleft : '\x7b' ∉ left) (hright : '\x7d' ∉ right)
    (hhead : core.head? = some '\x7b') (hlast : core.getLast? = some '\x7d') :
    braced (left ++ (core ++ right)) = some core := by
  obtain ⟨rest, hrest⟩ := List.head?_eq_some_iff.mp hhead
  obtain ⟨front, hfront⟩ := List.getLast?_eq_some_iff.mp hlast
  have hstart : (left ++ (core ++ right)).findIdx?
      (fun char => char == '\x7b') = some left.length := by
    rw [hrest, List.cons_append]
    exact findIdx?_append_mark hleft
  have hend : rfind '\x7d' (left ++ (core ++ right)) =
      some (left ++ front).length := by
    rw [hfront, List.append_assoc, ← List.append_assoc left]
    exact rfind_append_mark hright
  have hne : front ≠ [] := by
    rintro rfl
    rw [hfront] at hhead
    cases hhead
  have hpositive : 0 < front.length := List.length_pos_of_ne_nil hne
  have hcore : core.length = front.length + 1 := by
    rw [hfront, List.length_append, List.length_singleton]
  have htake : (left ++ (core ++ right)).take ((left ++ front).length + 1) =
      left ++ core := by
    rw [← List.append_assoc]
    apply List.take_left'
    rw [List.length_append, List.length_append, hcore]
    omega
  have horder : left.length < (left ++ front).length := by
    rw [List.length_append]
    omega
  simp only [braced, hstart, hend, Option.bind_eq_bind, Option.bind_some,
    if_pos horder, htake, List.drop_left]

/-! ## Objects that stand bare -/

/-- Two fences that do not overlap. -/
def TwoFences (text : List Char) : Prop :=
  ∃ between, fence ++ (between ++ fence) <:+: text

theorem head?_fence_append (text : List Char) :
    (fence ++ text).head? = some tick := rfl

theorem getLast?_append_fence (text : List Char) :
    (text ++ fence).getLast? = some tick := by
  rw [List.getLast?_append]
  rfl

theorem TwoFences.of_append {front text back : List Char}
    (hfront : tick ∉ front) (hback : tick ∉ back)
    (htwo : TwoFences (front ++ (text ++ back))) : TwoFences text := by
  obtain ⟨between, hbetween⟩ := htwo
  have hlast : (fence ++ (between ++ fence)).getLast? = some tick := by
    rw [← List.append_assoc, getLast?_append_fence]
  exact ⟨between, Text.infix_of_infix_append_right hlast hback
    (Text.infix_of_infix_append_left (head?_fence_append _) hfront hbetween)⟩

theorem codeBlock_of_not_twoFences {opening text : List Char}
    (hopening : fence <+: opening) (htext : ¬ TwoFences text) :
    codeBlock opening text = none := by
  cases hblock : codeBlock opening text with
  | none => rfl
  | some body =>
      obtain ⟨between, hbetween⟩ := exists_of_codeBlock hblock
      obtain ⟨rest, rfl⟩ := hopening
      exfalso
      apply htext
      refine ⟨rest ++ between, ?_⟩
      simpa only [List.append_assoc] using hbetween

variable {members : List (String × Json)} {front back : List Char}

theorem extractJson_bare {object lead core tail : List Char}
    (hparts : ObjectParts members object lead core tail)
    (hfront : Prose front) (hback : Prose back)
    (hobject : ¬ TwoFences object) :
    extractJson (String.ofList (front ++ (object ++ back))) =
      .ok (String.ofList core) := by
  have hsplit : front ++ (object ++ back) =
      (front ++ lead) ++ (core ++ (tail ++ back)) := by
    rw [hparts.split]
    simp only [List.append_assoc]
  obtain ⟨left, right, hleft, hright, htrim⟩ := exists_toList_trim
    (hfront.append (prose_of_space hparts.lead))
    ((prose_of_space hparts.tail).append hback)
    hparts.head (by decide) hparts.last (by decide)
  have hcore : ¬ TwoFences (left ++ (core ++ right)) := by
    intro htwo
    obtain ⟨between, hbetween⟩ :=
      htwo.of_append hleft.tick_not_mem hright.tick_not_mem
    apply hobject
    refine ⟨between, hbetween.trans ?_⟩
    rw [hparts.split]
    exact ⟨lead, tail, List.append_assoc _ _ _⟩
  have hopen : '\x7b' ∉ left := fun hmem => (hleft _ hmem).2.1 rfl
  have hclose : '\x7d' ∉ right := fun hmem => (hright _ hmem).2.2 rfl
  simp only [extractJson, hsplit, htrim,
    codeBlock_of_not_twoFences fence_prefix_jsonFence hcore,
    codeBlock_of_not_twoFences List.prefix_rfl hcore,
    braced_append hopen hclose hparts.head hparts.last]

/-! ## Objects between fences -/

theorem not_fence_infix_append_dropLast {body : List Char}
    (hbody : ¬ fence <:+: body) (hlast : body.getLast? ≠ some tick) :
    ¬ fence <:+: body ++ fence.dropLast := by
  rw [List.infix_append_iff_ne_nil]
  rintro (hleft | hright | ⟨left, right, hleft, hright, hsplit, hsuffix, -⟩)
  · exact hbody hleft
  · have hlength := hright.length_le
    simp [fence] at hlength
  · obtain ⟨before, rfl⟩ := hsuffix
    have hmem : left.getLast hleft ∈ fence := by
      rw [hsplit]
      exact List.mem_append_left _ (List.getLast_mem hleft)
    apply hlast
    rw [List.getLast?_append, List.getLast?_eq_some_getLast hleft,
      Option.some_or, eq_tick_of_mem_fence hmem]

theorem getLast?_ne_tick {core after : List Char}
    (hcore : core.getLast? = some '\x7d') (hafter : Blank after)
    (before : List Char) :
    (before ++ (core ++ after)).getLast? ≠ some tick := by
  rw [List.getLast?_append, List.getLast?_append, hcore]
  cases hlast : after.getLast? with
  | none => simp [tick]
  | some char =>
      have hwhite := hafter char (List.mem_of_getLast? hlast)
      rw [Option.some_or, Option.some_or]
      intro htick
      rw [Option.some.inj htick] at hwhite
      revert hwhite
      decide

/-- Trimming an answer leaves the block as it is. -/
theorem exists_toList_trim_block {opening : List Char}
    (hopening : fence <+: opening) (hfront : Prose front) (hback : Prose back)
    (body : List Char) :
    ∃ left right, Prose left ∧ Prose right ∧
      (Text.trim (String.ofList
        (front ++ (opening ++ (body ++ (fence ++ back)))))).toList =
          left ++ (opening ++ (body ++ (fence ++ right))) := by
  obtain ⟨rest, rfl⟩ := hopening
  have hhead : ((fence ++ rest) ++ (body ++ fence)).head? = some tick := rfl
  have hlast : ((fence ++ rest) ++ (body ++ fence)).getLast? = some tick := by
    rw [← List.append_assoc, getLast?_append_fence]
  obtain ⟨left, right, hleft, hright, htrim⟩ :=
    exists_toList_trim hfront hback hhead (by decide) hlast (by decide)
  refine ⟨left, right, hleft, hright, ?_⟩
  simpa only [List.append_assoc] using htrim

variable {before after : List Char}

theorem jsonFence_infix_of_append {inner text rest : List Char} {char : Char}
    (htext : text = char :: rest) (htick : char ≠ tick) (hletter : char ≠ 'j')
    (hinner : jsonFence ++ inner <:+: fence ++ text) :
    jsonFence ++ inner <:+: text := by
  have hexpand : fence ++ text = tick :: tick :: tick :: char :: rest := by
    rw [htext]
    rfl
  have hjson : jsonFence ++ inner =
      tick :: tick :: tick :: 'j' :: ("son".toList ++ inner) := rfl
  rw [hexpand, hjson, List.infix_cons_iff, List.infix_cons_iff,
    List.infix_cons_iff] at hinner
  simp only [List.cons_prefix_cons, true_and, Ne.symm hletter,
    Ne.symm htick, false_and, false_or] at hinner
  rw [hjson, htext]
  exact hinner

theorem not_jsonFence_infix_append {body : List Char}
    (hbody : ¬ fence <:+: body) (inner : List Char) :
    ¬ jsonFence ++ inner <:+: body ++ fence := by
  have hfence : fence <+: jsonFence ++ inner :=
    fence_prefix_jsonFence.trans (List.prefix_append _ _)
  have hlong : 7 ≤ (jsonFence ++ inner).length := by
    have hseven : jsonFence.length = 7 := by decide
    rw [List.length_append]
    omega
  have hthree : fence.length = 3 := by decide
  rw [List.infix_append_iff_ne_nil]
  rintro (hleft | hright | ⟨left, right, -, -, hsplit, hsuffix, hlead⟩)
  · exact hbody (hfence.isInfix.trans hleft)
  · have hlength := hright.length_le
    omega
  · have hlength := hlead.length_le
    rw [hsplit, List.length_append] at hlong
    have hfront : fence <+: left := by
      rw [hsplit] at hfence
      apply List.prefix_of_prefix_length_le hfence (List.prefix_append _ _)
      omega
    exact hbody (hfront.isInfix.trans hsuffix.isInfix)

theorem ObjectParts.split_block {object lead core tail : List Char}
    (hparts : ObjectParts members object lead core tail) :
    before ++ (object ++ after) =
      (before ++ lead) ++ (core ++ (tail ++ after)) := by
  rw [hparts.split]
  simp only [List.append_assoc]

section Blocks

variable {object lead core tail : List Char}
  (hparts : ObjectParts members object lead core tail)
  (hbefore : Blank before) (hafter : Blank after)

include hparts hbefore hafter

theorem toList_trim_object :
    (Text.trim (String.ofList (before ++ (object ++ after)))).toList =
      core := by
  rw [hparts.split_block]
  exact toList_trim_blank (hbefore.append (blank_of_space hparts.lead))
    ((blank_of_space hparts.tail).append hafter) hparts.head (by decide)
    hparts.last (by decide)

/-- No fence begins in a block around an object without one. -/
theorem not_fence_infix_block (hobject : ¬ fence <:+: object) :
    ¬ fence <:+: before ++ (object ++ after) ∧
      ¬ fence <:+: (before ++ (object ++ after)) ++ fence.dropLast := by
  have hblock : ¬ fence <:+: before ++ (object ++ after) := by
    intro hfence
    apply hobject
    exact Text.infix_of_infix_append_right rfl hafter.tick_not_mem
      (Text.infix_of_infix_append_left rfl hbefore.tick_not_mem hfence)
  refine ⟨hblock, not_fence_infix_append_dropLast hblock ?_⟩
  rw [hparts.split_block]
  exact getLast?_ne_tick hparts.last
    ((blank_of_space hparts.tail).append hafter) _

omit hafter in
theorem exists_head_block :
    ∃ char rest, before ++ (object ++ after) = char :: rest ∧
      char ≠ tick ∧ char ≠ 'j' := by
  have hblank := hbefore.append (blank_of_space hparts.lead)
  rw [hparts.split_block]
  cases hhead : before ++ lead with
  | nil =>
      obtain ⟨rest, hrest⟩ := List.head?_eq_some_iff.mp hparts.head
      refine ⟨'\x7b', rest ++ (tail ++ after), ?_, by decide, by decide⟩
      rw [hrest, List.nil_append, List.cons_append]
  | cons char rest =>
      have hwhite := hblank char (by rw [hhead]; exact List.mem_cons_self)
      refine ⟨char, rest ++ (core ++ (tail ++ after)), rfl, ?_, ?_⟩
      all_goals
        rintro rfl
        revert hwhite
        decide

theorem extractJson_jsonFenced (hfront : Prose front) (hback : Prose back)
    (hobject : ¬ fence <:+: object) :
    extractJson (String.ofList
      (Placement.jsonFenced.answer front before object after back)) =
        .ok (String.ofList core) := by
  obtain ⟨left, right, hleft, hright, htrim⟩ := exists_toList_trim_block
    fence_prefix_jsonFence hfront hback (before ++ (object ++ after))
  have hopening : jsonFence.head? = some tick := rfl
  have hblock := codeBlock_of_closed hopening hleft.tick_not_mem
    (not_fence_infix_block hparts hbefore hafter hobject).2 right
  simp only [List.append_assoc] at htrim hblock
  simp only [extractJson, Placement.answer, htrim, hblock]
  rw [← toList_trim_object hparts hbefore hafter, String.ofList_toList]

/-- Between plain fences there is no block of the other kind. -/
theorem codeBlock_jsonFence_fenced {left right : List Char}
    (hleft : Prose left) (hright : Prose right)
    (hobject : ¬ fence <:+: object) :
    codeBlock jsonFence (left ++ (fence ++ ((before ++ (object ++ after)) ++
      (fence ++ right)))) = none := by
  obtain ⟨hfence, -⟩ := not_fence_infix_block hparts hbefore hafter hobject
  obtain ⟨char, rest, hblock, htick, hletter⟩ :=
    exists_head_block hparts hbefore
  cases hfound : codeBlock jsonFence (left ++ (fence ++
      ((before ++ (object ++ after)) ++ (fence ++ right)))) with
  | none => rfl
  | some body =>
      exfalso
      obtain ⟨between, hbetween⟩ := exists_of_codeBlock hfound
      have hlast : (jsonFence ++ (between ++ fence)).getLast? = some tick := by
        rw [← List.append_assoc, getLast?_append_fence]
      have hinner : jsonFence ++ (between ++ fence) <:+:
          fence ++ ((before ++ (object ++ after)) ++ fence) := by
        apply Text.infix_of_infix_append_right hlast hright.tick_not_mem
        apply Text.infix_of_infix_append_left rfl hleft.tick_not_mem
        simpa only [List.append_assoc] using hbetween
      have htext : (before ++ (object ++ after)) ++ fence =
          char :: (rest ++ fence) := by
        rw [hblock, List.cons_append]
      exact not_jsonFence_infix_append hfence _
        (jsonFence_infix_of_append htext htick hletter hinner)

theorem extractJson_fenced (hfront : Prose front) (hback : Prose back)
    (hobject : ¬ fence <:+: object) :
    extractJson (String.ofList
      (Placement.fenced.answer front before object after back)) =
        .ok (String.ofList core) := by
  obtain ⟨left, right, hleft, hright, htrim⟩ := exists_toList_trim_block
    List.prefix_rfl hfront hback (before ++ (object ++ after))
  have hnone := codeBlock_jsonFence_fenced hparts hbefore hafter hleft hright
    hobject
  have hopening : fence.head? = some tick := rfl
  have hblock := codeBlock_of_closed hopening hleft.tick_not_mem
    (not_fence_infix_block hparts hbefore hafter hobject).2 right
  simp only [List.append_assoc] at htrim hnone hblock
  simp only [extractJson, Placement.answer, htrim, hnone, hblock]
  rw [← toList_trim_object hparts hbefore hafter, String.ofList_toList]

end Blocks

/-! ## Objects with a fence in a string -/

theorem codeBlock_of_open {opening left body : List Char}
    (hopening : opening.head? = some tick) (hleft : tick ∉ left)
    (hbody : fence <:+: body) (rest : List Char) :
    codeBlock opening (left ++ (opening ++ (body ++ rest))) =
      some (Text.beforeFirst fence body) := by
  have hfound : Text.fromFirst opening (left ++ (opening ++ (body ++ rest))) =
      some (opening ++ (body ++ rest)) := by
    rw [Text.fromFirst_append hopening hleft]
    exact Text.fromFirst_of_prefix (List.prefix_append _ _)
  have hfence : fence <:+: body ++ rest :=
    List.infix_append_of_infix_left hbody
  simp only [codeBlock, hfound, Option.bind_eq_bind, Option.bind_some,
    List.drop_left, if_pos hfence, Text.beforeFirst_append hbody]

theorem quote_not_mem_of_blank {text : List Char} (hblank : Blank text) :
    '"' ∉ text := by
  intro hquote
  have hwhite := hblank _ hquote
  revert hwhite
  decide

/-- White space around a text leaves it where it is between strings. -/
theorem not_closed_trim {text : List Char}
    (htext : Mode.between.scan text ≠ .between) :
    ¬ Closed (Text.trim (String.ofList text)).toList := by
  intro hclosed
  obtain ⟨front, back, hfront, hback, hsplit⟩ := Text.exists_trim text
  apply htext
  rw [hsplit, Mode.scan_append, Mode.scan_append,
    Mode.scan_of_not_mem (quote_not_mem_of_blank hfront), hclosed.scan,
    Mode.scan_of_not_mem (quote_not_mem_of_blank hback)]

theorem not_structural_tick : ¬ Structural tick := by
  unfold Structural
  decide

/-- The block ends at the fence in the object, inside of a string. -/
theorem not_recovers_jsonFenced {floats : FloatText} {value : Value}
    {part : Part} {object : List Char} (hobject : Derives part object)
    (hfront : Prose front) (hback : Prose back) (hbefore : Blank before)
    (hfence : fence <:+: object) :
    ¬ Recovers floats
      (Placement.jsonFenced.answer front before object after back) value := by
  rintro ⟨jsonText, hextract, hreads⟩
  obtain ⟨left, right, hleft, -, htrim⟩ := exists_toList_trim_block
    fence_prefix_jsonFence hfront hback (before ++ (object ++ after))
  have hopening : jsonFence.head? = some tick := rfl
  have hbody : fence <:+: before ++ object :=
    List.infix_append_of_infix_right hfence
  have hblock := codeBlock_of_open hopening hleft.tick_not_mem hbody
    (after ++ (fence ++ right))
  simp only [List.append_assoc] at htrim hblock
  simp only [extractJson, Placement.answer, htrim, hblock] at hextract
  cases hextract
  apply not_closed_trim _ hreads.closed
  obtain ⟨rest, hrest⟩ := Text.exists_beforeFirst hfence
  have hcut : Closed (Text.beforeFirst fence object ++
      tick :: ([tick, tick] ++ rest)) := by
    have hclosed := hobject.closed
    rw [hrest] at hclosed
    exact hclosed
  rw [Text.beforeFirst_append_left rfl hbefore.tick_not_mem, Mode.scan_append,
    Mode.scan_of_not_mem (quote_not_mem_of_blank hbefore)]
  exact hcut.scan_front_ne not_structural_tick

/-! ## When the object is recovered -/

section Recovery

variable {floats : FloatText} {value : Value} {object : List Char}

theorem recovers_of_core {answer lead core tail : List Char}
    (hparts : ObjectParts members object lead core tail)
    (hfits : (Json.obj members).fits 127 = true)
    (hvalue : Value.decode floats (.obj members) = some value)
    (hextract : extractJson (String.ofList answer) =
      .ok (String.ofList core)) :
    Recovers floats answer value := by
  refine ⟨_, hextract, .obj members, ?_, hfits, hvalue⟩
  rw [String.toList_ofList]
  exact hparts.derives.document_self

/-- Bare objects need only be without two fences. -/
theorem recovers_bare (hobject : Derives (.document (.obj members)) object)
    (hfits : (Json.obj members).fits 127 = true)
    (hvalue : Value.decode floats (.obj members) = some value)
    (hfront : Prose front) (hback : Prose back)
    (hfences : ¬ TwoFences object) :
    Recovers floats (Placement.bare.answer front before object after back)
      value := by
  obtain ⟨lead, core, tail, hparts⟩ := exists_objectParts hobject
  exact recovers_of_core hparts hfits hvalue
    (extractJson_bare hparts hfront hback hfences)

theorem TwoFences.fence_occurs {text : List Char} (htwo : TwoFences text) :
    fence <:+: text := by
  obtain ⟨between, hbetween⟩ := htwo
  exact (List.prefix_append fence _).isInfix.trans hbetween

theorem recovers_iff_without_fence
    (hobject : Derives (.document (.obj members)) object)
    (hfits : (Json.obj members).fits 127 = true)
    (hvalue : Value.decode floats (.obj members) = some value)
    (hfront : Prose front) (hback : Prose back)
    (hbefore : Blank before) (hafter : Blank after) :
    (∀ placement : Placement, Recovers floats
      (placement.answer front before object after back) value) ↔
        ¬ fence <:+: object := by
  constructor
  · intro hrecovers hfence
    exact not_recovers_jsonFenced hobject hfront hback hbefore hfence
      (hrecovers .jsonFenced)
  · intro hfence placement
    obtain ⟨lead, core, tail, hparts⟩ := exists_objectParts hobject
    cases placement with
    | bare =>
        exact recovers_bare hobject hfits hvalue hfront hback
          (fun htwo => hfence htwo.fence_occurs)
    | jsonFenced =>
        exact recovers_of_core hparts hfits hvalue
          (extractJson_jsonFenced hparts hbefore hafter hfront hback hfence)
    | fenced =>
        exact recovers_of_core hparts hfits hvalue
          (extractJson_fenced hparts hbefore hafter hfront hback hfence)

end Recovery

/-! ## An object with and one without a fence -/

theorem derives_oneMember {name text : List Char} {doc : Json}
    (hname : StringBody name name) (htext : Derives (.value doc) text) :
    Derives (.document (.obj [(String.ofList name, doc)]))
      ('\x7b' :: (('"' :: (name ++ ['"']) ++ ':' :: text) ++ ['\x7d'])) := by
  have hspace : Space [] := by simp [Space]
  have hmember := Derives.member hspace hname hspace htext.document_self
  rw [List.nil_append, List.append_nil] at hmember
  exact (Derives.object (.oneMember hmember)).document_self

def plainObject : List Char := "\x7b\"a\":true\x7d".toList

theorem derives_plainObject :
    Derives (.document (.obj [("a", .bool true)])) plainObject := by
  have hname : StringBody ['a'] ['a'] :=
    stringBody_self (List.all_iff_forall_prop.mp (by decide))
  exact derives_oneMember hname .true

theorem plainObject_recovered :
    Recovers ⟨fun _ => "", fun _ => none⟩
      (Placement.fenced.answer "Sure: ".toList ['\n'] plainObject ['\n']
        " Done".toList)
      (.object [("a", .bool true)]) := by
  have hfront : Prose "Sure: ".toList :=
    List.all_iff_forall_prop.mp (by decide)
  have hback : Prose " Done".toList :=
    List.all_iff_forall_prop.mp (by decide)
  have hblank : Blank ['\n'] :=
    List.all_iff_forall_prop.mp (by decide)
  exact (recovers_iff_without_fence derives_plainObject (by simp) rfl hfront
    hback hblank hblank).mpr (by decide) .fenced

def tickObject : List Char := "\x7b\"a\":\"```\"\x7d".toList

theorem tickObject_not_recovered :
    Derives (.document (.obj [("a", .str "```")])) tickObject ∧
      (Json.obj [("a", .str "```")]).fits 127 = true ∧
      (∀ floats, Value.decode floats (.obj [("a", .str "```")]) =
        some (.object [("a", .str "```")])) ∧
      ∀ floats value, ¬ Recovers floats
        (Placement.jsonFenced.answer [] ['\n'] tickObject ['\n'] [])
        value := by
  have hname : StringBody ['a'] ['a'] :=
    stringBody_self (List.all_iff_forall_prop.mp (by decide))
  have hticks : StringBody "```".toList "```".toList :=
    stringBody_self (List.all_iff_forall_prop.mp (by decide))
  have hobject : Derives (.document (.obj [("a", .str "```")])) tickObject :=
    derives_oneMember hname (.string hticks)
  have hprose : Prose [] := by simp [Prose]
  have hblank : Blank ['\n'] :=
    List.all_iff_forall_prop.mp (by decide)
  refine ⟨hobject, by simp, fun floats => rfl, ?_⟩
  intro floats value
  exact not_recovers_jsonFenced hobject hprose hprose hblank (by decide)

end DSpyToolPredictor
end Llm
end Acdp
