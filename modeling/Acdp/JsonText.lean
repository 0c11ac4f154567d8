import Acdp.IntegerText
import Acdp.JsonValue

/-!
# Reading JSON texts

The compact text of a document determines the document, also where another
text follows it, provided that its other numbers look like decimal fractions.
-/

namespace Acdp
namespace Json

/-! ## Numbers -/

def isNumberChar (char : Char) : Bool :=
  IntegerText.isNumeral char || char == '+' || char == '.' || char == 'e' ||
    char == 'E'

/-- The text of a number that is no integer: it has a point or an
exponent. -/
structure DecimalText (text : String) : Prop where
  number : ∀ char ∈ text.toList, isNumberChar char = true
  point : ∃ char ∈ text.toList, IntegerText.isNumeral char = false

/-- What follows a value in a document does not prolong it. -/
def Delimited (rest : List Char) : Prop :=
  ∀ char ∈ rest.head?, isNumberChar char = false

theorem delimited_cons {char : Char} (rest : List Char)
    (hchar : isNumberChar char = false) : Delimited (char :: rest) := by
  intro other hother
  rw [List.head?_cons, Option.mem_some_iff] at hother
  rw [← hother]
  exact hchar

theorem takeWhile_number {digits rest : List Char}
    (hdigits : ∀ char ∈ digits, isNumberChar char = true)
    (hrest : Delimited rest) :
    (digits ++ rest).takeWhile isNumberChar = digits := by
  rw [List.takeWhile_append_of_pos hdigits]
  cases rest with
  | nil => simp
  | cons char tail =>
      have hchar := hrest char (by simp)
      simp [hchar]

theorem number_unique {digits others rest tail : List Char}
    (hdigits : ∀ char ∈ digits, isNumberChar char = true)
    (hothers : ∀ char ∈ others, isNumberChar char = true)
    (hrest : Delimited rest) (htail : Delimited tail)
    (hsame : digits ++ rest = others ++ tail) :
    digits = others ∧ rest = tail := by
  have hleading := congrArg (List.takeWhile isNumberChar) hsame
  rw [takeWhile_number hdigits hrest, takeWhile_number hothers htail]
    at hleading
  subst hleading
  exact ⟨rfl, List.append_cancel_left hsame⟩

theorem isNumberChar_of_mem_int {value : ℤ} {char : Char}
    (hmem : char ∈ value.repr.toList) : isNumberChar char = true := by
  simp [isNumberChar, IntegerText.isNumeral_of_mem hmem]

/-! ## Strings -/

def hexDigitValue (char : Char) : ℕ :=
  if char.isDigit then char.toNat - '0'.toNat else char.toNat - 'a'.toNat + 10

def readEscape : List Char → Option (Char × List Char)
  | 'b' :: rest => some (Char.ofNat 8, rest)
  | 'f' :: rest => some (Char.ofNat 12, rest)
  | 'n' :: rest => some (Char.ofNat 10, rest)
  | 'r' :: rest => some (Char.ofNat 13, rest)
  | 't' :: rest => some (Char.ofNat 9, rest)
  | 'u' :: _ :: _ :: high :: low :: rest =>
      some (Char.ofNat (hexDigitValue high * 16 + hexDigitValue low), rest)
  | char :: rest => some (char, rest)
  | [] => none

/-- The first character of an escaped text, up to its closing quotation
mark. -/
def readChar : List Char → Option (Char × List Char)
  | [] => none
  | char :: rest =>
      if char = '"' then none
      else if char = '\\' then readEscape rest
      else some (char, rest)

theorem hexDigitValue_hexDigit {value : ℕ} (hvalue : value < 16) :
    hexDigitValue (hexDigit value) = value := by
  interval_cases value <;> decide

theorem readChar_escapeChar (char : Char) (rest : List Char) :
    readChar (escapeChar char ++ rest) = some (char, rest) := by
  have hchar := Char.ofNat_toNat char
  unfold escapeChar
  split_ifs with hquote hbackslash hback hfeed hline hreturn htab hcontrol
  · simp [readChar, readEscape, hquote]
  · simp [readChar, readEscape, hbackslash]
  · rw [hback] at hchar
    simpa [readChar, readEscape] using hchar
  · rw [hfeed] at hchar
    simpa [readChar, readEscape] using hchar
  · rw [hline] at hchar
    simpa [readChar, readEscape] using hchar
  · rw [hreturn] at hchar
    simpa [readChar, readEscape] using hchar
  · rw [htab] at hchar
    simpa [readChar, readEscape] using hchar
  · have hhigh : char.toNat / 16 < 16 := by omega
    have hlow : char.toNat % 16 < 16 := by omega
    have hjoin : char.toNat / 16 * 16 + char.toNat % 16 = char.toNat := by
      omega
    simp [readChar, readEscape, hexDigitValue_hexDigit hhigh,
      hexDigitValue_hexDigit hlow, hjoin]
  · simp [readChar, hquote, hbackslash]

/-- An escaped text ends at the first quotation mark that is not escaped. -/
theorem escaped_unique (chars others rest tail : List Char)
    (hsame : chars.flatMap escapeChar ++ '"' :: rest =
      others.flatMap escapeChar ++ '"' :: tail) :
    chars = others ∧ rest = tail := by
  have hquote : ∀ following, readChar ('"' :: following) = none := by
    intro following
    simp [readChar]
  induction chars generalizing others with
  | nil =>
      cases others with
      | nil => simpa using hsame
      | cons other others =>
          have hread := congrArg readChar hsame
          simp only [List.flatMap_nil, List.nil_append, List.flatMap_cons,
            List.append_assoc, hquote, readChar_escapeChar] at hread
          simp at hread
  | cons char chars ih =>
      cases others with
      | nil =>
          have hread := congrArg readChar hsame
          simp only [List.flatMap_nil, List.nil_append, List.flatMap_cons,
            List.append_assoc, hquote, readChar_escapeChar] at hread
          simp at hread
      | cons other others =>
          have hread := congrArg readChar hsame
          simp only [List.flatMap_cons, List.append_assoc,
            readChar_escapeChar, Option.some.injEq, Prod.mk.injEq] at hread
          obtain ⟨hchars, hrest⟩ := ih others hread.2
          rw [hread.1, hchars]
          exact ⟨rfl, hrest⟩

theorem printString_toList (text : String) :
    (printString text).toList =
      '"' :: (text.toList.flatMap escapeChar ++ ['"']) := by
  simp [printString]

theorem printString_unique {text other : String} {rest tail : List Char}
    (hsame : (printString text).toList ++ rest =
      (printString other).toList ++ tail) :
    text = other ∧ rest = tail := by
  simp only [printString_toList, List.cons_append, List.append_assoc,
    List.nil_append, List.cons.injEq, true_and] at hsame
  obtain ⟨hchars, hrest⟩ := escaped_unique _ _ _ _ hsame
  exact ⟨String.toList_inj.mp hchars, hrest⟩

/-! ## Documents -/

/-- The numbers of the document that are no integers have the texts of
such. -/
inductive Proper : Json → Prop
  | null : Proper .null
  | bool (value : Bool) : Proper (.bool value)
  | int (value : ℤ) : Proper (.int value)
  | decimal {text : String} (htext : DecimalText text) :
      Proper (.decimal text)
  | str (text : String) : Proper (.str text)
  | arr {elements : List Json}
      (helements : ∀ element ∈ elements, Proper element) :
      Proper (.arr elements)
  | obj {members : List (String × Json)}
      (hmembers : ∀ member ∈ members, Proper member.2) :
      Proper (.obj members)

theorem proper_arr_iff (elements : List Json) :
    Proper (.arr elements) ↔ ∀ element ∈ elements, Proper element := by
  constructor
  · intro hproper
    cases hproper with
    | arr helements => exact helements
  · intro helements
    exact .arr helements

theorem proper_obj_iff (members : List (String × Json)) :
    Proper (.obj members) ↔ ∀ member ∈ members, Proper member.2 := by
  constructor
  · intro hproper
    cases hproper with
    | obj hmembers => exact hmembers
  · intro hmembers
    exact .obj hmembers

theorem proper_optionalMember {α : Type*} {name : String}
    {encode : α → Json} {value : Option α}
    (hencode : ∀ present, value = some present → Proper (encode present)) :
    ∀ member ∈ optionalMember name encode value, Proper member.2 := by
  intro member hmember
  cases value with
  | none => simp [optionalMember] at hmember
  | some present =>
      simp only [optionalMember, List.mem_singleton] at hmember
      rw [hmember]
      exact hencode present rfl

inductive Shape where
  | null
  | bool (value : Bool)
  | number
  | string
  | array
  | object
  deriving DecidableEq, Repr

def shape : Json → Shape
  | .null => .null
  | .bool value => .bool value
  | .int _ => .number
  | .decimal _ => .number
  | .str _ => .string
  | .arr _ => .array
  | .obj _ => .object

/-- The shape of a document by its first character. -/
def shapeOf (char : Char) : Option Shape :=
  if isNumberChar char then some .number
  else if char = 'n' then some .null
  else if char = 't' then some (.bool true)
  else if char = 'f' then some (.bool false)
  else if char = '"' then some .string
  else if char = '[' then some .array
  else if char = '\x7b' then some .object
  else none

theorem shapeOf_number {char : Char} (hchar : isNumberChar char = true) :
    shapeOf char = some .number := by
  simp [shapeOf, hchar]

theorem exists_head_number {digits : List Char}
    (hdigits : ∀ char ∈ digits, isNumberChar char = true)
    (hnonempty : digits ≠ []) :
    ∃ char rest, digits = char :: rest ∧ shapeOf char = some .number := by
  obtain ⟨char, rest, hsplit⟩ := List.exists_cons_of_ne_nil hnonempty
  refine ⟨char, rest, hsplit, shapeOf_number (hdigits char ?_)⟩
  rw [hsplit]
  exact List.mem_cons_self

theorem DecimalText.ne_nil {text : String} (htext : DecimalText text) :
    text.toList ≠ [] := by
  obtain ⟨char, hmem, _⟩ := htext.point
  exact List.ne_nil_of_mem hmem

theorem DecimalText.ne_int {text : String} (htext : DecimalText text)
    (value : ℤ) : text.toList ≠ value.repr.toList := by
  intro hsame
  obtain ⟨char, hmem, hpoint⟩ := htext.point
  rw [hsame] at hmem
  rw [IntegerText.isNumeral_of_mem hmem] at hpoint
  simp at hpoint

theorem repr_toList_ne_nil (value : ℤ) : value.repr.toList ≠ [] := by
  rw [Int.repr_eq_if]
  split_ifs
  · rw [Nat.toList_repr]
    exact Nat.toDigits_ne_nil
  · simp

/-- The first character of a text says what the document is. -/
theorem exists_head_print {doc : Json} (hproper : Proper doc) :
    ∃ char rest, (print doc).toList = char :: rest ∧
      shapeOf char = some (shape doc) := by
  cases hproper with
  | null => exact ⟨'n', ['u', 'l', 'l'], rfl, rfl⟩
  | bool value =>
      cases value
      · exact ⟨'f', ['a', 'l', 's', 'e'], rfl, rfl⟩
      · exact ⟨'t', ['r', 'u', 'e'], rfl, rfl⟩
  | int value =>
      apply exists_head_number
      · intro char hmem
        exact isNumberChar_of_mem_int hmem
      · exact repr_toList_ne_nil value
  | decimal htext => exact exists_head_number htext.number htext.ne_nil
  | str text => exact ⟨'"', _, printString_toList text, rfl⟩
  | arr helements =>
      rename_i elements
      cases elements with
      | nil => exact ⟨'[', [']'], rfl, rfl⟩
      | cons element rest => exact ⟨'[', _, by simp [print]; rfl, rfl⟩
  | obj hmembers =>
      rename_i members
      cases members with
      | nil => exact ⟨'\x7b', ['\x7d'], rfl, rfl⟩
      | cons member rest => exact ⟨'\x7b', _, by simp [print]; rfl, rfl⟩

def Readable (doc : Json) : Prop :=
  ∀ other rest tail, Proper other → Delimited rest → Delimited tail →
    (print doc).toList ++ rest = (print other).toList ++ tail →
    doc = other ∧ rest = tail

theorem shape_eq_of_print {doc other : Json} (hdoc : Proper doc)
    (hother : Proper other) {rest tail : List Char}
    (hsame : (print doc).toList ++ rest = (print other).toList ++ tail) :
    shape doc = shape other := by
  obtain ⟨char, after, hsplit, hshape⟩ := exists_head_print hdoc
  obtain ⟨char', after', hsplit', hshape'⟩ := exists_head_print hother
  rw [hsplit, hsplit', List.cons_append, List.cons_append,
    List.cons.injEq] at hsame
  rw [hsame.1, hshape', Option.some.injEq] at hshape
  exact hshape.symm

theorem printElements_cons (element : Json) (elements : List Json) :
    (printElements (element :: elements)).toList =
      ',' :: ((print element).toList ++ (printElements elements).toList) := by
  simp [printElements]

theorem printMembers_cons (name : String) (value : Json)
    (members : List (String × Json)) :
    (printMembers ((name, value) :: members)).toList =
      ',' :: ((printString name).toList ++
        ':' :: ((print value).toList ++ (printMembers members).toList)) := by
  simp [printMembers, printMember]

theorem print_arr_nil : (print (.arr [])).toList = ['[', ']'] := rfl

theorem print_arr_cons (element : Json) (elements : List Json) :
    (print (.arr (element :: elements))).toList =
      '[' :: ((print element).toList ++
        ((printElements elements).toList ++ [']'])) := by
  simp [print]

theorem print_obj_cons (name : String) (value : Json)
    (members : List (String × Json)) :
    (print (.obj ((name, value) :: members))).toList =
      '\x7b' :: ((printString name).toList ++
        ':' :: ((print value).toList ++
          ((printMembers members).toList ++ ['\x7d']))) := by
  simp [print, printMember]

theorem delimited_elements (elements : List Json) (rest : List Char) :
    Delimited ((printElements elements).toList ++ ']' :: rest) := by
  cases elements with
  | nil => exact delimited_cons _ rfl
  | cons element elements =>
      rw [printElements_cons, List.cons_append]
      exact delimited_cons _ rfl

theorem delimited_members (members : List (String × Json))
    (rest : List Char) :
    Delimited ((printMembers members).toList ++ '\x7d' :: rest) := by
  cases members with
  | nil => exact delimited_cons _ rfl
  | cons member members =>
      obtain ⟨name, value⟩ := member
      rw [printMembers_cons, List.cons_append]
      exact delimited_cons _ rfl

theorem elements_unique {elements others : List Json}
    {rest tail : List Char}
    (hread : ∀ element ∈ elements, Readable element)
    (hothers : ∀ other ∈ others, Proper other)
    (hsame : (printElements elements).toList ++ ']' :: rest =
      (printElements others).toList ++ ']' :: tail) :
    elements = others ∧ rest = tail := by
  induction elements generalizing others with
  | nil =>
      cases others with
      | nil => simpa [printElements] using hsame
      | cons other others => simp [printElements] at hsame
  | cons element elements ih =>
      cases others with
      | nil => simp [printElements] at hsame
      | cons other others =>
          rw [List.forall_mem_cons] at hread hothers
          simp only [printElements_cons, List.cons_append,
            List.append_assoc, List.cons.injEq, true_and] at hsame
          obtain ⟨hhead, hremaining⟩ := hread.1 other _ _ hothers.1
            (delimited_elements elements rest)
            (delimited_elements others tail) hsame
          obtain ⟨htail, hrest⟩ := ih hread.2 hothers.2 hremaining
          rw [hhead, htail]
          exact ⟨rfl, hrest⟩

theorem member_unique {name name' : String} {value value' : Json}
    {rest tail : List Char} (hread : Readable value)
    (hother : Proper value') (hrest : Delimited rest)
    (htail : Delimited tail)
    (hsame : (printString name).toList ++
        ':' :: ((print value).toList ++ rest) =
      (printString name').toList ++
        ':' :: ((print value').toList ++ tail)) :
    (name, value) = (name', value') ∧ rest = tail := by
  obtain ⟨hname, hvalues⟩ := printString_unique hsame
  rw [List.cons.injEq] at hvalues
  obtain ⟨hvalue, hremaining⟩ :=
    hread value' rest tail hother hrest htail hvalues.2
  rw [hname, hvalue]
  exact ⟨rfl, hremaining⟩

theorem members_unique {members others : List (String × Json)}
    {rest tail : List Char}
    (hread : ∀ member ∈ members, Readable member.2)
    (hothers : ∀ other ∈ others, Proper other.2)
    (hsame : (printMembers members).toList ++ '\x7d' :: rest =
      (printMembers others).toList ++ '\x7d' :: tail) :
    members = others ∧ rest = tail := by
  induction members generalizing others with
  | nil =>
      cases others with
      | nil => simpa [printMembers] using hsame
      | cons other others => simp [printMembers] at hsame
  | cons member members ih =>
      cases others with
      | nil => simp [printMembers] at hsame
      | cons other others =>
          obtain ⟨name, value⟩ := member
          obtain ⟨name', value'⟩ := other
          rw [List.forall_mem_cons] at hread hothers
          simp only [printMembers_cons, List.cons_append,
            List.append_assoc, List.cons.injEq, true_and] at hsame
          obtain ⟨hmember, hremaining⟩ := member_unique hread.1 hothers.1
            (delimited_members members rest)
            (delimited_members others tail) hsame
          obtain ⟨hmembers, hrest⟩ := ih hread.2 hothers.2 hremaining
          rw [hmember, hmembers]
          exact ⟨rfl, hrest⟩

theorem readable_int (value : ℤ) : Readable (.int value) := by
  intro other rest tail hother hrest htail hsame
  have hshape := shape_eq_of_print (.int value) hother hsame
  have hnumber : ∀ char ∈ (print (.int value)).toList,
      isNumberChar char = true := by
    intro char hmem
    exact isNumberChar_of_mem_int hmem
  cases hother with
  | int value' =>
      obtain ⟨htext, hrest⟩ := number_unique hnumber
        (fun char hmem => isNumberChar_of_mem_int hmem) hrest htail hsame
      have hvalue : value = value' :=
        Int.repr_inj.mp (String.toList_inj.mp htext)
      exact ⟨by rw [hvalue], hrest⟩
  | decimal htext =>
      obtain ⟨hdigits, _⟩ :=
        number_unique hnumber htext.number hrest htail hsame
      exact absurd hdigits.symm (htext.ne_int value)
  | _ => simp [shape] at hshape

theorem readable_decimal {text : String} (htext : DecimalText text) :
    Readable (.decimal text) := by
  intro other rest tail hother hrest htail hsame
  have hshape := shape_eq_of_print (.decimal htext) hother hsame
  cases hother with
  | int value =>
      obtain ⟨hdigits, _⟩ := number_unique htext.number
        (fun char hmem => isNumberChar_of_mem_int hmem) hrest htail hsame
      exact absurd hdigits (htext.ne_int value)
  | decimal hother =>
      obtain ⟨hdigits, hrest⟩ :=
        number_unique htext.number hother.number hrest htail hsame
      exact ⟨by rw [String.toList_inj.mp hdigits], hrest⟩
  | _ => simp [shape] at hshape

/-- An empty array is told from any other by its second character. -/
theorem print_ne_closing {doc : Json} (hproper : Proper doc)
    (rest tail : List Char) :
    (print doc).toList ++ rest ≠ ']' :: tail := by
  intro hsame
  obtain ⟨char, after, hsplit, hchar⟩ := exists_head_print hproper
  rw [hsplit, List.cons_append, List.cons.injEq] at hsame
  have hclosing : shapeOf ']' = none := by decide
  rw [hsame.1, hclosing] at hchar
  simp at hchar

theorem readable_arr {elements : List Json}
    (hproper : ∀ element ∈ elements, Proper element)
    (hread : ∀ element ∈ elements, Readable element) :
    Readable (.arr elements) := by
  intro other rest tail hother hrest htail hsame
  have hshape := shape_eq_of_print (.arr hproper) hother hsame
  cases hother with
  | @arr others hothers =>
      cases elements with
      | nil =>
          cases others with
          | nil => simpa [print] using hsame
          | cons other others =>
              rw [List.forall_mem_cons] at hothers
              simp only [print_arr_nil, print_arr_cons, List.cons_append,
                List.append_assoc, List.nil_append, List.cons.injEq,
                true_and] at hsame
              exact absurd hsame.symm (print_ne_closing hothers.1 _ _)
      | cons element elements =>
          rw [List.forall_mem_cons] at hproper hread
          cases others with
          | nil =>
              simp only [print_arr_nil, print_arr_cons, List.cons_append,
                List.append_assoc, List.nil_append, List.cons.injEq,
                true_and] at hsame
              exact absurd hsame (print_ne_closing hproper.1 _ _)
          | cons other others =>
              rw [List.forall_mem_cons] at hothers
              simp only [print_arr_cons, List.cons_append,
                List.append_assoc, List.nil_append, List.cons.injEq,
                true_and] at hsame
              obtain ⟨hhead, hremaining⟩ := hread.1 other _ _ hothers.1
                (delimited_elements elements rest)
                (delimited_elements others tail) hsame
              obtain ⟨htail, hrest⟩ :=
                elements_unique hread.2 hothers.2 hremaining
              rw [hhead, htail]
              exact ⟨rfl, hrest⟩
  | _ => simp [shape] at hshape

theorem readable_obj {members : List (String × Json)}
    (hproper : ∀ member ∈ members, Proper member.2)
    (hread : ∀ member ∈ members, Readable member.2) :
    Readable (.obj members) := by
  intro other rest tail hother hrest htail hsame
  have hshape := shape_eq_of_print (.obj hproper) hother hsame
  cases hother with
  | @obj others hothers =>
      cases members with
      | nil =>
          cases others with
          | nil => simpa [print] using hsame
          | cons other others =>
              obtain ⟨name, value⟩ := other
              simp [print, printMember, printString_toList] at hsame
      | cons member members =>
          obtain ⟨name, value⟩ := member
          cases others with
          | nil => simp [print, printMember, printString_toList] at hsame
          | cons other others =>
              obtain ⟨name', value'⟩ := other
              rw [List.forall_mem_cons] at hread hothers
              simp only [print_obj_cons, List.cons_append,
                List.append_assoc, List.nil_append, List.cons.injEq,
                true_and] at hsame
              obtain ⟨hmember, hremaining⟩ := member_unique hread.1
                hothers.1 (delimited_members members rest)
                (delimited_members others tail) hsame
              obtain ⟨hmembers, hrest⟩ :=
                members_unique hread.2 hothers.2 hremaining
              rw [hmember, hmembers]
              exact ⟨rfl, hrest⟩
  | _ => simp [shape] at hshape

theorem Proper.readable {doc : Json} (hproper : Proper doc) :
    Readable doc := by
  induction hproper with
  | int value => exact readable_int value
  | decimal htext => exact readable_decimal htext
  | arr hproper hread => exact readable_arr hproper hread
  | obj hproper hread => exact readable_obj hproper hread
  | null =>
      intro other rest tail hother _ _ hsame
      have hshape := shape_eq_of_print .null hother hsame
      cases hother with
      | null => exact ⟨rfl, List.append_cancel_left hsame⟩
      | _ => simp [shape] at hshape
  | bool value =>
      intro other rest tail hother _ _ hsame
      have hshape := shape_eq_of_print (.bool value) hother hsame
      cases hother with
      | bool flag =>
          have hflag : value = flag := by
            simpa [shape] using hshape
          subst hflag
          exact ⟨rfl, List.append_cancel_left hsame⟩
      | _ => simp [shape] at hshape
  | str text =>
      intro other rest tail hother _ _ hsame
      have hshape := shape_eq_of_print (.str text) hother hsame
      cases hother with
      | str text' =>
          obtain ⟨htext, hrest⟩ := printString_unique hsame
          exact ⟨by rw [htext], hrest⟩
      | _ => simp [shape] at hshape

theorem Proper.print_inj {doc other : Json} (hdoc : Proper doc)
    (hother : Proper other) : print doc = print other ↔ doc = other := by
  constructor
  · intro hsame
    have hnil : Delimited [] := by simp [Delimited]
    exact (hdoc.readable other [] [] hother hnil hnil (by rw [hsame])).1
  · intro hsame
    rw [hsame]

/-! ## Texts inside texts

A reader that only keeps track of strings and of the nesting finds the end of
an array.  A text that starts like an array of objects can therefore not be
the end of another one: inside a string its first quotation mark would be
followed by the wrong character, and outside it would end too deep. -/

inductive Scan where
  /-- Between strings, `depth` levels inside the array. -/
  | outside (depth : ℕ)
  | inside (depth : ℕ)
  | escaped (depth : ℕ)
  /-- Behind the closing quotation mark of a string. -/
  | closed (depth : ℕ)
  | finished
  deriving DecidableEq, Repr

namespace Scan

def leave : ℕ → Scan
  | 0 => .finished
  | depth + 1 => .outside depth

def step : Scan → Char → Option Scan
  | .outside depth, char =>
      if char = '"' then some (.inside depth)
      else if char = '[' ∨ char = '\x7b' then some (.outside (depth + 1))
      else if char = ']' ∨ char = '\x7d' then some (leave depth)
      else some (.outside depth)
  | .inside depth, char =>
      if char = '"' then some (.closed depth)
      else if char = '\\' then some (.escaped depth)
      else some (.inside depth)
  | .escaped depth, char =>
      if char = '[' then none else some (.inside depth)
  | .closed depth, char =>
      if char = ',' ∨ char = ':' then some (.outside depth)
      else if char = ']' ∨ char = '\x7d' then some (leave depth)
      else none
  | .finished, _ => none

def run : Scan → List Char → Option Scan
  | scan, [] => some scan
  | scan, char :: rest => (scan.step char).bind (fun next => next.run rest)

theorem run_append (scan : Scan) (left right : List Char) :
    scan.run (left ++ right) =
      (scan.run left).bind (fun next => next.run right) := by
  induction left generalizing scan with
  | nil => rfl
  | cons char left ih =>
      simp only [List.cons_append, run]
      cases scan.step char with
      | none => rfl
      | some next => exact ih next

theorem run_of_step {scan : Scan} {chars : List Char}
    (hstep : ∀ char ∈ chars, scan.step char = some scan) :
    scan.run chars = some scan := by
  induction chars with
  | nil => rfl
  | cons char chars ih =>
      rw [List.forall_mem_cons] at hstep
      simp only [run, hstep.1, Option.bind_some]
      exact ih hstep.2

theorem run_number (depth : ℕ) {chars : List Char}
    (hchars : ∀ char ∈ chars, isNumberChar char = true) :
    (outside depth).run chars = some (.outside depth) := by
  apply run_of_step
  intro char hmem
  have hchar := hchars char hmem
  have hother : ∀ special, isNumberChar special = false →
      char ≠ special := by
    intro special hspecial hsame
    rw [hsame, hspecial] at hchar
    simp at hchar
  simp [step, hother '"' rfl, hother '[' rfl, hother '\x7b' rfl,
    hother ']' rfl, hother '\x7d' rfl]

theorem hexDigit_ne {value : ℕ} (hvalue : value < 16) :
    hexDigit value ≠ '"' ∧ hexDigit value ≠ '\\' := by
  interval_cases value <;> decide

theorem run_escapeChar (depth : ℕ) (char : Char) :
    (inside depth).run (escapeChar char) = some (.inside depth) := by
  unfold escapeChar
  split_ifs with hquote hbackslash hback hfeed hline hreturn htab hcontrol
  · simp [run, step]
  · simp [run, step]
  · simp [run, step]
  · simp [run, step]
  · simp [run, step]
  · simp [run, step]
  · simp [run, step]
  · have hhigh : char.toNat / 16 < 16 := by omega
    have hlow : char.toNat % 16 < 16 := by omega
    simp [run, step, hexDigit_ne hhigh, hexDigit_ne hlow]
  · simp [run, step, hquote, hbackslash]

theorem run_escaped (depth : ℕ) (chars : List Char) :
    (inside depth).run (chars.flatMap escapeChar) = some (.inside depth) := by
  induction chars with
  | nil => rfl
  | cons char chars ih =>
      rw [List.flatMap_cons, run_append, run_escapeChar, Option.bind_some]
      exact ih

theorem run_printString (depth : ℕ) (text : String) :
    (outside depth).run (printString text).toList = some (.closed depth) := by
  rw [printString_toList]
  simp only [run, step, if_true, Option.bind_some]
  rw [run_append, run_escaped, Option.bind_some]
  simp [run, step]

def Settled (depth : ℕ) (scan : Scan) : Prop :=
  scan = .outside depth ∨ scan = .closed depth

theorem Settled.step_comma {depth : ℕ} {scan : Scan}
    (hsettled : Settled depth scan) :
    scan.step ',' = some (.outside depth) := by
  rcases hsettled with rfl | rfl <;> simp [step]

theorem Settled.step_close {depth : ℕ} {scan : Scan}
    (hsettled : Settled depth scan) {char : Char}
    (hchar : char = ']' ∨ char = '\x7d') :
    scan.step char = some (leave depth) := by
  rcases hsettled with rfl | rfl <;> rcases hchar with rfl | rfl <;>
    simp [step]

def Passes (doc : Json) : Prop :=
  ∀ depth, ∃ after, (outside depth).run (print doc).toList = some after ∧
    Settled depth after

theorem Passes.run_append {doc : Json} (hpasses : Passes doc) (depth : ℕ) :
    ∃ scan, Settled depth scan ∧ ∀ rest,
      (outside depth).run ((print doc).toList ++ rest) = scan.run rest := by
  obtain ⟨scan, hrun, hsettled⟩ := hpasses depth
  refine ⟨scan, hsettled, ?_⟩
  intro rest
  rw [Scan.run_append, hrun, Option.bind_some]

theorem run_elements {elements : List Json}
    (hpasses : ∀ element ∈ elements, Passes element) {depth : ℕ}
    {scan : Scan} (hsettled : Settled depth scan) (rest : List Char) :
    scan.run ((printElements elements).toList ++ ']' :: rest) =
      (leave depth).run rest := by
  induction elements generalizing scan with
  | nil =>
      simp only [printElements, String.toList_empty, List.nil_append, run,
        hsettled.step_close (Or.inl rfl), Option.bind_some]
  | cons element elements ih =>
      rw [List.forall_mem_cons] at hpasses
      obtain ⟨after, hafter, hrun⟩ := hpasses.1.run_append depth
      simp only [printElements_cons, List.cons_append, List.append_assoc,
        run, hsettled.step_comma, Option.bind_some, hrun]
      exact ih hpasses.2 hafter

theorem run_member (name : String) {value : Json} (hpasses : Passes value)
    (depth : ℕ) :
    ∃ scan, Settled depth scan ∧ ∀ rest,
      (outside depth).run ((printString name).toList ++
        ':' :: ((print value).toList ++ rest)) = scan.run rest := by
  obtain ⟨scan, hsettled, hrun⟩ := hpasses.run_append depth
  refine ⟨scan, hsettled, ?_⟩
  intro rest
  have hcolon : (closed depth).step ':' = some (.outside depth) := by
    simp [step]
  rw [Scan.run_append, run_printString, Option.bind_some]
  simp only [run, hcolon, Option.bind_some, hrun]

theorem run_members {members : List (String × Json)}
    (hpasses : ∀ member ∈ members, Passes member.2) {depth : ℕ}
    {scan : Scan} (hsettled : Settled depth scan) (rest : List Char) :
    scan.run ((printMembers members).toList ++ '\x7d' :: rest) =
      (leave depth).run rest := by
  induction members generalizing scan with
  | nil =>
      simp only [printMembers, String.toList_empty, List.nil_append, run,
        hsettled.step_close (Or.inr rfl), Option.bind_some]
  | cons member members ih =>
      obtain ⟨name, value⟩ := member
      rw [List.forall_mem_cons] at hpasses
      obtain ⟨after, hafter, hrun⟩ := run_member name hpasses.1 depth
      simp only [printMembers_cons, List.cons_append, List.append_assoc,
        run, hsettled.step_comma, Option.bind_some, hrun]
      exact ih hpasses.2 hafter

theorem exists_arr_body {elements : List Json}
    (hpasses : ∀ element ∈ elements, Passes element) :
    ∃ body, (print (.arr elements)).toList = '[' :: body ∧
      ∀ depth rest,
        (outside depth).run (body ++ rest) = (leave depth).run rest := by
  cases elements with
  | nil =>
      refine ⟨[']'], print_arr_nil, ?_⟩
      intro depth rest
      simp [run, step]
  | cons element elements =>
      rw [List.forall_mem_cons] at hpasses
      refine ⟨_, print_arr_cons element elements, ?_⟩
      intro depth rest
      obtain ⟨scan, hsettled, hrun⟩ := hpasses.1.run_append depth
      simp only [List.append_assoc, List.cons_append, List.nil_append, hrun]
      exact run_elements hpasses.2 hsettled rest

theorem exists_obj_body {members : List (String × Json)}
    (hpasses : ∀ member ∈ members, Passes member.2) :
    ∃ body, (print (.obj members)).toList = '\x7b' :: body ∧
      ∀ depth rest,
        (outside depth).run (body ++ rest) = (leave depth).run rest := by
  cases members with
  | nil =>
      refine ⟨['\x7d'], rfl, ?_⟩
      intro depth rest
      simp [run, step]
  | cons member members =>
      obtain ⟨name, value⟩ := member
      rw [List.forall_mem_cons] at hpasses
      refine ⟨_, print_obj_cons name value members, ?_⟩
      intro depth rest
      obtain ⟨scan, hsettled, hrun⟩ := run_member name hpasses.1 depth
      simp only [List.append_assoc, List.cons_append, List.nil_append, hrun]
      exact run_members hpasses.2 hsettled rest

theorem passes_of_body {doc : Json} {char : Char} {body : List Char}
    (hopen : char = '[' ∨ char = '\x7b')
    (hprint : (print doc).toList = char :: body)
    (hrun : ∀ depth rest,
      (outside depth).run (body ++ rest) = (leave depth).run rest) :
    Passes doc := by
  intro depth
  refine ⟨.outside depth, ?_, Or.inl rfl⟩
  have hopened : (outside depth).step char = some (.outside (depth + 1)) := by
    rcases hopen with rfl | rfl <;> simp [step]
  have hclosed := hrun (depth + 1) []
  rw [List.append_nil] at hclosed
  rw [hprint, run, hopened, Option.bind_some, hclosed]
  rfl

end Scan

theorem Proper.passes {doc : Json} (hproper : Proper doc) :
    Scan.Passes doc := by
  induction hproper with
  | null =>
      intro depth
      refine ⟨.outside depth, ?_, Or.inl rfl⟩
      simp [print, Scan.run, Scan.step]
  | bool value =>
      intro depth
      refine ⟨.outside depth, ?_, Or.inl rfl⟩
      cases value <;> simp [print, Scan.run, Scan.step]
  | int value =>
      intro depth
      exact ⟨_, Scan.run_number depth
        (fun char hmem => isNumberChar_of_mem_int hmem), Or.inl rfl⟩
  | decimal htext =>
      intro depth
      exact ⟨_, Scan.run_number depth htext.number, Or.inl rfl⟩
  | str text =>
      intro depth
      exact ⟨_, Scan.run_printString depth text, Or.inr rfl⟩
  | arr hproper hpasses =>
      obtain ⟨body, hbody, hrun⟩ := Scan.exists_arr_body hpasses
      exact Scan.passes_of_body (Or.inl rfl) hbody hrun
  | obj hproper hpasses =>
      obtain ⟨body, hbody, hrun⟩ := Scan.exists_obj_body hpasses
      exact Scan.passes_of_body (Or.inr rfl) hbody hrun

/-- An array whose first element is an object with a first name that starts
like a word. -/
def Anchored (text : List Char) : Prop :=
  ∃ char rest, text = '[' :: '\x7b' :: '"' :: char :: rest ∧
    char ≠ ',' ∧ char ≠ ':' ∧ char ≠ ']' ∧ char ≠ '\x7d'

/-- No array of objects is a proper end of another array. -/
theorem eq_nil_of_suffix {elements others : List Json}
    (helements : ∀ element ∈ elements, Proper element)
    (hothers : ∀ other ∈ others, Proper other)
    (hanchored : Anchored (print (.arr others)).toList) {lead : List Char}
    (hsame : (print (.arr elements)).toList =
      lead ++ (print (.arr others)).toList) :
    lead = [] := by
  cases lead with
  | nil => rfl
  | cons first lead =>
      exfalso
      obtain ⟨body, hbody, hrun⟩ := Scan.exists_arr_body
        (fun element hmem => (helements element hmem).passes)
      obtain ⟨inner, hinner, hclose⟩ := Scan.exists_arr_body
        (fun other hmem => (hothers other hmem).passes)
      rw [hbody, List.cons_append, List.cons.injEq] at hsame
      have hend : (Scan.outside 0).run body = some .finished := by
        simpa [Scan.run, Scan.leave] using hrun 0 []
      rw [hsame.2, Scan.run_append, Option.bind_eq_some_iff] at hend
      obtain ⟨scan, _, hscan⟩ := hend
      cases scan with
      | outside depth =>
          have hdeep := hclose (depth + 1) []
          rw [List.append_nil] at hdeep
          simp [hinner, Scan.run, Scan.step, hdeep, Scan.leave] at hscan
      | inside depth =>
          obtain ⟨char, rest, htext, hcomma, hcolon, hbracket, hbrace⟩ :=
            hanchored
          simp [htext, Scan.run, Scan.step, hcomma, hcolon, hbracket,
            hbrace] at hscan
      | escaped depth => simp [hinner, Scan.run, Scan.step] at hscan
      | closed depth => simp [hinner, Scan.run, Scan.step] at hscan
      | finished => simp [hinner, Scan.run, Scan.step] at hscan

theorem elements_eq_of_bytes {elements others : List Json}
    (helements : ∀ element ∈ elements, Proper element)
    (hothers : ∀ other ∈ others, Proper other)
    (hanchored : Anchored (print (.arr others)).toList) {front : Bytes}
    (hsame : asBytes (print (.arr elements)) =
      front ++ asBytes (print (.arr others))) :
    front = [] ∧ elements = others := by
  obtain ⟨lead, hlead⟩ := exists_lead_of_asBytes hsame
  have hnil := eq_nil_of_suffix helements hothers hanchored hlead
  rw [hnil, List.nil_append] at hlead
  have htext : print (.arr elements) = print (.arr others) :=
    String.toList_inj.mp hlead
  have hdocs : Json.arr elements = .arr others :=
    ((Proper.arr helements).print_inj (.arr hothers)).mp htext
  rw [htext] at hsame
  have hlength := congrArg List.length hsame
  rw [List.length_append] at hlength
  refine ⟨List.eq_nil_of_length_eq_zero (by omega), ?_⟩
  injection hdocs

/-- Where an array of objects follows other bytes, the whole determines both
parts. -/
theorem front_and_elements_eq {front front' : Bytes}
    {elements others : List Json}
    (helements : ∀ element ∈ elements, Proper element)
    (hothers : ∀ other ∈ others, Proper other)
    (hanchored : Anchored (print (.arr elements)).toList)
    (hanchored' : Anchored (print (.arr others)).toList)
    (hsame : front ++ asBytes (print (.arr elements)) =
      front' ++ asBytes (print (.arr others))) :
    front = front' ∧ elements = others := by
  rcases List.append_eq_append_iff.mp hsame with
    ⟨between, hfront, hbytes⟩ | ⟨between, hfront, hbytes⟩
  · obtain ⟨hnil, hdocs⟩ :=
      elements_eq_of_bytes helements hothers hanchored' hbytes
    rw [hnil, List.append_nil] at hfront
    exact ⟨hfront.symm, hdocs⟩
  · obtain ⟨hnil, hdocs⟩ :=
      elements_eq_of_bytes hothers helements hanchored hbytes
    rw [hnil, List.append_nil] at hfront
    exact ⟨hfront, hdocs.symm⟩

/-! ## Values -/

theorem Value.Normal.proper_encode {floats : FloatText}
    (hfloats : ∀ bits, DecimalText (floats.print bits)) {value : Value}
    (hnormal : value.Normal) : Proper (value.encode floats) := by
  induction hnormal with
  | null => exact .null
  | bool value => exact .bool value
  | str text => exact .str text
  | number number =>
      cases number with
      | posInt value => exact .int _
      | negInt value lower negative => exact .int _
      | float bits => exact .decimal (hfloats bits)
  | array helements ih =>
      apply Proper.arr
      rw [Value.encodeElements_eq_map]
      intro element hmem
      obtain ⟨original, horiginal, rfl⟩ := List.mem_map.mp hmem
      exact ih original horiginal
  | object hsorted hmembers ih =>
      apply Proper.obj
      rw [Value.encodeMembers_eq_map]
      intro member hmem
      obtain ⟨original, horiginal, rfl⟩ := List.mem_map.mp hmem
      exact ih original horiginal

theorem OrderedMap.proper_serialize {floats : FloatText}
    (hfloats : ∀ bits, DecimalText (floats.print bits)) (map : OrderedMap) :
    ∀ member ∈ map.serialize floats, Proper member.2 := by
  rw [OrderedMap.serialize, Value.encodeMembers_eq_map]
  intro member hmem
  obtain ⟨original, horiginal, rfl⟩ := List.mem_map.mp hmem
  exact (map.normal original horiginal).proper_encode hfloats

end Json
end Acdp
