import Acdp.JsonValue
import Mathlib.Data.Bool.AllAny

/-!
# The grammar of JSON texts

Which texts stand for which document.  A text is scanned in one pass for what
is inside of its strings: the scan begins and ends between strings, and
outside of strings only structural characters occur.
-/

namespace Acdp
namespace Json

/-! ## Tokens -/

def spaceChars : List Char := [' ', '\n', '\r', '\t']

def Space (text : List Char) : Prop := ∀ char ∈ text, char ∈ spaceChars

def isHex (char : Char) : Bool :=
  char.isDigit || ('a' ≤ char && char ≤ 'f') || ('A' ≤ char && char ≤ 'F')

def hexValueOf (char : Char) : ℕ :=
  if char.isDigit then char.toNat - '0'.toNat
  else if 'a' ≤ char then char.toNat - 'a'.toNat + 10
  else char.toNat - 'A'.toNat + 10

def hexCode (digits : List Char) : ℕ :=
  digits.foldl (fun code digit => code * 16 + hexValueOf digit) 0

structure FourHex (digits : List Char) : Prop where
  length : digits.length = 4
  hex : ∀ digit ∈ digits, isHex digit = true

def escapes : List (Char × Char) :=
  [('"', '"'), ('\\', '\\'), ('/', '/'), ('b', Char.ofNat 8),
    ('f', Char.ofNat 12), ('n', '\n'), ('r', '\r'), ('t', '\t')]

def highSurrogate (code : ℕ) : Prop := 0xD800 ≤ code ∧ code < 0xDC00

def lowSurrogate (code : ℕ) : Prop := 0xDC00 ≤ code ∧ code < 0xE000

/-- What is between the quotation marks of a string, and the characters that
it stands for. -/
inductive StringBody : List Char → List Char → Prop
  | nil : StringBody [] []
  | plain (char : Char) {body chars : List Char} (hquote : char ≠ '"')
      (hescape : char ≠ '\\') (hcontrol : 0x20 ≤ char.toNat)
      (hrest : StringBody body chars) :
      StringBody (char :: body) (char :: chars)
  | escape {letter char : Char} {body chars : List Char}
      (hletter : (letter, char) ∈ escapes) (hrest : StringBody body chars) :
      StringBody ('\\' :: letter :: body) (char :: chars)
  | unicode {digits body chars : List Char} (hdigits : FourHex digits)
      (hhigh : ¬ highSurrogate (hexCode digits))
      (hlow : ¬ lowSurrogate (hexCode digits))
      (hrest : StringBody body chars) :
      StringBody ('\\' :: 'u' :: (digits ++ body))
        (Char.ofNat (hexCode digits) :: chars)
  | surrogates {high low body chars : List Char} (hhigh : FourHex high)
      (hhighCode : highSurrogate (hexCode high)) (hlow : FourHex low)
      (hlowCode : lowSurrogate (hexCode low))
      (hrest : StringBody body chars) :
      StringBody ('\\' :: 'u' :: (high ++ '\\' :: 'u' :: (low ++ body)))
        (Char.ofNat (0x10000 + (hexCode high - 0xD800) * 0x400 +
          (hexCode low - 0xDC00)) :: chars)

def Digits (text : List Char) : Prop :=
  text ≠ [] ∧ ∀ char ∈ text, char.isDigit = true

/-- `mark` and `sign` belong to the exponent. -/
structure NumberToken where
  negative : Bool
  whole : List Char
  fraction : Option (List Char)
  exponent : Option (Char × List Char × List Char)
  whole_digits : Digits whole
  whole_zero : whole.head? = some '0' → whole = ['0']
  fraction_digits : ∀ digits ∈ fraction, Digits digits
  exponent_mark : ∀ power ∈ exponent, power.1 ∈ ['e', 'E']
  exponent_sign : ∀ power ∈ exponent, power.2.1 ∈ [[], ['+'], ['-']]
  exponent_digits : ∀ power ∈ exponent, Digits power.2.2

namespace NumberToken

variable (token : NumberToken)

def text : List Char :=
  (if token.negative then ['-'] else []) ++ token.whole ++
    (match token.fraction with
      | some digits => '.' :: digits
      | none => []) ++
    (match token.exponent with
      | some (mark, sign, digits) => mark :: (sign ++ digits)
      | none => [])

def magnitude : ℕ :=
  token.whole.foldl (fun value digit => value * 10 + (digit.toNat - 48)) 0

/-- A negative zero is no integer. -/
def doc : Json :=
  if token.fraction = none ∧ token.exponent = none ∧
      ¬ (token.negative = true ∧ token.whole = ['0']) then
    .int (if token.negative then -(token.magnitude : ℤ) else token.magnitude)
  else .decimal (String.ofList token.text)

end NumberToken

/-! ## Texts -/

/-- What a piece of text can stand for; a document may have space around it. -/
inductive Part where
  | value (doc : Json)
  | document (doc : Json)
  | elements (docs : List Json)
  | member (name : String) (doc : Json)
  | members (members : List (String × Json))

inductive Derives : Part → List Char → Prop
  | null : Derives (.value .null) ['n', 'u', 'l', 'l']
  | true : Derives (.value (.bool true)) ['t', 'r', 'u', 'e']
  | false : Derives (.value (.bool false)) ['f', 'a', 'l', 's', 'e']
  | number (token : NumberToken) : Derives (.value token.doc) token.text
  | string {body chars : List Char} (hbody : StringBody body chars) :
      Derives (.value (.str (String.ofList chars))) ('"' :: (body ++ ['"']))
  | emptyArray {space : List Char} (hspace : Space space) :
      Derives (.value (.arr [])) ('[' :: (space ++ [']']))
  | array {docs : List Json} {text : List Char}
      (hdocs : Derives (.elements docs) text) :
      Derives (.value (.arr docs)) ('[' :: (text ++ [']']))
  | emptyObject {space : List Char} (hspace : Space space) :
      Derives (.value (.obj [])) ('\x7b' :: (space ++ ['\x7d']))
  | object {members : List (String × Json)} {text : List Char}
      (hmembers : Derives (.members members) text) :
      Derives (.value (.obj members)) ('\x7b' :: (text ++ ['\x7d']))
  | document {doc : Json} {before text after : List Char}
      (hbefore : Space before) (htext : Derives (.value doc) text)
      (hafter : Space after) :
      Derives (.document doc) (before ++ text ++ after)
  | oneElement {doc : Json} {text : List Char}
      (htext : Derives (.document doc) text) : Derives (.elements [doc]) text
  | moreElements {doc : Json} {docs : List Json} {text rest : List Char}
      (htext : Derives (.document doc) text)
      (hrest : Derives (.elements docs) rest) :
      Derives (.elements (doc :: docs)) (text ++ ',' :: rest)
  | member {doc : Json} {before body chars after text : List Char}
      (hbefore : Space before) (hname : StringBody body chars)
      (hafter : Space after) (htext : Derives (.document doc) text) :
      Derives (.member (String.ofList chars) doc)
        (before ++ '"' :: (body ++ ['"']) ++ after ++ ':' :: text)
  | oneMember {name : String} {doc : Json} {text : List Char}
      (htext : Derives (.member name doc) text) :
      Derives (.members [(name, doc)]) text
  | moreMembers {name : String} {doc : Json}
      {members : List (String × Json)} {text rest : List Char}
      (htext : Derives (.member name doc) text)
      (hrest : Derives (.members members) rest) :
      Derives (.members ((name, doc) :: members)) (text ++ ',' :: rest)

/-! ## Inside and outside of strings -/

inductive Mode where
  | between
  | within
  | escaped
  deriving DecidableEq

namespace Mode

def step : Mode → Char → Mode
  | .between, char => if char = '"' then .within else .between
  | .within, char =>
      if char = '"' then .between
      else if char = '\\' then .escaped
      else .within
  | .escaped, _ => .within

def scan (mode : Mode) (text : List Char) : Mode := text.foldl step mode

@[simp] theorem scan_nil (mode : Mode) : mode.scan [] = mode := rfl

@[simp] theorem scan_cons (mode : Mode) (char : Char) (text : List Char) :
    mode.scan (char :: text) = (mode.step char).scan text := rfl

theorem scan_append (mode : Mode) (front rest : List Char) :
    mode.scan (front ++ rest) = (mode.scan front).scan rest :=
  List.foldl_append

theorem scan_of_not_mem {text : List Char} (htext : '"' ∉ text) :
    between.scan text = between := by
  induction text with
  | nil => rfl
  | cons char text ih =>
      rw [List.mem_cons, not_or] at htext
      rw [scan_cons, step, if_neg (Ne.symm htext.1), ih htext.2]

end Mode

/-- The characters that occur outside of strings. -/
def structuralChars : List Char :=
  " \n\r\t\x7b\x7d[]:,\"0123456789+-.eEtrufalsn".toList

def Structural (char : Char) : Prop := char ∈ structuralChars

instance (char : Char) : Decidable (Structural char) :=
  inferInstanceAs (Decidable (_ ∈ _))

/-- Outside of strings everything is structural. -/
def Orderly : Mode → List Char → Prop
  | _, [] => True
  | mode, char :: rest =>
      (mode = .between → Structural char) ∧ Orderly (mode.step char) rest

theorem orderly_append (mode : Mode) (front rest : List Char) :
    Orderly mode (front ++ rest) ↔
      Orderly mode front ∧ Orderly (mode.scan front) rest := by
  induction front generalizing mode with
  | nil => simp [Orderly]
  | cons char front ih =>
      rw [List.cons_append, Orderly, Orderly, ih, Mode.scan_cons, and_assoc]

/-- A text that can stand between strings. -/
structure Closed (text : List Char) : Prop where
  scan : Mode.between.scan text = .between
  orderly : Orderly .between text

theorem Closed.nil : Closed [] := ⟨rfl, trivial⟩

theorem Closed.append {front rest : List Char} (hfront : Closed front)
    (hrest : Closed rest) : Closed (front ++ rest) where
  scan := by rw [Mode.scan_append, hfront.scan, hrest.scan]
  orderly := by
    rw [orderly_append, hfront.scan]
    exact ⟨hfront.orderly, hrest.orderly⟩

theorem closed_of_structural {text : List Char}
    (htext : ∀ char ∈ text, Structural char ∧ char ≠ '"') : Closed text := by
  induction text with
  | nil => exact Closed.nil
  | cons char text ih =>
      rw [List.forall_mem_cons] at htext
      obtain ⟨⟨hchar, hquote⟩, htext⟩ := htext
      have hstep : Mode.between.step char = .between := if_neg hquote
      refine ⟨?_, fun _ => hchar, ?_⟩
      · rw [Mode.scan_cons, hstep, (ih htext).scan]
      · rw [hstep]
        exact (ih htext).orderly

theorem closed_of_all {text : List Char}
    (hall : text.all (fun char => Structural char ∧ char ≠ '"') = true) :
    Closed text :=
  closed_of_structural (List.all_iff_forall_prop.mp hall)

theorem closed_of_space {space : List Char} (hspace : Space space) :
    Closed space := by
  have hall : ∀ char ∈ spaceChars, Structural char ∧ char ≠ '"' :=
    List.all_iff_forall_prop.mp (by decide)
  exact closed_of_structural (fun char hchar => hall char (hspace char hchar))

theorem structural_of_isDigit {char : Char} (hdigit : char.isDigit = true) :
    Structural char ∧ char ≠ '"' := by
  have hchar := Char.ofNat_toNat char
  simp only [Char.isDigit, Bool.and_eq_true, decide_eq_true_eq] at hdigit
  have hlower : 48 ≤ char.toNat := hdigit.1
  have hupper : char.toNat ≤ 57 := hdigit.2
  rw [← hchar]
  unfold Structural
  generalize char.toNat = code at hlower hupper
  interval_cases code <;> decide

theorem NumberToken.closed (token : NumberToken) : Closed token.text := by
  have hdigits : ∀ {digits : List Char}, Digits digits → Closed digits := by
    intro digits hdigits
    exact closed_of_structural
      (fun char hchar => structural_of_isDigit (hdigits.2 char hchar))
  have hsigns : ∀ sign ∈ [[], ['+'], ['-']], Closed sign := by
    intro sign hsign
    apply closed_of_all
    revert sign
    decide
  have hmarks : ∀ mark ∈ ['e', 'E', '.'],
      Structural mark ∧ mark ≠ '"' :=
    List.all_iff_forall_prop.mp (by decide)
  have hmark : ∀ {mark : Char} {rest : List Char}, mark ∈ ['e', 'E', '.'] →
      Closed rest → Closed (mark :: rest) := by
    intro mark rest hmem hrest
    rw [← List.singleton_append]
    refine Closed.append (closed_of_structural ?_) hrest
    intro char hchar
    rw [List.mem_singleton.mp hchar]
    exact hmarks mark hmem
  refine Closed.append (Closed.append (Closed.append ?_ ?_) ?_) ?_
  · split_ifs
    · exact hsigns ['-'] (by decide)
    · exact hsigns [] (by decide)
  · exact hdigits token.whole_digits
  · cases hfraction : token.fraction with
    | none => exact Closed.nil
    | some digits =>
        exact hmark (by decide)
          (hdigits (token.fraction_digits digits (by simp [hfraction])))
  · cases hexponent : token.exponent with
    | none => exact Closed.nil
    | some power =>
        obtain ⟨mark, sign, digits⟩ := power
        have hpower : (mark, sign, digits) ∈ token.exponent := by
          simp [hexponent]
        have hmem : mark ∈ ['e', 'E', '.'] := by
          have hletter := token.exponent_mark _ hpower
          simp only [List.mem_cons, List.not_mem_nil, or_false] at hletter ⊢
          rcases hletter with hlower | hupper
          · exact Or.inl hlower
          · exact Or.inr (Or.inl hupper)
        refine hmark hmem (Closed.append ?_ ?_)
        · exact hsigns sign (token.exponent_sign _ hpower)
        · exact hdigits (token.exponent_digits _ hpower)

/-- A text that is cut in front of a character that is not structural ends
inside of a string. -/
theorem Closed.scan_front_ne {front rest : List Char} {char : Char}
    (hclosed : Closed (front ++ char :: rest)) (hchar : ¬ Structural char) :
    Mode.between.scan front ≠ .between := by
  intro hscan
  have horderly := ((orderly_append _ _ _).mp hclosed.orderly).2
  rw [hscan] at horderly
  exact hchar (horderly.1 rfl)

/-! ## Strings -/

/-- A text that stays inside of a string. -/
def Inside (text : List Char) : Prop :=
  Mode.within.scan text = .within ∧ Orderly .within text

theorem inside_of_plain {text : List Char}
    (htext : ∀ char ∈ text, char ≠ '"' ∧ char ≠ '\\') : Inside text := by
  induction text with
  | nil => exact ⟨rfl, trivial⟩
  | cons char text ih =>
      rw [List.forall_mem_cons] at htext
      obtain ⟨⟨hquote, hescape⟩, htext⟩ := htext
      have hstep : Mode.within.step char = .within := by
        rw [Mode.step, if_neg hquote, if_neg hescape]
      obtain ⟨hscan, horderly⟩ := ih htext
      refine ⟨?_, ?_, ?_⟩
      · rw [Mode.scan_cons, hstep, hscan]
      · intro hmode
        cases hmode
      · rw [hstep]
        exact horderly

theorem Inside.append {front rest : List Char} (hfront : Inside front)
    (hrest : Inside rest) : Inside (front ++ rest) := by
  constructor
  · rw [Mode.scan_append, hfront.1, hrest.1]
  · rw [orderly_append, hfront.1]
    exact ⟨hfront.2, hrest.2⟩

theorem inside_of_escape (letter : Char) : Inside ['\\', letter] := by
  refine ⟨rfl, ?_, ?_, trivial⟩
  · intro hmode
    cases hmode
  · intro hmode
    cases hmode

theorem FourHex.plain {digits : List Char} (hdigits : FourHex digits) :
    ∀ char ∈ digits, char ≠ '"' ∧ char ≠ '\\' := by
  intro char hchar
  have hhex := hdigits.hex char hchar
  constructor
  all_goals
    rintro rfl
    revert hhex
    decide

theorem StringBody.inside {body chars : List Char}
    (hbody : StringBody body chars) : Inside body := by
  induction hbody with
  | nil => exact ⟨rfl, trivial⟩
  | plain char hquote hescape hcontrol hrest ih =>
      rw [← List.singleton_append]
      refine Inside.append (inside_of_plain ?_) ih
      intro other hother
      rw [List.mem_singleton.mp hother]
      exact ⟨hquote, hescape⟩
  | @escape letter char body chars hletter hrest ih =>
      exact (inside_of_escape letter).append ih
  | unicode hdigits hhigh hlow hrest ih =>
      exact (inside_of_escape 'u').append
        ((inside_of_plain hdigits.plain).append ih)
  | surrogates hhigh hhighCode hlow hlowCode hrest ih =>
      exact (inside_of_escape 'u').append
        ((inside_of_plain hhigh.plain).append
          ((inside_of_escape 'u').append
            ((inside_of_plain hlow.plain).append ih)))

theorem stringBody_self {text : List Char}
    (htext : ∀ char ∈ text, char ≠ '"' ∧ char ≠ '\\' ∧ 0x20 ≤ char.toNat) :
    StringBody text text := by
  induction text with
  | nil => exact .nil
  | cons char text ih =>
      rw [List.forall_mem_cons] at htext
      obtain ⟨⟨hquote, hescape, hcontrol⟩, htext⟩ := htext
      exact .plain char hquote hescape hcontrol (ih htext)

theorem StringBody.closed {body chars : List Char}
    (hbody : StringBody body chars) : Closed ('"' :: (body ++ ['"'])) := by
  have hinside := hbody.inside
  have hquote : Structural '"' := by
    unfold Structural
    decide
  constructor
  · rw [Mode.scan_cons, Mode.scan_append]
    change (Mode.within.scan body).scan ['"'] = .between
    rw [hinside.1]
    rfl
  · refine ⟨fun _ => hquote, ?_⟩
    change Orderly .within (body ++ ['"'])
    rw [orderly_append, hinside.1]
    exact ⟨hinside.2, fun _ => hquote, trivial⟩

/-- A text of the grammar is scanned from between strings to between
strings. -/
theorem Derives.closed {part : Part} {text : List Char}
    (hderives : Derives part text) : Closed text := by
  have hmark : ∀ mark ∈ "[]\x7b\x7d,:".toList, Closed [mark] := by
    have hall : ∀ mark ∈ "[]\x7b\x7d,:".toList,
        Structural mark ∧ mark ≠ '"' :=
      List.all_iff_forall_prop.mp (by decide)
    intro mark hmem
    apply closed_of_structural
    intro char hchar
    rw [List.mem_singleton.mp hchar]
    exact hall mark hmem
  induction hderives with
  | null => exact closed_of_all (by decide)
  | true => exact closed_of_all (by decide)
  | false => exact closed_of_all (by decide)
  | number token => exact token.closed
  | string hbody => exact hbody.closed
  | emptyArray hspace =>
      exact (hmark '[' (by decide)).append
        ((closed_of_space hspace).append (hmark ']' (by decide)))
  | array hdocs ih =>
      exact (hmark '[' (by decide)).append (ih.append (hmark ']' (by decide)))
  | emptyObject hspace =>
      exact (hmark '\x7b' (by decide)).append
        ((closed_of_space hspace).append (hmark '\x7d' (by decide)))
  | object hmembers ih =>
      exact (hmark '\x7b' (by decide)).append
        (ih.append (hmark '\x7d' (by decide)))
  | document hbefore htext hafter ih =>
      exact ((closed_of_space hbefore).append ih).append
        (closed_of_space hafter)
  | oneElement htext ih => exact ih
  | moreElements htext hrest ih ihrest =>
      exact ih.append ((hmark ',' (by decide)).append ihrest)
  | member hbefore hname hafter htext ih =>
      exact (((closed_of_space hbefore).append hname.closed).append
        (closed_of_space hafter)).append ((hmark ':' (by decide)).append ih)
  | oneMember htext ih => exact ih
  | moreMembers htext hrest ih ihrest =>
      exact ih.append ((hmark ',' (by decide)).append ihrest)

/-! ## Reading a text -/

/-- `serde_json::from_str`: at most 127 arrays and objects inside of each
other. -/
def ReadsText (floats : FloatText) (text : List Char) (value : Value) : Prop :=
  ∃ doc, Derives (.document doc) text ∧ doc.fits 127 = true ∧
    Value.decode floats doc = some value

theorem ReadsText.closed {floats : FloatText} {text : List Char} {value : Value}
    (hreads : ReadsText floats text value) : Closed text := by
  obtain ⟨doc, hderives, -⟩ := hreads
  exact hderives.closed

theorem Derives.document_self {doc : Json} {text : List Char}
    (htext : Derives (.value doc) text) : Derives (.document doc) text := by
  have hspace : Space [] := by simp [Space]
  have hderives := Derives.document hspace htext hspace
  rwa [List.nil_append, List.append_nil] at hderives

theorem NumberToken.doc_ne_obj (token : NumberToken)
    (members : List (String × Json)) : token.doc ≠ .obj members := by
  unfold doc
  split_ifs <;> simp

/-- An object is written from brace to brace. -/
theorem Derives.exists_braces {members : List (String × Json)}
    {text : List Char} (htext : Derives (.value (.obj members)) text) :
    ∃ body, text = '\x7b' :: (body ++ ['\x7d']) := by
  generalize hpart : Part.value (.obj members) = part at htext
  cases htext with
  | number token =>
      cases (token.doc_ne_obj members) (Part.value.inj hpart).symm
  | emptyObject hspace => exact ⟨_, rfl⟩
  | object hmembers => exact ⟨_, rfl⟩
  | null => cases hpart
  | true => cases hpart
  | false => cases hpart
  | string hbody => cases hpart
  | emptyArray hspace => cases hpart
  | array hdocs => cases hpart
  | document hbefore htext hafter => cases hpart
  | oneElement htext => cases hpart
  | moreElements htext hrest => cases hpart
  | member hbefore hname hafter htext => cases hpart
  | oneMember htext => cases hpart
  | moreMembers htext hrest => cases hpart

theorem Derives.exists_value {doc : Json} {text : List Char}
    (htext : Derives (.document doc) text) :
    ∃ before inner after, Space before ∧ Space after ∧
      Derives (.value doc) inner ∧ text = before ++ (inner ++ after) := by
  cases htext with
  | document hbefore hinner hafter =>
      exact ⟨_, _, _, hbefore, hafter, hinner, List.append_assoc _ _ _⟩

end Json
end Acdp
