import Acdp.ByteStrings

/-!
# JSON documents and record readers

Documents as a parser delivers them: an object keeps its members in the order
of the text, repeated names included, and a number that is no integer keeps
its text.  Readers of records follow the convention that an unknown member is
skipped and a repeated known member is an error.  A reader returns `none`
where reading fails.
-/

namespace Acdp

inductive Json where
  | null
  | bool (value : Bool)
  | int (value : ℤ)
  | decimal (text : String)
  | str (text : String)
  | arr (elements : List Json)
  | obj (members : List (String × Json))

namespace Json

def fits : ℕ → Json → Bool
  | 0, .arr _ => false
  | 0, .obj _ => false
  | depth + 1, .arr elements => elements.all (fun element => fits depth element)
  | depth + 1, .obj members => members.all (fun member => fits depth member.2)
  | _, _ => true

@[simp] theorem fits_null (depth : ℕ) : fits depth .null = true := by
  cases depth <;> rfl

@[simp] theorem fits_bool (depth : ℕ) (value : Bool) :
    fits depth (.bool value) = true := by
  cases depth <;> rfl

@[simp] theorem fits_int (depth : ℕ) (value : ℤ) :
    fits depth (.int value) = true := by
  cases depth <;> rfl

@[simp] theorem fits_decimal (depth : ℕ) (text : String) :
    fits depth (.decimal text) = true := by
  cases depth <;> rfl

@[simp] theorem fits_str (depth : ℕ) (text : String) :
    fits depth (.str text) = true := by
  cases depth <;> rfl

@[simp] theorem fits_arr_succ (depth : ℕ) (elements : List Json) :
    fits (depth + 1) (.arr elements) =
      elements.all (fun element => fits depth element) := rfl

@[simp] theorem fits_obj_succ (depth : ℕ) (members : List (String × Json)) :
    fits (depth + 1) (.obj members) =
      members.all (fun member => fits depth member.2) := rfl

/-! ## Text -/

/-- The escapes of a string: short forms where there are any, and a code
point for the other control characters. -/
def escapeChar (char : Char) : List Char :=
  if char = '"' then ['\\', '"']
  else if char = '\\' then ['\\', '\\']
  else if char.toNat = 8 then ['\\', 'b']
  else if char.toNat = 12 then ['\\', 'f']
  else if char.toNat = 10 then ['\\', 'n']
  else if char.toNat = 13 then ['\\', 'r']
  else if char.toNat = 9 then ['\\', 't']
  else if char.toNat < 32 then
    ['\\', 'u', '0', '0', hexDigit (char.toNat / 16),
      hexDigit (char.toNat % 16)]
  else [char]

def printString (text : String) : String :=
  "\"" ++ String.ofList (text.toList.flatMap escapeChar) ++ "\""

mutual

/-- The compact text of a document. -/
def print : Json → String
  | .null => "null"
  | .bool value => if value then "true" else "false"
  | .int value => toString value
  | .decimal text => text
  | .str text => printString text
  | .arr [] => "[]"
  | .arr (element :: rest) => "[" ++ print element ++ printElements rest ++ "]"
  | .obj [] => "\x7b\x7d"
  | .obj (member :: rest) =>
      "\x7b" ++ printMember member ++ printMembers rest ++ "\x7d"

def printElements : List Json → String
  | [] => ""
  | element :: rest => "," ++ print element ++ printElements rest

def printMembers : List (String × Json) → String
  | [] => ""
  | member :: rest => "," ++ printMember member ++ printMembers rest

def printMember : String × Json → String
  | (name, value) => printString name ++ ":" ++ print value

end

/-! ## Members of an object -/

/-- The values of all members of one name. -/
def entries (members : List (String × Json)) (name : String) : List Json :=
  (members.filter (fun member => member.1 == name)).map Prod.snd

@[simp] theorem entries_nil (name : String) : entries [] name = [] := rfl

@[simp] theorem entries_append (left right : List (String × Json))
    (name : String) :
    entries (left ++ right) name = entries left name ++ entries right name := by
  simp [entries]

theorem entries_cons (key : String) (value : Json)
    (rest : List (String × Json)) (name : String) :
    entries ((key, value) :: rest) name =
      if key = name then value :: entries rest name
      else entries rest name := by
  by_cases hkey : key = name
  · simp [entries, hkey]
  · simp [entries, hkey]

theorem entries_eq_nil {members : List (String × Json)} {name : String}
    (habsent : ∀ member ∈ members, member.1 ≠ name) :
    entries members name = [] := by
  rw [entries, List.map_eq_nil_iff, List.filter_eq_nil_iff]
  intro member hmember
  simpa using habsent member hmember

/-- Where no name repeats, each member is the only one of its name. -/
theorem entries_of_getElem? {members : List (String × Json)}
    (hnodup : (members.map Prod.fst).Nodup) (index : ℕ) {name : String}
    {value : Json} (hmember : members[index]? = some (name, value)) :
    entries members name = [value] := by
  induction members generalizing index with
  | nil => simp at hmember
  | cons member rest ih =>
      rw [List.map_cons, List.nodup_cons] at hnodup
      cases index with
      | zero =>
          rw [List.getElem?_cons_zero, Option.some.injEq] at hmember
          have habsent : entries rest name = [] := by
            apply entries_eq_nil
            intro other hother hsame
            apply hnodup.1
            rw [hmember]
            exact List.mem_map.mpr ⟨other, hother, hsame⟩
          rw [hmember, entries_cons, if_pos rfl, habsent]
      | succ index =>
          rw [List.getElem?_cons_succ] at hmember
          have hname : name ∈ rest.map Prod.fst :=
            List.mem_map_of_mem (List.mem_of_getElem? hmember)
          have hne : member.1 ≠ name := by
            intro hsame
            rw [hsame] at hnodup
            exact hnodup.1 hname
          obtain ⟨key, stored⟩ := member
          rw [entries_cons, if_neg hne]
          exact ih hnodup.2 index hmember

/-- A member that is written only when there is a value. -/
def optionalMember {α : Type*} (name : String) (encode : α → Json) :
    Option α → List (String × Json)
  | none => []
  | some value => [(name, encode value)]

@[simp] theorem entries_optionalMember_self {α : Type*} (name : String)
    (encode : α → Json) (value : Option α) :
    entries (optionalMember name encode value) name =
      (value.map encode).toList := by
  cases value <;> simp [optionalMember, entries_cons]

theorem entries_optionalMember_ne {α : Type*} {key name : String}
    (hkey : key ≠ name) (encode : α → Json) (value : Option α) :
    entries (optionalMember key encode value) name = [] := by
  cases value <;> simp [optionalMember, entries_cons, hkey]

@[simp] theorem all_optionalMember {α : Type*} (name : String)
    (encode : α → Json) (value : Option α)
    (condition : String × Json → Bool) :
    (optionalMember name encode value).all condition =
      value.all (fun present => condition (name, encode present)) := by
  cases value <;> simp [optionalMember]

theorem mem_optionalMember {α : Type*} {name : String} {encode : α → Json}
    {value : Option α} {member : String × Json}
    (hmember : member ∈ optionalMember name encode value) :
    member.1 = name := by
  cases value with
  | none => simp [optionalMember] at hmember
  | some present =>
      simp only [optionalMember, List.mem_singleton] at hmember
      rw [hmember]

section Read

variable {α : Type*}

/-- A field that must be present, from the values under its name. -/
def readRequired (decode : Json → Option α) : List Json → Option α
  | [value] => decode value
  | _ => none

/-- A field that may be missing or `null`. -/
def readOptional (decode : Json → Option α) :
    List Json → Option (Option α)
  | [] => some none
  | [.null] => some none
  | [value] => (decode value).map some
  | _ => none

/-- A field with a default. -/
def readDefaulted (decode : Json → Option α) (default : α) :
    List Json → Option α
  | [] => some default
  | [value] => decode value
  | _ => none

def requiredField (decode : Json → Option α)
    (members : List (String × Json)) (name : String) : Option α :=
  readRequired decode (entries members name)

def optionalField (decode : Json → Option α)
    (members : List (String × Json)) (name : String) : Option (Option α) :=
  readOptional decode (entries members name)

def defaultedField (decode : Json → Option α) (default : α)
    (members : List (String × Json)) (name : String) : Option α :=
  readDefaulted decode default (entries members name)

@[simp] theorem readRequired_singleton (decode : Json → Option α)
    (value : Json) :
    readRequired decode [value] = decode value := rfl

@[simp] theorem readDefaulted_singleton (decode : Json → Option α)
    (default : α) (value : Json) :
    readDefaulted decode default [value] = decode value := rfl

@[simp] theorem readOptional_nil (decode : Json → Option α) :
    readOptional decode [] = some none := rfl

theorem readOptional_singleton (decode : Json → Option α) {value : Json}
    (hvalue : value ≠ .null) :
    readOptional decode [value] = (decode value).map some := by
  cases value with
  | null => exact (hvalue rfl).elim
  | _ => rfl

/-- Reading an optional field back: the only value that is lost by the way it
is written is one written as `null`. -/
theorem readOptional_toList_iff (decode : Json → Option α)
    (encode : α → Json) (value : Option α) :
    readOptional decode (value.map encode).toList = some value ↔
      ∀ present, value = some present →
        encode present ≠ .null ∧ decode (encode present) = some present := by
  cases value with
  | none => simp
  | some present =>
      by_cases hnull : encode present = .null
      · simp [hnull, readOptional]
      · simp [hnull, readOptional_singleton]

end Read

/-! ## Values -/

def asBool : Json → Option Bool
  | .bool value => some value
  | _ => none

def asString : Json → Option String
  | .str text => some text
  | _ => none

/-- An unsigned integer below a limit. -/
def asUnsigned (limit : ℕ) : Json → Option ℕ
  | .int (.ofNat value) => if value < limit then some value else none
  | _ => none

def asUInt8 (doc : Json) : Option UInt8 :=
  (asUnsigned (2 ^ 8) doc).map UInt8.ofNat

def asUInt32 (doc : Json) : Option UInt32 :=
  (asUnsigned (2 ^ 32) doc).map UInt32.ofNat

def asUInt64 (doc : Json) : Option UInt64 :=
  (asUnsigned (2 ^ 64) doc).map UInt64.ofNat

/-- An integer that fits `width` bits, the sign included. -/
def asSigned (width : ℕ) : Json → Option ℤ
  | .int value =>
      if -2 ^ (width - 1) ≤ value ∧ value < 2 ^ (width - 1) then some value
      else none
  | _ => none

def asInt32 (doc : Json) : Option Int32 :=
  (asSigned 32 doc).map Int32.ofInt

def asInt64 (doc : Json) : Option Int64 :=
  (asSigned 64 doc).map Int64.ofInt

def asList {α : Type*} (decode : Json → Option α) : Json → Option (List α)
  | .arr elements => elements.mapM decode
  | _ => none

def asObject : Json → Option (List (String × Json))
  | .obj members => some members
  | _ => none

@[simp] theorem asString_str (text : String) :
    asString (.str text) = some text := rfl

@[simp] theorem asBool_bool (value : Bool) :
    asBool (.bool value) = some value := rfl

@[simp] theorem asObject_obj (members : List (String × Json)) :
    asObject (.obj members) = some members := rfl

theorem asUnsigned_natCast {limit value : ℕ} (hvalue : value < limit) :
    asUnsigned limit (.int value) = some value := by
  show (if value < limit then some value else none) = some value
  rw [if_pos hvalue]

@[simp] theorem asUInt8_toNat (value : UInt8) :
    asUInt8 (.int value.toNat) = some value := by
  simp [asUInt8, asUnsigned_natCast value.toNat_lt]

@[simp] theorem asUInt32_toNat (value : UInt32) :
    asUInt32 (.int value.toNat) = some value := by
  simp [asUInt32, asUnsigned_natCast value.toNat_lt]

@[simp] theorem asUInt64_toNat (value : UInt64) :
    asUInt64 (.int value.toNat) = some value := by
  simp [asUInt64, asUnsigned_natCast value.toNat_lt]

@[simp] theorem asInt32_toInt (value : Int32) :
    asInt32 (.int value.toInt) = some value := by
  have hrange : -2 ^ (32 - 1) ≤ value.toInt ∧ value.toInt < 2 ^ (32 - 1) :=
    ⟨value.le_toInt, value.toInt_lt⟩
  simp only [asInt32, asSigned, if_pos hrange, Option.map_some,
    Int32.ofInt_toInt]

@[simp] theorem asInt64_toInt (value : Int64) :
    asInt64 (.int value.toInt) = some value := by
  have hrange : -2 ^ (64 - 1) ≤ value.toInt ∧ value.toInt < 2 ^ (64 - 1) :=
    ⟨value.le_toInt, value.toInt_lt⟩
  simp only [asInt64, asSigned, if_pos hrange, Option.map_some,
    Int64.ofInt_toInt]

theorem mapM_map_eq_some_iff {α : Type*} (decode : Json → Option α)
    (encode : α → Json) (values : List α) :
    (values.map encode).mapM decode = some values ↔
      ∀ value ∈ values, decode (encode value) = some value := by
  induction values with
  | nil => simp
  | cons value rest ih =>
      rw [List.forall_mem_cons, ← ih]
      cases hhead : decode (encode value) with
      | none => simp [hhead]
      | some head =>
          cases htail : (rest.map encode).mapM decode with
          | none => simp [hhead, htail]
          | some tail => simp [hhead, htail]

theorem readOptional_strings (value : Option String) :
    readOptional asString (value.map .str).toList = some value :=
  (readOptional_toList_iff asString .str value).mpr (by simp)

def ofBytes (bytes : List UInt8) : Json :=
  .arr (bytes.map (fun byte => .int byte.toNat))

@[simp] theorem asList_ofBytes (bytes : List UInt8) :
    asList asUInt8 (ofBytes bytes) = some bytes := by
  simp only [asList, ofBytes]
  rw [mapM_map_eq_some_iff]
  intro byte _
  exact asUInt8_toNat byte

@[simp] theorem fits_ofBytes (depth : ℕ) (bytes : List UInt8) :
    fits (depth + 1) (ofBytes bytes) = true := by
  simp [ofBytes]

end Json
end Acdp
