import Acdp.JsonDocument

/-!
# Dynamic JSON values

Values a program holds in memory: numbers are machine numbers and an object
is a map ordered by name.  `Value.Normal` is the invariant of such maps.  A
value written as a document and read back is the same value exactly when the
texts of its floating-point numbers read back as the same numbers.
-/

namespace Acdp
namespace Json

/-! ## Maps ordered by name -/

section OrderedMembers

variable {α : Type*}

def insertMember (name : String) (value : α) :
    List (String × α) → List (String × α)
  | [] => [(name, value)]
  | (key, old) :: rest =>
      if name < key then (name, value) :: (key, old) :: rest
      else if name = key then (name, value) :: rest
      else (key, old) :: insertMember name value rest

/-- The map that results from inserting the members in turn. -/
def collectMembers (members : List (String × α)) : List (String × α) :=
  members.foldl
    (fun collected member => insertMember member.1 member.2 collected) []

def Sorted (members : List (String × α)) : Prop :=
  members.Pairwise (fun left right => left.1 < right.1)

theorem insertMember_of_last {name : String} {value : α}
    {members : List (String × α)}
    (hlast : ∀ member ∈ members, member.1 < name) :
    insertMember name value members = members ++ [(name, value)] := by
  induction members with
  | nil => rfl
  | cons member rest ih =>
      rw [List.forall_mem_cons] at hlast
      have hlt : ¬ name < member.1 := lt_asymm hlast.1
      have hne : name ≠ member.1 := (ne_of_lt hlast.1).symm
      simp only [insertMember, hlt, hne, if_false, List.cons_append]
      rw [ih hlast.2]

theorem foldl_insertMember_of_sorted (members : List (String × α)) :
    ∀ collected : List (String × α), Sorted (collected ++ members) →
      members.foldl
        (fun collected member => insertMember member.1 member.2 collected)
        collected = collected ++ members := by
  induction members with
  | nil => simp
  | cons member rest ih =>
      intro collected hsorted
      have hlast : ∀ earlier ∈ collected, earlier.1 < member.1 := by
        intro earlier hearlier
        exact (List.pairwise_append.mp hsorted).2.2 earlier hearlier member
          List.mem_cons_self
      rw [List.foldl_cons, insertMember_of_last hlast, ih]
      · simp
      · simpa using hsorted

theorem collectMembers_of_sorted {members : List (String × α)}
    (hsorted : Sorted members) :
    collectMembers members = members := by
  simpa [collectMembers] using
    foldl_insertMember_of_sorted members [] (by simpa using hsorted)

theorem mem_insertMember {name : String} {value : α}
    {members : List (String × α)} {member : String × α}
    (hmember : member ∈ insertMember name value members) :
    member = (name, value) ∨ member ∈ members := by
  induction members with
  | nil => simpa [insertMember] using hmember
  | cons head rest ih =>
      obtain ⟨key, old⟩ := head
      simp only [insertMember] at hmember
      split_ifs at hmember with hlt heq
      · simpa using hmember
      · rcases List.mem_cons.mp hmember with hhead | hrest
        · exact Or.inl hhead
        · exact Or.inr (List.mem_cons_of_mem _ hrest)
      · rcases List.mem_cons.mp hmember with hhead | hrest
        · exact Or.inr (by rw [hhead]; exact List.mem_cons_self)
        · rcases ih hrest with hnew | hold
          · exact Or.inl hnew
          · exact Or.inr (List.mem_cons_of_mem _ hold)

theorem sorted_insertMember {name : String} {value : α}
    {members : List (String × α)} (hsorted : Sorted members) :
    Sorted (insertMember name value members) := by
  induction members with
  | nil => simp [insertMember, Sorted]
  | cons head rest ih =>
      obtain ⟨key, old⟩ := head
      have hparts := List.pairwise_cons.mp hsorted
      simp only [insertMember]
      split_ifs with hlt heq
      · refine List.pairwise_cons.mpr ⟨?_, hsorted⟩
        intro member hmember
        rcases List.mem_cons.mp hmember with hhead | hrest
        · rw [hhead]
          exact hlt
        · exact lt_trans hlt (hparts.1 member hrest)
      · refine List.pairwise_cons.mpr ⟨?_, hparts.2⟩
        intro member hmember
        rw [heq]
        exact hparts.1 member hmember
      · refine List.pairwise_cons.mpr ⟨?_, ih hparts.2⟩
        intro member hmember
        rcases mem_insertMember hmember with hnew | hold
        · rw [hnew]
          exact lt_of_le_of_ne (not_lt.mp hlt) (Ne.symm heq)
        · exact hparts.1 member hold

theorem sorted_collectMembers (members : List (String × α)) :
    Sorted (collectMembers members) := by
  have hfold : ∀ (rest collected : List (String × α)), Sorted collected →
      Sorted (rest.foldl
        (fun collected member => insertMember member.1 member.2 collected)
        collected) := by
    intro rest
    induction rest with
    | nil =>
        intro collected hcollected
        exact hcollected
    | cons head rest ih =>
        intro collected hcollected
        exact ih _ (sorted_insertMember hcollected)
  exact hfold members [] List.Pairwise.nil

theorem mem_collectMembers {members : List (String × α)}
    {member : String × α} (hmember : member ∈ collectMembers members) :
    member ∈ members := by
  have hfold : ∀ (rest collected : List (String × α)),
      member ∈ rest.foldl
        (fun collected member => insertMember member.1 member.2 collected)
        collected → member ∈ collected ∨ member ∈ rest := by
    intro rest
    induction rest with
    | nil =>
        intro collected hcollected
        exact Or.inl hcollected
    | cons head rest ih =>
        intro collected hcollected
        rcases ih _ hcollected with hinserted | hrest
        · rcases mem_insertMember hinserted with hnew | hold
          · exact Or.inr (by rw [hnew]; exact List.mem_cons_self)
          · exact Or.inl hold
        · exact Or.inr (List.mem_cons_of_mem _ hrest)
  rcases hfold members [] hmember with hnil | hmembers
  · exact (List.not_mem_nil hnil).elim
  · exact hmembers

end OrderedMembers

/-! ## Values and their documents -/

inductive Number where
  | posInt (value : UInt64)
  | negInt (value : ℤ) (lower : -2 ^ 63 ≤ value) (negative : value < 0)
  | float (bits : UInt64)

inductive Value where
  | null
  | bool (value : Bool)
  | number (value : Number)
  | str (text : String)
  | array (elements : List Value)
  | object (members : List (String × Value))

/-- Texts of floating-point numbers, given by their bits. -/
structure FloatText where
  print : UInt64 → String
  parse : String → Option UInt64

variable (floats : FloatText)

def Number.encode : Number → Json
  | .posInt value => .int value.toNat
  | .negInt value _ _ => .int value
  | .float bits => .decimal (floats.print bits)

/-- An integer outside the machine ranges is read as a floating-point
number. -/
def Number.ofInt (value : ℤ) : Option Number :=
  if 0 ≤ value ∧ value < 2 ^ 64 then
    some (.posInt (UInt64.ofNat value.toNat))
  else if hrange : -2 ^ 63 ≤ value ∧ value < 0 then
    some (.negInt value hrange.1 hrange.2)
  else (floats.parse (toString value)).map .float

def Number.decode : Json → Option Number
  | .int value => Number.ofInt floats value
  | .decimal text => (floats.parse text).map .float
  | _ => none

def Number.asI64 : Number → Option Int64
  | .posInt value =>
      if value.toNat < 2 ^ 63 then some (Int64.ofNat value.toNat) else none
  | .negInt value _ _ => some (Int64.ofInt value)
  | .float _ => none

mutual

def Value.encode : Value → Json
  | .null => .null
  | .bool value => .bool value
  | .number value => value.encode floats
  | .str text => .str text
  | .array elements => .arr (Value.encodeElements elements)
  | .object members => .obj (Value.encodeMembers members)

def Value.encodeElements : List Value → List Json
  | [] => []
  | element :: rest => element.encode :: Value.encodeElements rest

def Value.encodeMembers : List (String × Value) → List (String × Json)
  | [] => []
  | member :: rest => Value.encodeMember member :: Value.encodeMembers rest

def Value.encodeMember : String × Value → String × Json
  | (name, value) => (name, value.encode)

end

mutual

def Value.decode : Json → Option Value
  | .null => some .null
  | .bool value => some (.bool value)
  | .int value => (Number.decode floats (.int value)).map .number
  | .decimal text => (Number.decode floats (.decimal text)).map .number
  | .str text => some (.str text)
  | .arr elements => (Value.decodeElements elements).map .array
  | .obj members =>
      (Value.decodeMembers members).map
        (fun decoded => .object (collectMembers decoded))

def Value.decodeElements : List Json → Option (List Value)
  | [] => some []
  | element :: rest => do
      let head ← Value.decode element
      let tail ← Value.decodeElements rest
      some (head :: tail)

def Value.decodeMembers :
    List (String × Json) → Option (List (String × Value))
  | [] => some []
  | member :: rest => do
      let head ← Value.decodeMember member
      let tail ← Value.decodeMembers rest
      some (head :: tail)

def Value.decodeMember : String × Json → Option (String × Value)
  | (name, value) => do
      let decoded ← Value.decode value
      some (name, decoded)

end

def Value.fits : ℕ → Value → Bool
  | 0, .array _ => false
  | 0, .object _ => false
  | depth + 1, .array elements =>
      elements.all (fun element => Value.fits depth element)
  | depth + 1, .object members =>
      members.all (fun member => Value.fits depth member.2)
  | _, _ => true

/-- Maps inside the value are ordered and free of repeated names. -/
inductive Value.Normal : Value → Prop
  | null : Value.Normal .null
  | bool (value : Bool) : Value.Normal (.bool value)
  | number (value : Number) : Value.Normal (.number value)
  | str (text : String) : Value.Normal (.str text)
  | array {elements : List Value}
      (helements : ∀ element ∈ elements, Value.Normal element) :
      Value.Normal (.array elements)
  | object {members : List (String × Value)} (hsorted : Sorted members)
      (hmembers : ∀ member ∈ members, Value.Normal member.2) :
      Value.Normal (.object members)

inductive Value.HasFloat (bits : UInt64) : Value → Prop
  | number : Value.HasFloat bits (.number (.float bits))
  | array {elements : List Value} {element : Value}
      (helement : element ∈ elements)
      (hfloat : Value.HasFloat bits element) :
      Value.HasFloat bits (.array elements)
  | object {members : List (String × Value)} {member : String × Value}
      (hmember : member ∈ members)
      (hfloat : Value.HasFloat bits member.2) :
      Value.HasFloat bits (.object members)

def FloatText.Stable (bits : UInt64) : Prop :=
  floats.parse (floats.print bits) = some bits

def Value.FloatsStable (value : Value) : Prop :=
  ∀ bits, value.HasFloat bits → floats.Stable bits

/-! ## What is read is ordered -/

mutual

theorem Value.decode_normal : ∀ (doc : Json) {value : Value},
    Value.decode floats doc = some value → value.Normal
  | .null, value, hdecode => by
      simp only [Value.decode, Option.some.injEq] at hdecode
      rw [← hdecode]
      exact .null
  | .bool flag, value, hdecode => by
      simp only [Value.decode, Option.some.injEq] at hdecode
      rw [← hdecode]
      exact .bool flag
  | .int integer, value, hdecode => by
      simp only [Value.decode, Option.map_eq_some_iff] at hdecode
      obtain ⟨read, _, rfl⟩ := hdecode
      exact .number read
  | .decimal text, value, hdecode => by
      simp only [Value.decode, Option.map_eq_some_iff] at hdecode
      obtain ⟨read, _, rfl⟩ := hdecode
      exact .number read
  | .str text, value, hdecode => by
      simp only [Value.decode, Option.some.injEq] at hdecode
      rw [← hdecode]
      exact .str text
  | .arr elements, value, hdecode => by
      simp only [Value.decode, Option.map_eq_some_iff] at hdecode
      obtain ⟨decoded, hdecoded, rfl⟩ := hdecode
      exact .array (Value.decodeElements_normal elements hdecoded)
  | .obj members, value, hdecode => by
      simp only [Value.decode, Option.map_eq_some_iff] at hdecode
      obtain ⟨decoded, hdecoded, rfl⟩ := hdecode
      refine .object (sorted_collectMembers decoded) ?_
      intro member hmember
      exact Value.decodeMembers_normal members hdecoded member
        (mem_collectMembers hmember)

theorem Value.decodeElements_normal :
    ∀ (elements : List Json) {decoded : List Value},
      Value.decodeElements floats elements = some decoded →
      ∀ value ∈ decoded, value.Normal
  | [], decoded, hdecode => by
      simp only [Value.decodeElements, Option.some.injEq] at hdecode
      simp [← hdecode]
  | element :: rest, decoded, hdecode => by
      simp only [Value.decodeElements, Option.bind_eq_bind,
        Option.bind_eq_some_iff, Option.some.injEq] at hdecode
      obtain ⟨head, hhead, tail, htail, rfl⟩ := hdecode
      exact List.forall_mem_cons.mpr ⟨Value.decode_normal element hhead,
        Value.decodeElements_normal rest htail⟩

theorem Value.decodeMembers_normal :
    ∀ (members : List (String × Json)) {decoded : List (String × Value)},
      Value.decodeMembers floats members = some decoded →
      ∀ member ∈ decoded, member.2.Normal
  | [], decoded, hdecode => by
      simp only [Value.decodeMembers, Option.some.injEq] at hdecode
      simp [← hdecode]
  | member :: rest, decoded, hdecode => by
      simp only [Value.decodeMembers, Option.bind_eq_bind,
        Option.bind_eq_some_iff, Option.some.injEq] at hdecode
      obtain ⟨head, hhead, tail, htail, rfl⟩ := hdecode
      exact List.forall_mem_cons.mpr ⟨Value.decodeMember_normal member hhead,
        Value.decodeMembers_normal rest htail⟩

theorem Value.decodeMember_normal :
    ∀ (member : String × Json) {decoded : String × Value},
      Value.decodeMember floats member = some decoded → decoded.2.Normal
  | (name, value), decoded, hdecode => by
      simp only [Value.decodeMember, Option.bind_eq_bind,
        Option.bind_eq_some_iff, Option.some.injEq] at hdecode
      obtain ⟨read, hread, rfl⟩ := hdecode
      exact Value.decode_normal value hread

end

/-! ## Reading a value back -/

theorem Value.encodeElements_eq_map (elements : List Value) :
    Value.encodeElements floats elements =
      elements.map (Value.encode floats) := by
  induction elements with
  | nil => rfl
  | cons element rest ih => simp [Value.encodeElements, ih]

theorem Value.encodeMembers_eq_map (members : List (String × Value)) :
    Value.encodeMembers floats members =
      members.map (fun member => (member.1, member.2.encode floats)) := by
  induction members with
  | nil => rfl
  | cons member rest ih =>
      obtain ⟨name, value⟩ := member
      simp [Value.encodeMembers, Value.encodeMember, ih]

theorem Value.decodeElements_encode_iff (elements : List Value) :
    Value.decodeElements floats (Value.encodeElements floats elements) =
        some elements ↔
      ∀ element ∈ elements,
        Value.decode floats (element.encode floats) = some element := by
  induction elements with
  | nil => simp [Value.encodeElements, Value.decodeElements]
  | cons element rest ih =>
      rw [List.forall_mem_cons, ← ih]
      simp only [Value.encodeElements, Value.decodeElements]
      cases hhead : Value.decode floats (element.encode floats) with
      | none => simp
      | some head =>
          cases htail : Value.decodeElements floats
              (Value.encodeElements floats rest) with
          | none => simp
          | some tail => simp

theorem Value.decodeMembers_encode_iff (members : List (String × Value)) :
    Value.decodeMembers floats (Value.encodeMembers floats members) =
        some members ↔
      ∀ member ∈ members,
        Value.decode floats (member.2.encode floats) = some member.2 := by
  induction members with
  | nil => simp [Value.encodeMembers, Value.decodeMembers]
  | cons member rest ih =>
      obtain ⟨name, value⟩ := member
      rw [List.forall_mem_cons, ← ih]
      simp only [Value.encodeMembers, Value.decodeMembers,
        Value.encodeMember, Value.decodeMember]
      cases hhead : Value.decode floats (value.encode floats) with
      | none => simp
      | some head =>
          cases htail : Value.decodeMembers floats
              (Value.encodeMembers floats rest) with
          | none => simp
          | some tail => simp

/-- Reading keeps the names and their order. -/
theorem Value.decodeMembers_names {members : List (String × Json)}
    {decoded : List (String × Value)}
    (hdecode : Value.decodeMembers floats members = some decoded) :
    decoded.map Prod.fst = members.map Prod.fst := by
  induction members generalizing decoded with
  | nil =>
      simp only [Value.decodeMembers, Option.some.injEq] at hdecode
      rw [← hdecode]
      rfl
  | cons member rest ih =>
      obtain ⟨name, value⟩ := member
      simp only [Value.decodeMembers, Value.decodeMember,
        Option.bind_eq_bind, Option.bind_eq_some_iff,
        Option.some.injEq] at hdecode
      obtain ⟨_, ⟨head, _, rfl⟩, tail, htail, rfl⟩ := hdecode
      simp [ih htail]

theorem Number.decode_encode_iff (number : Number) :
    Number.decode floats (number.encode floats) = some number ↔
      ∀ bits, number = .float bits → floats.Stable bits := by
  cases number with
  | posInt value =>
      have hlt := value.toNat_lt
      have hrange : (0 : ℤ) ≤ value.toNat ∧ (value.toNat : ℤ) < 2 ^ 64 := by
        omega
      have hread : Number.ofInt floats value.toNat = some (.posInt value) := by
        rw [Number.ofInt, if_pos hrange]
        simp
      simp [Number.encode, Number.decode, hread]
  | negInt value lower negative =>
      have hnegative : ¬ (0 ≤ value ∧ value < 2 ^ 64) := by omega
      have hread : Number.ofInt floats value =
          some (.negInt value lower negative) := by
        rw [Number.ofInt, if_neg hnegative, dif_pos ⟨lower, negative⟩]
      simp [Number.encode, Number.decode, hread]
  | float bits =>
      simp [Number.encode, Number.decode, FloatText.Stable]

theorem Value.hasFloat_number_iff (bits : UInt64) (number : Number) :
    Value.HasFloat bits (.number number) ↔ number = .float bits := by
  constructor
  · intro hfloat
    cases hfloat with
    | number => rfl
  · intro hnumber
    rw [hnumber]
    exact .number

theorem Value.floatsStable_array_iff (elements : List Value) :
    (Value.array elements).FloatsStable floats ↔
      ∀ element ∈ elements, element.FloatsStable floats := by
  constructor
  · intro hstable element helement bits hfloat
    exact hstable bits (.array helement hfloat)
  · intro hstable bits hfloat
    cases hfloat with
    | array helement hfloat => exact hstable _ helement bits hfloat

theorem Value.floatsStable_object_iff (members : List (String × Value)) :
    (Value.object members).FloatsStable floats ↔
      ∀ member ∈ members, member.2.FloatsStable floats := by
  constructor
  · intro hstable member hmember bits hfloat
    exact hstable bits (.object hmember hfloat)
  · intro hstable bits hfloat
    cases hfloat with
    | object hmember hfloat => exact hstable _ hmember bits hfloat

theorem Value.floatsStable_scalar {value : Value}
    (hscalar : ∀ bits, ¬ value.HasFloat bits) :
    value.FloatsStable floats := by
  intro bits hfloat
  exact (hscalar bits hfloat).elim

theorem Value.sorted_of_decodeMembers {members decoded : List (String × Value)}
    (hsorted : Sorted members)
    (hdecode : Value.decodeMembers floats (Value.encodeMembers floats members) =
      some decoded) : Sorted decoded := by
  have hnames : decoded.map Prod.fst = members.map Prod.fst := by
    rw [Value.decodeMembers_names floats hdecode, Value.encodeMembers_eq_map,
      List.map_map]
    rfl
  unfold Sorted at hsorted ⊢
  rw [← List.pairwise_map (R := (· < ·))] at hsorted ⊢
  rw [hnames]
  exact hsorted

/-- The names an object is read back with are those it was written with, so
reading changes nothing if it changes no member. -/
theorem Value.collectMembers_decode_iff {members : List (String × Value)}
    (hsorted : Sorted members) :
    (Value.decodeMembers floats (Value.encodeMembers floats members)).map
        collectMembers = some members ↔
      Value.decodeMembers floats (Value.encodeMembers floats members) =
        some members := by
  cases hdecode : Value.decodeMembers floats
      (Value.encodeMembers floats members) with
  | none => simp
  | some decoded =>
      rw [Option.map_some, collectMembers_of_sorted
        (Value.sorted_of_decodeMembers floats hsorted hdecode)]

theorem Value.decode_encode_iff {value : Value} (hnormal : value.Normal) :
    Value.decode floats (value.encode floats) = some value ↔
      value.FloatsStable floats := by
  induction hnormal with
  | null =>
      exact iff_of_true rfl (Value.floatsStable_scalar floats nofun)
  | bool value =>
      exact iff_of_true rfl (Value.floatsStable_scalar floats nofun)
  | str text =>
      exact iff_of_true rfl (Value.floatsStable_scalar floats nofun)
  | number number =>
      have hdecode : Value.decode floats ((Value.number number).encode floats) =
          (Number.decode floats (number.encode floats)).map .number := by
        cases number <;> rfl
      rw [hdecode, Option.map_eq_some_iff]
      simp only [Value.number.injEq, exists_eq_right,
        Number.decode_encode_iff, Value.FloatsStable,
        Value.hasFloat_number_iff]
  | array helements ih =>
      rw [Value.floatsStable_array_iff]
      simp only [Value.encode, Value.decode, Option.map_eq_some_iff,
        Value.array.injEq, exists_eq_right, Value.decodeElements_encode_iff]
      exact forall₂_congr ih
  | @object members hsorted hmembers ih =>
      have hwhole :
          Value.decode floats ((Value.object members).encode floats) =
              some (.object members) ↔
            (Value.decodeMembers floats
              (Value.encodeMembers floats members)).map collectMembers =
              some members := by
        simp [Value.encode, Value.decode, Option.map_eq_some_iff]
      rw [hwhole, Value.collectMembers_decode_iff floats hsorted,
        Value.decodeMembers_encode_iff, Value.floatsStable_object_iff]
      exact forall₂_congr ih

theorem Value.exists_mem_decodeElements {elements : List Json}
    {decoded : List Value}
    (hdecode : Value.decodeElements floats elements = some decoded)
    {element : Json} (helement : element ∈ elements) :
    ∃ value ∈ decoded, Value.decode floats element = some value := by
  induction elements generalizing decoded with
  | nil => cases helement
  | cons head rest ih =>
      simp only [Value.decodeElements, Option.bind_eq_bind,
        Option.bind_eq_some_iff, Option.some.injEq] at hdecode
      obtain ⟨first, hfirst, tail, htail, hdecoded⟩ := hdecode
      rw [← hdecoded]
      rcases List.mem_cons.mp helement with hsame | hrest
      · rw [hsame]
        exact ⟨first, List.mem_cons_self, hfirst⟩
      · obtain ⟨value, hvalue, hread⟩ := ih htail hrest
        exact ⟨value, List.mem_cons_of_mem first hvalue, hread⟩

theorem Value.exists_mem_decodeMembers {members : List (String × Json)}
    {decoded : List (String × Value)}
    (hdecode : Value.decodeMembers floats members = some decoded)
    {member : String × Json} (hmember : member ∈ members) :
    ∃ value, (member.1, value) ∈ decoded ∧
      Value.decode floats member.2 = some value := by
  induction members generalizing decoded with
  | nil => cases hmember
  | cons head rest ih =>
      obtain ⟨name, doc⟩ := head
      simp only [Value.decodeMembers, Value.decodeMember, Option.bind_eq_bind,
        Option.bind_eq_some_iff, Option.some.injEq] at hdecode
      obtain ⟨_, ⟨first, hfirst, hpair⟩, tail, htail, hdecoded⟩ := hdecode
      rw [← hdecoded, ← hpair]
      rcases List.mem_cons.mp hmember with hsame | hrest
      · rw [hsame]
        exact ⟨first, List.mem_cons_self, hfirst⟩
      · obtain ⟨value, hvalue, hread⟩ := ih htail hrest
        exact ⟨value, List.mem_cons_of_mem _ hvalue, hread⟩

/-- A floating-point number is read back as one, if perhaps another. -/
theorem Value.HasFloat.decode_encode {value : Value} {bits : UInt64}
    (hfloat : value.HasFloat bits) (hnormal : value.Normal) {read : Value}
    (hread : Value.decode floats (value.encode floats) = some read) :
    ∃ other, read.HasFloat other := by
  induction hfloat generalizing read with
  | number =>
      simp only [Value.encode, Number.encode, Value.decode, Number.decode,
        Option.map_map, Option.map_eq_some_iff] at hread
      obtain ⟨other, _, hother⟩ := hread
      rw [← hother]
      exact ⟨other, .number⟩
  | @array elements element helement _ ih =>
      simp only [Value.encode, Value.decode, Option.map_eq_some_iff] at hread
      obtain ⟨decoded, hdecoded, hread⟩ := hread
      have hencoded : element.encode floats ∈
          Value.encodeElements floats elements := by
        rw [Value.encodeElements_eq_map]
        exact List.mem_map_of_mem helement
      obtain ⟨value, hvalue, hdecode⟩ :=
        Value.exists_mem_decodeElements floats hdecoded hencoded
      cases hnormal with
      | array helements =>
          obtain ⟨other, hother⟩ := ih (helements element helement) hdecode
          rw [← hread]
          exact ⟨other, .array hvalue hother⟩
  | @object members member hmember _ ih =>
      simp only [Value.encode, Value.decode, Option.map_eq_some_iff] at hread
      obtain ⟨decoded, hdecoded, hread⟩ := hread
      have hencoded : (member.1, member.2.encode floats) ∈
          Value.encodeMembers floats members := by
        rw [Value.encodeMembers_eq_map]
        exact List.mem_map_of_mem
          (f := fun member => (member.1, Value.encode floats member.2)) hmember
      obtain ⟨value, hvalue, hdecode⟩ :=
        Value.exists_mem_decodeMembers floats hdecoded hencoded
      cases hnormal with
      | object hsorted hmembers =>
          obtain ⟨other, hother⟩ := ih (hmembers member hmember) hdecode
          rw [collectMembers_of_sorted
            (Value.sorted_of_decodeMembers floats hsorted hdecoded)] at hread
          rw [← hread]
          exact ⟨other, .object hvalue hother⟩

/-- What is read back is what was written, where it has no floating-point
number. -/
theorem Value.eq_of_decode_encode {value read : Value}
    (hnormal : value.Normal)
    (hread : Value.decode floats (value.encode floats) = some read)
    (hfree : ∀ bits, ¬ read.HasFloat bits) : value = read := by
  have hstable : value.FloatsStable floats := by
    intro bits hfloat
    obtain ⟨other, hother⟩ := hfloat.decode_encode floats hnormal hread
    exact (hfree other hother).elim
  rw [(Value.decode_encode_iff floats hnormal).mpr hstable,
    Option.some.injEq] at hread
  exact hread

theorem Value.encode_eq_iff_of_lacksFloat {value other : Value}
    (hnormal : value.Normal) (hother : other.Normal)
    (hfree : ∀ bits, ¬ other.HasFloat bits) :
    value.encode floats = other.encode floats ↔ value = other := by
  constructor
  · intro hencode
    have hread : Value.decode floats (other.encode floats) = some other :=
      (Value.decode_encode_iff floats hother).mpr
        (Value.floatsStable_scalar floats hfree)
    rw [← hencode] at hread
    exact Value.eq_of_decode_encode floats hnormal hread hfree
  · intro hsame
    rw [hsame]

theorem Value.isSome_decodeMembers_iff (members : List (String × Json)) :
    (Value.decodeMembers floats members).isSome = true ↔
      ∀ member ∈ members,
        (Value.decode floats member.2).isSome = true := by
  induction members with
  | nil => simp [Value.decodeMembers]
  | cons member rest ih =>
      obtain ⟨name, value⟩ := member
      rw [List.forall_mem_cons, ← ih]
      cases hhead : Value.decode floats value with
      | none => simp [Value.decodeMembers, Value.decodeMember, hhead]
      | some head =>
          cases htail : Value.decodeMembers floats rest with
          | none =>
              simp [Value.decodeMembers, Value.decodeMember, hhead, htail]
          | some tail =>
              simp [Value.decodeMembers, Value.decodeMember, hhead, htail]

theorem Value.isSome_decode_obj_iff (members : List (String × Json)) :
    (Value.decode floats (.obj members)).isSome = true ↔
      ∀ member ∈ members,
        (Value.decode floats member.2).isSome = true := by
  rw [← Value.isSome_decodeMembers_iff]
  simp [Value.decode]

theorem Value.fits_encode (depth : ℕ) (value : Value) :
    (value.encode floats).fits depth = value.fits depth := by
  induction depth generalizing value with
  | zero =>
      cases value with
      | number number => cases number <;> rfl
      | _ => rfl
  | succ depth ih =>
      cases value with
      | number number => cases number <;> rfl
      | array elements =>
          simp [Value.encode, Value.fits, Value.encodeElements_eq_map,
            List.all_map, Function.comp_def, ih]
      | object members =>
          simp [Value.encode, Value.fits, Value.encodeMembers_eq_map,
            List.all_map, Function.comp_def, ih]
      | _ => rfl

theorem Value.encode_eq_null_iff (value : Value) :
    value.encode floats = .null ↔ value = .null := by
  cases value with
  | number number => cases number <;> simp [Value.encode, Number.encode]
  | _ => simp [Value.encode]

def Value.get : Value → String → Option Value
  | .object members, name => members.lookup name
  | _, _ => none

theorem Value.Normal.get {value found : Value} (hnormal : value.Normal)
    {name : String} (hget : value.get name = some found) : found.Normal := by
  cases hnormal with
  | object hsorted hmembers =>
      obtain ⟨before, after, hsplit, _⟩ := List.lookup_eq_some_iff.mp hget
      exact hmembers (name, found) (by simp [hsplit])
  | _ => simp [Value.get] at hget

/-! ## Values and maps that are ordered by construction -/

/-- `serde_json::Value`. -/
abbrev OrderedValue := { value : Value // value.Normal }

/-- `serde_json::Map<String, Value>`. -/
structure OrderedMap where
  members : List (String × Value)
  sorted : Sorted members
  normal : ∀ member ∈ members, member.2.Normal

namespace OrderedValue

def serialize (value : OrderedValue) : Json := value.val.encode floats

def deserialize (doc : Json) : Option OrderedValue :=
  match hdecode : Value.decode floats doc with
  | none => none
  | some value => some ⟨value, Value.decode_normal floats doc hdecode⟩

def get (value : OrderedValue) (name : String) : Option OrderedValue :=
  match hget : value.val.get name with
  | none => none
  | some found => some ⟨found, value.property.get hget⟩

theorem deserialize_eq_some_iff (doc : Json) (value : OrderedValue) :
    deserialize floats doc = some value ↔
      Value.decode floats doc = some value.val := by
  unfold deserialize
  split
  · simp_all
  · simp_all [Subtype.ext_iff]

theorem deserialize_serialize_iff (value : OrderedValue) :
    deserialize floats (serialize floats value) = some value ↔
      value.val.FloatsStable floats := by
  rw [deserialize_eq_some_iff]
  exact Value.decode_encode_iff floats value.property

end OrderedValue

namespace OrderedMap

def serialize (map : OrderedMap) : List (String × Json) :=
  Value.encodeMembers floats map.members

def deserialize (members : List (String × Json)) : Option OrderedMap :=
  match hdecode : Value.decodeMembers floats members with
  | none => none
  | some decoded =>
      some
        { members := collectMembers decoded
          sorted := sorted_collectMembers decoded
          normal := by
            intro member hmember
            exact Value.decodeMembers_normal floats members hdecode member
              (mem_collectMembers hmember) }

theorem deserialize_eq_some_iff (members : List (String × Json))
    (map : OrderedMap) :
    deserialize floats members = some map ↔
      (Value.decodeMembers floats members).map collectMembers =
        some map.members := by
  obtain ⟨listed, sorted, normal⟩ := map
  unfold deserialize
  split
  · simp_all
  · simp_all

theorem exists_mem_of_mem_serialize {map : OrderedMap}
    {member : String × Json} (hmember : member ∈ map.serialize floats) :
    ∃ original ∈ map.members, original.1 = member.1 := by
  rw [serialize, Value.encodeMembers_eq_map, List.mem_map] at hmember
  obtain ⟨original, horiginal, hencoded⟩ := hmember
  exact ⟨original, horiginal, congrArg Prod.fst hencoded⟩

theorem deserialize_serialize_iff (map : OrderedMap) :
    deserialize floats (map.serialize floats) = some map ↔
      ∀ member ∈ map.members, member.2.FloatsStable floats := by
  rw [deserialize_eq_some_iff, serialize,
    Value.collectMembers_decode_iff floats map.sorted,
    Value.decodeMembers_encode_iff]
  apply forall₂_congr
  intro member hmember
  exact Value.decode_encode_iff floats (map.normal member hmember)

theorem all_serialize (map : OrderedMap) (depth : ℕ) :
    (map.serialize floats).all (fun member => fits depth member.2) =
      map.members.all (fun member => member.2.fits depth) := by
  simp [serialize, Value.encodeMembers_eq_map, List.all_map,
    Function.comp_def, Value.fits_encode]

/-- Names of the map read are names of the members it is read from. -/
theorem deserialize_name {members : List (String × Json)} {map : OrderedMap}
    (hread : deserialize floats members = some map)
    {member : String × Value} (hmember : member ∈ map.members) :
    member.1 ∈ members.map Prod.fst := by
  rw [deserialize_eq_some_iff, Option.map_eq_some_iff] at hread
  obtain ⟨decoded, hdecoded, hcollected⟩ := hread
  rw [← Value.decodeMembers_names floats hdecoded]
  rw [← hcollected] at hmember
  exact List.mem_map_of_mem (mem_collectMembers hmember)

end OrderedMap

end Json
end Acdp
