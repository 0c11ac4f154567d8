import Acdp.JsonText

/-!
# Writers and readers that belong together

A codec writes the values of a type as documents and reads them back, within a
number of levels that the parser still goes down.  It says itself which values
come back: `Kept` is the exact condition.  Records, lists, maps and tagged
unions are put together from the codecs of their parts, the way instances are
derived from the declaration of a type.
-/

namespace Acdp
namespace Json

structure Codec (α : Type) where
  write : α → Json
  read : ℕ → Json → Option α
  Kept : ℕ → α → Prop
  proper : ∀ value, Proper (write value)
  read_write_iff : ∀ depth value,
    read depth (write value) = some value ↔ Kept depth value

namespace Codec

variable {α β : Type}

/-! ### Scalars -/

/-- A type whose values have a text that reads back. -/
def text (print : α → String) (parse : String → Option α)
    (reads : ∀ value, parse (print value) = some value) : Codec α where
  write value := .str (print value)
  read _ doc := (asString doc).bind parse
  Kept _ _ := True
  proper _ := .str _
  read_write_iff _ value := by simp [reads]

def string : Codec String where
  write := .str
  read _ := asString
  Kept _ _ := True
  proper := .str
  read_write_iff _ value := by simp

def bool : Codec Bool where
  write := .bool
  read _ := asBool
  Kept _ _ := True
  proper := .bool
  read_write_iff _ value := by simp

def u32 : Codec UInt32 where
  write value := .int value.toNat
  read _ := asUInt32
  Kept _ _ := True
  proper _ := .int _
  read_write_iff _ value := by simp

def u64 : Codec UInt64 where
  write value := .int value.toNat
  read _ := asUInt64
  Kept _ _ := True
  proper _ := .int _
  read_write_iff _ value := by simp

def i32 : Codec Int32 where
  write value := .int value.toInt
  read _ := asInt32
  Kept _ _ := True
  proper _ := .int _
  read_write_iff _ value := by simp

end Codec

/-! ### Floating-point numbers -/

/-- The texts of floating-point numbers of both widths, given by their bits,
and the conversions between machine numbers. -/
structure NumberText extends FloatText where
  printSingle : UInt32 → String
  doubleOfInt : ℤ → UInt64
  singleOfInt : ℤ → UInt32
  singleOfDouble : UInt64 → UInt32
  print_decimal : ∀ bits, DecimalText (print bits)
  printSingle_decimal : ∀ bits, DecimalText (printSingle bits)

/-- Neither infinite nor no number. -/
def isFiniteDouble (bits : UInt64) : Bool :=
  (bits >>> 52) &&& 0x7FF != 0x7FF

def isFiniteSingle (bits : UInt32) : Bool :=
  (bits >>> 23) &&& 0xFF != 0xFF

namespace NumberText

variable (numbers : NumberText)

def InMachineRange (value : ℤ) : Prop := -2 ^ 63 ≤ value ∧ value < 2 ^ 64

instance (value : ℤ) : Decidable (InMachineRange value) :=
  inferInstanceAs (Decidable (_ ∧ _))

def writeDouble (bits : UInt64) : Json :=
  if isFiniteDouble bits then .decimal (numbers.print bits) else .null

def readDouble : Json → Option UInt64
  | .decimal text => numbers.parse text
  | .int value =>
      if InMachineRange value then some (numbers.doubleOfInt value)
      else numbers.parse (toString value)
  | _ => none

def writeSingle (bits : UInt32) : Json :=
  if isFiniteSingle bits then .decimal (numbers.printSingle bits) else .null

def readSingle : Json → Option UInt32
  | .decimal text => (numbers.parse text).map numbers.singleOfDouble
  | .int value =>
      if InMachineRange value then some (numbers.singleOfInt value)
      else (numbers.parse (toString value)).map numbers.singleOfDouble
  | _ => none

/-- The number is finite and its text reads back as the same number. -/
def DoubleKept (bits : UInt64) : Prop :=
  isFiniteDouble bits = true ∧ numbers.parse (numbers.print bits) = some bits

def SingleKept (bits : UInt32) : Prop :=
  isFiniteSingle bits = true ∧
    (numbers.parse (numbers.printSingle bits)).map numbers.singleOfDouble =
      some bits

theorem readDouble_writeDouble_iff (bits : UInt64) :
    numbers.readDouble (numbers.writeDouble bits) = some bits ↔
      numbers.DoubleKept bits := by
  rw [writeDouble, DoubleKept]
  split_ifs with hfinite
  · simp [readDouble, hfinite]
  · simp [readDouble, hfinite]

theorem readSingle_writeSingle_iff (bits : UInt32) :
    numbers.readSingle (numbers.writeSingle bits) = some bits ↔
      numbers.SingleKept bits := by
  rw [writeSingle, SingleKept]
  split_ifs with hfinite
  · simp [readSingle, hfinite]
  · simp [readSingle, hfinite]

end NumberText

namespace Codec

variable {α β : Type}

def f64 (numbers : NumberText) : Codec UInt64 where
  write := numbers.writeDouble
  read _ := numbers.readDouble
  Kept _ := numbers.DoubleKept
  proper bits := by
    rw [NumberText.writeDouble]
    split_ifs
    · exact .decimal (numbers.print_decimal bits)
    · exact .null
  read_write_iff _ := numbers.readDouble_writeDouble_iff

def f32 (numbers : NumberText) : Codec UInt32 where
  write := numbers.writeSingle
  read _ := numbers.readSingle
  Kept _ := numbers.SingleKept
  proper bits := by
    rw [NumberText.writeSingle]
    split_ifs
    · exact .decimal (numbers.printSingle_decimal bits)
    · exact .null
  read_write_iff _ := numbers.readSingle_writeSingle_iff

/-- `serde_json::Value`. -/
def value (numbers : NumberText) : Codec OrderedValue where
  write := OrderedValue.serialize numbers.toFloatText
  read depth doc :=
    if doc.fits depth then OrderedValue.deserialize numbers.toFloatText doc
    else none
  Kept depth value :=
    value.val.fits depth = true ∧
      value.val.FloatsStable numbers.toFloatText
  proper value := value.property.proper_encode numbers.print_decimal
  read_write_iff depth value := by
    rw [← OrderedValue.deserialize_serialize_iff]
    have hfits : (OrderedValue.serialize numbers.toFloatText value).fits depth =
        value.val.fits depth := Value.fits_encode _ depth value.val
    rw [hfits]
    by_cases hdepth : value.val.fits depth = true
    · simp [hdepth]
    · simp [hdepth]

/-! ### Lists and newtypes -/

/-- A type with one field, written as the field. -/
def newtype (codec : Codec α) (same : α ≃ β) : Codec β where
  write value := codec.write (same.symm value)
  read depth doc := (codec.read depth doc).map same
  Kept depth value := codec.Kept depth (same.symm value)
  proper value := codec.proper (same.symm value)
  read_write_iff depth value := by
    rw [Option.map_eq_some_iff, ← codec.read_write_iff]
    constructor
    · rintro ⟨inner, hread, rfl⟩
      rw [hread, Equiv.symm_apply_apply]
    · intro hread
      exact ⟨same.symm value, hread, same.apply_symm_apply value⟩

def list (codec : Codec α) : Codec (List α) where
  write values := .arr (values.map codec.write)
  read depth doc :=
    if depth = 0 then none else asList (codec.read (depth - 1)) doc
  Kept depth values :=
    0 < depth ∧ ∀ value ∈ values, codec.Kept (depth - 1) value
  proper values := by
    apply Proper.arr
    intro element hmem
    obtain ⟨value, _, rfl⟩ := List.mem_map.mp hmem
    exact codec.proper value
  read_write_iff depth values := by
    by_cases hdepth : depth = 0
    · simp [hdepth]
    · rw [if_neg hdepth, asList, mapM_map_eq_some_iff]
      simp only [codec.read_write_iff, Nat.pos_of_ne_zero hdepth, true_and]

end Codec

/-! ### Maps without an order -/

/-- A map from names, whatever the order it is gone through in. -/
structure StringMap (α : Type) where
  members : List (String × α)
  sorted : Sorted members

/-- The order a map is gone through in is up to the map. -/
structure MapOrder where
  arrange : {α : Type} → List (String × α) → List (String × α)
  perm : ∀ {α : Type} (members : List (String × α)),
    (arrange members).Perm members

theorem perm_insertMember {α : Type} {name : String} {value : α}
    {members : List (String × α)} (hfresh : name ∉ members.map Prod.fst) :
    (insertMember name value members).Perm ((name, value) :: members) := by
  induction members with
  | nil => exact List.Perm.refl _
  | cons head rest ih =>
      obtain ⟨key, old⟩ := head
      rw [List.map_cons, List.mem_cons, not_or] at hfresh
      simp only [insertMember, if_neg hfresh.1]
      split_ifs with hlt
      · exact List.Perm.refl _
      · exact ((ih hfresh.2).cons _).trans (List.Perm.swap _ _ _)

theorem perm_collectMembers {α : Type} {members : List (String × α)}
    (hnodup : (members.map Prod.fst).Nodup) :
    (collectMembers members).Perm members := by
  have hfold : ∀ (rest collected : List (String × α)),
      ((collected ++ rest).map Prod.fst).Nodup →
      (rest.foldl
        (fun collected member => insertMember member.1 member.2 collected)
        collected).Perm (collected ++ rest) := by
    intro rest
    induction rest with
    | nil =>
        intro collected _
        rw [List.append_nil]
        exact List.Perm.refl _
    | cons member rest ih =>
        intro collected hnames
        have hmoved :
            (collected ++ member :: rest).Perm (member :: (collected ++ rest)) :=
          List.perm_middle
        have hfresh : member.1 ∉ collected.map Prod.fst := by
          have hparts := (hmoved.map Prod.fst).nodup_iff.mp hnames
          rw [List.map_cons, List.nodup_cons, List.map_append,
            List.mem_append, not_or] at hparts
          exact hparts.1.1
        have hinserted :
            (insertMember member.1 member.2 collected ++ rest).Perm
              (member :: collected ++ rest) :=
          (perm_insertMember hfresh).append_right rest
        refine (ih _ ?_).trans (hinserted.trans hmoved.symm)
        exact (hinserted.map Prod.fst).nodup_iff.mpr
          ((hmoved.map Prod.fst).nodup_iff.mp hnames)
  exact hfold members [] hnodup

theorem collectMembers_of_perm {α : Type} {members others : List (String × α)}
    (hsorted : Sorted others) (hperm : members.Perm others) :
    collectMembers members = others := by
  have hnames : (others.map Prod.fst).Nodup := by
    rw [List.Nodup, List.pairwise_map]
    exact hsorted.imp (fun hlt => ne_of_lt hlt)
  have hcollected : (collectMembers members).Perm others :=
    (perm_collectMembers ((hperm.map Prod.fst).nodup_iff.mpr hnames)).trans hperm
  apply hcollected.eq_of_pairwise _ (sorted_collectMembers members) hsorted
  intro left right _ _ hlt hgt
  exact absurd hgt (lt_asymm hlt)

def readMember {α : Type} (read : Json → Option α) (member : String × Json) :
    Option (String × α) :=
  (read member.2).map (fun value => (member.1, value))

namespace Codec

variable {α : Type}

structure Lossless (codec : Codec α) : Prop where
  kept : ∀ depth value, codec.Kept depth value

/-- A map of values that always come back. -/
def map (order : MapOrder) (codec : Codec α) (hlossless : codec.Lossless) :
    Codec (StringMap α) where
  write map :=
    .obj ((order.arrange map.members).map
      (fun member => (member.1, codec.write member.2)))
  read depth doc :=
    if depth = 0 then none
    else
      match doc with
      | .obj members =>
          (members.mapM (readMember (codec.read (depth - 1)))).map
            (fun decoded =>
              ⟨collectMembers decoded, sorted_collectMembers decoded⟩)
      | _ => none
  Kept depth _ := 0 < depth
  proper map := by
    apply Proper.obj
    intro member hmem
    obtain ⟨original, _, rfl⟩ := List.mem_map.mp hmem
    exact codec.proper original.2
  read_write_iff depth map := by
    by_cases hdepth : depth = 0
    · simp [hdepth]
    · rw [if_neg hdepth]
      refine iff_of_true ?_ (Nat.pos_of_ne_zero hdepth)
      have hread : ∀ members : List (String × α),
          (members.map (fun member => (member.1, codec.write member.2))).mapM
            (readMember (codec.read (depth - 1))) = some members := by
        intro members
        induction members with
        | nil => rfl
        | cons member rest ih =>
            have hmember := (codec.read_write_iff (depth - 1) member.2).mpr
              (hlossless.kept _ _)
            simp [readMember, hmember, ih]
      dsimp only
      rw [hread, Option.map_some]
      congr 1
      obtain ⟨members, sorted⟩ := map
      rw [StringMap.mk.injEq]
      exact collectMembers_of_perm sorted (order.perm members)

end Codec

/-! ### Records -/

/-- Some of the fields of a record.  What is read depends on the members of
their names alone; a record may also be given as an array, from which each
field takes its element in turn.  Fields of one name would get in each
other's way. -/
structure Fields (α : Type) where
  names : List String
  write : α → List (String × Json)
  read : ℕ → List (String × Json) → Option α
  readElements : ℕ → List Json → Option (α × List Json)
  Kept : ℕ → α → Prop
  named : ∀ value, ∀ member ∈ write value, member.1 ∈ names
  proper : ∀ value, ∀ member ∈ write value, Proper member.2
  read_congr : ∀ depth {members others : List (String × Json)},
    (∀ name ∈ names, entries members name = entries others name) →
    read depth members = read depth others
  read_write_iff : names.Nodup → ∀ depth value,
    (read depth (write value) = some value ↔ Kept depth value)

namespace Fields

variable {α β : Type}

def required (name : String) (codec : Codec α) : Fields α where
  names := [name]
  write value := [(name, codec.write value)]
  read depth members := requiredField (codec.read depth) members name
  readElements depth
    | element :: rest =>
        (codec.read depth element).map (fun value => (value, rest))
    | [] => none
  Kept := codec.Kept
  named value := by simp
  proper value := by simpa using codec.proper value
  read_congr depth := by
    intro members others hsame
    rw [requiredField, requiredField, hsame name List.mem_cons_self]
  read_write_iff _ depth value := by
    rw [← codec.read_write_iff]
    simp [requiredField, entries_cons]

/-- An optional field that is always written. -/
def optional (name : String) (codec : Codec α) : Fields (Option α) where
  names := [name]
  write value := [(name, (value.map codec.write).getD .null)]
  read depth members := optionalField (codec.read depth) members name
  readElements depth
    | element :: rest =>
        (readOptional (codec.read depth) [element]).map
          (fun value => (value, rest))
    | [] => none
  Kept depth value := ∀ present, value = some present →
    codec.write present ≠ .null ∧ codec.Kept depth present
  named value := by simp
  proper value := by
    cases value with
    | none => simpa using Proper.null
    | some present => simpa using codec.proper present
  read_congr depth := by
    intro members others hsame
    rw [optionalField, optionalField, hsame name List.mem_cons_self]
  read_write_iff _ depth value := by
    simp only [← codec.read_write_iff, ← readOptional_toList_iff]
    cases value with
    | none => simp [optionalField, entries_cons, readOptional]
    | some present => simp [optionalField, entries_cons]

/-- An optional field that an array may end before. -/
def defaulted (name : String) (codec : Codec α) : Fields (Option α) :=
  { optional name codec with
    readElements := fun depth elements =>
      match elements with
      | [] => some (none, [])
      | _ => (optional name codec).readElements depth elements }

/-- An optional field that is written only when there is a value. -/
def skipped (name : String) (codec : Codec α) : Fields (Option α) :=
  { optional name codec with
    write := optionalMember name codec.write
    named := by
      intro value member hmem
      rw [mem_optionalMember hmem]
      exact List.mem_cons_self
    proper := by
      intro value
      exact proper_optionalMember (fun present _ => codec.proper present)
    read_write_iff := by
      intro _ depth value
      change optionalField (codec.read depth)
          (optionalMember name codec.write value) name = some value ↔
        ∀ present, value = some present →
          codec.write present ≠ .null ∧ codec.Kept depth present
      simp only [← codec.read_write_iff]
      rw [← readOptional_toList_iff, optionalField, entries_optionalMember_self] }

theorem entries_write_eq_nil (fields : Fields α) {name : String}
    (hname : name ∉ fields.names) (value : α) :
    entries (fields.write value) name = [] := by
  apply entries_eq_nil
  rintro member hmem rfl
  exact hname (fields.named value member hmem)

/-- A field is read past the members of the other fields. -/
theorem read_write_append (first : Fields α) (second : Fields β)
    (hdisjoint : List.Disjoint first.names second.names) (depth : ℕ) (left : α)
    (right : β) :
    first.read depth (first.write left ++ second.write right) =
      first.read depth (first.write left) := by
  apply first.read_congr
  intro name hname
  rw [entries_append, second.entries_write_eq_nil (hdisjoint hname),
    List.append_nil]

def and (first : Fields α) (second : Fields β) : Fields (α × β) where
  names := first.names ++ second.names
  write value := first.write value.1 ++ second.write value.2
  read depth members := do
    let left ← first.read depth members
    let right ← second.read depth members
    some (left, right)
  readElements depth elements := do
    let (left, rest) ← first.readElements depth elements
    let (right, rest) ← second.readElements depth rest
    some ((left, right), rest)
  Kept depth value := first.Kept depth value.1 ∧ second.Kept depth value.2
  named value := by
    intro member hmem
    rcases List.mem_append.mp hmem with hleft | hright
    · exact List.mem_append_left _ (first.named _ member hleft)
    · exact List.mem_append_right _ (second.named _ member hright)
  proper value := by
    intro member hmem
    rcases List.mem_append.mp hmem with hleft | hright
    · exact first.proper _ member hleft
    · exact second.proper _ member hright
  read_congr depth := by
    intro members others hsame
    rw [first.read_congr depth
        (fun name hname => hsame name (List.mem_append_left _ hname)),
      second.read_congr depth
        (fun name hname => hsame name (List.mem_append_right _ hname))]
  read_write_iff hnodup depth value := by
    obtain ⟨left, right⟩ := value
    obtain ⟨hfirst, hsecond, hdisjoint⟩ := List.nodup_append'.mp hnodup
    have hleft := first.read_write_append second hdisjoint depth left right
    have hright : second.read depth (first.write left ++ second.write right) =
        second.read depth (second.write right) := by
      apply second.read_congr
      intro name hname
      rw [entries_append, first.entries_write_eq_nil
        (fun hother => hdisjoint hother hname), List.nil_append]
    dsimp only
    rw [hleft, hright, ← first.read_write_iff hfirst,
      ← second.read_write_iff hsecond]
    cases first.read depth (first.write left) with
    | none => simp
    | some left' => cases second.read depth (second.write right) <;> simp

theorem read_first_of_and {first : Fields α} {second : Fields β}
    (hnodup : (first.and second).names.Nodup) {depth : ℕ} {value read : α × β}
    (hread : (first.and second).read depth ((first.and second).write value) =
      some read) :
    first.read depth (first.write value.1) = some read.1 := by
  have hdisjoint := (List.nodup_append'.mp hnodup).2.2
  change (do
    let left ← first.read depth (first.write value.1 ++ second.write value.2)
    let right ← second.read depth (first.write value.1 ++ second.write value.2)
    some (left, right)) = some read at hread
  rw [first.read_write_append second hdisjoint] at hread
  simp only [Option.bind_eq_bind, Option.bind_eq_some_iff,
    Option.some.injEq] at hread
  obtain ⟨left, hleft, right, _, rfl⟩ := hread
  exact hleft

/-- No two fields have one name. -/
structure Distinct (fields : Fields α) : Prop where
  nodup : fields.names.Nodup

end Fields

namespace Codec

variable {α β : Type}

/-- A record, from its fields. -/
def record (fields : Fields β) (hdistinct : fields.Distinct) (same : β ≃ α) :
    Codec α where
  write value := .obj (fields.write (same.symm value))
  read depth doc :=
    if depth = 0 then none
    else
      match doc with
      | .obj members => (fields.read (depth - 1) members).map same
      | .arr elements =>
          match fields.readElements (depth - 1) elements with
          | some (value, []) => some (same value)
          | _ => none
      | _ => none
  Kept depth value := 0 < depth ∧ fields.Kept (depth - 1) (same.symm value)
  proper value := .obj (fields.proper (same.symm value))
  read_write_iff depth value := by
    by_cases hdepth : depth = 0
    · simp [hdepth]
    · rw [if_neg hdepth, ← fields.read_write_iff hdistinct.nodup,
        Option.map_eq_some_iff]
      constructor
      · rintro ⟨parts, hread, rfl⟩
        rw [hread, Equiv.symm_apply_apply]
        exact ⟨Nat.pos_of_ne_zero hdepth, rfl⟩
      · rintro ⟨_, hread⟩
        exact ⟨same.symm value, hread, same.apply_symm_apply value⟩

theorem read_fields_of_record {fields : Fields β} {hdistinct : fields.Distinct}
    {same : β ≃ α} {depth : ℕ} {value read : α}
    (hread : (record fields hdistinct same).read depth
      ((record fields hdistinct same).write value) = some read) :
    fields.read (depth - 1) (fields.write (same.symm value)) =
      some (same.symm read) := by
  change (if depth = 0 then none
    else (fields.read (depth - 1) (fields.write (same.symm value))).map same) =
      some read at hread
  split_ifs at hread
  obtain ⟨parts, hparts, rfl⟩ := Option.map_eq_some_iff.mp hread
  rw [hparts, same.symm_apply_apply]

end Codec

/-! ### Tagged unions -/

/-- A variant of a union, read from what stands under its name, or from the
name alone. -/
structure Variant (α : Type) where
  name : String
  read : ℕ → Option Json → Option α

/-- A value of a union as it is written: its variant, what stands under the
name, and within how many levels it comes back. -/
structure Content where
  name : String
  doc : Option Json
  Kept : ℕ → Prop

section Tagged

variable {α β : Type}

def Variant.unit (name : String) (value : α) : Variant α where
  name := name
  read _
    | none => some value
    | some .null => some value
    | some _ => none

def Variant.newtype (name : String) (codec : Codec β) (make : β → α) :
    Variant α where
  name := name
  read depth content :=
    content.bind (fun doc => (codec.read depth doc).map make)

def Content.unit (name : String) : Content := ⟨name, none, fun _ => True⟩

def Content.newtype (name : String) (codec : Codec β) (payload : β) : Content :=
  ⟨name, some (codec.write payload),
    fun depth => 0 < depth ∧ codec.Kept (depth - 1) payload⟩

/-- A variant without content is its name alone. -/
def Content.write (content : Content) : Json :=
  match content.doc with
  | none => .str content.name
  | some doc => .obj [(content.name, doc)]

def findVariant (variants : List (Variant α)) (name : String) :
    Option (Variant α) :=
  variants.find? (fun variant => variant.name == name)

def readTagged (variants : List (Variant α)) (depth : ℕ) : Json → Option α
  | .str name =>
      (findVariant variants name).bind
        (fun variant => variant.read depth none)
  | .obj [(name, doc)] =>
      if depth = 0 then none
      else
        (findVariant variants name).bind
          (fun variant => variant.read (depth - 1) (some doc))
  | _ => none

/-- The variant of the name reads the content as the value. -/
inductive Reads (variants : List (Variant α)) (value : α) : Content → Prop
  | unit {name : String}
      (hfind : findVariant variants name = some (.unit name value)) :
      Reads variants value (.unit name)
  | newtype {β : Type} {name : String} {codec : Codec β} {payload : β}
      (make : β → α)
      (hfind : findVariant variants name = some (.newtype name codec make))
      (hmake : Function.Injective make) (hvalue : make payload = value) :
      Reads variants value (.newtype name codec payload)

theorem Reads.read_write_iff {variants : List (Variant α)} {value : α}
    {content : Content} (hreads : Reads variants value content) (depth : ℕ) :
    readTagged variants depth content.write = some value ↔
      content.Kept depth := by
  cases hreads with
  | @unit name hfind =>
      refine iff_of_true ?_ trivial
      change (findVariant variants name).bind _ = some value
      rw [hfind]
      rfl
  | @newtype _ name codec payload make hfind hmake hvalue =>
      subst hvalue
      change (if depth = 0 then none else (findVariant variants name).bind _) =
        some (make payload) ↔ 0 < depth ∧ codec.Kept (depth - 1) payload
      rw [hfind, ← codec.read_write_iff]
      by_cases hdepth : depth = 0
      · simp [hdepth]
      · simp [hdepth, Variant.newtype, hmake.eq_iff, Nat.pos_of_ne_zero hdepth]

theorem Reads.proper {variants : List (Variant α)} {value : α}
    {content : Content} (hreads : Reads variants value content) :
    Proper content.write := by
  cases hreads with
  | unit hfind => exact .str _
  | @newtype _ name codec payload make hfind hmake hvalue =>
      apply Proper.obj
      simpa using codec.proper payload

/-- A union, from its variants and the variant and content of each value. -/
def Codec.tagged (variants : List (Variant α)) (content : α → Content)
    (hreads : ∀ value, Reads variants value (content value)) : Codec α where
  write value := (content value).write
  read := readTagged variants
  Kept depth value := (content value).Kept depth
  proper value := (hreads value).proper
  read_write_iff depth value := (hreads value).read_write_iff depth

end Tagged

/-! ### What comes back -/

namespace Fields

variable {α β : Type}

@[simp] theorem names_required (name : String) (codec : Codec α) :
    (required name codec).names = [name] := rfl

@[simp] theorem names_optional (name : String) (codec : Codec α) :
    (optional name codec).names = [name] := rfl

@[simp] theorem names_defaulted (name : String) (codec : Codec α) :
    (defaulted name codec).names = [name] := rfl

@[simp] theorem names_skipped (name : String) (codec : Codec α) :
    (skipped name codec).names = [name] := rfl

@[simp] theorem names_and (first : Fields α) (second : Fields β) :
    (first.and second).names = first.names ++ second.names := rfl

@[simp] theorem kept_required (name : String) (codec : Codec α) (depth : ℕ)
    (value : α) :
    (required name codec).Kept depth value ↔ codec.Kept depth value := Iff.rfl

@[simp] theorem kept_optional (name : String) (codec : Codec α) (depth : ℕ)
    (value : Option α) :
    (optional name codec).Kept depth value ↔ ∀ present, value = some present →
      codec.write present ≠ .null ∧ codec.Kept depth present := Iff.rfl

@[simp] theorem kept_defaulted (name : String) (codec : Codec α) (depth : ℕ)
    (value : Option α) :
    (defaulted name codec).Kept depth value ↔ ∀ present, value = some present →
      codec.write present ≠ .null ∧ codec.Kept depth present := Iff.rfl

@[simp] theorem kept_skipped (name : String) (codec : Codec α) (depth : ℕ)
    (value : Option α) :
    (skipped name codec).Kept depth value ↔ ∀ present, value = some present →
      codec.write present ≠ .null ∧ codec.Kept depth present := Iff.rfl

@[simp] theorem kept_and (first : Fields α) (second : Fields β) (depth : ℕ)
    (value : α × β) :
    (first.and second).Kept depth value ↔
      first.Kept depth value.1 ∧ second.Kept depth value.2 := Iff.rfl

end Fields

namespace Codec

variable {α β : Type}

@[simp] theorem kept_text (print : α → String) (parse : String → Option α)
    (reads : ∀ value, parse (print value) = some value) (depth : ℕ) (value : α) :
    (text print parse reads).Kept depth value := trivial

@[simp] theorem kept_string (depth : ℕ) (value : String) :
    string.Kept depth value := trivial

@[simp] theorem kept_bool (depth : ℕ) (value : Bool) :
    bool.Kept depth value := trivial

@[simp] theorem kept_u32 (depth : ℕ) (value : UInt32) :
    u32.Kept depth value := trivial

@[simp] theorem kept_u64 (depth : ℕ) (value : UInt64) :
    u64.Kept depth value := trivial

@[simp] theorem kept_i32 (depth : ℕ) (value : Int32) :
    i32.Kept depth value := trivial

@[simp] theorem kept_f64 (numbers : NumberText) (depth : ℕ) (bits : UInt64) :
    (f64 numbers).Kept depth bits ↔ numbers.DoubleKept bits := Iff.rfl

@[simp] theorem kept_f32 (numbers : NumberText) (depth : ℕ) (bits : UInt32) :
    (f32 numbers).Kept depth bits ↔ numbers.SingleKept bits := Iff.rfl

@[simp] theorem kept_value (numbers : NumberText) (depth : ℕ)
    (value : OrderedValue) :
    (Codec.value numbers).Kept depth value ↔
      value.val.fits depth = true ∧
        value.val.FloatsStable numbers.toFloatText := Iff.rfl

@[simp] theorem kept_newtype (codec : Codec α) (same : α ≃ β) (depth : ℕ)
    (value : β) :
    (codec.newtype same).Kept depth value ↔
      codec.Kept depth (same.symm value) := Iff.rfl

@[simp] theorem kept_list (codec : Codec α) (depth : ℕ) (values : List α) :
    codec.list.Kept depth values ↔
      0 < depth ∧ ∀ value ∈ values, codec.Kept (depth - 1) value := Iff.rfl

@[simp] theorem kept_map (order : MapOrder) (codec : Codec α)
    (hlossless : codec.Lossless) (depth : ℕ) (map : StringMap α) :
    (Codec.map order codec hlossless).Kept depth map ↔ 0 < depth := Iff.rfl

@[simp] theorem kept_record (fields : Fields β) (hdistinct : fields.Distinct)
    (same : β ≃ α) (depth : ℕ) (value : α) :
    (record fields hdistinct same).Kept depth value ↔
      0 < depth ∧ fields.Kept (depth - 1) (same.symm value) := Iff.rfl

@[simp] theorem kept_tagged (variants : List (Variant α))
    (content : α → Content)
    (hreads : ∀ value, Reads variants value (content value)) (depth : ℕ)
    (value : α) :
    (tagged variants content hreads).Kept depth value ↔
      (content value).Kept depth := Iff.rfl

@[simp] theorem kept_contentUnit (name : String) (depth : ℕ) :
    (Content.unit name).Kept depth := trivial

@[simp] theorem kept_contentNewtype (name : String) (codec : Codec β)
    (payload : β) (depth : ℕ) :
    (Content.newtype name codec payload).Kept depth ↔
      0 < depth ∧ codec.Kept (depth - 1) payload := Iff.rfl

@[simp] theorem write_text_ne_null (print : α → String)
    (parse : String → Option α)
    (reads : ∀ value, parse (print value) = some value) (value : α) :
    (text print parse reads).write value ≠ .null := Json.noConfusion

@[simp] theorem write_string_ne_null (value : String) :
    string.write value ≠ .null := Json.noConfusion

@[simp] theorem write_bool_ne_null (value : Bool) :
    bool.write value ≠ .null := Json.noConfusion

@[simp] theorem write_u64_ne_null (value : UInt64) :
    u64.write value ≠ .null := Json.noConfusion

@[simp] theorem write_f64_eq_null_iff (numbers : NumberText) (bits : UInt64) :
    (f64 numbers).write bits = .null ↔ isFiniteDouble bits = false := by
  change numbers.writeDouble bits = .null ↔ _
  rw [NumberText.writeDouble]
  split_ifs with hfinite <;> simp [hfinite]

@[simp] theorem write_value_eq_null_iff (numbers : NumberText)
    (value : OrderedValue) :
    (Codec.value numbers).write value = .null ↔ value.val = .null :=
  Value.encode_eq_null_iff _ value.val

@[simp] theorem write_newtype (codec : Codec α) (same : α ≃ β) (value : β) :
    (codec.newtype same).write value = codec.write (same.symm value) := rfl

@[simp] theorem write_record_ne_null (fields : Fields β)
    (hdistinct : fields.Distinct) (same : β ≃ α) (value : α) :
    (record fields hdistinct same).write value ≠ .null := Json.noConfusion

end Codec

end Json
end Acdp
