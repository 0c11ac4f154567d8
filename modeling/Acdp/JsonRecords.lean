import Acdp.JsonValue

/-!
# Records read from values and written back

The fields of a record are put together one by one, each with the name it has
in an object.  A value keeps when it is read, and what is read is written as
the same value again: for a record this comes apart into its fields, and into
that the object has no member of another name.
-/

namespace Acdp
namespace Json

/-! ## Maps by their members -/

section Maps

variable {α : Type*}

theorem lookup_cons_eq_if (key : String) (value : α)
    (rest : List (String × α)) (name : String) :
    List.lookup name ((key, value) :: rest) =
      if name = key then some value else rest.lookup name := by
  rw [List.lookup_cons]
  by_cases hname : name = key
  · rw [if_pos hname, hname, beq_self_eq_true]
  · rw [if_neg hname, beq_false_of_ne hname]

theorem lookup_eq_some_iff_mem {members : List (String × α)}
    (hsorted : Sorted members) {name : String} {value : α} :
    members.lookup name = some value ↔ (name, value) ∈ members := by
  induction members with
  | nil => simp
  | cons head rest ih =>
      obtain ⟨key, first⟩ := head
      obtain ⟨hless, hrest⟩ := List.pairwise_cons.mp hsorted
      rw [List.lookup_cons]
      by_cases hkey : name = key
      · subst hkey
        have habsent : (name, value) ∉ rest :=
          fun hmem => lt_irrefl _ (hless (name, value) hmem)
        simp [habsent, eq_comm]
      · have hne : (name == key) = false := by simpa using hkey
        rw [hne]
        simpa [hkey] using ih hrest

theorem nodup_of_sorted {members : List (String × α)}
    (hsorted : Sorted members) : members.Nodup :=
  hsorted.imp (fun hless hsame => by
    rw [hsame] at hless
    exact lt_irrefl _ hless)

/-- A map is determined by what its names lead to. -/
theorem eq_of_lookup {members others : List (String × α)}
    (hmembers : Sorted members) (hothers : Sorted others)
    (hlookup : ∀ name, members.lookup name = others.lookup name) :
    members = others := by
  have hperm : members.Perm others := by
    rw [List.perm_ext_iff_of_nodup (nodup_of_sorted hmembers)
      (nodup_of_sorted hothers)]
    rintro ⟨name, value⟩
    rw [← lookup_eq_some_iff_mem hmembers, hlookup,
      lookup_eq_some_iff_mem hothers]
  exact hperm.eq_of_pairwise
    (fun first second _ _ hless hgreater =>
      absurd (lt_trans hless hgreater) (lt_irrefl _)) hmembers hothers

theorem lookup_insertMember {members : List (String × α)}
    (hsorted : Sorted members) (key name : String) (value : α) :
    (insertMember key value members).lookup name =
      if name = key then some value else members.lookup name := by
  induction members with
  | nil => rw [insertMember, lookup_cons_eq_if]
  | cons head rest ih =>
      obtain ⟨other, old⟩ := head
      obtain ⟨hless, hrest⟩ := List.pairwise_cons.mp hsorted
      rw [insertMember]
      by_cases hbefore : key < other
      · rw [if_pos hbefore, lookup_cons_eq_if]
      · rw [if_neg hbefore]
        by_cases hsame : key = other
        · rw [if_pos hsame, lookup_cons_eq_if, lookup_cons_eq_if, ← hsame]
          split_ifs
          · rfl
          · rfl
        · rw [if_neg hsame, lookup_cons_eq_if, lookup_cons_eq_if, ih hrest]
          by_cases hname : name = key
          · have hother : name ≠ other := hname ▸ hsame
            rw [if_neg hother, if_pos hname, if_pos hname]
          · rw [if_neg hname, if_neg hname]

theorem lookup_collectMembers {members : List (String × α)}
    (hnames : (members.map Prod.fst).Nodup) (name : String) :
    (collectMembers members).lookup name = members.lookup name := by
  induction members using List.reverseRecOn with
  | nil => rfl
  | append_singleton members member ih =>
      rw [List.map_append, List.nodup_append] at hnames
      obtain ⟨hbefore, _, hapart⟩ := hnames
      have hcollect : collectMembers (members ++ [member]) =
          insertMember member.1 member.2 (collectMembers members) := by
        rw [collectMembers, List.foldl_append]
        rfl
      rw [hcollect, lookup_insertMember (sorted_collectMembers members),
        ih hbefore, List.lookup_append]
      by_cases hname : name = member.1
      · have habsent : members.lookup name = none := by
          rw [List.lookup_eq_none_iff]
          intro other hother
          have hne := hapart other.1 (List.mem_map_of_mem hother) member.1
            (List.mem_singleton_self _)
          rw [hname]
          simpa using Ne.symm hne
        rw [habsent, if_pos hname, hname, List.lookup_cons_self]
        rfl
      · rw [if_neg hname, List.lookup_cons, beq_false_of_ne hname]
        simp

/-- The map of the members that are there. -/
def record (members : List (String × Option α)) : List (String × α) :=
  collectMembers
    (members.filterMap (fun member => member.2.map (fun value =>
      (member.1, value))))

theorem sorted_record (members : List (String × Option α)) :
    Sorted (record members) :=
  sorted_collectMembers _

theorem names_filterMap_subset (members : List (String × Option α)) :
    ((members.filterMap (fun member => member.2.map (fun value =>
      (member.1, value)))).map Prod.fst).Sublist (members.map Prod.fst) := by
  induction members with
  | nil => exact List.Sublist.refl _
  | cons member rest ih =>
      obtain ⟨name, value⟩ := member
      cases value with
      | none => exact ih.cons _
      | some value => exact ih.cons_cons _

theorem lookup_record {members : List (String × Option α)}
    (hnames : (members.map Prod.fst).Nodup) (name : String) :
    (record members).lookup name = (members.lookup name).join := by
  rw [record, lookup_collectMembers
    ((names_filterMap_subset members).nodup hnames)]
  induction members with
  | nil => rfl
  | cons member rest ih =>
      obtain ⟨key, value⟩ := member
      rw [List.map_cons, List.nodup_cons] at hnames
      obtain ⟨hkey, hrest⟩ := hnames
      rw [List.lookup_cons]
      by_cases hname : name = key
      · subst hname
        rw [beq_self_eq_true]
        cases value with
        | some value => simp
        | none =>
            have habsent : rest.lookup name = none := by
              rw [List.lookup_eq_none_iff]
              intro other hother
              have hne : other.1 ≠ name := by
                intro hsame
                exact hkey (List.mem_map.mpr ⟨other, hother, hsame⟩)
              simpa using Ne.symm hne
            have hnothing := ih hrest
            rw [habsent] at hnothing
            simpa using hnothing
      · rw [beq_false_of_ne hname, ← ih hrest]
        cases value with
        | some value =>
            simp [List.lookup_cons, beq_false_of_ne hname]
        | none => simp

theorem record_eq_iff {members : List (String × Option α)}
    (hnames : (members.map Prod.fst).Nodup) {others : List (String × α)}
    (hothers : Sorted others) :
    record members = others ↔
      ∀ name, (members.lookup name).join = others.lookup name := by
  constructor
  · rintro rfl name
    exact (lookup_record hnames name).symm
  · intro hlookup
    apply eq_of_lookup (sorted_record members) hothers
    intro name
    rw [lookup_record hnames]
    exact hlookup name

end Maps

/-! ## Readers with their writers -/

structure Wire (α : Type) where
  fromValue : Value → Option α
  toValue : α → Value

namespace Wire

variable {α : Type}

/-- The value is read, and written as it was. -/
def Keeps (wire : Wire α) (value : Value) : Prop :=
  ∃ read, wire.fromValue value = some read ∧ wire.toValue read = value

def value : Wire Value where
  fromValue := some
  toValue := id

def string : Wire String where
  fromValue
    | .str text => some text
    | _ => none
  toValue := .str

def bool : Wire Bool where
  fromValue
    | .bool flag => some flag
    | _ => none
  toValue := .bool

def u64 : Wire UInt64 where
  fromValue
    | .number (.posInt number) => some number
    | _ => none
  toValue number := .number (.posInt number)

def list (wire : Wire α) : Wire (List α) where
  fromValue
    | .array elements => elements.mapM wire.fromValue
    | _ => none
  toValue items := .array (items.map wire.toValue)

theorem keeps_value (kept : Value) : value.Keeps kept := ⟨kept, rfl, rfl⟩

theorem keeps_string (text : String) : string.Keeps (.str text) :=
  ⟨text, rfl, rfl⟩

theorem keeps_bool (flag : Bool) : bool.Keeps (.bool flag) :=
  ⟨flag, rfl, rfl⟩

theorem keeps_list_iff (wire : Wire α) (elements : List Value) :
    wire.list.Keeps (.array elements) ↔
      ∀ element ∈ elements, wire.Keeps element := by
  have hlist : wire.list.Keeps (.array elements) ↔
      ∃ read, elements.mapM wire.fromValue = some read ∧
        read.map wire.toValue = elements := by
    unfold Keeps list
    simp
  rw [hlist]
  clear hlist
  induction elements with
  | nil => simp
  | cons element rest ih =>
      rw [List.forall_mem_cons]
      refine Iff.trans ?_ (and_congr_right' ih)
      constructor
      · rintro ⟨read, hread, hwrite⟩
        rw [List.mapM_cons] at hread
        obtain ⟨first, hfirst, hrest⟩ := Option.bind_eq_some_iff.mp hread
        obtain ⟨others, hothers, hboth⟩ := Option.bind_eq_some_iff.mp hrest
        cases hboth
        obtain ⟨hhead, htail⟩ := List.cons_eq_cons.mp hwrite
        exact ⟨⟨first, hfirst, hhead⟩, others, hothers, htail⟩
      · rintro ⟨⟨first, hfirst, hhead⟩, others, hothers, htail⟩
        refine ⟨first :: others, ?_, ?_⟩
        · rw [List.mapM_cons, hfirst]
          simp [hothers]
        · rw [List.map_cons, hhead, htail]

end Wire

/-! ## Fields -/

/-- The names of the fields, and how they are read from the members of an
object and written as members that may be left out. -/
structure WireFields (α : Type) where
  names : List String
  read : List (String × Value) → Option α
  write : α → List (String × Option Value)
  names_write : ∀ value, (write value).map Prod.fst = names
  read_congr : ∀ members others,
    (∀ name ∈ names, members.lookup name = others.lookup name) →
      read members = read others

namespace WireFields

variable {α β : Type}

/-- The fields are read from the members, and written as they were. -/
def KeptIn (fields : WireFields α) (members : List (String × Value)) : Prop :=
  ∃ read, fields.read members = some read ∧ ∀ name ∈ fields.names,
    ((fields.write read).lookup name).join = members.lookup name

def required (name : String) (wire : Wire α) : WireFields α where
  names := [name]
  read members := (members.lookup name).bind wire.fromValue
  write value := [(name, some (wire.toValue value))]
  names_write _ := rfl
  read_congr _ _ hsame := by rw [hsame name (List.mem_singleton_self _)]

/-- A missing member and `null` are read as nothing, and nothing is left
out. -/
def optional (name : String) (wire : Wire α) : WireFields (Option α) where
  names := [name]
  read members :=
    match members.lookup name with
    | none => some none
    | some .null => some none
    | some value => (wire.fromValue value).map some
  write value := [(name, value.map wire.toValue)]
  names_write _ := rfl
  read_congr _ _ hsame := by rw [hsame name (List.mem_singleton_self _)]

/-- A missing member is read as the default. -/
def defaulted (name : String) (wire : Wire α) (default : α) :
    WireFields α where
  names := [name]
  read members :=
    match members.lookup name with
    | none => some default
    | some value => wire.fromValue value
  write value := [(name, some (wire.toValue value))]
  names_write _ := rfl
  read_congr _ _ hsame := by rw [hsame name (List.mem_singleton_self _)]

def and (first : WireFields α) (second : WireFields β) :
    WireFields (α × β) where
  names := first.names ++ second.names
  read members := do
    let left ← first.read members
    let right ← second.read members
    some (left, right)
  write value := first.write value.1 ++ second.write value.2
  names_write value := by
    rw [List.map_append, first.names_write, second.names_write]
  read_congr members others hsame := by
    rw [first.read_congr members others
        (fun name hname => hsame name (List.mem_append_left _ hname)),
      second.read_congr members others
        (fun name hname => hsame name (List.mem_append_right _ hname))]

def map (fields : WireFields α) (make : α → β) (parts : β → α) :
    WireFields β where
  names := fields.names
  read members := (fields.read members).map make
  write value := fields.write (parts value)
  names_write value := fields.names_write (parts value)
  read_congr members others hsame := by
    rw [fields.read_congr members others hsame]

/-! ### Fields that are kept -/

variable {members : List (String × Value)}

theorem keptIn_required_iff (name : String) (wire : Wire α) :
    (required name wire).KeptIn members ↔
      ∃ value, members.lookup name = some value ∧ wire.Keeps value := by
  constructor
  · rintro ⟨read, hread, hwrite⟩
    obtain ⟨value, hvalue, hfrom⟩ := Option.bind_eq_some_iff.mp hread
    have hsame := hwrite name (List.mem_singleton_self _)
    rw [hvalue] at hsame
    refine ⟨value, hvalue, read, hfrom, ?_⟩
    simpa [required] using hsame
  · rintro ⟨value, hvalue, read, hfrom, hto⟩
    refine ⟨read, ?_, ?_⟩
    · dsimp only [required]
      rw [hvalue]
      exact hfrom
    · intro other hother
      rw [List.mem_singleton.mp hother, hvalue]
      simp [required, hto]

theorem keptIn_optional_iff (name : String) (wire : Wire α) :
    (optional name wire).KeptIn members ↔
      ∀ value, members.lookup name = some value →
        value ≠ .null ∧ wire.Keeps value := by
  constructor
  · rintro ⟨read, hread, hwrite⟩ value hvalue
    have hsame := hwrite name (List.mem_singleton_self _)
    rw [hvalue] at hsame
    have hwritten : read.map wire.toValue = some value := by
      simpa [optional] using hsame
    obtain ⟨found, rfl, hto⟩ := Option.map_eq_some_iff.mp hwritten
    dsimp only [optional] at hread
    rw [hvalue] at hread
    cases value with
    | null => cases hread
    | _ =>
        refine ⟨by simp, found, ?_, hto⟩
        obtain ⟨other, hother, hsome⟩ := Option.map_eq_some_iff.mp hread
        cases hsome
        exact hother
  · intro hkept
    cases hlookup : members.lookup name with
    | none =>
        refine ⟨none, ?_, ?_⟩
        · simp [optional, hlookup]
        · intro other hother
          rw [List.mem_singleton.mp hother, hlookup]
          simp [optional]
    | some value =>
        obtain ⟨hnull, read, hfrom, hto⟩ := hkept value hlookup
        refine ⟨some read, ?_, ?_⟩
        · dsimp only [optional]
          rw [hlookup]
          cases value with
          | null => exact absurd rfl hnull
          | _ =>
              dsimp only
              rw [hfrom]
              rfl
        · intro other hother
          rw [List.mem_singleton.mp hother, hlookup]
          simp [optional, hto]

theorem keptIn_defaulted_iff (name : String) (wire : Wire α) (default : α) :
    (defaulted name wire default).KeptIn members ↔
      ∃ value, members.lookup name = some value ∧ wire.Keeps value := by
  constructor
  · rintro ⟨read, hread, hwrite⟩
    have hsame := hwrite name (List.mem_singleton_self _)
    cases hlookup : members.lookup name with
    | none =>
        rw [hlookup] at hsame
        simp [defaulted] at hsame
    | some value =>
        rw [hlookup] at hsame
        dsimp only [defaulted] at hread
        rw [hlookup] at hread
        refine ⟨value, rfl, read, hread, ?_⟩
        simpa [defaulted] using hsame
  · rintro ⟨value, hvalue, read, hfrom, hto⟩
    refine ⟨read, ?_, ?_⟩
    · simp only [defaulted, hvalue]
      exact hfrom
    · intro other hother
      rw [List.mem_singleton.mp hother, hvalue]
      simp [defaulted, hto]

theorem lookup_write_eq_none {fields : WireFields α} {value : α}
    {name : String} (hname : name ∉ fields.names) :
    (fields.write value).lookup name = none := by
  rw [List.lookup_eq_none_iff]
  intro member hmember
  have hne : name ≠ member.1 := by
    rintro rfl
    apply hname
    rw [← fields.names_write value]
    exact List.mem_map_of_mem hmember
  simpa using hne

theorem isSome_lookup_write {fields : WireFields α} {value : α}
    {name : String} (hname : name ∈ fields.names) :
    ((fields.write value).lookup name).isSome = true := by
  rw [← fields.names_write value] at hname
  obtain ⟨member, hmember, rfl⟩ := List.mem_map.mp hname
  rw [List.lookup_isSome_iff]
  exact ⟨member, hmember, by simp⟩

theorem keptIn_and_iff {first : WireFields α} {second : WireFields β}
    (hapart : ∀ name ∈ second.names, name ∉ first.names) :
    (first.and second).KeptIn members ↔
      first.KeptIn members ∧ second.KeptIn members := by
  have hleft : ∀ (left : α) (right : β) (name : String),
      name ∈ first.names →
      (first.write left ++ second.write right).lookup name =
        (first.write left).lookup name := by
    intro left right name hname
    have hsome : ((first.write left).lookup name).isSome = true :=
      isSome_lookup_write hname
    obtain ⟨value, hvalue⟩ := Option.isSome_iff_exists.mp hsome
    rw [List.lookup_append, hvalue]
    rfl
  have hright : ∀ (left : α) (right : β) (name : String),
      name ∈ second.names →
      (first.write left ++ second.write right).lookup name =
        (second.write right).lookup name := by
    intro left right name hname
    rw [List.lookup_append, lookup_write_eq_none (hapart name hname),
      Option.none_or]
  constructor
  · rintro ⟨⟨left, right⟩, hread, hwrite⟩
    obtain ⟨_, hfirst, hrest⟩ := Option.bind_eq_some_iff.mp hread
    obtain ⟨_, hsecond, hboth⟩ := Option.bind_eq_some_iff.mp hrest
    cases hboth
    refine ⟨⟨left, hfirst, ?_⟩, ⟨right, hsecond, ?_⟩⟩
    · intro name hname
      rw [← hleft left right name hname]
      exact hwrite name (List.mem_append_left _ hname)
    · intro name hname
      rw [← hright left right name hname]
      exact hwrite name (List.mem_append_right _ hname)
  · rintro ⟨⟨left, hfirst, hfirstWrite⟩,
      ⟨right, hsecond, hsecondWrite⟩⟩
    refine ⟨(left, right), ?_, ?_⟩
    · dsimp only [and]
      rw [hfirst, hsecond]
      rfl
    · intro name hname
      dsimp only [and]
      rcases List.mem_append.mp hname with hname | hname
      · rw [hleft left right name hname]
        exact hfirstWrite name hname
      · rw [hright left right name hname]
        exact hsecondWrite name hname

theorem keptIn_map_iff {fields : WireFields α} {make : α → β}
    {parts : β → α} (hparts : ∀ value, parts (make value) = value) :
    (fields.map make parts).KeptIn members ↔ fields.KeptIn members := by
  constructor
  · rintro ⟨read, hread, hwrite⟩
    obtain ⟨value, hvalue, rfl⟩ := Option.map_eq_some_iff.mp hread
    refine ⟨value, hvalue, ?_⟩
    dsimp only [map] at hwrite
    rw [hparts] at hwrite
    exact hwrite
  · rintro ⟨value, hvalue, hwrite⟩
    refine ⟨make value, ?_, ?_⟩
    · dsimp only [map]
      rw [hvalue]
      rfl
    · dsimp only [map]
      rw [hparts]
      exact hwrite

end WireFields

/-! ## Records -/

/-- The members of an object, or the elements of an array under the names of
the fields. -/
def Value.asRecord (names : List String) :
    Value → Option (List (String × Value))
  | .object members => some members
  | .array elements =>
      if elements.length = names.length then some (names.zip elements)
      else none
  | _ => none

namespace WireFields

variable {α : Type} (fields : WireFields α)

/-- A record of its own. -/
def record : Wire α where
  fromValue value := (value.asRecord fields.names).bind fields.read
  toValue value := .object (Json.record (fields.write value))

/-- A variant of a union that is told apart by a member `type`. -/
def writeTagged (tag : String) (value : α) : Value :=
  .object (Json.record (("type", some (.str tag)) :: fields.write value))

/-- The fields, and the other members of the object with them. -/
def flattened : Wire (α × List (String × Value)) where
  fromValue
    | .object members => (fields.read members).map fun value =>
        (value, members.filter (fun member => member.1 ∉ fields.names))
    | _ => none
  toValue value :=
    .object (Json.record (fields.write value.1 ++
      value.2.map (fun member => (member.1, some member.2))))

variable {fields} {members : List (String × Value)}

theorem keeps_record_iff (hnames : fields.names.Nodup)
    (hsorted : Sorted members) :
    fields.record.Keeps (.object members) ↔
      fields.KeptIn members ∧
        ∀ name, name ∉ fields.names → members.lookup name = none := by
  have hwritten : ∀ value,
      fields.record.toValue value = .object members ↔
        ∀ name, ((fields.write value).lookup name).join =
          members.lookup name := by
    intro value
    rw [record, Value.object.injEq,
      record_eq_iff (by rw [fields.names_write]; exact hnames) hsorted]
  constructor
  · rintro ⟨value, hread, hwrite⟩
    rw [hwritten] at hwrite
    refine ⟨⟨value, hread, fun name _ => hwrite name⟩, ?_⟩
    intro name hname
    rw [← hwrite name, lookup_write_eq_none hname]
    rfl
  · rintro ⟨⟨value, hread, hwrite⟩, hothers⟩
    refine ⟨value, hread, (hwritten value).mpr ?_⟩
    intro name
    by_cases hname : name ∈ fields.names
    · exact hwrite name hname
    · rw [lookup_write_eq_none hname, hothers name hname]
      rfl

theorem writeTagged_eq_iff (hnames : fields.names.Nodup)
    (htype : "type" ∉ fields.names) (hsorted : Sorted members) (tag : String)
    (value : α) :
    fields.writeTagged tag value = .object members ↔
      members.lookup "type" = some (.str tag) ∧
        (∀ name ∈ fields.names,
          ((fields.write value).lookup name).join = members.lookup name) ∧
        ∀ name, name ≠ "type" → name ∉ fields.names →
          members.lookup name = none := by
  have hnodup : ((("type", some (Value.str tag)) :: fields.write value).map
      Prod.fst).Nodup := by
    rw [List.map_cons, fields.names_write]
    exact List.nodup_cons.mpr ⟨htype, hnames⟩
  rw [writeTagged, Value.object.injEq, record_eq_iff hnodup hsorted]
  constructor
  · intro hwrite
    refine ⟨?_, ?_, ?_⟩
    · rw [← hwrite "type", List.lookup_cons_self]
      rfl
    · intro name hname
      have hne : name ≠ "type" := by
        rintro rfl
        exact htype hname
      rw [← hwrite name, List.lookup_cons, beq_false_of_ne hne]
    · intro name hne hname
      rw [← hwrite name, List.lookup_cons, beq_false_of_ne hne]
      dsimp only
      rw [lookup_write_eq_none hname]
      rfl
  · rintro ⟨htag, hwrite, hothers⟩ name
    rw [List.lookup_cons]
    by_cases hne : name = "type"
    · rw [hne, beq_self_eq_true, htag]
      rfl
    · rw [beq_false_of_ne hne]
      dsimp only
      by_cases hname : name ∈ fields.names
      · exact hwrite name hname
      · rw [lookup_write_eq_none hname, hothers name hne hname]
        rfl

theorem lookup_filter (members : List (String × Value))
    (keep : String → Bool) (name : String) :
    (members.filter (fun member => keep member.1)).lookup name =
      if keep name then members.lookup name else none := by
  induction members with
  | nil => simp
  | cons member rest ih =>
      obtain ⟨key, value⟩ := member
      rw [List.filter_cons, List.lookup_cons]
      by_cases hname : name = key
      · subst hname
        by_cases hkeep : keep name = true
        · simp [hkeep]
        · simp [hkeep, ih]
      · by_cases hkeep : keep key = true
        · simp [hkeep, List.lookup_cons, beq_false_of_ne hname, ih]
        · simp [hkeep, beq_false_of_ne hname, ih]

/-- A tagged variant is read without its tag, and written with it. -/
theorem keeps_tagged_iff (hnames : fields.names.Nodup)
    (htype : "type" ∉ fields.names) (hsorted : Sorted members)
    {tag : String} (htag : members.lookup "type" = some (.str tag)) :
    (∃ value, fields.record.fromValue
          (.object (members.filter (fun member => member.1 ≠ "type"))) =
        some value ∧ fields.writeTagged tag value = .object members) ↔
      fields.KeptIn members ∧
        ∀ name, name ≠ "type" → name ∉ fields.names →
          members.lookup name = none := by
  have hread : fields.record.fromValue
      (.object (members.filter (fun member => member.1 ≠ "type"))) =
        fields.read members := by
    refine fields.read_congr _ _ ?_
    intro name hname
    have hne : name ≠ "type" := by
      rintro rfl
      exact htype hname
    have hfilter := lookup_filter members
      (fun name => decide (name ≠ "type")) name
    rw [hfilter, if_pos (by simpa using hne)]
  rw [hread]
  constructor
  · rintro ⟨value, hvalue, hwrite⟩
    rw [writeTagged_eq_iff hnames htype hsorted] at hwrite
    exact ⟨⟨value, hvalue, hwrite.2.1⟩, hwrite.2.2⟩
  · rintro ⟨⟨value, hvalue, hwrite⟩, hothers⟩
    refine ⟨value, hvalue, ?_⟩
    rw [writeTagged_eq_iff hnames htype hsorted]
    exact ⟨htag, hwrite, hothers⟩

theorem lookup_map_some (others : List (String × Value)) (name : String) :
    ((others.map (fun member => (member.1, some member.2))).lookup name).join =
      others.lookup name := by
  induction others with
  | nil => rfl
  | cons member rest ih =>
      rw [List.map_cons, List.lookup_cons, List.lookup_cons]
      by_cases hname : name = member.1
      · simp [hname]
      · simpa [beq_false_of_ne hname] using ih

theorem keeps_flattened_iff (hnames : fields.names.Nodup)
    (hsorted : Sorted members) :
    fields.flattened.Keeps (.object members) ↔ fields.KeptIn members := by
  have hwritten : ∀ value,
      fields.flattened.toValue (value,
        members.filter (fun member => member.1 ∉ fields.names)) =
          .object members ↔
        ∀ name ∈ fields.names, ((fields.write value).lookup name).join =
          members.lookup name := by
    intro value
    have hothers := lookup_filter members
      (fun name => decide (name ∉ fields.names))
    have hnodup : ((fields.write value ++ (members.filter
        (fun member => member.1 ∉ fields.names)).map
          (fun member => (member.1, some member.2))).map Prod.fst).Nodup := by
      rw [List.map_append, fields.names_write, List.map_map]
      refine List.nodup_append.mpr ⟨hnames, ?_, ?_⟩
      · have hkeys : (members.map Prod.fst).Nodup :=
          List.pairwise_map.mpr (hsorted.imp (fun hless => ne_of_lt hless))
        exact (List.filter_sublist.map Prod.fst).nodup hkeys
      · rintro name hname other hother rfl
        obtain ⟨member, hmember, rfl⟩ := List.mem_map.mp hother
        have hout := (List.mem_filter.mp hmember).2
        exact absurd hname (by simpa using hout)
    rw [flattened, Value.object.injEq, record_eq_iff hnodup hsorted]
    constructor
    · intro hwrite name hname
      have hsome : ((fields.write value).lookup name).isSome = true :=
        isSome_lookup_write hname
      obtain ⟨found, hfound⟩ := Option.isSome_iff_exists.mp hsome
      rw [← hwrite name, List.lookup_append, hfound]
      rfl
    · intro hwrite name
      rw [List.lookup_append]
      by_cases hname : name ∈ fields.names
      · have hsome : ((fields.write value).lookup name).isSome = true :=
          isSome_lookup_write hname
        obtain ⟨found, hfound⟩ := Option.isSome_iff_exists.mp hsome
        rw [← hwrite name hname, hfound]
        rfl
      · rw [lookup_write_eq_none hname, Option.none_or, lookup_map_some,
          hothers, if_pos (by simpa using hname)]
  constructor
  · rintro ⟨read, hread, hwrite⟩
    obtain ⟨value, hvalue, rfl⟩ := Option.map_eq_some_iff.mp hread
    exact ⟨value, hvalue, (hwritten value).mp hwrite⟩
  · rintro ⟨value, hvalue, hwrite⟩
    refine ⟨_, ?_, (hwritten value).mpr hwrite⟩
    simp [flattened, hvalue]

end WireFields

end Json
end Acdp
