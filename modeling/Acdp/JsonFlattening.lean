import Acdp.JsonCodec
import Acdp.JsonReadBack

/-!
# Open maps written beside the fields of a record

A record may write the entries of a map beside its own fields.  Read back, a
member whose name is that of a field belongs to the field, and the map takes
the rest.  So the map comes back exactly if it keeps off the names of the
fields, whatever order its entries are gone through in.
-/

namespace Acdp
namespace Json

/-! ## Maps without an order -/

namespace StringMap

variable {α : Type}

@[ext] theorem ext_members {map other : StringMap α}
    (hmembers : map.members = other.members) : map = other := by
  obtain ⟨members, sorted⟩ := map
  obtain ⟨others, _⟩ := other
  obtain rfl : members = others := hmembers
  rfl

/-- `HashMap::new`. -/
def empty : StringMap α := ⟨[], List.Pairwise.nil⟩

/-- `HashMap::insert`. -/
def insert (map : StringMap α) (name : String) (value : α) : StringMap α :=
  ⟨insertMember name value map.members, sorted_insertMember map.sorted⟩

theorem nodup_names (map : StringMap α) :
    (map.members.map Prod.fst).Nodup := by
  rw [List.Nodup, List.pairwise_map]
  exact map.sorted.imp (fun hless => ne_of_lt hless)

end StringMap

/-- A list is arranged in only one way by its names. -/
theorem eq_of_perm_of_names {α : Type*} {members others : List (String × α)}
    (hperm : members.Perm others)
    (hnames : members.map Prod.fst = others.map Prod.fst)
    (hnodup : (others.map Prod.fst).Nodup) : members = others := by
  induction members generalizing others with
  | nil => exact (List.nil_perm.mp hperm).symm
  | cons member rest ih =>
      cases others with
      | nil => exact List.perm_nil.mp hperm
      | cons other tail =>
          rw [List.map_cons, List.map_cons, List.cons_eq_cons] at hnames
          rw [List.map_cons, List.nodup_cons] at hnodup
          -- The member is somewhere among the others, and only the first of
          -- them has its name.
          have hmember : member ∈ other :: tail :=
            hperm.mem_iff.mp List.mem_cons_self
          rcases List.mem_cons.mp hmember with hsame | htail
          · subst hsame
            rw [ih (hperm.cons_inv) hnames.2 hnodup.2]
          · refine absurd ?_ hnodup.1
            rw [← hnames.1]
            exact List.mem_map_of_mem htail

/-! ## The rest of the members -/

section Rest

variable {α : Type} (codec : Codec α) (names : List String)

/-- The members that belong to no field. -/
def unclaimed (members : List (String × Json)) : List (String × Json) :=
  members.filter (fun member => !names.contains member.1)

def readRest (depth : ℕ) (members : List (String × Json)) :
    Option (StringMap α) :=
  ((unclaimed names members).mapM (readMember (codec.read depth))).map
    (fun decoded => ⟨collectMembers decoded, sorted_collectMembers decoded⟩)

def writeEntry (entry : String × α) : String × Json :=
  (entry.1, codec.write entry.2)

def writeRest (order : MapOrder) (map : StringMap α) : List (String × Json) :=
  (order.arrange map.members).map (writeEntry codec)

/-- The entries keep off the names, and their values come back. -/
def StringMap.Clear (depth : ℕ) (map : StringMap α) : Prop :=
  ∀ entry ∈ map.members, entry.1 ∉ names ∧ codec.Kept depth entry.2

variable {codec names}

theorem mapM_readMember_names {depth : ℕ} {members : List (String × Json)}
    {decoded : List (String × α)}
    (hread : members.mapM (readMember (codec.read depth)) = some decoded) :
    decoded.map Prod.fst = members.map Prod.fst := by
  induction members generalizing decoded with
  | nil =>
      obtain rfl := Option.some.inj hread
      rfl
  | cons member rest ih =>
      rw [List.mapM_cons] at hread
      obtain ⟨first, hfirst, hrest⟩ := Option.bind_eq_some_iff.mp hread
      obtain ⟨others, hothers, hboth⟩ := Option.bind_eq_some_iff.mp hrest
      obtain ⟨value, _, hpair⟩ := Option.map_eq_some_iff.mp hfirst
      obtain rfl := Option.some.inj hboth
      rw [List.map_cons, List.map_cons, ih hothers, ← hpair]

theorem mapM_writeEntry_iff (depth : ℕ) (entries : List (String × α)) :
    (entries.map (writeEntry codec)).mapM (readMember (codec.read depth)) =
        some entries ↔
      ∀ entry ∈ entries, codec.Kept depth entry.2 := by
  induction entries with
  | nil => simp
  | cons entry rest ih =>
      rw [List.forall_mem_cons, ← ih, ← codec.read_write_iff, List.map_cons,
        List.mapM_cons]
      obtain ⟨name, value⟩ := entry
      cases hread : codec.read depth (codec.write value) with
      | none => simp [readMember, writeEntry, hread]
      | some first =>
          cases (rest.map (writeEntry codec)).mapM
              (readMember (codec.read depth)) with
          | none => simp [readMember, writeEntry, hread]
          | some others => simp [readMember, writeEntry, hread]

theorem unclaimed_append_of_claimed {own : List (String × Json)}
    (hown : ∀ member ∈ own, member.1 ∈ names)
    (members : List (String × Json)) :
    unclaimed names (own ++ members) = unclaimed names members := by
  have hnone : unclaimed names own = [] := by
    rw [unclaimed, List.filter_eq_nil_iff]
    intro member hmember
    simpa using hown member hmember
  rw [unclaimed, List.filter_append]
  exact (congrArg (· ++ unclaimed names members) hnone).trans
    (List.nil_append _)

theorem unclaimed_eq_self_iff (members : List (String × Json)) :
    unclaimed names members = members ↔
      ∀ member ∈ members, member.1 ∉ names := by
  rw [unclaimed, List.filter_eq_self]
  simp

/-- The map comes back beside fields exactly if it is clear of them. -/
theorem readRest_iff (order : MapOrder) {own : List (String × Json)}
    (hown : ∀ member ∈ own, member.1 ∈ names) (depth : ℕ)
    (map : StringMap α) :
    readRest codec names depth (own ++ writeRest codec order map) = some map ↔
      map.Clear codec names depth := by
  have hperm := order.perm map.members
  have hnames : (writeRest codec order map).map Prod.fst =
      (order.arrange map.members).map Prod.fst := by
    rw [writeRest, List.map_map]
    rfl
  have hnodup : ((order.arrange map.members).map Prod.fst).Nodup :=
    (hperm.map Prod.fst).nodup_iff.mpr map.nodup_names
  rw [readRest, unclaimed_append_of_claimed hown]
  constructor
  · intro hread
    obtain ⟨decoded, hdecoded, hmap⟩ := Option.map_eq_some_iff.mp hread
    have hcollected : collectMembers decoded = map.members :=
      congrArg StringMap.members hmap
    have hfewer : (unclaimed names (writeRest codec order map)).Sublist
        (writeRest codec order map) := List.filter_sublist
    have hdecodedNames := mapM_readMember_names hdecoded
    have hdecodedNodup : (decoded.map Prod.fst).Nodup := by
      rw [hdecodedNames]
      refine (hfewer.map Prod.fst).nodup ?_
      rw [hnames]
      exact hnodup
    have hsame : decoded.Perm (order.arrange map.members) := by
      refine ((perm_collectMembers hdecodedNodup).symm.trans ?_)
      rw [hcollected]
      exact hperm.symm
    -- No entry was claimed by a field, or one would be missing.
    have hall : unclaimed names (writeRest codec order map) =
        writeRest codec order map := by
      apply hfewer.eq_of_length
      have hlength := congrArg List.length hdecodedNames
      rw [List.length_map, List.length_map, hsame.length_eq] at hlength
      rw [← hlength, writeRest, List.length_map]
    have hordered : decoded = order.arrange map.members := by
      refine eq_of_perm_of_names hsame ?_ hnodup
      rw [hdecodedNames, hall, hnames]
    rw [hall, hordered] at hdecoded
    have hkept := (mapM_writeEntry_iff depth _).mp hdecoded
    rw [unclaimed_eq_self_iff] at hall
    intro entry hentry
    have harranged := hperm.mem_iff.mpr hentry
    exact ⟨hall (writeEntry codec entry) (List.mem_map_of_mem harranged),
      hkept entry harranged⟩
  · intro hclear
    have hall : unclaimed names (writeRest codec order map) =
        writeRest codec order map := by
      rw [unclaimed_eq_self_iff]
      intro member hmember
      obtain ⟨entry, hentry, rfl⟩ := List.mem_map.mp hmember
      exact (hclear entry (hperm.mem_iff.mp hentry)).1
    have hkept : (writeRest codec order map).mapM
        (readMember (codec.read depth)) =
          some (order.arrange map.members) := by
      rw [writeRest, mapM_writeEntry_iff]
      intro entry hentry
      exact (hclear entry (hperm.mem_iff.mp hentry)).2
    rw [hall, hkept, Option.map_some]
    congr 1
    ext1
    exact collectMembers_of_perm map.sorted hperm

theorem mem_insertMember_self (members : List (String × α)) (name : String)
    (value : α) : (name, value) ∈ insertMember name value members := by
  induction members with
  | nil => exact List.mem_singleton_self _
  | cons member rest ih =>
      rw [insertMember]
      split_ifs
      · exact List.mem_cons_self
      · exact List.mem_cons_self
      · exact List.mem_cons_of_mem _ ih

/-- One more entry keeps a map clear exactly if it is clear itself. -/
theorem StringMap.Clear.insert_iff {depth : ℕ} {map : StringMap α}
    (hclear : map.Clear codec names depth) (name : String) (value : α) :
    (map.insert name value).Clear codec names depth ↔
      name ∉ names ∧ codec.Kept depth value := by
  constructor
  · intro hinserted
    exact hinserted (name, value) (mem_insertMember_self map.members name value)
  · rintro ⟨hname, hvalue⟩ entry hentry
    rcases mem_insertMember hentry with rfl | hold
    · exact ⟨hname, hvalue⟩
    · exact hclear entry hold

end Rest

/-! ## Records with an open map -/

namespace Fields

variable {β γ : Type}

theorem entries_writeRest_eq_nil {values : Codec γ} {names : List String}
    {order : MapOrder} {depth : ℕ} {rest : StringMap γ}
    (hclear : rest.Clear values names depth) {name : String}
    (hname : name ∈ names) :
    entries (writeRest values order rest) name = [] := by
  apply entries_eq_nil
  rintro member hmember rfl
  obtain ⟨entry, hentry, rfl⟩ := List.mem_map.mp hmember
  exact (hclear entry ((order.perm _).mem_iff.mp hentry)).1 hname

/-- The fields and the map beside them come back exactly if either does. -/
theorem read_beside_rest_iff (fields : Fields β) (hnodup : fields.names.Nodup)
    (values : Codec γ) (order : MapOrder) {depth : ℕ} {own : β}
    {rest : StringMap γ} :
    (fields.read depth (fields.write own ++ writeRest values order rest) =
          some own ∧
        readRest values fields.names depth
            (fields.write own ++ writeRest values order rest) = some rest) ↔
      fields.Kept depth own ∧ rest.Clear values fields.names depth := by
  rw [readRest_iff order (fields.named own)]
  refine and_congr_left ?_
  intro hclear
  rw [← fields.read_write_iff hnodup]
  have hown : fields.read depth
      (fields.write own ++ writeRest values order rest) =
        fields.read depth (fields.write own) := by
    apply fields.read_congr
    intro name hname
    rw [entries_append, entries_writeRest_eq_nil hclear hname,
      List.append_nil]
  rw [hown]

end Fields

namespace Codec

variable {α β γ : Type}

/-- The fields of a record, and a map beside them. -/
def flattened (order : MapOrder) (fields : Fields β)
    (hdistinct : fields.Distinct) (values : Codec γ)
    (same : β × StringMap γ ≃ α) : Codec α where
  write value :=
    .obj (fields.write (same.symm value).1 ++
      writeRest values order (same.symm value).2)
  read depth doc :=
    if depth = 0 then none
    else
      match doc with
      | .obj members => do
          let own ← fields.read (depth - 1) members
          let rest ← readRest values fields.names (depth - 1) members
          some (same (own, rest))
      | _ => none
  Kept depth value :=
    0 < depth ∧ fields.Kept (depth - 1) (same.symm value).1 ∧
      (same.symm value).2.Clear values fields.names (depth - 1)
  proper value := by
    apply Proper.obj
    intro member hmember
    rcases List.mem_append.mp hmember with hown | hrest
    · exact fields.proper _ member hown
    · obtain ⟨entry, _, rfl⟩ := List.mem_map.mp hrest
      exact values.proper entry.2
  read_write_iff depth value := by
    by_cases hdepth : depth = 0
    · simp [hdepth]
    rw [if_neg hdepth, and_iff_right (Nat.pos_of_ne_zero hdepth)]
    generalize hparts : same.symm value = parts
    obtain ⟨own, rest⟩ := parts
    obtain rfl : value = same (own, rest) := by
      rw [← hparts, Equiv.apply_symm_apply]
    rw [← fields.read_beside_rest_iff hdistinct.nodup values order]
    constructor
    · intro hread
      obtain ⟨own', hown, hrest⟩ := Option.bind_eq_some_iff.mp hread
      obtain ⟨rest', hrest', hboth⟩ := Option.bind_eq_some_iff.mp hrest
      have hsame : (own', rest') = (own, rest) :=
        same.injective (Option.some.inj hboth)
      obtain ⟨rfl, rfl⟩ := Prod.mk.inj hsame
      exact ⟨hown, hrest'⟩
    · rintro ⟨hown, hrest⟩
      dsimp only
      rw [hown, hrest]
      rfl

@[simp] theorem kept_flattened (order : MapOrder) (fields : Fields β)
    (hdistinct : fields.Distinct) (values : Codec γ)
    (same : β × StringMap γ ≃ α) (depth : ℕ) (value : α) :
    (flattened order fields hdistinct values same).Kept depth value ↔
      0 < depth ∧ fields.Kept (depth - 1) (same.symm value).1 ∧
        (same.symm value).2.Clear values fields.names (depth - 1) := Iff.rfl

/-- A reader that looks at the whole document before it reads any of it. -/
def buffered (floats : FloatText) (codec : Codec α) : Codec α where
  write := codec.write
  read depth doc :=
    if Legible floats depth doc then codec.read depth doc else none
  Kept depth value :=
    Legible floats depth (codec.write value) ∧ codec.Kept depth value
  proper := codec.proper
  read_write_iff depth value := by
    rw [← codec.read_write_iff]
    by_cases hlegible : Legible floats depth (codec.write value)
    · simp [hlegible]
    · simp [hlegible]

@[simp] theorem kept_buffered (floats : FloatText) (codec : Codec α)
    (depth : ℕ) (value : α) :
    (buffered floats codec).Kept depth value ↔
      Legible floats depth (codec.write value) ∧ codec.Kept depth value :=
  Iff.rfl

end Codec

end Json
end Acdp
