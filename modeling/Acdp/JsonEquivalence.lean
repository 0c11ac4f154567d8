import Acdp.JsonRecords
import Acdp.JsonText

/-!
# Documents of the same value

Two documents denote the same value when their members agree name by name, in
whatever order they stand, and their numbers agree.  Reading a document into
memory and writing it again gives a document of the same value exactly when
no name repeats in it, its integers are machine integers and its other
numbers are read back from their texts.
-/

namespace Acdp
namespace Json

/-! ## The last member of each name -/

section OrderedMembers

variable {α : Type*}

def named (members : List (String × α)) (name : String) : List α :=
  (members.filter (fun member => member.1 == name)).map Prod.snd

theorem named_cons (key : String) (value : α) (rest : List (String × α))
    (name : String) :
    named ((key, value) :: rest) name =
      if key = name then value :: named rest name else named rest name := by
  by_cases hkey : key = name
  · simp [named, hkey]
  · simp [named, hkey]

theorem named_append (left right : List (String × α)) (name : String) :
    named (left ++ right) name = named left name ++ named right name := by
  simp [named]

theorem named_eq_nil {members : List (String × α)} {name : String}
    (habsent : ∀ member ∈ members, member.1 ≠ name) :
    named members name = [] := by
  rw [named, List.map_eq_nil_iff, List.filter_eq_nil_iff]
  intro member hmember
  simpa using habsent member hmember

theorem named_insertMember_self {members : List (String × α)}
    (hsorted : Sorted members) (name : String) (value : α) :
    named (insertMember name value members) name = [value] := by
  induction members with
  | nil => simp [insertMember, named]
  | cons head rest ih =>
      obtain ⟨key, old⟩ := head
      have hparts := List.pairwise_cons.mp hsorted
      simp only [insertMember]
      split_ifs with hlt heq
      · have habsent : named ((key, old) :: rest) name = [] := by
          apply named_eq_nil
          intro member hmember
          rcases List.mem_cons.mp hmember with hhead | hrest
          · rw [hhead]
            exact (ne_of_lt hlt).symm
          · exact (ne_of_lt (lt_trans hlt (hparts.1 member hrest))).symm
        rw [named_cons, if_pos rfl, habsent]
      · have habsent : named rest name = [] := by
          apply named_eq_nil
          intro member hmember
          rw [heq]
          exact (ne_of_lt (hparts.1 member hmember)).symm
        rw [named_cons, if_pos rfl, habsent]
      · rw [named_cons, if_neg (Ne.symm heq)]
        exact ih hparts.2

theorem named_insertMember_of_ne {key name : String} (hkey : key ≠ name)
    (value : α) (members : List (String × α)) :
    named (insertMember key value members) name = named members name := by
  induction members with
  | nil => simp [insertMember, named, hkey]
  | cons head rest ih =>
      obtain ⟨other, old⟩ := head
      simp only [insertMember]
      split_ifs with hlt heq
      · rw [named_cons, if_neg hkey]
      · subst heq
        rw [named_cons, named_cons, if_neg hkey, if_neg hkey]
      · rw [named_cons, named_cons, ih]

/-- A map keeps the last of the values inserted under a name. -/
theorem named_collectMembers (members : List (String × α)) (name : String) :
    named (collectMembers members) name =
      (named members name).getLast?.toList := by
  induction members using List.reverseRecOn with
  | nil => rfl
  | append_singleton members member ih =>
      obtain ⟨key, value⟩ := member
      have hcollect : collectMembers (members ++ [(key, value)]) =
          insertMember key value (collectMembers members) := by
        rw [collectMembers, List.foldl_append]
        rfl
      rw [hcollect, named_append]
      by_cases hkey : key = name
      · subst hkey
        rw [named_insertMember_self (sorted_collectMembers members)]
        simp [named]
      · rw [named_insertMember_of_ne hkey, ih]
        simp [named, hkey]

theorem toList_getLast? {items : List α} (hlength : items.length ≤ 1) :
    items.getLast?.toList = items := by
  match items, hlength with
  | [], _ => rfl
  | [_], _ => rfl

end OrderedMembers

theorem entries_eq_named (members : List (String × Json)) (name : String) :
    entries members name = named members name := rfl

theorem nodup_names_iff (members : List (String × Json)) :
    (members.map Prod.fst).Nodup ↔
      ∀ name, (entries members name).length ≤ 1 := by
  rw [List.nodup_iff_count_le_one]
  have hcount : ∀ name, (members.map Prod.fst).count name =
      (entries members name).length := by
    intro name
    rw [entries, List.length_map, List.count, List.countP_map,
      List.countP_eq_length_filter]
    rfl
  simp only [hcount]

/-! ## Sameness -/

variable (floats : FloatText)

inductive Same : Json → Json → Prop
  | null : Same .null .null
  | bool (value : Bool) : Same (.bool value) (.bool value)
  | int (value : ℤ) : Same (.int value) (.int value)
  | spelled (text : String) : Same (.decimal text) (.decimal text)
  | float {text other : String} {bits : UInt64}
      (hread : floats.parse text = some bits)
      (hother : floats.parse other = some bits) :
      Same (.decimal text) (.decimal other)
  | str (text : String) : Same (.str text) (.str text)
  | arr {elements others : List Json}
      (hlength : elements.length = others.length)
      (helements : ∀ pair ∈ elements.zip others, Same pair.1 pair.2) :
      Same (.arr elements) (.arr others)
  | obj {members others : List (String × Json)}
      (hcount : ∀ name,
        (entries members name).length = (entries others name).length)
      (hmembers : ∀ name,
        ∀ pair ∈ (entries members name).zip (entries others name),
          Same pair.1 pair.2) :
      Same (.obj members) (.obj others)

theorem mem_zip_self {α : Type*} {items : List α} {pair : α × α}
    (hpair : pair ∈ items.zip items) : pair.1 = pair.2 ∧ pair.1 ∈ items := by
  rw [← List.map_id items, List.zip_map', List.mem_map] at hpair
  obtain ⟨item, hitem, hequal⟩ := hpair
  rw [← hequal]
  exact ⟨rfl, by simpa using hitem⟩

theorem exists_mem_zip {α β : Type*} {items : List α} {others : List β}
    (hlength : items.length = others.length) {item : α}
    (hitem : item ∈ items) : ∃ pair ∈ items.zip others, pair.1 = item := by
  rw [← List.map_fst_zip hlength.le, List.mem_map] at hitem
  exact hitem

mutual

theorem Same.refl : ∀ doc : Json, Same floats doc doc
  | .null => .null
  | .bool value => .bool value
  | .int value => .int value
  | .decimal text => .spelled text
  | .str text => .str text
  | .arr elements => by
      apply Same.arr rfl
      intro pair hpair
      obtain ⟨hequal, hmember⟩ := mem_zip_self hpair
      rw [← hequal]
      exact Same.refl_elements elements pair.1 hmember
  | .obj members => by
      apply Same.obj (fun name => rfl)
      intro name pair hpair
      obtain ⟨hequal, hmember⟩ := mem_zip_self hpair
      rw [← hequal]
      obtain ⟨member, hlisted, hvalue⟩ := List.mem_map.mp hmember
      rw [← hvalue]
      exact Same.refl_members members member (List.mem_of_mem_filter hlisted)

theorem Same.refl_elements : ∀ elements : List Json,
    ∀ element ∈ elements, Same floats element element
  | [], element, hmember => (List.not_mem_nil hmember).elim
  | head :: rest, element, hmember => by
      rcases List.mem_cons.mp hmember with hhead | hrest
      · rw [hhead]
        exact Same.refl head
      · exact Same.refl_elements rest element hrest

theorem Same.refl_members : ∀ members : List (String × Json),
    ∀ member ∈ members, Same floats member.2 member.2
  | [], member, hmember => (List.not_mem_nil hmember).elim
  | (name, value) :: rest, member, hmember => by
      rcases List.mem_cons.mp hmember with hhead | hrest
      · rw [hhead]
        exact Same.refl value
      · exact Same.refl_members rest member hrest

end

/-! ## The members in memory -/

theorem lookup_eq_head?_named {α : Type*} (members : List (String × α))
    (name : String) : members.lookup name = (named members name).head? := by
  induction members with
  | nil => rfl
  | cons member rest ih =>
      obtain ⟨key, value⟩ := member
      rw [lookup_cons_eq_if, named_cons]
      by_cases hkey : key = name
      · rw [if_pos hkey.symm, if_pos hkey]
        rfl
      · rw [if_neg (Ne.symm hkey), if_neg hkey]
        exact ih

theorem map_some_named_decodeMembers {members : List (String × Json)}
    {decoded : List (String × Value)}
    (hdecode : Value.decodeMembers floats members = some decoded)
    (name : String) :
    (named decoded name).map some =
      (entries members name).map (Value.decode floats) := by
  induction members generalizing decoded with
  | nil =>
      simp only [Value.decodeMembers, Option.some.injEq] at hdecode
      rw [← hdecode]
      rfl
  | cons member rest ih =>
      obtain ⟨key, value⟩ := member
      simp only [Value.decodeMembers, Value.decodeMember,
        Option.bind_eq_bind, Option.bind_eq_some_iff,
        Option.some.injEq] at hdecode
      obtain ⟨_, ⟨head, hhead, rfl⟩, tail, htail, rfl⟩ := hdecode
      rw [entries_cons, named_cons]
      by_cases hkey : key = name
      · rw [if_pos hkey, if_pos hkey, List.map_cons, List.map_cons, hhead,
          ih htail]
      · rw [if_neg hkey, if_neg hkey]
        exact ih htail

/-! ## Reading and writing -/

/-- Nothing is lost when the document is read and written. -/
inductive Exact : Json → Prop
  | null : Exact .null
  | bool (value : Bool) : Exact (.bool value)
  | int {value : ℤ} (hrange : -2 ^ 63 ≤ value ∧ value < 2 ^ 64) :
      Exact (.int value)
  | decimal {text : String} {bits : UInt64}
      (hread : floats.parse text = some bits) (hstable : floats.Stable bits) :
      Exact (.decimal text)
  | str (text : String) : Exact (.str text)
  | arr {elements : List Json} (helements : ∀ element ∈ elements, Exact element) :
      Exact (.arr elements)
  | obj {members : List (String × Json)}
      (hnodup : (members.map Prod.fst).Nodup)
      (hmembers : ∀ member ∈ members, Exact member.2) : Exact (.obj members)

def Reprinted (doc out : Json) : Prop :=
  ∃ value, Value.decode floats doc = some value ∧ out = value.encode floats

theorem reprinted_elements {elements : List Json} {values : List Value}
    (hdecode : Value.decodeElements floats elements = some values) :
    List.Forall₂ (Reprinted floats) elements
      (values.map (Value.encode floats)) := by
  induction elements generalizing values with
  | nil =>
      simp only [Value.decodeElements, Option.some.injEq] at hdecode
      rw [← hdecode]
      exact .nil
  | cons element rest ih =>
      simp only [Value.decodeElements, Option.bind_eq_bind,
        Option.bind_eq_some_iff, Option.some.injEq] at hdecode
      obtain ⟨head, hhead, tail, htail, hvalues⟩ := hdecode
      rw [← hvalues]
      exact .cons ⟨head, hhead, rfl⟩ (ih htail)

theorem reprinted_members {members : List (String × Json)}
    {decoded : List (String × Value)}
    (hdecode : Value.decodeMembers floats members = some decoded)
    (name : String) :
    List.Forall₂ (Reprinted floats) (entries members name)
      ((named decoded name).map (Value.encode floats)) := by
  induction members generalizing decoded with
  | nil =>
      simp only [Value.decodeMembers, Option.some.injEq] at hdecode
      rw [← hdecode]
      exact .nil
  | cons member rest ih =>
      obtain ⟨key, value⟩ := member
      simp only [Value.decodeMembers, Value.decodeMember,
        Option.bind_eq_bind, Option.bind_eq_some_iff,
        Option.some.injEq] at hdecode
      obtain ⟨_, ⟨head, hhead, rfl⟩, tail, htail, rfl⟩ := hdecode
      rw [entries_cons, named_cons]
      by_cases hkey : key = name
      · rw [if_pos hkey, if_pos hkey]
        exact .cons ⟨head, hhead, rfl⟩ (ih htail)
      · rw [if_neg hkey, if_neg hkey]
        exact ih htail

theorem named_map {α β : Type*} (convert : α → β) (members : List (String × α))
    (name : String) :
    named (members.map (fun member => (member.1, convert member.2))) name =
      (named members name).map convert := by
  simp [named, List.filter_map, Function.comp_def]

theorem Reprinted.arr {elements : List Json} {out : Json}
    (hout : Reprinted floats (.arr elements) out) :
    ∃ others, out = .arr others ∧
      List.Forall₂ (Reprinted floats) elements others := by
  obtain ⟨value, hdecode, rfl⟩ := hout
  simp only [Value.decode, Option.map_eq_some_iff] at hdecode
  obtain ⟨values, hvalues, rfl⟩ := hdecode
  refine ⟨_, rfl, ?_⟩
  rw [Value.encodeElements_eq_map]
  exact reprinted_elements floats hvalues

/-- Of each name only the last member is written. -/
theorem Reprinted.obj {members : List (String × Json)} {out : Json}
    (hout : Reprinted floats (.obj members) out) :
    ∃ others, out = .obj others ∧ ∀ name, ∃ printed,
      List.Forall₂ (Reprinted floats) (entries members name) printed ∧
        entries others name = printed.getLast?.toList := by
  obtain ⟨value, hdecode, rfl⟩ := hout
  simp only [Value.decode, Option.map_eq_some_iff] at hdecode
  obtain ⟨decoded, hdecoded, rfl⟩ := hdecode
  refine ⟨_, rfl, ?_⟩
  intro name
  refine ⟨_, reprinted_members floats hdecoded name, ?_⟩
  rw [Value.encodeMembers_eq_map, entries_eq_named,
    named_map (Value.encode floats), named_collectMembers]
  cases hlast : (named decoded name).getLast? with
  | none => simp [List.getLast?_map, hlast]
  | some last => simp [List.getLast?_map, hlast]

theorem Exact.same {doc : Json} (hexact : Exact floats doc) :
    ∀ {out : Json}, Reprinted floats doc out → Same floats doc out := by
  induction hexact with
  | null =>
      rintro out ⟨value, hdecode, rfl⟩
      simp only [Value.decode, Option.some.injEq] at hdecode
      rw [← hdecode]
      exact .null
  | bool flag =>
      rintro out ⟨value, hdecode, rfl⟩
      simp only [Value.decode, Option.some.injEq] at hdecode
      rw [← hdecode]
      exact .bool flag
  | str text =>
      rintro out ⟨value, hdecode, rfl⟩
      simp only [Value.decode, Option.some.injEq] at hdecode
      rw [← hdecode]
      exact .str text
  | @int integer hrange =>
      rintro out ⟨value, hdecode, rfl⟩
      simp only [Value.decode, Number.decode, Number.ofInt,
        Option.map_eq_some_iff] at hdecode
      obtain ⟨number, hnumber, rfl⟩ := hdecode
      split_ifs at hnumber with hpositive hnegative
      · rw [Option.some.injEq] at hnumber
        have hback : ((UInt64.ofNat integer.toNat).toNat : ℤ) = integer := by
          rw [UInt64.toNat_ofNat']
          omega
        rw [← hnumber]
        simp only [Value.encode, Number.encode, hback]
        exact .int integer
      · rw [Option.some.injEq] at hnumber
        rw [← hnumber]
        exact .int integer
      · omega
  | @decimal text bits hread hstable =>
      rintro out ⟨value, hdecode, rfl⟩
      simp only [Value.decode, Number.decode, hread, Option.map_some,
        Option.some.injEq] at hdecode
      rw [← hdecode]
      exact .float hread hstable
  | arr _ ih =>
      intro out hout
      obtain ⟨others, rfl, helements⟩ := hout.arr
      obtain ⟨hlength, hpairs⟩ := List.forall₂_iff_zip.mp helements
      refine .arr hlength ?_
      intro pair hpair
      exact ih pair.1 (List.of_mem_zip hpair).1 (hpairs hpair)
  | @obj members hnodup _ ih =>
      intro out hout
      obtain ⟨others, rfl, hnamed⟩ := hout.obj
      rw [nodup_names_iff] at hnodup
      have hsame : ∀ name, List.Forall₂ (Reprinted floats)
          (entries members name) (entries others name) := by
        intro name
        obtain ⟨printed, hprinted, hothers⟩ := hnamed name
        have hcount := hnodup name
        rw [hprinted.length_eq] at hcount
        rw [hothers, toList_getLast? hcount]
        exact hprinted
      refine .obj (fun name => (hsame name).length_eq) ?_
      intro name pair hpair
      have hreprinted := (List.forall₂_iff_zip.mp (hsame name)).2 hpair
      obtain ⟨member, hmember, hvalue⟩ :=
        List.mem_map.mp (List.of_mem_zip hpair).1
      rw [← hvalue] at hreprinted ⊢
      exact ih member (List.mem_of_mem_filter hmember) hreprinted

theorem Same.exact {doc out : Json} (hsame : Same floats doc out)
    (hout : Reprinted floats doc out) : Exact floats doc := by
  induction hsame with
  | null => exact .null
  | bool value => exact .bool value
  | str text => exact .str text
  | int integer =>
      obtain ⟨value, hdecode, hprinted⟩ := hout
      simp only [Value.decode, Option.map_eq_some_iff] at hdecode
      obtain ⟨number, _, rfl⟩ := hdecode
      apply Exact.int
      cases number with
      | posInt bits =>
          simp only [Value.encode, Number.encode, Json.int.injEq] at hprinted
          have hlt := bits.toNat_lt
          omega
      | negInt bits lower negative =>
          simp only [Value.encode, Number.encode, Json.int.injEq] at hprinted
          omega
      | float bits => simp [Value.encode, Number.encode] at hprinted
  | spelled text =>
      obtain ⟨value, hdecode, hprinted⟩ := hout
      simp only [Value.decode, Number.decode, Option.map_map,
        Option.map_eq_some_iff] at hdecode
      obtain ⟨bits, hbits, rfl⟩ := hdecode
      simp only [Function.comp_apply, Value.encode, Number.encode,
        Json.decimal.injEq] at hprinted
      refine .decimal hbits ?_
      rw [FloatText.Stable, ← hprinted]
      exact hbits
  | @float text other bits hread hother =>
      obtain ⟨value, hdecode, hprinted⟩ := hout
      simp only [Value.decode, Number.decode, hread, Option.map_some,
        Option.some.injEq] at hdecode
      subst hdecode
      simp only [Value.encode, Number.encode, Json.decimal.injEq] at hprinted
      rw [hprinted] at hother
      exact .decimal hread hother
  | arr hlength _ ih =>
      obtain ⟨others, hothers, helements⟩ := hout.arr
      rw [Json.arr.injEq] at hothers
      subst hothers
      apply Exact.arr
      intro element helement
      obtain ⟨pair, hpair, hfirst⟩ := exists_mem_zip hlength helement
      rw [← hfirst]
      exact ih pair hpair ((List.forall₂_iff_zip.mp helements).2 hpair)
  | @obj members others hcount _ ih =>
      obtain ⟨printedOthers, hothers, hnamed⟩ := hout.obj
      rw [Json.obj.injEq] at hothers
      subst hothers
      have hone : ∀ name, (entries members name).length ≤ 1 := by
        intro name
        obtain ⟨printed, _, hlast⟩ := hnamed name
        rw [hcount name, hlast]
        cases printed.getLast? <;> simp
      apply Exact.obj ((nodup_names_iff members).mpr hone)
      intro member hmember
      obtain ⟨printed, hprinted, hlast⟩ := hnamed member.1
      have hvalue : member.2 ∈ entries members member.1 :=
        List.mem_map.mpr
          ⟨member, List.mem_filter.mpr ⟨hmember, by simp⟩, rfl⟩
      have hlength := hone member.1
      rw [hprinted.length_eq] at hlength
      obtain ⟨pair, hpair, hfirst⟩ := exists_mem_zip (hcount member.1) hvalue
      rw [← hfirst]
      refine ih member.1 pair hpair ?_
      rw [hlast, toList_getLast? hlength] at hpair
      exact (List.forall₂_iff_zip.mp hprinted).2 hpair

/-- The document of the value read has the same value exactly when reading
loses nothing. -/
theorem same_encode_iff {doc : Json} {value : Value}
    (hdecode : Value.decode floats doc = some value) :
    Same floats doc (value.encode floats) ↔ Exact floats doc := by
  constructor
  · intro hsame
    exact hsame.exact floats ⟨value, hdecode, rfl⟩
  · intro hexact
    exact hexact.same floats ⟨value, hdecode, rfl⟩

/-! ## Values in another order -/

/-- The same value with the members of its objects in any order; in no object
does a name repeat. -/
inductive Value.Reordered : Value → Value → Prop
  | null : Value.Reordered .null .null
  | bool (value : Bool) : Value.Reordered (.bool value) (.bool value)
  | number (value : Number) : Value.Reordered (.number value) (.number value)
  | str (text : String) : Value.Reordered (.str text) (.str text)
  | array {elements others : List Value}
      (hlength : elements.length = others.length)
      (helements : ∀ pair ∈ elements.zip others,
        Value.Reordered pair.1 pair.2) :
      Value.Reordered (.array elements) (.array others)
  | object {members others : List (String × Value)}
      (hdistinct : (members.map Prod.fst).Nodup)
      (hnames : (members.map Prod.fst).Perm (others.map Prod.fst))
      (hmembers : ∀ name value other, (name, value) ∈ members →
        (name, other) ∈ others → Value.Reordered value other) :
      Value.Reordered (.object members) (.object others)

section Distinct

variable {α : Type*} {members : List (String × α)}

theorem lookup_eq_some_iff_of_distinct
    (hdistinct : (members.map Prod.fst).Nodup) {name : String} {value : α} :
    members.lookup name = some value ↔ (name, value) ∈ members := by
  induction members with
  | nil => simp
  | cons head rest ih =>
      obtain ⟨key, first⟩ := head
      rw [List.map_cons, List.nodup_cons] at hdistinct
      rw [lookup_cons_eq_if]
      by_cases hkey : name = key
      · subst hkey
        have habsent : (name, value) ∉ rest :=
          fun hmem => hdistinct.1 (List.mem_map.mpr ⟨_, hmem, rfl⟩)
        simp [habsent, eq_comm]
      · simpa [hkey] using ih hdistinct.2

theorem Sorted.names_nodup (hsorted : Sorted members) :
    (members.map Prod.fst).Nodup :=
  List.pairwise_map.mpr (hsorted.imp ne_of_lt)

theorem isSome_lookup_iff {name : String} :
    (members.lookup name).isSome = true ↔ name ∈ members.map Prod.fst := by
  induction members with
  | nil => simp
  | cons head rest ih =>
      obtain ⟨key, first⟩ := head
      rw [lookup_cons_eq_if, List.map_cons, List.mem_cons]
      by_cases hkey : name = key
      · simp [hkey]
      · simp [hkey, ih]

end Distinct

section Related

variable {α β γ δ : Type*} {related : α → β → Prop} {first : Option α}
  {second : Option β}

theorem isSome_eq_of_rel (hrelated : Option.Rel related first second) :
    first.isSome = second.isSome := by
  cases hrelated with
  | some _ => rfl
  | none => rfl

theorem exists_of_rel (hrelated : Option.Rel related first second)
    {value : α} (hvalue : first = some value) :
    ∃ another, second = some another ∧ related value another := by
  cases hrelated with
  | some hvalues =>
      obtain rfl := Option.some.inj hvalue
      exact ⟨_, rfl, hvalues⟩
  | none => cases hvalue

theorem bind_eq_of_rel {read : α → Option γ} {other : β → Option γ}
    (hrelated : Option.Rel related first second)
    (hread : ∀ value another, related value another →
      read value = other another) :
    first.bind read = second.bind other := by
  cases hrelated with
  | some hvalues => exact hread _ _ hvalues
  | none => rfl

theorem rel_bind {results : γ → δ → Prop} {step : α → Option γ}
    {other : β → Option δ} (hrelated : Option.Rel related first second)
    (hstep : ∀ value another, related value another →
      Option.Rel results (step value) (other another)) :
    Option.Rel results (first.bind step) (second.bind other) := by
  cases hrelated with
  | some hvalues => exact hstep _ _ hvalues
  | none => exact .none

theorem rel_map {results : γ → δ → Prop} {change : α → γ}
    {other : β → δ} (hrelated : Option.Rel related first second)
    (hchange : ∀ value another, related value another →
      results (change value) (other another)) :
    Option.Rel results (first.map change) (second.map other) := by
  cases hrelated with
  | some hvalues => exact .some (hchange _ _ hvalues)
  | none => exact .none

end Related

theorem Value.reordered_object_iff {members others : List (String × Value)} :
    Value.Reordered (.object members) (.object others) ↔
      (members.map Prod.fst).Nodup ∧ (others.map Prod.fst).Nodup ∧
        ∀ name, Option.Rel Value.Reordered (members.lookup name)
          (others.lookup name) := by
  constructor
  · intro hreordered
    cases hreordered with
    | object hdistinct hnames hmembers =>
        have hothers := hnames.nodup_iff.mp hdistinct
        refine ⟨hdistinct, hothers, ?_⟩
        intro name
        have hsame : (members.lookup name).isSome = true ↔
            (others.lookup name).isSome = true := by
          rw [isSome_lookup_iff, isSome_lookup_iff]
          exact hnames.mem_iff
        cases hmember : members.lookup name with
        | none =>
            cases hother : others.lookup name with
            | none => exact .none
            | some other => simp [hmember, hother] at hsame
        | some value =>
            cases hother : others.lookup name with
            | none => simp [hmember, hother] at hsame
            | some other =>
                apply Option.Rel.some
                exact hmembers name value other
                  ((lookup_eq_some_iff_of_distinct hdistinct).mp hmember)
                  ((lookup_eq_some_iff_of_distinct hothers).mp hother)
  · rintro ⟨hdistinct, hothers, hlookup⟩
    apply Value.Reordered.object hdistinct
    · rw [List.perm_ext_iff_of_nodup hdistinct hothers]
      intro name
      rw [← isSome_lookup_iff, ← isSome_lookup_iff,
        isSome_eq_of_rel (hlookup name)]
    · intro name value other hvalue hother
      have hrelated := hlookup name
      rw [(lookup_eq_some_iff_of_distinct hdistinct).mpr hvalue,
        (lookup_eq_some_iff_of_distinct hothers).mpr hother] at hrelated
      cases hrelated with
      | some hsame => exact hsame

theorem Value.Reordered.symm {value other : Value}
    (hreordered : value.Reordered other) : other.Reordered value := by
  induction hreordered with
  | null => exact .null
  | bool value => exact .bool value
  | number value => exact .number value
  | str text => exact .str text
  | array hlength _ ih =>
      apply Value.Reordered.array hlength.symm
      rintro ⟨other, element⟩ hpair
      rw [← List.zip_swap, List.mem_map] at hpair
      obtain ⟨⟨_, _⟩, hmem, hswap⟩ := hpair
      obtain ⟨rfl, rfl⟩ := Prod.mk.inj hswap
      exact ih _ hmem
  | object hdistinct hnames _ ih =>
      apply Value.Reordered.object (hnames.nodup_iff.mp hdistinct) hnames.symm
      intro name other value hother hvalue
      exact ih name value other hvalue hother

theorem Value.Normal.reordered {value : Value} (hnormal : value.Normal) :
    value.Reordered value := by
  induction hnormal with
  | null => exact .null
  | bool value => exact .bool value
  | number value => exact .number value
  | str text => exact .str text
  | array _ ih =>
      apply Value.Reordered.array rfl
      rintro pair hpair
      obtain ⟨hequal, hmember⟩ := mem_zip_self hpair
      rw [← hequal]
      exact ih pair.1 hmember
  | object hsorted _ ih =>
      have hdistinct := hsorted.names_nodup
      apply Value.Reordered.object hdistinct (List.Perm.refl _)
      intro name value other hvalue hother
      rw [← lookup_eq_some_iff_of_distinct hdistinct] at hother
      rw [(lookup_eq_some_iff_of_distinct hdistinct).mpr hvalue,
        Option.some.injEq] at hother
      rw [← hother]
      exact ih (name, value) hvalue

theorem Value.Reordered.mem_str {elements others : List Value}
    (hreordered : Value.Reordered (.array elements) (.array others))
    {text : String} (htext : Value.str text ∈ elements) :
    Value.str text ∈ others := by
  cases hreordered with
  | array hlength helements =>
      obtain ⟨pair, hpair, hfirst⟩ := exists_mem_zip hlength htext
      have hsame := helements pair hpair
      have hother := (List.of_mem_zip (show (pair.1, pair.2) ∈ _ from hpair)).2
      rw [hfirst] at hsame
      generalize pair.2 = other at hsame hother
      cases hsame with
      | str _ => exact hother

theorem Value.Reordered.get {value other : Value}
    (hreordered : value.Reordered other) (name : String) :
    Option.Rel Value.Reordered (value.get name) (other.get name) := by
  cases hreordered with
  | object hdistinct hnames hmembers =>
      exact (Value.reordered_object_iff.mp
        (.object hdistinct hnames hmembers)).2.2 name
  | _ => exact .none

theorem mem_zip_map {α β : Type*} {items : List α} {change : α → β}
    {pair : α × β} (hpair : pair ∈ items.zip (items.map change)) :
    pair.1 ∈ items ∧ pair.2 = change pair.1 := by
  rw [← List.map_id items, List.map_map, List.zip_map', List.mem_map] at hpair
  obtain ⟨item, hitem, hequal⟩ := hpair
  rw [← hequal]
  exact ⟨hitem, rfl⟩

/-- Every value can be put in the order of its names. -/
theorem Value.Reordered.exists_normal {value other : Value}
    (hreordered : value.Reordered other) :
    ∃ ordered : Value, ordered.Normal ∧ value.Reordered ordered := by
  induction hreordered with
  | null => exact ⟨.null, .null, .null⟩
  | bool value => exact ⟨.bool value, .bool value, .bool value⟩
  | number value => exact ⟨.number value, .number value, .number value⟩
  | str text => exact ⟨.str text, .str text, .str text⟩
  | @array elements others hlength _ ih =>
      have hall : ∀ element ∈ elements, ∃ ordered : Value,
          ordered.Normal ∧ element.Reordered ordered := by
        intro element helement
        obtain ⟨pair, hpair, hfirst⟩ := exists_mem_zip hlength helement
        rw [← hfirst]
        exact ih pair hpair
      choose! order hnormal hsame using hall
      refine ⟨.array (elements.map order), .array ?_, .array (by simp) ?_⟩
      · intro ordered hordered
        obtain ⟨element, helement, rfl⟩ := List.mem_map.mp hordered
        exact hnormal element helement
      · intro pair hpair
        obtain ⟨helement, hsecond⟩ := mem_zip_map hpair
        rw [hsecond]
        exact hsame pair.1 helement
  | @object members others hdistinct hnames _ ih =>
      have hall : ∀ member ∈ members, ∃ ordered : Value,
          ordered.Normal ∧ member.2.Reordered ordered := by
        rintro ⟨name, value⟩ hmember
        have hname : name ∈ others.map Prod.fst :=
          hnames.mem_iff.mp (List.mem_map_of_mem hmember)
        obtain ⟨⟨_, other⟩, hother, rfl⟩ := List.mem_map.mp hname
        exact ih _ value other hmember hother
      have hvalues : Nonempty Value := ⟨.null⟩
      choose! order hnormal hsame using hall
      let ordered := members.map (fun member => (member.1, order member))
      have hkept : ordered.map Prod.fst = members.map Prod.fst := by
        rw [List.map_map]
        rfl
      have hordered : (ordered.map Prod.fst).Nodup := hkept ▸ hdistinct
      refine ⟨.object (collectMembers ordered),
        .object (sorted_collectMembers ordered) ?_, ?_⟩
      · intro entry hentry
        obtain ⟨member, hmember, rfl⟩ :=
          List.mem_map.mp (mem_collectMembers hentry)
        exact hnormal member hmember
      · rw [Value.reordered_object_iff]
        refine ⟨hdistinct, (sorted_collectMembers ordered).names_nodup, ?_⟩
        intro name
        rw [lookup_collectMembers hordered]
        cases hmember : members.lookup name with
        | none =>
            have habsent : ordered.lookup name = none := by
              rw [← Option.not_isSome_iff_eq_none, isSome_lookup_iff, hkept,
                ← isSome_lookup_iff, hmember]
              simp
            rw [habsent]
            exact .none
        | some value =>
            rw [lookup_eq_some_iff_of_distinct hdistinct] at hmember
            have hfound : ordered.lookup name = some (order (name, value)) := by
              rw [lookup_eq_some_iff_of_distinct hordered]
              exact List.mem_map.mpr ⟨(name, value), hmember, rfl⟩
            rw [hfound]
            exact .some (hsame (name, value) hmember)

end Json
end Acdp
