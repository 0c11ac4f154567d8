import Mathlib.Data.List.Basic
import Mathlib.Tactic

/-!
# Lists of named fields

A message with fields may give one name several values, in the order in which
they were added.  Putting a field takes the place of those of its name, and
filling adds a default only where its name is vacant.  The question at the end
is when fields that are put together and then filled in are all there.
-/

namespace Acdp

abbrev NamedFields (N V : Type*) := List (N × V)

namespace NamedFields

variable {N V : Type*}

def names (fields : NamedFields N V) : List N := fields.map Prod.fst

/-- No name has two values. -/
def Consistent (fields : NamedFields N V) : Prop :=
  ∀ name value other, (name, value) ∈ fields → (name, other) ∈ fields →
    value = other

theorem mem_names_of_mem {fields : NamedFields N V} {name : N} {value : V}
    (hfield : (name, value) ∈ fields) : name ∈ names fields :=
  List.mem_map.mpr ⟨(name, value), hfield, rfl⟩

theorem exists_mem_of_mem_names {fields : NamedFields N V} {name : N}
    (hname : name ∈ names fields) : ∃ value, (name, value) ∈ fields := by
  obtain ⟨⟨found, value⟩, hfield, rfl⟩ := List.mem_map.mp hname
  exact ⟨value, hfield⟩

theorem Consistent.subset {fields others : NamedFields N V}
    (hothers : Consistent others)
    (hsubset : ∀ field ∈ fields, field ∈ others) : Consistent fields := by
  intro name value other hvalue hother
  exact hothers name value other (hsubset _ hvalue) (hsubset _ hother)

/-- Two consistent lists that have no name in common. -/
theorem consistent_append_of_disjoint {fields others : NamedFields N V}
    (hfields : Consistent fields) (hothers : Consistent others)
    (hdisjoint : ∀ name, name ∈ names fields → name ∉ names others) :
    Consistent (fields ++ others) := by
  intro name value other hvalue hother
  rcases List.mem_append.mp hvalue with hvalue | hvalue
  · rcases List.mem_append.mp hother with hother | hother
    · exact hfields name value other hvalue hother
    · exact absurd (mem_names_of_mem hother)
        (hdisjoint name (mem_names_of_mem hvalue))
  · rcases List.mem_append.mp hother with hother | hother
    · exact absurd (mem_names_of_mem hvalue)
        (hdisjoint name (mem_names_of_mem hother))
    · exact hothers name value other hvalue hother

theorem consistent_singleton (field : N × V) : Consistent [field] := by
  intro name value other hvalue hother
  have hfirst := List.mem_singleton.mp hvalue
  have hsecond := List.mem_singleton.mp hother
  exact (Prod.mk.inj (hfirst.trans hsecond.symm)).2

section Operations

variable [DecidableEq N]

/-- The field takes the place of those of its name. -/
def put (fields : NamedFields N V) (field : N × V) : NamedFields N V :=
  fields.filter (fun other => other.1 ≠ field.1) ++ [field]

def putAll (fields entries : NamedFields N V) : NamedFields N V :=
  entries.foldl put fields

/-- A default is added where its name is vacant. -/
def fillOne (fields : NamedFields N V) (field : N × V) : NamedFields N V :=
  if field.1 ∈ names fields then fields else fields ++ [field]

def fill (fields defaults : NamedFields N V) : NamedFields N V :=
  defaults.foldl fillOne fields

/-! ## Putting fields -/

theorem mem_put_iff {fields : NamedFields N V} {field other : N × V} :
    other ∈ put fields field ↔
      (other ∈ fields ∧ other.1 ≠ field.1) ∨ other = field := by
  rw [put, List.mem_append, List.mem_filter, List.mem_singleton,
    decide_eq_true_eq]

theorem mem_of_mem_putAll {fields entries : NamedFields N V} {field : N × V}
    (hfield : field ∈ putAll fields entries) :
    field ∈ fields ∨ field ∈ entries := by
  induction entries generalizing fields with
  | nil => exact Or.inl hfield
  | cons entry rest ih =>
      rcases ih hfield with hput | hrest
      · rcases mem_put_iff.mp hput with ⟨hold, _⟩ | rfl
        · exact Or.inl hold
        · exact Or.inr List.mem_cons_self
      · exact Or.inr (List.mem_cons_of_mem _ hrest)

theorem mem_names_put {fields : NamedFields N V} {field : N × V} {name : N}
    (hname : name ∈ names fields ∨ name = field.1) :
    name ∈ names (put fields field) := by
  by_cases hsame : name = field.1
  · rw [hsame]
    exact mem_names_of_mem (mem_put_iff.mpr (Or.inr rfl))
  · obtain ⟨value, hvalue⟩ :=
      exists_mem_of_mem_names (hname.resolve_right hsame)
    exact mem_names_of_mem (mem_put_iff.mpr (Or.inl ⟨hvalue, hsame⟩))

theorem mem_names_putAll {fields entries : NamedFields N V} {name : N}
    (hname : name ∈ names fields ∨ name ∈ names entries) :
    name ∈ names (putAll fields entries) := by
  induction entries generalizing fields with
  | nil => exact hname.resolve_right List.not_mem_nil
  | cons entry rest ih =>
      apply ih
      rcases hname with hold | hentries
      · exact Or.inl (mem_names_put (Or.inl hold))
      · rcases List.mem_cons.mp hentries with hentry | hrest
        · exact Or.inl (mem_names_put (Or.inr hentry))
        · exact Or.inr hrest

/-! ## Filling in defaults -/

theorem fillOne_of_mem {fields : NamedFields N V} {field : N × V}
    (hname : field.1 ∈ names fields) : fillOne fields field = fields :=
  if_pos hname

theorem fillOne_of_not_mem {fields : NamedFields N V} {field : N × V}
    (hname : field.1 ∉ names fields) :
    fillOne fields field = fields ++ [field] :=
  if_neg hname

theorem mem_fillOne_of_mem {fields : NamedFields N V} {other : N × V}
    (hother : other ∈ fields) (field : N × V) :
    other ∈ fillOne fields field := by
  by_cases hname : field.1 ∈ names fields
  · rwa [fillOne_of_mem hname]
  · rw [fillOne_of_not_mem hname]
    exact List.mem_append_left _ hother

theorem mem_fill_of_mem {fields : NamedFields N V} {other : N × V}
    (hother : other ∈ fields) (defaults : NamedFields N V) :
    other ∈ fill fields defaults := by
  induction defaults generalizing fields with
  | nil => exact hother
  | cons default rest ih => exact ih (mem_fillOne_of_mem hother default)

theorem mem_of_mem_fill {fields defaults : NamedFields N V} {field : N × V}
    (hfield : field ∈ fill fields defaults) :
    field ∈ fields ∨ field ∈ defaults := by
  induction defaults generalizing fields with
  | nil => exact Or.inl hfield
  | cons default rest ih =>
      rcases ih hfield with hfilled | hrest
      · by_cases hname : default.1 ∈ names fields
        · rw [fillOne_of_mem hname] at hfilled
          exact Or.inl hfilled
        · rw [fillOne_of_not_mem hname, List.mem_append,
            List.mem_singleton] at hfilled
          rcases hfilled with hold | rfl
          · exact Or.inl hold
          · exact Or.inr List.mem_cons_self
      · exact Or.inr (List.mem_cons_of_mem _ hrest)

theorem mem_names_fillOne (fields : NamedFields N V) (field : N × V) :
    field.1 ∈ names (fillOne fields field) := by
  by_cases hname : field.1 ∈ names fields
  · rwa [fillOne_of_mem hname]
  · rw [fillOne_of_not_mem hname]
    exact mem_names_of_mem (List.mem_append_right _ List.mem_cons_self)

theorem mem_names_fill {defaults : NamedFields N V} {name : N}
    (hname : name ∈ names defaults) (fields : NamedFields N V) :
    name ∈ names (fill fields defaults) := by
  induction defaults generalizing fields with
  | nil => exact absurd hname List.not_mem_nil
  | cons default rest ih =>
      rcases List.mem_cons.mp hname with rfl | hrest
      · obtain ⟨value, hvalue⟩ :=
          exists_mem_of_mem_names (mem_names_fillOne fields default)
        exact mem_names_of_mem (mem_fill_of_mem hvalue rest)
      · exact ih hrest (fillOne fields default)

theorem consistent_fillOne {fields : NamedFields N V}
    (hfields : Consistent fields) (field : N × V) :
    Consistent (fillOne fields field) := by
  by_cases hname : field.1 ∈ names fields
  · rwa [fillOne_of_mem hname]
  · rw [fillOne_of_not_mem hname]
    apply consistent_append_of_disjoint hfields (consistent_singleton field)
    intro name hvacant hsame
    exact hname (List.mem_singleton.mp hsame ▸ hvacant)

theorem consistent_fill {fields : NamedFields N V}
    (hfields : Consistent fields) (defaults : NamedFields N V) :
    Consistent (fill fields defaults) := by
  induction defaults generalizing fields with
  | nil => exact hfields
  | cons default rest ih => exact ih (consistent_fillOne hfields default)

/-! ## Fields that are put together as defaults -/

theorem mem_of_mem_fill_putAll {base entries : NamedFields N V}
    {field : N × V} (hfield : field ∈ fill base (putAll [] entries)) :
    field ∈ base ++ entries := by
  rcases mem_of_mem_fill hfield with hbase | hput
  · exact List.mem_append_left _ hbase
  · exact List.mem_append_right _
      ((mem_of_mem_putAll hput).resolve_left List.not_mem_nil)

/-- All the entries arrive exactly when they give no name a second value,
neither among themselves nor against what was there before. -/
theorem subset_fill_putAll_iff {base : NamedFields N V}
    (hbase : Consistent base) (entries : NamedFields N V) :
    (∀ field ∈ entries, field ∈ fill base (putAll [] entries)) ↔
      Consistent (base ++ entries) := by
  constructor
  · intro harrive
    apply (consistent_fill hbase (putAll [] entries)).subset
    intro field hfield
    rcases List.mem_append.mp hfield with hold | hentry
    · exact mem_fill_of_mem hold _
    · exact harrive field hentry
  · rintro hconsistent ⟨name, value⟩ hfield
    have hname : name ∈ names (fill base (putAll [] entries)) :=
      mem_names_fill (mem_names_putAll (Or.inr (mem_names_of_mem hfield))) base
    obtain ⟨other, hother⟩ := exists_mem_of_mem_names hname
    have hsame : value = other :=
      hconsistent name value other (List.mem_append_right _ hfield)
        (mem_of_mem_fill_putAll hother)
    rwa [hsame]

theorem mem_fill_putAll_iff {base entries : NamedFields N V}
    (hconsistent : Consistent (base ++ entries)) {field : N × V} :
    field ∈ fill base (putAll [] entries) ↔ field ∈ base ++ entries := by
  have hbase : Consistent base :=
    hconsistent.subset (fun _ => List.mem_append_left _)
  refine ⟨mem_of_mem_fill_putAll, fun hfield => ?_⟩
  rcases List.mem_append.mp hfield with hold | hentry
  · exact mem_fill_of_mem hold _
  · exact (subset_fill_putAll_iff hbase entries).mpr hconsistent field hentry

end Operations

end NamedFields

end Acdp
