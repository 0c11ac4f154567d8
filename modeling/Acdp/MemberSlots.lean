import Mathlib.Data.List.Basic

/-!
# Slots filled by the members of an object

A reader that goes through the members of an object once keeps a slot for each
field.  A slot takes the value of a member under one of its names, and either
refuses a second one or passes it over.  Slots do not see each other, so a
pass over the members comes apart into one pass for each slot.
-/

namespace Acdp
namespace MemberSlots

variable {α β σ τ μ : Type}

/-- The values of the members with one of the names, in the order of the
object. -/
def valuesOf (names : List String) (members : List (String × β)) : List β :=
  (members.filter (fun member => member.1 ∈ names)).map Prod.snd

@[simp] theorem valuesOf_nil (names : List String) :
    valuesOf names ([] : List (String × β)) = [] := rfl

theorem valuesOf_cons_of_mem {names : List String} {key : String}
    (hkey : key ∈ names) (value : β) (rest : List (String × β)) :
    valuesOf names ((key, value) :: rest) = value :: valuesOf names rest := by
  simp [valuesOf, hkey]

theorem valuesOf_cons_of_notMem {names : List String} {key : String}
    (hkey : key ∉ names) (value : β) (rest : List (String × β)) :
    valuesOf names ((key, value) :: rest) = valuesOf names rest := by
  simp [valuesOf, hkey]

theorem valuesOf_append (names : List String)
    (left right : List (String × β)) :
    valuesOf names (left ++ right) =
      valuesOf names left ++ valuesOf names right := by
  simp [valuesOf]

theorem mem_valuesOf_iff {names : List String} {members : List (String × β)}
    {value : β} :
    value ∈ valuesOf names members ↔
      ∃ key ∈ names, (key, value) ∈ members := by
  simp [valuesOf, and_comm]

/-- A member where none of the names is makes no difference. -/
theorem valuesOf_insert {names : List String} {key : String}
    (hkey : key ∉ names) (value : β) (before after : List (String × β)) :
    valuesOf names (before ++ (key, value) :: after) =
      valuesOf names (before ++ after) := by
  rw [valuesOf_append, valuesOf_cons_of_notMem hkey, ← valuesOf_append]

/-! ## Reading one after another -/

theorem mapM_eq_some_iff (read : β → Option α) (items : List β)
    (values : List α) :
    items.mapM read = some values ↔ items.map read = values.map some := by
  induction items generalizing values with
  | nil => cases values <;> simp
  | cons item rest ih =>
      rw [List.mapM_cons, List.map_cons]
      cases values with
      | nil =>
          refine iff_of_false ?_ nofun
          intro hread
          obtain ⟨first, _, hrest⟩ := Option.bind_eq_some_iff.mp hread
          obtain ⟨others, _, hnone⟩ := Option.bind_eq_some_iff.mp hrest
          cases hnone
      | cons value others =>
          rw [List.map_cons, List.cons_eq_cons, ← ih others]
          cases read item with
          | none => simp
          | some first => cases rest.mapM read <;> simp

theorem exists_map_eq_some {read : β → Option α} {items : List β}
    (hread : ∀ item ∈ items, (read item).isSome = true) :
    ∃ values : List α, items.map read = values.map some := by
  induction items with
  | nil => exact ⟨[], rfl⟩
  | cons item rest ih =>
      rw [List.forall_mem_cons] at hread
      obtain ⟨value, hvalue⟩ := Option.isSome_iff_exists.mp hread.1
      obtain ⟨values, hvalues⟩ := ih hread.2
      exact ⟨value :: values, by rw [List.map_cons, List.map_cons, hvalue,
        hvalues]⟩

theorem isSome_of_map_eq_some {read : β → Option α} {items : List β}
    {values : List α} (hread : items.map read = values.map some) {item : β}
    (hitem : item ∈ items) : (read item).isSome = true := by
  have hmem : read item ∈ values.map some := by
    rw [← hread]
    exact List.mem_map_of_mem hitem
  obtain ⟨value, _, hvalue⟩ := List.mem_map.mp hmem
  rw [← hvalue]
  rfl

/-! ## Slots -/

/-- A slot that is filled once. -/
def once (read : β → Option α) (names : List String) (slot : Option α)
    (member : String × β) : Option (Option α) :=
  if member.1 ∈ names then
    if slot.isSome then none else (read member.2).map some
  else some slot

/-- A slot that keeps what it was filled with first. -/
def first (read : β → Option α) (names : List String) (slot : Option α)
    (member : String × β) : Option (Option α) :=
  if member.1 ∈ names then
    (read member.2).map (fun value => some (slot.getD value))
  else some slot

/-- Members with another name are read, and forgotten. -/
def others (read : β → Option α) (names : List String) (_ : Unit)
    (member : String × β) : Option Unit :=
  if member.1 ∈ names then some ()
  else (read member.2).map (fun _ => ())

theorem toList_injective : Function.Injective (Option.toList (α := α)) := by
  rintro (_ | left) (_ | right) hsame
  · rfl
  · cases hsame
  · cases hsame
  · cases hsame
    rfl

theorem foldlM_once_iff (read : β → Option α) (names : List String)
    (members : List (String × β)) (slot filled : Option α) :
    members.foldlM (once read names) slot = some filled ↔
      ((valuesOf names members).mapM read).map (slot.toList ++ ·) =
        some filled.toList := by
  induction members generalizing slot with
  | nil => simp [toList_injective.eq_iff]
  | cons member rest ih =>
      obtain ⟨key, value⟩ := member
      rw [List.foldlM_cons]
      by_cases hkey : key ∈ names
      · rw [valuesOf_cons_of_mem hkey, List.mapM_cons]
        cases slot with
        | some kept =>
            -- Two values never make one slot.
            refine iff_of_false ?_ ?_
            · simp [once, hkey]
            · intro htwo
              obtain ⟨values, hvalues, hlist⟩ := Option.map_eq_some_iff.mp htwo
              obtain ⟨head, _, hrest⟩ := Option.bind_eq_some_iff.mp hvalues
              obtain ⟨tail, _, hboth⟩ := Option.bind_eq_some_iff.mp hrest
              cases hboth
              cases filled with
              | none => cases hlist
              | some only => cases hlist
        | none =>
            cases hread : read value with
            | none => simp [once, hkey, hread]
            | some head =>
                have hone : once read names none (key, value) =
                    some (some head) := by
                  simp [once, hkey, hread]
                rw [hone]
                refine (ih (some head)).trans ?_
                cases (valuesOf names rest).mapM read with
                | none => simp
                | some tail => simp
      · rw [valuesOf_cons_of_notMem hkey]
        have hpassed : once read names slot (key, value) = some slot := by
          simp [once, hkey]
        rw [hpassed]
        exact ih slot

/-- An empty slot takes the one value there is, if there is one. -/
theorem foldlM_once_none_iff (read : β → Option α) (names : List String)
    (members : List (String × β)) (filled : Option α) :
    members.foldlM (once read names) none = some filled ↔
      (valuesOf names members).mapM read = some filled.toList := by
  rw [foldlM_once_iff]
  cases (valuesOf names members).mapM read with
  | none => simp
  | some values => simp

theorem foldlM_first_iff (read : β → Option α) (names : List String)
    (members : List (String × β)) (slot filled : Option α) :
    members.foldlM (first read names) slot = some filled ↔
      ∃ values, (valuesOf names members).mapM read = some values ∧
        filled = slot.or values.head? := by
  induction members generalizing slot with
  | nil => simp [eq_comm]
  | cons member rest ih =>
      obtain ⟨key, value⟩ := member
      rw [List.foldlM_cons]
      by_cases hkey : key ∈ names
      · rw [valuesOf_cons_of_mem hkey, List.mapM_cons]
        cases hread : read value with
        | none => simp [first, hkey, hread]
        | some head =>
            have hkept : first read names slot (key, value) =
                some (some (slot.getD head)) := by
              simp [first, hkey, hread]
            rw [hkept]
            refine (ih _).trans ?_
            cases (valuesOf names rest).mapM read with
            | none => simp
            | some tail => cases slot <;> simp
      · rw [valuesOf_cons_of_notMem hkey]
        have hpassed : first read names slot (key, value) = some slot := by
          simp [first, hkey]
        rw [hpassed]
        exact ih slot

theorem foldlM_others_iff (read : β → Option α) (names : List String)
    (members : List (String × β)) :
    members.foldlM (others read names) () = some () ↔
      ∀ member ∈ members, member.1 ∉ names →
        (read member.2).isSome = true := by
  induction members with
  | nil => simp
  | cons member rest ih =>
      rw [List.foldlM_cons, List.forall_mem_cons, ← ih]
      by_cases hkey : member.1 ∈ names
      · simp [others, hkey]
      · cases hread : read member.2 with
        | none => simp [others, hkey, hread]
        | some value => simp [others, hkey, hread]

/-! ## Slots side by side -/

/-- Two passes at once. -/
def both (left : σ → μ → Option σ) (right : τ → μ → Option τ)
    (slots : σ × τ) (member : μ) : Option (σ × τ) := do
  let first ← left slots.1 member
  let second ← right slots.2 member
  some (first, second)

theorem foldlM_both_iff (left : σ → μ → Option σ) (right : τ → μ → Option τ)
    (members : List μ) (slots filled : σ × τ) :
    members.foldlM (both left right) slots = some filled ↔
      members.foldlM left slots.1 = some filled.1 ∧
        members.foldlM right slots.2 = some filled.2 := by
  induction members generalizing slots with
  | nil => simp [Prod.ext_iff]
  | cons member rest ih =>
      rw [List.foldlM_cons, List.foldlM_cons, List.foldlM_cons]
      cases hleft : left slots.1 member with
      | none => simp [both, hleft]
      | some first =>
          cases hright : right slots.2 member with
          | none => simp [both, hleft, hright]
          | some second =>
              have hboth : both left right slots member =
                  some (first, second) := by
                simp [both, hleft, hright]
              rw [hboth]
              exact ih (first, second)

/-- A pass that does on its state what another does on a part of it. -/
theorem foldlM_map {pass : σ → μ → Option σ} {shown : τ → μ → Option τ}
    {view : σ → τ}
    (hview : ∀ state member,
      (pass state member).map view = shown (view state) member)
    (members : List μ) (state : σ) :
    (members.foldlM pass state).map view =
      members.foldlM shown (view state) := by
  induction members generalizing state with
  | nil => rfl
  | cons member rest ih =>
      rw [List.foldlM_cons, List.foldlM_cons, ← hview]
      cases pass state member with
      | none => rfl
      | some next => exact ih next

end MemberSlots
end Acdp
