import Mathlib.Data.List.AList
import Mathlib.Tactic

/-!
# Tables of pending requests

A table holds what has been accepted and not yet completed, under a key for
each.  The account is kept when everything accepted is either completed or in
the table, once: it is kept by a failure, by an answer to what is in the
table, and by an entry under a new key, but never by an entry that takes the
place of another.
-/

namespace Acdp
namespace PendingTable

variable {κ : Type*} {α : Type*} {β : Type*}

/-- The items that wait in the table. -/
def waiting (item : β → α) (table : AList (fun _ : κ => β)) : List α :=
  table.entries.map (fun entry => item entry.2)

def Accounted (item : β → α) (accepted completed : List α)
    (table : AList (fun _ : κ => β)) : Prop :=
  accepted.Perm (completed ++ waiting item table)

variable {item : β → α} {accepted completed : List α}
  {table : AList (fun _ : κ => β)}

@[simp] theorem waiting_empty :
    waiting item (∅ : AList (fun _ : κ => β)) = [] := rfl

theorem eq_empty_iff : table = ∅ ↔ ∀ key, key ∉ table := by
  constructor
  · rintro rfl key
    exact AList.notMem_empty key
  · intro hnone
    apply AList.ext
    cases hentries : table.entries with
    | nil => rfl
    | cons entry rest =>
        refine absurd ?_ (hnone entry.1)
        change entry.1 ∈ table.entries.keys
        rw [hentries]
        exact List.mem_cons_self

/-- Where nothing waits, everything accepted is completed. -/
theorem accounted_empty_iff :
    Accounted item accepted completed (∅ : AList (fun _ : κ => β)) ↔
      accepted.Perm completed := by
  rw [Accounted, waiting_empty, List.append_nil]

/-- The last two parts of a list change places. -/
theorem append_perm_swap (left middle right : List α) :
    ((left ++ middle) ++ right).Perm ((left ++ right) ++ middle) := by
  rw [List.append_assoc, List.append_assoc]
  exact List.Perm.append_left left List.perm_append_comm

theorem Accounted.fail (haccount : Accounted item accepted completed table)
    (failed : α) :
    Accounted item (accepted ++ [failed]) (completed ++ [failed]) table :=
  (List.Perm.append_right [failed] haccount).trans (append_perm_swap _ _ _)

variable [DecidableEq κ] {key : κ} {value : β}

theorem waiting_insert (item : β → α) (table : AList (fun _ : κ => β))
    (key : κ) (value : β) :
    waiting item (table.insert key value) =
      item value :: waiting item (table.erase key) := by
  unfold waiting
  rw [AList.entries_insert, List.map_cons]
  rfl

theorem erase_of_notMem (habsent : key ∉ table) : table.erase key = table :=
  AList.ext (List.kerase_of_notMem_keys habsent)

theorem erase_eq_empty_iff :
    table.erase key = ∅ ↔ ∀ other ∈ table, other = key := by
  rw [eq_empty_iff]
  simp only [AList.mem_erase, not_and, ne_eq]
  exact forall_congr' (fun other => by tauto)

/-- The item under a key and those under the others are all. -/
theorem waiting_of_lookup (hlookup : table.lookup key = some value) :
    (waiting item table).Perm
      (item value :: waiting item (table.erase key)) := by
  have hmem : key ∈ table.entries.keys := by
    change key ∈ table
    rw [← AList.lookup_isSome, hlookup]
    rfl
  obtain ⟨found, left, right, _, hentries, herase⟩ :=
    List.exists_of_kerase hmem
  have hfound : table.lookup key = some found := by
    apply AList.mem_lookup_iff.mpr
    rw [hentries]
    exact List.mem_append_right _ List.mem_cons_self
  rw [hlookup, Option.some.injEq] at hfound
  subst hfound
  have hsplit : (table.erase key).entries = left ++ right := herase
  unfold waiting
  rw [hentries, hsplit, List.map_append, List.map_append, List.map_cons]
  exact List.perm_middle

theorem Accounted.answer (haccount : Accounted item accepted completed table)
    (hlookup : table.lookup key = some value) :
    Accounted item accepted (completed ++ [item value]) (table.erase key) := by
  have hmoved : (completed ++ waiting item table).Perm
      ((completed ++ [item value]) ++ waiting item (table.erase key)) := by
    rw [List.append_assoc, List.singleton_append]
    exact List.Perm.append_left completed (waiting_of_lookup hlookup)
  exact haccount.trans hmoved

/-- A new entry keeps the account exactly when it takes no other's place. -/
theorem Accounted.insert_iff
    (haccount : Accounted item accepted completed table) (key : κ)
    (value : β) :
    Accounted item (accepted ++ [item value]) completed
        (table.insert key value) ↔ key ∉ table := by
  constructor
  · intro hinsert hmem
    obtain ⟨old, hold⟩ := Option.isSome_iff_exists.mp
      (AList.lookup_isSome.mpr hmem)
    have hafter := hinsert.length_eq
    have hbefore := haccount.length_eq
    have htable : (waiting item table).length = _ :=
      (waiting_of_lookup hold).length_eq
    rw [waiting_insert] at hafter
    simp only [List.length_append, List.length_cons, List.length_nil] at *
    omega
  · intro habsent
    rw [Accounted, waiting_insert, erase_of_notMem habsent]
    have hmoved : ((completed ++ waiting item table) ++ [item value]).Perm
        (completed ++ (item value :: waiting item table)) := by
      rw [List.append_assoc]
      exact List.Perm.append_left completed
        (List.perm_append_singleton _ _)
    exact (List.Perm.append_right [item value] haccount).trans hmoved

end PendingTable
end Acdp
