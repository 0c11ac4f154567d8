import Mathlib.Data.List.Sort

/-!
# Lists kept in order by stable sorting

A list is in stable order of arrival when it has the elements that arrived,
sorted by a key, and the elements of one key in the order they arrived.
Sorting again after an element is put at the end, and dropping elements that
fail a test, keep a list so.
-/

namespace Acdp

variable {α κ : Type*} [LinearOrder κ]

def keyLe (key : α → κ) (left right : α) : Bool := key left ≤ key right

def stableSort (key : α → κ) (list : List α) : List α :=
  list.mergeSort (keyLe key)

structure StablySorts (key : α → κ) (sorted arrived : List α) : Prop where
  ordered : sorted.Pairwise (fun left right => key left ≤ key right)
  perm : sorted.Perm arrived
  stable : ∀ k, sorted.filter (fun element => key element = k) =
    arrived.filter (fun element => key element = k)

section StableSort

variable (key : α → κ) (list : List α)

@[simp] theorem keyLe_iff (left right : α) :
    keyLe key left right = true ↔ key left ≤ key right := decide_eq_true_iff

theorem keyLe_trans (a b c : α) (hab : keyLe key a b = true)
    (hbc : keyLe key b c = true) : keyLe key a c = true := by
  rw [keyLe_iff] at hab hbc ⊢
  exact le_trans hab hbc

theorem keyLe_total (a b : α) : (keyLe key a b || keyLe key b a) = true := by
  rw [Bool.or_eq_true, keyLe_iff, keyLe_iff]
  exact le_total (key a) (key b)

theorem stableSort_perm : (stableSort key list).Perm list :=
  List.mergeSort_perm list _

theorem stableSort_ordered :
    (stableSort key list).Pairwise
      (fun left right => key left ≤ key right) := by
  have hsorted :=
    List.pairwise_mergeSort (keyLe_trans key) (keyLe_total key) list
  exact hsorted.imp (fun hle => (keyLe_iff key _ _).mp hle)

/-- The elements of one key are a sorted sublist, which stable sorting keeps
as it is; there are no others of that key. -/
theorem stableSort_filter (k : κ) :
    (stableSort key list).filter (fun element => key element = k) =
      list.filter (fun element => key element = k) := by
  have hpairwise : (list.filter (fun element => key element = k)).Pairwise
      (fun left right => keyLe key left right = true) := by
    apply List.pairwise_of_forall_mem_list
    intro left hleft right hright
    have hleft : key left = k := of_decide_eq_true (List.mem_filter.mp hleft).2
    have hright : key right = k :=
      of_decide_eq_true (List.mem_filter.mp hright).2
    rw [keyLe_iff, hleft, hright]
  have hsublist := List.sublist_mergeSort (keyLe_trans key) (keyLe_total key)
    hpairwise List.filter_sublist
  have hfiltered :=
    hsublist.filter (fun element => decide (key element = k))
  rw [List.filter_filter] at hfiltered
  simp only [Bool.and_self] at hfiltered
  apply Eq.symm
  apply hfiltered.eq_of_length
  exact ((stableSort_perm key list).symm.filter _).length_eq

end StableSort

namespace StablySorts

variable {key : α → κ} {sorted arrived : List α}

theorem nil : StablySorts key [] [] := ⟨.nil, .refl _, fun _ => rfl⟩

theorem push (h : StablySorts key sorted arrived) (element : α) :
    StablySorts key (stableSort key (sorted ++ [element]))
      (arrived ++ [element]) where
  ordered := stableSort_ordered key _
  perm := (stableSort_perm key _).trans (h.perm.append_right [element])
  stable := by
    intro k
    rw [stableSort_filter, List.filter_append, List.filter_append, h.stable]

theorem retain (h : StablySorts key sorted arrived) (keep : α → Bool) :
    StablySorts key (sorted.filter keep) (arrived.filter keep) where
  ordered := h.ordered.filter keep
  perm := h.perm.filter keep
  stable := by
    intro k
    have hk := congrArg (List.filter keep) (h.stable k)
    rw [List.filter_comm, hk, List.filter_comm]

end StablySorts

end Acdp
