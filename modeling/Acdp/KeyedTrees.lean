import Mathlib.Data.List.Infix
import Mathlib.Tactic

/-!
# Reading and writing along the paths of keyed trees

The nodes of a tree have children under keys.  How a node holds them is left
open: `get` reads a child and `put` writes one, and a node that has any
children can be written under every key.  An update at the end of a path is
written back key by key.  It is read at the path and below it, and at no path
that leaves the path before its end.
-/

namespace Acdp

structure KeyedTree (Key Node : Type) [DecidableEq Key] where
  get : Node → Key → Option Node
  put : Node → Key → Node → Option Node
  get_put : ∀ {node key child updated}, put node key child = some updated →
    ∀ other, get updated other = if other = key then some child
      else get node other
  put_of_get : ∀ {node key child}, get node key = some child →
    ∀ replacement, ∃ updated, put node key replacement = some updated
  put_get : ∀ {node key child}, get node key = some child →
    put node key child = some node

namespace KeyedTree

variable {Key Node : Type} [DecidableEq Key] (tree : KeyedTree Key Node)

def getAt : List Key → Node → Option Node
  | [], node => some node
  | key :: rest, node => (tree.get node key).bind (getAt rest)

/-- `change` is applied to the node at the path; `none` where the path leads
nowhere or the node is not changed. -/
def updateAt (change : Node → Option Node) : List Key → Node → Option Node
  | [], node => change node
  | key :: rest, node => do
      let child ← tree.get node key
      let updated ← updateAt change rest child
      tree.put node key updated

/-- Each path leaves the other before its end. -/
def Apart (path other : List Key) : Prop :=
  ¬ path <+: other ∧ ¬ other <+: path

variable {tree} {change : Node → Option Node} {path : List Key}
  {node updated : Node}

theorem getAt_append (path rest : List Key) (node : Node) :
    tree.getAt (path ++ rest) node =
      (tree.getAt path node).bind (tree.getAt rest) := by
  induction path generalizing node with
  | nil => rfl
  | cons key path ih =>
      rw [List.cons_append, getAt, getAt, Option.bind_assoc]
      cases tree.get node key with
      | none => rfl
      | some child => exact ih child

theorem getAt_concat (path : List Key) (key : Key) (node : Node) :
    tree.getAt (path ++ [key]) node =
      (tree.getAt path node).bind (fun parent => tree.get parent key) := by
  rw [getAt_append]
  congr 1
  funext parent
  simp [getAt]

theorem getAt_concat_isSome_iff {key : Key} :
    (tree.getAt (path ++ [key]) node).isSome = true ↔
      ∃ parent, tree.getAt path node = some parent ∧
        (tree.get parent key).isSome = true := by
  rw [getAt_concat]
  cases tree.getAt path node with
  | none => simp
  | some parent => simp

theorem updateAt_cons_eq_some {key : Key} {rest : List Key}
    (hupdate : tree.updateAt change (key :: rest) node = some updated) :
    ∃ child changed, tree.get node key = some child ∧
      tree.updateAt change rest child = some changed ∧
      tree.put node key changed = some updated := by
  rw [updateAt] at hupdate
  simp only [Option.bind_eq_bind, Option.bind_eq_some_iff] at hupdate
  obtain ⟨child, hchild, changed, hchanged, hput⟩ := hupdate
  exact ⟨child, changed, hchild, hchanged, hput⟩

/-- An update succeeds exactly where the path leads to a node that changes. -/
theorem updateAt_isSome_iff :
    (∃ updated, tree.updateAt change path node = some updated) ↔
      ∃ target changed, tree.getAt path node = some target ∧
        change target = some changed := by
  induction path generalizing node with
  | nil => simp [updateAt, getAt]
  | cons key rest ih =>
      constructor
      · rintro ⟨updated, hupdate⟩
        obtain ⟨child, changed, hchild, hchanged, _⟩ :=
          updateAt_cons_eq_some hupdate
        obtain ⟨target, final, htarget, hfinal⟩ := ih.mp ⟨changed, hchanged⟩
        refine ⟨target, final, ?_, hfinal⟩
        rw [getAt, hchild]
        exact htarget
      · rintro ⟨target, final, htarget, hfinal⟩
        rw [getAt, Option.bind_eq_some_iff] at htarget
        obtain ⟨child, hchild, hrest⟩ := htarget
        obtain ⟨changed, hchanged⟩ := ih.mpr ⟨target, final, hrest, hfinal⟩
        obtain ⟨updated, hput⟩ := tree.put_of_get hchild changed
        refine ⟨updated, ?_⟩
        rw [updateAt, hchild, Option.bind_eq_bind, Option.bind_some,
          hchanged]
        exact hput

/-- The node at the path is the changed one. -/
theorem getAt_updateAt (hupdate : tree.updateAt change path node =
      some updated) :
    tree.getAt path updated = (tree.getAt path node).bind change := by
  induction path generalizing node updated with
  | nil => exact hupdate.symm
  | cons key rest ih =>
      obtain ⟨child, changed, hchild, hchanged, hput⟩ :=
        updateAt_cons_eq_some hupdate
      rw [getAt, getAt, tree.get_put hput, if_pos rfl, hchild]
      exact ih hchanged

theorem getAt_updateAt_of_apart {other : List Key}
    (hupdate : tree.updateAt change path node = some updated)
    (hapart : Apart path other) :
    tree.getAt other updated = tree.getAt other node := by
  induction path generalizing node updated other with
  | nil => exact absurd List.nil_prefix hapart.1
  | cons key rest ih =>
      obtain ⟨child, changed, hchild, hchanged, hput⟩ :=
        updateAt_cons_eq_some hupdate
      cases other with
      | nil => exact absurd List.nil_prefix hapart.2
      | cons next tail =>
          rw [getAt, getAt, tree.get_put hput]
          by_cases hkey : next = key
          · subst hkey
            have hbelow : Apart rest tail := by
              simpa [Apart, List.cons_prefix_cons] using hapart
            rw [if_pos rfl, hchild]
            exact ih hchanged hbelow
          · rw [if_neg hkey]

/-- Nothing is written where the target stays as it is. -/
theorem updateAt_of_fixed {target : Node}
    (htarget : tree.getAt path node = some target)
    (hfixed : change target = some target) :
    tree.updateAt change path node = some node := by
  induction path generalizing node with
  | nil =>
      rw [getAt, Option.some.injEq] at htarget
      rw [updateAt, htarget, hfixed]
  | cons key rest ih =>
      rw [getAt, Option.bind_eq_some_iff] at htarget
      obtain ⟨child, hchild, hrest⟩ := htarget
      rw [updateAt, hchild, Option.bind_eq_bind, Option.bind_some, ih hrest]
      exact tree.put_get hchild

/-- An update makes another node exactly where it changes the target. -/
theorem updateAt_changes_iff :
    (∃ updated, tree.updateAt change path node = some updated ∧
        updated ≠ node) ↔
      ∃ target changed, tree.getAt path node = some target ∧
        change target = some changed ∧ changed ≠ target := by
  constructor
  · rintro ⟨updated, hupdate, hne⟩
    obtain ⟨target, changed, htarget, hchange⟩ :=
      updateAt_isSome_iff.mp ⟨updated, hupdate⟩
    refine ⟨target, changed, htarget, hchange, ?_⟩
    rintro rfl
    rw [updateAt_of_fixed htarget hchange, Option.some.injEq] at hupdate
    exact hne hupdate.symm
  · rintro ⟨target, changed, htarget, hchange, hne⟩
    obtain ⟨updated, hupdate⟩ : ∃ updated,
        tree.updateAt change path node = some updated :=
      updateAt_isSome_iff.mpr ⟨target, changed, htarget, hchange⟩
    refine ⟨updated, hupdate, ?_⟩
    rintro rfl
    have hread := getAt_updateAt hupdate
    rw [htarget, Option.bind_some, hchange, Option.some.injEq] at hread
    exact hne hread.symm

/-! ## Updates of the members of one node -/

/-- The change keeps every child but those under the keys. -/
def KeepsOthers (change : Node → Option Node) (keys : Set Key) : Prop :=
  ∀ {node changed}, change node = some changed →
    ∀ other ∉ keys, tree.get changed other = tree.get node other

theorem getAt_updateAt_of_keepsOthers {keys : Set Key} {other : List Key}
    (hkeeps : tree.KeepsOthers change keys)
    (hupdate : tree.updateAt change path node = some updated)
    (habove : ¬ other <+: path)
    (hbelow : ∀ key ∈ keys, ¬ path ++ [key] <+: other) :
    tree.getAt other updated = tree.getAt other node := by
  by_cases hthrough : path <+: other
  · obtain ⟨rest, rfl⟩ := hthrough
    rw [getAt_append, getAt_append, getAt_updateAt hupdate]
    obtain ⟨target, changed, htarget, hchanged⟩ :=
      updateAt_isSome_iff.mp ⟨updated, hupdate⟩
    rw [htarget, Option.bind_some, Option.bind_some, hchanged,
      Option.bind_some]
    cases rest with
    | nil =>
        rw [List.append_nil] at habove
        exact absurd (List.prefix_refl path) habove
    | cons key tail =>
        have hkey : key ∉ keys := by
          intro hmember
          apply hbelow key hmember
          rw [List.prefix_append_right_inj]
          exact List.cons_prefix_cons.mpr ⟨rfl, List.nil_prefix⟩
        rw [getAt, getAt, hkeeps hchanged key hkey]
  · exact getAt_updateAt_of_apart hupdate ⟨hthrough, habove⟩

end KeyedTree
end Acdp
