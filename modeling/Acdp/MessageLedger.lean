import Mathlib.Tactic

/-!
# Accounts of delivered items

A ledger lists the items that have arrived and where each of them went: it
was handed to whoever waited for it, or it went through a queue from which
items are received in turn.  The account is conserved when every item that
arrived is listed exactly once and the queue is served in the order of
arrival.  The operations that hand over, queue and receive keep the account;
those that lose an item never do.
-/

namespace Acdp

structure Ledger (α : Type*) where
  arrived : List α
  handed : List α
  received : List α
  queued : List α

namespace Ledger

variable {α : Type*}

structure Conserved (ledger : Ledger α) : Prop where
  once : ledger.arrived.Perm
    (ledger.handed ++ (ledger.received ++ ledger.queued))
  inOrder : (ledger.received ++ ledger.queued).Sublist ledger.arrived

def empty : Ledger α := ⟨[], [], [], []⟩

def hand (ledger : Ledger α) (item : α) : Ledger α :=
  { ledger with
    arrived := ledger.arrived ++ [item]
    handed := ledger.handed ++ [item] }

def enqueue (ledger : Ledger α) (item : α) : Ledger α :=
  { ledger with
    arrived := ledger.arrived ++ [item]
    queued := ledger.queued ++ [item] }

/-- The item goes nowhere. -/
def lose (ledger : Ledger α) (item : α) : Ledger α :=
  { ledger with arrived := ledger.arrived ++ [item] }

theorem conserved_empty : (empty : Ledger α).Conserved :=
  ⟨List.Perm.refl [], List.Sublist.refl []⟩

theorem Conserved.length_eq {ledger : Ledger α}
    (hconserved : ledger.Conserved) :
    ledger.arrived.length = ledger.handed.length +
      (ledger.received.length + ledger.queued.length) := by
  have hlength := hconserved.once.length_eq
  simpa using hlength

theorem Conserved.hand {ledger : Ledger α} (hconserved : ledger.Conserved)
    (item : α) : (ledger.hand item).Conserved := by
  constructor
  · have hmoved : ((ledger.received ++ ledger.queued) ++ [item]).Perm
        ([item] ++ (ledger.received ++ ledger.queued)) := List.perm_append_comm
    have hperm := hconserved.once.append_right [item]
    rw [List.append_assoc] at hperm
    have hplaced := hperm.trans (hmoved.append_left ledger.handed)
    simpa [Ledger.hand] using hplaced
  · exact hconserved.inOrder.trans (List.sublist_append_left _ _)

theorem Conserved.enqueue {ledger : Ledger α}
    (hconserved : ledger.Conserved) (item : α) :
    (ledger.enqueue item).Conserved := by
  constructor
  · have hperm := hconserved.once.append_right [item]
    simpa [Ledger.enqueue, List.append_assoc] using hperm
  · have horder := hconserved.inOrder.append (List.Sublist.refl [item])
    simpa [Ledger.enqueue, List.append_assoc] using horder

theorem Conserved.receive {arrived handed received queued : List α} {item : α}
    (hconserved :
      (⟨arrived, handed, received, item :: queued⟩ : Ledger α).Conserved) :
    (⟨arrived, handed, received ++ [item], queued⟩ : Ledger α).Conserved := by
  constructor
  · simpa using hconserved.once
  · simpa using hconserved.inOrder

theorem Conserved.claim {arrived handed received queued : List α} {item : α}
    (hconserved :
      (⟨arrived, handed, received, item :: queued⟩ : Ledger α).Conserved) :
    (⟨arrived, handed ++ [item], received, queued⟩ : Ledger α).Conserved := by
  constructor
  · have hmiddle : (received ++ item :: queued).Perm
        ([item] ++ (received ++ queued)) := List.perm_middle
    have hperm := hconserved.once.trans (hmiddle.append_left handed)
    simpa using hperm
  · have hsub : (received ++ queued).Sublist (received ++ item :: queued) :=
      (List.Sublist.refl received).append (List.sublist_cons_self item queued)
    exact hsub.trans hconserved.inOrder

theorem Conserved.not_lose {ledger : Ledger α}
    (hconserved : ledger.Conserved) (item : α) :
    ¬ (ledger.lose item).Conserved := by
  intro hlost
  have hbefore := hconserved.length_eq
  have hafter := hlost.length_eq
  simp only [lose, List.length_append, List.length_singleton] at hafter
  omega

/-- A queue cannot shrink without the items going elsewhere. -/
theorem Conserved.queued_length_eq
    {arrived handed received queued left : List α}
    (hconserved : (⟨arrived, handed, received, queued⟩ : Ledger α).Conserved)
    (hleft : (⟨arrived, handed, received, left⟩ : Ledger α).Conserved) :
    left.length = queued.length := by
  have hbefore := hconserved.length_eq
  have hafter := hleft.length_eq
  simp only at hbefore hafter
  omega

end Ledger
end Acdp
