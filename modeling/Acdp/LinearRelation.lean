import Acdp.ByteStrings
import Mathlib.Algebra.Module.Basic
import Mathlib.Tactic

/-!
# Linear relations and proofs of them

A linear relation is a list of equations between group elements, each a
linear combination of known elements with secret scalars as coefficients.
It is built the way a prover and a verifier both build it: variables are
allocated, equations are added, and the known elements are filled in.

A proof system for such relations is a parameter.  Completeness and
knowledge soundness are the two properties a protocol may assume of it.
-/

namespace Acdp

/-- `weight * scalar_var * element_var`. -/
structure LinearTerm (F : Type) where
  weight : F
  scalar : ℕ
  element : ℕ
  deriving DecidableEq

/-- A relation under construction: elements are `none` until they are set. -/
structure LinearRelation (F G : Type) where
  scalars : ℕ := 0
  elements : List (Option G) := []
  equations : List (ℕ × List (LinearTerm F)) := []

namespace LinearRelation

variable {F G : Type}

def allocateScalars (count : ℕ) :
    StateM (LinearRelation F G) (Fin count → ℕ) := fun relation =>
  (fun index => relation.scalars + index.val,
    { relation with scalars := relation.scalars + count })

def allocateElements (count : ℕ) :
    StateM (LinearRelation F G) (Fin count → ℕ) := fun relation =>
  (fun index => relation.elements.length + index.val,
    { relation with
      elements := relation.elements ++ List.replicate count none })

def allocateEq (terms : List (LinearTerm F)) :
    StateM (LinearRelation F G) ℕ := fun relation =>
  (relation.elements.length,
    { relation with
      elements := relation.elements ++ [none]
      equations := relation.equations ++ [(relation.elements.length, terms)] })

def setElement (element : ℕ) (value : G) :
    StateM (LinearRelation F G) Unit := fun relation =>
  ((), { relation with elements := relation.elements.set element (some value) })

variable [Field F] [AddCommGroup G] [Module F G]

def element (relation : LinearRelation F G) (index : ℕ) : G :=
  ((relation.elements.getD index none).getD 0)

def evalTerm (relation : LinearRelation F G) (witness : List F)
    (term : LinearTerm F) : G :=
  (term.weight * witness.getD term.scalar 0) • relation.element term.element

def evalTerms (relation : LinearRelation F G) (witness : List F)
    (terms : List (LinearTerm F)) : G :=
  (terms.map (relation.evalTerm witness)).sum

/-- The witness has one scalar per variable, every element is set and every
equation holds. -/
structure Holds (relation : LinearRelation F G) (witness : List F) :
    Prop where
  length_eq : witness.length = relation.scalars
  assigned : ∀ value ∈ relation.elements, value.isSome = true
  equations : ∀ equation ∈ relation.equations,
    relation.element equation.1 = relation.evalTerms witness equation.2

instance [DecidableEq G] (relation : LinearRelation F G)
    (witness : List F) : Decidable (relation.Holds witness) :=
  decidable_of_iff
    (witness.length = relation.scalars ∧
      (∀ value ∈ relation.elements, value.isSome = true) ∧
      ∀ equation ∈ relation.equations,
        relation.element equation.1 = relation.evalTerms witness equation.2)
    ⟨fun h => ⟨h.1, h.2.1, h.2.2⟩,
      fun h => ⟨h.length_eq, h.assigned, h.equations⟩⟩

end LinearRelation

/-- A non-interactive proof system for linear relations, with the prover's
coins explicit.  Errors are the texts they print as. -/
structure Nizk (F G Coins : Type) where
  intoNizk : LinearRelation F G → Bytes → Except String Unit
  proveBatchable :
    LinearRelation F G → Bytes → List F → Coins → Except String Bytes
  verifyBatchable :
    LinearRelation F G → Bytes → Bytes → Except String Unit

namespace Nizk

variable {F G Coins : Type} [Field F] [AddCommGroup G] [Module F G]

/-- Every true relation is accepted, proved, and its proof verified under the
same session identifier. -/
def Complete (nizk : Nizk F G Coins) : Prop :=
  ∀ relation sessionId witness coins,
    LinearRelation.Holds relation witness →
      nizk.intoNizk relation sessionId = .ok () ∧
        ∃ proof,
          nizk.proveBatchable relation sessionId witness coins = .ok proof ∧
            nizk.verifyBatchable relation sessionId proof = .ok ()

/-- A relation with an accepted proof has a witness. -/
def KnowledgeSound (nizk : Nizk F G Coins) : Prop :=
  ∀ relation sessionId proof,
    nizk.verifyBatchable relation sessionId proof = .ok () →
      ∃ witness, LinearRelation.Holds relation witness

/-! ## A transparent proof system

Sending the witness itself is complete and sound, so the two assumptions
can be made together. -/

def transparent [DecidableEq G] (toByte : F → UInt8) (ofByte : UInt8 → F) :
    Nizk F G Unit where
  intoNizk _ _ := .ok ()
  proveBatchable relation _ witness _ :=
    if relation.Holds witness then .ok (witness.map toByte)
    else .error "InvalidInstanceWitnessPair"
  verifyBatchable relation _ proof :=
    if relation.Holds (proof.map ofByte) then .ok ()
    else .error "VerificationFailure"

theorem transparent_complete [DecidableEq G]
    {toByte : F → UInt8} {ofByte : UInt8 → F}
    (hbyte : ∀ scalar, ofByte (toByte scalar) = scalar) :
    (transparent (G := G) toByte ofByte).Complete := by
  intro relation sessionId witness coins hholds
  refine ⟨rfl, witness.map toByte, ?_, ?_⟩
  · simp [transparent, hholds]
  · have hdecode : (witness.map toByte).map ofByte = witness := by
      rw [List.map_map]
      exact (List.map_congr_left (fun scalar _ => hbyte scalar)).trans
        (List.map_id witness)
    simp only [transparent, hdecode, if_pos hholds]

theorem transparent_knowledgeSound [DecidableEq G]
    (toByte : F → UInt8) (ofByte : UInt8 → F) :
    (transparent (G := G) toByte ofByte).KnowledgeSound := by
  intro relation sessionId proof haccept
  simp only [transparent] at haccept
  split at haccept
  · rename_i hholds
    exact ⟨proof.map ofByte, hholds⟩
  · simp at haccept

end Nizk
end Acdp
