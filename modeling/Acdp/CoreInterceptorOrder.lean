import Acdp.CoreInterceptor
import Acdp.StableSorting

/-!
# The order of the interceptors

Security checks are given low priorities so that they run before the
rewriting ones, and the manager runs its list from the front.  Whatever calls
have added and removed interceptors, the list is the stable order of those
that are left.
-/

namespace Acdp
namespace Core
namespace InterceptorManager

/-- A call that changes the list. -/
inductive Call where
  | addInterceptor (interceptor : MessageInterceptor)
  | removeInterceptor (name : String)

def call (self : InterceptorManager) : Call → InterceptorManager
  | .addInterceptor interceptor => self.addInterceptor interceptor
  | .removeInterceptor name => (self.removeInterceptor name).1

def after (calls : List Call) : InterceptorManager := calls.foldl call new

/-- Whether one of the calls removes the interceptors of this name. -/
def removes (name : String) : List Call → Bool
  | [] => false
  | .addInterceptor _ :: later => removes name later
  | .removeInterceptor removed :: later =>
      removed == name || removes name later

/-- The interceptors that the calls add and do not remove afterwards, in the
order they are added. -/
def survivors : List Call → List MessageInterceptor
  | [] => []
  | .addInterceptor interceptor :: later =>
      if removes interceptor.name later then survivors later
      else interceptor :: survivors later
  | .removeInterceptor _ :: later => survivors later

/-! ## One more call -/

theorem removes_append (name : String) (calls later : List Call) :
    removes name (calls ++ later) =
      (removes name calls || removes name later) := by
  induction calls with
  | nil => rfl
  | cons first rest ih =>
      cases first with
      | addInterceptor interceptor => exact ih
      | removeInterceptor removed =>
          simp only [List.cons_append, removes, ih, Bool.or_assoc]

theorem survivors_append_add (calls : List Call)
    (interceptor : MessageInterceptor) :
    survivors (calls ++ [.addInterceptor interceptor]) =
      survivors calls ++ [interceptor] := by
  induction calls with
  | nil => rfl
  | cons first rest ih =>
      cases first with
      | addInterceptor other =>
          simp only [List.cons_append, survivors, removes_append, removes,
            Bool.or_false, ih]
          split_ifs with hremoved
          · rfl
          · rfl
      | removeInterceptor removed => exact ih

theorem survivors_append_remove (calls : List Call) (name : String) :
    survivors (calls ++ [.removeInterceptor name]) =
      (survivors calls).filter (fun other => other.name != name) := by
  induction calls with
  | nil => rfl
  | cons first rest ih =>
      cases first with
      | addInterceptor other =>
          simp only [List.cons_append, survivors, removes_append, removes,
            Bool.or_false, ih]
          by_cases hname : name = other.name
          · rw [if_pos (by simp [hname])]
            split_ifs with hremoved
            · rfl
            · rw [List.filter_cons_of_neg (by simp [hname])]
          · have hkept : (other.name != name) = true := by
              simpa using Ne.symm hname
            simp only [beq_eq_false_iff_ne.mpr hname, Bool.or_false]
            split_ifs with hremoved
            · rfl
            · rw [List.filter_cons, if_pos hkept]
      | removeInterceptor removed => exact ih

theorem after_append (calls : List Call) (last : Call) :
    after (calls ++ [last]) = (after calls).call last :=
  List.foldl_concat call new last calls

/-! ## The order -/

def rank (interceptor : MessageInterceptor) : ℕ :=
  interceptor.priority.toNat

theorem addInterceptor_eq (self : InterceptorManager)
    (interceptor : MessageInterceptor) :
    (self.addInterceptor interceptor).interceptors =
      stableSort rank (self.interceptors ++ [interceptor]) := rfl

theorem after_stablySorts (calls : List Call) :
    StablySorts rank (after calls).interceptors (survivors calls) := by
  induction calls using List.reverseRecOn with
  | nil => exact .nil
  | append_singleton calls last ih =>
      rw [after_append]
      cases last with
      | addInterceptor interceptor =>
          rw [survivors_append_add, call, addInterceptor_eq]
          exact ih.push interceptor
      | removeInterceptor name =>
          rw [survivors_append_remove]
          exact ih.retain (fun other => other.name != name)

theorem removeInterceptor_snd_iff (self : InterceptorManager) (name : String) :
    (self.removeInterceptor name).2 = true ↔
      ∃ interceptor ∈ self.interceptors, interceptor.name = name := by
  simp only [removeInterceptor, bne_iff_ne, ne_eq,
    List.length_filter_eq_length_iff, not_forall, not_not, exists_prop]

/-- After any calls the list is sorted by priority, the interceptors of one
priority are those left over of that priority in the order they were added,
the list has each interceptor left over as often as it was added, and a
removal reports whether it finds one. -/
theorem interceptors_keep_their_order (calls : List Call) :
    (after calls).interceptors.Pairwise
        (fun first second => first.priority ≤ second.priority) ∧
      (∀ priority,
        (after calls).interceptors.filter
            (fun interceptor => interceptor.priority = priority) =
          (survivors calls).filter
            (fun interceptor => interceptor.priority = priority)) ∧
      (after calls).interceptors.Perm (survivors calls) ∧
      ∀ name, ((after calls).removeInterceptor name).2 = true ↔
        ∃ interceptor ∈ (after calls).interceptors,
          interceptor.name = name := by
  have hsorts := after_stablySorts calls
  refine ⟨hsorts.ordered, ?_, hsorts.perm,
    removeInterceptor_snd_iff (after calls)⟩
  intro priority
  have hstable := hsorts.stable priority.toNat
  simpa only [rank, UInt32.toNat_inj] using hstable

end InterceptorManager
end Core
end Acdp
