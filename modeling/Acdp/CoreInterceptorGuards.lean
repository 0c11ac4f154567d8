import Acdp.CoreInterceptorOrder

/-!
# Guards among the interceptors

A guard is always asked, always answers, and lets through only messages with a
property.  What interceptors before it do does not matter.  Where the
interceptors after it keep the property, a message that leaves the manager is
blocked or has it.
-/

namespace Acdp
namespace Core

open Auth (DateTime)

/-- What the interceptor makes of a message with the property has it, too. -/
def MessageInterceptor.Keeps (property : JsonRpcMessage → Prop)
    (interceptor : MessageInterceptor) : Prop :=
  ∀ context result, property context.message →
    interceptor.intercept context = .ok result → result.block = false →
      result.modified = true → property result.message

structure MessageInterceptor.Guards (property : JsonRpcMessage → Prop)
    (interceptor : MessageInterceptor) : Prop where
  asked : ∀ context, interceptor.shouldIntercept context = true
  answers : ∀ context, ∃ result, interceptor.intercept context = .ok result
  passes : ∀ context result, interceptor.intercept context = .ok result →
    result.block = false →
      property (if result.modified then result.message else context.message)

namespace InterceptorManager

/-- Some guard is followed only by interceptors that keep its property. -/
def Guarded (property : JsonRpcMessage → Prop) (manager : InterceptorManager) :
    Prop :=
  ∃ before guard after, manager.interceptors = before ++ guard :: after ∧
    guard.Guards property ∧
    ∀ interceptor ∈ after, interceptor.Keeps property

variable {property : JsonRpcMessage → Prop}

namespace Pass

theorem absorb_currentMessage (self : Pass) (result : InterceptionResult) :
    (self.absorb result).currentMessage =
      if result.modified then result.message else self.currentMessage := by
  unfold absorb
  split_ifs <;> rfl

/-- One interceptor that was asked: it ends the pass with a result that blocks,
or the pass goes on with its message. -/
theorem run_cons_cases (interceptor : MessageInterceptor)
    (rest : List MessageInterceptor) (self : Pass) :
    (interceptor.shouldIntercept self.context = false ∧
      (self.run (interceptor :: rest)).outcome = (self.run rest).outcome) ∨
    (interceptor.shouldIntercept self.context = true ∧
      ∃ context : MessageContext, context.message = self.currentMessage ∧
        ((∃ e, interceptor.intercept context = .error e ∧
            ∃ next : Pass, next.currentMessage = self.currentMessage ∧
              (self.run (interceptor :: rest)).outcome =
                (next.run rest).outcome) ∨
          ∃ result, interceptor.intercept context = .ok result ∧
            ((result.block = true ∧
                (self.run (interceptor :: rest)).outcome = .inl result) ∨
              (result.block = false ∧
                ∃ next : Pass, next.currentMessage =
                    (if result.modified then result.message
                      else self.currentMessage) ∧
                  (self.run (interceptor :: rest)).outcome =
                    (next.run rest).outcome)))) := by
  rw [run]
  cases hasked : interceptor.shouldIntercept self.context with
  | false => exact Or.inl ⟨rfl, rfl⟩
  | true =>
      refine Or.inr ⟨rfl, self.withCurrentContext.context, rfl, ?_⟩
      rw [if_pos rfl]
      cases hanswer : interceptor.intercept
          self.withCurrentContext.context with
      | error e =>
          exact Or.inl ⟨e, rfl, self.withCurrentContext, rfl, by
            simp only [hanswer]
            rfl⟩
      | ok result =>
          right
          refine ⟨result, rfl, ?_⟩
          cases hblock : result.block with
          | true =>
              left
              simp only [hanswer, hblock, if_true, and_self]
          | false =>
              right
              refine ⟨rfl, self.withCurrentContext.absorb result,
                absorb_currentMessage _ result, ?_⟩
              simp only [hanswer, hblock, Bool.false_eq_true, if_false]
              rfl

/-- What a pass leads to: a result that blocks, or variables whose message has
the property. -/
def Leads (property : JsonRpcMessage → Prop) (passage : Passage Pass) : Prop :=
  match passage.outcome with
  | .inl result => result.block = true
  | .inr final => property final.currentMessage

theorem leads_congr {passage other : Passage Pass}
    (houtcome : passage.outcome = other.outcome) :
    Leads property passage ↔ Leads property other := by
  unfold Leads
  rw [houtcome]

theorem run_of_keeps {interceptors : List MessageInterceptor}
    (hkeeps : ∀ interceptor ∈ interceptors, interceptor.Keeps property)
    (self : Pass) (hstart : property self.currentMessage) :
    Leads property (self.run interceptors) := by
  induction interceptors generalizing self with
  | nil => exact hstart
  | cons interceptor rest ih =>
      obtain ⟨hfirst, hrest⟩ := List.forall_mem_cons.mp hkeeps
      rcases self.run_cons_cases interceptor rest with
        ⟨_, houtcome⟩ | ⟨_, context, hcontext, hanswer⟩
      · exact (leads_congr houtcome).mpr (ih hrest self hstart)
      · rcases hanswer with ⟨_, _, next, hnext, houtcome⟩ |
          ⟨result, hresult, hcases⟩
        · refine (leads_congr houtcome).mpr (ih hrest next ?_)
          rw [hnext]
          exact hstart
        · rcases hcases with ⟨hblock, houtcome⟩ |
            ⟨hblock, next, hnext, houtcome⟩
          · unfold Leads
            rw [houtcome]
            exact hblock
          · refine (leads_congr houtcome).mpr (ih hrest next ?_)
            rw [hnext]
            split_ifs with hmodified
            · rw [← hcontext] at hstart
              exact hfirst context result hstart hresult hblock hmodified
            · exact hstart

/-- Whatever came before it, the guard settles the matter. -/
theorem run_of_guards {guard : MessageInterceptor}
    {before after : List MessageInterceptor} (hguard : guard.Guards property)
    (hafter : ∀ interceptor ∈ after, interceptor.Keeps property)
    (self : Pass) : Leads property (self.run (before ++ guard :: after)) := by
  induction before generalizing self with
  | nil =>
      rw [List.nil_append]
      rcases self.run_cons_cases guard after with
        ⟨hasked, _⟩ | ⟨_, context, hcontext, hanswer⟩
      · rw [hguard.asked] at hasked
        cases hasked
      · obtain ⟨answer, hsome⟩ := hguard.answers context
        rcases hanswer with ⟨_, herror, _⟩ | ⟨result, hresult, hcases⟩
        · rw [hsome] at herror
          cases herror
        · rcases hcases with ⟨hblock, houtcome⟩ |
            ⟨hblock, next, hnext, houtcome⟩
          · unfold Leads
            rw [houtcome]
            exact hblock
          · refine (leads_congr houtcome).mpr (run_of_keeps hafter next ?_)
            rw [hnext, ← hcontext]
            exact hguard.passes context result hresult hblock
  | cons interceptor before ih =>
      rw [List.cons_append]
      rcases self.run_cons_cases interceptor (before ++ guard :: after) with
        ⟨_, houtcome⟩ | ⟨_, _, _, hanswer⟩
      · exact (leads_congr houtcome).mpr (ih self)
      · rcases hanswer with ⟨_, _, next, _, houtcome⟩ | ⟨_, _, hcases⟩
        · exact (leads_congr houtcome).mpr (ih next)
        · rcases hcases with ⟨hblock, houtcome⟩ | ⟨_, next, _, houtcome⟩
          · unfold Leads
            rw [houtcome]
            exact hblock
          · exact (leads_congr houtcome).mpr (ih next)

end Pass

/-- Statistics are nothing to the guard. -/
theorem Guarded.of_same {manager other : InterceptorManager}
    (hguarded : manager.Guarded property)
    (hsame : other.interceptors = manager.interceptors) :
    other.Guarded property := by
  unfold Guarded
  rw [hsame]
  exact hguarded

/-- A message that a guarded manager does not block has the property. -/
theorem Guarded.processMessage {manager : InterceptorManager}
    (hguarded : manager.Guarded property) (message : JsonRpcMessage)
    (direction : MessageDirection) (metadata : InterceptionMetadata)
    (now : DateTime) (elapsedMillis : ℕ) {result : InterceptionResult}
    (hresult : (manager.processMessageWithMetadata message direction metadata
      now elapsedMillis).result = .ok result)
    (hblock : result.block = false) : property result.message := by
  obtain ⟨before, guard, after, hlist, hguard, hafter⟩ := hguarded
  have hleads : Pass.Leads property
      ((Pass.start (contextOf message direction metadata now) message).run
        (before ++ guard :: after)) :=
    Pass.run_of_guards hguard hafter _
  rw [← hlist] at hleads
  unfold Pass.Leads at hleads
  unfold processMessageWithMetadata at hresult
  dsimp only at hresult
  split at hresult
  next blocked houtcome =>
    rw [houtcome] at hleads
    rw [Except.ok.injEq] at hresult
    rw [← hresult, hleads] at hblock
    cases hblock
  next final houtcome =>
    rw [houtcome] at hleads
    rw [Except.ok.injEq] at hresult
    have hmessage : final.finish.message = final.currentMessage := by
      unfold Pass.finish
      dsimp only
      split_ifs <;> rfl
    rw [← hresult, hmessage]
    exact hleads

/-- Whatever calls have built the manager: a guard on its list guards it, if
no interceptor of its priority or a higher one breaks the property. -/
theorem guarded_after {calls : List Call} {guard : MessageInterceptor}
    (hmem : guard ∈ (after calls).interceptors)
    (hguard : guard.Guards property)
    (hkeeps : ∀ interceptor ∈ (after calls).interceptors,
      guard.priority ≤ interceptor.priority → interceptor.Keeps property) :
    (after calls).Guarded property := by
  obtain ⟨before, later, hlist⟩ := List.append_of_mem hmem
  refine ⟨before, guard, later, hlist, hguard, ?_⟩
  intro interceptor hinterceptor
  have hsorted : (after calls).interceptors.Pairwise
      (fun first second => rank first ≤ rank second) :=
    (after_stablySorts calls).ordered
  have hthere : interceptor ∈ (after calls).interceptors := by
    rw [hlist]
    exact List.mem_append_right _ (List.mem_cons_of_mem _ hinterceptor)
  apply hkeeps interceptor hthere
  rw [hlist, List.pairwise_append] at hsorted
  exact (List.pairwise_cons.mp hsorted.2.1).1 interceptor hinterceptor

end InterceptorManager
end Core
end Acdp
