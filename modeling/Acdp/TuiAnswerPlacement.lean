import Acdp.TuiApp

/-!
# Answers land on their own question

As long as the feed is not trimmed under an outstanding query, each entry
keeps the position of its own item, and answers are written there.  A query
that could not be sent leaves its entry behind, and a proxy that is removed or
becomes a server of another type stays selected.
-/

namespace Acdp
namespace Tui
namespace App

/-- The position is that of the item, or the item has been dropped and the
position holds nothing. -/
def Lands (app : App) (index item : ℕ) : Prop :=
  app.trimmed + index = item ∧ index < app.activities.length ∨
    item < app.trimmed ∧ app.activities.length ≤ index

def SelectedPresent (app : App) : Prop :=
  ∀ id, app.selectedProxyId = some id →
    ∃ server ∈ app.servers, server.id = id ∧ server.serverType = .proxy

structure AnswersLand (app : App) : Prop where
  pending : ∀ entry ∈ app.pendingQueries,
    app.Lands entry.activityIndex entry.item
  generations : ∀ active ∈ app.activeGenerations,
    app.Lands active.activityIndex active.item
  rewrites : ∀ rewrite ∈ app.rewrites, rewrite.rewritten = rewrite.item
  sent : ∀ entry ∈ app.pendingQueries, entry.sent = true
  selected : app.SelectedPresent

/-- The query is sent to a proxy. -/
def GoesViaIpc (app : App) (queryInput : String) : Prop :=
  Text.trim queryInput ≠ "" ∧
    (queryTarget (Text.trim queryInput)).1 = .proxy ∧ app.ipcClient = true

/-- The condition on each step. -/
def Keeps (self : App) : Action → Prop
  | .enter queryInput world =>
      self.GoesViaIpc queryInput → world.sent = .ok ()
  | .ipcUpdate (.serverAdded server _) =>
      self.selectedProxyId = some server.id → server.serverType = .proxy
  | .ipcUpdate (.serverRemoved serverId) =>
      self.selectedProxyId ≠ some serverId
  | .endUpdate =>
      self.activities.length ≤ 100 ∨
        self.pendingQueries = [] ∧ self.activeGenerations = []
  | _ => True

/-! ## Entries that point at their items -/

def PointsAt (app : App) (index item : ℕ) : Prop :=
  app.trimmed + index = item ∧ index < app.activities.length

structure Sound (app : App) : Prop where
  pending : ∀ entry ∈ app.pendingQueries,
    app.PointsAt entry.activityIndex entry.item ∧ entry.sent = true
  generations : ∀ active ∈ app.activeGenerations,
    app.PointsAt active.activityIndex active.item
  rewrites : ∀ rewrite ∈ app.rewrites, rewrite.rewritten = rewrite.item
  selected : app.SelectedPresent

variable {self next : App}

theorem start_sound (ipcClient gatewayClient llmService : Bool) :
    (start ipcClient gatewayClient llmService).Sound where
  pending _ hentry := absurd hentry List.not_mem_nil
  generations _ hactive := absurd hactive List.not_mem_nil
  rewrites _ hrewrite := absurd hrewrite List.not_mem_nil
  selected _ hselected := by cases hselected

theorem Sound.answersLand (hsound : self.Sound) : self.AnswersLand where
  pending entry hentry := Or.inl (hsound.pending entry hentry).1
  generations active hactive := Or.inl (hsound.generations active hactive)
  rewrites := hsound.rewrites
  sent entry hentry := (hsound.pending entry hentry).2
  selected := hsound.selected

/-- The feed has the same beginning and may have grown. -/
structure Grows (before after : App) : Prop where
  trimmed : after.trimmed = before.trimmed
  length : before.activities.length ≤ after.activities.length

theorem PointsAt.grow {index item : ℕ} (hpoints : self.PointsAt index item)
    (hgrows : self.Grows next) : next.PointsAt index item := by
  refine ⟨?_, hpoints.2.trans_le hgrows.length⟩
  rw [hgrows.trimmed]
  exact hpoints.1

theorem grows_push (activity : ActivityItem) :
    self.Grows (self.push activity) := by
  refine ⟨rfl, ?_⟩
  dsimp only [push]
  rw [List.length_append]
  exact Nat.le_add_right _ _

theorem grows_change (index : ℕ) (update : ActivityItem → ActivityItem) :
    self.Grows (self.change index update) := by
  refine ⟨rfl, ?_⟩
  dsimp only [change]
  rw [List.length_modify]

theorem Sound.push (hsound : self.Sound) (activity : ActivityItem) :
    (self.push activity).Sound where
  pending entry hentry :=
    ⟨(hsound.pending entry hentry).1.grow (grows_push activity),
      (hsound.pending entry hentry).2⟩
  generations active hactive :=
    (hsound.generations active hactive).grow (grows_push activity)
  rewrites := hsound.rewrites
  selected := hsound.selected

theorem Sound.change (hsound : self.Sound) (index : ℕ)
    (update : ActivityItem → ActivityItem) :
    (self.change index update).Sound where
  pending entry hentry :=
    ⟨(hsound.pending entry hentry).1.grow (grows_change index update),
      (hsound.pending entry hentry).2⟩
  generations active hactive :=
    (hsound.generations active hactive).grow (grows_change index update)
  rewrites := hsound.rewrites
  selected := hsound.selected

theorem Sound.fail (hsound : self.Sound) (index : ℕ) (action : String) :
    (self.fail index action).Sound :=
  hsound.change index _

/-- An answer that is written where its entry points lands on its item. -/
theorem Sound.rewrite {item index : ℕ} (hsound : self.Sound)
    (hpoints : self.PointsAt index item)
    (update : ActivityItem → ActivityItem) :
    (self.rewrite item index update).Sound := by
  have hchanged := hsound.change index update
  refine ⟨hchanged.pending, hchanged.generations, ?_, hchanged.selected⟩
  dsimp only [App.rewrite]
  rw [if_pos hpoints.2]
  intro rewrite hrewrite
  rcases List.mem_append.mp hrewrite with hold | hnew
  · exact hsound.rewrites rewrite hold
  · rw [List.mem_singleton.mp hnew]
    exact hpoints.1

/-! ## Queries -/

theorem processQueryViaIpc_sound {world : QueryWorld} {query : String}
    {index : ℕ} (hsound : self.Sound) (hsent : world.sent = .ok ())
    (hindex : index < self.activities.length) :
    (self.processQueryViaIpc world query index).Sound := by
  refine ⟨?_, hsound.generations, hsound.rewrites, hsound.selected⟩
  intro entry hentry
  rcases List.mem_append.mp hentry with hold | hnew
  · exact hsound.pending entry (List.mem_filter.mp hold).1
  · rw [List.mem_singleton.mp hnew]
    refine ⟨⟨rfl, hindex⟩, ?_⟩
    rw [hsent]
    rfl

theorem processQueryViaLlm_sound (world : QueryWorld) (query : String)
    {index : ℕ} (hsound : self.Sound)
    (hindex : index < self.activities.length) :
    (self.processQueryViaLlm world query index).2.Sound := by
  have hothers : ∀ active ∈ self.activeGenerations.filter
      (fun active => active.id ≠ self.nextGenerationId),
      self.PointsAt active.activityIndex active.item :=
    fun active hactive =>
      hsound.generations active (List.mem_filter.mp hactive).1
  unfold processQueryViaLlm
  split_ifs
  · cases world.started with
    | ok _ =>
        refine ⟨hsound.pending, ?_, hsound.rewrites, hsound.selected⟩
        intro active hactive
        rcases List.mem_append.mp hactive with hold | hnew
        · exact hothers active hold
        · rw [List.mem_singleton.mp hnew]
          exact ⟨rfl, hindex⟩
    | error error =>
        have hremoved : Sound
            { self with
              nextGenerationId := self.nextGenerationId + 1
              activeGenerations := self.activeGenerations.filter
                (fun active => active.id ≠ self.nextGenerationId) } :=
          ⟨hsound.pending, hothers, hsound.rewrites, hsound.selected⟩
        exact hremoved.fail index _
  · exact hsound

theorem routeQuery_sound {world : QueryWorld} {target : QueryTarget}
    {query : String} {index : ℕ} (hsound : self.Sound)
    (hindex : index < self.activities.length)
    (hsent : target = .proxy → self.ipcClient = true →
      world.sent = .ok ()) :
    (self.routeQuery world target query index).Sound := by
  unfold routeQuery
  cases target with
  | proxy =>
      dsimp only
      split_ifs with hconnected
      · have hout := hsent rfl hconnected
        rw [hout]
        exact processQueryViaIpc_sound hsound hout hindex
      · exact hsound.fail index _
  | gateway =>
      dsimp only
      split_ifs
      · cases world.gateway with
        | ok text => exact hsound.change index _
        | error error => exact hsound.fail index _
      · exact hsound.fail index _
  | llm =>
      have hllm := processQueryViaLlm_sound world query hsound hindex
      dsimp only
      split
      · rename_i app heq
        rw [heq] at hllm
        exact hllm
      · rename_i error app heq
        rw [heq] at hllm
        exact hllm.fail index _

theorem processQuery_sound {queryInput : String} {world : QueryWorld}
    (hsound : self.Sound)
    (hsent : self.GoesViaIpc queryInput → world.sent = .ok ()) :
    (self.processQuery queryInput world).Sound := by
  unfold processQuery
  dsimp only
  split_ifs with hempty
  · exact hsound
  · refine routeQuery_sound (hsound.push _) ?_ ?_
    · dsimp only [App.push]
      rw [List.length_append]
      exact Nat.lt_succ_self _
    · intro htarget hconnected
      exact hsent ⟨hempty, htarget, hconnected⟩

/-- A query that cannot be sent leaves an entry that says so. -/
theorem unsent_of_processQuery {queryInput : String} {world : QueryWorld}
    (hroute : self.GoesViaIpc queryInput) {error : String}
    (hfailed : world.sent = .error error) :
    ∃ entry ∈ (self.processQuery queryInput world).pendingQueries,
      entry.sent = false := by
  obtain ⟨hempty, htarget, hconnected⟩ := hroute
  have hshown : ∀ activity, (self.push activity).ipcClient = true :=
    fun _ => hconnected
  unfold processQuery
  dsimp only
  rw [if_neg hempty, htarget]
  unfold routeQuery
  dsimp only
  rw [if_pos (hshown _), hfailed]
  refine ⟨_, List.mem_append_right _ (List.mem_singleton_self _), ?_⟩
  dsimp only
  rw [hfailed]
  rfl

/-! ## Proxies -/

theorem Sound.select {server : Server} (hsound : self.Sound)
    (hserver : server ∈ self.proxies) : (self.select server).Sound := by
  obtain ⟨hmem, hproxy⟩ := List.mem_filter.mp hserver
  refine ⟨hsound.pending, hsound.generations, hsound.rewrites, ?_⟩
  rintro _ ⟨rfl⟩
  exact ⟨server, hmem, rfl, by simpa using hproxy⟩

theorem getD_mem (first : Server) (others : List Server) (place : ℕ) :
    (first :: others).getD place first ∈ first :: others := by
  rw [List.getD_eq_getElem?_getD]
  cases hplace : (first :: others)[place]? with
  | none => exact List.mem_cons_self
  | some server => exact List.mem_of_getElem? hplace

theorem cycleProxySelection_sound {proxies : List Server}
    (hsound : self.Sound) (hproxies : proxies.Perm self.proxies) :
    (self.cycleProxySelection proxies).Sound := by
  unfold cycleProxySelection
  cases proxies with
  | nil => exact hsound.push _
  | cons first others =>
      have hmem : ∀ server ∈ first :: others, server ∈ self.proxies :=
        fun server hserver => hproxies.mem_iff.mp hserver
      cases others with
      | nil => exact (hsound.select (hmem first (by simp))).push _
      | cons second others =>
          dsimp only
          apply Sound.push
          exact hsound.select (hmem _ (getD_mem first (second :: others) _))

/-! ## Updates -/

theorem Sound.updateServer (hsound : self.Sound) (serverId : String)
    {update : Server → Server}
    (hupdate : ∀ server, (update server).id = server.id ∧
      (update server).serverType = server.serverType) :
    (self.updateServer serverId update).Sound := by
  refine ⟨hsound.pending, hsound.generations, hsound.rewrites, ?_⟩
  intro id hselected
  obtain ⟨server, hserver, hid, hproxy⟩ := hsound.selected id hselected
  refine ⟨_, List.mem_map_of_mem hserver, ?_⟩
  split_ifs
  · exact ⟨(hupdate server).1.trans hid, (hupdate server).2.trans hproxy⟩
  · exact ⟨hid, hproxy⟩

theorem queryResponse_sound (hsound : self.Sound) (correlationId : Auth.Uuid)
    (response : String) (error : Option String) :
    (self.queryResponse correlationId response error).Sound := by
  unfold queryResponse
  cases hfound : self.pendingQueries.find?
      (fun entry => entry.correlationId = correlationId) with
  | none => exact hsound
  | some entry =>
      have hmem := List.mem_of_find?_eq_some hfound
      have hremoved : Sound
          { self with
            pendingQueries := self.pendingQueries.filter
              (fun entry => entry.correlationId ≠ correlationId) } := by
        refine ⟨?_, hsound.generations, hsound.rewrites, hsound.selected⟩
        intro other hother
        exact hsound.pending other (List.mem_filter.mp hother).1
      exact hremoved.rewrite (hsound.pending entry hmem).1 _

theorem ipcUpdate_sound {update : AppStateUpdate} (hsound : self.Sound)
    (hkeeps : self.Keeps (.ipcUpdate update)) :
    (self.ipcUpdate update).Sound := by
  cases update with
  | serverAdded server connected =>
      refine ⟨hsound.pending, hsound.generations, hsound.rewrites, ?_⟩
      intro id hselected
      by_cases hsame : id = server.id
      · subst hsame
        exact ⟨server, List.mem_append_right _ (List.mem_singleton_self _), rfl,
          hkeeps hselected⟩
      · obtain ⟨other, hother, hid, hproxy⟩ := hsound.selected id hselected
        refine ⟨other, List.mem_append_left _ (List.mem_filter.mpr
          ⟨hother, ?_⟩), hid, hproxy⟩
        rw [hid]
        simpa using hsame
  | serverRemoved serverId =>
      refine ⟨hsound.pending, hsound.generations, hsound.rewrites, ?_⟩
      intro id hselected
      obtain ⟨other, hother, rfl, hproxy⟩ := hsound.selected id hselected
      refine ⟨other, List.mem_filter.mpr ⟨hother, ?_⟩, rfl, hproxy⟩
      have hne : other.id ≠ serverId := by
        rintro rfl
        exact hkeeps hselected
      simpa using hne
  | serverUpdated serverId name =>
      exact hsound.updateServer serverId (fun _ => ⟨rfl, rfl⟩)
  | activityAdded activity => exact hsound.push activity
  | routingModeChanged proxyId mode =>
      exact hsound.updateServer proxyId (fun _ => ⟨rfl, rfl⟩)
  | queryResponse correlationId response error =>
      exact queryResponse_sound hsound correlationId response error
  | drawn => exact hsound

theorem generationEvent_sound (hsound : self.Sound)
    (event : UiGenerationEvent) : (self.generationEvent event).Sound := by
  unfold generationEvent
  cases event with
  | token id token =>
      dsimp only
      cases hfound : self.activeGenerations.find?
          (fun active => active.id = id) with
      | none => exact hsound
      | some active =>
          have hpoints := hsound.generations active
            (List.mem_of_find?_eq_some hfound)
          have hgrown : Sound
              { self with
                activeGenerations := self.activeGenerations.map (fun other =>
                  if other.id = id then
                    { active with accumulated := active.accumulated ++ token }
                  else other) } := by
            refine ⟨hsound.pending, ?_, hsound.rewrites, hsound.selected⟩
            intro other hother
            obtain ⟨before, hbefore, rfl⟩ := List.mem_map.mp hother
            split_ifs
            · exact hpoints
            · exact hsound.generations before hbefore
          exact hgrown.rewrite hpoints _
  | completed id =>
      dsimp only
      cases hfound : self.activeGenerations.find?
          (fun active => active.id = id) with
      | none => exact hsound
      | some active =>
          have hpoints := hsound.generations active
            (List.mem_of_find?_eq_some hfound)
          have hremoved : Sound
              { self with
                activeGenerations := self.activeGenerations.filter
                  (fun other => other.id ≠ id) } := by
            refine ⟨hsound.pending, ?_, hsound.rewrites, hsound.selected⟩
            intro other hother
            exact hsound.generations other (List.mem_filter.mp hother).1
          exact hremoved.rewrite hpoints _

theorem trim_sound (hsound : self.Sound)
    (hkeeps : self.activities.length ≤ 100 ∨
      self.pendingQueries = [] ∧ self.activeGenerations = []) :
    self.trim.Sound := by
  unfold trim
  split_ifs with hlong
  · obtain ⟨hpending, hgenerations⟩ :=
      hkeeps.resolve_left (Nat.not_le_of_lt hlong)
    refine ⟨?_, ?_, hsound.rewrites, hsound.selected⟩
    · dsimp only
      rw [hpending]
      exact fun _ hentry => absurd hentry List.not_mem_nil
    · dsimp only
      rw [hgenerations]
      exact fun _ hactive => absurd hactive List.not_mem_nil
  · exact hsound

/-- When fifty items are dropped an entry comes to point at another item, or
past the feed at one that is still there. -/
theorem not_lands_of_trim {index item : ℕ}
    (hlong : 100 < self.activities.length)
    (hpoints : self.PointsAt index item) : ¬ self.trim.Lands index item := by
  obtain ⟨hitem, hindex⟩ := hpoints
  unfold trim Lands
  rw [if_pos hlong]
  dsimp only
  rw [List.length_drop]
  omega

/-! ## Runs of the application -/

theorem step_sound {action : Action} (hsound : self.Sound)
    (hstep : self.step action = some next) (hkeeps : self.Keeps action) :
    next.Sound := by
  cases action with
  | enter queryInput world =>
      simp only [step] at hstep
      split_ifs at hstep
      cases hstep
      exact processQuery_sound hsound hkeeps
  | cycleProxy proxies =>
      simp only [step] at hstep
      split_ifs at hstep with hready
      cases hstep
      exact cycleProxySelection_sound hsound hready.2
  | activity activity =>
      simp only [step] at hstep
      split_ifs at hstep
      cases hstep
      exact hsound.push activity
  | beginUpdate =>
      simp only [step] at hstep
      split_ifs at hstep
      cases hstep
      exact ⟨hsound.pending, hsound.generations, hsound.rewrites,
        hsound.selected⟩
  | ipcUpdate update =>
      simp only [step] at hstep
      split_ifs at hstep
      cases hstep
      exact ipcUpdate_sound hsound hkeeps
  | endIpc =>
      simp only [step] at hstep
      split_ifs at hstep
      cases hstep
      exact ⟨hsound.pending, hsound.generations, hsound.rewrites,
        hsound.selected⟩
  | generationEvent event =>
      simp only [step] at hstep
      split_ifs at hstep
      cases hstep
      exact generationEvent_sound hsound event
  | endUpdate =>
      simp only [step] at hstep
      split_ifs at hstep
      cases hstep
      have htrimmed := trim_sound hsound hkeeps
      exact ⟨htrimmed.pending, htrimmed.generations, htrimmed.rewrites,
        htrimmed.selected⟩

theorem keeps_of_ipcUpdate {update : AppStateUpdate}
    (hnext : (self.ipcUpdate update).SelectedPresent) :
    self.Keeps (.ipcUpdate update) := by
  cases update with
  | serverAdded server connected =>
      intro hselected
      obtain ⟨found, hfound, hid, hproxy⟩ := hnext server.id hselected
      rcases List.mem_append.mp hfound with hold | hnew
      · have hne := (List.mem_filter.mp hold).2
        simp [hid] at hne
      · rw [← List.mem_singleton.mp hnew]
        exact hproxy
  | serverRemoved serverId =>
      intro hselected
      obtain ⟨found, hfound, hid, _⟩ := hnext serverId hselected
      have hne := (List.mem_filter.mp hfound).2
      simp [hid] at hne
  | _ => trivial

theorem keeps_of_answersLand {action : Action} (hsound : self.Sound)
    (hstep : self.step action = some next) (hnext : next.AnswersLand) :
    self.Keeps action := by
  cases action with
  | enter queryInput world =>
      simp only [step] at hstep
      split_ifs at hstep
      cases hstep
      intro hroute
      cases hsent : world.sent with
      | ok _ => rfl
      | error error =>
          obtain ⟨entry, hentry, hunsent⟩ :=
            unsent_of_processQuery hroute hsent
          rw [hnext.sent entry hentry] at hunsent
          cases hunsent
  | ipcUpdate update =>
      simp only [step] at hstep
      split_ifs at hstep
      cases hstep
      exact keeps_of_ipcUpdate hnext.selected
  | endUpdate =>
      simp only [step] at hstep
      split_ifs at hstep
      cases hstep
      rcases Nat.lt_or_ge 100 self.activities.length with hlong | hshort
      · refine Or.inr ⟨?_, ?_⟩
        · apply List.eq_nil_iff_forall_not_mem.mpr
          intro entry hentry
          have hmem : entry ∈ self.trim.pendingQueries := by
            unfold trim
            rw [if_pos hlong]
            exact hentry
          exact not_lands_of_trim hlong (hsound.pending entry hentry).1
            (hnext.pending entry hmem)
        · apply List.eq_nil_iff_forall_not_mem.mpr
          intro active hactive
          have hmem : active ∈ self.trim.activeGenerations := by
            unfold trim
            rw [if_pos hlong]
            exact hactive
          exact not_lands_of_trim hlong (hsound.generations active hactive)
            (hnext.generations active hmem)
      · exact Or.inl hshort
  | _ => trivial

/-- Answers land on their own question throughout a run just when every step
of it keeps to the condition. -/
theorem throughout_answersLand_iff
    (ipcClient gatewayClient llmService : Bool) (trace : List Action) :
    machine.Throughout AnswersLand (start ipcClient gatewayClient llmService)
        trace ↔
      machine.Along Keeps (start ipcClient gatewayClient llmService) trace := by
  refine StepMachine.throughout_iff_along ?_
    (fun found (hsound : Sound found) => hsound.answersLand) ?_
    (start_sound ipcClient gatewayClient llmService) trace
  · intro before action after hsound hstep hkeeps
    exact step_sound hsound hstep hkeeps
  · intro before action after hsound hstep hnext
    exact keeps_of_answersLand hsound hstep hnext

def backgroundItem : ActivityItem := ⟨"agent", "server", "call", .success⟩

theorem run_replicate_activity (app : App) (hidle : app.stage = .idle)
    (count : ℕ) :
    machine.run app (List.replicate count (.activity backgroundItem)) =
      some { app with
        activities := app.activities ++
          List.replicate count backgroundItem } := by
  induction count generalizing app with
  | zero =>
      rw [List.replicate_zero, List.replicate_zero, List.append_nil]
      rfl
  | succ count ih =>
      have hstep : machine.step app (.activity backgroundItem) =
          some (app.push backgroundItem) := if_pos hidle
      rw [List.replicate_succ, StepMachine.run_cons, hstep, Option.bind_some,
        ih (app.push backgroundItem) hidle]
      simp [App.push, List.replicate_succ]

def whyWorld : QueryWorld := ⟨.filled 16 0, .ok (), .ok "", .ok ()⟩

/-- A question to the local model, a hundred items from elsewhere, and an
update of the state that finds nothing. -/
def trimmedQuestion : List Action :=
  [.enter "why" whyWorld] ++
    (List.replicate 100 (.activity backgroundItem) ++
      [.beginUpdate, .endIpc, .endUpdate])

/-- The answer to the question will go to another item, or nowhere. -/
theorem trimmedQuestion_not_answersLand :
    ¬ machine.Throughout AnswersLand (start false false true)
      trimmedQuestion := by
  intro hthrough
  have hasked : machine.run (start false false true)
      [.enter "why" whyWorld] =
        some ((start false false true).processQuery "why" whyWorld) := rfl
  have hrun : machine.run (start false false true) trimmedQuestion =
      some { ((start false false true).processQuery "why" whyWorld) with
        activities := List.replicate 51 backgroundItem
        trimmed := 50 } := by
    unfold trimmedQuestion
    rw [StepMachine.run_append, hasked, Option.bind_some,
      StepMachine.run_append, run_replicate_activity _ rfl, Option.bind_some]
    rfl
  have hreached := hthrough _ (List.prefix_refl _) _ hrun
  have hlands := hreached.generations ⟨0, "why", "", 0, 0⟩
    (List.mem_singleton_self _)
  rcases hlands with ⟨hitem, _⟩ | ⟨_, hlength⟩
  · cases hitem
  · rw [List.length_replicate] at hlength
    cases hlength

end App

end Tui
end Acdp
