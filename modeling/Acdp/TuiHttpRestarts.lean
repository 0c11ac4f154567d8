import Acdp.TuiHttpProxy

/-!
# Restarts of the backend of an HTTP session

A restart is announced when the backend has closed its connection, and counted
there; the other ways out of the inner loop lead to a new backend uncounted.
Every way out leads to one backend more, so the number of backends stays within
its bound, and what is announced comes true, just when connections are closed
at most four times, before anything else goes wrong, and a backend is asked for
after no more than five ways out.
-/

namespace Acdp
namespace Tui
namespace HttpProxy

open Acdp.Core
open Transport (Backend BackendKind Received SendWorld)

variable {json : SerdeJson} {self next : HttpProxy}

/-- How many backends have been asked for. -/
def creations (self : HttpProxy) : ℕ := self.trail.count Mark.created

/-- How often the inner loop has been left: each time what the backend has
written is put away. -/
def exits (self : HttpProxy) : ℕ := self.earlier.length

/-- What follows an announcement is the creation of the replacement of that
number, or that is what the task is about to do. -/
def Truthful (trail : List Mark) (phase : Phase) : Prop :=
  ∀ before restart after, trail = before ++ Mark.announced restart :: after →
    before.count Mark.created = restart ∧
      (after.head? = some Mark.created ∨ after = [] ∧ phase = .creating)

structure Restarts (proxy : HttpProxy) : Prop where
  bounded : proxy.creations ≤ maxRestarts + 1
  truthful : Truthful proxy.trail proxy.phase

/-- The condition on each step. -/
def Paces (json : SerdeJson) (self : HttpProxy) : Action → Prop
  | .createBackend _ => self.exits ≤ maxRestarts
  | .backendBranch _ =>
      ∀ backend after, self.backend = some backend →
        backend.recv json = some (.closed, after) →
        self.restartCount + 1 < maxRestarts ∧
          self.exits = self.restartCount
  | _ => True

/-! ## Trails -/

/-- A mark at the end of a trail is the one looked for, or comes after it. -/
theorem eq_append_cons_of_concat {Item : Type*} {items before after : List Item}
    {last item : Item} (hsplit : items ++ [last] = before ++ item :: after) :
    (after = [] ∧ items = before ∧ last = item) ∨
      ∃ rest, after = rest ++ [last] ∧ items = before ++ item :: rest := by
  rcases List.eq_nil_or_concat after with rfl | ⟨rest, final, rfl⟩
  · obtain ⟨hitems, hlast⟩ := List.append_inj' hsplit rfl
    exact Or.inl ⟨rfl, hitems, List.head_eq_of_cons_eq hlast⟩
  · rw [List.concat_eq_append] at hsplit ⊢
    rw [← List.cons_append, ← List.append_assoc] at hsplit
    obtain ⟨hitems, hlast⟩ := List.append_inj' hsplit rfl
    rw [List.head_eq_of_cons_eq hlast]
    exact Or.inr ⟨rest, rfl, hitems⟩

namespace Truthful

variable {trail : List Mark} {phase other : Phase}

/-- Once an announcement has come true the phase no longer matters. -/
theorem create (htruthful : Truthful trail phase) :
    Truthful (trail ++ [Mark.created]) other := by
  intro before restart after hsplit
  rcases eq_append_cons_of_concat hsplit with
    ⟨_, _, hlast⟩ | ⟨rest, rfl, hbefore⟩
  · cases hlast
  · obtain ⟨hcount, hfollowed⟩ := htruthful before restart rest hbefore
    refine ⟨hcount, Or.inl ?_⟩
    rcases hfollowed with hcreated | ⟨rfl, _⟩
    · rw [List.head?_append, hcreated]
      rfl
    · rfl

theorem phaseChange (htruthful : Truthful trail phase)
    (hphase : phase = .creating → other = .creating) :
    Truthful trail other := by
  intro before restart after hsplit
  obtain ⟨hcount, hfollowed⟩ := htruthful before restart after hsplit
  refine ⟨hcount, hfollowed.imp_right ?_⟩
  rintro ⟨hafter, hcreating⟩
  exact ⟨hafter, hphase hcreating⟩

/-- While no backend is being created an announcement may be added, of the
replacement that is next. -/
theorem announce (htruthful : Truthful trail phase)
    (hphase : phase ≠ .creating) {restart : ℕ}
    (hnumber : trail.count Mark.created = restart)
    (hother : other = .creating) :
    Truthful (trail ++ [Mark.announced restart]) other := by
  intro before number after hsplit
  rcases eq_append_cons_of_concat hsplit with
    ⟨rfl, rfl, hlast⟩ | ⟨rest, rfl, hbefore⟩
  · cases hlast
    exact ⟨hnumber, Or.inr ⟨rfl, hother⟩⟩
  · obtain ⟨hcount, hfollowed⟩ := htruthful before number rest hbefore
    refine ⟨hcount, Or.inl ?_⟩
    rcases hfollowed with hcreated | ⟨_, hcreating⟩
    · rw [List.head?_append, hcreated]
      rfl
    · exact absurd hcreating hphase

theorem of_announced {restart : ℕ}
    (htruthful : Truthful (trail ++ [Mark.announced restart]) phase) :
    trail.count Mark.created = restart ∧ phase = .creating := by
  obtain ⟨hcount, hfollowed⟩ := htruthful trail restart [] rfl
  refine ⟨hcount, ?_⟩
  rcases hfollowed with hcreated | ⟨_, hcreating⟩
  · cases hcreated
  · exact hcreating

end Truthful

/-! ## What a step does to the trail -/

/-- Everything but the restarts stays as it is. -/
structure Unmarked (before after : HttpProxy) : Prop where
  autoRestart : after.autoRestart = before.autoRestart
  restartCount : after.restartCount = before.restartCount
  trail : after.trail = before.trail

theorem unmarked_leave (backend : Backend) :
    Unmarked self (self.leave backend) := ⟨rfl, rfl, rfl⟩

theorem unmarked_relay (backend : Backend) :
    Unmarked self (self.relay backend) := ⟨rfl, rfl, rfl⟩

theorem unmarked_handleMcpRequest (message : JsonRpcMessage)
    (verdict : Verdict) :
    Unmarked self (self.handleMcpRequest message verdict) ∧
      (self.handleMcpRequest message verdict).phase = self.phase ∧
      (self.handleMcpRequest message verdict).earlier = self.earlier := by
  unfold handleMcpRequest
  cases message with
  | notification notification => exact ⟨⟨rfl, rfl, rfl⟩, rfl, rfl⟩
  | response response => exact ⟨⟨rfl, rfl, rfl⟩, rfl, rfl⟩
  | request request =>
      cases verdict with
      | error error => exact ⟨⟨rfl, rfl, rfl⟩, rfl, rfl⟩
      | ok result =>
          dsimp only
          split_ifs
          · exact ⟨⟨rfl, rfl, rfl⟩, rfl, rfl⟩
          · exact ⟨⟨rfl, rfl, rfl⟩, rfl, rfl⟩
          · exact ⟨⟨rfl, rfl, rfl⟩, rfl, rfl⟩

theorem unmarked_handleRequest (backend : Backend) (queued : Queued)
    (verdict : Verdict) (world : SendWorld) :
    Unmarked self (self.handleRequest backend queued verdict world) := by
  unfold handleRequest
  cases verdict with
  | error error => exact unmarked_leave backend
  | ok result =>
      dsimp only
      split_ifs
      · exact ⟨rfl, rfl, rfl⟩
      · cases (backend.send world result.message).1.result with
        | error error => exact ⟨rfl, rfl, rfl⟩
        | ok _ => exact ⟨rfl, rfl, rfl⟩

theorem unmarked_handleResponse (given : JsonRpcMessage) (verdict : Verdict) :
    Unmarked self (self.handleResponse given verdict) ∧
      (self.handleResponse given verdict).earlier = self.earlier := by
  unfold handleResponse
  cases verdict with
  | error error => exact ⟨⟨rfl, rfl, rfl⟩, rfl⟩
  | ok result =>
      dsimp only
      split_ifs
      · exact ⟨⟨rfl, rfl, rfl⟩, rfl⟩
      · exact ⟨⟨rfl, rfl, rfl⟩, rfl⟩
      · exact ⟨⟨rfl, rfl, rfl⟩, rfl⟩

theorem unmarked_handleReceived {received : Received} (backend : Backend)
    (verdict : Verdict) (hreceived : received ≠ .closed) :
    Unmarked self (self.handleReceived backend verdict received) := by
  cases received with
  | blank => exact unmarked_relay backend
  | message given =>
      obtain ⟨hresponse, -⟩ := @unmarked_handleResponse self given verdict
      exact ⟨hresponse.autoRestart, hresponse.restartCount, hresponse.trail⟩
  | closed => exact absurd rfl hreceived
  | failed error =>
      rw [handleReceived]
      split_ifs
      · exact unmarked_relay backend
      · exact unmarked_leave backend

theorem phase_of_backend {backend : Backend}
    (hbackend : self.backend = some backend) :
    self.phase = .relaying backend := by
  unfold HttpProxy.backend at hbackend
  cases hphase : self.phase with
  | creating => simp [hphase] at hbackend
  | relaying other =>
      rw [hphase] at hbackend
      cases hbackend
      rfl
  | ended outcome => simp [hphase] at hbackend

theorem ne_creating_of_backend {backend : Backend}
    (hbackend : self.backend = some backend) : self.phase ≠ .creating := by
  rw [phase_of_backend hbackend]
  exact Phase.noConfusion

/-- A step asks for a backend, takes notice that one has closed its
connection, or leaves the trail alone. -/
theorem step_trail {action : Action}
    (hstep : self.step json action = some next) :
    (∃ outcome, action = .createBackend outcome ∧ self.phase = .creating ∧
      next.autoRestart = self.autoRestart ∧
      next.restartCount = self.restartCount ∧
      next.trail = self.trail ++ [Mark.created]) ∨
    (∃ verdict backend after, action = .backendBranch verdict ∧
      self.backend = some backend ∧
      backend.recv json = some (.closed, after) ∧
      next = self.handleClosed after) ∨
    (Unmarked self next ∧ (self.phase = .creating → next.phase = .creating) ∧
      (∀ outcome, action ≠ .createBackend outcome) ∧
      ∀ verdict, action = .backendBranch verdict →
        ∀ backend after, self.backend = some backend →
          backend.recv json ≠ some (.closed, after)) := by
  cases action with
  | post message verdict =>
      cases hstep
      obtain ⟨hunmarked, hphase, -⟩ := @unmarked_handleMcpRequest
        { self with posted := self.posted ++ [message] } message verdict
      refine Or.inr (Or.inr ⟨⟨hunmarked.autoRestart, hunmarked.restartCount,
        hunmarked.trail⟩, hphase.trans, by simp, by simp⟩)
  | subscribe =>
      cases hstep
      exact Or.inr (Or.inr ⟨⟨rfl, rfl, rfl⟩, id, by simp, by simp⟩)
  | unsubscribe =>
      cases hstep
      exact Or.inr (Or.inr ⟨⟨rfl, rfl, rfl⟩, id, by simp, by simp⟩)
  | createBackend outcome =>
      obtain ⟨hphase, rfl⟩ := step_createBackend hstep
      refine Or.inl ⟨outcome, rfl, hphase, ?_⟩
      cases outcome with
      | ok client => exact ⟨rfl, rfl, rfl⟩
      | error error => exact ⟨rfl, rfl, rfl⟩
  | backendSends chunk =>
      obtain ⟨before, after, hbefore, _, rfl⟩ := exists_relay_of_onStdout hstep
      exact Or.inr (Or.inr ⟨unmarked_relay after,
        fun hphase => absurd hphase (ne_creating_of_backend hbefore), by simp,
        by simp⟩)
  | backendCloses =>
      obtain ⟨before, after, hbefore, _, rfl⟩ := exists_relay_of_onStdout hstep
      exact Or.inr (Or.inr ⟨unmarked_relay after,
        fun hphase => absurd hphase (ne_creating_of_backend hbefore), by simp,
        by simp⟩)
  | backendWaits =>
      obtain ⟨before, after, hbefore, _, rfl⟩ := exists_relay_of_onStdout hstep
      exact Or.inr (Or.inr ⟨unmarked_relay after,
        fun hphase => absurd hphase (ne_creating_of_backend hbefore), by simp,
        by simp⟩)
  | requestBranch verdict world =>
      obtain ⟨backend, queued, rest, hbackend, _, rfl⟩ :=
        step_requestBranch hstep
      have hunmarked := @unmarked_handleRequest
        { self with requests := rest } backend queued verdict world
      exact Or.inr (Or.inr ⟨⟨hunmarked.autoRestart, hunmarked.restartCount,
        hunmarked.trail⟩,
        fun hphase => absurd hphase (ne_creating_of_backend hbackend),
        by simp, by simp⟩)
  | requestsClose =>
      obtain ⟨backend, hbackend, rfl⟩ := step_requestsClose hstep
      exact Or.inr (Or.inr ⟨⟨rfl, rfl, rfl⟩,
        fun hphase => absurd hphase (ne_creating_of_backend hbackend), by simp,
        by simp⟩)
  | backendBranch verdict =>
      obtain ⟨backend, received, after, hbackend, hrecv, rfl⟩ :=
        step_backendBranch hstep
      by_cases hclosed : received = .closed
      · rw [hclosed] at hrecv
        rw [hclosed]
        exact Or.inr (Or.inl
          ⟨verdict, backend, after, rfl, hbackend, hrecv, rfl⟩)
      · refine Or.inr (Or.inr ⟨unmarked_handleReceived after verdict hclosed,
          fun hphase => absurd hphase (ne_creating_of_backend hbackend),
          by simp, ?_⟩)
        rintro _ _ other rest hother hrest
        rw [hbackend] at hother
        cases hother
        rw [hrecv] at hrest
        cases hrest
        exact hclosed rfl

/-! ## Ways out of the inner loop -/

/-- A backend that was asked for is in use, or the inner loop has been left
since. -/
structure Counted (proxy : HttpProxy) : Prop where
  creating : proxy.phase = .creating → proxy.creations = proxy.exits
  relaying : ∀ backend, proxy.phase = .relaying backend →
    proxy.creations = proxy.exits + 1

theorem start_counted (autoRestart : Bool) (kind : BackendKind) :
    (start autoRestart kind).Counted where
  creating _ := rfl
  relaying _ hphase := by cases hphase

namespace Counted

theorem of_same (hcounted : self.Counted) (hphase : next.phase = self.phase)
    (htrail : next.trail = self.trail)
    (hearlier : next.earlier = self.earlier) : next.Counted := by
  constructor
  · rw [creations, exits, hphase, htrail, hearlier]
    exact hcounted.creating
  · rw [creations, exits, hphase, htrail, hearlier]
    exact hcounted.relaying

theorem relay (hcounted : self.Counted) {backend : Backend}
    (hbackend : self.backend = some backend)
    (htrail : next.trail = self.trail)
    (hearlier : next.earlier = self.earlier) (other : Backend) :
    (next.relay other).Counted := by
  constructor
  · intro hphase
    cases hphase
  · intro _ _
    have hsame := hcounted.relaying backend (phase_of_backend hbackend)
    rw [creations, exits] at hsame ⊢
    dsimp only [HttpProxy.relay]
    rw [htrail, hearlier, hsame]

theorem leave (hcounted : self.Counted) {backend : Backend}
    (hbackend : self.backend = some backend)
    (hcreations : next.creations = self.creations)
    (hearlier : next.earlier = self.earlier) (other : Backend) :
    (next.leave other).Counted := by
  have hsame := hcounted.relaying backend (phase_of_backend hbackend)
  constructor
  · intro _
    have hexits : (next.leave other).exits = self.exits + 1 := by
      rw [exits, exits, HttpProxy.leave, hearlier, List.length_append,
        List.length_singleton]
    exact hcreations.trans (hsame.trans hexits.symm)
  · intro again hphase
    dsimp only [HttpProxy.leave] at hphase
    split_ifs at hphase

theorem handleRequest (hcounted : self.Counted) {backend : Backend}
    (hbackend : self.backend = some backend) (queued : Queued)
    (verdict : Verdict) (world : SendWorld) :
    (self.handleRequest backend queued verdict world).Counted := by
  unfold HttpProxy.handleRequest
  cases verdict with
  | error error => exact hcounted.leave hbackend rfl rfl backend
  | ok result =>
      dsimp only
      split_ifs
      · refine hcounted.relay hbackend ?_ ?_ _
        · rfl
        · rfl
      · cases (backend.send world result.message).1.result with
        | error error =>
            refine hcounted.leave hbackend ?_ ?_ _
            · rfl
            · rfl
        | ok _ =>
            refine hcounted.relay hbackend ?_ ?_ _
            · rfl
            · rfl

theorem handleClosed (hcounted : self.Counted) {backend : Backend}
    (hbackend : self.backend = some backend) (other : Backend) :
    (self.handleClosed other).Counted := by
  unfold HttpProxy.handleClosed
  split_ifs
  · refine hcounted.leave hbackend ?_ ?_ other
    · rw [creations, List.count_append]
      rfl
    · rfl
  · constructor
    · intro hphase
      cases hphase
    · intro _ hphase
      cases hphase

theorem handleReceived (hcounted : self.Counted) {backend : Backend}
    (hbackend : self.backend = some backend) (other : Backend)
    (verdict : Verdict) (received : Received) :
    (self.handleReceived other verdict received).Counted := by
  cases received with
  | blank => exact hcounted.relay hbackend rfl rfl other
  | message given =>
      obtain ⟨hunmarked, hearlier⟩ :=
        @unmarked_handleResponse self given verdict
      exact hcounted.relay hbackend hunmarked.trail hearlier other
  | closed => exact hcounted.handleClosed hbackend other
  | failed error =>
      rw [HttpProxy.handleReceived]
      split_ifs
      · exact hcounted.relay hbackend rfl rfl other
      · exact hcounted.leave hbackend rfl rfl other

theorem createBackend (hcounted : self.Counted)
    (hphase : self.phase = .creating) (outcome : Except String McpClient) :
    (self.createBackend outcome).Counted := by
  have hsame := hcounted.creating hphase
  unfold HttpProxy.createBackend
  cases outcome with
  | ok client =>
      constructor
      · intro hcreating
        cases hcreating
      · intro _ _
        unfold creations at hsame ⊢
        dsimp only [HttpProxy.relay]
        rw [List.count_append, hsame]
        rfl
  | error error =>
      constructor
      · intro hcreating
        cases hcreating
      · intro _ hrelaying
        cases hrelaying

/-- Every way out of the inner loop is one to the next backend, or the end. -/
theorem step {action : Action} (hcounted : self.Counted)
    (hstep : self.step json action = some next) : next.Counted := by
  cases action with
  | post message verdict =>
      cases hstep
      obtain ⟨hunmarked, hphase, hearlier⟩ := @unmarked_handleMcpRequest
        { self with posted := self.posted ++ [message] } message verdict
      exact hcounted.of_same hphase hunmarked.trail hearlier
  | subscribe =>
      cases hstep
      exact hcounted.of_same rfl rfl rfl
  | unsubscribe =>
      cases hstep
      exact hcounted.of_same rfl rfl rfl
  | createBackend outcome =>
      obtain ⟨hphase, rfl⟩ := step_createBackend hstep
      exact hcounted.createBackend hphase outcome
  | backendSends chunk =>
      obtain ⟨before, after, hbefore, _, rfl⟩ := exists_relay_of_onStdout hstep
      exact hcounted.relay hbefore rfl rfl after
  | backendCloses =>
      obtain ⟨before, after, hbefore, _, rfl⟩ := exists_relay_of_onStdout hstep
      exact hcounted.relay hbefore rfl rfl after
  | backendWaits =>
      obtain ⟨before, after, hbefore, _, rfl⟩ := exists_relay_of_onStdout hstep
      exact hcounted.relay hbefore rfl rfl after
  | requestBranch verdict world =>
      obtain ⟨backend, queued, rest, hbackend, _, rfl⟩ :=
        step_requestBranch hstep
      have hsame : Counted { self with requests := rest } :=
        hcounted.of_same rfl rfl rfl
      exact hsame.handleRequest hbackend queued verdict world
  | requestsClose =>
      obtain ⟨backend, hbackend, rfl⟩ := step_requestsClose hstep
      constructor
      · intro hphase
        cases hphase
      · intro _ hphase
        cases hphase
  | backendBranch verdict =>
      obtain ⟨backend, received, after, hbackend, _, rfl⟩ :=
        step_backendBranch hstep
      exact hcounted.handleReceived hbackend after verdict received

end Counted

/-! ## Runs with restarts -/

/-- The restarts are in order, and some are left. -/
structure Restartable (proxy : HttpProxy) : Prop where
  restarts : proxy.Restarts
  counted : proxy.Counted
  autoRestart : proxy.autoRestart = true
  left : proxy.restartCount < maxRestarts

theorem start_restartable (kind : BackendKind) :
    (start true kind).Restartable where
  restarts := by
    refine ⟨Nat.zero_le _, ?_⟩
    intro before restart after hsplit
    cases before <;> cases hsplit
  counted := start_counted true kind
  autoRestart := rfl
  left := Nat.succ_pos 4

theorem handleClosed_trail (hrestartable : self.Restartable)
    (backend : Backend) :
    (self.handleClosed backend).autoRestart = true ∧
      (self.handleClosed backend).restartCount = self.restartCount + 1 ∧
      (self.handleClosed backend).trail =
        self.trail ++ [Mark.announced (self.restartCount + 1)] ∧
      ((self.handleClosed backend).phase = .creating ↔
        self.restartCount + 1 < maxRestarts) := by
  unfold handleClosed
  rw [if_pos ⟨hrestartable.autoRestart, hrestartable.left⟩]
  refine ⟨hrestartable.autoRestart, rfl, rfl, ?_⟩
  dsimp only [leave]
  rw [hrestartable.autoRestart]
  split_ifs with hagain
  · exact ⟨fun _ => hagain.2, fun _ => rfl⟩
  · constructor
    · intro hcreating
      cases hcreating
    · intro hleft
      exact absurd ⟨rfl, hleft⟩ hagain

theorem step_restartable {action : Action} (hrestartable : self.Restartable)
    (hstep : self.step json action = some next)
    (hpaces : self.Paces json action) : next.Restartable := by
  have hnext := hrestartable.counted.step hstep
  obtain ⟨⟨hbounded, htruthful⟩, hcounted, hauto, hleft⟩ := hrestartable
  rcases step_trail hstep with
    ⟨outcome, rfl, hcreating, hsame, hcount, htrail⟩ |
    ⟨verdict, backend, after, rfl, hbackend, hrecv, rfl⟩ |
    ⟨hunmarked, hphase, _, _⟩
  · refine ⟨⟨?_, ?_⟩, hnext, hsame.trans hauto, by omega⟩
    · have hexits : self.creations ≤ maxRestarts :=
        (hcounted.creating hcreating).trans_le hpaces
      unfold creations at hexits ⊢
      rw [htrail, List.count_append]
      exact Nat.succ_le_succ hexits
    · rw [htrail]
      exact htruthful.create
  · obtain ⟨hagain, hexits⟩ := hpaces backend after hbackend hrecv
    obtain ⟨hsame, hcount, htrail, hcreating⟩ :=
      handleClosed_trail ⟨⟨hbounded, htruthful⟩, hcounted, hauto, hleft⟩ after
    have hnumber : self.creations = self.restartCount + 1 := by
      rw [hcounted.relaying backend (phase_of_backend hbackend), hexits]
    refine ⟨⟨?_, ?_⟩, hnext, hsame, by omega⟩
    · unfold creations
      rw [htrail, List.count_append]
      exact hbounded
    · rw [htrail]
      exact htruthful.announce (ne_creating_of_backend hbackend) hnumber
        (hcreating.mpr hagain)
  · refine ⟨⟨?_, ?_⟩, hnext, hunmarked.autoRestart.trans hauto, ?_⟩
    · unfold creations
      rw [hunmarked.trail]
      exact hbounded
    · rw [hunmarked.trail]
      exact htruthful.phaseChange hphase
    · rw [hunmarked.restartCount]
      exact hleft

theorem paces_of_restarts {action : Action} (hrestartable : self.Restartable)
    (hstep : self.step json action = some next) (hnext : next.Restarts) :
    self.Paces json action := by
  rcases step_trail hstep with
    ⟨outcome, rfl, hcreating, _, _, htrail⟩ |
    ⟨verdict, backend, after, rfl, hbackend, hrecv, rfl⟩ |
    ⟨_, _, hcreate, hclosed⟩
  · have hbounded := hnext.bounded
    have hexits := hrestartable.counted.creating hcreating
    unfold creations at hbounded hexits
    rw [htrail, List.count_append, hexits] at hbounded
    exact Nat.le_of_succ_le_succ hbounded
  · intro _ _ _ _
    obtain ⟨_, _, htrail, hcreating⟩ := handleClosed_trail hrestartable after
    have htruthful := hnext.truthful
    rw [htrail] at htruthful
    obtain ⟨hnumber, hphase⟩ := htruthful.of_announced
    have hexits := hrestartable.counted.relaying backend
      (phase_of_backend hbackend)
    exact ⟨hcreating.mp hphase, Nat.succ_injective (hexits.symm.trans hnumber)⟩
  · cases action with
    | createBackend outcome => exact absurd rfl (hcreate outcome)
    | backendBranch verdict =>
        intro backend after hbackend hrecv
        exact absurd hrecv (hclosed verdict rfl backend after hbackend)
    | _ => trivial

/-- The restarts of a run are bounded and truthfully announced just when every
step of it keeps to the condition. -/
theorem throughout_restarts_iff (json : SerdeJson) (kind : BackendKind)
    (trace : List Action) :
    (machine json).Throughout Restarts (start true kind) trace ↔
      (machine json).Along (Paces json) (start true kind) trace := by
  refine StepMachine.throughout_iff_along ?_
    (fun found (hrestartable : Restartable found) => hrestartable.restarts) ?_
    (start_restartable kind) trace
  · intro before action after hrestartable hstep hpaces
    exact step_restartable hrestartable hstep hpaces
  · intro before action after hrestartable hstep hnext
    exact paces_of_restarts hrestartable hstep hnext

/-- The backend is created and closes its connection at once. -/
def closingAtOnce : List Action :=
  [.createBackend (.ok readyClient), .backendCloses,
    .backendBranch (.error "")]

/-- After the fifth time a fifth restart is announced, and the task ends. -/
theorem fifthClose_not_restarts :
    ¬ (machine pingJson).Throughout Restarts
      (start true (.process "server"))
      (List.replicate 5 closingAtOnce).flatten := by
  intro hthrough
  obtain ⟨_, htruthful⟩ := hthrough _ (List.prefix_refl _) _ rfl
  obtain ⟨_, hfollowed⟩ := htruthful
    [.created, .announced 1, .created, .announced 2, .created, .announced 3,
      .created, .announced 4, .created] 5 [] rfl
  rcases hfollowed with hcreated | ⟨_, hphase⟩
  · cases hcreated
  · cases hphase

end HttpProxy
end Tui
end Acdp
