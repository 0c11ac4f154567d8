import Acdp.LlmPredictions
import Acdp.StepMachine

/-!
# Accuracy of predictions and of code generation

An attempt to generate code is entered as a prediction under a label, and
resolved with the same label whether it succeeded or not, so a failed attempt
counts as correct.  The metrics of a window count what was right exactly when
the window can be represented and holds a resolved prediction, and the failed
attempts that count as correct are as many as the successful ones that were
resolved as something else later.
-/

namespace Acdp
namespace Llm

open Auth (DateTime)
open Json

def codegenLabel (success : Bool) : String :=
  if success then "codegen_success" else "codegen_failure"

/-- `attempts` says of the rows of code generation whether it succeeded, and
`unresolved` lists the attempts that have been entered and not yet
resolved. -/
structure PredictionLog where
  database : PredictionsDatabase
  attempts : List (String × Bool)
  unresolved : List (String × Bool)

/-- An attempt is two actions of the database. -/
inductive LogAction where
  | recordPrediction (id contextHash predictedTool : String)
      (confidence : Float) (predictionData : OrderedValue) (now : DateTime)
  | updatePredictionResult (predictionId actualTool : String)
  | recordCodegenAttempt (id contextHash : String) (success : Bool)
      (metadata : OrderedValue) (now : DateTime)
  | resolveCodegenAttempt (index : ℕ)

namespace PredictionLog

def new : PredictionLog := ⟨.empty, [], []⟩

variable (self : PredictionLog)

/-- Where the row cannot be entered, the error is returned to the caller. -/
def recordPrediction (id contextHash predictedTool : String)
    (confidence : Float) (predictionData : OrderedValue) (now : DateTime) :
    PredictionLog :=
  match self.database.recordPrediction id contextHash predictedTool confidence
      predictionData now with
  | none => self
  | some database => { self with database := database }

def updatePredictionResult (predictionId actualTool : String) :
    PredictionLog :=
  { self with
    database := self.database.updatePredictionResult predictionId actualTool }

def recordCodegenAttempt (id contextHash : String) (success : Bool)
    (metadata : OrderedValue) (now : DateTime) : PredictionLog :=
  match self.database.recordPrediction id contextHash (codegenLabel success)
      (if success then 1.0 else 0.0) metadata now with
  | none => self
  | some database =>
      { database := database
        attempts := (id, success) :: self.attempts
        unresolved := (id, success) :: self.unresolved }

def resolveCodegenAttempt (index : ℕ) : Option PredictionLog :=
  self.unresolved[index]?.map (fun attempt =>
    { self.updatePredictionResult attempt.1 (codegenLabel attempt.2) with
      unresolved := self.unresolved.eraseIdx index })

def step : LogAction → Option PredictionLog
  | .recordPrediction id contextHash predictedTool confidence predictionData
      now =>
      some (self.recordPrediction id contextHash predictedTool confidence
        predictionData now)
  | .updatePredictionResult predictionId actualTool =>
      some (self.updatePredictionResult predictionId actualTool)
  | .recordCodegenAttempt id contextHash success metadata now =>
      some (self.recordCodegenAttempt id contextHash success metadata now)
  | .resolveCodegenAttempt index => self.resolveCodegenAttempt index

def machine : StepMachine PredictionLog LogAction := ⟨step⟩

/-! ## What the metrics should say -/

/-- An attempt was right if it succeeded, and any other prediction if it
predicted the tool that was used. -/
def wasRight (record : PredictionRecord) : Bool :=
  match self.attempts.lookup record.id with
  | some success => success
  | none => record.actualTool == some record.predictedTool

/-- The metrics of the window count its resolved predictions and those of them
that were right. -/
def MetricsAccurate (average : List Float → Float) (now : DateTime)
    (timeWindowHours : Int64) : Prop :=
  ∃ since metrics,
    subHours? now timeWindowHours = some since ∧
    self.database.getAccuracyMetrics average now timeWindowHours =
      .ok metrics ∧
    metrics.totalPredictions = (self.database.resolvedSince since).length ∧
    metrics.correctPredictions =
      (self.database.resolvedSince since).countP self.wasRight ∧
    metrics.accuracy = PredictionsDatabase.accuracyOf
      ((self.database.resolvedSince since).countP self.wasRight)
      (self.database.resolvedSince since).length

/-- A failed attempt that was resolved with its own label. -/
def failedAsPredicted (record : PredictionRecord) : Bool :=
  self.attempts.lookup record.id == some false &&
    record.actualTool == some record.predictedTool

/-- A successful attempt that was resolved with another label. -/
def succeededOtherwise (record : PredictionRecord) : Bool :=
  self.attempts.lookup record.id == some true &&
    record.actualTool != some record.predictedTool

/-- There is something to count, and the attempts that are counted wrongly
make up for each other; without a failed attempt there are none. -/
def Countable (now : DateTime) (timeWindowHours : Int64) : Prop :=
  ∃ since, subHours? now timeWindowHours = some since ∧
    self.database.resolvedSince since ≠ [] ∧
    (self.database.resolvedSince since).countP self.failedAsPredicted =
      (self.database.resolvedSince since).countP self.succeededOtherwise

/-! ## The marks of resolved predictions -/

section Steps

variable {self} {next : PredictionLog}

/-- A step enters a row, resolves the rows with an identifier, or is refused
by the table. -/
theorem step_records {action : LogAction}
    (hnext : self.step action = some next) :
    next = self ∨
    (∃ record, record.actualTool = none ∧ record.correct = none ∧
      next.database.records = self.database.records ++ [record]) ∨
    ∃ predictionId actualTool, next.database =
      self.database.updatePredictionResult predictionId actualTool := by
  cases action with
  | recordPrediction id contextHash predictedTool confidence predictionData
      now =>
      obtain rfl := Option.some.inj hnext
      unfold recordPrediction
      split
      · exact Or.inl rfl
      · next database hentered =>
          obtain ⟨stored, hinsert⟩ :=
            PredictionsDatabase.insert_of_recordPrediction hentered
          exact Or.inr (Or.inl ⟨_, rfl, rfl,
            (PredictionsDatabase.insert_eq_some_iff.mp hinsert).2⟩)
  | updatePredictionResult predictionId actualTool =>
      obtain rfl := Option.some.inj hnext
      exact Or.inr (Or.inr ⟨predictionId, actualTool, rfl⟩)
  | recordCodegenAttempt id contextHash success metadata now =>
      obtain rfl := Option.some.inj hnext
      unfold recordCodegenAttempt
      split
      · exact Or.inl rfl
      · next database hentered =>
          obtain ⟨stored, hinsert⟩ :=
            PredictionsDatabase.insert_of_recordPrediction hentered
          exact Or.inr (Or.inl ⟨_, rfl, rfl,
            (PredictionsDatabase.insert_eq_some_iff.mp hinsert).2⟩)
  | resolveCodegenAttempt index =>
      obtain ⟨attempt, _, rfl⟩ := Option.map_eq_some_iff.mp hnext
      exact Or.inr (Or.inr ⟨attempt.1, codegenLabel attempt.2, rfl⟩)

/-- A row is marked as correct when it predicted the tool that was used. -/
def Marked (record : PredictionRecord) : Prop :=
  record.correct =
    record.actualTool.map (fun actual => record.predictedTool == actual)

theorem marked_of_step {action : LogAction}
    (hmarked : ∀ record ∈ self.database.records, Marked record)
    (hnext : self.step action = some next) :
    ∀ record ∈ next.database.records, Marked record := by
  obtain rfl | ⟨entered, hactual, hcorrect, hrecords⟩ |
    ⟨predictionId, actualTool, hdatabase⟩ := step_records hnext
  · exact hmarked
  · intro record hrecord
    rw [hrecords, List.mem_append, List.mem_singleton] at hrecord
    obtain hold | rfl := hrecord
    · exact hmarked record hold
    · rw [Marked, hactual, hcorrect]
      rfl
  · intro record hrecord
    rw [hdatabase, PredictionsDatabase.updatePredictionResult_records]
      at hrecord
    obtain ⟨before, hbefore, rfl⟩ := List.mem_map.mp hrecord
    split_ifs
    · rfl
    · exact hmarked before hbefore

theorem marked_of_reaches (hreached : machine.Reaches new self) :
    ∀ record ∈ self.database.records, Marked record := by
  obtain ⟨trace, hrun⟩ := hreached
  have hnew : ∀ record ∈ new.database.records, Marked record := by
    intro record hrecord
    cases hrecord
  have hkeep : ∀ before action after,
      (∀ record ∈ before.database.records, Marked record) →
      machine.step before action = some after →
      ∀ record ∈ after.database.records, Marked record := by
    intro before action after hmarked hstep
    exact marked_of_step hmarked hstep
  exact StepMachine.run_invariant hkeep hnew hrun

end Steps

/-! ## What the query counts -/

/-- A sum of ones and zeros is a count. -/
theorem sum_indicator {α : Type*} (items : List α) (counts : α → Bool) :
    (items.map (fun item => if counts item then 1 else 0)).sum =
      items.countP counts := by
  induction items with
  | nil => rfl
  | cons item rest ih =>
      rw [List.map_cons, List.sum_cons, ih, List.countP_cons]
      omega

/-- Two counts over the same items differ by what one counts and the other
does not. -/
theorem countP_add_countP_sdiff {α : Type*} (items : List α)
    (left right : α → Bool) :
    items.countP left + items.countP (fun item => right item && !left item) =
      items.countP right +
        items.countP (fun item => left item && !right item) := by
  induction items with
  | nil => rfl
  | cons item rest ih =>
      simp only [List.countP_cons]
      cases left item <;> cases right item <;> simp <;> omega

section Counts

variable {self}

def asPredicted (record : PredictionRecord) : Bool :=
  record.actualTool == some record.predictedTool

theorem Marked.correct_iff {record : PredictionRecord}
    (hmarked : Marked record) :
    record.correct = some true ↔ asPredicted record = true := by
  unfold asPredicted
  rw [hmarked]
  cases record.actualTool with
  | none => simp
  | some actual =>
      rw [Option.map_some, Option.some.injEq, beq_iff_eq, beq_iff_eq,
        Option.some.injEq]
      exact eq_comm

theorem sum_correct_eq
    (hmarked : ∀ record ∈ self.database.records, Marked record)
    (since : DateTime) :
    ((self.database.resolvedSince since).map
        (fun record => if record.correct = some true then 1 else 0)).sum =
      (self.database.resolvedSince since).countP asPredicted := by
  rw [← sum_indicator]
  congr 1
  apply List.map_congr_left
  intro record hrecord
  have hrow := List.mem_filter.mp hrecord
  simp only [(hmarked record hrow.1).correct_iff]

/-- What was right and what counts as correct differ by attempts only. -/
theorem countP_asPredicted (rows : List PredictionRecord) :
    rows.countP asPredicted + rows.countP self.succeededOtherwise =
      rows.countP self.wasRight + rows.countP self.failedAsPredicted := by
  have hotherwise : self.succeededOtherwise =
      fun record => self.wasRight record && !asPredicted record := by
    funext record
    unfold succeededOtherwise wasRight asPredicted
    cases self.attempts.lookup record.id with
    | none => simp
    | some success => cases success <;> simp [bne]
  have hpredicted : self.failedAsPredicted =
      fun record => asPredicted record && !self.wasRight record := by
    funext record
    unfold failedAsPredicted wasRight asPredicted
    cases self.attempts.lookup record.id with
    | none => simp
    | some success => cases success <;> simp
  rw [hotherwise, hpredicted]
  exact countP_add_countP_sdiff rows asPredicted self.wasRight

end Counts

/-- The metrics mean what they say exactly when there is something to count
and the attempts that are counted wrongly make up for each other. -/
theorem metricsAccurate_iff (average : List Float → Float)
    {log : PredictionLog} (hreached : machine.Reaches new log)
    (now : DateTime) (timeWindowHours : Int64) :
    log.MetricsAccurate average now timeWindowHours ↔
      log.Countable now timeWindowHours := by
  have hmarked := marked_of_reaches hreached
  constructor
  · rintro ⟨since, metrics, hsince, hmetrics, _, hright, _⟩
    by_cases hrows : log.database.resolvedSince since = []
    · rw [PredictionsDatabase.getAccuracyMetrics_of_empty hsince hrows]
        at hmetrics
      cases hmetrics
    · obtain ⟨found, hfound, _, hcorrect, _⟩ :=
        @PredictionsDatabase.getAccuracyMetrics_eq_ok average log.database _ _ _
          hsince hrows
      obtain rfl := Except.ok.inj (hfound.symm.trans hmetrics)
      refine ⟨since, hsince, hrows, ?_⟩
      rw [hcorrect, sum_correct_eq hmarked] at hright
      have hdiffer :=
        @countP_asPredicted log (log.database.resolvedSince since)
      omega
  · rintro ⟨since, hsince, hrows, heven⟩
    obtain ⟨metrics, hmetrics, htotal, hcorrect, haccuracy⟩ :=
      @PredictionsDatabase.getAccuracyMetrics_eq_ok average log.database _ _ _
        hsince hrows
    rw [sum_correct_eq hmarked] at hcorrect
    have hdiffer :=
      @countP_asPredicted log (log.database.resolvedSince since)
    have hright : metrics.correctPredictions =
        (log.database.resolvedSince since).countP log.wasRight := by
      omega
    refine ⟨since, metrics, hsince, hmetrics, htotal, hright, ?_⟩
    rw [haccuracy, hright, htotal]

/-! ## Attempts that only their own call resolves -/

/-- The action does not resolve the row of an attempt for another caller. -/
def LeavesAttempts (self : PredictionLog) : LogAction → Prop
  | .updatePredictionResult predictionId _ =>
      self.attempts.lookup predictionId = none
  | _ => True

/-- The rows of attempts have their own labels. -/
structure Labelled (log : PredictionLog) : Prop where
  entered : ∀ attempt ∈ log.attempts,
    attempt.1 ∈ log.database.records.map PredictionRecord.id
  unresolved : ∀ attempt ∈ log.unresolved,
    log.attempts.lookup attempt.1 = some attempt.2
  labels : ∀ record ∈ log.database.records, ∀ success,
    log.attempts.lookup record.id = some success →
      record.predictedTool = codegenLabel success ∧
        ∀ actual ∈ record.actualTool, actual = codegenLabel success

section Labels

variable {self} {next : PredictionLog}

theorem new_labelled : new.Labelled where
  entered := by simp [new]
  unresolved := by simp [new]
  labels := by simp [new, PredictionsDatabase.empty]

theorem Labelled.mem_of_lookup (hlabelled : self.Labelled) {id : String}
    {success : Bool} (hlookup : self.attempts.lookup id = some success) :
    id ∈ self.database.records.map PredictionRecord.id := by
  obtain ⟨before, after, hattempts, _⟩ := List.lookup_eq_some_iff.mp hlookup
  exact hlabelled.entered (id, success) (by simp [hattempts])

theorem Labelled.recordPrediction (hlabelled : self.Labelled)
    (id contextHash predictedTool : String) (confidence : Float)
    (predictionData : OrderedValue) (now : DateTime) :
    (self.recordPrediction id contextHash predictedTool confidence
      predictionData now).Labelled := by
  unfold PredictionLog.recordPrediction
  split
  · exact hlabelled
  · next database hentered =>
      obtain ⟨stored, hinsert⟩ :=
        PredictionsDatabase.insert_of_recordPrediction hentered
      obtain ⟨hkey, hrecords⟩ :=
        PredictionsDatabase.insert_eq_some_iff.mp hinsert
      refine ⟨?_, hlabelled.unresolved, ?_⟩
      · intro attempt hattempt
        rw [hrecords, List.map_append]
        exact List.mem_append_left _ (hlabelled.entered attempt hattempt)
      · intro record hrecord success hlookup
        rw [hrecords, List.mem_append, List.mem_singleton] at hrecord
        obtain hold | rfl := hrecord
        · exact hlabelled.labels record hold success hlookup
        · exact absurd (hlabelled.mem_of_lookup hlookup) hkey

theorem Labelled.recordCodegenAttempt (hlabelled : self.Labelled)
    (id contextHash : String) (success : Bool) (metadata : OrderedValue)
    (now : DateTime) :
    (self.recordCodegenAttempt id contextHash success metadata
      now).Labelled := by
  unfold PredictionLog.recordCodegenAttempt
  split
  · exact hlabelled
  · next database hentered =>
      obtain ⟨stored, hinsert⟩ :=
        PredictionsDatabase.insert_of_recordPrediction hentered
      obtain ⟨hkey, hrecords⟩ :=
        PredictionsDatabase.insert_eq_some_iff.mp hinsert
      have hother : ∀ other ∈ self.database.records.map PredictionRecord.id,
          ((id, success) :: self.attempts).lookup other =
            self.attempts.lookup other := by
        intro other hmem
        have hne : other ≠ id := fun hid => hkey (hid ▸ hmem)
        rw [List.lookup_cons, beq_eq_false_iff_ne.mpr hne]
      refine ⟨?_, ?_, ?_⟩
      · intro attempt hattempt
        rw [hrecords, List.map_append]
        obtain rfl | hold := List.mem_cons.mp hattempt
        · simp
        · exact List.mem_append_left _ (hlabelled.entered attempt hold)
      · intro attempt hattempt
        obtain rfl | hold := List.mem_cons.mp hattempt
        · simp
        · have hlookup := hlabelled.unresolved attempt hold
          rw [hother _ (hlabelled.mem_of_lookup hlookup)]
          exact hlookup
      · intro record hrecord found hlookup
        rw [hrecords, List.mem_append, List.mem_singleton] at hrecord
        obtain hold | rfl := hrecord
        · rw [hother _ (List.mem_map_of_mem hold)] at hlookup
          exact hlabelled.labels record hold found hlookup
        · simp at hlookup
          subst hlookup
          exact ⟨rfl, by simp⟩

/-- Resolving a row leaves the labels right when it is not an attempt's, or
gets the attempt's label. -/
theorem Labelled.updatePredictionResult (hlabelled : self.Labelled)
    {predictionId actualTool : String}
    (hown : ∀ success, self.attempts.lookup predictionId = some success →
      actualTool = codegenLabel success) :
    (self.updatePredictionResult predictionId actualTool).Labelled := by
  refine ⟨?_, hlabelled.unresolved, ?_⟩
  · intro attempt hattempt
    have hentered := hlabelled.entered attempt hattempt
    obtain ⟨record, hrecord, hid⟩ := List.mem_map.mp hentered
    change _ ∈ List.map _ (self.database.updatePredictionResult _ _).records
    rw [PredictionsDatabase.updatePredictionResult_records, List.map_map]
    refine List.mem_map.mpr ⟨record, hrecord, ?_⟩
    rw [← hid, Function.comp_apply]
    split_ifs <;> rfl
  · intro record hrecord success hlookup
    change record ∈ (self.database.updatePredictionResult _ _).records
      at hrecord
    rw [PredictionsDatabase.updatePredictionResult_records] at hrecord
    obtain ⟨before, hbefore, rfl⟩ := List.mem_map.mp hrecord
    split_ifs at hlookup ⊢ with hid
    · have hlabels := hlabelled.labels before hbefore success hlookup
      refine ⟨hlabels.1, ?_⟩
      intro actual hactual
      rw [← Option.some.inj hactual]
      exact hown success (hid ▸ hlookup)
    · exact hlabelled.labels before hbefore success hlookup

theorem Labelled.afterStep (hlabelled : self.Labelled) {action : LogAction}
    (hnext : self.step action = some next)
    (hleaves : self.LeavesAttempts action) : next.Labelled := by
  cases action with
  | recordPrediction id contextHash predictedTool confidence predictionData
      now =>
      obtain rfl := Option.some.inj hnext
      exact hlabelled.recordPrediction ..
  | updatePredictionResult predictionId actualTool =>
      obtain rfl := Option.some.inj hnext
      apply hlabelled.updatePredictionResult
      intro success hlookup
      rw [LeavesAttempts, hlookup] at hleaves
      cases hleaves
  | recordCodegenAttempt id contextHash success metadata now =>
      obtain rfl := Option.some.inj hnext
      exact hlabelled.recordCodegenAttempt ..
  | resolveCodegenAttempt index =>
      obtain ⟨attempt, hattempt, rfl⟩ := Option.map_eq_some_iff.mp hnext
      have hmem := List.mem_of_getElem? hattempt
      have hlookup := hlabelled.unresolved attempt hmem
      have hafter := @Labelled.updatePredictionResult _ hlabelled attempt.1
        (codegenLabel attempt.2) (by
          intro success hsuccess
          rw [hlookup, Option.some.injEq] at hsuccess
          rw [hsuccess])
      refine ⟨hafter.entered, ?_, hafter.labels⟩
      intro other hother
      exact hlabelled.unresolved other (List.mem_of_mem_eraseIdx hother)

/-- Where nobody else resolves an attempt, a window counts what was right
exactly when it holds a resolved prediction and no failed attempt. -/
theorem Labelled.countable_iff (hlabelled : self.Labelled) (now : DateTime)
    (timeWindowHours : Int64) :
    self.Countable now timeWindowHours ↔
      ∃ since, subHours? now timeWindowHours = some since ∧
        self.database.resolvedSince since ≠ [] ∧
        ∀ record ∈ self.database.resolvedSince since,
          self.attempts.lookup record.id ≠ some false := by
  have hresolved : ∀ since, ∀ record ∈ self.database.resolvedSince since,
      ∀ success, self.attempts.lookup record.id = some success →
        record.actualTool = some record.predictedTool := by
    intro since record hrecord success hlookup
    have hrow := List.mem_filter.mp hrecord
    have hlabels := hlabelled.labels record hrow.1 success hlookup
    cases hactual : record.actualTool with
    | none => simp [hactual] at hrow
    | some actual => rw [hlabels.1, hlabels.2 actual hactual]
  have hotherwise : ∀ since,
      (self.database.resolvedSince since).countP self.succeededOtherwise =
        0 := by
    intro since
    rw [List.countP_eq_zero]
    intro record hrecord
    unfold succeededOtherwise
    cases hlookup : self.attempts.lookup record.id with
    | none => simp
    | some success => simp [hresolved since record hrecord success hlookup]
  unfold Countable
  simp only [hotherwise, List.countP_eq_zero]
  refine exists_congr fun since => and_congr_right fun _ =>
    and_congr_right fun _ => forall₂_congr fun record hrecord => ?_
  unfold failedAsPredicted
  rw [not_iff_not]
  constructor
  · intro hboth
    simpa using (Bool.and_eq_true_iff.mp hboth).1
  · intro hlookup
    simp [hlookup, hresolved since record hrecord false hlookup]

end Labels

/-- In a run in which nobody else resolves an attempt the rows of attempts
have their own labels. -/
theorem throughout_labelled {trace : List LogAction}
    (hleaves : machine.Along LeavesAttempts new trace) :
    machine.Throughout Labelled new trace := by
  apply StepMachine.throughout_of_along ?_ (fun _ hlabelled => hlabelled)
    new_labelled hleaves
  intro before action after hlabelled hstep hown
  exact hlabelled.afterStep hstep hown

/-! ## Windows that are counted as they should be, and others -/

def resolvedTrace : List LogAction :=
  [.recordPrediction "a" "0" "tools/list" 0.8 ⟨.null, .null⟩ Auth.smallInstant,
    .updatePredictionResult "a" "tools/list"]

theorem metricsAccurate_resolvedTrace :
    ∃ log, machine.run new resolvedTrace = some log ∧
      log.MetricsAccurate (fun _ => 0.8) Auth.smallInstant 24 :=
  ⟨_, rfl, (metricsAccurate_iff (fun _ => 0.8) ⟨resolvedTrace, rfl⟩
    Auth.smallInstant 24).mpr ⟨_, rfl, by decide, by decide⟩⟩

def failedTrace : List LogAction :=
  [.recordCodegenAttempt "a" "0" false ⟨.null, .null⟩ Auth.smallInstant,
    .resolveCodegenAttempt 0]

/-- With nothing to count there are no metrics, and a failed attempt counts as
correct. -/
theorem failedTrace_not_metricsAccurate :
    (¬ new.MetricsAccurate (fun _ => 0.0) Auth.smallInstant 24) ∧
      ∃ log, machine.run new failedTrace = some log ∧
        ¬ log.MetricsAccurate (fun _ => 0.0) Auth.smallInstant 24 := by
  refine ⟨?_, _, rfl, ?_⟩
  · rintro ⟨since, metrics, hsince, hmetrics, _⟩
    rw [PredictionsDatabase.getAccuracyMetrics_of_empty hsince rfl] at hmetrics
    cases hmetrics
  · rintro ⟨since, metrics, hsince, hmetrics, _, hright, _⟩
    obtain rfl := Option.some.inj hsince
    obtain rfl := Except.ok.inj hmetrics
    exact absurd hright (by decide)

end PredictionLog

end Llm
end Acdp
