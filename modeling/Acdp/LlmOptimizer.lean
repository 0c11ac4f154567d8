import Acdp.JsonReadBack
import Acdp.ListPositions
import Acdp.LlmPredictions
import Acdp.StepMachine

/-!
# Optimization of prompts

A call looks at the predictions of a tool, at the time of its last
optimization, at the last prompt that was recorded, records the next one, and
sets the time.  Between any two of these other calls may run.  A call that
has gone ahead is under way until it returns.  As long as each such call is
the only one for its tool and the clock does not go back under it, a tool is
optimized at most once in a cooldown, and the recorded iterations follow one
another.
-/

namespace Acdp
namespace Llm

open Json Positions

/-! ## Prompts -/

/-- Times are those of the system clock, in nanoseconds. -/
structure GepaOptimizationRecord where
  id : String
  moduleName : String
  iteration : ℕ
  originalPrompt : String
  optimizedPrompt : String
  expectedImprovement : Float
  actualImprovement : Option Float
  reasoning : Option String
  timestamp : ℤ

structure OptimizationIteration where
  iteration : ℕ
  originalPrompt : String
  optimizedPrompt : String
  expectedImprovement : Float
  actualImprovement : Option Float
  reasoning : String
  timestamp : ℤ

namespace GEPAOptimizer

def minWindowSize : ℕ := 20

def triggerAccuracy : Float := 0.85

/-- Fifteen minutes. -/
def cooldown : ℤ := 15 * 60 * 1000000000

def computeAccuracy (records : List PredictionRecord) : Option Float :=
  let counted := records.filterMap PredictionRecord.correct
  if counted.length = 0 then none
  else
    some (Float.ofNat (counted.countP (fun correct => correct)) /
      Float.ofNat counted.length)

def collectFailurePatterns (records : List PredictionRecord) : List String :=
  (records.filter (fun record => record.correct = some false)).filterMap
    (fun record => record.predictionData.val.getStr "reasoning")

/-- The predictions of the tool, the latest first, in two halves. -/
def recentSlice (history : List PredictionRecord) : List PredictionRecord :=
  history.take minWindowSize

def previousSlice (history : List PredictionRecord) : List PredictionRecord :=
  (history.drop minWindowSize).take minWindowSize

/-- The tool is accurate enough as it is. -/
def accurateEnough (history : List PredictionRecord) : Bool :=
  (computeAccuracy (recentSlice history)).any (fun accuracy =>
    triggerAccuracy ≤ accuracy)

def baselinePrompt (moduleName : String)
    (lastRecord : Option GepaOptimizationRecord) : String :=
  lastRecord.elim ("Default prompt for " ++ moduleName)
    GepaOptimizationRecord.optimizedPrompt

def nextIteration (lastRecord : Option GepaOptimizationRecord) : ℕ :=
  lastRecord.elim 1 (fun record => record.iteration + 1)

/-! `formatTenths` writes a number with one digit after the point. -/

section Prompts

variable (formatTenths : Float → String)

def guidance (failures : List String) : String :=
  if failures.isEmpty then
    "- Emphasize validating MCP arguments and prefer deterministic routing " ++
      "rules.\n"
  else
    String.join ((failures.take 5).map (fun failure =>
      "- Address failure: " ++ failure ++ "\n"))

def accuracyGoal (recentAccuracy : Option Float) : String :=
  recentAccuracy.elim "" (fun accuracy =>
    "- Current accuracy " ++ formatTenths (accuracy * 100.0) ++
      "%; aim to exceed " ++
      formatTenths (min (accuracy + 0.1) 0.95 * 100.0) ++ "%.\n")

def synthesizePrompt (moduleName baselinePrompt : String)
    (failures : List String) (recentAccuracy : Option Float) : String :=
  "### Optimized prompt for " ++ moduleName ++ "\n" ++ baselinePrompt ++
    "\n\nGuidance:\n" ++ guidance failures ++
    accuracyGoal formatTenths recentAccuracy

def reasoningText (recentAccuracy : Option Float) (failures : List String) :
    String :=
  "Recent accuracy " ++ formatTenths (recentAccuracy.getD 0.0 * 100.0) ++
    "% with " ++ toString failures.length ++
    " tracked failures. Updated prompt emphasizes remediation for the most " ++
    "common mistakes."

def expectedImprovement (recentAccuracy : Option Float) : Float :=
  recentAccuracy.elim 0.1 (fun accuracy => min (max (1.0 - accuracy) 0.0) 0.5)

def actualImprovement (recentAccuracy previousAccuracy : Option Float) :
    Option Float :=
  match recentAccuracy, previousAccuracy with
  | some current, some previous => some (current - previous)
  | _, _ => none

/-- The iteration that follows the last record. -/
def composeIteration (moduleName : String) (history : List PredictionRecord)
    (lastRecord : Option GepaOptimizationRecord) (now : ℤ) :
    OptimizationIteration :=
  let recentAccuracy := computeAccuracy (recentSlice history)
  let failures := collectFailurePatterns (recentSlice history)
  { iteration := nextIteration lastRecord
    originalPrompt := baselinePrompt moduleName lastRecord
    optimizedPrompt := synthesizePrompt formatTenths moduleName
      (baselinePrompt moduleName lastRecord) failures recentAccuracy
    expectedImprovement := expectedImprovement recentAccuracy
    actualImprovement := actualImprovement recentAccuracy
      (computeAccuracy (previousSlice history))
    reasoning := reasoningText formatTenths recentAccuracy failures
    timestamp := now }

end Prompts

def recordOf (id moduleName : String) (iteration : OptimizationIteration) :
    GepaOptimizationRecord where
  id := id
  moduleName := moduleName
  iteration := iteration.iteration
  originalPrompt := iteration.originalPrompt
  optimizedPrompt := iteration.optimizedPrompt
  expectedImprovement := iteration.expectedImprovement
  actualImprovement := iteration.actualImprovement
  reasoning := some iteration.reasoning
  timestamp := iteration.timestamp

/-! ## Calls -/

/-- Where a call waits: for the predictions, for the lock, for the last
record, for its turn to go on with it, for the iteration to be stored, or for
the lock again. -/
inductive Stage where
  | fetching
  | checking (history : List PredictionRecord)
  | reading (history : List PredictionRecord)
  | composing (history : List PredictionRecord)
      (lastRecord : Option GepaOptimizationRecord)
  | recording (iteration : OptimizationIteration)
  | finishing (iteration : OptimizationIteration)
  | returned (result : Option OptimizationIteration)

/-- The call has gone ahead and has not returned. -/
def Stage.optimizing : Stage → Bool
  | .reading _ => true
  | .composing _ _ => true
  | .recording _ => true
  | .finishing _ => true
  | _ => false

structure Call where
  moduleName : String
  stage : Stage

structure Optimization where
  moduleName : String
  time : ℤ

/-- `optimizations` lists the calls that returned an iteration, with the time
of their return. -/
structure Optimizer where
  now : ℤ
  recentRuns : String → Option ℤ
  records : List GepaOptimizationRecord
  calls : List Call
  optimizations : List Optimization

/-- What goes on with a call: what the database answers, whether it fails, and
its own steps. -/
inductive CallAction where
  | fetched (history : List PredictionRecord)
  | fail
  | check
  | read (choice : ℕ)
  | compose
  | record (id : String) (stored : Bool)
  | finish

inductive Action where
  | tick (now : ℤ)
  | start (moduleName : String)
  | call (index : ℕ) (action : CallAction)

namespace Optimizer

def new (now : ℤ) : Optimizer where
  now := now
  recentRuns := fun _ => none
  records := []
  calls := []
  optimizations := []

section Operations

variable (self : Optimizer)

def recordsOf (moduleName : String) : List GepaOptimizationRecord :=
  self.records.filter (fun record => record.moduleName = moduleName)

def cooling (moduleName : String) : Bool :=
  (self.recentRuns moduleName).any (fun lastRun =>
    self.now - lastRun < cooldown)

def goesAhead (moduleName : String) (history : List PredictionRecord) : Bool :=
  !self.cooling moduleName && !accurateEnough history

/-- `ORDER BY timestamp DESC LIMIT 1`: which of several latest records is
found is the choice of the database. -/
def latest (moduleName : String) (choice : ℕ) :
    Option (Option GepaOptimizationRecord) :=
  match (self.recordsOf moduleName)[choice]? with
  | some record =>
      if ∀ other ∈ self.recordsOf moduleName,
          other.timestamp ≤ record.timestamp then some (some record)
      else none
  | none => if (self.recordsOf moduleName).isEmpty then some none else none

def move (index : ℕ) (call : Call) (stage : Stage) : Optimizer :=
  { self with calls := self.calls.set index ⟨call.moduleName, stage⟩ }

/-- Where the iteration cannot be stored, the call goes on all the same. -/
def record (index : ℕ) (call : Call) (iteration : OptimizationIteration)
    (id : String) (stored : Bool) : Optimizer :=
  { self.move index call (.finishing iteration) with
    records :=
      if stored then
        self.records ++ [recordOf id call.moduleName iteration]
      else self.records }

def finish (index : ℕ) (call : Call) (iteration : OptimizationIteration) :
    Optimizer :=
  { self.move index call (.returned (some iteration)) with
    recentRuns :=
      Function.update self.recentRuns call.moduleName (some self.now)
    optimizations := self.optimizations ++ [⟨call.moduleName, self.now⟩] }

variable (formatTenths : Float → String)

def advance (index : ℕ) (call : Call) (action : CallAction) :
    Option Optimizer :=
  match action, call.stage with
  | .fetched history, .fetching =>
      some (self.move index call
        (if history.length < minWindowSize * 2 then .returned none
        else .checking history))
  | .fail, .fetching => some (self.move index call (.returned none))
  | .fail, .reading _ => some (self.move index call (.returned none))
  | .check, .checking history =>
      some (self.move index call
        (if self.goesAhead call.moduleName history then .reading history
        else .returned none))
  | .read choice, .reading history =>
      (self.latest call.moduleName choice).map (fun lastRecord =>
        self.move index call (.composing history lastRecord))
  | .compose, .composing history lastRecord =>
      some (self.move index call (.recording
        (composeIteration formatTenths call.moduleName history lastRecord
          self.now)))
  | .record id stored, .recording iteration =>
      some (self.record index call iteration id stored)
  | .finish, .finishing iteration => some (self.finish index call iteration)
  | _, _ => none

def step : Action → Option Optimizer
  | .tick now => some { self with now := now }
  | .start moduleName =>
      some { self with calls := self.calls ++ [⟨moduleName, .fetching⟩] }
  | .call index action =>
      self.calls[index]?.bind (fun call =>
        self.advance formatTenths index call action)

end Operations

def machine (formatTenths : Float → String) : StepMachine Optimizer Action :=
  ⟨fun optimizer => optimizer.step formatTenths⟩

/-! ## What should hold of the optimizations -/

/-- The records of a tool: each has the next number and is built on the prompt
of the one before. -/
structure Consecutive (moduleName : String)
    (records : List GepaOptimizationRecord) : Prop where
  numbered : ∀ index record, records[index]? = some record →
    record.iteration = index + 1
  built : ∀ index record, records[index]? = some record →
    record.originalPrompt =
      baselinePrompt moduleName (records.take index).getLast?

/-- Two optimizations of a tool are a cooldown apart, and the iterations of
each tool follow one another. -/
structure OnePerCooldown (found : Optimizer) : Prop where
  spaced : found.optimizations.Pairwise (fun earlier later =>
    earlier.moduleName = later.moduleName →
      cooldown ≤ |later.time - earlier.time|)
  consecutive : ∀ moduleName,
    Consecutive moduleName (found.recordsOf moduleName)

/-- The clock does not go back while a call that has gone ahead has not
returned, and a call that goes ahead is the only one for its tool. -/
def Orderly (self : Optimizer) : Action → Prop
  | .tick now =>
      self.now ≤ now ∨ ∀ call ∈ self.calls, call.stage.optimizing = false
  | .call index .check =>
      ∀ call history, self.calls[index]? = some call →
        call.stage = .checking history →
        self.goesAhead call.moduleName history = true →
          ∀ other ∈ self.calls, other.moduleName = call.moduleName →
            other.stage.optimizing = false
  | _ => True

/-! ## The last record -/

theorem Consecutive.nextIteration_getLast {moduleName : String}
    {records : List GepaOptimizationRecord}
    (hconsecutive : Consecutive moduleName records) :
    nextIteration records.getLast? = records.length + 1 := by
  cases hlast : records.getLast? with
  | none =>
      rw [List.getLast?_eq_none_iff] at hlast
      simp [hlast, nextIteration]
  | some last =>
      rw [List.getLast?_eq_getElem?] at hlast
      have hindex : records.length - 1 < records.length := by
        have := (List.getElem?_eq_some_iff.mp hlast).1
        omega
      have hnumber := hconsecutive.numbered _ last hlast
      simp only [nextIteration, Option.elim_some, hnumber]
      omega

theorem Consecutive.append {moduleName : String}
    {records : List GepaOptimizationRecord} {added : GepaOptimizationRecord}
    (hconsecutive : Consecutive moduleName records)
    (hnumber : added.iteration = records.length + 1)
    (hprompt : added.originalPrompt =
      baselinePrompt moduleName records.getLast?) :
    Consecutive moduleName (records ++ [added]) := by
  constructor
  · intro index record hfound
    rcases getElem?_append_cases hfound with hold | ⟨rfl, rfl⟩
    · exact hconsecutive.numbered index record hold
    · exact hnumber
  · intro index record hfound
    rcases getElem?_append_cases hfound with hold | ⟨rfl, rfl⟩
    · have hindex := (List.getElem?_eq_some_iff.mp hold).1
      rw [List.take_append_of_le_length hindex.le]
      exact hconsecutive.built index record hold
    · rw [List.take_left]
      exact hprompt

/-- Where the times increase, the database finds the last record. -/
theorem latest_eq_getLast {self : Optimizer} {moduleName : String}
    {choice : ℕ} {found : Option GepaOptimizationRecord}
    (hincreasing : (self.recordsOf moduleName).Pairwise (fun earlier later =>
      earlier.timestamp < later.timestamp))
    (hfound : self.latest moduleName choice = some found) :
    found = (self.recordsOf moduleName).getLast? := by
  unfold latest at hfound
  generalize self.recordsOf moduleName = records at hincreasing hfound ⊢
  split at hfound
  · rename_i record hrecord
    split at hfound
    · rename_i hlatest
      rw [← Option.some.inj hfound, List.getLast?_eq_getElem?, ← hrecord]
      obtain ⟨hchoice, hget⟩ := List.getElem?_eq_some_iff.mp hrecord
      congr 1
      by_contra hother
      have hlast : records.length - 1 < records.length := by omega
      have hlater := List.pairwise_iff_getElem.mp hincreasing choice
        (records.length - 1) hchoice hlast (by omega)
      have hmost := hlatest _ (List.getElem_mem hlast)
      rw [hget] at hlater
      omega
    · cases hfound
  · split at hfound
    · rename_i hempty
      rw [List.isEmpty_iff] at hempty
      rw [← Option.some.inj hfound, hempty]
      rfl
    · cases hfound

/-! ## What each call may rely on -/

/-- A cooldown has passed since the last optimization of the tool. -/
def Rested (self : Optimizer) (moduleName : String) : Prop :=
  ∀ lastRun, self.recentRuns moduleName = some lastRun →
    lastRun + cooldown ≤ self.now

/-- The iteration comes after the records of the tool. -/
structure Follows (moduleName : String)
    (records : List GepaOptimizationRecord)
    (iteration : OptimizationIteration) : Prop where
  numbered : iteration.iteration = records.length + 1
  built : iteration.originalPrompt =
    baselinePrompt moduleName records.getLast?
  later : ∀ record ∈ records, record.timestamp < iteration.timestamp

/-- What holds of the tool while a call for it is at a stage. -/
def Holds (self : Optimizer) (moduleName : String) : Stage → Prop
  | .reading _ =>
      self.Rested moduleName ∧
        ∀ record ∈ self.recordsOf moduleName, record.timestamp < self.now
  | .composing _ lastRecord =>
      self.Rested moduleName ∧
        (∀ record ∈ self.recordsOf moduleName,
          record.timestamp < self.now) ∧
        lastRecord = (self.recordsOf moduleName).getLast?
  | .recording iteration =>
      self.Rested moduleName ∧ iteration.timestamp ≤ self.now ∧
        Follows moduleName (self.recordsOf moduleName) iteration
  | .finishing _ =>
      self.Rested moduleName ∧
        ∀ record ∈ self.recordsOf moduleName, record.timestamp ≤ self.now
  | _ => True

theorem holds_of_not_optimizing (self : Optimizer) (moduleName : String)
    {stage : Stage} (hstage : stage.optimizing = false) :
    self.Holds moduleName stage := by
  cases stage <;> trivial

/-- It goes on holding when nothing of the tool changes and the clock does not
go back. -/
theorem Holds.later {self other : Optimizer} {moduleName : String}
    {stage : Stage} (hholds : self.Holds moduleName stage)
    (hruns : other.recentRuns moduleName = self.recentRuns moduleName)
    (hrecords : other.recordsOf moduleName = self.recordsOf moduleName)
    (hnow : self.now ≤ other.now) : other.Holds moduleName stage := by
  have hrested : self.Rested moduleName → other.Rested moduleName := by
    intro hrested lastRun hlastRun
    rw [hruns] at hlastRun
    exact (hrested lastRun hlastRun).trans hnow
  cases stage with
  | fetching => trivial
  | checking history => trivial
  | reading history =>
      obtain ⟨hwaited, hearlier⟩ := hholds
      refine ⟨hrested hwaited, ?_⟩
      rw [hrecords]
      intro record hrecord
      exact (hearlier record hrecord).trans_le hnow
  | composing history lastRecord =>
      obtain ⟨hwaited, hearlier, hlast⟩ := hholds
      refine ⟨hrested hwaited, ?_, ?_⟩ <;> rw [hrecords]
      · intro record hrecord
        exact (hearlier record hrecord).trans_le hnow
      · exact hlast
  | recording iteration =>
      obtain ⟨hwaited, hpast, hfollows⟩ := hholds
      refine ⟨hrested hwaited, hpast.trans hnow, ?_⟩
      rw [hrecords]
      exact hfollows
  | finishing iteration =>
      obtain ⟨hwaited, hearlier⟩ := hholds
      refine ⟨hrested hwaited, ?_⟩
      rw [hrecords]
      intro record hrecord
      exact (hearlier record hrecord).trans hnow
  | returned result => trivial

/-! ## One call at a time -/

/-- Apart from the call, none for its tool has gone ahead. -/
def Alone (calls : List Call) (index : ℕ) (moduleName : String) : Prop :=
  ∀ other otherCall, other ≠ index → calls[other]? = some otherCall →
    otherCall.moduleName = moduleName → otherCall.stage.optimizing = false

/-- At most one call for each tool has gone ahead and not returned. -/
def Single (calls : List Call) : Prop :=
  ∀ (index : ℕ) call, calls[index]? = some call →
    call.stage.optimizing = true → Alone calls index call.moduleName

theorem Single.set {calls : List Call} (hsingle : Single calls) {index : ℕ}
    {moduleName : String} {stage : Stage}
    (halone : stage.optimizing = true → Alone calls index moduleName) :
    Single (calls.set index ⟨moduleName, stage⟩) := by
  intro found call hfound hoptimizing other otherCall hother hotherCall hsame
  rcases getElem?_set_cases hfound with ⟨rfl, rfl⟩ | ⟨hindex, hcall⟩ <;>
    rcases getElem?_set_cases hotherCall with ⟨rfl, rfl⟩ | ⟨hplace, hold⟩
  · exact absurd rfl hother
  · exact halone hoptimizing other otherCall hother hold hsame
  · -- The call that is placed would not be alone.
    by_contra hplaced
    have hstill := halone (by simpa using hplaced) found call hindex.symm hcall
      hsame.symm
    rw [hoptimizing] at hstill
    cases hstill
  · exact hsingle found call hcall hoptimizing other otherCall hother hold hsame

theorem Single.start {calls : List Call} (hsingle : Single calls)
    (moduleName : String) : Single (calls ++ [⟨moduleName, .fetching⟩]) := by
  intro index call hcall hoptimizing other otherCall hother hotherCall hsame
  rcases getElem?_append_cases hotherCall with hold | ⟨_, rfl⟩
  · rcases getElem?_append_cases hcall with hcall | ⟨_, rfl⟩
    · exact hsingle index call hcall hoptimizing other otherCall hother hold
        hsame
    · cases hoptimizing
  · rfl

/-- Some call for the tool is about to return an iteration. -/
def Finishing (calls : List Call) (moduleName : String) : Prop :=
  ∃ (index : ℕ) (iteration : OptimizationIteration),
    calls[index]? = some ⟨moduleName, .finishing iteration⟩

theorem Finishing.start {calls : List Call} {moduleName : String}
    (hfinishing : Finishing calls moduleName) (added : Call) :
    Finishing (calls ++ [added]) moduleName := by
  obtain ⟨index, iteration, hcall⟩ := hfinishing
  exact ⟨index, iteration, getElem?_append_of_some hcall⟩

/-- It is not the call that moves. -/
theorem Finishing.set {calls : List Call} {moduleName : String}
    (hfinishing : Finishing calls moduleName) {index : ℕ} {call : Call}
    (hcall : calls[index]? = some call)
    (hmoved : ∀ iteration, call ≠ ⟨moduleName, .finishing iteration⟩)
    (placed : Call) : Finishing (calls.set index placed) moduleName := by
  obtain ⟨found, iteration, hfound⟩ := hfinishing
  refine ⟨found, iteration, ?_⟩
  have hindex : index ≠ found := by
    rintro rfl
    rw [hcall, Option.some.injEq] at hfound
    exact hmoved iteration hfound
  rw [List.getElem?_set_ne hindex]
  exact hfound

/-! ## The invariant -/

/-- The records of a tool are no later than its last optimization. -/
def Covered (self : Optimizer) (moduleName : String) : Prop :=
  ∀ record ∈ self.recordsOf moduleName, ∃ lastRun,
    self.recentRuns moduleName = some lastRun ∧ record.timestamp ≤ lastRun

structure Tracked (found : Optimizer) : Prop where
  consecutive : ∀ moduleName,
    Consecutive moduleName (found.recordsOf moduleName)
  increasing : ∀ moduleName,
    (found.recordsOf moduleName).Pairwise (fun earlier later =>
      earlier.timestamp < later.timestamp)
  covered : ∀ moduleName, found.Covered moduleName ∨
    Finishing found.calls moduleName
  noted : ∀ optimization ∈ found.optimizations, ∃ lastRun,
    found.recentRuns optimization.moduleName = some lastRun ∧
      optimization.time ≤ lastRun
  spaced : found.optimizations.Pairwise (fun earlier later =>
    earlier.moduleName = later.moduleName →
      earlier.time + cooldown ≤ later.time)
  single : Single found.calls
  holds : ∀ (index : ℕ) call, found.calls[index]? = some call →
    found.Holds call.moduleName call.stage

theorem tracked_new (now : ℤ) : (new now).Tracked where
  consecutive := fun _ => ⟨by simp [new, recordsOf], by simp [new, recordsOf]⟩
  increasing := fun _ => by simp [new, recordsOf]
  covered := fun _ => Or.inl (by simp [new, recordsOf, Covered])
  noted := by simp [new]
  spaced := by simp [new]
  single := by simp [new, Single]
  holds := by simp [new]

theorem Tracked.onePerCooldown {self : Optimizer} (htracked : self.Tracked) :
    self.OnePerCooldown := by
  refine ⟨htracked.spaced.imp ?_, htracked.consecutive⟩
  intro earlier later hspaced hsame
  exact (by linarith [hspaced hsame] :
    cooldown ≤ later.time - earlier.time).trans (le_abs_self _)

theorem Tracked.tick {self : Optimizer} (htracked : self.Tracked) {now : ℤ}
    (hnow : self.now ≤ now ∨
      ∀ call ∈ self.calls, call.stage.optimizing = false) :
    ({ self with now := now } : Optimizer).Tracked where
  consecutive := htracked.consecutive
  increasing := htracked.increasing
  covered := htracked.covered
  noted := htracked.noted
  spaced := htracked.spaced
  single := htracked.single
  holds := by
    intro index call hcall
    rcases hnow with hlater | hidle
    · exact (htracked.holds index call hcall).later rfl rfl hlater
    · exact holds_of_not_optimizing _ _
        (hidle call (List.mem_of_getElem? hcall))

theorem Tracked.start {self : Optimizer} (htracked : self.Tracked)
    (moduleName : String) :
    ({ self with calls := self.calls ++ [⟨moduleName, .fetching⟩] } :
      Optimizer).Tracked where
  consecutive := htracked.consecutive
  increasing := htracked.increasing
  covered := by
    intro other
    refine (htracked.covered other).imp id ?_
    intro hfinishing
    exact hfinishing.start _
  noted := htracked.noted
  spaced := htracked.spaced
  single := htracked.single.start moduleName
  holds := by
    intro index call hcall
    rcases getElem?_append_cases hcall with hold | ⟨_, rfl⟩
    · exact (htracked.holds index call hold).later rfl rfl le_rfl
    · trivial

/-- A call that was not about to return goes to a stage where what holds of
its tool allows it to be. -/
theorem Tracked.move {self : Optimizer} (htracked : self.Tracked)
    {index : ℕ} {call : Call} (hcall : self.calls[index]? = some call)
    (hbefore : ∀ iteration, call.stage ≠ .finishing iteration) {stage : Stage}
    (halone : stage.optimizing = true →
      Alone self.calls index call.moduleName)
    (hholds : self.Holds call.moduleName stage) :
    (self.move index call stage).Tracked where
  consecutive := htracked.consecutive
  increasing := htracked.increasing
  covered := by
    intro moduleName
    refine (htracked.covered moduleName).imp id ?_
    intro hfinishing
    refine hfinishing.set hcall ?_ _
    rintro iteration rfl
    exact hbefore iteration rfl
  noted := htracked.noted
  spaced := htracked.spaced
  single := htracked.single.set halone
  holds := by
    intro found other hother
    rcases getElem?_set_cases hother with ⟨_, rfl⟩ | ⟨_, hold⟩
    · exact Holds.later hholds rfl rfl le_rfl
    · exact (htracked.holds found other hold).later rfl rfl le_rfl

theorem cooling_eq_false_iff (self : Optimizer) (moduleName : String) :
    self.cooling moduleName = false ↔ self.Rested moduleName := by
  unfold cooling Rested
  cases self.recentRuns moduleName with
  | none => simp
  | some lastRun =>
      simp only [Option.any_some, decide_eq_false_iff_not, not_lt,
        Option.some.injEq, forall_eq']
      constructor <;> intro hrested <;> linarith

/-- The records of a tool that is not being optimized are a cooldown old. -/
theorem Covered.earlier {self : Optimizer} {moduleName : String}
    (hcovered : self.Covered moduleName) (hrested : self.Rested moduleName) :
    ∀ record ∈ self.recordsOf moduleName, record.timestamp < self.now := by
  intro record hrecord
  obtain ⟨lastRun, hlastRun, hearlier⟩ := hcovered record hrecord
  have hcooldown : 0 < cooldown := by decide
  linarith [hrested lastRun hlastRun]

theorem Tracked.check {found : Optimizer} (htracked : found.Tracked)
    {index : ℕ} {call : Call} (hcall : found.calls[index]? = some call)
    {history : List PredictionRecord}
    (hstage : call.stage = .checking history)
    (hahead : found.goesAhead call.moduleName history = true)
    (horderly : ∀ other ∈ found.calls, other.moduleName = call.moduleName →
      other.stage.optimizing = false) :
    (found.move index call (.reading history)).Tracked := by
  have hrested : found.Rested call.moduleName := by
    rw [← cooling_eq_false_iff]
    simp only [goesAhead, Bool.and_eq_true, Bool.not_eq_true'] at hahead
    exact hahead.1
  have hcovered : found.Covered call.moduleName := by
    rcases htracked.covered call.moduleName with hcovered | hfinishing
    · exact hcovered
    · obtain ⟨other, iteration, hother⟩ := hfinishing
      have hidle := horderly _ (List.mem_of_getElem? hother) rfl
      cases hidle
  refine htracked.move hcall (by simp [hstage]) ?_
    ⟨hrested, hcovered.earlier hrested⟩
  intro _ other otherCall _ hother hsame
  exact horderly otherCall (List.mem_of_getElem? hother) hsame

/-- The iteration that is composed comes after the records of the tool. -/
theorem follows_composeIteration (formatTenths : Float → String)
    {found : Optimizer} (htracked : found.Tracked) {moduleName : String}
    (history : List PredictionRecord)
    (hearlier : ∀ record ∈ found.recordsOf moduleName,
      record.timestamp < found.now) :
    Follows moduleName (found.recordsOf moduleName)
      (composeIteration formatTenths moduleName history
        (found.recordsOf moduleName).getLast? found.now) where
  numbered := (htracked.consecutive moduleName).nextIteration_getLast
  built := rfl
  later := hearlier

theorem recordsOf_record_self (self : Optimizer) (index : ℕ) (call : Call)
    (iteration : OptimizationIteration) (id : String) :
    (self.record index call iteration id true).recordsOf call.moduleName =
      self.recordsOf call.moduleName ++
        [recordOf id call.moduleName iteration] := by
  simp [record, move, recordsOf, List.filter_append, recordOf]

theorem recordsOf_record_other (self : Optimizer) (index : ℕ) (call : Call)
    (iteration : OptimizationIteration) (id : String) {moduleName : String}
    (hother : moduleName ≠ call.moduleName) :
    (self.record index call iteration id true).recordsOf moduleName =
      self.recordsOf moduleName := by
  simp [record, move, recordsOf, List.filter_append, recordOf, hother.symm]

theorem Tracked.covered_of_other {found changed : Optimizer}
    (htracked : found.Tracked) {index : ℕ} {call : Call}
    (hcall : found.calls[index]? = some call) {stage : Stage}
    (hcalls : changed.calls = found.calls.set index ⟨call.moduleName, stage⟩)
    {moduleName : String} (hother : moduleName ≠ call.moduleName)
    (hruns : changed.recentRuns moduleName = found.recentRuns moduleName)
    (hrecords : changed.recordsOf moduleName = found.recordsOf moduleName) :
    changed.Covered moduleName ∨ Finishing changed.calls moduleName := by
  rw [Covered, hruns, hrecords, hcalls]
  refine (htracked.covered moduleName).imp id ?_
  intro hfinishing
  refine hfinishing.set hcall ?_ _
  rintro iteration rfl
  exact hother rfl

/-- What holds of the calls goes on holding when the records and the last
optimization of one tool change, where its only call is the one that moves. -/
theorem Tracked.holds_of_alone {found changed : Optimizer}
    (htracked : found.Tracked) {index : ℕ} {call : Call} {stage : Stage}
    (hcalls : changed.calls = found.calls.set index ⟨call.moduleName, stage⟩)
    (hnow : changed.now = found.now)
    (halone : Alone found.calls index call.moduleName)
    (hruns : ∀ moduleName, moduleName ≠ call.moduleName →
      changed.recentRuns moduleName = found.recentRuns moduleName)
    (hrecords : ∀ moduleName, moduleName ≠ call.moduleName →
      changed.recordsOf moduleName = found.recordsOf moduleName)
    (hholds : changed.Holds call.moduleName stage) :
    ∀ (place : ℕ) other, changed.calls[place]? = some other →
      changed.Holds other.moduleName other.stage := by
  intro place other hother
  rw [hcalls] at hother
  rcases getElem?_set_cases hother with ⟨_, rfl⟩ | ⟨hplace, hold⟩
  · exact hholds
  · by_cases hsame : other.moduleName = call.moduleName
    · exact holds_of_not_optimizing _ _
        (halone place other hplace.symm hold hsame)
    · exact (htracked.holds place other hold).later (hruns _ hsame)
        (hrecords _ hsame) hnow.ge

theorem Tracked.record {found : Optimizer} (htracked : found.Tracked)
    {index : ℕ} {call : Call} (hcall : found.calls[index]? = some call)
    {iteration : OptimizationIteration}
    (hstage : call.stage = .recording iteration) (id : String) :
    (found.record index call iteration id true).Tracked := by
  obtain ⟨hrested, hpast, hfollows⟩ :
      found.Holds call.moduleName (.recording iteration) :=
    hstage ▸ htracked.holds index call hcall
  have halone := htracked.single index call hcall (by rw [hstage]; rfl)
  have hplace : index < found.calls.length :=
    (List.getElem?_eq_some_iff.mp hcall).1
  have hself := recordsOf_record_self found index call iteration id
  have hother := fun {moduleName} =>
    @recordsOf_record_other found index call iteration id moduleName
  constructor
  case consecutive =>
    intro moduleName
    by_cases hsame : moduleName = call.moduleName
    · subst hsame
      rw [hself]
      exact (htracked.consecutive _).append hfollows.numbered hfollows.built
    · rw [hother hsame]
      exact htracked.consecutive moduleName
  case increasing =>
    intro moduleName
    by_cases hsame : moduleName = call.moduleName
    · subst hsame
      rw [hself, List.pairwise_append]
      refine ⟨htracked.increasing _, List.pairwise_singleton _ _, ?_⟩
      intro earlier hearlier added hadded
      rw [List.mem_singleton.mp hadded]
      exact hfollows.later earlier hearlier
    · rw [hother hsame]
      exact htracked.increasing moduleName
  case covered =>
    intro moduleName
    by_cases hsame : moduleName = call.moduleName
    · subst hsame
      right
      exact ⟨index, iteration, by
        simp [Optimizer.record, Optimizer.move, hplace]⟩
    · exact htracked.covered_of_other hcall rfl hsame rfl (hother hsame)
  case noted => exact htracked.noted
  case spaced => exact htracked.spaced
  case single => exact htracked.single.set (fun _ => halone)
  case holds =>
    refine htracked.holds_of_alone rfl rfl halone (fun _ _ => rfl)
      (fun _ hsame => hother hsame) ⟨hrested, ?_⟩
    rw [hself]
    intro record hrecord
    rcases List.mem_append.mp hrecord with hold | hadded
    · exact (hfollows.later record hold).le.trans hpast
    · rw [List.mem_singleton.mp hadded]
      exact hpast

/-- The iteration could not be stored. -/
theorem Tracked.record_lost {found : Optimizer} (htracked : found.Tracked)
    {index : ℕ} {call : Call} (hcall : found.calls[index]? = some call)
    {iteration : OptimizationIteration}
    (hstage : call.stage = .recording iteration) (id : String) :
    (found.record index call iteration id false).Tracked := by
  obtain ⟨hrested, hpast, hfollows⟩ :
      found.Holds call.moduleName (.recording iteration) :=
    hstage ▸ htracked.holds index call hcall
  refine htracked.move hcall (by simp [hstage])
    (fun _ => htracked.single index call hcall (by rw [hstage]; rfl))
    ⟨hrested, ?_⟩
  intro record hrecord
  exact (hfollows.later record hrecord).le.trans hpast

theorem Tracked.finish {found : Optimizer} (htracked : found.Tracked)
    {index : ℕ} {call : Call} (hcall : found.calls[index]? = some call)
    {iteration : OptimizationIteration}
    (hstage : call.stage = .finishing iteration) :
    (found.finish index call iteration).Tracked := by
  obtain ⟨hrested, hpast⟩ :
      found.Holds call.moduleName (.finishing iteration) :=
    hstage ▸ htracked.holds index call hcall
  have halone := htracked.single index call hcall (by rw [hstage]; rfl)
  have hself : (found.finish index call iteration).recentRuns
      call.moduleName = some found.now := Function.update_self ..
  have hother : ∀ moduleName, moduleName ≠ call.moduleName →
      (found.finish index call iteration).recentRuns moduleName =
        found.recentRuns moduleName :=
    fun _ hsame => Function.update_of_ne hsame ..
  have hcooldown : 0 ≤ cooldown := by decide
  constructor
  case consecutive => exact htracked.consecutive
  case increasing => exact htracked.increasing
  case covered =>
    intro moduleName
    by_cases hsame : moduleName = call.moduleName
    · subst hsame
      left
      intro record hrecord
      exact ⟨found.now, hself, hpast record hrecord⟩
    · exact htracked.covered_of_other hcall rfl hsame (hother _ hsame) rfl
  case noted =>
    intro optimization hoptimization
    by_cases hsame : optimization.moduleName = call.moduleName
    · rw [hsame, hself]
      refine ⟨found.now, rfl, ?_⟩
      rcases List.mem_append.mp hoptimization with hold | hadded
      · obtain ⟨lastRun, hlastRun, hnoted⟩ := htracked.noted _ hold
        rw [hsame] at hlastRun
        linarith [hrested lastRun hlastRun]
      · rw [List.mem_singleton.mp hadded]
    · rw [hother _ hsame]
      rcases List.mem_append.mp hoptimization with hold | hadded
      · exact htracked.noted _ hold
      · rw [List.mem_singleton.mp hadded] at hsame
        exact absurd rfl hsame
  case spaced =>
    change (found.optimizations ++ [_]).Pairwise _
    rw [List.pairwise_append]
    refine ⟨htracked.spaced, List.pairwise_singleton _ _, ?_⟩
    intro earlier hearlier added hadded hsame
    rw [List.mem_singleton.mp hadded] at hsame ⊢
    obtain ⟨lastRun, hlastRun, hnoted⟩ := htracked.noted earlier hearlier
    rw [hsame] at hlastRun
    change earlier.time + cooldown ≤ found.now
    linarith [hrested lastRun hlastRun]
  case single => exact htracked.single.set (fun _ => halone)
  case holds =>
    exact htracked.holds_of_alone rfl rfl halone hother (fun _ _ => rfl)
      trivial

/-! ## Every step -/

theorem Tracked.advance {formatTenths : Float → String}
    {found changed : Optimizer} (htracked : found.Tracked) {index : ℕ}
    {call : Call} (hcall : found.calls[index]? = some call)
    {action : CallAction}
    (hstep : found.advance formatTenths index call action = some changed)
    (horderly : found.Orderly (.call index action)) : changed.Tracked := by
  have hholds := htracked.holds index call hcall
  have halone := htracked.single index call hcall
  unfold Optimizer.advance at hstep
  split at hstep
  case h_1 history hstage =>
    rw [← Option.some.inj hstep]
    refine htracked.move hcall (by simp [hstage]) ?_ ?_ <;>
      split <;> first | trivial | (intro hidle; cases hidle)
  case h_2 hstage =>
    rw [← Option.some.inj hstep]
    exact htracked.move hcall (by simp [hstage]) (fun hidle => by cases hidle)
      trivial
  case h_3 history hstage =>
    rw [← Option.some.inj hstep]
    exact htracked.move hcall (by simp [hstage]) (fun hidle => by cases hidle)
      trivial
  case h_4 history hstage =>
    rw [← Option.some.inj hstep]
    split
    · rename_i hahead
      exact htracked.check hcall hstage hahead
        (horderly call history hcall hstage hahead)
    · exact htracked.move hcall (by simp [hstage])
        (fun hidle => by cases hidle) trivial
  case h_5 choice history hstage =>
    rw [Option.map_eq_some_iff] at hstep
    obtain ⟨lastRecord, hlatest, hmoved⟩ := hstep
    rw [hstage] at hholds halone
    rw [← hmoved]
    exact htracked.move hcall (by simp [hstage]) (fun _ => halone rfl)
      ⟨hholds.1, hholds.2,
        latest_eq_getLast (htracked.increasing call.moduleName) hlatest⟩
  case h_6 history lastRecord hstage =>
    rw [hstage] at hholds halone
    obtain ⟨hrested, hearlier, hlast⟩ := hholds
    rw [← Option.some.inj hstep, hlast]
    exact htracked.move hcall (by simp [hstage]) (fun _ => halone rfl)
      ⟨hrested, le_rfl,
        follows_composeIteration formatTenths htracked history hearlier⟩
  case h_7 id stored iteration hstage =>
    rw [← Option.some.inj hstep]
    cases stored with
    | true => exact htracked.record hcall hstage id
    | false => exact htracked.record_lost hcall hstage id
  case h_8 iteration hstage =>
    rw [← Option.some.inj hstep]
    exact htracked.finish hcall hstage
  case h_9 => cases hstep

theorem tracked_step (formatTenths : Float → String)
    (found : Optimizer) (action : Action) (changed : Optimizer)
    (htracked : found.Tracked)
    (hstep : (machine formatTenths).step found action = some changed)
    (horderly : found.Orderly action) : changed.Tracked := by
  change found.step formatTenths action = some changed at hstep
  cases action with
  | tick now =>
      rw [← Option.some.inj hstep]
      exact htracked.tick horderly
  | start moduleName =>
      rw [← Option.some.inj hstep]
      exact htracked.start moduleName
  | call index action =>
      obtain ⟨call, hcall, hadvance⟩ := Option.bind_eq_some_iff.mp hstep
      exact htracked.advance hcall hadvance horderly

theorem throughout_onePerCooldown (formatTenths : Float → String) (start : ℤ)
    (trace : List Action)
    (horderly : (machine formatTenths).Along Orderly (new start) trace) :
    (machine formatTenths).Throughout OnePerCooldown (new start) trace :=
  StepMachine.throughout_of_along (tracked_step formatTenths)
    (fun _ => Tracked.onePerCooldown) (tracked_new start) horderly

/-! ## Calls that take turns, and calls that overlap -/

/-- Forty predictions of which nothing is known. -/
def openHistory : List PredictionRecord :=
  List.replicate 40
    { id := "0"
      contextHash := "0"
      predictedTool := "echo"
      actualTool := none
      confidence := 0.8
      predictionData := ⟨.null, .null⟩
      timestamp := Auth.smallInstant
      correct := none }

/-- The second call checks after the first one has returned. -/
def waitingTrace : List Action :=
  [.start "echo", .start "echo", .call 0 (.fetched openHistory),
    .call 1 (.fetched openHistory), .call 0 .check, .call 0 (.read 0),
    .call 0 .compose, .call 0 (.record "a" true), .call 0 .finish,
    .call 1 .check]

theorem throughout_onePerCooldown_waitingTrace :
    (machine (fun _ => "0.0")).Throughout OnePerCooldown (new 0)
      waitingTrace := by
  apply throughout_onePerCooldown
  refine .cons rfl trivial <| .cons rfl trivial <| .cons rfl trivial <|
    .cons rfl trivial <| .cons rfl ?_ <| .cons rfl trivial <|
    .cons rfl trivial <| .cons rfl trivial <| .cons rfl trivial <|
    .cons rfl ?_ trivial
  · -- The other call has not checked yet.
    intro call history _ _ _ other hother _
    change other ∈ List.replicate 2 (Call.mk "echo" (.checking openHistory))
      at hother
    rw [List.eq_of_mem_replicate hother]
    rfl
  · -- The tool is cooling down.
    intro call history hcall hstage hahead
    obtain rfl := Option.some.inj hcall
    cases hahead

/-- Both calls check before either returns. -/
def overlappingTrace : List Action :=
  [.start "echo", .start "echo", .call 0 (.fetched openHistory),
    .call 1 (.fetched openHistory), .call 0 .check, .call 1 .check,
    .call 0 (.read 0), .call 1 (.read 0), .call 0 .compose, .call 1 .compose,
    .call 0 (.record "a" true), .call 1 (.record "b" true), .call 0 .finish,
    .call 1 .finish]

theorem overlappingTrace_not_onePerCooldown :
    (∃ reached, (machine (fun _ => "0.0")).run (new 0) overlappingTrace =
        some reached ∧
      reached.optimizations = [⟨"echo", 0⟩, ⟨"echo", 0⟩] ∧
      reached.records.map GepaOptimizationRecord.iteration = [1, 1]) ∧
    ¬ (machine (fun _ => "0.0")).Throughout OnePerCooldown (new 0)
      overlappingTrace := by
  refine ⟨⟨_, rfl, rfl, rfl⟩, ?_⟩
  intro hthrough
  have hspaced := (hthrough overlappingTrace (List.prefix_refl _) _ rfl).spaced
  have hapart := (List.pairwise_cons.mp hspaced).1 ⟨"echo", 0⟩
    (List.mem_singleton.mpr rfl) rfl
  exact absurd hapart (by decide)

end Optimizer

end GEPAOptimizer

end Llm
end Acdp
