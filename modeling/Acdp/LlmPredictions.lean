import Acdp.AuthPrimitives
import Acdp.DoubleOrder
import Acdp.JsonValue

/-!
# The table of predictions

A prediction is entered with the tool that was predicted and, later, marked
with the tool that was used; a confidence that is not a number is refused.  The
metrics are one aggregate query over the marked predictions of a window of
time.  The sum of no rows is `NULL`, which is not a number.
-/

namespace Acdp
namespace Llm

open Auth (DateTime)
open Json

/-- `self - Duration::hours(hours)`; `none` where the library panics.  Leaving
a leap second folds its fraction back. -/
def subHours? (self : DateTime) (hours : Int64) : Option DateTime :=
  let shift := -(hours.toInt * 3600)
  if shift < -9223372036854775 ∨ 9223372036854775 < shift then none
  else
    let leaves := 1000000000 ≤ self.nanos ∧ shift ≠ 0
    let nanos := if leaves then self.nanos - 1000000000 else self.nanos
    let carry := if leaves ∧ shift < 0 then 1 else 0
    let secs := self.secs + carry + shift
    if hrange : -8334601228800 ≤ secs ∧ secs ≤ 8210266876799 then
      some ⟨secs, nanos, hrange.1, hrange.2, by
        have hnanos := self.nanos_lt
        dsimp only [nanos, leaves]
        split_ifs <;> omega, by
        have hnanos := self.nanos_lt
        have hleap := self.leap_second
        dsimp only [nanos, secs, carry, leaves, shift]
        split_ifs <;> omega⟩
    else none

structure PredictionRecord where
  id : String
  contextHash : String
  predictedTool : String
  actualTool : Option String
  confidence : Float
  predictionData : OrderedValue
  timestamp : DateTime
  correct : Option Bool

/-- The mark is set together with the tool that was used. -/
def PredictionRecord.resolve (self : PredictionRecord) (actualTool : String)
    (correct : Bool) : PredictionRecord :=
  { self with
    actualTool := some actualTool
    correct := some correct }

/-- Where keys are not repeated, a search by key finds the item. -/
theorem find?_of_nodup_map {α κ : Type*} [DecidableEq κ] {key : α → κ}
    {items : List α} (hnodup : (items.map key).Nodup) {item : α}
    (hitem : item ∈ items) :
    items.find? (fun other => key other = key item) = some item := by
  induction items with
  | nil => cases hitem
  | cons first rest ih =>
      rw [List.map_cons, List.nodup_cons] at hnodup
      rw [List.find?_cons]
      cases List.mem_cons.mp hitem with
      | inl hfirst => simp [hfirst]
      | inr hrest =>
          have hother : key first ≠ key item := by
            intro hkey
            exact hnodup.1 (hkey ▸ List.mem_map_of_mem hrest)
          simp only [hother, decide_false]
          exact ih hnodup.2 hrest

/-- What a column of floating-point numbers takes: what is not a number
becomes `NULL`, which is refused here, and zero loses its sign. -/
def storedReal (value : UInt64) : Option UInt64 :=
  if Double.isNaN value then none
  else if value = 0x8000000000000000 then some 0
  else some value

/-- The rows of the table; the identifier is its primary key. -/
structure PredictionsDatabase where
  records : List PredictionRecord
  ids_nodup : (records.map PredictionRecord.id).Nodup

namespace PredictionsDatabase

def empty : PredictionsDatabase := ⟨[], List.nodup_nil⟩

variable (self : PredictionsDatabase)

/-- The row of a new prediction; `none` where the key is there already. -/
def insert (record : PredictionRecord) : Option PredictionsDatabase :=
  if hkey : record.id ∈ self.records.map PredictionRecord.id then none
  else
    some ⟨self.records ++ [record], by
      rw [List.map_append, List.map_singleton, List.nodup_append_comm]
      exact List.nodup_cons.mpr ⟨hkey, self.ids_nodup⟩⟩

def recordPrediction (id contextHash predictedTool : String)
    (confidence : Float) (predictionData : OrderedValue) (now : DateTime) :
    Option PredictionsDatabase :=
  (storedReal confidence.toBits).bind fun stored =>
    self.insert ⟨id, contextHash, predictedTool, none, Float.ofBits stored,
      predictionData, now, none⟩

def getPredictionTool (predictionId : String) : Option String :=
  (self.records.find? (fun record => record.id = predictionId)).map
    PredictionRecord.predictedTool

/-- The rows with the identifier are resolved. -/
def update (predictionId actualTool : String) (correct : Bool) :
    PredictionsDatabase where
  records := self.records.map (fun record =>
    if record.id = predictionId then record.resolve actualTool correct
    else record)
  ids_nodup := by
    rw [List.map_map]
    convert self.ids_nodup using 2
    funext record
    dsimp only [Function.comp_apply]
    split_ifs <;> rfl

def updatePredictionResult (predictionId actualTool : String) :
    PredictionsDatabase :=
  self.update predictionId actualTool
    ((self.getPredictionTool predictionId).elim false
      (fun predicted => predicted == actualTool))

variable {self}

theorem insert_eq_some_iff {record : PredictionRecord}
    {next : PredictionsDatabase} :
    self.insert record = some next ↔
      record.id ∉ self.records.map PredictionRecord.id ∧
        next.records = self.records ++ [record] := by
  unfold insert
  split_ifs with hkey
  · simp [hkey]
  · cases next
    simp only [Option.some.injEq, mk.injEq]
    exact ⟨fun heq => ⟨hkey, heq.symm⟩, fun heq => heq.2.symm⟩

/-- What is entered is not resolved yet. -/
theorem insert_of_recordPrediction {id contextHash predictedTool : String}
    {confidence : Float} {predictionData : OrderedValue} {now : DateTime}
    {next : PredictionsDatabase}
    (hentered : self.recordPrediction id contextHash predictedTool confidence
      predictionData now = some next) :
    ∃ stored, self.insert ⟨id, contextHash, predictedTool, none, stored,
      predictionData, now, none⟩ = some next := by
  obtain ⟨stored, _, hinsert⟩ := Option.bind_eq_some_iff.mp hentered
  exact ⟨Float.ofBits stored, hinsert⟩

theorem find_records {record : PredictionRecord}
    (hrecord : record ∈ self.records) :
    self.records.find? (fun other => other.id = record.id) = some record :=
  find?_of_nodup_map self.ids_nodup hrecord

/-- Every row with the identifier is resolved by comparing its own tool. -/
theorem updatePredictionResult_records (predictionId actualTool : String) :
    (self.updatePredictionResult predictionId actualTool).records =
      self.records.map (fun record =>
        if record.id = predictionId then
          record.resolve actualTool (record.predictedTool == actualTool)
        else record) := by
  apply List.map_congr_left
  intro record hrecord
  split_ifs with hid
  · subst hid
    rw [getPredictionTool, find_records hrecord]
    rfl
  · rfl

/-! ### The tool of a row -/

/-- The tool that the row with the identifier is resolved with. -/
def toolOf (self : PredictionsDatabase) (id : String) : Option String :=
  (self.records.find? (fun record => record.id = id)).bind
    PredictionRecord.actualTool

def ids (self : PredictionsDatabase) : List String :=
  self.records.map PredictionRecord.id

theorem ids_updatePredictionResult (predictionId actualTool : String) :
    (self.updatePredictionResult predictionId actualTool).ids = self.ids := by
  unfold ids
  rw [updatePredictionResult_records, List.map_map]
  apply List.map_congr_left
  intro record _
  rw [Function.comp_apply]
  split_ifs <;> rfl

theorem ids_insert {record : PredictionRecord} {next : PredictionsDatabase}
    (hinsert : self.insert record = some next) :
    record.id ∉ self.ids ∧ next.ids = self.ids ++ [record.id] := by
  obtain ⟨hkey, hrecords⟩ := insert_eq_some_iff.mp hinsert
  refine ⟨hkey, ?_⟩
  rw [ids, hrecords, List.map_append]
  rfl

/-- A new row is resolved with nothing. -/
theorem toolOf_insert {record : PredictionRecord} {next : PredictionsDatabase}
    (hinsert : self.insert record = some next)
    (hactual : record.actualTool = none) (id : String) :
    next.toolOf id = self.toolOf id := by
  obtain ⟨_, hrecords⟩ := insert_eq_some_iff.mp hinsert
  unfold toolOf
  rw [hrecords, List.find?_append]
  cases self.records.find? (fun record => record.id = id) with
  | some found => rfl
  | none =>
      rw [Option.none_or, List.find?_singleton]
      split_ifs
      · exact hactual
      · rfl

theorem find_updatePredictionResult (predictionId actualTool id : String) :
    (self.updatePredictionResult predictionId actualTool).records.find?
        (fun record => record.id = id) =
      (self.records.find? (fun record => record.id = id)).map (fun record =>
        if record.id = predictionId then
          record.resolve actualTool (record.predictedTool == actualTool)
        else record) := by
  rw [updatePredictionResult_records, List.find?_map]
  congr 2
  funext record
  rw [Function.comp_apply]
  split_ifs <;> rfl

theorem toolOf_updatePredictionResult_self {predictionId : String}
    (hentered : predictionId ∈ self.ids) (actualTool : String) :
    (self.updatePredictionResult predictionId actualTool).toolOf predictionId =
      some actualTool := by
  obtain ⟨record, hrecord, rfl⟩ := List.mem_map.mp hentered
  unfold toolOf
  rw [find_updatePredictionResult, find_records hrecord, Option.map_some,
    if_pos rfl]
  rfl

theorem toolOf_updatePredictionResult_ne {predictionId id : String}
    (hother : id ≠ predictionId) (actualTool : String) :
    (self.updatePredictionResult predictionId actualTool).toolOf id =
      self.toolOf id := by
  unfold toolOf
  rw [find_updatePredictionResult]
  cases hfind : self.records.find? (fun record => record.id = id) with
  | none => rfl
  | some record =>
      have hid : record.id = id := by simpa using List.find?_some hfind
      rw [Option.map_some, if_neg (by rw [hid]; exact hother)]

end PredictionsDatabase

/-! ## Accuracy metrics -/

structure AccuracyMetrics where
  accuracy : Float
  totalPredictions : ℕ
  correctPredictions : ℕ
  avgConfidence : Float
  timeWindowHours : Int64

/-- What the aggregate query returns; `none` is `NULL`. -/
structure MetricsRow where
  totalPredictions : ℕ
  correctPredictions : Option ℕ
  avgConfidence : Option Float

/-- The instant from which predictions count cannot be represented, or `NULL`
is not a number. -/
inductive MetricsError where
  | outOfRange
  | unexpectedNull

/-- `SUM` over the rows. -/
def sumOver (rows : List PredictionRecord) (value : PredictionRecord → ℕ) :
    Option ℕ :=
  if rows = [] then none else some (rows.map value).sum

section Metrics

variable (average : List Float → Float)

/-- `AVG(confidence)`, with the database's way of adding numbers up. -/
def averageOver (rows : List PredictionRecord) : Option Float :=
  if rows = [] then none
  else some (average (rows.map PredictionRecord.confidence))

def metricsRow (rows : List PredictionRecord) : MetricsRow where
  totalPredictions := rows.length
  correctPredictions :=
    sumOver rows (fun record => if record.correct = some true then 1 else 0)
  avgConfidence := averageOver average rows

namespace PredictionsDatabase

variable (self : PredictionsDatabase)

/-- The resolved predictions that are later than the instant. -/
def resolvedSince (since : DateTime) : List PredictionRecord :=
  self.records.filter (fun record =>
    decide (since < record.timestamp) && record.actualTool.isSome)

def accuracyOf (correct total : ℕ) : Float :=
  if 0 < total then Float.ofNat correct / Float.ofNat total else 0.0

def getAccuracyMetrics (now : DateTime) (timeWindowHours : Int64) :
    Except MetricsError AccuracyMetrics :=
  match subHours? now timeWindowHours with
  | none => .error .outOfRange
  | some since =>
      let metrics := metricsRow average (self.resolvedSince since)
      match metrics.correctPredictions with
      | none => .error .unexpectedNull
      | some correctPredictions =>
          .ok
            { accuracy :=
                accuracyOf correctPredictions metrics.totalPredictions
              totalPredictions := metrics.totalPredictions
              correctPredictions := correctPredictions
              avgConfidence := metrics.avgConfidence.getD 0.0
              timeWindowHours := timeWindowHours }

variable {average} {self} {now since : DateTime} {timeWindowHours : Int64}

theorem getAccuracyMetrics_of_empty
    (hsince : subHours? now timeWindowHours = some since)
    (hrows : self.resolvedSince since = []) :
    self.getAccuracyMetrics average now timeWindowHours =
      .error .unexpectedNull := by
  unfold getAccuracyMetrics
  rw [hsince]
  dsimp only
  rw [hrows]
  rfl

theorem getAccuracyMetrics_eq_ok
    (hsince : subHours? now timeWindowHours = some since)
    (hrows : self.resolvedSince since ≠ []) :
    ∃ metrics,
      self.getAccuracyMetrics average now timeWindowHours = .ok metrics ∧
      metrics.totalPredictions = (self.resolvedSince since).length ∧
      metrics.correctPredictions = ((self.resolvedSince since).map
        (fun record => if record.correct = some true then 1 else 0)).sum ∧
      metrics.accuracy =
        accuracyOf metrics.correctPredictions metrics.totalPredictions := by
  unfold getAccuracyMetrics
  rw [hsince]
  dsimp only [metricsRow]
  rw [sumOver, if_neg hrows]
  exact ⟨_, rfl, rfl, rfl, rfl⟩

end PredictionsDatabase

end Metrics

end Llm
end Acdp
