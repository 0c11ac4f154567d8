import Acdp.LlmModelManager

/-!
# When the model manager is ready

A download that fails leaves the manager loading, one that succeeds says ready
without loading anything, and a load that fails reports an error over the
model that is still there.  The manager is consistent after every call
exactly when none of that happens.
-/

namespace Acdp
namespace Llm

open Attempt
open Text (CaseTables)

namespace ModelManager

variable {Engine : Type}

/-! ## What a call leaves behind -/

structure Consistent (manager : ModelManager Engine) : Prop where
  ready_iff : manager.status = .ready ↔ manager.currentModel.isSome
  not_loading : manager.status ≠ .loading
  no_progress : manager.downloadProgress = none

structure SameModel (before next : ModelManager Engine) : Prop where
  config : next.config = before.config
  model : next.currentModel = before.currentModel
  path : next.currentModelPath = before.currentModelPath

theorem SameModel.refl (self : ModelManager Engine) : self.SameModel self :=
  ⟨rfl, rfl, rfl⟩

/-- What is said and how far a download has come do not count. -/
theorem SameModel.announced {before next : ModelManager Engine}
    {status : ModelStatus} {progress : Option DownloadProgress}
    {updates : List ModelStatusUpdate}
    (hsame : SameModel { before with
      status := status
      downloadProgress := progress
      updates := updates } next) :
    before.SameModel next :=
  ⟨hsame.config, hsame.model, hsame.path⟩

theorem ends_attempt {Value : Type} {failure : String}
    {answer : Except String Value} {self : ModelManager Engine}
    {returned : Value → ModelManager Engine → Prop}
    {stopped : LlmError → ModelManager Engine → Prop} :
    Ends (attempt failure answer) self returned stopped ↔
      match answer with
      | .ok value => returned value self
      | .error error => stopped (.configError (failure ++ error)) self := by
  cases answer <;> exact Iff.rfl

theorem ends_setStatus {status : ModelStatus} {self : ModelManager Engine}
    {returned : Unit → ModelManager Engine → Prop}
    {stopped : LlmError → ModelManager Engine → Prop} :
    Ends (setStatus status) self returned stopped ↔
      returned () { self with
        status := status
        updates := self.updates ++ [.statusChanged status] } := Iff.rfl

theorem ends_broadcast {update : ModelStatusUpdate}
    {self : ModelManager Engine}
    {returned : Unit → ModelManager Engine → Prop}
    {stopped : LlmError → ModelManager Engine → Prop} :
    Ends (broadcast update) self returned stopped ↔
      returned () { self with updates := self.updates ++ [update] } := Iff.rfl

end ModelManager

def DownloadChunk.Arrives (self : DownloadChunk) : Prop :=
  (∃ length, self.received = .ok length) ∧ self.written = .ok ()

namespace ModelWorld

open ModelManager (downloadUrl tempPath modelPath)

variable {Engine : Type}

/-- Every operation of a download succeeds. -/
structure Serves (world : ModelWorld Engine) (config : AppConfig)
    (modelName : String) (cacheDir : Path) (reply : DownloadReply) :
    Prop where
  located : config.cacheDir world.home = .ok cacheDir
  created : world.createDirAll cacheDir = .ok ()
  replied : world.send (downloadUrl modelName) = .ok reply
  accepted : reply.status.isSuccess = true
  opened : world.createFile (tempPath cacheDir modelName) = .ok ()
  received : ∀ chunk ∈ reply.chunks, chunk.Arrives
  flushed : world.flush = .ok ()
  renamed : world.rename (tempPath cacheDir modelName)
    (modelPath cacheDir modelName) = .ok ()

def Downloads (self : ModelWorld Engine) (config : AppConfig)
    (modelName : String) : Prop :=
  ∃ cacheDir reply, self.Serves config modelName cacheDir reply

/-- The engine can be made for the path, on one of the backends tried. -/
def Loads (self : ModelWorld Engine) (path : Path)
    (backend : LiteRTBackend) : Prop :=
  (∃ engine, self.newEngine path backend = .ok engine) ∨
    backend = .gpu ∧ ∃ engine, self.newEngine path .cpu = .ok engine

theorem Downloads.serves {world : ModelWorld Engine} {config : AppConfig}
    {modelName : String} {cacheDir : Path} {reply : DownloadReply}
    (hdownloads : world.Downloads config modelName)
    (hlocated : config.cacheDir world.home = .ok cacheDir)
    (hreplied : world.send (downloadUrl modelName) = .ok reply) :
    world.Serves config modelName cacheDir reply := by
  obtain ⟨otherDir, otherReply, hserves⟩ := hdownloads
  have hdir := hserves.located
  have hreply := hserves.replied
  rw [hlocated, Except.ok.injEq] at hdir
  rw [hreplied, Except.ok.injEq] at hreply
  subst hdir hreply
  exact hserves

end ModelWorld

namespace ModelManager

variable {Engine : Type}

theorem receiveChunks_ends (modelName : String) (totalBytes : Option UInt64)
    (chunks : List DownloadChunk) (downloaded : UInt64)
    (self : ModelManager Engine) :
    Ends (receiveChunks modelName totalBytes downloaded chunks) self
      (fun _ next => (∀ chunk ∈ chunks, chunk.Arrives) ∧
        self.SameModel next ∧ next.status = self.status)
      (fun _ next => (∃ chunk ∈ chunks, ¬ chunk.Arrives) ∧
        self.SameModel next ∧ next.status = self.status) := by
  induction chunks generalizing downloaded self with
  | nil =>
      rw [receiveChunks, ends_pure]
      exact ⟨by simp, SameModel.refl self, rfl⟩
  | cons chunk rest ih =>
      rw [receiveChunks, ends_bind, ends_attempt]
      cases hreceived : chunk.received with
      | error error =>
          refine ⟨⟨chunk, List.mem_cons_self, ?_⟩, SameModel.refl self, rfl⟩
          rintro ⟨⟨length, hlength⟩, _⟩
          rw [hreceived] at hlength
          cases hlength
      | ok length =>
          dsimp only
          rw [ends_bind, ends_attempt]
          cases hwritten : chunk.written with
          | error error =>
              refine ⟨⟨chunk, List.mem_cons_self, ?_⟩, SameModel.refl self,
                rfl⟩
              rintro ⟨_, hother⟩
              rw [hwritten] at hother
              cases hother
          | ok _ =>
              dsimp only
              rw [ends_bind, ends_modify, ends_bind, ends_broadcast]
              have harrives : chunk.Arrives := ⟨⟨length, hreceived⟩, hwritten⟩
              refine (ih _ _).mono ?_ ?_
              · rintro _ next ⟨hall, hsame, hstatus⟩
                exact ⟨List.forall_mem_cons.mpr ⟨harrives, hall⟩,
                  hsame.announced.announced, hstatus⟩
              · rintro _ next ⟨⟨failed, hmem, hfailed⟩, hsame, hstatus⟩
                exact ⟨⟨failed, List.mem_cons_of_mem _ hmem, hfailed⟩,
                  hsame.announced.announced, hstatus⟩

section Calls

variable (tables : CaseTables) (world : ModelWorld Engine)

/-- Once the reply is there, a download goes through exactly when the world
serves it. -/
theorem receiveReply_ends {modelName : String} {cacheDir : Path}
    {reply : DownloadReply} {config : AppConfig}
    (hlocated : config.cacheDir world.home = .ok cacheDir)
    (hcreated : world.createDirAll cacheDir = .ok ())
    (hreplied : world.send (downloadUrl modelName) = .ok reply)
    (self : ModelManager Engine) :
    Ends (receiveReply world modelName cacheDir reply) self
      (fun _ next => world.Downloads config modelName ∧
        self.SameModel next ∧ next.status = .ready ∧
        next.downloadProgress = none)
      (fun _ next => ¬ world.Downloads config modelName ∧
        self.SameModel next ∧ next.status = self.status) := by
  rw [receiveReply, ends_bind, checkReply]
  by_cases haccepted : reply.status.isSuccess = true
  · rw [if_pos haccepted, ends_pure, ends_bind, ends_attempt]
    cases hopened : world.createFile (tempPath cacheDir modelName) with
    | error error =>
        refine ⟨?_, SameModel.refl self, rfl⟩
        intro hdownloads
        have hother := (hdownloads.serves hlocated hreplied).opened
        rw [hopened] at hother
        cases hother
    | ok _ =>
        dsimp only
        rw [ends_bind]
        refine (receiveChunks_ends modelName reply.contentLength reply.chunks
          0 self).mono ?_ ?_
        · rintro downloaded next ⟨hreceived, hsame, hstatus⟩
          rw [ends_bind, ends_attempt]
          cases hflushed : world.flush with
          | error error =>
              refine ⟨?_, hsame, hstatus⟩
              intro hdownloads
              have hother := (hdownloads.serves hlocated hreplied).flushed
              rw [hflushed] at hother
              cases hother
          | ok _ =>
              dsimp only
              rw [ends_bind, ends_attempt]
              cases hrenamed : world.rename (tempPath cacheDir modelName)
                  (modelPath cacheDir modelName) with
              | error error =>
                  refine ⟨?_, hsame, hstatus⟩
                  intro hdownloads
                  have hother :=
                    (hdownloads.serves hlocated hreplied).renamed
                  rw [hrenamed] at hother
                  cases hother
              | ok _ =>
                  refine ⟨⟨cacheDir, reply, ?_⟩, ?_, rfl, rfl⟩
                  · exact ⟨hlocated, hcreated, hreplied, haccepted, hopened,
                      hreceived, hflushed, hrenamed⟩
                  · exact ⟨hsame.config, hsame.model, hsame.path⟩
        · rintro _ next ⟨⟨chunk, hmem, hlost⟩, hsame, hstatus⟩
          refine ⟨?_, hsame, hstatus⟩
          intro hdownloads
          exact hlost
            ((hdownloads.serves hlocated hreplied).received chunk hmem)
  · rw [if_neg haccepted, ends_throw]
    refine ⟨?_, SameModel.refl self, rfl⟩
    intro hdownloads
    exact haccepted (hdownloads.serves hlocated hreplied).accepted

/-- A download that succeeds says ready, one that fails says loading, and
neither touches the model. -/
theorem downloadModel_ends (modelName : String) (self : ModelManager Engine) :
    Ends (downloadModel world modelName) self
      (fun _ next => world.Downloads self.config modelName ∧
        self.SameModel next ∧ next.status = .ready ∧
        next.downloadProgress = none)
      (fun _ next => ¬ world.Downloads self.config modelName ∧
        self.SameModel next ∧ next.status = .loading) := by
  rw [downloadModel, ends_bind, ends_setStatus, ends_bind, ends_get, ends_bind]
  dsimp only
  cases hlocated : self.config.cacheDir world.home with
  | error error =>
      rw [ends_fromAnswer_error]
      refine ⟨?_, ⟨rfl, rfl, rfl⟩, rfl⟩
      rintro ⟨cacheDir, reply, hserves⟩
      rw [hserves.located] at hlocated
      cases hlocated
  | ok cacheDir =>
      rw [ends_fromAnswer_ok, ends_bind, ends_attempt]
      cases hcreated : world.createDirAll cacheDir with
      | error error =>
          refine ⟨?_, ⟨rfl, rfl, rfl⟩, rfl⟩
          rintro ⟨otherDir, reply, hserves⟩
          have hdir := hserves.located
          rw [hlocated, Except.ok.injEq] at hdir
          rw [hdir, hserves.created] at hcreated
          cases hcreated
      | ok _ =>
          dsimp only
          rw [ends_bind, ends_attempt]
          cases hreplied : world.send (downloadUrl modelName) with
          | error error =>
              refine ⟨?_, ⟨rfl, rfl, rfl⟩, rfl⟩
              rintro ⟨otherDir, reply, hserves⟩
              rw [hserves.replied] at hreplied
              cases hreplied
          | ok reply =>
              refine (receiveReply_ends world hlocated hcreated hreplied
                _).mono ?_ ?_
              · rintro _ next ⟨hdownloads, hsame, hready, hcleared⟩
                exact ⟨hdownloads, hsame.announced, hready, hcleared⟩
              · rintro _ next ⟨hfails, hsame, hstatus⟩
                exact ⟨hfails, hsame.announced, hstatus⟩

def BackendValid (tables : CaseTables) (config : AppConfig) : Prop :=
  ∃ backend, config.backend tables = .ok backend

theorem engineResult_ok_iff {path : Path} {backend : LiteRTBackend} :
    (∃ engine, engineResult world path backend = .ok engine) ↔
      world.Loads path backend := by
  cases backend with
  | cpu => simp [engineResult, ModelWorld.Loads]
  | gpu =>
      unfold engineResult ModelWorld.Loads
      cases world.newEngine path .gpu with
      | ok engine => simp
      | error gpuError =>
          cases world.newEngine path .cpu with
          | ok engine => simp [Except.mapError]
          | error cpuError => simp [Except.mapError]

/-- A load succeeds, or stops before the engine is tried and says loading, or
says which error it met. -/
theorem loadModel_ends (path : Path) (self : ModelManager Engine) :
    Ends (loadModel tables world path) self
      (fun _ next =>
        (∃ backend, self.config.backend tables = .ok backend ∧
          world.Loads path backend) ∧
        next.currentModel.isSome ∧ next.status = .ready ∧
        next.downloadProgress = self.downloadProgress)
      (fun _ next =>
        self.SameModel next ∧
        next.downloadProgress = self.downloadProgress ∧
        ((¬ BackendValid tables self.config ∧ next.status = .loading) ∨
          ∃ backend message, self.config.backend tables = .ok backend ∧
            ¬ world.Loads path backend ∧ next.status = .error message)) := by
  rw [loadModel, ends_bind, ends_setStatus, ends_bind, ends_get, ends_bind]
  dsimp only
  cases hbackend : self.config.backend tables with
  | error error =>
      rw [ends_fromAnswer_error]
      refine ⟨⟨rfl, rfl, rfl⟩, rfl, Or.inl ⟨?_, rfl⟩⟩
      rintro ⟨backend, hvalid⟩
      rw [hbackend] at hvalid
      cases hvalid
  | ok backend =>
      rw [ends_fromAnswer_ok]
      cases hengine : engineResult world path backend with
      | ok engine =>
          have hloads := (engineResult_ok_iff world).mp ⟨engine, hengine⟩
          exact ⟨⟨backend, rfl, hloads⟩, rfl, rfl, rfl⟩
      | error error =>
          refine ⟨⟨rfl, rfl, rfl⟩, rfl, Or.inr ⟨backend, _, rfl, ?_, rfl⟩⟩
          intro hloads
          obtain ⟨engine, hmade⟩ := (engineResult_ok_iff world).mpr hloads
          rw [hengine] at hmade
          cases hmade

/-! ## Calls that keep the manager consistent -/

/-- The program leaves the manager consistent exactly under the condition,
and where it stops under the condition no model was loaded. -/
def Settles {Value : Type} (program : Managing Engine Value)
    (self : ModelManager Engine) (condition : Prop) : Prop :=
  Ends program self (fun _ next => next.Consistent ↔ condition)
    (fun _ next => (next.Consistent ↔ condition) ∧
      (condition → self.currentModel = none))

theorem not_consistent_of_loading {self : ModelManager Engine}
    (hloading : self.status = .loading) : ¬ self.Consistent :=
  fun hconsistent => hconsistent.not_loading hloading

theorem downloadModel_settles (modelName : String)
    (self : ModelManager Engine) :
    Settles (downloadModel world modelName) self
      (self.currentModel.isSome ∧ world.Downloads self.config modelName) := by
  refine (downloadModel_ends world modelName self).mono ?_ ?_
  · rintro _ next ⟨hdownloads, hsame, hready, hcleared⟩
    constructor
    · intro hconsistent
      rw [← hsame.model]
      exact ⟨hconsistent.ready_iff.mp hready, hdownloads⟩
    · rintro ⟨hmodel, _⟩
      refine ⟨?_, ?_, hcleared⟩
      · rw [hready, hsame.model]
        exact iff_of_true rfl hmodel
      · rw [hready]
        decide
  · rintro _ next ⟨hfails, _, hloading⟩
    refine ⟨iff_of_false (not_consistent_of_loading hloading) ?_, ?_⟩
    · rintro ⟨_, hdownloads⟩
      exact hfails hdownloads
    · rintro ⟨_, hdownloads⟩
      exact absurd hdownloads hfails

theorem loadModel_settles (path : Path) {self : ModelManager Engine}
    (hprogress : self.downloadProgress = none) :
    Settles (loadModel tables world path) self
      (∃ backend, self.config.backend tables = .ok backend ∧
        (self.currentModel = none ∨ world.Loads path backend)) := by
  refine (loadModel_ends tables world path self).mono ?_ ?_
  · rintro _ next ⟨⟨backend, hbackend, hloads⟩, hmodel, hready, hsame⟩
    refine iff_of_true ⟨?_, ?_, hsame.trans hprogress⟩
      ⟨backend, hbackend, Or.inr hloads⟩
    · exact iff_of_true hready hmodel
    · rw [hready]
      decide
  · rintro _ next ⟨hsame, hkept, hfails⟩
    rcases hfails with ⟨hinvalid, hloading⟩ |
      ⟨backend, message, hbackend, hfails, herror⟩
    · refine ⟨iff_of_false (not_consistent_of_loading hloading) ?_, ?_⟩
      · rintro ⟨backend, hbackend, _⟩
        exact hinvalid ⟨backend, hbackend⟩
      · rintro ⟨backend, hbackend, _⟩
        exact absurd ⟨backend, hbackend⟩ hinvalid
    · have hnone : (∃ backend, self.config.backend tables = .ok backend ∧
          (self.currentModel = none ∨ world.Loads path backend)) →
          self.currentModel = none := by
        rintro ⟨other, hother, hnone | hloads⟩
        · exact hnone
        · rw [hbackend, Except.ok.injEq] at hother
          subst hother
          exact absurd hloads hfails
      refine ⟨⟨?_, ?_⟩, hnone⟩
      · intro hconsistent
        refine ⟨backend, hbackend, Or.inl ?_⟩
        have hready := hconsistent.ready_iff
        rw [herror, hsame.model] at hready
        cases hmodel : self.currentModel with
        | none => rfl
        | some engine =>
            rw [hmodel] at hready
            cases hready.mpr rfl
      · intro hcondition
        refine ⟨?_, ?_, hkept.trans hprogress⟩
        · rw [herror, hsame.model, hnone hcondition]
          simp
        · rw [herror]
          simp

/-- What `ensure_model_available` needs when no model is loaded. -/
def Ensures (config : AppConfig) : Prop :=
  match semanticPath world config with
  | some _ => BackendValid tables config
  | none =>
      match listCachedModels tables config world.home world.cache with
      | .error _ => True
      | .ok models =>
          match modelToUse config models with
          | some _ => BackendValid tables config
          | none =>
              match modelToDownload tables world config with
              | .error _ => True
              | .ok name =>
                  world.Downloads config name ∧ BackendValid tables config

theorem loadModel_settles_of_none (path : Path) {self : ModelManager Engine}
    (hprogress : self.downloadProgress = none)
    (hmodel : self.currentModel = none) :
    Settles (loadModel tables world path) self
      (BackendValid tables self.config) := by
  have hsettles := loadModel_settles tables world path hprogress
  simp only [hmodel, true_or, and_true] at hsettles
  exact hsettles

theorem Settles.congr {Value : Type} {program : Managing Engine Value}
    {self : ModelManager Engine} {condition other : Prop}
    (hsettles : Settles program self condition) (hiff : condition ↔ other) :
    Settles program self other := by
  rwa [Settles, ← hiff]

theorem downloadThenLoad_settles (name : String) {self : ModelManager Engine}
    (hmodel : self.currentModel = none) :
    Settles
      (do
        let _ ← downloadModel world name
        let cacheDir ← fromAnswer (self.config.cacheDir world.home)
        loadModel tables world (Path.join cacheDir name))
      self
      (world.Downloads self.config name ∧ BackendValid tables self.config) := by
  rw [Settles, ends_bind]
  refine (downloadModel_ends world name self).mono ?_ ?_
  · rintro _ next ⟨hdownloads, hsame, _, hcleared⟩
    obtain ⟨cacheDir, reply, hserves⟩ := hdownloads
    have hnone : next.currentModel = none := hsame.model.trans hmodel
    rw [ends_bind, hserves.located, ends_fromAnswer_ok]
    have hsettles := loadModel_settles_of_none tables world
      (Path.join cacheDir name) hcleared hnone
    rw [hsame.config] at hsettles
    have hdownloads : world.Downloads self.config name :=
      ⟨cacheDir, reply, hserves⟩
    have hsame : BackendValid tables self.config ↔
        world.Downloads self.config name ∧ BackendValid tables self.config :=
      (and_iff_right hdownloads).symm
    refine Ends.mono (hsettles.congr hsame) ?_ ?_
    · intro _ last hiff
      exact hiff
    · rintro _ last ⟨hiff, _⟩
      exact ⟨hiff, fun _ => hmodel⟩
  · rintro _ next ⟨hfails, _, hloading⟩
    refine ⟨iff_of_false (not_consistent_of_loading hloading) ?_, ?_⟩
    · rintro ⟨hdownloads, _⟩
      exact hfails hdownloads
    · intro _
      exact hmodel

theorem ensureModelAvailable_settles {self : ModelManager Engine}
    (hself : self.Consistent) :
    Settles (ensureModelAvailable tables world) self
      (self.currentModel.isSome ∨ Ensures tables world self.config) := by
  rw [Settles, ensureModelAvailable, ends_bind, ends_get]
  cases hmodel : self.currentModel with
  | some engine =>
      rw [ends_pure]
      exact iff_of_true hself (Or.inl rfl)
  | none =>
      have hload : ∀ path, Settles (loadModel tables world path) self
          (BackendValid tables self.config) := fun path =>
        loadModel_settles_of_none tables world path hself.no_progress hmodel
      have hunchanged : ∀ error : LlmError,
          Settles (throw error : Managing Engine Unit) self True := fun error =>
        ⟨iff_of_true hself trivial, fun _ => hmodel⟩
      suffices hsettles : Settles _ self (Ensures tables world self.config) by
        simpa [Settles, hmodel] using hsettles
      unfold Ensures
      cases semanticPath world self.config with
      | some path => exact hload path
      | none =>
          dsimp only
          rw [Settles, ends_bind]
          cases listCachedModels tables self.config world.home world.cache with
          | error error => exact hunchanged error
          | ok models =>
              rw [ends_fromAnswer_ok]
              dsimp only
              cases modelToUse self.config models with
              | some model => exact hload model.path
              | none =>
                  dsimp only
                  rw [ends_bind]
                  cases modelToDownload tables world self.config with
                  | error error => exact hunchanged error
                  | ok name =>
                      exact downloadThenLoad_settles tables world name hmodel

/-- When a call keeps the manager consistent. -/
def Keeps (self : ModelManager Engine) (made : CallIn Engine) : Prop :=
  match made.call with
  | .downloadModel modelName =>
      self.currentModel.isSome ∧ made.world.Downloads self.config modelName
  | .loadModel path =>
      ∃ backend, self.config.backend tables = .ok backend ∧
        (self.currentModel = none ∨ made.world.Loads path backend)
  | .ensureModelAvailable =>
      self.currentModel.isSome ∨ Ensures tables made.world self.config

theorem perform_settles {self : ModelManager Engine}
    (hself : self.Consistent) (made : CallIn Engine) :
    Settles (perform tables made) self (Keeps tables self made) := by
  obtain ⟨call, world⟩ := made
  cases call with
  | downloadModel modelName =>
      rw [Settles, perform, ends_bind]
      exact downloadModel_settles world modelName self
  | loadModel path =>
      exact loadModel_settles tables world path hself.no_progress
  | ensureModelAvailable => exact ensureModelAvailable_settles tables world hself

theorem consistent_final_iff {self : ModelManager Engine}
    (hself : self.Consistent) (made : CallIn Engine) :
    (final (perform tables made) self).Consistent ↔ Keeps tables self made :=
  (perform_settles tables hself made).final
    (fun _ _ hiff => hiff) (fun _ _ hstopped => hstopped.1)

/-- A call that returns an error leaves a model that was loaded loaded, and
reported as ready. -/
def ErrorKeepsModel (self : ModelManager Engine) (made : CallIn Engine) :
    Prop :=
  ∀ error next, perform tables made self = .error error next →
    ∀ engine, self.currentModel = some engine →
      next.currentModel = some engine ∧ next.status = .ready

theorem errorKeepsModel_of_keeps {self : ModelManager Engine}
    (hself : self.Consistent) {made : CallIn Engine}
    (hkeeps : Keeps tables self made) : ErrorKeepsModel tables self made := by
  intro error next hrun engine hengine
  have hstopped := (perform_settles tables hself made).of_error hrun
  have hnone := hstopped.2 hkeeps
  rw [hengine] at hnone
  cases hnone

theorem new_consistent (config : AppConfig) :
    (new config : ModelManager Engine).Consistent := by
  constructor <;> simp [new]

theorem along_errorKeepsModel {self : ModelManager Engine}
    (hself : self.Consistent) {trace : List (CallIn Engine)}
    (halong : (machine tables).Along (Keeps tables) self trace) :
    (machine tables).Along (ErrorKeepsModel tables) self trace := by
  induction trace generalizing self with
  | nil => trivial
  | cons made rest ih =>
      rintro _ ⟨rfl⟩
      obtain ⟨hkeeps, hrest⟩ := halong _ rfl
      exact ⟨errorKeepsModel_of_keeps tables hself hkeeps,
        ih ((consistent_final_iff tables hself made).mpr hkeeps) hrest⟩

/-- Between calls the manager is consistent, and no error unloads a model, in
just those runs in which every call meets its condition. -/
theorem modelStates_iff (config : AppConfig)
    (trace : List (CallIn Engine)) :
    ((machine tables).Throughout Consistent (new config) trace ∧
      (machine tables).Along (ErrorKeepsModel tables) (new config) trace) ↔
      (machine tables).Along (Keeps tables) (new config) trace := by
  have hexact : (machine tables).Throughout Consistent (new config) trace ↔
      (machine tables).Along (Keeps tables) (new config) trace := by
    apply StepMachine.throughout_iff_along _ (fun _ hself => hself) _
      (new_consistent config)
    · rintro self made _ hself ⟨rfl⟩ hkeeps
      exact (consistent_final_iff tables hself made).mpr hkeeps
    · rintro self made _ hself ⟨rfl⟩ hnext
      exact (consistent_final_iff tables hself made).mp hnext
  constructor
  · rintro ⟨hthrough, _⟩
    exact hexact.mp hthrough
  · intro halong
    refine ⟨hexact.mpr halong, ?_⟩
    exact along_errorKeepsModel tables (new_consistent config) halong

/-- Characters outside ASCII stay as they are. -/
def plainTables : CaseTables where
  toLower char := [char]
  cased _ := false
  caseIgnorable _ := false

/-- Engines can be made, but nothing can be fetched. -/
def offline : ModelWorld Unit where
  home := none
  createDirAll _ := .ok ()
  send _ := .error "no route"
  createFile _ := .ok ()
  flush := .ok ()
  rename _ _ := .ok ()
  pathExists _ := false
  cache _ := ⟨false, .ok []⟩
  cacheAgain _ := ⟨false, .ok []⟩
  hfToken := none
  huggingface _ := .error "no route"
  enableKaggleFetch := false
  kaggle := .error "no route"
  newEngine _ _ := .ok ()

def localConfig : AppConfig where
  model := ⟨none, "models"⟩
  llm := ⟨"cpu", none⟩

/-- A model is loaded; then a download fails. -/
def failedDownload : List (CallIn Unit) :=
  [⟨.loadModel "models/gemma3-1b.gguf", offline⟩,
    ⟨.downloadModel "phi-4-mini", offline⟩]

theorem not_modelStates :
    ¬ ((machine plainTables).Throughout Consistent (new localConfig)
        failedDownload ∧
      (machine plainTables).Along (ErrorKeepsModel plainTables)
        (new localConfig) failedDownload) := by
  rintro ⟨hthrough, _⟩
  have hlast := hthrough failedDownload (List.prefix_refl _) _ rfl
  exact hlast.not_loading (by rfl)

end Calls

end ModelManager

end Llm
end Acdp
