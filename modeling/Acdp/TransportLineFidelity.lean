import Acdp.TransportStdioLoop
import Acdp.TransportStdioTransparency

/-!
# Lines through the loop

The lines of the user and of the child are handled whole and in order as long
as no branch completes while the read of another stream has taken part of a
line.  What the child has written before it exits is handled as a whole only
if the loop has read all of it when it notices the exit.
-/

namespace Acdp
namespace Transport
namespace Communication

open Acdp.Core
open StdioHandler (Written)

/-- The streams whose lines are passed on. -/
def Watched (stream : Stream) : Prop := stream ≠ .stderr

/-- The stream whose read the branch completes. -/
def Branch.reads : Branch → Option Stream
  | .userLine _ _ => some .user
  | .stdoutLine _ _ => some .stdout
  | .stderrLine => some .stderr
  | _ => none

def Turn.reader (turn : Turn) : Stream → LineReader UInt8
  | .user => turn.user
  | .stdout => turn.stdout
  | .stderr => turn.stderr

structure LineFidelity (found : Communication) : Prop where
  /-- The lines handled are the first lines of all that has arrived. -/
  running : found.outcome = none →
    ∀ stream, Watched stream → (found.reader stream).Faithful newline
  /-- When the child has exited, they are all its lines. -/
  reaped : found.reaped = true →
    found.stdout.Faithful newline ∧ found.stdout.left = []

/-- No other read has taken part of a line when a branch completes and the loop
goes on, and nothing of the child is left to read when it is found to have
exited. -/
def KeepsLines (json : SerdeJson) (self : Communication) : LoopAction → Prop
  | .event _ => True
  | .branch .wait => self.stdout.left = []
  | .branch branch =>
      self.GoesOn json branch → ∀ stream, Watched stream →
        branch.reads ≠ some stream → (self.reader stream).taken = []

structure Reading (found : Communication) : Prop where
  fidelity : found.LineFidelity
  sound : found.outcome = none →
    ∀ stream, Watched stream → (found.reader stream).Sound newline
  notReaped : found.outcome = none → found.reaped = false

variable {json : SerdeJson} {self next : Communication}

theorem start_reading (handler : StdioHandler) (accepted : List Responder) :
    (start handler accepted).Reading where
  fidelity :=
    { running := by
        intro _ stream _
        cases stream with
        | user => exact LineReader.new_sound.faithful
        | stdout => exact LineReader.new_sound.faithful
        | stderr => exact LineReader.new_sound.faithful
      reaped := Bool.noConfusion }
  sound := by
    intro _ stream _
    cases stream with
    | user => exact LineReader.new_sound
    | stdout => exact LineReader.new_sound
    | stderr => exact LineReader.new_sound
  notReaped _ := rfl

/-- A state in which the loop is running is judged by its readers alone. -/
theorem Reading.of_sound (hreaped : next.reaped = false)
    (hsound : ∀ stream, Watched stream →
      (next.reader stream).Sound newline) : next.Reading where
  fidelity :=
    { running := fun _ stream hstream => (hsound stream hstream).faithful
      reaped := by simp [hreaped] }
  sound _ := hsound
  notReaped _ := hreaped

/-! ## Around the loop -/

theorem reader_setReader (self : Communication) (stream other : Stream)
    (reader : LineReader UInt8) :
    (self.setReader stream reader).reader other =
      if other = stream then reader else self.reader other := by
  cases stream with
  | user => cases other <;> rfl
  | stdout => cases other <;> rfl
  | stderr => cases other <;> rfl

theorem sound_setReader {stream : Stream} {reader : LineReader UInt8}
    (hsound : ∀ other, Watched other → (self.reader other).Sound newline)
    (hreader : Watched stream → reader.Sound newline) :
    ∀ other, Watched other →
      ((self.setReader stream reader).reader other).Sound newline := by
  intro other hother
  rw [reader_setReader]
  split_ifs with hsame
  · exact hreader (hsame ▸ hother)
  · exact hsound other hother

theorem sound_of_reader
    (hsound : ∀ stream, Watched stream → (self.reader stream).Sound newline)
    (hsame : ∀ stream, next.reader stream = self.reader stream) :
    ∀ stream, Watched stream → (next.reader stream).Sound newline := by
  intro stream hstream
  rw [hsame]
  exact hsound stream hstream

theorem event_sound {event : Event}
    (hsound : ∀ stream, Watched stream → (self.reader stream).Sound newline)
    (hevent : self.event event = some next) :
    ∀ stream, Watched stream → (next.reader stream).Sound newline := by
  cases event with
  | arrives stream chunk =>
      obtain ⟨reader, hreader, rfl⟩ := Option.map_eq_some_iff.mp hevent
      exact sound_setReader hsound
        (fun hstream => (hsound stream hstream).arrive hreader)
  | closes stream =>
      rw [Communication.event, Option.some.injEq] at hevent
      rw [← hevent]
      exact sound_setReader hsound
        (fun hstream => (hsound stream hstream).close)
  | polls stream =>
      obtain ⟨reader, hreader, rfl⟩ := Option.map_eq_some_iff.mp hevent
      exact sound_setReader hsound
        (fun hstream => (hsound stream hstream).poll hreader)
  | exits status =>
      simp only [Communication.event] at hevent
      split_ifs at hevent
      rw [Option.some.injEq] at hevent
      rw [← hevent]
      exact sound_of_reader hsound (by intro stream; cases stream <;> rfl)
  | signalsShutdown =>
      rw [Communication.event, Option.some.injEq] at hevent
      rw [← hevent]
      exact sound_of_reader hsound (by intro stream; cases stream <;> rfl)
  | reconfigures manager =>
      rw [Communication.event, Option.some.injEq] at hevent
      rw [← hevent]
      exact sound_of_reader hsound (by intro stream; cases stream <;> rfl)

/-! ## The branches -/

theorem readLine_taken {reader rest : LineReader UInt8} {line : Bytes}
    (hread : reader.readLine newline = some (line, rest)) :
    rest.taken = [] := by
  unfold LineReader.readLine at hread
  split_ifs at hread
  · rw [Option.some.injEq, Prod.mk.injEq] at hread
    rw [← hread.2]
  · rw [Option.some.injEq, Prod.mk.injEq] at hread
    rw [← hread.2]

theorem userTurn_reader {line : Bytes} {user : LineReader UInt8}
    {written : Written} {clock : Clock}
    (hgoes : (self.userTurn json line user written clock).ending = .goesOn) :
    line ≠ [] ∧ ∀ stream,
      (self.userTurn json line user written clock).reader stream =
        if stream = .user then user.record line else self.reader stream := by
  rw [userTurn_goesOn_iff] at hgoes
  rcases self.userTurn_cases line user written clock with
    ⟨hunread, hturn⟩ | ⟨_, hline, _, ⟨_, _, hturn⟩ | ⟨_, _, hresult,
      ⟨_, hturn⟩ | ⟨hwritten, hturn⟩⟩⟩
  · exact absurd hgoes (not_lineGoesOn hunread)
  · refine ⟨hline, fun stream => ?_⟩
    rw [hturn]
    cases stream <;> rfl
  · refine ⟨hline, fun stream => ?_⟩
    rw [hturn]
    cases stream <;> rfl
  · rw [lineGoesOn_iff hline (by assumption)] at hgoes
    exact absurd (hgoes _ hresult) hwritten

theorem stdoutTurn_reader {line : Bytes} {stdout : LineReader UInt8}
    {written : Written} {clock : Clock}
    (hgoes :
      (self.stdoutTurn json line stdout written clock).ending = .goesOn) :
    line ≠ [] ∧ ∀ stream,
      (self.stdoutTurn json line stdout written clock).reader stream =
        if stream = .stdout then stdout.record line
        else self.reader stream := by
  rw [stdoutTurn_goesOn_iff] at hgoes
  rcases self.stdoutTurn_cases line stdout written clock with
    ⟨hunread, _, _, hturn⟩ | ⟨_, hline, _, ⟨_, _, hturn⟩ | ⟨_, _, hresult,
      ⟨_, hturn⟩ | ⟨hwritten, hturn⟩⟩⟩
  · exact absurd hgoes (not_lineGoesOn hunread)
  · refine ⟨hline, fun stream => ?_⟩
    rw [hturn]
    cases stream <;> rfl
  · refine ⟨hline, fun stream => ?_⟩
    rw [hturn]
    cases stream <;> rfl
  · rw [lineGoesOn_iff hline (by assumption)] at hgoes
    exact absurd (hgoes _ hresult) hwritten

/-- A branch after which the loop goes on hands out the line it has read, and
does not touch the other streams. -/
theorem reader_of_goesOn {branch : Branch} {turn : Turn}
    (hturn : self.turn json branch = some turn)
    (hgoes : turn.ending = .goesOn) {stream : Stream}
    (hstream : Watched stream) :
    if branch.reads = some stream then
      ∃ line rest, line ≠ [] ∧
        (self.reader stream).readLine newline = some (line, rest) ∧
        turn.reader stream = rest.record line
    else turn.reader stream = self.reader stream := by
  cases branch with
  | shutdown =>
      rw [goesOn_iff hturn] at hgoes
      exact hgoes.elim
  | tick =>
      rw [Communication.turn, Option.some.injEq] at hturn
      rw [← hturn]
      cases stream <;> rfl
  | query job written clock interceptorDelayMs =>
      obtain ⟨_, _, rfl⟩ := Option.map_eq_some_iff.mp hturn
      cases job with
      | none => cases stream <;> rfl
      | some job => cases stream <;> rfl
  | userLine written clock =>
      obtain ⟨⟨line, user⟩, hread, rfl⟩ := Option.map_eq_some_iff.mp hturn
      obtain ⟨hline, hreader⟩ := userTurn_reader hgoes
      rw [hreader]
      cases stream with
      | user => exact ⟨line, user, hline, hread, rfl⟩
      | stdout => rfl
      | stderr => rfl
  | stdoutLine written clock =>
      obtain ⟨⟨line, stdout⟩, hread, rfl⟩ := Option.map_eq_some_iff.mp hturn
      obtain ⟨hline, hreader⟩ := stdoutTurn_reader hgoes
      rw [hreader]
      cases stream with
      | user => rfl
      | stdout => exact ⟨line, stdout, hline, hread, rfl⟩
      | stderr => rfl
  | stderrLine =>
      obtain ⟨_, _, rfl⟩ := Option.map_eq_some_iff.mp hturn
      cases stream with
      | user => rfl
      | stdout => rfl
      | stderr => exact absurd rfl hstream
  | readError failing =>
      have hfailing : failing = .stderr := (goesOn_iff hturn).mp hgoes
      rw [Communication.turn, Option.some.injEq] at hturn
      rw [← hturn, hfailing]
      cases stream <;> rfl
  | waitError error =>
      rw [goesOn_iff hturn] at hgoes
      exact hgoes.elim
  | wait =>
      rw [goesOn_iff hturn] at hgoes
      exact hgoes.elim

theorem conclude_reader (turn : Turn) (stream : Stream) :
    (self.conclude turn).reader stream = (turn.reader stream).drop := by
  cases stream <;> rfl

/-- After a branch a stream is read faithfully just when its read has been
completed or had taken nothing. -/
theorem faithful_conclude_iff {branch : Branch} {turn : Turn}
    (hturn : self.turn json branch = some turn)
    (hgoes : turn.ending = .goesOn) {stream : Stream}
    (hstream : Watched stream) (hsound : (self.reader stream).Sound newline) :
    (((self.conclude turn).reader stream).Faithful newline ↔
      (branch.reads ≠ some stream → (self.reader stream).taken = [])) ∧
    ((branch.reads ≠ some stream → (self.reader stream).taken = []) →
      ((self.conclude turn).reader stream).Sound newline) := by
  have hreader := reader_of_goesOn hturn hgoes hstream
  rw [conclude_reader]
  split_ifs at hreader with hreads
  · obtain ⟨line, rest, hline, hread, hrecord⟩ := hreader
    have hrecorded := hsound.readLine hread hline
    have htaken : rest.taken = [] := readLine_taken hread
    rw [hrecord]
    have hdropped := hrecorded.drop htaken
    exact ⟨iff_of_true hdropped.faithful (fun hnot => absurd hreads hnot),
      fun _ => hdropped⟩
  · rw [hreader]
    simp only [ne_eq, hreads, not_false_eq_true, true_implies]
    exact ⟨hsound.drop_iff, hsound.drop⟩

theorem keepsLines_iff {branch : Branch} (hwait : branch ≠ .wait) :
    self.KeepsLines json (.branch branch) ↔
      (self.GoesOn json branch → ∀ stream, Watched stream →
        branch.reads ≠ some stream → (self.reader stream).taken = []) := by
  cases branch with
  | wait => exact absurd rfl hwait
  | _ => exact Iff.rfl

/-- A branch that goes on keeps the lines exactly where the condition is
met. -/
theorem conclude_fidelity_iff {branch : Branch} {turn : Turn}
    (hreading : self.Reading) (hrunning : self.outcome = none)
    (hturn : self.turn json branch = some turn) (hwait : branch ≠ .wait) :
    ((self.conclude turn).LineFidelity ↔
        self.KeepsLines json (.branch branch)) ∧
      (self.KeepsLines json (.branch branch) →
        (self.conclude turn).Reading) := by
  have hreaped : (self.conclude turn).reaped = false := by
    rw [← Bool.not_eq_true]
    exact fun htrue => hwait ((reaped_iff hturn).mp htrue)
  have hsound := hreading.sound hrunning
  rw [keepsLines_iff hwait]
  by_cases hgoes : turn.ending = .goesOn
  · have hon := (goesOn_iff hturn).mp hgoes
    constructor
    · constructor
      · intro hfidelity _ stream hstream
        have hfaithful := hfidelity.running
          ((conclude_outcome_eq_none_iff turn).mpr hgoes) stream hstream
        exact (faithful_conclude_iff hturn hgoes hstream
          (hsound stream hstream)).1.mp hfaithful
      · intro hkeeps
        refine ⟨fun _ stream hstream => ?_, by simp [hreaped]⟩
        exact (faithful_conclude_iff hturn hgoes hstream
          (hsound stream hstream)).1.mpr (hkeeps hon stream hstream)
    · intro hkeeps
      refine Reading.of_sound hreaped (fun stream hstream => ?_)
      exact (faithful_conclude_iff hturn hgoes hstream
        (hsound stream hstream)).2 (hkeeps hon stream hstream)
  · have hover : (self.conclude turn).outcome ≠ none :=
      fun hnone => hgoes ((conclude_outcome_eq_none_iff turn).mp hnone)
    have hfidelity : (self.conclude turn).LineFidelity :=
      ⟨fun hnone => absurd hnone hover, by simp [hreaped]⟩
    refine ⟨iff_of_true hfidelity ?_, fun _ => ?_⟩
    · exact fun hon => absurd ((goesOn_iff hturn).mpr hon) hgoes
    · exact ⟨hfidelity, fun hnone => absurd hnone hover,
        fun hnone => absurd hnone hover⟩

theorem waitTurn_stdout (status : Except String ExitStatus) :
    (self.waitTurn status).stdout = self.stdout := by
  cases status with
  | error error => rfl
  | ok status =>
      cases hsuccess : status.success with
      | true => simp [waitTurn, hsuccess, unchanged]
      | false => simp [waitTurn, hsuccess, unchanged]

/-- The exit of the child is noticed after its last line exactly when nothing
is left of its output. -/
theorem conclude_wait_fidelity_iff {turn : Turn} (hreading : self.Reading)
    (hrunning : self.outcome = none)
    (hturn : self.turn json .wait = some turn) :
    ((self.conclude turn).LineFidelity ↔ self.stdout.left = []) ∧
      (self.stdout.left = [] → (self.conclude turn).Reading) := by
  have hreaped : (self.conclude turn).reaped = true := (reaped_iff hturn).mpr rfl
  have hover : (self.conclude turn).outcome ≠ none := by
    intro hnone
    exact (goesOn_iff hturn).mp ((conclude_outcome_eq_none_iff turn).mp hnone)
  have hstdout : (self.conclude turn).stdout = self.stdout.drop := by
    obtain ⟨status, _, rfl⟩ := Option.map_eq_some_iff.mp hturn
    exact congrArg LineReader.drop (waitTurn_stdout (.ok status))
  have hsound : self.stdout.Sound newline :=
    hreading.sound hrunning .stdout Stream.noConfusion
  have hexact : self.stdout.left = [] → (self.conclude turn).LineFidelity := by
    intro hleft
    obtain ⟨htaken, hunread⟩ := List.append_eq_nil_iff.mp hleft
    refine ⟨fun hnone => absurd hnone hover, fun _ => ?_⟩
    rw [hstdout]
    exact ⟨(hsound.drop htaken).faithful, hunread⟩
  refine ⟨⟨?_, hexact⟩, fun hleft => ⟨hexact hleft,
    fun hnone => absurd hnone hover, fun hnone => absurd hnone hover⟩⟩
  intro hfidelity
  obtain ⟨hfaithful, hleft⟩ := hfidelity.reaped hreaped
  rw [hstdout] at hfaithful hleft
  have htaken := hsound.drop_iff.mp hfaithful
  rw [LineReader.left, htaken]
  exact hleft

/-! ## Every run -/

/-- The lines of the user and of the child are handled exactly once, whole and
in order, exactly as long as no read that holds a part of a line is given up,
and nothing of the child is left when its exit ends the loop. -/
theorem throughout_lineFidelity_iff (json : SerdeJson) (handler : StdioHandler)
    (accepted : List Responder) (trace : List LoopAction) :
    (machine json).Throughout LineFidelity (start handler accepted) trace ↔
      (machine json).Along (KeepsLines json) (start handler accepted)
        trace := by
  refine StepMachine.throughout_iff_along ?_
    (fun found (hreading : Reading found) => hreading.fidelity) ?_
    (start_reading handler accepted) trace
  · intro before action after hreading hstep hkeeps
    obtain ⟨hrunning, ⟨event, rfl, hevent⟩ | ⟨branch, turn, rfl, hturn, rfl⟩⟩ :=
      step_cases hstep
    · have haround := event_around hevent
      exact Reading.of_sound (haround.reaped.trans (hreading.notReaped hrunning))
        (event_sound (hreading.sound hrunning) hevent)
    · by_cases hwait : branch = .wait
      · subst hwait
        exact (conclude_wait_fidelity_iff hreading hrunning hturn).2 hkeeps
      · exact (conclude_fidelity_iff hreading hrunning hturn hwait).2 hkeeps
  · intro before action after hreading hstep hafter
    obtain ⟨hrunning, ⟨event, rfl, hevent⟩ | ⟨branch, turn, rfl, hturn, rfl⟩⟩ :=
      step_cases hstep
    · trivial
    · by_cases hwait : branch = .wait
      · subst hwait
        exact (conclude_wait_fidelity_iff hreading hrunning hturn).1.mp hafter
      · exact (conclude_fidelity_iff hreading hrunning hturn hwait).1.mp hafter

/-! ## A tick within a line -/

def tickTrace : List LoopAction :=
  [.event (.arrives .user (asBytes "ping")), .event (.polls .user),
    .branch .tick, .event (.arrives .user (asBytes "pong\n")),
    .branch (.userLine .ok StdioHandler.plainClock)]

/-- The first half of the line is gone, and the second is passed on as a line
of its own. -/
theorem tickTrace_merges :
    ((machine StdioHandler.answerJson).run (start StdioHandler.plainHandler [])
        tickTrace).map (fun reached => reached.toChild) = some ["pong\n"] ∧
      ¬ (machine StdioHandler.answerJson).Throughout LineFidelity
        (start StdioHandler.plainHandler []) tickTrace := by
  have hreached : ((machine StdioHandler.answerJson).run
      (start StdioHandler.plainHandler []) tickTrace).map (fun reached =>
        (reached.toChild, reached.outcome.isNone, reached.user.arrived.length,
          (reached.user.lines.flatten ++ reached.user.left).length)) =
      some (["pong\n"], true, 9, 5) := by
    decide +kernel
  obtain ⟨reached, hrun, hvalues⟩ := Option.map_eq_some_iff.mp hreached
  simp only [Prod.mk.injEq] at hvalues
  obtain ⟨hchild, hrunning, harrived, hkept⟩ := hvalues
  refine ⟨by rw [hrun, Option.map_some, hchild], ?_⟩
  intro hthrough
  have hfidelity := hthrough tickTrace (List.prefix_refl _) reached hrun
  have hfaithful : reached.user.Faithful newline :=
    hfidelity.running (Option.isNone_iff_eq_none.mp hrunning) .user
      Stream.noConfusion
  have hlength := congrArg List.length
    (LineReader.conserved_of_faithful hfaithful)
  omega

end Communication
end Transport
end Acdp
