import Acdp.SandboxProcessLiveness
import Acdp.SandboxSentText
import Acdp.SandboxService

/-!
# What is received of the output of a process

A child prints what it likes, when it likes.  Its output goes through the pipe
to the task that reads lines, and through the channel to whoever receives.
When the stream has ended, what was received is the lines of the output as
they are sent, up to the first one that is not a text.
-/

namespace Acdp
namespace Sandbox

/-- One stream of a child with its receiver; `printed` is all that the child
has written to it. -/
structure OutputStream where
  running : Bool := true
  printed : Bytes := []
  side : Side := {}
  received : List Bytes := []

inductive OutputEvent where
  | print (byte : UInt8)
  | exit
  | read (count : ℕ)
  | takeLine
  | endOfFile
  | send
  | receive

/-- Each byte and each line has so many steps before it at most. -/
def Side.work (side : Side) : ℕ :=
  4 * side.pipe.length + 3 * side.taken.length +
    2 * side.pending.toList.length + side.channel.length +
    side.forwarding.toNat

theorem Side.work_got_lt {side : Side} (hreading : side.Reading)
    {raw rest : Bytes} (hraw : raw ≠ []) (htaken : side.taken = raw ++ rest) :
    (side.got raw rest).work < side.work := by
  have hlength := List.length_pos_iff.mpr hraw
  rw [Side.got]
  split_ifs with htext
  · simp only [work, hreading.1, hreading.2, htaken, List.length_append,
      Option.toList_some, Option.toList_none, List.length_cons,
      List.length_nil]
    omega
  · simp only [work, Side.close, hreading.1, hreading.2, htaken,
      List.length_append, List.length_nil, Bool.toNat_true, Bool.toNat_false]
    omega

namespace OutputStream

def withSide (self : OutputStream) (side : Side) : OutputStream :=
  { self with side }

/-- What the child writes to a pipe that nobody reads any more is lost. -/
def print (capacity : ℕ) (byte : UInt8) (self : OutputStream) :
    Option OutputStream :=
  if self.running then
    let printed := self.printed ++ [byte]
    if self.side.forwarding then
      (self.side.write capacity byte).map fun side =>
        { self with printed, side }
    else some { self with printed }
  else none

def receive (self : OutputStream) : Option OutputStream :=
  match self.side.channel with
  | chunk :: rest =>
      some { self with
        side := { self.side with channel := rest }
        received := self.received ++ [chunk] }
  | [] => none

def step (capacity : ℕ) (self : OutputStream) :
    OutputEvent → Option OutputStream
  | .print byte => self.print capacity byte
  | .exit =>
      if self.running then some { self with running := false } else none
  | .read count => (self.side.read count).map self.withSide
  | .takeLine => self.side.takeLine.map self.withSide
  | .endOfFile =>
      if self.running then none else self.side.endOfFile.map self.withSide
  | .send => self.side.send.map self.withSide
  | .receive => self.receive

def machine (capacity : ℕ) : StepMachine OutputStream OutputEvent :=
  ⟨step capacity⟩

/-- The child has exited, and the receiver has been told that there is no
more. -/
def Complete (self : OutputStream) : Prop :=
  self.running = false ∧ self.side.forwarding = false ∧
    self.side.channel = []

/-- What was received is what was printed, and so is what a node writes to a
file after a node that has run the child. -/
def Faithful (self : OutputStream) : Prop :=
  self.received.flatten = self.printed ∧
    ∀ stream : ExecutionStream, stream.stdout = self.received →
      asBytes (stdoutText stream) = self.printed

/-! ## What one step does -/

variable {capacity : ℕ}

inductive Steps (capacity : ℕ) (state : OutputStream) : OutputStream → Prop
  | write (byte : UInt8) (side : Side) (hrunning : state.running = true)
      (hwrite : state.side.write capacity byte = some side) :
      Steps capacity state
        { state with printed := state.printed ++ [byte], side }
  | lose (byte : UInt8) (hrunning : state.running = true)
      (hclosed : state.side.forwarding = false) :
      Steps capacity state { state with printed := state.printed ++ [byte] }
  | exit (hrunning : state.running = true) :
      Steps capacity state { state with running := false }
  | works (side : Side) (hworks : state.side.Works False side) :
      Steps capacity state (state.withSide side)
  | fragment (hexited : state.running = false) (hreading : state.side.Reading)
      (hline : newline ∉ state.side.taken) (htaken : state.side.taken ≠ [])
      (hpipe : state.side.pipe = []) :
      Steps capacity state
        (state.withSide (state.side.got state.side.taken []))
  | close (hexited : state.running = false) (hreading : state.side.Reading)
      (htaken : state.side.taken = []) (hpipe : state.side.pipe = []) :
      Steps capacity state (state.withSide state.side.close)
  | receive (chunk : Bytes) (rest : List Bytes)
      (hchannel : state.side.channel = chunk :: rest) :
      Steps capacity state { state with
        side := { state.side with channel := rest }
        received := state.received ++ [chunk] }

theorem steps_of_step {state next : OutputStream} {event : OutputEvent}
    (hnext : state.step capacity event = some next) :
    state.Steps capacity next := by
  cases event with
  | print byte =>
      simp only [step, print] at hnext
      split_ifs at hnext with hrunning hopen
      · rw [Option.map_eq_some_iff] at hnext
        obtain ⟨side, hwrite, rfl⟩ := hnext
        exact .write byte side hrunning hwrite
      · cases hnext
        exact .lose byte hrunning (by simpa using hopen)
  | exit =>
      simp only [step] at hnext
      split_ifs at hnext with hrunning
      cases hnext
      exact .exit hrunning
  | read count =>
      simp only [step, Option.map_eq_some_iff] at hnext
      obtain ⟨side, hside, rfl⟩ := hnext
      exact .works side (Side.works_of_read hside)
  | takeLine =>
      simp only [step, Option.map_eq_some_iff] at hnext
      obtain ⟨side, hside, rfl⟩ := hnext
      exact .works side (Side.works_of_takeLine hside)
  | endOfFile =>
      simp only [step] at hnext
      split_ifs at hnext with hrunning
      rw [Option.map_eq_some_iff] at hnext
      obtain ⟨side, hside, rfl⟩ := hnext
      have hexited : state.running = false := by simpa using hrunning
      rw [Side.endOfFile] at hside
      split_ifs at hside with hguard htaken
      · cases hside
        exact .close hexited hguard.1 htaken hguard.2.2
      · cases hside
        exact .fragment hexited hguard.1 hguard.2.1 htaken hguard.2.2
  | send =>
      simp only [step, Option.map_eq_some_iff] at hnext
      obtain ⟨side, hside, rfl⟩ := hnext
      exact .works side (Side.works_of_send hside)
  | receive =>
      simp only [step, receive] at hnext
      cases hchannel : state.side.channel with
      | nil => simp [hchannel] at hnext
      | cons chunk rest =>
          rw [hchannel] at hnext
          cases hnext
          exact .receive chunk rest hchannel

/-! ## What holds in every state -/

/-- The output has a line that is not a text, and the line has ended. -/
def Spoilt (self : OutputStream) : Prop :=
  (self.running = false ∧ ¬ isUtf8 self.printed = true) ∨
    ∃ front rest, self.printed = front ++ newline :: rest ∧
      ¬ isUtf8 front = true

theorem Spoilt.not_text {self : OutputStream} (hspoilt : self.Spoilt) :
    ¬ isUtf8 self.printed = true := by
  rcases hspoilt with ⟨-, htext⟩ | ⟨front, rest, hprinted, hfront⟩
  · exact htext
  · intro htext
    rw [hprinted, isUtf8_split_iff] at htext
    exact hfront htext.1

/-- As long as the task runs, what was printed is the lines that it has got
and what is left of it; the last line can lack its end when nothing is
left. -/
structure Sound (state : OutputStream) : Prop where
  tidy : state.side.Tidy
  sent : state.received ++ state.side.channel ++ state.side.pending.toList =
    state.side.lines.map deliveredLine
  texts : ∀ line ∈ state.side.lines, isUtf8 line = true
  conserved : state.side.forwarding = true →
    state.printed =
      state.side.lines.flatten ++ state.side.taken ++ state.side.pipe
  whole : state.side.forwarding = true →
    (∀ line ∈ state.side.lines, IsLine newline line) ∨
      (state.running = false ∧ state.side.taken = [] ∧ state.side.pipe = [] ∧
        splitLines newline state.printed = state.side.lines)
  ended : state.side.forwarding = false →
    (state.running = false ∧
      splitLines newline state.printed = state.side.lines) ∨ state.Spoilt

theorem sound_new : ({} : OutputStream).Sound where
  tidy := Side.tidy_new
  sent := rfl
  texts := by simp
  conserved _ := rfl
  whole _ := Or.inl (by simp)
  ended hclosed := by cases hclosed

variable {state : OutputStream}

theorem Sound.write (hstate : state.Sound) {byte : UInt8} {side : Side}
    (hrunning : state.running = true)
    (hwrite : state.side.write capacity byte = some side) :
    { state with printed := state.printed ++ [byte], side }.Sound := by
  obtain ⟨hopen, rfl⟩ := Side.write_eq hwrite
  exact {
    tidy := {
      closed := fun hclosed => by
        rw [hopen] at hclosed
        cases hclosed
      channel_le := hstate.tidy.channel_le }
    sent := hstate.sent
    texts := hstate.texts
    conserved := fun _ => by
      rw [hstate.conserved hopen, List.append_assoc _ state.side.pipe]
    whole := fun _ => by
      refine (hstate.whole hopen).imp_right ?_
      rintro ⟨hexited, -⟩
      rw [hrunning] at hexited
      cases hexited
    ended := fun hclosed => by
      rw [hopen] at hclosed
      cases hclosed }

theorem Sound.lose (hstate : state.Sound) (byte : UInt8)
    (hrunning : state.running = true)
    (hclosed : state.side.forwarding = false) :
    { state with printed := state.printed ++ [byte] }.Sound where
  tidy := hstate.tidy
  sent := hstate.sent
  texts := hstate.texts
  conserved hopen := by
    rw [hclosed] at hopen
    cases hopen
  whole hopen := by
    rw [hclosed] at hopen
    cases hopen
  ended _ := by
    rcases hstate.ended hclosed with ⟨hexited, -⟩ | hspoilt
    · rw [hrunning] at hexited
      cases hexited
    · rcases hspoilt with ⟨hexited, -⟩ | ⟨front, rest, hprinted, hfront⟩
      · rw [hrunning] at hexited
        cases hexited
      · exact Or.inr (Or.inr ⟨front, rest ++ [byte], by simp [hprinted],
          hfront⟩)

theorem Sound.exit (hstate : state.Sound) (hrunning : state.running = true) :
    { state with running := false }.Sound where
  tidy := hstate.tidy
  sent := hstate.sent
  texts := hstate.texts
  conserved := hstate.conserved
  whole hopen := by
    refine (hstate.whole hopen).imp_right ?_
    rintro ⟨hexited, -⟩
    rw [hrunning] at hexited
    cases hexited
  ended hclosed := by
    refine (hstate.ended hclosed).imp ?_ ?_
    · rintro ⟨-, hlines⟩
      exact ⟨rfl, hlines⟩
    · intro hspoilt
      exact Or.inl ⟨rfl, hspoilt.not_text⟩

theorem Sound.receive (hstate : state.Sound) {chunk : Bytes}
    {rest : List Bytes} (hchannel : state.side.channel = chunk :: rest) :
    { state with
      side := { state.side with channel := rest }
      received := state.received ++ [chunk] }.Sound where
  tidy := {
    closed := hstate.tidy.closed
    channel_le := by
      have hle := hstate.tidy.channel_le
      rw [hchannel, List.length_cons] at hle
      exact Nat.le_of_succ_le hle }
  sent := by
    rw [← hstate.sent, hchannel]
    simp
  texts := hstate.texts
  conserved := hstate.conserved
  whole := hstate.whole
  ended := hstate.ended

/-- A text is one more line; what is not a text ends the task. -/
theorem Sound.got (hstate : state.Sound) (hreading : state.side.Reading)
    {raw rest : Bytes} (htaken : state.side.taken = raw ++ rest)
    (hwhole : isUtf8 raw = true →
      (∀ line ∈ state.side.lines ++ [raw], IsLine newline line) ∨
        (state.running = false ∧ rest = [] ∧ state.side.pipe = [] ∧
          splitLines newline state.printed = state.side.lines ++ [raw]))
    (hspoilt : ¬ isUtf8 raw = true → state.Spoilt) :
    (state.withSide (state.side.got raw rest)).Sound := by
  have htidy := hstate.tidy.got hreading raw rest
  have hsent := hstate.sent
  rw [hreading.2, Option.toList_none, List.append_nil] at hsent
  rw [withSide]
  rw [Side.got] at htidy ⊢
  split_ifs at htidy ⊢ with htext
  · exact {
      tidy := htidy
      sent := by
        rw [List.map_append, ← hsent]
        rfl
      texts := by
        intro line hline
        rcases List.mem_append.mp hline with hold | hnew
        · exact hstate.texts line hold
        · rw [List.mem_singleton.mp hnew]
          exact htext
      conserved := fun _ => by
        rw [hstate.conserved hreading.1, htaken]
        simp
      whole := fun _ => hwhole htext
      ended := fun hclosed => by
        rw [hreading.1] at hclosed
        cases hclosed }
  · exact {
      tidy := htidy
      sent := by
        change state.received ++ state.side.channel ++
          state.side.pending.toList = _
        exact hstate.sent
      texts := hstate.texts
      conserved := fun hopen => by cases hopen
      whole := fun hopen => by cases hopen
      ended := fun _ => Or.inr (hspoilt htext) }

/-- A line is taken while all lines before it have their ends. -/
theorem Sound.lines_of_taken (hstate : state.Sound)
    (hopen : state.side.forwarding = true) (htaken : state.side.taken ≠ []) :
    ∀ line ∈ state.side.lines, IsLine newline line ∧ isUtf8 line = true := by
  have hlines := (hstate.whole hopen).resolve_right
    (fun hnothing => htaken hnothing.2.1)
  intro line hline
  exact ⟨hlines line hline, hstate.texts line hline⟩

theorem Sound.works (hstate : state.Sound) {side : Side}
    (hworks : state.side.Works False side) : (state.withSide side).Sound := by
  have htidy := hstate.tidy.works hworks
  cases hworks with
  | read count hreading =>
      exact {
        tidy := htidy
        sent := hstate.sent
        texts := hstate.texts
        conserved := fun hopen => by
          rw [withSide, hstate.conserved hopen]
          simp
        whole := fun hopen => by
          refine (hstate.whole hopen).imp_right ?_
          rintro ⟨hexited, htaken, hpipe, hlines⟩
          exact ⟨hexited, by simp [withSide, htaken, hpipe],
            by simp [withSide, hpipe], hlines⟩
        ended := hstate.ended }
  | line raw rest hreading hline htaken =>
      have hne : state.side.taken ≠ [] := by
        obtain ⟨body, -, rfl⟩ := hline
        simp [htaken]
      have hlines := hstate.lines_of_taken hreading.1 hne
      refine hstate.got hreading htaken ?_ ?_
      · intro _
        refine Or.inl ?_
        intro line hmem
        rcases List.mem_append.mp hmem with hold | hnew
        · exact (hlines line hold).1
        · rw [List.mem_singleton.mp hnew]
          exact hline
      · intro htext
        obtain ⟨body, -, rfl⟩ := hline
        refine Or.inr ⟨state.side.lines.flatten ++ body,
          rest ++ state.side.pipe, ?_, ?_⟩
        · rw [hstate.conserved hreading.1, htaken]
          simp
        · rw [isUtf8_flatten_append_iff hlines]
          rwa [isUtf8_line_iff] at htext
  | fragment hno _ _ => cases hno
  | close hno _ => cases hno
  | send line hpending hroom =>
      exact {
        tidy := htidy
        sent := by
          have hsent := hstate.sent
          rw [hpending] at hsent
          simpa [withSide] using hsent
        texts := hstate.texts
        conserved := hstate.conserved
        whole := hstate.whole
        ended := hstate.ended }

/-- The last line of an output can lack its end. -/
theorem Sound.fragment (hstate : state.Sound)
    (hexited : state.running = false) (hreading : state.side.Reading)
    (hline : newline ∉ state.side.taken) (htaken : state.side.taken ≠ [])
    (hpipe : state.side.pipe = []) :
    (state.withSide (state.side.got state.side.taken [])).Sound := by
  have hlines := hstate.lines_of_taken hreading.1 htaken
  have hprinted := hstate.conserved hreading.1
  rw [hpipe, List.append_nil] at hprinted
  refine hstate.got hreading (by simp) ?_ ?_
  · intro _
    refine Or.inr ⟨hexited, rfl, hpipe, ?_⟩
    rw [hprinted, splitLines_flatten_append
      (fun line hmem => (hlines line hmem).1), splitLines_fragment htaken hline]
  · intro htext
    refine Or.inl ⟨hexited, ?_⟩
    rwa [hprinted, isUtf8_flatten_append_iff hlines]

theorem Sound.close (hstate : state.Sound) (hexited : state.running = false)
    (hreading : state.side.Reading) (htaken : state.side.taken = [])
    (hpipe : state.side.pipe = []) :
    (state.withSide state.side.close).Sound where
  tidy := hstate.tidy.close hreading.2
  sent := hstate.sent
  texts := hstate.texts
  conserved hopen := by cases hopen
  whole hopen := by cases hopen
  ended _ := by
    refine Or.inl ⟨hexited, ?_⟩
    rcases hstate.whole hreading.1 with hlines | ⟨-, -, -, hlines⟩
    · have hprinted := hstate.conserved hreading.1
      rw [htaken, hpipe, List.append_nil] at hprinted
      have hsplit := splitLines_flatten_append hlines []
      rw [← hprinted] at hsplit
      rw [withSide, Side.close]
      simpa [splitLines] using hsplit
    · exact hlines

theorem Sound.step {next : OutputStream} (hstate : state.Sound)
    (hsteps : state.Steps capacity next) : next.Sound := by
  cases hsteps with
  | write byte side hrunning hwrite => exact hstate.write hrunning hwrite
  | lose byte hrunning hclosed => exact hstate.lose byte hrunning hclosed
  | exit hrunning => exact hstate.exit hrunning
  | works side hworks => exact hstate.works hworks
  | fragment hexited hreading hline htaken hpipe =>
      exact hstate.fragment hexited hreading hline htaken hpipe
  | close hexited hreading htaken hpipe =>
      exact hstate.close hexited hreading htaken hpipe
  | receive chunk rest hchannel => exact hstate.receive hchannel

theorem sound_of_run {trace : List OutputEvent} {reached : OutputStream}
    (hrun : (machine capacity).run {} trace = some reached) :
    reached.Sound := by
  refine StepMachine.run_invariant ?_ sound_new hrun
  intro state event next hstate hnext
  exact hstate.step (steps_of_step hnext)

/-! ## When an output arrives as it was -/

/-- What was received is always a text. -/
theorem Sound.received_text (hstate : state.Sound) :
    isUtf8 state.received.flatten = true := by
  apply isUtf8_flatten
  intro chunk hchunk
  have hmem : chunk ∈ state.side.lines.map deliveredLine := by
    rw [← hstate.sent]
    simp [hchunk]
  obtain ⟨line, hline, rfl⟩ := List.mem_map.mp hmem
  exact isUtf8_deliveredLine (hstate.texts line hline)

theorem asBytes_stdoutText {stream : ExecutionStream}
    (htext : isUtf8 stream.stdout.flatten = true) :
    asBytes (stdoutText stream) = stream.stdout.flatten := by
  obtain ⟨text, hbytes⟩ := isUtf8_iff.mp htext
  rw [stdoutText, ← hbytes, fromUtf8Lossy_asBytes]

theorem Sound.faithful_iff (hstate : state.Sound) :
    state.Faithful ↔ state.received.flatten = state.printed := by
  refine and_iff_left_of_imp ?_
  intro hsame stream hstream
  rw [asBytes_stdoutText (by rw [hstream]; exact hstate.received_text),
    hstream, hsame]

theorem Sound.received_eq_iff (hstate : state.Sound)
    (hcomplete : state.Complete) :
    state.received.flatten = state.printed ↔ Plain state.printed := by
  obtain ⟨hexited, hclosed, hchannel⟩ := hcomplete
  have hsent := hstate.sent
  rw [hchannel, (hstate.tidy.closed hclosed).2.2, List.append_nil,
    Option.toList_none, List.append_nil] at hsent
  rcases hstate.ended hclosed with ⟨-, hlines⟩ | hspoilt
  · have hflatten : state.printed = state.side.lines.flatten := by
      rw [← hlines, flatten_splitLines]
    have htext : isUtf8 state.printed = true := by
      rw [hflatten]
      exact isUtf8_flatten hstate.texts
    have hreceived : state.received.flatten = sentText state.printed := by
      rw [hsent, sentText, hlines]
    rw [hreceived, sentText_eq_iff]
    constructor
    · rintro ⟨hends, hreturn⟩
      exact ⟨htext, hends, hreturn⟩
    · intro hplain
      exact ⟨hplain.ends, hplain.noReturn⟩
  · constructor
    · intro hsame
      apply absurd _ hspoilt.not_text
      rw [← hsame]
      exact hstate.received_text
    · intro hplain
      exact absurd hplain.text hspoilt.not_text

/-- However the child, the task and the receiver take turns, an output arrives
as it was printed exactly when it is a text whose lines all end with a line
break alone. -/
theorem faithful_iff_plain (capacity : ℕ) (trace : List OutputEvent)
    (reached : OutputStream)
    (hrun : (machine capacity).run {} trace = some reached)
    (hcomplete : reached.Complete) :
    reached.Faithful ↔ Plain reached.printed := by
  have hsound := sound_of_run hrun
  rw [hsound.faithful_iff, hsound.received_eq_iff hcomplete]

/-- A child that prints one letter. -/
def letterTrace : List OutputEvent :=
  [.print 97, .exit, .read 1, .endOfFile, .send, .endOfFile, .receive]

def letterReached : OutputStream where
  running := false
  printed := [97]
  side := { forwarding := false, lines := [[97]] }
  received := [[97, newline]]

theorem run_letter :
    (machine 1).run {} letterTrace = some letterReached := by
  have htext : isUtf8 [97] = true := isUtf8_iff.mpr ⟨"a", rfl⟩
  simp [letterTrace, StepMachine.run_cons, machine, step, print, receive,
    Side.write, Side.read, Side.Reading, Side.endOfFile, Side.got, Side.send,
    Side.close, withSide, htext, letterReached, newline, readerBytes,
    channelSlots, deliveredLine]

theorem letter_faithful_iff :
    letterReached.Faithful ↔ Plain letterReached.printed :=
  faithful_iff_plain 1 letterTrace letterReached run_letter ⟨rfl, rfl, rfl⟩

/-- The letter arrives with a line break that was not printed. -/
theorem letter_not_faithful :
    ¬ ∀ (capacity : ℕ) (trace : List OutputEvent) (reached : OutputStream),
      (machine capacity).run {} trace = some reached → reached.Complete →
        reached.Faithful := by
  intro hall
  have hfaithful := hall 1 letterTrace letterReached run_letter
    ⟨rfl, rfl, rfl⟩
  have hsame : ([97, newline] : Bytes) = [97] := hfaithful.1
  simp at hsame

/-! ## Every run can be completed -/

/-- A step of a stream whose child has exited; it leaves less to do. -/
def Advances (capacity : ℕ) (state next : OutputStream) : Prop :=
  (∃ event, state.step capacity event = some next) ∧
    next.side.work < state.side.work ∧ next.running = state.running ∧
      next.printed = state.printed

theorem advances_of_line (hreading : state.side.Reading)
    (hline : newline ∈ state.side.taken) :
    ∃ next, state.Advances capacity next := by
  obtain ⟨body, rest, -, htaken, hbefore, -⟩ :=
    LineReader.exists_split_of_mem hline
  have hrest : state.side.taken.drop (body.length + 1) = rest := by
    rw [htaken, List.append_cons, ← List.length_singleton,
      ← List.length_append, List.drop_left]
  have hstep : state.side.takeLine =
      some (state.side.got (body ++ [newline]) rest) := by
    rw [Side.takeLine, if_pos ⟨hreading, hline⟩, hbefore]
    dsimp only
    rw [hrest]
  refine ⟨state.withSide (state.side.got (body ++ [newline]) rest),
    ⟨.takeLine, ?_⟩, ?_, rfl, rfl⟩
  · rw [step, hstep]
    rfl
  · exact Side.work_got_lt hreading (by simp) (by simp [htaken])

theorem advances_of_pipe (hreading : state.side.Reading)
    (hline : newline ∉ state.side.taken) (hpipe : state.side.pipe ≠ []) :
    ∃ next, state.Advances capacity next := by
  have hlength := List.length_pos_iff.mpr hpipe
  refine ⟨state.withSide { state.side with
    taken := state.side.taken ++ state.side.pipe.take 1
    pipe := state.side.pipe.drop 1 }, ⟨.read 1, ?_⟩, ?_, rfl, rfl⟩
  · have hcount : 1 ≤ min readerBytes state.side.pipe.length :=
      le_min (by decide) hlength
    rw [step, Side.read, if_pos ⟨hreading, hline, Nat.one_pos, hcount⟩]
    rfl
  · simp only [withSide, Side.work, List.length_append, List.length_take,
      List.length_drop]
    omega

theorem advances_of_end (hexited : state.running = false)
    (hreading : state.side.Reading) (hline : newline ∉ state.side.taken)
    (hpipe : state.side.pipe = []) :
    ∃ next, state.Advances capacity next := by
  by_cases htaken : state.side.taken = []
  · refine ⟨state.withSide state.side.close, ⟨.endOfFile, ?_⟩, ?_, rfl, rfl⟩
    · simp only [step, hexited, Bool.false_eq_true, if_false, Side.endOfFile,
        if_pos (And.intro hreading (And.intro hline hpipe)), if_pos htaken]
      rfl
    · simp [withSide, Side.work, Side.close, hreading.1]
  · refine ⟨state.withSide (state.side.got state.side.taken []),
      ⟨.endOfFile, ?_⟩, ?_, rfl, rfl⟩
    · simp only [step, hexited, Bool.false_eq_true, if_false, Side.endOfFile,
        if_pos (And.intro hreading (And.intro hline hpipe)), if_neg htaken]
      rfl
    · exact Side.work_got_lt hreading htaken (by simp)

/-- Until the stream is complete, its task or its receiver can take a step. -/
theorem advances_or_complete (capacity : ℕ) (hexited : state.running = false) :
    (∃ next, state.Advances capacity next) ∨ state.Complete := by
  cases hchannel : state.side.channel with
  | cons chunk rest =>
      refine Or.inl ⟨{ state with
        side := { state.side with channel := rest }
        received := state.received ++ [chunk] }, ⟨.receive, ?_⟩, ?_, rfl, rfl⟩
      · rw [step, receive, hchannel]
      · simp [Side.work, hchannel]
  | nil =>
      by_cases hopen : state.side.forwarding = true
      · refine Or.inl ?_
        cases hpending : state.side.pending with
        | some line =>
            refine ⟨state.withSide { state.side with
              channel := [] ++ [line]
              pending := none }, ⟨.send, ?_⟩, ?_, rfl, rfl⟩
            · simp [step, Side.send, hpending, hchannel, channelSlots]
            · simp [withSide, Side.work, hpending, hchannel]
        | none =>
            have hreading : state.side.Reading := ⟨hopen, hpending⟩
            by_cases hline : newline ∈ state.side.taken
            · exact advances_of_line hreading hline
            · by_cases hpipe : state.side.pipe = []
              · exact advances_of_end hexited hreading hline hpipe
              · exact advances_of_pipe hreading hline hpipe
      · exact Or.inr ⟨hexited, by simpa using hopen, hchannel⟩

theorem exists_complete_of_exited (capacity : ℕ)
    (hexited : state.running = false) :
    ∃ rest last, (machine capacity).run state rest = some last ∧
      last.Complete ∧ last.printed = state.printed := by
  -- the induction is on what is left to do
  induction hwork : state.side.work using Nat.strong_induction_on
    generalizing state with
  | _ work ih =>
      rcases advances_or_complete capacity hexited with
        ⟨next, ⟨event, hstep⟩, hless, hrunning, hprinted⟩ | hcomplete
      · obtain ⟨rest, last, hrun, hcomplete, hlast⟩ :=
          ih next.side.work (hwork ▸ hless) (hrunning.trans hexited) rfl
        refine ⟨event :: rest, last, ?_, hcomplete, hlast.trans hprinted⟩
        rw [StepMachine.run_cons]
        exact Option.bind_eq_some_iff.mpr ⟨next, hstep, hrun⟩
      · exact ⟨[], state, rfl, hcomplete, rfl⟩

/-- Wherever a run has got to, it can be completed when the child prints no
more. -/
theorem exists_complete (capacity : ℕ) (state : OutputStream) :
    ∃ rest last, (machine capacity).run state rest = some last ∧
      last.Complete ∧ last.printed = state.printed := by
  by_cases hrunning : state.running = true
  · obtain ⟨rest, last, hrun, hcomplete, hlast⟩ :=
      exists_complete_of_exited capacity
        (show { state with running := false }.running = false from rfl)
    refine ⟨.exit :: rest, last, ?_, hcomplete, hlast⟩
    rw [StepMachine.run_cons]
    refine Option.bind_eq_some_iff.mpr ⟨_, ?_, hrun⟩
    change state.step capacity .exit = _
    rw [step, if_pos hrunning]
  · exact exists_complete_of_exited capacity (by simpa using hrunning)

end OutputStream
end Sandbox
end Acdp
