import Acdp.SandboxProcessLiveness

/-!
# A program that blocks itself and its interpreter

The other direction: where the output of a program clogs its standard error,
there is a run that ends in a state where nobody can go on.  In this run every
byte is read and every line is sent as soon as it can be, so the claim holds
of a program just when its output does not clog.
-/

namespace Acdp
namespace Sandbox

theorem prefix_of_flatten_append {lines others : List Bytes}
    (hlines : ∀ line ∈ lines, IsLine newline line)
    (hothers : ∀ line ∈ others, IsLine newline line) {rest left : Bytes}
    (hsame : lines.flatten ++ rest = others.flatten ++ left)
    (hlength : lines.length ≤ others.length) : lines <+: others := by
  have hsplit : lines ++ splitLines newline rest =
      others ++ splitLines newline left := by
    rw [← splitLines_flatten_append hlines, hsame,
      splitLines_flatten_append hothers]
  have hbegins : lines <+: others ++ splitLines newline left := by
    rw [← hsplit]
    exact List.prefix_append _ _
  exact List.prefix_of_prefix_length_le hbegins (List.prefix_append _ _) hlength

namespace Side

/-- The task has got the whole lines among `bytes`, and waits for more. -/
structure Awaits (bytes : Bytes) (side : Side) : Prop where
  forwarding_eq : side.forwarding = true
  pipe_eq : side.pipe = []
  pending_eq : side.pending = none
  bytes_eq : bytes = side.lines.flatten ++ side.taken
  lines_are : ∀ line ∈ side.lines, IsLine newline line
  taken_part : newline ∉ side.taken

/-- The task has filled the channel and holds another line; what came after it
is in the pipe. -/
structure Holds (bytes : Bytes) (side : Side) : Prop where
  forwarding_eq : side.forwarding = true
  pending_ne : side.pending ≠ none
  taken_eq : side.taken = []
  bytes_eq : bytes = side.lines.flatten ++ side.pipe
  lines_are : ∀ line ∈ side.lines, IsLine newline line
  lines_length : side.lines.length = channelSlots + 1
  channel_full : side.channel.length = channelSlots

variable {side : Side} {bytes : Bytes}

theorem awaits_new : ({} : Side).Awaits [] where
  forwarding_eq := rfl
  pipe_eq := rfl
  pending_eq := rfl
  bytes_eq := rfl
  lines_are := by simp
  taken_part := by simp

theorem Awaits.takes {side : Side} (hawaits : side.Awaits bytes) {byte : UInt8}
    (hbyte : byte ≠ newline) :
    { side with taken := side.taken ++ [byte] }.Awaits (bytes ++ [byte]) where
  forwarding_eq := hawaits.forwarding_eq
  pipe_eq := hawaits.pipe_eq
  pending_eq := hawaits.pending_eq
  bytes_eq := by rw [hawaits.bytes_eq, List.append_assoc]
  lines_are := hawaits.lines_are
  taken_part := by simpa [Ne.symm hbyte] using hawaits.taken_part

theorem takeLine_of_part {side : Side} (hreading : side.Reading)
    (hpart : newline ∉ side.taken)
    (htext : isUtf8 (side.taken ++ [newline]) = true) :
    { side with taken := side.taken ++ [newline] }.takeLine =
      some { side with
        pending := some (deliveredLine (side.taken ++ [newline]))
        taken := []
        lines := side.lines ++ [side.taken ++ [newline]] } := by
  have hbefore : (side.taken ++ [newline]).takeWhile
      (fun byte => byte ≠ newline) = side.taken := by
    rw [List.takeWhile_append_of_pos]
    · simp
    · intro byte hbyte
      simpa using ne_of_mem_of_not_mem hbyte hpart
  have hreading' :
      { side with taken := side.taken ++ [newline] }.Reading := hreading
  have hmem : newline ∈ side.taken ++ [newline] := by simp
  have hafter :
      (side.taken ++ [newline]).drop (side.taken.length + 1) = [] := by
    simp
  simp only [takeLine, if_pos (And.intro hreading' hmem), hbefore, hafter, got,
    if_pos htext]

theorem Awaits.forall_lines {side : Side} (hawaits : side.Awaits bytes) :
    ∀ line ∈ side.lines ++ [side.taken ++ [newline]], IsLine newline line := by
  rw [List.forall_mem_append, List.forall_mem_singleton]
  exact ⟨hawaits.lines_are, side.taken, hawaits.taken_part, rfl⟩

theorem Awaits.lines_eq {side : Side} (hawaits : side.Awaits bytes) :
    bytes ++ [newline] = (side.lines ++ [side.taken ++ [newline]]).flatten := by
  rw [hawaits.bytes_eq]
  simp

theorem Awaits.sends {side : Side} (hawaits : side.Awaits bytes)
    (channel : List Bytes) :
    { side with
      taken := []
      lines := side.lines ++ [side.taken ++ [newline]]
      channel := channel }.Awaits (bytes ++ [newline]) where
  forwarding_eq := hawaits.forwarding_eq
  pipe_eq := hawaits.pipe_eq
  pending_eq := hawaits.pending_eq
  bytes_eq := by rw [hawaits.lines_eq, List.append_nil]
  lines_are := hawaits.forall_lines
  taken_part := List.not_mem_nil

theorem Awaits.holds {side : Side} (hawaits : side.Awaits bytes)
    (hlines : side.lines.length = channelSlots)
    (hchannel : side.channel.length = channelSlots) (line : Bytes) :
    { side with
      taken := []
      lines := side.lines ++ [side.taken ++ [newline]]
      pending := some line }.Holds (bytes ++ [newline]) where
  forwarding_eq := hawaits.forwarding_eq
  pending_ne := Option.some_ne_none line
  taken_eq := rfl
  bytes_eq := by rw [hawaits.lines_eq, hawaits.pipe_eq, List.append_nil]
  lines_are := hawaits.forall_lines
  lines_length := by rw [List.length_append, hlines, List.length_singleton]
  channel_full := hchannel

theorem Holds.writes {side : Side} (hholds : side.Holds bytes) (byte : UInt8) :
    { side with pipe := side.pipe ++ [byte] }.Holds (bytes ++ [byte]) where
  forwarding_eq := hholds.forwarding_eq
  pending_ne := hholds.pending_ne
  taken_eq := hholds.taken_eq
  bytes_eq := by rw [hholds.bytes_eq, List.append_assoc]
  lines_are := hholds.lines_are
  lines_length := hholds.lines_length
  channel_full := hholds.channel_full

theorem Awaits.text_of_textLines {side : Side} (hawaits : side.Awaits bytes)
    {more : Bytes} (htext : TextLines (bytes ++ newline :: more)) :
    isUtf8 (side.taken ++ [newline]) = true := by
  have hsplit : splitLines newline (bytes ++ newline :: more) =
      (side.lines ++ [side.taken ++ [newline]]) ++ splitLines newline more := by
    rw [List.append_cons, hawaits.lines_eq,
      splitLines_flatten_append hawaits.forall_lines]
  apply htext
  · rw [hsplit]
    simp
  · simp

theorem Awaits.text_of_lines {side : Side} (hawaits : side.Awaits bytes)
    {more rest : Bytes} {lines : List Bytes}
    (hsame : bytes ++ newline :: more = lines.flatten ++ rest)
    (hlines : ∀ line ∈ lines, IsLine newline line ∧ isUtf8 line = true)
    (hlength : side.lines.length < lines.length) :
    isUtf8 (side.taken ++ [newline]) = true := by
  have hbegins : side.lines ++ [side.taken ++ [newline]] <+: lines := by
    apply prefix_of_flatten_append hawaits.forall_lines
      (fun line hline => (hlines line hline).1)
    · rw [← hawaits.lines_eq, ← hsame, ← List.append_cons]
    · rw [List.length_append, List.length_singleton]
      exact hlength
  apply (hlines _ (hbegins.subset _)).2
  simp

/-- A task that has got all but some of the lines has more to get. -/
theorem Awaits.length_lines {side : Side} (hawaits : side.Awaits bytes)
    {rest : Bytes} {lines : List Bytes} (hsame : bytes = lines.flatten ++ rest)
    (hlines : ∀ line ∈ lines, IsLine newline line) :
    lines.length ≤ side.lines.length := by
  have hsplit : side.lines ++ splitLines newline side.taken =
      lines ++ splitLines newline rest := by
    rw [← splitLines_flatten_append hawaits.lines_are, ← hawaits.bytes_eq, hsame,
      splitLines_flatten_append hlines]
  by_contra hmore
  have hless : side.lines.length < lines.length := Nat.lt_of_not_le hmore
  have hline : (lines ++ splitLines newline rest)[side.lines.length]? =
      (splitLines newline side.taken)[0]? := by
    rw [← hsplit, List.getElem?_append_right (le_refl _), Nat.sub_self]
  rw [List.getElem?_append_left hless, List.getElem?_eq_getElem hless] at hline
  obtain ⟨body, -, hbody⟩ := hlines _ (List.getElem_mem hless)
  have hmem : newline ∈ (splitLines newline side.taken).flatten := by
    refine List.mem_flatten.mpr ⟨_, List.mem_of_getElem? hline.symm, ?_⟩
    rw [hbody]
    simp
  rw [flatten_splitLines] at hmem
  exact hawaits.taken_part hmem

theorem Holds.pipe_of_lines {side : Side} (hholds : side.Holds bytes)
    {rest : Bytes} {lines : List Bytes} (hsame : bytes = lines.flatten ++ rest)
    (hlines : ∀ line ∈ lines, IsLine newline line)
    (hlength : lines.length = channelSlots + 1) : side.pipe = rest := by
  have hbegins : side.lines <+: lines :=
    prefix_of_flatten_append hholds.lines_are hlines
      (by rw [← hholds.bytes_eq, hsame])
      (by rw [hholds.lines_length, hlength])
  have heq : side.lines = lines :=
    hbegins.eq_of_length (by rw [hholds.lines_length, hlength])
  rw [hholds.bytes_eq, heq] at hsame
  exact List.append_cancel_left hsame

end Side

namespace ProcessExecution

variable {capacity : ℕ} {output before after : Output}
  {state : ProcessExecution} {stream : Stream} {byte : UInt8} {bytes : Bytes}

/-- The state once `rest` is left to write and the stream has become `side`. -/
def advance (state : ProcessExecution) (stream : Stream) (side : Side)
    (rest : Output) : ProcessExecution :=
  { state.withSide stream side with child := .running rest }

@[simp] theorem advance_side (state : ProcessExecution) (stream : Stream)
    (side : Side) (rest : Output) :
    (state.advance stream side rest).side stream = side := by
  simp [advance, withSide]

@[simp] theorem advance_side_of_ne {other : Stream} (hother : other ≠ stream)
    (state : ProcessExecution) (side : Side) (rest : Output) :
    (state.advance stream side rest).side other = state.side other := by
  simp [advance, withSide, hother]

@[simp] theorem withSide_advance (state : ProcessExecution) (stream : Stream)
    (side next : Side) (rest : Output) :
    (state.advance stream side rest).withSide stream next =
      state.advance stream next rest := by
  simp [advance, withSide]

theorem reaches_step {first next : ProcessExecution}
    (hstate : (machine capacity).Reaches first state) (event : ProcessEvent)
    (hnext : state.step capacity event = some next) :
    (machine capacity).Reaches first next := by
  have hmachine : (machine capacity).step state event = some next := hnext
  exact hstate.next hmachine

theorem reaches_taken {first : ProcessExecution}
    (hstate : (machine capacity).Reaches first state) (hcapacity : 0 < capacity)
    {rest : Output} (hchild : state.child = .running ((stream, byte) :: rest))
    (hawaits : (state.side stream).Awaits bytes) :
    (machine capacity).Reaches first
      (state.advance stream { state.side stream with
        taken := (state.side stream).taken ++ [byte] } rest) := by
  have hwrite : state.step capacity .write =
      some (state.advance stream
        { state.side stream with pipe := [byte] } rest) := by
    simp [step, childStep, hchild, Side.write, hawaits.forwarding_eq,
      hawaits.pipe_eq, hcapacity, advance]
  have hread : (state.advance stream
        { state.side stream with pipe := [byte] } rest).step capacity
          (.read stream 1) =
      some (state.advance stream { state.side stream with
        taken := (state.side stream).taken ++ [byte] } rest) := by
    simp [step, Side.read, Side.Reading, hawaits.forwarding_eq,
      hawaits.pending_eq, hawaits.taken_part, hawaits.pipe_eq, readerBytes]
  exact reaches_step (reaches_step hstate .write hwrite) (.read stream 1) hread

/-- The stream once its task holds the line that the byte ends. -/
def lineHeld (side : Side) : Side :=
  { side with
    pending := some (deliveredLine (side.taken ++ [newline]))
    taken := []
    lines := side.lines ++ [side.taken ++ [newline]] }

theorem reaches_lineHeld {first : ProcessExecution}
    (hstate : (machine capacity).Reaches first state) (hcapacity : 0 < capacity)
    {rest : Output}
    (hchild : state.child = .running ((stream, newline) :: rest))
    (hawaits : (state.side stream).Awaits bytes)
    (htext : isUtf8 ((state.side stream).taken ++ [newline]) = true) :
    (machine capacity).Reaches first
      (state.advance stream (lineHeld (state.side stream)) rest) := by
  have htaken := reaches_taken hstate hcapacity hchild hawaits
  have hline : { state.side stream with
        taken := (state.side stream).taken ++ [newline] }.takeLine =
      some (lineHeld (state.side stream)) :=
    Side.takeLine_of_part ⟨hawaits.forwarding_eq, hawaits.pending_eq⟩
      hawaits.taken_part htext
  apply reaches_step htaken (.takeLine stream)
  rw [step, advance_side, hline, Option.map_some, withSide_advance]

/-- The stream once its task has sent that line. -/
def lineSent (side : Side) : Side :=
  { side with
    taken := []
    lines := side.lines ++ [side.taken ++ [newline]]
    channel := side.channel ++ [deliveredLine (side.taken ++ [newline])] }

theorem reaches_lineSent {first : ProcessExecution}
    (hstate : (machine capacity).Reaches first state) (hcapacity : 0 < capacity)
    {rest : Output}
    (hchild : state.child = .running ((stream, newline) :: rest))
    (hawaits : (state.side stream).Awaits bytes)
    (htext : isUtf8 ((state.side stream).taken ++ [newline]) = true)
    (hroom : (state.side stream).channel.length < channelSlots) :
    (machine capacity).Reaches first
      (state.advance stream (lineSent (state.side stream)) rest) := by
  have hheld := reaches_lineHeld hstate hcapacity hchild hawaits htext
  apply reaches_step hheld (.send stream)
  simp [step, Side.send, lineHeld, lineSent, hroom, hawaits.pending_eq]

theorem exists_reaches_received {first : ProcessExecution}
    (hstate : (machine capacity).Reaches first state)
    (hconsumer : state.consumer = .draining stream) {chunk : Bytes}
    {rest : List Bytes} (hchannel : (state.side stream).channel = chunk :: rest) :
    ∃ buffer, (machine capacity).Reaches first
      { state.withSide stream { state.side stream with channel := rest } with
        buffer := buffer } := by
  refine ⟨Function.update state.buffer stream (state.buffer stream ++ chunk), ?_⟩
  apply reaches_step hstate .receive
  simp [step, ProcessExecution.receive, hconsumer, Side.receive, hchannel]

/-- Nothing is on its way but the lines put aside for standard error. -/
structure Quiet (capacity : ℕ) (before after : Output)
    (state : ProcessExecution) : Prop where
  child_eq : state.child = .running after
  consumer_eq : state.consumer = .draining .stdout
  stdout : (state.side .stdout).Awaits (bytesOf .stdout before)
  stdout_channel : (state.side .stdout).channel = []
  stderr :
    ((state.side .stderr).Awaits (bytesOf .stderr before) ∧
        (state.side .stderr).lines.length ≤ channelSlots ∧
        (state.side .stderr).channel.length =
          (state.side .stderr).lines.length) ∨
      ((state.side .stderr).Holds (bytesOf .stderr before) ∧
        (state.side .stderr).pipe.length ≤ capacity)

theorem exists_quiet_of_stdout {first : ProcessExecution}
    (hstate : (machine capacity).Reaches first state) (hcapacity : 0 < capacity)
    (hquiet : state.Quiet capacity before ((.stdout, byte) :: after))
    {more : Bytes}
    (htext : TextLines (bytesOf .stdout before ++ byte :: more)) :
    ∃ next, (machine capacity).Reaches first next ∧
      next.Quiet capacity (before ++ [(.stdout, byte)]) after := by
  have hout : bytesOf .stdout (before ++ [(.stdout, byte)]) =
      bytesOf .stdout before ++ [byte] := by
    rw [bytesOf_append, bytesOf_same]
  have herr : bytesOf .stderr (before ++ [(.stdout, byte)]) =
      bytesOf .stderr before := by
    rw [bytesOf_append, bytesOf_other (by decide), List.append_nil]
  by_cases hbyte : byte = newline
  · subst hbyte
    have hsent := reaches_lineSent hstate hcapacity hquiet.child_eq hquiet.stdout
      (hquiet.stdout.text_of_textLines htext)
      (by rw [hquiet.stdout_channel]; decide)
    obtain ⟨buffer, hreceived⟩ := exists_reaches_received hsent hquiet.consumer_eq
      (by rw [advance_side, lineSent, hquiet.stdout_channel, List.nil_append])
    rw [withSide_advance, advance_side] at hreceived
    refine ⟨_, hreceived, ?_⟩
    exact {
      child_eq := rfl
      consumer_eq := hquiet.consumer_eq
      stdout := by
        rw [hout]
        simpa [lineSent] using hquiet.stdout.sends []
      stdout_channel := by simp
      stderr := by
        simp only [advance_side_of_ne (show Stream.stderr ≠ .stdout by decide), herr]
        exact hquiet.stderr }
  · refine ⟨_, reaches_taken hstate hcapacity hquiet.child_eq hquiet.stdout, ?_⟩
    exact {
      child_eq := rfl
      consumer_eq := hquiet.consumer_eq
      stdout := by
        rw [advance_side, hout]
        exact hquiet.stdout.takes hbyte
      stdout_channel := by
        rw [advance_side]
        exact hquiet.stdout_channel
      stderr := by
        rw [advance_side_of_ne (by decide), herr]
        exact hquiet.stderr }

theorem exists_quiet_of_stderr {first : ProcessExecution}
    (hstate : (machine capacity).Reaches first state) (hcapacity : 0 < capacity)
    (hquiet : state.Quiet capacity before ((.stderr, byte) :: after))
    {lines : List Bytes} {more rest : Bytes}
    (hsame : bytesOf .stderr before ++ byte :: more = lines.flatten ++ rest)
    (hlines : ∀ line ∈ lines, IsLine newline line ∧ isUtf8 line = true)
    (hlength : lines.length = channelSlots + 1)
    (hroom : ¬ (state.side .stderr).Holds (bytesOf .stderr before) ∨
      (state.side .stderr).pipe.length < capacity) :
    ∃ next, (machine capacity).Reaches first next ∧
      next.Quiet capacity (before ++ [(.stderr, byte)]) after := by
  have herr : bytesOf .stderr (before ++ [(.stderr, byte)]) =
      bytesOf .stderr before ++ [byte] := by
    rw [bytesOf_append, bytesOf_same]
  have hquiet_after : ∀ side : Side,
      ((side.Awaits (bytesOf .stderr before ++ [byte]) ∧
          side.lines.length ≤ channelSlots ∧
          side.channel.length = side.lines.length) ∨
        (side.Holds (bytesOf .stderr before ++ [byte]) ∧
          side.pipe.length ≤ capacity)) →
      (state.advance .stderr side after).Quiet capacity
        (before ++ [(.stderr, byte)]) after := by
    intro side hside
    exact {
      child_eq := rfl
      consumer_eq := hquiet.consumer_eq
      stdout := by
        rw [bytesOf_append, bytesOf_other (by decide), List.append_nil,
          advance_side_of_ne (by decide)]
        exact hquiet.stdout
      stdout_channel := by
        rw [advance_side_of_ne (by decide)]
        exact hquiet.stdout_channel
      stderr := by
        rw [advance_side, herr]
        exact hside }
  rcases hquiet.stderr with ⟨hawaits, hle, hchannel⟩ | ⟨hholds, -⟩
  · by_cases hbyte : byte = newline
    · subst hbyte
      have htext := hawaits.text_of_lines hsame hlines (by omega)
      by_cases hfull : (state.side .stderr).lines.length = channelSlots
      · refine ⟨_, reaches_lineHeld hstate hcapacity hquiet.child_eq hawaits htext,
          hquiet_after _ (Or.inr ⟨?_, ?_⟩)⟩
        · exact hawaits.holds hfull (by rw [hchannel, hfull]) _
        · rw [lineHeld, hawaits.pipe_eq]
          exact Nat.zero_le _
      · refine ⟨_, reaches_lineSent hstate hcapacity hquiet.child_eq hawaits htext
          (by omega), hquiet_after _ (Or.inl ⟨?_, ?_, ?_⟩)⟩
        · exact hawaits.sends _
        · simp only [lineSent, List.length_append, List.length_singleton]
          omega
        · simp only [lineSent, List.length_append, List.length_singleton,
            hchannel]
    · exact ⟨_, reaches_taken hstate hcapacity hquiet.child_eq hawaits,
        hquiet_after _ (Or.inl ⟨hawaits.takes hbyte, hle, hchannel⟩)⟩
  · have hless := hroom.resolve_left (not_not_intro hholds)
    have hwrite : state.step capacity .write =
        some (state.advance .stderr { state.side .stderr with
          pipe := (state.side .stderr).pipe ++ [byte] } after) := by
      simp [step, childStep, hquiet.child_eq, Side.write, hholds.forwarding_eq,
        hless, advance]
    refine ⟨_, reaches_step hstate .write hwrite,
      hquiet_after _ (Or.inr ⟨hholds.writes byte, ?_⟩)⟩
    rw [List.length_append, List.length_singleton]
    exact hless

/-- The child waits for room in the pipe, the task of standard error for room
in its channel, the interpreter and the other task for standard output. -/
theorem not_live_of_full
    (hquiet : state.Quiet capacity before ((.stderr, byte) :: after))
    (hholds : (state.side .stderr).Holds bytes)
    (hfull : capacity ≤ (state.side .stderr).pipe.length) :
    ¬ state.Live capacity := by
  intro hlive
  obtain ⟨event, next, hnext⟩ := hlive (Or.inl (by
    rw [hquiet.child_eq]
    exact Child.noConfusion))
  have hpending : ¬ (state.side .stderr).Reading := fun hreading =>
    hholds.pending_ne hreading.2
  cases event with
  | spawn => simp [step, childStep, hquiet.child_eq] at hnext
  | spawnFails => simp [step, childStep, hquiet.child_eq] at hnext
  | write =>
      simp [step, childStep, hquiet.child_eq, Side.write,
        Nat.not_lt_of_le hfull] at hnext
  | writeFails killed =>
      simp [step, childStep, hquiet.child_eq, hholds.forwarding_eq] at hnext
  | exit => simp [step, childStep, hquiet.child_eq] at hnext
  | read stream count =>
      cases stream with
      | stdout =>
          simp only [step, Side.read, hquiet.stdout.pipe_eq] at hnext
          split_ifs at hnext with hguard
          · have hcount := hguard.2.2.2
            rw [List.length_nil, Nat.min_zero] at hcount
            omega
          · cases hnext
      | stderr => simp [step, Side.read, hpending] at hnext
  | takeLine stream =>
      cases stream with
      | stdout =>
          simp [step, Side.takeLine, hquiet.stdout.taken_part] at hnext
      | stderr => simp [step, Side.takeLine, hpending] at hnext
  | endOfFile stream => simp [step, hquiet.child_eq] at hnext
  | send stream =>
      cases stream with
      | stdout => simp [step, Side.send, hquiet.stdout.pending_eq] at hnext
      | stderr =>
          obtain ⟨line, hline⟩ := Option.ne_none_iff_exists'.mp hholds.pending_ne
          simp [step, Side.send, hline, hholds.channel_full] at hnext
  | wait => simp [step, hquiet.child_eq] at hnext
  | receive =>
      simp [step, ProcessExecution.receive, hquiet.consumer_eq, Side.receive,
        hquiet.stdout_channel, hquiet.stdout.forwarding_eq] at hnext

theorem quiet_spawned (capacity : ℕ) (output : Output) :
    { start output with child := .running output }.Quiet capacity [] output where
  child_eq := rfl
  consumer_eq := rfl
  stdout := Side.awaits_new
  stdout_channel := rfl
  stderr := Or.inl ⟨Side.awaits_new, Nat.zero_le _, rfl⟩

/-- The run follows what the program writes, byte by byte, and ends early only
where nobody can go on. -/
theorem exists_quiet_or_stuck (hcapacity : 0 < capacity) {whole : Output}
    (hout : output = whole ++ after) (htext : TextLines (bytesOf .stdout whole))
    {lines : List Bytes} {rest : Bytes}
    (hsame : bytesOf .stderr whole = lines.flatten ++ rest)
    (hlines : ∀ line ∈ lines, IsLine newline line ∧ isUtf8 line = true)
    (hlength : lines.length = channelSlots + 1) (left : Output)
    (hwhole : whole = before ++ left) :
    (∃ state, (machine capacity).Reaches (start output) state ∧
        state.Quiet capacity before (left ++ after)) ∨
      ∃ state, (machine capacity).Reaches (start output) state ∧
        ¬ state.Live capacity := by
  induction before using List.reverseRecOn generalizing left with
  | nil =>
      rw [List.nil_append] at hwhole
      rw [← hwhole, ← hout]
      refine Or.inl ⟨_, ?_, quiet_spawned capacity output⟩
      exact reaches_step ((machine capacity).reaches_refl _) .spawn rfl
  | append_singleton before written ih =>
      rw [List.append_assoc, List.singleton_append] at hwhole
      rcases ih (written :: left) hwhole with ⟨state, hstate, hquiet⟩ | hstuck
      swap
      · exact Or.inr hstuck
      rw [List.cons_append] at hquiet
      obtain ⟨stream, byte⟩ := written
      cases stream with
      | stdout =>
          rw [hwhole, List.append_cons, bytesOf_append, bytesOf_append, bytesOf_same,
            List.append_assoc] at htext
          exact Or.inl (exists_quiet_of_stdout hstate hcapacity hquiet htext)
      | stderr =>
          rw [hwhole, List.append_cons, bytesOf_append, bytesOf_append, bytesOf_same,
            List.append_assoc] at hsame
          by_cases hfull : (state.side .stderr).Holds (bytesOf .stderr before) ∧
              capacity ≤ (state.side .stderr).pipe.length
          · exact Or.inr ⟨state, hstate, not_live_of_full hquiet hfull.1 hfull.2⟩
          · rw [not_and_or, not_le] at hfull
            exact Or.inl (exists_quiet_of_stderr hstate hcapacity hquiet hsame
              hlines hlength hfull)

theorem exists_not_live_of_clogs (hcapacity : 0 < capacity)
    (hclogs : Clogs capacity output) :
    ∃ state, (machine capacity).Reaches (start output) state ∧
      ¬ state.Live capacity := by
  obtain ⟨whole, byte, after, hout, htext, lines, rest, hsame, hlength, hlines,
    hrest⟩ := hclogs
  rcases exists_quiet_or_stuck hcapacity hout htext hsame hlines hlength []
    (List.append_nil whole).symm with ⟨state, hstate, hquiet⟩ | hstuck
  swap
  · exact hstuck
  refine ⟨state, hstate, ?_⟩
  have hare : ∀ line ∈ lines, IsLine newline line :=
    fun line hline => (hlines line hline).1
  rcases hquiet.stderr with ⟨hawaits, hle, -⟩ | ⟨hholds, -⟩
  · have hmore := hawaits.length_lines hsame hare
    omega
  · apply not_live_of_full hquiet hholds
    rw [hholds.pipe_of_lines hsame hare hlength]
    exact hrest

/-- Nobody ever waits for nothing just when the output does not clog. -/
theorem live_iff_not_clogs (capacity : ℕ) (hcapacity : 0 < capacity)
    (output : Output) :
    (∀ trace reached,
        (machine capacity).run (start output) trace = some reached →
        reached.Live capacity) ↔
      ¬ Clogs capacity output := by
  constructor
  · intro hlive hclogs
    obtain ⟨state, ⟨trace, hrun⟩, hstuck⟩ :=
      exists_not_live_of_clogs hcapacity hclogs
    exact hstuck (hlive trace state hrun)
  · intro hfree trace reached hrun
    exact (invariant_of_run hrun).live hcapacity hfree

/-! ### A program that clogs -/

/-- The capacity of a pipe on Linux. -/
def pipeBytes : ℕ := 65536

/-- Empty lines, one more than the channel has slots, and then a line that is
longer than the pipe; everything goes to standard error. -/
def flood (capacity : ℕ) : Output :=
  List.replicate (channelSlots + 1) (.stderr, newline) ++
    List.replicate (capacity + 1) (.stderr, carriageReturn)

theorem bytesOf_replicate_same (count : ℕ) (stream : Stream) (byte : UInt8) :
    bytesOf stream (List.replicate count (stream, byte)) =
      List.replicate count byte := by
  simp [bytesOf]

theorem bytesOf_replicate_other (count : ℕ) {stream other : Stream}
    (hother : other ≠ stream) (byte : UInt8) :
    bytesOf stream (List.replicate count (other, byte)) = [] := by
  simp [bytesOf, hother]

theorem flood_clogs (capacity : ℕ) : Clogs capacity (flood capacity) := by
  have hlast : List.replicate (capacity + 1) (Stream.stderr, carriageReturn) =
      List.replicate capacity (Stream.stderr, carriageReturn) ++
        [(Stream.stderr, carriageReturn)] := List.replicate_succ'
  refine ⟨List.replicate (channelSlots + 1) (.stderr, newline) ++
    List.replicate capacity (.stderr, carriageReturn), carriageReturn, [], ?_, ?_,
    List.replicate (channelSlots + 1) [newline],
    List.replicate capacity carriageReturn, ?_, ?_, ?_, ?_⟩
  · rw [flood, hlast, ← List.append_assoc]
  · rw [bytesOf_append, bytesOf_replicate_other _ (by decide),
      bytesOf_replicate_other _ (by decide)]
    intro line hline
    cases hline
  · rw [bytesOf_append, bytesOf_replicate_same, bytesOf_replicate_same,
      List.flatten_replicate_singleton]
  · rw [List.length_replicate]
  · intro line hline
    rw [List.eq_of_mem_replicate hline]
    exact ⟨⟨[], List.not_mem_nil, rfl⟩, by decide⟩
  · rw [List.length_replicate]

theorem flood_live_iff :
    (∀ trace reached,
        (machine pipeBytes).run (start (flood pipeBytes)) trace = some reached →
        reached.Live pipeBytes) ↔
      ¬ Clogs pipeBytes (flood pipeBytes) := by
  have hcapacity : 0 < pipeBytes := by rw [pipeBytes]; omega
  exact live_iff_not_clogs pipeBytes hcapacity (flood pipeBytes)

theorem flood_not_live :
    ¬ ∀ trace reached,
      (machine pipeBytes).run (start (flood pipeBytes)) trace = some reached →
      reached.Live pipeBytes := by
  intro hlive
  have hcapacity : 0 < pipeBytes := by rw [pipeBytes]; omega
  obtain ⟨state, ⟨trace, hrun⟩, hstuck⟩ :=
    exists_not_live_of_clogs hcapacity (flood_clogs pipeBytes)
  exact hstuck (hlive trace state hrun)

end ProcessExecution
end Sandbox
end Acdp
