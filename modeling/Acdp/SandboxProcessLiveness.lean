import Acdp.SandboxProcess

/-!
# When the interpreter and a process block each other

The interpreter does not touch standard error before standard output has
ended.  The task of standard error can put 128 lines aside in the meantime and
holds one more; what the child writes after them stays in the pipe.  When the
pipe is full and the child writes to it once more, nobody can go on as long as
the child keeps its standard output open.
-/

namespace Acdp
namespace Sandbox

/-! ### What one step does to a stream -/

namespace Side

/-- What the task of a stream does, `ended` when nobody writes to it any
more. -/
inductive Works (ended : Prop) (side : Side) : Side → Prop
  | read (count : ℕ) (hreading : side.Reading) :
      Works ended side { side with
        taken := side.taken ++ side.pipe.take count
        pipe := side.pipe.drop count }
  | line (raw rest : Bytes) (hreading : side.Reading)
      (hline : IsLine newline raw) (htaken : side.taken = raw ++ rest) :
      Works ended side (side.got raw rest)
  | fragment (hended : ended) (hreading : side.Reading)
      (hpipe : side.pipe = []) :
      Works ended side (side.got side.taken [])
  | close (hended : ended) (hreading : side.Reading) :
      Works ended side side.close
  | send (line : Bytes) (hpending : side.pending = some line)
      (hroom : side.channel.length < channelSlots) :
      Works ended side { side with
        channel := side.channel ++ [line]
        pending := none }

variable {ended : Prop} {side after : Side}

theorem works_of_read {count : ℕ} (hafter : side.read count = some after) :
    side.Works ended after := by
  rw [Side.read] at hafter
  split_ifs at hafter with hguard
  cases hafter
  exact .read count hguard.1

theorem works_of_takeLine (hafter : side.takeLine = some after) :
    side.Works ended after := by
  rw [takeLine] at hafter
  split_ifs at hafter with hguard
  cases hafter
  obtain ⟨body, rest, hbody, htaken, hbefore, -⟩ :=
    LineReader.exists_split_of_mem hguard.2
  have hrest : side.taken.drop (body.length + 1) = rest := by
    rw [htaken, List.append_cons, ← List.length_singleton, ← List.length_append,
      List.drop_left]
  rw [hbefore, hrest]
  exact .line _ _ hguard.1 ⟨body, hbody, rfl⟩ (by simp [htaken])

theorem works_of_endOfFile (hended : ended)
    (hafter : side.endOfFile = some after) : side.Works ended after := by
  rw [endOfFile] at hafter
  split_ifs at hafter with hguard htaken
  · cases hafter
    exact .close hended hguard.1
  · cases hafter
    exact .fragment hended hguard.1 hguard.2.2

theorem works_of_send (hafter : side.send = some after) :
    side.Works ended after := by
  rw [send] at hafter
  cases hpending : side.pending with
  | none => simp [hpending] at hafter
  | some line =>
      simp only [hpending] at hafter
      split_ifs at hafter with hroom
      cases hafter
      exact .send line hpending hroom

/-- A stream whose task has ended holds nothing but what is in its channel,
and no channel holds more than its slots. -/
structure Tidy (side : Side) : Prop where
  closed : side.forwarding = false →
    side.pipe = [] ∧ side.taken = [] ∧ side.pending = none
  channel_le : side.channel.length ≤ channelSlots

theorem tidy_new : ({} : Side).Tidy where
  closed hclosed := by cases hclosed
  channel_le := Nat.zero_le _

theorem Tidy.close {side : Side} (htidy : side.Tidy)
    (hpending : side.pending = none) : side.close.Tidy where
  closed _ := ⟨rfl, rfl, hpending⟩
  channel_le := htidy.channel_le

theorem Tidy.got {side : Side} (htidy : side.Tidy) (hreading : side.Reading)
    (raw rest : Bytes) : (side.got raw rest).Tidy := by
  rw [Side.got]
  split_ifs with htext
  · exact {
      closed := fun hclosed => by
        rw [hreading.1] at hclosed
        cases hclosed
      channel_le := htidy.channel_le }
  · exact htidy.close hreading.2

theorem Tidy.works {side after : Side} (htidy : side.Tidy)
    (hworks : side.Works ended after) : after.Tidy := by
  cases hworks with
  | read count hreading =>
      exact {
        closed := fun hclosed => by
          rw [hreading.1] at hclosed
          cases hclosed
        channel_le := htidy.channel_le }
  | line raw rest hreading _ _ => exact htidy.got hreading raw rest
  | fragment _ hreading _ => exact htidy.got hreading _ _
  | close _ hreading => exact htidy.close hreading.2
  | send line hpending hroom =>
      exact {
        closed := fun hclosed => by
          rw [(htidy.closed hclosed).2.2] at hpending
          cases hpending
        channel_le := by
          rw [List.length_append, List.length_singleton]
          exact hroom }

/-- Nobody has received a line of this stream. -/
def Unreceived (side : Side) : Prop :=
  side.lines.length = side.channel.length + side.pending.toList.length

theorem Unreceived.got {side : Side} (hunreceived : side.Unreceived)
    (hreading : side.Reading) (raw rest : Bytes) :
    (side.got raw rest).Unreceived := by
  rw [Unreceived, hreading.2] at hunreceived
  rw [Side.got]
  split_ifs with htext
  · simpa [Unreceived] using hunreceived
  · rw [Unreceived, Side.close, hreading.2]
    exact hunreceived

theorem Unreceived.works {side after : Side} (hunreceived : side.Unreceived)
    (hworks : side.Works ended after) : after.Unreceived := by
  cases hworks with
  | read count _ => exact hunreceived
  | line raw rest hreading _ _ => exact hunreceived.got hreading raw rest
  | fragment _ hreading _ => exact hunreceived.got hreading _ _
  | close _ _ => exact hunreceived
  | send line hpending _ =>
      rw [Unreceived, hpending] at hunreceived
      simpa [Unreceived] using hunreceived

/-- As long as its task runs, what was written to the stream is the lines that
the task has got, what it has taken besides, and what is in the pipe. -/
def Carries (bytes : Bytes) (side : Side) : Prop :=
  side.forwarding = true →
    bytes = side.lines.flatten ++ side.taken ++ side.pipe ∧
      ∀ line ∈ side.lines, IsLine newline line ∧ isUtf8 line = true

theorem carries_new : ({} : Side).Carries [] := by
  intro _
  exact ⟨rfl, by simp⟩

theorem carries_of_closed (bytes : Bytes) (hclosed : side.forwarding = false) :
    side.Carries bytes := by
  intro hopen
  rw [hclosed] at hopen
  cases hopen

theorem write_eq {capacity : ℕ} {byte : UInt8}
    (hafter : side.write capacity byte = some after) :
    side.forwarding = true ∧
      after = { side with pipe := side.pipe ++ [byte] } := by
  rw [Side.write] at hafter
  split_ifs at hafter with hroom
  cases hafter
  exact ⟨hroom.1, rfl⟩

theorem Carries.write {bytes : Bytes} {side after : Side}
    (hcarries : side.Carries bytes) {capacity : ℕ} {byte : UInt8}
    (hafter : side.write capacity byte = some after) :
    after.Carries (bytes ++ [byte]) := by
  obtain ⟨-, rfl⟩ := write_eq hafter
  intro hopen
  obtain ⟨hbytes, hlines⟩ := hcarries hopen
  refine ⟨?_, hlines⟩
  rw [hbytes, List.append_assoc]

theorem Carries.works {bytes : Bytes} {side after : Side}
    (hcarries : side.Carries bytes) (hended : ¬ ended)
    (hworks : side.Works ended after) : after.Carries bytes := by
  cases hworks with
  | read count hreading =>
      intro hopen
      obtain ⟨hbytes, hlines⟩ := hcarries hopen
      refine ⟨?_, hlines⟩
      rw [hbytes]
      simp
  | line raw rest hreading hline htaken =>
      rw [Side.got]
      split_ifs with htext
      · intro hopen
        obtain ⟨hbytes, hlines⟩ := hcarries hopen
        constructor
        · rw [hbytes, htaken]
          simp
        · intro line hmem
          rcases List.mem_append.mp hmem with hold | hnew
          · exact hlines line hold
          · rw [List.mem_singleton.mp hnew]
            exact ⟨hline, htext⟩
      · exact carries_of_closed bytes rfl
  | fragment hyes _ _ => exact absurd hyes hended
  | close hyes _ => exact absurd hyes hended
  | send line _ _ => exact hcarries

theorem Tidy.open_of_works {side after : Side} (htidy : side.Tidy)
    (hworks : side.Works ended after) : side.forwarding = true := by
  cases hworks with
  | read _ hreading => exact hreading.1
  | line _ _ hreading _ _ => exact hreading.1
  | fragment _ hreading _ => exact hreading.1
  | close _ hreading => exact hreading.1
  | send line hpending _ =>
      by_contra hclosed
      rw [(htidy.closed (by simpa using hclosed)).2.2] at hpending
      cases hpending

theorem eq_new_of_works (hended : ¬ ended)
    (hworks : ({} : Side).Works ended after) : after = {} := by
  cases hworks with
  | read count _ => simp
  | line raw rest _ hline htaken =>
      obtain ⟨body, _, rfl⟩ := hline
      simp at htaken
  | fragment hyes _ _ => exact absurd hyes hended
  | close hyes _ => exact absurd hyes hended
  | send line hpending _ => cases hpending

end Side

theorem bytesOf_append (stream : Stream) (before after : Output) :
    bytesOf stream (before ++ after) =
      bytesOf stream before ++ bytesOf stream after := by
  simp [bytesOf]

theorem bytesOf_same (stream : Stream) (byte : UInt8) :
    bytesOf stream [(stream, byte)] = [byte] := by
  simp [bytesOf]

theorem bytesOf_other {stream other : Stream} (hother : other ≠ stream)
    (byte : UInt8) : bytesOf stream [(other, byte)] = [] := by
  simp [bytesOf, hother]

namespace ProcessExecution

variable {capacity : ℕ} {output : Output}

/-- What one step does to an execution. -/
inductive Steps (capacity : ℕ) (state : ProcessExecution) :
    ProcessExecution → Prop
  | works (stream : Stream) (side : Side)
      (hworks : (state.side stream).Works (state.child = .exited) side) :
      Steps capacity state (state.withSide stream side)
  | spawn (output : Output) (hchild : state.child = .spawning output) :
      Steps capacity state { state with child := .running output }
  | spawnFails (output : Output) (hchild : state.child = .spawning output) :
      Steps capacity state { state with
        child := .exited
        side := fun stream => (state.side stream).close
        resultSent := true }
  | write (stream : Stream) (byte : UInt8) (rest : Output) (side : Side)
      (hchild : state.child = .running ((stream, byte) :: rest))
      (hwrite : (state.side stream).write capacity byte = some side) :
      Steps capacity state
        { state.withSide stream side with child := .running rest }
  | writeFails (stream : Stream) (byte : UInt8) (rest remaining : Output)
      (hchild : state.child = .running ((stream, byte) :: rest))
      (hclosed : (state.side stream).forwarding = false)
      (hremaining : remaining = [] ∨ remaining = rest) :
      Steps capacity state { state with child := .running remaining }
  | exit (hchild : state.child = .running []) :
      Steps capacity state { state with child := .exited }
  | wait (hchild : state.child = .exited) :
      Steps capacity state { state with resultSent := true }
  | chunk (stream : Stream) (chunk : Bytes) (rest : List Bytes)
      (hconsumer : state.consumer = .draining stream)
      (hchannel : (state.side stream).channel = chunk :: rest) :
      Steps capacity state
        { state.withSide stream { state.side stream with channel := rest } with
          buffer := Function.update state.buffer stream
            (state.buffer stream ++ chunk) }
  | ended (stream : Stream) (hconsumer : state.consumer = .draining stream)
      (hclosed : (state.side stream).forwarding = false)
      (hchannel : (state.side stream).channel = []) :
      Steps capacity state { state with consumer := afterStream stream }
  | finish (hconsumer : state.consumer = .awaiting) :
      Steps capacity state { state with consumer := .done }

variable {state next : ProcessExecution}

theorem steps_of_receive (hnext : state.receive = some next) :
    state.Steps capacity next := by
  rw [ProcessExecution.receive] at hnext
  cases hconsumer : state.consumer with
  | draining stream =>
      simp only [hconsumer, Option.map_eq_some_iff] at hnext
      obtain ⟨received, hreceived, rfl⟩ := hnext
      rw [Side.receive] at hreceived
      cases hchannel : (state.side stream).channel with
      | nil =>
          simp only [hchannel] at hreceived
          split_ifs at hreceived with hopen
          cases hreceived
          exact .ended stream hconsumer (by simpa using hopen) hchannel
      | cons chunk rest =>
          simp only [hchannel] at hreceived
          cases hreceived
          exact .chunk stream chunk rest hconsumer hchannel
  | awaiting =>
      simp only [hconsumer] at hnext
      split_ifs at hnext with hsent
      cases hnext
      exact .finish hconsumer
  | done => simp [hconsumer] at hnext

theorem steps_of_step {event : ProcessEvent}
    (hnext : state.step capacity event = some next) :
    state.Steps capacity next := by
  cases event with
  | read stream count =>
      simp only [step, Option.map_eq_some_iff] at hnext
      obtain ⟨side, hside, rfl⟩ := hnext
      exact .works stream side (Side.works_of_read hside)
  | takeLine stream =>
      simp only [step, Option.map_eq_some_iff] at hnext
      obtain ⟨side, hside, rfl⟩ := hnext
      exact .works stream side (Side.works_of_takeLine hside)
  | endOfFile stream =>
      cases hchild : state.child with
      | exited =>
          simp only [step, hchild, Option.map_eq_some_iff] at hnext
          obtain ⟨side, hside, rfl⟩ := hnext
          exact .works stream side (Side.works_of_endOfFile hchild hside)
      | spawning output => simp [step, hchild] at hnext
      | running remaining => simp [step, hchild] at hnext
  | send stream =>
      simp only [step, Option.map_eq_some_iff] at hnext
      obtain ⟨side, hside, rfl⟩ := hnext
      exact .works stream side (Side.works_of_send hside)
  | receive => exact steps_of_receive hnext
  | spawn =>
      cases hchild : state.child with
      | spawning output =>
          simp only [step, childStep, hchild, Option.some.injEq] at hnext
          rw [← hnext]
          exact .spawn output hchild
      | running remaining => simp [step, childStep, hchild] at hnext
      | exited => simp [step, childStep, hchild] at hnext
  | spawnFails =>
      cases hchild : state.child with
      | spawning output =>
          simp only [step, childStep, hchild, Option.some.injEq] at hnext
          rw [← hnext]
          exact .spawnFails output hchild
      | running remaining => simp [step, childStep, hchild] at hnext
      | exited => simp [step, childStep, hchild] at hnext
  | exit =>
      cases hchild : state.child with
      | spawning output => simp [step, childStep, hchild] at hnext
      | running remaining =>
          cases remaining with
          | nil =>
              simp only [step, childStep, hchild, Option.some.injEq] at hnext
              rw [← hnext]
              exact .exit hchild
          | cons written rest => simp [step, childStep, hchild] at hnext
      | exited => simp [step, childStep, hchild] at hnext
  | wait =>
      cases hchild : state.child with
      | exited =>
          simp only [step, hchild] at hnext
          split_ifs at hnext with hsent
          cases hnext
          have hwait : state.Steps capacity { state with resultSent := true } :=
            .wait hchild
          simpa only [hchild] using hwait
      | spawning output => simp [step, hchild] at hnext
      | running remaining => simp [step, hchild] at hnext
  | write =>
      cases hchild : state.child with
      | spawning output => simp [step, childStep, hchild] at hnext
      | running remaining =>
          cases remaining with
          | nil => simp [step, childStep, hchild] at hnext
          | cons written rest =>
              obtain ⟨stream, byte⟩ := written
              simp only [step, childStep, hchild,
                Option.map_eq_some_iff] at hnext
              obtain ⟨side, hside, rfl⟩ := hnext
              exact .write stream byte rest side hchild hside
      | exited => simp [step, childStep, hchild] at hnext
  | writeFails killed =>
      cases hchild : state.child with
      | spawning output => simp [step, childStep, hchild] at hnext
      | running remaining =>
          cases remaining with
          | nil => simp [step, childStep, hchild] at hnext
          | cons written rest =>
              obtain ⟨stream, byte⟩ := written
              simp only [step, childStep, hchild] at hnext
              split_ifs at hnext with hopen hkilled
              · cases hnext
                exact .writeFails stream byte rest [] hchild
                  (by simpa using hopen) (Or.inl rfl)
              · cases hnext
                exact .writeFails stream byte rest rest hchild
                  (by simpa using hopen) (Or.inr rfl)
      | exited => simp [step, childStep, hchild] at hnext

theorem forall_withSide (property : Stream → Side → Prop)
    (hall : ∀ stream, property stream (state.side stream)) {stream : Stream}
    {side : Side} (hside : property stream side) (other : Stream) :
    property other ((state.withSide stream side).side other) := by
  by_cases hother : other = stream
  · subst hother
    simpa [withSide] using hside
  · simpa [withSide, hother] using hall other

/-- The consumer has seen the end of the stream. -/
def Past : Consumer → Stream → Prop
  | .draining .stdout, _ => False
  | .draining .stderr, stream => stream = .stdout
  | .awaiting, _ => True
  | .done, _ => True

/-- A killed child has nothing left to write. -/
structure Invariant (output : Output) (state : ProcessExecution) : Prop where
  fresh : ∀ rest, state.child = .spawning rest →
    rest = output ∧ ∀ stream, state.side stream = {}
  written : ∀ remaining, state.child = .running remaining →
    ∃ before after, output = before ++ after ∧
      (remaining = [] ∨ remaining = after) ∧
      ∀ stream, (state.side stream).Carries (bytesOf stream before)
  tidy : ∀ stream, (state.side stream).Tidy
  unreceived : state.consumer = .draining .stdout →
    (state.side .stderr).Unreceived
  passed : ∀ stream, Past state.consumer stream →
    (state.side stream).forwarding = false ∧
      (state.side stream).channel = []

theorem start_invariant (output : Output) :
    (start output).Invariant output where
  fresh rest hchild := by
    cases hchild
    exact ⟨rfl, fun _ => rfl⟩
  written _ hchild := by cases hchild
  tidy _ := Side.tidy_new
  unreceived _ := rfl
  passed _ hpast := by cases hpast

theorem Invariant.works {state : ProcessExecution}
    (hstate : state.Invariant output) {stream : Stream} {side : Side}
    (hworks : (state.side stream).Works (state.child = .exited) side) :
    (state.withSide stream side).Invariant output where
  fresh rest hchild := by
    obtain ⟨hrest, hnew⟩ := hstate.fresh rest hchild
    have hrunning : ¬ state.child = .exited := by
      change state.child = .spawning rest at hchild
      rw [hchild]
      exact Child.noConfusion
    rw [hnew stream] at hworks
    exact ⟨hrest, forall_withSide (fun _ side => side = {}) hnew
      (Side.eq_new_of_works hrunning hworks)⟩
  written remaining hchild := by
    obtain ⟨before, after, hout, hremaining, hcarries⟩ :=
      hstate.written remaining hchild
    have hrunning : ¬ state.child = .exited := by
      change state.child = .running remaining at hchild
      rw [hchild]
      exact Child.noConfusion
    exact ⟨before, after, hout, hremaining,
      forall_withSide
        (fun stream side => side.Carries (bytesOf stream before)) hcarries
        ((hcarries stream).works hrunning hworks)⟩
  tidy := forall_withSide (fun _ side => side.Tidy) hstate.tidy
    ((hstate.tidy stream).works hworks)
  unreceived hconsumer := by
    have hunreceived := hstate.unreceived hconsumer
    by_cases hstream : Stream.stderr = stream
    · subst hstream
      simpa [withSide] using hunreceived.works hworks
    · simpa [withSide, hstream] using hunreceived
  passed other hpast := by
    have hpassed := hstate.passed other hpast
    by_cases hother : other = stream
    · subst hother
      rw [(hstate.tidy other).open_of_works hworks] at hpassed
      cases hpassed.1
    · simpa [withSide, hother] using hpassed

theorem Invariant.spawn {state : ProcessExecution}
    (hstate : state.Invariant output) {rest : Output}
    (hchild : state.child = .spawning rest) :
    { state with child := .running rest }.Invariant output where
  fresh _ hspawning := by cases hspawning
  written remaining hrunning := by
    obtain ⟨rfl, hnew⟩ := hstate.fresh rest hchild
    cases hrunning
    refine ⟨[], rest, rfl, Or.inr rfl, ?_⟩
    intro stream
    change (state.side stream).Carries []
    rw [hnew stream]
    exact Side.carries_new
  tidy := hstate.tidy
  unreceived := hstate.unreceived
  passed := hstate.passed

theorem Invariant.spawnFails {state : ProcessExecution}
    (hstate : state.Invariant output) {rest : Output}
    (hchild : state.child = .spawning rest) :
    { state with
      child := .exited
      side := fun stream => (state.side stream).close
      resultSent := true }.Invariant output where
  fresh _ hspawning := by cases hspawning
  written _ hrunning := by cases hrunning
  tidy stream := by
    refine (hstate.tidy stream).close ?_
    rw [(hstate.fresh rest hchild).2 stream]
  unreceived hconsumer := hstate.unreceived hconsumer
  passed stream hpast := ⟨rfl, (hstate.passed stream hpast).2⟩

theorem Invariant.write {state : ProcessExecution}
    (hstate : state.Invariant output) {stream : Stream} {byte : UInt8}
    {rest : Output} {side : Side}
    (hchild : state.child = .running ((stream, byte) :: rest))
    (hwrite : (state.side stream).write capacity byte = some side) :
    { state.withSide stream side with child := .running rest }.Invariant
      output where
  fresh _ hspawning := by cases hspawning
  written remaining hrunning := by
    cases hrunning
    obtain ⟨before, after, hout, hremaining, hcarries⟩ :=
      hstate.written _ hchild
    have hafter : after = (stream, byte) :: rest :=
      (hremaining.resolve_left (List.cons_ne_nil _ _)).symm
    refine ⟨before ++ [(stream, byte)], rest, by simp [hout, hafter],
      Or.inr rfl, ?_⟩
    intro other
    rw [bytesOf_append]
    by_cases hother : other = stream
    · subst hother
      rw [bytesOf_same]
      simpa [withSide] using (hcarries other).write hwrite
    · rw [bytesOf_other (Ne.symm hother), List.append_nil]
      simpa [withSide, hother] using hcarries other
  tidy := by
    obtain ⟨hopen, rfl⟩ := Side.write_eq hwrite
    refine forall_withSide (fun _ side => side.Tidy) hstate.tidy
      ⟨?_, (hstate.tidy stream).channel_le⟩
    intro hclosed
    rw [hopen] at hclosed
    cases hclosed
  unreceived hconsumer := by
    obtain ⟨-, rfl⟩ := Side.write_eq hwrite
    have hunreceived := hstate.unreceived hconsumer
    by_cases hstream : Stream.stderr = stream
    · subst hstream
      have hwritten :
          { state.side .stderr with
            pipe := (state.side .stderr).pipe ++ [byte] }.Unreceived :=
        hunreceived
      simpa [withSide] using hwritten
    · simpa [withSide, hstream] using hunreceived
  passed other hpast := by
    obtain ⟨hopen, rfl⟩ := Side.write_eq hwrite
    have hpassed := hstate.passed other hpast
    by_cases hother : other = stream
    · subst hother
      rw [hopen] at hpassed
      cases hpassed.1
    · simpa [withSide, hother] using hpassed

theorem Invariant.writeFails {state : ProcessExecution}
    (hstate : state.Invariant output) {stream : Stream} {byte : UInt8}
    {rest remaining : Output}
    (hchild : state.child = .running ((stream, byte) :: rest))
    (hclosed : (state.side stream).forwarding = false)
    (hremaining : remaining = [] ∨ remaining = rest) :
    { state with child := .running remaining }.Invariant output where
  fresh _ hspawning := by cases hspawning
  written left hrunning := by
    cases hrunning
    obtain ⟨before, after, hout, hleft, hcarries⟩ := hstate.written _ hchild
    have hafter : after = (stream, byte) :: rest :=
      (hleft.resolve_left (List.cons_ne_nil _ _)).symm
    refine ⟨before ++ [(stream, byte)], rest, by simp [hout, hafter],
      hremaining, ?_⟩
    intro other
    by_cases hother : other = stream
    · subst hother
      exact Side.carries_of_closed _ hclosed
    · rw [bytesOf_append, bytesOf_other (Ne.symm hother), List.append_nil]
      exact hcarries other
  tidy := hstate.tidy
  unreceived := hstate.unreceived
  passed := hstate.passed

theorem Invariant.exit {state : ProcessExecution}
    (hstate : state.Invariant output) :
    { state with child := .exited }.Invariant output where
  fresh _ hspawning := by cases hspawning
  written _ hrunning := by cases hrunning
  tidy := hstate.tidy
  unreceived := hstate.unreceived
  passed := hstate.passed

theorem Invariant.wait {state : ProcessExecution}
    (hstate : state.Invariant output) :
    { state with resultSent := true }.Invariant output :=
  ⟨hstate.fresh, hstate.written, hstate.tidy, hstate.unreceived,
    hstate.passed⟩

theorem Invariant.chunk {state : ProcessExecution}
    (hstate : state.Invariant output) {stream : Stream} {rest : List Bytes}
    {chunk : Bytes} (hconsumer : state.consumer = .draining stream)
    (hchannel : (state.side stream).channel = chunk :: rest)
    (buffer : Stream → Bytes) :
    { state.withSide stream { state.side stream with channel := rest } with
      buffer := buffer }.Invariant output where
  fresh left hspawning := by
    rw [(hstate.fresh left hspawning).2 stream] at hchannel
    cases hchannel
  written remaining hrunning := by
    obtain ⟨before, after, hout, hremaining, hcarries⟩ :=
      hstate.written remaining hrunning
    exact ⟨before, after, hout, hremaining,
      forall_withSide
        (fun stream side => side.Carries (bytesOf stream before)) hcarries
        (hcarries stream)⟩
  tidy := by
    refine forall_withSide (fun _ side => side.Tidy) hstate.tidy
      ⟨(hstate.tidy stream).closed, ?_⟩
    have hle := (hstate.tidy stream).channel_le
    rw [hchannel, List.length_cons] at hle
    exact Nat.le_of_succ_le hle
  unreceived hdraining := by
    have hstream : Stream.stderr ≠ stream := by
      change state.consumer = .draining .stdout at hdraining
      rw [hconsumer] at hdraining
      cases hdraining
      decide
    simpa [withSide, hstream] using hstate.unreceived hdraining
  passed other hpast := by
    have hpassed := hstate.passed other hpast
    by_cases hother : other = stream
    · subst hother
      rw [hchannel] at hpassed
      cases hpassed.2
    · simpa [withSide, hother] using hpassed

theorem Invariant.ended {state : ProcessExecution}
    (hstate : state.Invariant output) {stream : Stream}
    (hconsumer : state.consumer = .draining stream)
    (hclosed : (state.side stream).forwarding = false)
    (hchannel : (state.side stream).channel = []) :
    { state with consumer := afterStream stream }.Invariant output where
  fresh := hstate.fresh
  written := hstate.written
  tidy := hstate.tidy
  unreceived hdraining := by cases stream <;> cases hdraining
  passed other hpast := by
    by_cases hother : other = stream
    · subst hother
      exact ⟨hclosed, hchannel⟩
    · apply hstate.passed other
      rw [hconsumer]
      cases stream with
      | stdout => exact absurd hpast hother
      | stderr =>
          cases other with
          | stdout => rfl
          | stderr => exact absurd rfl hother

theorem Invariant.finish {state : ProcessExecution}
    (hstate : state.Invariant output) (hconsumer : state.consumer = .awaiting) :
    { state with consumer := .done }.Invariant output where
  fresh := hstate.fresh
  written := hstate.written
  tidy := hstate.tidy
  unreceived hdraining := by cases hdraining
  passed stream _ := by
    apply hstate.passed stream
    rw [hconsumer]
    trivial

theorem Invariant.step {state next : ProcessExecution}
    (hstate : state.Invariant output) (hsteps : state.Steps capacity next) :
    next.Invariant output := by
  cases hsteps with
  | works stream side hworks => exact hstate.works hworks
  | spawn rest hchild => exact hstate.spawn hchild
  | spawnFails rest hchild => exact hstate.spawnFails hchild
  | write stream byte rest side hchild hwrite => exact hstate.write hchild hwrite
  | writeFails stream byte rest remaining hchild hclosed hremaining =>
      exact hstate.writeFails hchild hclosed hremaining
  | exit _ => exact hstate.exit
  | wait _ => exact hstate.wait
  | chunk stream chunk rest hconsumer hchannel =>
      exact hstate.chunk hconsumer hchannel _
  | ended stream hconsumer hclosed hchannel =>
      exact hstate.ended hconsumer hclosed hchannel
  | finish hconsumer => exact hstate.finish hconsumer

theorem invariant_of_run {trace : List ProcessEvent}
    {reached : ProcessExecution}
    (hrun : (machine capacity).run (start output) trace = some reached) :
    reached.Invariant output :=
  StepMachine.run_invariant
    (fun _ _ _ hstate hnext => hstate.step (steps_of_step hnext))
    (start_invariant output) hrun

/-! ### Who can take a step -/

def CanStep (capacity : ℕ) (state : ProcessExecution) : Prop :=
  ∃ event next, state.step capacity event = some next

theorem canStep_of_isSome (event : ProcessEvent)
    (hevent : (state.step capacity event).isSome = true) :
    state.CanStep capacity :=
  ⟨event, Option.isSome_iff_exists.mp hevent⟩

/-- A task that cannot go on waits for bytes, or for room in its channel. -/
theorem canStep_or_waits {stream : Stream}
    (hopen : (state.side stream).forwarding = true) :
    state.CanStep capacity ∨
      ((state.side stream).pipe = [] ∧ newline ∉ (state.side stream).taken ∧
        (state.side stream).pending = none) ∨
      ((state.side stream).pending ≠ none ∧
        channelSlots ≤ (state.side stream).channel.length) := by
  cases hpending : (state.side stream).pending with
  | some line =>
      by_cases hroom : (state.side stream).channel.length < channelSlots
      · refine Or.inl (canStep_of_isSome (.send stream) ?_)
        simp only [step, Side.send, hpending, if_pos hroom, Option.map_some,
          Option.isSome_some]
      · exact Or.inr (Or.inr ⟨Option.some_ne_none line, Nat.le_of_not_lt hroom⟩)
  | none =>
      have hreading : (state.side stream).Reading := ⟨hopen, hpending⟩
      by_cases hline : newline ∈ (state.side stream).taken
      · refine Or.inl (canStep_of_isSome (.takeLine stream) ?_)
        simp only [step, Side.takeLine, if_pos (And.intro hreading hline),
          Option.map_some, Option.isSome_some]
      · cases hpipe : (state.side stream).pipe with
        | nil => exact Or.inr (Or.inl ⟨rfl, hline, rfl⟩)
        | cons byte rest =>
            have hcount : 1 ≤ min readerBytes (state.side stream).pipe.length := by
              rw [hpipe, List.length_cons, readerBytes]
              omega
            refine Or.inl (canStep_of_isSome (.read stream 1) ?_)
            simp only [step, Side.read,
              if_pos (And.intro hreading
                (And.intro hline (And.intro Nat.one_pos hcount))),
              Option.map_some, Option.isSome_some]

/-- The interpreter waits for a stream only while its task waits for bytes. -/
theorem canStep_of_draining {stream : Stream}
    (hconsumer : state.consumer = .draining stream) :
    state.CanStep capacity ∨
      ((state.side stream).forwarding = true ∧ (state.side stream).pipe = [] ∧
        newline ∉ (state.side stream).taken ∧
        (state.side stream).pending = none) := by
  cases hchannel : (state.side stream).channel with
  | cons chunk rest =>
      refine Or.inl (canStep_of_isSome .receive ?_)
      simp only [step, ProcessExecution.receive, hconsumer, Side.receive,
        hchannel, Option.map_some, Option.isSome_some]
  | nil =>
      by_cases hopen : (state.side stream).forwarding = true
      · rcases canStep_or_waits hopen with hstep | hwaits | hfull
        · exact Or.inl hstep
        · exact Or.inr ⟨hopen, hwaits⟩
        · have hroom := hfull.2
          rw [hchannel, channelSlots] at hroom
          cases hroom
      · refine Or.inl (canStep_of_isSome .receive ?_)
        simp only [step, ProcessExecution.receive, hconsumer, Side.receive,
          hchannel, if_neg hopen, Option.map_some, Option.isSome_some]

/-- A child that cannot write has filled the pipe, and the task that reads the
pipe waits for room. -/
theorem canStep_of_writing (hcapacity : 0 < capacity) {stream : Stream}
    {byte : UInt8} {rest : Output}
    (hchild : state.child = .running ((stream, byte) :: rest)) :
    state.CanStep capacity ∨
      ((state.side stream).forwarding = true ∧
        capacity ≤ (state.side stream).pipe.length ∧
        (state.side stream).pending ≠ none ∧
        channelSlots ≤ (state.side stream).channel.length) := by
  by_cases hopen : (state.side stream).forwarding = true
  · by_cases hroom : (state.side stream).pipe.length < capacity
    · refine Or.inl (canStep_of_isSome .write ?_)
      simp only [step, childStep, hchild, Side.write,
        if_pos (And.intro hopen hroom), Option.map_some, Option.isSome_some]
    · rcases canStep_or_waits hopen with hstep | hwaits | hfull
      · exact Or.inl hstep
      · rw [hwaits.1, List.length_nil] at hroom
        exact absurd hcapacity hroom
      · exact Or.inr ⟨hopen, Nat.le_of_not_lt hroom, hfull⟩
  · refine Or.inl (canStep_of_isSome (.writeFails false) ?_)
    simp [step, childStep, hchild, hopen]

end ProcessExecution

/-- Every whole line is a text, so that the task that reads them goes on. -/
def TextLines (bytes : Bytes) : Prop :=
  ∀ line ∈ splitLines newline bytes, newline ∈ line → isUtf8 line = true

/-- More lines than the channel has slots, and as much again as fills the
pipe. -/
def Overfills (capacity : ℕ) (bytes : Bytes) : Prop :=
  ∃ lines rest, bytes = List.flatten lines ++ rest ∧
    lines.length = channelSlots + 1 ∧
    (∀ line ∈ lines, IsLine newline line ∧ isUtf8 line = true) ∧
    capacity ≤ rest.length

/-- The program fills its standard error, and writes to it once more before it
has broken off its standard output. -/
def Clogs (capacity : ℕ) (output : Output) : Prop :=
  ∃ before byte after, output = before ++ (.stderr, byte) :: after ∧
    TextLines (bytesOf .stdout before) ∧
    Overfills capacity (bytesOf .stderr before)

theorem textLines_of_carries {bytes : Bytes} {side : Side}
    (hcarries : side.Carries bytes) (hopen : side.forwarding = true)
    (hpipe : side.pipe = []) (htaken : newline ∉ side.taken) :
    TextLines bytes := by
  obtain ⟨hbytes, hlines⟩ := hcarries hopen
  rw [hpipe, List.append_nil] at hbytes
  intro line hmem hnewline
  rw [hbytes, splitLines_flatten_append (fun line hline => (hlines line hline).1)]
    at hmem
  rcases List.mem_append.mp hmem with hline | hrest
  · exact (hlines line hline).2
  · have htext : newline ∈ (splitLines newline side.taken).flatten :=
      List.mem_flatten.mpr ⟨line, hrest, hnewline⟩
    rw [flatten_splitLines] at htext
    exact absurd htext htaken

theorem overfills_of_carries {capacity : ℕ} {bytes : Bytes} {side : Side}
    (hcarries : side.Carries bytes) (htidy : side.Tidy)
    (hunreceived : side.Unreceived) (hopen : side.forwarding = true)
    (hpipe : capacity ≤ side.pipe.length) (hpending : side.pending ≠ none)
    (hchannel : channelSlots ≤ side.channel.length) :
    Overfills capacity bytes := by
  obtain ⟨hbytes, hlines⟩ := hcarries hopen
  obtain ⟨line, hline⟩ := Option.ne_none_iff_exists'.mp hpending
  refine ⟨side.lines, side.taken ++ side.pipe, by rw [hbytes, List.append_assoc],
    ?_, hlines, ?_⟩
  · rw [Side.Unreceived, hline, Option.toList_some, List.length_singleton] at hunreceived
    have hle := htidy.channel_le
    omega
  · rw [List.length_append]
    omega

namespace ProcessExecution

theorem Invariant.canStep_of_running {state : ProcessExecution}
    (hstate : state.Invariant output) (hcapacity : 0 < capacity)
    (hfree : ¬ Clogs capacity output) {remaining : Output}
    (hchild : state.child = .running remaining) : state.CanStep capacity := by
  cases remaining with
  | nil =>
      apply canStep_of_isSome .exit
      simp [ProcessExecution.step, childStep, hchild]
  | cons written rest =>
      obtain ⟨stream, byte⟩ := written
      rcases canStep_of_writing hcapacity hchild with hstep | hblocked
      · exact hstep
      obtain ⟨hopen, hfull, hpending, hchannel⟩ := hblocked
      have hpast : ¬ Past state.consumer stream := by
        intro hpast
        rw [(hstate.passed stream hpast).1] at hopen
        cases hopen
      cases hconsumer : state.consumer with
      | awaiting => exact absurd (by rw [hconsumer]; trivial) hpast
      | done => exact absurd (by rw [hconsumer]; trivial) hpast
      | draining other =>
          rcases canStep_of_draining hconsumer with hstep | hwaits
          · exact hstep
          obtain ⟨hopen', hpipe', htaken', hpending'⟩ := hwaits
          have hother : other ≠ stream := by
            rintro rfl
            exact hpending hpending'
          obtain ⟨rfl, rfl⟩ : stream = .stderr ∧ other = .stdout := by
            rw [hconsumer] at hpast
            cases stream with
            | stdout =>
                cases other with
                | stdout => exact absurd rfl hother
                | stderr => exact absurd rfl hpast
            | stderr =>
                cases other with
                | stdout => exact ⟨rfl, rfl⟩
                | stderr => exact absurd rfl hother
          obtain ⟨before, after, hout, hremaining, hcarries⟩ :=
            hstate.written _ hchild
          refine absurd ⟨before, byte, rest, ?_, ?_, ?_⟩ hfree
          · rw [hout, ← hremaining.resolve_left (List.cons_ne_nil _ _)]
          · exact textLines_of_carries (hcarries .stdout) hopen' hpipe' htaken'
          · exact overfills_of_carries (hcarries .stderr) (hstate.tidy .stderr)
              (hstate.unreceived hconsumer) hopen hfull hpending hchannel

theorem Invariant.live {state : ProcessExecution}
    (hstate : state.Invariant output) (hcapacity : 0 < capacity)
    (hfree : ¬ Clogs capacity output) : state.Live capacity := by
  intro hunfinished
  cases hchild : state.child with
  | spawning rest =>
      apply canStep_of_isSome .spawn
      simp [ProcessExecution.step, childStep, hchild]
  | running remaining => exact hstate.canStep_of_running hcapacity hfree hchild
  | exited =>
      cases hconsumer : state.consumer with
      | draining stream =>
          rcases canStep_of_draining hconsumer with hstep | hwaits
          · exact hstep
          obtain ⟨hopen, hpipe, htaken, hpending⟩ := hwaits
          have hreading : (state.side stream).Reading := ⟨hopen, hpending⟩
          apply canStep_of_isSome (.endOfFile stream)
          simp [ProcessExecution.step, hchild, Side.endOfFile, hreading, htaken,
            hpipe]
      | awaiting =>
          by_cases hsent : state.resultSent = true
          · apply canStep_of_isSome .receive
            simp [ProcessExecution.step, ProcessExecution.receive, hconsumer, hsent]
          · apply canStep_of_isSome .wait
            simp [ProcessExecution.step, hchild, hsent]
      | done =>
          obtain ⟨stream, hundelivered⟩ :=
            hunfinished.resolve_left (not_not_intro hchild)
          obtain ⟨hclosed, hchannel⟩ :=
            hstate.passed stream (by rw [hconsumer]; trivial)
          obtain ⟨hpipe, htaken, hpending⟩ := (hstate.tidy stream).closed hclosed
          rcases hundelivered with hleft | hleft | hleft | hleft
          · exact absurd hpipe hleft
          · exact absurd htaken hleft
          · exact absurd hpending hleft
          · exact absurd hchannel hleft

end ProcessExecution

end Sandbox
end Acdp
