import Acdp.SandboxOutputFidelity

/-!
# What the interpreter gets of the output of a process

Each stream of an execution, taken by itself, is a stream that is read by
somebody: the interpreter.  So what holds of the output that arrives there
holds of what the interpreter collects, however the two streams take turns.
-/

namespace Acdp
namespace Sandbox

/-- What a child has yet to write. -/
def Child.remaining : Child → Output
  | .spawning output => output
  | .running output => output
  | .exited => []

namespace OutputStream

variable {capacity : ℕ} {state : OutputStream}

/-- The child is there, and a broken pipe does not kill it. -/
def Survives : ProcessEvent → Prop
  | .spawnFails => False
  | .writeFails killed => killed = false
  | _ => True

/-- A stream of an execution, by itself. -/
structure Shows (output : Output) (stream : Stream)
    (execution : ProcessExecution) (state : OutputStream) : Prop where
  running : state.running = true ↔ execution.child ≠ .exited
  printed : state.printed ++ bytesOf stream execution.child.remaining =
    bytesOf stream output
  side : state.side = execution.side stream
  received : state.received.flatten = execution.buffer stream

variable {output : Output} {stream : Stream} {execution : ProcessExecution}

theorem shows_start (output : Output) (stream : Stream) :
    Shows output stream (.start output) {} where
  running := by simp [ProcessExecution.start]
  printed := rfl
  side := rfl
  received := rfl

theorem reaches_of_step {event : OutputEvent} {next : OutputStream}
    (hnext : state.step capacity event = some next) :
    (machine capacity).Reaches state next :=
  (StepMachine.reaches_refl _ state).next hnext

/-- A step of a task is one of the stream that it reads, and does not touch
the other. -/
theorem Shows.task (hshows : Shows output stream execution state)
    {other : Stream} {side : Side} (event : OutputEvent)
    (hstep : other = stream →
      state.step capacity event = some (state.withSide side)) :
    ∃ next, (machine capacity).Reaches state next ∧
      Shows output stream (execution.withSide other side) next := by
  by_cases hother : other = stream
  · refine ⟨_, reaches_of_step (hstep hother), ?_⟩
    subst hother
    exact {
      running := hshows.running
      printed := hshows.printed
      side := by simp [withSide, ProcessExecution.withSide]
      received := hshows.received }
  · refine ⟨state, StepMachine.reaches_refl _ state, ?_⟩
    exact {
      running := hshows.running
      printed := hshows.printed
      side := by
        rw [hshows.side]
        exact (Function.update_of_ne (Ne.symm hother) _ _).symm
      received := hshows.received }

theorem Shows.chunk (hshows : Shows output stream execution state)
    {other : Stream} {chunk : Bytes} {rest : List Bytes}
    (hchannel : (execution.side other).channel = chunk :: rest) :
    ∃ next, (machine capacity).Reaches state next ∧
      Shows output stream
        { execution.withSide other
            { execution.side other with channel := rest } with
          buffer := Function.update execution.buffer other
            (execution.buffer other ++ chunk) } next := by
  by_cases hother : other = stream
  · subst hother
    rw [← hshows.side] at hchannel ⊢
    have hstep : state.step capacity .receive = some { state with
        side := { state.side with channel := rest }
        received := state.received ++ [chunk] } := by
      rw [step, receive, hchannel]
    refine ⟨_, reaches_of_step hstep, ?_⟩
    exact {
      running := hshows.running
      printed := hshows.printed
      side := by simp [ProcessExecution.withSide]
      received := by simp [hshows.received] }
  · refine ⟨state, StepMachine.reaches_refl _ state, ?_⟩
    exact {
      running := hshows.running
      printed := hshows.printed
      side := by
        rw [hshows.side]
        exact (Function.update_of_ne (Ne.symm hother) _ _).symm
      received := by
        rw [hshows.received]
        exact (Function.update_of_ne (Ne.symm hother) _ _).symm }

theorem Shows.receive (hshows : Shows output stream execution state)
    {next : ProcessExecution} (hnext : execution.receive = some next) :
    ∃ after, (machine capacity).Reaches state after ∧
      Shows output stream next after := by
  rw [ProcessExecution.receive] at hnext
  cases hconsumer : execution.consumer with
  | draining other =>
      simp only [hconsumer, Option.map_eq_some_iff] at hnext
      obtain ⟨received, hreceived, rfl⟩ := hnext
      rw [Side.receive] at hreceived
      cases hchannel : (execution.side other).channel with
      | nil =>
          simp only [hchannel] at hreceived
          split_ifs at hreceived with hopen
          cases hreceived
          exact ⟨state, StepMachine.reaches_refl _ state, hshows.running,
            hshows.printed, hshows.side, hshows.received⟩
      | cons chunk rest =>
          simp only [hchannel] at hreceived
          cases hreceived
          exact hshows.chunk hchannel
  | awaiting =>
      simp only [hconsumer] at hnext
      split_ifs at hnext with hsent
      cases hnext
      exact ⟨state, StepMachine.reaches_refl _ state, hshows.running,
        hshows.printed, hshows.side, hshows.received⟩
  | done => simp [hconsumer] at hnext

theorem bytesOf_cons_same (stream : Stream) (byte : UInt8) (rest : Output) :
    bytesOf stream ((stream, byte) :: rest) = byte :: bytesOf stream rest := by
  simp [bytesOf]

theorem bytesOf_cons_other {stream other : Stream} (hother : other ≠ stream)
    (byte : UInt8) (rest : Output) :
    bytesOf stream ((other, byte) :: rest) = bytesOf stream rest := by
  simp [bytesOf, hother]

/-- What the child writes is printed, whether it gets into the pipe or not. -/
theorem Shows.print (hshows : Shows output stream execution state)
    {other : Stream} {byte : UInt8} {rest : Output} {next : ProcessExecution}
    (after : OutputStream)
    (hchild : execution.child = .running ((other, byte) :: rest))
    (hnext : next.child = .running rest)
    (hbuffer : next.buffer = execution.buffer)
    (hstep : other = stream → state.step capacity (.print byte) = some after ∧
      after.running = state.running ∧ after.printed = state.printed ++ [byte] ∧
        after.side = next.side stream ∧ after.received = state.received)
    (hframe : other ≠ stream → next.side stream = execution.side stream) :
    ∃ after, (machine capacity).Reaches state after ∧
      Shows output stream next after := by
  have hrunning := hshows.running
  have hprinted := hshows.printed
  rw [hchild] at hrunning hprinted
  by_cases hother : other = stream
  · obtain ⟨hafter, hsame, hbytes, hside, hreceived⟩ := hstep hother
    refine ⟨after, reaches_of_step hafter, ?_⟩
    subst hother
    exact {
      running := by
        rw [hsame, hrunning, hnext]
        simp
      printed := by
        rw [hbytes, hnext, ← hprinted]
        simp [Child.remaining, bytesOf_cons_same]
      side := hside
      received := by rw [hreceived, hbuffer, hshows.received] }
  · refine ⟨state, StepMachine.reaches_refl _ state, ?_⟩
    exact {
      running := by
        rw [hrunning, hnext]
        simp
      printed := by
        rw [hnext, ← hprinted]
        simp [Child.remaining, bytesOf_cons_other hother]
      side := by rw [hshows.side, hframe hother]
      received := by rw [hbuffer, hshows.received] }

theorem Shows.childStep (hshows : Shows output stream execution state)
    {event : ProcessEvent} (hsurvives : Survives event)
    {next : ProcessExecution}
    (hnext : execution.childStep capacity event = some next) :
    ∃ after, (machine capacity).Reaches state after ∧
      Shows output stream next after := by
  cases event with
  | spawn =>
      cases hchild : execution.child with
      | spawning text =>
          simp only [ProcessExecution.childStep, hchild,
            Option.some.injEq] at hnext
          subst hnext
          have hrunning := hshows.running
          have hprinted := hshows.printed
          rw [hchild] at hrunning hprinted
          exact ⟨state, StepMachine.reaches_refl _ state,
            by rw [hrunning]; simp, hprinted, hshows.side, hshows.received⟩
      | running text => simp [ProcessExecution.childStep, hchild] at hnext
      | exited => simp [ProcessExecution.childStep, hchild] at hnext
  | spawnFails => exact hsurvives.elim
  | write =>
      cases hchild : execution.child with
      | spawning text => simp [ProcessExecution.childStep, hchild] at hnext
      | running text =>
          cases text with
          | nil => simp [ProcessExecution.childStep, hchild] at hnext
          | cons written rest =>
              obtain ⟨other, byte⟩ := written
              simp only [ProcessExecution.childStep, hchild,
                Option.map_eq_some_iff] at hnext
              obtain ⟨side, hside, rfl⟩ := hnext
              have hopen := (Side.write_eq hside).1
              have hrunning : state.running = true := by
                rw [hshows.running, hchild]
                simp
              refine hshows.print
                { state with printed := state.printed ++ [byte], side }
                hchild rfl rfl ?_ ?_
              · intro hother
                subst hother
                rw [← hshows.side] at hside hopen
                refine ⟨?_, rfl, rfl, ?_, rfl⟩
                · simp [step, OutputStream.print, hrunning, hopen, hside]
                · simp [ProcessExecution.withSide]
              · intro hother
                exact Function.update_of_ne (Ne.symm hother) _ _
      | exited => simp [ProcessExecution.childStep, hchild] at hnext
  | writeFails killed =>
      cases hchild : execution.child with
      | spawning text => simp [ProcessExecution.childStep, hchild] at hnext
      | running text =>
          cases text with
          | nil => simp [ProcessExecution.childStep, hchild] at hnext
          | cons written rest =>
              obtain ⟨other, byte⟩ := written
              simp only [ProcessExecution.childStep, hchild] at hnext
              have hkilled : killed = false := hsurvives
              rw [hkilled] at hnext
              split_ifs at hnext with hopen hyes
              · cases hyes
              · cases hnext
                have hrunning : state.running = true := by
                  rw [hshows.running, hchild]
                  simp
                refine hshows.print
                  { state with printed := state.printed ++ [byte] }
                  hchild rfl rfl ?_ (fun _ => rfl)
                intro hother
                subst hother
                rw [← hshows.side] at hopen
                refine ⟨?_, rfl, rfl, hshows.side, rfl⟩
                simp [step, OutputStream.print, hrunning, hopen]
      | exited => simp [ProcessExecution.childStep, hchild] at hnext
  | exit =>
      cases hchild : execution.child with
      | spawning text => simp [ProcessExecution.childStep, hchild] at hnext
      | running text =>
          cases text with
          | nil =>
              simp only [ProcessExecution.childStep, hchild,
                Option.some.injEq] at hnext
              subst hnext
              have hrunning := hshows.running
              have hprinted := hshows.printed
              rw [hchild] at hrunning hprinted
              have hstep : state.step capacity .exit =
                  some { state with running := false } := by
                rw [step, if_pos (hrunning.mpr (by simp))]
              exact ⟨_, reaches_of_step hstep, by simp, hprinted,
                hshows.side, hshows.received⟩
          | cons written rest =>
              simp [ProcessExecution.childStep, hchild] at hnext
      | exited => simp [ProcessExecution.childStep, hchild] at hnext
  | _ => simp [ProcessExecution.childStep] at hnext

theorem Shows.step (hshows : Shows output stream execution state)
    {event : ProcessEvent} (hsurvives : Survives event)
    {next : ProcessExecution}
    (hnext : execution.step capacity event = some next) :
    ∃ after, (machine capacity).Reaches state after ∧
      Shows output stream next after := by
  cases event with
  | read other count =>
      simp only [ProcessExecution.step, Option.map_eq_some_iff] at hnext
      obtain ⟨side, hside, rfl⟩ := hnext
      refine hshows.task (.read count) ?_
      intro hother
      subst hother
      rw [OutputStream.step, hshows.side, hside]
      rfl
  | takeLine other =>
      simp only [ProcessExecution.step, Option.map_eq_some_iff] at hnext
      obtain ⟨side, hside, rfl⟩ := hnext
      refine hshows.task .takeLine ?_
      intro hother
      subst hother
      rw [OutputStream.step, hshows.side, hside]
      rfl
  | endOfFile other =>
      cases hchild : execution.child with
      | exited =>
          simp only [ProcessExecution.step, hchild,
            Option.map_eq_some_iff] at hnext
          obtain ⟨side, hside, rfl⟩ := hnext
          have hexited : ¬ state.running = true := by
            rw [hshows.running, hchild]
            simp
          refine hshows.task .endOfFile ?_
          intro hother
          subst hother
          rw [OutputStream.step, if_neg hexited, hshows.side, hside]
          rfl
      | spawning text => simp [ProcessExecution.step, hchild] at hnext
      | running text => simp [ProcessExecution.step, hchild] at hnext
  | send other =>
      simp only [ProcessExecution.step, Option.map_eq_some_iff] at hnext
      obtain ⟨side, hside, rfl⟩ := hnext
      refine hshows.task .send ?_
      intro hother
      subst hother
      rw [OutputStream.step, hshows.side, hside]
      rfl
  | wait =>
      cases hchild : execution.child with
      | exited =>
          simp only [ProcessExecution.step, hchild] at hnext
          split_ifs at hnext with hsent
          cases hnext
          have hrunning := hshows.running
          have hprinted := hshows.printed
          rw [hchild] at hrunning hprinted
          exact ⟨state, StepMachine.reaches_refl _ state, hrunning, hprinted,
            hshows.side, hshows.received⟩
      | spawning text => simp [ProcessExecution.step, hchild] at hnext
      | running text => simp [ProcessExecution.step, hchild] at hnext
  | receive => exact hshows.receive hnext
  | _ => exact hshows.childStep hsurvives hnext

theorem shows_of_run {trace : List ProcessEvent} {reached : ProcessExecution}
    (hrun : (ProcessExecution.machine capacity).run (.start output) trace =
      some reached)
    (hsurvives : ∀ event ∈ trace, Survives event) (stream : Stream) :
    ∃ state, (machine capacity).Reaches {} state ∧
      Shows output stream reached state := by
  suffices hfrom : ∀ (execution : ProcessExecution) (state : OutputStream),
      Shows output stream execution state →
      (machine capacity).Reaches {} state →
      (ProcessExecution.machine capacity).run execution trace = some reached →
      ∃ final, (machine capacity).Reaches {} final ∧
        Shows output stream reached final from
    hfrom _ _ (shows_start output stream) (StepMachine.reaches_refl _ _) hrun
  clear hrun
  induction trace with
  | nil =>
      intro execution state hshows hreached hrun
      rw [StepMachine.run_nil, Option.some.injEq] at hrun
      exact ⟨state, hreached, hrun ▸ hshows⟩
  | cons event rest ih =>
      intro execution state hshows hreached hrun
      rw [List.forall_mem_cons] at hsurvives
      rw [StepMachine.run_cons, Option.bind_eq_some_iff] at hrun
      obtain ⟨next, hnext, hrest⟩ := hrun
      obtain ⟨after, hafter, hshown⟩ := hshows.step hsurvives.1 hnext
      exact ih hsurvives.2 next after hshown (hreached.trans hafter) hrest

/-- When the interpreter has read both streams of a child to their ends, what
it has of one is what the child was to write there exactly when that is a text
whose lines all end with a line break alone. -/
theorem buffer_eq_iff_plain (capacity : ℕ) (output : Output)
    (trace : List ProcessEvent) (reached : ProcessExecution)
    (hrun : (ProcessExecution.machine capacity).run (.start output) trace =
      some reached)
    (hsurvives : ∀ event ∈ trace, Survives event)
    (hexited : reached.child = .exited)
    (hread : ∀ stream, ProcessExecution.Past reached.consumer stream)
    (stream : Stream) :
    reached.buffer stream = bytesOf stream output ↔
      Plain (bytesOf stream output) := by
  obtain ⟨state, ⟨events, hevents⟩, hshows⟩ :=
    shows_of_run hrun hsurvives stream
  have hpassed := (ProcessExecution.invariant_of_run hrun).passed stream
    (hread stream)
  have hprinted := hshows.printed
  rw [hexited] at hprinted
  have hbytes : state.printed = bytesOf stream output := by
    simpa [Child.remaining, bytesOf] using hprinted
  have hcomplete : state.Complete := by
    refine ⟨?_, ?_, ?_⟩
    · have hrunning := hshows.running
      rw [hexited] at hrunning
      simpa using hrunning
    · rw [hshows.side]
      exact hpassed.1
    · rw [hshows.side]
      exact hpassed.2
  rw [← hshows.received, ← hbytes]
  exact (sound_of_run hevents).received_eq_iff hcomplete

end OutputStream
end Sandbox
end Acdp
