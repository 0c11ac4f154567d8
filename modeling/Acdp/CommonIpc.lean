import Acdp.AuthSerdeRoundTrip
import Acdp.CommonMessageFidelity
import Acdp.JsonLines
import Acdp.LineReader
import Acdp.StepMachine

/-!
# Messages over a connection

A message is sent as one line, the text of its envelope, and received as the
next line that arrives.  In every run, the messages received are the messages
sent, and nothing after them, just when each of those that were due is one
that its text brings back.
-/

namespace Acdp
namespace Common

open Auth (DateTime Uuid)
open Json

/-- What the JSON library makes of a text, and what it says about a document
that is no envelope or a line that is no text. -/
structure IpcLibrary extends SerdeTexts where
  fromStr : String → Except String Json
  mismatch : Json → String
  notUtf8 : String

def newline : UInt8 := 10

namespace IpcLibrary

variable (library : IpcLibrary)

def envelopeCodec : Codec IpcEnvelope := IpcEnvelope.codec library.toSerdeTexts

def text (envelope : IpcEnvelope) : String :=
  print (library.envelopeCodec.write envelope)

/-- What one call of `send_message` writes. -/
def line (envelope : IpcEnvelope) : Bytes :=
  asBytes (library.text envelope) ++ [newline]

def readEnvelope (text : String) : Except String IpcEnvelope := do
  let doc ← library.fromStr text
  match library.envelopeCodec.read 127 doc with
  | some envelope => .ok envelope
  | none => .error (library.mismatch doc)

/-- What one call of `receive_message` makes of the line it has read; no line
at all is the end of the connection. -/
def receiveLine (line : Bytes) : Except String (Option IpcEnvelope) :=
  if line = [] then .ok none
  else
    match fromUtf8 line with
    | none => .error library.notUtf8
    | some text => (library.readEnvelope (Text.trim text)).map some

/-- The library reads the text of the envelope back as the document it was
written from. -/
def ReadsBack (envelope : IpcEnvelope) : Prop :=
  library.fromStr (library.text envelope) =
    .ok (library.envelopeCodec.write envelope)

end IpcLibrary

/-- What a receiver gets to see of an envelope is its message. -/
def messageOf : Except String (Option IpcEnvelope) →
    Except String (Option IpcMessage) :=
  Except.map (Option.map IpcEnvelope.message)

/-- The two ends of a connection.  `wire` has been written and not arrived;
`sent` and `received` list the envelopes sent and what the calls that receive
have returned. -/
structure IpcConnection where
  sent : List IpcEnvelope
  wire : Bytes
  hungUp : Bool
  reader : LineReader UInt8
  received : List (Except String (Option IpcEnvelope))

inductive IpcConnectionEvent where
  | sendMessage (message : IpcMessage) (now : DateTime) (fresh : Uuid)
  | hangUp
  | arrive (count : ℕ)
  | arriveEnd
  | poll
  | receiveMessage

namespace IpcConnection

def new : IpcConnection := ⟨[], [], false, .new, []⟩

def sendMessage (library : IpcLibrary) (message : IpcMessage) (now : DateTime)
    (fresh : Uuid) (self : IpcConnection) : IpcConnection :=
  let envelope : IpcEnvelope := ⟨message, now, some fresh⟩
  { self with
    sent := self.sent ++ [envelope]
    wire := self.wire ++ library.line envelope }

/-- A call that receives returns with the line it has read. -/
def receiveMessage (library : IpcLibrary) (self : IpcConnection) :
    Option IpcConnection :=
  (self.reader.readLine newline).map fun read =>
    { self with
      reader := if read.1 = [] then read.2 else read.2.record read.1
      received := self.received ++ [library.receiveLine read.1] }

/-- Bytes arrive in order, in pieces of any size, and the end of the stream
after all of them. -/
def step (library : IpcLibrary) (self : IpcConnection) :
    IpcConnectionEvent → Option IpcConnection
  | .sendMessage message now fresh =>
      if self.hungUp then none
      else some (self.sendMessage library message now fresh)
  | .hangUp => some { self with hungUp := true }
  | .arrive count =>
      (self.reader.arrive (self.wire.take count)).map fun reader =>
        { self with reader := reader, wire := self.wire.drop count }
  | .arriveEnd =>
      if self.hungUp = true ∧ self.wire = [] then
        some { self with reader := self.reader.close }
      else none
  | .poll =>
      (self.reader.poll newline).map fun reader => { self with reader := reader }
  | .receiveMessage => self.receiveMessage library

def machine (library : IpcLibrary) :
    StepMachine IpcConnection IpcConnectionEvent :=
  ⟨step library⟩

/-- The messages sent, and the end of the connection from then on. -/
def expected (self : IpcConnection) :
    List (Except String (Option IpcMessage)) :=
  self.sent.map (fun envelope => .ok (some envelope.message)) ++
    List.replicate self.received.length (.ok none)

def Faithful (self : IpcConnection) : Prop :=
  self.received.map messageOf <+: self.expected

end IpcConnection

/-! ## What one line brings back -/

namespace IpcLibrary

variable {library : IpcLibrary}

theorem exists_obj (envelope : IpcEnvelope) :
    ∃ members, library.envelopeCodec.write envelope = .obj members :=
  ⟨_, rfl⟩

theorem isLine_line (envelope : IpcEnvelope) :
    IsLine newline (library.line envelope) :=
  ⟨asBytes (library.text envelope),
    newline_notMem_asBytes (library.envelopeCodec.proper envelope).noBreak, rfl⟩

theorem isLine_of_mem (library : IpcLibrary) (envelopes : List IpcEnvelope) :
    ∀ line ∈ envelopes.map library.line, IsLine newline line := by
  intro line hline
  obtain ⟨envelope, _, rfl⟩ := List.mem_map.mp hline
  exact isLine_line envelope

theorem line_ne_nil (envelope : IpcEnvelope) : library.line envelope ≠ [] := by
  simp [line]

theorem receiveLine_line {envelope : IpcEnvelope}
    (hreads : library.ReadsBack envelope) :
    library.receiveLine (library.line envelope) =
      match library.envelopeCodec.read 127
          (library.envelopeCodec.write envelope) with
      | some read => .ok (some read)
      | none =>
          .error (library.mismatch (library.envelopeCodec.write envelope)) := by
  have hbytes : library.line envelope =
      asBytes (library.text envelope ++ "\n") := by
    rw [asBytes_append]
    rfl
  have htrim : Text.trim (library.text envelope ++ "\n") =
      library.text envelope := by
    obtain ⟨members, hmembers⟩ := @exists_obj library envelope
    rw [text, hmembers]
    exact trim_print_obj members
  rw [receiveLine, if_neg (line_ne_nil envelope), hbytes, fromUtf8_asBytes]
  dsimp only
  rw [htrim, readEnvelope, hreads]
  cases hread : library.envelopeCodec.read 127
      (library.envelopeCodec.write envelope) with
  | none =>
      simp only [Bind.bind, Except.bind, hread]
      rfl
  | some read =>
      simp only [Bind.bind, Except.bind, hread]
      rfl

/-- A line brings back its message exactly when the message is one that
survives. -/
theorem messageOf_line_iff {envelope : IpcEnvelope}
    (hreads : library.ReadsBack envelope) :
    messageOf (library.receiveLine (library.line envelope)) =
        .ok (some envelope.message) ↔
      envelope.message.Kept library.toSerdeTexts := by
  rw [receiveLine_line hreads]
  constructor
  · intro hsame
    cases hread : library.envelopeCodec.read 127
        (library.envelopeCodec.write envelope) with
    | none =>
        rw [hread] at hsame
        exact absurd hsame (by simp [messageOf, Except.map])
    | some read =>
        have hmessage : read.message = envelope.message := by
          simpa [hread, messageOf, Except.map] using hsame
        have hback := IpcEnvelope.read_message _ hread
        rw [hmessage] at hback
        exact (IpcMessage.kept_iff _ _).mp
          ((Codec.read_write_iff _ _ _).mp hback)
  · intro hkept
    have hread := (Codec.read_write_iff _ _ _).mpr
      ((IpcEnvelope.kept_iff library.toSerdeTexts envelope).mpr hkept)
    rw [envelopeCodec, hread]
    rfl

end IpcLibrary

/-! ## Whole runs -/

namespace IpcConnection

variable {library : IpcLibrary} {state next : IpcConnection}

/-- The lines received are the first lines of all that was sent, and the end
of the connection is only received after all of them. -/
structure Invariant (library : IpcLibrary) (state : IpcConnection) : Prop where
  conserved : state.reader.arrived ++ state.wire =
    (state.sent.map library.line).flatten
  sound : state.reader.Sound newline
  closed : state.reader.closed = true → state.hungUp = true ∧ state.wire = []
  received : ∃ ends,
    state.received = state.reader.lines.map library.receiveLine ++
      List.replicate ends (.ok none) ∧
    (0 < ends → state.reader.closed = true ∧ state.reader.left = [])

theorem new_invariant (library : IpcLibrary) : new.Invariant library where
  conserved := rfl
  sound := LineReader.new_sound
  closed := Bool.noConfusion
  received := ⟨0, rfl, fun hpos => absurd hpos (lt_irrefl 0)⟩

theorem Invariant.sendMessage (hinvariant : state.Invariant library)
    (hopen : state.hungUp ≠ true) (message : IpcMessage) (now : DateTime)
    (fresh : Uuid) :
    (state.sendMessage library message now fresh).Invariant library where
  conserved := by
    simp [IpcConnection.sendMessage, ← hinvariant.conserved]
  sound := hinvariant.sound
  closed hclosed := absurd (hinvariant.closed hclosed).1 hopen
  received := hinvariant.received

/-- All lines there are have been received once the stream has ended and
nothing is left of it. -/
theorem Invariant.lines_eq_of_left_eq_nil (hinvariant : state.Invariant library)
    (hclosed : state.reader.closed = true) (hleft : state.reader.left = []) :
    state.reader.lines = state.sent.map library.line := by
  have hfaithful := hinvariant.sound.faithful
  have hconserved := hinvariant.conserved
  rw [(hinvariant.closed hclosed).2, List.append_nil] at hconserved
  unfold LineReader.Faithful at hfaithful
  rw [hconserved, hleft] at hfaithful
  have hsplit := splitLines_flatten_append (library.isLine_of_mem state.sent) []
  rw [List.append_nil, hfaithful] at hsplit
  simpa [splitLines] using hsplit

theorem Invariant.lines_begin (hinvariant : state.Invariant library) :
    state.reader.lines <+: state.sent.map library.line := by
  rcases hinvariant.sound.whole with hwhole | ⟨hclosed, hleft⟩
  · have hsent :=
      splitLines_flatten_append (library.isLine_of_mem state.sent) []
    rw [List.append_nil, ← hinvariant.conserved, hinvariant.sound.conserved,
      List.append_assoc, splitLines_flatten_append hwhole] at hsent
    exact ⟨_, by simpa [splitLines] using hsent⟩
  · rw [hinvariant.lines_eq_of_left_eq_nil hclosed hleft]

theorem Invariant.arrive (hinvariant : state.Invariant library) {count : ℕ}
    {reader : LineReader UInt8}
    (hreader : state.reader.arrive (state.wire.take count) = some reader) :
    ({ state with reader := reader, wire := state.wire.drop count } :
      IpcConnection).Invariant library := by
  have hsound := hinvariant.sound.arrive hreader
  unfold LineReader.arrive at hreader
  split_ifs at hreader with hopen
  rw [Option.some.injEq] at hreader
  subst hreader
  have hconserved : state.reader.arrived ++ state.wire.take count ++
      state.wire.drop count = (state.sent.map library.line).flatten := by
    rw [List.append_assoc, List.take_append_drop]
    exact hinvariant.conserved
  refine ⟨hconserved, hsound, fun hclosed => absurd hclosed hopen, ?_⟩
  obtain ⟨ends, hreceived, hends⟩ := hinvariant.received
  exact ⟨ends, hreceived, fun hpos => absurd (hends hpos).1 hopen⟩

theorem Invariant.arriveEnd (hinvariant : state.Invariant library)
    (hend : state.hungUp = true ∧ state.wire = []) :
    ({ state with reader := state.reader.close } : IpcConnection).Invariant
      library := by
  refine ⟨hinvariant.conserved, hinvariant.sound.close, fun _ => hend, ?_⟩
  obtain ⟨ends, hreceived, hends⟩ := hinvariant.received
  exact ⟨ends, hreceived, fun hpos => ⟨rfl, (hends hpos).2⟩⟩

theorem Invariant.poll (hinvariant : state.Invariant library)
    {reader : LineReader UInt8}
    (hreader : state.reader.poll newline = some reader) :
    ({ state with reader := reader } : IpcConnection).Invariant library := by
  have hsound := hinvariant.sound.poll hreader
  unfold LineReader.poll at hreader
  split_ifs at hreader with hready
  rw [Option.some.injEq] at hreader
  subst hreader
  refine ⟨hinvariant.conserved, hsound, hinvariant.closed, ?_⟩
  obtain ⟨ends, hreceived, hends⟩ := hinvariant.received
  refine ⟨ends, hreceived, fun hpos => ⟨(hends hpos).1, ?_⟩⟩
  exact (List.append_nil _).trans (hends hpos).2

theorem Invariant.receiveMessage (hinvariant : state.Invariant library)
    (hnext : state.receiveMessage library = some next) :
    next.Invariant library := by
  unfold IpcConnection.receiveMessage at hnext
  rw [Option.map_eq_some_iff] at hnext
  obtain ⟨⟨line, reader⟩, hread, rfl⟩ := hnext
  obtain ⟨ends, hreceived, hends⟩ := hinvariant.received
  dsimp only
  split_ifs with hline
  · -- the end of the connection is received once more
    subst hline
    obtain ⟨hclosed, hleft, rfl⟩ := LineReader.eq_of_readLine_nil hread
    refine ⟨hinvariant.conserved, hinvariant.sound, hinvariant.closed,
      ends + 1, ?_, fun _ => ⟨hclosed, hleft⟩⟩
    dsimp only
    rw [hreceived, List.replicate_succ', ← List.append_assoc]
    rfl
  · have hnone : ends = 0 := by
      by_contra hsome
      obtain ⟨hclosed, hleft⟩ := hends (Nat.pos_of_ne_zero hsome)
      exact hline (LineReader.readLine_of_left_eq_nil hclosed hleft hread)
    obtain ⟨harrived, hclosed, hlines⟩ := LineReader.readLine_frame hread
    refine ⟨?_, hinvariant.sound.readLine hread hline, ?_, 0, ?_, ?_⟩
    · change reader.arrived ++ state.wire = _
      rw [harrived]
      exact hinvariant.conserved
    · intro hend
      exact hinvariant.closed (hclosed.symm.trans hend)
    · change state.received ++ [_] =
        (reader.lines ++ [line]).map library.receiveLine ++ _
      rw [hreceived, hnone, hlines, List.map_append]
      simp
    · exact fun hpos => absurd hpos (lt_irrefl 0)

theorem Invariant.step (hinvariant : state.Invariant library)
    {event : IpcConnectionEvent}
    (hnext : IpcConnection.step library state event = some next) :
    next.Invariant library := by
  cases event with
  | sendMessage message now fresh =>
      rw [IpcConnection.step, Option.ite_none_left_eq_some,
        Option.some.injEq] at hnext
      rw [← hnext.2]
      exact hinvariant.sendMessage hnext.1 message now fresh
  | hangUp =>
      rw [IpcConnection.step, Option.some.injEq] at hnext
      rw [← hnext]
      exact ⟨hinvariant.conserved, hinvariant.sound,
        fun hclosed => ⟨rfl, (hinvariant.closed hclosed).2⟩,
        hinvariant.received⟩
  | arrive count =>
      obtain ⟨reader, hreader, rfl⟩ := Option.map_eq_some_iff.mp hnext
      exact hinvariant.arrive hreader
  | arriveEnd =>
      rw [IpcConnection.step, Option.ite_none_right_eq_some,
        Option.some.injEq] at hnext
      rw [← hnext.2]
      exact hinvariant.arriveEnd hnext.1
  | poll =>
      obtain ⟨reader, hreader, rfl⟩ := Option.map_eq_some_iff.mp hnext
      exact hinvariant.poll hreader
  | receiveMessage => exact hinvariant.receiveMessage hnext

theorem run_new_invariant {trace : List IpcConnectionEvent}
    {reached : IpcConnection}
    (hrun : (machine library).run new trace = some reached) :
    reached.Invariant library :=
  StepMachine.run_invariant
    (fun _ _ _ hinvariant hnext => hinvariant.step hnext)
    (new_invariant library) hrun

/-! ### What has been received -/

/-- The outcomes of the calls so far, one for each of the first envelopes sent
and the end of the connection from then on. -/
theorem Invariant.received_eq (hinvariant : state.Invariant library) :
    ∃ ends,
      state.received.map messageOf =
        (state.sent.take state.received.length).map
            (fun envelope =>
              messageOf (library.receiveLine (library.line envelope))) ++
          List.replicate ends (.ok none) ∧
      ends = state.received.length - state.sent.length := by
  obtain ⟨ends, hreceived, hends⟩ := hinvariant.received
  have hlines : state.reader.lines =
      (state.sent.take state.reader.lines.length).map library.line := by
    rw [List.map_take]
    exact List.prefix_iff_eq_take.mp hinvariant.lines_begin
  have hshort := hinvariant.lines_begin.length_le
  rw [List.length_map] at hshort
  have hlength : state.received.length = state.reader.lines.length + ends := by
    rw [hreceived]
    simp
  have hcount : ends = 0 ∨
      state.reader.lines.length = state.sent.length := by
    rcases Nat.eq_zero_or_pos ends with hnone | hpos
    · exact Or.inl hnone
    · obtain ⟨hclosed, hleft⟩ := hends hpos
      right
      rw [hinvariant.lines_eq_of_left_eq_nil hclosed hleft, List.length_map]
  have htake : state.sent.take state.received.length =
      state.sent.take state.reader.lines.length := by
    rcases hcount with hnone | hall
    · rw [hlength, hnone, Nat.add_zero]
    · rw [List.take_of_length_le (by omega), List.take_of_length_le (by omega)]
  refine ⟨ends, ?_, by omega⟩
  rw [htake]
  have hend : messageOf (.ok none) = .ok none := rfl
  conv_lhs => rw [hreceived, hlines]
  simp only [List.map_append, List.map_map, List.map_replicate, hend,
    Function.comp_def]

theorem Invariant.faithful_iff (hinvariant : state.Invariant library) :
    state.Faithful ↔
      ∀ envelope ∈ state.sent.take state.received.length,
        messageOf (library.receiveLine (library.line envelope)) =
          .ok (some envelope.message) := by
  obtain ⟨ends, hreceived, hends⟩ := hinvariant.received_eq
  have hlength : state.received.length ≤ state.sent.length + ends := by omega
  have hexpected : state.expected.take state.received.length =
      (state.sent.take state.received.length).map
          (fun envelope => .ok (some envelope.message)) ++
        List.replicate ends (.ok none) := by
    unfold expected
    rw [List.take_append, List.length_map, ← hends, List.map_take,
      List.take_replicate, min_eq_left (by omega)]
  unfold Faithful
  rw [List.prefix_iff_eq_take, List.length_map, hexpected, hreceived,
    List.append_left_inj, List.map_inj_left]

/-! ### Runs that receive everything -/

theorem exists_receiveMessage (library : IpcLibrary)
    (hclosed : state.reader.closed = true) :
    ∃ next, (machine library).step state .receiveMessage = some next ∧
      next.reader.closed = true ∧ next.sent = state.sent ∧
      next.received.length = state.received.length + 1 := by
  obtain ⟨line, reader, hread⟩ :=
    LineReader.exists_readLine_of_closed newline hclosed
  have hsame := (LineReader.readLine_frame hread).2.1
  refine ⟨_, congrArg (Option.map _) hread, ?_, rfl, by simp⟩
  dsimp only
  split_ifs
  · exact hsame.trans hclosed
  · exact hsame.trans hclosed

theorem exists_receive_times (library : IpcLibrary) (count : ℕ)
    (hclosed : state.reader.closed = true) :
    ∃ finished, (machine library).Reaches state finished ∧
      finished.reader.closed = true ∧ finished.sent = state.sent ∧
      finished.received.length = state.received.length + count := by
  induction count with
  | zero => exact ⟨state, StepMachine.reaches_refl _ _, hclosed, rfl, rfl⟩
  | succ count ih =>
      obtain ⟨reached, hreaches, hended, hsent, hlength⟩ := ih
      obtain ⟨finished, hstep, hfinal, hsame, hone⟩ :=
        exists_receiveMessage library hended
      exact ⟨finished, hreaches.next hstep, hfinal, hsame.trans hsent,
        by omega⟩

/-- What is on the wire arrives, and the end of the stream after it. -/
theorem exists_closed (library : IpcLibrary)
    (hhungUp : state.hungUp = true) :
    ∃ ended, (machine library).Reaches state ended ∧
      ended.reader.closed = true ∧ ended.sent = state.sent := by
  by_cases hclosed : state.reader.closed = true
  · exact ⟨state, StepMachine.reaches_refl _ _, hclosed, rfl⟩
  · let arrived : IpcConnection := { state with
      reader := { state.reader with
        unread := state.reader.unread ++ state.wire
        arrived := state.reader.arrived ++ state.wire }
      wire := [] }
    have harrive : (machine library).step state (.arrive state.wire.length) =
        some arrived := by
      simp [machine, IpcConnection.step, LineReader.arrive, hclosed, arrived]
    have hend : (machine library).step arrived .arriveEnd =
        some { arrived with reader := arrived.reader.close } :=
      if_pos ⟨hhungUp, rfl⟩
    exact ⟨_, ((StepMachine.reaches_refl _ _).next harrive).next hend, rfl, rfl⟩

theorem exists_received_all (library : IpcLibrary)
    (hhungUp : state.hungUp = true) :
    ∃ finished, (machine library).Reaches state finished ∧
      finished.sent = state.sent ∧
      finished.sent.length < finished.received.length := by
  obtain ⟨ended, hreaches, hclosed, hsent⟩ := exists_closed library hhungUp
  obtain ⟨finished, hrest, _, hsame, hlength⟩ :=
    exists_receive_times library (ended.sent.length + 1) hclosed
  exact ⟨finished, hreaches.trans hrest, hsame.trans hsent,
    by rw [hsame]; omega⟩

/-- In every run of a connection, the calls that receive have returned exactly
the messages sent, in order, and then nothing, if and only if every message
received so far is one that survives its text; and once the sender has hung
up, the receiver can go on to the end. -/
theorem run_faithful_iff (library : IpcLibrary)
    {trace : List IpcConnectionEvent} {reached : IpcConnection}
    (hrun : (machine library).run new trace = some reached)
    (hreads : ∀ envelope ∈ reached.sent, library.ReadsBack envelope) :
    (reached.Faithful ↔
      ∀ envelope ∈ reached.sent.take reached.received.length,
        envelope.message.Kept library.toSerdeTexts) ∧
    (reached.hungUp = true →
      ∃ finished, (machine library).Reaches reached finished ∧
        finished.sent = reached.sent ∧
        finished.sent.length < finished.received.length) := by
  have hinvariant := run_new_invariant hrun
  refine ⟨?_, exists_received_all library⟩
  rw [hinvariant.faithful_iff]
  apply forall₂_congr
  intro envelope hmem
  exact IpcLibrary.messageOf_line_iff
    (hreads envelope (List.mem_of_mem_take hmem))

/-! ## Runs that receive everything, and one that loses a value -/

theorem decimalText_of_digits {text : String}
    (htext : text = "1.5" ∨ text = "0.0") : DecimalText text := by
  rcases htext with rfl | rfl
  · exact ⟨by simp; decide, '.', by simp, by decide⟩
  · exact ⟨by simp; decide, '.', by simp, by decide⟩

def tableNumbers : NumberText where
  print bits := if bits = 0x3FF8000000000000 then "1.5" else "0.0"
  parse text :=
    if text = "1.5" then some 0x3FF8000000000000
    else if text = "0.0" then some 0
    else none
  printSingle bits := if bits = 0x3FC00000 then "1.5" else "0.0"
  doubleOfInt value := if value = 1 then 0x3FF0000000000000 else 0
  singleOfInt value := if value = 1 then 0x3F800000 else 0
  singleOfDouble bits := if bits = 0x3FF8000000000000 then 0x3FC00000 else 0
  print_decimal _ := decimalText_of_digits (ite_eq_or_eq _ _ _)
  printSingle_decimal _ := decimalText_of_digits (ite_eq_or_eq _ _ _)

def tableSerde : SerdeTexts where
  toNumberText := tableNumbers
  uuidToString := Auth.smallUuidText
  uuidParseStr := Auth.smallUuidParse
  uuid_reads := Auth.smallUuidParse_smallUuidText
  dateTimeToString := Auth.smallDateTimeText
  dateTimeParse := Auth.smallDateTimeParse
  dateTime_reads := Auth.smallDateTimeParse_smallDateTimeText
  order := ⟨id, fun members => List.Perm.refl members⟩

def findText (docs : List Json) (text : String) : Except String Json :=
  match docs.find? (fun doc => print doc = text) with
  | some doc => .ok doc
  | none => .error "expected value at line 1 column 1"

theorem findText_print {docs : List Json}
    (hproper : ∀ doc ∈ docs, Proper doc) {doc : Json} (hmem : doc ∈ docs) :
    findText docs (print doc) = .ok doc := by
  cases hfind : docs.find? (fun other => print other = print doc) with
  | none =>
      have hother := List.find?_eq_none.mp hfind doc hmem
      simp at hother
  | some found =>
      have hsame : print found = print doc := by
        simpa using List.find?_some hfind
      have hfound := List.mem_of_find?_eq_some hfind
      have heq := ((hproper found hfound).print_inj (hproper doc hmem)).mp hsame
      rw [findText, hfind, heq]

/-- A library that reads the texts of some envelopes. -/
def tableLibrary (envelopes : List IpcEnvelope) : IpcLibrary where
  toSerdeTexts := tableSerde
  fromStr := findText (envelopes.map (IpcEnvelope.codec tableSerde).write)
  mismatch _ := "invalid type"
  notUtf8 := "stream did not contain valid UTF-8"

theorem tableLibrary_readsBack {envelopes : List IpcEnvelope}
    {envelope : IpcEnvelope} (hmem : envelope ∈ envelopes) :
    (tableLibrary envelopes).ReadsBack envelope := by
  apply findText_print
  · intro doc hdoc
    obtain ⟨other, _, rfl⟩ := List.mem_map.mp hdoc
    exact Codec.proper _ other
  · exact List.mem_map_of_mem hmem

def sampleId : Uuid := .filled 16 0

def predictionEnvelope : IpcEnvelope :=
  ⟨.semanticPrediction ⟨"list the files", "list_files", 0x3FF8000000000000,
    none, some true⟩, Auth.smallInstant, some sampleId⟩

def pingEnvelope : IpcEnvelope := ⟨.ping, Auth.smallInstant, some sampleId⟩

def sampleTrace : List IpcConnectionEvent :=
  [.sendMessage predictionEnvelope.message Auth.smallInstant sampleId,
    .sendMessage .ping Auth.smallInstant sampleId, .hangUp]

theorem run_faithful_iff_sample :
    ∃ trace finished,
      (machine (tableLibrary [predictionEnvelope, pingEnvelope])).run new
        trace = some finished ∧
      finished.sent = [predictionEnvelope, pingEnvelope] ∧
      2 < finished.received.length ∧ finished.Faithful := by
  let library := tableLibrary [predictionEnvelope, pingEnvelope]
  have hrun : (machine library).run new sampleTrace = some _ := rfl
  obtain ⟨finished, hreaches, hsent, hlength⟩ :=
    (run_faithful_iff library hrun
      (fun _ hmem => tableLibrary_readsBack hmem)).2 rfl
  obtain ⟨trace, hfinished⟩ := StepMachine.Reaches.trans ⟨_, hrun⟩ hreaches
  have hreads : ∀ envelope ∈ finished.sent, library.ReadsBack envelope := by
    rw [hsent]
    exact fun _ hmem => tableLibrary_readsBack hmem
  refine ⟨trace, finished, hfinished, hsent, ?_,
    (run_faithful_iff library hfinished hreads).1.mpr ?_⟩
  · rw [hsent] at hlength
    exact hlength
  · intro envelope hmem
    have hsample := List.mem_of_mem_take hmem
    rw [hsent] at hsample
    rcases List.mem_pair.mp hsample with rfl | rfl
    · exact ⟨by decide, by decide⟩
    · trivial

def nullRequest : IpcMessage.TuiMcpRequest :=
  ⟨"tools/list", some ⟨.null, .null⟩, sampleId⟩

def nullEnvelope : IpcEnvelope :=
  ⟨.tuiMcpRequest nullRequest, Auth.smallInstant, some sampleId⟩

def strippedEnvelope : IpcEnvelope :=
  { nullEnvelope with
    message := .tuiMcpRequest { nullRequest with params := none } }

theorem machine_receiveMessage (library : IpcLibrary) (self : IpcConnection) :
    (machine library).step self .receiveMessage =
      self.receiveMessage library := rfl

/-- A message that is sent, arrives as a whole and is received. -/
theorem run_single (library : IpcLibrary) (message : IpcMessage)
    (now : DateTime) (fresh : Uuid) :
    let line := library.line ⟨message, now, some fresh⟩
    (machine library).run new
        [.sendMessage message now fresh, .arrive line.length,
          .receiveMessage] =
      some {
        sent := [⟨message, now, some fresh⟩]
        wire := []
        hungUp := false
        reader := ⟨[], [], false, line, [line]⟩
        received := [library.receiveLine line] } := by
  intro line
  have hread := @LineReader.readLine_of_isLine _ _ _
    ⟨[], line, false, line, []⟩ line
    (library.isLine_line ⟨message, now, some fresh⟩) rfl rfl
  have hreceive : (machine library).step
      ⟨[⟨message, now, some fresh⟩], [], false,
        ⟨[], line, false, line, []⟩, []⟩ .receiveMessage =
      some ⟨[⟨message, now, some fresh⟩], [], false,
        ⟨[], [], false, line, [line]⟩, [library.receiveLine line]⟩ := by
    rw [machine_receiveMessage, IpcConnection.receiveMessage, hread,
      Option.map_some, if_neg (library.line_ne_nil _)]
    rfl
  have harrive : (machine library).step
      ⟨[⟨message, now, some fresh⟩], line, false, .new, []⟩
        (.arrive line.length) =
      some ⟨[⟨message, now, some fresh⟩], [], false,
        ⟨[], line, false, line, []⟩, []⟩ := by
    simp [machine, IpcConnection.step, LineReader.arrive, LineReader.new]
  have hsend : (machine library).step new (.sendMessage message now fresh) =
      some ⟨[⟨message, now, some fresh⟩], line, false, .new, []⟩ := rfl
  rw [StepMachine.run_cons, hsend, Option.bind_some, StepMachine.run_cons,
    harrive, Option.bind_some, StepMachine.run_cons, hreceive,
    Option.bind_some, StepMachine.run_nil]

/-- A request whose parameters are `null` is received as a request without
parameters. -/
theorem run_not_faithful :
    ∃ reached,
      (machine (tableLibrary [nullEnvelope])).run new
        [.sendMessage nullEnvelope.message Auth.smallInstant sampleId,
          .arrive ((tableLibrary [nullEnvelope]).line nullEnvelope).length,
          .receiveMessage] = some reached ∧
      (∀ envelope ∈ reached.sent,
        (tableLibrary [nullEnvelope]).ReadsBack envelope) ∧
      reached.received.map messageOf =
        [.ok (some strippedEnvelope.message)] ∧
      ¬ reached.Faithful := by
  have hrun := run_single (tableLibrary [nullEnvelope]) nullEnvelope.message
    Auth.smallInstant sampleId
  have hreads : (tableLibrary [nullEnvelope]).ReadsBack nullEnvelope :=
    tableLibrary_readsBack List.mem_cons_self
  -- the two requests are written as one text
  have hstripped : (tableLibrary [nullEnvelope]).ReadsBack strippedEnvelope :=
    hreads
  have hsurvives : strippedEnvelope.message.Kept tableSerde := by
    intro value hvalue
    exact absurd hvalue (by simp)
  have hreceived : messageOf ((tableLibrary [nullEnvelope]).receiveLine
      ((tableLibrary [nullEnvelope]).line nullEnvelope)) =
        .ok (some strippedEnvelope.message) :=
    (IpcLibrary.messageOf_line_iff hstripped).mpr hsurvives
  refine ⟨_, hrun, ?_, congrArg (fun read => [read]) hreceived, ?_⟩
  · intro envelope hmem
    rw [List.mem_singleton.mp hmem]
    exact hreads
  · intro hfaithful
    have hkept := (IpcLibrary.messageOf_line_iff hreads).mp
      ((run_new_invariant hrun).faithful_iff.mp hfaithful nullEnvelope
        List.mem_cons_self)
    exact (hkept _ rfl).1 rfl

end IpcConnection
end Common
end Acdp
