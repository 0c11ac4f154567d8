import Acdp.LineReader
import Acdp.SandboxTypes
import Acdp.StepMachine

/-!
# A process and the interpreter that reads it

A child writes to two pipes.  Each pipe has a task that reads it line by line
and sends the lines through a channel of 128 slots.  The interpreter of plans
empties the channel of standard output until it is closed, and only then the
other.
-/

namespace Acdp
namespace Sandbox

inductive Stream where
  | stdout
  | stderr
  deriving DecidableEq, Repr

def newline : UInt8 := 10

def carriageReturn : UInt8 := 13

def isUtf8 (bytes : Bytes) : Bool :=
  (ByteArray.mk bytes.toArray).validateUTF8

/-- A line as it is sent: without its line break, and with one again. -/
def deliveredLine (raw : Bytes) : Bytes :=
  let line :=
    if raw.getLast? = some newline then
      let body := raw.dropLast
      if body.getLast? = some carriageReturn then body.dropLast else body
    else raw
  line ++ [newline]

def channelSlots : ℕ := 128

/-- The capacity of the buffer of a reader. -/
def readerBytes : ℕ := 8192

/-- One of the streams of a child: what is in its pipe, what its task has
taken from the pipe and the line it is sending, and what is in the channel.
`lines` lists the lines that the task has got. -/
structure Side where
  pipe : Bytes := []
  taken : Bytes := []
  pending : Option Bytes := none
  forwarding : Bool := true
  channel : List Bytes := []
  lines : List Bytes := []

namespace Side

def write (capacity : ℕ) (byte : UInt8) (self : Side) : Option Side :=
  if self.forwarding = true ∧ self.pipe.length < capacity then
    some { self with pipe := self.pipe ++ [byte] }
  else none

/-- The task ends: the channel is closed, and what is left in the pipe is
lost. -/
def close (self : Side) : Side :=
  { self with pipe := [], taken := [], forwarding := false }

/-- A line that is not a text ends the task. -/
def got (raw rest : Bytes) (self : Side) : Side :=
  if isUtf8 raw then
    { self with
      pending := some (deliveredLine raw)
      taken := rest
      lines := self.lines ++ [raw] }
  else self.close

/-- The task is between two lines, or within one. -/
def Reading (self : Side) : Prop :=
  self.forwarding = true ∧ self.pending = none

instance (self : Side) : Decidable self.Reading :=
  inferInstanceAs (Decidable (_ ∧ _))

def read (count : ℕ) (self : Side) : Option Side :=
  if self.Reading ∧ newline ∉ self.taken ∧ 0 < count ∧
      count ≤ min readerBytes self.pipe.length then
    some { self with
      taken := self.taken ++ self.pipe.take count
      pipe := self.pipe.drop count }
  else none

def takeLine (self : Side) : Option Side :=
  if self.Reading ∧ newline ∈ self.taken then
    let body := self.taken.takeWhile (fun byte => byte ≠ newline)
    some (self.got (body ++ [newline]) (self.taken.drop (body.length + 1)))
  else none

/-- The pipe is empty and nobody can write to it any more. -/
def endOfFile (self : Side) : Option Side :=
  if self.Reading ∧ newline ∉ self.taken ∧ self.pipe = [] then
    some (if self.taken = [] then self.close else self.got self.taken [])
  else none

def send (self : Side) : Option Side :=
  match self.pending with
  | some line =>
      if self.channel.length < channelSlots then
        some { self with channel := self.channel ++ [line], pending := none }
      else none
  | none => none

/-- The next chunk, or that there are no more. -/
def receive (self : Side) : Option (Option Bytes × Side) :=
  match self.channel with
  | chunk :: rest => some (some chunk, { self with channel := rest })
  | [] => if self.forwarding then none else some (none, self)

/-- Output that has not got to the interpreter. -/
def Undelivered (self : Side) : Prop :=
  self.pipe ≠ [] ∨ self.taken ≠ [] ∨ self.pending ≠ none ∨ self.channel ≠ []

end Side

/-- The bytes that a program writes, each to its stream; a write of several
bytes is several steps. -/
abbrev Output := List (Stream × UInt8)

def bytesOf (stream : Stream) (output : Output) : Bytes :=
  (output.filter (fun written => written.1 = stream)).map Prod.snd

inductive Child where
  | spawning (output : Output)
  | running (remaining : Output)
  | exited

inductive Consumer where
  | draining (stream : Stream)
  | awaiting
  | done
  deriving DecidableEq, Repr

inductive ProcessEvent where
  | spawn
  | spawnFails
  | write
  | writeFails (killed : Bool)
  | exit
  | read (stream : Stream) (count : ℕ)
  | takeLine (stream : Stream)
  | endOfFile (stream : Stream)
  | send (stream : Stream)
  | wait
  | receive

structure ProcessExecution where
  child : Child
  side : Stream → Side
  resultSent : Bool
  consumer : Consumer
  buffer : Stream → Bytes

namespace ProcessExecution

def start (output : Output) : ProcessExecution where
  child := .spawning output
  side _ := {}
  resultSent := false
  consumer := .draining .stdout
  buffer _ := []

def withSide (self : ProcessExecution) (stream : Stream) (side : Side) :
    ProcessExecution :=
  { self with side := Function.update self.side stream side }

/-- The consumer goes from one stream to the next. -/
def afterStream : Stream → Consumer
  | .stdout => .draining .stderr
  | .stderr => .awaiting

def receive (self : ProcessExecution) : Option ProcessExecution :=
  match self.consumer with
  | .draining stream =>
      (self.side stream).receive.map fun received =>
        match received.1 with
        | some chunk =>
            { self.withSide stream received.2 with
              buffer := Function.update self.buffer stream
                (self.buffer stream ++ chunk) }
        | none => { self with consumer := afterStream stream }
  | .awaiting =>
      if self.resultSent then some { self with consumer := .done } else none
  | .done => none

def childStep (capacity : ℕ) (self : ProcessExecution) :
    ProcessEvent → Option ProcessExecution
  | .spawn =>
      match self.child with
      | .spawning output => some { self with child := .running output }
      | _ => none
  | .spawnFails =>
      match self.child with
      | .spawning _ =>
          some { self with
            child := .exited
            side := fun stream => (self.side stream).close
            resultSent := true }
      | _ => none
  | .write =>
      match self.child with
      | .running ((stream, byte) :: rest) =>
          ((self.side stream).write capacity byte).map fun side =>
            { self.withSide stream side with child := .running rest }
      | _ => none
  | .writeFails killed =>
      match self.child with
      | .running ((stream, _) :: rest) =>
          if (self.side stream).forwarding then none
          else
            some { self with child := .running (if killed then [] else rest) }
      | _ => none
  | .exit =>
      match self.child with
      | .running [] => some { self with child := .exited }
      | _ => none
  | _ => none

/-- A pipe has ended when the child that writes to it has. -/
def step (capacity : ℕ) (self : ProcessExecution) :
    ProcessEvent → Option ProcessExecution
  | .read stream count =>
      ((self.side stream).read count).map (self.withSide stream)
  | .takeLine stream => (self.side stream).takeLine.map (self.withSide stream)
  | .endOfFile stream =>
      match self.child with
      | .exited => (self.side stream).endOfFile.map (self.withSide stream)
      | _ => none
  | .send stream => (self.side stream).send.map (self.withSide stream)
  | .wait =>
      match self.child with
      | .exited =>
          if self.resultSent then none
          else some { self with resultSent := true }
      | _ => none
  | .receive => self.receive
  | event => self.childStep capacity event

def machine (capacity : ℕ) : StepMachine ProcessExecution ProcessEvent :=
  ⟨step capacity⟩

/-- While the child has not finished or output is undelivered, some party can
take a step. -/
def Live (capacity : ℕ) (self : ProcessExecution) : Prop :=
  (self.child ≠ .exited ∨ ∃ stream, (self.side stream).Undelivered) →
    ∃ event next, self.step capacity event = some next

end ProcessExecution
end Sandbox
end Acdp
