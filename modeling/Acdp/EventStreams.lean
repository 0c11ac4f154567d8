import Acdp.TextOperations

/-!
# Event streams

The text of a stream of events: lines, each ended by a line feed that may come
after a carriage return.  A blank line ends an event, and what the data lines
of an event hold is joined by line feeds to its payload.  One space after the
colon of a data line does not count.
-/

namespace Acdp
namespace EventStream

/-! ## Lines -/

inductive Line where
  | blank
  | data (spaced : Bool) (content : String)
  | other (text : String)
  deriving DecidableEq, Repr

inductive LineEnd where
  | lineFeed
  | carriageReturnLineFeed
  deriving DecidableEq, Repr

def LineEnd.chars : LineEnd → List Char
  | .lineFeed => ['\n']
  | .carriageReturnLineFeed => ['\r', '\n']

namespace Line

def text : Line → String
  | .blank => ""
  | .data spaced content => (if spaced then "data: " else "data:") ++ content
  | .other text => text

/-- No character that ends a line. -/
def Unbroken (text : String) : Prop :=
  '\n' ∉ text.toList ∧ '\r' ∉ text.toList

instance (text : String) : Decidable (Unbroken text) :=
  inferInstanceAs (Decidable (_ ∧ _))

/-- A line is written so that it is read as what it is. -/
def WellFormed : Line → Prop
  | .blank => True
  | .data spaced content =>
      Unbroken content ∧ (spaced = false → content.toList.head? ≠ some ' ')
  | .other text =>
      Unbroken text ∧ text ≠ "" ∧ text ≠ "data" ∧
        ¬ "data:".toList <+: text.toList

instance (line : Line) : Decidable line.WellFormed := by
  cases line <;> unfold WellFormed <;> infer_instance

theorem WellFormed.unbroken {line : Line} (hline : line.WellFormed) :
    Unbroken line.text := by
  cases line with
  | blank => exact ⟨List.not_mem_nil, List.not_mem_nil⟩
  | other text => exact hline.1
  | data spaced content =>
      obtain ⟨⟨hfeed, hreturn⟩, _⟩ := hline
      cases spaced with
      | true => simp [Unbroken, text, hfeed, hreturn]
      | false => simp [Unbroken, text, hfeed, hreturn]

def isData : Line → Bool
  | .data _ _ => true
  | _ => false

/-- What a data line with the space holds. -/
def spacedContent : Line → Option String
  | .data true content => some content
  | _ => none

theorem stripPrefix_text {line : Line} (hline : line.WellFormed) :
    Text.stripPrefix "data: " line.text = line.spacedContent := by
  cases line with
  | blank => rfl
  | other text =>
      obtain ⟨_, _, _, hother⟩ := hline
      have hnot : ¬ "data: ".toList <+: text.toList := by
        intro hspaced
        apply hother
        exact List.IsPrefix.trans (by decide) hspaced
      exact if_neg hnot
  | data spaced content =>
      cases spaced with
      | true =>
          have hlead : "data: ".toList <+:
              (Line.data true content).text.toList := by
            simp [text]
          rw [Text.stripPrefix, if_pos hlead]
          simp [text, spacedContent]
      | false =>
          obtain ⟨_, hspace⟩ := hline
          have hnot : ¬ "data: ".toList <+:
              (Line.data false content).text.toList := by
            intro hlead
            have hhead : [' '] <+: content.toList := by
              simpa [text] using hlead
            apply hspace rfl
            obtain ⟨rest, hrest⟩ := hhead
            rw [← hrest]
            rfl
          exact if_neg hnot

theorem data_prefix_iff {line : Line} (hline : line.WellFormed) :
    "data:".toList <+: line.text.toList ↔ line.isData = true := by
  cases line with
  | blank => exact iff_of_false (by decide) Bool.noConfusion
  | other text => exact iff_of_false hline.2.2.2 Bool.noConfusion
  | data spaced content =>
      refine iff_of_true ?_ rfl
      cases spaced <;> simp [text]

/-- A line has one reading. -/
theorem text_injOn {line other : Line} (hline : line.WellFormed)
    (hother : other.WellFormed) (htext : line.text = other.text) :
    line = other := by
  have hdata : line.isData = true ↔ other.isData = true := by
    rw [← data_prefix_iff hline, ← data_prefix_iff hother, htext]
  have hspaced : line.spacedContent = other.spacedContent := by
    rw [← stripPrefix_text hline, ← stripPrefix_text hother, htext]
  cases line with
  | blank =>
      cases other with
      | blank => rfl
      | data spaced content => simp [isData] at hdata
      | other text => exact absurd htext.symm hother.2.1
  | other text =>
      cases other with
      | blank => exact absurd htext hline.2.1
      | data spaced content => simp [isData] at hdata
      | other found => exact congrArg Line.other htext
  | data spaced content =>
      cases other with
      | blank => simp [isData] at hdata
      | other text => simp [isData] at hdata
      | data widely found =>
          cases spaced with
          | true =>
              cases widely with
              | true => rw [Option.some.inj hspaced]
              | false => cases hspaced
          | false =>
              cases widely with
              | true => cases hspaced
              | false =>
                  rw [← String.toList_inj] at htext
                  simpa [text, String.toList_inj] using htext

theorem eq_of_map_text {lines others : List Line}
    (hlines : ∀ line ∈ lines, line.WellFormed)
    (hothers : ∀ line ∈ others, line.WellFormed)
    (htexts : lines.map Line.text = others.map Line.text) : lines = others := by
  induction lines generalizing others with
  | nil => exact (List.map_eq_nil_iff.mp htexts.symm).symm
  | cons line rest ih =>
      cases others with
      | nil => cases htexts
      | cons other remaining =>
          rw [List.forall_mem_cons] at hlines hothers
          obtain ⟨hhead, htail⟩ := List.cons.inj htexts
          rw [text_injOn hlines.1 hothers.1 hhead,
            ih hlines.2 hothers.2 htail]

end Line

/-! ## Events -/

/-- The payloads of the events, `open` being what the data lines of the event
that has begun hold; an event without any is none. -/
def gather (begun : List String) : List Line → List String
  | [] => if begun = [] then [] else ["\n".intercalate begun]
  | .blank :: rest =>
      if begun = [] then gather [] rest
      else "\n".intercalate begun :: gather [] rest
  | .data _ content :: rest => gather (begun ++ [content]) rest
  | .other _ :: rest => gather begun rest

/-- The data lines: whether there is a space, and what they hold. -/
def dataLines : List Line → List (Bool × String)
  | [] => []
  | .data spaced content :: rest => (spaced, content) :: dataLines rest
  | _ :: rest => dataLines rest

/-- Where there is a payload there is a data line. -/
theorem dataLines_ne_nil_of_gather {lines : List Line}
    (hpayload : gather [] lines ≠ []) : dataLines lines ≠ [] := by
  induction lines with
  | nil => exact absurd rfl hpayload
  | cons line rest ih =>
      cases line with
      | blank => exact ih (by simpa [gather] using hpayload)
      | data spaced content => exact List.cons_ne_nil _ _
      | other text => exact ih hpayload

theorem mem_dataLines_iff {lines : List Line} {spaced : Bool}
    {content : String} :
    (spaced, content) ∈ dataLines lines ↔ .data spaced content ∈ lines := by
  induction lines with
  | nil => simp [dataLines]
  | cons line rest ih => cases line <;> simp [dataLines, ih]

/-! ## Streams -/

structure Stream where
  lines : List (Line × LineEnd)
  wellFormed : ∀ line ∈ lines, line.1.WellFormed

namespace Stream

variable (self : Stream)

def text : String :=
  String.ofList
    (self.lines.flatMap (fun line => line.1.text.toList ++ line.2.chars))

def payloads : List String := gather [] (self.lines.map Prod.fst)

def dataLines : List (Bool × String) :=
  EventStream.dataLines (self.lines.map Prod.fst)

/-- Every event has one data line. -/
def OneLineEach : Prop := self.payloads = self.dataLines.map Prod.snd

theorem linesFrom_line {line : List Char} (hfeed : '\n' ∉ line)
    (hreturn : '\r' ∉ line) (lineEnd : LineEnd) (read rest : List Char)
    (hread : '\r' ∉ read) :
    Text.linesFrom read (line ++ lineEnd.chars ++ rest) =
      String.ofList (read.reverse ++ line) :: Text.linesFrom [] rest := by
  induction line generalizing read with
  | nil =>
      have hlast : read.head? ≠ some '\r' :=
        fun hhead => hread (List.mem_of_head? hhead)
      cases lineEnd with
      | lineFeed =>
          simp [LineEnd.chars, Text.linesFrom, Text.stripCarriageReturn,
            hlast]
      | carriageReturnLineFeed =>
          simp [LineEnd.chars, Text.linesFrom, Text.stripCarriageReturn]
  | cons char chars ih =>
      rw [List.mem_cons, not_or] at hfeed hreturn
      have hchar : char ≠ '\n' := Ne.symm hfeed.1
      have hstep := ih hfeed.2 hreturn.2 (char :: read)
        (by simp [hread, hreturn.1])
      simpa [Text.linesFrom, hchar] using hstep

theorem lines_text :
    Text.lines self.text = self.lines.map (fun line => line.1.text) := by
  have hlines : ∀ lines : List (Line × LineEnd),
      (∀ line ∈ lines, line.1.WellFormed) →
      Text.linesFrom []
          (lines.flatMap (fun line => line.1.text.toList ++ line.2.chars)) =
        lines.map (fun line => line.1.text) := by
    intro lines hformed
    induction lines with
    | nil => rfl
    | cons line rest ih =>
        obtain ⟨hline, hrest⟩ := List.forall_mem_cons.mp hformed
        obtain ⟨hfeed, hreturn⟩ := hline.unbroken
        rw [List.flatMap_cons, linesFrom_line hfeed hreturn line.2 [] _
          List.not_mem_nil, ih hrest]
        simp
  rw [Text.lines, text, String.toList_ofList]
  exact hlines self.lines self.wellFormed

/-- The stream shows what each of its lines shows. -/
theorem contains_text {line : Line × LineEnd} (hline : line ∈ self.lines)
    {part : String} (hpart : part.toList <+: line.1.text.toList) :
    Text.contains self.text part = true := by
  rw [Text.contains, decide_eq_true_iff, text, String.toList_ofList,
    List.flatMap_def]
  have hinside := List.infix_of_mem_flatten (List.mem_map_of_mem
    (f := fun line : Line × LineEnd => line.1.text.toList ++ line.2.chars)
    hline)
  exact (hpart.isInfix.trans (List.prefix_append _ _).isInfix).trans hinside

/-- A text has the events of one stream only. -/
theorem payloads_eq_of_text_eq {self other : Stream}
    (htext : self.text = other.text) : self.payloads = other.payloads := by
  have htexts : (self.lines.map Prod.fst).map Line.text =
      (other.lines.map Prod.fst).map Line.text := by
    rw [List.map_map, List.map_map]
    exact (lines_text self).symm.trans
      ((congrArg Text.lines htext).trans (lines_text other))
  have hformed : ∀ stream : Stream, ∀ line ∈ stream.lines.map Prod.fst,
      line.WellFormed := by
    intro stream line hline
    obtain ⟨ended, hended, rfl⟩ := List.mem_map.mp hline
    exact stream.wellFormed ended hended
  rw [payloads, payloads,
    Line.eq_of_map_text (hformed self) (hformed other) htexts]

end Stream

end EventStream
end Acdp
