import Acdp.SandboxProcess

/-!
# What is sent of a text

Every line that is read is sent without its line break and with a new one.
So a text arrives as it was when its lines all end with a line break alone:
a last line without one gets one, and a carriage return before one is lost.
-/

namespace Acdp
namespace Sandbox

theorem isUtf8_iff {bytes : Bytes} :
    isUtf8 bytes = true ↔ ∃ text, asBytes text = bytes := by
  rw [isUtf8, ByteArray.validateUTF8_eq_true_iff]
  constructor
  · rintro ⟨chars, hchars⟩
    refine ⟨String.ofList chars, ?_⟩
    have hlist := congrArg (fun array => array.data.toList) hchars
    simpa [asBytes, List.utf8Encode] using hlist.symm
  · rintro ⟨text, rfl⟩
    refine ⟨text.toList, ByteArray.ext ?_⟩
    simp [asBytes, List.utf8Encode]

theorem isUtf8_append {front rest : Bytes} (hfront : isUtf8 front = true)
    (hrest : isUtf8 rest = true) : isUtf8 (front ++ rest) = true := by
  obtain ⟨before, rfl⟩ := isUtf8_iff.mp hfront
  obtain ⟨after, rfl⟩ := isUtf8_iff.mp hrest
  exact isUtf8_iff.mpr ⟨before ++ after, asBytes_append before after⟩

theorem isUtf8_of_split {front rest : Bytes} {byte : UInt8}
    (hascii : byte.toNat < 128)
    (htext : isUtf8 (front ++ byte :: rest) = true) :
    isUtf8 front = true ∧ isUtf8 rest = true := by
  obtain ⟨text, hbytes⟩ := isUtf8_iff.mp htext
  obtain ⟨before, after, hbefore, hafter⟩ :=
    exists_texts_of_asBytes hascii hbytes
  exact ⟨isUtf8_iff.mpr ⟨before, hbefore⟩, isUtf8_iff.mpr ⟨after, hafter⟩⟩

theorem isUtf8_split_iff {front rest : Bytes} :
    isUtf8 (front ++ newline :: rest) = true ↔
      isUtf8 front = true ∧ isUtf8 rest = true := by
  refine ⟨isUtf8_of_split (by decide), ?_⟩
  rintro ⟨hfront, hrest⟩
  have hbreak : isUtf8 [newline] = true := isUtf8_iff.mpr ⟨"\n", rfl⟩
  exact isUtf8_append hfront (isUtf8_append hbreak hrest)

theorem isUtf8_line_iff {body : Bytes} :
    isUtf8 (body ++ [newline]) = true ↔ isUtf8 body = true := by
  rw [isUtf8_split_iff, and_iff_left]
  exact isUtf8_iff.mpr ⟨"", rfl⟩

/-- Whole lines that are texts do not change whether what follows them makes a
text. -/
theorem isUtf8_flatten_append_iff {lines : List Bytes}
    (hlines : ∀ line ∈ lines, IsLine newline line ∧ isUtf8 line = true)
    (rest : Bytes) :
    isUtf8 (lines.flatten ++ rest) = true ↔ isUtf8 rest = true := by
  induction lines with
  | nil => rfl
  | cons line lines ih =>
      rw [List.forall_mem_cons] at hlines
      obtain ⟨⟨⟨body, -, rfl⟩, htext⟩, hlines⟩ := hlines
      rw [List.flatten_cons, List.append_assoc, List.append_assoc,
        List.singleton_append, isUtf8_split_iff, ih hlines,
        and_iff_right (isUtf8_line_iff.mp htext)]

theorem isUtf8_flatten {lines : List Bytes}
    (hlines : ∀ line ∈ lines, isUtf8 line = true) :
    isUtf8 lines.flatten = true := by
  induction lines with
  | nil => exact isUtf8_iff.mpr ⟨"", rfl⟩
  | cons line lines ih =>
      rw [List.forall_mem_cons] at hlines
      exact isUtf8_append hlines.1 (ih hlines.2)

/-! ## Lines -/

/-- The body of a line as it is sent. -/
def lineBody (body : Bytes) : Bytes :=
  if body.getLast? = some carriageReturn then body.dropLast else body

theorem deliveredLine_of_line (body : Bytes) :
    deliveredLine (body ++ [newline]) = lineBody body ++ [newline] := by
  simp [deliveredLine, lineBody]

theorem deliveredLine_of_fragment {text : Bytes} (htext : newline ∉ text) :
    deliveredLine text = text ++ [newline] := by
  have hlast : text.getLast? ≠ some newline := by
    intro hlast
    exact htext (List.mem_of_getLast? hlast)
  simp [deliveredLine, hlast]

theorem isUtf8_lineBody {body : Bytes} (htext : isUtf8 body = true) :
    isUtf8 (lineBody body) = true := by
  rw [lineBody]
  split_ifs with hlast
  · obtain ⟨front, rfl⟩ := List.getLast?_eq_some_iff.mp hlast
    rw [List.dropLast_concat]
    exact (isUtf8_of_split (by decide) htext).1
  · exact htext

theorem isUtf8_deliveredLine {line : Bytes} (htext : isUtf8 line = true) :
    isUtf8 (deliveredLine line) = true := by
  by_cases hlast : line.getLast? = some newline
  · obtain ⟨body, rfl⟩ := List.getLast?_eq_some_iff.mp hlast
    rw [deliveredLine_of_line]
    exact isUtf8_line_iff.mpr
      (isUtf8_lineBody (isUtf8_line_iff.mp htext))
  · rw [deliveredLine, if_neg hlast]
    exact isUtf8_line_iff.mpr htext

/-- Whether the last line has its end. -/
def Ended (bytes : Bytes) : Prop :=
  bytes = [] ∨ bytes.getLast? = some newline

/-- A text whose lines all end with a line break alone. -/
structure Plain (bytes : Bytes) : Prop where
  text : isUtf8 bytes = true
  ends : Ended bytes
  noReturn : ¬ [carriageReturn, newline] <:+: bytes

theorem ended_line_iff (body rest : Bytes) :
    Ended (body ++ newline :: rest) ↔ Ended rest := by
  unfold Ended
  cases rest with
  | nil => simp
  | cons byte rest => simp [List.getLast?_append]

/-- A carriage return before a line break is at the end of the first line or in
the rest. -/
theorem return_infix_line_iff {body : Bytes} (hbody : newline ∉ body)
    (hlast : body.getLast? ≠ some carriageReturn) (rest : Bytes) :
    [carriageReturn, newline] <:+: body ++ newline :: rest ↔
      [carriageReturn, newline] <:+: rest := by
  constructor
  · rintro ⟨front, back, hsame⟩
    have hbreak : (front ++ [carriageReturn]) ++ newline :: back =
        body ++ newline :: rest := by
      simpa using hsame
    have hne : front ++ [carriageReturn] ≠ body := by
      intro heq
      apply hlast
      rw [← heq, List.getLast?_concat]
    rw [List.append_eq_append_iff] at hbreak
    rcases hbreak with ⟨within, hwithin, hback⟩ | ⟨within, hwithin, hrest⟩
    · cases within with
      | nil => exact absurd (by simpa using hwithin.symm) hne
      | cons byte within =>
          rw [List.cons_append, List.cons.injEq] at hback
          apply absurd _ hbody
          rw [hwithin, ← hback.1]
          simp
    · cases within with
      | nil => exact absurd (by simpa using hwithin) hne
      | cons byte within =>
          rw [List.cons_append, List.cons.injEq] at hrest
          rcases List.eq_nil_or_concat within with hnil | ⟨start, last, hstart⟩
          · subst hnil
            have hends := congrArg List.getLast? hwithin
            rw [← hrest.1, List.getLast?_concat, List.getLast?_concat] at hends
            cases hends
          · rw [List.concat_eq_append] at hstart
            subst hstart
            have hends := congrArg List.getLast? hwithin
            rw [← List.cons_append, ← List.append_assoc, List.getLast?_concat,
              List.getLast?_concat] at hends
            rw [hrest.2, ← Option.some.inj hends]
            exact ⟨start, back, by simp⟩
  · rintro ⟨front, back, rfl⟩
    exact ⟨body ++ newline :: front, back, by simp⟩

/-- What is sent of a text. -/
def sentText (bytes : Bytes) : Bytes :=
  ((splitLines newline bytes).map deliveredLine).flatten

theorem sentText_eq_iff (bytes : Bytes) :
    sentText bytes = bytes ↔
      Ended bytes ∧ ¬ [carriageReturn, newline] <:+: bytes := by
  induction bytes using lines_induction newline with
  | nil => simp [sentText, splitLines, Ended]
  | fragment text htext hnewline =>
      rw [sentText, splitLines_fragment htext hnewline, List.map_singleton,
        List.flatten_singleton, deliveredLine_of_fragment hnewline]
      constructor
      · intro hsame
        simp at hsame
      · rintro ⟨hempty | hlast, -⟩
        · exact absurd hempty htext
        · exact absurd (List.mem_of_getLast? hlast) hnewline
  | line body rest hbody ih =>
      have hsent : sentText (body ++ newline :: rest) =
          lineBody body ++ newline :: sentText rest := by
        rw [sentText, splitLines_append_terminator hbody, List.map_cons,
          List.flatten_cons, deliveredLine_of_line, sentText]
        simp
      rw [hsent, ended_line_iff]
      by_cases hlast : body.getLast? = some carriageReturn
      · obtain ⟨front, rfl⟩ := List.getLast?_eq_some_iff.mp hlast
        constructor
        · intro hsame
          simp [lineBody, newline, carriageReturn] at hsame
        · rintro ⟨-, hnone⟩
          exact absurd ⟨front, rest, by simp⟩ hnone
      · rw [lineBody, if_neg hlast, return_infix_line_iff hbody hlast, ← ih]
        simp

end Sandbox
end Acdp
