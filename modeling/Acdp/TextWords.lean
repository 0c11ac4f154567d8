import Acdp.TextOperations
import Mathlib.Data.List.TakeWhile

/-!
# Words of a text

The words of a text are what stands between its white space; joined again,
each two of them with one space between, they are the text exactly when its
white space is single spaces between words.  White space at the ends of a
text does not change its words.
-/

namespace Acdp
namespace Text

/-- The words of characters of which `current` has been read backwards, as the
beginning of a word. -/
def wordsFrom (current : List Char) : List Char → List (List Char)
  | [] => if current = [] then [] else [current.reverse]
  | char :: rest =>
      if isWhiteSpace char then
        (if current = [] then [] else [current.reverse]) ++ wordsFrom [] rest
      else wordsFrom (char :: current) rest

def words (chars : List Char) : List (List Char) := wordsFrom [] chars

/-- `str::split_whitespace`. -/
def splitWhitespace (text : String) : List String :=
  (words text.toList).map String.ofList

def joinWords : List (List Char) → List Char
  | [] => []
  | [word] => word
  | word :: next :: rest => word ++ ' ' :: joinWords (next :: rest)

structure SingleSpaced (chars : List Char) : Prop where
  spaces : ∀ char ∈ chars, isWhiteSpace char = true → char = ' '
  apart : chars.IsChain
    (fun left right => isWhiteSpace left = false ∨ isWhiteSpace right = false)
  begins : ∀ char ∈ chars.head?, isWhiteSpace char = false
  ends : ∀ char ∈ chars.getLast?, isWhiteSpace char = false

/-! ## Words and where they are cut -/

theorem wordsFrom_cons_white {char : Char} (hchar : isWhiteSpace char = true)
    (current rest : List Char) :
    wordsFrom current (char :: rest) =
      wordsFrom current [] ++ wordsFrom [] rest := by
  conv_lhs => rw [wordsFrom, if_pos hchar]
  rfl

theorem wordsFrom_cons_black {char : Char} (hchar : isWhiteSpace char = false)
    (current rest : List Char) :
    wordsFrom current (char :: rest) = wordsFrom (char :: current) rest := by
  conv_lhs => rw [wordsFrom, if_neg (by simp [hchar])]

theorem wordsFrom_append_white (front rest : List Char) {char : Char}
    (hchar : isWhiteSpace char = true) (current : List Char) :
    wordsFrom current (front ++ char :: rest) =
      wordsFrom current front ++ words rest := by
  induction front generalizing current with
  | nil => exact wordsFrom_cons_white hchar current rest
  | cons first front ih =>
      rw [List.cons_append]
      cases hfirst : isWhiteSpace first with
      | true =>
          rw [wordsFrom_cons_white hfirst, wordsFrom_cons_white hfirst, ih,
            List.append_assoc]
      | false =>
          rw [wordsFrom_cons_black hfirst, wordsFrom_cons_black hfirst, ih]

theorem words_append_white (front rest : List Char) {char : Char}
    (hchar : isWhiteSpace char = true) :
    words (front ++ char :: rest) = words front ++ words rest :=
  wordsFrom_append_white front rest hchar []

theorem words_cons_white {char : Char} (hchar : isWhiteSpace char = true)
    (rest : List Char) : words (char :: rest) = words rest :=
  words_append_white [] rest hchar

theorem words_append_of_white (front : List Char) {gap : List Char}
    (hgap : ∀ char ∈ gap, isWhiteSpace char = true) :
    words (front ++ gap) = words front := by
  induction gap generalizing front with
  | nil => rw [List.append_nil]
  | cons char gap ih =>
      obtain ⟨hchar, hgap⟩ := List.forall_mem_cons.mp hgap
      have hrest := ih [] hgap
      rw [List.nil_append] at hrest
      rw [words_append_white front gap hchar, hrest]
      exact List.append_nil _

theorem words_dropWhile (chars : List Char) :
    words (chars.dropWhile isWhiteSpace) = words chars := by
  induction chars with
  | nil => rfl
  | cons char rest ih =>
      cases hchar : isWhiteSpace char with
      | true =>
          rw [List.dropWhile_cons_of_pos hchar, ih, words_cons_white hchar]
      | false => rw [List.dropWhile_cons_of_neg (by simp [hchar])]

theorem words_trimEnd (chars : List Char) :
    words (chars.reverse.dropWhile isWhiteSpace).reverse = words chars := by
  have hparts : chars =
      (chars.reverse.dropWhile isWhiteSpace).reverse ++
        (chars.reverse.takeWhile isWhiteSpace).reverse := by
    rw [← List.reverse_append, List.takeWhile_append_dropWhile,
      List.reverse_reverse]
  have hgap : ∀ char ∈ (chars.reverse.takeWhile isWhiteSpace).reverse,
      isWhiteSpace char = true := by
    intro char hchar
    exact List.mem_takeWhile_imp (List.mem_reverse.mp hchar)
  conv_rhs => rw [hparts]
  exact (words_append_of_white _ hgap).symm

theorem words_trim (text : String) :
    words (trim text).toList = words text.toList := by
  rw [trim, String.toList_ofList, words_trimEnd, words_dropWhile]

theorem wordsFrom_ne_nil_of_current {current : List Char}
    (hcurrent : current ≠ []) (chars : List Char) :
    wordsFrom current chars ≠ [] := by
  induction chars generalizing current with
  | nil => simp [wordsFrom, hcurrent]
  | cons char rest ih =>
      cases hchar : isWhiteSpace char with
      | true =>
          rw [wordsFrom_cons_white hchar]
          simp [wordsFrom, hcurrent]
      | false =>
          rw [wordsFrom_cons_black hchar]
          exact ih (List.cons_ne_nil _ _)

theorem words_ne_nil_of_mem {chars : List Char} {char : Char}
    (hmem : char ∈ chars) (hchar : isWhiteSpace char = false) :
    words chars ≠ [] := by
  induction chars with
  | nil => cases hmem
  | cons first rest ih =>
      cases hfirst : isWhiteSpace first with
      | true =>
          rw [words_cons_white hfirst]
          refine ih ?_
          rcases List.mem_cons.mp hmem with rfl | hrest
          · rw [hchar] at hfirst
            cases hfirst
          · exact hrest
      | false =>
          rw [words, wordsFrom_cons_black hfirst]
          exact wordsFrom_ne_nil_of_current (List.cons_ne_nil _ _) rest

/-! ## Words joined again -/

theorem joinWords_cons {word : List Char} {rest : List (List Char)}
    (hrest : rest ≠ []) :
    joinWords (word :: rest) = word ++ ' ' :: joinWords rest := by
  cases rest with
  | nil => exact absurd rfl hrest
  | cons next rest => rfl

/-- What the words of a text are like. -/
def IsWord (word : List Char) : Prop :=
  word ≠ [] ∧ ∀ char ∈ word, isWhiteSpace char = false

theorem isWord_of_mem_wordsFrom {current : List Char}
    (hcurrent : ∀ char ∈ current, isWhiteSpace char = false)
    {chars word : List Char} (hword : word ∈ wordsFrom current chars) :
    IsWord word := by
  have hopen : ∀ {current : List Char},
      (∀ char ∈ current, isWhiteSpace char = false) →
      word ∈ wordsFrom current [] → IsWord word := by
    intro current hcurrent hword
    by_cases hempty : current = []
    · rw [wordsFrom, if_pos hempty] at hword
      cases hword
    · rw [wordsFrom, if_neg hempty, List.mem_singleton] at hword
      rw [hword]
      exact ⟨by simpa using hempty, by simpa using hcurrent⟩
  induction chars generalizing current with
  | nil => exact hopen hcurrent hword
  | cons char rest ih =>
      cases hchar : isWhiteSpace char with
      | true =>
          rw [wordsFrom_cons_white hchar, List.mem_append] at hword
          rcases hword with hfirst | hrest
          · exact hopen hcurrent hfirst
          · exact ih (by simp) hrest
      | false =>
          rw [wordsFrom_cons_black hchar] at hword
          exact ih (List.forall_mem_cons.mpr ⟨hchar, hcurrent⟩) hword

theorem isWord_of_mem_words {chars word : List Char}
    (hword : word ∈ words chars) : IsWord word :=
  isWord_of_mem_wordsFrom (by simp) hword

theorem SingleSpaced.of_word {word : List Char} (hword : IsWord word) :
    SingleSpaced word where
  spaces char hchar hwhite := by
    rw [hword.2 char hchar] at hwhite
    cases hwhite
  apart := by
    rw [List.isChain_iff_forall_rel_of_append_cons_cons]
    intro left right front rest hparts
    left
    apply hword.2
    simp [hparts]
  begins char hchar := hword.2 char (List.mem_of_mem_head? hchar)
  ends char hchar := hword.2 char (List.mem_of_mem_getLast? hchar)

theorem isWhiteSpace_space : isWhiteSpace ' ' = true := by decide

theorem joinWords_ne_nil {parts : List (List Char)}
    (hparts : ∀ part ∈ parts, IsWord part) (hsome : parts ≠ []) :
    joinWords parts ≠ [] := by
  cases parts with
  | nil => exact absurd rfl hsome
  | cons word rest =>
      have hword := (hparts word List.mem_cons_self).1
      cases rest with
      | nil => exact hword
      | cons next rest => simp [joinWords]

theorem singleSpaced_joinWords {parts : List (List Char)}
    (hparts : ∀ part ∈ parts, IsWord part) :
    SingleSpaced (joinWords parts) := by
  induction parts with
  | nil => constructor <;> simp [joinWords]
  | cons word rest ih =>
      obtain ⟨hword, hrest⟩ := List.forall_mem_cons.mp hparts
      by_cases hempty : rest = []
      · rw [hempty]
        exact SingleSpaced.of_word hword
      · have hjoined := ih hrest
        have hfirst := SingleSpaced.of_word hword
        rw [joinWords_cons hempty]
        constructor
        · intro char hchar hwhite
          rw [List.mem_append, List.mem_cons] at hchar
          rcases hchar with hchar | rfl | hchar
          · exact hfirst.spaces char hchar hwhite
          · rfl
          · exact hjoined.spaces char hchar hwhite
        · refine List.isChain_append.mpr ⟨hfirst.apart, ?_, ?_⟩
          · rw [List.isChain_cons]
            exact ⟨fun char hchar => Or.inr (hjoined.begins char hchar),
              hjoined.apart⟩
          · intro left hleft right _
            exact Or.inl (hfirst.ends left hleft)
        · intro char hchar
          rw [List.head?_append_of_ne_nil _ hword.1] at hchar
          exact hfirst.begins char hchar
        · intro char hchar
          have hlast : (word ++ ' ' :: joinWords rest).getLast? =
              (joinWords rest).getLast? := by
            rw [List.getLast?_append_cons, List.getLast?_cons_of_ne_nil]
            exact joinWords_ne_nil hrest hempty
          rw [hlast] at hchar
          exact hjoined.ends char hchar

/-- What follows a space in a text with single spaces. -/
theorem SingleSpaced.after {front rest : List Char} {char : Char}
    (hspaced : SingleSpaced (front ++ char :: rest))
    (hchar : isWhiteSpace char = true) :
    front ≠ [] ∧ rest ≠ [] ∧ SingleSpaced rest := by
  have hrest : rest ≠ [] := by
    rintro rfl
    have hend := hspaced.ends char (by simp)
    rw [hchar] at hend
    cases hend
  refine ⟨?_, hrest, ?_, ?_, ?_, ?_⟩
  · rintro rfl
    have hbegin := hspaced.begins char rfl
    rw [hchar] at hbegin
    cases hbegin
  · intro other hother
    apply hspaced.spaces
    simp [hother]
  · exact (List.isChain_cons.mp (List.isChain_append.mp hspaced.apart).2.1).2
  · intro other hother
    have happart := (List.isChain_cons.mp
      (List.isChain_append.mp hspaced.apart).2.1).1 other hother
    rcases happart with hblack | hblack
    · rw [hchar] at hblack
      cases hblack
    · exact hblack
  · intro other hother
    apply hspaced.ends
    rw [List.getLast?_append_cons, List.getLast?_cons_of_ne_nil hrest]
    exact hother

theorem joinWords_wordsFrom (current chars : List Char)
    (hspaced : SingleSpaced (current.reverse ++ chars)) :
    joinWords (wordsFrom current chars) = current.reverse ++ chars := by
  induction chars generalizing current with
  | nil =>
      by_cases hempty : current = []
      · rw [hempty]
        rfl
      · rw [wordsFrom, if_neg hempty, List.append_nil]
        rfl
  | cons char rest ih =>
      cases hchar : isWhiteSpace char with
      | true =>
          obtain ⟨hfront, hrest, hafter⟩ := hspaced.after hchar
          have hspace : char = ' ' := hspaced.spaces char (by simp) hchar
          have hempty : current ≠ [] := by simpa using hfront
          obtain ⟨first, tail, hparts⟩ := List.exists_cons_of_ne_nil hrest
          have hfirst : isWhiteSpace first = false :=
            hafter.begins first (by rw [hparts]; rfl)
          have hwords : wordsFrom [] rest ≠ [] :=
            words_ne_nil_of_mem (by rw [hparts]; exact List.mem_cons_self)
              hfirst
          have hjoined := ih [] hafter
          rw [wordsFrom_cons_white hchar, wordsFrom, if_neg hempty,
            List.singleton_append, joinWords_cons hwords, hjoined, hspace]
          rfl
      | false =>
          have hmoved : (char :: current).reverse ++ rest =
              current.reverse ++ char :: rest := by simp
          rw [wordsFrom_cons_black hchar, ih (char :: current), hmoved]
          rw [hmoved]
          exact hspaced

/-- The words of a text, joined again, are the text exactly when it has
single spaces and no others. -/
theorem joinWords_words_eq_iff (chars : List Char) :
    joinWords (words chars) = chars ↔ SingleSpaced chars := by
  constructor
  · intro hjoined
    rw [← hjoined]
    exact singleSpaced_joinWords (fun _ hword => isWord_of_mem_words hword)
  · exact joinWords_wordsFrom [] chars

theorem wordsFrom_of_black (current : List Char) {rest : List Char}
    (hrest : ∀ char ∈ rest, isWhiteSpace char = false) :
    wordsFrom current rest = wordsFrom (rest.reverse ++ current) [] := by
  induction rest generalizing current with
  | nil => rfl
  | cons char rest ih =>
      obtain ⟨hchar, hrest⟩ := List.forall_mem_cons.mp hrest
      rw [wordsFrom_cons_black hchar, ih _ hrest]
      simp

theorem words_of_isWord {word : List Char} (hword : IsWord word) :
    words word = [word] := by
  rw [words, wordsFrom_of_black [] hword.2, wordsFrom,
    if_neg (by simp [hword.1])]
  simp

theorem words_joinWords {parts : List (List Char)}
    (hparts : ∀ part ∈ parts, IsWord part) :
    words (joinWords parts) = parts := by
  induction parts with
  | nil => rfl
  | cons first rest ih =>
      obtain ⟨hfirst, hrest⟩ := List.forall_mem_cons.mp hparts
      by_cases hempty : rest = []
      · rw [hempty]
        exact words_of_isWord hfirst
      · rw [joinWords_cons hempty, words_append_white _ _ isWhiteSpace_space,
          ih hrest, words_of_isWord hfirst]
        rfl

end Text
end Acdp
