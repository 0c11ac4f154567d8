import Mathlib.Tactic

/-!
# Reading lines from a stream in pieces

A reader takes symbols off a stream as they arrive, until it has taken a whole
line or the stream ends.  What it has taken of a line belongs to the call that
reads it: a call that is given up takes those symbols with it.  A reader is
faithful as long as the lines handed out are the first lines of everything
that has arrived; giving up a call keeps it so exactly when the call has taken
nothing.
-/

namespace Acdp

variable {Symbol : Type*} [DecidableEq Symbol]

/-- The lines of a text, each with its terminator; the last one may lack it. -/
def splitLines (terminator : Symbol) : List Symbol → List (List Symbol)
  | [] => []
  | symbol :: rest =>
      if symbol = terminator then [symbol] :: splitLines terminator rest
      else
        match splitLines terminator rest with
        | [] => [[symbol]]
        | line :: lines => (symbol :: line) :: lines

variable {terminator : Symbol}

theorem flatten_splitLines (text : List Symbol) :
    (splitLines terminator text).flatten = text := by
  induction text with
  | nil => rfl
  | cons symbol rest ih =>
      rw [splitLines]
      split_ifs with hterminator
      · simp [ih]
      · cases hlines : splitLines terminator rest with
        | nil =>
            rw [hlines] at ih
            simp [← ih]
        | cons line lines =>
            rw [hlines] at ih
            simpa using ih

theorem splitLines_append_terminator {body : List Symbol}
    (hbody : terminator ∉ body) (rest : List Symbol) :
    splitLines terminator (body ++ terminator :: rest) =
      (body ++ [terminator]) :: splitLines terminator rest := by
  induction body with
  | nil => simp [splitLines]
  | cons symbol body ih =>
      rw [List.mem_cons, not_or] at hbody
      rw [List.cons_append, splitLines, if_neg (Ne.symm hbody.1), ih hbody.2]
      rfl

theorem splitLines_fragment {text : List Symbol} (htext : text ≠ [])
    (hterminator : terminator ∉ text) : splitLines terminator text = [text] := by
  induction text with
  | nil => exact absurd rfl htext
  | cons symbol rest ih =>
      rw [List.mem_cons, not_or] at hterminator
      rw [splitLines, if_neg (Ne.symm hterminator.1)]
      cases rest with
      | nil => rfl
      | cons second rest =>
          rw [ih (List.cons_ne_nil _ _) hterminator.2]

/-- A whole line: it ends with the terminator, and has no other. -/
def IsLine (terminator : Symbol) (line : List Symbol) : Prop :=
  ∃ body, terminator ∉ body ∧ line = body ++ [terminator]

theorem splitLines_flatten_append {lines : List (List Symbol)}
    (hlines : ∀ line ∈ lines, IsLine terminator line) (rest : List Symbol) :
    splitLines terminator (lines.flatten ++ rest) =
      lines ++ splitLines terminator rest := by
  induction lines with
  | nil => rfl
  | cons line lines ih =>
      rw [List.forall_mem_cons] at hlines
      obtain ⟨⟨body, hbody, rfl⟩, hlines⟩ := hlines
      rw [List.flatten_cons, List.append_assoc, List.append_assoc,
        List.singleton_append, splitLines_append_terminator hbody, ih hlines,
        List.cons_append]

/-- `taken` is what the call under way has taken, `unread` what has arrived
and is not taken yet; `arrived` and `lines` list everything that has arrived
and the lines handed out. -/
structure LineReader (Symbol : Type*) where
  taken : List Symbol
  unread : List Symbol
  closed : Bool
  arrived : List Symbol
  lines : List (List Symbol)

namespace LineReader

def new : LineReader Symbol := ⟨[], [], false, [], []⟩

/-- What has arrived and was not handed out. -/
def left (reader : LineReader Symbol) : List Symbol :=
  reader.taken ++ reader.unread

/-- Nothing arrives after the end of the stream. -/
def arrive (reader : LineReader Symbol) (chunk : List Symbol) :
    Option (LineReader Symbol) :=
  if reader.closed then none
  else
    some { reader with
      unread := reader.unread ++ chunk
      arrived := reader.arrived ++ chunk }

def close (reader : LineReader Symbol) : LineReader Symbol :=
  { reader with closed := true }

/-- The call takes what there is and has to wait for more. -/
def poll (terminator : Symbol) (reader : LineReader Symbol) :
    Option (LineReader Symbol) :=
  if terminator ∈ reader.unread ∨ reader.closed = true then none
  else some { reader with taken := reader.left, unread := [] }

/-- The call returns: with a line, with the last symbols of the stream, or
with nothing at its end. -/
def readLine (terminator : Symbol) (reader : LineReader Symbol) :
    Option (List Symbol × LineReader Symbol) :=
  if terminator ∈ reader.unread then
    let body := reader.unread.takeWhile (fun symbol => symbol ≠ terminator)
    let rest := reader.unread.dropWhile (fun symbol => symbol ≠ terminator)
    some (reader.taken ++ body ++ [terminator],
      { reader with taken := [], unread := rest.tail })
  else if reader.closed then
    some (reader.left, { reader with taken := [], unread := [] })
  else none

/-- The call is given up. -/
def drop (reader : LineReader Symbol) : LineReader Symbol :=
  { reader with taken := [] }

def record (reader : LineReader Symbol) (line : List Symbol) :
    LineReader Symbol :=
  { reader with lines := reader.lines ++ [line] }

/-! ## Faithful readers -/

/-- The lines handed out and those that are left make up the lines of all that
has arrived. -/
def Faithful (terminator : Symbol) (reader : LineReader Symbol) : Prop :=
  splitLines terminator reader.arrived =
    reader.lines ++ splitLines terminator reader.left

/-- What keeps a reader faithful: nothing is lost, and a line without its
terminator is only handed out at the end of the stream. -/
structure Sound (terminator : Symbol) (reader : LineReader Symbol) : Prop where
  conserved : reader.arrived = reader.lines.flatten ++ reader.left
  faithful : reader.Faithful terminator
  taken : terminator ∉ reader.taken
  whole : (∀ line ∈ reader.lines, IsLine terminator line) ∨
    (reader.closed = true ∧ reader.left = [])

theorem conserved_of_faithful {reader : LineReader Symbol}
    (hfaithful : reader.Faithful terminator) :
    reader.arrived = reader.lines.flatten ++ reader.left := by
  have hflatten := congrArg List.flatten hfaithful
  rwa [flatten_splitLines, List.flatten_append, flatten_splitLines] at hflatten

theorem new_sound : (new : LineReader Symbol).Sound terminator where
  conserved := rfl
  faithful := rfl
  taken := List.not_mem_nil
  whole := Or.inl (fun _ hline => absurd hline List.not_mem_nil)

theorem Sound.arrive {reader next : LineReader Symbol}
    (hsound : reader.Sound terminator) {chunk : List Symbol}
    (hnext : reader.arrive chunk = some next) : next.Sound terminator := by
  unfold LineReader.arrive at hnext
  split_ifs at hnext with hopen
  rw [Option.some.injEq] at hnext
  rw [← hnext]
  have hlines : ∀ line ∈ reader.lines, IsLine terminator line :=
    hsound.whole.resolve_right (fun hclosed => hopen hclosed.1)
  have hconserved : reader.arrived ++ chunk =
      reader.lines.flatten ++ (reader.taken ++ (reader.unread ++ chunk)) := by
    rw [hsound.conserved, left, List.append_assoc, List.append_assoc]
  refine ⟨hconserved, ?_, hsound.taken, Or.inl hlines⟩
  unfold Faithful
  dsimp only
  rw [hconserved]
  exact splitLines_flatten_append hlines _

theorem Sound.close {reader : LineReader Symbol}
    (hsound : reader.Sound terminator) : reader.close.Sound terminator where
  conserved := hsound.conserved
  faithful := hsound.faithful
  taken := hsound.taken
  whole := by
    rcases hsound.whole with hlines | ⟨_, hleft⟩
    · exact Or.inl hlines
    · exact Or.inr ⟨rfl, hleft⟩

theorem Sound.poll {reader next : LineReader Symbol}
    (hsound : reader.Sound terminator)
    (hnext : reader.poll terminator = some next) : next.Sound terminator := by
  unfold LineReader.poll at hnext
  split_ifs at hnext with hready
  rw [Option.some.injEq] at hnext
  rw [not_or] at hready
  have hleft : next.left = reader.left := by
    rw [← hnext]
    exact List.append_nil _
  have htaken : terminator ∉ reader.left := by
    rw [left, List.mem_append, not_or]
    exact ⟨hsound.taken, hready.1⟩
  subst hnext
  refine ⟨?_, ?_, htaken, ?_⟩
  · rw [hleft]
    exact hsound.conserved
  · unfold Faithful
    rw [hleft]
    exact hsound.faithful
  · rw [hleft]
    exact hsound.whole

theorem exists_split_of_mem {text : List Symbol}
    (hmem : terminator ∈ text) :
    ∃ body rest, terminator ∉ body ∧ text = body ++ terminator :: rest ∧
      text.takeWhile (fun symbol => symbol ≠ terminator) = body ∧
      (text.dropWhile (fun symbol => symbol ≠ terminator)).tail = rest := by
  induction text with
  | nil => exact absurd hmem List.not_mem_nil
  | cons symbol text ih =>
      by_cases hsymbol : symbol = terminator
      · exact ⟨[], text, List.not_mem_nil, by simp [hsymbol],
          by simp [hsymbol], by simp [hsymbol]⟩
      · obtain ⟨body, rest, hbody, htext, htake, hdrop⟩ :=
          ih ((List.mem_cons.mp hmem).resolve_left (Ne.symm hsymbol))
        refine ⟨symbol :: body, rest, ?_, by rw [htext, List.cons_append],
          by simpa [hsymbol] using htake, by simpa [hsymbol] using hdrop⟩
        rw [List.mem_cons, not_or]
        exact ⟨Ne.symm hsymbol, hbody⟩

/-- A call that returns a line hands out the first of the lines left. -/
theorem Sound.readLine {reader next : LineReader Symbol} {line : List Symbol}
    (hsound : reader.Sound terminator)
    (hnext : reader.readLine terminator = some (line, next))
    (hline : line ≠ []) : (next.record line).Sound terminator := by
  unfold LineReader.readLine at hnext
  have hconserved := hsound.conserved
  have hfaithful := hsound.faithful
  unfold Faithful at hfaithful
  unfold left at hconserved hfaithful
  split_ifs at hnext with hready hclosed
  · obtain ⟨body, rest, hbody, htext, htake, hdrop⟩ :=
      exists_split_of_mem hready
    have hlines : ∀ line ∈ reader.lines, IsLine terminator line := by
      refine hsound.whole.resolve_right ?_
      rintro ⟨_, hleft⟩
      rw [(List.append_eq_nil_iff.mp hleft).2] at hready
      exact absurd hready List.not_mem_nil
    simp only [htake, hdrop, Option.some.injEq, Prod.mk.injEq] at hnext
    obtain ⟨rfl, rfl⟩ := hnext
    have hwhole : terminator ∉ reader.taken ++ body := by
      rw [List.mem_append, not_or]
      exact ⟨hsound.taken, hbody⟩
    have hrest : reader.arrived =
        (reader.lines ++ [reader.taken ++ body ++ [terminator]]).flatten ++
          ([] ++ rest) := by
      rw [hconserved, htext]
      simp
    have hall : ∀ line ∈ reader.lines ++ [reader.taken ++ body ++ [terminator]],
        IsLine terminator line := by
      intro line hmem
      rcases List.mem_append.mp hmem with hold | hnew
      · exact hlines line hold
      · rw [List.mem_singleton.mp hnew]
        exact ⟨reader.taken ++ body, hwhole, rfl⟩
    refine ⟨hrest, ?_, List.not_mem_nil, Or.inl hall⟩
    unfold Faithful
    dsimp only [record]
    rw [hrest]
    exact splitLines_flatten_append hall _
  · -- the stream has ended, and the rest of it is a line without its end
    simp only [Option.some.injEq, Prod.mk.injEq] at hnext
    obtain ⟨rfl, rfl⟩ := hnext
    have hfragment : terminator ∉ reader.taken ++ reader.unread := by
      rw [List.mem_append, not_or]
      exact ⟨hsound.taken, hready⟩
    refine ⟨?_, ?_, List.not_mem_nil, Or.inr ⟨hclosed, rfl⟩⟩
    · simpa [record, left] using hconserved
    · have hlast : splitLines terminator (reader.taken ++ reader.unread) =
          [reader.taken ++ reader.unread] :=
        splitLines_fragment hline hfragment
      unfold Faithful
      dsimp only [record, left]
      rw [hfaithful, hlast]
      simp [splitLines]

/-! ## Calls that return -/

section ReadLine

variable {reader next : LineReader Symbol} {line : List Symbol}

theorem readLine_frame (hnext : reader.readLine terminator = some (line, next)) :
    next.arrived = reader.arrived ∧ next.closed = reader.closed ∧
      next.lines = reader.lines := by
  unfold LineReader.readLine at hnext
  split_ifs at hnext
  all_goals
    simp only [Option.some.injEq, Prod.mk.injEq] at hnext
    obtain ⟨_, rfl⟩ := hnext
    exact ⟨rfl, rfl, rfl⟩

/-- A call returns with nothing only at the end, and changes nothing there. -/
theorem eq_of_readLine_nil
    (hnext : reader.readLine terminator = some ([], next)) :
    reader.closed = true ∧ reader.left = [] ∧ next = reader := by
  unfold LineReader.readLine at hnext
  split_ifs at hnext with hready hclosed
  · simp at hnext
  · simp only [Option.some.injEq, Prod.mk.injEq] at hnext
    obtain ⟨hleft, rfl⟩ := hnext
    obtain ⟨htaken, hunread⟩ := List.append_eq_nil_iff.mp hleft
    refine ⟨hclosed, hleft, ?_⟩
    rw [← htaken]
    congr
    exact htaken.trans hunread.symm

theorem readLine_of_left_eq_nil (hclosed : reader.closed = true)
    (hleft : reader.left = [])
    (hnext : reader.readLine terminator = some (line, next)) : line = [] := by
  have hunread := (List.append_eq_nil_iff.mp hleft).2
  unfold LineReader.readLine at hnext
  rw [hunread, if_neg List.not_mem_nil, if_pos hclosed, hleft] at hnext
  exact (Prod.mk.inj (Option.some.inj hnext)).1.symm

theorem readLine_of_isLine (hline : IsLine terminator line)
    (htaken : reader.taken = []) (hunread : reader.unread = line) :
    reader.readLine terminator =
      some (line, { reader with taken := [], unread := [] }) := by
  obtain ⟨body, hbody, rfl⟩ := hline
  have htake : (body ++ [terminator]).takeWhile
      (fun symbol => symbol ≠ terminator) = body := by
    rw [List.takeWhile_append_of_pos]
    · simp
    · intro symbol hsymbol
      simpa using fun hsame : symbol = terminator => hbody (hsame ▸ hsymbol)
  have hdrop : (body ++ [terminator]).dropWhile
      (fun symbol => symbol ≠ terminator) = [terminator] := by
    rw [List.dropWhile_append_of_pos]
    · simp
    · intro symbol hsymbol
      simpa using fun hsame : symbol = terminator => hbody (hsame ▸ hsymbol)
  unfold LineReader.readLine
  rw [hunread, if_pos (by simp), htake, hdrop, htaken]
  rfl

theorem exists_readLine_of_closed (terminator : Symbol)
    (hclosed : reader.closed = true) :
    ∃ line next, reader.readLine terminator = some (line, next) := by
  unfold LineReader.readLine
  rw [if_pos hclosed]
  split_ifs
  · exact ⟨_, _, rfl⟩
  · exact ⟨_, _, rfl⟩

end ReadLine

/-- Giving up a call keeps the reader faithful exactly when it has taken
nothing. -/
theorem Sound.drop_iff {reader : LineReader Symbol}
    (hsound : reader.Sound terminator) :
    reader.drop.Faithful terminator ↔ reader.taken = [] := by
  constructor
  · intro hfaithful
    have hafter := congrArg List.length (conserved_of_faithful hfaithful)
    have hbefore := congrArg List.length hsound.conserved
    simp only [drop, left, List.length_append, List.length_nil] at hafter
    simp only [left, List.length_append] at hbefore
    exact List.length_eq_zero_iff.mp (by omega)
  · intro htaken
    unfold Faithful drop left
    rw [← htaken]
    exact hsound.faithful

theorem Sound.drop {reader : LineReader Symbol}
    (hsound : reader.Sound terminator) (htaken : reader.taken = []) :
    reader.drop.Sound terminator := by
  have hsame : reader.drop = reader := by
    unfold LineReader.drop
    rw [← htaken]
  rw [hsame]
  exact hsound

end LineReader

/-- A text is empty, a line without its terminator, or a line and a text. -/
theorem lines_induction (terminator : Symbol) {motive : List Symbol → Prop}
    (nil : motive [])
    (fragment : ∀ text, text ≠ [] → terminator ∉ text → motive text)
    (line : ∀ body rest, terminator ∉ body → motive rest →
      motive (body ++ terminator :: rest))
    (text : List Symbol) : motive text := by
  induction hlength : text.length using Nat.strong_induction_on
    generalizing text with
  | _ length ih =>
      by_cases hmem : terminator ∈ text
      · obtain ⟨body, rest, hbody, htext, -⟩ :=
          LineReader.exists_split_of_mem hmem
        rw [htext]
        refine line body rest hbody (ih rest.length ?_ rest rfl)
        rw [← hlength, htext, List.length_append, List.length_cons]
        omega
      · by_cases hempty : text = []
        · rw [hempty]
          exact nil
        · exact fragment text hempty hmem

end Acdp
