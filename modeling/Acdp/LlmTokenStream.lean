import Acdp.LlmModelManager
import Acdp.TextWords

/-!
# A response on its way to the reader

A response is cut into words; one task puts them, each but the last with a
space, into a channel, a second one takes them out and passes them on as
events, and the reader of the events puts the text together.  Both channels
are bounded.  Whatever the order in which the three take their turns, every
step brings the end nearer, no order gets stuck before it, and the reader then
has the tokens of the response in their order, and nothing else.
-/

namespace Acdp
namespace Llm

inductive GenerationEvent where
  | token (text : String)
  | completed
deriving DecidableEq

/-- The tokens of the words of a response. -/
def wordTokens : List String → List String
  | [] => []
  | [word] => [word]
  | word :: next :: rest => (word ++ " ") :: wordTokens (next :: rest)

def responseTokens (response : String) : List String :=
  wordTokens (Text.splitWhitespace response)

/-- Where the task that forwards tokens stands. -/
inductive Forwarding where
  | waiting
  | sending (token : String)
  | finishing
  | finished
deriving DecidableEq

def Forwarding.held : Forwarding → List String
  | .sending token => [token]
  | _ => []

/-- The turns that the task still has to take, and what they make for others. -/
def Forwarding.turns : Forwarding → ℕ
  | .waiting => 3
  | .sending _ => 5
  | .finishing => 2
  | .finished => 0

structure Generation where
  unsent : List String
  streamOpen : Bool
  tokens : List String
  forwarding : Forwarding
  combinedText : String
  events : List GenerationEvent
  generated : String
  collected : Bool

namespace Generation

def tokenCapacity : ℕ := 100

def eventCapacity : ℕ := 128

/-- `start_generation` for a response that the engine has given. -/
def start (response : String) : Generation where
  unsent := responseTokens response
  streamOpen := true
  tokens := []
  forwarding := .waiting
  combinedText := ""
  events := []
  generated := ""
  collected := false

inductive Turn where
  | sendToken
  | endStream
  | takeToken
  | forwardToken
  | noticeEnd
  | complete
  | collect

def sendToken (self : Generation) : Option Generation :=
  match self.unsent with
  | token :: rest =>
      if self.tokens.length < tokenCapacity then
        some { self with unsent := rest, tokens := self.tokens ++ [token] }
      else none
  | [] => none

def endStream (self : Generation) : Option Generation :=
  if self.unsent = [] ∧ self.streamOpen then
    some { self with streamOpen := false }
  else none

def takeToken (self : Generation) : Option Generation :=
  match self.forwarding, self.tokens with
  | .waiting, token :: rest =>
      some { self with
        tokens := rest
        forwarding := .sending token
        combinedText := self.combinedText ++ token }
  | _, _ => none

def forwardToken (self : Generation) : Option Generation :=
  match self.forwarding with
  | .sending token =>
      if self.events.length < eventCapacity then
        some { self with
          forwarding := .waiting
          events := self.events ++ [.token token] }
      else none
  | _ => none

def noticeEnd (self : Generation) : Option Generation :=
  if self.forwarding = .waiting ∧ self.tokens = [] ∧ self.streamOpen = false
  then some { self with forwarding := .finishing }
  else none

def complete (self : Generation) : Option Generation :=
  if self.forwarding = .finishing ∧ self.events.length < eventCapacity then
    some { self with
      forwarding := .finished
      events := self.events ++ [.completed] }
  else none

/-- The reader stops at the event that says completed. -/
def collect (self : Generation) : Option Generation :=
  if self.collected then none
  else
    match self.events with
    | .token text :: rest =>
        some { self with generated := self.generated ++ text, events := rest }
    | .completed :: rest =>
        some { self with collected := true, events := rest }
    | [] => none

def step (self : Generation) : Turn → Option Generation
  | .sendToken => self.sendToken
  | .endStream => self.endStream
  | .takeToken => self.takeToken
  | .forwardToken => self.forwardToken
  | .noticeEnd => self.noticeEnd
  | .complete => self.complete
  | .collect => self.collect

def machine : StepMachine Generation Turn where
  step := step

/-! ## What is on the way -/

def joined (texts : List String) : List Char :=
  (texts.map String.toList).flatten

/-- The generation is on the way with the tokens of a text. -/
structure Carries (text : List Char) (generation : Generation)
    (texts : List String) : Prop where
  events : generation.events = texts.map .token ++
    (if generation.forwarding = .finished ∧ generation.collected = false
      then [.completed] else [])
  text : generation.generated.toList ++
    joined (texts ++ generation.forwarding.held ++
      generation.tokens ++ generation.unsent) = text
  ended : generation.streamOpen = false → generation.unsent = []
  drained : generation.forwarding = .finishing ∨
      generation.forwarding = .finished →
    generation.tokens = [] ∧ generation.streamOpen = false
  read : generation.collected = true →
    generation.forwarding = .finished ∧ texts = []

theorem carries_start (response : String) :
    Carries (joined (responseTokens response)) (start response) [] := by
  constructor <;> simp [start, Forwarding.held]

theorem Carries.sendToken {text : List Char} {generation next : Generation}
    {texts : List String} (hcarries : Carries text generation texts)
    (hstep : generation.sendToken = some next) :
    Carries text next texts := by
  unfold Generation.sendToken at hstep
  split at hstep
  · rename_i token rest hunsent
    split_ifs at hstep with hroom
    cases hstep
    have hopen : generation.streamOpen = true := by
      cases hstream : generation.streamOpen with
      | true => rfl
      | false =>
          rw [hcarries.ended hstream] at hunsent
          cases hunsent
    refine ⟨hcarries.events, ?_, ?_, ?_, hcarries.read⟩
    · have htext := hcarries.text
      rw [hunsent] at htext
      simpa using htext
    · intro hclosed
      rw [hopen] at hclosed
      cases hclosed
    · intro hdrained
      have hclosed := (hcarries.drained hdrained).2
      rw [hopen] at hclosed
      cases hclosed
  · cases hstep

theorem Carries.endStream {text : List Char} {generation next : Generation}
    {texts : List String} (hcarries : Carries text generation texts)
    (hstep : generation.endStream = some next) :
    Carries text next texts := by
  unfold Generation.endStream at hstep
  split_ifs at hstep with hdone
  cases hstep
  exact ⟨hcarries.events, hcarries.text, fun _ => hdone.1,
    fun hdrained => ⟨(hcarries.drained hdrained).1, rfl⟩, hcarries.read⟩

theorem Carries.takeToken {text : List Char} {generation next : Generation}
    {texts : List String} (hcarries : Carries text generation texts)
    (hstep : generation.takeToken = some next) :
    Carries text next texts := by
  unfold Generation.takeToken at hstep
  split at hstep
  · rename_i token rest hwaiting htokens
    cases hstep
    have hevents := hcarries.events
    have htext := hcarries.text
    rw [hwaiting] at hevents htext
    rw [htokens] at htext
    refine ⟨by simpa using hevents, by simpa [Forwarding.held] using htext,
      hcarries.ended, ?_, ?_⟩
    · rintro (hfinishing | hfinished)
      · cases hfinishing
      · cases hfinished
    · intro hcollected
      have hfinished := (hcarries.read hcollected).1
      rw [hwaiting] at hfinished
      cases hfinished
  · cases hstep

theorem Carries.forwardToken {text : List Char}
    {generation next : Generation} {texts : List String}
    (hcarries : Carries text generation texts)
    (hstep : generation.forwardToken = some next) :
    ∃ texts, Carries text next texts := by
  unfold Generation.forwardToken at hstep
  split at hstep
  · rename_i token hsending
    split_ifs at hstep with hroom
    cases hstep
    have hevents := hcarries.events
    have htext := hcarries.text
    rw [hsending] at hevents htext
    refine ⟨texts ++ [token], ?_, ?_, hcarries.ended, ?_, ?_⟩
    · simpa using hevents
    · simpa [Forwarding.held] using htext
    · rintro (hfinishing | hfinished)
      · cases hfinishing
      · cases hfinished
    · intro hcollected
      have hfinished := (hcarries.read hcollected).1
      rw [hsending] at hfinished
      cases hfinished
  · cases hstep

theorem Carries.noticeEnd {text : List Char} {generation next : Generation}
    {texts : List String} (hcarries : Carries text generation texts)
    (hstep : generation.noticeEnd = some next) :
    Carries text next texts := by
  unfold Generation.noticeEnd at hstep
  split_ifs at hstep with hend
  cases hstep
  obtain ⟨hwaiting, htokens, hclosed⟩ := hend
  have hevents := hcarries.events
  have htext := hcarries.text
  rw [hwaiting] at hevents htext
  refine ⟨by simpa using hevents, htext, hcarries.ended,
    fun _ => ⟨htokens, hclosed⟩, ?_⟩
  intro hcollected
  have hfinished := (hcarries.read hcollected).1
  rw [hwaiting] at hfinished
  cases hfinished

theorem Carries.complete {text : List Char} {generation next : Generation}
    {texts : List String} (hcarries : Carries text generation texts)
    (hstep : generation.complete = some next) :
    Carries text next texts := by
  unfold Generation.complete at hstep
  split_ifs at hstep with hfinish
  cases hstep
  obtain ⟨hfinishing, _⟩ := hfinish
  have hreading : generation.collected = false := by
    cases hcollected : generation.collected with
    | false => rfl
    | true =>
        have hfinished := (hcarries.read hcollected).1
        rw [hfinishing] at hfinished
        cases hfinished
  have hevents := hcarries.events
  have htext := hcarries.text
  rw [hfinishing] at hevents htext
  refine ⟨?_, htext, hcarries.ended,
    fun _ => hcarries.drained (Or.inl hfinishing), ?_⟩
  · simpa [hreading] using hevents
  · intro hcollected
    rw [hreading] at hcollected
    cases hcollected

theorem Carries.collect {text : List Char} {generation next : Generation}
    {texts : List String} (hcarries : Carries text generation texts)
    (hstep : generation.collect = some next) :
    ∃ texts, Carries text next texts := by
  unfold Generation.collect at hstep
  split_ifs at hstep with hcollected
  have hreading : generation.collected = false := by simpa using hcollected
  have hevents := hcarries.events
  have hdone : generation.events ≠ [] → texts = [] →
      generation.forwarding = .finished := by
    intro hsome hnone
    by_contra hrunning
    rw [hnone, if_neg (fun hboth => hrunning hboth.1)] at hevents
    exact hsome hevents
  split at hstep
  · rename_i token rest hfirst
    cases hstep
    cases texts with
    | nil =>
        have hfinished := hdone (by rw [hfirst]; simp) rfl
        simp [hfirst, hfinished, hreading] at hevents
    | cons first others =>
        rw [hfirst, List.map_cons, List.cons_append, List.cons.injEq,
          GenerationEvent.token.injEq] at hevents
        obtain ⟨rfl, hrest⟩ := hevents
        refine ⟨others, hrest, ?_, hcarries.ended, hcarries.drained, ?_⟩
        · have htext := hcarries.text
          simpa [joined] using htext
        · intro hcollected
          rw [hreading] at hcollected
          cases hcollected
  · rename_i rest hfirst
    cases hstep
    cases texts with
    | nil =>
        have hfinished := hdone (by rw [hfirst]; simp) rfl
        simp only [hfirst, hfinished, hreading, List.map_nil, and_self,
          if_true, List.nil_append, List.cons.injEq, true_and] at hevents
        refine ⟨[], ?_, hcarries.text, hcarries.ended, hcarries.drained, ?_⟩
        · simpa using hevents
        · intro _
          exact ⟨hfinished, rfl⟩
    | cons first others => simp [hfirst] at hevents
  · cases hstep

/-- Every turn keeps the tokens on their way, in their order. -/
theorem Carries.step {text : List Char} {generation next : Generation}
    (hcarries : ∃ texts, Carries text generation texts) {turn : Turn}
    (hstep : generation.step turn = some next) :
    ∃ texts, Carries text next texts := by
  obtain ⟨texts, hcarries⟩ := hcarries
  cases turn with
  | sendToken => exact ⟨texts, hcarries.sendToken hstep⟩
  | endStream => exact ⟨texts, hcarries.endStream hstep⟩
  | takeToken => exact ⟨texts, hcarries.takeToken hstep⟩
  | forwardToken => exact hcarries.forwardToken hstep
  | noticeEnd => exact ⟨texts, hcarries.noticeEnd hstep⟩
  | complete => exact ⟨texts, hcarries.complete hstep⟩
  | collect => exact hcarries.collect hstep

/-! ## What the reader has at the end -/

theorem Carries.generated {text : List Char} {generation : Generation}
    {texts : List String} (hcarries : Carries text generation texts)
    (hcollected : generation.collected = true) :
    generation.generated.toList = text := by
  obtain ⟨hfinished, hnone⟩ := hcarries.read hcollected
  obtain ⟨htokens, hclosed⟩ := hcarries.drained (Or.inr hfinished)
  have htext := hcarries.text
  rw [hnone, hfinished, htokens, hcarries.ended hclosed] at htext
  simpa [joined, Forwarding.held] using htext

theorem generated_of_run {response : String} {trace : List Turn}
    {final : Generation} (hrun : machine.run (start response) trace = some final)
    (hcollected : final.collected = true) :
    final.generated.toList = joined (responseTokens response) := by
  let invariant : Generation → Prop := fun generation =>
    ∃ texts, Carries (joined (responseTokens response)) generation texts
  have hcarries : invariant final := by
    refine StepMachine.run_invariant ?_ ⟨[], carries_start response⟩ hrun
    intro generation turn next hcarries hstep
    exact Carries.step hcarries hstep
  obtain ⟨texts, hcarries⟩ := hcarries
  exact hcarries.generated hcollected

/-- The turns that are left for everyone. -/
def turnsLeft (self : Generation) : ℕ :=
  4 * self.unsent.length + (if self.streamOpen then 1 else 0) +
    3 * self.tokens.length + self.forwarding.turns + self.events.length

theorem turnsLeft_step {generation next : Generation} {turn : Turn}
    (hstep : generation.step turn = some next) :
    turnsLeft next + 1 = turnsLeft generation := by
  cases turn with
  | sendToken =>
      change generation.sendToken = some next at hstep
      unfold Generation.sendToken at hstep
      split at hstep
      · rename_i token rest hunsent
        split_ifs at hstep
        cases hstep
        simp only [turnsLeft, hunsent, List.length_cons, List.length_append,
          List.length_nil]
        omega
      · cases hstep
  | endStream =>
      change generation.endStream = some next at hstep
      unfold Generation.endStream at hstep
      split_ifs at hstep with hdone
      cases hstep
      simp only [turnsLeft, hdone.2, Bool.false_eq_true, if_false, if_true]
      omega
  | takeToken =>
      change generation.takeToken = some next at hstep
      unfold Generation.takeToken at hstep
      split at hstep
      · rename_i token rest hwaiting htokens
        cases hstep
        simp only [turnsLeft, hwaiting, htokens, Forwarding.turns,
          List.length_cons]
        omega
      · cases hstep
  | forwardToken =>
      change generation.forwardToken = some next at hstep
      unfold Generation.forwardToken at hstep
      split at hstep
      · rename_i token hsending
        split_ifs at hstep
        cases hstep
        simp only [turnsLeft, hsending, Forwarding.turns, List.length_append,
          List.length_cons, List.length_nil]
        omega
      · cases hstep
  | noticeEnd =>
      change generation.noticeEnd = some next at hstep
      unfold Generation.noticeEnd at hstep
      split_ifs at hstep with hend
      cases hstep
      simp only [turnsLeft, hend.1, Forwarding.turns]
      omega
  | complete =>
      change generation.complete = some next at hstep
      unfold Generation.complete at hstep
      split_ifs at hstep with hfinish
      cases hstep
      simp only [turnsLeft, hfinish.1, Forwarding.turns, List.length_append,
        List.length_cons, List.length_nil]
      omega
  | collect =>
      change generation.collect = some next at hstep
      unfold Generation.collect at hstep
      split_ifs at hstep
      split at hstep
      · rename_i token rest hfirst
        cases hstep
        simp only [turnsLeft, hfirst, List.length_cons]
        omega
      · rename_i rest hfirst
        cases hstep
        simp only [turnsLeft, hfirst, List.length_cons]
        omega
      · cases hstep

/-- Until the reader has everything, someone can take a turn. -/
theorem exists_step {text : List Char} {generation : Generation}
    {texts : List String} (hcarries : Carries text generation texts)
    (hreading : generation.collected = false) :
    ∃ turn next, generation.step turn = some next := by
  cases hevents : generation.events with
  | cons event rest =>
      refine ⟨.collect, ?_⟩
      cases event <;> simp [step, collect, hreading, hevents]
  | nil =>
      cases hforwarding : generation.forwarding with
      | sending token =>
          refine ⟨.forwardToken, ?_⟩
          simp [step, forwardToken, hforwarding, hevents, eventCapacity]
      | finishing =>
          refine ⟨.complete, ?_⟩
          simp [step, complete, hforwarding, hevents, eventCapacity]
      | finished =>
          have hlast := hcarries.events
          simp [hevents, hforwarding, hreading] at hlast
      | waiting =>
          cases htokens : generation.tokens with
          | cons token rest =>
              refine ⟨.takeToken, ?_⟩
              simp [step, takeToken, hforwarding, htokens]
          | nil =>
              cases hstream : generation.streamOpen with
              | false =>
                  refine ⟨.noticeEnd, ?_⟩
                  simp [step, noticeEnd, hforwarding, htokens, hstream]
              | true =>
                  cases hunsent : generation.unsent with
                  | nil =>
                      refine ⟨.endStream, ?_⟩
                      simp [step, endStream, hunsent, hstream]
                  | cons token rest =>
                      refine ⟨.sendToken, ?_⟩
                      simp [step, sendToken, hunsent, htokens, tokenCapacity]

theorem exists_run_collected {text : List Char} {generation : Generation}
    (hcarries : ∃ texts, Carries text generation texts) :
    ∃ trace final, machine.run generation trace = some final ∧
      final.collected = true := by
  induction hleft : turnsLeft generation using Nat.strong_induction_on
    generalizing generation with
  | _ left ih =>
      cases hreading : generation.collected with
      | true => exact ⟨[], generation, rfl, hreading⟩
      | false =>
          obtain ⟨texts, hfound⟩ := hcarries
          obtain ⟨turn, next, hstep⟩ := exists_step hfound hreading
          have hless := turnsLeft_step hstep
          obtain ⟨trace, final, hrun, hcollected⟩ :=
            ih (turnsLeft next) (by omega) (Carries.step ⟨texts, hfound⟩ hstep)
              rfl
          refine ⟨turn :: trace, final, ?_, hcollected⟩
          rw [StepMachine.run_cons]
          change (generation.step turn).bind _ = _
          rw [hstep]
          exact hrun

/-- Every response is read to its end. -/
theorem start_reads (response : String) :
    ∃ trace final, machine.run (start response) trace = some final ∧
      final.collected = true :=
  exists_run_collected ⟨[], carries_start response⟩

/-! ## What the tokens say -/

theorem joined_wordTokens (parts : List String) :
    joined (wordTokens parts) = Text.joinWords (parts.map String.toList) := by
  induction parts with
  | nil => rfl
  | cons word rest ih =>
      cases rest with
      | nil => simp [wordTokens, joined, Text.joinWords]
      | cons next rest =>
          rw [wordTokens, List.map_cons, List.map_cons, Text.joinWords,
            ← List.map_cons, ← ih]
          simp [joined]

theorem joined_responseTokens (response : String) :
    joined (responseTokens response) =
      Text.joinWords (Text.words response.toList) := by
  rw [responseTokens, joined_wordTokens, Text.splitWhitespace, List.map_map]
  congr 1
  simp

/-- The tokens of a response, put together, are the response exactly when its
white space is single spaces between words. -/
theorem joined_responseTokens_eq_iff (response : String) :
    joined (responseTokens response) = response.toList ↔
      Text.SingleSpaced response.toList := by
  rw [joined_responseTokens]
  exact Text.joinWords_words_eq_iff _

theorem words_responseTokens (response : String) :
    Text.words (joined (responseTokens response)) =
      Text.words response.toList := by
  rw [joined_responseTokens]
  exact Text.words_joinWords (fun _ hword => Text.isWord_of_mem_words hword)

end Generation

end Llm
end Acdp
