import Mathlib.Tactic

/-!
# Stores that follow keyed events

An event is about at most one key, and sets, clears or changes what is stored
under it.  A store that follows a history of events holds under each key what
the events about that key have made of it.  Where all the events about a key
come from one source, the other sources can be interleaved with it in any way.
-/

namespace Acdp

inductive KeyedEffect (Value : Type*) where
  | set (value : Value)
  | clear
  | change (update : Value → Value)

namespace KeyedEffect

variable {Value : Type*}

def on : KeyedEffect Value → Option Value → Option Value
  | .set value, _ => some value
  | .clear, _ => none
  | .change update, stored => stored.map update

end KeyedEffect

/-- What each event is about, and what it does there. -/
structure KeyedEvents (Key Value Event : Type*) where
  effect : Event → Option (Key × KeyedEffect Value)

namespace KeyedEvents

variable {Key Value Event Source : Type*} [DecidableEq Key]
  [DecidableEq Source]

def effectAt (events : KeyedEvents Key Value Event) (key : Key)
    (event : Event) : Option (KeyedEffect Value) :=
  (events.effect event).bind fun about =>
    if about.1 = key then some about.2 else none

def valueAfter (events : KeyedEvents Key Value Event) (key : Key)
    (stored : Option Value) (event : Event) : Option Value :=
  match events.effectAt key event with
  | none => stored
  | some effect => effect.on stored

/-- What a history makes of the empty store under a key. -/
def valueAt (events : KeyedEvents Key Value Event) (key : Key)
    (history : List Event) : Option Value :=
  history.foldl (events.valueAfter key) none

/-- One event is taken in. -/
def Follows (events : KeyedEvents Key Value Event) (event : Event)
    (before after : Key → Option Value) : Prop :=
  ∀ key, after key = events.valueAfter key (before key) event

variable {events : KeyedEvents Key Value Event} {key : Key}
  {history : List Event} {event : Event}

theorem follows_of_effect {about : Key} {effect : KeyedEffect Value}
    {before after : Key → Option Value}
    (heffect : events.effect event = some (about, effect))
    (hafter : ∀ key, after key =
      if about = key then effect.on (before key) else before key) :
    events.Follows event before after := by
  intro key
  rw [hafter key]
  simp only [valueAfter, effectAt, heffect, Option.bind_some]
  by_cases hkey : about = key
  · simp only [if_pos hkey]
  · simp only [if_neg hkey]

theorem follows_of_none (hnone : events.effect event = none)
    (stored : Key → Option Value) : events.Follows event stored stored := by
  intro key
  simp only [valueAfter, effectAt, hnone, Option.bind_none]

theorem valueAt_concat (history : List Event) (event : Event) :
    events.valueAt key (history ++ [event]) =
      events.valueAfter key (events.valueAt key history) event := by
  simp [valueAt]

theorem valueAt_concat_of_follows {before after : Key → Option Value}
    (hbefore : ∀ key, before key = events.valueAt key history)
    (hfollows : events.Follows event before after) (key : Key) :
    after key = events.valueAt key (history ++ [event]) := by
  rw [hfollows key, hbefore key, valueAt_concat]

/-- Events that are about no key can be left out. -/
theorem valueAt_filter {keep : Event → Bool}
    (hkeep : ∀ event, keep event = false → events.effect event = none)
    (key : Key) (history : List Event) :
    events.valueAt key (history.filter keep) = events.valueAt key history := by
  unfold valueAt
  generalize (none : Option Value) = stored
  induction history generalizing stored with
  | nil => rfl
  | cons event rest ih =>
      cases hevent : keep event with
      | true =>
          rw [List.filter_cons_of_pos hevent]
          exact ih _
      | false =>
          have hsame : events.valueAfter key stored event = stored :=
            follows_of_none (hkeep event hevent) (fun _ => stored) key |>.symm
          rw [List.filter_cons_of_neg (by simp [hevent]), List.foldl_cons,
            hsame]
          exact ih stored

/-! ## What is stored -/

/-- Events that only change what is there. -/
def OnlyChanges (events : KeyedEvents Key Value Event) (key : Key)
    (history : List Event) : Prop :=
  ∀ event ∈ history, ∀ effect, events.effectAt key event = some effect →
    ∃ update, effect = .change update

/-- One change after another. -/
def changed (events : KeyedEvents Key Value Event) (key : Key)
    (value : Value) (history : List Event) : Value :=
  history.foldl
    (fun value event =>
      match events.effectAt key event with
      | some (.change update) => update value
      | _ => value)
    value

theorem foldl_valueAfter_of_onlyChanges
    (honly : events.OnlyChanges key history) (stored : Option Value) :
    history.foldl (events.valueAfter key) stored =
      stored.map (fun value => events.changed key value history) := by
  induction history generalizing stored with
  | nil => simp [changed]
  | cons event rest ih =>
      have hrest : events.OnlyChanges key rest := fun other hother =>
        honly other (List.mem_cons_of_mem event hother)
      rw [List.foldl_cons, ih hrest]
      cases heffect : events.effectAt key event with
      | none => simp only [valueAfter, changed, List.foldl_cons, heffect]
      | some effect =>
          obtain ⟨update, rfl⟩ := honly event List.mem_cons_self effect heffect
          simp only [valueAfter, changed, List.foldl_cons, heffect,
            KeyedEffect.on, Option.map_map, Function.comp_def]

/-- A value is stored just when some event has set it and no later one has
set or cleared it; the later ones have changed it. -/
theorem valueAt_eq_some_iff {value : Value} :
    events.valueAt key history = some value ↔
      ∃ before event after first, history = before ++ event :: after ∧
        events.effectAt key event = some (.set first) ∧
        events.OnlyChanges key after ∧
        events.changed key first after = value := by
  constructor
  · intro hvalue
    induction history using List.reverseRecOn generalizing value with
    | nil => simp [valueAt] at hvalue
    | append_singleton history event ih =>
        rw [valueAt_concat] at hvalue
        cases heffect : events.effectAt key event with
        | none =>
            simp only [valueAfter, heffect] at hvalue
            obtain ⟨before, setter, after, first, rfl, hset, honly, hchanged⟩ :=
              ih hvalue
            refine ⟨before, setter, after ++ [event], first, by simp, hset,
              ?_, ?_⟩
            · intro other hother effect hother'
              rcases List.mem_append.mp hother with hold | hnew
              · exact honly other hold effect hother'
              · rw [List.mem_singleton.mp hnew, heffect] at hother'
                cases hother'
            · rw [← hchanged]
              simp [changed, heffect]
        | some effect =>
            simp only [valueAfter, heffect] at hvalue
            cases effect with
            | set first =>
                rw [KeyedEffect.on, Option.some.injEq] at hvalue
                exact ⟨history, event, [], first, rfl, heffect,
                  fun _ hmem => absurd hmem List.not_mem_nil, hvalue⟩
            | clear => cases hvalue
            | change update =>
                rw [KeyedEffect.on, Option.map_eq_some_iff] at hvalue
                obtain ⟨earlier, hearlier, rfl⟩ := hvalue
                obtain ⟨before, setter, after, first, rfl, hset, honly,
                  hchanged⟩ := ih hearlier
                refine ⟨before, setter, after ++ [event], first, by simp, hset,
                  ?_, ?_⟩
                · intro other hother effect hother'
                  rcases List.mem_append.mp hother with hold | hnew
                  · exact honly other hold effect hother'
                  · rw [List.mem_singleton.mp hnew, heffect] at hother'
                    cases hother'
                    exact ⟨update, rfl⟩
                · rw [← hchanged]
                  simp [changed, heffect]
  · rintro ⟨before, event, after, first, rfl, hset, honly, rfl⟩
    have hafter := foldl_valueAfter_of_onlyChanges honly (some first)
    simp only [valueAt, List.foldl_append, List.foldl_cons]
    rw [valueAfter, hset]
    exact hafter

/-! ## Several sources -/

/-- What one source has said. -/
def ofSource (source : Source) (history : List (Source × Event)) :
    List Event :=
  (history.filter (fun said => said.1 = source)).map Prod.snd

/-- All the events about the key come from the source. -/
def OwnedBy (events : KeyedEvents Key Value Event) (key : Key)
    (source : Source) (history : List (Source × Event)) : Prop :=
  ∀ said ∈ history, events.effectAt key said.2 ≠ none → said.1 = source

theorem ofSource_append (source : Source)
    (before after : List (Source × Event)) :
    ofSource source (before ++ after) =
      ofSource source before ++ ofSource source after := by
  simp [ofSource]

theorem ofSource_self (source : Source) (said : List Event) :
    ofSource source (said.map (fun event => (source, event))) = said := by
  simp [ofSource, List.filter_map, Function.comp_def]

theorem ofSource_of_ne {source other : Source} (hne : other ≠ source)
    (said : List Event) :
    ofSource source (said.map (fun event => (other, event))) = [] := by
  simp [ofSource, List.filter_map, Function.comp_def, hne]

/-- However the sources are interleaved, the value under a key that one source
owns is what that source has said about it. -/
theorem valueAt_of_ownedBy {source : Source}
    {history : List (Source × Event)}
    (howned : events.OwnedBy key source history) :
    events.valueAt key (history.map Prod.snd) =
      events.valueAt key (ofSource source history) := by
  unfold valueAt
  generalize (none : Option Value) = stored
  induction history generalizing stored with
  | nil => rfl
  | cons said rest ih =>
      obtain ⟨hsaid, hrest⟩ := List.forall_mem_cons.mp howned
      rw [List.map_cons, List.foldl_cons, ih hrest]
      by_cases hsource : said.1 = source
      · simp [ofSource, hsource]
      · have hother : events.effectAt key said.2 = none := by
          by_contra hsome
          exact hsource (hsaid hsome)
        have hsame : events.valueAfter key stored said.2 = stored := by
          simp only [valueAfter, hother]
        simp [ofSource, hsource, hsame]

end KeyedEvents
end Acdp
