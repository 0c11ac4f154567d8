import Mathlib.Tactic

/-!
# Computations that act and may stop

A computation lists what it did and either returns a value or stops.  What was
done before it stopped stays in the list.  A loop runs a body on the items of
a list in turn and hands each turn the state that the turn before returned;
its effects carry the position of their item.  `exists_of_mem_loop` says what
an effect of the loop tells about the run: the turn that had it began in a
state that the invariant describes, and all turns before it returned.
`LatestBefore` is the last of the values that turns gave before a position.
-/

namespace Acdp

structure Acting (Effect Stop Value : Type) where
  effects : List Effect
  ending : Except Stop Value

namespace Acting

variable {Effect Stop State Value Result Item : Type}

instance : Monad (Acting Effect Stop) where
  pure value := ⟨[], .ok value⟩
  bind run next :=
    match run.ending with
    | .ok value =>
        ⟨run.effects ++ (next value).effects, (next value).ending⟩
    | .error reason => ⟨run.effects, .error reason⟩

def perform (effect : Effect) : Acting Effect Stop Unit := ⟨[effect], .ok ()⟩

def attempt (answer : Except Stop Value) : Acting Effect Stop Value :=
  ⟨[], answer⟩

def stop (reason : Stop) : Acting Effect Stop Value := attempt (.error reason)

@[simp] theorem pure_bind_eq (value : Value)
    (next : Value → Acting Effect Stop Result) :
    (pure value >>= next) = next value := rfl

@[simp] theorem perform_bind (effect : Effect)
    (next : Unit → Acting Effect Stop Result) :
    (perform effect >>= next) =
      ⟨effect :: (next ()).effects, (next ()).ending⟩ := rfl

@[simp] theorem attempt_ok_bind (value : Value)
    (next : Value → Acting Effect Stop Result) :
    (attempt (.ok value) >>= next) = next value := rfl

@[simp] theorem attempt_error_bind (reason : Stop)
    (next : Value → Acting Effect Stop Result) :
    (attempt (.error reason) >>= next) = ⟨[], .error reason⟩ := rfl

@[simp] theorem stop_bind (reason : Stop)
    (next : Value → Acting Effect Stop Result) :
    (stop reason >>= next) = ⟨[], .error reason⟩ := rfl

@[simp] theorem pure_effects (value : Value) :
    (pure value : Acting Effect Stop Value).effects = [] := rfl

@[simp] theorem pure_ending (value : Value) :
    (pure value : Acting Effect Stop Value).ending = .ok value := rfl

@[simp] theorem stop_effects (reason : Stop) :
    (stop reason : Acting Effect Stop Value).effects = [] := rfl

@[simp] theorem stop_ending (reason : Stop) :
    (stop reason : Acting Effect Stop Value).ending = .error reason := rfl

theorem bind_of_ok {run : Acting Effect Stop Value} {value : Value}
    (hending : run.ending = .ok value)
    (next : Value → Acting Effect Stop Result) :
    (run >>= next) =
      ⟨run.effects ++ (next value).effects, (next value).ending⟩ := by
  change (match run.ending with
    | .ok value =>
        (⟨run.effects ++ (next value).effects, (next value).ending⟩ :
          Acting Effect Stop Result)
    | .error reason => ⟨run.effects, .error reason⟩) = _
  rw [hending]

theorem bind_of_error {run : Acting Effect Stop Value} {reason : Stop}
    (hending : run.ending = .error reason)
    (next : Value → Acting Effect Stop Result) :
    (run >>= next) = ⟨run.effects, .error reason⟩ := by
  change (match run.ending with
    | .ok value =>
        (⟨run.effects ++ (next value).effects, (next value).ending⟩ :
          Acting Effect Stop Result)
    | .error reason => ⟨run.effects, .error reason⟩) = _
  rw [hending]

/-! ## Loops -/

def tag (position : ℕ) (run : Acting Effect Stop Value) :
    Acting (ℕ × Effect) Stop Value :=
  ⟨run.effects.map (Prod.mk position), run.ending⟩

def loop (body : ℕ → Item → State → Acting Effect Stop State) :
    ℕ → List Item → State → Acting (ℕ × Effect) Stop State
  | _, [], state => pure state
  | position, item :: rest, state => do
      let next ← (body position item state).tag position
      loop body (position + 1) rest next

variable {body : ℕ → Item → State → Acting Effect Stop State}

theorem loop_of_error {position : ℕ} {item : Item} {state : State}
    {reason : Stop} (hending : (body position item state).ending = .error reason)
    (rest : List Item) :
    loop body position (item :: rest) state =
      ⟨((body position item state).tag position).effects, .error reason⟩ := by
  have hturn : ((body position item state).tag position).ending =
    .error reason := hending
  exact bind_of_error hturn _

theorem loop_of_ok {position : ℕ} {item : Item} {state next : State}
    (hending : (body position item state).ending = .ok next)
    (rest : List Item) :
    loop body position (item :: rest) state =
      ⟨((body position item state).tag position).effects ++
          (loop body (position + 1) rest next).effects,
        (loop body (position + 1) rest next).ending⟩ := by
  have hturn : ((body position item state).tag position).ending = .ok next :=
    hending
  exact bind_of_ok hturn _

theorem mem_loop_cons {position : ℕ} {item : Item} {rest : List Item}
    {state : State} {found : ℕ × Effect}
    (hmem : found ∈ (loop body position (item :: rest) state).effects) :
    (found.1 = position ∧ found.2 ∈ (body position item state).effects) ∨
      ∃ next, (body position item state).ending = .ok next ∧
        found ∈ (loop body (position + 1) rest next).effects := by
  have hturn : found ∈ ((body position item state).tag position).effects →
      found.1 = position ∧ found.2 ∈ (body position item state).effects := by
    intro hfound
    obtain ⟨effect, heffect, hsame⟩ := List.mem_map.mp hfound
    rw [← hsame]
    exact ⟨rfl, heffect⟩
  cases hending : (body position item state).ending with
  | error reason =>
      rw [loop_of_error hending] at hmem
      exact Or.inl (hturn hmem)
  | ok next =>
      rw [loop_of_ok hending] at hmem
      rcases List.mem_append.mp hmem with hfirst | hlater
      · exact Or.inl (hturn hfirst)
      · exact Or.inr ⟨next, rfl, hlater⟩

theorem le_of_mem_loop {items : List Item} {start : ℕ} {state : State}
    {found : ℕ × Effect}
    (hmem : found ∈ (loop body start items state).effects) :
    start ≤ found.1 := by
  induction items generalizing start state with
  | nil => cases hmem
  | cons item rest ih =>
      rcases mem_loop_cons hmem with ⟨hposition, _⟩ | ⟨next, _, hlater⟩
      · exact hposition.ge
      · have hafter := ih hlater
        omega

theorem loop_inOrder (items : List Item) (start : ℕ) (state : State) :
    (loop body start items state).effects.Pairwise
      (fun earlier later => earlier.1 ≤ later.1) := by
  induction items generalizing start state with
  | nil => exact List.Pairwise.nil
  | cons item rest ih =>
      have hturn : ((body start item state).tag start).effects.Pairwise
          (fun earlier later => earlier.1 ≤ later.1) := by
        unfold tag
        rw [List.pairwise_map]
        exact List.pairwise_of_forall (fun _ _ => le_refl start)
      cases hending : (body start item state).ending with
      | error reason =>
          rw [loop_of_error hending]
          exact hturn
      | ok next =>
          rw [loop_of_ok hending]
          refine List.pairwise_append.mpr ⟨hturn, ih (start + 1) next, ?_⟩
          intro earlier hearlier later hlater
          obtain ⟨effect, _, hsame⟩ := List.mem_map.mp hearlier
          have hafter := le_of_mem_loop hlater
          rw [← hsame]
          exact (Nat.le_succ start).trans hafter

/-- A turn of the loop: the item at a position and a state that the invariant
describes there. -/
structure Turn (Invariant : ℕ → State → Prop) (items : List Item)
    (position : ℕ) (item : Item) (state : State) : Prop where
  item_eq : items[position]? = some item
  invariant : Invariant position state

theorem exists_of_mem_loop_from {Invariant : ℕ → State → Prop}
    {items : List Item}
    (hkeep : ∀ position item state next,
      Turn Invariant items position item state →
      (body position item state).ending = .ok next →
      Invariant (position + 1) next)
    {start : ℕ} {rest : List Item} (hrest : items.drop start = rest)
    {state : State} (hinvariant : Invariant start state)
    {position : ℕ} {effect : Effect}
    (hmem : (position, effect) ∈ (loop body start rest state).effects) :
    (∃ item reached, Turn Invariant items position item reached ∧
      effect ∈ (body position item reached).effects) ∧
    ∀ earlier, start ≤ earlier → earlier < position →
      ∃ item reached next, Turn Invariant items earlier item reached ∧
        (body earlier item reached).ending = .ok next := by
  induction rest generalizing start state with
  | nil => cases hmem
  | cons item rest ih =>
      have hitem : items[start]? = some item := by
        rw [← Nat.add_zero start, ← List.getElem?_drop, hrest]
        rfl
      have hturn : Turn Invariant items start item state :=
        ⟨hitem, hinvariant⟩
      rcases mem_loop_cons hmem with ⟨hposition, heffect⟩ | ⟨next, hending, hlater⟩
      · simp only at hposition heffect
        subst hposition
        exact ⟨⟨item, state, hturn, heffect⟩, fun earlier hfrom hbefore =>
          absurd hbefore (Nat.not_lt.mpr hfrom)⟩
      · have hdrop : items.drop (start + 1) = rest := by
          rw [← List.drop_drop, hrest]
          rfl
        obtain ⟨hfound, hreturned⟩ :=
          ih hdrop (hkeep start item state next hturn hending) hlater
        refine ⟨hfound, ?_⟩
        intro earlier hfrom hbefore
        rcases Nat.eq_or_lt_of_le hfrom with hsame | hafter
        · subst hsame
          exact ⟨item, state, next, hturn, hending⟩
        · exact hreturned earlier hafter hbefore

/-- What an effect of a loop tells about its run. -/
theorem exists_of_mem_loop {Invariant : ℕ → State → Prop} {items : List Item}
    (hkeep : ∀ position item state next,
      Turn Invariant items position item state →
      (body position item state).ending = .ok next →
      Invariant (position + 1) next)
    {state : State} (hinvariant : Invariant 0 state)
    {position : ℕ} {effect : Effect}
    (hmem : (position, effect) ∈ (loop body 0 items state).effects) :
    (∃ item reached, Turn Invariant items position item reached ∧
      effect ∈ (body position item reached).effects) ∧
    ∀ earlier, earlier < position →
      ∃ item reached next, Turn Invariant items earlier item reached ∧
        (body earlier item reached).ending = .ok next := by
  obtain ⟨hfound, hreturned⟩ :=
    exists_of_mem_loop_from hkeep List.drop_zero hinvariant hmem
  exact ⟨hfound, fun earlier hbefore =>
    hreturned earlier (Nat.zero_le _) hbefore⟩

end Acting

/-! ## The latest value -/

section Latest

variable {Value : Type} {Gives : ℕ → Value → Prop}

def LatestBefore (Gives : ℕ → Value → Prop) (position : ℕ) (value : Value) :
    Prop :=
  ∃ earlier, earlier < position ∧ Gives earlier value ∧
    ∀ between, earlier < between → between < position →
      ∀ other, ¬ Gives between other

theorem not_latestBefore_zero (value : Value) :
    ¬ LatestBefore Gives 0 value := by
  rintro ⟨earlier, hbefore, _⟩
  omega

theorem latestBefore_succ_of_gives {position : ℕ} {value : Value}
    (hgives : Gives position value)
    (hunique : ∀ other, Gives position other → other = value)
    (found : Value) :
    LatestBefore Gives (position + 1) found ↔ value = found := by
  constructor
  · rintro ⟨earlier, hbefore, hfound, hnone⟩
    rcases Nat.eq_or_lt_of_le (Nat.le_of_lt_succ hbefore) with hsame | hlt
    · subst hsame
      exact (hunique found hfound).symm
    · exact absurd hgives (hnone position hlt (Nat.lt_succ_self position) value)
  · intro hsame
    subst hsame
    refine ⟨position, Nat.lt_succ_self position, hgives, ?_⟩
    intro between hafter hbefore
    omega

theorem latestBefore_succ_of_silent {position : ℕ}
    (hsilent : ∀ other, ¬ Gives position other) (value : Value) :
    LatestBefore Gives (position + 1) value ↔
      LatestBefore Gives position value := by
  constructor
  · rintro ⟨earlier, hbefore, hgives, hnone⟩
    have hne : earlier ≠ position := by
      intro hsame
      subst hsame
      exact hsilent value hgives
    refine ⟨earlier, by omega, hgives, ?_⟩
    intro between hafter hwithin
    exact hnone between hafter (Nat.lt_succ_of_lt hwithin)
  · rintro ⟨earlier, hbefore, hgives, hnone⟩
    refine ⟨earlier, Nat.lt_succ_of_lt hbefore, hgives, ?_⟩
    intro between hafter hwithin
    rcases Nat.eq_or_lt_of_le (Nat.le_of_lt_succ hwithin) with hsame | hlt
    · subst hsame
      exact hsilent
    · exact hnone between hafter hlt

end Latest

end Acdp
