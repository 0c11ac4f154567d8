import Mathlib.Tactic

/-!
# Sliding windows over a history of instants

The window at an instant `t` holds the instants of the history that lie
strictly after `start t`.  Pruning a history to an earlier window does not
change a later one, and a history in which every entry found fewer than
`limit` entries in its window has at most `limit` entries in any set of
instants no wider than a window.
-/

namespace Acdp
namespace SlidingWindow

variable {τ : Type*} [LinearOrder τ]

def inside (start : τ) (times : List τ) : List τ :=
  times.filter (fun time => decide (start < time))

@[simp] theorem inside_nil (start : τ) : inside start [] = [] := rfl

theorem inside_append (start : τ) (before after : List τ) :
    inside start (before ++ after) =
      inside start before ++ inside start after :=
  List.filter_append before after

theorem inside_inside {earlier later : τ} (horder : earlier ≤ later)
    (times : List τ) :
    inside later (inside earlier times) = inside later times := by
  unfold inside
  rw [List.filter_filter]
  apply List.filter_congr
  intro time _
  by_cases hlater : later < time
  · have hearlier : earlier < time := lt_of_le_of_lt horder hlater
    simp [hlater, hearlier]
  · simp [hlater]

/-- The entries kept so far give every later window the same contents as the
whole history. -/
def Retains (kept times : List τ) (horizon : τ) : Prop :=
  ∀ start, horizon ≤ start → inside start kept = inside start times

theorem retains_self (times : List τ) (horizon : τ) :
    Retains times times horizon := by
  intro start _
  rfl

theorem Retains.mono {kept times : List τ} {horizon later : τ}
    (hretains : Retains kept times horizon) (horder : horizon ≤ later) :
    Retains kept times later := by
  intro start hstart
  exact hretains start (horder.trans hstart)

theorem Retains.prune {kept times : List τ} {horizon : τ}
    (hretains : Retains kept times horizon) :
    Retains (inside horizon kept) times horizon := by
  intro start hstart
  rw [inside_inside hstart, hretains start hstart]

theorem Retains.push {kept times : List τ} {horizon : τ}
    (hretains : Retains kept times horizon) (time : τ) :
    Retains (kept ++ [time]) (times ++ [time]) horizon := by
  intro start hstart
  rw [inside_append, inside_append, hretains start hstart]

/-! ## At most so many in a window -/

def Limited (start : τ → τ) (limit : ℕ) (times : List τ) : Prop :=
  ∀ before time, before ++ [time] <+: times →
    (inside (start time) before).length < limit

theorem limited_nil (start : τ → τ) (limit : ℕ) : Limited start limit [] := by
  intro before time hprefix
  simp at hprefix

theorem Limited.push {start : τ → τ} {limit : ℕ} {times : List τ} {time : τ}
    (hlimited : Limited start limit times)
    (hroom : (inside (start time) times).length < limit) :
    Limited start limit (times ++ [time]) := by
  intro before last hprefix
  rcases List.prefix_concat_iff.mp hprefix with heq | hearlier
  · obtain ⟨hbefore, hlast⟩ := List.append_inj' heq rfl
    rw [hbefore, List.singleton_inj.mp hlast]
    exact hroom
  · exact hlimited before last hearlier

theorem Limited.init {start : τ → τ} {limit : ℕ} {times : List τ} {time : τ}
    (hlimited : Limited start limit (times ++ [time])) :
    Limited start limit times := by
  intro before last hbefore
  exact hlimited before last (hbefore.trans (List.prefix_append times [time]))

/-- In a set of instants no wider than a window the last entry finds all the
others inside its own window. -/
theorem Limited.length_filter_le {start : τ → τ} {limit : ℕ}
    {times : List τ} (hlimited : Limited start limit times)
    (interval : τ → Bool)
    (hnarrow : ∀ earlier ∈ times, ∀ later ∈ times, interval earlier = true →
      interval later = true → start later < earlier) :
    (times.filter interval).length ≤ limit := by
  induction times using List.reverseRecOn with
  | nil => simp
  | append_singleton times time ih =>
      by_cases hinside : interval time = true
      · have hroom := hlimited times time (List.prefix_refl _)
        have hsub : (times.filter interval).length ≤
            (inside (start time) times).length := by
          rw [inside, ← List.countP_eq_length_filter,
            ← List.countP_eq_length_filter]
          apply List.countP_mono_left
          intro earlier hmember hearlier
          exact decide_eq_true (hnarrow earlier
            (List.mem_append_left [time] hmember) time (by simp) hearlier
            hinside)
        rw [List.filter_append, List.filter_cons_of_pos hinside,
          List.filter_nil, List.length_append, List.length_singleton]
        omega
      · rw [List.filter_append, List.filter_cons_of_neg hinside,
          List.filter_nil, List.append_nil]
        exact ih hlimited.init
          (fun earlier hearlier later hlater =>
            hnarrow earlier (List.mem_append_left [time] hearlier) later
              (List.mem_append_left [time] hlater))

end SlidingWindow
end Acdp
