import Mathlib.Algebra.Order.Archimedean.Basic
import Mathlib.Algebra.Order.Floor.Div
import Mathlib.Tactic

/-!
# Rates of calls

A rate bounds the number of calls in every span of one fixed length.  A span
includes its start and excludes its end, so that spans laid end to end share
no call.  One rate is within another exactly when the longer span can be
covered by so many of the shorter that their counts together stay within the
bound; bursts at the starts of consecutive spans show that nothing less will
do.
-/

namespace Acdp
namespace CallRates

variable {τ : Type*} [AddCommGroup τ]

/-- `count` calls at the start of each of `spans` consecutive spans. -/
def bursts (count : ℕ) (window : τ) : ℕ → List τ
  | 0 => []
  | spans + 1 => bursts count window spans ++ List.replicate count (spans • window)

theorem exists_of_mem_bursts {count : ℕ} {window : τ} {spans : ℕ} {call : τ}
    (hcall : call ∈ bursts count window spans) :
    ∃ index < spans, call = index • window := by
  induction spans with
  | zero => simp [bursts] at hcall
  | succ spans ih =>
      rw [bursts, List.mem_append] at hcall
      rcases hcall with hearlier | hlast
      · obtain ⟨index, hindex, hsame⟩ := ih hearlier
        exact ⟨index, by omega, hsame⟩
      · exact ⟨spans, by omega, List.eq_of_mem_replicate hlast⟩

theorem length_bursts (count : ℕ) (window : τ) (spans : ℕ) :
    (bursts count window spans).length = spans * count := by
  induction spans with
  | zero => simp [bursts]
  | succ spans ih =>
      rw [bursts, List.length_append, ih, List.length_replicate, Nat.succ_mul]

section Spans

variable [LinearOrder τ]

def inSpan (start window : τ) (calls : List τ) : ℕ :=
  calls.countP (fun call => decide (start ≤ call ∧ call < start + window))

/-- At most `count` calls in any span of length `window`. -/
def Within (count : ℕ) (window : τ) (calls : List τ) : Prop :=
  ∀ start, inSpan start window calls ≤ count

theorem inSpan_append (start window : τ) (before after : List τ) :
    inSpan start window (before ++ after) =
      inSpan start window before + inSpan start window after :=
  List.countP_append

theorem inSpan_eq_zero {start window : τ} {calls : List τ}
    (hcalls : ∀ call ∈ calls, start ≤ call → start + window ≤ call) :
    inSpan start window calls = 0 := by
  unfold inSpan
  rw [List.countP_eq_zero]
  intro call hcall
  rw [decide_eq_true_eq]
  rintro ⟨hstart, hend⟩
  exact absurd (hcalls call hcall hstart) (not_le.mpr hend)

theorem inSpan_eq_length {start window : τ} {calls : List τ}
    (hcalls : ∀ call ∈ calls, start ≤ call ∧ call < start + window) :
    inSpan start window calls = calls.length := by
  unfold inSpan
  rw [List.countP_eq_length]
  intro call hcall
  rw [decide_eq_true_eq]
  exact hcalls call hcall

/-- Two spans laid end to end. -/
theorem inSpan_add_le (start window next : τ) (calls : List τ) :
    inSpan start (window + next) calls ≤
      inSpan start window calls + inSpan (start + window) next calls := by
  unfold inSpan
  induction calls with
  | nil => simp
  | cons call rest ih =>
      rw [List.countP_cons, List.countP_cons, List.countP_cons]
      -- a call of the long span lies in the one half or in the other
      have hcall :
          (if decide (start ≤ call ∧ call < start + (window + next)) = true
            then 1 else 0) ≤
          (if decide (start ≤ call ∧ call < start + window) = true
            then 1 else 0) +
          (if decide (start + window ≤ call ∧
            call < start + window + next) = true then 1 else 0) := by
        rw [← add_assoc]
        rcases lt_or_ge call (start + window) with hfirst | hsecond
        · split_ifs <;> simp_all
        · split_ifs <;> simp_all
      omega

theorem Within.inSpan_nsmul_le {count : ℕ} {window : τ} {calls : List τ}
    (hwithin : Within count window calls) (start : τ) (spans : ℕ) :
    inSpan start (spans • window) calls ≤ spans * count := by
  induction spans with
  | zero =>
      have hnone : inSpan start (0 • window) calls = 0 := by
        apply inSpan_eq_zero
        intro call _ hstart
        rw [zero_nsmul, add_zero]
        exact hstart
      omega
  | succ spans ih =>
      have hsplit := inSpan_add_le start (spans • window) window calls
      have hlast := hwithin (start + spans • window)
      rw [succ_nsmul, Nat.succ_mul]
      omega

/-- The span that reaches the end of a longer one starts before it. -/
theorem exists_last_span [Archimedean τ] {window longer : τ}
    (hwindow : 0 < window) (hlonger : 0 < longer) :
    ∃ last : ℕ, last • window < longer ∧ longer ≤ (last + 1) • window := by
  classical
  have hreach := Archimedean.arch longer hwindow
  have hmin := Nat.find_spec hreach
  cases hfind : Nat.find hreach with
  | zero =>
      rw [hfind, zero_nsmul] at hmin
      exact absurd hlonger (not_lt.mpr hmin)
  | succ last =>
      rw [hfind] at hmin
      have hbefore : ¬ longer ≤ last • window := by
        apply Nat.find_min hreach
        rw [hfind]
        exact Nat.lt_succ_self last
      exact ⟨last, not_le.mp hbefore, hmin⟩

end Spans

variable [LinearOrder τ] [IsOrderedAddMonoid τ]

theorem inSpan_mono {window longer : τ} (hlonger : window ≤ longer)
    (start : τ) (calls : List τ) :
    inSpan start window calls ≤ inSpan start longer calls := by
  unfold inSpan
  apply List.countP_mono_left
  intro call _ hcall
  rw [decide_eq_true_eq] at hcall ⊢
  have hend : start + window ≤ start + longer := by gcongr
  exact ⟨hcall.1, lt_of_lt_of_le hcall.2 hend⟩

theorem bursts_sorted (count : ℕ) {window : τ} (hwindow : 0 ≤ window)
    (spans : ℕ) : (bursts count window spans).Pairwise (· ≤ ·) := by
  induction spans with
  | zero => exact List.Pairwise.nil
  | succ spans ih =>
      rw [bursts, List.pairwise_append]
      refine ⟨ih, List.pairwise_replicate.mpr (Or.inr (le_refl _)), ?_⟩
      intro earlier hearlier last hlast
      obtain ⟨index, hindex, rfl⟩ := exists_of_mem_bursts hearlier
      rw [List.eq_of_mem_replicate hlast]
      exact nsmul_le_nsmul_left hwindow hindex.le

/-- A span no longer than the distance of two bursts meets one of them at
most. -/
theorem bursts_within (count : ℕ) {window : τ} (hwindow : 0 ≤ window)
    (spans : ℕ) : Within count window (bursts count window spans) := by
  intro start
  induction spans with
  | zero => simp [bursts, inSpan]
  | succ spans ih =>
      rw [bursts, inSpan_append]
      by_cases hlast :
          start ≤ spans • window ∧ spans • window < start + window
      · have hnone : inSpan start window (bursts count window spans) = 0 := by
          apply inSpan_eq_zero
          intro call hcall hstart
          obtain ⟨index, hindex, rfl⟩ := exists_of_mem_bursts hcall
          have hnext : (index + 1) • window ≤ spans • window :=
            nsmul_le_nsmul_left hwindow hindex
          rw [succ_nsmul] at hnext
          have hreach : start + window ≤ index • window + window := by gcongr
          have hshort := (hreach.trans hnext).trans_lt hlast.2
          exact absurd hshort (lt_irrefl _)
        have hburst : inSpan start window
            (List.replicate count (spans • window)) ≤ count := by
          unfold inSpan
          exact List.countP_le_length.trans_eq List.length_replicate
        omega
      · have hnone : inSpan start window
            (List.replicate count (spans • window)) = 0 := by
          unfold inSpan
          rw [List.countP_eq_zero]
          intro call hcall
          rw [List.eq_of_mem_replicate hcall, decide_eq_true_eq]
          exact hlast
        omega

/-! ## Inclusion of rates -/

/-- Every sequence of calls in the order of their instants that keeps to the
first rate keeps to the second, exactly when spans of the first that are
allowed no more than the second together cover a span of it. -/
theorem within_subset_iff [Archimedean τ] {count bound : ℕ}
    {window longer : τ} (hwindow : 0 ≤ window) :
    (∀ calls : List τ, calls.Pairwise (· ≤ ·) →
        Within count window calls → Within bound longer calls) ↔
      ∃ spans : ℕ, longer ≤ spans • window ∧ spans * count ≤ bound := by
  constructor
  · intro hsubset
    by_contra hcovered
    push Not at hcovered
    have hlonger : 0 < longer := by
      by_contra hempty
      rw [not_lt] at hempty
      have hnone := hcovered 0 (by rw [zero_nsmul]; exact hempty)
      omega
    rcases hwindow.eq_or_lt with hzero | hpositive
    · -- an empty span bounds nothing
      have hkept : Within count window
          (List.replicate (bound + 1) (0 : τ)) := by
        intro start
        rw [inSpan_eq_zero]
        · exact Nat.zero_le count
        · intro call _ hstart
          rw [← hzero, add_zero]
          exact hstart
      have hsorted : (List.replicate (bound + 1) (0 : τ)).Pairwise (· ≤ ·) :=
        List.pairwise_replicate.mpr (Or.inr (le_refl 0))
      have hbound := hsubset _ hsorted hkept 0
      rw [inSpan_eq_length, List.length_replicate] at hbound
      · omega
      · intro call hcall
        rw [List.eq_of_mem_replicate hcall, zero_add]
        exact ⟨le_refl 0, hlonger⟩
    · obtain ⟨last, hlast, hcover⟩ := exists_last_span hpositive hlonger
      have hexceeds := hcovered (last + 1) hcover
      have hbound := hsubset _ (bursts_sorted count hwindow (last + 1))
        (bursts_within count hwindow (last + 1)) 0
      rw [inSpan_eq_length, length_bursts] at hbound
      · omega
      · intro call hcall
        obtain ⟨index, hindex, rfl⟩ := exists_of_mem_bursts hcall
        have hbefore : index • window ≤ last • window :=
          nsmul_le_nsmul_left hwindow (by omega)
        rw [zero_add]
        exact ⟨nsmul_nonneg hwindow index, lt_of_le_of_lt hbefore hlast⟩
  · rintro ⟨spans, hcover, hbound⟩ calls _ hwithin start
    have hspans := hwithin.inSpan_nsmul_le start spans
    have hlonger := inSpan_mono hcover start calls
    omega

end CallRates
end Acdp
