import Acdp.CoreInterceptor
import Acdp.SlidingWindow
import Mathlib.Data.List.AList

/-!
# The rate limiter

The limiter keeps, for every method, the instants of the admitted calls, and
prunes them to the current window on each call.  Its answers are nevertheless
those of the full history: a call is admitted exactly when fewer than
`maxRequests` admitted calls of its method lie in the window that ends with
it.
-/

namespace Acdp
namespace Transport

open Acdp.Core SlidingWindow
open Auth (DateTime)

/-- Instants are counted in nanoseconds from the earliest one that the clock
can represent. -/
def checkedSub (instant duration : ℕ) : Option ℕ :=
  if duration ≤ instant then some (instant - duration) else none

structure RateLimiter where
  maxRequests : ℕ
  windowSecs : ℕ
  requestHistory : AList (fun _ : String => List ℕ)

namespace RateLimiter

def new (maxRequests windowSecs : ℕ) : RateLimiter where
  maxRequests := maxRequests
  windowSecs := windowSecs
  requestHistory := ∅

def windowNanos (windowSecs : ℕ) : ℕ := windowSecs * 1000000000

def history (self : RateLimiter) (method : String) : List ℕ :=
  (self.requestHistory.lookup method).getD []

def withHistory (self : RateLimiter) (method : String) (history : List ℕ) :
    RateLimiter :=
  { self with requestHistory := self.requestHistory.insert method history }

/-- There is no result where the subtraction of the window panics. -/
def checkAndRecord (self : RateLimiter) (method : String) (now : ℕ) :
    Option (RateLimiter × Bool) :=
  (checkedSub now (windowNanos self.windowSecs)).map fun windowStart =>
    let kept := inside windowStart (self.history method)
    if kept.length < self.maxRequests then
      (self.withHistory method (kept ++ [now]), true)
    else (self.withHistory method kept, false)

def getCurrentRate (self : RateLimiter) (method : String) (now : ℕ) :
    Option ℕ :=
  (checkedSub now (windowNanos self.windowSecs)).map fun windowStart =>
    ((self.requestHistory.lookup method).map
      (fun history => (inside windowStart history).length)).getD 0

structure Call where
  method : String
  instant : ℕ
  deriving DecidableEq, Repr

structure Answer where
  call : Call
  allowed : Bool
  deriving DecidableEq, Repr

def checkAll (self : RateLimiter) :
    List Call → Option (RateLimiter × List Answer)
  | [] => some (self, [])
  | call :: rest =>
      (self.checkAndRecord call.method call.instant).bind
        fun (next, allowed) =>
          (next.checkAll rest).map fun (last, answers) =>
            (last, ⟨call, allowed⟩ :: answers)

/-! ## The full history -/

def isAdmitted (method : String) (answer : Answer) : Bool :=
  decide (answer.call.method = method) && answer.allowed

def admitted (method : String) (answers : List Answer) : List ℕ :=
  (answers.filter (isAdmitted method)).map
    (fun answer => answer.call.instant)

/-- The instants in the half-open interval of the given length that ends with
`now`. -/
def inWindow (window : ℕ) (now : ℕ) (times : List ℕ) :
    List ℕ :=
  times.filter (fun time => decide (now < time + window ∧ time ≤ now))

/-- Every answer is the one that the whole history before it gives. -/
def Explained (maxRequests window : ℕ) (answers : List Answer) : Prop :=
  ∀ before answer, before ++ [answer] <+: answers →
    (answer.allowed = true ↔
      (inWindow window answer.call.instant
        (admitted answer.call.method before)).length < maxRequests)

@[simp] theorem admitted_nil (method : String) : admitted method [] = [] := rfl

theorem admitted_append (method : String) (before after : List Answer) :
    admitted method (before ++ after) =
      admitted method before ++ admitted method after := by
  simp [admitted]

theorem admitted_singleton_of_ne {method : String} {answer : Answer}
    (hmethod : answer.call.method ≠ method) : admitted method [answer] = [] := by
  simp [admitted, isAdmitted, hmethod]

theorem admitted_singleton_self (answer : Answer) :
    admitted answer.call.method [answer] =
      if answer.allowed then [answer.call.instant] else [] := by
  cases hallowed : answer.allowed <;>
    simp [admitted, isAdmitted, hallowed]

theorem mem_admitted {method : String} {answers : List Answer}
    {time : ℕ} (htime : time ∈ admitted method answers) :
    ∃ answer ∈ answers, answer.call.instant = time := by
  simp only [admitted, List.mem_map, List.mem_filter] at htime
  obtain ⟨answer, ⟨hanswer, _⟩, hinstant⟩ := htime
  exact ⟨answer, hanswer, hinstant⟩

/-- Seen from an instant that is not earlier than the history, the window is
what lies after its start. -/
theorem inWindow_eq_inside {window now : ℕ} {times : List ℕ}
    (hwindow : window ≤ now) (hpast : ∀ time ∈ times, time ≤ now) :
    inWindow window now times = inside (now - window) times := by
  unfold inWindow inside
  apply List.filter_congr
  intro time htime
  have hle := hpast time htime
  rw [decide_eq_decide]
  omega

/-! ## The pruned history against the full one -/

section FullHistory

variable {maxRequests windowSecs : ℕ}

/-- What the limiter keeps of each method is as good as the full history, from
the window of the latest call on. -/
structure Follows (maxRequests windowSecs : ℕ) (limiter : RateLimiter)
    (past : List Answer) (latest : ℕ) : Prop where
  limit : limiter.maxRequests = maxRequests
  window : limiter.windowSecs = windowSecs
  retains : ∀ method,
    Retains (limiter.history method) (admitted method past)
      (latest - windowNanos windowSecs)
  past : ∀ answer ∈ past, answer.call.instant ≤ latest

theorem follows_new :
    Follows maxRequests windowSecs (new maxRequests windowSecs) [] 0 where
  limit := rfl
  window := rfl
  retains := by
    intro method
    have hempty : (new maxRequests windowSecs).history method = [] := rfl
    rw [hempty]
    exact retains_self [] _
  past := by simp

theorem Follows.inside_history {limiter : RateLimiter} {past : List Answer}
    {latest now : ℕ} (hfollows : Follows maxRequests windowSecs limiter past latest)
    (horder : latest ≤ now) (hwindow : windowNanos windowSecs ≤ now)
    (method : String) :
    inside (now - windowNanos windowSecs) (limiter.history method) =
      inWindow (windowNanos windowSecs) now (admitted method past) := by
  have hpast : ∀ time ∈ admitted method past, time ≤ now := by
    intro time htime
    obtain ⟨answer, hanswer, hinstant⟩ := mem_admitted htime
    rw [← hinstant]
    exact (hfollows.past answer hanswer).trans horder
  rw [inWindow_eq_inside hwindow hpast]
  exact hfollows.retains method _ (by omega)

@[simp] theorem history_withHistory_self (limiter : RateLimiter)
    (method : String) (kept : List ℕ) :
    (limiter.withHistory method kept).history method = kept := by
  simp [history, withHistory]

theorem history_withHistory_of_ne (limiter : RateLimiter)
    {method other : String} (hother : other ≠ method) (kept : List ℕ) :
    (limiter.withHistory method kept).history other =
      limiter.history other := by
  simp [history, withHistory, AList.lookup_insert_ne hother]

/-- Storing, for the method of a call, what its record retains keeps up with
the record. -/
theorem Follows.withHistory {limiter : RateLimiter} {past : List Answer}
    {latest : ℕ} (hfollows : Follows maxRequests windowSecs limiter past latest)
    (answer : Answer) (horder : latest ≤ answer.call.instant) {kept : List ℕ}
    (hkept : Retains kept (admitted answer.call.method (past ++ [answer]))
      (answer.call.instant - windowNanos windowSecs)) :
    Follows maxRequests windowSecs
      (limiter.withHistory answer.call.method kept) (past ++ [answer])
      answer.call.instant where
  limit := hfollows.limit
  window := hfollows.window
  retains := by
    intro method
    by_cases hmethod : method = answer.call.method
    · rw [hmethod, history_withHistory_self]
      exact hkept
    · have hnone : admitted method [answer] = [] :=
        admitted_singleton_of_ne (Ne.symm hmethod)
      rw [history_withHistory_of_ne limiter hmethod, admitted_append, hnone,
        List.append_nil]
      exact (hfollows.retains method).mono (by omega)
  past := by
    intro earlier hearlier
    rcases List.mem_append.mp hearlier with hold | hnew
    · exact (hfollows.past earlier hold).trans horder
    · rw [List.mem_singleton.mp hnew]

theorem Follows.checkAndRecord {limiter : RateLimiter} {past : List Answer}
    {latest : ℕ} (hfollows : Follows maxRequests windowSecs limiter past latest)
    (call : Call) (horder : latest ≤ call.instant)
    (hwindow : windowNanos windowSecs ≤ call.instant) :
    ∃ next allowed,
      limiter.checkAndRecord call.method call.instant = some (next, allowed) ∧
      (allowed = true ↔
        (inWindow (windowNanos windowSecs) call.instant
          (admitted call.method past)).length < maxRequests) ∧
      Follows maxRequests windowSecs next (past ++ [⟨call, allowed⟩])
        call.instant := by
  have hinside := hfollows.inside_history horder hwindow call.method
  have hlater : latest - windowNanos windowSecs ≤
      call.instant - windowNanos windowSecs := by omega
  have hkept := ((hfollows.retains call.method).mono hlater).prune
  simp only [RateLimiter.checkAndRecord, checkedSub, hfollows.window,
    if_pos hwindow, Option.map_some, hfollows.limit, hinside]
  rw [hinside] at hkept
  by_cases hroom : (inWindow (windowNanos windowSecs) call.instant
      (admitted call.method past)).length < maxRequests
  · rw [if_pos hroom]
    refine ⟨_, _, rfl, iff_of_true rfl hroom, ?_⟩
    apply hfollows.withHistory ⟨call, true⟩ horder
    rw [admitted_append, admitted_singleton_self]
    exact hkept.push call.instant
  · rw [if_neg hroom]
    refine ⟨_, _, rfl, iff_of_false (by simp) hroom, ?_⟩
    apply hfollows.withHistory ⟨call, false⟩ horder
    rw [admitted_append, admitted_singleton_self]
    simpa using hkept

theorem explained_nil (window : ℕ) : Explained maxRequests window [] := by
  intro before answer hprefix
  simp at hprefix

theorem Explained.push {window : ℕ} {past : List Answer} {answer : Answer}
    (hexplained : Explained maxRequests window past)
    (hanswer : answer.allowed = true ↔
      (inWindow window answer.call.instant
        (admitted answer.call.method past)).length < maxRequests) :
    Explained maxRequests window (past ++ [answer]) := by
  intro before last hprefix
  rcases List.prefix_concat_iff.mp hprefix with heq | hearlier
  · obtain ⟨hbefore, hlast⟩ := List.append_inj' heq rfl
    rw [hbefore, List.singleton_inj.mp hlast]
    exact hanswer
  · exact hexplained before last hearlier

theorem Explained.init {window : ℕ} {past : List Answer} {answer : Answer}
    (hexplained : Explained maxRequests window (past ++ [answer])) :
    Explained maxRequests window past := by
  intro before last hbefore
  exact hexplained before last (hbefore.trans (List.prefix_append past [answer]))

/-- A whole run at non-decreasing instants, from a limiter that follows the
answers given so far. -/
theorem Follows.checkAll {limiter : RateLimiter} {past : List Answer}
    {latest : ℕ} (hfollows : Follows maxRequests windowSecs limiter past latest)
    (hexplained : Explained maxRequests (windowNanos windowSecs) past)
    (calls : List Call) (hlatest : ∀ call ∈ calls, latest ≤ call.instant)
    (hordered : calls.Pairwise
      (fun earlier later => earlier.instant ≤ later.instant))
    (hwindow : ∀ call ∈ calls, windowNanos windowSecs ≤ call.instant) :
    ∃ last answers final,
      limiter.checkAll calls = some (last, answers) ∧
      answers.map Answer.call = calls ∧
      Explained maxRequests (windowNanos windowSecs) (past ++ answers) ∧
      Follows maxRequests windowSecs last (past ++ answers) final ∧
      ∀ now, latest ≤ now → (∀ call ∈ calls, call.instant ≤ now) →
        final ≤ now := by
  induction calls generalizing limiter past latest with
  | nil =>
      exact ⟨limiter, [], latest, rfl, rfl, by simpa using hexplained,
        by simpa using hfollows, fun now hnow _ => hnow⟩
  | cons call rest ih =>
      obtain ⟨hfirst, hrest⟩ := List.pairwise_cons.mp hordered
      obtain ⟨next, allowed, hcheck, hallowed, hnext⟩ :=
        hfollows.checkAndRecord call (hlatest call List.mem_cons_self)
          (hwindow call List.mem_cons_self)
      obtain ⟨last, answers, final, hrun, hcalls, hall, hlast, hfinal⟩ :=
        ih hnext (hexplained.push hallowed) hfirst hrest
          (fun later hlater => hwindow later (List.mem_cons_of_mem call hlater))
      refine ⟨last, ⟨call, allowed⟩ :: answers, final, ?_, ?_, ?_, ?_, ?_⟩
      · rw [RateLimiter.checkAll, hcheck]
        simp [hrun]
      · rw [List.map_cons, hcalls]
      · simpa using hall
      · simpa using hlast
      · intro now _ hcallsBefore
        exact hfinal now (hcallsBefore call List.mem_cons_self)
          (fun later hlater =>
            hcallsBefore later (List.mem_cons_of_mem call hlater))

/-! ## What the answers of a run satisfy -/

theorem Explained.limited {window : ℕ} {answers : List Answer}
    (hexplained : Explained maxRequests window answers)
    (hwindow : ∀ answer ∈ answers, window ≤ answer.call.instant)
    (hordered : answers.Pairwise
      (fun earlier later => earlier.call.instant ≤ later.call.instant))
    (method : String) :
    Limited (fun now => now - window) maxRequests (admitted method answers) := by
  induction answers using List.reverseRecOn with
  | nil => exact limited_nil _ _
  | append_singleton past answer ih =>
      obtain ⟨hpast, _, hbefore⟩ := List.pairwise_append.mp hordered
      have hlimited := ih hexplained.init
        (fun earlier hearlier =>
          hwindow earlier (List.mem_append_left [answer] hearlier)) hpast
      rw [admitted_append]
      by_cases hmethod : answer.call.method = method
      · subst hmethod
        rw [admitted_singleton_self]
        by_cases hallowed : answer.allowed = true
        · have hroom :=
            (hexplained past answer (List.prefix_refl _)).mp hallowed
          have hnow : window ≤ answer.call.instant := hwindow answer (by simp)
          have htimes : ∀ time ∈ admitted answer.call.method past,
              time ≤ answer.call.instant := by
            intro time htime
            obtain ⟨earlier, hearlier, hinstant⟩ := mem_admitted htime
            rw [← hinstant]
            exact hbefore earlier hearlier answer List.mem_cons_self
          rw [inWindow_eq_inside hnow htimes] at hroom
          rw [if_pos hallowed]
          exact hlimited.push hroom
        · rw [if_neg hallowed, List.append_nil]
          exact hlimited
      · rw [admitted_singleton_of_ne hmethod, List.append_nil]
        exact hlimited

theorem admitted_congr {method : String} {left right : List Answer}
    (hfilter : left.filter (isAdmitted method) =
      right.filter (isAdmitted method)) :
    admitted method left = admitted method right := by
  unfold admitted
  rw [hfilter]

/-- The admitted calls of a method are among its calls. -/
theorem admitted_congr_of_method {method : String} {left right : List Answer}
    (hfilter : left.filter (fun answer => decide (answer.call.method = method)) =
      right.filter (fun answer => decide (answer.call.method = method))) :
    admitted method left = admitted method right := by
  apply admitted_congr
  have hsplit : ∀ answers : List Answer,
      answers.filter (isAdmitted method) =
        (answers.filter
          (fun answer => decide (answer.call.method = method))).filter
            Answer.allowed := by
    intro answers
    rw [List.filter_filter]
    apply List.filter_congr
    intro answer _
    rw [isAdmitted, Bool.and_comm]
  rw [hsplit, hsplit, hfilter]

/-- Leaving out calls of other methods and rejected calls, wherever they
stand, changes no answer given to the method. -/
theorem Explained.replay {window : ℕ} {method : String}
    {answers fewer again : List Answer}
    (hexplained : Explained maxRequests window answers)
    (hsub : fewer.Sublist answers)
    (hadmitted : fewer.filter (isAdmitted method) =
      answers.filter (isAdmitted method))
    (hagain : Explained maxRequests window again)
    (hcalls : again.map Answer.call = fewer.map Answer.call) :
    again.filter (fun answer => decide (answer.call.method = method)) =
      fewer.filter (fun answer => decide (answer.call.method = method)) := by
  induction answers using List.reverseRecOn generalizing fewer again with
  | nil =>
      rw [List.sublist_nil.mp hsub] at hcalls ⊢
      rw [List.map_eq_nil_iff.mp hcalls]
  | append_singleton past answer ih =>
      obtain ⟨kept, last, hfewer, hkept, hlast⟩ := List.sublist_append_iff.mp hsub
      rw [List.filter_append] at hadmitted
      rcases List.sublist_singleton.mp hlast with hnone | hone
      · rw [hnone, List.append_nil] at hfewer
        subst hfewer
        have hle := (hkept.filter (isAdmitted method)).length_le
        have hnot : [answer].filter (isAdmitted method) = [] := by
          rw [hadmitted, List.length_append] at hle
          exact List.length_eq_zero_iff.mp (by omega)
        rw [hnot, List.append_nil] at hadmitted
        exact ih hexplained.init hkept hadmitted hagain hcalls
      · subst hone hfewer
        rw [List.map_append, List.map_singleton] at hcalls
        obtain ⟨earlier, final, hsplit, hearlier, hfinal⟩ :=
          List.map_eq_append_iff.mp hcalls
        obtain ⟨repeated, hrepeated, hcall⟩ := List.map_eq_singleton_iff.mp hfinal
        subst hsplit hrepeated
        rw [List.filter_append, List.append_cancel_right_eq] at hadmitted
        have hsame := ih hexplained.init hkept hadmitted hagain.init hearlier
        rw [List.filter_append, List.filter_append, hsame]
        congr 1
        by_cases hmethod : answer.call.method = method
        · have hcount : admitted method earlier = admitted method past :=
            (admitted_congr_of_method hsame).trans (admitted_congr hadmitted)
          have hthen := hexplained past answer (List.prefix_refl _)
          have hnow := hagain earlier repeated (List.prefix_refl _)
          rw [hmethod] at hthen
          rw [hcall, hmethod, hcount, ← hthen] at hnow
          have hallowed : repeated.allowed = answer.allowed :=
            Bool.eq_iff_iff.mpr hnow
          have hequal : repeated = answer := by
            cases repeated
            cases answer
            simp_all
          rw [hequal]
        · have hother : repeated.call.method ≠ method := by
            rw [hcall]
            exact hmethod
          simp [hmethod, hother]

theorem Follows.getCurrentRate {limiter : RateLimiter} {past : List Answer}
    {latest now : ℕ} (hfollows : Follows maxRequests windowSecs limiter past latest)
    (horder : latest ≤ now) (hwindow : windowNanos windowSecs ≤ now)
    (method : String) :
    limiter.getCurrentRate method now =
      some (inWindow (windowNanos windowSecs) now
        (admitted method past)).length := by
  have hinside := hfollows.inside_history horder hwindow method
  rw [RateLimiter.getCurrentRate, checkedSub, hfollows.window, if_pos hwindow,
    Option.map_some, ← hinside, history]
  cases limiter.requestHistory.lookup method <;> simp

end FullHistory

structure SlidingWindowRun (maxRequests windowSecs : ℕ)
    (limiter : RateLimiter) (answers : List Answer) : Prop where
  decided : ∀ before answer, before ++ [answer] <+: answers →
    (answer.allowed = true ↔
      (inWindow (windowNanos windowSecs) answer.call.instant
        (admitted answer.call.method before)).length < maxRequests)
  bounded : ∀ method start,
    ((admitted method answers).filter (fun time =>
      decide (start ≤ time ∧ time < start + windowNanos windowSecs))).length ≤
        maxRequests ∧
    ((admitted method answers).filter (fun time =>
      decide (start < time ∧ time ≤ start + windowNanos windowSecs))).length ≤
        maxRequests
  unaffected : ∀ (method : String) (fewer : List Answer),
    fewer.Sublist answers →
    fewer.filter (isAdmitted method) = answers.filter (isAdmitted method) →
    ∃ last again,
      (new maxRequests windowSecs).checkAll (fewer.map Answer.call) =
        some (last, again) ∧
      again.filter (fun answer => decide (answer.call.method = method)) =
        fewer.filter (fun answer => decide (answer.call.method = method))
  currentRate : ∀ method now,
    (∀ answer ∈ answers, answer.call.instant ≤ now) →
    windowNanos windowSecs ≤ now →
    limiter.getCurrentRate method now =
      some (inWindow (windowNanos windowSecs) now
        (admitted method answers)).length

/-- A run of calls at non-decreasing instants, none of them so early that the
window reaches back before the clock. -/
theorem checkAll_slidingWindowRun (maxRequests windowSecs : ℕ)
    (calls : List Call)
    (hordered : calls.Pairwise
      (fun earlier later => earlier.instant ≤ later.instant))
    (hwindow : ∀ call ∈ calls, windowNanos windowSecs ≤ call.instant) :
    ∃ limiter answers,
      (new maxRequests windowSecs).checkAll calls = some (limiter, answers) ∧
      answers.map Answer.call = calls ∧
      SlidingWindowRun maxRequests windowSecs limiter answers := by
  obtain ⟨limiter, answers, final, hrun, hcalls, hexplained, hfollows, hfinal⟩ :=
    follows_new.checkAll (explained_nil (windowNanos windowSecs)) calls
      (fun call _ => Nat.zero_le call.instant) hordered hwindow
  rw [List.nil_append] at hexplained hfollows
  have hanswersOrdered : answers.Pairwise
      (fun earlier later => earlier.call.instant ≤ later.call.instant) := by
    rw [← hcalls, List.pairwise_map] at hordered
    exact hordered
  have hanswersWindow : ∀ answer ∈ answers,
      windowNanos windowSecs ≤ answer.call.instant := by
    intro answer hanswer
    apply hwindow
    rw [← hcalls]
    exact List.mem_map_of_mem hanswer
  refine ⟨limiter, answers, hrun, hcalls, hexplained, ?_, ?_, ?_⟩
  · intro method start
    have hlimited := hexplained.limited hanswersWindow hanswersOrdered method
    have htimes : ∀ time ∈ admitted method answers,
        windowNanos windowSecs ≤ time := by
      intro time htime
      obtain ⟨answer, hanswer, hinstant⟩ := mem_admitted htime
      rw [← hinstant]
      exact hanswersWindow answer hanswer
    constructor
    · apply hlimited.length_filter_le
      intro earlier _ later hmember hearlier hlater
      have hle := htimes later hmember
      rw [decide_eq_true_eq] at hearlier hlater
      omega
    · apply hlimited.length_filter_le
      intro earlier _ later hmember hearlier hlater
      have hle := htimes later hmember
      rw [decide_eq_true_eq] at hearlier hlater
      omega
  · intro method fewer hsub hadmitted
    have hfewer : (fewer.map Answer.call).Sublist calls := by
      rw [← hcalls]
      exact hsub.map Answer.call
    obtain ⟨last, again, _, hagain, hsame, hexplainedAgain, _, _⟩ :=
      follows_new.checkAll (explained_nil (windowNanos windowSecs))
        (fewer.map Answer.call) (fun call _ => Nat.zero_le call.instant)
        (hordered.sublist hfewer)
        (fun call hcall => hwindow call (hfewer.subset hcall))
    rw [List.nil_append] at hexplainedAgain
    exact ⟨last, again, hagain,
      hexplained.replay hsub hadmitted hexplainedAgain hsame⟩
  · intro method now hpast hnow
    apply hfollows.getCurrentRate _ hnow
    apply hfinal now (Nat.zero_le now)
    intro call hcall
    rw [← hcalls] at hcall
    obtain ⟨answer, hanswer, hequal⟩ := List.mem_map.mp hcall
    rw [← hequal]
    exact hpast answer hanswer

/-- Two calls a second, and a third one exactly one window after the first. -/
theorem checkAll_slidingWindowRun_burst :
    ∃ limiter answers,
      (new 2 1).checkAll
        [⟨"tools/call", 1000000000⟩, ⟨"tools/call", 1500000000⟩,
          ⟨"tools/list", 1500000000⟩, ⟨"tools/call", 1999999999⟩,
          ⟨"tools/call", 2000000000⟩] = some (limiter, answers) ∧
      answers.map Answer.call =
        [⟨"tools/call", 1000000000⟩, ⟨"tools/call", 1500000000⟩,
          ⟨"tools/list", 1500000000⟩, ⟨"tools/call", 1999999999⟩,
          ⟨"tools/call", 2000000000⟩] ∧
      SlidingWindowRun 2 1 limiter answers :=
  checkAll_slidingWindowRun 2 1 _ (by decide) (by decide)

end RateLimiter

/-! ## The interceptor -/

structure InterceptorStats where
  totalIntercepted : UInt64 := 0
  totalModified : UInt64 := 0
  totalBlocked : UInt64 := 0
  avgProcessingTimeMs : Float := 0.0
  lastProcessed : Option DateTime := none

structure RateLimitInterceptor where
  name : String
  stats : InterceptorStats
  limiter : RateLimiter

namespace RateLimitInterceptor

def new (maxRequests windowSecs : ℕ) : RateLimitInterceptor where
  name := "RateLimitInterceptor"
  stats := {}
  limiter := RateLimiter.new maxRequests windowSecs

def permissive : RateLimitInterceptor := new 100 60

def moderate : RateLimitInterceptor := new 30 60

def strict : RateLimitInterceptor := new 10 60

def priority (_ : RateLimitInterceptor) : UInt32 := 30

def shouldIntercept (_ : RateLimitInterceptor) (context : MessageContext) :
    Bool :=
  decide (context.direction = .outgoing) && context.message.method.isSome

/-- The instants and times that one call reads from the clocks. -/
structure Clock where
  checked : ℕ
  rated : ℕ
  processed : DateTime
  elapsedMillis : ℕ

def recorded (stats : InterceptorStats) (clock : Clock) : InterceptorStats :=
  let total := stats.totalIntercepted + 1
  { stats with
    totalIntercepted := total
    lastProcessed := some clock.processed
    avgProcessingTimeMs :=
      (stats.avgProcessingTimeMs * (total - 1).toFloat +
        Float.ofNat clock.elapsedMillis) / total.toFloat }

def exceeded (method : String) (currentRate : ℕ) : String :=
  "Rate limit exceeded for method '" ++ method ++ "' (" ++
    toString currentRate ++ "/window)"

def intercept (self : RateLimitInterceptor) (context : MessageContext)
    (clock : Clock) : Option (RateLimitInterceptor × InterceptionResult) :=
  let method := context.message.method.getD "unknown"
  (self.limiter.checkAndRecord method clock.checked).bind
    fun (limiter, allowed) =>
      (limiter.getCurrentRate method clock.rated).map fun currentRate =>
        let stats := recorded self.stats clock
        if allowed then
          ({ self with limiter := limiter, stats := stats },
            .passThrough context.message)
        else
          ({ self with
              limiter := limiter
              stats := { stats with totalBlocked := stats.totalBlocked + 1 } },
            .blocked (exceeded method currentRate))

/-- The message is blocked, with the rate that was found, exactly when the
limiter refuses the call; otherwise it passes as it is. -/
theorem intercept_eq_some {self next : RateLimitInterceptor}
    {context : MessageContext} {clock : Clock} {result : InterceptionResult}
    (hintercept : self.intercept context clock = some (next, result)) :
    ∃ allowed currentRate,
      self.limiter.checkAndRecord (context.message.method.getD "unknown")
        clock.checked = some (next.limiter, allowed) ∧
      next.limiter.getCurrentRate (context.message.method.getD "unknown")
        clock.rated = some currentRate ∧
      result = if allowed then .passThrough context.message
        else .blocked (exceeded (context.message.method.getD "unknown")
          currentRate) := by
  rw [intercept, Option.bind_eq_some_iff] at hintercept
  obtain ⟨⟨limiter, allowed⟩, hcheck, hrest⟩ := hintercept
  rw [Option.map_eq_some_iff] at hrest
  obtain ⟨currentRate, hrate, hresult⟩ := hrest
  cases allowed with
  | true =>
      simp only [if_true, Prod.mk.injEq] at hresult
      obtain ⟨hnext, hpassed⟩ := hresult
      subst hnext hpassed
      exact ⟨true, currentRate, hcheck, hrate, rfl⟩
  | false =>
      simp only [Bool.false_eq_true, if_false, Prod.mk.injEq] at hresult
      obtain ⟨hnext, hblocked⟩ := hresult
      subst hnext hblocked
      exact ⟨false, currentRate, hcheck, hrate, rfl⟩

end RateLimitInterceptor
end Transport
end Acdp
