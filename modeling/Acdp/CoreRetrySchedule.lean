import Acdp.AuthRateDelegation
import Acdp.CoreClient

/-!
# The schedule of the retries

After a failed attempt that is not the last the client waits for the base
delay times a power of two.  The power, the product and the number of attempts
in the log each have a bound of their own; below all of them the schedule is
what it looks like, and above the first one that is met it is not.
-/

namespace Acdp
namespace Core

open Auth (Duration)

/-! ## The arithmetic of one delay -/

theorem multiplyDuration_eq_none_iff (duration : Duration)
    (factor : UInt32) :
    multiplyDuration duration factor = none ↔
      2 ^ 64 * 1000000000 ≤ duration.asNanos * factor.toNat := by
  unfold multiplyDuration Auth.Duration.asNanos
  rw [Nat.add_mul, Nat.mul_right_comm]
  dsimp only
  split_ifs with hfits
  · simp only [false_iff]
    omega
  · simp only [true_iff]
    omega

theorem asNanos_multiplyDuration {duration product : Duration}
    {factor : UInt32}
    (hproduct : multiplyDuration duration factor = some product) :
    product.asNanos = duration.asNanos * factor.toNat := by
  unfold multiplyDuration at hproduct
  dsimp only at hproduct
  split_ifs at hproduct with hfits
  obtain rfl := Option.some.inj hproduct
  unfold Auth.Duration.asNanos
  rw [Nat.add_mul, Nat.mul_right_comm]
  dsimp only
  rw [UInt64.toNat_ofNat_of_lt' hfits]
  omega

theorem twoPow_of_lt (overflowChecks : Bool) {attempt : ℕ}
    (hattempt : attempt < 32) :
    twoPow overflowChecks attempt = some (UInt32.ofNat (2 ^ attempt)) :=
  if_pos hattempt

theorem toNat_ofNat_two_pow {attempt : ℕ} (hattempt : attempt < 32) :
    (UInt32.ofNat (2 ^ attempt)).toNat = 2 ^ attempt := by
  apply UInt32.toNat_ofNat_of_lt'
  exact Nat.pow_lt_pow_right (by decide) hattempt

/-! ## What a schedule is to be -/

namespace McpClient

/-- The event every attempt begins with. -/
def opensAttempt : Event → Bool
  | .intercepted _ .outgoing _ => true
  | _ => false

def attemptsMade (events : List Event) : ℕ := events.countP opensAttempt

def sleptFor : Event → Option Duration
  | .slept delay => some delay
  | _ => none

def delays (events : List Event) : List Duration := events.filterMap sleptFor

/-- The power, the product or the number of attempts in the log is out of the
range of its type. -/
def Overflows (debugLogged : Bool) (config : ClientConfig) (attempt : ℕ) :
    Prop :=
  2 ^ 32 ≤ 2 ^ attempt ∨
    2 ^ 64 * 1000000000 ≤ config.retryBaseDelay.asNanos * 2 ^ attempt ∨
    (debugLogged = true ∧ 2 ^ 32 ≤ config.maxRetries.toNat + 1)

/-- All attempts are made, no delay computed after one of them overflows, and
no delay is shorter than one before it. -/
structure WellScheduled (debugLogged : Bool) (config : ClientConfig)
    (events : List Event) : Prop where
  attempts : attemptsMade events = config.maxRetries.toNat + 1
  exact : ∀ attempt, attempt < attemptsMade events →
    attempt < config.maxRetries.toNat →
      ¬ Overflows debugLogged config attempt
  growing : (delays events).Pairwise
    (fun earlier later => earlier.asNanos ≤ later.asNanos)

/-- There are no retries, or at most 32 with a last delay in range. -/
def ScheduleFits (config : ClientConfig) : Prop :=
  config.maxRetries.toNat = 0 ∨
    (config.maxRetries.toNat ≤ 32 ∧
      config.retryBaseDelay.asNanos * 2 ^ (config.maxRetries.toNat - 1) <
        2 ^ 64 * 1000000000)

theorem not_overflows_of_fits {debugLogged : Bool} {config : ClientConfig}
    {attempt : ℕ} (hfits : ScheduleFits config)
    (hattempt : attempt < config.maxRetries.toNat) :
    ¬ Overflows debugLogged config attempt := by
  rcases hfits with hnone | ⟨hretries, hlast⟩
  · omega
  · rintro (hpower | hproduct | ⟨_, hcount⟩)
    · have hlt : 2 ^ attempt < 2 ^ 32 :=
        Nat.pow_lt_pow_right (by decide) (by omega)
      omega
    · have hpower : 2 ^ attempt ≤ 2 ^ (config.maxRetries.toNat - 1) :=
        Nat.pow_le_pow_right (by decide) (by omega)
      have hle := Nat.mul_le_mul_left config.retryBaseDelay.asNanos hpower
      omega
    · omega

theorem scheduleFits_of_exact {debugLogged : Bool} {config : ClientConfig}
    (hexact : ∀ attempt, attempt < config.maxRetries.toNat →
      ¬ Overflows debugLogged config attempt) :
    ScheduleFits config := by
  by_cases hnone : config.maxRetries.toNat = 0
  · exact Or.inl hnone
  · right
    have hlast := hexact (config.maxRetries.toNat - 1) (by omega)
    unfold Overflows at hlast
    push Not at hlast
    obtain ⟨hpower, hproduct, _⟩ := hlast
    refine ⟨?_, hproduct⟩
    have hexponent := (Nat.pow_lt_pow_iff_right (by decide)).mp hpower
    omega

/-! ## The loop -/

variable {call : Call}

theorem attemptsMade_append (events later : List Event) :
    attemptsMade (events ++ later) =
      attemptsMade events + attemptsMade later :=
  List.countP_append

theorem delays_append (events later : List Event) :
    delays (events ++ later) = delays events ++ delays later :=
  List.filterMap_append

theorem attempt_events (call : Call) (attempt : ℕ) :
    attemptsMade (call.sent attempt).events = 1 ∧
      delays (call.sent attempt).events = [] := by
  unfold Call.sent sendSingleRequest
  dsimp only
  cases interceptOutgoing call.metadata (call.attempts attempt)
      call.request with
  | error e => exact ⟨rfl, rfl⟩
  | ok interception =>
      dsimp only
      split_ifs
      · exact ⟨rfl, rfl⟩
      · cases (call.attempts attempt).transport
          (finalRequest interception call.request) call.timeout with
        | error e => exact ⟨rfl, rfl⟩
        | ok response =>
            unfold receive
            dsimp only
            cases interceptIncoming call.metadata (call.attempts attempt)
                response with
            | error e => exact ⟨rfl, rfl⟩
            | ok incoming =>
                dsimp only
                split_ifs
                · exact ⟨rfl, rfl⟩
                · exact ⟨rfl, rfl⟩

theorem retryDelay_of_not_overflows {attempt : ℕ}
    (hexact : ¬ Overflows call.debugLogged call.config attempt) :
    ∃ delay, call.retryDelay attempt = some delay ∧
      delay.asNanos =
        call.config.retryBaseDelay.asNanos * 2 ^ attempt := by
  unfold Overflows at hexact
  push Not at hexact
  obtain ⟨hpower, hproduct, hcount⟩ := hexact
  have hattempt := (Nat.pow_lt_pow_iff_right (by decide)).mp hpower
  have hpanics : ¬ call.countPanics = true := by
    unfold Call.countPanics
    simp only [Bool.and_eq_true, beq_iff_eq]
    rintro ⟨⟨hlogged, _⟩, hmax⟩
    have hlarge := hcount hlogged
    rw [hmax] at hlarge
    exact absurd hlarge (by decide)
  have hfactor := toNat_ofNat_two_pow hattempt
  rw [Call.retryDelay, if_neg hpanics, twoPow_of_lt _ hattempt,
    Option.bind_some]
  cases hdelay : multiplyDuration call.config.retryBaseDelay
      (UInt32.ofNat (2 ^ attempt)) with
  | none =>
      rw [multiplyDuration_eq_none_iff, hfactor] at hdelay
      omega
  | some delay =>
      refine ⟨delay, rfl, ?_⟩
      rw [asNanos_multiplyDuration hdelay, hfactor]

/-- One turn: the attempt, the sleep and the rest of the run. -/
theorem retry_of_error {remaining attempt : ℕ} {e : McpError}
    {delay : Duration} (stats : ClientStats)
    (hfailed : (call.sent attempt).result = .error e)
    (hdelay : call.retryDelay attempt = some delay) :
    ∃ later, (call.retry (remaining + 1) attempt stats).events =
      (call.sent attempt).events ++
        .slept delay :: (call.retry remaining (attempt + 1) later).events := by
  rw [Call.retry]
  simp only [hfailed, hdelay]
  exact ⟨_, rfl⟩

theorem retry_zero_events {attempt : ℕ} {e : McpError} (stats : ClientStats)
    (hfailed : (call.sent attempt).result = .error e) :
    (call.retry 0 attempt stats).events = (call.sent attempt).events := by
  rw [Call.retry]
  simp only [hfailed]

/-- Where all attempts fail and no delay overflows, all are made, and the
delays grow from that of the first attempt on. -/
theorem retry_schedule (call : Call) {remaining attempt : ℕ}
    (hfailing : ∀ later ≤ remaining,
      ∃ e, (call.sent (attempt + later)).result = .error e)
    (hexact : ∀ later < remaining,
      ¬ Overflows call.debugLogged call.config (attempt + later))
    (stats : ClientStats) :
    attemptsMade (call.retry remaining attempt stats).events =
        remaining + 1 ∧
      (∀ delay ∈ delays (call.retry remaining attempt stats).events,
        call.config.retryBaseDelay.asNanos * 2 ^ attempt ≤
          delay.asNanos) ∧
      (delays (call.retry remaining attempt stats).events).Pairwise
        (fun earlier later => earlier.asNanos ≤ later.asNanos) := by
  induction remaining generalizing attempt stats with
  | zero =>
      obtain ⟨hopened, hslept⟩ := attempt_events call attempt
      obtain ⟨e, hfailed⟩ := hfailing 0 (Nat.le_refl 0)
      rw [Nat.add_zero] at hfailed
      rw [retry_zero_events stats hfailed, hopened, hslept]
      exact ⟨rfl, fun _ hnone => absurd hnone List.not_mem_nil, .nil⟩
  | succ remaining ih =>
      obtain ⟨hopened, hslept⟩ := attempt_events call attempt
      obtain ⟨e, hfailed⟩ := hfailing 0 (Nat.zero_le _)
      obtain ⟨delay, hdelay, hnanos⟩ :=
        retryDelay_of_not_overflows (hexact 0 (Nat.succ_pos _))
      obtain ⟨later, hevents⟩ : ∃ later,
          (call.retry (remaining + 1) attempt stats).events =
            (call.sent attempt).events ++ .slept delay ::
              (call.retry remaining (attempt + 1) later).events :=
        retry_of_error stats hfailed hdelay
      have hshift : ∀ k, attempt + 1 + k = attempt + (k + 1) := by
        intro k
        omega
      have hnextFailing : ∀ k ≤ remaining,
          ∃ e, (call.sent (attempt + 1 + k)).result = .error e := by
        intro k hk
        rw [hshift]
        exact hfailing (k + 1) (Nat.succ_le_succ hk)
      have hnextExact : ∀ k < remaining,
          ¬ Overflows call.debugLogged call.config (attempt + 1 + k) := by
        intro k hk
        rw [hshift]
        exact hexact (k + 1) (Nat.succ_lt_succ hk)
      obtain ⟨hmade, hbound, hgrowing⟩ := ih hnextFailing hnextExact later
      have hall : attemptsMade
          (call.retry (remaining + 1) attempt stats).events =
            remaining + 1 + 1 := by
        rw [hevents, attemptsMade_append, hopened, ← hmade, Nat.add_comm]
        rfl
      have hdelays : delays (call.retry (remaining + 1) attempt stats).events =
          delay :: delays
            (call.retry remaining (attempt + 1) later).events := by
        rw [hevents, delays_append, hslept]
        rfl
      have hdouble : ∀ other ∈ delays
          (call.retry remaining (attempt + 1) later).events,
            delay.asNanos ≤ other.asNanos := by
        intro other hother
        have hle := hbound other hother
        rw [Nat.pow_succ, ← Nat.mul_assoc] at hle
        rw [Nat.add_zero] at hnanos
        omega
      refine ⟨hall, ?_, ?_⟩
      · rw [hdelays, List.forall_mem_cons]
        rw [Nat.add_zero] at hnanos
        exact ⟨hnanos.ge, fun other hother =>
          hnanos.ge.trans (hdouble other hother)⟩
      · rw [hdelays]
        exact .cons hdouble hgrowing

/-- The run is well scheduled just when the schedule fits. -/
theorem wellScheduled_retry_iff (call : Call)
    (hfailing : ∀ attempt ≤ call.config.maxRetries.toNat,
      ∃ e, (call.sent attempt).result = .error e)
    (stats : ClientStats) :
    WellScheduled call.debugLogged call.config
        (call.retry call.config.maxRetries.toNat 0 stats).events ↔
      ScheduleFits call.config := by
  constructor
  · intro hscheduled
    apply scheduleFits_of_exact
    intro attempt hattempt
    apply hscheduled.exact attempt _ hattempt
    rw [hscheduled.attempts]
    omega
  · intro hfits
    obtain ⟨hmade, _, hgrowing⟩ :=
      retry_schedule call
        (fun later hlater => by
          rw [Nat.zero_add]
          exact hfailing later hlater)
        (fun later hlater => by
          rw [Nat.zero_add]
          exact not_overflows_of_fits hfits hlater)
        stats
    exact ⟨hmade, fun attempt _ hattempt =>
      not_overflows_of_fits hfits hattempt, hgrowing⟩

/-- For a request whose attempts all fail, in any build and with any log, the
schedule is as it should be exactly when there are no retries, or at most 32
of them with a last delay below the bound of durations. -/
theorem retries_wellScheduled_iff (overflowChecks debugLogged : Bool)
    (client : McpClient) (attempts : ℕ → Attempt) (request : JsonRpcRequest)
    (timeout : Duration)
    (hfailing : ∀ attempt ≤ client.config.maxRetries.toNat,
      ∃ e, (sendSingleRequest client.interceptionMetadata (attempts attempt)
        request timeout).result = .error e) :
    WellScheduled debugLogged client.config
        (client.sendRequestWithRetries overflowChecks attempts request timeout
          debugLogged).events ↔
      ScheduleFits client.config :=
  wellScheduled_retry_iff ⟨overflowChecks, client.config,
    client.interceptionMetadata, attempts, request, timeout, debugLogged⟩
    hfailing client.stats

/-! ## Settings that meet a bound -/

def unreachable : Attempt where
  outgoing := .new
  outgoingAt := Auth.smallInstant
  outgoingMillis := 0
  transport _ _ := .error (.transport (.notConnected "stdio" "closed"))
  incoming := .new
  incomingAt := Auth.smallInstant
  incomingMillis := 0

def clientOf (maxRetries : UInt32) (retryBaseDelay : Duration) : McpClient where
  config := ⟨Duration.fromSecs 30, maxRetries, retryBaseDelay⟩
  state := .ready
  stats := {}
  requestCounter := 0
  sessionId := none

def pingRequest : JsonRpcRequest := .new (.number 1) "ping" ⟨.null, .null⟩

theorem unreachable_fails (client : McpClient) (timeout : Duration) :
    ∃ e, (sendSingleRequest client.interceptionMetadata unreachable
      pingRequest timeout).result = .error e :=
  ⟨_, rfl⟩

theorem three_retries_wellScheduled :
    WellScheduled true (clientOf 3 (Duration.fromSecs 1)).config
        ((clientOf 3 (Duration.fromSecs 1)).sendRequestWithRetries true
          (fun _ => unreachable) pingRequest (Duration.fromSecs 30)
          true).events ↔
      ScheduleFits (clientOf 3 (Duration.fromSecs 1)).config :=
  retries_wellScheduled_iff true true _ _ _ _
    (fun _ _ => unreachable_fails _ _)

theorem not_wellScheduled_of_many (overflowChecks : Bool) :
    ¬ WellScheduled false (clientOf 33 (Duration.fromSecs 1)).config
        ((clientOf 33 (Duration.fromSecs 1)).sendRequestWithRetries
          overflowChecks (fun _ => unreachable) pingRequest
          (Duration.fromSecs 30)).events := by
  intro hscheduled
  have hfits : ScheduleFits (clientOf 33 (Duration.fromSecs 1)).config :=
    (wellScheduled_retry_iff ⟨overflowChecks,
      (clientOf 33 (Duration.fromSecs 1)).config, {}, fun _ => unreachable,
      pingRequest, Duration.fromSecs 30, false⟩
      (fun _ _ => unreachable_fails (clientOf 33 (Duration.fromSecs 1)) _)
      {}).mp hscheduled
  rcases hfits with hnone | ⟨hretries, _⟩
  · exact absurd hnone (by decide)
  · exact absurd hretries (by decide)

/-- 33 retries overflow the power, with overflow checks and without. -/
theorem many_retries_overflow :
    ¬ WellScheduled false (clientOf 33 (Duration.fromSecs 1)).config
        ((clientOf 33 (Duration.fromSecs 1)).sendRequestWithRetries true
          (fun _ => unreachable) pingRequest (Duration.fromSecs 30)).events ∧
    ¬ WellScheduled false (clientOf 33 (Duration.fromSecs 1)).config
        ((clientOf 33 (Duration.fromSecs 1)).sendRequestWithRetries false
          (fun _ => unreachable) pingRequest (Duration.fromSecs 30)).events :=
  ⟨not_wellScheduled_of_many true, not_wellScheduled_of_many false⟩

end McpClient

end Core
end Acdp
