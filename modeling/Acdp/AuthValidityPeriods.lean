import Acdp.AuthGateway

/-!
# Validity periods

A credential is valid for a number of days and a cached verification for a
number of seconds.  Both numbers are unsigned words that are read as signed
ones, turned into a duration of limited range and added to an instant of
limited range.  The addition is described once, for any signed number of
seconds; the periods the code arrives at are then compared with the periods
that were asked for.
-/

namespace Acdp
namespace Auth

/-! ## Adding seconds to an instant -/

namespace DateTime

def InLeapSecond (self : DateTime) : Prop := 1000000000 ≤ self.nanos

instance (self : DateTime) : Decidable self.InLeapSecond :=
  inferInstanceAs (Decidable (_ ≤ _))

/-- The second `seconds` away, leaving a leap second first. -/
def shiftedSecs (self : DateTime) (seconds : ℤ) : ℤ :=
  self.secs + (if self.InLeapSecond ∧ seconds < 0 then 1 else 0) + seconds

def shiftedNanos (self : DateTime) (seconds : ℤ) : ℕ :=
  if self.InLeapSecond ∧ seconds ≠ 0 then self.nanos - 1000000000
  else self.nanos

/-- The duration and the instant it leads to are both representable. -/
def CanShift (self : DateTime) (seconds : ℤ) : Prop :=
  (-9223372036854775 ≤ seconds ∧ seconds ≤ 9223372036854775) ∧
    -8334601228800 ≤ self.shiftedSecs seconds ∧
    self.shiftedSecs seconds ≤ 8210266876799

instance (self : DateTime) (seconds : ℤ) : Decidable (self.CanShift seconds) :=
  inferInstanceAs (Decidable (_ ∧ _))

theorem shiftedNanos_lt (self : DateTime) (seconds : ℤ) :
    self.shiftedNanos seconds < 2000000000 := by
  have hnanos := self.nanos_lt
  unfold shiftedNanos
  split <;> omega

theorem shiftedNanos_leap_second (self : DateTime) (seconds : ℤ) :
    1000000000 ≤ self.shiftedNanos seconds →
      self.shiftedSecs seconds % 60 = 59 := by
  have hnanos := self.nanos_lt
  have hsecs := self.leap_second
  unfold shiftedNanos shiftedSecs InLeapSecond
  split_ifs <;> omega

/-- `self + Duration::seconds(seconds)`; `none` where the library panics. -/
def addSeconds? (self : DateTime) (seconds : ℤ) : Option DateTime :=
  if hshift : self.CanShift seconds then
    some ⟨self.shiftedSecs seconds, self.shiftedNanos seconds,
      hshift.2.1, hshift.2.2, shiftedNanos_lt self seconds,
      shiftedNanos_leap_second self seconds⟩
  else none

theorem addSeconds?_eq_some {self later : DateTime} {seconds : ℤ}
    (hlater : self.addSeconds? seconds = some later) :
    self.CanShift seconds ∧ later.secs = self.shiftedSecs seconds ∧
      later.nanos = self.shiftedNanos seconds := by
  unfold addSeconds? at hlater
  split_ifs at hlater with hshift
  rw [Option.some.injEq] at hlater
  rw [← hlater]
  exact ⟨hshift, rfl, rfl⟩

theorem addSeconds?_isSome_iff (self : DateTime) (seconds : ℤ) :
    (∃ later, self.addSeconds? seconds = some later) ↔
      self.CanShift seconds := by
  constructor
  · rintro ⟨later, hlater⟩
    exact (addSeconds?_eq_some hlater).1
  · intro hshift
    exact ⟨_, dif_pos hshift⟩

/-- Days are added as so many seconds. -/
theorem addDays?_eq_addSeconds? (self : DateTime) (days : ℤ) :
    self.addDays? days = self.addSeconds? (days * 86400) := by
  unfold addDays? addSeconds?
  by_cases hduration :
      days * 86400 < -9223372036854775 ∨ 9223372036854775 < days * 86400
  · rw [if_pos hduration, dif_neg]
    intro hshift
    have hbounds := hshift.1
    omega
  · rw [if_neg hduration]
    have hsecs : self.shiftedSecs (days * 86400) =
        self.secs +
          (if (1000000000 ≤ self.nanos ∧ days ≠ 0) ∧ days < 0 then 1 else 0) +
          days * 86400 := by
      unfold shiftedSecs InLeapSecond
      split_ifs <;> omega
    have hnanos : self.shiftedNanos (days * 86400) =
        if 1000000000 ≤ self.nanos ∧ days ≠ 0 then self.nanos - 1000000000
        else self.nanos := by
      unfold shiftedNanos InLeapSecond
      split_ifs <;> omega
    by_cases hrange : -8334601228800 ≤ self.shiftedSecs (days * 86400) ∧
        self.shiftedSecs (days * 86400) ≤ 8210266876799
    · have hshift : self.CanShift (days * 86400) := by
        refine ⟨?_, hrange⟩
        omega
      rw [dif_pos hshift]
      rw [hsecs] at hrange
      simp only [hrange, hsecs, hnanos]
      rfl
    · have hshift : ¬ self.CanShift (days * 86400) := by
        intro hshift
        exact hrange hshift.2
      rw [dif_neg hshift]
      rw [hsecs] at hrange
      exact dif_neg hrange

/-- Nanoseconds from `start` to `self`; a leap second that either instant
lies in counts when the other is beyond it. -/
def nanosSince (self start : DateTime) : ℤ :=
  (self.secs - start.secs +
      (if start.InLeapSecond ∧ start.secs < self.secs then 1
      else if self.InLeapSecond ∧ self.secs < start.secs then -1
      else 0)) * 1000000000 + (self.nanos - start.nanos)

theorem nanosSince_of_addSeconds? {self later : DateTime} {seconds : ℤ}
    (hlater : self.addSeconds? seconds = some later) :
    later.nanosSince self = seconds * 1000000000 := by
  obtain ⟨_, hsecs, hnanos⟩ := addSeconds?_eq_some hlater
  have hself := self.nanos_lt
  unfold shiftedSecs InLeapSecond at hsecs
  unfold shiftedNanos InLeapSecond at hnanos
  unfold nanosSince InLeapSecond
  split_ifs at hsecs hnanos ⊢ <;> omega

/-- Compared with a reading of the clock, which lies in no leap second, the
instant so many seconds away is in the past when more than these seconds have
passed. -/
theorem addSeconds?_lt_iff {self later now : DateTime} {seconds : ℤ}
    (hlater : self.addSeconds? seconds = some later)
    (hnow : ¬ now.InLeapSecond) :
    later < now ↔ seconds * 1000000000 < now.nanosSince self := by
  obtain ⟨_, hsecs, hnanos⟩ := addSeconds?_eq_some hlater
  have hself := self.nanos_lt
  change later.secs < now.secs ∨
    later.secs = now.secs ∧ later.nanos < now.nanos ↔ _
  unfold shiftedSecs InLeapSecond at hsecs
  unfold shiftedNanos InLeapSecond at hnanos
  unfold InLeapSecond at hnow
  unfold nanosSince InLeapSecond
  split_ifs at hsecs hnanos ⊢ <;> omega

end DateTime

/-! ## Cached verifications -/

/-- A reading of `Utc::now()`; the system clock has no leap seconds. -/
structure ClockReading where
  instant : DateTime
  notLeap : ¬ instant.InLeapSecond

structure VerificationCacheEntry where
  credentialId : Uuid
  result : VerificationResult
  cachedAt : DateTime
  ttlSeconds : UInt64

theorem u64AsI64_of_lt {value : UInt64} (hlow : value.toNat < 2 ^ 63) :
    u64AsI64 value = value.toNat := by
  rw [u64AsI64, if_pos hlow]

theorem u64AsI64_of_ge {value : UInt64} (hhigh : 2 ^ 63 ≤ value.toNat) :
    u64AsI64 value = (value.toNat : ℤ) - 2 ^ 64 := by
  rw [u64AsI64, if_neg (not_lt.mpr hhigh)]

namespace VerificationCacheEntry

/-- `none` where the duration or the addition panics. -/
def isExpired (self : VerificationCacheEntry) (now : ClockReading) :
    Option Bool := do
  let expiry ← self.cachedAt.addSeconds? (u64AsI64 self.ttlSeconds)
  some (decide (expiry < now.instant))

theorem isExpired_eq_some_iff (self : VerificationCacheEntry)
    (now : ClockReading) (verdict : Bool) :
    self.isExpired now = some verdict ↔
      self.cachedAt.CanShift (u64AsI64 self.ttlSeconds) ∧
        (verdict = true ↔
          u64AsI64 self.ttlSeconds * 1000000000 <
            now.instant.nanosSince self.cachedAt) := by
  unfold isExpired
  cases hexpiry : self.cachedAt.addSeconds? (u64AsI64 self.ttlSeconds) with
  | none =>
      have hshift :
          ¬ self.cachedAt.CanShift (u64AsI64 self.ttlSeconds) := by
        rw [← DateTime.addSeconds?_isSome_iff, hexpiry]
        simp
      simp [hshift]
  | some expiry =>
      have hlater := DateTime.addSeconds?_lt_iff hexpiry now.notLeap
      have hshift := (DateTime.addSeconds?_eq_some hexpiry).1
      rw [← hlater]
      cases verdict <;> simp [hshift]

/-- Expired exactly when more than the time to live has passed. -/
def ExpiresOnTime (self : VerificationCacheEntry) (now : ClockReading) :
    Prop :=
  self.isExpired now = some (decide
    ((self.ttlSeconds.toNat : ℤ) * 1000000000 <
      now.instant.nanosSince self.cachedAt))

/-- No two representable instants are as far apart as a word that reads as
negative. -/
theorem not_passed {ttl : ℕ} (hhigh : 2 ^ 63 ≤ ttl) (now start : DateTime) :
    ¬ (ttl : ℤ) * 1000000000 < now.nanosSince start := by
  have hupper := now.secs_upper
  have hlower := start.secs_lower
  have hnanos := now.nanos_lt
  unfold DateTime.nanosSince
  split_ifs <;> omega

theorem expiresOnTime_iff (self : VerificationCacheEntry)
    (now : ClockReading) :
    self.ExpiresOnTime now ↔
      self.cachedAt.CanShift self.ttlSeconds.toNat ∨
        (self.cachedAt.CanShift (self.ttlSeconds.toNat - 2 ^ 64) ∧
          now.instant.nanosSince self.cachedAt ≤
            (self.ttlSeconds.toNat - 2 ^ 64) * 1000000000) := by
  unfold ExpiresOnTime
  rw [isExpired_eq_some_iff, decide_eq_true_eq]
  have hword := self.ttlSeconds.toNat_lt
  rcases Nat.lt_or_ge self.ttlSeconds.toNat (2 ^ 63) with hlow | hhigh
  · have hwrapped :
        ¬ self.cachedAt.CanShift (self.ttlSeconds.toNat - 2 ^ 64) := by
      intro hshift
      have hduration := hshift.1.1
      omega
    rw [u64AsI64_of_lt hlow]
    simp only [hwrapped, iff_self, and_true, false_and, or_false]
  · have hforward : ¬ self.cachedAt.CanShift self.ttlSeconds.toNat := by
      intro hshift
      have hduration := hshift.1.2
      omega
    have hnever := not_passed hhigh now.instant self.cachedAt
    rw [u64AsI64_of_ge hhigh]
    simp only [hnever, hforward, false_iff, false_or, not_lt]

end VerificationCacheEntry

/-! ## Issued credentials -/

namespace ACDPCredential

variable {F G : Type}

def issuedAt : ACDPCredential F G → DateTime
  | .identityBound cred => cred.issuedAt
  | .anonymous cred => cred.issuedAt
  | .hybrid cred => cred.issuedAt

end ACDPCredential

namespace ACDPGateway

variable {F G Coins SecretKey : Type}

section Periods

variable [Field F] [AddCommGroup G] [Module F G]

/-- The anonymous part of the requested credential cannot be issued. -/
def ArcRefused (serde : SerdeBackend F G Coins)
    (request : CredentialIssuanceRequest) (draw : IssuanceDraw F) : Prop :=
  request.credentialType ≠ .identityBound ∧
    ∃ e, issueArcCredential serde.toArcBackend
      request.capabilities.rateLimit.maxPresentations draw = .error e

theorem buildCredential_eq_error_iff (serde : SerdeBackend F G Coins)
    (ed25519 : Ed25519 SecretKey) (gateway : ACDPGateway SecretKey)
    (principal : Principal) (agent : Agent)
    (request : CredentialIssuanceRequest) (expiresAt : DateTime)
    (draw : IssuanceDraw F) :
    (∃ e, gateway.buildCredential serde ed25519 principal agent request
        expiresAt draw = .error e) ↔
      ArcRefused serde request draw := by
  unfold buildCredential ArcRefused
  cases htype : request.credentialType with
  | identityBound => simp
  | anonymous =>
      cases issueArcCredential serde.toArcBackend
          request.capabilities.rateLimit.maxPresentations draw with
      | error e => simp [Bind.bind, Except.bind]
      | ok arcCredential => simp [Bind.bind, Except.bind]
  | hybrid =>
      cases issueArcCredential serde.toArcBackend
          request.capabilities.rateLimit.maxPresentations draw with
      | error e => simp [Bind.bind, Except.bind]
      | ok arcCredential => simp [Bind.bind, Except.bind]

theorem issuedAt_of_buildCredential {serde : SerdeBackend F G Coins}
    {ed25519 : Ed25519 SecretKey} {gateway : ACDPGateway SecretKey}
    {principal : Principal} {agent : Agent}
    {request : CredentialIssuanceRequest} {expiresAt : DateTime}
    {draw : IssuanceDraw F} {credential : ACDPCredential F G}
    (hbuild : gateway.buildCredential serde ed25519 principal agent request
      expiresAt draw = .ok credential) :
    credential.issuedAt = draw.now := by
  unfold buildCredential at hbuild
  cases htype : request.credentialType with
  | identityBound =>
      rw [htype, Except.ok.injEq] at hbuild
      rw [← hbuild]
      rfl
  | anonymous =>
      rw [htype] at hbuild
      cases harc : issueArcCredential serde.toArcBackend
          request.capabilities.rateLimit.maxPresentations draw with
      | error e => simp [harc, Bind.bind, Except.bind] at hbuild
      | ok arcCredential =>
          simp only [harc, Except.ok.injEq, Bind.bind, Except.bind] at hbuild
          rw [← hbuild]
          rfl
  | hybrid =>
      rw [htype] at hbuild
      cases harc : issueArcCredential serde.toArcBackend
          request.capabilities.rateLimit.maxPresentations draw with
      | error e => simp [harc, Bind.bind, Except.bind] at hbuild
      | ok arcCredential =>
          simp only [harc, Except.ok.injEq, Bind.bind, Except.bind] at hbuild
          rw [← hbuild]
          rfl

/-- No panic, and what is issued expires the requested number of days after
it was issued. -/
def IssuesForDays (serde : SerdeBackend F G Coins)
    (validator : ValidatorBackend) (ed25519 : Ed25519 SecretKey)
    (gateway : ACDPGateway SecretKey) (idJag : IDJAGToken)
    (request : CredentialIssuanceRequest) (draw : IssuanceDraw F) : Prop :=
  gateway.issueCredential serde validator ed25519 idJag request draw ≠ none ∧
    ∀ response,
      gateway.issueCredential serde validator ed25519 idJag request draw =
          some (.ok response) →
        response.expiresAt.nanosSince response.credential.issuedAt =
          request.durationDays.toNat * 86400 * 1000000000

/-- What one issuance comes to once the identities are validated. -/
theorem issuesForDays_of_validated {serde : SerdeBackend F G Coins}
    {validator : ValidatorBackend} {ed25519 : Ed25519 SecretKey}
    {gateway : ACDPGateway SecretKey} {idJag : IDJAGToken}
    {request : CredentialIssuanceRequest} {draw : IssuanceDraw F}
    {principal : Principal} {agent : Agent}
    (hidentities : gateway.validatedIdentities validator ed25519 idJag
      request draw.tokenCheckedAt = .ok (principal, agent)) :
    gateway.IssuesForDays serde validator ed25519 idJag request draw ↔
      draw.now.CanShift (u64AsI64 request.durationDays * 86400) ∧
        (u64AsI64 request.durationDays = request.durationDays.toNat ∨
          ArcRefused serde request draw) := by
  unfold IssuesForDays issueCredential
  rw [hidentities, DateTime.addDays?_eq_addSeconds?]
  cases hexpires : draw.now.addSeconds?
      (u64AsI64 request.durationDays * 86400) with
  | none =>
      have hshift : ¬ draw.now.CanShift
          (u64AsI64 request.durationDays * 86400) := by
        rw [← DateTime.addSeconds?_isSome_iff, hexpires]
        simp
      simp [hshift]
  | some expiresAt =>
      have hshift := (DateTime.addSeconds?_eq_some hexpires).1
      have hperiod := DateTime.nanosSince_of_addSeconds? hexpires
      have hrefused := buildCredential_eq_error_iff serde ed25519 gateway
        principal agent request expiresAt draw
      cases hbuild : gateway.buildCredential serde ed25519 principal agent
          request expiresAt draw with
      | error e =>
          rw [hbuild] at hrefused
          have harc : ArcRefused serde request draw :=
            hrefused.mp ⟨e, rfl⟩
          simp [hshift, harc, hbuild]
      | ok credential =>
          rw [hbuild] at hrefused
          have harc : ¬ ArcRefused serde request draw := by
            rw [← hrefused]
            simp
          have hissued := issuedAt_of_buildCredential hbuild
          simp only [hbuild, hshift, harc, Option.bind_eq_bind,
            Option.bind_some, ne_eq, reduceCtorEq, not_false_eq_true,
            Option.some.injEq, Except.ok.injEq, true_and, or_false,
            forall_eq', hissued, hperiod]
          constructor
          · intro hsame
            omega
          · intro hsame
            rw [hsame]

theorem issuesForDays_iff (serde : SerdeBackend F G Coins)
    (validator : ValidatorBackend) (ed25519 : Ed25519 SecretKey)
    (gateway : ACDPGateway SecretKey) (idJag : IDJAGToken)
    (request : CredentialIssuanceRequest) (draw : IssuanceDraw F) :
    gateway.IssuesForDays serde validator ed25519 idJag request draw ↔
      (∃ e, gateway.validatedIdentities validator ed25519 idJag request
        draw.tokenCheckedAt = .error e) ∨
      draw.now.CanShift (request.durationDays.toNat * 86400) ∨
      (draw.now.CanShift ((request.durationDays.toNat - 2 ^ 64) * 86400) ∧
        ArcRefused serde request draw) := by
  cases hidentities : gateway.validatedIdentities validator ed25519 idJag
      request draw.tokenCheckedAt with
  | error e => simp [IssuesForDays, issueCredential, hidentities]
  | ok identities =>
      obtain ⟨principal, agent⟩ := identities
      rw [issuesForDays_of_validated hidentities]
      have hword := request.durationDays.toNat_lt
      rcases Nat.lt_or_ge request.durationDays.toNat (2 ^ 63) with
        hlow | hhigh
      · have hwrapped : ¬ draw.now.CanShift
            ((request.durationDays.toNat - 2 ^ 64) * 86400) := by
          intro hshift
          have hduration := hshift.1.1
          omega
        rw [u64AsI64_of_lt hlow]
        simp only [hwrapped, true_or, and_true, false_and, or_false,
          reduceCtorEq, exists_false, false_or]
      · have hforward : ¬ draw.now.CanShift
            (request.durationDays.toNat * 86400) := by
          intro hshift
          have hduration := hshift.1.2
          omega
        have hdiffers : (request.durationDays.toNat : ℤ) - 2 ^ 64 ≠
            request.durationDays.toNat := by
          omega
        rw [u64AsI64_of_ge hhigh]
        simp only [hforward, hdiffers, reduceCtorEq, exists_false, false_or]

/-- Both periods are kept exactly when the instants they lead to can be
represented; a word that reads as negative is harmless only where nothing is
issued, or where the clock stands before the instant it wraps to. -/
theorem validityPeriods_iff (serde : SerdeBackend F G Coins)
    (validator : ValidatorBackend) (ed25519 : Ed25519 SecretKey)
    (gateway : ACDPGateway SecretKey) (idJag : IDJAGToken)
    (request : CredentialIssuanceRequest) (draw : IssuanceDraw F)
    (entry : VerificationCacheEntry) (now : ClockReading) :
    (gateway.IssuesForDays serde validator ed25519 idJag request draw ↔
      (∃ e, gateway.validatedIdentities validator ed25519 idJag request
        draw.tokenCheckedAt = .error e) ∨
      draw.now.CanShift (request.durationDays.toNat * 86400) ∨
      (draw.now.CanShift ((request.durationDays.toNat - 2 ^ 64) * 86400) ∧
        ArcRefused serde request draw)) ∧
    (entry.ExpiresOnTime now ↔
      entry.cachedAt.CanShift entry.ttlSeconds.toNat ∨
        (entry.cachedAt.CanShift (entry.ttlSeconds.toNat - 2 ^ 64) ∧
          now.instant.nanosSince entry.cachedAt ≤
            (entry.ttlSeconds.toNat - 2 ^ 64) * 1000000000)) :=
  ⟨issuesForDays_iff serde validator ed25519 gateway idJag request draw,
    entry.expiresOnTime_iff now⟩

end Periods

end ACDPGateway

/-- A duration of `u64::MAX` days issues a credential that expired the day
before, one of a billion days panics, and so does the expiry of an entry
that is kept for `2^63` seconds. -/
theorem validityPeriods_fail :
    let yesterday : CredentialIssuanceRequest :=
      { smallIssuance .identityBound with durationDays := 18446744073709551615 }
    let never : CredentialIssuanceRequest :=
      { smallIssuance .identityBound with durationDays := 1000000000 }
    let entry : VerificationCacheEntry :=
      { credentialId := FixedBytes.filled 16 1
        result := VerificationResult.failure "expired" smallInstant
        cachedAt := smallInstant
        ttlSeconds := 9223372036854775808 }
    (∃ response,
      smallGateway.issueCredential smallSerde smallValidator smallEd25519
        smallToken yesterday smallDraw = some (.ok response) ∧
      response.expiresAt < response.credential.issuedAt) ∧
    smallGateway.issueCredential smallSerde smallValidator smallEd25519
      smallToken never smallDraw = none ∧
    ∀ now, entry.isExpired now = none := by
  intro yesterday never entry
  have hidentities (request : CredentialIssuanceRequest)
      (hagent : request.agentId = "agent://test")
      (hkey : request.agentPublicKey = hexEncode (List.replicate 32 9)) :
      ∃ identities, smallGateway.validatedIdentities smallValidator
        smallEd25519 smallToken request smallDraw.tokenCheckedAt =
        .ok identities := by
    simp only [ACDPGateway.validatedIdentities, ACDPGateway.requestedAgent,
      hagent, hkey]
    exact ⟨_, rfl⟩
  have hwrapped : u64AsI64 yesterday.durationDays = -1 := by decide
  have hbeyond : u64AsI64 never.durationDays = 1000000000 := by decide
  refine ⟨?_, ?_, ?_⟩
  · obtain ⟨⟨principal, agent⟩, hvalid⟩ := hidentities yesterday rfl rfl
    unfold ACDPGateway.issueCredential
    rw [hvalid, hwrapped]
    refine ⟨_, rfl, ?_⟩
    have hearlier : (1699913600 : ℤ) < 1700000000 := by decide
    exact Or.inl hearlier
  · obtain ⟨⟨principal, agent⟩, hvalid⟩ := hidentities never rfl rfl
    unfold ACDPGateway.issueCredential
    rw [hvalid, hbeyond]
    rfl
  · intro now
    have hexpiry : smallInstant.addSeconds? (-9223372036854775808) = none :=
      dif_neg (by decide)
    have hword : u64AsI64 entry.ttlSeconds = -9223372036854775808 := by
      decide
    unfold VerificationCacheEntry.isExpired
    rw [hword, show entry.cachedAt = smallInstant from rfl, hexpiry]
    rfl

end Auth
end Acdp
