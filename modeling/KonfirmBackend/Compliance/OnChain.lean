import KonfirmBackend.Common.Retry

/-!
# The on-chain compliance check

The compliance contract is asked in two languages: by the API before a payment, and by
the reconciler after one. Both make two attempts and let the payer pass when they get no
answer. They differ in what an attempt encloses. The API retries the call that yields an
assembled transaction and reads its result afterwards, the reconciler retries the call with its
result. And the API needs a client, whose promise it keeps in a variable of the module: an
attempt that finds a promise there waits for it, also when it is rejected or hangs, and the
variable is cleared when both attempts have failed.

## Main definitions

- `Attempt` — how the network answers one attempt
- `ClientPromise`, `CheckAnswers` — what a check of the API meets
- `isAllowedOnChain` — the check of the API
- `payerAllowed` — the blocklist and the check
- `isAllowedOnChainRs` — the check of the reconciler

## Main results

- `isAllowedOnChain_eq_false_iff`, `isAllowedOnChainRs_eq_false_iff` — when each of them
  blocks an address
- `checks_agree_iff` — when the two return the same
-/

namespace KonfirmBackend.Compliance

/-- How the network answers an attempt to simulate `is_allowed`. -/
inductive Attempt
  | transportError (err : String)
  | timedOut
  | simulationError (err : String)
  | answered (allowed : Bool)
deriving DecidableEq

def CHECK_TIMEOUT_MS : ℕ := 8000

/-! ## The API -/

/-- `AssembledTransaction`: reading `result` throws after a simulation that failed. -/
structure AssembledTransaction where
  result : Except String Bool

/-- `client.is_allowed`. -/
def clientIsAllowed : Attempt → Call AssembledTransaction
  | .transportError err => .rejected err
  | .timedOut => .pending
  | .simulationError err => .resolved ⟨.error err⟩
  | .answered allowed => .resolved ⟨.ok allowed⟩

/-- A promise of a client: how it stands when the timeout of each attempt fires. It settles
once. -/
structure ClientPromise where
  standing : ℕ → Call Unit
  settled : ∀ i, standing i ≠ .pending → standing (i + 1) = standing i

/-- What a check meets. `cached` is what `clientPromise` holds at the start, `others i` what
checks that run beside this one have stored in it after the attempt `i`, if they have, `made i`
what `Client.from` returns in the attempt `i`. -/
structure CheckAnswers where
  cached : Option ClientPromise
  others : ℕ → Option (Option ClientPromise)
  made : ℕ → ClientPromise
  attempts : ℕ → Attempt

namespace CheckAnswers

/-- `getClient` in the attempt `i`. A promise that has failed the attempt before is still in the
variable. -/
def getClient (c : CheckAnswers) : ℕ → ClientPromise
  | 0 => c.cached.getD (c.made 0)
  | i + 1 =>
    match c.others i with
    | none => c.getClient i
    | some clientPromise => clientPromise.getD (c.made (i + 1))

/-- The retried closure. -/
def attempt (c : CheckAnswers) (i : ℕ) : Call AssembledTransaction :=
  match (c.getClient i).standing i with
  | .resolved _ => clientIsAllowed (c.attempts i)
  | .rejected err => .rejected err
  | .pending => .pending

end CheckAnswers

def isAllowedOnChain (c : CheckAnswers) : Bool :=
  match withRetry 1 CHECK_TIMEOUT_MS c.attempt with
  | .ok tx =>
    match tx.result with
    | .ok allowed => allowed
    | .error _ => true
  | .error _ => true

/-- What the payments and the x402 service ask about a payer: the local blocklist first, the
contract only about an address that is not on it. `none` is a lookup that throws. -/
def payerAllowed (blocked : String → Option Bool) (onChain : String → Bool) (address : String) :
    Option Bool :=
  match blocked address with
  | none => none
  | some true => some false
  | some false => some (onChain address)

theorem payerAllowed_eq_true_iff {blocked : String → Option Bool} {onChain : String → Bool}
    {address : String} : payerAllowed blocked onChain address = some true ↔
      blocked address = some false ∧ onChain address = true := by
  rw [payerAllowed]
  split <;> simp [*]

/-! ## The reconciler -/

/-- `run_check`. -/
def runCheck : Attempt → Call Bool
  | .transportError err => .rejected err
  | .timedOut => .pending
  | .simulationError err => .rejected ("simulation error: " ++ err)
  | .answered allowed => .resolved allowed

/-- The loop of `is_allowed_on_chain` from an attempt on. -/
def attemptFrom (attempts : ℕ → Attempt) : ℕ → ℕ → Bool
  | 0, _ => true
  | left + 1, attempt =>
    match raceTimeout CHECK_TIMEOUT_MS (runCheck (attempts attempt)) with
    | .ok allowed => allowed
    | .error _ => attemptFrom attempts left (attempt + 1)

/-- `is_allowed_on_chain`. -/
def isAllowedOnChainRs (attempts : ℕ → Attempt) : Bool := attemptFrom attempts 2 0

/-! ## What blocks an address -/

variable {attempts : ℕ → Attempt} {c : CheckAnswers}

/-- The network has let the attempt down: only then does the API make another one. -/
def Attempt.Unreachable : Attempt → Prop
  | .transportError _ | .timedOut => True
  | .simulationError _ | .answered _ => False

namespace CheckAnswers

/-- The promise at hand is resolved in time for the attempt. -/
def HasClient (c : CheckAnswers) (i : ℕ) : Prop := (c.getClient i).standing i = .resolved ()

/-- The first attempt that gets through to the network is answered "not allowed". -/
def Denied (c : CheckAnswers) : Prop :=
  ∃ i ≤ 1, (c.HasClient i ∧ c.attempts i = .answered false) ∧
    ∀ j < i, ¬(c.HasClient j ∧ ¬(c.attempts j).Unreachable)

/-- A client that could not be built is not built again, unless another check has cleared the
variable. -/
theorem not_hasClient_succ {i : ℕ} {err : String} (hothers : c.others i = none)
    (hrejected : (c.getClient i).standing i = .rejected err) : ¬c.HasClient (i + 1) := by
  have hkeep : c.getClient (i + 1) = c.getClient i := by rw [getClient, hothers]
  have hsettled := (c.getClient i).settled i (by simp [hrejected])
  rw [HasClient, hkeep, hsettled, hrejected]
  exact fun h => nomatch h

end CheckAnswers

theorem unreachable_iff {a : Attempt} : a.Unreachable ↔ ∀ tx, clientIsAllowed a ≠ .resolved tx := by
  cases a <;> simp [Attempt.Unreachable, clientIsAllowed]

theorem clientIsAllowed_eq_resolved_iff {a : Attempt} {allowed : Bool} :
    clientIsAllowed a = .resolved ⟨.ok allowed⟩ ↔ a = .answered allowed := by
  cases a <;> simp [clientIsAllowed]

theorem CheckAnswers.attempt_eq_resolved_iff {i : ℕ} {tx : AssembledTransaction} :
    c.attempt i = .resolved tx ↔ c.HasClient i ∧ clientIsAllowed (c.attempts i) = .resolved tx := by
  rw [attempt, HasClient]
  cases (c.getClient i).standing i <;> simp

theorem CheckAnswers.attempt_ne_resolved_iff {i : ℕ} :
    (∀ tx, c.attempt i ≠ .resolved tx) ↔ ¬(c.HasClient i ∧ ¬(c.attempts i).Unreachable) := by
  simp only [ne_eq, attempt_eq_resolved_iff, unreachable_iff, not_and, not_not]
  exact forall_comm

theorem runCheck_eq_resolved_iff {a : Attempt} {allowed : Bool} :
    runCheck a = .resolved allowed ↔ a = .answered allowed := by
  cases a <;> simp [runCheck]

/-- The API blocks on a transaction whose result is there and says so. -/
theorem isAllowedOnChain_eq_false : isAllowedOnChain c = false ↔
    withRetry 1 CHECK_TIMEOUT_MS c.attempt = .ok ⟨.ok false⟩ := by
  rw [isAllowedOnChain]
  split
  · next tx htx =>
    obtain ⟨result⟩ := tx
    cases result <;> simp [htx]
  · next err herr => simp [herr]

/-- The first attempt that reaches the network decides. -/
theorem isAllowedOnChain_eq_false_iff : isAllowedOnChain c = false ↔ c.Denied := by
  rw [isAllowedOnChain_eq_false, withRetry_eq_ok_iff, CheckAnswers.Denied]
  simp only [CheckAnswers.attempt_ne_resolved_iff, CheckAnswers.attempt_eq_resolved_iff,
    clientIsAllowed_eq_resolved_iff]

/-- When no client can be built in the first attempt, the second one is in vain, whatever the
contract would say. -/
theorem isAllowedOnChain_of_rejected {err : String} (hothers : c.others 0 = none)
    (hrejected : (c.getClient 0).standing 0 = .rejected err) : isAllowedOnChain c = true := by
  by_contra hdenied
  obtain ⟨i, hi, ⟨hclient, -⟩, -⟩ :=
    isAllowedOnChain_eq_false_iff.mp (Bool.eq_false_iff.mpr hdenied)
  obtain rfl | rfl : i = 0 ∨ i = 1 := by omega
  · rw [CheckAnswers.HasClient, hrejected] at hclient
    cases hclient
  · exact CheckAnswers.not_hasClient_succ hothers hrejected hclient

/-- The reconciler's loop is the retry of `run_check`, that lets pass what fails. -/
theorem attemptFrom_eq_false (left attempt : ℕ) : attemptFrom attempts (left + 1) attempt = false ↔
    retryFrom CHECK_TIMEOUT_MS (fun i => runCheck (attempts i)) left attempt = .ok false := by
  induction left generalizing attempt with
  | zero =>
    rw [attemptFrom, retryFrom]
    cases hrace : raceTimeout CHECK_TIMEOUT_MS (runCheck (attempts attempt)) with
    | ok allowed => simp
    | error err => simp [attemptFrom]
  | succ left ih =>
    rw [attemptFrom, retryFrom]
    cases hrace : raceTimeout CHECK_TIMEOUT_MS (runCheck (attempts attempt)) with
    | ok allowed => simp
    | error err => exact ih (attempt + 1)

/-- The first attempt that is answered decides. -/
theorem isAllowedOnChainRs_eq_false_iff : isAllowedOnChainRs attempts = false ↔
    ∃ i ≤ 1, attempts i = .answered false ∧ ∀ j < i, ∀ allowed, attempts j ≠ .answered allowed := by
  rw [isAllowedOnChainRs, attemptFrom_eq_false, retryFrom_eq_ok_iff]
  simp only [Nat.zero_add, runCheck_eq_resolved_iff, ne_eq]

/-! ## Agreement -/

/-- The outcomes on which the two checks part. -/
inductive CheckAnswers.Parts (c : CheckAnswers) : Prop
  /-- The API takes a failed simulation for an answer and does not ask again. -/
  | simulation (err : String) (hclient : c.HasClient 0)
      (h0 : c.attempts 0 = .simulationError err) (h1 : c.attempts 1 = .answered false)
  /-- The API has no client when the reconciler gets its first answer, a denial. -/
  | secondDenial (h0 : ∀ allowed, c.attempts 0 ≠ .answered allowed) (hclient : ¬c.HasClient 1)
      (h1 : c.attempts 1 = .answered false)
  | firstDenial (hclient : ¬c.HasClient 0) (h0 : c.attempts 0 = .answered false)
      (h1 : ¬(c.HasClient 1 ∧ c.attempts 1 = .answered false))
  /-- The API has no client when the reconciler is told "allowed", and one for a later denial. -/
  | lateDenial (hclient₀ : ¬c.HasClient 0) (h0 : c.attempts 0 = .answered true)
      (hclient₁ : c.HasClient 1) (h1 : c.attempts 1 = .answered false)

/-- Which of two attempts decides. -/
theorem exists_le_one_iff {P Q : ℕ → Prop} :
    (∃ i ≤ 1, P i ∧ ∀ j < i, Q j) ↔ P 0 ∨ Q 0 ∧ P 1 := by
  constructor
  · rintro ⟨i, hi, hp, hbefore⟩
    obtain rfl | rfl : i = 0 ∨ i = 1 := by omega
    · exact .inl hp
    · exact .inr ⟨hbefore 0 Nat.one_pos, hp⟩
  · rintro (hp | ⟨hq, hp⟩)
    · exact ⟨0, Nat.zero_le 1, hp, fun j hj => absurd hj (Nat.not_lt_zero j)⟩
    · refine ⟨1, le_rfl, hp, fun j hj => ?_⟩
      obtain rfl : j = 0 := by omega
      exact hq

/-- **Agreement of the two checks**: they return the same for every sequence of outcomes but
those in which a failed simulation of the first attempt is followed by a denial, and those in
which the API has no client in an attempt that the reconciler is answered in, and the answers
differ from then on. -/
theorem checks_agree_iff (c : CheckAnswers) :
    isAllowedOnChain c = isAllowedOnChainRs c.attempts ↔ ¬c.Parts := by
  have hbool : isAllowedOnChain c = isAllowedOnChainRs c.attempts ↔
      (isAllowedOnChain c = false ↔ isAllowedOnChainRs c.attempts = false) := by
    cases isAllowedOnChain c <;> cases isAllowedOnChainRs c.attempts <;> simp
  rw [hbool, isAllowedOnChain_eq_false_iff, CheckAnswers.Denied, exists_le_one_iff,
    isAllowedOnChainRs_eq_false_iff, exists_le_one_iff]
  constructor
  · intro hiff hparts
    cases hparts with
    | simulation err hclient h0 h1 =>
      simp [hclient, h0, h1, Attempt.Unreachable] at hiff
    | secondDenial h0 hclient h1 =>
      simp [hclient, h0, h1] at hiff
    | firstDenial hclient h0 h1 => simp [hclient, h0, h1] at hiff
    | lateDenial hclient₀ h0 hclient₁ h1 => simp [hclient₀, h0, hclient₁, h1] at hiff
  · intro hsame
    constructor
    · -- the API denies: in its first attempt, or in the second after one that told it nothing
      rintro (⟨-, h0⟩ | ⟨hbefore, hclient, h1⟩)
      · exact .inl h0
      · cases h0 : c.attempts 0 with
        | answered allowed =>
          have hno : ¬c.HasClient 0 := fun h => hbefore ⟨h, by simp [h0, Attempt.Unreachable]⟩
          cases allowed with
          | false => exact .inl rfl
          | true => exact absurd (.lateDenial hno h0 hclient h1) hsame
        | _ => exact .inr ⟨by simp, h1⟩
    · -- the reconciler denies, and the API has had a client for the attempt that decides
      rintro (h0 | ⟨h0, h1⟩)
      · by_cases hclient : c.HasClient 0
        · exact .inl ⟨hclient, h0⟩
        · by_contra hnot
          refine hsame (.firstDenial hclient h0 fun h1 => hnot (.inr ⟨?_, h1⟩))
          exact fun h => hclient h.1
      · have hclient : c.HasClient 1 := by
          by_contra hno
          exact hsame (.secondDenial h0 hno h1)
        refine .inr ⟨?_, hclient, h1⟩
        rintro ⟨hclient₀, hreached⟩
        cases h : c.attempts 0 with
        | simulationError err => exact hsame (.simulation err hclient₀ h h1)
        | answered allowed => exact h0 allowed h
        | _ => simp [h, Attempt.Unreachable] at hreached

/-- A promise that is resolved from the start. -/
def ClientPromise.ready : ClientPromise := ⟨fun _ => .resolved (), fun _ _ => rfl⟩

/-- A promise that is rejected from the start. -/
def ClientPromise.refused (err : String) : ClientPromise := ⟨fun _ => .rejected err, fun _ _ => rfl⟩

/-- A check with a client at hand. -/
def CheckAnswers.ready (attempts : ℕ → Attempt) : CheckAnswers :=
  ⟨some .ready, fun _ => none, fun _ => .ready, attempts⟩

/-- A simulation error followed by a denial: the API lets the payer pass after the first
attempt, the reconciler asks again and holds the payment. And a client that cannot be built in
the first attempt: the second one, which would be denied, waits for the same promise. -/
theorem checks_disagree :
    (∃ attempts : ℕ → Attempt, attempts 0 = .simulationError "host error" ∧
      attempts 1 = .answered false ∧ isAllowedOnChain (.ready attempts) = true ∧
      isAllowedOnChainRs attempts = false) ∧
    ∃ c : CheckAnswers, c.cached = none ∧ c.others 0 = none ∧
      c.made 0 = .refused "fetch failed" ∧ c.made 1 = .ready ∧
      c.attempts 0 = .transportError "fetch failed" ∧ c.attempts 1 = .answered false ∧
      isAllowedOnChain c = true ∧ isAllowedOnChainRs c.attempts = false :=
  ⟨⟨fun i => if i = 0 then .simulationError "host error" else .answered false, rfl, rfl, rfl, rfl⟩,
    ⟨none, fun _ => none, fun i => if i = 0 then .refused "fetch failed" else .ready,
      fun i => if i = 0 then .transportError "fetch failed" else .answered false⟩,
    rfl, rfl, rfl, rfl, rfl, rfl, isAllowedOnChain_of_rejected rfl
      (show _ = Call.rejected "fetch failed" from rfl), rfl⟩

end KonfirmBackend.Compliance
