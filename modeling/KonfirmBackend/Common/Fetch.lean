import KonfirmBackend.Common.Retry
import KonfirmBackend.Lib.Attempts

/-!
# Retried requests

The two loops that ask Horizon, and other servers, again after a failure: `fetchWithRetry`
of the API, a `fetch` under `withRetry`, and `get_with_retry` of the reconciler, a loop of its
own. Neither repeats a request that was answered. What counts as answered differs: the API
asks again from status 500 on, the reconciler only for the statuses of server errors.

## Main definitions

- `Outcome` — how one request ends
- `fetchWithRetry`, `getWithRetry` — the requests made and the result
- `Answered` — a response with a status below 500

## Main results

- `fetchWithRetry_semantics` — the loop of the API ends with the first answer
- `retry_semantics_iff` — when the loop of the reconciler does the same
-/

namespace KonfirmBackend

/-- A status of three digits. -/
structure StatusCode where
  val : ℕ
  three_digits : 100 ≤ val ∧ val < 1000
deriving DecidableEq

/-- How one request ends. -/
inductive Outcome
  | response (status : StatusCode)
  | transportFailure (err : String)
  | timeout
deriving DecidableEq

/-! ## The API -/

/-- The callback of `fetchWithRetry`: the abort signal ends a request that takes too long,
and a response from status 500 on is thrown. -/
def fetchOnce : Outcome → Call StatusCode
  | .response status =>
    if status.val ≥ 500 then .rejected ("upstream returned " ++ toString status.val)
    else .resolved status
  | .transportFailure err => .rejected err
  | .timeout => .rejected "The operation was aborted due to timeout"

/-- The requests that `fetchWithRetry` makes and what it returns; `outcome i` is how the
request `i` would end. -/
def fetchWithRetry (retries timeoutMs : ℕ) (outcome : ℕ → Outcome) :
    ℕ × Except String StatusCode :=
  ((callsOf retries (timeoutMs + 1000) fun i => fetchOnce (outcome i)).length,
    withRetry retries (timeoutMs + 1000) fun i => fetchOnce (outcome i))

/-! ## The reconciler -/

def MAX_ATTEMPTS : ℕ := 3

def StatusCode.isServerError (status : StatusCode) : Bool :=
  decide (500 ≤ status.val ∧ status.val < 600)

section Reconciler

-- the texts of the HTTP library for a status and for a request that took too long
variable (display : StatusCode → String) (timedOut : String)

/-- `for attempt in 0..MAX_ATTEMPTS`, from an attempt on. -/
def getFrom (outcome : ℕ → Outcome) : ℕ → ℕ → Option String → ℕ × Except String StatusCode
  | 0, attempt, lastErr =>
    (attempt, .error (lastErr.getD "Horizon request failed with no captured error"))
  | left + 1, attempt, _ =>
    match outcome attempt with
    | .response status =>
      if status.isServerError then
        getFrom outcome left (attempt + 1) (some ("Horizon returned " ++ display status))
      else (attempt + 1, .ok status)
    | .transportFailure err => getFrom outcome left (attempt + 1) (some err)
    | .timeout => getFrom outcome left (attempt + 1) (some timedOut)

/-- The requests that `get_with_retry` makes and what it returns. -/
def getWithRetry (outcome : ℕ → Outcome) : ℕ × Except String StatusCode :=
  getFrom display timedOut outcome MAX_ATTEMPTS 0 none

/-- One attempt of `get_with_retry`. -/
def getOnce : Outcome → Except String StatusCode
  | .response status =>
    if status.isServerError then .error ("Horizon returned " ++ display status) else .ok status
  | .transportFailure err => .error err
  | .timeout => .error timedOut

variable {display timedOut} {outcome : ℕ → Outcome}

theorem getFrom_succ (left attempt : ℕ) (lastErr : Option String) :
    getFrom display timedOut outcome (left + 1) attempt lastErr =
      ((attemptsFrom (fun i => getOnce display timedOut (outcome i)) left attempt).1 + attempt,
        (attemptsFrom (fun i => getOnce display timedOut (outcome i)) left attempt).2) := by
  induction left generalizing attempt lastErr with
  | zero =>
    rw [getFrom, attemptsFrom]
    cases outcome attempt with
    | response status =>
      by_cases hserver : status.isServerError = true <;>
        simp [getFrom, getOnce, hserver, Nat.add_comm]
    | transportFailure err => simp [getFrom, getOnce, Nat.add_comm]
    | timeout => simp [getFrom, getOnce, Nat.add_comm]
  | succ left ih =>
    have hcount : ∀ n : ℕ, n + (attempt + 1) = n + 1 + attempt := by omega
    rw [getFrom, attemptsFrom]
    cases outcome attempt with
    | response status =>
      by_cases hserver : status.isServerError = true
      · simp only [getOnce, hserver, if_true, ih, hcount]
      · simp [getOnce, hserver, Nat.add_comm]
    | transportFailure err => simp only [getOnce, ih, hcount]
    | timeout => simp only [getOnce, ih, hcount]

/-- The loop of the reconciler, as attempts on a budget of two retries. -/
theorem getWithRetry_eq : getWithRetry display timedOut outcome =
    attempts (fun i => getOnce display timedOut (outcome i)) 2 := by
  rw [getWithRetry, MAX_ATTEMPTS, getFrom_succ]
  rfl

end Reconciler

/-! ## The requests and their results -/

/-- A response with a status below 500. -/
def Answered (o : Outcome) : Prop := ∃ status, o = .response status ∧ status.val < 500

variable {retries timeoutMs : ℕ} {outcome : ℕ → Outcome} {display : StatusCode → String}
  {timedOut : String}

theorem fetchWithRetry_eq : fetchWithRetry retries timeoutMs outcome =
    attempts (fun i => raceTimeout (timeoutMs + 1000) (fetchOnce (outcome i))) retries :=
  callsOf_withRetry_eq retries (timeoutMs + 1000) _

theorem race_fetchOnce_eq_ok_iff {o : Outcome} {status : StatusCode} :
    raceTimeout timeoutMs (fetchOnce o) = .ok status ↔
      o = .response status ∧ status.val < 500 := by
  rw [raceTimeout_eq_ok_iff]
  cases o with
  | response s =>
    by_cases hs : s.val ≥ 500
    · simp only [fetchOnce, if_pos hs, reduceCtorEq, false_iff, Outcome.response.injEq]
      rintro ⟨rfl, hlt⟩
      omega
    · simp only [fetchOnce, if_neg hs, Call.resolved.injEq, Outcome.response.injEq]
      refine ⟨?_, And.left⟩
      rintro rfl
      exact ⟨rfl, by omega⟩
  | transportFailure err => simp [fetchOnce]
  | timeout => simp [fetchOnce]

theorem isOk_race_fetchOnce_iff {o : Outcome} :
    (raceTimeout timeoutMs (fetchOnce o)).isOk = true ↔ Answered o := by
  rw [isOk_eq_true_iff]
  exact exists_congr fun status => race_fetchOnce_eq_ok_iff

theorem isOk_getOnce_iff {o : Outcome} : (getOnce display timedOut o).isOk = true ↔
    ∃ status, o = .response status ∧ status.isServerError = false := by
  cases o with
  | response s =>
    by_cases hs : s.isServerError = true <;> simp [getOnce, hs, Except.isOk, Except.toBool]
  | transportFailure err => simp [getOnce, Except.isOk, Except.toBool]
  | timeout => simp [getOnce, Except.isOk, Except.toBool]

theorem isOk_race_fetchOnce_eq_false {o : Outcome} (h : ¬Answered o) :
    (raceTimeout timeoutMs (fetchOnce o)).isOk = false := by
  rw [← Bool.not_eq_true]
  exact fun hok => h (isOk_race_fetchOnce_iff.mp hok)

/-- What is promised of a budget: the first answer ends the loop and is the result, and
without one in the budget the last attempt's error is thrown. -/
structure FetchSemantics (retries timeoutMs : ℕ) (outcome : ℕ → Outcome)
    (result : ℕ × Except String StatusCode) : Prop where
  /-- The first answer is outcome `k`, counted from zero. -/
  answered : ∀ k status, outcome k = .response status → status.val < 500 →
    (∀ j < k, ¬Answered (outcome j)) →
      result.1 = min (k + 1) (retries + 1) ∧ (k + 1 ≤ retries + 1 → result.2 = .ok status)
  exhausted : (∀ j < retries + 1, ¬Answered (outcome j)) →
    result.1 = retries + 1 ∧
      ∃ err, raceTimeout (timeoutMs + 1000) (fetchOnce (outcome retries)) = .error err ∧
        result.2 = .error err
  stops : ∀ j, Answered (outcome j) → result.1 ≤ j + 1

/-- An attempt that is not answered ends in an error. -/
theorem exists_error_of_not_answered {o : Outcome} (h : ¬Answered o) :
    ∃ err, raceTimeout timeoutMs (fetchOnce o) = .error err := by
  cases hrace : raceTimeout timeoutMs (fetchOnce o) with
  | ok status => exact absurd ⟨status, race_fetchOnce_eq_ok_iff.mp hrace⟩ h
  | error err => exact ⟨err, rfl⟩

/-- The requests and the result when none of the attempts is answered. -/
theorem fetchWithRetry_of_exhausted (h : ∀ j ≤ retries, ¬Answered (outcome j)) :
    fetchWithRetry retries timeoutMs outcome =
      (retries + 1, raceTimeout (timeoutMs + 1000) (fetchOnce (outcome retries))) := by
  rw [fetchWithRetry_eq]
  exact attempts_of_forall_fails fun j hj => isOk_race_fetchOnce_eq_false (h j hj)

theorem fetchWithRetry_of_answered {k : ℕ} {status : StatusCode} (hk : k ≤ retries)
    (hout : outcome k = .response status) (hlt : status.val < 500)
    (hfirst : ∀ j < k, ¬Answered (outcome j)) :
    fetchWithRetry retries timeoutMs outcome = (k + 1, .ok status) := by
  rw [fetchWithRetry_eq]
  exact attempts_of_first hk (race_fetchOnce_eq_ok_iff.mpr ⟨hout, hlt⟩)
    fun j hj => isOk_race_fetchOnce_eq_false (hfirst j hj)

/-- The loop of the API keeps the promise, whatever the budget. -/
theorem fetchWithRetry_semantics (retries timeoutMs : ℕ) (outcome : ℕ → Outcome) :
    FetchSemantics retries timeoutMs outcome (fetchWithRetry retries timeoutMs outcome) := by
  constructor
  case answered =>
    intro k status hout hlt hfirst
    rcases Nat.lt_or_ge retries k with hk | hk
    · have hnone : ∀ j ≤ retries, ¬Answered (outcome j) := fun j hj => hfirst j (by omega)
      rw [fetchWithRetry_of_exhausted hnone]
      exact ⟨by omega, fun hle => by omega⟩
    · rw [fetchWithRetry_of_answered hk hout hlt hfirst]
      exact ⟨by omega, fun _ => rfl⟩
  case exhausted =>
    intro hnone
    rw [fetchWithRetry_of_exhausted fun j hj => hnone j (by omega)]
    obtain ⟨err, herr⟩ : ∃ err, raceTimeout (timeoutMs + 1000)
        (fetchOnce (outcome retries)) = .error err :=
      exists_error_of_not_answered (hnone retries (by omega))
    exact ⟨rfl, err, herr, herr⟩
  case stops =>
    intro j hj
    rcases first_or_forall_fails
      (fun i => raceTimeout (timeoutMs + 1000) (fetchOnce (outcome i))) retries with
      ⟨k, hk, status, hok, hfirst⟩ | hfails
    · rw [fetchWithRetry_eq, attempts_of_first hk hok hfirst]
      have hle : k ≤ j := by
        by_contra hlt
        have hfail := hfirst j (by omega)
        rw [isOk_race_fetchOnce_iff.mpr hj] at hfail
        cases hfail
      exact Nat.add_le_add_right hle 1
    · rw [fetchWithRetry_eq, attempts_of_forall_fails hfails]
      by_contra hlt
      have hfail := hfails j (by omega)
      rw [isOk_race_fetchOnce_iff.mpr hj] at hfail
      cases hfail

/-- The reconciler makes as many requests as the API with two retries, and both succeed or
both fail. -/
def Coincides (timeoutMs : ℕ) (display : StatusCode → String) (timedOut : String)
    (outcome : ℕ → Outcome) : Prop :=
  AttemptsAgree (fetchWithRetry 2 timeoutMs outcome) (getWithRetry display timedOut outcome)

/-- No status from 600 on comes before an answer in the three attempts. -/
def NoStrangeStatus (outcome : ℕ → Outcome) : Prop :=
  ∀ i < MAX_ATTEMPTS, ∀ status, outcome i = .response status → 600 ≤ status.val →
    ∃ j < i, Answered (outcome j)

theorem coincides_iff :
    Coincides timeoutMs display timedOut outcome ↔ NoStrangeStatus outcome := by
  have hsub : ∀ i, (raceTimeout (timeoutMs + 1000) (fetchOnce (outcome i))).isOk = true →
      (getOnce display timedOut (outcome i)).isOk = true := by
    intro i hi
    obtain ⟨status, hout, hlt⟩ := isOk_race_fetchOnce_iff.mp hi
    refine isOk_getOnce_iff.mpr ⟨status, hout, ?_⟩
    rw [StatusCode.isServerError, decide_eq_false_iff_not]
    omega
  rw [Coincides, fetchWithRetry_eq, getWithRetry_eq, attempts_agree_iff hsub]
  simp only [isOk_race_fetchOnce_iff, isOk_getOnce_iff]
  constructor
  · intro h i hi status hout hge
    obtain ⟨j, hj, hans⟩ := h i (Nat.le_of_lt_succ hi) ⟨status, hout, by
      rw [StatusCode.isServerError, decide_eq_false_iff_not]
      omega⟩
    refine ⟨j, Nat.lt_of_le_of_ne hj ?_, hans⟩
    rintro rfl
    obtain ⟨s, hs, hlt⟩ := hans
    obtain rfl : status = s := Outcome.response.inj (hout.symm.trans hs)
    omega
  · rintro h i hi ⟨status, hout, hserver⟩
    rw [StatusCode.isServerError, decide_eq_false_iff_not] at hserver
    rcases Nat.lt_or_ge status.val 500 with hlt | hge
    · exact ⟨i, le_rfl, status, hout, hlt⟩
    · obtain ⟨j, hj, hans⟩ := h i (Nat.lt_succ_of_le hi) status hout (by omega)
      exact ⟨j, hj.le, hans⟩

/-- **The two loops agree** exactly when no status from 600 on comes before an answer; the
API treats it as a failure and the reconciler as a response. -/
theorem retry_semantics_iff (timeoutMs : ℕ) (display : StatusCode → String) (timedOut : String)
    (outcome : ℕ → Outcome) :
    ((∀ retries, FetchSemantics retries timeoutMs outcome
          (fetchWithRetry retries timeoutMs outcome)) ∧
        Coincides timeoutMs display timedOut outcome) ↔ NoStrangeStatus outcome := by
  rw [coincides_iff]
  exact and_iff_right fun retries => fetchWithRetry_semantics retries timeoutMs outcome

/-- A server that answers every request with status 600. -/
def strangeServer : ℕ → Outcome := fun _ => .response ⟨600, by decide⟩

/-- The API asks it three times and fails, the reconciler once and succeeds. -/
theorem retry_semantics_differ :
    fetchWithRetry 2 10000 strangeServer = (3, .error "upstream returned 600") ∧
      getWithRetry (fun s => toString s.val) "" strangeServer = (1, .ok ⟨600, by decide⟩) ∧
      ¬((∀ retries, FetchSemantics retries 10000 strangeServer
          (fetchWithRetry retries 10000 strangeServer)) ∧
        Coincides 10000 (fun s => toString s.val) "" strangeServer) := by
  refine ⟨rfl, rfl, ?_⟩
  rintro ⟨-, hcount, -⟩
  have hthree : (3 : ℕ) = 1 := hcount
  omega

end KonfirmBackend
