import KonfirmBackend.Lib.Attempts

/-!
# Retried calls

`withRetry` runs an external call again while it fails, each attempt under a timeout.

## Main definitions

- `Call` — how an external call ends
- `withRetry` — the first success, or the last error
- `callsOf` — the calls it makes

## Main results

- `withRetry_eq_ok_iff` — which attempt a result comes from
- `callsOf_withRetry_eq` — the loop as attempts on a budget
-/

namespace KonfirmBackend

/-- How a promise stands when its timeout fires. -/
inductive Call (α : Type)
  | resolved (a : α)
  | rejected (err : String)
  | pending
deriving DecidableEq

variable {α : Type}

/-- `Promise.race` of the call against its timeout. -/
def raceTimeout (timeoutMs : ℕ) : Call α → Except String α
  | .resolved a => .ok a
  | .rejected err => .error err
  | .pending => .error ("external call timed out after " ++ toString timeoutMs ++ "ms")

/-- The loop of `withRetry` from an attempt on, with the retries that are left. -/
def retryFrom (timeoutMs : ℕ) (fn : ℕ → Call α) : ℕ → ℕ → Except String α
  | 0, attempt => raceTimeout timeoutMs (fn attempt)
  | retries + 1, attempt =>
    match raceTimeout timeoutMs (fn attempt) with
    | .ok a => .ok a
    | .error _ => retryFrom timeoutMs fn retries (attempt + 1)

/-- `withRetry`; `fn i` is how the attempt `i` ends. -/
def withRetry (retries timeoutMs : ℕ) (fn : ℕ → Call α) : Except String α :=
  retryFrom timeoutMs fn retries 0

variable {timeoutMs retries attempt : ℕ} {fn : ℕ → Call α} {a : α} {c : Call α}

theorem raceTimeout_eq_ok_iff : raceTimeout timeoutMs c = .ok a ↔ c = .resolved a := by
  cases c <;> simp [raceTimeout]

theorem retryFrom_eq_ok_iff :
    retryFrom timeoutMs fn retries attempt = .ok a ↔
      ∃ i ≤ retries, fn (attempt + i) = .resolved a ∧
        ∀ j < i, ∀ b, fn (attempt + j) ≠ .resolved b := by
  induction retries generalizing attempt with
  | zero => simp [retryFrom, raceTimeout_eq_ok_iff]
  | succ retries ih =>
    rw [retryFrom]
    cases hrace : raceTimeout timeoutMs (fn attempt) with
    | ok b =>
      have hb := raceTimeout_eq_ok_iff.mp hrace
      constructor
      · intro h
        obtain rfl := Except.ok.inj h
        exact ⟨0, Nat.zero_le _, hb, by simp⟩
      · rintro ⟨i, -, hi, hfirst⟩
        obtain rfl : i = 0 := by
          by_contra hne
          exact hfirst 0 (Nat.pos_of_ne_zero hne) b hb
        rw [Nat.add_zero, hb] at hi
        rw [Call.resolved.inj hi]
    | error err =>
      have hfail : ∀ b, fn attempt ≠ .resolved b := by
        intro b hb
        simp [hb, raceTimeout] at hrace
      have hshift : ∀ i, attempt + 1 + i = attempt + (i + 1) := by omega
      simp only [ih, hshift]
      constructor
      · rintro ⟨i, hle, hi, hfirst⟩
        refine ⟨i + 1, by omega, hi, ?_⟩
        intro j hj
        cases j with
        | zero => exact hfail
        | succ j => exact hfirst j (by omega)
      · rintro ⟨i, hle, hi, hfirst⟩
        cases i with
        | zero => exact absurd hi (hfail a)
        | succ i => exact ⟨i, by omega, hi, fun j hj => hfirst (j + 1) (by omega)⟩

/-- A result is that of the first attempt that succeeds. -/
theorem withRetry_eq_ok_iff :
    withRetry retries timeoutMs fn = .ok a ↔
      ∃ i ≤ retries, fn i = .resolved a ∧ ∀ j < i, ∀ b, fn j ≠ .resolved b := by
  rw [withRetry, retryFrom_eq_ok_iff]
  simp only [Nat.zero_add]

/-! ## The calls that are made -/

/-- The numbers of the attempts that the loop gets to, from an attempt on. -/
def callsFrom (timeoutMs : ℕ) (fn : ℕ → Call α) : ℕ → ℕ → List ℕ
  | 0, attempt => [attempt]
  | retries + 1, attempt =>
    match raceTimeout timeoutMs (fn attempt) with
    | .ok _ => [attempt]
    | .error _ => attempt :: callsFrom timeoutMs fn retries (attempt + 1)

/-- The calls of `fn` that `withRetry` makes. -/
def callsOf (retries timeoutMs : ℕ) (fn : ℕ → Call α) : List ℕ :=
  callsFrom timeoutMs fn retries 0

theorem callsFrom_retryFrom_eq (timeoutMs : ℕ) (fn : ℕ → Call α) (retries attempt : ℕ) :
    ((callsFrom timeoutMs fn retries attempt).length, retryFrom timeoutMs fn retries attempt) =
      attemptsFrom (fun i => raceTimeout timeoutMs (fn i)) retries attempt := by
  induction retries generalizing attempt with
  | zero => rfl
  | succ retries ih =>
    rw [callsFrom, retryFrom, attemptsFrom, ← ih]
    cases raceTimeout timeoutMs (fn attempt) <;> rfl

/-- The loop is a row of attempts under the timeout. -/
theorem callsOf_withRetry_eq (retries timeoutMs : ℕ) (fn : ℕ → Call α) :
    ((callsOf retries timeoutMs fn).length, withRetry retries timeoutMs fn) =
      attempts (fun i => raceTimeout timeoutMs (fn i)) retries :=
  callsFrom_retryFrom_eq timeoutMs fn retries 0

end KonfirmBackend
