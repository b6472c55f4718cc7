import Mathlib.Order.Nat
import Mathlib.Data.Nat.Find

/-!
# Attempts on a budget

A loop that tries again until an attempt succeeds or the budget is spent, with a count of
the attempts it made.

## Main definitions

- `attempts` — how many attempts were made, and how the last of them ended

## Main results

- `attempts_of_first` — the loop ends with the first success
- `attempts_of_forall_fails` — without one it spends the whole budget
- `attempts_agree_iff` — when two loops, one easier to satisfy, make the same attempts
-/

variable {ε ε' α β : Type*}

/-- The attempts from number `i` on, at most `left + 1` of them. -/
def attemptsFrom (f : ℕ → Except ε α) : ℕ → ℕ → ℕ × Except ε α
  | 0, i => (1, f i)
  | left + 1, i =>
    match f i with
    | .ok a => (1, .ok a)
    | .error _ => ((attemptsFrom f left (i + 1)).1 + 1, (attemptsFrom f left (i + 1)).2)

/-- A first attempt and at most `retries` further ones. -/
def attempts (f : ℕ → Except ε α) (retries : ℕ) : ℕ × Except ε α := attemptsFrom f retries 0

variable {f : ℕ → Except ε α} {g : ℕ → Except ε' β}

theorem isOk_eq_true_iff {x : Except ε α} : x.isOk = true ↔ ∃ a, x = .ok a := by
  cases x <;> simp [Except.isOk, Except.toBool]

theorem attemptsFrom_of_first {left i : ℕ} {a : α} {k : ℕ} (hk : k ≤ left)
    (hok : f (i + k) = .ok a) (hfirst : ∀ j < k, (f (i + j)).isOk = false) :
    attemptsFrom f left i = (k + 1, .ok a) := by
  induction left generalizing i k with
  | zero =>
    obtain rfl : k = 0 := by omega
    rw [attemptsFrom, ← hok]
    rfl
  | succ left ih =>
    rw [attemptsFrom]
    cases k with
    | zero =>
      rw [Nat.add_zero] at hok
      rw [hok]
    | succ k =>
      have hzero := hfirst 0 (by omega)
      have hshift : ∀ j, i + 1 + j = i + (j + 1) := by omega
      have hrest := ih (i := i + 1) (k := k) (by omega) (by rw [hshift, hok]) (by
        intro j hj
        rw [hshift]
        exact hfirst (j + 1) (by omega))
      cases hi : f i with
      | ok b => simp [hi, Except.isOk, Except.toBool] at hzero
      | error e => simp only [hrest]

/-- The loop ends with the first attempt that succeeds. -/
theorem attempts_of_first {retries k : ℕ} {a : α} (hk : k ≤ retries) (hok : f k = .ok a)
    (hfirst : ∀ j < k, (f j).isOk = false) : attempts f retries = (k + 1, .ok a) := by
  apply attemptsFrom_of_first hk
  · rw [Nat.zero_add, hok]
  · intro j hj
    rw [Nat.zero_add]
    exact hfirst j hj

theorem attemptsFrom_of_forall_fails {left i : ℕ} (h : ∀ j ≤ left, (f (i + j)).isOk = false) :
    attemptsFrom f left i = (left + 1, f (i + left)) := by
  induction left generalizing i with
  | zero => rfl
  | succ left ih =>
    have hzero := h 0 (by omega)
    have hshift : ∀ j, i + 1 + j = i + (j + 1) := by omega
    have hrest := ih (i := i + 1) (by
      intro j hj
      rw [hshift]
      exact h (j + 1) (by omega))
    rw [attemptsFrom]
    cases hi : f i with
    | ok b => simp [hi, Except.isOk, Except.toBool] at hzero
    | error e => simp only [hrest, hshift]

/-- Without a success the budget is spent, and the last attempt's error is the result. -/
theorem attempts_of_forall_fails {retries : ℕ} (h : ∀ j ≤ retries, (f j).isOk = false) :
    attempts f retries = (retries + 1, f retries) := by
  have hfrom : attemptsFrom f retries 0 = (retries + 1, f (0 + retries)) := by
    refine attemptsFrom_of_forall_fails fun j hj => ?_
    rw [Nat.zero_add]
    exact h j hj
  rwa [Nat.zero_add] at hfrom

/-- There is a first success within the budget, or none. -/
theorem first_or_forall_fails (f : ℕ → Except ε α) (retries : ℕ) :
    (∃ k ≤ retries, ∃ a, f k = .ok a ∧ ∀ j < k, (f j).isOk = false) ∨
      ∀ j ≤ retries, (f j).isOk = false := by
  by_cases h : ∃ k, k ≤ retries ∧ (f k).isOk = true
  · obtain ⟨hle, hok⟩ := Nat.find_spec h
    obtain ⟨a, ha⟩ := isOk_eq_true_iff.mp hok
    refine .inl ⟨Nat.find h, hle, a, ha, ?_⟩
    intro j hj
    have hmin := Nat.find_min h hj
    rw [not_and, Bool.not_eq_true] at hmin
    exact hmin (by omega)
  · refine .inr fun j hj => ?_
    rw [← Bool.not_eq_true]
    exact fun hok => h ⟨j, hj, hok⟩

/-- Two loops on one budget agree when they make as many attempts and both succeed or
both fail. -/
def AttemptsAgree (x : ℕ × Except ε α) (y : ℕ × Except ε' β) : Prop :=
  x.1 = y.1 ∧ x.2.isOk = y.2.isOk

/-- Where `g` fails, `f` does. -/
theorem fails_of_fails (hsub : ∀ i, (f i).isOk = true → (g i).isOk = true) {i : ℕ}
    (h : (g i).isOk = false) : (f i).isOk = false := by
  rw [← Bool.not_eq_true] at h ⊢
  exact mt (hsub i) h

/-- When every success of `f` is one of `g`, the loops agree exactly if `g` has no success
in the budget before the first one of `f`. -/
theorem attempts_agree_iff (hsub : ∀ i, (f i).isOk = true → (g i).isOk = true) (retries : ℕ) :
    AttemptsAgree (attempts f retries) (attempts g retries) ↔
      ∀ i ≤ retries, (g i).isOk = true → ∃ j ≤ i, (f j).isOk = true := by
  rcases first_or_forall_fails g retries with ⟨k, hk, b, hgk, hgfirst⟩ | hg
  · rw [AttemptsAgree, attempts_of_first hk hgk hgfirst]
    have hffirst : ∀ j < k, (f j).isOk = false := fun j hj => fails_of_fails hsub (hgfirst j hj)
    have hgok : (g k).isOk = true := by rw [hgk]; rfl
    cases hfk : f k with
    | ok a =>
      rw [attempts_of_first hk hfk hffirst]
      refine iff_of_true ⟨rfl, rfl⟩ ?_
      intro i _ hgi
      refine ⟨k, ?_, by rw [hfk]; rfl⟩
      by_contra hlt
      rw [hgfirst i (by omega)] at hgi
      cases hgi
    | error e =>
      have hfail : ∀ j ≤ k, (f j).isOk = false := by
        intro j hj
        rcases Nat.lt_or_eq_of_le hj with hlt | rfl
        · exact hffirst j hlt
        · rw [hfk]
          rfl
      refine iff_of_false ?_ ?_
      · rintro ⟨hcount, hend⟩
        -- a success of `f` would come after `k`
        rcases first_or_forall_fails f retries with ⟨l, hl, a, hfl, hfirst⟩ | hf
        · rw [attempts_of_first hl hfl hfirst] at hcount
          obtain rfl : l = k := by simpa using hcount
          rw [hfk] at hfl
          cases hfl
        · rw [attempts_of_forall_fails hf, hf retries le_rfl] at hend
          cases hend
      · intro h
        obtain ⟨j, hj, hfj⟩ := h k hk hgok
        rw [hfail j hj] at hfj
        cases hfj
  · have hf : ∀ j ≤ retries, (f j).isOk = false := fun j hj => fails_of_fails hsub (hg j hj)
    rw [AttemptsAgree, attempts_of_forall_fails hf, attempts_of_forall_fails hg, hf retries le_rfl,
      hg retries le_rfl]
    refine iff_of_true ⟨rfl, rfl⟩ ?_
    intro i hi hgi
    rw [hg i hi] at hgi
    cases hgi
