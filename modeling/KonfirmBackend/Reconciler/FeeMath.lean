import KonfirmBackend.Reconciler.Store

/-!
# The three amount columns

Amount, fee and net are exact decimals until Postgres rounds each of them to
seven places on its own. Whether `amount = fee + net` survives depends on the
rounding errors of the amount and of the fee; for an amount that has seven places
already, on one residue.

## Main definitions

- `Amounts.Balanced` — the stored columns add up

## Main results

- `balanced_iff_of_storeAmounts` — when an exact split stays balanced
- `recorded_amounts_balanced_iff` — the same for the row of a recorded payment
- `recorded_usdc_balanced_iff` — amounts of at most seven places
-/

namespace KonfirmBackend.Reconciler

/-- `amount_usdc = fee_usdc + net_usdc` in the stored row. -/
def Amounts.Balanced (a : Amounts) : Prop :=
  a.amountUsdc.units = a.feeUsdc.units + a.netUsdc.units

instance (a : Amounts) : Decidable a.Balanced := inferInstanceAs (Decidable (_ = _))

/-- A decimal counted in units of the column's last place. -/
def inUnits (q : ℚ) : ℚ := q * 10 ^ 7

/-- The fee before rounding. -/
def exactFee (gross : ℚ) (bps : FeeBps) : ℚ := gross * bps.val / 10000

/-- Rounding the amount and rounding its fee do not pull apart by half a unit. -/
def RoundsTogether (gross fee : ℚ) : Prop :=
  -(1 / 2) ≤ roundError (inUnits gross) - roundError (inUnits fee) ∧
    roundError (inUnits gross) - roundError (inUnits fee) < 1 / 2

theorem balanced_iff_of_storeAmounts {gross fee : ℚ} {a : Amounts} (hle : fee ≤ gross)
    (ha : storeAmounts gross fee (gross - fee) = some a) :
    a.Balanced ↔ RoundsTogether gross fee := by
  obtain ⟨hg, hf, hn⟩ := storeAmounts_eq_some ha
  have hunits : inUnits fee ≤ inUnits gross := mul_le_mul_of_nonneg_right hle (by norm_num)
  have hsub : (gross - fee) * 10 ^ 7 = inUnits gross - inUnits fee := by
    rw [inUnits, inUnits]
    ring
  rw [Amounts.Balanced, Numeric.units_of_ofDecimal hg, Numeric.units_of_ofDecimal hf,
    Numeric.units_of_ofDecimal hn, hsub]
  exact roundAway_split_iff hunits

/-- What the row of a recorded payment holds when the arithmetic is exact. -/
theorem exists_row_of_recorded {D : RustDecimal} {db db' : Database} {now : ℕ}
    {merchant : Merchant} {req : PaymentRequest} {r : RecordedPayment} {gross : ℚ} {bps : FeeBps}
    (hrec : recordPaymentIfNew D db now merchant req = .ok (db', some r))
    (hg : req.amount = some gross) (hb : effectiveFeeBps db now merchant = .ok bps)
    (hexact : ExactFee D gross bps) :
    ∃ row, db'.payments = db.payments ++ [row] ∧ row.pagingToken = req.pagingToken ∧
      storeAmounts gross (exactFee gross bps) (gross - exactFee gross bps) = some row.amounts := by
  rcases recordPaymentIfNew_eq_ok hrec with
    ⟨-, -, hnone⟩ | ⟨gross', bps', fee, net, amounts, hg', hb', hfn, ha, -, -, rfl, -⟩
  · simp at hnone
  · obtain rfl := Option.some.inj (hg.symm.trans hg')
    obtain rfl := Except.ok.inj (hb.symm.trans hb')
    obtain ⟨rfl, rfl⟩ := Prod.mk.inj (Option.some.inj (hexact.feeAndNet.symm.trans hfn))
    exact ⟨paymentRow db merchant req amounts, rfl, rfl, ha⟩

/-! ## Amounts of at most seven places -/

/-- With a 96-bit margin of four digits the arithmetic of the fee is exact. -/
theorem exactFee_of_scale (D : RustDecimal) {m e : ℕ} (he : e ≤ 24) (hm : m * 10 ^ 4 < 2 ^ 96)
    (bps : FeeBps) : ExactFee D (m / 10 ^ e) bps := by
  have hmb : m * bps.val ≤ m * 10 ^ 4 := Nat.mul_le_mul_left m bps.le
  refine .of_representable ⟨e, by omega, (m * bps.val : ℕ), ?_, ?_⟩
    ⟨e + 4, by omega, (m * bps.val : ℕ), ?_, ?_⟩
    ⟨e + 4, by omega, (m * 10 ^ 4 - m * bps.val : ℕ), ?_, ?_⟩
  · rw [Nat.abs_cast]
    exact_mod_cast hmb.trans_lt hm
  · push_cast
    ring
  · rw [Nat.abs_cast]
    exact_mod_cast hmb.trans_lt hm
  · push_cast
    rw [pow_add]
    field_simp
    norm_num
  · rw [Nat.abs_cast]
    exact_mod_cast (Nat.sub_le _ _).trans_lt hm
  · rw [Int.cast_natCast, Nat.cast_sub hmb]
    push_cast
    rw [pow_add]
    field_simp
    ring

/-- Rounding a fraction `n / d` loses exactly minus a half when it is a tie. -/
theorem roundError_div_eq_neg_half_iff (n : ℕ) :
    roundError ((n : ℚ) / 10000) = -(1 / 2) ↔ n % 10000 = 5000 := by
  have hfloor : roundAway ((n : ℚ) / 10000) = ((n + 5000) / 10000 : ℕ) := by
    rw [roundAway_of_nonneg (by positivity), round_eq]
    have := Rat.floor_natCast_div_natCast (n + 5000) 10000
    rw [← Int.natCast_div] at this
    rw [← this]
    congr 1
    push_cast
    ring
  rw [roundError, hfloor]
  generalize hk : (n + 5000) / 10000 = k
  have hcast : (n : ℚ) / 10000 - ((k : ℤ) : ℚ) = -(1 / 2) ↔
      ((n + 5000 : ℕ) : ℚ) = ((10000 * k : ℕ) : ℚ) := by
    push_cast
    constructor <;> intro h <;> linarith
  rw [hcast, Nat.cast_inj]
  omega

/-- An amount of `g` units and its fee round together unless the fee is a tie. -/
theorem roundsTogether_units_iff (g : ℕ) (bps : FeeBps) :
    RoundsTogether (g / 10 ^ 7) (exactFee (g / 10 ^ 7) bps) ↔ g * bps.val % 10000 ≠ 5000 := by
  have hg : inUnits ((g : ℚ) / 10 ^ 7) = ((g : ℤ) : ℚ) := by
    rw [inUnits, div_mul_cancel₀ _ (by norm_num), Int.cast_natCast]
  have hf : inUnits (exactFee ((g : ℚ) / 10 ^ 7) bps) = ((g * bps.val : ℕ) : ℚ) / 10000 := by
    rw [inUnits, exactFee]
    push_cast
    ring
  obtain ⟨hlow, hhigh⟩ :=
    roundError_mem (x := ((g * bps.val : ℕ) : ℚ) / 10000) (by positivity)
  rw [RoundsTogether, hg, hf, roundError_intCast, ← not_iff_not, not_not,
    ← roundError_div_eq_neg_half_iff]
  constructor
  · intro h
    by_contra hne
    exact h ⟨by linarith, by linarith [lt_of_le_of_ne hlow (Ne.symm hne)]⟩
  · intro h hmem
    rw [h] at hmem
    norm_num at hmem

/-- A USDC payment of `g` units is stored in balance unless its fee is a tie. -/
theorem recorded_usdc_balanced_iff {D : RustDecimal} {db db' : Database} {now g : ℕ}
    {merchant : Merchant} {req : PaymentRequest} {r : RecordedPayment} {bps : FeeBps}
    (hrec : recordPaymentIfNew D db now merchant req = .ok (db', some r))
    (hg : req.amount = some ((g : ℚ) / 10 ^ 7)) (hlt : g < 10 ^ 18)
    (hb : effectiveFeeBps db now merchant = .ok bps) :
    ∃ row, db'.payments = db.payments ++ [row] ∧
      (row.amounts.Balanced ↔ g * bps.val % 10000 ≠ 5000) := by
  have hexact : ExactFee D (g / 10 ^ 7) bps := exactFee_of_scale D (by norm_num) (by omega) bps
  obtain ⟨row, hrow, -, hstore⟩ := exists_row_of_recorded hrec hg hb hexact
  refine ⟨row, hrow, ?_⟩
  rw [balanced_iff_of_storeAmounts (exactFee_mem (by positivity) bps).2 hstore]
  exact roundsTogether_units_iff g bps

/-! ## Any amount -/

/-- The columns of a recorded payment add up exactly when rounding its amount and
rounding its fee stay within half a unit of each other. -/
theorem recorded_amounts_balanced_iff {D : RustDecimal} {db db' : Database} {now : ℕ}
    {merchant : Merchant} {req : PaymentRequest} {r : RecordedPayment} {gross : ℚ} {bps : FeeBps}
    (hrec : recordPaymentIfNew D db now merchant req = .ok (db', some r))
    (hg : req.amount = some gross) (h0 : 0 ≤ gross)
    (hb : effectiveFeeBps db now merchant = .ok bps) (hexact : ExactFee D gross bps) :
    ∃ row, db'.payments = db.payments ++ [row] ∧ row.pagingToken = req.pagingToken ∧
      (row.amounts.Balanced ↔ RoundsTogether gross (exactFee gross bps)) := by
  obtain ⟨row, hrow, htok, hstore⟩ := exists_row_of_recorded hrec hg hb hexact
  exact ⟨row, hrow, htok, balanced_iff_of_storeAmounts (exactFee_mem h0 bps).2 hstore⟩

/-- A request for `amount` dollars from an unblocked payer. -/
def exampleRequest (amount : String) : PaymentRequest where
  muxedId := 7
  muxedAddress := "GMERCHANT"
  payerAddress := "GPAYER"
  assetCode := "USDC"
  assetIssuer := some "GISSUER"
  amount := RustDecimal.truncating.parse amount
  fxRateToUsd := none
  pagingToken := 4294967297
  txHash := "tx"

/-- The database after a payment of the example merchant with these units. -/
def exampleDbAfter (amount : String) (a f n : Numeric) : Database :=
  { exampleDb with
    payments := [paymentRow exampleDb exampleMerchant (exampleRequest amount) ⟨a, f, n⟩] }

/-- One dollar at ten basis points. -/
theorem recorded_amounts_balanced_one_dollar :
    ∃ row, (exampleDbAfter "1.0000000" ⟨10000000, by decide⟩ ⟨10000, by decide⟩
        ⟨9990000, by decide⟩).payments = [row] ∧
      (row.amounts.Balanced ↔ RoundsTogether 1 (exactFee 1 exampleMerchant.feeBps)) := by
  have hrec : recordPaymentIfNew .truncating exampleDb 0 exampleMerchant (exampleRequest "1.0000000") =
      .ok (exampleDbAfter "1.0000000" ⟨10000000, by decide⟩ ⟨10000, by decide⟩
        ⟨9990000, by decide⟩, some ⟨0, false⟩) := by decide +kernel
  have hgross : (exampleRequest "1.0000000").amount = some 1 := by decide +kernel
  have hexact : ExactFee .truncating 1 exampleMerchant.feeBps := by
    simpa using exactFee_of_scale .truncating (m := 1) (e := 0) (by norm_num) (by norm_num)
      exampleMerchant.feeBps
  obtain ⟨row, hrow, -, hiff⟩ :=
    recorded_amounts_balanced_iff hrec hgross (by norm_num) rfl hexact
  exact ⟨row, hrow, hiff⟩

/-- 0.0000500 dollars at ten basis points are stored as 501 units of fee and net. -/
theorem recorded_amounts_not_balanced :
    ∃ db' r row, recordPaymentIfNew .truncating exampleDb 0 exampleMerchant
        (exampleRequest "0.0000500") = .ok (db', some r) ∧
      db'.payments = [row] ∧ ¬ row.amounts.Balanced := by
  have hrec : recordPaymentIfNew .truncating exampleDb 0 exampleMerchant
      (exampleRequest "0.0000500") = .ok (exampleDbAfter "0.0000500" ⟨500, by decide⟩
        ⟨1, by decide⟩ ⟨500, by decide⟩, some ⟨0, false⟩) := by decide +kernel
  have hgross : (exampleRequest "0.0000500").amount = some (((500 : ℕ) : ℚ) / 10 ^ 7) := by
    decide +kernel
  have hrate : effectiveFeeBps exampleDb 0 exampleMerchant = .ok ⟨10, by decide⟩ := rfl
  obtain ⟨row, hrow, hiff⟩ := recorded_usdc_balanced_iff hrec hgross (by norm_num) hrate
  exact ⟨_, _, row, hrec, hrow, fun hbalanced => hiff.mp hbalanced (by decide)⟩

end KonfirmBackend.Reconciler
