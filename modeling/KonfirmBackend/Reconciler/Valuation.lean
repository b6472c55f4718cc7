import KonfirmBackend.Common.Asset
import KonfirmBackend.Reconciler.Watch

/-!
# What a payment is worth

`watch` values an operation by its asset code. The native asset has become the code "XLM" by
then, and a credit asset keeps the code its issuer has chosen: a code "XLM" is valued at the
XLM rate and every other code at one dollar, whoever issued the asset.

## Main definitions

- `PaymentOp.ledgerAsset` — the asset of an operation, as the ledger identifies it
- `Payment.CountedInDollars` — only XLM is counted at its rate, only USDC at one dollar

## Main results

- `counted_in_dollars_iff` — the payments that are recorded in dollars
-/

namespace KonfirmBackend.Reconciler

open Transition

/-- The two services' dollar. -/
def usdc : Asset := .credit "USDC" usdcTestnetIssuer

/-- A credit asset is its code with its issuer. -/
def PaymentOp.ledgerAsset (op : PaymentOp) : Option Asset :=
  if op.assetType = some "native" then some .native
  else op.assetCode.bind fun code => op.assetIssuer.map fun issuer => .credit code issuer

/-- The XLM rate of a poll: the one fetched before, else that of the order book. -/
def rateInForce (D : RustDecimal) (cached : Option ℚ) (book : OrderBook) : Except Failure ℚ :=
  match cached with
  | some rate => .ok rate
  | none => book.xlmUsdcRate D

namespace Payment

/-- The amount column holds the operation's amount times the XLM rate. -/
def CountedAtRate (D : RustDecimal) (op : PaymentOp) (xlmRate : Except Failure ℚ)
    (row : Payment) : Prop :=
  ∃ rate ∈ row.fxRateToUsd, xlmRate = .ok rate ∧
    ((D.parse op.rawAmount).bind fun raw => (D.mul raw rate).bind Numeric.ofDecimal) =
      some row.amounts.amountUsdc

/-- The amount column holds the operation's amount unchanged. -/
def CountedUnchanged (D : RustDecimal) (op : PaymentOp) (row : Payment) : Prop :=
  row.fxRateToUsd = none ∧
    (D.parse op.rawAmount).bind Numeric.ofDecimal = some row.amounts.amountUsdc

/-- Only XLM is counted at the XLM rate, and only USDC one to one. -/
def CountedInDollars (D : RustDecimal) (op : PaymentOp) (xlmRate : Except Failure ℚ)
    (row : Payment) : Prop :=
  (row.CountedAtRate D op xlmRate → op.ledgerAsset = some .native) ∧
    (row.CountedUnchanged D op → op.ledgerAsset = some usdc)

instance (D : RustDecimal) (op : PaymentOp) (xlmRate : Except Failure ℚ) (row : Payment) :
    Decidable (row.CountedAtRate D op xlmRate) :=
  inferInstanceAs (Decidable (∃ rate ∈ _, _))

instance (D : RustDecimal) (op : PaymentOp) (row : Payment) :
    Decidable (row.CountedUnchanged D op) :=
  inferInstanceAs (Decidable (_ ∧ _))

instance (D : RustDecimal) (op : PaymentOp) (xlmRate : Except Failure ℚ) (row : Payment) :
    Decidable (row.CountedInDollars D op xlmRate) :=
  inferInstanceAs (Decidable ((_ → _) ∧ (_ → _)))

/-- No row is counted in both ways. -/
theorem CountedAtRate.not_unchanged {D : RustDecimal} {op : PaymentOp}
    {xlmRate : Except Failure ℚ} {row : Payment} (h : row.CountedAtRate D op xlmRate) :
    ¬row.CountedUnchanged D op := by
  obtain ⟨rate, hrate, -⟩ := h
  rintro ⟨hnone, -⟩
  rw [hnone] at hrate
  cases hrate

end Payment

namespace PaymentOp

variable {op : PaymentOp}

theorem isXlm_of_native (h : op.ledgerAsset = some .native) : op.isXlm = true := by
  have htype : op.assetType = some "native" := by
    by_contra hne
    rw [ledgerAsset, if_neg hne] at h
    obtain ⟨code, -, h⟩ := Option.bind_eq_some_iff.mp h
    obtain ⟨issuer, -, h⟩ := Option.map_eq_some_iff.mp h
    cases h
  simp [isXlm, asset, htype]

theorem isXlm_of_usdc (h : op.ledgerAsset = some usdc) : op.isXlm = false := by
  rw [ledgerAsset] at h
  split at h
  · cases h
  · next htype =>
    obtain ⟨code, hcode, h⟩ := Option.bind_eq_some_iff.mp h
    obtain ⟨issuer, -, h⟩ := Option.map_eq_some_iff.mp h
    obtain ⟨rfl, -⟩ := Asset.credit.inj h
    simp [isXlm, asset, htype, hcode]

end PaymentOp

section Recorded

variable {W : Watcher} {w w' : World} {a : Action} {row : Payment} {op : PaymentOp}
  {cached : Option ℚ} {book : OrderBook} {applied amount : Option ℚ}

/-- A payment gets its row in one step only. -/
theorem record_of_inserted (hstep : w.step W a = some w')
    (hrow : w'.db.payments = w.db.payments ++ [row]) :
    ∃ s op rest cached now book id applied amount r, w.proc = .handling s op rest cached ∧
      (a = .watch (.handle now book) ∨ a = .watch (.handleLost now book)) ∧
      appliedRate W.decimal op cached book = .ok applied ∧
      usdAmount W.decimal applied op.rawAmount = .ok amount ∧
      recordPaymentIfNew W.decimal w.db now s.merchant (paymentRequest op id applied amount) =
        .ok (w'.db, r) := by
  have hne : w'.db.payments.length ≠ w.db.payments.length := by simp [hrow]
  cases a with
  | arrive op =>
    obtain ⟨h, -, rfl⟩ := Option.map_eq_some_iff.mp hstep
    exact absurd rfl hne
  | api e =>
    obtain rfl := Option.some.inj hstep
    cases e <;> simp [Database.api] at hne
  | watch a =>
    obtain ⟨⟨db, p⟩, hs, rfl⟩ := Option.map_eq_some_iff.mp hstep
    rcases (Watcher.move_of_step hs).keys_cases with hkeys | ⟨s, op, rest, cached, id, hp, -⟩
    · exact absurd (by simpa [Database.keys] using congrArg List.length hkeys) hne
    · rw [hp] at hs
      cases a with
      | handle now book =>
        simp only [Watcher.step] at hs
        split at hs
        · obtain ⟨rfl, -⟩ := Prod.mk.inj (Option.some.inj hs)
          exact absurd rfl hne
        · next r hok =>
          obtain rfl := Option.some.inj hs
          rcases Watcher.handleOp_eq_ok hok with
            ⟨-, hdb, -⟩ | ⟨id, applied, amount, r, -, -, hrate, husd, hrec, -⟩
          · exact absurd (congrArg (fun db => db.payments.length) hdb) hne
          · exact ⟨s, op, rest, cached, now, book, id, applied, amount, r, hp, .inl rfl, hrate, husd,
              hrec⟩
      | handleLost now book =>
        obtain ⟨s, op, rest, cached, id, applied, amount, r, heq, -, hrate, husd, hrec⟩ :=
          Watcher.record_of_handleLost hs
        exact ⟨s, op, rest, cached, now, book, id, applied, amount, r, hp.trans heq, .inr rfl, hrate,
          husd, hrec⟩
      | check i allowed marked =>
        simp only [Watcher.step] at hs
        split at hs
        · cases hs
        · obtain ⟨rfl, -⟩ := Prod.mk.inj (Option.some.inj hs)
          simp only at hne
          split at hne <;> simp [Database.markHeld] at hne
      | stop =>
        obtain ⟨rfl, -⟩ := Prod.mk.inj (Option.some.inj hs)
        exact absurd rfl hne
      | _ => cases hs

/-- The row holds the rate that was applied and the amount that came out. -/
theorem row_of_inserted {now : ℕ} {merchant : Merchant} {id : UInt64} {db db' : Database}
    {r : Option RecordedPayment}
    (hrec : recordPaymentIfNew W.decimal db now merchant (paymentRequest op id applied amount) =
      .ok (db', r)) (hrow : db'.payments = db.payments ++ [row]) :
    row.pagingToken = op.pagingToken ∧ row.fxRateToUsd = applied ∧
      amount.bind Numeric.ofDecimal = some row.amounts.amountUsdc := by
  rcases recordPaymentIfNew_eq_ok hrec with
    ⟨-, rfl, -⟩ | ⟨gross, bps, fee, net, amounts, hgross, -, -, ha, -, -, rfl, -⟩
  · simp at hrow
  · obtain rfl := List.singleton_inj.mp (List.append_cancel_left hrow)
    have hgross : amount = some gross := hgross
    rw [hgross]
    exact ⟨rfl, rfl, (storeAmounts_eq_some ha).1⟩

/-- An asset with the code "XLM" is counted at the XLM rate. -/
theorem countedAtRate_of_isXlm (hx : op.isXlm = true)
    (hrate : appliedRate W.decimal op cached book = .ok applied)
    (husd : usdAmount W.decimal applied op.rawAmount = .ok amount)
    (hfx : row.fxRateToUsd = applied)
    (hamount : amount.bind Numeric.ofDecimal = some row.amounts.amountUsdc) :
    row.CountedAtRate W.decimal op (rateInForce W.decimal cached book) := by
  have hforce : ∃ rate, rateInForce W.decimal cached book = .ok rate ∧ applied = some rate := by
    simp only [appliedRate, hx, if_true] at hrate
    cases cached with
    | some rate => exact ⟨rate, rfl, (Except.ok.inj hrate).symm⟩
    | none =>
      obtain ⟨rate, hbook, hrate⟩ := bind_eq_ok.mp hrate
      exact ⟨rate, hbook, (Except.ok.inj hrate).symm⟩
  obtain ⟨rate, hforce, rfl⟩ := hforce
  obtain ⟨raw, hraw, husd⟩ := bind_eq_ok.mp husd
  obtain ⟨usd, hmul, husd⟩ := bind_eq_ok.mp husd
  obtain rfl := Except.ok.inj husd
  refine ⟨rate, hfx, hforce, ?_⟩
  rw [orFail_eq_ok.mp hraw, Option.bind_some, orFail_eq_ok.mp hmul]
  exact hamount

/-- Any other asset is counted one to one. -/
theorem countedUnchanged_of_not_isXlm (hx : op.isXlm = false)
    (hrate : appliedRate W.decimal op cached book = .ok applied)
    (husd : usdAmount W.decimal applied op.rawAmount = .ok amount)
    (hfx : row.fxRateToUsd = applied)
    (hamount : amount.bind Numeric.ofDecimal = some row.amounts.amountUsdc) :
    row.CountedUnchanged W.decimal op := by
  simp only [appliedRate, hx, Bool.false_eq_true, if_false] at hrate
  obtain rfl : none = applied := Except.ok.inj hrate
  obtain rfl : W.decimal.parse op.rawAmount = amount := Except.ok.inj husd
  exact ⟨hfx, hamount⟩

/-- **Recorded in dollars**: the payments of XLM and of the issuer's USDC, and no others. -/
theorem counted_in_dollars_iff (hstep : w.step W a = some w')
    (hrow : w'.db.payments = w.db.payments ++ [row]) :
    ∃ s op rest cached now book, w.proc = .handling s op rest cached ∧
      (a = .watch (.handle now book) ∨ a = .watch (.handleLost now book)) ∧
      row.pagingToken = op.pagingToken ∧
      (row.CountedInDollars W.decimal op (rateInForce W.decimal cached book) ↔
        op.ledgerAsset = some .native ∨ op.ledgerAsset = some usdc) := by
  obtain ⟨s, op, rest, cached, now, book, id, applied, amount, r, hp, ha, hrate, husd, hrec⟩ :=
    record_of_inserted hstep hrow
  obtain ⟨htoken, hfx, hamount⟩ := row_of_inserted hrec hrow
  refine ⟨s, op, rest, cached, now, book, hp, ha, htoken, ?_⟩
  constructor
  · rintro ⟨hnative, husdc⟩
    cases hx : op.isXlm with
    | true => exact .inl (hnative (countedAtRate_of_isXlm hx hrate husd hfx hamount))
    | false => exact .inr (husdc (countedUnchanged_of_not_isXlm hx hrate husd hfx hamount))
  · rintro (hnative | husdc)
    · have hrated := countedAtRate_of_isXlm (PaymentOp.isXlm_of_native hnative) hrate husd hfx
        hamount
      exact ⟨fun _ => hnative, fun h => absurd h hrated.not_unchanged⟩
    · have hunchanged := countedUnchanged_of_not_isXlm (PaymentOp.isXlm_of_usdc husdc) hrate husd
        hfx hamount
      exact ⟨fun h => absurd hunchanged h.not_unchanged, fun _ => husdc⟩

end Recorded

/-- A payment in the issuer's USDC. -/
def dollarPayment : PaymentOp :=
  { examplePayment 1 "7" "1.0000000" with assetIssuer := some usdcTestnetIssuer }

def dollarRow : Payment :=
  paymentRow exampleDb exampleMerchant (paymentRequest dollarPayment 7 none (some 1))
    ⟨⟨10000000, by decide⟩, ⟨10000, by decide⟩, ⟨9990000, by decide⟩⟩

theorem dollarRow_countedInDollars :
    dollarRow.CountedInDollars .truncating dollarPayment (rateInForce .truncating none ⟨[], []⟩) := by
  let w : World :=
    ⟨exampleDb, .empty, .handling ⟨exampleMerchant, 0, 0, []⟩ dollarPayment [] none⟩
  have hstep : w.step exampleWatcher (.watch (.handle 1 ⟨[], []⟩)) =
      some ⟨{ exampleDb with payments := [dollarRow] }, .empty,
        .recorded ⟨exampleMerchant, 0, 0, [⟨0, "GPAYER"⟩]⟩ dollarPayment [] none⟩ := by
    decide +kernel
  obtain ⟨s, op, rest, cached, now, book, hp, ha, -, hiff⟩ := counted_in_dollars_iff hstep rfl
  cases hp
  obtain ha | ha := ha <;> cases ha
  exact hiff.mpr (.inr rfl)

/-- 1000 units of an asset of the payer's own making. -/
def forgedPayment (pagingToken : ℕ) (code : String) : PaymentOp :=
  { examplePayment pagingToken (toString pagingToken) "1000" with
    assetCode := some code, assetIssuer := some "GPAYER" }

/-- A worthless "XLM" is counted at ten cents, any other code at one dollar. -/
theorem forged_assets_counted :
    ∃ w, exec (World.step exampleWatcher) exampleWorld
        [.arrive (forgedPayment 1 "XLM"), .arrive (forgedPayment 2 "FREE"), .watch (.start 1),
          .watch (.poll 2), .watch (.handle 1 ⟨["0.1"], ["0.1"]⟩), .watch .persist,
          .watch (.handle 1 ⟨["0.1"], ["0.1"]⟩)] = some w ∧
      w.db.payments.map (fun p => p.amounts.amountUsdc.toRat) = [100, 1000] ∧
      w.db.payments.map (fun p => p.amounts.feeUsdc.toRat) = [1 / 10, 1] ∧
      w.db.paidVolume 0 = 1100 ∧
      ∀ p ∈ w.db.payments, ¬p.CountedInDollars .truncating (forgedPayment p.pagingToken p.assetCode)
        (rateInForce .truncating none ⟨["0.1"], ["0.1"]⟩) :=
  exists_exec_of_any (by decide +kernel)

end KonfirmBackend.Reconciler
