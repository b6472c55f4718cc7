import KonfirmBackend.Lib.Transition
import KonfirmBackend.Reconciler.Promo

/-!
# The volume cap of a promo

A promo with a volume cap lasts while the merchant's paid volume is below the cap. The
volume is summed anew for each payment, from the rows that are 'paid' at that moment. The
on-chain check and the admins change the status of rows that are there already, and a
payment of a locally blocked payer is 'held' from the start.

## Main definitions

- `Ledger`, `Ledger.step` — the database, with the payments charged at the promo rate
- `CapBounds` — the discount stays within the cap, but for the payment that crosses it
- `CountsCharged` — what has been charged at the promo rate counts as paid

## Main results

- `cap_bounds_discount` — runs in which the cap bounds the discount
-/

namespace KonfirmBackend.Reconciler

open Transition

def Payment.amountUsdc (p : Payment) : ℚ := p.amounts.amountUsdc.toRat

/-- The merchant's next payment is charged at the promo rate. -/
def PromoCharges (db : Database) (merchantId now : ℕ) : Prop :=
  ∃ row ∈ db.merchants.find? (fun m => decide (m.id = merchantId)),
    row.PromoApplies now (db.paidVolume merchantId)

instance (db : Database) (merchantId now : ℕ) : Decidable (PromoCharges db merchantId now) :=
  inferInstanceAs (Decidable (∃ row ∈ _, _))

/-- It is then, and only then, that `effective_fee_bps` takes the rate of the promo. -/
theorem effectiveFeeBps_of_promoCharges {db : Database} {row : MerchantRow}
    (hrow : db.merchants.find? (fun m => decide (m.id = row.id)) = some row) (now : ℕ) :
    effectiveFeeBps db now row.merchant =
      .ok (if PromoCharges db row.id now then row.promoFeeBps.getD row.feeBps else row.feeBps) := by
  have hiff : PromoCharges db row.id now ↔ row.PromoApplies now (db.paidVolume row.id) := by
    simp [PromoCharges, hrow]
  rw [effectiveFeeBps_eq db hrow now, MerchantRow.rate_eq]
  simp only [hiff]

/-- The database, and the payments of one merchant that were charged at the promo rate
(`effectiveFeeBps_of_promoCharges`), as they were inserted, oldest first. -/
structure Ledger where
  db : Database
  charged : List Payment
deriving DecidableEq

inductive LedgerAction
  | record (now : ℕ) (merchant : Merchant) (req : PaymentRequest)
  | markHeld (paymentId : ℕ)
  /-- `AdminPaymentsService.setStatus` -/
  | setStatus (paymentId : ℕ) (status : PaymentStatus)

/-- `UPDATE payments SET status`. -/
def Database.setStatus (db : Database) (paymentId : ℕ) (status : PaymentStatus) : Database :=
  { db with payments := db.payments.map fun p =>
      if p.id = paymentId then { p with status := status } else p }

namespace Ledger

def tokens (s : Ledger) : List ℕ := s.charged.map Payment.pagingToken

/-- The rows of the payments that were charged at the promo rate, as they are now. -/
def chargedRows (s : Ledger) : List Payment :=
  s.db.payments.filter fun p => decide (p.pagingToken ∈ s.tokens)

def step (D : RustDecimal) (merchantId : ℕ) (s : Ledger) : LedgerAction → Option Ledger
  | .record now merchant req =>
    match recordPaymentIfNew D s.db now merchant req with
    | .error _ => some s
    | .ok (db, _) =>
      let inserted := db.payments.drop s.db.payments.length
      some ⟨db, if merchant.id = merchantId ∧ PromoCharges s.db merchantId now then
        s.charged ++ inserted else s.charged⟩
  | .markHeld paymentId => some { s with db := s.db.markHeld paymentId }
  | .setStatus paymentId status => some { s with db := s.db.setStatus paymentId status }

end Ledger

/-- The payment at position `i` takes the running total of the amounts to the cap. -/
def Crosses (cap : ℚ) (amounts : List ℚ) (i : ℕ) : Prop :=
  (amounts.take i).sum < cap ∧ cap ≤ (amounts.take (i + 1)).sum

/-- The total, without the payment that crosses the cap if there is one, is below the cap. -/
def CapBounds (cap : ℚ) (amounts : List ℚ) : Prop :=
  amounts.sum < cap ∨
    ∃ i < amounts.length, Crosses cap amounts i ∧ (amounts.eraseIdx i).sum < cap

instance (cap : ℚ) (amounts : List ℚ) (i : ℕ) : Decidable (Crosses cap amounts i) :=
  inferInstanceAs (Decidable (_ ∧ _))

instance (cap : ℚ) (amounts : List ℚ) : Decidable (CapBounds cap amounts) :=
  inferInstanceAs (Decidable (_ ∨ ∃ i < _, _))

/-- When a new payment is charged at the promo rate, all that were before have the status
'paid'. -/
def CountsCharged (e : Ledger × LedgerAction × Ledger) : Prop :=
  e.2.2.charged ≠ e.1.charged → ∀ p ∈ e.1.chargedRows, p.status = .paid

/-- The amount of a request is not negative, as no payment on Stellar is. -/
def LedgerAction.Nonneg : LedgerAction → Prop
  | .record _ _ req => ∀ gross ∈ req.amount, 0 ≤ gross
  | _ => True

instance : DecidablePred CountsCharged := fun e =>
  inferInstanceAs (Decidable (_ → ∀ p ∈ e.1.chargedRows, _))

instance : DecidablePred LedgerAction.Nonneg := by
  rintro a
  cases a with
  | record now merchant req => exact inferInstanceAs (Decidable (∀ gross ∈ req.amount, 0 ≤ gross))
  | markHeld | setStatus => exact isTrue trivial

/-- What is known of the payments charged at the promo rate: their rows are there, for the
merchant, and keep the amounts they were inserted with. -/
structure Ledger.Inv (merchants : List MerchantRow) (merchantId : ℕ) (s : Ledger) : Prop where
  merchants : s.db.merchants = merchants
  nonneg : ∀ p ∈ s.db.payments, 0 ≤ p.amounts.amountUsdc.units
  known : ∀ t ∈ s.tokens, s.db.HasToken t
  merchantId : ∀ p ∈ s.chargedRows, p.merchantId = merchantId
  total : (s.charged.map Payment.amountUsdc).sum = (s.chargedRows.map Payment.amountUsdc).sum

section Steps

variable {D : RustDecimal} {merchants : List MerchantRow} {merchantId : ℕ} {s t : Ledger}
  {a : LedgerAction} {r : Payment} {db : Database}

theorem Ledger.inv_start (h : ∀ p ∈ db.payments, 0 ≤ p.amounts.amountUsdc.units) :
    Ledger.Inv db.merchants merchantId ⟨db, []⟩ := by
  refine ⟨rfl, h, ?_, ?_, ?_⟩ <;> simp [Ledger.tokens, Ledger.chargedRows]

/-- A fresh row is not one of those charged before. -/
theorem Ledger.Inv.not_mem_tokens (hs : s.Inv merchants merchantId)
    (hfresh : ¬s.db.HasToken r.pagingToken) : r.pagingToken ∉ s.tokens :=
  fun hmem => hfresh (hs.known _ hmem)

/-- A new row is one of the charged ones if it is charged. -/
theorem Ledger.Inv.chargedRows_insert (hs : s.Inv merchants merchantId)
    (hfresh : ¬s.db.HasToken r.pagingToken) {more : List Payment} (hmore : more = [] ∨ more = [r]) :
    Ledger.chargedRows ⟨{ s.db with payments := s.db.payments ++ [r] }, s.charged ++ more⟩ =
      s.chargedRows ++ more := by
  rcases hmore with rfl | rfl
  · have hnew : [r].filter (fun p => decide (p.pagingToken ∈ s.tokens)) = [] :=
      List.filter_cons_of_neg (by rw [decide_eq_true_eq]; exact hs.not_mem_tokens hfresh)
    rw [List.append_nil, List.append_nil]
    show (s.db.payments ++ [r]).filter (fun p => decide (p.pagingToken ∈ s.tokens)) = s.chargedRows
    rw [List.filter_append, hnew, List.append_nil, chargedRows]
  · have htokens : Ledger.tokens ⟨{ s.db with payments := s.db.payments ++ [r] },
        s.charged ++ [r]⟩ = s.tokens ++ [r.pagingToken] := List.map_append
    have hold : s.db.payments.filter (fun p =>
        decide (p.pagingToken ∈ s.tokens ++ [r.pagingToken])) = s.chargedRows := by
      apply List.filter_congr
      intro p hp
      have hne : p.pagingToken ≠ r.pagingToken := fun heq => hfresh ⟨p, hp, heq⟩
      simp [hne]
    have hnew : [r].filter (fun p => decide (p.pagingToken ∈ s.tokens ++ [r.pagingToken])) = [r] :=
      List.filter_cons_of_pos (by simp)
    rw [chargedRows, htokens, List.filter_append, hold, hnew]

/-- Recording a new payment. -/
theorem Ledger.Inv.insert (hs : s.Inv merchants merchantId) (hr : 0 ≤ r.amounts.amountUsdc.units)
    (hfresh : ¬s.db.HasToken r.pagingToken) {more : List Payment} (hmore : more = [] ∨ more = [r])
    (hmerchant : more = [r] → r.merchantId = merchantId) :
    Ledger.Inv merchants merchantId
      ⟨{ s.db with payments := s.db.payments ++ [r] }, s.charged ++ more⟩ := by
  have hrows := hs.chargedRows_insert hfresh hmore
  refine ⟨hs.merchants, ?_, ?_, ?_, ?_⟩
  · intro p hp
    rcases List.mem_append.mp hp with hp | hp
    · exact hs.nonneg p hp
    · rwa [List.mem_singleton.mp hp]
  · intro t ht
    rw [tokens, List.map_append, List.mem_append] at ht
    rcases ht with ht | ht
    · obtain ⟨p, hp, hpt⟩ := hs.known t ht
      exact ⟨p, List.mem_append_left _ hp, hpt⟩
    · rcases hmore with rfl | rfl
      · simp at ht
      · exact ⟨r, by simp, by simpa [eq_comm] using ht⟩
  · rw [hrows]
    intro p hp
    rcases List.mem_append.mp hp with hp | hp
    · exact hs.merchantId p hp
    · rcases hmore with rfl | rfl
      · simp at hp
      · rw [List.mem_singleton.mp hp]
        exact hmerchant rfl
  · rw [hrows]
    simp only [List.map_append, List.sum_append, hs.total]

/-- A change of a status is an update that keeps what the invariant speaks of. -/
theorem Ledger.Inv.setStatus (hs : s.Inv merchants merchantId) (paymentId : ℕ)
    (status : PaymentStatus) :
    Ledger.Inv merchants merchantId { s with db := s.db.setStatus paymentId status } := by
  have hrows : Ledger.chargedRows { s with db := s.db.setStatus paymentId status } =
      s.chargedRows.map fun p => if p.id = paymentId then { p with status := status } else p := by
    simp only [chargedRows, tokens, Database.setStatus, List.filter_map]
    congr 1
    apply List.filter_congr
    intro p hp
    simp only [Function.comp_apply]
    split <;> rfl
  refine ⟨hs.merchants, ?_, ?_, ?_, ?_⟩
  · intro p hp
    obtain ⟨q, hq, rfl⟩ := List.mem_map.mp hp
    split <;> exact hs.nonneg q hq
  · intro t ht
    obtain ⟨p, hp, hpt⟩ := hs.known t ht
    exact ⟨_, List.mem_map_of_mem hp, by split <;> exact hpt⟩
  · rw [hrows]
    intro p hp
    obtain ⟨q, hq, rfl⟩ := List.mem_map.mp hp
    split <;> exact hs.merchantId q hq
  · rw [hrows, hs.total, List.map_map]
    congr 1
    apply List.map_congr_left
    intro p _
    simp only [Function.comp_apply]
    split <;> rfl

/-- What a call for an amount that is not negative does to the payments. -/
theorem inserted_of_record {db' : Database} {now : ℕ} {merchant : Merchant} {req : PaymentRequest}
    {res : Option RecordedPayment} (hreq : ∀ gross ∈ req.amount, 0 ≤ gross)
    (h : recordPaymentIfNew D db now merchant req = .ok (db', res)) :
    db' = db ∨ ∃ r : Payment, ¬db.HasToken req.pagingToken ∧ r.pagingToken = req.pagingToken ∧
      r.merchantId = merchant.id ∧ 0 ≤ r.amounts.amountUsdc.units ∧
      db' = { db with payments := db.payments ++ [r] } := by
  rcases recordPaymentIfNew_eq_ok h with
    ⟨-, hdb, -⟩ | ⟨gross, bps, fee, net, amounts, hgross, -, -, ha, hfresh, -, hdb, -⟩
  · exact .inl hdb
  · refine .inr ⟨paymentRow db merchant req amounts, hfresh, rfl, rfl, ?_, hdb⟩
    have hunits := Numeric.units_of_ofDecimal (storeAmounts_eq_some ha).1
    show 0 ≤ amounts.amountUsdc.units
    rw [hunits]
    have hgross0 := hreq gross hgross
    exact roundAway_nonneg (by positivity)

/-- What recording does to the ledger: nothing, or one more row that is charged at the promo
rate or not. -/
theorem record_cases {now : ℕ} {merchant : Merchant} {req : PaymentRequest}
    (hreq : ∀ gross ∈ req.amount, 0 ≤ gross)
    (h : Ledger.step D merchantId s (.record now merchant req) = some t) :
    t = s ∨ ∃ r : Payment, ∃ more : List Payment, ¬s.db.HasToken req.pagingToken ∧
      r.pagingToken = req.pagingToken ∧ 0 ≤ r.amounts.amountUsdc.units ∧
      t = ⟨{ s.db with payments := s.db.payments ++ [r] }, s.charged ++ more⟩ ∧
      (more = [] ∨ more = [r] ∧ r.merchantId = merchantId ∧ merchant.id = merchantId ∧
        PromoCharges s.db merchantId now) := by
  simp only [Ledger.step] at h
  split at h
  · exact .inl (Option.some.inj h).symm
  · next db' res hok =>
    obtain rfl := Option.some.inj h
    rcases inserted_of_record hreq hok with rfl | ⟨r, hfresh, htoken, hmerchant, hr, rfl⟩
    · left
      simp
    · right
      rw [List.drop_left]
      by_cases hpromo : merchant.id = merchantId ∧ PromoCharges s.db merchantId now
      · exact ⟨r, [r], hfresh, htoken, hr, by rw [if_pos hpromo],
          .inr ⟨rfl, hmerchant.trans hpromo.1, hpromo.1, hpromo.2⟩⟩
      · exact ⟨r, [], hfresh, htoken, hr, by rw [if_neg hpromo, List.append_nil], .inl rfl⟩

theorem inv_of_step (hs : s.Inv merchants merchantId) (hreq : a.Nonneg)
    (h : Ledger.step D merchantId s a = some t) : t.Inv merchants merchantId := by
  cases a with
  | record now merchant req =>
    rcases record_cases hreq h with rfl | ⟨r, more, hfresh, htoken, hr, rfl, hmore⟩
    · exact hs
    · rw [← htoken] at hfresh
      rcases hmore with rfl | ⟨rfl, hmerchant, -⟩
      · exact hs.insert hr hfresh (.inl rfl) (by simp)
      · exact hs.insert hr hfresh (.inr rfl) fun _ => hmerchant
  | markHeld paymentId =>
    obtain rfl := Option.some.inj h
    exact hs.setStatus paymentId .held
  | setStatus paymentId status =>
    obtain rfl := Option.some.inj h
    exact hs.setStatus paymentId status

/-- While all that was charged counts as paid, it is part of the paid volume. -/
theorem Ledger.Inv.total_le_paidVolume (hs : s.Inv merchants merchantId)
    (hpaid : ∀ p ∈ s.chargedRows, p.status = .paid) :
    (s.charged.map Payment.amountUsdc).sum ≤ s.db.paidVolume merchantId := by
  rw [hs.total, Database.paidVolume]
  have hsub : s.chargedRows.Sublist (s.db.payments.filter fun p =>
      decide (p.merchantId = merchantId ∧ p.status = .paid)) := by
    have heq : s.chargedRows = s.chargedRows.filter fun p =>
        decide (p.merchantId = merchantId ∧ p.status = .paid) := by
      symm
      rw [List.filter_eq_self]
      intro p hp
      exact decide_eq_true ⟨hs.merchantId p hp, hpaid p hp⟩
    rw [heq]
    exact List.filter_sublist.filter _
  apply (hsub.map Payment.amountUsdc).sum_le_sum
  intro q hq
  obtain ⟨p, hp, rfl⟩ := List.mem_map.mp hq
  have hunits : (0 : ℚ) ≤ p.amounts.amountUsdc.units := by
    exact_mod_cast hs.nonneg p (List.mem_of_mem_filter hp)
  exact div_nonneg hunits (by norm_num)

/-- A payment that finds the total below the cap leaves it bounded. -/
theorem capBounds_append {cap : ℚ} {amounts : List ℚ} (h : amounts.sum < cap) (x : ℚ) :
    CapBounds cap (amounts ++ [x]) := by
  rcases lt_or_ge (amounts ++ [x]).sum cap with hlt | hge
  · exact .inl hlt
  · refine .inr ⟨amounts.length, by simp, ⟨?_, ?_⟩, ?_⟩
    · rwa [List.take_left]
    · rwa [List.take_of_length_le (by simp)]
    · rwa [List.eraseIdx_append_of_length_le le_rfl, Nat.sub_self, List.eraseIdx_cons_zero,
        List.append_nil]

theorem capBounds_of_step {row : MerchantRow} {cap : ℚ} (hs : s.Inv merchants merchantId)
    (hbounds : CapBounds cap (s.charged.map Payment.amountUsdc))
    (hrow : merchants.find? (fun m => decide (m.id = merchantId)) = some row)
    (hcap : row.promoVolumeCapUsdc = some cap) (hreq : a.Nonneg)
    (hcounts : CountsCharged (s, a, t)) (h : Ledger.step D merchantId s a = some t) :
    CapBounds cap (t.charged.map Payment.amountUsdc) := by
  cases a with
  | record now merchant req =>
    rcases record_cases hreq h with rfl | ⟨r, more, -, -, -, rfl, hmore⟩
    · exact hbounds
    · rcases hmore with rfl | ⟨rfl, -, -, hpromo⟩
      · rwa [List.append_nil]
      · have hvolume : s.db.paidVolume merchantId < cap := by
          obtain ⟨row', hrow', -, -, hlt⟩ := hpromo
          rw [hs.merchants, Option.mem_def] at hrow'
          obtain rfl : row = row' := Option.some.inj (hrow.symm.trans hrow')
          exact hlt cap hcap
        have hcharged : s.charged ++ [r] ≠ s.charged := by simp
        have htotal := hs.total_le_paidVolume (hcounts hcharged)
        rw [List.map_append, List.map_singleton]
        exact capBounds_append (htotal.trans_lt hvolume) _
  | markHeld | setStatus =>
    obtain rfl := Option.some.inj h
    exact hbounds

/-- **The cap bounds the discount** in every run in which no payment is charged at the promo
rate while one that was before is not 'paid'. -/
theorem cap_bounds_discount (D : RustDecimal) {db : Database} {row : MerchantRow} {cap : ℚ}
    {ls : List LedgerAction}
    (hrow : db.merchants.find? (fun m => decide (m.id = row.id)) = some row)
    (hcap : row.promoVolumeCapUsdc = some cap) (hpos : 0 < cap)
    (hdb : ∀ p ∈ db.payments, 0 ≤ p.amounts.amountUsdc.units)
    (hreq : ∀ a ∈ ls, a.Nonneg)
    (hcounts : ∀ e ∈ trace (Ledger.step D row.id) ⟨db, []⟩ ls, CountsCharged e) :
    ∀ e ∈ trace (Ledger.step D row.id) ⟨db, []⟩ ls,
      CapBounds cap (e.2.2.charged.map Payment.amountUsdc) := by
  let I : Ledger → Prop := fun s =>
    s.Inv db.merchants row.id ∧ CapBounds cap (s.charged.map Payment.amountUsdc)
  have hstart : I ⟨db, []⟩ := ⟨Ledger.inv_start hdb, .inl (by simpa using hpos)⟩
  have hstep : ∀ s a t, I s → a.Nonneg ∧ CountsCharged (s, a, t) →
      Ledger.step D row.id s a = some t → I t := fun s a t hs h hst =>
    ⟨inv_of_step hs.1 h.1 hst, capBounds_of_step hs.1 hs.2 hrow hcap h.1 h.2 hst⟩
  have hrun := trace_invariant_of_forall (I := I)
    (H := fun e => e.2.1.Nonneg ∧ CountsCharged e) hstart hstep
    fun e he => ⟨(reaches_of_mem_trace hreq he).2.1, hcounts e he⟩
  exact fun e he => (hrun e he).2

end Steps

/-- The example merchant on a trial: no fee for the first 500 dollars. -/
def trialRow : MerchantRow :=
  ⟨0, some "GMERCHANT", ⟨10, FeeBps.ten_le⟩, some ⟨0, FeeBps.zero_le⟩, some 1000, some 500⟩

def trialDb : Database := { exampleDb with merchants := [trialRow] }

/-- A payment of 400 dollars to a session of its own. -/
def trialRequest (pagingToken : ℕ) : PaymentRequest where
  muxedId := .ofNat pagingToken
  muxedAddress := "GMERCHANT"
  payerAddress := "GPAYER"
  assetCode := "USDC"
  assetIssuer := some "GISSUER"
  amount := some 400
  fxRateToUsd := none
  pagingToken := pagingToken
  txHash := "tx"

/-- Three payments one after the other: the second one crosses the cap, the third one is
charged at the base rate. -/
def exampleTrial : List LedgerAction :=
  [.record 1 exampleMerchant (trialRequest 1), .record 2 exampleMerchant (trialRequest 2),
    .record 3 exampleMerchant (trialRequest 3)]

theorem cap_bounds_exampleTrial :
    ∃ e ∈ trace (Ledger.step .truncating 0) ⟨trialDb, []⟩ exampleTrial,
      e.2.2.db.payments.length = 3 ∧ e.2.2.charged.map Payment.amountUsdc = [400, 400] ∧
        effectiveFeeBps e.2.2.db 4 exampleMerchant = .ok trialRow.feeBps ∧
          CapBounds 500 (e.2.2.charged.map Payment.amountUsdc) := by
  have hrow : trialDb.merchants.find? (fun m => decide (m.id = trialRow.id)) = some trialRow := rfl
  have hdb : ∀ p ∈ trialDb.payments, 0 ≤ p.amounts.amountUsdc.units := by
    simp [trialDb, exampleDb]
  have hreq : ∀ a ∈ exampleTrial, a.Nonneg := by decide +kernel
  have hcounts : ∀ e ∈ trace (Ledger.step .truncating trialRow.id) ⟨trialDb, []⟩ exampleTrial,
      CountsCharged e := by
    decide +kernel
  have hbounds := cap_bounds_discount .truncating hrow rfl (by norm_num) hdb hreq hcounts
  have hlast : ∃ e ∈ trace (Ledger.step .truncating 0) ⟨trialDb, []⟩ exampleTrial,
      e.2.2.db.payments.length = 3 ∧ e.2.2.charged.map Payment.amountUsdc = [400, 400] ∧
        e.2.2.db.merchants = [trialRow] ∧ ¬PromoCharges e.2.2.db 0 4 := by
    decide +kernel
  obtain ⟨e, he, hlength, hcharged, hmerchants, hbase⟩ := hlast
  have hfound : e.2.2.db.merchants.find? (fun m => decide (m.id = trialRow.id)) =
      some trialRow := by
    rw [hmerchants]
    rfl
  have hrate := effectiveFeeBps_of_promoCharges hfound 4
  rw [if_neg (show ¬PromoCharges e.2.2.db trialRow.id 4 from hbase)] at hrate
  exact ⟨e, he, hlength, hcharged, hrate, hbounds e he⟩

/-- A payment is held by the time the next one is recorded, and released later on: 1200 dollars
pass without a fee. -/
theorem cap_exceeded :
    ∃ s, exec (Ledger.step .truncating 0) ⟨trialDb, []⟩
        [.record 1 exampleMerchant (trialRequest 1), .markHeld 0,
          .record 2 exampleMerchant (trialRequest 2), .markHeld 1,
          .record 3 exampleMerchant (trialRequest 3), .setStatus 0 .paid, .setStatus 1 .paid] =
          some s ∧
      s.charged.map Payment.amountUsdc = [400, 400, 400] ∧
      (∀ p ∈ s.db.payments, p.status = .paid ∧ p.amounts.feeUsdc.units = 0) ∧
      ¬CapBounds 500 (s.charged.map Payment.amountUsdc) :=
  exists_exec_of_any (by decide +kernel)

end KonfirmBackend.Reconciler
