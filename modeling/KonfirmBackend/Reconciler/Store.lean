import KonfirmBackend.Reconciler.Horizon
import Mathlib.Algebra.BigOperators.Group.List.Basic

/-!
# The reconciler's store

The tables the reconciler reads and writes, and `record_payment_if_new`. The
`payments` table has two unique indexes: on `paging_token`, whose conflicts the
INSERT absorbs, and on `(merchant_id, muxed_id)`, whose conflicts are errors.

## Main definitions

- `Database` — the tables
- `effectiveFeeBps` — the merchant's rate at the moment of a payment
- `insertPayment`, `recordPaymentIfNew` — the idempotent INSERT

## Main results

- `recordPaymentIfNew_eq_ok` — what a call that returns has done
- `exists_recordPaymentIfNew`, `recordPaymentIfNew_isOk_iff` — when a call returns
-/

namespace KonfirmBackend.Reconciler

/-- The value of the cursor row: the word "now" or a paging token. -/
inductive Cursor
  | now
  | token (t : ℕ)
deriving DecidableEq

/-- The columns of a `merchants` row that the reconciler reads. -/
structure MerchantRow where
  id : ℕ
  stellarBaseAddress : Option String
  feeBps : FeeBps
  promoFeeBps : Option FeeBps
  promoExpiresAt : Option ℕ
  promoVolumeCapUsdc : Option ℚ
deriving DecidableEq

/-- What `watch` keeps of the merchant for a whole run. -/
structure Merchant where
  id : ℕ
  feeBps : FeeBps
deriving DecidableEq

inductive PaymentChannel
  | hostedCheckout
  | terminal
  | agentApi
deriving DecidableEq

inductive PaymentStatus
  | paid
  | held
  | refunded
  | disputed
deriving DecidableEq

/-- A `payments` row. Signed 64-bit columns hold session ids. -/
structure Payment where
  id : ℕ
  merchantId : ℕ
  linkId : Option ℕ
  muxedId : Int64
  muxedAddress : String
  payerAddress : String
  assetCode : String
  assetIssuer : Option String
  amounts : Amounts
  fxRateToUsd : Option ℚ
  channel : PaymentChannel
  status : PaymentStatus
  pagingToken : ℕ
  txHash : String
  ledgerSequence : ℕ
deriving DecidableEq

/-- A reservation of a session id for a link. -/
structure LinkSession where
  linkId : ℕ
  merchantId : ℕ
  muxedId : Int64
deriving DecidableEq

structure Database where
  merchants : List MerchantRow
  payments : List Payment
  linkSessions : List LinkSession
  blockedAddresses : List String
  cursor : Option Cursor
deriving DecidableEq

namespace Database

def findMerchantByStellarAddress (db : Database) (address : String) : Option Merchant :=
  (db.merchants.find? fun m => decide (m.stellarBaseAddress = some address)).map fun m =>
    ⟨m.id, m.feeBps⟩

def isLocallyBlocked (db : Database) (address : String) : Bool :=
  db.blockedAddresses.contains address

def getCursor (db : Database) : Cursor := db.cursor.getD .now

def setCursor (db : Database) (c : Cursor) : Database := { db with cursor := some c }

/-- `mark_held`: an UPDATE by primary key. -/
def markHeld (db : Database) (paymentId : ℕ) : Database :=
  { db with payments := db.payments.map fun p =>
      if p.id = paymentId then { p with status := .held } else p }

/-- The paid volume of a merchant, `SUM(amount_usdc)`. -/
def paidVolume (db : Database) (merchantId : ℕ) : ℚ :=
  ((db.payments.filter fun p => p.merchantId = merchantId ∧ p.status = .paid).map
    fun p => p.amounts.amountUsdc.toRat).sum

/-- The link a session id was reserved for. -/
def linkOf (db : Database) (merchantId : ℕ) (muxedId : Int64) : Option ℕ :=
  (db.linkSessions.find? fun l => decide (l.merchantId = merchantId ∧ l.muxedId = muxedId)).map
    LinkSession.linkId

end Database

/-- The promo rate while its time and its volume last, else the base rate. -/
def resolveEffectiveFeeBps (baseFeeBps : FeeBps) (promoFeeBps : Option FeeBps)
    (promoTimeValid : Bool) (promoVolumeCapUsdc : Option ℚ) (volumeSoFarUsdc : ℚ) : FeeBps :=
  match promoFeeBps with
  | some promo =>
    if promoTimeValid ∧ (promoVolumeCapUsdc.elim true fun cap => decide (volumeSoFarUsdc < cap))
    then promo
    else baseFeeBps
  | none => baseFeeBps

/-- `effective_fee_bps` at the database's time `now`. -/
def effectiveFeeBps (db : Database) (now : ℕ) (merchant : Merchant) : Except Failure FeeBps := do
  let row ← orFail (db.merchants.find? fun m => decide (m.id = merchant.id)) .rowNotFound
  return resolveEffectiveFeeBps merchant.feeBps row.promoFeeBps
    (row.promoExpiresAt.elim false fun t => decide (now < t)) row.promoVolumeCapUsdc
    (db.paidVolume merchant.id)

/-- The arguments of `record_payment_if_new`; `amount` is the amount string as
`Decimal::from_str` reads it. -/
structure PaymentRequest where
  muxedId : Int64
  muxedAddress : String
  payerAddress : String
  assetCode : String
  assetIssuer : Option String
  amount : Option ℚ
  fxRateToUsd : Option ℚ
  pagingToken : ℕ
  txHash : String

structure RecordedPayment where
  id : ℕ
  locallyBlocked : Bool
deriving DecidableEq

/-- The high half of a paging token that fits 64 bits, else 0. -/
def ledgerSequence (pagingToken : ℕ) : ℕ :=
  if pagingToken < 2 ^ 64 then pagingToken >>> 32 else 0

/-- The row that is offered to the INSERT. Its id is the next unused one. -/
def paymentRow (db : Database) (merchant : Merchant) (req : PaymentRequest) (amounts : Amounts) :
    Payment where
  id := db.payments.length
  merchantId := merchant.id
  linkId := db.linkOf merchant.id req.muxedId
  muxedId := req.muxedId
  muxedAddress := req.muxedAddress
  payerAddress := req.payerAddress
  assetCode := req.assetCode
  assetIssuer := req.assetIssuer
  amounts := amounts
  fxRateToUsd := req.fxRateToUsd
  channel := .hostedCheckout
  status := if db.isLocallyBlocked req.payerAddress then .held else .paid
  pagingToken := req.pagingToken
  txHash := req.txHash
  ledgerSequence := ledgerSequence req.pagingToken

/-- A row with this paging token exists. -/
def Database.HasToken (db : Database) (t : ℕ) : Prop := ∃ p ∈ db.payments, p.pagingToken = t

/-- A row of this merchant with this session id exists. -/
def Database.HasSession (db : Database) (merchantId : ℕ) (muxedId : Int64) : Prop :=
  ∃ p ∈ db.payments, p.merchantId = merchantId ∧ p.muxedId = muxedId

instance (db : Database) (t : ℕ) : Decidable (db.HasToken t) :=
  inferInstanceAs (Decidable (∃ p ∈ db.payments, _))

instance (db : Database) (merchantId : ℕ) (muxedId : Int64) :
    Decidable (db.HasSession merchantId muxedId) :=
  inferInstanceAs (Decidable (∃ p ∈ db.payments, _))

/-- `INSERT … ON CONFLICT (paging_token) DO NOTHING RETURNING id`. -/
def insertPayment (db : Database) (row : Payment) : Except Failure (Database × Option ℕ) :=
  if db.HasToken row.pagingToken then .ok (db, none)
  else if db.HasSession row.merchantId row.muxedId then
    .error (.uniqueViolation "payments_muxed_id_idx")
  else .ok ({ db with payments := db.payments ++ [row] }, some row.id)

/-- `record_payment_if_new`. The amounts are bound, and have to fit their columns,
before the INSERT looks for conflicts. -/
def recordPaymentIfNew (D : RustDecimal) (db : Database) (now : ℕ) (merchant : Merchant)
    (req : PaymentRequest) : Except Failure (Database × Option RecordedPayment) := do
  let gross ← orFail req.amount (.context "horizon returned a non-decimal amount")
  let feeBps ← effectiveFeeBps db now merchant
  let (fee, net) ← orFail (feeAndNet D gross feeBps) .decimalOverflow
  let amounts ← orFail (storeAmounts gross fee net) .numericOverflow
  let (db', inserted) ← insertPayment db (paymentRow db merchant req amounts)
  return (db', inserted.map fun id => ⟨id, db.isLocallyBlocked req.payerAddress⟩)

/-- A database with one merchant on the default rate and no payments. -/
def exampleDb : Database where
  merchants := [⟨0, some "GMERCHANT", ⟨10, by decide⟩, none, none, none⟩]
  payments := []
  linkSessions := []
  blockedAddresses := []
  cursor := some (.token 0)

def exampleMerchant : Merchant := ⟨0, ⟨10, by decide⟩⟩

/-! ## Keys of the payments table -/

/-- The indexed columns of a row. -/
structure PaymentKey where
  pagingToken : ℕ
  merchantId : ℕ
  muxedId : Int64
deriving DecidableEq

def Payment.key (p : Payment) : PaymentKey := ⟨p.pagingToken, p.merchantId, p.muxedId⟩

namespace Database

def keys (db : Database) : List PaymentKey := db.payments.map Payment.key

theorem hasToken_iff {db : Database} {t : ℕ} :
    db.HasToken t ↔ ∃ k ∈ db.keys, k.pagingToken = t := by
  simp [HasToken, keys, Payment.key]

theorem hasSession_iff {db : Database} {m : ℕ} {i : Int64} :
    db.HasSession m i ↔ ∃ k ∈ db.keys, k.merchantId = m ∧ k.muxedId = i := by
  simp [HasSession, keys, Payment.key]

/-- Two databases with the same keys have the same tokens. -/
theorem hasToken_congr {db db' : Database} (h : db'.keys = db.keys) (t : ℕ) :
    db'.HasToken t ↔ db.HasToken t := by
  rw [hasToken_iff, hasToken_iff, h]

/-- An UPDATE that leaves the indexed columns alone. -/
theorem keys_map {db : Database} {f : Payment → Payment} (hf : ∀ p, (f p).key = p.key) :
    ({ db with payments := db.payments.map f } : Database).keys = db.keys := by
  simp only [keys, List.map_map]
  exact List.map_congr_left fun p _ => hf p

theorem findMerchant_congr {db db' : Database} (h : db'.merchants = db.merchants) (a : String) :
    db'.findMerchantByStellarAddress a = db.findMerchantByStellarAddress a := by
  rw [findMerchantByStellarAddress, findMerchantByStellarAddress, h]

@[simp] theorem keys_markHeld (db : Database) (id : ℕ) : (db.markHeld id).keys = db.keys :=
  keys_map fun p => by split <;> rfl

@[simp] theorem cursor_markHeld (db : Database) (id : ℕ) : (db.markHeld id).cursor = db.cursor :=
  rfl

@[simp] theorem keys_setCursor (db : Database) (c : Cursor) : (db.setCursor c).keys = db.keys :=
  rfl

end Database

/-! ## What recording does -/

/-- The three ways an INSERT can end. -/
theorem insertPayment_eq_ok {db db' : Database} {row : Payment} {r : Option ℕ}
    (h : insertPayment db row = .ok (db', r)) :
    (db.HasToken row.pagingToken ∧ db' = db ∧ r = none) ∨
      (¬ db.HasToken row.pagingToken ∧ ¬ db.HasSession row.merchantId row.muxedId ∧
        db' = { db with payments := db.payments ++ [row] } ∧ r = some row.id) := by
  simp only [insertPayment] at h
  split at h
  · obtain ⟨rfl, rfl⟩ := Prod.mk.inj (Except.ok.inj h)
    exact .inl ⟨‹_›, rfl, rfl⟩
  · split at h
    · simp at h
    · obtain ⟨rfl, rfl⟩ := Prod.mk.inj (Except.ok.inj h)
      exact .inr ⟨‹_›, ‹_›, rfl, rfl⟩

theorem exists_insertPayment {db : Database} (row : Payment)
    (hfree : db.HasToken row.pagingToken ∨ ¬ db.HasSession row.merchantId row.muxedId) :
    ∃ db' r, insertPayment db row = .ok (db', r) := by
  rw [insertPayment]
  by_cases ht : db.HasToken row.pagingToken
  · exact ⟨db, none, if_pos ht⟩
  · exact ⟨_, some row.id, by rw [if_neg ht, if_neg (hfree.resolve_left ht)]⟩

/-- What a call that returns has done: nothing but to find the paging token
there, or to append one row with a fresh token and a fresh session id. -/
theorem recordPaymentIfNew_eq_ok {D : RustDecimal} {db db' : Database} {now : ℕ}
    {merchant : Merchant} {req : PaymentRequest} {r : Option RecordedPayment}
    (h : recordPaymentIfNew D db now merchant req = .ok (db', r)) :
    (db.HasToken req.pagingToken ∧ db' = db ∧ r = none) ∨
      ∃ gross bps fee net amounts, req.amount = some gross ∧
        effectiveFeeBps db now merchant = .ok bps ∧ feeAndNet D gross bps = some (fee, net) ∧
        storeAmounts gross fee net = some amounts ∧
        ¬ db.HasToken req.pagingToken ∧ ¬ db.HasSession merchant.id req.muxedId ∧
        db' = { db with payments := db.payments ++ [paymentRow db merchant req amounts] } ∧
        r = some ⟨db.payments.length, db.isLocallyBlocked req.payerAddress⟩ := by
  obtain ⟨gross, hg, h⟩ := bind_eq_ok.mp h
  obtain ⟨bps, hb, h⟩ := bind_eq_ok.mp h
  obtain ⟨⟨fee, net⟩, hfn, h⟩ := bind_eq_ok.mp h
  obtain ⟨amounts, ha, h⟩ := bind_eq_ok.mp h
  obtain ⟨⟨db₁, ins⟩, hi, h⟩ := bind_eq_ok.mp h
  obtain ⟨rfl, rfl⟩ := Prod.mk.inj (Except.ok.inj h)
  rcases insertPayment_eq_ok hi with ⟨ht, rfl, rfl⟩ | ⟨ht, hs, rfl, rfl⟩
  · exact .inl ⟨ht, rfl, rfl⟩
  · exact .inr ⟨gross, bps, fee, net, amounts, orFail_eq_ok.mp hg, hb, orFail_eq_ok.mp hfn,
      orFail_eq_ok.mp ha, ht, hs, rfl, rfl⟩

section Recorded

variable {D : RustDecimal} {db db' : Database} {now : ℕ} {merchant : Merchant}
  {req : PaymentRequest} {r : Option RecordedPayment}

/-- The effect on the indexed columns. -/
theorem keys_of_recordPaymentIfNew
    (h : recordPaymentIfNew D db now merchant req = .ok (db', r)) :
    (db.HasToken req.pagingToken ∧ db'.keys = db.keys) ∨
      (¬ db.HasToken req.pagingToken ∧ ¬ db.HasSession merchant.id req.muxedId ∧
        db'.keys = db.keys ++ [⟨req.pagingToken, merchant.id, req.muxedId⟩]) := by
  rcases recordPaymentIfNew_eq_ok h with
    ⟨ht, rfl, -⟩ | ⟨gross, bps, fee, net, amounts, -, -, -, -, ht, hs, rfl, -⟩
  · exact .inl ⟨ht, rfl⟩
  · refine .inr ⟨ht, hs, ?_⟩
    simp [Database.keys, Payment.key, paymentRow]

/-- Recording touches no other table. -/
theorem other_tables_of_recordPaymentIfNew
    (h : recordPaymentIfNew D db now merchant req = .ok (db', r)) :
    db'.cursor = db.cursor ∧ db'.merchants = db.merchants := by
  rcases recordPaymentIfNew_eq_ok h with
    ⟨-, rfl, -⟩ | ⟨gross, bps, fee, net, amounts, -, -, -, -, -, -, rfl, -⟩
  · exact ⟨rfl, rfl⟩
  · exact ⟨rfl, rfl⟩

/-- The tokens that have a row afterwards. -/
theorem hasToken_of_recordPaymentIfNew
    (h : recordPaymentIfNew D db now merchant req = .ok (db', r)) (t : ℕ) :
    db'.HasToken t ↔ t = req.pagingToken ∨ db.HasToken t := by
  rcases keys_of_recordPaymentIfNew h with ⟨ht, hk⟩ | ⟨-, -, hk⟩
  · rw [Database.hasToken_congr hk]
    refine ⟨.inr, ?_⟩
    rintro (rfl | ht')
    · exact ht
    · exact ht'
  · simp only [Database.hasToken_iff, hk, List.mem_append, List.mem_singleton, or_and_right,
      exists_or, exists_eq_left]
    rw [or_comm, eq_comm]

end Recorded

/-- The rate of a merchant that has a row. -/
theorem exists_effectiveFeeBps (now : ℕ) {db : Database} {merchant : Merchant} {row : MerchantRow}
    (hrow : db.merchants.find? (fun m => decide (m.id = merchant.id)) = some row) :
    ∃ bps, effectiveFeeBps db now merchant = .ok bps := by
  rw [effectiveFeeBps, hrow]
  exact ⟨_, rfl⟩

/-- A request whose amount, fee and net fit their columns is recorded, or found
recorded, unless its session id belongs to another row. -/
theorem recordPaymentIfNew_of_amounts {D : RustDecimal} {now : ℕ} {db : Database}
    {merchant : Merchant} {req : PaymentRequest} {gross fee net : ℚ} {bps : FeeBps}
    {amounts : Amounts} (hg : req.amount = some gross)
    (hb : effectiveFeeBps db now merchant = .ok bps)
    (hfn : feeAndNet D gross bps = some (fee, net)) (ha : storeAmounts gross fee net = some amounts)
    (hfree : db.HasToken req.pagingToken ∨ ¬ db.HasSession merchant.id req.muxedId) :
    ∃ db' r, recordPaymentIfNew D db now merchant req = .ok (db', r) := by
  obtain ⟨db', r, hins⟩ := exists_insertPayment (paymentRow db merchant req amounts) hfree
  refine ⟨db', r.map fun id => ⟨id, db.isLocallyBlocked req.payerAddress⟩, ?_⟩
  simp only [recordPaymentIfNew, hg, hb, hfn, ha, orFail_some, ok_bind, hins]
  rfl

/-- When a call returns, for an amount that is a decimal. The rate plays no part in it. -/
theorem recordPaymentIfNew_isOk_iff (D : RustDecimal) (now : ℕ) {db : Database}
    {merchant : Merchant} {req : PaymentRequest} (hreq : ∀ q ∈ req.amount, Representable q) :
    (∃ r, recordPaymentIfNew D db now merchant req = .ok r) ↔
      (∃ q ∈ req.amount, (Numeric.ofDecimal q).isSome) ∧
        (db.merchants.find? fun m => decide (m.id = merchant.id)).isSome ∧
        (db.HasToken req.pagingToken ∨ ¬ db.HasSession merchant.id req.muxedId) := by
  constructor
  · rintro ⟨⟨db', r⟩, h⟩
    obtain ⟨gross, hg, hrest⟩ := bind_eq_ok.mp h
    obtain ⟨bps, hb, hrest⟩ := bind_eq_ok.mp hrest
    obtain ⟨⟨fee, net⟩, -, hrest⟩ := bind_eq_ok.mp hrest
    obtain ⟨amounts, ha, -⟩ := bind_eq_ok.mp hrest
    obtain ⟨row, hrow, -⟩ := bind_eq_ok.mp hb
    refine ⟨⟨gross, orFail_eq_ok.mp hg, ?_⟩, ?_, ?_⟩
    · rw [(storeAmounts_eq_some (orFail_eq_ok.mp ha)).1]
      rfl
    · rw [orFail_eq_ok.mp hrow]
      rfl
    · exact (keys_of_recordPaymentIfNew h).imp And.left fun hfree => hfree.2.1
  · rintro ⟨⟨gross, hg, hfits⟩, hrow, hfree⟩
    obtain ⟨row, hrow⟩ := Option.isSome_iff_exists.mp hrow
    obtain ⟨bps, hb⟩ := exists_effectiveFeeBps now hrow
    obtain ⟨fee, net, a, hfn, ha⟩ := exists_amounts_of_fits D (hreq gross hg) hfits bps
    obtain ⟨db', r, hrec⟩ := recordPaymentIfNew_of_amounts hg hb hfn ha hfree
    exact ⟨(db', r), hrec⟩

/-- A request whose amount fits its column is recorded, or found recorded, unless
its session id belongs to another row. -/
theorem exists_recordPaymentIfNew (D : RustDecimal) (now : ℕ) {db : Database}
    {merchant : Merchant} (req : PaymentRequest) {gross : ℚ} {row : MerchantRow}
    (hrow : db.merchants.find? (fun m => decide (m.id = merchant.id)) = some row)
    (hg : req.amount = some gross) (hgross : Storable gross)
    (hfree : db.HasToken req.pagingToken ∨ ¬ db.HasSession merchant.id req.muxedId) :
    ∃ db' r, recordPaymentIfNew D db now merchant req = .ok (db', r) := by
  have hreq : ∀ q ∈ req.amount, Representable q := by
    intro q hq
    obtain rfl : gross = q := Option.some.inj (hg.symm.trans hq)
    exact hgross.representable
  obtain ⟨⟨db', r⟩, hrec⟩ := (recordPaymentIfNew_isOk_iff D now hreq).mpr
    ⟨⟨gross, hg, hgross.fits⟩, Option.isSome_iff_exists.mpr ⟨row, hrow⟩, hfree⟩
  exact ⟨db', r, hrec⟩

end KonfirmBackend.Reconciler
