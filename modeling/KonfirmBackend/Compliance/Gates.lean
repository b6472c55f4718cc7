import KonfirmBackend.Channel.Relay
import KonfirmBackend.Payments
import KonfirmBackend.Reconciler.Store
import KonfirmBackend.X402.Settlement

/-!
# The gates of the local blocklist

Four entry points look a payer up in `blocked_addresses`: the checkout, the settlement of
x402 payments, the opening of a channel, and the reconciler when a payment has arrived
already. The lookup can fail, and the contract that is asked after it can answer anything.

## Main definitions

- `AnswersFrom` — what the lookup may say
- `openingPayer` — whom `openChannel` looks up

## Main results

- `blocked_payer_passes_no_gate` — what becomes of a blocked payer
-/

namespace KonfirmBackend

/-- A lookup in `blocked_addresses` answers by the table, or fails. -/
def Compliance.AnswersFrom (table : List String) (blocked : String → Option Bool) : Prop :=
  ∀ address, ∀ b ∈ blocked address, b = table.contains address

/-- `scheme.settle` is invoked for an allowed payer only. -/
theorem X402.allowed_of_settleInvoked {F : X402.Facilitator} {blocked : String → Option Bool}
    {onChain : String → Bool} {req : X402.Request} {payer : String}
    (hnames : ∀ result ∈ req.schemeVerify, result.isValid → X402.known result.payer = some payer)
    (h : (F.settleQueried blocked onChain req).settleInvoked = true) :
    X402.isPayerAllowed blocked onChain payer = some true := by
  simp only [Facilitator.settleQueried] at h
  split at h
  · cases h
  · next v recorded hverify =>
    split at h
    · cases h
    · next hvalid =>
      have hv : v.isValid := by simpa using hvalid
      obtain ⟨hscheme, hallowed⟩ := X402.verifyQueried_valid (by rw [hverify]) hv
      exact hallowed payer (hnames v hscheme hv)

/-- The payer `openChannel` looks up: the first argument of the invocation, once the checks
before the lookup have passed. -/
def Channel.openingPayer (sdk : Channel.Sdk) (a : Channel.OpenAnswers) (transactionXdr : String) :
    Option Channel.Native :=
  match Channel.checkInvocation sdk a.signer "open_channel" 5 transactionXdr with
  | .ok (_, _, args) => args.head?
  | .error _ => none

/-- `openChannel` signs nothing unless the lookup has answered that its payer is not there. -/
theorem Channel.not_blocked_of_signed {sdk : Channel.Sdk} {a : Channel.OpenAnswers}
    {transactionXdr : String} {resourceUrl : Option String} {now : ℤ}
    {tx : Channel.RebuiltTransaction} {payer : Channel.Native}
    (hpayer : Channel.openingPayer sdk a transactionXdr = some payer)
    (h : (Channel.openChannel sdk a transactionXdr resourceUrl now).signed = some tx) :
    a.blocked payer = some false := by
  cases hcheck : Channel.openChecks sdk a transactionXdr with
  | error e => simp [Channel.openChannel, hcheck] at h
  | ok r =>
    obtain ⟨facilitator, operation, args, sorobanData⟩ := r
    obtain ⟨hinvocation, payer', hhead, -, hblocked, -⟩ := Channel.openChecks_eq_ok hcheck
    rw [Channel.openingPayer, hinvocation] at hpayer
    rw [← Option.some.inj (hhead.symm.trans hpayer)]
    exact hblocked

namespace Reconciler

/-- The row of a locally blocked payer is inserted as 'held'. -/
theorem held_of_locallyBlocked {D : RustDecimal} {db db' : Database} {now : ℕ}
    {merchant : Merchant} {req : PaymentRequest} {r : Option RecordedPayment}
    (hblocked : req.payerAddress ∈ db.blockedAddresses)
    (h : recordPaymentIfNew D db now merchant req = .ok (db', r)) :
    ∀ row ∈ db'.payments.drop db.payments.length, row.status = .held := by
  rcases recordPaymentIfNew_eq_ok h with
    ⟨-, rfl, -⟩ | ⟨gross, bps, fee, net, amounts, -, -, -, -, -, -, rfl, -⟩
  · simp
  · intro row hrow
    rw [List.drop_left, List.mem_singleton] at hrow
    have hlocal : db.isLocallyBlocked req.payerAddress = true := List.contains_iff_mem.mpr hblocked
    rw [hrow, paymentRow, if_pos hlocal]

end Reconciler

/-- **A locally blocked payer passes no gate**: for an address in the table, whatever the
compliance contract, the Stellar SDK, Horizon and the scheme answer, and whether or not the
lookup fails, no transaction is prepared, `scheme.settle` is not invoked, no opening of a
channel is signed, and no payment is inserted with a status other than 'held'. -/
theorem blocked_payer_passes_no_gate {table : List String} {address : String}
    (hlisted : address ∈ table) :
    (∀ toXdr (a : Payments.PrepareAnswers) muxedId tx, Compliance.AnswersFrom table a.blocked →
      Payments.prepareTx toXdr a muxedId address ≠ .ok tx) ∧
    (∀ (F : X402.Facilitator) blocked onChain (req : X402.Request),
      Compliance.AnswersFrom table blocked →
      (∀ result ∈ req.schemeVerify, result.isValid → X402.known result.payer = some address) →
      (F.settleQueried blocked onChain req).settleInvoked = false) ∧
    (∀ sdk (a : Channel.OpenAnswers) transactionXdr resourceUrl now,
      Channel.openingPayer sdk a transactionXdr = some (.string address) →
      Compliance.AnswersFrom table (fun address => a.blocked (.string address)) →
      (Channel.openChannel sdk a transactionXdr resourceUrl now).signed = none) ∧
    (∀ D (db db' : Reconciler.Database) now merchant (req : Reconciler.PaymentRequest) r,
      db.blockedAddresses = table → req.payerAddress = address →
      Reconciler.recordPaymentIfNew D db now merchant req = .ok (db', r) →
      ∀ row ∈ db'.payments.drop db.payments.length, row.status = .held) := by
  have hcontains : table.contains address = true := List.contains_iff_mem.mpr hlisted
  have hrefused : ∀ blocked onChain, Compliance.AnswersFrom table blocked →
      Compliance.payerAllowed blocked onChain address ≠ some true := by
    intro blocked onChain hanswers hallowed
    have hfalse := (Compliance.payerAllowed_eq_true_iff.mp hallowed).1
    exact absurd (hanswers address false hfalse) (by rw [hcontains]; decide)
  refine ⟨?_, ?_, ?_, ?_⟩
  · intro toXdr a muxedId tx hanswers h
    obtain ⟨link, asset, account, -, hallowed, -⟩ := Payments.prepareTx_eq_ok h
    exact hrefused _ _ hanswers hallowed
  · intro F blocked onChain req hanswers hnames
    by_contra h
    rw [Bool.not_eq_false] at h
    exact hrefused _ _ hanswers (X402.allowed_of_settleInvoked hnames h)
  · intro sdk a transactionXdr resourceUrl now hpayer hanswers
    by_contra h
    obtain ⟨tx, h⟩ := Option.ne_none_iff_exists'.mp h
    have hfalse := hanswers address false (Channel.not_blocked_of_signed hpayer h)
    rw [hcontains] at hfalse
    cases hfalse
  · rintro D db db' now merchant req r rfl rfl h
    exact Reconciler.held_of_locallyBlocked hlisted h

/-! ## A blocked payer at the four gates -/

/-- A checkout that would go through but for the blocklist. -/
def blockedCheckout : Payments.PrepareAnswers where
  link := some (some ⟨some "1.0000000", "USDC", true, none, some "GMERCHANT", .active⟩)
  now := 0
  blocked address := some (["GPAYER"].contains address)
  check _ := .ready fun _ => .answered true
  account _ := .resolved ⟨41, []⟩

/-- An opening that would go through but for the blocklist. -/
def blockedOpening : Channel.OpenAnswers where
  signer := some "GFACILITATOR"
  blocked payer := some (decide (payer = .string "GPAYER"))
  allowedOnChain _ := true
  simulation := some ⟨"data", 94813⟩
  submission := ⟨some 41, true, .signed, .pending "hash", []⟩
  inserts := true

def blockedDb : Reconciler.Database :=
  { Reconciler.exampleDb with blockedAddresses := ["GPAYER"] }

def blockedPayment : Reconciler.PaymentRequest where
  muxedId := 7
  muxedAddress := "GMERCHANT"
  payerAddress := "GPAYER"
  assetCode := "USDC"
  assetIssuer := some usdcTestnetIssuer
  amount := some 1
  fxRateToUsd := none
  pagingToken := 1
  txHash := "tx"

theorem blocked_payer_passes_no_gate_example :
    (∀ tx, Payments.prepareTx (fun _ => some "AAAA") blockedCheckout "7" "GPAYER" ≠ .ok tx) ∧
    (X402.exampleFacilitator.settleQueried (fun address => some (["GPAYER"].contains address))
      (fun _ => true) (X402.exampleRequest (some X402.exampleSuccess))).settleInvoked =
        false ∧
    (Channel.openChannel (Channel.exampleSdk (Channel.exampleOpening "GPAYER" (.address "GPAYER")))
      blockedOpening "AAAA" none 0).signed = none ∧
    ∃ row, Reconciler.recordPaymentIfNew .truncating blockedDb 0 Reconciler.exampleMerchant
        blockedPayment = .ok ({ blockedDb with payments := [row] }, some ⟨0, true⟩) ∧
      row.status = .held := by
  have hanswers : Compliance.AnswersFrom ["GPAYER"]
      fun address => some (["GPAYER"].contains address) :=
    fun address b hb => (Option.some.inj hb).symm
  have hopening : Compliance.AnswersFrom ["GPAYER"] fun address =>
      blockedOpening.blocked (.string address) := by
    intro address b hb
    rw [← Option.some.inj hb]
    simp
  have hnames : ∀ result ∈ (X402.exampleRequest (some X402.exampleSuccess)).schemeVerify,
      result.isValid → X402.known result.payer = some "GPAYER" := by
    decide
  have hrec : Reconciler.recordPaymentIfNew .truncating blockedDb 0 Reconciler.exampleMerchant
      blockedPayment = .ok ({ blockedDb with payments := [Reconciler.paymentRow blockedDb
        Reconciler.exampleMerchant blockedPayment ⟨⟨10000000, by decide⟩, ⟨10000, by decide⟩,
          ⟨9990000, by decide⟩⟩] }, some ⟨0, true⟩) := by
    decide +kernel
  have hlisted : "GPAYER" ∈ ["GPAYER"] := List.mem_singleton_self _
  obtain ⟨hcheckout, hsettle, hopen, hrecord⟩ := blocked_payer_passes_no_gate hlisted
  exact ⟨fun tx => hcheckout _ _ _ tx hanswers, hsettle _ _ _ _ hanswers hnames,
    hopen _ _ _ _ _ rfl hopening, _, hrec,
    hrecord _ _ _ _ _ _ _ rfl rfl hrec _ (List.mem_singleton_self _)⟩

end KonfirmBackend
