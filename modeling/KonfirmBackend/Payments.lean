import KonfirmBackend.Compliance.OnChain
import KonfirmBackend.Withdrawals

/-!
# Checkout transactions

`prepareTx` builds the transaction that a payer's wallet is asked to sign: a payment of the
link's amount to the merchant, with the session id as its memo and a trustline before it
where the payer has none. The Stellar SDK stays a parameter.

## Main definitions

- `loadPayableLink` — the link of a payment, if it may be paid
- `isPayerAllowed` — the local blocklist, then the compliance contract
- `prepareTx` — the transaction to sign

## Main results

- `prepareTx_eq_ok` — what a returned transaction is made of
-/

namespace KonfirmBackend.Payments

open Withdrawals (truthy)

inductive MerchantStatus
  | pending
  | active
  | suspended
deriving DecidableEq

/-- The columns of a link and of its merchant that are read. -/
structure LinkRow where
  amountUsdc : Option String
  currency : String
  active : Bool
  expiresAt : Option ℕ
  stellarBaseAddress : Option String
  merchantStatus : MerchantStatus
deriving DecidableEq

/-- A link that may be paid. -/
structure PayableLink where
  destination : String
  amount : String
  currency : String
deriving DecidableEq

/-- The exceptions that leave `prepareTx`: those of its own, and what a query, a call to
Horizon or the SDK throws. -/
inductive PrepareFailure
  | notFound (message : String)
  | badRequest (message : String)
  | forbidden (message : String)
  | queryFailed
  | horizonFailed (err : String)
  | rejectedBySdk
deriving DecidableEq

/-- `loadPayableLink`; `found` is the answer of the `SELECT`, `none` an exception. -/
def loadPayableLink (found : Option (Option LinkRow)) (now : ℕ) :
    Except PrepareFailure PayableLink :=
  match found with
  | none => .error .queryFailed
  | some none => .error (.notFound "link not found")
  | some (some link) =>
    if !link.active then .error (.badRequest "link is not active")
    else if link.expiresAt.any (· < now) then .error (.badRequest "link has expired")
    else
      match truthy link.amountUsdc with
      | none =>
        .error (.badRequest
          "pay-what-you-want links need an amount param (not yet implemented)")
      | some amount =>
        match truthy link.stellarBaseAddress with
        | none => .error (.badRequest "merchant has no Stellar address configured")
        | some destination =>
          if link.merchantStatus ≠ .active then
            .error (.badRequest "this merchant is not currently accepting payments")
          else .ok ⟨destination, amount, link.currency⟩

/-- `isPayerAllowed`. `blocked` answers the lookup of an address in `blocked_addresses`, and
`check` is what the on-chain check of an address meets. -/
def isPayerAllowed (blocked : String → Option Bool) (check : String → Compliance.CheckAnswers)
    (address : String) : Option Bool :=
  Compliance.payerAllowed blocked (fun address => Compliance.isAllowedOnChain (check address)) address

/-- What Horizon reports of the payer's account. -/
structure PayerAccount where
  sequence : ℕ
  /-- the code and the issuer of each balance -/
  balances : List (Option String × Option String)
deriving DecidableEq

inductive Operation
  | changeTrust (asset : Asset)
  | payment (destination : String) (asset : Asset) (amount : String)
deriving DecidableEq

/-- What the `TransactionBuilder` has been told. -/
structure TransactionDraft where
  source : String
  sequence : ℕ
  fee : ℕ
  operations : List Operation
  memoId : String
  timeout : ℕ
deriving DecidableEq

structure PreparedTx where
  xdr : String
  networkPassphrase : String
  destination : String
deriving DecidableEq

def TESTNET : String := "Test SDF Network ; September 2015"

def BASE_FEE : ℕ := 100

/-- The account holds, or can hold, the asset. -/
def hasTrustline (account : PayerAccount) : Asset → Bool
  | .native => true
  | .credit code issuer => account.balances.any fun b => b.1 = some code ∧ b.2 = some issuer

def draft (link : PayableLink) (asset : Asset) (account : PayerAccount)
    (muxedId payerAddress : String) : TransactionDraft where
  source := payerAddress
  sequence := account.sequence
  fee := BASE_FEE
  operations := (if hasTrustline account asset then [] else [.changeTrust asset]) ++
    [.payment link.destination asset link.amount]
  memoId := muxedId
  timeout := 60

/-- The answers to `prepareTx`. -/
structure PrepareAnswers where
  link : Option (Option LinkRow)
  now : ℕ
  blocked : String → Option Bool
  check : String → Compliance.CheckAnswers
  account : ℕ → Call PayerAccount

/-- `prepareTx`; `toXdr` is the SDK, which throws what it cannot build. -/
def prepareTx (toXdr : TransactionDraft → Option String) (a : PrepareAnswers)
    (muxedId payerAddress : String) : Except PrepareFailure PreparedTx :=
  match loadPayableLink a.link a.now with
  | .error e => .error e
  | .ok link =>
    match isPayerAllowed a.blocked a.check payerAddress with
    | none => .error .queryFailed
    | some false => .error (.forbidden "this address is not permitted to pay")
    | some true =>
      match resolveAsset link.currency with
      | .error e => .error (.badRequest e.message)
      | .ok asset =>
        match withRetry 2 8000 a.account with
        | .error err => .error (.horizonFailed err)
        | .ok account =>
          match toXdr (draft link asset account muxedId payerAddress) with
          | none => .error .rejectedBySdk
          | some xdr => .ok ⟨xdr, TESTNET, link.destination⟩

/-- Which links may be paid. -/
theorem loadPayableLink_eq_ok_iff {row : LinkRow} {now : ℕ} {link : PayableLink} :
    loadPayableLink (some (some row)) now = .ok link ↔
      row.active = true ∧ row.expiresAt.any (· < now) = false ∧
        truthy row.amountUsdc = some link.amount ∧
          truthy row.stellarBaseAddress = some link.destination ∧
            row.merchantStatus = .active ∧ row.currency = link.currency := by
  obtain ⟨destination, amount, currency⟩ := link
  simp only [loadPayableLink]
  cases hactive : row.active with
  | false => simp
  | true =>
    cases hexpires : row.expiresAt.any (· < now) with
    | true => simp
    | false =>
      cases hamount : truthy row.amountUsdc with
      | none => simp
      | some text =>
        cases hdestination : truthy row.stellarBaseAddress with
        | none => simp
        | some base =>
          by_cases hstatus : row.merchantStatus = .active
          · simp [hstatus, and_left_comm]
          · simp [hstatus]

variable {blocked : String → Option Bool} {check : String → Compliance.CheckAnswers}
  {address : String}

/-- What a returned transaction is made of. -/
theorem prepareTx_eq_ok {toXdr : TransactionDraft → Option String} {a : PrepareAnswers}
    {muxedId payerAddress : String} {tx : PreparedTx}
    (h : prepareTx toXdr a muxedId payerAddress = .ok tx) :
    ∃ link asset account, loadPayableLink a.link a.now = .ok link ∧
      isPayerAllowed a.blocked a.check payerAddress = some true ∧
      resolveAsset link.currency = .ok asset ∧
      toXdr (draft link asset account muxedId payerAddress) = some tx.xdr ∧
      tx.destination = link.destination := by
  simp only [prepareTx] at h
  split at h
  · cases h
  · next link hlink =>
    split at h
    · cases h
    · cases h
    · next hallowed =>
      split at h
      · cases h
      · next asset hasset =>
        split at h
        · cases h
        · next account haccount =>
          split at h
          · cases h
          · next xdr hxdr =>
            cases h
            exact ⟨link, asset, account, hlink, hallowed, hasset, hxdr, rfl⟩

end KonfirmBackend.Payments
