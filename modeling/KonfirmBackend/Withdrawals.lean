import KonfirmBackend.Common.Asset
import KonfirmBackend.Reconciler.Horizon

/-!
# Cash-outs

`prepareWithdrawalTx` builds the payment with which a merchant sends funds to the
anchor. `PaymentTx.horizonOp` is the record Horizon lists for it, on the account
of the sender as well as on that of the receiver.

## Main definitions

- `prepareWithdrawalTx` — the payment the merchant's wallet is asked to sign
- `PaymentTx.horizonOp` — how Horizon reports that payment

## Main results

- `matched_of_prepareWithdrawalTx` — an id memo makes the outgoing payment look
  like a checkout payment
-/

namespace KonfirmBackend.Withdrawals

open KonfirmBackend.Reconciler

/-- The fields of the anchor's transaction record that are read. -/
structure WithdrawTransaction where
  amountIn : Option String
  withdrawAnchorAccount : Option String
  withdrawMemo : Option String
  withdrawMemoType : Option String
deriving DecidableEq

/-- A transaction memo; the 32 bytes of a hash memo are kept in base64. -/
inductive Memo
  | id (value : String)
  | hash (base64 : String)
  | text (value : String)
deriving DecidableEq

/-- A transaction with one payment operation. -/
structure PaymentTx where
  sourceAccount : String
  destination : String
  asset : Asset
  amount : String
  memo : Memo
deriving DecidableEq

inductive PrepareFailure
  | badRequest (e : BadRequest)
  | accountNotLoaded
  | rejectedBySdk
deriving DecidableEq

/-- A field that is present and not empty. -/
def truthy (field : Option String) : Option String := field.filter (· ≠ "")

def memoOf (memoType value : String) : Memo :=
  if memoType = "id" then .id value else if memoType = "hash" then .hash value else .text value

/-- `accepts` is the SDK's own validation of the transaction it is asked to build
and `loaded` whether Horizon answered for the source account. -/
def prepareWithdrawalTx (accepts : PaymentTx → Bool) (loaded : Bool) (account currency : String)
    (txn : WithdrawTransaction) : Except PrepareFailure PaymentTx :=
  match truthy txn.withdrawAnchorAccount, truthy txn.withdrawMemo, truthy txn.withdrawMemoType,
    truthy txn.amountIn with
  | some anchor, some memo, some memoType, some amount =>
    match resolveAsset currency with
    | .error e => .error (.badRequest e)
    | .ok asset =>
      if !loaded then .error .accountNotLoaded
      else if accepts ⟨account, anchor, asset, amount, memoOf memoType memo⟩ then
        .ok ⟨account, anchor, asset, amount, memoOf memoType memo⟩
      else .error .rejectedBySdk
  | _, _, _, _ =>
    .error (.badRequest ⟨"the cash-out partner has not confirmed transfer details yet"⟩)

/-- The memo fields of an embedded transaction. -/
def Memo.embedded : Memo → EmbeddedTransaction
  | .id value => ⟨some value, some "id"⟩
  | .hash base64 => ⟨some base64, some "hash"⟩
  | .text value => ⟨some value, some "text"⟩

/-- The operation record of a payment. Horizon reports the base account in `to`
and a muxed destination separately. -/
def PaymentTx.horizonOp (muxedFromString : String → Option MuxedAccount) (tx : PaymentTx)
    (pagingToken : ℕ) (hash : String) : PaymentOp where
  pagingToken := pagingToken
  opType := "payment"
  transactionHash := hash
  assetType := match tx.asset with
    | .native => some "native"
    | .credit code _ => if code.length ≤ 4 then some "credit_alphanum4" else some "credit_alphanum12"
  assetCode := match tx.asset with
    | .native => none
    | .credit code _ => some code
  assetIssuer := match tx.asset with
    | .native => none
    | .credit _ issuer => some issuer
  fromAccount := some tx.sourceAccount
  toAccount := match muxedFromString tx.destination with
    | none => some tx.destination
    | some m => some m.account
  amount := some tx.amount
  toMuxed := (muxedFromString tx.destination).map fun _ => tx.destination
  toMuxedId := (muxedFromString tx.destination).map fun m => toString m.id.toNat
  transaction := some tx.memo.embedded

/-- What a returned transaction is made of. -/
theorem prepareWithdrawalTx_eq_ok {accepts : PaymentTx → Bool} {loaded : Bool}
    {account currency : String} {txn : WithdrawTransaction} {tx : PaymentTx}
    (h : prepareWithdrawalTx accepts loaded account currency txn = .ok tx) :
    ∃ memo memoType, truthy txn.withdrawMemo = some memo ∧
      truthy txn.withdrawMemoType = some memoType ∧ tx.memo = memoOf memoType memo ∧
      tx.sourceAccount = account ∧ truthy txn.withdrawAnchorAccount = some tx.destination ∧
      resolveAsset currency = .ok tx.asset ∧ truthy txn.amountIn = some tx.amount := by
  unfold prepareWithdrawalTx at h
  split at h
  · split at h
    · cases h
    · split at h
      · cases h
      · split at h
        · cases h
          exact ⟨_, _, ‹_›, ‹_›, rfl, rfl, ‹_›, ‹_›, ‹_›⟩
        · cases h
  · cases h

/-- A cash-out with an id memo is listed as a payment that carries that id as its
session id. -/
theorem matched_of_prepareWithdrawalTx {accepts : PaymentTx → Bool} {loaded : Bool}
    {account currency memo : String} {txn : WithdrawTransaction} {tx : PaymentTx} {id : UInt64}
    (muxedFromString : String → Option MuxedAccount)
    (h : prepareWithdrawalTx accepts loaded account currency txn = .ok tx)
    (htype : txn.withdrawMemoType = some "id") (hmemo : txn.withdrawMemo = some memo)
    (hid : parseU64 memo = some id) (pagingToken : ℕ) (hash : String) :
    (tx.horizonOp muxedFromString pagingToken hash).Matched muxedFromString ∧
      (tx.horizonOp muxedFromString pagingToken hash).sessionId muxedFromString = some id := by
  obtain ⟨memo', memoType, hm, ht, hmemo', -⟩ := prepareWithdrawalTx_eq_ok h
  obtain ⟨hm, -⟩ := Option.filter_eq_some_iff.mp hm
  obtain ⟨ht, -⟩ := Option.filter_eq_some_iff.mp ht
  obtain rfl := Option.some.inj (hmemo.symm.trans hm)
  obtain rfl := Option.some.inj (htype.symm.trans ht)
  have hsession : (tx.horizonOp muxedFromString pagingToken hash).sessionId muxedFromString =
      some id := by
    apply PaymentOp.sessionId_of_memoId _
    simp [PaymentOp.memoId, PaymentTx.horizonOp, hmemo', memoOf, Memo.embedded, hid]
  exact ⟨⟨rfl, by rw [hsession]; rfl⟩, hsession⟩

end KonfirmBackend.Withdrawals
