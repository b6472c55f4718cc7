import KonfirmBackend.PayUri
import KonfirmBackend.Reconciler.Received

/-!
# Test funds

The anchor pays test funds out to the account of a browser wallet, and one more payment forwards
them to where they are needed, which may be the address of a merchant. That payment carries no
session id, and nobody is asked to trust an asset in it.

## Main definitions

- `transferSchema`, `prepareTransferPayment` — the payment that forwards the funds
- `TransferTx.horizonOp` — how Horizon reports that payment

## Main results

- `not_hasToken_of_not_matched` — what carries no session id is never recorded
- `transfer_never_recorded` — forwarded funds are no merchant's revenue
-/

namespace KonfirmBackend.Deposits

open Transition KonfirmBackend.Reconciler KonfirmBackend.Payments KonfirmBackend.Withdrawals

structure TransferBody where
  source : String
  destination : String
  currency : String
  amount : String
deriving DecidableEq

/-- `/^G[A-Z2-7]{55}$/` -/
def isAccountId (s : String) : Bool :=
  match s.toList with
  | 'G' :: cs => decide (cs.length = 55) &&
      cs.all fun c => decide ('A' ≤ c ∧ c ≤ 'Z') || decide ('2' ≤ c ∧ c ≤ '7')
  | _ => false

def transferSchema (body : TransferBody) : Bool :=
  isAccountId body.source && isAccountId body.destination &&
    ["XLM", "USDC"].contains body.currency && createLinkSchema body.amount

/-- A transaction with one payment and no memo. -/
structure TransferTx where
  source : String
  sequence : ℕ
  destination : String
  asset : Asset
  amount : String
deriving DecidableEq

inductive TransferFailure
  | badRequest (e : BadRequest)
  | horizonFailed (err : String)
  | rejectedBySdk
deriving DecidableEq

/-- `prepareTransferPayment`; `accepts` is the SDK's own validation, `fromAccount` answers the
attempts to load the source, and `toAccount` the one attempt to load the destination. -/
def prepareTransferPayment (accepts : TransferTx → Bool) (fromAccount : ℕ → Call PayerAccount)
    (toAccount : Option PayerAccount) (body : TransferBody) :
    Except TransferFailure TransferTx :=
  match resolveAsset body.currency with
  | .error e => .error (.badRequest e)
  | .ok asset =>
    match withRetry 2 8000 fromAccount with
    | .error err => .error (.horizonFailed err)
    | .ok account =>
      let tx := ⟨body.source, account.sequence, body.destination, asset, body.amount⟩
      let built := if accepts tx then .ok tx else .error .rejectedBySdk
      if asset = .native then built
      else
        match toAccount with
        | none => .error (.badRequest ⟨"the destination account was not found on the network"⟩)
        | some account =>
          if hasTrustline account asset then built
          else .error (.badRequest ⟨"the destination wallet has no trustline for this asset yet"⟩)

/-- The operation record of the payment, which is that of a payment without a memo. -/
def TransferTx.horizonOp (muxedFromString : String → Option MuxedAccount) (tx : TransferTx)
    (pagingToken : ℕ) (hash : String) : PaymentOp :=
  { PaymentTx.horizonOp muxedFromString
      ⟨tx.source, tx.destination, tx.asset, tx.amount, .text ""⟩ pagingToken hash with
    transaction := some ⟨none, some "none"⟩ }

/-- The strkey crate decodes no address of a plain account. -/
def PlainUndecoded (muxedFromString : String → Option MuxedAccount) : Prop :=
  ∀ s, isAccountId s = true → muxedFromString s = none

variable {W : Watcher} {w₀ w : World} {op : PaymentOp}

/-- **What carries no session id is never recorded**, in any run in which Horizon lists it. -/
theorem not_hasToken_of_not_matched (hdown : w₀.proc = .down)
    (hnew : ¬w₀.db.HasToken op.pagingToken)
    (hrun : Reaches (World.step W) (fun _ => True) w₀ w) (hop : op ∈ w.history.ops)
    (hnot : ¬op.Matched W.muxedFromString) : ¬w.db.HasToken op.pagingToken := by
  intro hrow
  -- a row is there for an operation that is listed and has a session id
  have hinv : Reaches (World.step W) (fun _ => True) w₀ w ∧
      (w.db.HasToken op.pagingToken → ∃ x ∈ w.history.ops, x.pagingToken = op.pagingToken ∧
        x.Matched W.muxedFromString) := by
    refine hrun.invariant (I := fun v => Reaches (World.step W) (fun _ => True) w₀ v ∧
      (v.db.HasToken op.pagingToken → ∃ x ∈ v.history.ops, x.pagingToken = op.pagingToken ∧
        x.Matched W.muxedFromString)) ⟨.refl, fun h => absurd h hnew⟩ ?_
    rintro a l b - ⟨hreach, hlisted⟩ hs
    refine ⟨hreach.tail trivial hs, fun hb => ?_⟩
    cases l with
    | watch l =>
      obtain ⟨⟨db, p⟩, hstep, rfl⟩ := Option.map_eq_some_iff.mp hs
      by_cases ha : a.db.HasToken op.pagingToken
      · exact hlisted ha
      · obtain ⟨s, x, rest, cached, hproc, htoken, hx⟩ :=
          recordable_of_move (Watcher.move_of_step hstep) ha hb
        exact ⟨x, ((World.sound_of_down hdown).run hreach).mem_history hproc, htoken, hx.1⟩
    | arrive x =>
      obtain ⟨history, hhistory, rfl⟩ := Option.map_eq_some_iff.mp hs
      obtain ⟨y, hy, hmatched⟩ := hlisted hb
      refine ⟨y, ?_, hmatched⟩
      rw [(History.append_eq_some hhistory).2]
      exact List.mem_append_left _ hy
    | api e =>
      obtain rfl := Option.some.inj hs
      exact hlisted ((Database.hasToken_congr (a.db.api_frame e).1 _).mp hb)
  obtain ⟨x, hx, htoken, hmatched⟩ := hinv.2 hrow
  exact hnot (w.history.ordered.eq_of_key_eq hx hop htoken ▸ hmatched)

/-- What a returned transaction is made of. -/
theorem prepareTransferPayment_eq_ok {accepts : TransferTx → Bool}
    {fromAccount : ℕ → Call PayerAccount} {toAccount : Option PayerAccount} {body : TransferBody}
    {tx : TransferTx}
    (h : prepareTransferPayment accepts fromAccount toAccount body = .ok tx) :
    tx.source = body.source ∧ tx.destination = body.destination ∧ tx.amount = body.amount ∧
      resolveAsset body.currency = .ok tx.asset ∧
      (tx.asset = .native ∨ ∃ account, toAccount = some account ∧
        hasTrustline account tx.asset = true) := by
  simp only [prepareTransferPayment] at h
  cases hasset : resolveAsset body.currency with
  | error e =>
    rw [hasset] at h
    cases h
  | ok asset =>
    cases hfrom : withRetry 2 8000 fromAccount with
    | error err =>
      simp only [hasset, hfrom] at h
      cases h
    | ok account =>
      simp only [hasset, hfrom] at h
      split at h
      case isTrue hnative =>
        split at h <;> cases h
        exact ⟨rfl, rfl, rfl, rfl, .inl hnative⟩
      case isFalse =>
        split at h
        · cases h
        case h_2 account' =>
          split at h
          case isTrue htrusts =>
            split at h <;> cases h
            exact ⟨rfl, rfl, rfl, rfl, .inr ⟨account', rfl, htrusts⟩⟩
          case isFalse => cases h

/-- The payment has no memo, and goes to no muxed address. -/
theorem TransferTx.not_matched {muxedFromString : String → Option MuxedAccount}
    (hstrkey : PlainUndecoded muxedFromString) {tx : TransferTx}
    (hplain : isAccountId tx.destination = true) (pagingToken : ℕ) (hash : String) :
    ¬(tx.horizonOp muxedFromString pagingToken hash).Matched muxedFromString := by
  rintro ⟨-, hsession⟩
  have hnone :
      (tx.horizonOp muxedFromString pagingToken hash).sessionId muxedFromString = none := by
    simp [PaymentOp.sessionId, PaymentOp.memoId, paymentMuxedId, decodeMuxedId, horizonOp,
      PaymentTx.horizonOp, hstrkey _ hplain]
  rw [hnone] at hsession
  cases hsession

/-- **Forwarded test funds are no merchant's revenue**: the transaction is the one that has been
asked for, its destination can hold the asset, and no watcher records its payment, whoever the
destination is and whatever else happens. -/
theorem transfer_never_recorded {accepts : TransferTx → Bool}
    {fromAccount : ℕ → Call PayerAccount} {toAccount : Option PayerAccount} {body : TransferBody}
    {tx : TransferTx} {pagingToken : ℕ} {hash : String} (hschema : transferSchema body = true)
    (htx : prepareTransferPayment accepts fromAccount toAccount body = .ok tx)
    (hstrkey : PlainUndecoded W.muxedFromString) (hdown : w₀.proc = .down)
    (hnew : ¬w₀.db.HasToken pagingToken)
    (hrun : Reaches (World.step W) (fun _ => True) w₀ w)
    (hop : tx.horizonOp W.muxedFromString pagingToken hash ∈ w.history.ops) :
    tx.source = body.source ∧ tx.destination = body.destination ∧ tx.amount = body.amount ∧
      resolveAsset body.currency = .ok tx.asset ∧
      (tx.asset = .native ∨ ∃ account, toAccount = some account ∧
        hasTrustline account tx.asset = true) ∧
      ¬w.db.HasToken pagingToken := by
  obtain ⟨hsource, hdestination, hamount, hasset, htrusts⟩ := prepareTransferPayment_eq_ok htx
  have hplain : isAccountId tx.destination = true := by
    simp only [transferSchema, Bool.and_eq_true] at hschema
    exact hdestination ▸ hschema.1.1.2
  exact ⟨hsource, hdestination, hamount, hasset, htrusts,
    not_hasToken_of_not_matched hdown hnew hrun hop (tx.not_matched hstrkey hplain _ _)⟩

/-! ## Five forwarded dollars -/

def exampleTransfer : TransferBody where
  source := "GAEMG5TVLEIQYCY3XB4EJT742DIE3FQO53RSESSYJQUZIWZOJQIZATJS"
  destination := "GBXBABMFZIJPTOFI6STUXA2FMEXDBB4URBD3VS5XDHKMFHGLJZ5WPQBB"
  currency := "USDC"
  amount := "5"

def exampleTx : TransferTx where
  source := exampleTransfer.source
  sequence := 7
  destination := exampleTransfer.destination
  asset := .credit "USDC" usdcTestnetIssuer
  amount := "5"

/-- The destination is a merchant, and is watched. -/
def transferWatcher : Watcher :=
  { exampleWatcher with merchantAddress := exampleTransfer.destination }

theorem transfer_never_recorded_example :
    ∃ w, exec (World.step transferWatcher) ⟨freshDb exampleTransfer.destination, .empty, .down⟩
        [.arrive (exampleTx.horizonOp (fun _ => none) 5 "tx"), .watch (.start 20), .watch (.poll 1),
          .watch (.handle 0 ⟨[], []⟩)] = some w ∧ ¬w.db.HasToken 5 := by
  have htx : prepareTransferPayment (fun _ => true) (fun _ => .resolved ⟨7, []⟩)
      (some ⟨41, [(some "USDC", some usdcTestnetIssuer)]⟩) exampleTransfer = .ok exampleTx := rfl
  obtain ⟨w, hw, hop⟩ : ∃ w, exec (World.step transferWatcher)
      ⟨freshDb exampleTransfer.destination, .empty, .down⟩
        [.arrive (exampleTx.horizonOp (fun _ => none) 5 "tx"), .watch (.start 20), .watch (.poll 1),
          .watch (.handle 0 ⟨[], []⟩)] = some w ∧
      exampleTx.horizonOp (fun _ => none) 5 "tx" ∈ w.history.ops :=
    exists_exec_of_any (by decide +kernel)
  obtain ⟨-, -, -, -, -, hnone⟩ := transfer_never_recorded (by decide +kernel) htx
    (fun _ _ => rfl) rfl (by decide) (.of_exec (fun _ _ => trivial) hw) hop
  exact ⟨w, hw, hnone⟩

end KonfirmBackend.Deposits
