import KonfirmBackend.Compliance.OnChain
import KonfirmBackend.Lib.FirstWrite

/-!
# The x402 settlement log

`X402Service.verify` and `settle` with the `x402_settlements` table they log to.
Three code paths write into one row per payer and payload: `held` when compliance
blocks a verification, `settled` or `failed` with the outcome of a settlement, and
`failed` when the settlement throws. The scheme package, the on-chain compliance
check and the hash are outside the repository and answer as they like.

## Main definitions

- `verifyQueried`, `settleQueried` — a call over a database that may fail
- `verify`, `settle` — what a call returns and the attempt it records
- `Log.call` — the log after a call
- `attempts` — the attempts a run of calls records

## Main results

- `row_run` — the log holds the first attempt recorded for each payer and payload
- `settle_tells_truth_iff` — when the log agrees with a successful settlement
-/

namespace KonfirmBackend.X402

structure PaymentRequirements where
  scheme : String
  network : String
  asset : String
  amount : String
  payTo : String
deriving DecidableEq

/-- The scheme-specific part of a payment payload, as `JSON.stringify` writes it. -/
structure PaymentPayload where
  payload : String
deriving DecidableEq

structure VerifyResponse where
  isValid : Bool
  invalidReason : Option String
  payer : Option String
deriving DecidableEq

structure SettleResponse where
  success : Bool
  errorReason : Option String
  payer : Option String
  transaction : String
  network : String
deriving DecidableEq

inductive SettlementStatus
  | settled
  | failed
  | held
deriving DecidableEq

/-- A row of `x402_settlements`. -/
structure Settlement where
  payerAddress : String
  payTo : String
  assetContract : String
  amount : String
  resourceUrl : Option String
  status : SettlementStatus
  txHash : Option String
  idempotencyKey : String
deriving DecidableEq

/-- What the facilitator is configured with: its network and asset, and the hash
behind its idempotency keys. -/
structure Facilitator where
  network : String
  usdcAddress : String
  sha256 : String → String

/-- A request, with the answers the outside gives while it is served. `none` is a
call that throws. -/
structure Request where
  x402Version : ℕ
  payload : PaymentPayload
  requirements : PaymentRequirements
  schemeVerify : Option VerifyResponse
  allowedOnChain : Bool
  schemeSettle : Option SettleResponse
deriving DecidableEq

/-- A JavaScript string that is there and not empty. -/
def known (payer : Option String) : Option String := payer.filter (· ≠ "")

/-- `isPayerAllowed`. -/
def isPayerAllowed (blocked : String → Option Bool) (onChain : String → Bool) (address : String) :
    Option Bool :=
  Compliance.payerAllowed blocked onChain address

/-- The response of a call of `settle`, the attempt it records, and whether it has invoked
`scheme.settle`. -/
structure Served where
  response : Option SettleResponse
  recorded : Option Settlement
  settleInvoked : Bool

variable (F : Facilitator)

namespace Facilitator

def idempotencyKey (payer : String) (payload : PaymentPayload) : String :=
  payer ++ ":" ++ F.sha256 payload.payload

def outOfScopeReason (x402Version : ℕ) (requirements : PaymentRequirements) : Option String :=
  if x402Version ≠ 2 then some "unsupported_x402_version"
  else if requirements.scheme ≠ "exact" then some "unsupported_scheme"
  else if requirements.network ≠ F.network then some "unsupported_network"
  else if requirements.asset ≠ F.usdcAddress then some "unsupported_asset"
  else none

/-- The row that `recordAttempt` offers to the table. -/
def attempt (payer : String) (req : Request) (status : SettlementStatus)
    (txHash : Option String) : Settlement where
  payerAddress := payer
  payTo := req.requirements.payTo
  assetContract := req.requirements.asset
  amount := req.requirements.amount
  resourceUrl := none
  status := status
  txHash := txHash
  idempotencyKey := F.idempotencyKey payer req.payload

/-- `verify`: its response, unless it throws, and the attempt it records. -/
def verifyQueried (blocked : String → Option Bool) (onChain : String → Bool) (req : Request) :
    Option VerifyResponse × Option Settlement :=
  match F.outOfScopeReason req.x402Version req.requirements with
  | some reason => (some ⟨false, some reason, none⟩, none)
  | none =>
    match req.schemeVerify with
    | none => (none, none)
    | some result =>
      if !result.isValid then (some result, none)
      else
        match known result.payer with
        | none => (some result, none)
        | some payer =>
          match isPayerAllowed blocked onChain payer with
          | none => (none, none)
          | some true => (some result, none)
          | some false =>
            (some { result with isValid := false, invalidReason := some "compliance_blocked" },
              some (F.attempt payer req .held none))

/-- `verify` with a database that answers. `blocked` is the local blocklist at that moment. -/
def verify (blocked : List String) (req : Request) : Option VerifyResponse × Option Settlement :=
  F.verifyQueried (fun address => some (blocked.contains address)) (fun _ => req.allowedOnChain) req

/-- `settle` once `verify` has answered with a valid `verifyResult`. -/
def settleVerified (req : Request) (verifyResult : VerifyResponse) :
    SettleResponse × Option Settlement :=
  match req.schemeSettle with
  | some result =>
    (result, (known (result.payer.or verifyResult.payer)).map fun payer =>
      F.attempt payer req (if result.success then .settled else .failed)
        (if result.success then some result.transaction else none))
  | none =>
    (⟨false, some "settlement_error", verifyResult.payer, "", req.requirements.network⟩,
      (known verifyResult.payer).map fun payer => F.attempt payer req .failed none)

/-- `settle`: a failed or held verification is passed on, an exception of `verify`
leaves `settle` as well. -/
def settleQueried (blocked : String → Option Bool) (onChain : String → Bool) (req : Request) :
    Served :=
  match F.verifyQueried blocked onChain req with
  | (none, recorded) => ⟨none, recorded, false⟩
  | (some verifyResult, recorded) =>
    if !verifyResult.isValid then
      ⟨some ⟨false, verifyResult.invalidReason, verifyResult.payer, "",
        req.requirements.network⟩, recorded, false⟩
    else
      ⟨some (F.settleVerified req verifyResult).1, (F.settleVerified req verifyResult).2, true⟩

/-- `settle` with a database that answers. -/
def settle (blocked : List String) (req : Request) : Option SettleResponse × Option Settlement :=
  let served := F.settleQueried (fun address => some (blocked.contains address))
    (fun _ => req.allowedOnChain) req
  (served.response, served.recorded)

theorem settle_eq (blocked : List String) (req : Request) :
    F.settle blocked req =
      match F.verify blocked req with
      | (none, recorded) => (none, recorded)
      | (some verifyResult, recorded) =>
        if !verifyResult.isValid then
          (some ⟨false, verifyResult.invalidReason, verifyResult.payer, "",
            req.requirements.network⟩, recorded)
        else
          ((some (F.settleVerified req verifyResult).1), (F.settleVerified req verifyResult).2) := by
  simp only [settle, settleQueried, verify]
  cases F.verifyQueried (fun address => some (blocked.contains address))
    (fun _ => req.allowedOnChain) req with
  | mk verified recorded =>
    cases verified with
    | none => rfl
    | some verifyResult => cases hvalid : verifyResult.isValid <;> simp [hvalid]

end Facilitator

/-! ## Runs -/

/-- The tables: the log, and the local blocklist. -/
structure Log where
  settlements : List Settlement
  blocked : List String
deriving DecidableEq

def Log.empty : Log := ⟨[], []⟩

inductive Call
  | verify (req : Request)
  | settle (req : Request)
  | block (address : String)
  | unblock (address : String)
deriving DecidableEq

/-- The attempt that a call records. -/
def Call.attempt (blocked : List String) : Call → Option Settlement
  | .verify req => (F.verify blocked req).2
  | .settle req => (F.settle blocked req).2
  | _ => none

/-- `INSERT … ON CONFLICT (idempotency_key) DO NOTHING` of the recorded attempt. -/
def Log.call (l : Log) (c : Call) : Log where
  settlements := (c.attempt F l.blocked).toList.foldl
    (FirstWrite.insert Settlement.idempotencyKey) l.settlements
  blocked := match c with
    | .block a => l.blocked ++ [a]
    | .unblock a => l.blocked.filter (· ≠ a)
    | _ => l.blocked

/-- The log after a run of calls. -/
def run (l : Log) (cs : List Call) : Log := cs.foldl (Log.call F) l

/-- The attempts that a run of calls records, oldest first. -/
def attempts : Log → List Call → List Settlement
  | _, [] => []
  | l, c :: cs => (c.attempt F l.blocked).toList ++ attempts (l.call F c) cs

/-- The row that a payer and a payload have in the log. -/
def Log.row (l : Log) (payer : String) (payload : PaymentPayload) : Option Settlement :=
  FirstWrite.lookup Settlement.idempotencyKey (F.idempotencyKey payer payload) l.settlements

/-- The first attempt among `rows` for a payer and a payload. -/
def firstAttempt (rows : List Settlement) (payer : String) (payload : PaymentPayload) :
    Option Settlement :=
  FirstWrite.lookup Settlement.idempotencyKey (F.idempotencyKey payer payload) rows

variable {F} {l : Log} {cs : List Call} {req : Request} {payer : String}
  {payload : PaymentPayload} {result : SettleResponse}

/-- The log is what inserting the recorded attempts in order makes of it. -/
theorem settlements_run (cs : List Call) (l : Log) :
    (run F l cs).settlements =
      (attempts F l cs).foldl (FirstWrite.insert Settlement.idempotencyKey) l.settlements := by
  induction cs generalizing l with
  | nil => rfl
  | cons c cs ih =>
    rw [attempts, List.foldl_append]
    exact ih (l.call F c)

/-- The log holds the first attempt that was recorded. -/
theorem row_run (cs : List Call) (payer : String) (payload : PaymentPayload) :
    (run F .empty cs).row F payer payload = firstAttempt F (attempts F .empty cs) payer payload := by
  rw [Log.row, settlements_run, FirstWrite.lookup_foldl_insert]
  rfl

/-- The payer that `settle` logs a response of the scheme for. -/
def Request.settledPayer (req : Request) (result : SettleResponse) : Option String :=
  known (result.payer.or (req.schemeVerify.bind VerifyResponse.payer))

/-- A valid verification is the scheme's own answer, and has found its payer allowed. -/
theorem verifyQueried_valid {blocked : String → Option Bool} {onChain : String → Bool}
    {v : VerifyResponse} (h : (F.verifyQueried blocked onChain req).1 = some v) (hv : v.isValid) :
    req.schemeVerify = some v ∧
      ∀ payer ∈ known v.payer, isPayerAllowed blocked onChain payer = some true := by
  simp only [Facilitator.verifyQueried] at h
  split at h
  · cases h
    cases hv
  · split at h
    · cases h
    · next hscheme =>
      split at h
      · next hinvalid =>
        cases h
        simp [hv] at hinvalid
      · split at h
        · next hpayer =>
          cases h
          exact ⟨hscheme, by simp [hpayer]⟩
        · next payer hpayer =>
          split at h
          · cases h
          · next hallowed =>
            cases h
            refine ⟨hscheme, fun payer' hpayer' => ?_⟩
            rw [← Option.some.inj (hpayer.symm.trans hpayer')]
            exact hallowed
          · cases h
            cases hv

theorem attempt_of_settleVerified {v : VerifyResponse}
    (hsucc : (F.settleVerified req v).1.success)
    (hpayer : known ((F.settleVerified req v).1.payer.or v.payer) = some payer) :
    (F.settleVerified req v).2 =
      some (F.attempt payer req .settled (some (F.settleVerified req v).1.transaction)) := by
  simp only [Facilitator.settleVerified] at hsucc hpayer ⊢
  cases hs : req.schemeSettle with
  | none => simp [hs] at hsucc
  | some settled =>
    simp only [hs] at hsucc hpayer ⊢
    rw [hpayer, Option.map_some, if_pos hsucc, if_pos hsucc]

/-- A successful settlement is recorded as such, for the payer it is known to be of. -/
theorem attempt_of_settle {blocked : List String}
    (hres : (F.settle blocked req).1 = some result) (hsucc : result.success)
    (hpayer : req.settledPayer result = some payer) :
    (F.settle blocked req).2 = some (F.attempt payer req .settled (some result.transaction)) := by
  rw [Facilitator.settle_eq] at hres ⊢
  split at hres
  · cases hres
  · rename_i verifyResult recorded hv
    split at hres
    · -- a verification that failed is never a success
      cases hres
      simp at hsucc
    · rename_i hvalid
      have hanswer : (F.verify blocked req).1 = some verifyResult := by rw [hv]
      have hscheme := (verifyQueried_valid hanswer (by simpa using hvalid)).1
      obtain rfl := Option.some.inj hres
      rw [Request.settledPayer, hscheme, Option.bind_some] at hpayer
      rw [if_neg hvalid]
      exact attempt_of_settleVerified hsucc hpayer

/-- After a settlement that succeeded, its row says so exactly when no earlier
attempt for the same payer and payload said something else first. -/
theorem settle_tells_truth_iff (cs : List Call)
    (hres : (F.settle (run F .empty cs).blocked req).1 = some result) (hsucc : result.success)
    (hpayer : req.settledPayer result = some payer) :
    (∃ row, (run F .empty (cs ++ [.settle req])).row F payer req.payload = some row ∧
        row.status = .settled ∧ row.txHash = some result.transaction) ↔
      ∀ row, firstAttempt F (attempts F .empty cs) payer req.payload = some row →
        row.status = .settled ∧ row.txHash = some result.transaction := by
  have hnew := attempt_of_settle hres hsucc hpayer
  have hrow : (run F .empty (cs ++ [.settle req])).row F payer req.payload =
      (firstAttempt F (attempts F .empty cs) payer req.payload).or
        (some (F.attempt payer req .settled (some result.transaction))) := by
    rw [← row_run, run, List.foldl_append]
    simp only [List.foldl_cons, List.foldl_nil, Log.row, Log.call, Call.attempt]
    rw [show (F.settle (List.foldl (Log.call F) .empty cs).blocked req).2 = _ from hnew]
    simp only [Option.toList_some, List.foldl_cons, List.foldl_nil, FirstWrite.lookup_insert]
    congr 1
    exact List.find?_cons_of_pos (by simp [Facilitator.attempt])
  rw [hrow]
  cases firstAttempt F (attempts F .empty cs) payer req.payload with
  | none => simp [Facilitator.attempt]
  | some first => simp

/-- A facilitator whose hash is SHA-256 on the example payload. -/
def exampleFacilitator : Facilitator where
  network := "stellar:testnet"
  usdcAddress := "CUSDC"
  sha256 _ := "676098fe92db7743fd56e575188bbbaa36c978504bab41d56b910c7f10f5c37b"

/-- A payload that verifies, settled with the given outcome. -/
def exampleRequest (schemeSettle : Option SettleResponse) : Request where
  x402Version := 2
  payload := ⟨"\x7b\"transaction\":\"AAAA\"\x7d"⟩
  requirements := ⟨"exact", "stellar:testnet", "CUSDC", "10000", "GSELLER"⟩
  schemeVerify := some ⟨true, none, some "GPAYER"⟩
  allowedOnChain := true
  schemeSettle := schemeSettle

def exampleSuccess : SettleResponse := ⟨true, none, some "GPAYER", "tx1", "stellar:testnet"⟩

/-- The same payload, submitted for another payer. -/
def exampleOther : Request :=
  { exampleRequest none with schemeVerify := some ⟨true, none, some "GOTHER"⟩ }

/-- A settlement is logged truthfully after one of another payer has failed, and after the payload
has been verified. -/
theorem settle_tells_truth_example :
    ∃ row, (run exampleFacilitator .empty [.settle exampleOther, .verify (exampleRequest none),
          .settle (exampleRequest (some exampleSuccess))]).row exampleFacilitator "GPAYER"
        (exampleRequest (some exampleSuccess)).payload = some row ∧
      row.status = .settled ∧ row.txHash = some "tx1" := by
  let earlier : List Call := [.settle exampleOther, .verify (exampleRequest none)]
  have hres : (exampleFacilitator.settle (run exampleFacilitator .empty earlier).blocked
      (exampleRequest (some exampleSuccess))).1 = some exampleSuccess := by decide
  refine (settle_tells_truth_iff earlier hres rfl (by decide)).mpr fun row hrow => ?_
  have hnone : firstAttempt exampleFacilitator (attempts exampleFacilitator .empty earlier) "GPAYER"
      (exampleRequest (some exampleSuccess)).payload = none := by decide
  rw [hnone] at hrow
  cases hrow

/-- A settlement that throws and is retried with success stays logged as failed. -/
theorem retried_settle_logged_failed :
    (exampleFacilitator.settle
        (run exampleFacilitator .empty [.settle (exampleRequest none)]).blocked
        (exampleRequest (some exampleSuccess))).1 = some exampleSuccess ∧
      exampleSuccess.success = true ∧
      (exampleRequest (some exampleSuccess)).settledPayer exampleSuccess = some "GPAYER" ∧
      ((run exampleFacilitator .empty [.settle (exampleRequest none),
          .settle (exampleRequest (some exampleSuccess))]).row exampleFacilitator "GPAYER"
          (exampleRequest (some exampleSuccess)).payload).map
        (fun row => (row.status, row.txHash)) = some (.failed, none) := by
  refine ⟨?_, rfl, ?_, ?_⟩ <;> decide

end KonfirmBackend.X402
