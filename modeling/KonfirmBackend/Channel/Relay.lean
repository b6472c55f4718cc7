import KonfirmBackend.Channel.Keeper

/-!
# Countersigned transactions

`openChannel` and `closeChannel` take a transaction that a client has built, check what
it invokes, rebuild it with the facilitator as its source, sign it and submit it. The
operation of the client goes into the signed transaction as it is, with its source and
its authorization entries. The SDK, the network and the queries answer as they like.

## Main definitions

- `checkInvocation` — the checks on the client's transaction that both calls share
- `submitRebuilt` — rebuilding, signing, submitting and polling, under the lock
- `openChannel`, `closeChannel` — the two calls
- `SafeToSign` — what the facilitator should put its signature to

## Main results

- `Request.signed_eq` — what is signed is the client's operation under a new source
- `signs_client_authority_iff` — when what is signed is safe
-/

namespace KonfirmBackend.Channel

/-! ## Transactions -/

/-- A contract value as `scValToNative` reads it. -/
inductive Native
  | string (s : String)
  | bigint (v : ℤ)
  | number (v : ℤ)
  | buffer (b : List UInt8)
  | other
deriving DecidableEq

structure InvokeContractArgs where
  contractAddress : String
  functionName : String
  args : List Native
deriving DecidableEq

inductive HostFunction
  | invokeContract (invokeArgs : InvokeContractArgs)
  | other (type : String)
deriving DecidableEq

/-- On whose signature an authorization entry rests: that of the source of the
transaction, or one of its own by an address. -/
inductive Credentials
  | sourceAccount
  | address (address : String)
deriving DecidableEq

/-- An authorization entry, with the calls it authorizes in their serialized form. -/
structure AuthorizationEntry where
  credentials : Credentials
  rootInvocation : String
deriving DecidableEq

inductive OperationBody
  | invokeHostFunction (func : HostFunction) (auth : List AuthorizationEntry)
  | other (type : String)
deriving DecidableEq

structure Operation where
  source : Option String
  body : OperationBody
deriving DecidableEq

structure Transaction where
  source : String
  operations : List Operation
deriving DecidableEq

/-- The transaction data of a successful simulation, with the resource fee they name. -/
structure SorobanData where
  data : String
  resourceFee : ℕ
deriving DecidableEq

/-- What `TransactionBuilder` builds for the facilitator to sign. -/
structure RebuiltTransaction where
  source : String
  sequence : ℤ
  fee : ℕ
  timeout : ℕ
  sorobanData : SorobanData
  operations : List Operation
deriving DecidableEq

/-- The parts of the Stellar SDK the calls rest on: the parser of transactions, and the
account that an address stands for, which for an `M…` address is the account it is
multiplexed on. -/
structure Sdk where
  parseTransaction : String → Option Transaction
  accountOf : String → String

/-- How a call fails: with an exception, with an `errorReason`, or with the reason
`transaction_failed` and the hash of the transaction. -/
inductive Failure
  | thrown
  | reason (errorReason : String)
  | transactionFailed (transaction : String)
deriving DecidableEq

def CHANNEL_CONTRACT_ID : String := "CDS2Y4CQMQWFLCG5GHVKX7UIXHYPM6IJDJZTEXSASSHGHLESGLGLNPL6"

def BASE_FEE : ℕ := 100

variable (sdk : Sdk)

/-- The checks that `openChannel` and `closeChannel` share, up to the name and the number
of arguments of the function; `signer` is the facilitator's address, if it resolves. -/
def checkInvocation (signer : Option String) (functionName : String) (arity : ℕ)
    (transactionXdr : String) : Except Failure (String × Operation × List Native) :=
  match sdk.parseTransaction transactionXdr with
  | none => .error (.reason "malformed_transaction")
  | some transaction =>
    match transaction.operations with
    | [operation] =>
      match operation.body, signer with
      | .other _, _ => .error (.reason "wrong_operation_type")
      | .invokeHostFunction _ _, none => .error .thrown
      | .invokeHostFunction func _, some signer =>
        if operation.source.getD transaction.source = signer then
          .error (.reason "unsafe_tx_source")
        else
          match func with
          | .other _ => .error (.reason "wrong_operation_type")
          | .invokeContract invokeArgs =>
            if invokeArgs.contractAddress ≠ CHANNEL_CONTRACT_ID then
              .error (.reason "wrong_contract")
            else if invokeArgs.functionName ≠ functionName ∨ invokeArgs.args.length ≠ arity then
              .error (.reason "wrong_function")
            else .ok (signer, operation, invokeArgs.args)
    | _ => .error (.reason "wrong_operation_count")

/-! ## The critical section -/

inductive Poll
  | success (returnValue : Option Native)
  | failed
  /-- not found yet, or an exception -/
  | inconclusive
deriving DecidableEq

/-- `pollForTransaction` with the attempts left: the return value of the transaction, if
it is seen to succeed. -/
def pollForTransaction : ℕ → List Poll → Option (Option Native)
  | 0, _ => none
  | _, [] => none
  | _ + 1, .success returnValue :: _ => some returnValue
  | _ + 1, .failed :: _ => none
  | attempts + 1, .inconclusive :: polls => pollForTransaction attempts polls

inductive SignAnswer
  | signed
  | refused
  | threw
deriving DecidableEq

inductive SendAnswer
  | pending (hash : String)
  | rejected
  | threw
deriving DecidableEq

/-- The answers from outside while the lock is held. -/
structure SubmissionAnswers where
  /-- `getAccount`: the sequence number, unless it throws -/
  account : Option ℤ
  /-- `build` takes the operation, rather than throw -/
  builds : Bool
  sign : SignAnswer
  send : SendAnswer
  polls : List Poll
deriving DecidableEq

structure Submission where
  result : Except Failure (String × Option Native)
  signed : Option RebuiltTransaction

/-- `Operation.invokeHostFunction(operation)` keeps the source, the call and the
authorization entries. -/
def invokeHostFunction (operation : Operation) : Operation where
  source := operation.source
  body := operation.body

/-- `build` adds the resource fee to that of the one operation. -/
def rebuild (signer : String) (sequenceNumber : ℤ) (sorobanData : SorobanData)
    (operation : Operation) : RebuiltTransaction where
  source := signer
  sequence := sequenceNumber + 1
  fee := BASE_FEE + sorobanData.resourceFee
  timeout := 60
  sorobanData := sorobanData
  operations := [invokeHostFunction operation]

/-- The critical section of both calls. -/
def submitRebuilt (signer : String) (operation : Operation) (sorobanData : SorobanData)
    (a : SubmissionAnswers) : Submission :=
  match a.account, a.builds with
  | some sequenceNumber, true =>
    match a.sign with
    | .threw => ⟨.error (.reason "submission_failed"), none⟩
    | .refused => ⟨.error (.reason "signing_failed"), none⟩
    | .signed =>
      ⟨match a.send with
        | .threw | .rejected => .error (.reason "submission_failed")
        | .pending hash =>
          match pollForTransaction 15 a.polls with
          | none => .error (.transactionFailed hash)
          | some returnValue => .ok (hash, returnValue),
        some (rebuild signer sequenceNumber sorobanData operation)⟩
  | _, _ => ⟨.error (.reason "submission_failed"), none⟩

/-! ## The calls -/

/-- What a call writes to the database. -/
inductive Write
  | insert (row : ChannelRow)
  | close (onchainChannelId : ℤ)
deriving DecidableEq

/-- The end of a call: the hash of the transaction or the failure, what the facilitator
signed, and what was written. -/
structure Outcome where
  result : Except Failure String
  signed : Option RebuiltTransaction
  written : Option Write

/-- The answers to `openChannel`; `none` is an exception. -/
structure OpenAnswers where
  signer : Option String
  /-- the lookup of an address on the local blocklist -/
  blocked : Native → Option Bool
  allowedOnChain : Native → Bool
  simulation : Option SorobanData
  submission : SubmissionAnswers
  /-- the `INSERT` does not fail -/
  inserts : Bool

def openChecks (a : OpenAnswers) (transactionXdr : String) :
    Except Failure (String × Operation × List Native × SorobanData) :=
  match checkInvocation sdk a.signer "open_channel" 5 transactionXdr with
  | .error e => .error e
  | .ok (signer, operation, args) =>
    match args.head? with
    | none => .error .thrown
    | some payer =>
      if payer = .string signer then .error (.reason "facilitator_is_payer")
      else
        match a.blocked payer with
        | none => .error .thrown
        | some blocked =>
          if blocked || !a.allowedOnChain payer then .error (.reason "compliance_blocked")
          else
            match a.simulation with
            | none => .error (.reason "simulation_failed")
            | some sorobanData => .ok (signer, operation, args, sorobanData)

/-- The row for a channel that the contract has opened. The contract would not have taken
arguments of other types. -/
def openedRow (args : List Native) (returnValue : Option Native) (resourceUrl : Option String)
    (now : ℤ) : Option ChannelRow :=
  match args, returnValue with
  | [.string payer, .string payee, .string token, .buffer payerPubkey, .bigint deposit],
    some (.bigint onchainChannelId) =>
    some (.inserted onchainChannelId payer payee token payerPubkey deposit resourceUrl now)
  | _, _ => none

def openChannel (a : OpenAnswers) (transactionXdr : String) (resourceUrl : Option String)
    (now : ℤ) : Outcome :=
  match openChecks sdk a transactionXdr with
  | .error e => ⟨.error e, none, none⟩
  | .ok (signer, operation, args, sorobanData) =>
    let submission := submitRebuilt signer operation sorobanData a.submission
    match submission.result with
    | .error e => ⟨.error e, submission.signed, none⟩
    | .ok (hash, returnValue) =>
      match openedRow args returnValue resourceUrl now, a.inserts with
      | some row, true => ⟨.ok hash, submission.signed, some (.insert row)⟩
      | _, _ => ⟨.error .thrown, submission.signed, none⟩

/-- The answers to `closeChannel`; `none` is an exception. -/
structure CloseAnswers where
  signer : Option String
  /-- the row with the channel's id, if there is one -/
  found : Option (Option ChannelRow)
  simulation : Option SorobanData
  submission : SubmissionAnswers
  /-- the `UPDATE` does not fail -/
  updates : Bool

/-- `scValToNative` of the caller, where it is a string. -/
def Native.caller : Native → Option String
  | .string s => some s
  | _ => none

/-- What the query makes of the text of a channel id; anything but a number is an error. -/
def Native.channelId : Native → Option ℤ
  | .bigint v | .number v => some v
  | .string s => s.toInt?
  | _ => none

def closeChecks (a : CloseAnswers) (transactionXdr : String) :
    Except Failure (String × Operation × ℤ × SorobanData) :=
  match checkInvocation sdk a.signer "initiate_close" 2 transactionXdr with
  | .error e => .error e
  | .ok (signer, operation, args) =>
    match args.head?, (args[1]?).bind Native.channelId, a.found with
    | some caller, some onchainChannelId, some found =>
      match closeSelect found caller.caller with
      | some reason => .error (.reason reason)
      | none =>
        match a.simulation with
        | none => .error (.reason "simulation_failed")
        | some sorobanData => .ok (signer, operation, onchainChannelId, sorobanData)
    | _, _, _ => .error .thrown

def closeChannel (a : CloseAnswers) (transactionXdr : String) : Outcome :=
  match closeChecks sdk a transactionXdr with
  | .error e => ⟨.error e, none, none⟩
  | .ok (signer, operation, onchainChannelId, sorobanData) =>
    let submission := submitRebuilt signer operation sorobanData a.submission
    match submission.result with
    | .error e => ⟨.error e, submission.signed, none⟩
    | .ok (hash, _) =>
      if a.updates then ⟨.ok hash, submission.signed, some (.close onchainChannelId)⟩
      else ⟨.error .thrown, submission.signed, none⟩

/-! ## What is signed -/

/-- A call of one of the two, with the answers it meets. -/
inductive Request
  | opens (a : OpenAnswers) (transactionXdr : String) (resourceUrl : Option String) (now : ℤ)
  | closes (a : CloseAnswers) (transactionXdr : String)

namespace Request

def outcome : Request → Outcome
  | .opens a transactionXdr resourceUrl now => openChannel sdk a transactionXdr resourceUrl now
  | .closes a transactionXdr => closeChannel sdk a transactionXdr

def signer : Request → Option String
  | .opens a .. => a.signer
  | .closes a _ => a.signer

def transactionXdr : Request → String
  | .opens _ transactionXdr .. => transactionXdr
  | .closes _ transactionXdr => transactionXdr

/-- The function that the call is for. -/
def functionName : Request → String
  | .opens .. => "open_channel"
  | .closes .. => "initiate_close"

def arity : Request → ℕ
  | .opens .. => 5
  | .closes .. => 2

end Request

def Operation.auth (operation : Operation) : List AuthorizationEntry :=
  match operation.body with
  | .invokeHostFunction _ auth => auth
  | .other _ => []

/-- An address of the facilitator's account that is written differently. -/
def AnotherForm (facilitator address : String) : Prop :=
  address ≠ facilitator ∧ sdk.accountOf address = sdk.accountOf facilitator

/-- Neither the source of the operation nor one of its authorization entries draws on
the facilitator. -/
def Operation.Harmless (facilitator : String) (operation : Operation) : Prop :=
  (∀ source ∈ operation.source, ¬AnotherForm sdk facilitator source) ∧
    ∀ entry ∈ operation.auth, entry.credentials ≠ .sourceAccount ∧
      entry.credentials ≠ .address facilitator

/-- A transaction the facilitator may sign: a single call of the function in question of
the channel contract that does not draw on the facilitator. -/
def SafeToSign (facilitator functionName : String) (arity : ℕ) (tx : RebuiltTransaction) : Prop :=
  ∃ operation invokeArgs, tx.operations = [operation] ∧
    operation.body = .invokeHostFunction (.invokeContract invokeArgs) operation.auth ∧
    invokeArgs.contractAddress = CHANNEL_CONTRACT_ID ∧
    invokeArgs.functionName = functionName ∧ invokeArgs.args.length = arity ∧
    operation.Harmless sdk facilitator

variable {sdk} {signer : Option String} {facilitator functionName transactionXdr : String}
  {arity : ℕ} {operation : Operation} {args : List Native} {tx : RebuiltTransaction}

/-- What a transaction that passes the shared checks looks like. -/
theorem checkInvocation_eq_ok
    (h : checkInvocation sdk signer functionName arity transactionXdr =
      .ok (facilitator, operation, args)) :
    signer = some facilitator ∧
      ∃ transaction invokeArgs, sdk.parseTransaction transactionXdr = some transaction ∧
        transaction.operations = [operation] ∧
        operation.source.getD transaction.source ≠ facilitator ∧
        operation.body = .invokeHostFunction (.invokeContract invokeArgs) operation.auth ∧
        invokeArgs.contractAddress = CHANNEL_CONTRACT_ID ∧
        invokeArgs.functionName = functionName ∧ invokeArgs.args.length = arity ∧
        invokeArgs.args = args := by
  unfold checkInvocation at h
  split at h
  · cases h
  · rename_i transaction hparse
    split at h
    · rename_i operation' hops
      split at h
      · cases h
      · cases h
      · rename_i func auth facilitator' hbody
        split at h
        · cases h
        · rename_i hsource
          split at h
          · cases h
          · rename_i invokeArgs
            split at h
            · cases h
            · rename_i hcontract
              split at h
              · cases h
              · rename_i hfunction
                cases h
                rw [not_or, not_not, not_not] at hfunction
                refine ⟨rfl, transaction, invokeArgs, hparse, hops, hsource, ?_,
                  not_not.mp hcontract, hfunction.1, hfunction.2, rfl⟩
                rw [Operation.auth, hbody]
    · cases h

/-- The critical section signs the operation as it is given. -/
theorem submitRebuilt_signed {sorobanData : SorobanData} {a : SubmissionAnswers}
    (h : (submitRebuilt facilitator operation sorobanData a).signed = some tx) :
    ∃ sequenceNumber, tx = rebuild facilitator sequenceNumber sorobanData operation := by
  simp only [submitRebuilt] at h
  split at h
  · rename_i sequenceNumber _ _
    split at h
    · cases h
    · cases h
    · exact ⟨sequenceNumber, (Option.some.inj h).symm⟩
  · cases h

theorem openChecks_eq_ok {a : OpenAnswers} {sorobanData : SorobanData}
    (h : openChecks sdk a transactionXdr = .ok (facilitator, operation, args, sorobanData)) :
    checkInvocation sdk a.signer "open_channel" 5 transactionXdr =
        .ok (facilitator, operation, args) ∧
      ∃ payer, args.head? = some payer ∧ payer ≠ .string facilitator ∧
        a.blocked payer = some false ∧ a.allowedOnChain payer := by
  simp only [openChecks] at h
  split at h
  · cases h
  · rename_i hcheck
    split at h
    · cases h
    · rename_i payer hhead
      split at h
      · cases h
      · rename_i hpayer
        split at h
        · cases h
        · rename_i blocked hblocked
          split at h
          · cases h
          · rename_i hallowed
            split at h
            · cases h
            · cases h
              obtain ⟨rfl, hchain⟩ : blocked = false ∧ a.allowedOnChain payer = true := by
                simpa using hallowed
              exact ⟨hcheck, payer, hhead, hpayer, hblocked, hchain⟩

theorem closeChecks_eq_ok {a : CloseAnswers} {onchainChannelId : ℤ} {sorobanData : SorobanData}
    (h : closeChecks sdk a transactionXdr =
      .ok (facilitator, operation, onchainChannelId, sorobanData)) :
    ∃ args caller found, checkInvocation sdk a.signer "initiate_close" 2 transactionXdr =
        .ok (facilitator, operation, args) ∧
      a.found = some found ∧ closeSelect found caller = none := by
  simp only [closeChecks] at h
  split at h
  · cases h
  · rename_i args hcheck
    split at h
    · rename_i caller id found hcaller hid hfound
      split at h
      · cases h
      · rename_i hselect
        split at h
        · cases h
        · cases h
          exact ⟨args, caller.caller, found, hcheck, hfound, hselect⟩
    · cases h

theorem openChannel_signed {a : OpenAnswers} {sorobanData : SorobanData} (resourceUrl : Option String)
    (now : ℤ)
    (h : openChecks sdk a transactionXdr = .ok (facilitator, operation, args, sorobanData)) :
    (openChannel sdk a transactionXdr resourceUrl now).signed =
      (submitRebuilt facilitator operation sorobanData a.submission).signed := by
  simp only [openChannel, h]
  split
  · rfl
  · split <;> rfl

theorem closeChannel_signed {a : CloseAnswers} {onchainChannelId : ℤ} {sorobanData : SorobanData}
    (h : closeChecks sdk a transactionXdr =
      .ok (facilitator, operation, onchainChannelId, sorobanData)) :
    (closeChannel sdk a transactionXdr).signed =
      (submitRebuilt facilitator operation sorobanData a.submission).signed := by
  simp only [closeChannel, h]
  split
  · rfl
  · split <;> rfl

/-- What either call signs is the operation it has checked, under the facilitator. -/
theorem Request.signed_eq {r : Request} (h : (r.outcome sdk).signed = some tx) :
    ∃ facilitator operation args sequenceNumber sorobanData,
      checkInvocation sdk r.signer r.functionName r.arity r.transactionXdr =
        .ok (facilitator, operation, args) ∧
      tx = rebuild facilitator sequenceNumber sorobanData operation := by
  cases r with
  | opens a transactionXdr resourceUrl now =>
    cases hc : openChecks sdk a transactionXdr with
    | error e => simp [Request.outcome, openChannel, hc] at h
    | ok checked =>
      obtain ⟨facilitator, operation, args, sorobanData⟩ := checked
      obtain ⟨sequenceNumber, htx⟩ :=
        submitRebuilt_signed ((openChannel_signed resourceUrl now hc).symm.trans h)
      exact ⟨facilitator, operation, args, sequenceNumber, sorobanData, (openChecks_eq_ok hc).1, htx⟩
  | closes a transactionXdr =>
    cases hc : closeChecks sdk a transactionXdr with
    | error e => simp [Request.outcome, closeChannel, hc] at h
    | ok checked =>
      obtain ⟨facilitator, operation, onchainChannelId, sorobanData⟩ := checked
      obtain ⟨sequenceNumber, htx⟩ := submitRebuilt_signed ((closeChannel_signed hc).symm.trans h)
      obtain ⟨args, -, -, hcheck, -⟩ := closeChecks_eq_ok hc
      exact ⟨facilitator, operation, args, sequenceNumber, sorobanData, hcheck, htx⟩

/-- The transaction is signed with the facilitator as its source, and the operation never
names the facilitator's own address as its source. -/
theorem Request.source_of_signed {r : Request} (h : (r.outcome sdk).signed = some tx) :
    r.signer = some tx.source ∧ ∀ operation ∈ tx.operations, operation.source ≠ some tx.source := by
  obtain ⟨facilitator, operation, args, sequenceNumber, sorobanData, hcheck, rfl⟩ :=
    Request.signed_eq h
  obtain ⟨hsigner, transaction, invokeArgs, -, -, hsource, -⟩ := checkInvocation_eq_ok hcheck
  refine ⟨hsigner, fun signed hmem heq => hsource ?_⟩
  rw [List.mem_singleton.mp hmem] at heq
  have hown : operation.source = some facilitator := heq
  rw [hown, Option.getD_some]

/-- What the facilitator signs is safe exactly when the client's transaction asks nothing
of the facilitator: everything else about it has been checked. -/
theorem signs_client_authority_iff {r : Request} (h : (r.outcome sdk).signed = some tx)
    (hsigner : r.signer = some facilitator) :
    tx.source = facilitator ∧
      (SafeToSign sdk facilitator r.functionName r.arity tx ↔
        ∀ transaction, sdk.parseTransaction r.transactionXdr = some transaction →
          ∀ operation ∈ transaction.operations, operation.Harmless sdk facilitator) := by
  have hsource : tx.source = facilitator :=
    Option.some.inj ((Request.source_of_signed h).1.symm.trans hsigner)
  obtain ⟨facilitator', operation, args, sequenceNumber, sorobanData, hcheck, rfl⟩ :=
    Request.signed_eq h
  obtain ⟨-, transaction, invokeArgs, hparse, hops, -, hbody, hcontract, hname, hlength, -⟩ :=
    checkInvocation_eq_ok hcheck
  refine ⟨hsource, ?_, fun hharmless => ?_⟩
  · rintro ⟨signed, -, hsigned, -, -, -, -, hharmless⟩ transaction' hparse' operation' hmem
    obtain rfl : transaction = transaction' := Option.some.inj (hparse.symm.trans hparse')
    rw [hops, List.mem_singleton] at hmem
    subst hmem
    -- the rebuilt transaction holds this very operation
    obtain rfl : signed = operation' := (List.singleton_inj.mp hsigned).symm
    exact hharmless
  · have hmem : operation ∈ transaction.operations := by
      rw [hops]
      exact List.mem_singleton_self operation
    exact ⟨operation, invokeArgs, rfl, hbody, hcontract, hname, hlength,
      hharmless transaction hparse operation hmem⟩

/-- An SDK that knows one transaction and one multiplexed address of the facilitator. -/
def exampleSdk (transaction : Transaction) : Sdk where
  parseTransaction transactionXdr := if transactionXdr = "AAAA" then some transaction else none
  accountOf address := if address = "MFACILITATOR" then "GFACILITATOR" else address

/-- An opening of a channel; one entry authorizes a transfer. -/
def exampleOpening (source : String) (credentials : Credentials) : Transaction where
  source := source
  operations := [{
    source := none
    body := .invokeHostFunction
      (.invokeContract ⟨CHANNEL_CONTRACT_ID, "open_channel", [.string "GPAYER", .string "GPAYEE",
        .string "CTOKEN", .buffer (List.replicate 32 7), .bigint 1000000]⟩)
      [⟨credentials, "transfer"⟩] }]

def exampleRequest : Request :=
  .opens {
    signer := some "GFACILITATOR"
    blocked _ := some false
    allowedOnChain _ := true
    simulation := some ⟨"data", 94813⟩
    submission := ⟨some 41, true, .signed, .pending "hash", [.success (some (.bigint 1))]⟩
    inserts := true } "AAAA" none 0

/-- An opening that rests on the payer's own signature is safe to sign. -/
theorem signs_payers_opening :
    ∃ tx, (exampleRequest.outcome
        (exampleSdk (exampleOpening "GPAYER" (.address "GPAYER")))).signed = some tx ∧
      tx.source = "GFACILITATOR" ∧
      SafeToSign (exampleSdk (exampleOpening "GPAYER" (.address "GPAYER"))) "GFACILITATOR"
        "open_channel" 5 tx := by
  let opening := exampleOpening "GPAYER" (.address "GPAYER")
  have hsigned : (exampleRequest.outcome (exampleSdk opening)).signed =
      some (rebuild "GFACILITATOR" 41 ⟨"data", 94813⟩ opening.operations[0]) := by
    decide +kernel
  have hsigner : exampleRequest.signer = some "GFACILITATOR" := rfl
  obtain ⟨hsource, hsafe⟩ := signs_client_authority_iff hsigned hsigner
  refine ⟨_, hsigned, hsource, hsafe.mpr fun transaction hparse operation hmem => ?_⟩
  obtain rfl : opening = transaction := Option.some.inj hparse
  rw [List.mem_singleton.mp hmem]
  constructor
  · simp
  · simp [Operation.auth]

/-- An opening from a multiplexed address of the facilitator, with an entry that rests on
the signature of the source, is signed by the facilitator all the same. -/
theorem signs_source_account_credentials :
    ∃ tx, (exampleRequest.outcome
        (exampleSdk (exampleOpening "MFACILITATOR" .sourceAccount))).signed = some tx ∧
      tx.source = "GFACILITATOR" ∧
      ¬SafeToSign (exampleSdk (exampleOpening "MFACILITATOR" .sourceAccount)) "GFACILITATOR"
        "open_channel" 5 tx := by
  let opening := exampleOpening "MFACILITATOR" .sourceAccount
  have hsigned : (exampleRequest.outcome (exampleSdk opening)).signed =
      some (rebuild "GFACILITATOR" 41 ⟨"data", 94813⟩ opening.operations[0]) := by
    decide +kernel
  refine ⟨_, hsigned, rfl, ?_⟩
  rintro ⟨operation, invokeArgs, hops, -, -, -, -, -, hauth⟩
  obtain rfl := List.singleton_inj.mp hops
  exact (hauth ⟨.sourceAccount, "transfer"⟩ (List.mem_singleton_self _)).1 rfl

end KonfirmBackend.Channel
