import KonfirmBackend.Channel.Integrity
import KonfirmBackend.Channel.Relay
import KonfirmBackend.Lib.Program

/-!
# One bad channel does not starve the others

The phases of a sweep as the code runs them, with every call that they make and its exceptions.
Everything that depends on the network happens inside a `try`; the encoding of a row's values
for the contract does not. An exception there would end the phase, and with it the sweep, before
it got to the next row. It cannot happen, since the values of reachable rows are within the
contract's types.

## Main definitions

- `submitFacilitatorCall`, `getChannelInfoOnChain` — the calls of the keeper, step by step
- `sweepCheckpointsDue`, `sweepFinalizeDue`, `sweepWatchtower` — the phases
- `KeeperAnswers` — how every call to the outside ends
- `KeeperAnswers.callsFor` — the calls that a phase is to make about a row
- `KeeperState.pendings` — the triples of the table

## Main results

- `encodable_of_reaches` — the rows of a reachable table can be encoded
- `phase_attempts_all` — a phase gets to each of its rows once
- `World.pendings_of_sweep_step` — the triples stay, while clients' calls go on
- `sweep_isolates` — of every sweep, whatever fails in it
-/

namespace KonfirmBackend.Channel

open Transition Program

/-! ## The calls of the keeper -/

inductive ScType
  | u64
  | i128
deriving DecidableEq

def ScType.Fits (value : ℤ) : ScType → Prop
  | .u64 => 0 ≤ value ∧ value < 2 ^ 64
  | .i128 => -2 ^ 127 ≤ value ∧ value < 2 ^ 127

instance (value : ℤ) : (type : ScType) → Decidable (type.Fits value)
  | .u64 => inferInstanceAs (Decidable (_ ∧ _))
  | .i128 => inferInstanceAs (Decidable (_ ∧ _))

/-- An encoded argument of a contract call. -/
inductive ScVal
  | integer (type : ScType) (value : ℤ)
  | bytes (b : List UInt8)
deriving DecidableEq

/-- What a sweep does. A transaction is given by its call of the contract and, when it is to be
sent, its sequence number. -/
inductive KeeperCall
  /-- `submitFacilitatorCall` is called -/
  | submitted (functionName : String) (args : List ScVal)
  | getAccount (address : String)
  | simulateTransaction (functionName : String) (args : List ScVal)
  | signTransaction (functionName : String) (args : List ScVal) (sequence : ℤ)
  | sendTransaction (functionName : String) (args : List ScVal) (sequence : ℤ)
  | getTransaction (hash : String)
  /-- `resyncFromChain` is called -/
  | resynced (onchainChannelId : ℤ)
  /-- its `UPDATE` -/
  | update (onchainChannelId claimed : ℤ) (status : Option ChannelStatus)
deriving DecidableEq

/-- The table, and the calls so far. -/
structure KeeperState where
  rows : List ChannelRow
  calls : List KeeperCall
deriving DecidableEq

inductive KeeperException
  | encoding
  | type
  | signer
  | network
  | build
  | query
deriving DecidableEq

abbrev Keeper := EStateM KeeperException KeeperState

def SignAnswer.answered : SignAnswer → Option Bool
  | .signed => some true
  | .refused => some false
  | .threw => none

/-- The hash of the transaction that is pending, or none when it is rejected. -/
def SendAnswer.answered : SendAnswer → Option (Option String)
  | .pending hash => some (some hash)
  | .rejected => some none
  | .threw => none

/-- The answers to a call that the facilitator submits on its own; `none` is an exception. -/
structure CallAnswers where
  /-- `getAccount`: the sequence number -/
  account : Option ℤ
  /-- the transaction for the simulation can be built -/
  builds : Bool
  /-- whether the simulation succeeds -/
  simulation : Option Bool
  /-- the transaction to be signed can be built -/
  prepares : Bool
  sign : SignAnswer
  send : SendAnswer
  /-- the answers of `getTransaction`; after them it throws -/
  polls : List (Option Poll)

/-- The answers to a resync. -/
structure ResyncAnswers where
  /-- `getAccount` answers -/
  account : Bool
  builds : Bool
  /-- what `get_channel_info` returns, unless its simulation fails or throws -/
  info : Option ChannelInfo
  /-- the `UPDATE` does not fail -/
  writes : Bool

/-- The answers to a sweep, by phase and channel. -/
structure KeeperAnswers where
  signer : Option String
  submission : Phase → ℤ → CallAnswers
  resync : Phase → ℤ → ResyncAnswers

structure FacilitatorCallResult where
  success : Bool
  errorReason : Option String
  transaction : Option String
  returnValue : Option Native

def KeeperState.log (calls : List KeeperCall) (s : KeeperState) : KeeperState :=
  { s with calls := s.calls ++ calls }

/-- A call to the outside, which throws when it has no answer. -/
def request {α : Type} (call : KeeperCall) (answer : Option α) : Keeper α := do
  modify (KeeperState.log [call])
  match answer with
  | some value => pure value
  | none => throw .network

/-- `TransactionBuilder.build` -/
def build (builds : Bool) : Keeper PUnit := if builds then pure () else throw .build

/-- `nativeToScVal` of an integer. -/
def nativeToScVal (type : ScType) (value : ℤ) : Keeper ScVal :=
  if type.Fits value then pure (.integer type value) else throw .encoding

/-- The body of the `try` in `submitFacilitatorCall`: the hash of the transaction that was sent,
or the reason for the failure. -/
def sendCall (signer functionName : String) (args : List ScVal) (logLabel : String)
    (a : CallAnswers) : Keeper (Except String String) := do
  let sequenceNumber ← request (.getAccount signer) a.account
  build a.builds
  let simulated ← request (.simulateTransaction functionName args) a.simulation
  if !simulated then pure (.error (logLabel ++ "_simulation_failed"))
  else do
    build a.prepares
    let signed ← request (.signTransaction functionName args (sequenceNumber + 1)) a.sign.answered
    if !signed then pure (.error (logLabel ++ "_signing_failed"))
    else do
      let sent ← request (.sendTransaction functionName args (sequenceNumber + 1)) a.send.answered
      match sent with
      | none => pure (.error (logLabel ++ "_submission_failed"))
      | some hash => pure (.ok hash)

/-- `pollForTransaction` with the attempts left; an exception is as good as not found. -/
def Keeper.pollForTransaction (hash : String) : ℕ → List (Option Poll) →
    Keeper (Option (Option Native))
  | 0, _ => pure none
  | attempts + 1, polls => do
    let result ← tryCatch (request (.getTransaction hash) polls.head?.join)
      fun _ => pure .inconclusive
    match result with
    | .success returnValue => pure (some returnValue)
    | .failed => pure none
    | .inconclusive => Keeper.pollForTransaction hash attempts polls.tail

/-- The critical section of `submitFacilitatorCall`. -/
def facilitatorCall (signer functionName : String) (args : List ScVal) (logLabel : String)
    (a : CallAnswers) : Keeper FacilitatorCallResult := do
  let sent ← tryCatch (sendCall signer functionName args logLabel a)
    fun _ => pure (.error (logLabel ++ "_failed"))
  match sent with
  | .error reason => pure ⟨false, some reason, none, none⟩
  | .ok sentHash => do
    let confirmed ← Keeper.pollForTransaction sentHash 15 a.polls
    match confirmed with
    | none => pure ⟨false, some (logLabel ++ "_transaction_failed"), some sentHash, none⟩
    | some returnValue => pure ⟨true, none, some sentHash, returnValue⟩

variable (A : KeeperAnswers)

def submitFacilitatorCall (functionName : String) (args : List ScVal) (logLabel : String)
    (a : CallAnswers) : Keeper FacilitatorCallResult := do
  modify (KeeperState.log [.submitted functionName args])
  match A.signer with
  | none => throw .signer
  | some signer => facilitatorCall signer functionName args logLabel a

def checkpointChannel (phase : Phase) (onchainChannelId cumulativeAmount nonce : ℤ)
    (signature : List UInt8) : Keeper FacilitatorCallResult := do
  let channelId ← nativeToScVal .u64 onchainChannelId
  let amount ← nativeToScVal .i128 cumulativeAmount
  let nonce ← nativeToScVal .u64 nonce
  submitFacilitatorCall A "checkpoint" [channelId, amount, nonce, .bytes signature] "checkpoint"
    (A.submission phase onchainChannelId)

def finalizeCloseChannel (phase : Phase) (onchainChannelId : ℤ) : Keeper FacilitatorCallResult := do
  let channelId ← nativeToScVal .u64 onchainChannelId
  submitFacilitatorCall A "finalize_close" [channelId] "finalize_close"
    (A.submission phase onchainChannelId)

def getChannelInfoOnChain (phase : Phase) (onchainChannelId : ℤ) : Keeper ChannelInfo :=
  match A.signer with
  | none => throw .signer
  | some signer => do
    let a := A.resync phase onchainChannelId
    request (.getAccount signer) (if a.account then some () else none)
    let channelId ← nativeToScVal .u64 onchainChannelId
    build a.builds
    request (.simulateTransaction "get_channel_info" [channelId]) a.info

/-- The `UPDATE` of `resyncFromChain` on the table. -/
def updateRows (onchainChannelId : ℤ) (info : ChannelInfo) (rows : List ChannelRow) :
    List ChannelRow :=
  rows.map fun row =>
    if row.onchainChannelId = onchainChannelId then resyncUpdate info row else row

def updateResynced (phase : Phase) (onchainChannelId : ℤ) (info : ChannelInfo) :
    Keeper PUnit := do
  modify (KeeperState.log [.update onchainChannelId info.claimed (mappedStatus info.status)])
  if (A.resync phase onchainChannelId).writes then
    modify fun s => { s with rows := updateRows onchainChannelId info s.rows }
  else throw .query

def resyncFromChain (phase : Phase) (onchainChannelId : ℤ) : Keeper PUnit := do
  modify (KeeperState.log [.resynced onchainChannelId])
  tryCatch
    (do
      let info ← getChannelInfoOnChain A phase onchainChannelId
      updateResynced A phase onchainChannelId info)
    fun _ => pure ()

/-- `Buffer.from` of the signature throws on a null. -/
def checkpointAndResync (phase : Phase) (row : ChannelRow) : Keeper PUnit :=
  match row.pendingSignature with
  | none => throw .type
  | some signature => do
    let _ ← checkpointChannel A phase row.onchainChannelId row.pendingAmount row.pendingNonce
      signature
    resyncFromChain A phase row.onchainChannelId

/-- The body of the loop of `sweepFinalizeDue`. -/
def finalizeAndResync (row : ChannelRow) : Keeper PUnit := do
  let _ ← finalizeCloseChannel A .finalize row.onchainChannelId
  resyncFromChain A .finalize row.onchainChannelId

/-! ## The phases, on what their queries returned -/

def sweepCheckpointsDue (rows : List ChannelRow) : Keeper PUnit :=
  rows.forM (checkpointAndResync A .checkpoints)

def sweepFinalizeDue (rows : List ChannelRow) : Keeper PUnit :=
  rows.forM (finalizeAndResync A)

def sweepWatchtower (rows : List ChannelRow) : Keeper PUnit :=
  rows.forM (checkpointAndResync A .watchtower)

def runPhase : Phase → List ChannelRow → Keeper PUnit
  | .checkpoints => sweepCheckpointsDue A
  | .finalize => sweepFinalizeDue A
  | .watchtower => sweepWatchtower A

/-- `sweep` with the lock; its queries return `selected`. -/
def sweep (selected : Phase → List ChannelRow) : Keeper PUnit := do
  sweepCheckpointsDue A (selected .checkpoints)
  sweepFinalizeDue A (selected .finalize)
  sweepWatchtower A (selected .watchtower)

/-! ## What is expected of them -/

/-- The calls up to the first one that does not let the next one be made. -/
def callsMade : List (KeeperCall × Bool) → List KeeperCall
  | [] => []
  | (call, goesOn) :: rest => call :: if goesOn then callsMade rest else []

def Poll.isInconclusive : Poll → Bool
  | .inconclusive => true
  | .success _ | .failed => false

/-- The polls for a transaction: the next one is made unless the answer says how it has ended. -/
def pollRequests (hash : String) : ℕ → List (Option Poll) → List (KeeperCall × Bool)
  | 0, _ => []
  | attempts + 1, polls => (.getTransaction hash, polls.head?.join.all Poll.isInconclusive) ::
      pollRequests hash attempts polls.tail

/-- What an attempt asks for until a transaction is sent, each if all went well before it. -/
def CallAnswers.sendRequests (a : CallAnswers) (signer functionName : String)
    (args : List ScVal) : List (KeeperCall × Bool) :=
  let sequence := a.account.getD 0 + 1
  [(.getAccount signer, a.account.isSome && a.builds),
    (.simulateTransaction functionName args, a.simulation.any id && a.prepares),
    (.signTransaction functionName args sequence, a.sign.answered.any id),
    (.sendTransaction functionName args sequence, a.send.answered.any Option.isSome)]

/-- The calls of an attempt: fifteen polls at most once the transaction is sent. -/
def CallAnswers.calls (a : CallAnswers) (signer functionName : String) (args : List ScVal) :
    List KeeperCall :=
  .submitted functionName args :: callsMade (a.sendRequests signer functionName args ++
    pollRequests (a.send.answered.join.getD "") 15 a.polls)

/-- The calls of a resync: what the chain says of the channel is written to its row. -/
def ResyncAnswers.calls (a : ResyncAnswers) (signer : String) (onchainChannelId : ℤ) :
    List KeeperCall :=
  .resynced onchainChannelId :: callsMade
    ([(.getAccount signer, a.account && a.builds),
      (.simulateTransaction "get_channel_info" [.integer .u64 onchainChannelId],
        a.info.isSome)] ++
      a.info.toList.map fun info =>
        (.update onchainChannelId info.claimed (mappedStatus info.status), a.writes))

/-- The table after a resync. -/
def ResyncAnswers.table (a : ResyncAnswers) (onchainChannelId : ℤ) (rows : List ChannelRow) :
    List ChannelRow :=
  if a.account && a.builds && a.writes then
    a.info.elim rows fun info => updateRows onchainChannelId info rows
  else rows

/-- The contract's function that a phase calls for a row, with the triple that was read. -/
def attemptFor : Phase → ChannelRow → String × List ScVal
  | .finalize, row => ("finalize_close", [.integer .u64 row.onchainChannelId])
  | _, row => ("checkpoint", [.integer .u64 row.onchainChannelId,
      .integer .i128 row.pendingAmount, .integer .u64 row.pendingNonce,
      .bytes (row.pendingSignature.getD [])])

/-- What a phase does about a row: one attempt, and a resync. -/
def KeeperAnswers.callsFor (signer : String) (phase : Phase) (row : ChannelRow) :
    List KeeperCall :=
  (A.submission phase row.onchainChannelId).calls signer (attemptFor phase row).1
      (attemptFor phase row).2 ++
    (A.resync phase row.onchainChannelId).calls signer row.onchainChannelId

/-- The table after a phase. -/
def KeeperAnswers.table (phase : Phase) (selected rows : List ChannelRow) : List ChannelRow :=
  selected.foldl (fun rows row =>
    (A.resync phase row.onchainChannelId).table row.onchainChannelId rows) rows

/-- The pending triples of the table. -/
def KeeperState.pendings (s : KeeperState) : List (ℤ × Pending) :=
  s.rows.map fun row => (row.onchainChannelId, row.pending)

/-- The query of a phase. -/
def Phase.due (now : ℤ) : Phase → ChannelRow → Bool
  | .checkpoints => checkpointDue
  | .finalize => finalizeDue now
  | .watchtower => watchtowerDue

def World.rows (w : World) : List ChannelRow := w.channels.map fun ch => ch.state.row

/-- The contract opens channels within its own types: an id is a `u64`, a deposit an
`i128`. -/
def OpensInRange : KeeperAction → Prop
  | .opened row _ => ContractRange row.onchainChannelId 0 row.deposited
  | _ => True

/-- The values of the row can be encoded for the phase. -/
def Encodable (phase : Phase) (row : ChannelRow) : Prop :=
  (0 ≤ row.onchainChannelId ∧ row.onchainChannelId < 2 ^ 64) ∧
    (phase ≠ .finalize → row.pendingSignature.isSome ∧
      ContractRange row.onchainChannelId row.pendingNonce row.pendingAmount)

/-! ## One attempt -/

variable {A : KeeperAnswers} {signer : String} {s : KeeperState} {phase : Phase} {row : ChannelRow}
  {a : CallAnswers} {functionName logLabel : String} {args : List ScVal}

@[simp] theorem KeeperState.log_log (calls calls' : List KeeperCall) (s : KeeperState) :
    (s.log calls).log calls' = s.log (calls ++ calls') := by
  simp [log, List.append_assoc]

theorem ends_request_iff {α : Type} {call : KeeperCall} {answer : Option α}
    {Q : α → KeeperState → Prop} {E : KeeperException → KeeperState → Prop} :
    Ends (request call answer) s Q E ↔
      match answer with
      | some value => Q value (s.log [call])
      | none => E .network (s.log [call]) := by
  cases answer <;> exact Iff.rfl

theorem ends_build_iff {builds : Bool} {Q : PUnit → KeeperState → Prop}
    {E : KeeperException → KeeperState → Prop} :
    Ends (build builds) s Q E ↔ if builds then Q () s else E .build s := by
  cases builds <;> exact Iff.rfl

theorem callsMade_append (l m : List (KeeperCall × Bool)) :
    callsMade (l ++ m) = callsMade l ++ if l.all Prod.snd then callsMade m else [] := by
  induction l with
  | nil => rfl
  | cons r l ih =>
    obtain ⟨call, goesOn⟩ := r
    cases goesOn with
    | false => rfl
    | true =>
      rw [List.cons_append, callsMade, if_pos rfl, ih]
      rfl

/-- A transaction is sent when every answer before it lets the next call be made. -/
def CallAnswers.Sends (a : CallAnswers) (signer functionName : String) (args : List ScVal) :
    Except String String → Prop
  | .ok hash => a.send.answered.join = some hash ∧
      (a.sendRequests signer functionName args).all Prod.snd
  | .error _ => (a.sendRequests signer functionName args).all Prod.snd = false

/-- However the `try` ends, it has made the calls up to the first one without success. -/
theorem ends_sendCall (signer functionName : String) (args : List ScVal) (logLabel : String)
    (a : CallAnswers) (s : KeeperState) (reason : String) :
    Ends (sendCall signer functionName args logLabel a) s
      (fun sent s' => s' = s.log (callsMade (a.sendRequests signer functionName args)) ∧
        a.Sends signer functionName args sent)
      fun _ s' => s' = s.log (callsMade (a.sendRequests signer functionName args)) ∧
        a.Sends signer functionName args (.error reason) := by
  obtain ⟨account, builds, simulation, prepares, sign, send, polls⟩ := a
  simp only [sendCall, ends_bind_iff, ends_request_iff, ends_build_iff]
  cases account with
  | none => exact ⟨rfl, rfl⟩
  | some sequenceNumber =>
    cases builds with
    | false => exact ⟨rfl, rfl⟩
    | true =>
      cases simulation with
      | none => exact ⟨KeeperState.log_log _ _ _, rfl⟩
      | some simulated =>
        cases simulated with
        | false => exact ⟨KeeperState.log_log _ _ _, rfl⟩
        | true =>
          cases prepares with
          | false => exact ⟨KeeperState.log_log _ _ _, rfl⟩
          | true =>
            cases sign with
            | threw | refused =>
              exact ⟨by simp [callsMade, CallAnswers.sendRequests, SignAnswer.answered], rfl⟩
            | signed =>
              cases send with
              | threw | rejected =>
                exact ⟨by simp [callsMade, CallAnswers.sendRequests, SignAnswer.answered], rfl⟩
              | pending hash =>
                exact ⟨by simp [callsMade, CallAnswers.sendRequests, SignAnswer.answered], rfl, rfl⟩

/-- A poll that throws is an answer like another. -/
theorem returns_getTransaction (hash : String) (answer : Option Poll) (s : KeeperState) :
    Returns (tryCatch (request (.getTransaction hash) answer) fun _ => pure .inconclusive) s
      (answer.getD .inconclusive) (s.log [.getTransaction hash]) := by
  cases answer <;> rfl

/-- Polling ends in a result, whatever is answered or thrown. -/
theorem returns_pollForTransaction (hash : String) (attempts : ℕ) (polls : List (Option Poll))
    (s : KeeperState) : ∃ confirmed, Returns (Keeper.pollForTransaction hash attempts polls) s
      confirmed (s.log (callsMade (pollRequests hash attempts polls))) := by
  induction attempts generalizing polls s with
  | zero => exact ⟨none, by rw [pollRequests, callsMade, KeeperState.log, List.append_nil]; rfl⟩
  | succ attempts ih =>
    have hpoll := returns_getTransaction hash polls.head?.join s
    obtain ⟨confirmed, hrest⟩ := ih polls.tail (s.log [.getTransaction hash])
    rw [KeeperState.log_log] at hrest
    rw [pollRequests, callsMade]
    cases hanswer : polls.head?.join with
    | none =>
      rw [hanswer] at hpoll
      exact ⟨confirmed, by
        rw [Keeper.pollForTransaction, hanswer]
        exact hpoll.bind hrest⟩
    | some result =>
      rw [hanswer] at hpoll
      cases result with
      | inconclusive => exact ⟨confirmed, by
          rw [Keeper.pollForTransaction, hanswer]
          exact hpoll.bind hrest⟩
      | success returnValue => exact ⟨some returnValue, by
          rw [Keeper.pollForTransaction, hanswer]
          exact hpoll.bind (.pure _ _)⟩
      | failed => exact ⟨none, by
          rw [Keeper.pollForTransaction, hanswer]
          exact hpoll.bind (.pure _ _)⟩

/-- The critical section returns a result, whatever fails in it. -/
theorem returns_facilitatorCall (signer functionName : String) (args : List ScVal)
    (logLabel : String) (a : CallAnswers) (s : KeeperState) : ∃ result,
    Returns (facilitatorCall signer functionName args logLabel a) s result
      (s.log (callsMade (a.sendRequests signer functionName args ++
        pollRequests (a.send.answered.join.getD "") 15 a.polls))) := by
  obtain ⟨sent, hsent, hsends⟩ :=
    (ends_sendCall signer functionName args logLabel a s (logLabel ++ "_failed")).returns_tryCatch
  rw [callsMade_append]
  cases sent with
  | error reason =>
    have hstop : (a.sendRequests signer functionName args).all Prod.snd = false := hsends
    rw [hstop, if_neg Bool.false_ne_true, List.append_nil]
    exact ⟨_, hsent.bind (.pure _ _)⟩
  | ok sentHash =>
    obtain ⟨hhash, hall⟩ := hsends
    rw [hall, if_pos rfl, hhash, Option.getD_some, ← KeeperState.log_log]
    obtain ⟨confirmed, hpolls⟩ := returns_pollForTransaction sentHash 15 a.polls
      (s.log (callsMade (a.sendRequests signer functionName args)))
    cases confirmed with
    | none => exact ⟨_, hsent.bind (hpolls.bind (.pure _ _))⟩
    | some returnValue => exact ⟨_, hsent.bind (hpolls.bind (.pure _ _))⟩

/-! ## One row -/

theorem returns_nativeToScVal {type : ScType} {value : ℤ} (h : type.Fits value)
    (s : KeeperState) : Returns (nativeToScVal type value) s (.integer type value) s := by
  rw [nativeToScVal, if_pos h]
  exact .pure _ s

theorem returns_submitFacilitatorCall (hsigner : A.signer = some signer) (functionName : String)
    (args : List ScVal) (logLabel : String) (a : CallAnswers) (s : KeeperState) : ∃ result,
    Returns (submitFacilitatorCall A functionName args logLabel a) s result
      (s.log (a.calls signer functionName args)) := by
  obtain ⟨result, hcall⟩ := returns_facilitatorCall signer functionName args logLabel a
    (s.log [.submitted functionName args])
  rw [KeeperState.log_log] at hcall
  refine ⟨result, (Returns.modify _ s).bind ?_⟩
  rw [hsigner]
  exact hcall

/-- With values in range, `checkpointChannel` returns a result, whatever the answers. -/
theorem returns_checkpointChannel (hsigner : A.signer = some signer) {id amount nonce : ℤ}
    (h : ContractRange id nonce amount) (phase : Phase) (signature : List UInt8)
    (s : KeeperState) : ∃ result,
    Returns (checkpointChannel A phase id amount nonce signature) s result
      (s.log ((A.submission phase id).calls signer "checkpoint" [.integer .u64 id,
        .integer .i128 amount, .integer .u64 nonce, .bytes signature])) := by
  obtain ⟨hid, hnonce, hamount⟩ := h
  obtain ⟨result, hcall⟩ := returns_submitFacilitatorCall hsigner "checkpoint"
    [.integer .u64 id, .integer .i128 amount, .integer .u64 nonce, .bytes signature] "checkpoint"
    (A.submission phase id) s
  refine ⟨result, (@returns_nativeToScVal .u64 _ hid s).bind ?_⟩
  refine (@returns_nativeToScVal .i128 _ hamount s).bind ?_
  exact (@returns_nativeToScVal .u64 _ hnonce s).bind hcall

theorem returns_finalizeCloseChannel (hsigner : A.signer = some signer) {id : ℤ}
    (hid : 0 ≤ id ∧ id < 2 ^ 64) (phase : Phase) (s : KeeperState) : ∃ result,
    Returns (finalizeCloseChannel A phase id) s result
      (s.log ((A.submission phase id).calls signer "finalize_close" [.integer .u64 id])) := by
  obtain ⟨result, hcall⟩ := returns_submitFacilitatorCall hsigner "finalize_close"
    [.integer .u64 id] "finalize_close" (A.submission phase id) s
  exact ⟨result, (@returns_nativeToScVal .u64 _ hid s).bind hcall⟩

/-- The `UPDATE` of a resync leaves the triples alone. -/
theorem pendings_updateRows (id : ℤ) (info : ChannelInfo) (rows : List ChannelRow) :
    (updateRows id info rows).map (fun row => (row.onchainChannelId, row.pending)) =
      rows.map fun row => (row.onchainChannelId, row.pending) := by
  rw [updateRows, List.map_map]
  apply List.map_congr_left
  intro row _
  simp only [Function.comp]
  split <;> rfl

theorem pendings_table (A : KeeperAnswers) (phase : Phase) (selected rows : List ChannelRow) :
    (A.table phase selected rows).map (fun row => (row.onchainChannelId, row.pending)) =
      rows.map fun row => (row.onchainChannelId, row.pending) := by
  induction selected generalizing rows with
  | nil => rfl
  | cons row selected ih =>
    refine (ih _).trans ?_
    show ((A.resync phase row.onchainChannelId).table row.onchainChannelId rows).map _ = _
    rw [ResyncAnswers.table]
    split
    · cases (A.resync phase row.onchainChannelId).info with
      | none => rfl
      | some info => exact pendings_updateRows _ _ _
    · rfl

/-- The state after a resync. -/
def KeeperState.resync (a : ResyncAnswers) (signer : String) (id : ℤ) (s : KeeperState) :
    KeeperState where
  rows := a.table id s.rows
  calls := s.calls ++ a.calls signer id

/-- A resync returns, whatever fails in it. -/
theorem returns_resyncFromChain (hsigner : A.signer = some signer) {id : ℤ}
    (hid : 0 ≤ id ∧ id < 2 ^ 64) (phase : Phase) (s : KeeperState) :
    Returns (resyncFromChain A phase id) s PUnit.unit (s.resync (A.resync phase id) signer id) := by
  have hfits : ScType.Fits id .u64 := hid
  have hends : Ends (do
      let info ← getChannelInfoOnChain A phase id
      updateResynced A phase id info) (s.log [.resynced id])
      (fun _ s' => s' = s.resync (A.resync phase id) signer id ∧ True)
      fun _ s' => s' = s.resync (A.resync phase id) signer id ∧ True := by
    rw [getChannelInfoOnChain, hsigner]
    simp only [updateResynced, nativeToScVal, if_pos hfits, ends_bind_iff, ends_request_iff,
      ends_build_iff, ends_pure_iff, ends_modify_iff, and_true]
    -- the answers in turn: the first that fails ends the resync
    obtain ⟨account, builds, info, writes⟩ := A.resync phase id
    cases account with
    | false => simp [KeeperState.resync, ResyncAnswers.table, ResyncAnswers.calls, callsMade,
        KeeperState.log]
    | true =>
      cases builds with
      | false => simp [KeeperState.resync, ResyncAnswers.table, ResyncAnswers.calls, callsMade,
          KeeperState.log]
      | true =>
        cases info with
        | none => simp [KeeperState.resync, ResyncAnswers.table, ResyncAnswers.calls, callsMade,
            KeeperState.log]
        | some info =>
          cases writes with
          | false => simp [KeeperState.resync, ResyncAnswers.table, ResyncAnswers.calls, callsMade,
              KeeperState.log, ends_throw_iff]
          | true => simp [KeeperState.resync, ResyncAnswers.table, ResyncAnswers.calls, callsMade,
              KeeperState.log, ends_modify_iff]
  obtain ⟨⟨⟩, hreturns, -⟩ := hends.returns_tryCatch
  exact (Returns.modify _ s).bind hreturns

/-- The body of a phase's loop, as the phase has it. -/
def handleRow (A : KeeperAnswers) : Phase → ChannelRow → Keeper PUnit
  | .finalize => finalizeAndResync A
  | phase => checkpointAndResync A phase

theorem runPhase_eq (A : KeeperAnswers) (phase : Phase) (rows : List ChannelRow) :
    runPhase A phase rows = rows.forM (handleRow A phase) := by
  cases phase <;> rfl

/-- The state after the body of a phase's loop. -/
def KeeperState.handle (A : KeeperAnswers) (signer : String) (phase : Phase) (s : KeeperState)
    (row : ChannelRow) : KeeperState :=
  (s.log ((A.submission phase row.onchainChannelId).calls signer (attemptFor phase row).1
    (attemptFor phase row).2)).resync (A.resync phase row.onchainChannelId) signer
      row.onchainChannelId

/-- On a row whose values can be encoded the body of the loop returns, having made its calls. -/
theorem returns_handleRow (hsigner : A.signer = some signer) (h : Encodable phase row)
    (s : KeeperState) :
    Returns (handleRow A phase row) s PUnit.unit (s.handle A signer phase row) := by
  obtain ⟨hid, hclaim⟩ := h
  -- the two phases that checkpoint have the same body
  by_cases hphase : phase = .finalize
  · subst hphase
    obtain ⟨result, hcall⟩ := returns_finalizeCloseChannel hsigner hid .finalize s
    exact hcall.bind (returns_resyncFromChain hsigner hid .finalize _)
  · obtain ⟨hsig, hrange⟩ := hclaim hphase
    obtain ⟨signature, hsignature⟩ := Option.isSome_iff_exists.mp hsig
    obtain ⟨result, hcall⟩ := returns_checkpointChannel hsigner hrange phase signature s
    have hbody : handleRow A phase row = checkpointAndResync A phase row := by
      cases phase with
      | finalize => exact absurd rfl hphase
      | checkpoints | watchtower => rfl
    have hattempt : attemptFor phase row = ("checkpoint",
        [.integer .u64 row.onchainChannelId, .integer .i128 row.pendingAmount,
          .integer .u64 row.pendingNonce, .bytes signature]) := by
      cases phase with
      | finalize => exact absurd rfl hphase
      | checkpoints | watchtower => simp [attemptFor, hsignature]
    rw [hbody, checkpointAndResync, hsignature, KeeperState.handle, hattempt]
    exact hcall.bind (returns_resyncFromChain hsigner hid phase _)

theorem foldl_handle (A : KeeperAnswers) (signer : String) (phase : Phase) (rows : List ChannelRow)
    (s : KeeperState) : rows.foldl (KeeperState.handle A signer phase) s =
      ⟨A.table phase rows s.rows, s.calls ++ rows.flatMap (A.callsFor signer phase)⟩ := by
  induction rows generalizing s with
  | nil => rw [List.foldl_nil, List.flatMap_nil, List.append_nil]; rfl
  | cons row rows ih =>
    rw [List.foldl_cons, ih, List.flatMap_cons]
    simp only [KeeperState.handle, KeeperState.resync, KeeperState.log, KeeperAnswers.callsFor,
      List.append_assoc]
    rfl

/-- A phase whose rows can be encoded gets to each of them once. -/
theorem phase_attempts_all (hsigner : A.signer = some signer) {rows : List ChannelRow}
    (h : ∀ row ∈ rows, Encodable phase row) (s : KeeperState) :
    Returns (runPhase A phase rows) s PUnit.unit
      ⟨A.table phase rows s.rows, s.calls ++ rows.flatMap (A.callsFor signer phase)⟩ := by
  rw [runPhase_eq, ← foldl_handle]
  -- after the rows that are done, the state is the fold over them
  obtain ⟨s', hreturns, rfl⟩ := returns_forM
    (P := fun done t => t = done.foldl (KeeperState.handle A signer phase) s)
    (fun row hrow done t ht => ⟨_, returns_handleRow hsigner (h row hrow) t, by
      rw [ht, List.foldl_append]
      rfl⟩) (s := s) rfl
  exact hreturns

/-! ## Reachable tables -/

variable {verifyEd25519 : Ed25519} {w w' : World}

/-- The id and the deposit of every channel are within the contract's types. -/
def World.InRange (w : World) : Prop :=
  ∀ ch ∈ w.channels, ContractRange ch.state.row.onchainChannelId 0 ch.state.row.deposited

theorem World.inRange_of_step {a : KeeperAction} (hok : OpensInRange a) (hw : w.InRange)
    (h : w.step verifyEd25519 a = some w') : w'.InRange := by
  have hterms : ∀ (b : Action) (ch : Watched) (t : ChannelState),
      ContractRange ch.state.row.onchainChannelId 0 ch.state.row.deposited →
      Channel.step verifyEd25519 ch.state b = some t →
      ContractRange t.row.onchainChannelId 0 t.row.deposited := by
    intro b ch t hch ht
    have heq := terms_of_step ht
    have hid : t.row.onchainChannelId = ch.state.row.onchainChannelId :=
      congrArg Terms.onchainChannelId heq
    have hdeposit : t.row.deposited = ch.state.row.deposited := congrArg Terms.deposited heq
    rw [hid, hdeposit]
    exact hch
  cases World.move_of_step h with
  | channel _ _ _ _ hstep => exact World.forall_stepChannel (hterms _) hw hstep
  | read sw i w₁ hsw hprogress hstep | write sw i w₁ hsw hprogress hstep =>
    have hchannels : w₁.InRange := World.forall_stepChannel (hterms _) hw hstep
    exact hchannels
  | submit | skip | finalize | watchtower | finish | abort => exact hw
  | opened row chain hfresh =>
    intro ch hch
    rcases List.mem_append.mp hch with hch | hch
    · exact hw ch hch
    · rw [List.mem_singleton.mp hch]
      exact hok
  | start order hnone horder =>
    intro ch hch
    obtain ⟨ch₀, hch₀, rfl⟩ := List.mem_map.mp hch
    exact hw ch₀ hch₀

/-- A sound row that its phase's query selects, on terms within range. -/
theorem ChannelRow.Sound.encodable (h : row.Sound verifyEd25519)
    (hterms : ContractRange row.onchainChannelId 0 row.deposited) {now : ℤ}
    (hdue : phase.due now row) : Encodable phase row := by
  obtain ⟨hid, -, -, hdeposit⟩ := hterms
  refine ⟨hid, fun hphase => ?_⟩
  have hsig : row.pendingSignature.isSome := by
    cases phase with
    | checkpoints => exact isSome_of_checkpointDue hdue
    | finalize => exact absurd rfl hphase
    | watchtower => exact isSome_of_watchtowerDue hdue
  obtain ⟨signature, hsignature⟩ := Option.isSome_iff_exists.mp hsig
  have hcovers := h.claimed signature hsignature
  have hamount : 0 < row.pendingAmount := hcovers.amount_pos
  have hnonce : row.pendingNonce < 2 ^ 63 := hcovers.nonce_lt
  refine ⟨hsig, hid, ⟨hcovers.nonce_pos.le, by omega⟩, by omega, ?_⟩
  exact hcovers.amount_le.trans_lt hdeposit

/-- Whatever a phase's query selects of a reachable table can be encoded. -/
theorem encodable_of_reaches
    (hreach : Reaches (World.step verifyEd25519) OpensInRange (.start []) w) {now : ℤ}
    {rows : List ChannelRow} (hrows : rows.Perm (w.rows.filter (phase.due now))) :
    ∀ row ∈ rows, Encodable phase row := by
  have hsound : w.Sound verifyEd25519 ∧ w.InRange :=
    hreach.invariant (I := fun w => w.Sound verifyEd25519 ∧ w.InRange)
      ⟨World.sound_start, by simp [World.InRange, World.start]⟩
      fun a l b hl hw h => ⟨World.sound_of_step hw.1 h, World.inRange_of_step hl hw.2 h⟩
  intro row hrow
  obtain ⟨hmem, hdue⟩ := List.mem_filter.mp (hrows.mem_iff.mp hrow)
  obtain ⟨ch, hch, rfl⟩ := List.mem_map.mp hmem
  exact (hsound.1.channels ch hch).row.encodable (hsound.2 ch hch) hdue

/-! ## While clients' calls go on -/

/-- The steps of the sweep. -/
def KeeperAction.ofSweep : KeeperAction → Bool
  | .channel .. | .opened .. => false
  | _ => true

/-- In every interleaving, no step of the sweep changes a triple. -/
theorem World.pendings_of_sweep_step {a : KeeperAction} (ha : a.ofSweep)
    (h : w.step verifyEd25519 a = some w') :
    w'.rows.map ChannelRow.pending = w.rows.map ChannelRow.pending := by
  have hstepped : ∀ {i b w₁}, (∀ s t, Channel.step verifyEd25519 s b = some t →
      t.row.pending = s.row.pending) → w.stepChannel verifyEd25519 i b = some w₁ →
      w₁.rows.map ChannelRow.pending = w.rows.map ChannelRow.pending := by
    intro i b w₁ hb hw₁
    simp only [World.rows, List.map_map]
    apply List.ext_getElem?
    intro j
    rw [List.getElem?_map, List.getElem?_map]
    exact World.map_stepChannel _ (fun ch t ht => hb ch.state t ht) hw₁ j
  cases World.move_of_step h with
  | channel | opened => cases ha
  | submit | skip | finalize | watchtower | finish | abort => rfl
  | start order hnone horder =>
    simp only [World.rows, List.map_map]
    rfl
  | read sw i w₁ hsw hprogress hstep | write sw i w₁ hsw hprogress hstep =>
    show w₁.rows.map ChannelRow.pending = _
    refine hstepped ?_ hstep
    intro s t ht
    cases Channel.move_of_step ht
    rfl

/-! ## The sweep -/

/-- **One bad channel never starves the others.** Whatever fails, each phase gets through the
rows its query returned, in any order, of a reachable table: for each it makes the calls of one
attempt, with the triple that was read, and of one resync, each as far as the answers to them
let it. No phase changes a triple, and the sweep gets through its phases; neither does a step of
the sweep while clients' calls go on. -/
theorem sweep_isolates {w : Phase → World} {selected : Phase → List ChannelRow} {now : ℤ}
    (hreach : ∀ p, Reaches (World.step verifyEd25519) OpensInRange (.start []) (w p))
    (hselected : ∀ p, (selected p).Perm ((w p).rows.filter (p.due now))) (A : KeeperAnswers)
    {signer : String} (hsigner : A.signer = some signer) (s : KeeperState) :
    (∀ p, ∃ s', Returns (runPhase A p (selected p)) s PUnit.unit s' ∧
        s'.calls = s.calls ++ (selected p).flatMap (A.callsFor signer p) ∧
        s'.rows = A.table p (selected p) s.rows ∧ s'.pendings = s.pendings) ∧
      (∃ s', Returns (sweep A selected) s PUnit.unit s' ∧
        s'.calls = s.calls ++ [Phase.checkpoints, .finalize, .watchtower].flatMap
          (fun p => (selected p).flatMap (A.callsFor signer p)) ∧
        s'.pendings = s.pendings) ∧
      ∀ w w' : World, ∀ a : KeeperAction, a.ofSweep → w.step verifyEd25519 a = some w' →
        w'.rows.map ChannelRow.pending = w.rows.map ChannelRow.pending := by
  have hphase : ∀ p s, Returns (runPhase A p (selected p)) s PUnit.unit
      ⟨A.table p (selected p) s.rows, s.calls ++ (selected p).flatMap (A.callsFor signer p)⟩ :=
    fun p s => phase_attempts_all hsigner (encodable_of_reaches (hreach p) (hselected p)) s
  have hpendings : ∀ (p : Phase) (rows : List ChannelRow) (calls calls' : List KeeperCall),
      (⟨A.table p (selected p) rows, calls⟩ : KeeperState).pendings =
        (⟨rows, calls'⟩ : KeeperState).pendings := fun p rows _ _ => pendings_table A p _ rows
  refine ⟨fun p => ⟨_, hphase p s, rfl, rfl, hpendings p s.rows _ s.calls⟩, ?_,
    fun _ _ _ ha h => World.pendings_of_sweep_step ha h⟩
  refine ⟨_, (hphase .checkpoints s).bind ((hphase .finalize _).bind (hphase .watchtower _)),
    ?_, ?_⟩
  · simp
  · rw [hpendings .watchtower _ _ [], hpendings .finalize _ _ [],
      hpendings .checkpoints _ _ s.calls]

/-- The second channel of the examples. -/
def exampleSecondRow : ChannelRow :=
  .inserted 2 "GPAYER" "GPAYEE" "CUSDC" (List.replicate 32 7) 100000000 none 0

def exampleSecondClaim : Claim where
  onchainChannelId := 2
  cumulativeAmount := 30000000
  nonce := 1
  signature := claimPayload 2 1 30000000

/-- Two channels open, and a claim is accepted on each. -/
def claimedRun : List KeeperAction :=
  [.opened exampleRow ⟨0, .opened⟩, .channel 0 (.claim (exampleClaim 1 50000000)),
    .channel 0 (.claimUpdate 0 3), .opened exampleSecondRow ⟨0, .opened⟩,
    .channel 1 (.claim exampleSecondClaim), .channel 1 (.claimUpdate 0 4)]

def exampleClaimed : World :=
  (exec (World.step exampleEd25519) (.start []) claimedRun).getD (.start [])

/-- The simulation for the first channel fails and its resync throws. For the second one a poll
throws, and then all goes well. -/
def examplePartialOutage : KeeperAnswers where
  signer := some "GFACILITATOR"
  submission := fun _ id =>
    if id = 1 then ⟨some 7, true, some false, true, .threw, .threw, []⟩
    else ⟨some 7, true, some true, true, .signed, .pending "tx", [none, some (.success none)]⟩
  resync := fun _ id =>
    if id = 1 then ⟨false, true, none, true⟩ else ⟨true, true, some ⟨30000000, .opened⟩, true⟩

/-- What goes wrong with the first channel keeps the sweep from nothing about the second. -/
theorem sweep_isolates_partial_outage :
    ∃ s', Returns (sweep examplePartialOutage fun p => exampleClaimed.rows.filter (p.due 0))
        ⟨exampleClaimed.rows, []⟩ PUnit.unit s' ∧
      s'.calls =
        (let first := [.integer .u64 1, .integer .i128 50000000, .integer .u64 1,
            .bytes (claimPayload 1 1 50000000)]
          let second := [.integer .u64 2, .integer .i128 30000000, .integer .u64 1,
            .bytes (claimPayload 2 1 30000000)]
          [.submitted "checkpoint" first, .getAccount "GFACILITATOR",
            .simulateTransaction "checkpoint" first, .resynced 1, .getAccount "GFACILITATOR",
            .submitted "checkpoint" second, .getAccount "GFACILITATOR",
            .simulateTransaction "checkpoint" second, .signTransaction "checkpoint" second 8,
            .sendTransaction "checkpoint" second 8, .getTransaction "tx", .getTransaction "tx",
            .resynced 2, .getAccount "GFACILITATOR",
            .simulateTransaction "get_channel_info" [.integer .u64 2],
            .update 2 30000000 (some .opened)]) ∧
      s'.pendings = [(1, (exampleClaim 1 50000000).pending), (2, exampleSecondClaim.pending)] := by
  have hreach : Reaches (World.step exampleEd25519) OpensInRange (.start []) exampleClaimed := by
    have hexec : exec (World.step exampleEd25519) (.start []) claimedRun = some exampleClaimed :=
      rfl
    refine Reaches.of_exec ?_ hexec
    simp only [claimedRun, List.forall_mem_cons]
    exact ⟨⟨by decide, by decide, by decide⟩, trivial, trivial, ⟨by decide, by decide, by decide⟩,
      trivial, trivial, by simp⟩
  obtain ⟨-, ⟨s', hreturns, hcalls, hpendings⟩, -⟩ := sweep_isolates (fun _ => hreach)
    (fun p => List.Perm.refl (exampleClaimed.rows.filter (p.due 0))) examplePartialOutage rfl
    ⟨exampleClaimed.rows, []⟩
  exact ⟨s', hreturns, hcalls, hpendings⟩

end KonfirmBackend.Channel
