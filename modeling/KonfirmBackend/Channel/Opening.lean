import KonfirmBackend.Channel.Relay
import KonfirmBackend.Lib.FirstWrite

/-!
# Channels that are opened on chain

`openChannel` inserts its row when it has seen its transaction succeed. The transaction is
valid for a minute, the polling gives up after fifteen attempts, and what it then reports
is a failure. A channel that the network opens later than that has no row.

## Main definitions

- `Confirmed` — the answers from which `openChannel` learns that its channel exists
- `Outcome.rowsAfter` — the rows after the call's `INSERT`

## Main results

- `pollForTransaction_eq_some_iff` — what polling waits for
- `opened_kept_iff` — which openings have a row
-/

namespace KonfirmBackend.Channel

/-- The transaction is signed and sent, and the first answer that settles it, within
fifteen polls, is a success with the channel id `onchainChannelId`. -/
def Confirmed (a : SubmissionAnswers) (onchainChannelId : ℤ) : Prop :=
  a.account.isSome ∧ a.builds ∧ a.sign = .signed ∧ (∃ hash, a.send = .pending hash) ∧
    ∃ n < 15, a.polls[n]? = some (.success (some (.bigint onchainChannelId))) ∧
      ∀ m < n, a.polls[m]? = some .inconclusive

/-- `INSERT … ON CONFLICT (onchain_channel_id) DO NOTHING`, if the call gets that far. -/
def Outcome.rowsAfter (o : Outcome) (rows : List ChannelRow) : List ChannelRow :=
  match o.written with
  | some (.insert row) => FirstWrite.insert ChannelRow.onchainChannelId rows row
  | _ => rows

/-- The channel id in the response. -/
def Outcome.onchainChannelId (o : Outcome) : Option ℤ :=
  match o.result, o.written with
  | .ok _, some (.insert row) => some row.onchainChannelId
  | _, _ => none

/-- The row of a channel, with what the invocation that opened it says. -/
structure ChannelRow.OpenedBy (row : ChannelRow) (onchainChannelId : ℤ)
    (payer payee token : String) (payerPubkey : List UInt8) (deposit : ℤ) : Prop where
  onchainChannelId : row.onchainChannelId = onchainChannelId
  payerAddress : row.payerAddress = payer
  payeeAddress : row.payeeAddress = payee
  assetContract : row.assetContract = token
  payerPubkey : row.payerPubkey = payerPubkey
  deposited : row.deposited = deposit

/-! ## Polling -/

/-- Polling ends with a success exactly when that is the first answer that settles the
transaction and there are attempts left for it. -/
theorem pollForTransaction_eq_some_iff {attempts : ℕ} {polls : List Poll}
    {returnValue : Option Native} :
    pollForTransaction attempts polls = some returnValue ↔
      ∃ n < attempts, polls[n]? = some (.success returnValue) ∧
        ∀ m < n, polls[m]? = some .inconclusive := by
  induction attempts generalizing polls with
  | zero => simp [pollForTransaction]
  | succ attempts ih =>
    cases polls with
    | nil => simp [pollForTransaction]
    | cons poll polls =>
      cases poll with
      | success value =>
        constructor
        · intro h
          obtain rfl : value = returnValue := Option.some.inj h
          exact ⟨0, Nat.succ_pos _, rfl, fun m hm => absurd hm (Nat.not_lt_zero m)⟩
        · rintro ⟨n, -, hn, hearlier⟩
          cases n with
          | zero =>
            obtain rfl : value = returnValue := by simpa using hn
            rfl
          | succ n => exact absurd (hearlier 0 (Nat.succ_pos n)) (by simp)
      | failed =>
        constructor
        · intro h
          cases h
        · rintro ⟨n, -, hn, hearlier⟩
          cases n with
          | zero => simp at hn
          | succ n => exact absurd (hearlier 0 (Nat.succ_pos n)) (by simp)
      | inconclusive =>
        rw [pollForTransaction, ih]
        constructor
        · rintro ⟨n, hlt, hn, hearlier⟩
          refine ⟨n + 1, Nat.succ_lt_succ hlt, hn, ?_⟩
          intro m hm
          cases m with
          | zero => rfl
          | succ m => exact hearlier m (Nat.lt_of_succ_lt_succ hm)
        · rintro ⟨n, hlt, hn, hearlier⟩
          cases n with
          | zero => simp at hn
          | succ n =>
            refine ⟨n, Nat.lt_of_succ_lt_succ hlt, hn, ?_⟩
            intro m hm
            exact hearlier (m + 1) (Nat.succ_lt_succ hm)

variable {sdk : Sdk} {facilitator payer payee token transactionXdr : String}
  {operation : Operation} {sorobanData : SorobanData} {payerPubkey : List UInt8} {deposit k : ℤ}

/-- The critical section succeeds with a channel id exactly when it is confirmed. -/
theorem submitRebuilt_ok_iff {a : SubmissionAnswers} :
    (∃ hash, (submitRebuilt facilitator operation sorobanData a).result =
        .ok (hash, some (.bigint k))) ↔ Confirmed a k := by
  constructor
  · rintro ⟨hash, h⟩
    simp only [submitRebuilt] at h
    split at h
    · rename_i sequenceNumber haccount hbuilds
      split at h
      · cases h
      · cases h
      · rename_i hsign
        simp only at h
        split at h
        · cases h
        · cases h
        · rename_i hash' hsend
          split at h
          · cases h
          · rename_i returnValue hpoll
            cases h
            exact ⟨by rw [haccount]; rfl, hbuilds, hsign, ⟨_, hsend⟩,
              pollForTransaction_eq_some_iff.mp hpoll⟩
    · cases h
  · rintro ⟨haccount, hbuilds, hsign, ⟨hash, hsend⟩, hpolls⟩
    obtain ⟨sequenceNumber, haccount⟩ := Option.isSome_iff_exists.mp haccount
    refine ⟨hash, ?_⟩
    simp only [submitRebuilt, haccount, hbuilds, hsign, hsend,
      pollForTransaction_eq_some_iff.mpr hpolls]

/-! ## The row -/

/-- A call whose submission succeeds with a channel id inserts the row. -/
theorem openChannel_of_confirmed {a : OpenAnswers} (resourceUrl : Option String) (now : ℤ)
    (hcheck : openChecks sdk a transactionXdr = .ok (facilitator, operation,
      [.string payer, .string payee, .string token, .buffer payerPubkey, .bigint deposit],
      sorobanData))
    (hinserts : a.inserts) (hconfirmed : Confirmed a.submission k) :
    ∃ hash, (openChannel sdk a transactionXdr resourceUrl now).result = .ok hash ∧
      (openChannel sdk a transactionXdr resourceUrl now).written =
        some (.insert (.inserted k payer payee token payerPubkey deposit resourceUrl now)) := by
  obtain ⟨hash, hresult⟩ := submitRebuilt_ok_iff.mpr hconfirmed
  refine ⟨hash, ?_⟩
  simp only [openChannel, hcheck]
  rw [hresult]
  simp [openedRow, hinserts]

/-- A channel that the call reports is a confirmed one, and its row has been inserted. -/
theorem confirmed_of_reported {a : OpenAnswers} {resourceUrl : Option String} {now : ℤ}
    {args : List Native}
    (hcheck : openChecks sdk a transactionXdr = .ok (facilitator, operation, args, sorobanData))
    (hreported : (openChannel sdk a transactionXdr resourceUrl now).onchainChannelId = some k) :
    Confirmed a.submission k := by
  simp only [Outcome.onchainChannelId, openChannel, hcheck] at hreported
  split at hreported
  · rename_i hash row hok hwritten
    cases hreported
    split at hwritten
    · cases hwritten
    · rename_i returnValue hresult
      split at hwritten
      · rename_i row' hrow _
        cases hwritten
        simp only [openedRow] at hrow
        split at hrow
        · cases hrow
          exact submitRebuilt_ok_iff.mp ⟨_, hresult⟩
        · cases hrow
      · cases hwritten
  · cases hreported

/-- A channel that the submitted transaction opens, at whatever time, is reported and has
its row exactly when the call learns of it from its answers and no row of another channel is
in the way. -/
theorem opened_kept_iff {a : OpenAnswers} {resourceUrl : Option String} {now : ℤ}
    {rows : List ChannelRow} {included : Option ℤ}
    (hcheck : openChecks sdk a transactionXdr = .ok (facilitator, operation,
      [.string payer, .string payee, .string token, .buffer payerPubkey, .bigint deposit],
      sorobanData))
    (hinserts : a.inserts) :
    (∀ k ∈ included,
        (openChannel sdk a transactionXdr resourceUrl now).onchainChannelId = some k ∧
        ∃ row, FirstWrite.lookup ChannelRow.onchainChannelId k
            ((openChannel sdk a transactionXdr resourceUrl now).rowsAfter rows) = some row ∧
          row.OpenedBy k payer payee token payerPubkey deposit) ↔
      ∀ k ∈ included, Confirmed a.submission k ∧
        ∀ row ∈ FirstWrite.lookup ChannelRow.onchainChannelId k rows,
          row.OpenedBy k payer payee token payerPubkey deposit := by
  refine forall₂_congr fun k _ => ?_
  have hafter : Confirmed a.submission k →
      (openChannel sdk a transactionXdr resourceUrl now).onchainChannelId = some k ∧
      FirstWrite.lookup ChannelRow.onchainChannelId k
          ((openChannel sdk a transactionXdr resourceUrl now).rowsAfter rows) =
        (FirstWrite.lookup ChannelRow.onchainChannelId k rows).or
          (some (.inserted k payer payee token payerPubkey deposit resourceUrl now)) := by
    intro hconfirmed
    obtain ⟨hash, hresult, hwritten⟩ :=
      openChannel_of_confirmed resourceUrl now hcheck hinserts hconfirmed
    constructor
    · rw [Outcome.onchainChannelId, hresult, hwritten]
      rfl
    · rw [Outcome.rowsAfter, hwritten]
      show FirstWrite.lookup _ k (FirstWrite.insert _ rows _) = _
      rw [FirstWrite.lookup_insert]
      congr 1
      exact List.find?_cons_of_pos (by simp [ChannelRow.inserted])
  constructor
  · rintro ⟨hreported, row, hrow, hopened⟩
    have hconfirmed := confirmed_of_reported hcheck hreported
    refine ⟨hconfirmed, fun first hfirst => ?_⟩
    -- the row that is there stays
    rw [(hafter hconfirmed).2, Option.mem_def.mp hfirst, Option.some_or] at hrow
    obtain rfl := Option.some.inj hrow
    exact hopened
  · rintro ⟨hconfirmed, hmatches⟩
    refine ⟨(hafter hconfirmed).1, ?_⟩
    rw [(hafter hconfirmed).2]
    cases hfirst : FirstWrite.lookup ChannelRow.onchainChannelId k rows with
    | none => exact ⟨_, rfl, ⟨rfl, rfl, rfl, rfl, rfl, rfl⟩⟩
    | some first => exact ⟨first, rfl, hmatches first hfirst⟩

/-- The answers of the example opening, with these polls. -/
def exampleOpenAnswers (polls : List Poll) : OpenAnswers where
  signer := some "GFACILITATOR"
  blocked _ := some false
  allowedOnChain _ := true
  simulation := some ⟨"data", 94813⟩
  submission := ⟨some 41, true, .signed, .pending "hash", polls⟩
  inserts := true

/-- A channel that is opened while the call still polls. -/
theorem exampleOpening_kept :
    (openChannel (exampleSdk (exampleOpening "GPAYER" (.address "GPAYER")))
        (exampleOpenAnswers [.inconclusive, .success (some (.bigint 1))]) "AAAA" none
        0).onchainChannelId = some 1 ∧
      ∃ row, FirstWrite.lookup ChannelRow.onchainChannelId 1
          ((openChannel (exampleSdk (exampleOpening "GPAYER" (.address "GPAYER")))
            (exampleOpenAnswers [.inconclusive, .success (some (.bigint 1))]) "AAAA" none
            0).rowsAfter []) = some row ∧
        row.OpenedBy 1 "GPAYER" "GPAYEE" "CTOKEN" (List.replicate 32 7) 1000000 := by
  have hcheck : openChecks (exampleSdk (exampleOpening "GPAYER" (.address "GPAYER")))
      (exampleOpenAnswers [.inconclusive, .success (some (.bigint 1))]) "AAAA" =
        .ok ("GFACILITATOR", _, [.string "GPAYER", .string "GPAYEE", .string "CTOKEN",
          .buffer (List.replicate 32 7), .bigint 1000000], ⟨"data", 94813⟩) := rfl
  refine (opened_kept_iff hcheck rfl).mpr (fun k hk => ?_) 1 (Option.mem_some_self 1)
  obtain rfl := Option.some.inj hk
  refine ⟨⟨rfl, rfl, rfl, ⟨_, rfl⟩, 1, by decide, rfl, by decide⟩, ?_⟩
  intro row hrow
  cases hrow

/-- The network opens channel 1 after the fifteenth poll. The call has reported a failure by
then, and no row is written. -/
theorem late_opening_lost :
    ∃ facilitator operation, openChecks (exampleSdk (exampleOpening "GPAYER" (.address "GPAYER")))
        (exampleOpenAnswers (List.replicate 15 .inconclusive)) "AAAA" =
          .ok (facilitator, operation, [.string "GPAYER", .string "GPAYEE", .string "CTOKEN",
            .buffer (List.replicate 32 7), .bigint 1000000], ⟨"data", 94813⟩) ∧
      (openChannel (exampleSdk (exampleOpening "GPAYER" (.address "GPAYER")))
          (exampleOpenAnswers (List.replicate 15 .inconclusive)) "AAAA" none 0).result =
        .error (.transactionFailed "hash") ∧
      (openChannel (exampleSdk (exampleOpening "GPAYER" (.address "GPAYER")))
          (exampleOpenAnswers (List.replicate 15 .inconclusive)) "AAAA" none 0).rowsAfter [] = [] ∧
      ¬∀ k ∈ some 1, ∃ row, FirstWrite.lookup ChannelRow.onchainChannelId k
          ((openChannel (exampleSdk (exampleOpening "GPAYER" (.address "GPAYER")))
            (exampleOpenAnswers (List.replicate 15 .inconclusive)) "AAAA" none 0).rowsAfter []) =
            some row ∧
        row.OpenedBy k "GPAYER" "GPAYEE" "CTOKEN" (List.replicate 32 7) 1000000 := by
  refine ⟨_, _, rfl, rfl, rfl, ?_⟩
  intro hkept
  obtain ⟨row, hrow, -⟩ := hkept 1 rfl
  cases hrow

end KonfirmBackend.Channel
