import KonfirmBackend.Channel.Claims

/-!
# A whole call of `claim`

Both round trips of `claim` on the table, with no writer in between. Three integer domains
meet: the handler's unbounded integers, the `u64` and `i128` words of the signed payload, and
the signed 64-bit columns of the table, half as wide as a `u64`.

## Main definitions

- `StoredChannels` — a table with what its constraints and its only INSERT promise
- `claim` — the call
- `ValidClaim` — the claims that a call has to accept

## Main results

- `claim_accepts_valid_iff` — when a call accepts exactly those and never throws
-/

namespace KonfirmBackend.Channel

/-- The rows of the table. Ids are unique and fit their column; the keys come out of the
addresses of payers. -/
structure StoredChannels where
  rows : List ChannelRow
  unique : (rows.map ChannelRow.onchainChannelId).Nodup
  bigint : ∀ row ∈ rows, isBigint row.onchainChannelId
  keyed : ∀ row ∈ rows, row.payerPubkey.length = 32

/-- `SELECT … WHERE onchain_channel_id = $1`. -/
def findChannel (rows : List ChannelRow) (onchainChannelId : ℤ) : Option ChannelRow :=
  rows.find? fun row => decide (row.onchainChannelId = onchainChannelId)

/-- The rows that the `UPDATE` of `claim` touches. -/
def DueForCredit (c : Claim) (row : ChannelRow) : Prop :=
  row.onchainChannelId = c.onchainChannelId ∧ row.pendingNonce < c.nonce

instance (c : Claim) (row : ChannelRow) : Decidable (DueForCredit c row) :=
  inferInstanceAs (Decidable (_ ∧ _))

/-- The `UPDATE` of `claim` on the table, and its row count; `none` is an SQL error. -/
def creditRows (rows : List ChannelRow) (c : Claim) (now : ℤ) : Option (ℕ × List ChannelRow) :=
  if !isBigint c.nonce then none
  else some (rows.countP fun row => decide (DueForCredit c row),
    rows.map fun row => if DueForCredit c row then row.credit c now else row)

variable (verifyEd25519 : Ed25519)

/-- `ChannelService.claim`: the result and the table; `none` when the call throws. -/
def claim (rows : List ChannelRow) (c : Claim) (now : ℤ) :
    Option (ClaimResult × List ChannelRow) :=
  if !isBigint c.onchainChannelId then none
  else
    match claimSelect verifyEd25519 (findChannel rows c.onchainChannelId) c with
    | .threw => none
    | .rejected reason => some (⟨false, some reason⟩, rows)
    | .passed =>
      (creditRows rows c now).map fun (rowCount, rows') =>
        (if rowCount = 0 then ⟨false, some "stale_claim"⟩ else ⟨true, none⟩, rows')

/-- The claims to accept: above the row of an open channel in nonce and amount, within its
deposit, and signed by its payer. -/
def ValidClaim (rows : List ChannelRow) (c : Claim) : Prop :=
  ∃ row ∈ rows, row.onchainChannelId = c.onchainChannelId ∧ row.status = .opened ∧
    row.pendingNonce < c.nonce ∧ row.pendingAmount < c.cumulativeAmount ∧
    c.cumulativeAmount ≤ row.deposited ∧
    verifyClaimSignature verifyEd25519 c.onchainChannelId c.nonce c.cumulativeAmount
      row.payerPubkey c.signature = some true

/-- The call returns, accepts the claim exactly when it is valid, and otherwise leaves the
table as it is. -/
def AcceptsExactly (rows : List ChannelRow) (c : Claim) (now : ℤ) : Prop :=
  ∃ res rows', claim verifyEd25519 rows c now = some (res, rows') ∧
    (res.accepted = true ↔ ValidClaim verifyEd25519 rows c) ∧
    (res.accepted = false → rows' = rows)

variable {verifyEd25519} {rows : List ChannelRow} {row row' : ChannelRow} {c : Claim} {now : ℤ}
  {res : ClaimResult} {T : StoredChannels}

/-- The id names at most one row. -/
theorem StoredChannels.findChannel_eq_some_iff {id : ℤ} :
    findChannel T.rows id = some row ↔ row ∈ T.rows ∧ row.onchainChannelId = id := by
  constructor
  · intro h
    exact ⟨List.mem_of_find?_eq_some h, by simpa using List.find?_some h⟩
  · rintro ⟨hmem, rfl⟩
    cases hfind : findChannel T.rows row.onchainChannelId with
    | none =>
      have hne := List.find?_eq_none.mp hfind row hmem
      simp at hne
    | some row₂ =>
      have hmem₂ := List.mem_of_find?_eq_some hfind
      have hid : row₂.onchainChannelId = row.onchainChannelId := by
        simpa using List.find?_some hfind
      exact congrArg some (List.inj_on_of_nodup_map T.unique hmem₂ hmem hid)

/-- A claim passes the checks exactly when it is valid. -/
theorem claimSelect_eq_passed_iff_valid :
    claimSelect verifyEd25519 (findChannel T.rows c.onchainChannelId) c = .passed ↔
      ValidClaim verifyEd25519 T.rows c := by
  rw [claimSelect_eq_passed_iff, ValidClaim]
  refine exists_congr fun row => ?_
  rw [T.findChannel_eq_some_iff, and_assoc]

/-- With a key of 32 bytes no check throws. -/
theorem claimSelect_ne_threw
    (hkey : ∀ key payload signature, key.length = 32 →
      (verifyEd25519 (ED25519_SPKI_PREFIX ++ key) payload signature).isSome) :
    claimSelect verifyEd25519 (findChannel T.rows c.onchainChannelId) c ≠ .threw := by
  cases hfind : findChannel T.rows c.onchainChannelId with
  | none => simp [claimSelect]
  | some row =>
    have hmem := (T.findChannel_eq_some_iff.mp hfind).1
    obtain ⟨valid, hvalid⟩ : ∃ valid, verifyClaimSignature verifyEd25519 c.onchainChannelId
        c.nonce c.cumulativeAmount row.payerPubkey c.signature = some valid :=
      Option.isSome_iff_exists.mp (hkey row.payerPubkey _ c.signature (T.keyed row hmem))
    simp only [claimSelect, hvalid]
    split
    · simp
    · split
      · simp
      · split
        · simp
        · cases valid <;> simp

/-- A valid claim is written to its row. -/
theorem countP_dueForCredit_ne_zero (h : ValidClaim verifyEd25519 rows c) :
    rows.countP (fun row => decide (DueForCredit c row)) ≠ 0 := by
  obtain ⟨row, hmem, hid, -, hnonce, -⟩ := h
  have hpos : 0 < rows.countP fun row => decide (DueForCredit c row) :=
    List.countP_pos_iff.mpr ⟨row, hmem, decide_eq_true ⟨hid, hnonce⟩⟩
  exact hpos.ne'

/-- A valid claim with a nonce that fits the column is accepted. -/
theorem claim_of_valid (hid : isBigint c.onchainChannelId) (hnonce : isBigint c.nonce)
    (h : ValidClaim verifyEd25519 T.rows c) :
    ∃ rows', claim verifyEd25519 T.rows c now = some (⟨true, none⟩, rows') := by
  refine ⟨T.rows.map fun row => if DueForCredit c row then row.credit c now else row, ?_⟩
  rw [claim, claimSelect_eq_passed_iff_valid.mpr h, creditRows]
  simp only [hid, hnonce, Bool.not_true, Bool.false_eq_true, if_false, Option.map_some,
    if_neg (countP_dueForCredit_ne_zero h)]

/-- Its nonce does not fit: the `UPDATE` is an error. -/
theorem claim_of_valid_of_not_bigint (hnonce : ¬isBigint c.nonce)
    (h : ValidClaim verifyEd25519 T.rows c) : claim verifyEd25519 T.rows c now = none := by
  rw [claim, claimSelect_eq_passed_iff_valid.mpr h, creditRows]
  simp [hnonce]

/-- What is not valid is rejected, and nothing is written. -/
theorem claim_of_not_valid
    (hkey : ∀ key payload signature, key.length = 32 →
      (verifyEd25519 (ED25519_SPKI_PREFIX ++ key) payload signature).isSome)
    (hid : isBigint c.onchainChannelId) (h : ¬ValidClaim verifyEd25519 T.rows c) :
    ∃ reason, claim verifyEd25519 T.rows c now = some (⟨false, some reason⟩, T.rows) := by
  cases hselect : claimSelect verifyEd25519 (findChannel T.rows c.onchainChannelId) c with
  | threw => exact absurd hselect (claimSelect_ne_threw hkey)
  | passed => exact absurd (claimSelect_eq_passed_iff_valid.mp hselect) h
  | rejected reason => exact ⟨reason, by simp [claim, hid, hselect]⟩

/-- **A call accepts exactly the valid claims**, and never throws, exactly when the channel
id fits a signed 64-bit column and so does the nonce, unless the claim is to be rejected
anyway. Node takes every 32 bytes as an Ed25519 key. -/
theorem claim_accepts_valid_iff (T : StoredChannels) (c : Claim) (now : ℤ)
    (hkey : ∀ key payload signature, key.length = 32 →
      (verifyEd25519 (ED25519_SPKI_PREFIX ++ key) payload signature).isSome)
    (hid : 0 ≤ c.onchainChannelId) (hnonce : 0 ≤ c.nonce) :
    AcceptsExactly verifyEd25519 T.rows c now ↔
      c.onchainChannelId < 2 ^ 63 ∧ (c.nonce < 2 ^ 63 ∨ ¬ValidClaim verifyEd25519 T.rows c) := by
  have hbig : ∀ value : ℤ, 0 ≤ value → (isBigint value = true ↔ value < 2 ^ 63) := by
    intro value h0
    rw [isBigint, Bool.and_eq_true, decide_eq_true_iff, decide_eq_true_iff]
    omega
  rw [← hbig _ hid, ← hbig _ hnonce]
  constructor
  · rintro ⟨res, rows', hclaim, hacc, -⟩
    have hidBig : isBigint c.onchainChannelId = true := by
      by_contra hnot
      simp [claim, hnot] at hclaim
    refine ⟨hidBig, ?_⟩
    by_contra hnot
    rw [not_or, not_not] at hnot
    rw [claim_of_valid_of_not_bigint hnot.1 hnot.2] at hclaim
    cases hclaim
  · rintro ⟨hidBig, hcond⟩
    by_cases hvalid : ValidClaim verifyEd25519 T.rows c
    · obtain ⟨rows', hclaim⟩ : ∃ rows', claim verifyEd25519 T.rows c now =
          some (⟨true, none⟩, rows') :=
        claim_of_valid hidBig (hcond.resolve_right (not_not.mpr hvalid)) hvalid
      exact ⟨⟨true, none⟩, rows', hclaim, by simp [hvalid], by simp⟩
    · obtain ⟨reason, hclaim⟩ : ∃ reason, claim verifyEd25519 T.rows c now =
          some (⟨false, some reason⟩, T.rows) :=
        claim_of_not_valid hkey hidBig hvalid
      exact ⟨⟨false, some reason⟩, T.rows, hclaim, by simp [hvalid], by simp⟩

/-- The table of the example channel. -/
def exampleChannels : StoredChannels where
  rows := [exampleRow]
  unique := List.nodup_singleton _
  bigint := by decide
  keyed := by decide

/-- On it, a call with the nonce 1 accepts exactly a valid claim. -/
theorem claim_accepts_example :
    AcceptsExactly exampleEd25519 exampleChannels.rows (exampleClaim 1 50000000) 3 :=
  (claim_accepts_valid_iff exampleChannels (exampleClaim 1 50000000) 3 (fun _ _ _ _ => rfl)
    (by decide) (by decide)).mpr ⟨by decide, .inl (by decide)⟩

/-- A valid claim whose nonce needs the 64th bit: the call throws. -/
theorem claim_throws_on_high_nonce :
    claim exampleEd25519 exampleChannels.rows (exampleClaim (2 ^ 63) 50000000) 3 = none ∧
      ValidClaim exampleEd25519 exampleChannels.rows (exampleClaim (2 ^ 63) 50000000) ∧
      ¬AcceptsExactly exampleEd25519 exampleChannels.rows (exampleClaim (2 ^ 63) 50000000) 3 := by
  have hnone : claim exampleEd25519 exampleChannels.rows (exampleClaim (2 ^ 63) 50000000) 3 =
      none := by
    decide +kernel
  refine ⟨hnone, ?_, ?_⟩
  · exact ⟨exampleRow, List.mem_singleton_self _, by decide +kernel⟩
  · rintro ⟨res, rows', hclaim, -⟩
    rw [hnone] at hclaim
    cases hclaim

end KonfirmBackend.Channel
