import KonfirmBackend.Common.ChannelClaim

/-!
# Rows of `x402_channels` and the statements on them

The columns the program reads, and what each of its statements makes of one row:
the `INSERT` of `openChannel`, the `SELECT` and the guarded `UPDATE` of `claim`, the
`SELECT` and the `UPDATE` of `closeChannel`, and the `UPDATE` of `resyncFromChain`.
A statement names its row by `onchain_channel_id`, which is unique.

## Main definitions

- `ChannelRow` — a row; `ChannelRow.inserted` — the row of a channel just opened
- `claimSelect`, `claimUpdate` — the two round trips of `claim`
- `closeSelect`, `closeUpdate` — those of `closeChannel`
- `resyncUpdate` — the write of `resyncFromChain`

## Main results

- `claimSelect_eq_passed_iff` — what a claim has been checked for when it is written
- `claimUpdate_accepted` — what it has been checked for when it is accepted
-/

namespace KonfirmBackend.Channel

/-- The values of the `status` column. -/
inductive ChannelStatus
  | opened
  | closing
  | closed
  | held
deriving DecidableEq

structure ChannelRow where
  onchainChannelId : ℤ
  payerAddress : String
  payeeAddress : String
  assetContract : String
  payerPubkey : List UInt8
  deposited : ℤ
  claimed : ℤ
  pendingAmount : ℤ
  pendingNonce : ℤ
  pendingSignature : Option (List UInt8)
  status : ChannelStatus
  resourceUrl : Option String
  lastActivityAt : ℤ
  closingAt : Option ℤ
deriving DecidableEq

/-- The row that `openChannel` inserts at `now`, with the defaults of the table. -/
def ChannelRow.inserted (onchainChannelId : ℤ) (payerAddress payeeAddress assetContract : String)
    (payerPubkey : List UInt8) (deposited : ℤ) (resourceUrl : Option String) (now : ℤ) :
    ChannelRow where
  onchainChannelId := onchainChannelId
  payerAddress := payerAddress
  payeeAddress := payeeAddress
  assetContract := assetContract
  payerPubkey := payerPubkey
  deposited := deposited
  claimed := 0
  pendingAmount := 0
  pendingNonce := 0
  pendingSignature := none
  status := .opened
  resourceUrl := resourceUrl
  lastActivityAt := now
  closingAt := none

/-- `WHERE onchain_channel_id = $1`, on the row of one channel. -/
def ChannelRow.select (row : ChannelRow) (onchainChannelId : ℤ) : Option ChannelRow :=
  if row.onchainChannelId = onchainChannelId then some row else none

/-! ## `claim` -/

/-- The arguments of `claim`. -/
structure Claim where
  onchainChannelId : ℤ
  cumulativeAmount : ℤ
  nonce : ℤ
  signature : List UInt8
deriving DecidableEq

structure ClaimResult where
  accepted : Bool
  reason : Option String
deriving DecidableEq

/-- How the checks of `claim` end. -/
inductive ClaimCheck
  | passed
  | rejected (reason : String)
  | threw
deriving DecidableEq

variable (verifyEd25519 : Ed25519)

/-- The checks of `claim` on what its `SELECT` returned. -/
def claimSelect (found : Option ChannelRow) (c : Claim) : ClaimCheck :=
  match found with
  | none => .rejected "channel_not_found"
  | some row =>
    if row.status ≠ .opened then .rejected "channel_not_open"
    else if c.nonce ≤ row.pendingNonce ∨ c.cumulativeAmount ≤ row.pendingAmount then
      .rejected "stale_claim"
    else if c.cumulativeAmount > row.deposited then .rejected "exceeds_deposit"
    else
      match verifyClaimSignature verifyEd25519 c.onchainChannelId c.nonce c.cumulativeAmount
        row.payerPubkey c.signature with
      | none => .threw
      | some false => .rejected "invalid_signature"
      | some true => .passed

/-- The range of a `BIGINT` parameter; outside it the statement is an error. -/
def isBigint (value : ℤ) : Bool := -2 ^ 63 ≤ value && value < 2 ^ 63

/-- The `SET` list of the `UPDATE` of `claim`. -/
def ChannelRow.credit (row : ChannelRow) (c : Claim) (now : ℤ) : ChannelRow :=
  { row with
    pendingAmount := c.cumulativeAmount
    pendingNonce := c.nonce
    pendingSignature := some c.signature
    lastActivityAt := now }

/-- The `UPDATE` of `claim`, guarded by `pending_nonce < $3`; `none` is an SQL error. -/
def claimUpdate (c : Claim) (now : ℤ) (row : ChannelRow) : Option (ClaimResult × ChannelRow) :=
  if !isBigint c.nonce then none
  else if row.pendingNonce < c.nonce then some (⟨true, none⟩, row.credit c now)
  else some (⟨false, some "stale_claim"⟩, row)

/-! ## `closeChannel` -/

/-- The checks of `closeChannel` on its `SELECT`: the error it answers with, if any.
A caller that is not a string is `none`. -/
def closeSelect (found : Option ChannelRow) (caller : Option String) : Option String :=
  match found with
  | none => some "channel_not_found"
  | some row =>
    if caller ≠ some row.payerAddress ∧ caller ≠ some row.payeeAddress then
      some "caller_not_a_party"
    else if row.status ≠ .opened then some "channel_not_open"
    else none

def closeUpdate (now : ℤ) (row : ChannelRow) : ChannelRow :=
  { row with status := .closing, closingAt := some now }

/-! ## `resyncFromChain` -/

/-- The status of a channel as `get_channel_info` names it: `Open`, `Closing`, `Closed`,
`Held`, or anything else. -/
inductive ChainStatus
  | opened
  | closing
  | closed
  | held
  | other (name : String)
deriving DecidableEq

/-- What `get_channel_info` returns of a channel. -/
structure ChannelInfo where
  claimed : ℤ
  status : ChainStatus
deriving DecidableEq

def mappedStatus : ChainStatus → Option ChannelStatus
  | .opened => some .opened
  | .closing => some .closing
  | .closed => some .closed
  | .held => some .held
  | .other _ => none

def resyncUpdate (info : ChannelInfo) (row : ChannelRow) : ChannelRow :=
  { row with claimed := info.claimed, status := (mappedStatus info.status).getD row.status }

/-! ## What the statements do -/

variable {verifyEd25519} {row row' : ChannelRow} {c : Claim} {now : ℤ} {res : ClaimResult}

theorem ChannelRow.select_eq_some_iff {id : ℤ} :
    row.select id = some row' ↔ row.onchainChannelId = id ∧ row = row' := by
  simp [ChannelRow.select]

/-- A claim passes the checks exactly when the row is open, the claim is above it in
nonce and amount, within the deposit, and signed by the payer. -/
theorem claimSelect_eq_passed_iff {found : Option ChannelRow} :
    claimSelect verifyEd25519 found c = .passed ↔
      ∃ row, found = some row ∧ row.status = .opened ∧ row.pendingNonce < c.nonce ∧
        row.pendingAmount < c.cumulativeAmount ∧ c.cumulativeAmount ≤ row.deposited ∧
        verifyClaimSignature verifyEd25519 c.onchainChannelId c.nonce c.cumulativeAmount
          row.payerPubkey c.signature = some true := by
  cases found with
  | none => simp [claimSelect]
  | some row =>
    simp only [claimSelect, Option.some.injEq, exists_eq_left']
    by_cases hopen : row.status = .opened
    · by_cases hstale : c.nonce ≤ row.pendingNonce ∨ c.cumulativeAmount ≤ row.pendingAmount
      · rw [if_neg (not_not.mpr hopen), if_pos hstale]
        simp only [reduceCtorEq, false_iff]
        omega
      · by_cases hcap : c.cumulativeAmount > row.deposited
        · rw [if_neg (not_not.mpr hopen), if_neg hstale, if_pos hcap]
          simp only [reduceCtorEq, false_iff]
          omega
        · -- only the signature is left to decide
          rw [if_neg (not_not.mpr hopen), if_neg hstale, if_neg hcap]
          rw [not_or, not_le, not_le] at hstale
          have hle := not_lt.mp hcap
          cases verifyClaimSignature verifyEd25519 c.onchainChannelId c.nonce c.cumulativeAmount
              row.payerPubkey c.signature with
          | none => simp
          | some valid => cases valid <;> simp [hopen, hstale, hle]
    · simp [hopen]

/-- The same for the `SELECT` of a claim on one row. -/
theorem claimSelect_select_eq_passed_iff :
    claimSelect verifyEd25519 (row.select c.onchainChannelId) c = .passed ↔
      row.onchainChannelId = c.onchainChannelId ∧ row.status = .opened ∧
        row.pendingNonce < c.nonce ∧ row.pendingAmount < c.cumulativeAmount ∧
        c.cumulativeAmount ≤ row.deposited ∧
        verifyClaimSignature verifyEd25519 c.onchainChannelId c.nonce c.cumulativeAmount
          row.payerPubkey c.signature = some true := by
  rw [claimSelect_eq_passed_iff]
  constructor
  · rintro ⟨found, hsel, hpass⟩
    obtain ⟨hid, rfl⟩ := ChannelRow.select_eq_some_iff.mp hsel
    exact ⟨hid, hpass⟩
  · rintro ⟨hid, hpass⟩
    exact ⟨row, ChannelRow.select_eq_some_iff.mpr ⟨hid, rfl⟩, hpass⟩

theorem claimUpdate_of_not_bigint (hbig : ¬isBigint c.nonce) : claimUpdate c now row = none := by
  simp [claimUpdate, hbig]

theorem claimUpdate_of_lt (hbig : isBigint c.nonce) (hlt : row.pendingNonce < c.nonce) :
    claimUpdate c now row = some (⟨true, none⟩, row.credit c now) := by
  simp [claimUpdate, hbig, hlt]

theorem claimUpdate_of_not_lt (hbig : isBigint c.nonce) (hlt : ¬row.pendingNonce < c.nonce) :
    claimUpdate c now row = some (⟨false, some "stale_claim"⟩, row) := by
  simp [claimUpdate, hbig, hlt]

/-- An accepted claim has passed the guard. -/
theorem claimUpdate_accepted (h : claimUpdate c now row = some (res, row'))
    (hacc : res.accepted) : isBigint c.nonce ∧ row.pendingNonce < c.nonce := by
  by_cases hbig : isBigint c.nonce
  · by_cases hlt : row.pendingNonce < c.nonce
    · exact ⟨hbig, hlt⟩
    · rw [claimUpdate_of_not_lt hbig hlt] at h
      cases h
      cases hacc
  · rw [claimUpdate_of_not_bigint hbig] at h
    cases h

end KonfirmBackend.Channel
