import KonfirmBackend.Lib.BigEndian
import Mathlib.Data.Set.Image
import Mathlib.Tactic.Positivity

/-!
# The signed payload of a channel claim

What a payer signs to raise the amount a channel owes: a domain tag, the channel, a
nonce and the cumulative amount, all of fixed width. Ed25519 itself comes from
`node:crypto` and is a parameter.

## Main definitions

- `claimPayload` — the signed bytes
- `verifyClaimSignature` — the check of a signature against them
- `ContractClaim` — a claim within the types of the contract
- `Forgery` — what breaks the signature scheme

## Main results

- `claimPayload_eq_iff` — which claims share a payload
- `claimPayload_inj` — a payload determines the claim it is about
- `claimPayload_unambiguous` — the encoding as a whole, and what a signature over it is worth
-/

namespace KonfirmBackend.Channel

/-- The bytes of `KONFIRM_CHAN_V1`. -/
def DOMAIN_TAG : List UInt8 :=
  [0x4b, 0x4f, 0x4e, 0x46, 0x49, 0x52, 0x4d, 0x5f, 0x43, 0x48, 0x41, 0x4e, 0x5f, 0x56, 0x31]

/-- `BigInt.asUintN`. -/
def asUintN (bits : ℕ) (value : ℤ) : ℕ := (value % 2 ^ bits).toNat

/-- The loop writes into a buffer of zeros. -/
def i128ToBEBytes (value : ℤ) : List UInt8 :=
  BigEndian.fill 16 (asUintN 128 value) (List.replicate 16 0)

def u64ToBEBytes (value : ℤ) : List UInt8 := BigEndian.toBytes 8 (asUintN 64 value)

def claimPayload (channelId nonce cumulativeAmount : ℤ) : List UInt8 :=
  DOMAIN_TAG ++ u64ToBEBytes channelId ++ u64ToBEBytes nonce ++ i128ToBEBytes cumulativeAmount

def ED25519_SPKI_PREFIX : List UInt8 :=
  [0x30, 0x2a, 0x30, 0x05, 0x06, 0x03, 0x2b, 0x65, 0x70, 0x03, 0x21, 0x00]

/-- `createPublicKey` followed by `verify` of `node:crypto`, on a DER key, a payload
and a signature; `none` when the key is refused with an exception. -/
abbrev Ed25519 := List UInt8 → List UInt8 → List UInt8 → Option Bool

def verifyClaimSignature (verifyEd25519 : Ed25519) (channelId nonce cumulativeAmount : ℤ)
    (payerPubkey signature : List UInt8) : Option Bool :=
  verifyEd25519 (ED25519_SPKI_PREFIX ++ payerPubkey) (claimPayload channelId nonce cumulativeAmount)
    signature

@[simp] theorem length_u64ToBEBytes (value : ℤ) : (u64ToBEBytes value).length = 8 :=
  BigEndian.length_toBytes 8 _

/-- The loop writes the word. -/
theorem i128ToBEBytes_eq_toBytes (value : ℤ) :
    i128ToBEBytes value = BigEndian.toBytes 16 (asUintN 128 value) := by
  rw [i128ToBEBytes, BigEndian.fill_eq _ _ _ (by rw [List.length_replicate]), List.drop_replicate]
  exact List.append_nil _

@[simp] theorem length_i128ToBEBytes (value : ℤ) : (i128ToBEBytes value).length = 16 := by
  rw [i128ToBEBytes_eq_toBytes, BigEndian.length_toBytes]

theorem length_claimPayload (channelId nonce cumulativeAmount : ℤ) :
    (claimPayload channelId nonce cumulativeAmount).length = 47 := by
  simp [claimPayload, DOMAIN_TAG]

/-- Reducing to the width of the word keeps the residue. -/
theorem asUintN_modEq (width : ℕ) (z : ℤ) :
    (asUintN (8 * width) z : ℤ) ≡ z [ZMOD 256 ^ width] := by
  have hrange : (2 : ℤ) ^ (8 * width) = 256 ^ width := by
    rw [pow_mul]
    norm_num
  have hpos : (0 : ℤ) < 256 ^ width := by positivity
  rw [asUintN, hrange, Int.toNat_of_nonneg (Int.emod_nonneg z hpos.ne')]
  exact Int.mod_modEq z _

/-- Reducing to the width of the word loses nothing more than the word does. -/
theorem asUintN_modEq_iff (width : ℕ) (x y : ℤ) :
    asUintN (8 * width) x ≡ asUintN (8 * width) y [MOD 256 ^ width] ↔
      x ≡ y [ZMOD 256 ^ width] := by
  rw [← Int.natCast_modEq_iff]
  push_cast
  have hx := asUintN_modEq width x
  have hy := asUintN_modEq width y
  exact ⟨fun h => (hx.symm.trans h).trans hy, fun h => (hx.trans h).trans hy.symm⟩

theorem u64ToBEBytes_eq_iff (x y : ℤ) : u64ToBEBytes x = u64ToBEBytes y ↔ x ≡ y [ZMOD 2 ^ 64] := by
  rw [u64ToBEBytes, u64ToBEBytes, BigEndian.toBytes_eq_iff]
  simpa using asUintN_modEq_iff 8 x y

theorem i128ToBEBytes_eq_iff (x y : ℤ) :
    i128ToBEBytes x = i128ToBEBytes y ↔ x ≡ y [ZMOD 2 ^ 128] := by
  rw [i128ToBEBytes_eq_toBytes, i128ToBEBytes_eq_toBytes, BigEndian.toBytes_eq_iff]
  simpa using asUintN_modEq_iff 16 x y

/-- Which claims share a payload: the fields agree up to their widths. -/
theorem claimPayload_eq_iff (c n a c' n' a' : ℤ) :
    claimPayload c n a = claimPayload c' n' a' ↔
      c ≡ c' [ZMOD 2 ^ 64] ∧ n ≡ n' [ZMOD 2 ^ 64] ∧ a ≡ a' [ZMOD 2 ^ 128] := by
  rw [← u64ToBEBytes_eq_iff, ← u64ToBEBytes_eq_iff, ← i128ToBEBytes_eq_iff]
  constructor
  · intro h
    -- the fields have fixed widths, so equal payloads have equal fields
    obtain ⟨hfront, hamount⟩ := List.append_inj' h (by simp)
    obtain ⟨hfront, hnonce⟩ := List.append_inj' hfront (by simp)
    exact ⟨List.append_cancel_left hfront, hnonce, hamount⟩
  · rintro ⟨hchannel, hnonce, hamount⟩
    rw [claimPayload, claimPayload, hchannel, hnonce, hamount]

/-- No two claims within the ranges of the contract share their payload. -/
theorem claimPayload_inj {c c' n n' a a' : ℤ} (h : claimPayload c n a = claimPayload c' n' a')
    (hc : 0 ≤ c ∧ c < 2 ^ 64) (hc' : 0 ≤ c' ∧ c' < 2 ^ 64) (hn : 0 ≤ n ∧ n < 2 ^ 64)
    (hn' : 0 ≤ n' ∧ n' < 2 ^ 64) (ha : -2 ^ 127 ≤ a ∧ a < 2 ^ 127)
    (ha' : -2 ^ 127 ≤ a' ∧ a' < 2 ^ 127) : c = c' ∧ n = n' ∧ a = a' := by
  obtain ⟨hchannel, hnonce, hamount⟩ := (claimPayload_eq_iff c n a c' n' a').mp h
  rw [Int.ModEq] at hchannel hnonce hamount
  refine ⟨?_, ?_, ?_⟩ <;> omega

/-- The vector of the contract's own test. -/
example : claimPayload 1 1 1000000 =
    [0x4b, 0x4f, 0x4e, 0x46, 0x49, 0x52, 0x4d, 0x5f, 0x43, 0x48, 0x41, 0x4e, 0x5f, 0x56, 0x31,
      0, 0, 0, 0, 0, 0, 0, 1, 0, 0, 0, 0, 0, 0, 0, 1,
      0, 0, 0, 0, 0, 0, 0, 0, 0, 0, 0, 0, 0, 0x0f, 0x42, 0x40] := by decide

/-! ## The amount -/

theorem drop_claimPayload (c n a : ℤ) : (claimPayload c n a).drop 31 = i128ToBEBytes a := by
  rw [claimPayload]
  exact List.drop_left' (by simp [DOMAIN_TAG])

/-- The last bytes are the one word of their length that is the amount in two's complement. -/
theorem eq_drop_claimPayload_iff (c n : ℤ) {a : ℤ} (ha : -2 ^ 127 ≤ a ∧ a < 2 ^ 127)
    (word : List UInt8) :
    word = (claimPayload c n a).drop 31 ↔ word.length = 16 ∧ BigEndian.toInt word = a := by
  rw [drop_claimPayload, i128ToBEBytes_eq_toBytes]
  exact BigEndian.toInt_eq_iff (asUintN_modEq 16 a) (by norm_num; omega) word

/-! ## Signatures over claims -/

/-- A claim of the types that the contract gives it. -/
@[ext]
structure ContractClaim where
  channelId : ℤ
  nonce : ℤ
  cumulativeAmount : ℤ
  channelId_u64 : 0 ≤ channelId ∧ channelId < 2 ^ 64
  nonce_u64 : 0 ≤ nonce ∧ nonce < 2 ^ 64
  amount_i128 : -2 ^ 127 ≤ cumulativeAmount ∧ cumulativeAmount < 2 ^ 127

def ContractClaim.payload (k : ContractClaim) : List UInt8 :=
  claimPayload k.channelId k.nonce k.cumulativeAmount

theorem ContractClaim.payload_injective : Function.Injective ContractClaim.payload := by
  intro k k' h
  obtain ⟨hchannel, hnonce, hamount⟩ := claimPayload_inj h k.channelId_u64 k'.channelId_u64
    k.nonce_u64 k'.nonce_u64 k.amount_i128 k'.amount_i128
  exact ContractClaim.ext hchannel hnonce hamount

/-- What breaks the scheme: the holder of the key has signed the messages in `signed`, and a
signature is accepted over another one. -/
structure Forgery (verifyEd25519 : Ed25519) (key : List UInt8) (signed : Set (List UInt8))
    (message signature : List UInt8) : Prop where
  unsigned : message ∉ signed
  accepted : verifyEd25519 key message signature = some true

/-- Where a payer has signed claims, a signature accepted for another claim is a forgery, and
that is all a forgery of a claim can be. -/
theorem forgery_payload_iff (verifyEd25519 : Ed25519) (payerPubkey signature : List UInt8)
    (signed : Set ContractClaim) (k : ContractClaim) :
    Forgery verifyEd25519 (ED25519_SPKI_PREFIX ++ payerPubkey) (ContractClaim.payload '' signed)
        k.payload signature ↔
      k ∉ signed ∧ verifyClaimSignature verifyEd25519 k.channelId k.nonce k.cumulativeAmount
        payerPubkey signature = some true := by
  have hmem := ContractClaim.payload_injective.mem_set_image (s := signed) (a := k)
  constructor
  · rintro ⟨hunsigned, haccepted⟩
    exact ⟨fun hk => hunsigned (hmem.mpr hk), haccepted⟩
  · rintro ⟨hk, haccepted⟩
    exact ⟨fun h => hk (hmem.mp h), haccepted⟩

/-- The encoding of claims is unambiguous. For `signed = {k'}` the last part speaks of a
signature over one claim that is accepted for another. -/
theorem claimPayload_unambiguous :
    (∀ c n a : ℤ, (claimPayload c n a).length = 47) ∧
    (∀ c n a c' n' a' : ℤ, claimPayload c n a = claimPayload c' n' a' ↔
      c ≡ c' [ZMOD 2 ^ 64] ∧ n ≡ n' [ZMOD 2 ^ 64] ∧ a ≡ a' [ZMOD 2 ^ 128]) ∧
    Function.Injective ContractClaim.payload ∧
    (∀ c n a : ℤ, -2 ^ 127 ≤ a ∧ a < 2 ^ 127 → ∀ word : List UInt8,
      word = (claimPayload c n a).drop 31 ↔ word.length = 16 ∧ BigEndian.toInt word = a) ∧
    ∀ (verifyEd25519 : Ed25519) (payerPubkey signature : List UInt8) (signed : Set ContractClaim)
      (k : ContractClaim), k ∉ signed →
      verifyClaimSignature verifyEd25519 k.channelId k.nonce k.cumulativeAmount payerPubkey
        signature = some true →
      Forgery verifyEd25519 (ED25519_SPKI_PREFIX ++ payerPubkey) (ContractClaim.payload '' signed)
        k.payload signature := by
  refine ⟨length_claimPayload, claimPayload_eq_iff, ContractClaim.payload_injective, ?_, ?_⟩
  · intro c n a ha word
    exact eq_drop_claimPayload_iff c n ha word
  · intro verifyEd25519 payerPubkey signature signed k hk haccepted
    exact (forgery_payload_iff verifyEd25519 payerPubkey signature signed k).mpr ⟨hk, haccepted⟩

/-- An amount of minus one is sixteen bytes of ones. -/
theorem claimPayload_unambiguous_minus_one :
    List.replicate 16 0xff = (claimPayload 1 1 (-1)).drop 31 :=
  (claimPayload_unambiguous.2.2.2.1 1 1 (-1) (by norm_num) _).mpr ⟨rfl, by decide⟩

end KonfirmBackend.Channel
