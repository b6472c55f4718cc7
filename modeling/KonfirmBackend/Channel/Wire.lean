import KonfirmBackend.Channel.Isolation
import KonfirmBackend.Lib.Hex
import KonfirmBackend.Lib.Numeral

/-!
# A claim as text

The numbers of a claim and its signature are texts in the body of the request, and texts again in
the rows that the keeper's queries return. In between they are integers and bytes, and in the
call of `checkpoint` values of the contract.

## Main definitions

- `ClaimBody.toClaim` — the body of `POST /x402/channel/claim` as the service gets it
- `KeeperRow` — a row as the keeper gets it

## Main results

- `World.traced_of_step` — a pending claim stems from a call
- `checkpoint_from_body` — what is submitted is what a client has posted
-/

namespace KonfirmBackend.Channel

open Transition Program

/-! ## The body -/

/-- A field of a body: a string, or else what zod says about its type. -/
abbrev BodyField := Except String String

structure ClaimBody where
  channelId : BodyField
  cumulativeAmount : BodyField
  nonce : BodyField
  signature : BodyField
deriving DecidableEq

/-- `z.string().regex(..)`: the messages about the field. -/
def regexIssues (matched : String → Bool) (message : String) : BodyField → List String
  | .error typeIssue => [typeIssue]
  | .ok text => if matched text then [] else [message]

/-- `/^\d+$/` -/
def isDigits (text : String) : Bool := !text.toList.isEmpty && text.toList.all Char.isDigit

/-- `/^[0-9a-fA-F]{128}$/` -/
def isSignature (text : String) : Bool :=
  text.toList.length = 128 && text.toList.all fun c => (QueryString.hexValue c).isSome

def integerIssues : BodyField → List String :=
  regexIssues isDigits "must be a non-negative integer string"

def signatureIssues : BodyField → List String :=
  regexIssues isSignature "must be a 64-byte hex-encoded ed25519 signature"

/-- `claimSchema`: the fields that are not as they should be, with what is wrong about them. -/
def ClaimBody.fieldErrors (body : ClaimBody) : List (String × List String) :=
  [("channel_id", integerIssues body.channelId),
    ("cumulative_amount", integerIssues body.cumulativeAmount),
    ("nonce", integerIssues body.nonce),
    ("signature", signatureIssues body.signature)].filter fun e => !e.2.isEmpty

/-- `BigInt` of a decimal text. -/
def bigInt (text : String) : Option ℤ :=
  match text.toList with
  | '-' :: digits => (Numeral.readNat digits).map fun n : ℕ => -(n : ℤ)
  | digits => (Numeral.readNat digits).map fun n : ℕ => (n : ℤ)

/-- `Buffer.from(text, 'hex')` -/
def hexBuffer (text : String) : List UInt8 := Hex.decode text.toList

/-- `buffer.toString('hex')` -/
def toHex (buffer : List UInt8) : String := String.ofList (Hex.encode buffer)

inductive BodyFailure
  /-- the 400 of `ZodValidationPipe` -/
  | badRequest (fieldErrors : List (String × List String))
  /-- an exception of `BigInt` -/
  | threw
deriving DecidableEq

/-- `ZodValidationPipe`, and the conversions of `ChannelController.claim`. -/
def ClaimBody.toClaim (body : ClaimBody) : Except BodyFailure Claim :=
  match body.fieldErrors, body.channelId, body.cumulativeAmount, body.nonce, body.signature with
  | [], .ok channelId, .ok cumulativeAmount, .ok nonce, .ok signature =>
    match bigInt channelId, bigInt cumulativeAmount, bigInt nonce with
    | some channelId, some cumulativeAmount, some nonce =>
      .ok ⟨channelId, cumulativeAmount, nonce, hexBuffer signature⟩
    | _, _, _ => .error .threw
  | errors, _, _, _, _ => .error (.badRequest errors)

/-! ## The row -/

/-- The `ChannelRow` of the keeper, without the columns it does not go on to use. -/
structure KeeperRow where
  onchainChannelId : String
  pendingAmount : String
  pendingNonce : String
  pendingSignature : Option String
deriving DecidableEq

/-- A row in the result of a query. -/
def ChannelRow.texts (row : ChannelRow) : KeeperRow where
  onchainChannelId := toString row.onchainChannelId
  pendingAmount := toString row.pendingAmount
  pendingNonce := toString row.pendingNonce
  pendingSignature := row.pendingSignature.map toHex

/-- What `checkpointAndResync` passes to `checkpointChannel`; `none` is an exception. -/
def KeeperRow.checkpointParams (row : KeeperRow) : Option Claim :=
  (bigInt row.onchainChannelId).bind fun onchainChannelId =>
    (bigInt row.pendingAmount).bind fun cumulativeAmount =>
      (bigInt row.pendingNonce).bind fun nonce =>
        row.pendingSignature.map fun signature =>
          ⟨onchainChannelId, cumulativeAmount, nonce, hexBuffer signature⟩

/-! ## Round trips -/

theorem bigInt_of_readNat {text : String} {n : ℕ} (h : Numeral.readNat text.toList = some n) :
    bigInt text = some (n : ℤ) := by
  rw [bigInt]
  split
  · next digits hminus =>
    have hnone : Numeral.readNat ('-' :: digits) = none := rfl
    rw [hminus, hnone] at h
    cases h
  · rw [h]
    rfl

theorem exists_bigInt_of_isDigits {text : String} (h : isDigits text) :
    ∃ n : ℕ, bigInt text = some (n : ℤ) := by
  rw [isDigits, Bool.and_eq_true, Bool.not_eq_true', List.isEmpty_eq_false_iff,
    List.all_eq_true] at h
  exact ⟨_, bigInt_of_readNat (Numeral.readNat_of_isDigit h.1 h.2)⟩

theorem bigInt_toString (z : ℤ) : bigInt (toString z) = some z := by
  cases z with
  | ofNat n => exact bigInt_of_readNat (Numeral.readNat_toString n)
  | negSucc n =>
    have htext : (toString (Int.negSucc n)).toList = '-' :: (toString (n + 1)).toList :=
      String.toList_append
    rw [bigInt, htext]
    show (Numeral.readNat (toString (n + 1)).toList).map _ = _
    rw [Numeral.readNat_toString]
    rfl

theorem hexBuffer_toHex (buffer : List UInt8) : hexBuffer (toHex buffer) = buffer := by
  rw [hexBuffer, toHex, String.toList_ofList, Hex.decode_encode]

theorem length_hexBuffer {text : String} (h : isSignature text) : (hexBuffer text).length = 64 := by
  rw [isSignature, Bool.and_eq_true, List.all_eq_true] at h
  obtain ⟨hlength, hdigits⟩ := h
  rw [hexBuffer, Hex.length_decode hdigits, of_decide_eq_true hlength]

theorem regexIssues_eq_nil_iff {matched : String → Bool} {message : String} {field : BodyField} :
    regexIssues matched message field = [] ↔ ∃ text, field = .ok text ∧ matched text := by
  cases field with
  | error typeIssue => simp [regexIssues]
  | ok text => cases h : matched text <;> simp [regexIssues, h]

/-- A body without errors is converted, to numbers that are not negative and a signature of 64
bytes. -/
theorem ClaimBody.toClaim_of_fieldErrors {body : ClaimBody} (h : body.fieldErrors = []) :
    ∃ c, body.toClaim = .ok c ∧ 0 ≤ c.onchainChannelId ∧ 0 ≤ c.cumulativeAmount ∧ 0 ≤ c.nonce ∧
      c.signature.length = 64 := by
  have hall := h
  rw [fieldErrors, List.filter_eq_nil_iff] at hall
  simp only [List.forall_mem_cons, Bool.not_eq_true', Bool.not_eq_false, List.isEmpty_iff] at hall
  obtain ⟨hid, hamount, hnonce, hsig, -⟩ := hall
  obtain ⟨channelId, hchannelId, hid⟩ := regexIssues_eq_nil_iff.mp hid
  obtain ⟨cumulativeAmount, hcumulative, hamount⟩ := regexIssues_eq_nil_iff.mp hamount
  obtain ⟨nonce, hnonce', hnonce⟩ := regexIssues_eq_nil_iff.mp hnonce
  obtain ⟨signature, hsignature, hsig⟩ := regexIssues_eq_nil_iff.mp hsig
  obtain ⟨i, hi⟩ := exists_bigInt_of_isDigits hid
  obtain ⟨a, ha⟩ := exists_bigInt_of_isDigits hamount
  obtain ⟨n, hn⟩ := exists_bigInt_of_isDigits hnonce
  refine ⟨⟨i, a, n, hexBuffer signature⟩, ?_, Int.natCast_nonneg i, Int.natCast_nonneg a,
    Int.natCast_nonneg n, length_hexBuffer hsig⟩
  simp only [toClaim, h, hchannelId, hcumulative, hnonce', hsignature, hi, ha, hn]

theorem ClaimBody.toClaim_eq_ok {body : ClaimBody} {c : Claim} (h : body.toClaim = .ok c) :
    0 ≤ c.onchainChannelId ∧ 0 ≤ c.cumulativeAmount ∧ 0 ≤ c.nonce ∧ c.signature.length = 64 := by
  have hnone : body.fieldErrors = [] := by
    by_contra hsome
    rw [toClaim] at h
    split at h
    · next hnil _ _ _ _ => exact hsome hnil
    · cases h
  obtain ⟨c', hc', hrange⟩ := toClaim_of_fieldErrors hnone
  obtain rfl : c' = c := Except.ok.inj (hc'.symm.trans h)
  exact hrange

/-- A row is read by the keeper as it was stored. -/
theorem ChannelRow.checkpointParams_texts {row : ChannelRow} {signature : List UInt8}
    (h : row.pendingSignature = some signature) : row.texts.checkpointParams =
      some ⟨row.onchainChannelId, row.pendingAmount, row.pendingNonce, signature⟩ := by
  simp only [KeeperRow.checkpointParams, texts, bigInt_toString, Option.bind_some, h,
    Option.map_some, hexBuffer_toHex]

/-! ## Where a pending claim comes from -/

/-- The pending claim of the row is one of `P`, and the contract can hold the terms. -/
structure ChannelRow.Traced (P : Claim → Prop) (row : ChannelRow) : Prop where
  claimed : ∀ signature ∈ row.pendingSignature,
    P ⟨row.onchainChannelId, row.pendingAmount, row.pendingNonce, signature⟩
  range : ContractRange row.onchainChannelId 0 row.deposited

structure ChannelState.Traced (P : Claim → Prop) (s : ChannelState) : Prop where
  row : s.row.Traced P
  claims : ∀ f ∈ s.claims, f.op.onchainChannelId = s.row.onchainChannelId ∧ P f.op

/-- The claims of the calls on channel `i` are among `P i`. -/
def FromCalls (P : ℕ → Claim → Prop) : KeeperAction → Prop
  | .channel i (.claim c) => P i c
  | a => OpensInRange a

structure World.Traced (P : ℕ → Claim → Prop) (w : World) : Prop where
  channels : ∀ i : ℕ, ∀ ch ∈ w.channels[i]?, ch.state.Traced (P i)
  sweep : ∀ sw ∈ w.sweep, ∀ i r, (i, r) ∈ sw.waiting → r.Traced (P i)

section Traced

variable {verifyEd25519 : Ed25519} {P : Claim → Prop} {row row' : ChannelRow} {s t : ChannelState}
  {a : Action}

theorem ChannelRow.traced_of_fresh (h : row.fresh)
    (hrange : ContractRange row.onchainChannelId 0 row.deposited) : row.Traced P := by
  refine ⟨?_, hrange⟩
  have hrow : row = _ := of_decide_eq_true h
  rw [hrow]
  simp [ChannelRow.inserted]

theorem ChannelRow.Traced.congr (h : row.Traced P) (hterms : row'.terms = row.terms)
    (hpending : row'.pending = row.pending) : row'.Traced P := by
  have hid : row'.onchainChannelId = row.onchainChannelId := congrArg Terms.onchainChannelId hterms
  have hdeposited : row'.deposited = row.deposited := congrArg Terms.deposited hterms
  have hamount : row'.pendingAmount = row.pendingAmount := congrArg Pending.amount hpending
  have hnonce : row'.pendingNonce = row.pendingNonce := congrArg Pending.nonce hpending
  have hsig : row'.pendingSignature = row.pendingSignature := congrArg Pending.signature hpending
  constructor
  · rw [hsig, hid, hamount, hnonce]
    exact h.claimed
  · rw [hid, hdeposited]
    exact h.range

theorem traced_of_step (hs : s.Traced P) (ha : ∀ c, a = .claim c → P c)
    (h : step verifyEd25519 s a = some t) : t.Traced P := by
  cases move_of_step h with
  | claimRefused | closeRefused => exact hs
  | closeChecked | closeConfirmed | resyncRead | chainMoved => exact ⟨hs.row, hs.claims⟩
  | claimChecked c hpass =>
    obtain ⟨hid, -⟩ := claimSelect_select_eq_passed_iff.mp hpass
    exact ⟨hs.row, InFlight.forall_append_start hs.claims ⟨hid.symm, ha c rfl⟩⟩
  | claimLost i => exact ⟨hs.row, InFlight.forall_eraseIdx i hs.claims⟩
  | claimAccepted i now f hf hbig hlt =>
    obtain ⟨hid, hP⟩ := hs.claims f (List.mem_of_getElem? hf)
    refine ⟨⟨?_, hs.row.range⟩, InFlight.forall_eraseIdx i hs.claims⟩
    rintro signature ⟨⟩
    show P ⟨s.row.onchainChannelId, f.op.cumulativeAmount, f.op.nonce, f.op.signature⟩
    rw [← hid]
    exact hP
  | closeWritten | resyncWritten =>
    exact ⟨hs.row.congr rfl rfl, InFlight.forall_map_note hs.claims⟩

variable {P : ℕ → Claim → Prop} {w w' : World}

namespace World

theorem traced_stepChannel {i : ℕ} (hw : ∀ i : ℕ, ∀ ch ∈ w.channels[i]?, ch.state.Traced (P i))
    (ha : ∀ c, a = .claim c → P i c) (h : w.stepChannel verifyEd25519 i a = some w') :
    ∀ j : ℕ, ∀ ch ∈ w'.channels[j]?, ch.state.Traced (P j) := by
  intro j ch' hch'
  by_cases hij : i = j
  · subst hij
    obtain ⟨ch, t, hch, ht, hget⟩ := getElem?_stepChannel h
    obtain rfl : ch.next t = ch' := Option.some.inj (hget.symm.trans hch')
    exact traced_of_step (hw i ch hch) ha ht
  · rw [getElem?_stepChannel_of_ne hij h] at hch'
    exact hw j ch' hch'

theorem traced_start : (start []).Traced P := by
  constructor
  · intro i ch hch
    cases hch
  · intro sw hsw
    cases hsw

theorem Traced.capture (hw : ∀ i : ℕ, ∀ ch ∈ w.channels[i]?, ch.state.Traced (P i))
    {order : List ℕ} : ∀ i r, (i, r) ∈ w.capture order → r.Traced (P i) := by
  intro i r hmem
  obtain ⟨-, ch, hch, rfl⟩ := mem_capture.mp hmem
  exact (hw i ch hch).row

theorem traced_of_step {a : KeeperAction} (hw : w.Traced P) (ha : FromCalls P a)
    (h : w.step verifyEd25519 a = some w') : w'.Traced P := by
  cases move_of_step h with
  | channel i a w' hown hchannel =>
    have hclaim : ∀ c, a = .claim c → P i c := by
      rintro c rfl
      exact ha
    refine ⟨traced_stepChannel hw.channels hclaim hchannel, ?_⟩
    rw [sweep_stepChannel hchannel]
    exact hw.sweep
  | opened row chain hfresh =>
    refine ⟨?_, hw.sweep⟩
    intro i ch hch
    obtain hold | rfl := getElem?_opened hch
    · exact hw.channels i ch hold
    · exact ⟨ChannelRow.traced_of_fresh hfresh ha, by simp [Watched.start, ChannelState.start]⟩
  | start order hnone horder =>
    constructor
    · intro i ch hch
      obtain ⟨ch₀, hch₀, rfl⟩ := Option.map_eq_some_iff.mp ((List.getElem?_map).symm.trans hch)
      exact hw.channels i ch₀ hch₀
    · rintro sw ⟨⟩
      exact Traced.capture hw.channels
  | submit sw i row rest hsw hidle hwaiting =>
    refine ⟨hw.channels, ?_⟩
    rintro sw' ⟨⟩ j r hmem
    exact hw.sweep sw hsw j r (by rw [hwaiting]; exact List.mem_cons_of_mem _ hmem)
  | read sw i w₁ hsw hprogress hread =>
    have hclaim : ∀ c, Action.resyncRead = .claim c → P i c := by
      rintro c ⟨⟩
    have hchannels := traced_stepChannel hw.channels hclaim hread
    refine ⟨hchannels, ?_⟩
    rintro sw' ⟨⟩
    exact hw.sweep sw hsw
  | write sw i w₁ hsw hprogress hwrite =>
    have hclaim : ∀ c, Action.resyncUpdate (w.lastResync i) = .claim c → P i c := by
      rintro c ⟨⟩
    have hchannels := traced_stepChannel hw.channels hclaim hwrite
    refine ⟨hchannels, ?_⟩
    rintro sw' ⟨⟩
    exact hw.sweep sw hsw
  | skip sw hsw =>
    refine ⟨hw.channels, ?_⟩
    rintro sw' ⟨⟩
    exact hw.sweep sw hsw
  | finalize sw now order hsw hphase hidle hwaiting horder =>
    refine ⟨hw.channels, ?_⟩
    rintro sw' ⟨⟩
    exact Traced.capture hw.channels
  | watchtower sw now order hsw =>
    refine ⟨hw.channels, ?_⟩
    rintro sw' ⟨⟩
    exact Traced.capture hw.channels
  | finish | abort => exact ⟨hw.channels, by simp⟩

end World

end Traced

/-! ## From the body to the contract -/

/-- The arguments of a call are what a body is converted to. -/
def FromBody (_ : ℕ) (c : Claim) : Prop := ∃ body : ClaimBody, body.toClaim = .ok c

variable {verifyEd25519 : Ed25519} {ls : List KeeperAction}

/-- A call that is made in a run is one of its steps. -/
theorem FromCalls.mem {P : ℕ → Claim → Prop} (h : ∀ l ∈ ls, FromCalls P l) :
    ∀ l ∈ ls, FromCalls (fun i c => .channel i (.claim c) ∈ ls ∧ P i c) l := by
  intro l hl
  have hcalls := h l hl
  cases l with
  | channel i a =>
    cases a with
    | claim c => exact ⟨hl, hcalls⟩
    | _ => trivial
  | opened row chain => exact hcalls
  | _ => trivial

/-- **What is submitted is what a client has posted**: in every run from the empty table, each
row for which the keeper submits a checkpoint reads as the channel, the amount, the nonce and
the signature of a body that was posted for this channel. The contract is called with just
these, whatever becomes of the call, and the signature, of 64 bytes, is the payer's over the
payload that the contract makes of them. -/
theorem checkpoint_from_body (hls : ∀ l ∈ ls, FromCalls FromBody l) {w w' : World}
    (he : (w, .submit, w') ∈ trace (World.step verifyEd25519) (.start []) ls) {sw : Sweep}
    (hsw : w.sweep = some sw) (hphase : sw.phase ≠ .finalize) {i : ℕ} {row : ChannelRow}
    {rest : List (ℕ × ChannelRow)} (hwaiting : sw.waiting = (i, row) :: rest) :
    ∃ (body : ClaimBody) (c : Claim), .channel i (.claim c) ∈ ls ∧ body.toClaim = .ok c ∧
      row.texts.checkpointParams = some c ∧
      (∀ (A : KeeperAnswers) (s : KeeperState) (signer : String), A.signer = some signer →
        ∃ result, Returns (checkpointChannel A sw.phase c.onchainChannelId c.cumulativeAmount
            c.nonce c.signature) s result
          (s.log ((A.submission sw.phase c.onchainChannelId).calls signer "checkpoint"
            [.integer .u64 c.onchainChannelId, .integer .i128 c.cumulativeAmount,
              .integer .u64 c.nonce, .bytes c.signature]))) ∧
      c.signature.length = 64 ∧
      ∃ k : ContractClaim, k.channelId = c.onchainChannelId ∧ k.nonce = c.nonce ∧
        k.cumulativeAmount = c.cumulativeAmount ∧
        verifyEd25519 (ED25519_SPKI_PREFIX ++ row.payerPubkey) k.payload c.signature =
          some true := by
  obtain ⟨hreach, -, -⟩ := reaches_of_mem_trace (FromCalls.mem hls) he
  have hsound : w.Sound verifyEd25519 :=
    hreach.invariant World.sound_start fun _ _ _ _ hw hs => World.sound_of_step hw hs
  have htraced : w.Traced fun i c => .channel i (.claim c) ∈ ls ∧ FromBody i c :=
    hreach.invariant World.traced_start fun _ _ _ hl hw hs => World.traced_of_step hw hl hs
  have hmem : (i, row) ∈ sw.waiting := by
    rw [hwaiting]
    exact List.mem_cons_self
  obtain ⟨-, hrow, hsome⟩ := (hsound.sweep sw hsw).waiting i row hmem
  obtain ⟨signature, hsig⟩ := Option.isSome_iff_exists.mp (hsome hphase)
  have hcovers := hrow.claimed signature hsig
  have htrace := htraced.sweep sw hsw i row hmem
  obtain ⟨hcall, body, hbody⟩ := htrace.claimed signature hsig
  obtain ⟨-, -, -, hlength⟩ := body.toClaim_eq_ok hbody
  -- the contract's types hold the claim
  obtain ⟨hid, -, -, hdeposit⟩ := htrace.range
  have hamount : -2 ^ 127 ≤ row.pendingAmount ∧ row.pendingAmount < 2 ^ 127 := by
    have hpos := hcovers.amount_pos
    exact ⟨by omega, hcovers.amount_le.trans_lt hdeposit⟩
  have hnonce : 0 ≤ row.pendingNonce ∧ row.pendingNonce < 2 ^ 64 := by
    have hlt := hcovers.nonce_lt
    exact ⟨hcovers.nonce_pos.le, by omega⟩
  refine ⟨body, ⟨row.onchainChannelId, row.pendingAmount, row.pendingNonce, signature⟩, hcall,
    hbody, ChannelRow.checkpointParams_texts hsig, ?_, hlength, ?_⟩
  · intro A s signer hsigner
    exact returns_checkpointChannel hsigner ⟨hid, hnonce, hamount⟩ sw.phase signature s
  · exact ⟨⟨row.onchainChannelId, row.pendingNonce, row.pendingAmount, hid, hnonce, hamount⟩, rfl,
      rfl, rfl, hcovers.signed⟩

/-! ## An example -/

/-- A signature scheme for examples: a signature is the payload, filled up to 64 bytes. -/
def paddedEd25519 : Ed25519 := fun _ payload signature =>
  some (decide (signature = payload ++ List.replicate 17 0))

def exampleBody : ClaimBody where
  channelId := .ok "0001"
  cumulativeAmount := .ok "50000000"
  nonce := .ok "1"
  signature := .ok ("4B4F4E4649524D5F4348414E5F563100000000000000010000000000000001" ++
    "00000000000000000000000002faf0800000000000000000000000000000000000")

def postedClaim : Claim := ⟨1, 50000000, 1, claimPayload 1 1 50000000 ++ List.replicate 17 0⟩

theorem toClaim_exampleBody : exampleBody.toClaim = .ok postedClaim := by
  decide +kernel

/-- The body is posted, and the next sweep checkpoints the channel. -/
def postedRun : List KeeperAction :=
  [.opened exampleRow ⟨0, .opened⟩, .channel 0 (.claim postedClaim), .channel 0 (.claimUpdate 0 3),
    .start [0], .submit]

theorem fromCalls_postedRun : ∀ l ∈ postedRun, FromCalls FromBody l := by
  simp only [postedRun, List.forall_mem_cons]
  refine ⟨?_, ⟨exampleBody, toClaim_exampleBody⟩, trivial, trivial, trivial, ?_⟩
  · show ContractRange 1 0 100000000
    norm_num [ContractRange]
  · intro l hl
    cases hl

theorem checkpoint_from_body_example :
    ∃ row : ChannelRow, row.texts = ⟨"1", "50000000", "1", some (toHex postedClaim.signature)⟩ ∧
      ∃ c, row.texts.checkpointParams = some c ∧ c.signature.length = 64 := by
  obtain ⟨w, hw, w', hw', sw, hsw, hphase, row, hwaiting, htexts⟩ : ∃ w,
      exec (World.step paddedEd25519) (.start []) postedRun.dropLast = some w ∧
      ∃ w', w.step paddedEd25519 .submit = some w' ∧ ∃ sw, w.sweep = some sw ∧
      sw.phase ≠ .finalize ∧ ∃ row, sw.waiting = [(0, row)] ∧
        row.texts = ⟨"1", "50000000", "1", some (toHex postedClaim.signature)⟩ :=
    ⟨_, rfl, _, rfl, _, rfl, by decide, _, rfl, by decide +kernel⟩
  have he : (w, .submit, w') ∈ trace (World.step paddedEd25519) (.start []) postedRun :=
    mem_trace_of_exec hw hw'
  obtain ⟨-, c, -, -, hparams, -, hlength, -⟩ :=
    checkpoint_from_body fromCalls_postedRun he hsw hphase hwaiting
  exact ⟨row, htexts, c, hparams, hlength⟩

end KonfirmBackend.Channel
