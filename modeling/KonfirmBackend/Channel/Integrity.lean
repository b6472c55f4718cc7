import KonfirmBackend.Channel.Linearization

/-!
# Integrity of the stored claims

The pending triple of a row is one that the payer of the channel has signed: whatever
calls and sweeps interleave, no row comes to hold a signature for another triple, and the
keeper never submits one. The payload of a claim is truncated to the widths of the
contract, the columns are not; the bounds of the deposit and of `BIGINT` keep the two in
step.

## Main definitions

- `Terms` — the columns that are written once
- `Terms.Covers` — an amount and a nonce that the payer has signed, within their bounds
- `ChannelRow.Sound` — a row holds no claim, or one that its terms cover

## Main results

- `sound_of_step`, `World.sound_of_step` — every step keeps all rows sound
- `Terms.Covers.unique` — no other claim has the payload that was signed
- `rows_stay_sound` — in every run, of the rows and of what the keeper submits
-/

namespace KonfirmBackend.Channel

open Transition

/-- The columns that only the `INSERT` writes. -/
structure Terms where
  onchainChannelId : ℤ
  payerAddress : String
  payeeAddress : String
  assetContract : String
  payerPubkey : List UInt8
  deposited : ℤ
deriving DecidableEq

def ChannelRow.terms (row : ChannelRow) : Terms where
  onchainChannelId := row.onchainChannelId
  payerAddress := row.payerAddress
  payeeAddress := row.payeeAddress
  assetContract := row.assetContract
  payerPubkey := row.payerPubkey
  deposited := row.deposited

variable (verifyEd25519 : Ed25519)

/-- The payer of a channel on these terms has signed the amount and the nonce, which are
within the deposit and the column. -/
structure Terms.Covers (terms : Terms) (amount nonce : ℤ) (signature : List UInt8) : Prop where
  signed : verifyClaimSignature verifyEd25519 terms.onchainChannelId nonce amount
    terms.payerPubkey signature = some true
  amount_pos : 0 < amount
  amount_le : amount ≤ terms.deposited
  nonce_pos : 0 < nonce
  nonce_lt : nonce < 2 ^ 63

/-- A row without a claim has none of its parts, and one with a claim has it signed. -/
structure ChannelRow.Sound (row : ChannelRow) : Prop where
  unclaimed : row.pendingSignature = none ↔ row.pendingAmount = 0 ∧ row.pendingNonce = 0
  claimed : ∀ signature ∈ row.pendingSignature,
    row.terms.Covers verifyEd25519 row.pendingAmount row.pendingNonce signature

/-- What the checks of `claim` have established. -/
structure Terms.Checked (terms : Terms) (c : Claim) : Prop where
  signed : verifyClaimSignature verifyEd25519 terms.onchainChannelId c.nonce c.cumulativeAmount
    terms.payerPubkey c.signature = some true
  amount_pos : 0 < c.cumulativeAmount
  amount_le : c.cumulativeAmount ≤ terms.deposited
  nonce_pos : 0 < c.nonce

/-- The row is sound, and so are the claims that are about to be written. -/
structure ChannelState.Sound (s : ChannelState) : Prop where
  row : s.row.Sound verifyEd25519
  claims : ∀ f ∈ s.claims, s.row.terms.Checked verifyEd25519 f.op

variable {verifyEd25519} {row : ChannelRow} {s t : ChannelState} {a : Action}

/-! ## One channel -/

theorem ChannelRow.Sound.nonneg (h : row.Sound verifyEd25519) :
    0 ≤ row.pendingAmount ∧ 0 ≤ row.pendingNonce := by
  cases hsig : row.pendingSignature with
  | none =>
    obtain ⟨hamount, hnonce⟩ := h.unclaimed.mp hsig
    exact ⟨hamount.ge, hnonce.ge⟩
  | some signature =>
    have hcovers := h.claimed signature hsig
    exact ⟨hcovers.amount_pos.le, hcovers.nonce_pos.le⟩

theorem ChannelRow.sound_of_fresh (h : row.fresh) : row.Sound verifyEd25519 := by
  have hrow : row = _ := of_decide_eq_true h
  rw [hrow]
  constructor <;> simp [ChannelRow.inserted]

/-- What passes the checks against a sound row. -/
theorem checked_of_passed {c : Claim} (hrow : row.Sound verifyEd25519)
    (h : claimSelect verifyEd25519 (row.select c.onchainChannelId) c = .passed) :
    row.terms.Checked verifyEd25519 c := by
  obtain ⟨hid, -, hnonce, hamount, hcap, hsig⟩ := claimSelect_select_eq_passed_iff.mp h
  obtain ⟨hamount₀, hnonce₀⟩ := hrow.nonneg
  constructor
  · show verifyClaimSignature verifyEd25519 row.onchainChannelId _ _ _ _ = _
    rw [hid]
    exact hsig
  · exact hamount₀.trans_lt hamount
  · exact hcap
  · exact hnonce₀.trans_lt hnonce

/-- Crediting a checked claim whose nonce fits the column keeps the row sound. -/
theorem ChannelRow.sound_credit {c : Claim} (hc : row.terms.Checked verifyEd25519 c)
    (hbig : isBigint c.nonce) (now : ℤ) : (row.credit c now).Sound verifyEd25519 := by
  have hlt : c.nonce < 2 ^ 63 := by
    simp only [isBigint, Bool.and_eq_true, decide_eq_true_eq] at hbig
    exact hbig.2
  constructor
  · show some c.signature = none ↔ c.cumulativeAmount = 0 ∧ c.nonce = 0
    apply iff_of_false (by simp)
    rintro ⟨-, hzero⟩
    exact hc.nonce_pos.ne' hzero
  · rintro signature ⟨⟩
    exact ⟨hc.signed, hc.amount_pos, hc.amount_le, hc.nonce_pos, hlt⟩

/-- A statement that leaves the terms and the pending claim alone. -/
theorem ChannelRow.Sound.congr {row' : ChannelRow} (h : row.Sound verifyEd25519)
    (hterms : row'.terms = row.terms) (hpending : row'.pending = row.pending) :
    row'.Sound verifyEd25519 := by
  have hamount : row'.pendingAmount = row.pendingAmount := congrArg Pending.amount hpending
  have hnonce : row'.pendingNonce = row.pendingNonce := congrArg Pending.nonce hpending
  have hsig : row'.pendingSignature = row.pendingSignature := congrArg Pending.signature hpending
  constructor
  · rw [hsig, hamount, hnonce]
    exact h.unclaimed
  · rw [hsig, hamount, hnonce, hterms]
    exact h.claimed

/-- No step changes the terms of a row. -/
theorem terms_of_step (h : step verifyEd25519 s a = some t) : t.row.terms = s.row.terms := by
  cases move_of_step h <;> rfl

theorem ChannelState.sound_start (h : row.fresh) (chain : ChannelInfo) :
    (ChannelState.start row chain).Sound verifyEd25519 :=
  ⟨ChannelRow.sound_of_fresh h, by simp [ChannelState.start]⟩

theorem sound_of_step (hs : s.Sound verifyEd25519) (h : step verifyEd25519 s a = some t) :
    t.Sound verifyEd25519 := by
  cases move_of_step h with
  | claimRefused | closeRefused => exact hs
  | closeChecked | closeConfirmed | resyncRead | chainMoved => exact ⟨hs.row, hs.claims⟩
  | claimChecked c hpass =>
    exact ⟨hs.row, InFlight.forall_append_start hs.claims (checked_of_passed hs.row hpass)⟩
  | claimLost i => exact ⟨hs.row, InFlight.forall_eraseIdx i hs.claims⟩
  | claimAccepted i now f hf hbig hlt =>
    -- the checks were made against an older row, but on the same terms
    have hchecked := hs.claims f (List.mem_of_getElem? hf)
    exact ⟨ChannelRow.sound_credit hchecked hbig now, InFlight.forall_eraseIdx i hs.claims⟩
  | closeWritten | resyncWritten =>
    exact ⟨hs.row.congr rfl rfl, InFlight.forall_map_note hs.claims⟩

/-! ## What was signed -/

/-- The ranges of the contract's arguments: two `u64` and an `i128`. -/
def ContractRange (channelId nonce amount : ℤ) : Prop :=
  (0 ≤ channelId ∧ channelId < 2 ^ 64) ∧ (0 ≤ nonce ∧ nonce < 2 ^ 64) ∧
    -2 ^ 127 ≤ amount ∧ amount < 2 ^ 127

/-- On a channel whose id and deposit the contract can hold, the payload of a covered
claim is the payload of no other claim that the contract can be called with. -/
theorem Terms.Covers.unique {terms : Terms} {amount nonce : ℤ} {signature : List UInt8}
    (h : terms.Covers verifyEd25519 amount nonce signature)
    (hterms : ContractRange terms.onchainChannelId 0 terms.deposited) {channelId n x : ℤ}
    (hrange : ContractRange channelId n x)
    (heq : claimPayload channelId n x = claimPayload terms.onchainChannelId nonce amount) :
    channelId = terms.onchainChannelId ∧ n = nonce ∧ x = amount := by
  obtain ⟨hid, -, -, hdeposit⟩ := hterms
  obtain ⟨hid', hn, hx⟩ := hrange
  have hnonce : 0 ≤ nonce ∧ nonce < 2 ^ 64 := by
    have hlt := h.nonce_lt
    exact ⟨h.nonce_pos.le, by omega⟩
  have hamount : -2 ^ 127 ≤ amount ∧ amount < 2 ^ 127 := by
    have hpos := h.amount_pos
    exact ⟨by omega, h.amount_le.trans_lt hdeposit⟩
  exact claimPayload_inj heq hid' hid hn hnonce hx hamount

/-- A claim that may be submitted for a channel on these terms: signed by its payer for
that channel, that nonce and that amount, and for nothing else. -/
def Terms.Submittable (verifyEd25519 : Ed25519) (terms : Terms) (p : Pending) : Prop :=
  ∃ signature, p.signature = some signature ∧
    terms.Covers verifyEd25519 p.amount p.nonce signature ∧
    (ContractRange terms.onchainChannelId 0 terms.deposited → ∀ channelId nonce amount,
      ContractRange channelId nonce amount →
      claimPayload channelId nonce amount =
          claimPayload terms.onchainChannelId p.nonce p.amount →
        channelId = terms.onchainChannelId ∧ nonce = p.nonce ∧ amount = p.amount)

theorem ChannelRow.Sound.submittable (h : row.Sound verifyEd25519)
    (hsig : row.pendingSignature.isSome) : row.terms.Submittable verifyEd25519 row.pending := by
  obtain ⟨signature, hsome⟩ := Option.isSome_iff_exists.mp hsig
  have hcovers := h.claimed signature hsome
  refine ⟨signature, hsome, hcovers, ?_⟩
  intro hterms channelId nonce amount hrange heq
  exact hcovers.unique hterms hrange heq

/-! ## All channels and the keeper -/

def World.termsOf (w : World) (i : ℕ) : Option Terms :=
  (w.channels[i]?).map fun ch => ch.state.row.terms

/-- The rows a sweep has queried are sound and on the terms of their channels, and what it
has submitted may be submitted. -/
structure Sweep.Sound (verifyEd25519 : Ed25519) (termsOf : ℕ → Option Terms) (sw : Sweep) :
    Prop where
  waiting : ∀ i r, (i, r) ∈ sw.waiting → termsOf i = some r.terms ∧ r.Sound verifyEd25519 ∧
    (sw.phase ≠ .finalize → r.pendingSignature.isSome)
  attempted : ∀ i p, (i, p) ∈ sw.attempted → ∃ terms, termsOf i = some terms ∧
    terms.Submittable verifyEd25519 p

structure World.Sound (verifyEd25519 : Ed25519) (w : World) : Prop where
  channels : ∀ ch ∈ w.channels, ch.state.Sound verifyEd25519
  sweep : ∀ sw ∈ w.sweep, sw.Sound verifyEd25519 w.termsOf

variable {w w' : World} {sw : Sweep} {termsOf : ℕ → Option Terms}

theorem World.sound_start : (World.start []).Sound verifyEd25519 := by
  constructor
  · intro ch hch
    cases hch
  · intro sw hsw
    cases hsw

theorem World.termsOf_stepChannel {i : ℕ} (h : w.stepChannel verifyEd25519 i a = some w') :
    w'.termsOf = w.termsOf := by
  funext j
  exact World.map_stepChannel _ (fun _ _ ht => terms_of_step ht) h j

theorem World.sound_stepChannel {i : ℕ} (hw : ∀ ch ∈ w.channels, ch.state.Sound verifyEd25519)
    (h : w.stepChannel verifyEd25519 i a = some w') :
    ∀ ch ∈ w'.channels, ch.state.Sound verifyEd25519 :=
  World.forall_stepChannel (fun _ _ hch ht => sound_of_step hch ht) hw h

/-- Channels keep their place and their terms. -/
theorem World.termsOf_of_step {a : KeeperAction} (h : w.step verifyEd25519 a = some w') {i : ℕ}
    {terms : Terms} (hi : w.termsOf i = some terms) : w'.termsOf i = some terms := by
  cases World.move_of_step h with
  | channel j b w' hown hstep | read sw j w₁ hsw hprogress hstep
  | write sw j w₁ hsw hprogress hstep => exact (congrFun (World.termsOf_stepChannel hstep) i).trans hi
  | submit | skip | finalize | watchtower | finish | abort => exact hi
  | opened row chain hfresh =>
    obtain ⟨ch, hch, rfl⟩ := Option.map_eq_some_iff.mp hi
    have hlt : i < w.channels.length := (List.getElem?_eq_some_iff.mp hch).1
    rw [World.termsOf, List.getElem?_append_left hlt, hch, Option.map_some]
  | start order hnone horder =>
    obtain ⟨ch, hch, rfl⟩ := Option.map_eq_some_iff.mp hi
    simp [World.termsOf, hch, Watched.start]

/-- The rows of a query are sound, and those of a query for signed claims are signed. -/
theorem World.captured_sound {order : List ℕ} {due : ChannelRow → Bool}
    (hw : ∀ ch ∈ w.channels, ch.state.Sound verifyEd25519)
    (horder : order.Perm (w.selected due)) {i : ℕ} {r : ChannelRow} (h : (i, r) ∈ w.capture order) :
    w.termsOf i = some r.terms ∧ r.Sound verifyEd25519 ∧ due r := by
  obtain ⟨hi, ch, hch, rfl⟩ := World.mem_capture.mp h
  obtain ⟨ch', hch', hdue⟩ := World.mem_selected.mp (horder.mem_iff.mp hi)
  obtain rfl : ch = ch' := Option.some.inj (hch.symm.trans hch')
  refine ⟨by rw [World.termsOf, hch, Option.map_some], ?_, hdue⟩
  exact (hw ch (List.mem_of_getElem? hch)).row

theorem isSome_of_checkpointDue (h : checkpointDue row) : row.pendingSignature.isSome := by
  simp only [checkpointDue, Bool.and_eq_true] at h
  exact h.2

theorem isSome_of_watchtowerDue (h : watchtowerDue row) : row.pendingSignature.isSome := by
  simp only [watchtowerDue, Bool.and_eq_true] at h
  exact h.2

/-- Submitting the next row. -/
theorem Sweep.Sound.submit (hsw : sw.Sound verifyEd25519 termsOf) {i : ℕ} {rest : List (ℕ × ChannelRow)}
    (hwaiting : sw.waiting = (i, row) :: rest) :
    (sw.submit i row rest).Sound verifyEd25519 termsOf := by
  obtain ⟨hterms, hrow, hsig⟩ := hsw.waiting i row (by simp [hwaiting])
  constructor
  · intro j r hmem
    exact hsw.waiting j r (by rw [hwaiting]; exact List.mem_cons_of_mem _ hmem)
  · intro j p hmem
    by_cases hphase : sw.phase = .finalize
    · rw [Sweep.submit, if_pos hphase] at hmem
      exact hsw.attempted j p hmem
    · rw [Sweep.submit, if_neg hphase, List.mem_append, List.mem_singleton, Prod.mk.injEq] at hmem
      rcases hmem with hmem | ⟨rfl, rfl⟩
      · exact hsw.attempted j p hmem
      · exact ⟨row.terms, hterms, hrow.submittable (hsig hphase)⟩

theorem Sweep.Sound.progress (hsw : sw.Sound verifyEd25519 termsOf) (progress : Progress) :
    Sweep.Sound verifyEd25519 termsOf { sw with progress := progress } :=
  ⟨hsw.waiting, hsw.attempted⟩

/-- The query of another phase. -/
theorem Sweep.Sound.query (hsw : sw.Sound verifyEd25519 termsOf) {phase : Phase}
    {waiting : List (ℕ × ChannelRow)}
    (hwaiting : ∀ i r, (i, r) ∈ waiting → termsOf i = some r.terms ∧ r.Sound verifyEd25519 ∧
      (phase ≠ .finalize → r.pendingSignature.isSome)) :
    Sweep.Sound verifyEd25519 termsOf { sw with phase := phase, waiting := waiting } :=
  ⟨hwaiting, hsw.attempted⟩

theorem World.sound_of_step {a : KeeperAction} (hw : w.Sound verifyEd25519)
    (h : w.step verifyEd25519 a = some w') : w'.Sound verifyEd25519 := by
  have hold : ∀ sw ∈ w.sweep, sw.Sound verifyEd25519 w'.termsOf := by
    intro sw hsw
    constructor
    · intro i r hmem
      exact ((hw.sweep sw hsw).waiting i r hmem).imp_left (World.termsOf_of_step h)
    · intro i p hmem
      obtain ⟨terms, hi, hp⟩ := (hw.sweep sw hsw).attempted i p hmem
      exact ⟨terms, World.termsOf_of_step h hi, hp⟩
  cases World.move_of_step h with
  | channel i a w' hown hchannel =>
    have hsweep := World.sweep_stepChannel hchannel
    exact ⟨World.sound_stepChannel hw.channels hchannel, fun sw hsw => hold sw (hsweep ▸ hsw)⟩
  | opened row chain hfresh =>
    refine ⟨?_, hold⟩
    intro ch hch
    rcases List.mem_append.mp hch with hch | hch
    · exact hw.channels ch hch
    · rw [List.mem_singleton.mp hch]
      exact ChannelState.sound_start hfresh chain
  | start order hnone horder =>
    constructor
    · intro ch hch
      obtain ⟨ch₀, hch₀, rfl⟩ := List.mem_map.mp hch
      exact hw.channels ch₀ hch₀
    · rintro sw ⟨⟩
      constructor
      · intro i r hmem
        obtain ⟨hterms, hr, hdue⟩ := World.captured_sound hw.channels horder hmem
        exact ⟨World.termsOf_of_step h hterms, hr, fun _ => isSome_of_checkpointDue hdue⟩
      · intro i p hmem
        cases hmem
  | submit sw i row rest hsw hidle hwaiting =>
    refine ⟨hw.channels, ?_⟩
    rintro sw' ⟨⟩
    exact (hold sw hsw).submit hwaiting
  | read sw i w₁ hsw hprogress hread =>
    have hchannels := World.sound_stepChannel hw.channels hread
    refine ⟨hchannels, ?_⟩
    rintro sw' ⟨⟩
    exact (hold sw hsw).progress _
  | write sw i w₁ hsw hprogress hwrite =>
    have hchannels := World.sound_stepChannel hw.channels hwrite
    refine ⟨hchannels, ?_⟩
    rintro sw' ⟨⟩
    exact (hold sw hsw).progress _
  | skip sw hsw =>
    refine ⟨hw.channels, ?_⟩
    rintro sw' ⟨⟩
    exact (hold sw hsw).progress _
  | finalize sw now order hsw hphase hidle hwaiting horder =>
    refine ⟨hw.channels, ?_⟩
    rintro sw' ⟨⟩
    refine (hold sw hsw).query ?_
    intro i r hmem
    obtain ⟨hterms, hr, -⟩ := World.captured_sound hw.channels horder hmem
    exact ⟨hterms, hr, fun hne => absurd rfl hne⟩
  | watchtower sw now order hsw =>
    refine ⟨hw.channels, ?_⟩
    rintro sw' ⟨⟩
    refine (hold sw hsw).query ?_
    intro i r hmem
    obtain ⟨sw', hsw', -, -, ⟨-, -, heq⟩ | ⟨-, horder, -⟩⟩ := World.next_cases h
    · cases congrArg World.sweep heq
    · obtain ⟨hterms, hr, hdue⟩ := World.captured_sound hw.channels horder hmem
      exact ⟨hterms, hr, fun _ => isSome_of_watchtowerDue hdue⟩
  | finish | abort => exact ⟨hw.channels, by simp⟩

/-- Every row that was ever inserted stays sound and keeps its terms, and whatever claim
the keeper submits for it is one that its payer has signed for just that. -/
theorem rows_stay_sound {ls : List KeeperAction} {e : World × KeeperAction × World}
    (he : e ∈ trace (World.step verifyEd25519) (.start []) ls) :
    (∀ ch ∈ e.2.2.channels, ch.state.row.Sound verifyEd25519) ∧
      (∀ i terms, e.1.termsOf i = some terms → e.2.2.termsOf i = some terms) ∧
      ∀ sw ∈ e.2.2.sweep, ∀ i p, (i, p) ∈ sw.attempted →
        ∃ terms, e.2.2.termsOf i = some terms ∧ terms.Submittable verifyEd25519 p := by
  obtain ⟨hreach, -, hstep⟩ := reaches_of_mem_trace (fun _ _ => trivial) he
  have hbefore : e.1.Sound verifyEd25519 :=
    hreach.invariant World.sound_start fun _ _ _ _ hw hs => World.sound_of_step hw hs
  have hafter := World.sound_of_step hbefore hstep
  refine ⟨?_, ?_, ?_⟩
  · intro ch hch
    exact (hafter.channels ch hch).row
  · intro i terms hi
    exact World.termsOf_of_step hstep hi
  · intro sw hsw i p hp
    exact (hafter.sweep sw hsw).attempted i p hp

/-- A claim of 5 USDC on a new channel, checkpointed by the next sweep. -/
def exampleCheckpoint : List KeeperAction :=
  [.opened exampleRow ⟨0, .opened⟩, .channel 0 (.claim (exampleClaim 1 50000000)),
    .channel 0 (.claimUpdate 0 3), .start [0]]

/-- The triple that is submitted is the one the payer has signed. -/
theorem exampleCheckpoint_submits_signed :
    ∃ w w', exec (World.step exampleEd25519) (.start []) exampleCheckpoint = some w ∧
      w.step exampleEd25519 .submit = some w' ∧
      ∃ terms, w'.termsOf 0 = some terms ∧
        terms.Submittable exampleEd25519 (exampleClaim 1 50000000).pending := by
  obtain ⟨w, hw, w', hw', sw, hsw, hmem⟩ : ∃ w, exec (World.step exampleEd25519) (.start [])
      exampleCheckpoint = some w ∧ ∃ w', w.step exampleEd25519 .submit = some w' ∧
      ∃ sw, w'.sweep = some sw ∧ (0, (exampleClaim 1 50000000).pending) ∈ sw.attempted :=
    ⟨_, rfl, _, rfl, _, rfl, by decide⟩
  obtain ⟨-, -, hsubmits⟩ := rows_stay_sound (mem_trace_of_exec hw hw')
  exact ⟨w, w', hw, hw', hsubmits sw hsw 0 _ hmem⟩

end KonfirmBackend.Channel
