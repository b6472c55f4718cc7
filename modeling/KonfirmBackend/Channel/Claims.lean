import KonfirmBackend.Channel.System

/-!
# Racing claims

Calls of `claim` on one row, with nothing else under way. The amount of a claim is
compared with the row its `SELECT` returned, the nonce once more by the `UPDATE`. A
claim that passed its checks early can therefore lower the pending amount later, when
the payer has signed a higher nonce for less.

## Main definitions

- `FromClaims` — runs of `claim` calls whose arguments come from a set
- `Admissible` — the claims that the row would take as it stands

## Main results

- `claimsInv_of_step` — the row is always the initial one, credited with at most one claim
- `pending_never_decreases_iff` — which sets of claims are safe in every interleaving
-/

namespace KonfirmBackend.Channel

open Transition

/-- The steps of `claim` calls with arguments from `S`. -/
def FromClaims (S : Set Claim) : Action → Prop
  | .claim c => c ∈ S
  | .claimUpdate _ _ => True
  | _ => False

variable (verifyEd25519 : Ed25519)

/-- A claim that passes the checks against `row` and whose nonce fits the column. -/
def Admissible (row : ChannelRow) (c : Claim) : Prop :=
  claimSelect verifyEd25519 (row.select c.onchainChannelId) c = .passed ∧ isBigint c.nonce

/-- The row of a run of claims from `S`, and the claims in flight. -/
structure ClaimsInv (S : Set Claim) (row₀ : ChannelRow) (s : ChannelState) : Prop where
  row : s.row = row₀ ∨ ∃ c ∈ S, ∃ now, Admissible verifyEd25519 row₀ c ∧ s.row = row₀.credit c now
  claims : ∀ f ∈ s.claims, f.op ∈ S ∧
    claimSelect verifyEd25519 (row₀.select f.op.onchainChannelId) f.op = .passed

variable {verifyEd25519} {S : Set Claim} {row₀ : ChannelRow} {s t : ChannelState} {a : Action}

theorem claimsInv_start (row₀ : ChannelRow) (chain : ChannelInfo) :
    ClaimsInv verifyEd25519 S row₀ (.start row₀ chain) :=
  ⟨.inl rfl, by simp [ChannelState.start]⟩

/-- What passes the checks once a claim is credited would have passed them before. -/
theorem passed_of_credit {c c' : Claim} {now : ℤ} (hc : Admissible verifyEd25519 row₀ c)
    (h : claimSelect verifyEd25519 ((row₀.credit c now).select c'.onchainChannelId) c' = .passed) :
    claimSelect verifyEd25519 (row₀.select c'.onchainChannelId) c' = .passed := by
  rw [claimSelect_select_eq_passed_iff] at h ⊢
  obtain ⟨hid, hopen, hnonce, hamount, hcap, hsig⟩ := h
  obtain ⟨-, -, hnonce₀, hamount₀, -⟩ := claimSelect_select_eq_passed_iff.mp hc.1
  refine ⟨hid, hopen, ?_, ?_, hcap, hsig⟩
  · exact hnonce₀.trans hnonce
  · exact hamount₀.trans hamount

/-- Claims in flight passed the checks of the initial row, and the row is the initial
one or credits the last of them that was accepted. -/
theorem claimsInv_of_step (hs : ClaimsInv verifyEd25519 S row₀ s) (hok : FromClaims S a)
    (h : step verifyEd25519 s a = some t) : ClaimsInv verifyEd25519 S row₀ t := by
  cases move_of_step h with
  | claimRefused => exact hs
  | claimChecked c hpass =>
    refine ⟨hs.row, InFlight.forall_append_start hs.claims ⟨hok, ?_⟩⟩
    rcases hs.row with hrow | ⟨c₀, -, now, hc₀, hrow⟩
    · rwa [hrow] at hpass
    · rw [hrow] at hpass
      exact passed_of_credit hc₀ hpass
  | claimLost i => exact ⟨hs.row, InFlight.forall_eraseIdx i hs.claims⟩
  | claimAccepted i now f hf hbig hlt =>
    obtain ⟨hfS, hpass⟩ := hs.claims f (List.mem_of_getElem? hf)
    refine ⟨.inr ⟨f.op, hfS, now, ⟨hpass, hbig⟩, ?_⟩, InFlight.forall_eraseIdx i hs.claims⟩
    -- crediting twice leaves the second claim
    rcases hs.row with hrow | ⟨c₀, -, now₀, -, hrow⟩
    · exact congrArg (fun row => row.credit f.op now) hrow
    · exact congrArg (fun row => row.credit f.op now) hrow
  | closeRefused | closeChecked | closeConfirmed | closeWritten | resyncRead | resyncWritten
    | chainMoved => exact hok.elim

/-- When the amounts of the admissible claims follow their nonces, no write of a claim
lowers the pending amount. -/
theorem pendingAmount_le_of_step (hs : ClaimsInv verifyEd25519 S row₀ s) (hok : FromClaims S a)
    (hord : ∀ c₁ ∈ S, ∀ c₂ ∈ S, Admissible verifyEd25519 row₀ c₁ →
      Admissible verifyEd25519 row₀ c₂ → c₁.nonce < c₂.nonce →
        c₁.cumulativeAmount ≤ c₂.cumulativeAmount)
    (h : step verifyEd25519 s a = some t) : s.row.pendingAmount ≤ t.row.pendingAmount := by
  cases move_of_step h with
  | claimRefused | claimChecked | claimLost => exact le_rfl
  | claimAccepted i now f hf hbig hlt =>
    obtain ⟨hfS, hpass⟩ := hs.claims f (List.mem_of_getElem? hf)
    show s.row.pendingAmount ≤ f.op.cumulativeAmount
    rcases hs.row with hrow | ⟨c₀, hc₀S, now₀, hc₀, hrow⟩
    · obtain ⟨-, -, -, hamount, -⟩ := claimSelect_select_eq_passed_iff.mp hpass
      rw [hrow]
      exact hamount.le
    · rw [hrow] at hlt ⊢
      exact hord c₀ hc₀S f.op hfS hc₀ ⟨hpass, hbig⟩ hlt
  | closeRefused | closeChecked | closeConfirmed | closeWritten | resyncRead | resyncWritten
    | chainMoved => exact hok.elim

/-- Both claims read the row before either is written; then they are written in the
order of their nonces. -/
def race (c₁ c₂ : Claim) : List Action :=
  [.claim c₁, .claim c₂, .claimUpdate 0 0] ++ [.claimUpdate 0 0]

/-- The second claim of a race overwrites the amount of the first. -/
theorem exists_mem_trace_race {c₁ c₂ : Claim} (chain : ChannelInfo)
    (h₁ : Admissible verifyEd25519 row₀ c₁) (h₂ : Admissible verifyEd25519 row₀ c₂)
    (hlt : c₁.nonce < c₂.nonce) :
    ∃ e ∈ trace (step verifyEd25519) (.start row₀ chain) (race c₁ c₂),
      e.1.row.pendingAmount = c₁.cumulativeAmount ∧
        e.2.2.row.pendingAmount = c₂.cumulativeAmount := by
  obtain ⟨hpass₁, hbig₁⟩ := h₁
  obtain ⟨hpass₂, hbig₂⟩ := h₂
  obtain ⟨-, -, hnonce₁, -⟩ := claimSelect_select_eq_passed_iff.mp hpass₁
  let second : ChannelState :=
    { ChannelState.start (row₀.credit c₁ 0) chain with claims := [.start c₂ row₀.status] }
  have hfirst : exec (step verifyEd25519) (.start row₀ chain)
      [.claim c₁, .claim c₂, .claimUpdate 0 0] = some second := by
    simp [exec, step, ChannelState.start, hpass₁, hpass₂, claimUpdate_of_lt hbig₁ hnonce₁, second]
  have hsecond : step verifyEd25519 second (.claimUpdate 0 0) =
      some (.start ((row₀.credit c₁ 0).credit c₂ 0) chain) := by
    have hnonce₂ : (row₀.credit c₁ 0).pendingNonce < c₂.nonce := hlt
    simp [step, ChannelState.start, claimUpdate_of_lt hbig₂ hnonce₂, second]
  exact ⟨_, mem_trace_of_exec hfirst hsecond, rfl, rfl⟩

/-- Claims from `S` never lower the pending amount of the row, in any interleaving,
exactly when among those the row would take a higher nonce never comes with less. -/
theorem pending_never_decreases_iff (verifyEd25519 : Ed25519) (S : Set Claim) (row₀ : ChannelRow)
    (chain : ChannelInfo) :
    (∀ ls : List Action, (∀ l ∈ ls, FromClaims S l) →
        ∀ e ∈ trace (step verifyEd25519) (.start row₀ chain) ls,
          e.1.row.pendingAmount ≤ e.2.2.row.pendingAmount) ↔
      ∀ c₁ ∈ S, ∀ c₂ ∈ S, Admissible verifyEd25519 row₀ c₁ → Admissible verifyEd25519 row₀ c₂ →
        c₁.nonce < c₂.nonce → c₁.cumulativeAmount ≤ c₂.cumulativeAmount := by
  constructor
  · intro hsafe c₁ hc₁ c₂ hc₂ hadm₁ hadm₂ hlt
    obtain ⟨e, he, hbefore, hafter⟩ := exists_mem_trace_race chain hadm₁ hadm₂ hlt
    have hok : ∀ l ∈ race c₁ c₂, FromClaims S l := by simp [race, FromClaims, hc₁, hc₂]
    rw [← hbefore, ← hafter]
    exact hsafe _ hok e he
  · intro hord ls hok e he
    obtain ⟨hreach, hl, hstep⟩ := reaches_of_mem_trace hok he
    have hinv : ClaimsInv verifyEd25519 S row₀ e.1 :=
      hreach.invariant (claimsInv_start row₀ chain) fun a l b hl' ha => claimsInv_of_step ha hl'
    exact pendingAmount_le_of_step hinv hl hord hstep

/-- A signature scheme for examples: a payload is its own signature. -/
def exampleEd25519 : Ed25519 := fun _ payload signature => some (decide (signature = payload))

/-- A channel with a deposit of 10 USDC. -/
def exampleRow : ChannelRow :=
  .inserted 1 "GPAYER" "GPAYEE" "CUSDC" (List.replicate 32 7) 100000000 none 0

def exampleClaim (nonce cumulativeAmount : ℤ) : Claim where
  onchainChannelId := 1
  cumulativeAmount := cumulativeAmount
  nonce := nonce
  signature := claimPayload 1 nonce cumulativeAmount

/-- A claim for 5 USDC is accepted, and then one for 4 USDC with the next nonce that
had read the row before. -/
theorem pending_decreases :
    ∃ s t, exec (step exampleEd25519) (.start exampleRow ⟨0, .opened⟩)
        [.claim (exampleClaim 1 50000000), .claim (exampleClaim 2 40000000), .claimUpdate 0 3] =
          some s ∧
      step exampleEd25519 s (.claimUpdate 0 4) = some t ∧
      s.row.pendingAmount = 50000000 ∧ t.row.pendingAmount = 40000000 :=
  ⟨_, _, rfl, rfl, rfl, rfl⟩

end KonfirmBackend.Channel
