import KonfirmBackend.Channel.Claims

/-!
# Claims and what is settled already

`claim` mirrors the contract's rule that amounts rise, but it compares a claim with the
pending amount of the row only. What is claimed on chain is stored by resyncs, and it is
above the pending amount when somebody else has checkpointed a later claim.

## Main definitions

- `AcceptsAboveClaimed` — a claim is accepted only for more than is claimed
- `Audited` — a channel with what the chain said at the last resync, and the pending amount
  that each claim in flight was compared with
- `NotOvertaken` — what the chain said is no more than that, or less than the claim is for

## Main results

- `tracks_of_audited_step` — only resyncs store what is claimed, and claims in flight were for
  more than was pending
- `accepts_above_claimed_iff` — in which runs every accepted claim is worth a checkpoint
-/

namespace KonfirmBackend.Channel

open Transition

/-- A claim that is accepted raises the amount above what the row has claimed. -/
def AcceptsAboveClaimed : ChannelState × Action × ChannelState → Prop
  | (s, .claimUpdate i now, _) =>
    ∀ f ∈ s.claims[i]?, ∀ w ∈ claimUpdate f.op now s.row, w.1.accepted →
      s.row.claimed < f.op.cumulativeAmount
  | _ => True

/-- A claim in flight, with the pending amount that its `SELECT` found. -/
structure Compared where
  claim : Claim
  pendingAmount : ℤ
deriving DecidableEq

/-- A channel with the claims in flight, and what the chain said was claimed when the last
resync that stored its answer asked; before the first one, what the row said at the start. -/
structure Audited where
  state : ChannelState
  resynced : ℤ
  compared : List Compared
deriving DecidableEq

namespace Audited

variable (verifyEd25519 : Ed25519)

def start (row : ChannelRow) (chain : ChannelInfo) : Audited :=
  ⟨.start row chain, row.claimed, []⟩

/-- The channel moves to `t` with the step `a`. -/
def next (x : Audited) (a : Action) (t : ChannelState) : Audited where
  state := t
  resynced := match a with
    | .resyncUpdate i => (x.state.resyncs[i]?).elim x.resynced fun f => f.op.claimed
    | _ => x.resynced
  compared := match a with
    | .claim c =>
      if claimSelect verifyEd25519 (x.state.row.select c.onchainChannelId) c = .passed then
        x.compared ++ [⟨c, x.state.row.pendingAmount⟩]
      else x.compared
    | .claimUpdate i _ => x.compared.eraseIdx i
    | _ => x.compared

def step (x : Audited) (a : Action) : Option Audited :=
  (Channel.step verifyEd25519 x.state a).map (x.next verifyEd25519 a)

/-- The claims in flight are those of the channel and passed the comparison, and the row has
claimed what the last resync has stored. -/
structure Tracks (x : Audited) : Prop where
  claims : x.compared.map Compared.claim = x.state.claims.map InFlight.op
  passed : ∀ f ∈ x.compared, f.pendingAmount < f.claim.cumulativeAmount
  resynced : x.state.row.claimed = x.resynced

end Audited

/-- When a claim passes its guard, the last resync has not stored more than the pending amount
that the claim was compared with, or else less than the claim is for. -/
def NotOvertaken : Audited × Action × Audited → Prop
  | (x, .claimUpdate i _, _) =>
    ∀ f ∈ x.compared[i]?, isBigint f.claim.nonce → x.state.row.pendingNonce < f.claim.nonce →
      f.pendingAmount < x.resynced → x.resynced < f.claim.cumulativeAmount
  | _ => True

variable {verifyEd25519 : Ed25519} {x y : Audited} {a : Action}

theorem Audited.step_eq_some (h : x.step verifyEd25519 a = some y) :
    ∃ t, Channel.step verifyEd25519 x.state a = some t ∧ y = x.next verifyEd25519 a t := by
  obtain ⟨t, ht, rfl⟩ := Option.map_eq_some_iff.mp h
  exact ⟨t, ht, rfl⟩

theorem tracks_of_audited_step (hx : x.Tracks) (h : x.step verifyEd25519 a = some y) :
    y.Tracks := by
  obtain ⟨t, ht, rfl⟩ := Audited.step_eq_some h
  obtain ⟨hclaims, hpassed, hresynced⟩ := hx
  cases a with
  | claim c =>
    by_cases hpass :
        claimSelect verifyEd25519 (x.state.row.select c.onchainChannelId) c = .passed
    · obtain rfl : _ = t := Option.some.inj (by simpa only [step, if_pos hpass] using ht)
      -- the comparison that the code makes
      obtain ⟨-, -, -, hamount, -⟩ := claimSelect_select_eq_passed_iff.mp hpass
      refine ⟨by simp [Audited.next, hpass, hclaims], ?_, hresynced⟩
      simp only [Audited.next, hpass, if_true]
      intro f hf
      rcases List.mem_append.mp hf with hold | hnew
      · exact hpassed f hold
      · obtain rfl := List.mem_singleton.mp hnew
        exact hamount
    · obtain rfl : _ = t := Option.some.inj (by simpa only [step, if_neg hpass] using ht)
      refine ⟨by simp [Audited.next, hpass, hclaims], ?_, hresynced⟩
      simpa only [Audited.next, hpass, if_false] using hpassed
  | claimUpdate i now =>
    have hrest : ∀ f ∈ x.compared.eraseIdx i, f.pendingAmount < f.claim.cumulativeAmount :=
      fun f hf => hpassed f (List.mem_of_mem_eraseIdx hf)
    have hops : (x.compared.eraseIdx i).map Compared.claim =
        (x.state.claims.eraseIdx i).map InFlight.op := by
      rw [← List.eraseIdx_map, ← List.eraseIdx_map, hclaims]
    cases move_of_step ht with
    | claimLost | claimAccepted => exact ⟨hops, hrest, hresynced⟩
  | resyncUpdate i =>
    -- the only statement that writes `claimed`
    cases move_of_step ht with
    | resyncWritten i f hf =>
      refine ⟨?_, hpassed, ?_⟩
      · show x.compared.map Compared.claim = (x.state.claims.map _).map InFlight.op
        rw [hclaims, List.map_map]
        rfl
      · show f.op.claimed = (x.state.resyncs[i]?).elim x.resynced fun f => f.op.claimed
        rw [hf]
        rfl
  | close caller =>
    cases move_of_step ht with
    | closeRefused | closeChecked => exact ⟨hclaims, hpassed, hresynced⟩
  | closeConfirmed i =>
    cases move_of_step ht with
    | closeConfirmed => exact ⟨hclaims, hpassed, hresynced⟩
  | closeUpdate i now =>
    cases move_of_step ht with
    | closeWritten i now f hf =>
      refine ⟨?_, hpassed, hresynced⟩
      show x.compared.map Compared.claim = (x.state.claims.map _).map InFlight.op
      rw [hclaims, List.map_map]
      rfl
  | resyncRead =>
    cases move_of_step ht with
    | resyncRead => exact ⟨hclaims, hpassed, hresynced⟩
  | chain info =>
    cases move_of_step ht with
    | chainMoved => exact ⟨hclaims, hpassed, hresynced⟩

/-- The claim at a position, as the channel and as the audit have it. -/
theorem Audited.Tracks.getElem? (hx : x.Tracks) {i : ℕ} {f : InFlight Claim ChannelStatus}
    (hf : x.state.claims[i]? = some f) :
    ∃ g, x.compared[i]? = some g ∧ g.claim = f.op ∧ g.pendingAmount < f.op.cumulativeAmount := by
  have hop : (x.compared.map Compared.claim)[i]? = some f.op := by
    rw [hx.claims, List.getElem?_map, hf, Option.map_some]
  rw [List.getElem?_map] at hop
  obtain ⟨g, hg, hgop⟩ := Option.map_eq_some_iff.mp hop
  have hpassed := hx.passed g (List.mem_of_getElem? hg)
  rw [hgop] at hpassed
  exact ⟨g, hg, hgop, hpassed⟩

/-- What is claimed is below an amount, when it is no more than a smaller amount that has been
compared or else below it by itself. -/
theorem claimed_lt_iff (claimed : ℤ) {pendingAmount amount : ℤ} (h : pendingAmount < amount) :
    claimed < amount ↔ (pendingAmount < claimed → claimed < amount) := by
  constructor
  · intro hlt _
    exact hlt
  · intro himp
    by_cases hahead : pendingAmount < claimed
    · exact himp hahead
    · omega

theorem acceptsAboveClaimed_step_iff (hx : x.Tracks) (h : x.step verifyEd25519 a = some y) :
    AcceptsAboveClaimed (x.state, a, y.state) ↔ NotOvertaken (x, a, y) := by
  obtain ⟨t, ht, rfl⟩ := Audited.step_eq_some h
  cases move_of_step ht with
  | claimRefused | claimChecked | closeRefused | closeChecked | closeConfirmed | closeWritten
  | resyncRead | resyncWritten | chainMoved => exact Iff.rfl
  | claimLost i now f hf hlost =>
    obtain ⟨g, hg, hgop, -⟩ := hx.getElem? hf
    apply iff_of_true
    · rintro f' hf' ⟨res, row⟩ hw hacc
      obtain rfl : f = f' := Option.some.inj (hf.symm.trans hf')
      exact absurd (claimUpdate_accepted hw hacc) hlost
    · intro g' hg' hbig hlt _
      obtain rfl : g = g' := Option.some.inj (hg.symm.trans hg')
      rw [hgop] at hbig hlt
      exact absurd ⟨hbig, hlt⟩ hlost
  | claimAccepted i now f hf hbig hlt =>
    obtain ⟨g, hg, hgop, hpassed⟩ := hx.getElem? hf
    have hiff := claimed_lt_iff x.resynced hpassed
    simpa [AcceptsAboveClaimed, NotOvertaken, hf, hg, hgop, claimUpdate_of_lt hbig hlt, hbig, hlt,
      hx.resynced] using hiff

/-- Every accepted claim is worth more than what the row has claimed, exactly in those runs
in which no claim that passes its guard had been overtaken: a resync has stored more than the
claim was compared with, and as much as it is for. -/
theorem accepts_above_claimed_iff (verifyEd25519 : Ed25519) (row : ChannelRow)
    (chain : ChannelInfo) (ls : List Action) :
    (∀ e ∈ trace (step verifyEd25519) (.start row chain) ls, AcceptsAboveClaimed e) ↔
      ∀ e ∈ trace (Audited.step verifyEd25519) (.start row chain) ls, NotOvertaken e := by
  have herase : trace (step verifyEd25519) (.start row chain) ls =
      (trace (Audited.step verifyEd25519) (.start row chain) ls).map
        fun e => (e.1.state, e.2.1, e.2.2.state) := by
    have hstep : ∀ (x : Audited) (a : Action), step verifyEd25519 x.state a =
        (x.step verifyEd25519 a).map Audited.state := by
      intro x a
      rw [Audited.step, Option.map_map]
      exact Option.map_id'.symm
    exact trace_map Audited.state hstep (.start row chain) ls
  rw [herase, List.forall_mem_map]
  have hstart : (Audited.start row chain).Tracks := by
    constructor <;> simp [Audited.start, ChannelState.start]
  exact trace_forall_congr (I := Audited.Tracks) (H := fun _ => True) hstart
    (fun _ _ _ hx _ hs => tracks_of_audited_step hx hs)
    (fun _ _ _ hx _ hs => acceptsAboveClaimed_step_iff hx hs) fun _ _ => trivial

/-- The payee checkpoints a claim for 5 USDC that was never sent to the service. Once a
resync has stored that, a claim for 4 USDC is accepted, since only 1 USDC is pending. -/
theorem accepts_below_claimed :
    ∃ s t, exec (step exampleEd25519) (.start exampleRow ⟨0, .opened⟩)
        [.claim (exampleClaim 1 10000000), .claimUpdate 0 3, .chain ⟨50000000, .opened⟩,
          .resyncRead, .resyncUpdate 0, .claim (exampleClaim 3 40000000)] = some s ∧
      step exampleEd25519 s (.claimUpdate 0 4) = some t ∧
      s.row.claimed = 50000000 ∧ t.row.pendingAmount = 40000000 ∧
      ¬AcceptsAboveClaimed (s, .claimUpdate 0 4, t) := by
  refine ⟨_, _, rfl, rfl, rfl, rfl, ?_⟩
  intro h
  exact absurd (h _ rfl _ rfl rfl) (by decide)

end KonfirmBackend.Channel
