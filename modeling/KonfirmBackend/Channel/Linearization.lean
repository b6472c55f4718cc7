import KonfirmBackend.Lib.VersionedCell
import KonfirmBackend.Channel.Claims
import KonfirmBackend.Channel.Keeper

/-!
# Claims take effect one after the other

The guard of a claim's `UPDATE` makes the pending claim of a row a cell that is written
with rising nonces. However the calls interleave, among themselves and with the other
writers of the row, the answers they give are those of that cell.

## Main definitions

- `claimAnswer` — what a call of `claim` answers in a step
- `accepted` — the claims that a run accepts, in the order of their `UPDATE`s
- `offered` — the claims whose `UPDATE` runs

## Main results

- `effect_of_step` — what a step does to the pending claim
- `accepted_eq_taken` — a run accepts what the cell takes
- `claims_linearize` — accepted claims are those that changed the row, their nonces rise,
  and the highest one is what the row ends with
-/

namespace KonfirmBackend.Channel

open Transition VersionedCell

variable (verifyEd25519 : Ed25519)

/-- The steps of `claim`. -/
def Action.ofClaim : Action → Bool
  | .claim _ | .claimUpdate _ _ => true
  | _ => false

/-- What a call of `claim` answers in this step; `none` when it goes on, or throws. -/
def claimAnswer (s : ChannelState) : Action → Option (Claim × ClaimResult)
  | .claim c =>
    match claimSelect verifyEd25519 (s.row.select c.onchainChannelId) c with
    | .rejected reason => some (c, ⟨false, some reason⟩)
    | .passed | .threw => none
  | .claimUpdate i now =>
    (s.claims[i]?).bind fun f => (claimUpdate f.op now s.row).map fun w => (f.op, w.1)
  | _ => none

/-- The claim whose call answers `accepted: true` in this step. -/
def acceptedClaim (e : ChannelState × Action × ChannelState) : Option Claim :=
  (claimAnswer verifyEd25519 e.1 e.2.1).bind fun a => if a.2.accepted then some a.1 else none

def accepted (es : List (ChannelState × Action × ChannelState)) : List Claim :=
  es.filterMap (acceptedClaim verifyEd25519)

/-- The claim whose `UPDATE` runs in this step, whether or not its guard lets it. -/
def offeredClaim : ChannelState × Action × ChannelState → Option Claim
  | (s, .claimUpdate i _, _) => ((s.claims[i]?).map InFlight.op).filter fun c => isBigint c.nonce
  | _ => none

def offered (es : List (ChannelState × Action × ChannelState)) : List Claim :=
  es.filterMap offeredClaim

/-- What a claim leaves in the row. -/
def Claim.pending (c : Claim) : Pending := ⟨c.cumulativeAmount, c.nonce, some c.signature⟩

variable {verifyEd25519} {s t : ChannelState} {a : Action} {row : ChannelRow} {chain : ChannelInfo}
  {ls : List Action}

/-- What a step can do to the row, by the claim it offers: no claim runs its `UPDATE`, or
one loses and changes nothing, or one wins and is credited. -/
inductive Effect (verifyEd25519 : Ed25519) (s : ChannelState) (a : Action) (t : ChannelState) : Prop
  | none (hoff : offeredClaim (s, a, t) = none) (hacc : acceptedClaim verifyEd25519 (s, a, t) = none)
      (hpending : t.row.pending = s.row.pending) (hrow : a.ofClaim → t.row = s.row)
  | lost (c : Claim) (hoff : offeredClaim (s, a, t) = some c)
      (hacc : acceptedClaim verifyEd25519 (s, a, t) = none)
      (hlt : ¬s.row.pendingNonce < c.nonce) (hrow : t.row = s.row)
  | won (c : Claim) (now : ℤ) (hoff : offeredClaim (s, a, t) = some c)
      (hacc : acceptedClaim verifyEd25519 (s, a, t) = some c)
      (hlt : s.row.pendingNonce < c.nonce) (hrow : t.row = s.row.credit c now)

/-- The checks alone never accept a claim. -/
theorem acceptedClaim_claim (c : Claim) : acceptedClaim verifyEd25519 (s, .claim c, t) = none := by
  simp only [acceptedClaim, claimAnswer]
  split <;> rfl

theorem effect_of_step (h : step verifyEd25519 s a = some t) : Effect verifyEd25519 s a t := by
  cases move_of_step h with
  | claimRefused c => exact .none rfl (acceptedClaim_claim c) rfl fun _ => rfl
  | claimChecked c => exact .none rfl (acceptedClaim_claim c) rfl fun _ => rfl
  | claimLost i now f hf hlost =>
    by_cases hbig : isBigint f.op.nonce
    · have hlt : ¬s.row.pendingNonce < f.op.nonce := fun hlt => hlost ⟨hbig, hlt⟩
      apply Effect.lost f.op
      · simp [offeredClaim, hf, hbig]
      · simp [acceptedClaim, claimAnswer, hf, claimUpdate_of_not_lt hbig hlt]
      · exact hlt
      · rfl
    · apply Effect.none
      · simp [offeredClaim, hf, hbig]
      · simp [acceptedClaim, claimAnswer, hf, claimUpdate_of_not_bigint hbig]
      · rfl
      · exact fun _ => rfl
  | claimAccepted i now f hf hbig hlt =>
    apply Effect.won f.op now
    · simp [offeredClaim, hf, hbig]
    · simp [acceptedClaim, claimAnswer, hf, claimUpdate_of_lt hbig hlt]
    · exact hlt
    · rfl
  | closeRefused | closeChecked | closeConfirmed | closeWritten | resyncRead | resyncWritten
  | chainMoved =>
    apply Effect.none
    · rfl
    · rfl
    · rfl
    · intro hclaim
      cases hclaim

/-- A call is accepted in a step exactly when the step is its `UPDATE` and changes the row. -/
theorem accepted_iff_row_ne (h : step verifyEd25519 s a = some t) (ha : a.ofClaim) :
    (acceptedClaim verifyEd25519 (s, a, t)).isSome ↔ t.row ≠ s.row := by
  cases effect_of_step h with
  | none hoff hacc hpending hrow => simp [hacc, hrow ha]
  | lost c hoff hacc hlt hrow => simp [hacc, hrow]
  | won c now hoff hacc hlt hrow =>
    have hne : t.row ≠ s.row := by
      rintro heq
      have hnonce : s.row.pendingNonce = c.nonce :=
        congrArg ChannelRow.pendingNonce (heq.symm.trans hrow)
      exact hlt.ne hnonce
    simp [hacc, hne]

/-- **Refinement**: a run accepts the claims that a cell versioned by the nonce takes of
those offered. -/
theorem accepted_eq_taken (ls : List Action) (s : ChannelState) :
    (accepted verifyEd25519 (trace (step verifyEd25519) s ls)).map Claim.pending =
      taken Pending.nonce s.row.pending
        ((offered (trace (step verifyEd25519) s ls)).map Claim.pending) := by
  induction ls generalizing s with
  | nil => rfl
  | cons a ls ih =>
    cases hs : step verifyEd25519 s a with
    | none => simp [trace, hs, accepted, offered, taken]
    | some t =>
      -- a step offers at most one claim to the cell, with the nonce the row has then
      simp only [accepted, offered] at ih
      simp only [trace, hs, accepted, offered]
      cases effect_of_step hs with
      | none hoff hacc hpending hrow =>
        rw [List.filterMap_cons_none hacc, List.filterMap_cons_none hoff, ← hpending]
        exact ih t
      | lost c hoff hacc hlt hrow =>
        rw [List.filterMap_cons_none hacc, List.filterMap_cons_some hoff, List.map_cons,
          taken_cons_of_not_lt hlt, ← hrow]
        exact ih t
      | won c now hoff hacc hlt hrow =>
        have hpending : t.row.pending = c.pending := by rw [hrow]; rfl
        rw [List.filterMap_cons_some hacc, List.filterMap_cons_some hoff, List.map_cons,
          List.map_cons, taken_cons_of_lt hlt, ← hpending]
        exact congrArg _ (ih t)

/-- The row ends with what the cell holds. -/
theorem pending_of_exec (ls : List Action) {s : ChannelState}
    (h : exec (step verifyEd25519) s ls = some t) :
    t.row.pending = ((offered (trace (step verifyEd25519) s ls)).map Claim.pending).foldl
      (write Pending.nonce) s.row.pending := by
  induction ls generalizing s with
  | nil =>
    obtain rfl : s = t := Option.some.inj h
    rfl
  | cons a ls ih =>
    rw [exec_cons] at h
    obtain ⟨u, hu, hrest⟩ := Option.bind_eq_some_iff.mp h
    rw [ih hrest]
    simp only [trace, hu, offered]
    cases effect_of_step hu with
    | none hoff hacc hpending hrow => rw [List.filterMap_cons_none hoff, hpending]
    | lost c hoff hacc hlt hrow =>
      rw [List.filterMap_cons_some hoff, List.map_cons, List.foldl_cons, write_of_not_lt hlt, hrow]
    | won c now hoff hacc hlt hrow =>
      have hpending : u.row.pending = c.pending := by rw [hrow]; rfl
      rw [List.filterMap_cons_some hoff, List.map_cons, List.foldl_cons, write_of_lt hlt, hpending]

/-- However calls of `claim` interleave: a call is accepted exactly when its `UPDATE`
changes the row, and the others leave it as it is; the accepted nonces rise in the order
of the `UPDATE`s; and the row ends with the accepted claim of the highest nonce, or with
what it held when there is none. -/
theorem claims_linearize (h : exec (step verifyEd25519) (.start row chain) ls = some t) :
    let run := trace (step verifyEd25519) (.start row chain) ls
    (∀ e ∈ run, e.2.1.ofClaim →
        ((acceptedClaim verifyEd25519 e).isSome ↔ e.2.2.row ≠ e.1.row)) ∧
      (accepted verifyEd25519 run).Pairwise (fun c c' => c.nonce < c'.nonce) ∧
      (accepted verifyEd25519 run = [] → t.row.pending = row.pending) ∧
      ∀ c ∈ accepted verifyEd25519 run,
        (∀ c' ∈ accepted verifyEd25519 run, c'.nonce ≤ c.nonce) → t.row.pending = c.pending := by
  intro run
  have htaken : (accepted verifyEd25519 run).map Claim.pending =
      taken Pending.nonce row.pending ((offered run).map Claim.pending) :=
    accepted_eq_taken ls (.start row chain)
  have hfinal : t.row.pending =
      ((offered run).map Claim.pending).foldl (write Pending.nonce) row.pending :=
    pending_of_exec ls h
  refine ⟨?_, ?_, ?_, ?_⟩
  · intro e he hclaim
    obtain ⟨-, -, hstep⟩ := reaches_of_mem_trace (fun _ _ => trivial) he
    exact accepted_iff_row_ne hstep hclaim
  · have hrise : (taken Pending.nonce row.pending ((offered run).map Claim.pending)).Pairwise
        fun p q => p.nonce < q.nonce := pairwise_taken _ _
    rw [← htaken, List.pairwise_map] at hrise
    exact hrise
  · intro hnone
    rw [hnone, List.map_nil] at htaken
    rw [hfinal, foldl_write, ← htaken]
    rfl
  · intro c hc hmax
    rw [hfinal]
    apply eq_foldl_write_of_max
    · rw [← htaken]
      exact List.mem_map_of_mem hc
    · rw [← htaken]
      intro p hp
      obtain ⟨c', hc', rfl⟩ := List.mem_map.mp hp
      exact hmax c' hc'

/-- Two claims read the row at the same time; the later one is written first. -/
def exampleRace : List Action :=
  [.claim (exampleClaim 1 40000000), .claim (exampleClaim 2 50000000), .claimUpdate 1 3,
    .claimUpdate 0 4]

/-- The row keeps the claim with the higher nonce, and the other call is told so. -/
theorem exampleRace_linearizes :
    ∃ t, exec (step exampleEd25519) (.start exampleRow ⟨0, .opened⟩) exampleRace = some t ∧
      accepted exampleEd25519
        (trace (step exampleEd25519) (.start exampleRow ⟨0, .opened⟩) exampleRace) =
          [exampleClaim 2 50000000] ∧
      t.row.pending = (exampleClaim 2 50000000).pending := by
  have hacc : accepted exampleEd25519
      (trace (step exampleEd25519) (.start exampleRow ⟨0, .opened⟩) exampleRace) =
        [exampleClaim 2 50000000] := by
    decide +kernel
  obtain ⟨t, ht, -⟩ : ∃ t, exec (step exampleEd25519) (.start exampleRow ⟨0, .opened⟩)
      exampleRace = some t ∧ True := exists_exec_of_any (by decide +kernel)
  obtain ⟨-, -, -, hmax⟩ := claims_linearize ht
  refine ⟨t, ht, hacc, hmax _ ?_ ?_⟩
  · rw [hacc]
    exact List.mem_singleton_self _
  · rw [hacc]
    intro c hc
    rw [List.mem_singleton.mp hc]

end KonfirmBackend.Channel
