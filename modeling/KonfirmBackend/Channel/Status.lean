import KonfirmBackend.Channel.Claims

/-!
# The stored status under interleaving

Three statements depend on a status that was read in an earlier round trip: the
`UPDATE` of a claim, which only open channels should see, and the two that set the
status, which should never set it back. None of them looks at the status again.

## Main definitions

- `Regress` — the changes of status that undo a step of the channel's life
- `ChainAdvances` — a step in which the channel on chain only moves forward
- `FreshWrite`, `NoWindDownSince` — nobody has stored a status in between that the
  statement should have heeded

## Main results

- `behind_of_step` — the stored status, and every status about to be stored, lags
  behind the chain
- `status_never_regresses_iff` — in which runs the stored status only moves forward
- `accepts_only_open_iff` — in which runs claims are only accepted on open channels
-/

namespace KonfirmBackend.Channel

open Transition

/-! ## Regressions of the status -/

/-- From `closing` or `closed` back to `open`, or from `closed` back to `closing`. -/
def Regress (before after : ChannelStatus) : Prop :=
  (before = .closing ∨ before = .closed) ∧ after = .opened ∨ before = .closed ∧ after = .closing

instance (before after : ChannelStatus) : Decidable (Regress before after) :=
  inferInstanceAs (Decidable (_ ∧ _ ∨ _ ∧ _))

/-- `Open → Closing → Closed`, or no change. -/
def ChainStatus.Advances (before after : ChainStatus) : Prop :=
  before = .opened ∧ (after = .opened ∨ after = .closing) ∨
    before = .closing ∧ (after = .closing ∨ after = .closed) ∨ before = .closed ∧ after = .closed

instance (before after : ChainStatus) : Decidable (before.Advances after) :=
  inferInstanceAs (Decidable (_ ∧ _ ∨ _ ∧ _ ∨ _ ∧ _))

/-- How far a channel has come; what is held has no place in the order. -/
def ChannelStatus.stage : ChannelStatus → ℕ
  | .opened | .held => 0
  | .closing => 1
  | .closed => 2

def ChainStatus.stage : ChainStatus → ℕ
  | .opened | .held | .other _ => 0
  | .closing => 1
  | .closed => 2

/-- In this step the channel on chain moves forward, if at all. -/
def ChainAdvances (e : ChannelState × Action × ChannelState) : Prop :=
  e.1.chain.status.Advances e.2.2.chain.status

instance : DecidablePred ChainAdvances := fun e =>
  inferInstanceAs (Decidable (e.1.chain.status.Advances e.2.2.chain.status))

/-- A status is stored only if none after it was stored since its call saw the chain:
by the last other call to store one, when there was any. -/
def FreshWrite : ChannelState × Action × ChannelState → Prop
  | (s, .closeUpdate i _, _) => ∀ f ∈ s.closes[i]?, ∀ u ∈ f.since.getLast?, ¬Regress u .closing
  | (s, .resyncUpdate i, _) =>
    ∀ f ∈ s.resyncs[i]?, ∀ v ∈ mappedStatus f.op.status, ∀ u ∈ f.since.getLast?, ¬Regress u v
  | _ => True

instance : DecidablePred FreshWrite := by
  rintro ⟨s, a, t⟩
  unfold FreshWrite
  split <;> infer_instance

/-- The stored status, what the calls about to store one have seen, and what they are
going to store, are not ahead of the chain. -/
structure ChannelState.Behind (s : ChannelState) : Prop where
  row : s.row.status.stage ≤ s.chain.status.stage
  closes : ∀ f ∈ s.closes, f.saw.stage ≤ 1 ∧ 1 ≤ s.chain.status.stage
  resyncs : ∀ f ∈ s.resyncs, f.saw.stage ≤ f.op.status.stage ∧
    f.op.status.stage ≤ s.chain.status.stage

variable {verifyEd25519 : Ed25519} {s t : ChannelState} {a : Action}

theorem Regress.stage_lt {before after : ChannelStatus} (h : Regress before after) :
    after.stage < before.stage := by
  rcases h with ⟨rfl | rfl, rfl⟩ | ⟨rfl, rfl⟩ <;> decide

theorem not_regress_self (v : ChannelStatus) : ¬Regress v v :=
  fun h => h.stage_lt.false

theorem ChainStatus.Advances.stage_le {before after : ChainStatus} (h : before.Advances after) :
    before.stage ≤ after.stage := by
  rcases h with ⟨rfl, rfl | rfl⟩ | ⟨rfl, rfl | rfl⟩ | ⟨rfl, rfl⟩ <;> decide

theorem stage_of_mappedStatus {status : ChainStatus} {v : ChannelStatus}
    (h : mappedStatus status = some v) : v.stage = status.stage := by
  cases status <;> cases h <;> rfl

theorem ChannelState.behind_start {row : ChannelRow} (hopen : row.status = .opened)
    (chain : ChannelInfo) : (ChannelState.start row chain).Behind := by
  constructor
  · show row.status.stage ≤ chain.status.stage
    rw [hopen]
    exact Nat.zero_le _
  · simp [ChannelState.start]
  · simp [ChannelState.start]

/-- The chain moving forward leaves everybody behind. -/
theorem ChannelState.Behind.mono (hs : s.Behind) {chain : ChannelInfo}
    (h : s.chain.status.stage ≤ chain.status.stage) : { s with chain := chain }.Behind where
  row := hs.row.trans h
  closes f hf := ⟨(hs.closes f hf).1, (hs.closes f hf).2.trans h⟩
  resyncs f hf := ⟨(hs.resyncs f hf).1, (hs.resyncs f hf).2.trans h⟩

/-- So does storing a status that is not ahead of the chain. -/
theorem ChannelState.Behind.store (hs : s.Behind) {row : ChannelRow}
    (h : row.status.stage ≤ s.chain.status.stage) : (s.store row).Behind where
  row := h
  closes := InFlight.forall_map_note hs.closes
  resyncs := InFlight.forall_map_note hs.resyncs

/-- What a resync is going to store is not ahead of the chain. -/
theorem ChannelState.Behind.resyncUpdate_stage_le (hs : s.Behind)
    {f : InFlight ChannelInfo ChannelStatus} (hf : f ∈ s.resyncs) :
    (resyncUpdate f.op s.row).status.stage ≤ s.chain.status.stage := by
  show ((mappedStatus f.op.status).getD s.row.status).stage ≤ _
  cases hm : mappedStatus f.op.status with
  | none => exact hs.row
  | some v =>
    show v.stage ≤ _
    rw [stage_of_mappedStatus hm]
    exact (hs.resyncs f hf).2

theorem behind_of_step (hs : s.Behind) (hadv : s.chain.status.Advances t.chain.status)
    (h : step verifyEd25519 s a = some t) : t.Behind := by
  cases move_of_step h with
  | claimRefused | closeRefused => exact hs
  | claimChecked | claimLost | claimAccepted | closeChecked => exact ⟨hs.row, hs.closes, hs.resyncs⟩
  | closeConfirmed i caller hi =>
    -- the chain was open or closing, so the row was not closed
    have hle : s.row.status.stage ≤ 1 := hs.row.trans hadv.stage_le
    have hmono : { s with chain := { s.chain with status := .closing } }.Behind :=
      hs.mono hadv.stage_le
    exact ⟨hmono.row, InFlight.forall_append_start hmono.closes ⟨hle, le_rfl⟩, hmono.resyncs⟩
  | closeWritten i now f hf =>
    have hmem : f ∈ s.closes := List.mem_of_getElem? hf
    have hrest : { s with closes := s.closes.eraseIdx i }.Behind :=
      ⟨hs.row, InFlight.forall_eraseIdx i hs.closes, hs.resyncs⟩
    exact hrest.store (hs.closes f hmem).2
  | resyncRead =>
    exact ⟨hs.row, hs.closes, InFlight.forall_append_start hs.resyncs ⟨hs.row, le_rfl⟩⟩
  | resyncWritten i f hf =>
    have hmem : f ∈ s.resyncs := List.mem_of_getElem? hf
    have hrest : { s with resyncs := s.resyncs.eraseIdx i }.Behind :=
      ⟨hs.row, hs.closes, InFlight.forall_eraseIdx i hs.resyncs⟩
    exact hrest.store (hs.resyncUpdate_stage_le hmem)
  | chainMoved info => exact hs.mono hadv.stage_le

/-- A call that saw a status no later than the one it stores undoes a step only if
another call has taken that step in between. -/
theorem not_regress_iff {α : Type} {f : InFlight α ChannelStatus} {stored v : ChannelStatus}
    (htracks : f.latest = stored) (hsaw : f.saw.stage ≤ v.stage) :
    ¬Regress stored v ↔ ∀ u ∈ f.since.getLast?, ¬Regress u v := by
  cases hlast : f.since.getLast? with
  | none =>
    have hstored : f.saw = stored := by
      rw [← htracks, InFlight.latest_of_since_nil (List.getLast?_eq_none_iff.mp hlast)]
    subst hstored
    simp only [Option.not_mem_none, false_imp_iff, implies_true, iff_true]
    exact fun h => absurd h.stage_lt hsaw.not_gt
  | some u =>
    obtain rfl : u = stored := by rw [← htracks, InFlight.latest_of_getLast? hlast]
    simp

/-- A step regresses exactly when it stores a stale status. -/
theorem not_regress_step_iff (htracks : s.Tracks) (hbehind : s.Behind)
    (h : step verifyEd25519 s a = some t) :
    ¬Regress s.row.status t.row.status ↔ FreshWrite (s, a, t) := by
  cases move_of_step h with
  | claimRefused | closeRefused | claimChecked | claimLost | claimAccepted | closeChecked
  | closeConfirmed | resyncRead | chainMoved =>
    exact iff_of_true (not_regress_self _) trivial
  | closeWritten i now f hf =>
    have hmem : f ∈ s.closes := List.mem_of_getElem? hf
    have hiff := not_regress_iff (v := .closing) (htracks.closes f hmem) (hbehind.closes f hmem).1
    show ¬Regress s.row.status .closing ↔ _
    simpa [FreshWrite, hf] using hiff
  | resyncWritten i f hf =>
    have hmem : f ∈ s.resyncs := List.mem_of_getElem? hf
    show ¬Regress s.row.status ((mappedStatus f.op.status).getD s.row.status) ↔ _
    cases hm : mappedStatus f.op.status with
    | none =>
      -- an unknown status leaves the stored one
      exact iff_of_true (not_regress_self _) (by simp [FreshWrite, hf, hm])
    | some v =>
      have hsaw : f.saw.stage ≤ v.stage := by
        rw [stage_of_mappedStatus hm]
        exact (hbehind.resyncs f hmem).1
      have hiff := not_regress_iff (htracks.resyncs f hmem) hsaw
      simpa [FreshWrite, hf, hm] using hiff

/-- While the channel on chain only moves forward, the stored status does exactly in
those runs in which no call stores a status older than another call has stored since. -/
theorem status_never_regresses_iff {row : ChannelRow} {chain : ChannelInfo} {ls : List Action}
    (hopen : row.status = .opened)
    (hchain : ∀ e ∈ trace (step verifyEd25519) (.start row chain) ls, ChainAdvances e) :
    (∀ e ∈ trace (step verifyEd25519) (.start row chain) ls,
        ¬Regress e.1.row.status e.2.2.row.status) ↔
      ∀ e ∈ trace (step verifyEd25519) (.start row chain) ls, FreshWrite e :=
  trace_forall_congr (I := fun s => s.Tracks ∧ s.Behind)
    ⟨ChannelState.tracks_start row chain, ChannelState.behind_start hopen chain⟩
    (fun _ _ _ hI hadv hs => ⟨tracks_of_step hI.1 hs, behind_of_step hI.2 hadv hs⟩)
    (fun _ _ _ hI _ hs => not_regress_step_iff hI.1 hI.2 hs) hchain

/-- A close that is confirmed, stored and found on chain by a resync. -/
def exampleClose : List Action :=
  [.close "GPAYER", .closeConfirmed 0, .closeUpdate 0 10, .resyncRead, .resyncUpdate 0]

/-- The channel only moves forward when each call stores what it saw at once. -/
theorem exampleClose_never_regresses :
    exampleRow.status = .opened ∧
      (∀ e ∈ trace (step exampleEd25519) (.start exampleRow ⟨0, .opened⟩) exampleClose,
        ChainAdvances e) ∧
      ∀ e ∈ trace (step exampleEd25519) (.start exampleRow ⟨0, .opened⟩) exampleClose,
        ¬Regress e.1.row.status e.2.2.row.status := by
  have hopen : exampleRow.status = .opened := rfl
  have hchain : ∀ e ∈ trace (step exampleEd25519) (.start exampleRow ⟨0, .opened⟩) exampleClose,
      ChainAdvances e := by
    decide +kernel
  refine ⟨hopen, hchain, (status_never_regresses_iff hopen hchain).mpr ?_⟩
  decide +kernel

/-- A resync that read the chain before a close was confirmed reopens the channel. -/
theorem status_regresses :
    (∀ e ∈ trace (step exampleEd25519) (.start exampleRow ⟨0, .opened⟩)
        [.close "GPAYER", .resyncRead, .closeConfirmed 0, .closeUpdate 0 10, .resyncUpdate 0],
        ChainAdvances e) ∧
      ∃ e ∈ trace (step exampleEd25519) (.start exampleRow ⟨0, .opened⟩)
        [.close "GPAYER", .resyncRead, .closeConfirmed 0, .closeUpdate 0 10, .resyncUpdate 0],
        e.1.row.status = .closing ∧ e.2.2.row.status = .opened := by
  constructor <;> decide +kernel

/-! ## Claims on a channel that winds down -/

/-- A claim is accepted only while the row is open. -/
def AcceptsOnlyOpen : ChannelState × Action × ChannelState → Prop
  | (s, .claimUpdate i now, _) =>
    ∀ f ∈ s.claims[i]?, ∀ w ∈ claimUpdate f.op now s.row, w.1.accepted → s.row.status = .opened
  | _ => True

/-- A claim with a fresh nonce is written only if, of the statuses stored since its
`SELECT`, the last one is `open`, or there are none. -/
def NoWindDownSince : ChannelState × Action × ChannelState → Prop
  | (s, .claimUpdate i _, _) =>
    ∀ f ∈ s.claims[i]?, isBigint f.op.nonce → s.row.pendingNonce < f.op.nonce →
      ∀ v ∈ f.since.getLast?, v = .opened
  | _ => True

/-- Every claim in flight has seen an open channel. -/
def ChannelState.SawOpen (s : ChannelState) : Prop := ∀ f ∈ s.claims, f.saw = .opened

theorem sawOpen_of_step (hs : s.SawOpen) (h : step verifyEd25519 s a = some t) : t.SawOpen := by
  cases move_of_step h with
  | claimRefused | closeRefused | closeChecked | closeConfirmed | resyncRead | chainMoved => exact hs
  | claimChecked c hpass =>
    obtain ⟨-, hopen, -⟩ := claimSelect_select_eq_passed_iff.mp hpass
    exact InFlight.forall_append_start hs hopen
  | claimLost i | claimAccepted i => exact InFlight.forall_eraseIdx i hs
  | closeWritten | resyncWritten => exact InFlight.forall_map_note hs

/-- The row is open exactly when the last status stored since the read, if any, is. -/
theorem status_eq_opened_iff {f : InFlight Claim ChannelStatus} (htracks : f.latest = s.row.status)
    (hsaw : f.saw = .opened) :
    s.row.status = .opened ↔ ∀ v ∈ f.since.getLast?, v = .opened := by
  rw [← htracks, InFlight.latest]
  cases f.since.getLast? with
  | none => simp [hsaw]
  | some v => simp

theorem acceptsOnlyOpen_step_iff (htracks : s.Tracks) (hsaw : s.SawOpen)
    (h : step verifyEd25519 s a = some t) :
    AcceptsOnlyOpen (s, a, t) ↔ NoWindDownSince (s, a, t) := by
  cases move_of_step h with
  | claimRefused | closeRefused | claimChecked | closeChecked | closeConfirmed | resyncRead
  | chainMoved | closeWritten | resyncWritten => exact Iff.rfl
  | claimLost i now f hf hlost =>
    -- neither side says anything of a claim that loses the race
    apply iff_of_true
    · rintro g hg ⟨res, row⟩ hw hacc
      obtain rfl : f = g := Option.some.inj (hf.symm.trans hg)
      exact absurd (claimUpdate_accepted hw hacc) hlost
    · intro g hg hbig hlt
      obtain rfl : f = g := Option.some.inj (hf.symm.trans hg)
      exact absurd ⟨hbig, hlt⟩ hlost
  | claimAccepted i now f hf hbig hlt =>
    have hmem : f ∈ s.claims := List.mem_of_getElem? hf
    have hiff := status_eq_opened_iff (htracks.claims f hmem) (hsaw f hmem)
    simpa [AcceptsOnlyOpen, NoWindDownSince, hf, claimUpdate_of_lt hbig hlt, hbig, hlt] using hiff

/-- Claims are accepted on open channels only, exactly in those runs in which no status
other than `open` was the last one stored between the two round trips of a claim. -/
theorem accepts_only_open_iff (verifyEd25519 : Ed25519) (row : ChannelRow) (chain : ChannelInfo)
    (ls : List Action) :
    (∀ e ∈ trace (step verifyEd25519) (.start row chain) ls, AcceptsOnlyOpen e) ↔
      ∀ e ∈ trace (step verifyEd25519) (.start row chain) ls, NoWindDownSince e :=
  trace_forall_congr (I := fun s => s.Tracks ∧ s.SawOpen) (H := fun _ => True)
    ⟨ChannelState.tracks_start row chain, by simp [ChannelState.SawOpen, ChannelState.start]⟩
    (fun _ _ _ hI _ hs => ⟨tracks_of_step hI.1 hs, sawOpen_of_step hI.2 hs⟩)
    (fun _ _ _ hI _ hs => acceptsOnlyOpen_step_iff hI.1 hI.2 hs) fun _ _ => trivial

/-- A claim whose checks ran before a close was stored is accepted after it. -/
theorem accepts_on_closing :
    ∃ s, exec (step exampleEd25519) (.start exampleRow ⟨0, .opened⟩)
        [.claim (exampleClaim 1 50000000), .close "GPAYER", .closeConfirmed 0, .closeUpdate 0 10] =
          some s ∧
      s.row.status = .closing ∧
      (step exampleEd25519 s (.claimUpdate 0 11)).isSome ∧
      claimUpdate (exampleClaim 1 50000000) 11 s.row =
        some (⟨true, none⟩, s.row.credit (exampleClaim 1 50000000) 11) :=
  ⟨_, rfl, rfl, rfl, rfl⟩

end KonfirmBackend.Channel
