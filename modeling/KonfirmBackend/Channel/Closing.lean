import KonfirmBackend.Channel.Keeper
import KonfirmBackend.Channel.Status

/-!
# Closing channels and their closing time

`closeChannel` stores the status `closing` together with the time, and the keeper
finalizes a closing channel a challenge period after that time. A resync stores the status
alone. If it is the first to store that a channel is closing, the row has no closing time
and is never due.

## Main definitions

- `ChannelRow.Finalizable` — if the channel is closing, it will be due
- `ClosesInTime` — a resync finds a channel closing only after `closeChannel` has stored so

## Main results

- `finalizable_step_iff` — when a step keeps the row finalizable
- `closing_finalizable_iff` — in which runs every closing channel can be finalized
-/

namespace KonfirmBackend.Channel

open Transition

/-- A closing row has a closing time, and the query for finalization selects it once the
challenge period after that has passed. -/
def ChannelRow.Finalizable (row : ChannelRow) : Prop :=
  row.status = .closing → ∃ closingAt, row.closingAt = some closingAt ∧
    ∀ now, closingAt + CHALLENGE_PERIOD_SECS * 1000000 ≤ now → finalizeDue now row

/-- When a resync stores `closing`, the row has a closing time already. -/
def ClosesInTime : ChannelState × Action × ChannelState → Prop
  | (s, .resyncUpdate i, _) =>
    ∀ f ∈ s.resyncs[i]?, f.op.status = .closing → s.row.closingAt.isSome
  | _ => True

instance : DecidablePred ClosesInTime := by
  rintro ⟨s, a, t⟩
  cases a with
  | resyncUpdate i =>
    exact inferInstanceAs
      (Decidable (∀ f ∈ s.resyncs[i]?, f.op.status = .closing → s.row.closingAt.isSome))
  | _ => exact inferInstanceAs (Decidable True)

variable {verifyEd25519 : Ed25519} {row : ChannelRow} {s t : ChannelState} {a : Action}

theorem ChannelRow.finalizable_iff :
    row.Finalizable ↔ (row.status = .closing → row.closingAt.isSome) := by
  constructor
  · intro h hclosing
    obtain ⟨closingAt, hsome, -⟩ := h hclosing
    simp [hsome]
  · intro h hclosing
    obtain ⟨closingAt, hsome⟩ := Option.isSome_iff_exists.mp (h hclosing)
    refine ⟨closingAt, hsome, fun now hnow => ?_⟩
    simp [finalizeDue, hclosing, hsome, hnow]

/-- A row that is not closing has nothing to finalize. -/
theorem ChannelRow.finalizable_of_ne (h : row.status ≠ .closing) : row.Finalizable :=
  fun hclosing => absurd hclosing h

/-- A row without a closing time that is closing is never due. -/
theorem not_finalizeDue (h : row.closingAt = none) (now : ℤ) : ¬finalizeDue now row := by
  simp [finalizeDue, h]

/-- What a resync makes of a finalizable row. -/
theorem finalizable_resyncUpdate_iff (info : ChannelInfo) (h : row.Finalizable) :
    (resyncUpdate info row).Finalizable ↔ (info.status = .closing → row.closingAt.isSome) := by
  rw [ChannelRow.finalizable_iff] at h ⊢
  show ((mappedStatus info.status).getD row.status = .closing → row.closingAt.isSome) ↔ _
  cases info.status with
  | other name =>
    -- the status is unknown and the stored one stays
    simpa [mappedStatus] using h
  | opened | closing | closed | held => simp [mappedStatus]

theorem finalizable_step_iff (hs : s.row.Finalizable) (h : step verifyEd25519 s a = some t) :
    t.row.Finalizable ↔ ClosesInTime (s, a, t) := by
  cases move_of_step h with
  | claimRefused | claimChecked | claimLost | claimAccepted | closeRefused | closeChecked
  | closeConfirmed | resyncRead | chainMoved => exact iff_of_true hs trivial
  | closeWritten i now =>
    apply iff_of_true
    · rw [ChannelRow.finalizable_iff]
      intro _
      rfl
    · trivial
  | resyncWritten i f hf =>
    -- the only statement that stores a status alone
    have hiff := finalizable_resyncUpdate_iff f.op hs
    show (resyncUpdate f.op s.row).Finalizable ↔ _
    rw [hiff]
    simp [ClosesInTime, hf]

/-- Every closing channel can be finalized, in every state of a run, exactly when no
resync of the run is the first to store that its channel is closing. -/
theorem closing_finalizable_iff {chain : ChannelInfo} {ls : List Action}
    (hopen : row.status = .opened) :
    (∀ e ∈ trace (step verifyEd25519) (.start row chain) ls, e.2.2.row.Finalizable) ↔
      ∀ e ∈ trace (step verifyEd25519) (.start row chain) ls, ClosesInTime e := by
  have hstart : (ChannelState.start row chain).row.Finalizable :=
    ChannelRow.finalizable_of_ne (by simp [ChannelState.start, hopen])
  exact trace_invariant_iff (I := fun s : ChannelState => s.row.Finalizable) hstart
    (fun _ _ _ hs h => finalizable_step_iff hs h) ls

/-- A close that is stored before a resync finds it on chain. -/
theorem exampleClose_finalizable :
    exampleRow.status = .opened ∧
      ∀ e ∈ trace (step exampleEd25519) (.start exampleRow ⟨0, .opened⟩) exampleClose,
        e.2.2.row.Finalizable := by
  have hopen : exampleRow.status = .opened := rfl
  refine ⟨hopen, (closing_finalizable_iff hopen).mpr ?_⟩
  decide +kernel

/-- A claim is accepted, the channel is closed, and the process dies when the close is
confirmed. A sweep then stores `closing` without a time, and no later one finds it due. -/
theorem closing_never_due :
    ∃ w ch, exec (World.step exampleEd25519) (.start [.start exampleRow ⟨0, .opened⟩])
        [.channel 0 (.claim (exampleClaim 1 50000000)), .channel 0 (.claimUpdate 0 3),
          .channel 0 (.close "GPAYER"), .channel 0 (.closeConfirmed 0), .start [0], .submit, .read,
          .write] = some w ∧
      w.channels[0]? = some ch ∧ ch.state.row.status = .closing ∧
      ∀ now, ¬finalizeDue now ch.state.row :=
  ⟨_, _, rfl, rfl, rfl, not_finalizeDue rfl⟩

end KonfirmBackend.Channel
