import KonfirmBackend.Channel.System

/-!
# The channel keeper

All rows of `x402_channels` with the calls on them, and the sweep that the keeper runs
over them. A sweep holds an advisory lock, so there is at most one. It has three phases;
each queries the rows it is concerned with and then, one row after the other, submits a
call to the contract and resyncs the row. The calls of clients go on in between. A sweep
may die at any point, and what a submission does on chain is up to the chain.

## Main definitions

- `checkpointDue`, `finalizeDue`, `watchtowerDue` — the `WHERE` clauses of the phases
- `World` — the channels and the running sweep
- `World.step` — one step of a call, of the sweep or of the chain

## Main results

- `World.move_of_step` — every step is one of the cases
-/

namespace KonfirmBackend.Channel

open Transition

def CHALLENGE_PERIOD_SECS : ℤ := 86400

/-- The query of `sweepCheckpointsDue`. -/
def checkpointDue (row : ChannelRow) : Bool :=
  row.status = .opened && row.pendingAmount > row.claimed && row.pendingSignature.isSome

/-- The query of `sweepFinalizeDue`; times are in microseconds. -/
def finalizeDue (now : ℤ) (row : ChannelRow) : Bool :=
  row.status = .closing &&
    row.closingAt.any fun closingAt => closingAt + CHALLENGE_PERIOD_SECS * 1000000 ≤ now

/-- The query of `sweepWatchtower`. -/
def watchtowerDue (row : ChannelRow) : Bool :=
  row.status = .closing && row.pendingAmount > row.claimed && row.pendingSignature.isSome

/-- The claim a row holds for the next checkpoint. -/
structure Pending where
  amount : ℤ
  nonce : ℤ
  signature : Option (List UInt8)
deriving DecidableEq

def ChannelRow.pending (row : ChannelRow) : Pending :=
  ⟨row.pendingAmount, row.pendingNonce, row.pendingSignature⟩

/-- A channel, with the row it had at the first query of the sweep (or when it was
inserted) and the claims stored in it since. -/
structure Watched where
  state : ChannelState
  seen : InFlight ChannelRow Pending
deriving DecidableEq

namespace Watched

def start (state : ChannelState) : Watched := ⟨state, .start state.row state.row.pending⟩

/-- The channel moves to `t`. -/
def next (ch : Watched) (t : ChannelState) : Watched where
  state := t
  seen := if t.row.pending = ch.state.row.pending then ch.seen else ch.seen.note t.row.pending

end Watched

inductive Phase
  | checkpoints
  | finalize
  | watchtower
deriving DecidableEq

/-- Where a phase is: between two rows, or with the call for a channel submitted, or
with the chain's answer for its resync at hand. -/
inductive Progress
  | idle
  | submitted (i : ℕ)
  | answered (i : ℕ)
deriving DecidableEq

/-- The channel a phase is at. -/
def Progress.busy : Progress → Option ℕ
  | .idle => none
  | .submitted i | .answered i => some i

/-- A running sweep. `waiting` holds the rows its phase has queried and not yet come to,
`attempted` the claims that it has submitted a checkpoint for. -/
structure Sweep where
  phase : Phase
  waiting : List (ℕ × ChannelRow)
  progress : Progress
  attempted : List (ℕ × Pending)
deriving DecidableEq

structure World where
  channels : List Watched
  sweep : Option Sweep
deriving DecidableEq

inductive KeeperAction
  /-- a step of a client's call, or of the chain -/
  | channel (i : ℕ) (a : Action)
  /-- `openChannel` inserts a row -/
  | opened (row : ChannelRow) (chain : ChannelInfo)
  /-- the lock and the first query, which returns the rows in this order -/
  | start (order : List ℕ)
  /-- `checkpointChannel` or `finalizeCloseChannel` for the next row, however it ends -/
  | submit
  /-- `getChannelInfoOnChain` answers -/
  | read
  /-- the `UPDATE` of `resyncFromChain` -/
  | write
  /-- the resync fails, which is only logged -/
  | skip
  /-- the query of the next phase -/
  | next (now : ℤ) (order : List ℕ)
  | finish
  /-- a query fails, or the process dies -/
  | abort
deriving DecidableEq

/-- The steps that only the keeper takes. -/
def Action.ofKeeper : Action → Bool
  | .resyncRead | .resyncUpdate _ => true
  | _ => false

/-- A row as `openChannel` inserts it. -/
def ChannelRow.fresh (row : ChannelRow) : Bool :=
  row = .inserted row.onchainChannelId row.payerAddress row.payeeAddress row.assetContract
    row.payerPubkey row.deposited row.resourceUrl row.lastActivityAt

/-- The call for `row` is submitted; a checkpoint submits the claim the row was read with. -/
def Sweep.submit (sw : Sweep) (i : ℕ) (row : ChannelRow) (rest : List (ℕ × ChannelRow)) :
    Sweep where
  phase := sw.phase
  waiting := rest
  progress := .submitted i
  attempted := if sw.phase = .finalize then sw.attempted else sw.attempted ++ [(i, row.pending)]

namespace World

/-- No sweep is running. -/
def start (channels : List ChannelState) : World := ⟨channels.map .start, none⟩

/-- The channels that a query selects. -/
def selected (w : World) (due : ChannelRow → Bool) : List ℕ :=
  (List.range w.channels.length).filter fun i => (w.channels[i]?).any fun ch => due ch.state.row

/-- The rows in a query's result. -/
def capture (w : World) (order : List ℕ) : List (ℕ × ChannelRow) :=
  order.filterMap fun i => (w.channels[i]?).map fun ch => (i, ch.state.row)

/-- The sweep goes on to a phase with its query. -/
def enter (w : World) (sw : Sweep) (phase : Phase) (due : ChannelRow → Bool) (order : List ℕ) :
    Option World :=
  if order.Perm (w.selected due) then
    some { w with sweep := some { sw with phase := phase, waiting := w.capture order } }
  else none

/-- The resync that the keeper has just read is the last one in flight on its channel. -/
def lastResync (w : World) (i : ℕ) : ℕ :=
  ((w.channels[i]?).map fun ch => ch.state.resyncs.length - 1).getD 0

variable (verifyEd25519 : Ed25519)

/-- A step of one channel. -/
def stepChannel (w : World) (i : ℕ) (a : Action) : Option World :=
  (w.channels[i]?).bind fun ch =>
    (Channel.step verifyEd25519 ch.state a).map fun t =>
      { w with channels := w.channels.set i (ch.next t) }

def step (w : World) : KeeperAction → Option World
  | .channel i a => if a.ofKeeper then none else w.stepChannel verifyEd25519 i a
  | .opened row chain =>
    if row.fresh ∧ ∀ ch ∈ w.channels, ch.state.row.onchainChannelId ≠ row.onchainChannelId then
      some { w with channels := w.channels ++ [.start (.start row chain)] }
    else none
  | .start order =>
    if w.sweep = none ∧ order.Perm (w.selected checkpointDue) then
      some ⟨w.channels.map fun ch => .start ch.state,
        some ⟨.checkpoints, w.capture order, .idle, []⟩⟩
    else none
  | .submit =>
    w.sweep.bind fun sw =>
      match sw.progress, sw.waiting with
      | .idle, (i, row) :: rest => some { w with sweep := some (sw.submit i row rest) }
      | _, _ => none
  | .read =>
    w.sweep.bind fun sw =>
      match sw.progress with
      | .submitted i => (w.stepChannel verifyEd25519 i .resyncRead).map fun w' =>
          { w' with sweep := some { sw with progress := .answered i } }
      | _ => none
  | .write =>
    w.sweep.bind fun sw =>
      match sw.progress with
      | .answered i =>
        (w.stepChannel verifyEd25519 i (.resyncUpdate (w.lastResync i))).map fun w' =>
          { w' with sweep := some { sw with progress := .idle } }
      | _ => none
  | .skip =>
    w.sweep.bind fun sw =>
      if sw.progress.busy.isSome then
        some { w with sweep := some { sw with progress := .idle } }
      else none
  | .next now order =>
    w.sweep.bind fun sw =>
      match sw.phase, sw.progress, sw.waiting with
      | .checkpoints, .idle, [] => w.enter sw .finalize (finalizeDue now) order
      | .finalize, .idle, [] => w.enter sw .watchtower watchtowerDue order
      | _, _, _ => none
  | .finish =>
    w.sweep.bind fun sw =>
      match sw.phase, sw.progress, sw.waiting with
      | .watchtower, .idle, [] => some { w with sweep := none }
      | _, _, _ => none
  | .abort => w.sweep.map fun _ => { w with sweep := none }

/-- The steps of the world, one constructor for each kind. -/
inductive Move (w : World) : KeeperAction → World → Prop
  | channel (i : ℕ) (a : Action) (w' : World) (hown : a.ofKeeper = false)
      (h : w.stepChannel verifyEd25519 i a = some w') : Move w (.channel i a) w'
  | opened (row : ChannelRow) (chain : ChannelInfo) (hfresh : row.fresh) :
      Move w (.opened row chain) { w with channels := w.channels ++ [.start (.start row chain)] }
  | start (order : List ℕ) (hnone : w.sweep = none)
      (horder : order.Perm (w.selected checkpointDue)) :
      Move w (.start order) ⟨w.channels.map fun ch => .start ch.state,
        some ⟨.checkpoints, w.capture order, .idle, []⟩⟩
  | submit (sw : Sweep) (i : ℕ) (row : ChannelRow) (rest : List (ℕ × ChannelRow))
      (hsw : w.sweep = some sw) (hidle : sw.progress = .idle)
      (hwaiting : sw.waiting = (i, row) :: rest) :
      Move w .submit { w with sweep := some (sw.submit i row rest) }
  | read (sw : Sweep) (i : ℕ) (w' : World) (hsw : w.sweep = some sw)
      (hprogress : sw.progress = .submitted i)
      (h : w.stepChannel verifyEd25519 i .resyncRead = some w') :
      Move w .read { w' with sweep := some { sw with progress := .answered i } }
  | write (sw : Sweep) (i : ℕ) (w' : World) (hsw : w.sweep = some sw)
      (hprogress : sw.progress = .answered i)
      (h : w.stepChannel verifyEd25519 i (.resyncUpdate (w.lastResync i)) = some w') :
      Move w .write { w' with sweep := some { sw with progress := .idle } }
  | skip (sw : Sweep) (hsw : w.sweep = some sw) :
      Move w .skip { w with sweep := some { sw with progress := .idle } }
  | finalize (sw : Sweep) (now : ℤ) (order : List ℕ) (hsw : w.sweep = some sw)
      (hphase : sw.phase = .checkpoints) (hidle : sw.progress = .idle) (hwaiting : sw.waiting = [])
      (horder : order.Perm (w.selected (finalizeDue now))) :
      Move w (.next now order)
        { w with sweep := some { sw with phase := .finalize, waiting := w.capture order } }
  | watchtower (sw : Sweep) (now : ℤ) (order : List ℕ) (hsw : w.sweep = some sw) :
      Move w (.next now order)
        { w with sweep := some { sw with phase := .watchtower, waiting := w.capture order } }
  | finish : Move w .finish { w with sweep := none }
  | abort : Move w .abort { w with sweep := none }

end World

variable {verifyEd25519 : Ed25519} {w w' : World}

theorem World.stepChannel_eq_some {i : ℕ} {a : Action}
    (h : w.stepChannel verifyEd25519 i a = some w') :
    ∃ ch t, w.channels[i]? = some ch ∧ Channel.step verifyEd25519 ch.state a = some t ∧
      w' = { w with channels := w.channels.set i (ch.next t) } := by
  obtain ⟨ch, hch, h⟩ := Option.bind_eq_some_iff.mp h
  obtain ⟨t, ht, rfl⟩ := Option.map_eq_some_iff.mp h
  exact ⟨ch, t, hch, ht, rfl⟩

theorem World.sweep_stepChannel {i : ℕ} {a : Action}
    (h : w.stepChannel verifyEd25519 i a = some w') : w'.sweep = w.sweep := by
  obtain ⟨ch, t, -, -, rfl⟩ := World.stepChannel_eq_some h
  rfl

/-- The channel that takes the step. -/
theorem World.getElem?_stepChannel {i : ℕ} {a : Action}
    (h : w.stepChannel verifyEd25519 i a = some w') :
    ∃ ch t, w.channels[i]? = some ch ∧ Channel.step verifyEd25519 ch.state a = some t ∧
      w'.channels[i]? = some (ch.next t) := by
  obtain ⟨ch, t, hch, ht, rfl⟩ := World.stepChannel_eq_some h
  obtain ⟨hlt, -⟩ := List.getElem?_eq_some_iff.mp hch
  exact ⟨ch, t, hch, ht, by simp [hlt]⟩

/-- The other channels. -/
theorem World.getElem?_stepChannel_of_ne {i j : ℕ} {a : Action} (hij : i ≠ j)
    (h : w.stepChannel verifyEd25519 i a = some w') : w'.channels[j]? = w.channels[j]? := by
  obtain ⟨ch, t, -, -, rfl⟩ := World.stepChannel_eq_some h
  exact List.getElem?_set_ne hij

/-- What no step of the kind changes about its channel is the same of all channels. -/
theorem World.map_stepChannel {β : Type*} (f : Watched → β) {i : ℕ} {a : Action}
    (hf : ∀ ch t, Channel.step verifyEd25519 ch.state a = some t → f (ch.next t) = f ch)
    (h : w.stepChannel verifyEd25519 i a = some w') (j : ℕ) :
    (w'.channels[j]?).map f = (w.channels[j]?).map f := by
  by_cases hij : i = j
  · subst hij
    obtain ⟨ch, t, hch, ht, hget⟩ := World.getElem?_stepChannel h
    rw [hget, hch, Option.map_some, Option.map_some, hf ch t ht]
  · rw [World.getElem?_stepChannel_of_ne hij h]

/-- What a step keeps of its channel holds of all channels if it did. -/
theorem World.forall_stepChannel {P : Watched → Prop} {i : ℕ} {a : Action}
    (hP : ∀ ch t, P ch → Channel.step verifyEd25519 ch.state a = some t → P (ch.next t))
    (hw : ∀ ch ∈ w.channels, P ch) (h : w.stepChannel verifyEd25519 i a = some w') :
    ∀ ch ∈ w'.channels, P ch := by
  obtain ⟨ch, t, hch, ht, rfl⟩ := World.stepChannel_eq_some h
  intro ch' hmem
  rcases List.mem_or_eq_of_mem_set hmem with hmem | rfl
  · exact hw ch' hmem
  · exact hP ch t (hw ch (List.mem_of_getElem? hch)) ht

/-- A new channel comes after the others. -/
theorem World.getElem?_opened {ch ch₁ : Watched} {i : ℕ}
    (h : (w.channels ++ [ch₁])[i]? = some ch) : w.channels[i]? = some ch ∨ ch = ch₁ := by
  by_cases hlt : i < w.channels.length
  · rw [List.getElem?_append_left hlt] at h
    exact .inl h
  · rw [List.getElem?_append_right (not_lt.mp hlt)] at h
    exact .inr (List.mem_singleton.mp (List.mem_of_getElem? h))

theorem World.enter_eq_some {sw : Sweep} {phase : Phase} {due : ChannelRow → Bool}
    {order : List ℕ} (h : w.enter sw phase due order = some w') :
    order.Perm (w.selected due) ∧
      w' = { w with sweep := some { sw with phase := phase, waiting := w.capture order } } := by
  by_cases horder : order.Perm (w.selected due)
  · rw [World.enter, if_pos horder] at h
    cases h
    exact ⟨horder, rfl⟩
  · rw [World.enter, if_neg horder] at h
    cases h

/-- Every step is one of the cases. -/
theorem World.move_of_step {a : KeeperAction} (h : w.step verifyEd25519 a = some w') :
    World.Move verifyEd25519 w a w' := by
  cases a with
  | channel i a =>
    simp only [World.step] at h
    split at h
    · cases h
    · exact .channel i a w' (by simpa using ‹¬a.ofKeeper = true›) h
  | opened row chain =>
    simp only [World.step] at h
    split at h
    · rename_i hnew
      cases h
      exact .opened row chain hnew.1
    · cases h
  | start order =>
    simp only [World.step] at h
    split at h
    · rename_i hfree
      cases h
      exact .start order hfree.1 hfree.2
    · cases h
  | submit =>
    obtain ⟨sw, hsw, h⟩ := Option.bind_eq_some_iff.mp h
    split at h
    · cases h
      exact .submit sw _ _ _ hsw ‹_› ‹_›
    · cases h
  | read =>
    obtain ⟨sw, hsw, h⟩ := Option.bind_eq_some_iff.mp h
    split at h
    · obtain ⟨w₁, hw₁, rfl⟩ := Option.map_eq_some_iff.mp h
      exact .read sw _ w₁ hsw ‹_› hw₁
    · cases h
  | write =>
    obtain ⟨sw, hsw, h⟩ := Option.bind_eq_some_iff.mp h
    split at h
    · obtain ⟨w₁, hw₁, rfl⟩ := Option.map_eq_some_iff.mp h
      exact .write sw _ w₁ hsw ‹_› hw₁
    · cases h
  | skip =>
    obtain ⟨sw, hsw, h⟩ := Option.bind_eq_some_iff.mp h
    split at h
    · cases h
      exact .skip sw hsw
    · cases h
  | next now order =>
    obtain ⟨sw, hsw, h⟩ := Option.bind_eq_some_iff.mp h
    split at h
    · obtain ⟨horder, rfl⟩ := World.enter_eq_some h
      exact .finalize sw now order hsw ‹_› ‹_› ‹_› horder
    · obtain ⟨-, rfl⟩ := World.enter_eq_some h
      exact .watchtower sw now order hsw
    · cases h
  | finish =>
    obtain ⟨sw, hsw, h⟩ := Option.bind_eq_some_iff.mp h
    split at h
    · cases h
      exact .finish
    · cases h
  | abort =>
    obtain ⟨sw, hsw, rfl⟩ := Option.map_eq_some_iff.mp h
    exact .abort

/-! ## Queries -/

theorem World.mem_selected {due : ChannelRow → Bool} {i : ℕ} :
    i ∈ w.selected due ↔ ∃ ch, w.channels[i]? = some ch ∧ due ch.state.row := by
  simp only [World.selected, List.mem_filter, List.mem_range, Option.any_eq_true]
  constructor
  · exact And.right
  · rintro ⟨ch, hch, hdue⟩
    exact ⟨(List.getElem?_eq_some_iff.mp hch).1, ch, hch, hdue⟩

theorem World.nodup_selected (w : World) (due : ChannelRow → Bool) : (w.selected due).Nodup :=
  List.nodup_range.filter _

theorem World.mem_capture {order : List ℕ} {i : ℕ} {r : ChannelRow} :
    (i, r) ∈ w.capture order ↔ i ∈ order ∧ ∃ ch, w.channels[i]? = some ch ∧ ch.state.row = r := by
  simp only [World.capture, List.mem_filterMap, Option.map_eq_some_iff, Prod.mk.injEq]
  constructor
  · rintro ⟨j, hj, ch, hch, rfl, hr⟩
    exact ⟨hj, ch, hch, hr⟩
  · rintro ⟨hi, ch, hch, hr⟩
    exact ⟨i, hi, ch, hch, rfl, hr⟩

/-- A query returns each channel once. -/
theorem World.nodup_capture {order : List ℕ} (horder : order.Nodup) :
    ((w.capture order).map Prod.fst).Nodup := by
  have hsub : ((w.capture order).map Prod.fst).Sublist order := by
    clear horder
    induction order with
    | nil => exact List.Sublist.slnil
    | cons i order ih =>
      cases hi : w.channels[i]? with
      | none => simpa [World.capture, hi] using ih.cons i
      | some ch => simpa [World.capture, hi] using ih.cons_cons i
  exact hsub.nodup horder

/-- The query of the second and of the third phase. -/
theorem World.next_cases {now : ℤ} {order : List ℕ}
    (h : w.step verifyEd25519 (.next now order) = some w') :
    ∃ sw, w.sweep = some sw ∧ sw.progress = .idle ∧ sw.waiting = [] ∧
      (sw.phase = .checkpoints ∧ order.Perm (w.selected (finalizeDue now)) ∧
          w' = { w with sweep := some { sw with phase := .finalize, waiting := w.capture order } } ∨
        sw.phase = .finalize ∧ order.Perm (w.selected watchtowerDue) ∧
          w' = { w with sweep := some { sw with phase := .watchtower, waiting := w.capture order } }) := by
  obtain ⟨sw, hsw, h⟩ := Option.bind_eq_some_iff.mp h
  split at h
  · rename_i hphase hidle hwaiting
    exact ⟨sw, hsw, hidle, hwaiting, .inl ⟨hphase, World.enter_eq_some h⟩⟩
  · rename_i hphase hidle hwaiting
    exact ⟨sw, hsw, hidle, hwaiting, .inr ⟨hphase, World.enter_eq_some h⟩⟩
  · cases h

end KonfirmBackend.Channel
