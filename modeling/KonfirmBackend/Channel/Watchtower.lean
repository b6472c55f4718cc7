import KonfirmBackend.Channel.Keeper
import KonfirmBackend.Channel.Claims

/-!
# Defence before finalization

A sweep checkpoints the open channels first, then finalizes the closing ones whose
challenge period is over, and defends the pending claims of closing channels last. A
claim that is pending on a channel that is due is therefore finalized away, unless the
channel was still open when the sweep began.

## Main definitions

- `FinalizesDefended` — what a submission of `finalize_close` should find
- `DefendedBefore` — what it finds is decided by the row at the sweep's first query and
  the claims stored since
- `Accounts` — what a sweep knows about the channels before its last phase

## Main results

- `inv_of_step` — every step keeps the accounts of the sweep
- `finalizes_only_defended_iff` — in which runs a finalization comes after the defence
-/

namespace KonfirmBackend.Channel

open Transition

/-- `finalize_close` is submitted for a channel only if its pending claim is within what
is claimed, or a checkpoint of it has been attempted in the same sweep. -/
def FinalizesDefended : World × KeeperAction × World → Prop
  | (w, .submit, _) =>
    ∀ sw ∈ w.sweep, sw.phase = .finalize → ∀ e ∈ sw.waiting.head?, ∀ ch ∈ w.channels[e.1]?,
      ch.state.row.pendingAmount ≤ ch.state.row.claimed ∨
        (e.1, ch.state.row.pending) ∈ sw.attempted
  | _ => True

instance : DecidablePred FinalizesDefended := by
  rintro ⟨w, a, w'⟩
  unfold FinalizesDefended
  split <;> infer_instance

/-- A channel that is finalized has seen no claim since the sweep began, and was then
without a claim to defend or due for a checkpoint; or else the last claim it has seen
since is within what is claimed. -/
def DefendedBefore : World × KeeperAction × World → Prop
  | (w, .submit, _) =>
    ∀ sw ∈ w.sweep, sw.phase = .finalize → ∀ e ∈ sw.waiting.head?, ∀ ch ∈ w.channels[e.1]?,
      match ch.seen.since.getLast? with
      | none => ch.seen.op.pendingAmount ≤ ch.seen.op.claimed ∨ checkpointDue ch.seen.op
      | some last => last.amount ≤ ch.state.row.claimed
  | _ => True

/-! ## The history of a channel -/

/-- The claims stored since the sweep began lead to the one that is pending, with higher
nonces. -/
structure Watched.Faithful (ch : Watched) : Prop where
  saw : ch.seen.saw = ch.seen.op.pending
  latest : ch.seen.latest = ch.state.row.pending
  nonce_le : ch.seen.op.pendingNonce ≤ ch.state.row.pendingNonce
  nonce_lt : ch.seen.since ≠ [] → ch.seen.op.pendingNonce < ch.state.row.pendingNonce

variable {verifyEd25519 : Ed25519} {w w' : World} {sw : Sweep}

theorem Watched.faithful_start (s : ChannelState) : (Watched.start s).Faithful where
  saw := rfl
  latest := rfl
  nonce_le := le_rfl
  nonce_lt h := absurd rfl h

/-- Only an accepted claim changes what is pending, and it raises the nonce. -/
theorem pending_of_step {s t : ChannelState} {a : Action}
    (h : step verifyEd25519 s a = some t) :
    t.row.pending = s.row.pending ∨ s.row.pendingNonce < t.row.pendingNonce := by
  cases move_of_step h with
  | claimRefused | claimChecked | claimLost | closeRefused | closeChecked | closeConfirmed
  | closeWritten | resyncRead | resyncWritten | chainMoved => exact .inl rfl
  | claimAccepted i now f hf hbig hlt => exact .inr hlt

/-- Only a resync changes what is claimed. -/
theorem claimed_of_step {s t : ChannelState} {a : Action} (h : step verifyEd25519 s a = some t)
    (ha : ∀ i, a ≠ .resyncUpdate i) : t.row.claimed = s.row.claimed := by
  cases move_of_step h with
  | claimRefused | claimChecked | claimLost | claimAccepted | closeRefused | closeChecked
  | closeConfirmed | closeWritten | resyncRead | chainMoved => rfl
  | resyncWritten i => exact absurd rfl (ha i)

theorem Watched.next_seen_op (ch : Watched) (t : ChannelState) :
    (ch.next t).seen.op = ch.seen.op := by
  by_cases hsame : t.row.pending = ch.state.row.pending
  · rw [Watched.next, if_pos hsame]
  · rw [Watched.next, if_neg hsame]
    rfl

theorem Watched.Faithful.next {ch : Watched} (hch : ch.Faithful) {t : ChannelState} {a : Action}
    (h : step verifyEd25519 ch.state a = some t) : (ch.next t).Faithful := by
  by_cases hsame : t.row.pending = ch.state.row.pending
  · have hnext : ch.next t = ⟨t, ch.seen⟩ := by simp [Watched.next, hsame]
    have hnonce : t.row.pendingNonce = ch.state.row.pendingNonce := congrArg Pending.nonce hsame
    rw [hnext]
    refine ⟨hch.saw, hch.latest.trans hsame.symm, ?_, ?_⟩
    · show ch.seen.op.pendingNonce ≤ t.row.pendingNonce
      rw [hnonce]
      exact hch.nonce_le
    · intro hne
      show ch.seen.op.pendingNonce < t.row.pendingNonce
      rw [hnonce]
      exact hch.nonce_lt hne
  · -- a claim has been stored, with a nonce above every earlier one
    have hnext : ch.next t = ⟨t, ch.seen.note t.row.pending⟩ := by simp [Watched.next, hsame]
    have hlt : ch.seen.op.pendingNonce < t.row.pendingNonce :=
      hch.nonce_le.trans_lt ((pending_of_step h).resolve_left hsame)
    rw [hnext]
    exact ⟨hch.saw, InFlight.latest_note, hlt.le, fun _ => hlt⟩

/-! ## The accounts of a sweep -/

namespace World

/-- The row that a channel had when the sweep began. -/
def seenRow (w : World) (i : ℕ) : Option ChannelRow := (w.channels[i]?).map fun ch => ch.seen.op

def claimedOf (w : World) (i : ℕ) : Option ℤ :=
  (w.channels[i]?).map fun ch => ch.state.row.claimed

end World

/-- What a sweep knows of the channels until it comes to the watchtower: it attempts the
checkpoints that were due when it began and no others, and leaves the amounts claimed of
the other channels alone until it finalizes them. -/
structure Accounts (seenRow : ℕ → Option ChannelRow) (claimedOf : ℕ → Option ℤ) (sw : Sweep) :
    Prop where
  attempted : ∀ i p, (i, p) ∈ sw.attempted → ∃ r, seenRow i = some r ∧ checkpointDue r ∧
    p = r.pending
  waiting : sw.phase = .checkpoints → ∀ i r, (i, r) ∈ sw.waiting → seenRow i = some r ∧
    checkpointDue r
  done : ∀ i r, seenRow i = some r → checkpointDue r →
    (i, r.pending) ∈ sw.attempted ∨ sw.phase = .checkpoints ∧ (i, r) ∈ sw.waiting
  kept : ∀ i r, seenRow i = some r → ¬checkpointDue r →
    (sw.phase = .checkpoints ∨ i ∈ sw.waiting.map Prod.fst) → claimedOf i = some r.claimed
  busy : ∀ i ∈ sw.progress.busy, (sw.phase = .checkpoints → ∃ p, (i, p) ∈ sw.attempted) ∧
    (sw.phase = .finalize → i ∉ sw.waiting.map Prod.fst)
  nodup : sw.phase = .finalize → (sw.waiting.map Prod.fst).Nodup

/-- The invariant of the world. -/
structure World.Inv (w : World) : Prop where
  faithful : ∀ ch ∈ w.channels, ch.Faithful
  accounts : ∀ sw ∈ w.sweep, sw.phase ≠ .watchtower → Accounts w.seenRow w.claimedOf sw

theorem World.inv_start (channels : List ChannelState) : (World.start channels).Inv := by
  constructor
  · intro ch hch
    obtain ⟨s, -, rfl⟩ := List.mem_map.mp hch
    exact Watched.faithful_start s
  · intro sw hsw
    cases hsw

/-! ### Steps of a channel -/

theorem World.faithful_stepChannel {i : ℕ} {a : Action} (hw : ∀ ch ∈ w.channels, ch.Faithful)
    (h : w.stepChannel verifyEd25519 i a = some w') : ∀ ch ∈ w'.channels, ch.Faithful :=
  World.forall_stepChannel (fun _ _ hch ht => hch.next ht) hw h

theorem World.seenRow_stepChannel {i : ℕ} {a : Action}
    (h : w.stepChannel verifyEd25519 i a = some w') : w'.seenRow = w.seenRow := by
  funext j
  exact World.map_stepChannel _ (fun ch t _ => ch.next_seen_op t) h j

/-- A step of a channel leaves the amounts claimed of the others alone. -/
theorem World.claimedOf_stepChannel_of_ne {i j : ℕ} {a : Action} (hij : i ≠ j)
    (h : w.stepChannel verifyEd25519 i a = some w') : w'.claimedOf j = w.claimedOf j := by
  rw [World.claimedOf, World.getElem?_stepChannel_of_ne hij h, World.claimedOf]

theorem World.claimedOf_stepChannel {i : ℕ} {a : Action} (ha : ∀ k, a ≠ .resyncUpdate k)
    (h : w.stepChannel verifyEd25519 i a = some w') : w'.claimedOf = w.claimedOf := by
  funext j
  exact World.map_stepChannel _ (fun _ _ ht => claimed_of_step ht ha) h j

/-! ### Steps of a sweep -/

theorem World.seenRow_eq_some {i : ℕ} {r : ChannelRow} :
    w.seenRow i = some r ↔ ∃ ch, w.channels[i]? = some ch ∧ ch.seen.op = r :=
  Option.map_eq_some_iff

section

variable {seenRow : ℕ → Option ChannelRow} {claimedOf : ℕ → Option ℤ}

/-- At its first query a sweep has attempted nothing, and waits for the rows that are due. -/
theorem accounts_start {order : List ℕ} (horder : order.Perm (w.selected checkpointDue)) :
    Accounts (fun i => (w.channels[i]?).map fun ch => ch.state.row) w.claimedOf
      ⟨.checkpoints, w.capture order, .idle, []⟩ where
  attempted i p h := absurd h List.not_mem_nil
  waiting _ i r h := by
    obtain ⟨hi, ch, hch, rfl⟩ := World.mem_capture.mp h
    obtain ⟨ch', hch', hdue⟩ := World.mem_selected.mp (horder.mem_iff.mp hi)
    obtain rfl : ch = ch' := Option.some.inj (hch.symm.trans hch')
    exact ⟨by rw [hch, Option.map_some], hdue⟩
  done i r h hdue := by
    obtain ⟨ch, hch, rfl⟩ := Option.map_eq_some_iff.mp h
    have hi : i ∈ order := horder.mem_iff.mpr (World.mem_selected.mpr ⟨ch, hch, hdue⟩)
    exact .inr ⟨rfl, World.mem_capture.mpr ⟨hi, ch, hch, rfl⟩⟩
  kept i r h _ _ := by
    obtain ⟨ch, hch, rfl⟩ := Option.map_eq_some_iff.mp h
    rw [World.claimedOf, hch, Option.map_some]
  busy i h := by simp [Progress.busy] at h
  nodup h := by cases h

/-- Submitting a checkpoint moves its row from the waiting to the attempted ones. -/
theorem Accounts.submit (hsw : Accounts seenRow claimedOf sw) (hphase : sw.phase ≠ .watchtower)
    {i : ℕ} {row : ChannelRow} {rest : List (ℕ × ChannelRow)}
    (hwaiting : sw.waiting = (i, row) :: rest) :
    Accounts seenRow claimedOf (sw.submit i row rest) := by
  have hrest : ∀ e ∈ rest, e ∈ sw.waiting := by
    intro e he
    rw [hwaiting]
    exact List.mem_cons_of_mem _ he
  have hkeys : ∀ j ∈ rest.map Prod.fst, j ∈ sw.waiting.map Prod.fst := by
    intro j hj
    rw [hwaiting]
    exact List.mem_cons_of_mem _ hj
  have hkept : ∀ j r, seenRow j = some r → ¬checkpointDue r →
      (sw.phase = .checkpoints ∨ j ∈ rest.map Prod.fst) → claimedOf j = some r.claimed := by
    intro j r hr hdue h
    apply hsw.kept j r hr hdue
    exact h.imp_right (hkeys j)
  cases hp : sw.phase with
  | watchtower => exact absurd hp hphase
  | checkpoints =>
    have hattempted : (sw.submit i row rest).attempted = sw.attempted ++ [(i, row.pending)] := by
      simp [Sweep.submit, hp]
    obtain ⟨hseen, hdue⟩ := hsw.waiting hp i row (by simp [hwaiting])
    refine ⟨?_, fun _ j r hr => hsw.waiting hp j r (hrest _ hr), ?_, hkept, ?_, ?_⟩
    · intro j p hmem
      rw [hattempted, List.mem_append, List.mem_singleton, Prod.mk.injEq] at hmem
      rcases hmem with hmem | ⟨rfl, rfl⟩
      · exact hsw.attempted j p hmem
      · exact ⟨row, hseen, hdue, rfl⟩
    · intro j r hr hduer
      rw [hattempted, List.mem_append, List.mem_singleton]
      rcases hsw.done j r hr hduer with hmem | ⟨-, hmem⟩
      · exact .inl (.inl hmem)
      · rw [hwaiting, List.mem_cons] at hmem
        rcases hmem with heq | hmem
        · obtain ⟨rfl, rfl⟩ := Prod.mk.inj heq
          exact .inl (.inr rfl)
        · exact .inr ⟨hp, hmem⟩
    · intro j hj
      obtain rfl : i = j := by simpa [Sweep.submit, Progress.busy] using hj
      constructor
      · intro _
        exact ⟨row.pending, by simp [hattempted]⟩
      · intro hfin
        rw [Sweep.submit, hp] at hfin
        cases hfin
    · intro hfin
      rw [Sweep.submit, hp] at hfin
      cases hfin
  | finalize =>
    have hattempted : (sw.submit i row rest).attempted = sw.attempted := by simp [Sweep.submit, hp]
    have hnodup := hsw.nodup hp
    rw [hwaiting, List.map_cons, List.nodup_cons] at hnodup
    have hnot : (sw.submit i row rest).phase ≠ .checkpoints := by simp [Sweep.submit, hp]
    refine ⟨?_, fun h => absurd h hnot, ?_, hkept, ?_, fun _ => hnodup.2⟩
    · rw [hattempted]
      exact hsw.attempted
    · intro j r hr hduer
      rw [hattempted]
      apply (hsw.done j r hr hduer).imp_right
      intro h
      rw [hp] at h
      cases h.1
    · intro j hj
      obtain rfl : i = j := by simpa [Sweep.submit, Progress.busy] using hj
      exact ⟨fun h => absurd h hnot, fun _ => hnodup.1⟩

/-- Between the call and the write for a channel the sweep stays busy with it. -/
theorem Accounts.answered (hsw : Accounts seenRow claimedOf sw) {i : ℕ}
    (hprogress : sw.progress = .submitted i) :
    Accounts seenRow claimedOf { sw with progress := .answered i } where
  attempted := hsw.attempted
  waiting := hsw.waiting
  done := hsw.done
  kept := hsw.kept
  busy j hj := hsw.busy j (by rw [hprogress]; exact hj)
  nodup := hsw.nodup

theorem Accounts.idle (hsw : Accounts seenRow claimedOf sw) :
    Accounts seenRow claimedOf { sw with progress := .idle } where
  attempted := hsw.attempted
  waiting := hsw.waiting
  done := hsw.done
  kept := hsw.kept
  busy j hj := by simp [Progress.busy] at hj
  nodup := hsw.nodup

/-- The resync of the channel the sweep is busy with touches no account. -/
theorem Accounts.write (hsw : Accounts seenRow claimedOf sw) (hphase : sw.phase ≠ .watchtower)
    {i : ℕ} (hbusy : i ∈ sw.progress.busy) {claimedOf' : ℕ → Option ℤ}
    (hother : ∀ j, i ≠ j → claimedOf' j = claimedOf j) : Accounts seenRow claimedOf' sw where
  attempted := hsw.attempted
  waiting := hsw.waiting
  done := hsw.done
  kept j r hr hdue h := by
    obtain ⟨hchecked, hnotWaiting⟩ := hsw.busy i hbusy
    by_cases hij : i = j
    · subst hij
      cases hp : sw.phase with
      | watchtower => exact absurd hp hphase
      | checkpoints =>
        -- a channel that is being checkpointed was due
        obtain ⟨p, hmem⟩ := hchecked hp
        obtain ⟨r', hr', hdue', -⟩ := hsw.attempted i p hmem
        obtain rfl : r = r' := Option.some.inj (hr.symm.trans hr')
        exact absurd hdue' hdue
      | finalize =>
        rcases h with h | h
        · rw [hp] at h
          cases h
        · exact absurd h (hnotWaiting hp)
    · rw [hother j hij]
      exact hsw.kept j r hr hdue h
  busy := hsw.busy
  nodup := hsw.nodup

/-- With no row left to checkpoint, all checkpoints that were due have been attempted. -/
theorem Accounts.finalize (hsw : Accounts seenRow claimedOf sw) (hp : sw.phase = .checkpoints)
    (hidle : sw.progress = .idle) (hwaiting : sw.waiting = []) {waiting : List (ℕ × ChannelRow)}
    (hnodup : (waiting.map Prod.fst).Nodup) :
    Accounts seenRow claimedOf { sw with phase := .finalize, waiting := waiting } where
  attempted := hsw.attempted
  waiting h := by cases h
  done i r hr hdue := by
    rcases hsw.done i r hr hdue with h | ⟨-, h⟩
    · exact .inl h
    · rw [hwaiting] at h
      cases h
  kept i r hr hdue _ := hsw.kept i r hr hdue (.inl hp)
  busy i hi := by simp [hidle, Progress.busy] at hi
  nodup _ := hnodup

/-- A channel that was not there before needs no checkpoint. -/
theorem Accounts.opened (hsw : Accounts seenRow claimedOf sw) {seenRow' : ℕ → Option ChannelRow}
    {claimedOf' : ℕ → Option ℤ} (hold : ∀ i r, seenRow i = some r → seenRow' i = some r)
    (hnew : ∀ i r, seenRow' i = some r → seenRow i = some r ∧ claimedOf' i = claimedOf i ∨
      ¬checkpointDue r ∧ claimedOf' i = some r.claimed) : Accounts seenRow' claimedOf' sw where
  attempted i p h := by
    obtain ⟨r, hr, hdue, rfl⟩ := hsw.attempted i p h
    exact ⟨r, hold i r hr, hdue, rfl⟩
  waiting hp i r h := (hsw.waiting hp i r h).imp_left (hold i r)
  done i r hr hdue := by
    rcases hnew i r hr with ⟨hr, -⟩ | ⟨hnot, -⟩
    · exact hsw.done i r hr hdue
    · exact absurd hdue hnot
  kept i r hr hdue h := by
    rcases hnew i r hr with ⟨hr, hc⟩ | ⟨-, hc⟩
    · rw [hc]
      exact hsw.kept i r hr hdue h
    · exact hc
  busy := hsw.busy
  nodup := hsw.nodup

end

/-- A row just inserted holds no claim to checkpoint. -/
theorem not_checkpointDue_of_fresh {row : ChannelRow} (h : row.fresh) : ¬checkpointDue row := by
  have hrow : row = _ := of_decide_eq_true h
  rw [hrow]
  simp [checkpointDue, ChannelRow.inserted]

theorem inv_of_step {a : KeeperAction} (hw : w.Inv) (h : w.step verifyEd25519 a = some w') :
    w'.Inv := by
  obtain ⟨hfaithful, haccounts⟩ := hw
  cases World.move_of_step h with
  | channel i a w' hown hchannel =>
    refine ⟨World.faithful_stepChannel hfaithful hchannel, ?_⟩
    intro sw hsw hphase
    have hsweep := World.sweep_stepChannel hchannel
    have hnotResync : ∀ k, a ≠ .resyncUpdate k := by
      rintro k rfl
      cases hown
    rw [World.seenRow_stepChannel hchannel, World.claimedOf_stepChannel hnotResync hchannel]
    exact haccounts sw (hsweep ▸ hsw) hphase
  | opened row chain hfresh =>
    constructor
    · intro ch hch
      rcases List.mem_append.mp hch with hch | hch
      · exact hfaithful ch hch
      · rw [List.mem_singleton.mp hch]
        exact Watched.faithful_start _
    · intro sw hsw hphase
      apply (haccounts sw hsw hphase).opened
      · intro i r hr
        obtain ⟨ch, hch, rfl⟩ := World.seenRow_eq_some.mp hr
        have hlt : i < w.channels.length := (List.getElem?_eq_some_iff.mp hch).1
        exact World.seenRow_eq_some.mpr ⟨ch, by rw [List.getElem?_append_left hlt, hch], rfl⟩
      · intro i r hr
        obtain ⟨ch, hch, rfl⟩ := World.seenRow_eq_some.mp hr
        rcases World.getElem?_opened hch with hold | rfl
        · left
          refine ⟨World.seenRow_eq_some.mpr ⟨ch, hold, rfl⟩, ?_⟩
          rw [World.claimedOf, World.claimedOf, hch, hold]
        · right
          refine ⟨not_checkpointDue_of_fresh hfresh, ?_⟩
          rw [World.claimedOf, hch]
          rfl
  | start order hnone horder =>
    constructor
    · intro ch hch
      obtain ⟨ch₀, -, rfl⟩ := List.mem_map.mp hch
      exact Watched.faithful_start _
    · rintro sw ⟨⟩ -
      have hstart := accounts_start horder
      convert hstart using 1
      · funext i
        simp [World.seenRow, Watched.start, Function.comp_def]
      · funext i
        simp [World.claimedOf, Watched.start, Function.comp_def]
  | submit sw i row rest hsw hidle hwaiting =>
    refine ⟨hfaithful, ?_⟩
    rintro sw' ⟨⟩ hphase
    exact (haccounts sw hsw hphase).submit hphase hwaiting
  | read sw i w₁ hsw hprogress hread =>
    have hfaithful' := World.faithful_stepChannel hfaithful hread
    refine ⟨hfaithful', ?_⟩
    rintro sw' ⟨⟩ hphase
    show Accounts w₁.seenRow w₁.claimedOf _
    rw [World.seenRow_stepChannel hread, World.claimedOf_stepChannel (by simp) hread]
    exact (haccounts sw hsw hphase).answered hprogress
  | write sw i w₁ hsw hprogress hwrite =>
    have hfaithful' := World.faithful_stepChannel hfaithful hwrite
    refine ⟨hfaithful', ?_⟩
    rintro sw' ⟨⟩ hphase
    show Accounts w₁.seenRow w₁.claimedOf _
    rw [World.seenRow_stepChannel hwrite]
    have hbusy : i ∈ sw.progress.busy := by simp [hprogress, Progress.busy]
    exact ((haccounts sw hsw hphase).write hphase hbusy fun j hij =>
      World.claimedOf_stepChannel_of_ne hij hwrite).idle
  | skip sw hsw =>
    refine ⟨hfaithful, ?_⟩
    rintro sw' ⟨⟩ hphase
    exact (haccounts sw hsw hphase).idle
  | finalize sw now order hsw hp hidle hwaiting horder =>
    refine ⟨hfaithful, ?_⟩
    rintro sw' ⟨⟩ -
    have hnodup : order.Nodup := horder.nodup_iff.mpr (w.nodup_selected _)
    have hphase : sw.phase ≠ .watchtower := by simp [hp]
    exact (haccounts sw hsw hphase).finalize hp hidle hwaiting (World.nodup_capture hnodup)
  | watchtower sw now order hsw =>
    refine ⟨hfaithful, ?_⟩
    rintro sw' ⟨⟩ hphase
    exact absurd rfl hphase
  | finish | abort => exact ⟨hfaithful, by simp⟩

/-! ## Finalizations -/

/-- When a channel is finalized, its pending claim is within what is claimed or has been
attempted exactly when that follows from the row the sweep began with and from the last
claim stored since. -/
theorem defended_iff {ch : Watched} {i : ℕ} (hch : ch.Faithful)
    (hsw : Accounts w.seenRow w.claimedOf sw) (hphase : sw.phase = .finalize)
    (hi : w.channels[i]? = some ch) (hwaiting : i ∈ sw.waiting.map Prod.fst) :
    (ch.state.row.pendingAmount ≤ ch.state.row.claimed ∨
        (i, ch.state.row.pending) ∈ sw.attempted) ↔
      match ch.seen.since.getLast? with
      | none => ch.seen.op.pendingAmount ≤ ch.seen.op.claimed ∨ checkpointDue ch.seen.op
      | some last => last.amount ≤ ch.state.row.claimed := by
  have hseen : w.seenRow i = some ch.seen.op := World.seenRow_eq_some.mpr ⟨ch, hi, rfl⟩
  -- what was attempted for this channel is the claim it had when the sweep began
  have hattempted : ∀ p, (i, p) ∈ sw.attempted → checkpointDue ch.seen.op ∧
      p = ch.seen.op.pending := by
    intro p hp
    obtain ⟨r, hr, hdue, hpend⟩ := hsw.attempted i p hp
    obtain rfl : ch.seen.op = r := Option.some.inj (hseen.symm.trans hr)
    exact ⟨hdue, hpend⟩
  cases hlast : ch.seen.since.getLast? with
  | none =>
    have hnil : ch.seen.since = [] := List.getLast?_eq_none_iff.mp hlast
    have hpending : ch.state.row.pending = ch.seen.op.pending := by
      rw [← hch.latest, InFlight.latest_of_since_nil hnil, hch.saw]
    have hamount : ch.state.row.pendingAmount = ch.seen.op.pendingAmount :=
      congrArg Pending.amount hpending
    by_cases hdue : checkpointDue ch.seen.op
    · have hmem : (i, ch.seen.op.pending) ∈ sw.attempted := by
        rcases hsw.done i _ hseen hdue with hmem | ⟨hp, -⟩
        · exact hmem
        · rw [hphase] at hp
          cases hp
      rw [hpending]
      exact iff_of_true (.inr hmem) (.inr hdue)
    · -- not due at the first query: nothing attempted, and nothing resynced so far
      have hclaimed : ch.state.row.claimed = ch.seen.op.claimed := by
        have hkept := hsw.kept i _ hseen hdue (.inr hwaiting)
        rw [World.claimedOf, hi, Option.map_some] at hkept
        exact Option.some.inj hkept
      rw [hamount, hclaimed]
      exact or_congr_right (iff_of_false (fun hmem => hdue (hattempted _ hmem).1) hdue)
  | some last =>
    have hpending : last = ch.state.row.pending := by
      rw [← hch.latest, InFlight.latest_of_getLast? hlast]
    have hnot : (i, ch.state.row.pending) ∉ sw.attempted := by
      intro hmem
      have hnonce : ch.state.row.pendingNonce = ch.seen.op.pendingNonce :=
        congrArg Pending.nonce (hattempted _ hmem).2
      have hlt : ch.seen.op.pendingNonce < ch.state.row.pendingNonce :=
        hch.nonce_lt fun hnil => by simp [hnil] at hlast
      exact hlt.ne' hnonce
    subst hpending
    exact or_iff_left hnot

theorem finalizesDefended_step_iff {a : KeeperAction} (hw : w.Inv)
    (h : w.step verifyEd25519 a = some w') :
    FinalizesDefended (w, a, w') ↔ DefendedBefore (w, a, w') := by
  cases World.move_of_step h with
  | channel | opened | start | read | write | skip | finalize | watchtower | finish | abort =>
    exact Iff.rfl
  | submit sw i row rest hsw hidle hwaiting =>
    -- both say something of the channel at the head of the queue
    apply forall₂_congr
    intro sw' hsw'
    apply forall_congr'
    intro hphase
    apply forall₂_congr
    intro e he
    apply forall₂_congr
    intro ch hch
    have haccounts := hw.accounts sw' hsw' (by simp [hphase])
    have hmem : e ∈ sw'.waiting := List.mem_of_mem_head? he
    exact defended_iff (hw.faithful ch (List.mem_of_getElem? hch)) haccounts hphase hch
      (List.mem_map_of_mem hmem)

/-- The keeper defends before it finalizes exactly in those runs in which every channel
it finalizes was open or without a claim to defend when the sweep began, or has since
taken a claim within what is claimed. -/
theorem finalizes_only_defended_iff (verifyEd25519 : Ed25519) (channels : List ChannelState)
    (ls : List KeeperAction) :
    (∀ e ∈ trace (World.step verifyEd25519) (.start channels) ls, FinalizesDefended e) ↔
      ∀ e ∈ trace (World.step verifyEd25519) (.start channels) ls, DefendedBefore e :=
  trace_forall_congr (I := World.Inv) (H := fun _ => True) (World.inv_start channels)
    (fun _ _ _ hw _ hs => inv_of_step hw hs)
    (fun _ _ _ hw _ hs => finalizesDefended_step_iff hw hs) fun _ _ => trivial

/-- A claim of 5 USDC, a close of the channel, and a day without sweeps. -/
def exampleMissedSweeps : List KeeperAction :=
  [.channel 0 (.claim (exampleClaim 1 50000000)), .channel 0 (.claimUpdate 0 1000000),
    .channel 0 (.close "GPAYER"), .channel 0 (.closeConfirmed 0),
    .channel 0 (.closeUpdate 0 2000000),
    .start [], .next 86402000000 [0]]

/-- The first sweep after that finalizes the channel with the claim neither claimed nor
attempted. -/
theorem finalizes_undefended :
    ∃ w w', exec (World.step exampleEd25519) (.start [.start exampleRow ⟨0, .opened⟩])
        exampleMissedSweeps = some w ∧
      w.step exampleEd25519 .submit = some w' ∧ ¬FinalizesDefended (w, .submit, w') :=
  ⟨_, _, rfl, rfl, by decide⟩

end KonfirmBackend.Channel
