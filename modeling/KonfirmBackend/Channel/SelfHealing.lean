import KonfirmBackend.Channel.Claims
import KonfirmBackend.Channel.Keeper

/-!
# What a sweep heals

A row falls behind the chain when a process dies between a confirmation and its `UPDATE`,
or when a party calls the contract directly. The keeper stores what the chain says of every
row that one of its queries selects. The other rows it does not look at: an open row with
nothing to checkpoint stays as it is even when its channel is closing on chain.

## Main definitions

- `InSync` — a row agrees with its channel on chain
- `CleanSweep` — a whole sweep in which every call succeeds and nothing else runs
- `Selected` — one of the queries of a sweep selects a row
- `Healing` — what holds of all rows in the middle of a sweep

## Main results

- `Healing.submit`, `Healing.settle`, `Healing.query` — what the steps of a sweep do to it
- `healing_of_working` — the work on the rows of a query keeps it
- `sweep_heals_iff` — which rows agree with the chain after a sweep
-/

namespace KonfirmBackend.Channel

open Transition

/-- A row has the amount claimed on chain, and the status, where the database knows it. -/
def InSync (row : ChannelRow) (chain : ChannelInfo) : Prop :=
  row.claimed = chain.claimed ∧ ∀ status ∈ mappedStatus chain.status, row.status = status

instance (row : ChannelRow) (chain : ChannelInfo) : Decidable (InSync row chain) :=
  inferInstanceAs (Decidable (_ ∧ _))

/-- A row and its channel on chain. -/
def World.view (w : World) (i : ℕ) : Option (ChannelRow × ChannelInfo) :=
  (w.channels[i]?).map fun ch => (ch.state.row, ch.state.chain)

/-! ## Sweeps in which everything succeeds -/

/-- The steps of a sweep on the rows it has queried. The call that is submitted for a
channel may do to that channel what it likes. -/
def Works : World × KeeperAction × World → Prop
  | (_, .submit, _) | (_, .read, _) | (_, .write, _) => True
  | (w, .channel i (.chain _), _) => ∃ sw ∈ w.sweep, sw.progress = .submitted i
  | _ => False

variable (verifyEd25519 : Ed25519)

/-- Any number of such steps. -/
def Working : World → World → Prop :=
  Relation.ReflTransGen fun w w' => ∃ a, w.step verifyEd25519 a = some w' ∧ Works (w, a, w')

/-- A sweep from its first query to its end, with no failure and no other call in between;
`now` is the time of its second query. -/
inductive CleanSweep (w : World) (now : ℤ) (w' : World) : Prop
  | mk (w₁ w₂ w₃ w₄ w₅ w₆ : World) (order₁ order₂ order₃ : List ℕ) (later : ℤ)
      (hstart : w.step verifyEd25519 (.start order₁) = some w₁)
      (hcheckpoints : Working verifyEd25519 w₁ w₂)
      (hdue : w₂.step verifyEd25519 (.next now order₂) = some w₃)
      (hfinalize : Working verifyEd25519 w₃ w₄)
      (hclosing : w₄.step verifyEd25519 (.next later order₃) = some w₅)
      (hwatchtower : Working verifyEd25519 w₅ w₆)
      (hfinish : w₆.step verifyEd25519 .finish = some w')

/-- One of the queries selects the row. -/
def Selected (now : ℤ) (row : ChannelRow) : Bool :=
  checkpointDue row || finalizeDue now row || watchtowerDue row

/-! ## Rows in the middle of a sweep -/

/-- The row that channel `i` began the sweep with is selected. -/
def DueAt (due : ChannelRow → Bool) (v₀ : ℕ → Option (ChannelRow × ChannelInfo)) (i : ℕ) : Prop :=
  ∃ p ∈ v₀ i, due p.1

def SyncedAt (v : ℕ → Option (ChannelRow × ChannelInfo)) (i : ℕ) : Prop :=
  ∀ p ∈ v i, InSync p.1 p.2

/-- The queries so far have selected the rows that are `due`: the others have not been
touched, and each of these is still to come, at hand, or in line with the chain. -/
structure Healing (due : ChannelRow → Bool) (v₀ v : ℕ → Option (ChannelRow × ChannelInfo))
    (sw : Sweep) : Prop where
  frame : ∀ i, ¬DueAt due v₀ i → v i = v₀ i ∧ i ∉ sw.waiting.map Prod.fst ∧ i ∉ sw.progress.busy
  heal : ∀ i, DueAt due v₀ i →
    i ∈ sw.waiting.map Prod.fst ∨ i ∈ sw.progress.busy ∨ SyncedAt v i

/-- The chain's answer for the row at hand is what the chain says. -/
def World.Answered (w : World) (sw : Sweep) : Prop :=
  ∀ i, sw.progress = .answered i → ∃ ch ∈ w.channels[i]?, ∃ f ∈ ch.state.resyncs.getLast?,
    f.op = ch.state.chain

structure World.Heals (due : ChannelRow → Bool) (v₀ : ℕ → Option (ChannelRow × ChannelInfo))
    (phase : Phase) (w : World) (sw : Sweep) : Prop where
  sweep : w.sweep = some sw
  phase : sw.phase = phase
  healing : Healing due v₀ w.view sw
  answered : w.Answered sw

variable {verifyEd25519} {due : ChannelRow → Bool} {v₀ v v' : ℕ → Option (ChannelRow × ChannelInfo)}
  {sw : Sweep} {w w' : World} {i : ℕ} {phase : Phase}

theorem inSync_resyncUpdate (info : ChannelInfo) (row : ChannelRow) :
    InSync (resyncUpdate info row) info := by
  refine ⟨rfl, ?_⟩
  intro status hstatus
  show (mappedStatus info.status).getD row.status = status
  rw [Option.mem_def.mp hstatus, Option.getD_some]

/-- The next row is taken at hand. -/
theorem Healing.submit (h : Healing due v₀ v sw) (hidle : sw.progress = .idle) {row : ChannelRow}
    {rest : List (ℕ × ChannelRow)} (hwaiting : sw.waiting = (i, row) :: rest) :
    Healing due v₀ v (sw.submit i row rest) := by
  have hbusy : (sw.submit i row rest).progress.busy = some i := rfl
  have hkeys : sw.waiting.map Prod.fst = i :: rest.map Prod.fst := by rw [hwaiting]; rfl
  constructor
  · intro j hj
    obtain ⟨hsame, hnot, -⟩ := h.frame j hj
    rw [hkeys, List.mem_cons, not_or] at hnot
    refine ⟨hsame, hnot.2, ?_⟩
    rw [hbusy, Option.mem_some_iff]
    exact fun heq => hnot.1 heq.symm
  · intro j hj
    rcases h.heal j hj with hmem | hmem | hsync
    · rw [hkeys, List.mem_cons] at hmem
      rcases hmem with rfl | hmem
      · exact .inr (.inl hbusy)
      · exact .inl hmem
    · simp [hidle, Progress.busy] at hmem
    · exact .inr (.inr hsync)

/-- Whatever happens to the channel at hand. -/
theorem Healing.touch (h : Healing due v₀ v sw) (hbusy : i ∈ sw.progress.busy)
    (hother : ∀ j, i ≠ j → v' j = v j) : Healing due v₀ v' sw := by
  constructor
  · intro j hj
    obtain ⟨hsame, hnot, hfree⟩ := h.frame j hj
    have hij : i ≠ j := by
      rintro rfl
      exact hfree hbusy
    exact ⟨(hother j hij).trans hsame, hnot, hfree⟩
  · intro j hj
    by_cases hij : i = j
    · exact .inr (.inl (hij ▸ hbusy))
    · rcases h.heal j hj with hmem | hmem | hsync
      · exact .inl hmem
      · exact .inr (.inl hmem)
      · refine .inr (.inr ?_)
        rw [SyncedAt, hother j hij]
        exact hsync

/-- The sweep stays busy with the same channel. -/
theorem Healing.progress (h : Healing due v₀ v sw) {progress : Progress}
    (hbusy : progress.busy = sw.progress.busy) :
    Healing due v₀ v { sw with progress := progress } := by
  constructor
  · intro j hj
    obtain ⟨hsame, hnot, hfree⟩ := h.frame j hj
    exact ⟨hsame, hnot, by rw [hbusy]; exact hfree⟩
  · intro j hj
    show _ ∨ j ∈ progress.busy ∨ _
    rw [hbusy]
    exact h.heal j hj

/-- The channel at hand is in line with the chain, and the sweep goes on. -/
theorem Healing.settle (h : Healing due v₀ v sw) (hbusy : sw.progress.busy = some i)
    (hsync : SyncedAt v i) : Healing due v₀ v { sw with progress := .idle } := by
  constructor
  · intro j hj
    obtain ⟨hsame, hnot, -⟩ := h.frame j hj
    exact ⟨hsame, hnot, by simp [Progress.busy]⟩
  · intro j hj
    rcases h.heal j hj with hmem | hmem | hsynced
    · exact .inl hmem
    · rw [hbusy, Option.mem_some_iff] at hmem
      exact .inr (.inr (hmem ▸ hsync))
    · exact .inr (.inr hsynced)

/-- At the end of a phase. -/
theorem Healing.done (h : Healing due v₀ v sw) (hidle : sw.progress = .idle)
    (hwaiting : sw.waiting = []) :
    (∀ i, ¬DueAt due v₀ i → v i = v₀ i) ∧ ∀ i, DueAt due v₀ i → SyncedAt v i := by
  constructor
  · intro i hi
    exact (h.frame i hi).1
  · intro i hi
    rcases h.heal i hi with hmem | hmem | hsync
    · simp [hwaiting] at hmem
    · simp [hidle, Progress.busy] at hmem
    · exact hsync

theorem dueAt_or {due due' : ChannelRow → Bool} :
    DueAt (fun row => due row || due' row) v₀ i ↔ DueAt due v₀ i ∨ DueAt due' v₀ i := by
  simp only [DueAt, Bool.or_eq_true, ← exists_or, ← and_or_left]

/-- The first query of a sweep. -/
theorem Healing.start {waiting : List (ℕ × ChannelRow)}
    (hquery : ∀ i, i ∈ waiting.map Prod.fst ↔ DueAt due v i) :
    Healing due v v ⟨.checkpoints, waiting, .idle, []⟩ := by
  constructor
  · intro i hi
    exact ⟨rfl, fun hmem => hi ((hquery i).mp hmem), by simp [Progress.busy]⟩
  · intro i hi
    exact .inl ((hquery i).mpr hi)

/-- The query of the next phase adds the rows that it selects. -/
theorem Healing.query (h : Healing due v₀ v sw) (hidle : sw.progress = .idle)
    (hwaiting : sw.waiting = []) {due' : ChannelRow → Bool} {waiting : List (ℕ × ChannelRow)}
    (hquery : ∀ i, i ∈ waiting.map Prod.fst ↔ DueAt due' v i) (phase : Phase) :
    Healing (fun row => due row || due' row) v₀ v
      { sw with phase := phase, waiting := waiting } := by
  obtain ⟨hsame, hsync⟩ := h.done hidle hwaiting
  constructor
  · intro i hi
    rw [dueAt_or, not_or] at hi
    refine ⟨hsame i hi.1, ?_, by simp [hidle, Progress.busy]⟩
    rw [hquery, DueAt, hsame i hi.1]
    exact hi.2
  · intro i hi
    by_cases hdue : DueAt due v₀ i
    · exact .inr (.inr (hsync i hdue))
    · -- not touched so far, so the query has seen the row the sweep began with
      refine .inl ((hquery i).mpr ?_)
      rw [DueAt, hsame i hdue]
      exact (dueAt_or.mp hi).resolve_left hdue

/-! ## Steps of the keeper -/

theorem World.mem_capture_fst {order : List ℕ} {due : ChannelRow → Bool}
    (horder : order.Perm (w.selected due)) (i : ℕ) :
    i ∈ (w.capture order).map Prod.fst ↔ DueAt due w.view i := by
  constructor
  · intro hi
    obtain ⟨⟨j, r⟩, hmem, rfl⟩ := List.mem_map.mp hi
    obtain ⟨hj, -⟩ := World.mem_capture.mp hmem
    obtain ⟨ch, hch, hdue⟩ := World.mem_selected.mp (horder.mem_iff.mp hj)
    exact ⟨(ch.state.row, ch.state.chain), by simp [World.view, hch], hdue⟩
  · rintro ⟨p, hp, hdue⟩
    obtain ⟨ch, hch, rfl⟩ := Option.map_eq_some_iff.mp hp
    have hi : i ∈ order := horder.mem_iff.mpr (World.mem_selected.mpr ⟨ch, hch, hdue⟩)
    exact List.mem_map.mpr ⟨(i, ch.state.row), World.mem_capture.mpr ⟨hi, ch, hch, rfl⟩, rfl⟩

theorem World.view_stepChannel_of_ne {a : Action} {j : ℕ} (hij : i ≠ j)
    (h : w.stepChannel verifyEd25519 i a = some w') : w'.view j = w.view j := by
  rw [World.view, World.getElem?_stepChannel_of_ne hij h, World.view]

/-- One step of the work on the rows of a query. -/
theorem World.Heals.step {a : KeeperAction} (hw : w.Heals due v₀ phase sw)
    (h : w.step verifyEd25519 a = some w') (hworks : Works (w, a, w')) :
    ∃ sw', w'.Heals due v₀ phase sw' := by
  obtain ⟨hsweep, hphase, hhealing, hanswered⟩ := hw
  cases World.move_of_step h with
  | channel i a w' hown hchannel =>
    cases a with
    | chain info =>
      obtain ⟨sw', hsw', hprogress⟩ := hworks
      obtain rfl : sw = sw' := Option.some.inj (hsweep.symm.trans hsw')
      have hsame := World.sweep_stepChannel hchannel
      refine ⟨sw, hsame.trans hsweep, hphase, ?_, ?_⟩
      · have hbusy : i ∈ sw.progress.busy := by simp [hprogress, Progress.busy]
        exact hhealing.touch hbusy fun j hij => World.view_stepChannel_of_ne hij hchannel
      · intro j hj
        rw [hprogress] at hj
        cases hj
    | _ => exact hworks.elim
  | submit sw' i row rest hsw' hidle hwaiting =>
    obtain rfl : sw = sw' := Option.some.inj (hsweep.symm.trans hsw')
    refine ⟨sw.submit i row rest, rfl, hphase, hhealing.submit hidle hwaiting, ?_⟩
    intro j hj
    cases hj
  | read sw' i w₁ hsw' hprogress hread =>
    obtain rfl : sw = sw' := Option.some.inj (hsweep.symm.trans hsw')
    obtain ⟨ch, t, hch, ht, hget⟩ := World.getElem?_stepChannel hread
    have hbusy : i ∈ sw.progress.busy := by simp [hprogress, Progress.busy]
    refine ⟨{ sw with progress := .answered i }, rfl, hphase, ?_, ?_⟩
    · have htouched : Healing due v₀ w₁.view sw :=
        hhealing.touch hbusy fun j hij => World.view_stepChannel_of_ne hij hread
      apply htouched.progress
      rw [hprogress]
      rfl
    · rintro j ⟨⟩
      cases Channel.move_of_step ht with
      | resyncRead =>
        exact ⟨_, hget, .start ch.state.chain ch.state.row.status, by simp [Watched.next], rfl⟩
  | write sw' i w₁ hsw' hprogress hwrite =>
    obtain rfl : sw = sw' := Option.some.inj (hsweep.symm.trans hsw')
    obtain ⟨ch, t, hch, ht, hget⟩ := World.getElem?_stepChannel hwrite
    have hbusy : sw.progress.busy = some i := by simp [hprogress, Progress.busy]
    refine ⟨{ sw with progress := .idle }, rfl, hphase, ?_, ?_⟩
    · have htouched : Healing due v₀ w₁.view sw :=
        hhealing.touch hbusy fun j hij => World.view_stepChannel_of_ne hij hwrite
      apply htouched.settle hbusy
      -- the answer at hand is the chain's, so storing it brings the row in line
      obtain ⟨ch', hch', f, hf, hop⟩ := hanswered i hprogress
      obtain rfl : ch = ch' := Option.some.inj (hch.symm.trans hch')
      have hlast : w.lastResync i = ch.state.resyncs.length - 1 := by simp [World.lastResync, hch]
      have hat : ch.state.resyncs[w.lastResync i]? = some f := by
        rw [hlast, ← List.getLast?_eq_getElem?]
        exact hf
      intro p hp
      cases Channel.move_of_step ht with
      | resyncWritten k g hg =>
        obtain rfl : f = g := Option.some.inj (hat.symm.trans hg)
        rw [World.view, hget, Option.map_some, Option.mem_some_iff] at hp
        subst hp
        show InSync (resyncUpdate f.op ch.state.row) ch.state.chain
        rw [← hop]
        exact inSync_resyncUpdate f.op ch.state.row
    · intro j hj
      cases hj
  | opened | start | skip | finalize | watchtower | finish | abort => exact hworks.elim

/-- The work on the rows of a query. -/
theorem healing_of_working (hw : ∃ sw, w.Heals due v₀ phase sw) (h : Working verifyEd25519 w w') :
    ∃ sw, w'.Heals due v₀ phase sw := by
  induction h with
  | refl => exact hw
  | tail _ hstep ih =>
    obtain ⟨sw, hsw⟩ := ih
    obtain ⟨a, ha, hworks⟩ := hstep
    exact hsw.step ha hworks

theorem World.heals_start {order : List ℕ} (h : w.step verifyEd25519 (.start order) = some w') :
    ∃ sw, w'.Heals checkpointDue w.view .checkpoints sw := by
  cases World.move_of_step h with
  | start order hnone horder =>
    refine ⟨_, rfl, rfl, ?_, ?_⟩
    · have hview : World.view ⟨w.channels.map fun ch => .start ch.state,
          some ⟨.checkpoints, w.capture order, .idle, []⟩⟩ = w.view := by
        funext i
        cases hi : w.channels[i]? with
        | none => simp [World.view, hi]
        | some ch => simp [World.view, hi, Watched.start]
      rw [hview]
      exact .start (World.mem_capture_fst horder)
    · intro i hi
      cases hi

/-- The query of the next phase. -/
theorem World.Heals.enter (hw : w.Heals due v₀ phase sw) (hidle : sw.progress = .idle)
    (hwaiting : sw.waiting = []) {due' : ChannelRow → Bool} {order : List ℕ}
    (horder : order.Perm (w.selected due')) (phase' : Phase) :
    World.Heals (fun row => due row || due' row) v₀ phase'
      { w with sweep := some { sw with phase := phase', waiting := w.capture order } }
      { sw with phase := phase', waiting := w.capture order } where
  sweep := rfl
  phase := rfl
  healing := hw.healing.query hidle hwaiting (World.mem_capture_fst horder) phase'
  answered := by
    intro i hi
    cases hidle.symm.trans hi

theorem World.heals_finalize {now : ℤ} {order : List ℕ} (hw : ∃ sw, w.Heals due v₀ .checkpoints sw)
    (h : w.step verifyEd25519 (.next now order) = some w') :
    ∃ sw, w'.Heals (fun row => due row || finalizeDue now row) v₀ .finalize sw := by
  obtain ⟨sw, hw⟩ := hw
  obtain ⟨sw', hsw', hidle, hwaiting, hcases⟩ := World.next_cases h
  obtain rfl : sw = sw' := Option.some.inj (hw.sweep.symm.trans hsw')
  rcases hcases with ⟨-, horder, rfl⟩ | ⟨hphase, -, -⟩
  · exact ⟨_, hw.enter hidle hwaiting horder .finalize⟩
  · cases hw.phase.symm.trans hphase

theorem World.heals_watchtower {now : ℤ} {order : List ℕ}
    (hw : ∃ sw, w.Heals due v₀ .finalize sw)
    (h : w.step verifyEd25519 (.next now order) = some w') :
    ∃ sw, w'.Heals (fun row => due row || watchtowerDue row) v₀ .watchtower sw := by
  obtain ⟨sw, hw⟩ := hw
  obtain ⟨sw', hsw', hidle, hwaiting, hcases⟩ := World.next_cases h
  obtain rfl : sw = sw' := Option.some.inj (hw.sweep.symm.trans hsw')
  rcases hcases with ⟨hphase, -, -⟩ | ⟨-, horder, rfl⟩
  · cases hw.phase.symm.trans hphase
  · exact ⟨_, hw.enter hidle hwaiting horder .watchtower⟩

theorem World.done_of_finish (hw : ∃ sw, w.Heals due v₀ phase sw)
    (h : w.step verifyEd25519 .finish = some w') :
    (∀ i, ¬DueAt due v₀ i → w'.view i = v₀ i) ∧ ∀ i, DueAt due v₀ i → SyncedAt w'.view i := by
  obtain ⟨sw, hw⟩ := hw
  obtain ⟨sw', hsw', h⟩ := Option.bind_eq_some_iff.mp h
  obtain rfl : sw = sw' := Option.some.inj (hw.sweep.symm.trans hsw')
  split at h
  · rename_i hidle hwaiting
    cases h
    exact hw.healing.done hidle hwaiting
  · cases h

/-! ## Whole sweeps -/

/-- A sweep brings the rows that one of its queries selects in line with the chain and
does not touch the others. -/
theorem CleanSweep.done {now : ℤ} (h : CleanSweep verifyEd25519 w now w') :
    (∀ i, ¬DueAt (Selected now) w.view i → w'.view i = w.view i) ∧
      ∀ i, DueAt (Selected now) w.view i → SyncedAt w'.view i := by
  obtain ⟨w₁, w₂, w₃, w₄, w₅, w₆, order₁, order₂, order₃, later, hstart, hcheckpoints, hdue,
    hfinalize, hclosing, hwatchtower, hfinish⟩ := h
  have h₂ := healing_of_working (World.heals_start hstart) hcheckpoints
  have h₄ := healing_of_working (World.heals_finalize h₂ hdue) hfinalize
  have h₆ := healing_of_working (World.heals_watchtower h₄ hclosing) hwatchtower
  exact World.done_of_finish h₆ hfinish

/-- A sweep leaves all rows that were not closed in line with the chain exactly when each
of them was in line before or is selected. -/
theorem sweep_heals_iff {now : ℤ} (h : CleanSweep verifyEd25519 w now w') :
    (∀ i row chain row' chain', w.view i = some (row, chain) → w'.view i = some (row', chain') →
        row.status ≠ .closed → InSync row' chain') ↔
      ∀ i row chain, w.view i = some (row, chain) → row.status ≠ .closed →
        InSync row chain ∨ Selected now row := by
  obtain ⟨hframe, hheal⟩ := h.done
  have hdue : ∀ i row chain, w.view i = some (row, chain) →
      (DueAt (Selected now) w.view i ↔ Selected now row) := by
    intro i row chain hi
    simp [DueAt, hi]
  constructor
  · intro hsync i row chain hi hopen
    by_cases hselected : Selected now row
    · exact .inr hselected
    · have hsame : w'.view i = w.view i := hframe i fun hd => hselected ((hdue i row chain hi).mp hd)
      exact .inl (hsync i row chain row chain hi (hsame.trans hi) hopen)
  · intro hcond i row chain row' chain' hi hi' hopen
    by_cases hselected : Selected now row
    · exact hheal i ((hdue i row chain hi).mpr hselected) (row', chain') hi'
    · have hsame : w'.view i = w.view i := hframe i fun hd => hselected ((hdue i row chain hi).mp hd)
      obtain ⟨rfl, rfl⟩ : row = row' ∧ chain = chain' := by
        simpa [hi, hi'] using hsame.symm
      exact (hcond i row chain hi hopen).resolve_right hselected

/-- An open channel with a claim to checkpoint. -/
def exampleDue : World := .start [.start (exampleRow.credit (exampleClaim 1 50000000) 3) ⟨0, .opened⟩]

theorem exampleDue_swept : ∃ w', CleanSweep exampleEd25519 exampleDue 0 w' :=
  ⟨_, .mk _ _ _ _ _ _ [0] [] [] 0 rfl
    (.head ⟨.submit, rfl, trivial⟩ <|
      .head ⟨.channel 0 (.chain ⟨50000000, .opened⟩), rfl, _, rfl, rfl⟩ <|
      .head ⟨.read, rfl, trivial⟩ <| .single ⟨.write, rfl, trivial⟩)
    rfl .refl rfl .refl rfl⟩

/-- The claim is checkpointed, and the row follows. -/
theorem exampleDue_heals :
    ∃ w', CleanSweep exampleEd25519 exampleDue 0 w' ∧
      ∀ i row chain row' chain', exampleDue.view i = some (row, chain) →
        w'.view i = some (row', chain') → row.status ≠ .closed → InSync row' chain' := by
  obtain ⟨w', hsweep⟩ := exampleDue_swept
  refine ⟨w', hsweep, (sweep_heals_iff hsweep).mpr ?_⟩
  intro i row chain hi _
  match i with
  | 0 =>
    obtain ⟨rfl, rfl⟩ := Prod.mk.inj (Option.some.inj hi)
    exact .inr rfl
  | i + 1 => cases hi

/-- The process dies when the close of a channel with nothing to checkpoint is confirmed.
A sweep changes nothing, at whatever time it runs: the row is still open. -/
theorem sweep_misses_close :
    ∃ w row chain,
      exec (World.step exampleEd25519) (.start [.start exampleRow ⟨0, .opened⟩])
        [.channel 0 (.close "GPAYER"), .channel 0 (.closeConfirmed 0)] = some w ∧
      w.view 0 = some (row, chain) ∧ row.status ≠ .closed ∧ ¬InSync row chain ∧
      ∀ now, CleanSweep exampleEd25519 w now w := by
  let crashed : ChannelState :=
    { ChannelState.start exampleRow ⟨0, .closing⟩ with closes := [.start "GPAYER" .opened] }
  refine ⟨.start [crashed], exampleRow, ⟨0, .closing⟩, rfl, rfl, by decide, by decide, ?_⟩
  intro now
  exact .mk _ _ _ _ _ _ [] [] [] now rfl .refl rfl .refl rfl .refl rfl

end KonfirmBackend.Channel
