import KonfirmBackend.Common.SubmissionLine

/-!
# The submission lock is a FIFO mutex

The promises of `withFacilitatorSubmissionLock` are those of a line of calls: each step of the
code is the step of the line that it stands for. What holds of lines holds of the code.

## Main definitions

- `Line.promise` — the promises of a line
- `Line.toWorld` — the state of the code that a line stands for

## Main results

- `Line.step_toWorld` — every step of the code is a step of the line
- `withFacilitatorSubmissionLock_fifo` — the lock serves its calls one by one, in order
-/

namespace KonfirmBackend.SubmissionLock

open Promise Transition

variable {V E : Type*}

namespace Line

variable {l l' : Line V E}

/-- A promise with its outcome or else with what waits for it. -/
def stateOf (reactions : List (Reaction Ref Handler)) :
    Option (Settlement (Option V) E) → State Ref Handler (Option V) E
  | some outcome => .settled outcome
  | none => .pending reactions

/-- The promises of a line. -/
def promise (l : Line V E) : Ref → State Ref Handler (Option V) E
  | .initial => .settled (.fulfilled none)
  | .run i => stateOf (if i < l.calls then [.handle .ignore (.tail i)] else [])
      (if i < l.delivered then l.outcome i else none)
  | .tail i => stateOf
      (if i + 1 < l.calls then [.handle (.fn (i + 1)) (.run (i + 1))] else [])
      (if i < l.current then some (.fulfilled none) else none)
  | .own i => stateOf
      (bif l.phase.isAdopting && decide (i = l.current) then [.adopt (.run i)] else [])
      (l.own i)

/-- The queue that the first `n` calls leave behind. -/
def queueAfter : ℕ → Ref
  | 0 => .initial
  | n + 1 => .tail n

def heap (l : Line V E) : Heap Ref Handler (Option V) E where
  promises := l.promise
  jobs := l.phase.jobs l.current

/-- The state of the code that a line stands for. -/
def toWorld (l : Line V E) : World V E where
  heap := l.heap
  submissionQueue := queueAfter l.calls
  calls := l.calls
  executing := l.phase.onStack l.current
  ends := l.ends
  started := List.range l.startedCount

/-! ## The code is a line -/

theorem delivered_le (h : l.Sound) : l.delivered ≤ l.calls := by
  have hle := h.current_le
  unfold delivered
  cases hp : l.phase with
  | idle | queued | executing | returned | adopting | adopted => exact hle
  | passing outcome => exact h.current_lt (by simp [hp])

/-- A caller whose turn is over has the outcome of its function. -/
theorem outcome_of_lt_delivered (h : l.Sound) {i : ℕ} (hi : i < l.delivered) :
    ∃ outcome, l.outcome i = some outcome := by
  rcases Nat.lt_or_ge i l.current with hlt | hge
  · exact Option.isSome_iff_exists.mp (h.settled i hlt)
  · have hphase := h.phase
    unfold PhaseSound at hphase
    unfold delivered at hi
    cases hp : l.phase with
    | idle | queued | executing | returned | adopting | adopted =>
      rw [hp] at hi
      exact absurd hi (Nat.not_lt_of_ge hge)
    | passing outcome =>
      rw [hp] at hi hphase
      have hcur : i = l.current := Nat.le_antisymm (Nat.le_of_lt_succ hi) hge
      exact ⟨outcome, hcur ▸ hphase.2⟩

theorem promise_run_of_lt (h : l.Sound) {i : ℕ} (hi : i < l.delivered) :
    ∃ outcome, l.outcome i = some outcome ∧ l.promise (.run i) = .settled outcome := by
  obtain ⟨outcome, hout⟩ := outcome_of_lt_delivered h hi
  refine ⟨outcome, hout, ?_⟩
  rw [promise, if_pos hi, hout, stateOf]

theorem promise_run_of_ge {i : ℕ} (hi : l.delivered ≤ i) :
    l.promise (.run i) = .pending (if i < l.calls then [.handle .ignore (.tail i)] else []) := by
  rw [promise, if_neg (Nat.not_lt_of_ge hi), stateOf]

/-- The queue is ready for the next call when the line is empty, and not before. -/
theorem promise_queueAfter_of_idle (hcur : l.current = l.calls) :
    l.promise (queueAfter l.calls) = .settled (.fulfilled none) := by
  cases hcalls : l.calls with
  | zero => rfl
  | succ n =>
    rw [hcalls] at hcur
    have hserved : n < l.current := by omega
    rw [queueAfter, promise, if_pos hserved, stateOf]

theorem promise_queueAfter_of_busy (hcur : l.current < l.calls) :
    l.promise (queueAfter l.calls) = .pending [] := by
  cases hcalls : l.calls with
  | zero => omega
  | succ n =>
    have hlast : ¬n + 1 < l.calls := by omega
    have hfree : ¬n < l.current := by omega
    rw [queueAfter, promise, if_neg hlast, if_neg hfree, stateOf]

/-! One promise changes: the others of its kind, and all of the other kinds, stay. -/

theorem update_run {S : Type*} (promises : Ref → S) (i j : ℕ) (state : S) :
    Function.update promises (.run i) state (.run j) =
      if j = i then state else promises (.run j) := by
  simp only [Function.update_apply, Ref.run.injEq]

theorem update_tail {S : Type*} (promises : Ref → S) (i j : ℕ) (state : S) :
    Function.update promises (.tail i) state (.tail j) =
      if j = i then state else promises (.tail j) := by
  simp only [Function.update_apply, Ref.tail.injEq]

theorem update_own {S : Type*} (promises : Ref → S) (i j : ℕ) (state : S) :
    Function.update promises (.own i) state (.own j) =
      if j = i then state else promises (.own j) := by
  simp only [Function.update_apply, Ref.own.injEq]

/-- The promises after one more call in a line that is not empty. -/
theorem promise_call (h : l.Sound) {phase : Phase V E}
    (hpassing : phase.isPassing = l.phase.isPassing)
    (hadopting : phase.isAdopting = l.phase.isAdopting) :
    promise { l with calls := l.calls + 1, phase := phase } = fun
      | .run i => if i = l.calls then .pending [.handle .ignore (.tail l.calls)]
          else l.promise (.run i)
      | .tail i => if i + 1 = l.calls ∧ l.current ≤ i then
          .pending [.handle (.fn l.calls) (.run l.calls)] else l.promise (.tail i)
      | r => l.promise r := by
  have hdelivered := delivered_le h
  funext r
  cases r with
  | initial => rfl
  | own i => simp only [promise, hadopting]
  | run i =>
    show promise _ (.run i) = if i = l.calls then _ else _
    have hsame : delivered { l with calls := l.calls + 1, phase := phase } = l.delivered := by
      simp only [delivered, hpassing]
    by_cases hi : i = l.calls
    · subst hi
      rw [if_pos rfl, promise_run_of_ge (by rw [hsame]; exact hdelivered),
        if_pos (Nat.lt_succ_self _)]
    · rw [if_neg hi]
      rcases Nat.lt_or_ge i l.delivered with hlt | hge
      · obtain ⟨outcome, hout⟩ := outcome_of_lt_delivered h hlt
        rw [Line.outcome] at hout
        simp only [promise, hsame, hlt, if_true, Line.outcome, hout, stateOf]
      · rw [promise_run_of_ge (by rw [hsame]; exact hge), promise_run_of_ge hge]
        have hiff : i < l.calls + 1 ↔ i < l.calls := by omega
        simp only [hiff]
  | tail i =>
    show promise _ (.tail i) = if i + 1 = l.calls ∧ l.current ≤ i then _ else _
    simp only [promise]
    by_cases hcur : i < l.current
    · have hnot : ¬(i + 1 = l.calls ∧ l.current ≤ i) := by omega
      simp only [hcur, hnot, if_true, if_false, stateOf]
    · rw [if_neg hcur]
      by_cases hi : i + 1 = l.calls
      · rw [if_pos (by omega), if_pos (by omega), hi, stateOf]
      · have hiff : i + 1 < l.calls + 1 ↔ i + 1 < l.calls := by omega
        simp only [hiff, hi, false_and, if_false]

/-- A call's two subscriptions. -/
theorem heap_call (h : l.Sound) :
    (l.heap.subscribe (queueAfter l.calls) (.handle (.fn l.calls) (.run l.calls))).subscribe
        (.run l.calls) (.handle .ignore (.tail l.calls)) =
      heap { l with calls := l.calls + 1, phase := l.phase.joined } := by
  have hrun : l.promise (.run l.calls) = .pending [] := by
    rw [promise_run_of_ge (delivered_le h), if_neg (Nat.lt_irrefl _)]
  by_cases hidle : l.phase = .idle
  case pos =>
    -- the queue is settled already, so the function's job is due
    have hphase := h.phase
    rw [PhaseSound, hidle] at hphase
    rw [heap, Heap.subscribe_of_settled (promise_queueAfter_of_idle hphase.1),
      Heap.subscribe_of_pending hrun, heap]
    simp only [hidle, Phase.joined]
    congr 1
    · rw [promise_call h (by rw [hidle]; rfl) (by rw [hidle]; rfl)]
      funext r
      cases r with
      | initial | own => exact Function.update_of_ne (by simp) _ _
      | run i => exact update_run _ _ i _
      | tail i =>
        rw [Function.update_of_ne (by simp)]
        exact (if_neg (by omega)).symm
    · rw [hphase.1]
      rfl
  case neg =>
    -- the function waits for the call before it
    have hlt := h.current_lt hidle
    obtain ⟨m, hm⟩ : ∃ m, l.calls = m + 1 := Nat.exists_eq_succ_of_ne_zero (by omega)
    have hq : queueAfter l.calls = .tail m := by rw [hm, queueAfter]
    have hqueue : l.promise (.tail m) = .pending [] := by
      rw [← hq]
      exact promise_queueAfter_of_busy hlt
    have hrun' : Function.update l.promise (.tail m)
        (.pending ([] ++ [.handle (.fn l.calls) (.run l.calls)])) (.run l.calls) =
        .pending [] := by
      rw [Function.update_of_ne (by simp)]
      exact hrun
    have hsame : l.phase.joined = l.phase := by
      cases hp : l.phase with
      | idle => exact absurd hp hidle
      | queued | executing | returned | adopting | adopted | passing => rfl
    rw [hq, heap, Heap.subscribe_of_pending hqueue, Heap.subscribe_of_pending hrun', heap]
    simp only [hsame]
    congr 1
    rw [promise_call h rfl rfl]
    funext r
    cases r with
    | initial | own =>
      rw [Function.update_of_ne (by simp), Function.update_of_ne (by simp)]
    | run i =>
      rw [update_run, Function.update_of_ne (by simp)]
      rfl
    | tail i =>
      show _ = if i + 1 = l.calls ∧ l.current ≤ i then _ else _
      have hlast : (i + 1 = l.calls ∧ l.current ≤ i) ↔ i = m := by omega
      rw [Function.update_of_ne (by simp), update_tail]
      simp only [hlast, List.nil_append]

/-- The promises do not depend on the other parts of the phase. -/
theorem promise_phase {phase : Phase V E} (hpassing : phase.isPassing = l.phase.isPassing)
    (hadopting : phase.isAdopting = l.phase.isAdopting) :
    promise { l with phase := phase } = l.promise := by
  funext r
  cases r with
  | initial | tail i => rfl
  | run i =>
    have hdelivered : delivered { l with phase := phase } = l.delivered := by
      rw [delivered, delivered, hpassing]
    rw [promise, promise, hdelivered]
    rfl
  | own i => simp only [promise, hadopting]

/-- The promises when the function of the call in progress returns. -/
theorem promise_returned (hp : l.phase = .executing) :
    promise { l with
      phase := .returned, ends := Function.update l.ends l.current (some .returned) } =
      l.promise := by
  have hdelivered : l.delivered = l.current := by rw [delivered, hp]; rfl
  funext r
  cases r with
  | initial | tail i => rfl
  | own i =>
    simp only [promise, hp]
    rfl
  | run i =>
    show stateOf _ (if i < l.current then
      outcomeOf (Function.update l.ends l.current (some .returned) i) (l.own i) else none) = _
    rw [promise, hdelivered]
    by_cases hi : i < l.current
    · rw [if_pos hi, if_pos hi, outcome_of_ends (Nat.ne_of_lt hi)]
    · rw [if_neg hi, if_neg hi]

/-- The promises when the caller of the call in progress gets its result. -/
theorem promise_passing {ends : ℕ → Option (Completion E)}
    {outcome : Settlement (Option V) E} (hdelivered : l.delivered = l.current)
    (hadopting : l.phase.isAdopting = false)
    (hends : ∀ i < l.current, outcomeOf (ends i) (l.own i) = l.outcome i)
    (hcur : outcomeOf (ends l.current) (l.own l.current) = some outcome) :
    promise { l with phase := .passing outcome, ends := ends } =
      Function.update l.promise (.run l.current) (.settled outcome) := by
  funext r
  cases r with
  | initial | tail i => exact (Function.update_of_ne (by simp) _ _).symm
  | own i =>
    rw [Function.update_of_ne (by simp)]
    simp only [promise, hadopting]
    rfl
  | run i =>
    show stateOf _ (if i < l.current + 1 then outcomeOf (ends i) (l.own i) else none) = _
    rw [update_run]
    by_cases hi : i = l.current
    · subst hi
      rw [if_pos (Nat.lt_succ_self _), hcur, if_pos rfl, stateOf]
    · rw [if_neg hi, promise, hdelivered]
      by_cases hlt : i < l.current
      · rw [if_pos (Nat.lt_succ_of_lt hlt), if_pos hlt, hends i hlt]
      · have hnot : ¬i < l.current + 1 := by omega
        rw [if_neg hnot, if_neg hlt]

/-- The promises when the turn of the call in progress is over. -/
theorem promise_next {outcome : Settlement (Option V) E} (hp : l.phase = .passing outcome)
    {phase : Phase V E} (hpassing : phase.isPassing = false)
    (hadopting : phase.isAdopting = false) :
    promise { l with current := l.current + 1, phase := phase } =
      Function.update l.promise (.tail l.current) (.settled (.fulfilled none)) := by
  have hdelivered : delivered { l with current := l.current + 1, phase := phase } =
      l.delivered := by
    rw [delivered, delivered, hpassing, hp]
    rfl
  funext r
  cases r with
  | initial => exact (Function.update_of_ne (by simp) _ _).symm
  | run i =>
    rw [Function.update_of_ne (by simp)]
    simp only [promise, hdelivered, Line.outcome]
  | own i =>
    rw [Function.update_of_ne (by simp)]
    simp only [promise, hp, hadopting]
    rfl
  | tail i =>
    rw [update_tail]
    by_cases hi : i = l.current
    · subst hi
      rw [if_pos rfl, promise, if_pos (Nat.lt_succ_self _), stateOf]
    · rw [if_neg hi]
      have hiff : i < l.current + 1 ↔ i < l.current := by omega
      simp only [promise, hiff]

/-- A function that has settled keeps the promises of the callers as they are. -/
theorem promise_settles (h : l.Sound) {i : ℕ} (hi : l.own i = none)
    (outcome : Settlement (Option V) E) :
    promise { l with
      own := Function.update l.own i (some outcome)
      phase := l.phase.hears (decide (i = l.current)) outcome } =
      Function.update l.promise (.own i) (.settled outcome) := by
  have hdelivered : delivered { l with
      own := Function.update l.own i (some outcome)
      phase := l.phase.hears (decide (i = l.current)) outcome } = l.delivered := by
    rw [delivered, delivered, Phase.isPassing_hears]
  funext r
  cases r with
  | initial | tail j => exact (Function.update_of_ne (by simp) _ _).symm
  | run j =>
    rw [Function.update_of_ne (by simp), promise, promise, hdelivered]
    by_cases hj : j < l.delivered
    · obtain ⟨outcome', hout⟩ := outcome_of_lt_delivered h hj
      rw [if_pos hj, if_pos hj, hout, Line.outcome, outcome_of_settles hi hout]
    · rw [if_neg hj, if_neg hj]
  | own j =>
    rw [update_own]
    by_cases hj : j = i
    · subst hj
      rw [if_pos rfl]
      simp only [promise, Function.update_self, stateOf]
    · rw [if_neg hj]
      simp only [promise, Function.update_of_ne hj]
      cases hp : l.phase with
      | adopting =>
        by_cases hcur : i = l.current
        · have hne : j ≠ l.current := hcur ▸ hj
          simp [hne]
        · simp [Phase.hears, hcur]
      | idle | queued | executing | returned | adopted | passing => rfl

theorem promise_own_of_pending {i : ℕ} (hi : l.own i = none) :
    l.promise (.own i) =
      .pending (bif l.phase.isAdopting && decide (i = l.current) then [.adopt (.run i)]
        else []) := by
  rw [promise, hi, stateOf]

theorem promise_own_of_settled {i : ℕ} {outcome : Settlement (Option V) E}
    (hi : l.own i = some outcome) : l.promise (.own i) = .settled outcome := by
  rw [promise, hi, stateOf]

theorem promise_run_current (hlt : l.current < l.calls) (hdelivered : l.delivered = l.current) :
    l.promise (.run l.current) = .pending [.handle .ignore (.tail l.current)] := by
  rw [promise_run_of_ge (Nat.le_of_eq hdelivered), if_pos hlt]

theorem promise_tail_current :
    l.promise (.tail l.current) = .pending
      (if l.current + 1 < l.calls then
        [.handle (.fn (l.current + 1)) (.run (l.current + 1))] else []) := by
  rw [promise, if_neg (Nat.lt_irrefl l.current), stateOf]

theorem heap_starts (hp : l.phase = .queued) :
    ⟨l.promise, []⟩ = heap { l with phase := .executing } := by
  have hsame : promise { l with phase := .executing } = l.promise :=
    promise_phase (by rw [hp]; rfl) (by rw [hp]; rfl)
  rw [heap, hsame]
  rfl

theorem heap_links_pending (hp : l.phase = .returned) (hown : l.own l.current = none) :
    Heap.subscribe ⟨l.promise, []⟩ (.own l.current) (.adopt (.run l.current)) =
      heap { l with phase := .adopting } := by
  rw [Heap.subscribe_of_pending (promise_own_of_pending hown), heap]
  congr 1
  funext r
  cases r with
  | initial | tail => exact Function.update_of_ne (by simp) _ _
  | run i =>
    have hdelivered : delivered { l with phase := .adopting } = l.delivered := by
      rw [delivered, delivered, hp]
      rfl
    rw [Function.update_of_ne (by simp), promise, promise, hdelivered]
    rfl
  | own i =>
    rw [update_own]
    by_cases hi : i = l.current
    · subst hi
      simp [promise, hown, hp, Phase.isAdopting, stateOf]
    · rw [if_neg hi]
      simp [promise, hi]

theorem heap_links_settled {outcome : Settlement (Option V) E} (hp : l.phase = .returned)
    (hown : l.own l.current = some outcome) :
    Heap.subscribe ⟨l.promise, []⟩ (.own l.current) (.adopt (.run l.current)) =
      heap { l with phase := .adopted outcome } := by
  have hsame : promise { l with phase := .adopted outcome } = l.promise :=
    promise_phase (by rw [hp]; rfl) (by rw [hp]; rfl)
  rw [Heap.subscribe_of_settled (promise_own_of_settled hown), heap, hsame]
  rfl

theorem heap_adopts {outcome : Settlement (Option V) E} (hp : l.phase = .adopted outcome)
    (h : l.Sound) :
    Heap.settle ⟨l.promise, []⟩ (.run l.current) outcome =
      heap { l with phase := .passing outcome } := by
  have hphase := h.phase
  rw [PhaseSound, hp] at hphase
  have hdelivered : l.delivered = l.current := by rw [delivered, hp]; rfl
  have hcur : outcomeOf (l.ends l.current) (l.own l.current) = some outcome := by
    rw [hphase.2.1]
    exact hphase.2.2
  rw [Heap.settle_of_pending (promise_run_current hphase.1 hdelivered), heap,
    promise_passing hdelivered (by rw [hp]; rfl) (fun _ _ => rfl) hcur]
  rfl

theorem heap_passes {outcome : Settlement (Option V) E} (hp : l.phase = .passing outcome) :
    Heap.settle ⟨l.promise, []⟩ (.tail l.current) (.fulfilled none) =
      heap { l with
        current := l.current + 1
        phase := if l.current + 1 < l.calls then .queued else .idle } := by
  rw [Heap.settle_of_pending promise_tail_current, heap]
  by_cases hlt : l.current + 1 < l.calls
  · simp only [hlt, if_true]
    rw [promise_next hp rfl rfl]
    rfl
  · simp only [hlt, if_false]
    rw [promise_next hp rfl rfl]
    rfl

theorem heap_returns (hp : l.phase = .executing) :
    l.heap.follow (.run l.current) (.own l.current) = heap { l with
      phase := .returned, ends := Function.update l.ends l.current (some .returned) } := by
  rw [Heap.follow, heap, heap, promise_returned hp, hp]
  rfl

theorem heap_throws (hp : l.phase = .executing) (h : l.Sound) (reason : E) :
    l.heap.settle (.run l.current) (.rejected reason) = heap { l with
      phase := .passing (.rejected reason)
      ends := Function.update l.ends l.current (some (.threw reason)) } := by
  have hlt := h.current_lt (by simp [hp])
  have hdelivered : l.delivered = l.current := by rw [delivered, hp]; rfl
  have hcur : outcomeOf (Function.update l.ends l.current (some (.threw reason)) l.current)
      (l.own l.current) = some (.rejected reason) := by
    rw [Function.update_self]
    rfl
  rw [heap, Heap.settle_of_pending (promise_run_current hlt hdelivered), heap,
    promise_passing hdelivered (by rw [hp]; rfl)
      (fun i hi => outcome_of_ends (Nat.ne_of_lt hi) _) hcur, hp]
  rfl

theorem heap_settles (h : l.Sound) {i : ℕ} (hi : l.own i = none)
    (outcome : Settlement (Option V) E) :
    l.heap.settle (.own i) outcome = heap { l with
      own := Function.update l.own i (some outcome)
      phase := l.phase.hears (decide (i = l.current)) outcome } := by
  rw [heap, Heap.settle_of_pending (promise_own_of_pending hi), heap, promise_settles h hi]
  congr 1
  cases hp : l.phase with
  | adopting =>
    by_cases hcur : i = l.current
    · subst hcur
      simp [Phase.isAdopting, Phase.jobs, Phase.hears]
    · simp [Phase.hears, hcur]
  | idle | queued | executing | returned | adopted | passing => exact List.append_nil _

/-- One job of the code. -/
theorem step_toWorld_job (h : l.Sound) :
    SubmissionLock.step l.toWorld .job = (l.step .job).map toWorld := by
  obtain ⟨calls, current, phase, ends, own⟩ := l
  cases phase with
  | idle | executing | adopting => rfl
  | queued =>
    exact congrArg some (World.ext (heap_starts rfl) rfl rfl rfl rfl List.range_succ.symm)
  | returned =>
    cases hown : own current with
    | none =>
      have hstep : Line.step ⟨calls, current, .returned, ends, own⟩ .job =
          some ⟨calls, current, .adopting, ends, own⟩ := by
        simp only [Line.step, hown]
      rw [hstep]
      exact congrArg some (World.ext (heap_links_pending rfl hown) rfl rfl rfl rfl rfl)
    | some outcome =>
      have hstep : Line.step ⟨calls, current, .returned, ends, own⟩ .job =
          some ⟨calls, current, .adopted outcome, ends, own⟩ := by
        simp only [Line.step, hown]
      rw [hstep]
      exact congrArg some (World.ext (heap_links_settled rfl hown) rfl rfl rfl rfl rfl)
  | adopted outcome =>
    exact congrArg some (World.ext (heap_adopts rfl h) rfl rfl rfl rfl rfl)
  | passing outcome =>
    refine congrArg some (World.ext (heap_passes rfl) rfl rfl ?_ rfl ?_)
    · show none = Phase.onStack (current + 1) (if current + 1 < calls then .queued else .idle)
      split <;> rfl
    · show List.range (current + 1) = List.range (current + 1 +
        (Phase.hasStarted (if current + 1 < calls then .queued else .idle)).toNat)
      split <;> rfl

theorem step_toWorld_settles (h : l.Sound) (i : ℕ) (outcome : Settlement (Option V) E) :
    SubmissionLock.step l.toWorld (.settles i outcome) =
      (l.step (.settles i outcome)).map toWorld := by
  rw [SubmissionLock.step, Line.step]
  by_cases hlt : i < l.toWorld.calls
  case neg =>
    rw [if_neg hlt, if_neg fun hi => hlt hi.1]
    rfl
  case pos =>
    rw [if_pos hlt]
    cases hown : l.own i with
    | some outcome' =>
      have hpromise : l.toWorld.heap.promises (.own i) = .settled outcome' :=
        promise_own_of_settled hown
      rw [hpromise, if_neg fun hi => by cases hi.2]
      rfl
    | none =>
      have hpromise : l.toWorld.heap.promises (.own i) = _ := promise_own_of_pending hown
      rw [hpromise, if_pos ⟨hlt, rfl⟩]
      refine congrArg some (World.ext (heap_settles h hown outcome) rfl rfl ?_ rfl ?_)
      · exact (Phase.onStack_hears _ _ _ _).symm
      · simp only [toWorld, startedCount, Phase.hasStarted_hears]

/-- **The code is a line**: every step of the code is the step of the line it stands for. -/
theorem step_toWorld (h : l.Sound) (a : Label V E) :
    SubmissionLock.step l.toWorld a = (l.step a).map toWorld := by
  cases a with
  | call =>
    refine congrArg some (World.ext (heap_call h) rfl rfl ?_ rfl ?_)
    · show l.phase.onStack l.current = l.phase.joined.onStack l.current
      cases l.phase <;> rfl
    · show List.range (l.current + l.phase.hasStarted.toNat) =
        List.range (l.current + l.phase.joined.hasStarted.toNat)
      cases l.phase <;> rfl
  | job => exact step_toWorld_job h
  | returns =>
    obtain ⟨calls, current, phase, ends, own⟩ := l
    cases phase with
    | executing => exact congrArg some (World.ext (heap_returns rfl) rfl rfl rfl rfl rfl)
    | idle | queued | returned | adopting | adopted | passing => rfl
  | throws reason =>
    obtain ⟨calls, current, phase, ends, own⟩ := l
    cases phase with
    | executing =>
      exact congrArg some (World.ext (heap_throws rfl h reason) rfl rfl rfl rfl rfl)
    | idle | queued | returned | adopting | adopted | passing => rfl
  | settles i outcome => exact step_toWorld_settles h i outcome

/-! ## What a line promises -/

theorem stateOf_outcome (reactions : List (Reaction Ref Handler))
    (outcome : Option (Settlement (Option V) E)) :
    (stateOf reactions outcome).outcome = outcome := by
  cases outcome <;> rfl

theorem outcome_toWorld (l : Line V E) (i : ℕ) : l.toWorld.outcome i = l.outcome i := by
  show outcomeOf (l.ends i) (stateOf _ (l.own i)).outcome = l.outcome i
  rw [stateOf_outcome, Line.outcome]

/-- With nothing left to run, the line is empty or waits for a function's promise. -/
theorem quiet_toWorld_iff : l.toWorld.Quiet ↔ l.phase = .idle ∨ l.phase = .adopting := by
  show l.phase.onStack l.current = none ∧ l.phase.jobs l.current = [] ↔ _
  cases l.phase <;> simp [Phase.onStack, Phase.jobs]

/-- A quiet line has an outcome exactly for the calls before the current one. -/
theorem lt_current_of_outcome (h : l.Sound) (hquiet : l.toWorld.Quiet) {i : ℕ}
    (hi : (l.outcome i).isSome) : i < l.current := by
  have hphase := h.phase
  unfold PhaseSound at hphase
  rcases Nat.lt_trichotomy i l.current with hlt | rfl | hgt
  · exact hlt
  · rw [Line.outcome] at hi
    rcases quiet_toWorld_iff.mp hquiet with hp | hp <;> rw [hp] at hphase
    · rw [hphase.2] at hi
      cases hi
    · rw [hphase.2.1, hphase.2.2] at hi
      cases hi
  · rw [outcome_eq_none_of_lt h hgt] at hi
    cases hi

theorem delivered_of_quiet (hquiet : l.toWorld.Quiet) : l.delivered = l.current := by
  rcases quiet_toWorld_iff.mp hquiet with hp | hp <;> rw [delivered, hp] <;> rfl

/-- Every step of a line is one of a mutex that serves its calls in order. -/
theorem fifoMutex_step (h : l.Sound) {a : Label V E} (hs : l.step a = some l')
    {steps : List (World V E × Label V E × World V E)} (hserved : l'.toWorld.Served steps) :
    FifoMutex steps (l.toWorld, a, l'.toWorld) where
  counts := hserved.1
  starts := by
    have hlength : l.toWorld.started.length = l.startedCount := List.length_range
    rcases startedCount_step hs with heq | ⟨hp, hcount, hcount'⟩
    case inl => exact .inl (congrArg List.range heq)
    case inr =>
      right
      show l'.toWorld.started = l.toWorld.started ++ [l.toWorld.started.length] ∧
        l.toWorld.started.length < l.calls ∧ ∀ i < l.toWorld.started.length, _
      rw [hlength, hcount]
      refine ⟨?_, h.current_lt (by simp [hp]), fun i hi => ?_⟩
      · show List.range l'.startedCount = List.range l.startedCount ++ [l.current]
        rw [hcount', hcount, List.range_succ]
      · rw [outcome_toWorld]
        exact h.settled i hi
  ownOutcome := by
    intro i r outcome hr hrun
    have h' := h.step hs
    obtain ⟨-, rfl⟩ := hserved.getElem?_callers.mp hr
    rw [outcome_toWorld]
    rcases Nat.lt_or_ge i l'.delivered with hlt | hge
    · obtain ⟨outcome', hout, hrun'⟩ := promise_run_of_lt h' hlt
      cases hrun'.symm.trans hrun
      exact hout
    · cases (promise_run_of_ge hge).symm.trans hrun
  proceeds := l'.toWorld.quiet_or_proceeds
  delivers := by
    intro hquiet i outcome hout
    have h' := h.step hs
    rw [outcome_toWorld] at hout
    have hlt := lt_current_of_outcome h' hquiet (Option.isSome_of_eq_some hout)
    have hcall : i < l'.calls := Nat.lt_of_lt_of_le hlt h'.current_le
    rw [← delivered_of_quiet hquiet] at hlt
    obtain ⟨outcome', hout', hrun⟩ := promise_run_of_lt h' hlt
    cases hout'.symm.trans hout
    exact ⟨.run i, hserved.getElem?_callers.mpr ⟨hcall, rfl⟩, hrun⟩
  serves := by
    intro hquiet hsettled
    have h' := h.step hs
    have hphase := h'.phase
    unfold PhaseSound at hphase
    show List.range l'.startedCount = List.range l'.calls
    rcases quiet_toWorld_iff.mp hquiet with hp | hp <;> rw [hp] at hphase
    · rw [startedCount, hp, ← hphase.1]
      rfl
    · -- the function that the line waits for has been started and has not settled
      have hmem : l'.current ∈ l'.toWorld.started :=
        List.mem_range.mpr (by rw [startedCount, hp]; exact Nat.lt_succ_self _)
      have hcur := hsettled _ hmem
      rw [outcome_toWorld] at hcur
      exact absurd (lt_current_of_outcome h' hquiet hcur) (Nat.lt_irrefl _)

end Line

/-- The traces of the code are those of a line. -/
theorem trace_start (labels : List (Label V E)) :
    trace step (start : World V E) labels =
      (trace Line.step (Line.start : Line V E) labels).map fun e =>
        (e.1.toWorld, e.2.1, e.2.2.toWorld) := by
  have hstart : (start : World V E) = Line.start.toWorld := by
    refine World.ext (congrArg (Heap.mk · []) (funext fun r => ?_)) rfl rfl rfl rfl rfl
    cases r <;> rfl
  rw [hstart]
  exact trace_map_of_invariant Line.toWorld Line.Sound.start
    (fun _ _ _ hl hs => hl.step hs) (fun _ _ hl => Line.step_toWorld hl _) labels

/-- **The lock is a FIFO mutex**: whatever the calls, their times and the ways in which their
functions end, every step is one of a mutex that serves its calls in order and hands each
caller its own function's outcome, and the jobs of a run are at most four for each call. -/
theorem withFacilitatorSubmissionLock_fifo (labels : List (Label V E)) :
    (∀ before e after, trace step (start : World V E) labels = before ++ e :: after →
      FifoMutex (before ++ [e]) e) ∧
    (trace step (start : World V E) labels).countP (fun e => e.2.1.isJob) ≤
      4 * (trace step (start : World V E) labels).countP fun e => e.2.1.isCall := by
  constructor
  · intro before e after hsplit
    have hserved : e.2.2.Served (before ++ [e]) :=
      history_of_trace (I := fun steps w => w.Served steps) ⟨rfl, rfl⟩
        (fun _ _ _ _ hw hs => hw.step hs) hsplit
    have he : e ∈ trace step (start : World V E) labels := by
      rw [hsplit]
      exact List.mem_append_right _ List.mem_cons_self
    rw [trace_start] at he
    obtain ⟨⟨l, a, l'⟩, hmem, rfl⟩ := List.mem_map.mp he
    have hany : ∀ a ∈ labels, (fun _ : Label V E => True) a := fun _ _ => trivial
    obtain ⟨hreach, -, hs⟩ := reaches_of_mem_trace hany hmem
    have hsound : l.Sound := hreach.invariant Line.Sound.start
      fun _ _ _ _ hl hstep => hl.step hstep
    exact Line.fifoMutex_step hsound hs hserved
  · rw [trace_start, List.countP_map, List.countP_map]
    have hjobs := countP_trace_le Line.jobsLeft Label.isJob Label.isCall 4
      (Line.Sound.start (V := V) (E := E)) (fun _ _ _ hl hs => hl.step hs)
      (fun _ _ _ hl hs => Line.jobsLeft_step hl hs) labels
    exact hjobs.trans (Nat.le_of_eq (Nat.zero_add _))

/-- The first function throws, the second caller gets its value all the same. -/
example : ((exec step (start : World ℕ ℕ) [.call, .call, .job, .throws 7, .job, .job, .returns,
    .job, .settles 1 (.fulfilled (some 5)), .job]).map fun w =>
      (w.started, w.heap.promises (.run 0), w.heap.promises (.run 1))) =
    some ([0, 1], .settled (.rejected 7), .settled (.fulfilled (some 5))) := by
  decide

end KonfirmBackend.SubmissionLock
