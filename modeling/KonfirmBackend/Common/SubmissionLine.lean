import KonfirmBackend.Common.SubmissionLock

/-!
# What the submission lock is for

Calls stand in a line. One of them is in progress at a time; its function runs and settles,
its caller gets the result, and the next call's turn comes.

## Main definitions

- `Phase` — how far the call in progress is
- `Line` — the calls, the one in progress, and how their functions have ended
- `Line.step` — one step of a line
- `Line.Sound` — who has settled, and who has not started

## Main results

- `Line.Sound.step` — every step keeps a line sound
- `Line.startedCount_step` — a step starts the function of the call in progress, or none
- `Line.jobsLeft_step` — a job brings the line forward
-/

namespace KonfirmBackend.SubmissionLock

open Promise Transition

variable {V E : Type*}

/-- How far the call in progress is: its function is about to start, executing, or has
returned a promise that its caller's promise is about to follow, follows, or has heard from;
or the caller has its result and the next call is about to learn that its turn has come. -/
inductive Phase (V E : Type*)
  | idle
  | queued
  | executing
  | returned
  | adopting
  | adopted (outcome : Settlement (Option V) E)
  | passing (outcome : Settlement (Option V) E)

/-- A line of calls. Those before `current` have been served, those after it wait. -/
structure Line (V E : Type*) where
  calls : ℕ
  current : ℕ
  phase : Phase V E
  ends : ℕ → Option (Completion E)
  own : ℕ → Option (Settlement (Option V) E)

namespace Phase

def hasStarted : Phase V E → Bool
  | idle | queued => false
  | executing | returned | adopting | adopted _ | passing _ => true

def isPassing : Phase V E → Bool
  | passing _ => true
  | idle | queued | executing | returned | adopting | adopted _ => false

def isAdopting : Phase V E → Bool
  | adopting => true
  | idle | queued | executing | returned | adopted _ | passing _ => false

/-- The jobs of the lock's promises during a phase of call `i`: one at most. -/
def jobs (i : ℕ) : Phase V E → List (Job Ref Handler (Option V) E)
  | idle | executing | adopting => []
  | queued => [.react (.handle (.fn i) (.run i)) (.fulfilled none)]
  | returned => [.link (.run i) (.own i)]
  | adopted outcome => [.react (.adopt (.run i)) outcome]
  | passing outcome => [.react (.handle .ignore (.tail i)) outcome]

/-- A call that finds the line empty is next. -/
def joined : Phase V E → Phase V E
  | idle => queued
  | phase => phase

def onStack (i : ℕ) : Phase V E → Option (ℕ × Ref)
  | executing => some (i, .run i)
  | idle | queued | returned | adopting | adopted _ | passing _ => none

/-- A call hears of the outcome of its function if it is its own and it follows it. -/
def hears (phase : Phase V E) (current : Bool) (outcome : Settlement (Option V) E) :
    Phase V E :=
  bif phase.isAdopting && current then .adopted outcome else phase

variable (phase : Phase V E) (current : Bool) (outcome : Settlement (Option V) E)

@[simp] theorem isPassing_hears : (phase.hears current outcome).isPassing = phase.isPassing := by
  cases phase <;> cases current <;> rfl

@[simp] theorem hasStarted_hears :
    (phase.hears current outcome).hasStarted = phase.hasStarted := by
  cases phase <;> cases current <;> rfl

@[simp] theorem onStack_hears (i : ℕ) :
    (phase.hears current outcome).onStack i = phase.onStack i := by
  cases phase <;> cases current <;> rfl

end Phase

namespace Line

def outcome (l : Line V E) (i : ℕ) : Option (Settlement (Option V) E) :=
  outcomeOf (l.ends i) (l.own i)

/-- The calls whose callers have their results. -/
def delivered (l : Line V E) : ℕ := l.current + l.phase.isPassing.toNat

/-- The calls whose functions have been started. -/
def startedCount (l : Line V E) : ℕ := l.current + l.phase.hasStarted.toNat

def start : Line V E where
  calls := 0
  current := 0
  phase := .idle
  ends := fun _ => none
  own := fun _ => none

/-- The step of a line that a step of the code makes. -/
def step (l : Line V E) : Label V E → Option (Line V E)
  | .call => some { l with calls := l.calls + 1, phase := l.phase.joined }
  | .job =>
    match l.phase with
    | .queued => some { l with phase := .executing }
    | .returned => some { l with
        phase := match l.own l.current with
          | none => .adopting
          | some outcome => .adopted outcome }
    | .adopted outcome => some { l with phase := .passing outcome }
    | .passing _ => some { l with
        current := l.current + 1
        phase := if l.current + 1 < l.calls then .queued else .idle }
    | .idle | .executing | .adopting => none
  | .returns =>
    match l.phase with
    | .executing => some { l with
        phase := .returned
        ends := Function.update l.ends l.current (some .returned) }
    | _ => none
  | .throws reason =>
    match l.phase with
    | .executing => some { l with
        phase := .passing (.rejected reason)
        ends := Function.update l.ends l.current (some (.threw reason)) }
    | _ => none
  | .settles i outcome =>
    if i < l.calls ∧ (l.own i).isNone then
      some { l with
        own := Function.update l.own i (some outcome)
        phase := l.phase.hears (decide (i = l.current)) outcome }
    else none

/-- What a phase says about the call in progress. -/
def PhaseSound (l : Line V E) : Prop :=
  match l.phase with
  | .idle => l.current = l.calls ∧ l.ends l.current = none
  | .queued | .executing => l.current < l.calls ∧ l.ends l.current = none
  | .returned => l.current < l.calls ∧ l.ends l.current = some .returned
  | .adopting => l.current < l.calls ∧ l.ends l.current = some .returned ∧
      l.own l.current = none
  | .adopted outcome => l.current < l.calls ∧ l.ends l.current = some .returned ∧
      l.own l.current = some outcome
  | .passing outcome => l.current < l.calls ∧ l.outcome l.current = some outcome

/-- Functions have settled before the call in progress, and have not started after it. -/
structure Sound (l : Line V E) : Prop where
  phase : l.PhaseSound
  settled : ∀ i < l.current, (l.outcome i).isSome
  waiting : ∀ i, l.current < i → l.ends i = none

variable {l l' : Line V E}

theorem Sound.current_le (h : l.Sound) : l.current ≤ l.calls := by
  have hphase := h.phase
  unfold PhaseSound at hphase
  cases hp : l.phase <;> rw [hp] at hphase <;> simp only at hphase <;> omega

theorem Sound.current_lt (h : l.Sound) (hne : l.phase ≠ .idle) : l.current < l.calls := by
  have hphase := h.phase
  unfold PhaseSound at hphase
  cases hp : l.phase with
  | idle => exact absurd hp hne
  | queued | executing | returned | adopting | adopted | passing =>
    rw [hp] at hphase
    exact hphase.1

/-- The outcome of a function that has settled stays what it is. -/
theorem outcome_of_settles {i j : ℕ} {outcome outcome' : Settlement (Option V) E}
    (hi : l.own i = none) (hj : l.outcome j = some outcome') :
    outcomeOf (l.ends j) (Function.update l.own i (some outcome) j) = some outcome' := by
  by_cases hij : j = i
  · subst hij
    rw [Line.outcome, hi] at hj
    cases hends : l.ends j with
    | none => rw [hends] at hj; cases hj
    | some completion =>
      cases completion with
      | returned => rw [hends] at hj; cases hj
      | threw reason => rw [hends] at hj; exact hj
  · rw [Function.update_of_ne hij]
    exact hj

/-- What a job does to the call in progress. -/
theorem step_job_cases (hs : l.step .job = some l') :
    (l.phase = .queued ∧ l' = { l with phase := .executing }) ∨
    (l.phase = .returned ∧ l.own l.current = none ∧ l' = { l with phase := .adopting }) ∨
    (∃ outcome, l.phase = .returned ∧ l.own l.current = some outcome ∧
      l' = { l with phase := .adopted outcome }) ∨
    (∃ outcome, l.phase = .adopted outcome ∧ l' = { l with phase := .passing outcome }) ∨
    (∃ outcome, l.phase = .passing outcome ∧
      l' = { l with
        current := l.current + 1
        phase := if l.current + 1 < l.calls then .queued else .idle }) := by
  rw [Line.step] at hs
  cases hp : l.phase with
  | idle | executing | adopting => rw [hp] at hs; cases hs
  | queued => rw [hp] at hs; cases hs; exact .inl ⟨rfl, rfl⟩
  | returned =>
    rw [hp] at hs
    cases hown : l.own l.current with
    | none => rw [hown] at hs; cases hs; exact .inr (.inl ⟨rfl, rfl, rfl⟩)
    | some outcome =>
      rw [hown] at hs
      cases hs
      exact .inr (.inr (.inl ⟨outcome, rfl, rfl, rfl⟩))
  | adopted outcome =>
    rw [hp] at hs
    cases hs
    exact .inr (.inr (.inr (.inl ⟨outcome, rfl, rfl⟩)))
  | passing outcome =>
    rw [hp] at hs
    cases hs
    exact .inr (.inr (.inr (.inr ⟨outcome, rfl, rfl⟩)))

theorem Sound.start : (Line.start : Line V E).Sound where
  phase := ⟨rfl, rfl⟩
  settled := fun i hi => absurd hi (Nat.not_lt_zero i)
  waiting := fun _ _ => rfl

theorem Sound.call (h : l.Sound) (hs : l.step .call = some l') : l'.Sound := by
  cases hs
  have hphase := h.phase
  unfold PhaseSound at hphase
  refine ⟨?phase, h.settled, h.waiting⟩
  unfold PhaseSound
  cases hp : l.phase with
  | idle =>
    rw [hp] at hphase
    exact ⟨by show l.current < l.calls + 1; omega, hphase.2⟩
  | queued | executing | returned | adopting | adopted | passing =>
    rw [hp] at hphase
    exact ⟨Nat.lt_succ_of_lt hphase.1, hphase.2⟩

theorem Sound.job (h : l.Sound) (hs : l.step .job = some l') : l'.Sound := by
  have hphase := h.phase
  unfold PhaseSound at hphase
  rcases step_job_cases hs with ⟨hp, rfl⟩ | ⟨hp, hown, rfl⟩ | ⟨outcome, hp, hown, rfl⟩ |
      ⟨outcome, hp, rfl⟩ | ⟨outcome, hp, rfl⟩ <;> rw [hp] at hphase
  case inl => exact ⟨hphase, h.settled, h.waiting⟩
  case inr.inl => exact ⟨⟨hphase.1, hphase.2, hown⟩, h.settled, h.waiting⟩
  case inr.inr.inl => exact ⟨⟨hphase.1, hphase.2, hown⟩, h.settled, h.waiting⟩
  case inr.inr.inr.inl =>
    refine ⟨⟨hphase.1, ?_⟩, h.settled, h.waiting⟩
    rw [Line.outcome, hphase.2.1]
    exact hphase.2.2
  case inr.inr.inr.inr =>
    have hnext : l.ends (l.current + 1) = none := h.waiting _ (Nat.lt_succ_self _)
    refine ⟨?_, ?_, fun i hi => h.waiting i (Nat.lt_of_succ_lt hi)⟩
    · unfold PhaseSound
      by_cases hlt : l.current + 1 < l.calls
      · simp only [hlt, if_true]
        exact ⟨trivial, hnext⟩
      · simp only [hlt, if_false]
        exact ⟨by have := hphase.1; omega, hnext⟩
    · intro i hi
      rcases Nat.lt_succ_iff_lt_or_eq.mp hi with hlt | rfl
      · exact h.settled i hlt
      · exact Option.isSome_iff_exists.mpr ⟨outcome, hphase.2⟩

theorem outcome_of_ends {i j : ℕ} (hij : j ≠ i) (completion : Option (Completion E)) :
    outcomeOf (Function.update l.ends i completion j) (l.own j) = l.outcome j := by
  rw [Function.update_of_ne hij, Line.outcome]

/-- The end of the function that is executing. -/
theorem Sound.completes (h : l.Sound) {phase : Phase V E} {completion : Completion E}
    (hphase : PhaseSound { l with
      phase := phase, ends := Function.update l.ends l.current (some completion) }) :
    Sound { l with
      phase := phase, ends := Function.update l.ends l.current (some completion) } := by
  refine ⟨hphase, ?_, ?_⟩
  · intro i hi
    rw [Line.outcome, outcome_of_ends (Nat.ne_of_lt hi)]
    exact h.settled i hi
  · intro i hi
    show Function.update l.ends l.current (some completion) i = none
    rw [Function.update_of_ne (Nat.ne_of_gt hi)]
    exact h.waiting i hi

theorem phase_of_returns (hs : l.step .returns = some l') : l.phase = .executing ∧
    l' = { l with
      phase := .returned, ends := Function.update l.ends l.current (some .returned) } := by
  rw [Line.step] at hs
  cases hp : l.phase with
  | executing => rw [hp] at hs; cases hs; exact ⟨rfl, rfl⟩
  | idle | queued | returned | adopting | adopted | passing => rw [hp] at hs; cases hs

theorem phase_of_throws {reason : E} (hs : l.step (.throws reason) = some l') :
    l.phase = .executing ∧ l' = { l with
      phase := .passing (.rejected reason)
      ends := Function.update l.ends l.current (some (.threw reason)) } := by
  rw [Line.step] at hs
  cases hp : l.phase with
  | executing => rw [hp] at hs; cases hs; exact ⟨rfl, rfl⟩
  | idle | queued | returned | adopting | adopted | passing => rw [hp] at hs; cases hs

theorem Sound.returns (h : l.Sound) (hs : l.step .returns = some l') : l'.Sound := by
  obtain ⟨hp, rfl⟩ := phase_of_returns hs
  have hlt : l.current < l.calls := h.current_lt (by simp [hp])
  exact h.completes ⟨hlt, Function.update_self _ _ _⟩

theorem Sound.throws (h : l.Sound) {reason : E} (hs : l.step (.throws reason) = some l') :
    l'.Sound := by
  obtain ⟨hp, rfl⟩ := phase_of_throws hs
  have hlt : l.current < l.calls := h.current_lt (by simp [hp])
  refine h.completes ⟨hlt, ?_⟩
  show outcomeOf (Function.update l.ends l.current (some (.threw reason)) l.current) _ = _
  rw [Function.update_self]
  rfl

theorem Sound.settles (h : l.Sound) {i : ℕ} {outcome : Settlement (Option V) E}
    (hs : l.step (.settles i outcome) = some l') : l'.Sound := by
  rw [Line.step] at hs
  split at hs
  case isFalse => cases hs
  case isTrue hi =>
    obtain ⟨-, hown⟩ := hi
    rw [Option.isNone_iff_eq_none] at hown
    cases hs
    have hphase := h.phase
    unfold PhaseSound at hphase
    refine ⟨?phase, ?settled, h.waiting⟩
    case settled =>
      intro j hj
      obtain ⟨outcome', hsettled⟩ := Option.isSome_iff_exists.mp (h.settled j hj)
      exact Option.isSome_iff_exists.mpr ⟨outcome', outcome_of_settles hown hsettled⟩
    case phase =>
      unfold PhaseSound
      cases hp : l.phase with
      | idle | queued | executing | returned => rw [hp] at hphase; exact hphase
      | adopting =>
        rw [hp] at hphase
        by_cases hcur : i = l.current
        · simp only [Phase.hears, Phase.isAdopting, hcur, decide_true, Bool.and_self, cond_true]
          exact ⟨hphase.1, hphase.2.1, Function.update_self _ _ _⟩
        · simp only [Phase.hears, hcur, decide_false, Bool.and_false, cond_false]
          refine ⟨hphase.1, hphase.2.1, ?_⟩
          rw [Function.update_of_ne (Ne.symm hcur)]
          exact hphase.2.2
      | adopted outcome' =>
        rw [hp] at hphase
        have hcur : l.current ≠ i := by
          rintro rfl
          rw [hown] at hphase
          cases hphase.2.2
        refine ⟨hphase.1, hphase.2.1, ?_⟩
        show Function.update l.own i (some outcome) l.current = some outcome'
        rw [Function.update_of_ne hcur]
        exact hphase.2.2
      | passing outcome' =>
        rw [hp] at hphase
        exact ⟨hphase.1, outcome_of_settles hown hphase.2⟩

/-- Every step of a line keeps it sound. -/
theorem Sound.step (h : l.Sound) {a : Label V E} (hs : l.step a = some l') : l'.Sound := by
  cases a with
  | call => exact h.call hs
  | job => exact h.job hs
  | returns => exact h.returns hs
  | throws reason => exact h.throws hs
  | settles i outcome => exact h.settles hs

/-- A step starts the function of the call in progress, or none. -/
theorem startedCount_step {a : Label V E} (hs : l.step a = some l') :
    l'.startedCount = l.startedCount ∨
      l.phase = .queued ∧ l.startedCount = l.current ∧ l'.startedCount = l.current + 1 := by
  cases a with
  | call =>
    cases hs
    refine .inl (congrArg (l.current + ·) ?_)
    show l.phase.joined.hasStarted.toNat = l.phase.hasStarted.toNat
    cases l.phase <;> rfl
  | job =>
    obtain ⟨hp, rfl⟩ | ⟨hp, -, rfl⟩ | ⟨outcome, hp, -, rfl⟩ | ⟨outcome, hp, rfl⟩ |
      ⟨outcome, hp, rfl⟩ := step_job_cases hs
    case inl => exact .inr ⟨hp, by rw [startedCount, hp]; rfl, rfl⟩
    case inr.inr.inr.inr =>
      left
      rw [startedCount, startedCount, hp]
      show l.current + 1 + Bool.toNat (Phase.hasStarted (if _ then _ else _)) = l.current + 1
      split <;> rfl
    all_goals exact .inl (by rw [startedCount, startedCount, hp]; rfl)
  | returns =>
    obtain ⟨hp, rfl⟩ := phase_of_returns hs
    exact .inl (by rw [startedCount, startedCount, hp]; rfl)
  | throws reason =>
    obtain ⟨hp, rfl⟩ := phase_of_throws hs
    exact .inl (by rw [startedCount, startedCount, hp]; rfl)
  | settles i outcome =>
    rw [Line.step] at hs
    split at hs
    · cases hs
      exact .inl (by rw [startedCount, startedCount, Phase.hasStarted_hears])
    · cases hs

theorem outcome_eq_none_of_lt (h : l.Sound) {i : ℕ} (hi : l.current < i) :
    l.outcome i = none := by
  rw [Line.outcome, h.waiting i hi]
  rfl

/-- The jobs that a line still needs: four for each call in it. -/
def jobsLeft (l : Line V E) : ℕ :=
  4 * (l.calls - l.current - 1) + match l.phase with
    | .idle => 0
    | .queued => 4
    | .executing | .returned => 3
    | .adopting | .adopted _ => 2
    | .passing _ => 1

/-- A job brings the line forward, a call makes it four jobs longer. -/
theorem jobsLeft_step (h : l.Sound) {a : Label V E} (hs : l.step a = some l') :
    l'.jobsLeft + a.isJob.toNat ≤ l.jobsLeft + 4 * a.isCall.toNat := by
  have hphase := h.phase
  unfold PhaseSound at hphase
  cases a with
  | call =>
    cases hs
    unfold jobsLeft
    cases hp : l.phase with
    | idle =>
      rw [hp] at hphase
      simp [Phase.joined, Label.isJob, Label.isCall]
      omega
    | queued | executing | returned | adopting | adopted | passing =>
      rw [hp] at hphase
      simp [Phase.joined, Label.isJob, Label.isCall]
      omega
  | job =>
    obtain ⟨hp, rfl⟩ | ⟨hp, -, rfl⟩ | ⟨outcome, hp, -, rfl⟩ | ⟨outcome, hp, rfl⟩ |
      ⟨outcome, hp, rfl⟩ := step_job_cases hs
    case inr.inr.inr.inr =>
      rw [hp] at hphase
      unfold jobsLeft
      rw [hp]
      by_cases hlt : l.current + 1 < l.calls
      · simp [hlt, Label.isJob, Label.isCall]
        omega
      · simp [hlt, Label.isJob, Label.isCall]
        omega
    all_goals
      unfold jobsLeft
      rw [hp]
      simp [Label.isJob, Label.isCall]
  | returns =>
    obtain ⟨hp, rfl⟩ := phase_of_returns hs
    simp [jobsLeft, hp, Label.isJob, Label.isCall]
  | throws reason =>
    obtain ⟨hp, rfl⟩ := phase_of_throws hs
    simp [jobsLeft, hp, Label.isJob, Label.isCall]
  | settles i outcome =>
    rw [Line.step] at hs
    split at hs
    case isFalse => cases hs
    case isTrue =>
      cases hs
      unfold jobsLeft
      cases hp : l.phase with
      | adopting =>
        by_cases hcur : i = l.current <;>
          simp [Phase.hears, Phase.isAdopting, hcur, Label.isJob, Label.isCall]
      | idle | queued | executing | returned | adopted | passing =>
        simp [Phase.hears, Phase.isAdopting, Label.isJob, Label.isCall]

end Line

end KonfirmBackend.SubmissionLock
