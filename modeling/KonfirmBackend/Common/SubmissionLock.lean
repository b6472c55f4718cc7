import KonfirmBackend.Lib.Promise
import KonfirmBackend.Lib.Transition
import Mathlib.Data.List.Range
import Mathlib.Tactic.Common

/-!
# The facilitator's submission lock

`withFacilitatorSubmissionLock` chains each call's function behind the promise of the call
before it: `run` is the promise that the caller gets, and the module variable moves on to a
promise that is fulfilled once `run` is settled, either way.

Calls, the ends of the functions and the settling of the promises they returned come from
outside, in any order and at any time; so do the calls that a caller makes on receiving its
result. In between, the jobs of the lock's promises run in their order.

## Main definitions

- `World` — the promises, the module variable and the function that is executing
- `withFacilitatorSubmissionLock` — one call
- `step` — a call, a job, the end of a function or the settling of its promise
- `World.outcome` — how the function of a call has settled
- `callers` — the promises that the callers of a run have got
- `FifoMutex` — what a step of the lock may do
-/

namespace KonfirmBackend.SubmissionLock

open Promise Transition

/-- The promises of the module: the initial queue, and for each call `run`, the queue that
the call leaves behind, and the promise that its function returns. -/
inductive Ref
  | initial
  | run (i : ℕ)
  | tail (i : ℕ)
  | own (i : ℕ)
deriving DecidableEq

/-- The function of a call, and `() => undefined`. -/
inductive Handler
  | fn (i : ℕ)
  | ignore
deriving DecidableEq

/-- How the call of a function ends: with its promise, or by throwing. -/
inductive Completion (E : Type*)
  | returned
  | threw (reason : E)
deriving DecidableEq

variable {V E : Type*}

/-- `executing` is the function on the stack with the promise that waits for it; `started`
lists the functions in the order of their starts. `undefined` is the value `none`. -/
@[ext]
structure World (V E : Type*) where
  heap : Heap Ref Handler (Option V) E
  submissionQueue : Ref
  calls : ℕ
  executing : Option (ℕ × Ref)
  ends : ℕ → Option (Completion E)
  started : List ℕ

/-- The module as it is loaded: the queue is `Promise.resolve()`. -/
def start : World V E where
  heap :=
    { promises := fun
        | .initial => .settled (.fulfilled none)
        | _ => .pending []
      jobs := [] }
  submissionQueue := .initial
  calls := 0
  executing := none
  ends := fun _ => none
  started := []

/-- A call, with the promise that its caller gets. -/
def withFacilitatorSubmissionLock (w : World V E) : World V E × Ref :=
  let i := w.calls
  let chained := w.heap.subscribe w.submissionQueue (.handle (.fn i) (.run i))
  let heap := chained.subscribe (.run i) (.handle .ignore (.tail i))
  ({ w with heap := heap, submissionQueue := .tail i, calls := i + 1 }, .run i)

inductive Label (V E : Type*)
  | call
  | job
  | returns
  | throws (reason : E)
  | settles (i : ℕ) (outcome : Settlement (Option V) E)

def Label.isJob : Label V E → Bool
  | .job => true
  | .call | .returns | .throws _ | .settles _ _ => false

def Label.isCall : Label V E → Bool
  | .call => true
  | .job | .returns | .throws _ | .settles _ _ => false

/-- Run a job that has been taken from the queue. -/
def runJob (w : World V E) : Job Ref Handler (Option V) E → World V E
  | .react (.handle (.fn i) derived) _ =>
    { w with executing := some (i, derived), started := w.started ++ [i] }
  | .react (.handle .ignore derived) _ =>
    { w with heap := w.heap.settle derived (.fulfilled none) }
  | .react (.adopt target) outcome => { w with heap := w.heap.settle target outcome }
  | .link target source => { w with heap := w.heap.subscribe source (.adopt target) }

/-- One step. A job starts only when no function is on the stack; a function's promise may
be settled at any time, also before the function returns it. -/
def step (w : World V E) : Label V E → Option (World V E)
  | .call => some (withFacilitatorSubmissionLock w).1
  | .job =>
    match w.executing, w.heap.jobs with
    | none, job :: jobs => some (runJob { w with heap.jobs := jobs } job)
    | _, _ => none
  | .returns => w.executing.map fun (i, derived) =>
    { w with
      heap := w.heap.follow derived (.own i)
      executing := none
      ends := Function.update w.ends i (some .returned) }
  | .throws reason => w.executing.map fun (i, derived) =>
    { w with
      heap := w.heap.settle derived (.rejected reason)
      executing := none
      ends := Function.update w.ends i (some (.threw reason)) }
  | .settles i outcome =>
    if i < w.calls then
      match w.heap.promises (.own i) with
      | .pending _ => some { w with heap := w.heap.settle (.own i) outcome }
      | .settled _ => none
    else none

/-- How a function has settled: by throwing, or with the promise that it returned. -/
def outcomeOf (completion : Option (Completion E)) (own : Option (Settlement (Option V) E)) :
    Option (Settlement (Option V) E) :=
  match completion with
  | none => none
  | some .returned => own
  | some (.threw reason) => some (.rejected reason)

/-- How the function of call `i` has settled. -/
def World.outcome (w : World V E) (i : ℕ) : Option (Settlement (Option V) E) :=
  outcomeOf (w.ends i) (w.heap.promises (.own i)).outcome

/-- Nothing is left to run. -/
def World.Quiet (w : World V E) : Prop := w.executing = none ∧ w.heap.jobs = []

/-- The jobs of a program run while no function is on its stack. -/
theorem World.quiet_or_proceeds (w : World V E) :
    w.Quiet ∨ w.executing.isSome ∨ (step w .job).isSome := by
  cases hexec : w.executing with
  | some running => exact .inr (.inl rfl)
  | none =>
    cases hjobs : w.heap.jobs with
    | nil => exact .inl ⟨hexec, hjobs⟩
    | cons job jobs =>
      refine .inr (.inr ?_)
      simp only [step, hexec, hjobs]
      rfl

/-- The promise that a caller gets in a step `(before, label, after)`. -/
def callerOf (e : World V E × Label V E × World V E) : Option Ref :=
  match e.2.1 with
  | .call => some (withFacilitatorSubmissionLock e.1).2
  | .job | .returns | .throws _ | .settles _ _ => none

/-- The promises that the callers of a run have got, in the order of their calls. -/
def callers (steps : List (World V E × Label V E × World V E)) : List Ref :=
  steps.filterMap callerOf

/-- What the lock promises of a step `e`, the last one of `steps`. The function of the caller
that has got promise `(callers steps)[i]` is number `i`. -/
structure FifoMutex (steps : List (World V E × Label V E × World V E))
    (e : World V E × Label V E × World V E) : Prop where
  /-- The lock counts its calls. -/
  counts : e.2.2.calls = steps.countP fun e => e.2.1.isCall
  /-- A step starts the next function in the order of the calls, when all before have
  settled, or none. -/
  starts : e.2.2.started = e.1.started ∨
    e.2.2.started = e.1.started ++ [e.1.started.length] ∧
    e.1.started.length < e.1.calls ∧ ∀ i < e.1.started.length, (e.1.outcome i).isSome
  /-- What a caller gets is what its function did. -/
  ownOutcome : ∀ i r outcome, (callers steps)[i]? = some r →
    e.2.2.heap.promises r = .settled outcome → e.2.2.outcome i = some outcome
  /-- Unless nothing is left to run, a function is executing or a job can run. -/
  proceeds : e.2.2.Quiet ∨ e.2.2.executing.isSome ∨ (step e.2.2 .job).isSome
  /-- With nothing left to run, every caller whose function has settled has its result. -/
  delivers : e.2.2.Quiet → ∀ i outcome, e.2.2.outcome i = some outcome →
    ∃ r, (callers steps)[i]? = some r ∧ e.2.2.heap.promises r = .settled outcome
  /-- With nothing left to run, calls wait only for a function that has not settled. -/
  serves : e.2.2.Quiet → (∀ i ∈ e.2.2.started, (e.2.2.outcome i).isSome) →
    e.2.2.started = List.range e.2.2.calls

/-- A call is counted, and nothing else is. -/
theorem calls_of_step {w w' : World V E} {a : Label V E} (hs : step w a = some w') :
    w'.calls = w.calls + a.isCall.toNat := by
  cases a with
  | call =>
    cases hs
    rfl
  | job =>
    simp only [step] at hs
    split at hs
    case h_1 job jobs hexec hjobs =>
      cases hs
      cases job with
      | react reaction outcome =>
        cases reaction with
        | handle handler derived => cases handler <;> rfl
        | adopt target => rfl
      | link target source => rfl
    case h_2 => cases hs
  | returns | throws =>
    simp only [step, Option.map_eq_some_iff] at hs
    obtain ⟨running, -, rfl⟩ := hs
    rfl
  | settles i outcome =>
    simp only [step] at hs
    split at hs
    case isFalse => cases hs
    case isTrue =>
      split at hs
      · cases hs
        rfl
      · cases hs

/-- The callers have got the promises `run`, one for each call. -/
def World.Served (w : World V E) (steps : List (World V E × Label V E × World V E)) : Prop :=
  w.calls = steps.countP (fun e => e.2.1.isCall) ∧
    callers steps = (List.range w.calls).map .run

/-- A caller has got the promise that its number says. -/
theorem World.Served.getElem?_callers {w : World V E}
    {steps : List (World V E × Label V E × World V E)} (h : w.Served steps) {i : ℕ} {r : Ref} :
    (callers steps)[i]? = some r ↔ i < w.calls ∧ r = .run i := by
  rw [h.2, List.getElem?_map]
  by_cases hi : i < w.calls
  · rw [List.getElem?_range hi, Option.map_some, Option.some_inj, eq_comm]
    exact (and_iff_right hi).symm
  · have hnone : (List.range w.calls)[i]? = none :=
      List.getElem?_eq_none (by rw [List.length_range]; omega)
    rw [hnone]
    exact iff_of_false (fun hr => nomatch hr) fun hr => hi hr.1

theorem World.Served.step {w w' : World V E} {a : Label V E}
    {steps : List (World V E × Label V E × World V E)} (h : w.Served steps)
    (hs : step w a = some w') : w'.Served (steps ++ [(w, a, w')]) := by
  obtain ⟨hcount, hcallers⟩ := h
  have hcalls := calls_of_step hs
  rw [World.Served, List.countP_append, callers, List.filterMap_append]
  rw [callers] at hcallers
  rw [hcallers, hcalls]
  cases a with
  | call =>
    refine ⟨congrArg (· + 1) hcount, ?_⟩
    show (List.range w.calls).map Ref.run ++ [.run w.calls] = (List.range (w.calls + 1)).map .run
    rw [List.range_succ, List.map_append]
    rfl
  | job | returns | throws | settles => exact ⟨hcount, List.append_nil _⟩

end KonfirmBackend.SubmissionLock
