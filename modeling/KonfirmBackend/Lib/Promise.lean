import Mathlib.Logic.Function.Basic

/-!
# Promises and their jobs

The promises of a program, with the queue of jobs that run their reactions. Promises are
named by `R`, the handlers that a program attaches by `H`; what a handler does when its job
runs is the program's own matter.

A promise is settled once. Its reactions then become jobs, in the order in which they were
attached; a reaction attached later becomes a job at once. Resolving a promise with another
promise takes one job to attach to it, and one more to pass its outcome on.

## Main definitions

- `Promise.Settlement` — the outcome of a promise
- `Promise.Reaction` — what waits for an outcome: a handler, or a promise that adopts it
- `Promise.Job` — a reaction that is due, or a promise about to follow another
- `Promise.Heap` — the promises and the jobs, first come, first served

## Main results

- `Promise.Heap.settle_of_pending` — the reactions become jobs
- `Promise.Heap.subscribe_of_settled` — a late reaction becomes a job at once
-/

namespace Promise

inductive Settlement (V E : Type*)
  | fulfilled (value : V)
  | rejected (reason : E)
deriving DecidableEq

/-- `handle` runs a handler and settles the promise that `then` returned; `adopt` settles
its target as the awaited promise was. -/
inductive Reaction (R H : Type*)
  | handle (handler : H) (derived : R)
  | adopt (target : R)
deriving DecidableEq

inductive Job (R H V E : Type*)
  | react (reaction : Reaction R H) (outcome : Settlement V E)
  | link (target source : R)
deriving DecidableEq

inductive State (R H V E : Type*)
  | pending (reactions : List (Reaction R H))
  | settled (outcome : Settlement V E)
deriving DecidableEq

def State.outcome {R H V E : Type*} : State R H V E → Option (Settlement V E)
  | .pending _ => none
  | .settled outcome => some outcome

structure Heap (R H V E : Type*) where
  promises : R → State R H V E
  jobs : List (Job R H V E)

namespace Heap

variable {R H V E : Type*} [DecidableEq R]

/-- The resolve and reject functions of a promise; the second call does nothing. -/
def settle (h : Heap R H V E) (r : R) (outcome : Settlement V E) : Heap R H V E :=
  match h.promises r with
  | .pending reactions =>
    { promises := Function.update h.promises r (.settled outcome)
      jobs := h.jobs ++ reactions.map fun reaction => .react reaction outcome }
  | .settled _ => h

/-- `then` on a promise. -/
def subscribe (h : Heap R H V E) (r : R) (reaction : Reaction R H) : Heap R H V E :=
  match h.promises r with
  | .pending reactions =>
    { h with promises := Function.update h.promises r (.pending (reactions ++ [reaction])) }
  | .settled outcome => { h with jobs := h.jobs ++ [.react reaction outcome] }

/-- Resolve a promise with another one. -/
def follow (h : Heap R H V E) (target source : R) : Heap R H V E :=
  { h with jobs := h.jobs ++ [.link target source] }

variable {promises : R → State R H V E} {jobs : List (Job R H V E)} {r : R}

theorem settle_of_pending {reactions : List (Reaction R H)}
    (hr : promises r = .pending reactions) (outcome : Settlement V E) :
    settle ⟨promises, jobs⟩ r outcome =
      ⟨Function.update promises r (.settled outcome),
        jobs ++ reactions.map fun reaction => .react reaction outcome⟩ := by
  simp only [settle, hr]

theorem subscribe_of_pending {reactions : List (Reaction R H)}
    (hr : promises r = .pending reactions) (reaction : Reaction R H) :
    subscribe ⟨promises, jobs⟩ r reaction =
      ⟨Function.update promises r (.pending (reactions ++ [reaction])), jobs⟩ := by
  simp only [subscribe, hr]

theorem subscribe_of_settled {outcome : Settlement V E} (hr : promises r = .settled outcome)
    (reaction : Reaction R H) :
    subscribe ⟨promises, jobs⟩ r reaction =
      ⟨promises, jobs ++ [.react reaction outcome]⟩ := by
  simp only [subscribe, hr]

end Heap

end Promise
