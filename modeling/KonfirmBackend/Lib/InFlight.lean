import Mathlib.Data.List.Basic

/-!
# Operations in flight over a shared cell

An operation that reads a cell in one step and acts on it in a later one runs
concurrently with other writers. `InFlight α V` pairs such an operation with what the
cell held when it started and with the values stored in the cell since. These two are
history variables: a model appends to them and never branches on them.

## Main definitions

- `InFlight.start` — an operation that has just read the cell
- `InFlight.note` — a writer stores a value
- `InFlight.latest` — what the cell holds now

## Main results

- `InFlight.latest_of_mem_append_start`, `InFlight.latest_of_mem_map_note` — an
  operation in flight keeps track of the cell
-/

/-- An operation between its read and its write, with the content of the cell at the
read and the values stored since, oldest first. -/
structure InFlight (α V : Type*) where
  op : α
  saw : V
  since : List V
deriving DecidableEq

namespace InFlight

variable {α V : Type*}

def start (op : α) (saw : V) : InFlight α V := ⟨op, saw, []⟩

def note (v : V) (f : InFlight α V) : InFlight α V := { f with since := f.since ++ [v] }

/-- What the cell holds: the last value stored, or else what the operation saw. -/
def latest (f : InFlight α V) : V := f.since.getLast?.getD f.saw

variable {f : InFlight α V} {fs : List (InFlight α V)} {op : α} {v w : V}

@[simp] theorem start_op : (start op v : InFlight α V).op = op := rfl

@[simp] theorem note_since : (f.note v).since = f.since ++ [v] := rfl

@[simp] theorem latest_start : (start op v : InFlight α V).latest = v := rfl

@[simp] theorem latest_note : (f.note v).latest = v := by simp [latest]

theorem latest_of_since_nil (h : f.since = []) : f.latest = f.saw := by simp [latest, h]

theorem latest_of_getLast? (h : f.since.getLast? = some v) : f.latest = v := by simp [latest, h]

/-- Starting one more operation. -/
theorem forall_append_start {P : InFlight α V → Prop} (h : ∀ f ∈ fs, P f)
    (hs : P (start op v)) : ∀ f ∈ fs ++ [start op v], P f := by
  intro f hf
  rcases List.mem_append.mp hf with hf | hf
  · exact h f hf
  · rw [List.mem_singleton.mp hf]
    exact hs

/-- Finishing one operation. -/
theorem forall_eraseIdx {P : InFlight α V → Prop} (i : ℕ) (h : ∀ f ∈ fs, P f) :
    ∀ f ∈ fs.eraseIdx i, P f :=
  fun f hf => h f (List.mem_of_mem_eraseIdx hf)

/-- What holds of the operations once a write is noted. -/
theorem forall_map_note {P : InFlight α V → Prop} (h : ∀ f ∈ fs, P (f.note v)) :
    ∀ f ∈ fs.map (note v), P f := by
  intro f hf
  obtain ⟨g, hg, rfl⟩ := List.mem_map.mp hf
  exact h g hg

/-- An operation that has just read the cell knows its content. -/
theorem latest_of_mem_append_start (h : ∀ f ∈ fs, f.latest = v) :
    ∀ f ∈ fs ++ [start op v], f.latest = v :=
  forall_append_start h latest_start

/-- After a write has been noted, every operation knows the new content. -/
theorem latest_of_mem_map_note : ∀ f ∈ fs.map (note v), f.latest = v :=
  forall_map_note fun _ _ => latest_note

end InFlight
