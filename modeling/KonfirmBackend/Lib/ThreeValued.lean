import Mathlib.Order.Basic

/-!
# Three-valued logic

The truth values of SQL: true, false and unknown. A comparison with a null is unknown,
and a row is selected only by a condition that is true.

## Main definitions

- `Truth` — a truth value
- `Truth.and`, `Truth.or`, `Truth.isNull`, `Truth.gt` — the connectives and tests

## Main results

- `Truth.and_eq_true_iff`, `Truth.or_eq_true_iff`, `Truth.gt_eq_true_iff` — when each is true
-/

/-- A truth value of SQL; `none` is unknown. -/
abbrev Truth := Option Bool

namespace Truth

/-- False decides a conjunction, unknown or not. -/
def and : Truth → Truth → Truth
  | some true, b => b
  | some false, _ => some false
  | none, some false => some false
  | none, _ => none

/-- True decides a disjunction, unknown or not. -/
def or : Truth → Truth → Truth
  | some false, b => b
  | some true, _ => some true
  | none, some true => some true
  | none, _ => none

variable {α : Type*}

def isNull (x : Option α) : Truth := some x.isNone

def isNotNull (x : Option α) : Truth := some x.isSome

section Compare

variable [LT α] [DecidableLT α]

/-- `x > y`. -/
def gt : Option α → Option α → Truth
  | some x, some y => some (decide (y < x))
  | _, _ => none

theorem gt_eq_true_iff {x y : Option α} :
    gt x y = some true ↔ ∃ a ∈ x, ∃ b ∈ y, b < a := by
  cases x <;> cases y <;> simp [gt]

end Compare

theorem and_eq_true_iff {a b : Truth} : a.and b = some true ↔ a = some true ∧ b = some true := by
  match a, b with
  | some true, b => simp [and]
  | some false, b => simp [and]
  | none, some false => simp [and]
  | none, some true => simp [and]
  | none, none => simp [and]

theorem or_eq_true_iff {a b : Truth} : a.or b = some true ↔ a = some true ∨ b = some true := by
  match a, b with
  | some true, b => simp [or]
  | some false, b => simp [or]
  | none, some false => simp [or]
  | none, some true => simp [or]
  | none, none => simp [or]

theorem isNull_eq_true_iff {x : Option α} : isNull x = some true ↔ x = none := by
  simp [isNull]

theorem isNotNull_eq_true_iff {x : Option α} : isNotNull x = some true ↔ ∃ a, x = some a := by
  simp [isNotNull, Option.isSome_iff_exists]

end Truth
