import KonfirmBackend.Lib.Budget
import Mathlib.Algebra.Order.Ring.Rat

/-!
# The facilitator's spend guard

`FacilitatorSpendGuardService` with its two tables. What is spent is logged before it is
signed for; an amount that would exceed the daily cap is refused and halts all further
signing until an admin resumes it.

## Main definitions

- `SpendState` — `facilitator_spend_log` and `facilitator_state`
- `checkSpend` — what `checkAndRecordSpend` makes of the answers to its two queries
- `SpendState.halt`, `record`, `resume` — the statements that write

## Main results

- `checkSpend_eq_ok_iff` — when an amount is let through
- `SpendState.withinCap_record` — logging an amount that fits keeps to the daily cap
-/

namespace KonfirmBackend.Facilitator

/-- A row of `facilitator_spend_log`; times are in microseconds. -/
structure SpendRow where
  amountUsdc : ℚ
  operation : String
  reference : Option String
  createdAt : ℕ
deriving DecidableEq

/-- The two tables. `facilitator_state` holds the values of `halted_at` and `halt_reason`. -/
structure SpendState where
  log : List SpendRow
  haltedAt : Option ℕ
  haltReason : Option String
deriving DecidableEq

/-- How numbers and times are printed into messages. -/
structure Printer where
  number : ℚ → String
  timestamp : ℕ → String

/-- The errors `FacilitatorHalted` and `FacilitatorSpendCapExceeded`. The latter comes with
the reason that is stored. -/
inductive SpendRefusal
  | halted (message : String)
  | capExceeded (haltReason message : String)
deriving DecidableEq

namespace SpendState

def empty : SpendState := ⟨[], none, none⟩

variable (cal : Budget.Calendar ℕ)

/-- The total since `date_trunc('day', NOW())`. -/
def spentToday (db : SpendState) (now : ℕ) : ℚ :=
  Budget.spentSince SpendRow.createdAt SpendRow.amountUsdc (cal.startOfDay now) db.log

/-- No day's total exceeds the cap. -/
def WithinCap (cap : ℚ) (db : SpendState) : Prop :=
  Budget.WithinCap cal SpendRow.createdAt SpendRow.amountUsdc cap db.log

/-- The first statement of `halt`. -/
def halt (db : SpendState) (now : ℕ) : SpendState := { db with haltedAt := some now }

/-- The second statement of `halt`. -/
def setHaltReason (db : SpendState) (reason : String) : SpendState :=
  { db with haltReason := some reason }

def record (db : SpendState) (row : SpendRow) : SpendState := { db with log := db.log ++ [row] }

/-- `resume` deletes both keys. -/
def resume (db : SpendState) : SpendState := { db with haltedAt := none, haltReason := none }

end SpendState

/-- ` ${reference}`, for a reference that is there and not empty. -/
def referenceSuffix (reference : Option String) : String :=
  match reference.filter (· ≠ "") with
  | some reference => " " ++ reference
  | none => ""

/-- `checkAndRecordSpend` once it has read `halted_at` and today's total. -/
def checkSpend (print : Printer) (cap : ℚ) (halted : Option ℕ) (spentToday amountUsdc : ℚ)
    (operation : String) (reference : Option String) : Except SpendRefusal Unit :=
  match halted with
  | some haltedAt =>
    .error (.halted ("facilitator signing is halted (since " ++ print.timestamp haltedAt ++
      ") pending manual review -- see GET /admin/facilitator/status, resume via POST " ++
      "/admin/facilitator/resume"))
  | none =>
    if spentToday + amountUsdc > cap then
      .error (.capExceeded
        ("daily cap exceeded: attempted $" ++ print.number amountUsdc ++ " (" ++ operation ++
          referenceSuffix reference ++ ") with $" ++ print.number spentToday ++
          " already spent today against a $" ++ print.number cap ++ " cap")
        ("signing this $" ++ print.number amountUsdc ++ " " ++ operation ++
          " would exceed the daily cap of $" ++ print.number cap ++ " ($" ++
          print.number spentToday ++ " already spent today) -- halting further signing " ++
          "pending manual review"))
    else .ok ()

variable {print : Printer} {cal : Budget.Calendar ℕ} {cap spent amountUsdc : ℚ}
  {halted : Option ℕ} {operation : String} {reference : Option String}

theorem checkSpend_eq_ok_iff :
    checkSpend print cap halted spent amountUsdc operation reference = .ok () ↔
      halted = none ∧ spent + amountUsdc ≤ cap := by
  cases halted with
  | some haltedAt => simp [checkSpend]
  | none =>
    by_cases hover : spent + amountUsdc > cap
    · simp [checkSpend, hover]
    · simp [checkSpend, hover, not_lt.mp hover]

/-- A day may end between the check and the logging. -/
theorem SpendState.withinCap_record {db : SpendState} {row : SpendRow} {checkedAt : ℕ}
    (hdb : db.WithinCap cal cap) (hnonneg : ∀ row ∈ db.log, 0 ≤ row.amountUsdc)
    (hlater : checkedAt ≤ row.createdAt)
    (hfits : db.spentToday cal checkedAt + row.amountUsdc ≤ cap) :
    (db.record row).WithinCap cal cap :=
  Budget.WithinCap.append hdb hnonneg hlater hfits

end KonfirmBackend.Facilitator
