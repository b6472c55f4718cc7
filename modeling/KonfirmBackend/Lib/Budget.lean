import Mathlib.Algebra.Order.BigOperators.Group.List
import Mathlib.Data.List.Basic

/-!
# Budgets by the day

A log of amounts with their times, and a calendar that cuts time into days. An amount is
logged when it fits into what is left of a cap since the start of a day. The amounts of
each day then stay within the cap, also when the amount is logged on a later day than the
one it was checked on.

## Main definitions

- `Calendar` — the start of the day of a time
- `spentSince`, `spentOn` — sums of the log
- `WithinCap` — no day exceeds the cap

## Main results

- `spentOn_le_spentSince` — what is spent since the start of a day covers the day
- `WithinCap.append` — an amount that fits keeps every day within the cap
-/

namespace Budget

/-- A division of time into days. A day goes by the time it starts at. -/
structure Calendar (T : Type*) [LinearOrder T] where
  startOfDay : T → T
  startOfDay_le : ∀ t, startOfDay t ≤ t
  monotone : Monotone startOfDay

section Sums

variable {T ε α : Type*} [LinearOrder T] [AddCommMonoid α] (cal : Calendar T) (time : ε → T)
  (amount : ε → α)

/-- The amounts logged from `t` on. -/
def spentSince (t : T) (log : List ε) : α :=
  ((log.filter fun e => decide (t ≤ time e)).map amount).sum

/-- The amounts logged on a day. -/
def spentOn (day : T) (log : List ε) : α :=
  ((log.filter fun e => decide (cal.startOfDay (time e) = day)).map amount).sum

variable {cal time amount}

theorem spentOn_append (day : T) (log : List ε) (e : ε) :
    spentOn cal time amount day (log ++ [e]) =
      spentOn cal time amount day log +
        if cal.startOfDay (time e) = day then amount e else 0 := by
  by_cases hday : cal.startOfDay (time e) = day
  · simp [spentOn, List.filter_append, hday]
  · simp [spentOn, List.filter_append, hday]

end Sums

section Caps

variable {T ε α : Type*} [LinearOrder T] [AddCommMonoid α] [PartialOrder α] (cal : Calendar T)
  (time : ε → T) (amount : ε → α)

def WithinCap (cap : α) (log : List ε) : Prop := ∀ day, spentOn cal time amount day log ≤ cap

variable {cal time amount} {cap : α} {log : List ε} {e : ε} {t day : T}

theorem withinCap_nil (hcap : 0 ≤ cap) : WithinCap cal time amount cap [] := fun _ => hcap

variable [IsOrderedAddMonoid α]

/-- The entries of a day come after its start. -/
theorem spentOn_le_spentSince (h : ∀ e ∈ log, 0 ≤ amount e) (hday : t ≤ day) :
    spentOn cal time amount day log ≤ spentSince time amount t log := by
  have hsub : (log.filter fun e => decide (cal.startOfDay (time e) = day)).Sublist
      (log.filter fun e => decide (t ≤ time e)) := by
    apply List.monotone_filter_right
    intro e he
    rw [decide_eq_true_eq] at he ⊢
    calc t ≤ day := hday
      _ = cal.startOfDay (time e) := he.symm
      _ ≤ time e := cal.startOfDay_le (time e)
  apply (hsub.map amount).sum_le_sum
  intro x hx
  obtain ⟨e, he, rfl⟩ := List.mem_map.mp hx
  exact h e (List.mem_of_mem_filter he)

/-- **Spending within the cap**: an amount that was found to fit, at some time `t`, into what
was left of the cap since the start of that day may be logged at any later time. -/
theorem WithinCap.append (hlog : WithinCap cal time amount cap log)
    (h : ∀ e ∈ log, 0 ≤ amount e) (ht : t ≤ time e)
    (hfits : spentSince time amount (cal.startOfDay t) log + amount e ≤ cap) :
    WithinCap cal time amount cap (log ++ [e]) := by
  intro day
  rw [spentOn_append]
  by_cases hday : cal.startOfDay (time e) = day
  · rw [if_pos hday]
    have hle : cal.startOfDay t ≤ day := hday ▸ cal.monotone ht
    exact (add_le_add_left (spentOn_le_spentSince h hle) _).trans hfits
  · rw [if_neg hday, add_zero]
    exact hlog day

end Caps

end Budget
