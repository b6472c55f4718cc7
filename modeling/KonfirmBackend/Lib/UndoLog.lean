import Mathlib.Data.List.Induction

/-!
# Actions and their undoing

A log says in which order actions were done and undone. What is in effect at its end is a
list in the order of application, so that its last elements are the ones to undo first.

## Main definitions

- `UndoLog.Entry` — an action was done, or undone
- `UndoLog.InEffect` — the last entry about the action says that it was done
- `UndoLog.applied` — the actions in effect, in order of application
- `UndoLog.Stacked` — only the last action in effect is ever undone
- `UndoLog.Undoes` — undoing the last action takes back what is observed of its effect

## Main results

- `UndoLog.mem_applied_iff` — the list has the actions in effect
- `UndoLog.applied_concat_undid` — undoing the last one leaves the others in their order
- `UndoLog.Stacked.observe_foldl` — a stacked log has the effect of the actions that are in effect
-/

namespace UndoLog

inductive Entry (α : Type*)
  | did (a : α)
  | undid (a : α)
deriving DecidableEq

variable {α : Type*} [DecidableEq α]

def Entry.action : Entry α → α
  | .did a => a
  | .undid a => a

def InEffect (log : List (Entry α)) (a : α) : Prop :=
  (log.filter fun e => e.action = a).getLast? = some (.did a)

def replay (applied : List α) : Entry α → List α
  | .did a => applied ++ [a]
  | .undid a => applied.filter (· ≠ a)

def applied (log : List (Entry α)) : List α := log.foldl replay []

theorem applied_concat (log : List (Entry α)) (e : Entry α) :
    applied (log ++ [e]) = replay (applied log) e := by
  rw [applied, List.foldl_append, List.foldl_cons, List.foldl_nil, applied]

theorem applied_concat_did (log : List (Entry α)) (a : α) :
    applied (log ++ [.did a]) = applied log ++ [a] := applied_concat log _

theorem applied_concat_undid {log : List (Entry α)} {kept : List α} {a : α}
    (h : applied log = kept ++ [a]) (hnodup : (applied log).Nodup) :
    applied (log ++ [.undid a]) = kept := by
  rw [h] at hnodup
  have ha : ∀ b ∈ kept, b ≠ a := by
    rintro b hb rfl
    exact (List.nodup_append.mp hnodup).2.2 b hb b (List.mem_singleton_self b) rfl
  rw [applied_concat, h, replay, List.filter_append, List.filter_eq_self.mpr (by simpa using ha)]
  simp

theorem inEffect_concat (log : List (Entry α)) (e : Entry α) (a : α) :
    InEffect (log ++ [e]) a ↔ if e.action = a then e = .did a else InEffect log a := by
  rw [InEffect, List.filter_append]
  by_cases h : e.action = a <;> simp [h, InEffect]

theorem mem_applied_iff (log : List (Entry α)) (a : α) : a ∈ applied log ↔ InEffect log a := by
  induction log using List.reverseRecOn with
  | nil => simp [applied, InEffect]
  | append_singleton log e ih =>
    rw [applied_concat, inEffect_concat, ← ih]
    cases e with
    | did b =>
      by_cases h : b = a
      · simp [replay, Entry.action, h]
      · simp [replay, Entry.action, h, Ne.symm h]
    | undid b =>
      by_cases h : b = a
      · simp [replay, Entry.action, h]
      · simp [replay, Entry.action, h, Ne.symm h]

/-! ## Stacked logs -/

/-- Nothing is done that is in effect, and nothing is undone but the last of what is. -/
inductive Stacked : List (Entry α) → Prop
  | nil : Stacked []
  | did {log : List (Entry α)} {a : α} (h : Stacked log) (hnew : a ∉ applied log) :
      Stacked (log ++ [.did a])
  | undid {log : List (Entry α)} {kept : List α} {a : α} (h : Stacked log)
      (hlast : applied log = kept ++ [a]) : Stacked (log ++ [.undid a])

variable {σ ω : Type*}

/-- The state after the actions, each done once and none undone. -/
def build (act : σ → Entry α → σ) (s : σ) (actions : List α) : σ :=
  (actions.map Entry.did).foldl act s

omit [DecidableEq α] in
theorem build_concat (act : σ → Entry α → σ) (s : σ) (actions : List α) (a : α) :
    build act s (actions ++ [a]) = act (build act s actions) (.did a) := by
  rw [build, List.map_append, List.foldl_append]
  rfl

/-- What is observed of a state determines what is observed after an action or an undoing, and on
what distinct actions have made of `s`, undoing the last of them looks as if it were not done. -/
structure Undoes (observe : σ → ω) (act : σ → Entry α → σ) (s : σ) : Prop where
  congr : ∀ (t u : σ) (e : Entry α), observe t = observe u → observe (act t e) = observe (act u e)
  undo : ∀ (kept : List α) (a : α), (kept ++ [a]).Nodup →
    observe (act (build act s (kept ++ [a])) (.undid a)) = observe (build act s kept)

namespace Stacked

variable {log : List (Entry α)}

theorem nodup (h : Stacked log) : (applied log).Nodup := by
  induction h with
  | nil => exact List.nodup_nil
  | did h hnew ih =>
    rw [applied_concat_did]
    exact List.nodup_append.mpr ⟨ih, List.pairwise_singleton _ _, fun b hb c hc hbc =>
      hnew (by rwa [← List.mem_singleton.mp hc, ← hbc])⟩
  | undid h hlast ih =>
    rw [applied_concat_undid hlast ih]
    rw [hlast] at ih
    exact (List.nodup_append.mp ih).1

/-- What was undone might as well not have been done. -/
theorem observe_foldl {observe : σ → ω} {act : σ → Entry α → σ} {s : σ}
    (hundo : Undoes observe act s) (h : Stacked log) :
    observe (log.foldl act s) = observe (build act s (applied log)) := by
  induction h with
  | nil => rfl
  | @did log a h hnew ih =>
    rw [List.foldl_append, applied_concat_did, build_concat]
    exact hundo.congr _ _ _ ih
  | @undid log kept a h hlast ih =>
    have hnodup := h.nodup
    rw [List.foldl_append, applied_concat_undid hlast hnodup]
    calc observe (act (log.foldl act s) (.undid a))
        = observe (act (build act s (kept ++ [a])) (.undid a)) := by
          rw [hlast] at ih
          exact hundo.congr _ _ _ ih
      _ = observe (build act s kept) := hundo.undo kept a (hlast ▸ hnodup)

theorem append_did (h : Stacked log) {actions : List α}
    (hnodup : (applied log ++ actions).Nodup) :
    Stacked (log ++ actions.map .did) ∧ applied (log ++ actions.map .did) =
      applied log ++ actions := by
  induction actions generalizing log with
  | nil => simpa using h
  | cons a actions ih =>
    have hnew : a ∉ applied log := by
      intro ha
      exact (List.nodup_append.mp hnodup).2.2 a ha a List.mem_cons_self rfl
    rw [List.append_cons] at hnodup
    rw [List.map_cons, List.append_cons, List.append_cons (applied log), ← applied_concat_did]
    rw [← applied_concat_did] at hnodup
    exact ih (h.did hnew) hnodup

theorem append_undid (h : Stacked log) {kept actions : List α}
    (happlied : applied log = kept ++ actions.reverse) :
    Stacked (log ++ actions.map .undid) ∧ applied (log ++ actions.map .undid) = kept := by
  induction actions generalizing log with
  | nil => simpa [happlied] using h
  | cons a actions ih =>
    rw [List.reverse_cons, ← List.append_assoc] at happlied
    rw [List.map_cons, List.append_cons]
    exact ih (h.undid happlied) (applied_concat_undid happlied h.nodup)

end Stacked

end UndoLog
