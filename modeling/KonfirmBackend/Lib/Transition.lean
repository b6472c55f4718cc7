import Mathlib.Logic.Relation
import Mathlib.Order.Basic

/-!
# Labelled transition systems with executable steps

A system is a partial step function `S → L → Option S`. A schedule is a list of
labels; executing it either succeeds or stops at the first disabled label. The
file collects the induction rules that carry a fact about one step to every run.

## Main definitions

- `Transition.exec` — the state a schedule ends in, if every label is enabled
- `Transition.trace` — the steps a schedule takes before its first disabled label
- `Transition.Reaches` — reachability through labels that satisfy a predicate

## Main results

- `Transition.Reaches.invariant` — what every step preserves holds in every run
- `Transition.Reaches.simulate` — a step-by-step simulation lifts to runs
- `Transition.exists_step_of_exec` — what comes to hold in a run has a step that brings it about
- `Transition.effect_of_exec` — what a step has brought about and no step undoes
- `Transition.trace_forall_congr` — two properties of a step that agree under an
  invariant agree along every schedule
- `Transition.trace_invariant_of_forall` — a fact about states under a condition on steps
- `Transition.trace_invariant_iff` — when exactly a fact about states holds along a schedule
- `Transition.history_of_trace` — what holds of the steps so far and the state they lead to
- `Transition.exec_filterMap` — a part of a system follows the run of the whole
- `Transition.trace_map` — history variables can be erased
- `Transition.countP_trace_le` — steps of one kind paid for by steps of another
-/

namespace Transition

variable {S T L : Type*}

/-- Execute a schedule; `none` if some label is disabled when its turn comes. -/
def exec (step : S → L → Option S) : S → List L → Option S
  | s, [] => some s
  | s, l :: ls => (step s l).bind fun t => exec step t ls

/-- The steps `(before, label, after)` a schedule takes, up to the first label
that is disabled. -/
def trace (step : S → L → Option S) : S → List L → List (S × L × S)
  | _, [] => []
  | s, l :: ls =>
    match step s l with
    | none => []
    | some t => (s, l, t) :: trace step t ls

/-- One step through a label that satisfies `ok`. -/
def Succ (step : S → L → Option S) (ok : L → Prop) (s t : S) : Prop :=
  ∃ l, ok l ∧ step s l = some t

/-- Reachability through labels that satisfy `ok`. -/
def Reaches (step : S → L → Option S) (ok : L → Prop) : S → S → Prop :=
  Relation.ReflTransGen (Succ step ok)

variable {step : S → L → Option S} {ok : L → Prop} {s t u : S}

@[simp] theorem exec_nil : exec step s [] = some s := rfl

theorem exec_cons (l : L) (ls : List L) :
    exec step s (l :: ls) = (step s l).bind fun t => exec step t ls := rfl

/-- Executing one enabled label first. -/
theorem exec_cons_of_step {l : L} {ls : List L} (h : step s l = some t) :
    exec step s (l :: ls) = exec step t ls := by
  rw [exec_cons, h, Option.bind_some]

theorem exec_append (ls ms : List L) :
    exec step s (ls ++ ms) = (exec step s ls).bind fun t => exec step t ms := by
  induction ls generalizing s with
  | nil => rfl
  | cons l ls ih =>
    rw [List.cons_append, exec_cons, exec_cons]
    cases step s l with
    | none => rfl
    | some t => exact ih

theorem exec_append_of_exec {ls ms : List L} (h : exec step s ls = some t) :
    exec step s (ls ++ ms) = exec step t ms := by
  rw [exec_append, h, Option.bind_some]

/-- A schedule whose end state passes a decidable test. -/
theorem exists_exec_of_any {P : S → Prop} [DecidablePred P] {ls : List L}
    (h : (exec step s ls).any fun t => decide (P t)) : ∃ t, exec step s ls = some t ∧ P t := by
  obtain ⟨t, ht, hP⟩ := (Option.any_eq_true _ _).mp h
  exact ⟨t, ht, of_decide_eq_true hP⟩

namespace Reaches

theorem refl : Reaches step ok s s := Relation.ReflTransGen.refl

theorem trans (h₁ : Reaches step ok s t) (h₂ : Reaches step ok t u) :
    Reaches step ok s u := Relation.ReflTransGen.trans h₁ h₂

theorem tail {l : L} (h : Reaches step ok s t) (hl : ok l) (hs : step t l = some u) :
    Reaches step ok s u := Relation.ReflTransGen.tail h ⟨l, hl, hs⟩

theorem head {l : L} (hl : ok l) (hs : step s l = some t) (h : Reaches step ok t u) :
    Reaches step ok s u := Relation.ReflTransGen.head ⟨l, hl, hs⟩ h

/-- **Invariant rule**: what holds at the start and is preserved by every step
holds in every reachable state. -/
theorem invariant {I : S → Prop} (h : Reaches step ok s t) (h0 : I s)
    (hstep : ∀ a l b, ok l → I a → step a l = some b → I b) : I t := by
  induction h with
  | refl => exact h0
  | tail _ hs ih =>
    obtain ⟨l, hl, hab⟩ := hs
    exact hstep _ l _ hl ih hab

/-- **Simulation rule**: when, under an invariant of the source, every source
step is matched by some steps of the target, every run is. -/
theorem simulate {R : T → T → Prop} {I : S → Prop} (abs : S → T)
    (h : Reaches step ok s t) (h0 : I s)
    (hinv : ∀ a l b, ok l → I a → step a l = some b → I b)
    (hsim : ∀ a l b, ok l → I a → step a l = some b →
      Relation.ReflTransGen R (abs a) (abs b)) :
    I t ∧ Relation.ReflTransGen R (abs s) (abs t) := by
  refine h.invariant (I := fun a => I a ∧ Relation.ReflTransGen R (abs s) (abs a))
    ⟨h0, .refl⟩ ?_
  rintro a l b hl ⟨ha, hr⟩ hs
  exact ⟨hinv a l b hl ha hs, hr.trans (hsim a l b hl ha hs)⟩

/-- The end state of an executed schedule is reachable through its labels. -/
theorem of_exec {ls : List L} (hok : ∀ l ∈ ls, ok l) (h : exec step s ls = some t) :
    Reaches step ok s t := by
  induction ls generalizing s with
  | nil =>
    obtain rfl : s = t := by simpa using h
    exact refl
  | cons l ls ih =>
    rw [exec_cons] at h
    obtain ⟨a, ha, hrest⟩ := Option.bind_eq_some_iff.mp h
    exact head (hok l (by simp)) ha (ih (fun m hm => hok m (by simp [hm])) hrest)

end Reaches

/-- Every step of a trace is a step of the system from a reachable state. -/
theorem reaches_of_mem_trace {ls : List L} {e : S × L × S} (hok : ∀ l ∈ ls, ok l)
    (he : e ∈ trace step s ls) :
    Reaches step ok s e.1 ∧ ok e.2.1 ∧ step e.1 e.2.1 = some e.2.2 := by
  induction ls generalizing s with
  | nil => simp [trace] at he
  | cons l ls ih =>
    have hl : ok l := hok l (by simp)
    cases hs : step s l with
    | none => simp [trace, hs] at he
    | some t =>
      simp only [trace, hs, List.mem_cons] at he
      rcases he with rfl | he
      · exact ⟨.refl, hl, hs⟩
      · obtain ⟨hr, hrest⟩ := ih (fun m hm => hok m (by simp [hm])) he
        exact ⟨hr.head hl hs, hrest⟩

/-- The step after an executed schedule is on the trace of the longer one. -/
theorem mem_trace_of_exec {ls : List L} {l : L} (h : exec step s ls = some t)
    (hl : step t l = some u) : (t, l, u) ∈ trace step s (ls ++ [l]) := by
  induction ls generalizing s with
  | nil =>
    obtain rfl : s = t := by simpa using h
    simp [trace, hl]
  | cons m ls ih =>
    rw [exec_cons] at h
    obtain ⟨a, ha, hrest⟩ := Option.bind_eq_some_iff.mp h
    simp only [List.cons_append, trace, ha, List.mem_cons]
    exact .inr (ih hrest)

/-- **Cause rule**: what does not hold at the start of an executed schedule and holds at its end
begins to hold in one of its steps. -/
theorem exists_step_of_exec {P : S → Prop} {ls : List L} (h : exec step s ls = some t)
    (h0 : ¬P s) (hP : P t) : ∃ e ∈ trace step s ls, ¬P e.1 ∧ P e.2.2 := by
  induction ls generalizing s with
  | nil =>
    obtain rfl : s = t := by simpa using h
    exact absurd hP h0
  | cons l ls ih =>
    rw [exec_cons] at h
    obtain ⟨a, ha, hrest⟩ := Option.bind_eq_some_iff.mp h
    simp only [trace, ha, List.mem_cons]
    by_cases hPa : P a
    · exact ⟨_, .inl rfl, h0, hPa⟩
    · obtain ⟨e, he, hcause⟩ := ih hrest hPa
      exact ⟨e, .inr he, hcause⟩

/-- The invariant rule at the end of an executed schedule whose steps satisfy `H`. -/
theorem invariant_of_exec {I : S → Prop} {H : S × L × S → Prop} (h0 : I s)
    (hinv : ∀ a l b, I a → H (a, l, b) → step a l = some b → I b) {ls : List L}
    (hH : ∀ e ∈ trace step s ls, H e) (h : exec step s ls = some t) : I t := by
  induction ls generalizing s with
  | nil =>
    obtain rfl : s = t := by simpa using h
    exact h0
  | cons l ls ih =>
    rw [exec_cons] at h
    obtain ⟨a, ha, hrest⟩ := Option.bind_eq_some_iff.mp h
    simp only [trace, ha, List.forall_mem_cons] at hH
    exact ih (hinv s l a h0 hH.1 ha) hH.2 hrest

/-- **Effect rule**: what a step with `Q` brings about, and every step keeps, holds at the end
of an executed schedule that has such a step. -/
theorem effect_of_exec {I J : S → Prop} {H Q : S × L × S → Prop} (h0 : I s)
    (hinv : ∀ a l b, I a → H (a, l, b) → step a l = some b → I b)
    (hkeep : ∀ a l b, I a → H (a, l, b) → step a l = some b → J a ∨ Q (a, l, b) → J b)
    {ls : List L} (hH : ∀ e ∈ trace step s ls, H e) (h : exec step s ls = some t)
    (hQ : J s ∨ ∃ e ∈ trace step s ls, Q e) : J t := by
  induction ls generalizing s with
  | nil =>
    obtain rfl : s = t := by simpa using h
    cases hQ with
    | inl hJ => exact hJ
    | inr he =>
      obtain ⟨e, he, -⟩ := he
      cases he
  | cons l ls ih =>
    rw [exec_cons] at h
    obtain ⟨a, ha, hrest⟩ := Option.bind_eq_some_iff.mp h
    simp only [trace, ha, List.forall_mem_cons] at hH
    simp only [trace, ha, List.mem_cons, exists_eq_or_imp] at hQ
    refine ih (hinv s l a h0 hH.1 ha) hH.2 hrest ?_
    obtain hJ | hQ | hlater := hQ
    · exact .inl (hkeep s l a h0 hH.1 ha (.inl hJ))
    · exact .inl (hkeep s l a h0 hH.1 ha (.inr hQ))
    · exact .inr hlater

/-- **Run rule for properties of steps**: if, along steps that satisfy `H`, an
invariant is kept and a step has `P` exactly when it has `Q`, then a run all of whose
steps have `P` is a run all of whose steps have `Q`. -/
theorem trace_forall_congr {I : S → Prop} {H P Q : S × L × S → Prop} (h0 : I s)
    (hinv : ∀ a l b, I a → H (a, l, b) → step a l = some b → I b)
    (hiff : ∀ a l b, I a → H (a, l, b) → step a l = some b → (P (a, l, b) ↔ Q (a, l, b)))
    {ls : List L} (hH : ∀ e ∈ trace step s ls, H e) :
    (∀ e ∈ trace step s ls, P e) ↔ ∀ e ∈ trace step s ls, Q e := by
  induction ls generalizing s with
  | nil => simp [trace]
  | cons l ls ih =>
    cases hs : step s l with
    | none => simp [trace, hs]
    | some t =>
      simp only [trace, hs, List.forall_mem_cons] at hH ⊢
      exact and_congr (hiff s l t h0 hH.1 hs) (ih (hinv s l t h0 hH.1 hs) hH.2)

/-- **Conditional invariant rule**: what every step with `H` keeps holds all along a schedule
whose steps all have `H`. -/
theorem trace_invariant_of_forall {I : S → Prop} {H : S × L × S → Prop} (h0 : I s)
    (hinv : ∀ a l b, I a → H (a, l, b) → step a l = some b → I b) {ls : List L}
    (hH : ∀ e ∈ trace step s ls, H e) : ∀ e ∈ trace step s ls, I e.2.2 := by
  have hiff := trace_forall_congr (P := fun e => I e.2.2) (Q := fun _ => True) h0 hinv
    (fun a l b ha hH hs => iff_of_true (hinv a l b ha hH hs) trivial) hH
  exact hiff.mpr fun _ _ => trivial

/-- **Exact invariant rule**: if a step from a state with `I` keeps `I` exactly when the
step has `Q`, then `I` holds all along a schedule exactly when all its steps have `Q`. -/
theorem trace_invariant_iff {I : S → Prop} {Q : S × L × S → Prop} (h0 : I s)
    (hiff : ∀ a l b, I a → step a l = some b → (I b ↔ Q (a, l, b))) (ls : List L) :
    (∀ e ∈ trace step s ls, I e.2.2) ↔ ∀ e ∈ trace step s ls, Q e := by
  induction ls generalizing s with
  | nil => simp [trace]
  | cons l ls ih =>
    cases hs : step s l with
    | none => simp [trace, hs]
    | some t =>
      simp only [trace, hs, List.forall_mem_cons, ← hiff s l t h0 hs]
      exact and_congr_right fun ht => ih ht

/-- **History rule**: what every step keeps about the steps so far and the state that they lead
to holds at each point of a schedule. -/
theorem history_of_trace {I : List (S × L × S) → S → Prop} (h0 : I [] s)
    (hstep : ∀ steps a l b, I steps a → step a l = some b → I (steps ++ [(a, l, b)]) b)
    {ls : List L} {before after : List (S × L × S)} {e : S × L × S}
    (h : trace step s ls = before ++ e :: after) : I (before ++ [e]) e.2.2 := by
  have hgo : ∀ (ls : List L) (s : S) (steps before : List (S × L × S)), I steps s →
      trace step s ls = before ++ e :: after → I (steps ++ (before ++ [e])) e.2.2 := by
    intro ls
    induction ls with
    | nil => intro s steps before _ h; simp [trace] at h
    | cons l ls ih =>
      intro s steps before hs h
      cases hl : step s l with
      | none => simp [trace, hl] at h
      | some t =>
        simp only [trace, hl] at h
        have hnext : I (steps ++ [(s, l, t)]) t := hstep steps s l t hs hl
        cases before with
        | nil =>
          obtain ⟨rfl, -⟩ := List.cons.inj h
          exact hnext
        | cons first before =>
          obtain ⟨rfl, hrest⟩ := List.cons.inj h
          have hlater := ih t _ before hnext hrest
          rwa [List.append_assoc] at hlater
  exact hgo ls s [] before h0 h

/-- **Run rule for a part of a system**: if, along steps that satisfy `H`, each step is either
invisible to another system or matched by one step of it, the other system follows the run
with the labels that it sees. -/
theorem exec_filterMap {M : Type*} {stepT : T → M → Option T} {R : S → T → Prop}
    {H : S × L × S → Prop} {proj : L → Option M}
    (hskip : ∀ a l b x, R a x → H (a, l, b) → step a l = some b → proj l = none → R b x)
    (hmatch : ∀ a l b x m, R a x → H (a, l, b) → step a l = some b → proj l = some m →
      ∃ y, stepT x m = some y ∧ R b y)
    {x : T} {ls : List L} (hR : R s x) (hH : ∀ e ∈ trace step s ls, H e)
    (h : exec step s ls = some t) : ∃ y, exec stepT x (ls.filterMap proj) = some y ∧ R t y := by
  induction ls generalizing s x with
  | nil =>
    obtain rfl : s = t := by simpa using h
    exact ⟨x, rfl, hR⟩
  | cons l ls ih =>
    rw [exec_cons] at h
    obtain ⟨a, ha, hrest⟩ := Option.bind_eq_some_iff.mp h
    simp only [trace, ha, List.forall_mem_cons] at hH
    cases hl : proj l with
    | none =>
      rw [List.filterMap_cons_none hl]
      exact ih (hskip s l a x hR hH.1 ha hl) hH.2 hrest
    | some m =>
      obtain ⟨y, hy, hRy⟩ := hmatch s l a x m hR hH.1 ha hl
      rw [List.filterMap_cons_some hl, exec_cons_of_step hy]
      exact ih hRy hH.2 hrest

/-- **Erasure of history** under an invariant: a system whose steps are those of another one
on the states with the invariant takes the same steps. -/
theorem trace_map_of_invariant {stepT : T → L → Option T} (f : S → T) {I : S → Prop} (h0 : I s)
    (hinv : ∀ a l b, I a → step a l = some b → I b)
    (hf : ∀ a l, I a → stepT (f a) l = (step a l).map f) (ls : List L) :
    trace stepT (f s) ls = (trace step s ls).map fun e => (f e.1, e.2.1, f e.2.2) := by
  induction ls generalizing s with
  | nil => rfl
  | cons l ls ih =>
    cases hs : step s l with
    | none => simp [trace, hf s l h0, hs]
    | some t => simp [trace, hf s l h0, hs, ih (hinv s l t h0 hs)]

/-- **Erasure of history**: a system that runs another one and keeps more in its state
takes the same steps. -/
theorem trace_map {stepT : T → L → Option T} (f : S → T)
    (hf : ∀ a l, stepT (f a) l = (step a l).map f) (s : S) (ls : List L) :
    trace stepT (f s) ls = (trace step s ls).map fun e => (f e.1, e.2.1, f e.2.2) :=
  trace_map_of_invariant (I := fun _ => True) f trivial (fun _ _ _ _ _ => trivial)
    (fun a l _ => hf a l) ls

/-- **Amortization rule**: if every step that `p` counts lowers a rank, which only steps that
`q` counts raise, by at most `c`, then the schedule pays for the former with the latter. -/
theorem countP_trace_le {I : S → Prop} (rank : S → ℕ) (p q : L → Bool) (c : ℕ) (h0 : I s)
    (hinv : ∀ a l b, I a → step a l = some b → I b)
    (hstep : ∀ a l b, I a → step a l = some b →
      rank b + (p l).toNat ≤ rank a + c * (q l).toNat) (ls : List L) :
    (trace step s ls).countP (fun e => p e.2.1) ≤
      rank s + c * (trace step s ls).countP fun e => q e.2.1 := by
  induction ls generalizing s with
  | nil => simp [trace]
  | cons l ls ih =>
    cases hs : step s l with
    | none => simp [trace, hs]
    | some t =>
      have hrest := ih (hinv s l t h0 hs)
      have hone := hstep s l t h0 hs
      have hp : (if p l = true then 1 else 0) = (p l).toNat := by cases p l <;> rfl
      have hq : (if q l = true then 1 else 0) = (q l).toNat := by cases q l <;> rfl
      simp only [trace, hs, List.countP_cons, hp, hq, Nat.mul_add]
      omega

end Transition
