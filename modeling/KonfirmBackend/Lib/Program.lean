import Mathlib.Order.Basic

/-!
# Programs with state and exceptions

Rules for programs of `EStateM`: those that return, so that no exception leaves them, and
those that may end either way. What they did to the state is part of the judgement; a caught
exception keeps it.

## Main definitions

- `Returns` — from a state, a program returns a value in another state
- `Ends` — what holds where the program returns, and what where it throws

## Main results

- `Returns.bind` — sequences
- `Ends.returns_tryCatch` — a handler stops every exception
- `returns_forM` — the loop rule: a loop whose body always returns gets to every element
- `ends_bind_iff`, `ends_tryCatch_iff` — sequences and handlers, whichever way they end
- `ends_forM` — the loop rule for a body that may throw and so end the loop
-/

namespace Program

variable {ε σ α β : Type}

/-- From `s` the program returns `a` in the state `s'`. -/
def Returns (x : EStateM ε σ α) (s : σ) (a : α) (s' : σ) : Prop := x s = .ok a s'

theorem Returns.pure (a : α) (s : σ) : Returns (Pure.pure a : EStateM ε σ α) s a s := rfl

theorem Returns.modify (f : σ → σ) (s : σ) :
    Returns (modify f : EStateM ε σ PUnit) s PUnit.unit (f s) := rfl

theorem Returns.bind {x : EStateM ε σ α} {f : α → EStateM ε σ β} {s s' s'' : σ} {a : α} {b : β}
    (hx : Returns x s a s') (hf : Returns (f a) s' b s'') : Returns (x >>= f) s b s'' := by
  show EStateM.bind x f s = _
  rw [EStateM.bind, hx]
  exact hf

/-! ## Loops -/

/-- **Loop rule**: if the body returns on each element, whatever the state, and carries `P`
from what is done to what is done with the element, the loop gets through the list. -/
theorem returns_forM {f : α → EStateM ε σ PUnit} {P : List α → σ → Prop} {l : List α}
    (hbody : ∀ a ∈ l, ∀ done s, P done s → ∃ s', Returns (f a) s PUnit.unit s' ∧ P (done ++ [a]) s')
    {s : σ} (h0 : P [] s) : ∃ s', Returns (l.forM f) s PUnit.unit s' ∧ P l s' := by
  -- the elements that are done come first in `P`
  have hgo : ∀ (todo done : List α) (s : σ), (∀ a ∈ todo, a ∈ l) → P done s →
      ∃ s', Returns (todo.forM f) s PUnit.unit s' ∧ P (done ++ todo) s' := by
    intro todo
    induction todo with
    | nil =>
      intro done s _ hP
      exact ⟨s, rfl, by rwa [List.append_nil]⟩
    | cons a todo ih =>
      intro done s hsub hP
      obtain ⟨s₁, ha, hP₁⟩ := hbody a (hsub a List.mem_cons_self) done s hP
      obtain ⟨s', htodo, hP'⟩ := ih (done ++ [a]) s₁
        (fun b hb => hsub b (List.mem_cons_of_mem _ hb)) hP₁
      refine ⟨s', ha.bind htodo, ?_⟩
      rwa [List.append_assoc, List.singleton_append] at hP'
  exact hgo l [] s (fun _ h => h) h0

/-! ## Programs that end either way -/

/-- Run from `s`, the program returns with `Q` or throws with `E`. -/
def Ends (x : EStateM ε σ α) (s : σ) (Q : α → σ → Prop) (E : ε → σ → Prop) : Prop :=
  match x s with
  | .ok a s' => Q a s'
  | .error e s' => E e s'

variable {Q : α → σ → Prop} {E : ε → σ → Prop} {s : σ}

theorem ends_pure_iff {a : α} : Ends (Pure.pure a : EStateM ε σ α) s Q E ↔ Q a s := Iff.rfl

theorem ends_throw_iff {e : ε} : Ends (throw e : EStateM ε σ α) s Q E ↔ E e s := Iff.rfl

theorem ends_get_iff {Q : σ → σ → Prop} : Ends (get : EStateM ε σ σ) s Q E ↔ Q s s := Iff.rfl

theorem ends_modify_iff {f : σ → σ} {Q : PUnit → σ → Prop} :
    Ends (modify f : EStateM ε σ PUnit) s Q E ↔ Q PUnit.unit (f s) := Iff.rfl

theorem ends_modifyGet_iff {f : σ → α × σ} :
    Ends (modifyGet f : EStateM ε σ α) s Q E ↔ Q (f s).1 (f s).2 := Iff.rfl

theorem ends_bind_iff {x : EStateM ε σ α} {f : α → EStateM ε σ β} {Q : β → σ → Prop} :
    Ends (x >>= f) s Q E ↔ Ends x s (fun a s' => Ends (f a) s' Q E) E := by
  have hbind : (x >>= f) s = EStateM.bind x f s := rfl
  rw [Ends, Ends, hbind, EStateM.bind]
  cases x s <;> rfl

theorem ends_tryCatch_iff {x : EStateM ε σ α} {handle : ε → EStateM ε σ α} :
    Ends (tryCatch x handle) s Q E ↔ Ends x s Q fun e s' => Ends (handle e) s' Q E := by
  have htry : (tryCatch x handle : EStateM ε σ α) s = EStateM.tryCatch x handle s := rfl
  rw [Ends, Ends, htry, EStateM.tryCatch]
  cases x s <;> rfl

/-- **Consequence rule**. -/
theorem Ends.mono {x : EStateM ε σ α} {Q' : α → σ → Prop} {E' : ε → σ → Prop} (h : Ends x s Q E)
    (hQ : ∀ a s', Q a s' → Q' a s') (hE : ∀ e s', E e s' → E' e s') : Ends x s Q' E' := by
  rw [Ends] at h ⊢
  cases hrun : x s with
  | ok a s' =>
    rw [hrun] at h
    exact hQ a s' h
  | error e s' =>
    rw [hrun] at h
    exact hE e s' h

/-- **Sequence rule**. -/
theorem Ends.bind {x : EStateM ε σ α} {f : α → EStateM ε σ β} {R : α → σ → Prop}
    {Q : β → σ → Prop} (hx : Ends x s R E) (hf : ∀ a s', R a s' → Ends (f a) s' Q E) :
    Ends (x >>= f) s Q E :=
  ends_bind_iff.mpr (hx.mono hf fun _ _ h => h)

/-- A handler that returns at once makes a program return that ends in one state either way. -/
theorem Ends.returns_tryCatch {x : EStateM ε σ α} {t : σ} {R : α → Prop} {a : α}
    (h : Ends x s (fun b s' => s' = t ∧ R b) fun _ s' => s' = t ∧ R a) :
    ∃ b, Returns (tryCatch x fun _ => Pure.pure a) s b t ∧ R b := by
  have htry : (tryCatch x fun _ => Pure.pure a : EStateM ε σ α) s =
      EStateM.tryCatch x (fun _ => Pure.pure a) s := rfl
  simp only [Returns, htry, EStateM.tryCatch]
  rw [Ends] at h
  cases hrun : x s with
  | ok b s' =>
    rw [hrun] at h
    obtain ⟨rfl, hb⟩ := h
    exact ⟨b, rfl, hb⟩
  | error e s' =>
    rw [hrun] at h
    obtain ⟨rfl, ha⟩ := h
    exact ⟨a, rfl, ha⟩

/-- **Loop rule**: if the body carries `P` from what is done to what is done with the element
wherever it returns, so does the loop; where the body throws, the loop ends. -/
theorem ends_forM {f : α → EStateM ε σ PUnit} {P : List α → σ → Prop} {l : List α}
    (hbody : ∀ done a todo s, l = done ++ a :: todo → P done s →
      Ends (f a) s (fun _ => P (done ++ [a])) E)
    (h0 : P [] s) : Ends (l.forM f) s (fun _ => P l) E := by
  have hgo : ∀ (todo done : List α) (s : σ), l = done ++ todo → P done s →
      Ends (todo.forM f) s (fun _ => P l) E := by
    intro todo
    induction todo with
    | nil =>
      intro done s hl hP
      obtain rfl : l = done := by rw [hl, List.append_nil]
      exact ends_pure_iff.mpr hP
    | cons a todo ih =>
      intro done s hl hP
      refine (hbody done a todo s hl hP).bind fun _ s' hP' => ih (done ++ [a]) s' ?_ hP'
      rw [hl, List.append_assoc, List.singleton_append]
  exact hgo l [] s rfl h0

end Program
