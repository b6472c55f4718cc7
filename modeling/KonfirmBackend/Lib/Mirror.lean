import Mathlib.Logic.Relation

/-!
# Copies of values that become final

A service holds a value for each key; some values are final, and stay. A copy of them is kept
by asking again for what is not final in the copy. Any number of requests are under way, any of
them may be made again, an answer takes its time, and a late answer overwrites a newer one.

## Main definitions

- `Mirror` — the values, their copies, the requests and the answers under way
- `Polls` — what a step does to the copies
- `Serves` — what a step does to the values, and what it answers
- `Faithful` — a final copy or answer is the value
- `Settled` — a value is final, and no other one is on its way

## Main results

- `Mirror.Polls.quiet` — nobody asks again for a final copy
- `Mirror.Faithful.step` — a final copy is the value
- `Mirror.Settled.step`, `Mirror.Settled.copy` — once the value has settled, what is written of
  it is the value
-/

/-- `asked k` and `answered k a` say that some request for `k`, or answer to one, is under
way. -/
structure Mirror (κ σ : Type*) where
  value : κ → Option σ
  copy : κ → Option σ
  asked : κ → Prop
  answered : κ → Option σ → Prop

namespace Mirror

variable {κ σ : Type*} (Final : σ → Prop)

/-- A request for a copy that is final repeats another one, and what is written has been
answered. -/
structure Polls (m m' : Mirror κ σ) : Prop where
  asked : ∀ k, m'.asked k → (m.asked k ∨ ∃ a, m.answered k a) ∨
    ∀ s, m.copy k = some s → ¬Final s
  answered : ∀ k a, m'.answered k a → m.answered k a ∨ m.asked k
  copy : ∀ k, m'.copy k = m.copy k ∨ m.answered k (m'.copy k)

/-- A final value stays, and answers are values. -/
structure Serves (m m' : Mirror κ σ) : Prop where
  value : ∀ k s, Final s → m.value k = some s → m'.value k = some s
  answered : ∀ k a, m'.answered k a → m.answered k a ∨ a = m.value k

/-- Nothing is under way for a key. -/
def Quiet (m : Mirror κ σ) (k : κ) : Prop := ¬m.asked k ∧ ∀ a, ¬m.answered k a

/-- Final copies and final answers are values. -/
structure Faithful (m : Mirror κ σ) : Prop where
  copy : ∀ k s, Final s → m.copy k = some s → m.value k = some s
  answered : ∀ k s, Final s → m.answered k (some s) → m.value k = some s

/-- The value is final, and no older one is on its way. -/
structure Settled (m : Mirror κ σ) (k : κ) (s : σ) : Prop where
  final : Final s
  value : m.value k = some s
  answered : ∀ a, m.answered k a → a = some s

variable {Final} {m m' : Mirror κ σ} {k : κ} {s : σ}

/-- **A final copy is left alone**: when nothing is under way for its key, nothing will be. -/
theorem Polls.quiet (h : Polls Final m m') (hs : Final s) (hcopy : m.copy k = some s)
    (hquiet : m.Quiet k) : m'.Quiet k := by
  obtain ⟨hasked, hanswered⟩ := hquiet
  refine ⟨fun hk => ?_, fun a ha => ?_⟩
  · cases h.asked k hk with
    | inl hold => exact hold.elim hasked fun ⟨a, ha⟩ => hanswered a ha
    | inr hopen => exact hopen s hcopy hs
  · cases h.answered k a ha with
    | inl hold => exact hanswered a hold
    | inr hold => exact hasked hold

/-- **A final copy is the value**, and stays the value. -/
theorem Faithful.step (hm : m.Faithful Final) (hpolls : Polls Final m m')
    (hserves : Serves Final m m') : m'.Faithful Final where
  copy k s hs hk := by
    refine hserves.value k s hs ?_
    cases hpolls.copy k with
    | inl hsame => exact hm.copy k s hs (hsame ▸ hk)
    | inr hwritten => exact hm.answered k s hs (hk ▸ hwritten)
  answered k s hs hk := by
    refine hserves.value k s hs ?_
    cases hserves.answered k _ hk with
    | inl hold => exact hm.answered k s hs hold
    | inr hvalue => exact hvalue.symm

/-- **A value that has settled** stays settled. -/
theorem Settled.step (hm : m.Settled Final k s) (hserves : Serves Final m m') :
    m'.Settled Final k s where
  final := hm.final
  value := hserves.value k s hm.final hm.value
  answered a ha := by
    cases hserves.answered k a ha with
    | inl hold => exact hm.answered a hold
    | inr hvalue => exact hvalue.trans hm.value

/-- A copy of a value that has settled is not written, or becomes that value. -/
theorem Settled.copy (hm : m.Settled Final k s) (hpolls : Polls Final m m') :
    m'.copy k = m.copy k ∨ m'.copy k = some s :=
  (hpolls.copy k).imp_right fun hwritten => hm.answered _ hwritten

end Mirror
