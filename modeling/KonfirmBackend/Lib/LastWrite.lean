import KonfirmBackend.Lib.Transition

/-!
# The last write

A value that is written by some of the steps of a system, and kept by all the others, is at the
end of a run what was written to it last.

## Main results

- `Transition.last_write` — the value at the end of a run
-/

namespace Transition

variable {S L V : Type*} {step : S → L → Option S} {s t : S}

/-- **Last write rule**: a value that every step either writes or keeps is what was written
last, or what it was at the start. -/
theorem last_write {I : S → Prop} {val : S → Option V} {write : S × L × S → Option V}
    (h0 : I s) (hinv : ∀ a l b, I a → step a l = some b → I b)
    (hval : ∀ a l b, I a → step a l = some b → val b = (write (a, l, b)).or (val a))
    {ls : List L} (h : exec step s ls = some t) :
    val t = ((trace step s ls).filterMap write).getLast?.or (val s) := by
  induction ls generalizing s with
  | nil =>
    obtain rfl : s = t := by simpa using h
    rfl
  | cons l ls ih =>
    rw [exec_cons] at h
    obtain ⟨a, ha, hrest⟩ := Option.bind_eq_some_iff.mp h
    rw [ih (hinv s l a h0 ha) hrest, hval s l a h0 ha]
    simp only [trace, ha]
    cases hw : write (s, l, a) with
    | none => rw [List.filterMap_cons_none hw, Option.none_or]
    | some v =>
      rw [List.filterMap_cons_some hw, List.getLast?_cons, Option.some_or, Option.some_or]
      cases ((trace step a ls).filterMap write).getLast? <;> rfl

end Transition
