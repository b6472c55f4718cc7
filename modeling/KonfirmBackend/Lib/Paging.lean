import Mathlib.Data.List.Sort
import Mathlib.Order.Lattice

/-!
# Pages of a sorted list

A page is cut off a list by an offset and a limit. In a list that is sorted by distinct keys,
the place of an element is the number of those before it.

## Main definitions

- `Paging.page` — the rows between an offset and an offset plus a limit

## Main results

- `Paging.getElem?_countP` — the place of an element
- `Paging.mem_page_or` — an element is on the page, or the page is full and ends before it
-/

namespace Paging

variable {α κ : Type*} {l : List α} {a : α}

def page (l : List α) (limit offset : ℕ) : List α := (l.drop offset).take limit

theorem getElem?_countP [LinearOrder κ] {key : α → κ} (h : l.Pairwise fun a b => key b < key a)
    (ha : a ∈ l) : l[l.countP fun b => decide (key a < key b)]? = some a := by
  induction l with
  | nil => cases ha
  | cons b l ih =>
    obtain ⟨hb, hl⟩ := List.pairwise_cons.mp h
    obtain rfl | hmem := List.mem_cons.mp ha
    · -- nothing is before the first one
      have hzero : (a :: l).countP (fun b => decide (key a < key b)) = 0 := by
        rw [List.countP_eq_zero]
        intro c hc
        obtain rfl | hc := List.mem_cons.mp hc
        · simp
        · simpa using (hb c hc).le
      rw [hzero]
      rfl
    · rw [List.countP_cons_of_pos (by simpa using hb a hmem), List.getElem?_cons_succ]
      exact ih hl hmem

theorem mem_page_or {i offset : ℕ} (limit : ℕ) (hi : l[i]? = some a) (hoffset : offset ≤ i) :
    a ∈ page l limit offset ∨
      offset + limit ≤ i ∧ (page l limit offset).length = limit := by
  obtain ⟨hlt, -⟩ := List.getElem?_eq_some_iff.mp hi
  by_cases hon : i < offset + limit
  · left
    have hget : (page l limit offset)[i - offset]? = some a := by
      rw [page, List.getElem?_take_of_lt (by omega), List.getElem?_drop,
        Nat.add_sub_cancel' hoffset, hi]
    exact List.mem_of_getElem? hget
  · right
    refine ⟨not_lt.mp hon, ?_⟩
    rw [page, List.length_take, List.length_drop]
    omega

end Paging
