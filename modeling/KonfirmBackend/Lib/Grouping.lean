import Mathlib.Algebra.BigOperators.Group.List.Lemmas
import Mathlib.Data.List.Dedup

/-!
# Grouping

The rows of a list by a key, and a total for each group.

## Main definitions

- `Grouping.totals` — the total of each key that some row has

## Main results

- `Grouping.sum_totals` — the totals of the groups add up to that of the list
- `Grouping.total_of_key` — the total of one key, whatever the order of the groups
-/

namespace Grouping

variable {α κ M : Type*} [DecidableEq κ] [AddCommMonoid M]

/-- The total of the rows with the key. -/
def totalAt (key : α → κ) (f : α → M) (l : List α) (k : κ) : M :=
  ((l.filter fun a => decide (key a = k)).map f).sum

/-- One total for each key. -/
def totals (key : α → κ) (f : α → M) (l : List α) : List (κ × M) :=
  (l.map key).dedup.map fun k => (k, totalAt key f l k)

variable {key : α → κ} {f : α → M} {l : List α}

theorem totalAt_cons (a : α) (k : κ) :
    totalAt key f (a :: l) k = (if key a = k then f a else 0) + totalAt key f l k := by
  by_cases h : key a = k <;> simp [totalAt, h]

theorem totalAt_eq_zero {k : κ} (h : ∀ a ∈ l, key a ≠ k) : totalAt key f l k = 0 := by
  have hnone : (l.filter fun a => decide (key a = k)) = [] :=
    List.filter_eq_nil_iff.mpr fun a ha => by simpa using h a ha
  rw [totalAt, hnone]
  rfl

/-- A filter that keeps all the rows of a key keeps its total. -/
theorem totalAt_filter {p : α → Bool} {k : κ} (h : ∀ a ∈ l, key a = k → p a) :
    totalAt key f (l.filter p) k = totalAt key f l k := by
  have hsame : (l.filter p).filter (fun a => decide (key a = k)) =
      l.filter fun a => decide (key a = k) := by
    rw [List.filter_filter]
    refine List.filter_congr fun a ha => ?_
    by_cases hk : key a = k
    · rw [h a ha hk, Bool.and_true]
    · rw [decide_eq_false hk, Bool.false_and]
  rw [totalAt, totalAt, hsame]

/-- Keys that cover the rows, each once, split the total. -/
theorem sum_totalAt {ks : List κ} (hks : ks.Nodup) (hl : ∀ a ∈ l, key a ∈ ks) :
    (ks.map (totalAt key f l)).sum = (l.map f).sum := by
  induction l with
  | nil =>
    have hzero : totalAt key f [] = fun _ : κ => (0 : M) := rfl
    simp [hzero]
  | cons a l ih =>
    have hsplit : totalAt key f (a :: l) =
        fun k => (if key a = k then f a else 0) + totalAt key f l k := by
      funext k
      exact totalAt_cons a k
    have hone : (ks.map fun k => if key a = k then f a else 0).sum = f a := by
      rw [List.sum_map_eq_nsmul_single (key a) _ fun k hk _ => if_neg (Ne.symm hk), if_pos rfl,
        List.count_eq_one_of_mem hks (hl a List.mem_cons_self), one_nsmul]
    rw [hsplit, List.sum_map_add, hone, ih fun b hb => hl b (List.mem_cons_of_mem _ hb),
      List.map_cons, List.sum_cons]

theorem mem_totals {k : κ} {m : M} :
    (k, m) ∈ totals key f l ↔ k ∈ l.map key ∧ m = totalAt key f l k := by
  rw [totals, List.mem_map]
  constructor
  · rintro ⟨k', hk', heq⟩
    obtain ⟨rfl, rfl⟩ := Prod.mk.inj heq
    exact ⟨List.mem_dedup.mp hk', rfl⟩
  · rintro ⟨hk, rfl⟩
    exact ⟨k, List.mem_dedup.mpr hk, rfl⟩

theorem map_fst_totals : (totals key f l).map Prod.fst = (l.map key).dedup := by
  rw [totals, List.map_map]
  exact List.map_id _

theorem nodup_totals : ((totals key f l).map Prod.fst).Nodup := by
  rw [map_fst_totals]
  exact List.nodup_dedup _

omit [AddCommMonoid M] in
/-- In a list with distinct keys, an entry is found by its key. -/
theorem lookup_of_mem {rows : List (κ × M)} (hkeys : (rows.map Prod.fst).Nodup) {k : κ} {m : M}
    (hmem : (k, m) ∈ rows) : rows.lookup k = some m := by
  induction rows with
  | nil => cases hmem
  | cons row rows ih =>
    obtain ⟨k', m'⟩ := row
    rw [List.map_cons, List.nodup_cons] at hkeys
    by_cases h : k = k'
    · subst h
      cases List.mem_cons.mp hmem with
      | inl heq =>
        obtain ⟨-, rfl⟩ := Prod.mk.inj heq
        rw [List.lookup_cons_self]
      | inr hrest => exact absurd (List.mem_map_of_mem hrest) hkeys.1
    · rw [List.lookup_cons, beq_eq_false_iff_ne.mpr h]
      refine ih hkeys.2 ((List.mem_cons.mp hmem).resolve_left fun heq => h ?_)
      exact congrArg Prod.fst heq

section Renamed

variable {κ' : Type*} [DecidableEq κ'] {g : κ → κ'} {rows : List (κ' × M)}

theorem totalAt_comp (hg : ∀ a ∈ l, ∀ b ∈ l, g (key a) = g (key b) → key a = key b) {a : α}
    (ha : a ∈ l) : totalAt (fun b => g (key b)) f l (g (key a)) = totalAt key f l (key a) := by
  have hfilter : (l.filter fun b => decide (g (key b) = g (key a))) =
      l.filter fun b => decide (key b = key a) := by
    refine List.filter_congr fun b hb => ?_
    rw [decide_eq_decide]
    exact ⟨hg b hb a ha, congrArg g⟩
  rw [totalAt, totalAt, hfilter]

/-- The groups in any order, under names that tell their keys apart: the total of a name, which
is zero for a name of no group. -/
theorem total_of_key (hg : ∀ a ∈ l, ∀ b ∈ l, g (key a) = g (key b) → key a = key b)
    (hrows : rows.Perm ((totals key f l).map (Prod.map g id))) (k : κ') :
    (rows.lookup k).getD 0 = totalAt (fun a => g (key a)) f l k := by
  by_cases hk : ∃ a ∈ l, g (key a) = k
  · obtain ⟨a, ha, rfl⟩ := hk
    have hnames : (((totals key f l).map (Prod.map g id)).map Prod.fst).Nodup := by
      rw [List.map_map, show Prod.fst ∘ Prod.map g id = g ∘ @Prod.fst κ M from rfl,
        ← List.map_map]
      refine List.Nodup.map_on (fun k hk k' hk' hname => ?_) nodup_totals
      rw [map_fst_totals, List.mem_dedup] at hk hk'
      obtain ⟨a, ha, rfl⟩ := List.mem_map.mp hk
      obtain ⟨b, hb, rfl⟩ := List.mem_map.mp hk'
      exact hg a ha b hb hname
    have hmem : (g (key a), totalAt key f l (key a)) ∈ rows :=
      hrows.mem_iff.mpr (List.mem_map.mpr
        ⟨(key a, _), mem_totals.mpr ⟨List.mem_map_of_mem ha, rfl⟩, rfl⟩)
    rw [lookup_of_mem ((hrows.map Prod.fst).nodup_iff.mpr hnames) hmem, Option.getD_some,
      totalAt_comp hg ha]
  · have hnone : rows.lookup k = none := by
      rw [List.lookup_eq_none_iff]
      intro row hrow
      obtain ⟨⟨k', m⟩, hm, rfl⟩ := List.mem_map.mp (hrows.mem_iff.mp hrow)
      obtain ⟨a, ha, rfl⟩ := List.mem_map.mp (mem_totals.mp hm).1
      exact bne_iff_ne.mpr fun heq => hk ⟨a, ha, heq.symm⟩
    rw [hnone, Option.getD_none, totalAt_eq_zero fun a ha heq => hk ⟨a, ha, heq⟩]

end Renamed

end Grouping
