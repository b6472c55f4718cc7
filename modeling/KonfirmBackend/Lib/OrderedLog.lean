import Mathlib.Data.List.Basic
import Mathlib.Data.List.Pairwise
import Mathlib.Order.Lattice

/-!
# Logs ordered by a key

A log whose entries carry strictly increasing keys, read from a cursor. The
entries after a cursor are what a reader positioned there has not seen; a fetch
returns an initial segment of them.

## Main definitions

- `Ordered` — keys strictly increase along the log
- `after` — the entries whose key lies beyond a cursor
- `fetches` — the entries that a reader is handed in a row of fetches

## Main results

- `mem_after_of_mem_fetches`, `mem_fetches_of_mem_after` — a reader is handed what lies
  beyond its cursor, and all of it if it asks often enough
-/

namespace OrderedLog

variable {α κ : Type*} [LinearOrder κ] (key : α → κ)

/-- Keys strictly increase along the log. -/
def Ordered (log : List α) : Prop := log.Pairwise fun x y => key x < key y

/-- The entries beyond the cursor `c`, in log order. -/
def after (c : κ) (log : List α) : List α := log.filter fun x => decide (c < key x)

variable {key} {log : List α} {c : κ} {x y : α} {xs ys : List α}

@[simp] theorem mem_after : x ∈ after key c log ↔ x ∈ log ∧ c < key x := by
  simp [after]

theorem Ordered.after (h : Ordered key log) (c : κ) : Ordered key (after key c log) :=
  List.Pairwise.filter _ h

/-- Two entries with one key are one entry. -/
theorem Ordered.eq_of_key_eq (h : Ordered key log) (hx : x ∈ log) (hy : y ∈ log)
    (hk : key x = key y) : x = y := by
  induction log with
  | nil => simp at hx
  | cons z zs ih =>
    obtain ⟨hz, hzs⟩ := List.pairwise_cons.mp h
    rcases List.mem_cons.mp hx with hx' | hx' <;> rcases List.mem_cons.mp hy with hy' | hy'
    · rw [hx', hy']
    · exact absurd (hk ▸ hx' ▸ hz y hy') (lt_irrefl _)
    · exact absurd (hk ▸ hy' ▸ hz x hx') (lt_irrefl _)
    · exact ih hzs hx' hy'

/-- Appending an entry beyond all others keeps the order. -/
theorem Ordered.concat (h : Ordered key log) (hx : ∀ y ∈ log, key y < key x) :
    Ordered key (log ++ [x]) :=
  List.pairwise_append.mpr ⟨h, List.pairwise_singleton _ _, by simpa using hx⟩

theorem after_append (c : κ) (xs ys : List α) :
    after key c (xs ++ ys) = after key c xs ++ after key c ys := List.filter_append ..

/-- A cursor inside the log splits what came after an earlier one: having read
`x` first, the reader still has the rest before it. -/
theorem after_of_cons (h : Ordered key log) (hx : after key c log = x :: xs) :
    after key (key x) log = xs := by
  have hord : Ordered key (x :: xs) := hx ▸ h.after c
  obtain ⟨hlt, -⟩ := List.pairwise_cons.mp hord
  have hcx : c < key x := (mem_after.mp (hx ▸ List.mem_cons_self : x ∈ after key c log)).2
  calc after key (key x) log
      = (after key c log).filter fun y => decide (key x < key y) := by
        rw [after, after, List.filter_filter]
        apply List.filter_congr
        intro y _
        by_cases hy : key x < key y
        · simp [hy, hcx.trans hy]
        · simp [hy]
    _ = xs := by
        rw [hx, List.filter_cons_of_neg (by simp)]
        exact List.filter_eq_self.mpr fun y hy => by simpa using hlt y hy

/-- Reading the first entry of a fetched batch leaves a batch fetched from there. -/
theorem isPrefix_after_of_cons (h : Ordered key log) (hb : x :: xs <+: after key c log) :
    xs <+: after key (key x) log := by
  obtain ⟨rest, hrest⟩ := hb
  have hcons : after key c log = x :: (xs ++ rest) := hrest.symm
  rw [after_of_cons h hcons]
  exact ⟨rest, rfl⟩

/-- The first entry of a batch is the first one beyond the cursor. -/
theorem le_or_lt_of_isPrefix (h : Ordered key log) (hb : x :: xs <+: after key c log)
    (hy : y ∈ log) (hcy : c < key y) : key x ≤ key y := by
  obtain ⟨rest, hrest⟩ := hb
  have hmem : y ∈ x :: (xs ++ rest) := by
    have : y ∈ after key c log := mem_after.mpr ⟨hy, hcy⟩
    rwa [← hrest] at this
  have hord : Ordered key (x :: (xs ++ rest)) := by
    have := h.after c
    rwa [← hrest] at this
  rcases List.mem_cons.mp hmem with rfl | hmem
  · exact le_rfl
  · exact ((List.pairwise_cons.mp hord).1 y hmem).le

/-- A later cursor leaves less. -/
theorem mem_after_of_le {d : κ} (hcd : c ≤ d) (hx : x ∈ after key d log) : x ∈ after key c log :=
  mem_after.mpr ⟨(mem_after.mp hx).1, hcd.trans_lt (mem_after.mp hx).2⟩

/-! ## Rows of fetches -/

variable (key) in
/-- A fetch hands out at most `n` entries of the log as it is then, and the reader goes on from
the last entry it was handed. -/
def fetches : κ → List (List α × ℕ) → List α
  | _, [] => []
  | c, (log, n) :: rest =>
    let batch := (after key c log).take n
    batch ++ fetches (batch.getLast?.elim c key) rest

/-- A reader is handed nothing but what lies beyond its cursor in the log as it ends up. -/
theorem mem_after_of_mem_fetches {asks : List (List α × ℕ)}
    (hasks : ∀ a ∈ asks, a.1 ⊆ log) (hx : x ∈ fetches key c asks) : x ∈ after key c log := by
  induction asks generalizing c with
  | nil => simp [fetches] at hx
  | cons a rest ih =>
    have hbatch : ∀ y ∈ (after key c a.1).take a.2, y ∈ after key c log := by
      intro y hy
      have hy' := mem_after.mp (List.mem_of_mem_take hy)
      exact mem_after.mpr ⟨hasks a List.mem_cons_self hy'.1, hy'.2⟩
    rcases List.mem_append.mp hx with hx | hx
    · exact hbatch x hx
    · have hrest := ih (fun b hb => hasks b (List.mem_cons_of_mem _ hb)) hx
      cases hlast : ((after key c a.1).take a.2).getLast? with
      | none => simpa [hlast] using hrest
      | some y =>
        have hy := mem_after.mp (hbatch y (List.mem_of_getLast? hlast))
        rw [hlast] at hrest
        exact mem_after_of_le hy.2.le hrest

/-- Asking for one entry at a time, the reader is handed everything beyond its cursor. -/
theorem mem_fetches_of_mem_after (h : Ordered key log) (hx : x ∈ after key c log) :
    x ∈ fetches key c (List.replicate (after key c log).length (log, 1)) := by
  generalize hlen : (after key c log).length = n
  induction n generalizing c with
  | zero => simp [List.length_eq_zero_iff.mp hlen] at hx
  | succ n ih =>
    obtain ⟨y, ys, hys⟩ := List.exists_cons_of_length_eq_add_one hlen
    have hrest := after_of_cons h hys
    rw [List.replicate_succ, fetches, hys, List.mem_append]
    rw [hys] at hx
    rcases List.mem_cons.mp hx with rfl | hx
    · left
      simp
    · right
      refine ih ?_ ?_
      · simpa [hrest] using hx
      · have hlen' : ys.length = n := by simpa [hys] using hlen
        simpa [hrest] using hlen'

theorem after_eq_nil_iff : after key c log = [] ↔ ∀ x ∈ log, key x ≤ c := by
  simp [after, List.filter_eq_nil_iff]

end OrderedLog
