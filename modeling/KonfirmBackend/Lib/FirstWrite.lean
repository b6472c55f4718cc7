import Mathlib.Data.List.Nodup

/-!
# Insert-or-ignore tables

A table with a unique key into which rows are inserted unless their key is taken.
Whatever is offered to it, each key keeps the first row that was offered for it.

## Main definitions

- `insert` — `INSERT … ON CONFLICT DO NOTHING`
- `lookup` — the row of a key

## Main results

- `lookup_eq_some_of_mem`, `lookup_map` — each row is found, also after an update
- `lookup_foldl_insert` — the table of a list of offers holds the first of each key
-/

namespace FirstWrite

variable {ρ κ : Type*} [DecidableEq κ] (key : ρ → κ)

def lookup (k : κ) (t : List ρ) : Option ρ := t.find? fun r => decide (key r = k)

def insert (t : List ρ) (r : ρ) : List ρ := if (lookup key (key r) t).isSome then t else t ++ [r]

variable {key} {t : List ρ} {r : ρ} {k : κ}

theorem lookup_eq_none_iff : lookup key k t = none ↔ ∀ r ∈ t, key r ≠ k := by
  simp [lookup]

@[simp] theorem lookup_nil (k : κ) : lookup key k ([] : List ρ) = none := rfl

theorem lookup_append (k : κ) (t u : List ρ) :
    lookup key k (t ++ u) = (lookup key k t).or (lookup key k u) := List.find?_append

theorem mem_of_lookup (h : lookup key k t = some r) : r ∈ t ∧ key r = k :=
  ⟨List.mem_of_find?_eq_some h, by simpa using List.find?_some h⟩

/-- With unique keys, each row is the one of its key. -/
theorem lookup_eq_some_of_mem (h : (t.map key).Nodup) (hr : r ∈ t) :
    lookup key (key r) t = some r := by
  obtain ⟨x, hx⟩ : ∃ x, lookup key (key r) t = some x :=
    Option.isSome_iff_exists.mp (List.find?_isSome.mpr ⟨r, hr, by simp⟩)
  obtain ⟨hmem, hkey⟩ := mem_of_lookup hx
  rw [hx, List.inj_on_of_nodup_map h hmem hr hkey]

/-- An update that keeps the keys finds the updated row. -/
theorem lookup_map {f : ρ → ρ} (hf : ∀ r, key (f r) = key r) (k : κ) (t : List ρ) :
    lookup key k (t.map f) = (lookup key k t).map f := by
  have hcomp : (fun r => decide (key r = k)) ∘ f = fun r => decide (key r = k) := by
    funext r
    simp only [Function.comp_apply, hf]
  rw [lookup, List.find?_map, hcomp, lookup]

omit [DecidableEq κ] in
theorem map_key_map {f : ρ → ρ} (hf : ∀ r, key (f r) = key r) (t : List ρ) :
    (t.map f).map key = t.map key := by
  rw [List.map_map]
  exact List.map_congr_left fun r _ => hf r

omit [DecidableEq κ] in
/-- A row with a new key. -/
theorem nodup_concat (h : (t.map key).Nodup) (hr : ∀ x ∈ t, key x ≠ key r) :
    ((t ++ [r]).map key).Nodup := by
  rw [List.map_append, List.map_singleton, ← List.concat_eq_append]
  refine h.concat fun hmem => ?_
  obtain ⟨x, hx, hk⟩ := List.mem_map.mp hmem
  exact hr x hx hk

/-- The first offer for a key stays. -/
theorem lookup_insert (k : κ) (t : List ρ) (r : ρ) :
    lookup key k (insert key t r) = (lookup key k t).or (lookup key k [r]) := by
  by_cases htaken : (lookup key (key r) t).isSome
  · rw [insert, if_pos htaken]
    by_cases hk : key r = k
    · obtain ⟨x, hx⟩ := Option.isSome_iff_exists.mp (hk ▸ htaken)
      rw [hx, Option.some_or]
    · have hnone : lookup key k [r] = none := by simpa [lookup_eq_none_iff] using hk
      rw [hnone, Option.or_none]
  · rw [insert, if_neg htaken]
    exact lookup_append k t [r]

/-- **First write wins**: offering a list of rows leaves each key with what it had,
or else with the first row offered for it. -/
theorem lookup_foldl_insert (k : κ) (rs t : List ρ) :
    lookup key k (rs.foldl (insert key) t) = (lookup key k t).or (lookup key k rs) := by
  induction rs generalizing t with
  | nil => exact (Option.or_none).symm
  | cons r rs ih =>
    have hcons : lookup key k (r :: rs) = (lookup key k [r]).or (lookup key k rs) :=
      lookup_append k [r] rs
    rw [List.foldl_cons, ih, lookup_insert, hcons, Option.or_assoc]

end FirstWrite
