import Mathlib.Data.List.Nodup
import Mathlib.Order.Lattice

/-!
# Cells that are written with rising versions

A compare-and-swap on a version number: a value goes into the cell only if its version
is above the one the cell holds. Whatever values are offered, those that are taken have
rising versions, and the cell ends with the last of them.

## Main definitions

- `write` — the cell after an offer
- `taken` — the offers that are taken, in their order

## Main results

- `pairwise_taken` — the versions taken rise
- `foldl_write` — the cell holds the last value taken
- `eq_foldl_write_of_max` — which is the one with the highest version
-/

namespace VersionedCell

variable {V κ : Type*} [LinearOrder κ] (version : V → κ)

def write (cell v : V) : V := if version cell < version v then v else cell

def taken : V → List V → List V
  | _, [] => []
  | cell, v :: vs =>
    if version cell < version v then v :: taken v vs else taken cell vs

variable {version} {cell v : V} {vs : List V}

theorem write_of_lt (h : version cell < version v) : write version cell v = v := if_pos h

theorem write_of_not_lt (h : ¬version cell < version v) : write version cell v = cell := if_neg h

theorem taken_cons_of_lt (h : version cell < version v) :
    taken version cell (v :: vs) = v :: taken version v vs := if_pos h

theorem taken_cons_of_not_lt (h : ¬version cell < version v) :
    taken version cell (v :: vs) = taken version cell vs := if_neg h

/-- Every value taken has a version above that of the cell before. -/
theorem lt_of_mem_taken (vs : List V) {cell w : V} (h : w ∈ taken version cell vs) :
    version cell < version w := by
  induction vs generalizing cell with
  | nil => exact absurd h List.not_mem_nil
  | cons v vs ih =>
    by_cases hv : version cell < version v
    · rw [taken_cons_of_lt hv, List.mem_cons] at h
      rcases h with rfl | h
      · exact hv
      · exact hv.trans (ih h)
    · rw [taken_cons_of_not_lt hv] at h
      exact ih h

/-- **Versions rise** along the values that are taken. -/
theorem pairwise_taken (vs : List V) (cell : V) :
    (taken version cell vs).Pairwise fun v w => version v < version w := by
  induction vs generalizing cell with
  | nil => exact .nil
  | cons v vs ih =>
    by_cases hv : version cell < version v
    · rw [taken_cons_of_lt hv]
      exact .cons (fun w hw => lt_of_mem_taken vs hw) (ih v)
    · rw [taken_cons_of_not_lt hv]
      exact ih cell

/-- The cell holds the last value taken, or else what it held before. -/
theorem foldl_write (vs : List V) (cell : V) :
    vs.foldl (write version) cell = (taken version cell vs).getLastD cell := by
  induction vs generalizing cell with
  | nil => rfl
  | cons v vs ih =>
    rw [List.foldl_cons]
    by_cases hv : version cell < version v
    · rw [write_of_lt hv, taken_cons_of_lt hv, ih, List.getLastD_cons]
    · rw [write_of_not_lt hv, taken_cons_of_not_lt hv, ih]

/-- No value taken is above the one the cell ends with. -/
theorem le_foldl_write (vs : List V) {cell w : V} (h : w ∈ taken version cell vs) :
    version w ≤ version (vs.foldl (write version) cell) := by
  induction vs generalizing cell with
  | nil => exact absurd h List.not_mem_nil
  | cons v vs ih =>
    rw [List.foldl_cons]
    by_cases hv : version cell < version v
    · rw [taken_cons_of_lt hv, List.mem_cons] at h
      rw [write_of_lt hv]
      rcases h with rfl | h
      · rw [foldl_write]
        cases hlast : (taken version w vs).getLast? with
        | none => rw [List.getLastD_eq_getLast?, hlast, Option.getD_none]
        | some u =>
          rw [List.getLastD_eq_getLast?, hlast, Option.getD_some]
          exact (lt_of_mem_taken vs (List.mem_of_getLast? hlast)).le
      · exact ih h
    · rw [taken_cons_of_not_lt hv] at h
      rw [write_of_not_lt hv]
      exact ih h

/-- No version is taken twice. -/
theorem nodup_taken (vs : List V) (cell : V) : ((taken version cell vs).map version).Nodup :=
  List.pairwise_map.mpr ((pairwise_taken vs cell).imp fun hlt => hlt.ne)

/-- The cell ends with the value of the highest version among those taken. -/
theorem eq_foldl_write_of_max (vs : List V) {cell w : V} (h : w ∈ taken version cell vs)
    (hmax : ∀ u ∈ taken version cell vs, version u ≤ version w) :
    vs.foldl (write version) cell = w := by
  obtain ⟨u, hu⟩ := Option.isSome_iff_exists.mp
    (List.getLast?_isSome.mpr (List.ne_nil_of_mem h))
  have hlast : vs.foldl (write version) cell = u := by
    rw [foldl_write, List.getLastD_eq_getLast?, hu, Option.getD_some]
  have hmem : u ∈ taken version cell vs := List.mem_of_getLast? hu
  have heq : version u = version w := by
    apply le_antisymm (hmax u hmem)
    rw [← hlast]
    exact le_foldl_write vs h
  rw [hlast]
  exact List.inj_on_of_nodup_map (nodup_taken vs cell) hmem h heq

end VersionedCell
