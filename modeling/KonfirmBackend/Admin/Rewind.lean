import KonfirmBackend.Common.Asset
import KonfirmBackend.Lib.InFlight
import KonfirmBackend.Lib.Transition
import KonfirmBackend.Reconciler.Store

/-!
# Rewinding the reconciler's cursor

`AdminReconcilerService.rewind` reads the cursor row in one statement, checks the target
against what it read, and stores the target in another statement. The row is shared with
the `set_cursor` calls of the reconciler and with other rewinds.

## Main definitions

- `assertNotForward` — the check of a rewind
- `CursorState`, `step` — the row, and the rewinds between their check and their `UPDATE`
- `BackwardOnly`, `NotOvertaken` — what a rewind's `UPDATE` does, and what was stored
  before it

## Main results

- `backward_only_iff` — in which runs rewinds only move the cursor backward
-/

namespace KonfirmBackend.Admin

open Reconciler Transition

/-- The literal "now", or digits only. -/
def readCursor (target : String) : Option Cursor :=
  if target = "now" then some .now else (Numeral.readNat target.toList).map .token

def assertNotForward (current : Cursor) (target : String) : Except BadRequest Unit :=
  match readCursor target with
  | none =>
    .error ⟨"cursor must be a Horizon paging token (digits only) or the literal string 'now'"⟩
  | some target =>
    match current, target with
    | .now, _ => .ok ()
    | .token _, .now =>
      .error ⟨"cannot set the cursor to 'now' from a real position — that skips every " ++
        "unprocessed payment since then"⟩
    | .token current, .token target =>
      if current < target then
        .error ⟨"cursor can only move backward — this value is ahead of the current position"⟩
      else .ok ()

/-- `c` is a numeric cursor not beyond the position `position`. -/
def AtOrBefore (c : Cursor) (position : ℕ) : Prop := ∃ t ≤ position, c = .token t

instance (c : Cursor) (position : ℕ) : Decidable (AtOrBefore c position) :=
  match c with
  | .now => isFalse fun ⟨_, _, h⟩ => Cursor.noConfusion h
  | .token t => decidable_of_iff (t ≤ position)
      ⟨fun h => ⟨t, h, rfl⟩, fun ⟨_, hle, h⟩ => Cursor.token.inj h ▸ hle⟩

/-- What the check lets through: a cursor, at or before a numeric position it was checked
against. -/
theorem assertNotForward_eq_ok {current : Cursor} {target : String}
    (h : assertNotForward current target = .ok ()) :
    ∃ c, readCursor target = some c ∧
      ∀ position, current = .token position → AtOrBefore c position := by
  simp only [assertNotForward] at h
  cases hread : readCursor target with
  | none => simp [hread] at h
  | some c =>
    refine ⟨c, rfl, ?_⟩
    rintro position rfl
    cases c with
    | now => simp [hread] at h
    | token t =>
      rcases Nat.lt_or_ge position t with hlt | hle
      · simp [hread, hlt] at h
      · exact ⟨t, hle, rfl⟩

/-! ## Interleavings -/

/-- The cursor row, and the rewinds that have passed their check, with the cursor they
checked against and those stored since. -/
structure CursorState where
  row : Option Cursor
  rewinds : List (InFlight Cursor Cursor)
deriving DecidableEq

namespace CursorState

/-- What a query finds; a missing row counts as "now". -/
def current (s : CursorState) : Cursor := s.row.getD .now

/-- A statement that writes the row. -/
def store (s : CursorState) (c : Cursor) : CursorState := ⟨some c, s.rewinds.map (.note c)⟩

end CursorState

inductive CursorAction
  /-- the `SELECT` and the check of a rewind -/
  | rewind (target : String)
  /-- its `UPDATE`, which writes nothing if there is no row -/
  | update (i : ℕ)
  /-- a rewind that fails between its statements -/
  | abandon (i : ℕ)
  /-- `set_cursor` of the reconciler, which stores the token of the operation it has handled:
  any position, since a watcher may go on from a cursor that it read before a rewind -/
  | setCursor (position : ℕ)
deriving DecidableEq

def step (s : CursorState) : CursorAction → Option CursorState
  | .rewind target =>
    match assertNotForward s.current target, readCursor target with
    | .ok (), some c => some { s with rewinds := s.rewinds ++ [.start c s.current] }
    | _, _ => some s
  | .update i =>
    (s.rewinds[i]?).map fun f =>
      match s.row with
      | none => { s with rewinds := s.rewinds.eraseIdx i }
      | some _ => { s with rewinds := s.rewinds.eraseIdx i }.store f.op
  | .abandon i => some { s with rewinds := s.rewinds.eraseIdx i }
  | .setCursor position => some (s.store (.token position))

/-- A rewind's `UPDATE` of a numeric cursor stores a number that is not greater. -/
def BackwardOnly : CursorState × CursorAction × CursorState → Prop
  | (s, .update i, _) =>
    ∀ f ∈ s.rewinds[i]?, ∀ position, s.row = some (.token position) → AtOrBefore f.op position
  | _ => True

/-- When a rewind's `UPDATE` runs, the last cursor stored since its `SELECT`, if there is
one and it is a number, is not below the target. -/
def NotOvertaken : CursorState × CursorAction × CursorState → Prop
  | (s, .update i, _) =>
    ∀ f ∈ s.rewinds[i]?, ∀ position, f.since.getLast? = some (.token position) →
      AtOrBefore f.op position
  | _ => True

/-- Each rewind in flight has passed the check, and knows what the row holds. -/
structure CursorState.Checked (s : CursorState) : Prop where
  checked : ∀ f ∈ s.rewinds, ∀ position, f.saw = .token position → AtOrBefore f.op position
  latest : ∀ f ∈ s.rewinds, f.latest = s.current

variable {s t : CursorState} {a : CursorAction}

theorem CursorState.checked_start (row : Option Cursor) : CursorState.Checked ⟨row, []⟩ := by
  constructor <;> simp

theorem CursorState.Checked.eraseIdx (hs : s.Checked) (i : ℕ) :
    CursorState.Checked { s with rewinds := s.rewinds.eraseIdx i } :=
  ⟨InFlight.forall_eraseIdx i hs.checked, InFlight.forall_eraseIdx i hs.latest⟩

theorem CursorState.Checked.store (hs : s.Checked) (c : Cursor) : (s.store c).Checked :=
  ⟨InFlight.forall_map_note hs.checked, InFlight.latest_of_mem_map_note⟩

theorem checked_of_step (hs : s.Checked) (h : step s a = some t) : t.Checked := by
  cases a with
  | rewind target =>
    simp only [step] at h
    split at h
    · next c hok hread =>
      obtain rfl := Option.some.inj h
      obtain ⟨c', hread', hback⟩ := assertNotForward_eq_ok hok
      obtain rfl : c = c' := Option.some.inj (hread.symm.trans hread')
      exact ⟨InFlight.forall_append_start hs.checked hback,
        InFlight.latest_of_mem_append_start hs.latest⟩
    · obtain rfl := Option.some.inj h
      exact hs
  | update i =>
    obtain ⟨f, -, rfl⟩ := Option.map_eq_some_iff.mp h
    split
    · exact hs.eraseIdx i
    · exact (hs.eraseIdx i).store f.op
  | abandon i =>
    obtain rfl := Option.some.inj h
    exact hs.eraseIdx i
  | setCursor position =>
    obtain rfl := Option.some.inj h
    exact hs.store (.token position)

/-- What a rewind finds in the row is what was stored last since it looked, or else what
it was checked against. -/
theorem backwardOnly_step_iff (hs : s.Checked) :
    BackwardOnly (s, a, t) ↔ NotOvertaken (s, a, t) := by
  cases a with
  | update i =>
    simp only [BackwardOnly, NotOvertaken]
    refine forall₂_congr fun f hf => ?_
    have hmem : f ∈ s.rewinds := List.mem_of_getElem? hf
    have hlatest := hs.latest f hmem
    have hrow : ∀ position, s.row = some (.token position) ↔ f.latest = .token position := by
      intro position
      rw [hlatest, CursorState.current]
      cases s.row <;> simp
    cases hlast : f.since.getLast? with
    | none =>
      -- nobody has written since the check
      rw [InFlight.latest_of_since_nil (List.getLast?_eq_none_iff.mp hlast)] at hrow
      apply iff_of_true
      · intro position hposition
        exact hs.checked f hmem position ((hrow position).mp hposition)
      · simp
    | some c =>
      rw [InFlight.latest_of_getLast? hlast] at hrow
      simp only [hrow, Option.some.injEq]
  | rewind | abandon | setCursor => exact Iff.rfl

/-- Rewinds only move a numeric cursor backward exactly in those runs in which no rewind
is overtaken: by another one that stored less than its target, or by the position that
replaced a "now". -/
theorem backward_only_iff (row : Option Cursor) (ls : List CursorAction) :
    (∀ e ∈ trace step ⟨row, []⟩ ls, BackwardOnly e) ↔
      ∀ e ∈ trace step ⟨row, []⟩ ls, NotOvertaken e :=
  trace_forall_congr (I := CursorState.Checked) (H := fun _ => True)
    (CursorState.checked_start row) (fun _ _ _ hI _ hs => checked_of_step hI hs)
    (fun _ _ _ hI _ _ => backwardOnly_step_iff hI) fun _ _ => trivial

/-- Of two rewinds that read the same cursor, the one that goes back less far writes last
and moves the cursor forward again. -/
theorem rewind_moves_forward :
    ∃ s, exec step ⟨some (.token 100), []⟩ [.rewind "90", .rewind "10", .update 1] = some s ∧
      s.row = some (.token 10) ∧
      ∃ t, step s (.update 0) = some t ∧ t.row = some (.token 90) :=
  ⟨⟨some (.token 10), [⟨.token 90, .token 100, [.token 10]⟩]⟩, by decide +kernel, rfl,
    ⟨some (.token 90), []⟩, rfl, rfl⟩

end KonfirmBackend.Admin
