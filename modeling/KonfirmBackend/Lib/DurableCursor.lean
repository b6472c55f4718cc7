import Mathlib.Data.Set.Insert
import Mathlib.Logic.Relation
import KonfirmBackend.Lib.OrderedLog

/-!
# Consumers of a log with a durable cursor

A consumer reads an ordered log in batches. What it has stored and the cursor it
has persisted survive a crash; the cursor it reads from and the batch it is
working through do not. It stores an entry before it moves its cursor over it,
and persists the cursor at moments of its own choosing.

## Main definitions

- `Consumer` — the durable and the volatile part of a consumer
- `Step` — what a consumer, its log and its crashes can do
- `CoveredBetween` — every relevant entry between two cursors is stored
- `Inv` — the invariant of every run

## Main results

- `Step.inv` — every step preserves the invariant
- `covered_of_steps` — from a persisted cursor on, the persisted cursor never
  moves back and every relevant entry it passed over is stored
-/

namespace DurableCursor

open OrderedLog

/-- The volatile half: the cursor read from and the entries fetched beyond it. -/
structure Session (α κ : Type*) where
  cursor : κ
  batch : List α

structure Consumer (α κ : Type*) where
  log : List α
  stored : Set κ
  persisted : Option κ
  session : Option (Session α κ)

variable {α κ : Type*} [LinearOrder κ] (key : α → κ) (relevant : α → Prop)

/-- What can happen to a consumer. Entries may be stored by others as well
(`store`), and `save` persists the cursor of the session whenever it is taken. -/
inductive Step : Consumer α κ → Consumer α κ → Prop
  | append (s : Consumer α κ) (x : α) (hx : ∀ y ∈ s.log, key y < key x) :
      Step s { s with log := s.log ++ [x] }
  | store (s : Consumer α κ) (t : Set κ) (ht : s.stored ⊆ t) : Step s { s with stored := t }
  | position (s : Consumer α κ) (c : κ) (hp : s.persisted = none) (hs : s.session = none) :
      Step s { s with persisted := some c }
  | resume (s : Consumer α κ) (c : κ) (hp : s.persisted = some c) :
      Step s { s with session := some ⟨c, []⟩ }
  | fetch (s : Consumer α κ) (c : κ) (xs : List α) (hs : s.session = some ⟨c, []⟩)
      (hxs : xs <+: after key c s.log) : Step s { s with session := some ⟨c, xs⟩ }
  | skip (s : Consumer α κ) (c : κ) (x : α) (xs : List α)
      (hs : s.session = some ⟨c, x :: xs⟩) (hx : ¬ relevant x) :
      Step s { s with session := some ⟨key x, xs⟩ }
  | commit (s : Consumer α κ) (c : κ) (x : α) (xs : List α)
      (hs : s.session = some ⟨c, x :: xs⟩) :
      Step s { s with stored := insert (key x) s.stored, session := some ⟨key x, xs⟩ }
  | save (s : Consumer α κ) (σ : Session α κ) (hs : s.session = some σ) :
      Step s { s with persisted := some σ.cursor }
  | crash (s : Consumer α κ) : Step s { s with session := none }

/-- Every relevant entry beyond `b` and up to `c` is stored. -/
def CoveredBetween (s : Consumer α κ) (b c : κ) : Prop :=
  ∀ x ∈ s.log, relevant x → b < key x → key x ≤ c → key x ∈ s.stored

/-- The cursor `c` has not run ahead of the log, as seen from `b`. -/
def WithinLog (s : Consumer α κ) (b c : κ) : Prop :=
  b < c → ∃ x ∈ s.log, key x = c

/-- The invariant of every run. The last two fields speak about a session and
the cursor it would resume from. -/
structure Inv (s : Consumer α κ) : Prop where
  ordered : Ordered key s.log
  fetched : ∀ σ, s.session = some σ → σ.batch <+: after key σ.cursor s.log
  started : ∀ σ, s.session = some σ → ∃ p, s.persisted = some p
  ahead : ∀ σ p, s.session = some σ → s.persisted = some p →
    p ≤ σ.cursor ∧ WithinLog key s p σ.cursor
  covered : ∀ σ p, s.session = some σ → s.persisted = some p →
    CoveredBetween key relevant s p σ.cursor

variable {key relevant} {s t : Consumer α κ} {b c p : κ}

/-- Adjacent covered stretches make one. -/
theorem CoveredBetween.trans (h₁ : CoveredBetween key relevant s b p)
    (h₂ : CoveredBetween key relevant s p c) : CoveredBetween key relevant s b c := by
  intro x hx hr hb hc
  rcases le_or_gt (key x) p with hp | hp
  · exact h₁ x hx hr hb hp
  · exact h₂ x hx hr hp hc

theorem coveredBetween_self : CoveredBetween key relevant s c c :=
  fun _ _ _ hb hc => absurd (hb.trans_le hc) (lt_irrefl _)

theorem withinLog_self : WithinLog key s c c := fun h => absurd h (lt_irrefl _)

theorem WithinLog.trans (h₁ : WithinLog key s b p) (h₂ : WithinLog key s p c)
    (hpc : p ≤ c) : WithinLog key s b c := by
  intro hbc
  rcases hpc.lt_or_eq with hlt | rfl
  · exact h₂ hlt
  · exact h₁ hbc

/-- A new entry lies beyond every cursor that has not run ahead of the log. -/
theorem CoveredBetween.append {x : α} (hx : ∀ y ∈ s.log, key y < key x)
    (hw : WithinLog key s b c) (h : CoveredBetween key relevant s b c) :
    CoveredBetween key relevant { s with log := s.log ++ [x] } b c := by
  intro y hy hr hb hc
  rcases List.mem_append.mp hy with hy | hy
  · exact h y hy hr hb hc
  · obtain rfl := List.mem_singleton.mp hy
    obtain ⟨z, hz, hzc⟩ := hw (hb.trans_le hc)
    exact absurd (hx z hz) (not_lt.mpr (hc.trans_eq hzc.symm))

theorem WithinLog.append (x : α) (hw : WithinLog key s b c) :
    WithinLog key { s with log := s.log ++ [x] } b c := by
  intro hbc
  obtain ⟨z, hz, hzc⟩ := hw hbc
  exact ⟨z, List.mem_append_left _ hz, hzc⟩

/-- Moving the session over its next entry `x` extends the covered stretch to
`x`, once `x` is stored if it is relevant. -/
theorem Inv.cover_next {x : α} {xs : List α} (h : Inv key relevant s)
    (hs : s.session = some ⟨c, x :: xs⟩) (hp : s.persisted = some p) {t : Set κ}
    (ht : s.stored ⊆ t) (hx : relevant x → key x ∈ t) :
    ∀ y ∈ s.log, relevant y → p < key y → key y ≤ key x → key y ∈ t := by
  intro y hy hr hpy hyx
  rcases le_or_gt (key y) c with hyc | hyc
  · exact ht (h.covered _ _ hs hp y hy hr hpy hyc)
  · have hxy := le_or_lt_of_isPrefix h.ordered (h.fetched _ hs) hy hyc
    have hxl : x ∈ s.log := (mem_after.mp ((h.fetched _ hs).subset List.mem_cons_self)).1
    obtain rfl := h.ordered.eq_of_key_eq hy hxl (le_antisymm hyx hxy)
    exact hx hr

/-- The session's cursor after its next entry. -/
theorem Inv.ahead_next {x : α} {xs : List α} (h : Inv key relevant s)
    (hs : s.session = some ⟨c, x :: xs⟩) (hp : s.persisted = some p) :
    p ≤ key x ∧ WithinLog key s p (key x) := by
  have hmem := mem_after.mp ((h.fetched _ hs).subset List.mem_cons_self)
  exact ⟨((h.ahead _ _ hs hp).1.trans_lt hmem.2).le, fun _ => ⟨x, hmem.1, rfl⟩⟩

/-- Without a session only the order of the log matters. -/
theorem inv_of_session_none (hordered : Ordered key s.log) (hs : s.session = none) :
    Inv key relevant s := by
  constructor
  · exact hordered
  · intro σ hσ
    simp [hs] at hσ
  · intro σ hσ
    simp [hs] at hσ
  · intro σ p hσ
    simp [hs] at hσ
  · intro σ p hσ
    simp [hs] at hσ

/-- A session that has neither skipped a relevant entry nor left the log. -/
theorem Inv.withSession {σ : Session α κ} {u : Set κ} (h : Inv key relevant s)
    (hfetched : σ.batch <+: after key σ.cursor s.log) (hstarted : ∃ p, s.persisted = some p)
    (hahead : ∀ p, s.persisted = some p → p ≤ σ.cursor ∧ WithinLog key s p σ.cursor)
    (hcovered : ∀ p, s.persisted = some p →
      CoveredBetween key relevant { s with stored := u } p σ.cursor) :
    Inv key relevant { s with stored := u, session := some σ } := by
  constructor
  · exact h.ordered
  · intro σ' hσ
    obtain rfl := Option.some.inj hσ
    exact hfetched
  · intro _ _
    exact hstarted
  · intro σ' p hσ hp
    obtain rfl := Option.some.inj hσ
    exact hahead p hp
  · intro σ' p hσ hp
    obtain rfl := Option.some.inj hσ
    exact hcovered p hp

/-- Every step preserves the invariant. -/
theorem Step.inv (hst : Step key relevant s t) (h : Inv key relevant s) :
    Inv key relevant t := by
  cases hst with
  | append x hx =>
    constructor
    · exact h.ordered.concat hx
    · intro σ hσ
      rw [after_append]
      exact (h.fetched σ hσ).trans (List.prefix_append _ _)
    · exact h.started
    · intro σ p hσ hp
      obtain ⟨hle, hw⟩ := h.ahead σ p hσ hp
      exact ⟨hle, hw.append x⟩
    · intro σ p hσ hp
      exact (h.covered σ p hσ hp).append hx (h.ahead σ p hσ hp).2
  | store u hu =>
    refine ⟨h.ordered, h.fetched, h.started, h.ahead, ?_⟩
    intro σ p hσ hp x hx hr hb hc
    exact hu (h.covered σ p hσ hp x hx hr hb hc)
  | position c hp hs => exact inv_of_session_none h.ordered hs
  | resume c hp =>
    apply h.withSession List.nil_prefix ⟨c, hp⟩
    · intro p hp'
      obtain rfl := Option.some.inj (hp.symm.trans hp')
      exact ⟨le_rfl, withinLog_self⟩
    · intro p hp'
      obtain rfl := Option.some.inj (hp.symm.trans hp')
      exact coveredBetween_self
  | fetch c xs hs hxs =>
    apply h.withSession hxs (h.started _ hs)
    · intro p hp
      exact h.ahead ⟨c, []⟩ p hs hp
    · intro p hp
      exact h.covered ⟨c, []⟩ p hs hp
  | skip c x xs hs hx =>
    apply h.withSession (isPrefix_after_of_cons h.ordered (h.fetched _ hs)) (h.started _ hs)
    · intro p hp
      exact h.ahead_next hs hp
    · intro p hp
      apply h.cover_next hs hp subset_rfl
      intro hr
      exact absurd hr hx
  | commit c x xs hs =>
    apply h.withSession (isPrefix_after_of_cons h.ordered (h.fetched _ hs)) (h.started _ hs)
    · intro p hp
      exact h.ahead_next hs hp
    · intro p hp
      apply h.cover_next hs hp (Set.subset_insert _ _)
      intro _
      exact Set.mem_insert _ _
  | save σ hs =>
    refine ⟨h.ordered, h.fetched, fun _ _ => ⟨σ.cursor, rfl⟩, ?_, ?_⟩
    · intro σ' p hσ hp
      obtain rfl := Option.some.inj (hs.symm.trans hσ)
      obtain rfl := Option.some.inj hp
      exact ⟨le_rfl, withinLog_self⟩
    · intro σ' p hσ hp
      obtain rfl := Option.some.inj (hs.symm.trans hσ)
      obtain rfl := Option.some.inj hp
      exact coveredBetween_self
  | crash => exact inv_of_session_none h.ordered rfl

/-- Every run preserves the invariant. -/
theorem inv_of_steps (h : Inv key relevant s)
    (hst : Relation.ReflTransGen (Step key relevant) s t) : Inv key relevant t := by
  induction hst with
  | refl => exact h
  | tail _ hlast ih => exact hlast.inv ih

/-- What holds of the persisted cursor from the moment it first was `b`. -/
structure Since (key : α → κ) (relevant : α → Prop) (b : κ) (s : Consumer α κ) (p : κ) :
    Prop where
  persisted : s.persisted = some p
  le : b ≤ p
  within : WithinLog key s b p
  covered : CoveredBetween key relevant s b p

/-- One step keeps everything beyond `b` covered and moves no cursor back. -/
theorem Step.since (hst : Step key relevant s t) (h : Inv key relevant s)
    (hb : Since key relevant b s p) : ∃ q, p ≤ q ∧ Since key relevant b t q := by
  cases hst with
  | append x hx =>
    exact ⟨p, le_rfl, hb.persisted, hb.le, hb.within.append x, hb.covered.append hx hb.within⟩
  | store t ht =>
    exact ⟨p, le_rfl, hb.persisted, hb.le, hb.within,
      fun x hx hr h₁ h₂ => ht (hb.covered x hx hr h₁ h₂)⟩
  | position c hp hs => exact absurd (hp.symm.trans hb.persisted) (by simp)
  | resume c hp => exact ⟨p, le_rfl, hb.persisted, hb.le, hb.within, hb.covered⟩
  | fetch c xs hs hxs => exact ⟨p, le_rfl, hb.persisted, hb.le, hb.within, hb.covered⟩
  | skip c x xs hs hx => exact ⟨p, le_rfl, hb.persisted, hb.le, hb.within, hb.covered⟩
  | commit c x xs hs =>
    exact ⟨p, le_rfl, hb.persisted, hb.le, hb.within,
      fun y hy hr h₁ h₂ => Set.mem_insert_of_mem _ (hb.covered y hy hr h₁ h₂)⟩
  | save σ hs =>
    obtain ⟨hle, hw⟩ := h.ahead σ p hs hb.persisted
    exact ⟨σ.cursor, hle, rfl, hb.le.trans hle, hb.within.trans hw hle,
      hb.covered.trans (h.covered σ p hs hb.persisted)⟩
  | crash => exact ⟨p, le_rfl, hb.persisted, hb.le, hb.within, hb.covered⟩

/-- **Crash-safe cursor**: from a state whose persisted cursor is `b`, every run
keeps a persisted cursor at or beyond `b`, and every relevant entry between the
two is stored. -/
theorem covered_of_steps (h : Inv key relevant s) (hb : s.persisted = some b)
    (hst : Relation.ReflTransGen (Step key relevant) s t) : ∃ p, Since key relevant b t p := by
  induction hst with
  | refl => exact ⟨b, hb, le_rfl, withinLog_self, coveredBetween_self⟩
  | tail hinit hlast ih =>
    obtain ⟨p, hp⟩ := ih
    obtain ⟨q, -, hq⟩ := hlast.since (inv_of_steps h hinit) hp
    exact ⟨q, hq⟩

end DurableCursor
