import KonfirmBackend.Lib.DurableCursor
import KonfirmBackend.Reconciler.Watch

/-!
# The persisted cursor

A single watcher is a consumer of the merchant's history with a durable cursor:
the rows of `payments` are what it has stored, `reconciler_state` holds the
persisted cursor, and the rest dies with the process. Every step of the world is
a run of that abstract consumer, whose invariant then says what lies behind the
persisted cursor.

## Main definitions

- `World.consumer` — the abstraction
- `World.Settled` — while "now" is being resolved no token is persisted
- `World.Sound` — the invariant of every run

## Main results

- `World.simulates` — every step of the world is matched by the consumer
- `World.cursor_covered` — no matched payment lies unrecorded behind the cursor
-/

namespace KonfirmBackend.Reconciler

open Transition

/-- The in-memory cursor and what is left of the batch. A payment that has been
recorded counts as passed, although `cursor` still names its predecessor. -/
def Proc.session : Proc → Option (DurableCursor.Session PaymentOp ℕ)
  | .polling s => some ⟨s.cursor, []⟩
  | .handling s op rest _ => some ⟨s.cursor, op :: rest⟩
  | .recorded _ op rest _ => some ⟨op.pagingToken, rest⟩
  | _ => none

def Proc.isResolving : Proc → Bool
  | .resolving _ _ => true
  | .resolved _ _ _ => true
  | _ => false

def Database.tokens (db : Database) : Set ℕ := {t | db.HasToken t}

/-- The persisted numeric cursor. -/
def Database.position (db : Database) : Option ℕ :=
  match db.cursor with
  | some (.token c) => some c
  | _ => none

namespace World

def consumer (w : World) : DurableCursor.Consumer PaymentOp ℕ where
  log := w.history.ops
  stored := w.db.tokens
  persisted := w.db.position
  session := w.proc.session

/-- While the process resolves "now", no token is persisted. -/
def Settled (w : World) : Prop := w.proc.isResolving → w.db.position = none

/-- The steps of the abstract consumer that stands for watcher `W`. -/
abbrev ConsumerStep (W : Watcher) :=
  DurableCursor.Step PaymentOp.pagingToken (PaymentOp.Matched W.muxedFromString)

end World

@[simp] theorem Session.session_next (s : Session) (rest : List PaymentOp) (rate : Option ℚ) :
    (s.next rest rate).session = some ⟨s.cursor, rest⟩ := by
  cases rest <;> rfl

@[simp] theorem Session.isResolving_next (s : Session) (rest : List PaymentOp) (rate : Option ℚ) :
    (s.next rest rate).isResolving = false := by
  cases rest <;> rfl

@[simp] theorem Proc.isResolving_endCheck (p : Proc) (i : ℕ) :
    (p.endCheck i).isResolving = p.isResolving := by
  cases p <;> rfl

@[simp] theorem Proc.session_recorded (s : Session) (op : PaymentOp) (rest : List PaymentOp)
    (rate : Option ℚ) : (recorded s op rest rate).session = some ⟨op.pagingToken, rest⟩ := rfl

@[simp] theorem Proc.session_endCheck (p : Proc) (i : ℕ) :
    (p.endCheck i).session = p.session := by
  cases p <;> rfl

namespace Database

theorem tokens_congr {db db' : Database} (h : db'.keys = db.keys) : db'.tokens = db.tokens :=
  Set.ext fun t => hasToken_congr h t

theorem position_congr {db db' : Database} (h : db'.cursor = db.cursor) :
    db'.position = db.position := by
  rw [position, position, h]

@[simp] theorem position_setCursor (db : Database) (c : ℕ) :
    (db.setCursor (.token c)).position = some c := rfl

theorem cursor_of_position {db : Database} {c : ℕ} (h : db.position = some c) :
    db.cursor = some (.token c) := by
  simp only [position] at h
  split at h
  · rw [‹db.cursor = _›, Option.some.inj h]
  · simp at h

theorem position_of_getCursor {db : Database} {c : ℕ} (h : db.getCursor = .token c) :
    db.position = some c := by
  simp only [getCursor] at h
  rw [position]
  cases hc : db.cursor with
  | none => simp [hc] at h
  | some x => simp_all

theorem position_of_getCursor_now {db : Database} (h : db.getCursor = .now) :
    db.position = none := by
  simp only [getCursor] at h
  rw [position]
  cases hc : db.cursor with
  | none => rfl
  | some x => simp_all

end Database

namespace World

variable {W : Watcher} {w w' : World} {a : Action}

/-- A step of the process is a run of the consumer. -/
theorem simulates_move {db' : Database} {p' : Proc} (hset : w.Settled)
    (hm : W.Move w.history w.db w.proc db' p') :
    Relation.ReflTransGen (ConsumerStep W) w.consumer (consumer ⟨db', w.history, p'⟩) := by
  obtain ⟨db, h, p⟩ := w
  cases hm with
  | exit => exact .single (.crash _)
  | begin merchant maxPolls hm hc => exact .refl
  | resume merchant maxPolls c hm hc =>
    exact .single (.resume (consumer ⟨db, h, .down⟩) c (Database.position_of_getCursor hc))
  | resolve merchant maxPolls => exact .refl
  | position merchant maxPolls head =>
    -- "now" becomes a token only here, and the process starts from it
    have hnone := hset rfl
    exact .head (.position (consumer ⟨db, h, .resolved merchant maxPolls head⟩) head hnone rfl)
      (.single (.resume _ head rfl))
  | fetch s n k =>
    have hstep : ConsumerStep W (consumer ⟨db, h, .polling s⟩) _ :=
      .fetch _ s.cursor _ rfl (h.paymentsSince_isPrefix s.cursor n pageLimit)
    simpa [consumer] using Relation.ReflTransGen.single hstep
  | drain s => exact .single (.crash _)
  | skip s op rest cached hop =>
    have hstep : ConsumerStep W (consumer ⟨db, h, .handling s op rest cached⟩) _ :=
      .skip _ s.cursor op rest rfl hop
    simpa [consumer, Session.advance] using Relation.ReflTransGen.single hstep
  | record s op rest cached now book id applied amount db' recorded hop hid hrate husd hrec =>
    -- a token that was there already is stored once more, which changes nothing
    have htok : db'.tokens = insert op.pagingToken db.tokens :=
      Set.ext fun t => hasToken_of_recordPaymentIfNew hrec t
    have hpos := Database.position_congr (other_tables_of_recordPaymentIfNew hrec).1
    have hstep : ConsumerStep W (consumer ⟨db, h, .handling s op rest cached⟩) _ :=
      .commit _ s.cursor op rest rfl
    simpa [consumer, htok, hpos] using Relation.ReflTransGen.single hstep
  | lose s op rest cached now book id applied amount db' recorded hop hid hrate husd hrec =>
    -- the row is committed, and the process ends before it knows
    have htok : db'.tokens = insert op.pagingToken db.tokens :=
      Set.ext fun t => hasToken_of_recordPaymentIfNew hrec t
    have hpos := Database.position_congr (other_tables_of_recordPaymentIfNew hrec).1
    have hstep : ConsumerStep W (consumer ⟨db, h, .handling s op rest cached⟩) _ :=
      .commit _ s.cursor op rest rfl
    have hcrash := Relation.ReflTransGen.tail (.single hstep) (.crash _)
    simpa [consumer, Proc.session, htok, hpos] using hcrash
  | save s op rest cached =>
    have hstep : ConsumerStep W (consumer ⟨db, h, .recorded s op rest cached⟩) _ :=
      .save _ _ rfl
    simpa [consumer, Session.advance, Database.tokens_congr (db.keys_setCursor _)]
      using Relation.ReflTransGen.single hstep
  | endCheck p i => simpa [consumer] using Relation.ReflTransGen.refl
  | hold p i id =>
    simpa [consumer, Database.tokens_congr (db.keys_markHeld id),
      Database.position_congr (db.cursor_markHeld id)] using Relation.ReflTransGen.refl

/-- Every step of the world is a run of the consumer. -/
theorem simulates (hset : w.Settled) (hs : w.step W a = some w') :
    Relation.ReflTransGen (ConsumerStep W) w.consumer w'.consumer := by
  cases a with
  | watch a =>
    obtain ⟨⟨db', p'⟩, hstep, rfl⟩ := Option.map_eq_some_iff.mp hs
    exact simulates_move hset (Watcher.move_of_step hstep)
  | arrive op =>
    obtain ⟨h', happ, rfl⟩ := Option.map_eq_some_iff.mp hs
    obtain ⟨hlt, hops⟩ := History.append_eq_some happ
    have hstep : ConsumerStep W w.consumer _ := .append _ op hlt
    simpa [consumer, hops] using Relation.ReflTransGen.single hstep
  | api e =>
    obtain rfl := Option.some.inj hs
    obtain ⟨hk, hc⟩ := w.db.api_frame e
    simpa [consumer, Database.tokens_congr hk, Database.position_congr hc]
      using Relation.ReflTransGen.refl

theorem settled_move {db' : Database} {p' : Proc} (hset : w.Settled)
    (hm : W.Move w.history w.db w.proc db' p') : Settled ⟨db', w.history, p'⟩ := by
  obtain ⟨db, h, p⟩ := w
  intro hp
  cases hm with
  | begin merchant maxPolls hm hc => exact Database.position_of_getCursor_now hc
  | resolve merchant maxPolls => exact hset rfl
  | endCheck p i => exact hset (by simpa using hp)
  | hold p i id =>
    exact (Database.position_congr (db.cursor_markHeld id)).trans (hset (by simpa using hp))
  | fetch => exact absurd hp (by simp)
  | skip => exact absurd hp (by simp)
  | save => exact absurd hp (by simp)
  | _ => exact absurd hp (by simp [Proc.isResolving])

theorem settled_step (hset : w.Settled) (hs : w.step W a = some w') : w'.Settled := by
  cases a with
  | watch a =>
    obtain ⟨⟨db', p'⟩, hstep, rfl⟩ := Option.map_eq_some_iff.mp hs
    exact settled_move hset (Watcher.move_of_step hstep)
  | arrive op =>
    obtain ⟨h', happ, rfl⟩ := Option.map_eq_some_iff.mp hs
    exact hset
  | api e =>
    obtain rfl := Option.some.inj hs
    intro hp
    rw [Database.position_congr (w.db.api_frame e).2]
    exact hset hp

theorem settled_of_down (h : w.proc = .down) : w.Settled := by
  intro hp
  rw [h] at hp
  simp [Proc.isResolving] at hp

/-- A stopped process has no session, so it starts within the invariant. -/
theorem consumer_inv_of_down (h : w.proc = .down) :
    DurableCursor.Inv PaymentOp.pagingToken (PaymentOp.Matched W.muxedFromString) w.consumer := by
  apply DurableCursor.inv_of_session_none w.history.ordered
  simp [consumer, h, Proc.session]

/-- The invariant of a single watcher's world. -/
structure Sound (W : Watcher) (w : World) : Prop where
  settled : w.Settled
  inv : DurableCursor.Inv PaymentOp.pagingToken (PaymentOp.Matched W.muxedFromString)
    w.consumer

theorem sound_of_down (h : w.proc = .down) : w.Sound W :=
  ⟨settled_of_down h, consumer_inv_of_down h⟩

theorem Sound.step (h : w.Sound W) (hs : w.step W a = some w') : w'.Sound W :=
  ⟨settled_step h.settled hs, DurableCursor.inv_of_steps h.inv (simulates h.settled hs)⟩

theorem Sound.run {ok : Action → Prop} (h : w.Sound W) (hr : Reaches (World.step W) ok w w') :
    w'.Sound W := by
  apply hr.invariant h
  intro _ _ _ _ hi hs
  exact hi.step hs

/-- The operation at hand comes from the merchant's history. -/
theorem Sound.mem_history {s : Session} {op : PaymentOp} {rest : List PaymentOp}
    {cached : Option ℚ} (h : w.Sound W) (hp : w.proc = .handling s op rest cached) :
    op ∈ w.history.ops := by
  have hbatch := h.inv.fetched ⟨s.cursor, op :: rest⟩ (by simp [consumer, hp, Proc.session])
  exact (OrderedLog.mem_after.mp (hbatch.subset List.mem_cons_self)).1

/-- **Refinement**: a run of the world is a run of the consumer, so what lies
behind the persisted cursor is covered. -/
theorem Sound.since {ok : Action → Prop} {c : ℕ} (h : w.Sound W)
    (hc : w.db.cursor = some (.token c)) (hr : Reaches (World.step W) ok w w') :
    ∃ p, DurableCursor.Since PaymentOp.pagingToken (PaymentOp.Matched W.muxedFromString) c
      w'.consumer p := by
  have hpos : w.consumer.persisted = some c := by simp [consumer, Database.position, hc]
  have hsim := hr.simulate consumer h.settled (fun _ _ _ _ => settled_step)
    fun _ _ _ _ => simulates
  exact DurableCursor.covered_of_steps h.inv hpos hsim.2

/-- Along every run the persisted cursor never moves back, and every matched
payment it has passed since it first was `c` has a row. -/
theorem cursor_covered {w₀ w₁ w₂ : World} {c : ℕ} (hdown : w₀.proc = .down)
    (h₁ : Reaches (World.step W) (fun _ => True) w₀ w₁) (hc : w₁.db.cursor = some (.token c))
    (h₂ : Reaches (World.step W) (fun _ => True) w₁ w₂) :
    ∃ p, w₂.db.cursor = some (.token p) ∧ c ≤ p ∧
      ∀ op ∈ w₂.history.ops, op.Matched W.muxedFromString → c < op.pagingToken →
        op.pagingToken ≤ p → w₂.db.HasToken op.pagingToken := by
  obtain ⟨p, hp⟩ := ((sound_of_down hdown).run h₁).since hc h₂
  exact ⟨p, Database.cursor_of_position hp.persisted, hp.le, hp.covered⟩

/-- A payment arrives, is recorded and passed by the cursor. -/
def exampleRun : List Action :=
  [.arrive (examplePayment 5 "7" "1.0000000"), .watch (.start 1), .watch (.poll 1),
    .watch (.handle 0 ⟨[], []⟩), .watch .persist]

theorem cursor_covered_exampleRun :
    ∃ w, exec (World.step exampleWatcher) exampleWorld exampleRun = some w ∧
      ∃ p, w.db.cursor = some (.token p) ∧ 0 ≤ p ∧
        ∀ op ∈ w.history.ops, op.Matched exampleWatcher.muxedFromString → 0 < op.pagingToken →
          op.pagingToken ≤ p → w.db.HasToken op.pagingToken := by
  have hrun : ∃ w, exec (World.step exampleWatcher) exampleWorld exampleRun = some w ∧
      w.db.cursor = some (.token 5) := exists_exec_of_any (by decide +kernel)
  obtain ⟨w, hexec, -⟩ := hrun
  exact ⟨w, hexec, cursor_covered rfl .refl rfl (.of_exec (fun _ _ => trivial) hexec)⟩

end World

end KonfirmBackend.Reconciler
