import KonfirmBackend.Lib.Transition
import KonfirmBackend.Reconciler.Watch

/-!
# Background checks at the end of a run

A payment that is recorded, and whose payer is not blocked locally, has an on-chain check
spawned for it. `await_pending_checks` stands before the `Ok(())` at the end of `watch`, and
before none of the exits through `?`. One of these leaves `record_payment_if_new` when the INSERT
is committed and its answer lost: a row then has no check that could be awaited.

## Main definitions

- `WatchRun` — the world, with the checks that the current call of `watch` owes and has ended
- `callFails`, `finishes` — how a call of `watch` returns
- `WatchRun.AllChecked` — no check has been dropped

## Main results

- `no_check_dropped_iff` — runs in which no call that returns has dropped a check
-/

namespace KonfirmBackend.Reconciler

open Transition

/-- A background check that has run to completion, with its answer. -/
structure EndedCheck where
  check : PendingCheck
  allowed : Bool
deriving DecidableEq

/-- A world, with the payments that the current call of `watch` has inserted and whose payers
were not blocked locally, the checks that have ended, and the payments that `mark_held` has
been called for. -/
structure WatchRun where
  world : World
  unblocked : List PendingCheck
  ended : List EndedCheck
  heldCalls : List ℕ
deriving DecidableEq

/-- The rows that were inserted from one database to the next, but for the blocked ones. -/
def newUnblocked (db db' : Database) : List PendingCheck :=
  ((db'.payments.drop db.payments.length).filter fun p => !db.isLocallyBlocked p.payerAddress).map
    fun p => ⟨p.id, p.payerAddress⟩

/-- The check that ends in a step. -/
def endedIn (p : Proc) : Action → List EndedCheck
  | .watch (.check i allowed _) => p.checks[i]?.toList.map fun c => ⟨c, allowed⟩
  | _ => []

/-- The payments that the spawned tasks call `mark_held` for. -/
def holdCalls (ended : List EndedCheck) : List ℕ :=
  (ended.filter fun e => !e.allowed).map fun e => e.check.paymentId

namespace WatchRun

/-- A new call of `watch` owes nothing to the one before. -/
def current (s : WatchRun) : WatchRun :=
  if s.world.proc = .down then ⟨s.world, [], [], []⟩ else s

def step (W : Watcher) (s : WatchRun) (a : Action) : Option WatchRun :=
  (s.world.step W a).map fun w =>
    ⟨w, s.current.unblocked ++ newUnblocked s.world.db w.db,
      s.current.ended ++ endedIn s.world.proc a,
      s.current.heldCalls ++ holdCalls (endedIn s.world.proc a)⟩

/-- Before the first call of `watch`. -/
def start (db : Database) (h : History) : WatchRun := ⟨⟨db, h, .down⟩, [], [], []⟩

/-- Every check has ended, and `mark_held` was called if its answer was 'not allowed'. -/
def AllChecked (s : WatchRun) : Prop :=
  ∀ c ∈ s.unblocked, ∃ e ∈ s.ended, e.check = c ∧
    (e.allowed = false → c.paymentId ∈ s.heldCalls)

instance (s : WatchRun) : Decidable s.AllChecked :=
  inferInstanceAs (Decidable (∀ c ∈ _, ∃ e ∈ _, _ ∧ (_ → _)))

end WatchRun

/-- A call to Horizon or Postgres fails and `watch` returns the error. A panic of the decimal
arithmetic is not a return, nor is a stop while the checks are awaited. -/
def callFails (W : Watcher) (w : World) : Action → Bool
  | .watch (.handle now book) =>
    match w.proc with
    | .handling s op rest cached =>
      match W.handleOp w.db now book s op rest cached with
      | .error e => e ≠ .decimalOverflow
      | .ok _ => false
    | _ => false
  | .watch (.handleLost _ _) => true
  | .watch .stop =>
    match w.proc with
    | .down | .draining _ => false
    | _ => true
  | _ => false

/-- All checks have been awaited and `watch` returns `Ok(())`. -/
def finishes (w : World) : Action → Bool
  | .watch .finish => w.proc = .draining []
  | _ => false

/-! ## What a step does to the checks -/

section Steps

variable {W : Watcher} {db db' : Database} {p p' : Proc} {s t : WatchRun} {a : Action}

theorem newUnblocked_of_length_eq (h : db'.payments.length = db.payments.length) :
    newUnblocked db db' = [] := by
  rw [newUnblocked, List.drop_of_length_le h.le]
  rfl

@[simp] theorem newUnblocked_self (db : Database) : newUnblocked db db = [] :=
  newUnblocked_of_length_eq rfl

/-- Recording spawns a check for the row it inserts, unless the payer is blocked. -/
theorem checks_of_record {now : ℕ} {merchant : Merchant} {req : PaymentRequest}
    {r : Option RecordedPayment} (s : Session)
    (h : recordPaymentIfNew W.decimal db now merchant req = .ok (db', r)) :
    (s.spawnCheck req.payerAddress r).checks = s.checks ++ newUnblocked db db' ∧
      (newUnblocked db db' = [] ∨
        newUnblocked db db' = [⟨db.payments.length, req.payerAddress⟩] ∧
          db'.payments.length = db.payments.length + 1) ∧
      db.payments.length ≤ db'.payments.length := by
  rcases recordPaymentIfNew_eq_ok h with
    ⟨-, rfl, rfl⟩ | ⟨gross, bps, fee, net, amounts, -, -, -, -, -, -, rfl, rfl⟩
  · exact ⟨by simp [Session.spawnCheck], .inl (newUnblocked_self db'), le_rfl⟩
  · have hnew : newUnblocked db { db with
        payments := db.payments ++ [paymentRow db merchant req amounts] } =
        if db.isLocallyBlocked req.payerAddress then []
        else [⟨db.payments.length, req.payerAddress⟩] := by
      rw [newUnblocked, List.drop_left]
      cases hb : db.isLocallyBlocked req.payerAddress <;> simp [paymentRow, hb]
    refine ⟨?_, ?_, by simp⟩ <;> rw [hnew]
    · cases db.isLocallyBlocked req.payerAddress <;> simp [Session.spawnCheck]
    · cases db.isLocallyBlocked req.payerAddress <;> simp

/-- A step that inserts a row inserts one, with the next unused id. -/
def Grows (db db' : Database) : Prop :=
  db.payments.length ≤ db'.payments.length ∧
    (newUnblocked db db' = [] ∨
      ∃ payer, newUnblocked db db' = [⟨db.payments.length, payer⟩] ∧
        db'.payments.length = db.payments.length + 1)

theorem grows_of_length_eq (h : db'.payments.length = db.payments.length) : Grows db db' :=
  ⟨h.ge, .inl (newUnblocked_of_length_eq h)⟩

/-- Handling an operation spawns the checks of the rows it inserts. -/
theorem checks_of_handleOp {now : ℕ} {book : OrderBook} {s : Session} {op : PaymentOp}
    {rest : List PaymentOp} {cached : Option ℚ}
    (h : W.handleOp db now book s op rest cached = .ok (db', p')) :
    p'.checks = s.checks ++ newUnblocked db db' ∧ Grows db db' := by
  rcases Watcher.handleOp_eq_ok h with
    ⟨-, rfl, rfl⟩ | ⟨id, applied, amount, r, -, -, -, -, hrec, rfl⟩
  · exact ⟨by simp [Session.advance], grows_of_length_eq rfl⟩
  · obtain ⟨hchecks, hnew, hlen⟩ := checks_of_record s hrec
    exact ⟨hchecks, hlen, hnew.imp_right fun hn => ⟨_, hn⟩⟩

/-- The checks of a process change in two ways: one has ended, or one was spawned for a row
that was inserted. -/
theorem checks_of_step {h : History} {wa : WatchAction}
    (hs : W.step h db p wa = some (db', p')) (hrun : p' ≠ .down) :
    ((endedIn p (.watch wa)).map EndedCheck.check ++ p'.checks).Perm
      (p.checks ++ newUnblocked db db') ∧ Grows db db' := by
  have hkeep : ∀ {d : Database} {q : Proc}, some (d, q) = some (db', p') →
      d.payments.length = db.payments.length → q.checks = p.checks →
      p'.checks.Perm (p.checks ++ newUnblocked db db') ∧ Grows db db' := by
    rintro d q heq hd hq
    obtain ⟨rfl, rfl⟩ := Prod.mk.inj (Option.some.inj heq)
    rw [newUnblocked_of_length_eq hd, List.append_nil, hq]
    exact ⟨.refl _, grows_of_length_eq hd⟩
  have hexit : ∀ {d : Database}, some (d, Proc.down) ≠ some (db', p') := by
    intro d heq
    exact hrun (Prod.mk.inj (Option.some.inj heq)).2.symm
  simp only [Watcher.step] at hs
  split at hs
  · split at hs
    · exact absurd hs hexit
    · split at hs
      · exact hkeep hs rfl rfl
      · exact hkeep hs rfl rfl
  · exact hkeep hs rfl rfl
  · exact hkeep hs rfl rfl
  · split at hs
    · cases hs
    · exact hkeep hs rfl (Session.checks_next _ _ _)
  · split at hs
    · exact hkeep hs rfl rfl
    · cases hs
  · split at hs
    · exact absurd hs hexit
    · next r hok =>
      obtain rfl := Option.some.inj hs
      obtain ⟨hchecks, hgrows⟩ := checks_of_handleOp hok
      exact ⟨.of_eq hchecks, hgrows⟩
  · split at hs
    · exact absurd hs hexit
    · cases hs
  · exact hkeep hs rfl (Session.checks_next _ _ _)
  · exact absurd hs hexit
  · split at hs
    · cases hs
    · next _ i allowed marked _ c hc =>
      obtain ⟨rfl, rfl⟩ := Prod.mk.inj (Option.some.inj hs)
      have hlen : (if !allowed && marked then db.markHeld c.paymentId else db).payments.length =
          db.payments.length := by
        split <;> simp [Database.markHeld]
      refine ⟨?_, grows_of_length_eq hlen⟩
      obtain ⟨hi, rfl⟩ := List.getElem?_eq_some_iff.mp hc
      rw [newUnblocked_of_length_eq hlen, List.append_nil]
      simpa [endedIn, hc] using List.getElem_cons_eraseIdx_perm hi
  · exact absurd hs hexit
  · cases hs

theorem checks_of_world_step {w w' : World} (h : w.step W a = some w') (hrun : w'.proc ≠ .down) :
    ((endedIn w.proc a).map EndedCheck.check ++ w'.proc.checks).Perm
      (w.proc.checks ++ newUnblocked w.db w'.db) ∧ Grows w.db w'.db := by
  cases a with
  | watch wa =>
    obtain ⟨⟨db, p⟩, hs, rfl⟩ := Option.map_eq_some_iff.mp h
    exact checks_of_step hs hrun
  | arrive op =>
    obtain ⟨hist, -, rfl⟩ := Option.map_eq_some_iff.mp h
    exact ⟨by simp [endedIn], grows_of_length_eq rfl⟩
  | api e =>
    obtain rfl := Option.some.inj h
    have hlen : (w.db.api e).payments.length = w.db.payments.length := by
      cases e <;> simp [Database.api]
    exact ⟨by simp [endedIn, newUnblocked_of_length_eq hlen], grows_of_length_eq hlen⟩

/-! ## No check gets lost while `watch` runs -/

/-- Every check is either ended or still in flight, and it is owed once. -/
structure WatchRun.Accounted (s : WatchRun) : Prop where
  perm : s.unblocked.Perm (s.ended.map EndedCheck.check ++ s.world.proc.checks)
  nodup : s.unblocked.Nodup
  known : ∀ c ∈ s.unblocked, c.paymentId < s.world.db.payments.length
  held : ∀ e ∈ s.ended, e.allowed = false → e.check.paymentId ∈ s.heldCalls

theorem mem_holdCalls {ended : List EndedCheck} {e : EndedCheck} (he : e ∈ ended)
    (hdenied : e.allowed = false) : e.check.paymentId ∈ holdCalls ended :=
  List.mem_map.mpr ⟨e, List.mem_filter.mpr ⟨he, by simp [hdenied]⟩, rfl⟩

namespace WatchRun

theorem current_of_ne (h : s.world.proc ≠ .down) : s.current = s := if_neg h

@[simp] theorem world_current (s : WatchRun) : s.current.world = s.world := by
  rw [current]
  split <;> rfl

theorem accounted_current (h : s.world.proc ≠ .down → s.Accounted) : s.current.Accounted := by
  by_cases hp : s.world.proc = .down
  · rw [current, if_pos hp]
    exact ⟨by simp [hp, Proc.checks], List.nodup_nil, by simp, by simp⟩
  · rw [current_of_ne hp]
    exact h hp

theorem accounted_of_step (hs : s.world.proc ≠ .down → s.Accounted)
    (h : s.step W a = some t) : t.world.proc ≠ .down → t.Accounted := by
  intro hrun
  have hc := accounted_current hs
  obtain ⟨w, hw, rfl⟩ := Option.map_eq_some_iff.mp h
  obtain ⟨hperm, hlen, hnew⟩ := checks_of_world_step hw hrun
  have hknown : ∀ c ∈ s.current.unblocked, c.paymentId < s.world.db.payments.length := by
    simpa using hc.known
  refine ⟨?_, ?_, ?_, ?_⟩
  · have hold : s.current.unblocked.Perm
        (s.current.ended.map EndedCheck.check ++ s.world.proc.checks) := by
      simpa using hc.perm
    calc (s.current.unblocked ++ newUnblocked s.world.db w.db).Perm
          (s.current.ended.map EndedCheck.check ++ s.world.proc.checks ++
            newUnblocked s.world.db w.db) := hold.append_right _
      _ = s.current.ended.map EndedCheck.check ++
            (s.world.proc.checks ++ newUnblocked s.world.db w.db) := List.append_assoc _ _ _
      List.Perm _ _ := hperm.symm.append_left _
      _ = (s.current.ended ++ endedIn s.world.proc a).map EndedCheck.check ++ w.proc.checks := by
        rw [List.map_append, List.append_assoc]
  · rcases hnew with hnil | ⟨payer, hone, -⟩
    · rw [hnil, List.append_nil]
      exact hc.nodup
    · rw [hone, List.nodup_append]
      refine ⟨hc.nodup, List.nodup_singleton _, ?_⟩
      rintro c hmem d hd rfl
      rw [List.mem_singleton.mp hd] at hmem
      exact lt_irrefl _ (hknown _ hmem)
  · intro c hmem
    rcases List.mem_append.mp hmem with hmem | hmem
    · exact (hknown c hmem).trans_le hlen
    · rcases hnew with hnil | ⟨payer, hone, hnext⟩
      · simp [hnil] at hmem
      · rw [hone, List.mem_singleton] at hmem
        rw [hmem]
        exact hnext ▸ Nat.lt_succ_self _
  · intro e he hdenied
    rcases List.mem_append.mp he with he | he
    · exact List.mem_append_left _ (hc.held e he hdenied)
    · exact List.mem_append_right _ (mem_holdCalls he hdenied)

/-- No check has been dropped exactly when none is in flight. -/
theorem Accounted.allChecked_iff (hs : s.Accounted) :
    s.AllChecked ↔ s.world.proc.checks = [] := by
  constructor
  · intro hall
    by_contra hne
    obtain ⟨c, hc⟩ := List.exists_mem_of_ne_nil _ hne
    obtain ⟨e, he, rfl, -⟩ := hall c (hs.perm.mem_iff.mpr (List.mem_append_right _ hc))
    -- the check would be owed twice
    have hdisjoint := List.disjoint_of_nodup_append (hs.perm.nodup_iff.mp hs.nodup)
    exact hdisjoint (List.mem_map_of_mem he) hc
  · intro hnil c hc
    have hmem := hs.perm.mem_iff.mp hc
    rw [hnil, List.append_nil] at hmem
    obtain ⟨e, he, rfl⟩ := List.mem_map.mp hmem
    exact ⟨e, he, rfl, hs.held e he⟩

end WatchRun

/-! ## Returning -/

/-- An INSERT adds a payment to check, unless the row was there or the payer is blocked. -/
theorem newUnblocked_eq_nil_iff {now : ℕ} {merchant : Merchant} {req : PaymentRequest}
    {r : Option RecordedPayment} (h : recordPaymentIfNew W.decimal db now merchant req = .ok (db', r)) :
    newUnblocked db db' = [] ↔
      ¬(¬db.HasToken req.pagingToken ∧ db.isLocallyBlocked req.payerAddress = false) := by
  obtain ⟨hknown, rfl, -⟩ | ⟨gross, bps, fee, net, amounts, -, -, -, -, hnew, -, rfl, -⟩ :=
    recordPaymentIfNew_eq_ok h
  · simp [hknown]
  · rw [newUnblocked, List.drop_left]
    simp [paymentRow, hnew]

/-- A step that returns ends no check, and a payment it adds to them is one whose answer is
lost. -/
theorem world_of_returns {w w' : World} (hret : callFails W w a ∨ finishes w a)
    (h : w.step W a = some w') :
    w.proc ≠ .down ∧ endedIn w.proc a = [] ∧ (newUnblocked w.db w'.db = [] ↔ ¬w.LosesRow a) ∧
      Grows w.db w'.db := by
  have hsame : w'.db = w.db → ¬w.LosesRow a →
      (newUnblocked w.db w'.db = [] ↔ ¬w.LosesRow a) ∧ Grows w.db w'.db := by
    intro hdb hno
    have hlen : w'.db.payments.length = w.db.payments.length := by rw [hdb]
    exact ⟨iff_of_true (newUnblocked_of_length_eq hlen) hno, grows_of_length_eq hlen⟩
  cases a with
  | watch wa =>
    obtain ⟨⟨db, p⟩, hs, rfl⟩ := Option.map_eq_some_iff.mp h
    cases wa with
    | handle now book =>
      cases hp : w.proc with
      | handling s op rest cached =>
        simp only [callFails, finishes, hp, Bool.false_eq_true, or_false] at hret
        simp only [hp, Watcher.step] at hs
        split at hs
        · obtain ⟨rfl, -⟩ := Prod.mk.inj (Option.some.inj hs)
          exact ⟨by simp, rfl, hsame rfl id⟩
        · next r hok => simp [hok] at hret
      | _ => simp [callFails, finishes, hp] at hret
    | handleLost now book =>
      obtain ⟨s, op, rest, cached, id, applied, amount, r, hp, -, -, -, hrec⟩ :=
        Watcher.record_of_handleLost hs
      obtain ⟨-, hnew, hlen⟩ := checks_of_record s hrec
      refine ⟨by simp [hp], rfl, ?_, hlen, hnew.imp_right fun hn => ⟨_, hn⟩⟩
      rw [newUnblocked_eq_nil_iff hrec]
      simp [World.LosesRow, hp, Proc.handled, paymentRequest]
    | stop =>
      cases hp : w.proc with
      | down | draining => simp [callFails, finishes, hp] at hret
      | _ =>
        simp only [hp, Watcher.step] at hs
        obtain ⟨rfl, -⟩ := Prod.mk.inj (Option.some.inj hs)
        exact ⟨by simp, rfl, hsame rfl id⟩
    | finish =>
      have hp : w.proc = .draining [] := by simpa [callFails, finishes] using hret
      simp only [hp, Watcher.step] at hs
      obtain ⟨rfl, -⟩ := Prod.mk.inj (Option.some.inj hs)
      exact ⟨by simp [hp], rfl, hsame rfl id⟩
    | _ => simp [callFails, finishes] at hret
  | arrive | api => simp [callFails, finishes] at hret

/-- A call that returns has dropped the checks that are still in flight, and that of a payment
whose answer is lost. -/
theorem WatchRun.allChecked_of_returns_iff (hs : s.world.proc ≠ .down → s.Accounted)
    (hret : callFails W s.world a ∨ finishes s.world a) (h : s.step W a = some t) :
    t.AllChecked ↔ s.world.proc.checks = [] ∧ ¬s.world.LosesRow a := by
  obtain ⟨w, hw, rfl⟩ := Option.map_eq_some_iff.mp h
  obtain ⟨hp, hended, hloses, -, hgrows⟩ := world_of_returns hret hw
  rw [← (hs hp).allChecked_iff, ← hloses]
  simp only [hended, current_of_ne hp, holdCalls, List.filter_nil, List.map_nil, List.append_nil,
    AllChecked, List.forall_mem_append]
  apply and_congr_right
  intro _
  constructor
  · intro hnew
    obtain hnil | ⟨payer, hone, -⟩ := hgrows
    · exact hnil
    · -- no check of the new row has ended: its id has not been given out before
      obtain ⟨e, he, hcheck, -⟩ := hnew ⟨_, payer⟩ (by rw [hone]; exact List.mem_singleton_self _)
      have hmem : e.check ∈ s.unblocked :=
        (hs hp).perm.mem_iff.mpr (List.mem_append_left _ (List.mem_map_of_mem he))
      have hlt := (hs hp).known _ hmem
      rw [hcheck] at hlt
      exact absurd hlt (lt_irrefl _)
  · intro hnil c hc
    rw [hnil] at hc
    cases hc

end Steps

/-- **No check is dropped** in exactly the runs in which, when a call to Horizon or Postgres
fails, no check is in flight, and the call is not an INSERT that was carried out for a payer who
is not blocked. The normal end drops none. -/
theorem no_check_dropped_iff (W : Watcher) (db : Database) (h : History) (ls : List Action) :
    (∀ e ∈ trace (WatchRun.step W) (.start db h) ls,
      callFails W e.1.world e.2.1 ∨ finishes e.1.world e.2.1 → e.2.2.AllChecked) ↔
    ∀ e ∈ trace (WatchRun.step W) (.start db h) ls,
      callFails W e.1.world e.2.1 → e.1.world.proc.checks = [] ∧ ¬e.1.world.LosesRow e.2.1 := by
  let I : WatchRun → Prop := fun s => s.world.proc ≠ .down → s.Accounted
  have hstart : I (.start db h) := fun hne => absurd rfl hne
  refine trace_forall_congr (I := I) (H := fun _ => True) hstart
    (fun s a t hs _ hst => WatchRun.accounted_of_step hs hst) ?_ fun _ _ => trivial
  intro s a t hs _ hst
  constructor
  · intro hall hfail
    exact (WatchRun.allChecked_of_returns_iff hs (.inl hfail) hst).mp (hall (.inl hfail))
  · intro hfree hret
    refine (WatchRun.allChecked_of_returns_iff hs hret hst).mpr ?_
    obtain hfail | hfin := hret
    · exact hfree hfail
    · cases a with
      | watch wa =>
        cases wa with
        | finish =>
          have hp : s.world.proc = .draining [] := by simpa [finishes] using hfin
          rw [hp, Proc.checks]
          exact ⟨rfl, id⟩
        | _ => simp [finishes] at hfin
      | arrive | api => simp [finishes] at hfin

/-- The `set_cursor` after a payment fails, or the INSERT is carried out and its answer lost. The
check was still running, or was never spawned, and the next call finds the row there and spawns
none. -/
theorem check_dropped_by_failed_call :
    ¬(∀ e ∈ trace (WatchRun.step exampleWatcher) (.start exampleDb .empty)
        [.arrive (examplePayment 1 "7" "1.0000000"), .watch (.start 1), .watch (.poll 1),
          .watch (.handle 1 ⟨[], []⟩), .watch .stop],
      callFails exampleWatcher e.1.world e.2.1 ∨ finishes e.1.world e.2.1 → e.2.2.AllChecked) ∧
    ¬(∀ e ∈ trace (WatchRun.step exampleWatcher) (.start exampleDb .empty)
        [.arrive (examplePayment 1 "7" "1.0000000"), .watch (.start 1), .watch (.poll 1),
          .watch (.handleLost 1 ⟨[], []⟩)],
      callFails exampleWatcher e.1.world e.2.1 ∨ finishes e.1.world e.2.1 → e.2.2.AllChecked) ∧
    ∃ s, exec (WatchRun.step exampleWatcher) (.start exampleDb .empty)
        [.arrive (examplePayment 1 "7" "1.0000000"), .watch (.start 1), .watch (.poll 1),
          .watch (.handle 1 ⟨[], []⟩), .watch .stop, .watch (.start 1), .watch (.poll 1),
          .watch (.handle 2 ⟨[], []⟩), .watch .persist, .watch .finish, .watch .finish] = some s ∧
      s.world.proc = .down ∧ s.world.db.payments.map Payment.status = [.paid] ∧ s.ended = [] :=
  ⟨by decide +kernel, by decide +kernel, exists_exec_of_any (by decide +kernel)⟩

end KonfirmBackend.Reconciler
