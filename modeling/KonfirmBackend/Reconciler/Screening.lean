import KonfirmBackend.Lib.LastWrite
import KonfirmBackend.Reconciler.Watch

/-!
# Who decides on the status of a payment

The status of a payment is written by three parties: the loop that records it, by what is
blocked locally at that moment; the background check that was spawned for it; an admin. All of
it happens in the order in which the database is written to, and a check may come late, or
never when `watch` returns before it has ended, or before it has heard of the row it inserted.

## Main definitions

- `Turn` — what a step is to one payment
- `word` — what a step says about the status of a payment
- `Screened` — the status is what the blocklist and the contract say
- `drops` — `watch` returns, or is stopped, with the check of a payment in flight or not spawned

## Main results

- `turn_of_step` — every step is a turn
- `status_is_last_word` — the status of a payment is the last word about it
- `screened_iff` — payments that are screened, although `watch` may fail and be started again
-/

namespace KonfirmBackend.Reconciler

open Transition

/-- The payer and the status in the row of a payment. -/
def Database.payerStatus (db : Database) (i : ℕ) : Option (String × PaymentStatus) :=
  (db.payments.find? fun p => decide (p.id = i)).map fun p => (p.payerAddress, p.status)

/-- The checks of a payment that are in flight. -/
def Proc.checksOf (p : Proc) (i : ℕ) : List PendingCheck :=
  p.checks.filter fun c => decide (c.paymentId = i)

/-- The status a payment is recorded with. -/
def Database.statusAtInsert (db : Database) (payer : String) : PaymentStatus :=
  if db.isLocallyBlocked payer then .held else .paid

/-- What a step says about the status of a payment. -/
def word (i : ℕ) : World × Action × World → Option PaymentStatus
  | (w, .watch (.handle _ _), w') | (w, .watch (.handleLost _ _), w') =>
    if w.db.payments.length = i then (w'.db.payerStatus i).map fun r => w.db.statusAtInsert r.1
    else none
  | (w, .watch (.check k false true), _) =>
    (w.proc.checks[k]?).bind fun c => if c.paymentId = i then some .held else none
  | (w, .api (.setPaymentStatus j status), _) =>
    if j = i then (w.db.payerStatus i).map fun _ => status else none
  | _ => none

/-- What a step is to the payment with the id `i`. -/
inductive Turn (i : ℕ) (w : World) (a : Action) (w' : World) : Prop
  | idle (hrow : w'.db.payerStatus i = w.db.payerStatus i)
      (hchecks : (w'.proc.checksOf i).Perm (w.proc.checksOf i)) (hword : word i (w, a, w') = none)
  | recorded (now : ℕ) (book : OrderBook) (payer : String) (ha : a = .watch (.handle now book))
      (hi : w.db.payments.length = i) (hlen : w'.db.payments.length = i + 1)
      (hrow : w'.db.payerStatus i = some (payer, w.db.statusAtInsert payer))
      (hchecks : w'.proc.checksOf i =
        if w.db.isLocallyBlocked payer then [] else [⟨i, payer⟩])
  | unanswered (now : ℕ) (book : OrderBook) (payer : String)
      (ha : a = .watch (.handleLost now book)) (hi : w.db.payments.length = i)
      (hrow : w'.db.payerStatus i = some (payer, w.db.statusAtInsert payer))
      (hdown : w'.proc = .down)
      (hloses : w.LosesRow a ↔ w.db.isLocallyBlocked payer = false)
  | decided (status : PaymentStatus) (ha : a = .api (.setPaymentStatus i status))
      (hrow : w'.db.payerStatus i = (w.db.payerStatus i).map fun r => (r.1, status))
      (hchecks : w'.proc.checksOf i = w.proc.checksOf i)
  | checked (k : ℕ) (allowed marked : Bool) (payer : String)
      (ha : a = .watch (.check k allowed marked)) (hc : w.proc.checks[k]? = some ⟨i, payer⟩)
      (hrow : w'.db.payerStatus i = if !allowed && marked
        then (w.db.payerStatus i).map fun r => (r.1, .held) else w.db.payerStatus i)
      (hchecks : (⟨i, payer⟩ :: w'.proc.checksOf i).Perm (w.proc.checksOf i))
      (hrun : w'.proc ≠ .down)
  | exited (hdown : w'.proc = .down) (hrow : w'.db.payerStatus i = w.db.payerStatus i)
      (hword : word i (w, a, w') = none)

/-! ## The rows -/

/-- The rows are numbered in the order of their insertion. -/
def Database.Numbered (db : Database) : Prop :=
  db.payments.map Payment.id = List.range db.payments.length

instance (db : Database) : Decidable db.Numbered :=
  inferInstanceAs (Decidable (_ = _))

namespace Database

variable {db db' : Database} {i : ℕ} {row : Payment}

theorem Numbered.lt (h : db.Numbered) {p : Payment} (hp : p ∈ db.payments) :
    p.id < db.payments.length := by
  have hmem : p.id ∈ db.payments.map Payment.id := List.mem_map_of_mem hp
  rw [h] at hmem
  exact List.mem_range.mp hmem

theorem Numbered.payerStatus_of_le (h : db.Numbered) (hi : db.payments.length ≤ i) :
    db.payerStatus i = none := by
  rw [payerStatus, Option.map_eq_none_iff, List.find?_eq_none]
  intro p hp hid
  have hlt := h.lt hp
  have heq := of_decide_eq_true hid
  omega

theorem Numbered.payerStatus_of_mem (h : db.Numbered) {p : Payment} (hp : p ∈ db.payments) :
    db.payerStatus p.id = some (p.payerAddress, p.status) := by
  have hnodup : (db.payments.map Payment.id).Nodup := by
    rw [h]
    exact List.nodup_range
  cases hfind : db.payments.find? fun q => decide (q.id = p.id) with
  | none => exact absurd (decide_eq_true rfl) (List.find?_eq_none.mp hfind p hp)
  | some q =>
    have hid : q.id = p.id := by simpa using List.find?_some hfind
    obtain rfl := List.inj_on_of_nodup_map hnodup (List.mem_of_find?_eq_some hfind) hp hid
    rw [payerStatus, hfind]
    rfl

theorem Numbered.append (h : db.Numbered) (hrow : row.id = db.payments.length)
    (hdb' : db'.payments = db.payments ++ [row]) : db'.Numbered := by
  rw [Numbered, hdb', List.map_append, h, List.length_append, List.length_singleton,
    List.range_succ, List.map_singleton, hrow]

theorem Numbered.map {f : Payment → Payment} (h : db.Numbered) (hf : ∀ p, (f p).id = p.id)
    (hdb' : db'.payments = db.payments.map f) : db'.Numbered := by
  have hids : (db.payments.map f).map Payment.id = db.payments.map Payment.id := by
    rw [List.map_map]
    exact List.map_congr_left fun p _ => hf p
  rw [Numbered, hdb', hids, h, List.length_map]

theorem payerStatus_congr (h : db'.payments = db.payments) :
    db'.payerStatus i = db.payerStatus i := by
  rw [payerStatus, payerStatus, h]

theorem payerStatus_append (h : db'.payments = db.payments ++ [row]) :
    db'.payerStatus i = (db.payerStatus i).or
      (if row.id = i then some (row.payerAddress, row.status) else none) := by
  rw [payerStatus, payerStatus, h, List.find?_append, Option.map_or]
  congr 1
  by_cases hi : row.id = i <;> simp [hi]

/-- An UPDATE of the status by primary key. -/
theorem payerStatus_update {j : ℕ} {status : PaymentStatus}
    (h : db'.payments =
      db.payments.map fun p => if p.id = j then { p with status := status } else p) :
    db'.payerStatus i = if j = i then (db.payerStatus i).map fun r => (r.1, status)
      else db.payerStatus i := by
  have hid : ((fun p : Payment => decide (p.id = i)) ∘
      fun p => if p.id = j then { p with status := status } else p) =
      fun p => decide (p.id = i) := by
    funext p
    by_cases hj : p.id = j <;> simp [hj]
  rw [payerStatus, h, List.find?_map, hid, Option.map_map, payerStatus]
  cases hfind : db.payments.find? fun p => decide (p.id = i) with
  | none => simp
  | some p =>
    obtain rfl : p.id = i := by simpa using List.find?_some hfind
    by_cases hj : p.id = j
    · simp [hj]
    · simp [hj, Ne.symm hj]

end Database

/-! ## The steps -/

/-- The rows are numbered, and each check in flight is that of the payer of its payment. -/
structure World.Kept (w : World) : Prop where
  numbered : w.db.Numbered
  known : ∀ c ∈ w.proc.checks, ∃ status, w.db.payerStatus c.paymentId = some (c.payer, status)

section Steps

variable {W : Watcher} {w w' : World} {a : Action} {i : ℕ}

theorem World.kept_of_down (hdown : w.proc = .down) (h : w.db.Numbered) : w.Kept :=
  ⟨h, by simp [hdown, Proc.checks]⟩

theorem World.Kept.checksOf_of_le (h : w.Kept) (hi : w.db.payments.length ≤ i) :
    w.proc.checksOf i = [] := by
  rw [Proc.checksOf, List.filter_eq_nil_iff]
  intro c hc hid
  obtain ⟨status, hrow⟩ := h.known c hc
  rw [of_decide_eq_true hid, h.numbered.payerStatus_of_le hi] at hrow
  cases hrow

theorem World.Kept.word_handle (h : w.Kept) {now : ℕ} {book : OrderBook}
    (hpayments : w'.db.payments = w.db.payments) :
    word i (w, .watch (.handle now book), w') = none ∧
      word i (w, .watch (.handleLost now book), w') = none := by
  simp only [word, and_self]
  split
  · next hi => rw [Database.payerStatus_congr hpayments, h.numbered.payerStatus_of_le hi.le]; rfl
  · rfl

/-- Recording is a turn of the payment it inserts, and of no other. -/
theorem turn_of_record (h : w.Kept) {s : Session} {op : PaymentOp} {rest : List PaymentOp}
    {rate : Option ℚ} {now now' : ℕ} {book : OrderBook} {merchant : Merchant}
    {req : PaymentRequest} {r : Option RecordedPayment}
    (hchecks : w.proc.checks = s.checks) (hreq : req.payerAddress = op.payer)
    (hrec : recordPaymentIfNew W.decimal w.db now merchant req = .ok (w'.db, r))
    (hproc : w'.proc = .recorded (s.spawnCheck op.payer r) op rest rate) (i : ℕ) :
    Turn i w (.watch (.handle now' book)) w' := by
  obtain ⟨-, hdb, rfl⟩ | ⟨gross, bps, fee, net, amounts, -, -, -, -, -, -, hdb, rfl⟩ :=
    recordPaymentIfNew_eq_ok hrec
  · refine .idle (by rw [hdb]) (.of_eq ?_) (h.word_handle (by rw [hdb])).1
    rw [Proc.checksOf, Proc.checksOf, hproc, hchecks]
    rfl
  · have hpayments : w'.db.payments = w.db.payments ++ [paymentRow w.db merchant req amounts] := by
      rw [hdb]
    have hrow : w'.db.payerStatus i = (w.db.payerStatus i).or
        (if w.db.payments.length = i then some (op.payer, w.db.statusAtInsert op.payer)
          else none) := by
      rw [Database.payerStatus_append hpayments, ← hreq]
      rfl
    have hspawn : w'.proc.checksOf i = w.proc.checksOf i ++
        if w.db.isLocallyBlocked op.payer ∨ w.db.payments.length ≠ i then []
        else [⟨i, op.payer⟩] := by
      rw [Proc.checksOf, Proc.checksOf, hproc, hchecks, hreq]
      cases w.db.isLocallyBlocked op.payer with
      | true => simp [Session.spawnCheck, Proc.checks]
      | false =>
        by_cases hi : w.db.payments.length = i <;>
          simp [Session.spawnCheck, Proc.checks, hi]
    by_cases hi : w.db.payments.length = i
    · refine .recorded now' book op.payer rfl hi (by rw [hpayments, ← hi]; simp) ?_ ?_
      · rw [hrow, h.numbered.payerStatus_of_le hi.le, Option.none_or, if_pos hi]
      · rw [hspawn, h.checksOf_of_le hi.le, List.nil_append]
        simp [hi]
    · refine .idle ?_ (.of_eq ?_) (if_neg hi)
      · rw [hrow, if_neg hi, Option.or_none]
      · rw [hspawn, if_pos (.inr hi), List.append_nil]

/-- An INSERT whose answer is lost is a turn of the payment it inserts, and stops the process. -/
theorem turn_of_lost (h : w.Kept) {op : PaymentOp} {now now' : ℕ} {book : OrderBook}
    {merchant : Merchant} {req : PaymentRequest} {r : Option RecordedPayment}
    (hop : w.proc.handled = some op) (hreq : req.payerAddress = op.payer)
    (htoken : req.pagingToken = op.pagingToken)
    (hrec : recordPaymentIfNew W.decimal w.db now merchant req = .ok (w'.db, r))
    (hdown : w'.proc = .down) (i : ℕ) : Turn i w (.watch (.handleLost now' book)) w' := by
  obtain ⟨-, hdb, -⟩ | ⟨gross, bps, fee, net, amounts, -, -, -, -, hnew, -, hdb, -⟩ :=
    recordPaymentIfNew_eq_ok hrec
  · exact .exited hdown (by rw [hdb]) (h.word_handle (by rw [hdb])).2
  · have hpayments : w'.db.payments = w.db.payments ++ [paymentRow w.db merchant req amounts] := by
      rw [hdb]
    have hrow := Database.payerStatus_append (i := i) hpayments
    have hid : (paymentRow w.db merchant req amounts).id = w.db.payments.length := rfl
    rw [hid] at hrow
    by_cases hi : w.db.payments.length = i
    · refine .unanswered now' book op.payer rfl hi ?_ hdown ?_
      · rw [hrow, h.numbered.payerStatus_of_le hi.le, Option.none_or, if_pos hi, ← hreq]
        rfl
      · rw [htoken] at hnew
        simp [World.LosesRow, hop, hnew]
    · refine .exited hdown ?_ (if_neg hi)
      rw [hrow, if_neg hi, Option.or_none]

/-- A row whose answer is lost is there, as that of a payer who is not blocked. -/
theorem row_of_losesRow (h : w.Kept) (hs : w.step W a = some w') (hloses : w.LosesRow a)
    (hi : w.db.payments.length = i) :
    ∃ payer, w.db.isLocallyBlocked payer = false ∧ w'.db.payerStatus i = some (payer, .paid) := by
  cases a with
  | watch wa =>
    cases wa with
    | handleLost now book =>
      obtain ⟨⟨db, p⟩, hstep, rfl⟩ := Option.map_eq_some_iff.mp hs
      obtain ⟨s, op, rest, cached, id, applied, amount, r, hp, -, -, -, hrec⟩ :=
        Watcher.record_of_handleLost hstep
      obtain ⟨op', hop, hnew, hb⟩ := hloses
      rw [hp] at hop
      obtain rfl := Option.some.inj hop
      obtain ⟨hknown, -, -⟩ | ⟨gross, bps, fee, net, amounts, -, -, -, -, -, -, rfl, -⟩ :=
        recordPaymentIfNew_eq_ok hrec
      · exact absurd hknown hnew
      · refine ⟨op.payer, hb, ?_⟩
        rw [Database.payerStatus_append rfl, h.numbered.payerStatus_of_le hi.le, Option.none_or]
        simp [paymentRow, paymentRequest, hi, hb]
    | _ => exact hloses.elim
  | _ => exact hloses.elim

theorem turn_of_watch (h : w.Kept) {wa : WatchAction}
    (hs : W.step w.history w.db w.proc wa = some (w'.db, w'.proc)) (i : ℕ) :
    Turn i w (.watch wa) w' := by
  -- the steps that leave the rows and the checks alone
  have hkeep : ∀ {d : Database} {q : Proc}, some (d, q) = some (w'.db, w'.proc) →
      d.payments = w.db.payments → q.checks = w.proc.checks →
      (w'.db.payments = w.db.payments → word i (w, .watch wa, w') = none) →
      Turn i w (.watch wa) w' := by
    rintro d q heq hd hq hword
    obtain ⟨hdb, hproc⟩ := Prod.mk.inj (Option.some.inj heq)
    have hpayments : w'.db.payments = w.db.payments := by rw [← hdb, hd]
    refine .idle (Database.payerStatus_congr hpayments) (.of_eq ?_) (hword hpayments)
    rw [Proc.checksOf, Proc.checksOf, ← hproc, hq]
  have hexit : some (w.db, Proc.down) = some (w'.db, w'.proc) →
      (w'.db.payments = w.db.payments → word i (w, .watch wa, w') = none) →
      Turn i w (.watch wa) w' := by
    intro heq hword
    obtain ⟨hdb, hproc⟩ := Prod.mk.inj (Option.some.inj heq)
    exact .exited hproc.symm (by rw [hdb]) (hword (by rw [hdb]))
  obtain ⟨db, history, proc⟩ := w
  simp only [Watcher.step] at hs
  split at hs
  · split at hs
    · exact hexit hs fun _ => rfl
    · split at hs
      · exact hkeep hs rfl rfl fun _ => rfl
      · exact hkeep hs rfl rfl fun _ => rfl
  · exact hkeep hs rfl rfl fun _ => rfl
  · exact hkeep hs rfl rfl fun _ => rfl
  · split at hs
    · cases hs
    · exact hkeep hs rfl (Session.checks_next _ _ _) fun _ => rfl
  · split at hs
    · exact hkeep hs rfl rfl fun _ => rfl
    · cases hs
  · split at hs
    · exact hexit hs fun heq => (h.word_handle heq).1
    · next hok =>
      rw [Option.some.inj hs] at hok
      obtain ⟨-, hdb, hproc⟩ | ⟨id, applied, amount, r, -, -, -, -, hrec, hproc⟩ :=
        Watcher.handleOp_eq_ok hok
      · exact hkeep (congrArg some (Prod.ext hdb.symm hproc.symm)) rfl
          (Session.checks_next _ _ _) fun heq => (h.word_handle heq).1
      · exact turn_of_record h rfl rfl hrec hproc i
  · next s op rest cached now book =>
    split at hs
    · next hok =>
      obtain ⟨hdb, hproc⟩ := Prod.mk.inj (Option.some.inj hs)
      subst hdb
      obtain ⟨id, applied, amount, r, -, -, -, -, hrec⟩ := Watcher.handleOp_eq_recorded hok
      exact turn_of_lost h rfl rfl rfl hrec hproc.symm i
    · cases hs
  · exact hkeep hs rfl (Session.checks_next _ _ _) fun _ => rfl
  · exact hexit hs fun _ => rfl
  · split at hs
    · cases hs
    · next _ k allowed marked _ c hc =>
      obtain ⟨hdb, hproc⟩ := Prod.mk.inj (Option.some.inj hs)
      have hrow : w'.db.payerStatus i = if !allowed && marked
          then (if c.paymentId = i then (db.payerStatus i).map fun r => (r.1, .held)
            else db.payerStatus i)
          else db.payerStatus i := by
        rw [← hdb]
        split
        · exact Database.payerStatus_update rfl
        · rfl
      obtain ⟨hk, rfl⟩ := List.getElem?_eq_some_iff.mp hc
      have hperm := (List.getElem_cons_eraseIdx_perm hk).filter
        fun c => decide (c.paymentId = i)
      rw [List.filter_cons] at hperm
      by_cases hi : proc.checks[k].paymentId = i
      · refine .checked k allowed marked proc.checks[k].payer rfl ?_ ?_ ?_ ?_
        · rw [hc, ← hi]
        · rw [hrow, if_pos hi]
        · rw [if_pos (decide_eq_true hi)] at hperm
          subst hi
          rw [Proc.checksOf, Proc.checksOf, ← hproc, Proc.checks_endCheck]
          exact hperm
        · rw [← hproc]
          cases proc <;> first | exact Proc.noConfusion | exact absurd hk (Nat.not_lt_zero _)
      · refine .idle ?_ ?_ ?_
        · rw [hrow, if_neg hi, ite_self]
        · rw [if_neg (by simpa using hi)] at hperm
          rw [Proc.checksOf, Proc.checksOf, ← hproc, Proc.checks_endCheck]
          exact hperm
        · cases allowed <;> cases marked <;> simp [word, List.getElem?_eq_getElem hk, hi]
  · exact hexit hs fun _ => rfl
  · cases hs

/-- Every step is a turn of each payment. -/
theorem turn_of_step (h : w.Kept) (hs : w.step W a = some w') (i : ℕ) : Turn i w a w' := by
  cases a with
  | watch wa =>
    obtain ⟨⟨db, p⟩, hstep, rfl⟩ := Option.map_eq_some_iff.mp hs
    exact turn_of_watch h hstep i
  | arrive op =>
    obtain ⟨history, -, rfl⟩ := Option.map_eq_some_iff.mp hs
    exact .idle rfl (.refl _) rfl
  | api e =>
    obtain rfl := Option.some.inj hs
    cases e with
    | setPaymentStatus j status =>
      have hrow : (w.db.api (.setPaymentStatus j status)).payerStatus i = if j = i
          then (w.db.payerStatus i).map fun r => (r.1, status) else w.db.payerStatus i :=
        Database.payerStatus_update rfl
      by_cases hj : j = i
      · subst hj
        exact .decided status rfl (by rw [hrow, if_pos rfl]) rfl
      · exact .idle (by rw [hrow, if_neg hj]) (.refl _) (if_neg hj)
    | _ => exact .idle (Database.payerStatus_congr rfl) (.refl _) rfl

/-- A step inserts one row, with the next id, or keeps the rows up to their statuses. -/
theorem rows_of_step (hs : w.step W a = some w') :
    (∃ row, row.id = w.db.payments.length ∧ w'.db.payments = w.db.payments ++ [row]) ∨
      ∃ f : Payment → Payment, (∀ p, f p = { p with status := (f p).status }) ∧
        w'.db.payments = w.db.payments.map f := by
  have hkeep : ∀ {l : List Payment}, l = w.db.payments → ∃ f : Payment → Payment,
      (∀ p, f p = { p with status := (f p).status }) ∧ l = w.db.payments.map f :=
    fun h => ⟨id, fun p => rfl, by rw [h, List.map_id]⟩
  obtain ⟨db, history, proc⟩ := w
  cases a with
  | watch wa =>
    obtain ⟨⟨db, p⟩, hstep, rfl⟩ := Option.map_eq_some_iff.mp hs
    cases Watcher.move_of_step hstep with
    | record s op rest cached now book id applied amount db' r hop hid hrate husd hrec
    | lose s op rest cached now book id applied amount db' r hop hid hrate husd hrec =>
      obtain ⟨-, hdb, -⟩ | ⟨gross, bps, fee, net, amounts, -, -, -, -, -, -, hdb, -⟩ :=
        recordPaymentIfNew_eq_ok hrec
      · exact .inr (hkeep (by rw [hdb]))
      · exact .inl ⟨_, rfl, by rw [hdb]⟩
    | hold p k id => exact .inr ⟨_, fun p => by split <;> rfl, rfl⟩
    | _ => exact .inr (hkeep rfl)
  | arrive op =>
    obtain ⟨history, -, rfl⟩ := Option.map_eq_some_iff.mp hs
    exact .inr (hkeep rfl)
  | api e =>
    obtain rfl := Option.some.inj hs
    cases e with
    | setPaymentStatus j status => exact .inr ⟨_, fun p => by split <;> rfl, rfl⟩
    | _ => exact .inr (hkeep rfl)

theorem numbered_of_step (h : w.db.Numbered) (hs : w.step W a = some w') : w'.db.Numbered := by
  obtain ⟨row, hrow, hdb⟩ | ⟨f, hf, hdb⟩ := rows_of_step hs
  · exact h.append hrow hdb
  · have hid : ∀ p, (f p).id = p.id := fun p => by rw [hf p]
    exact h.map hid hdb

theorem kept_of_step (h : w.Kept) (hs : w.step W a = some w') : w'.Kept := by
  refine ⟨numbered_of_step h.numbered hs, fun c hc => ?_⟩
  have hmem : c ∈ w'.proc.checksOf c.paymentId := List.mem_filter.mpr ⟨hc, by simp⟩
  have hknown : c ∈ w.proc.checksOf c.paymentId →
      ∃ status, w.db.payerStatus c.paymentId = some (c.payer, status) :=
    fun hold => h.known c (List.mem_of_mem_filter hold)
  cases turn_of_step h hs c.paymentId with
  | idle hrow hchecks hword => rw [hrow]; exact hknown (hchecks.subset hmem)
  | recorded now book payer ha hi hlen hrow hchecks =>
    rw [hchecks] at hmem
    split at hmem
    · cases hmem
    · obtain hc := List.mem_singleton.mp hmem
      rw [hrow, hc]
      exact ⟨_, rfl⟩
  | unanswered now book payer ha hi hrow hdown hloses => rw [hdown] at hc; cases hc
  | decided status ha hrow hchecks =>
    obtain ⟨old, hold⟩ := hknown (hchecks ▸ hmem)
    exact ⟨status, by rw [hrow, hold]; rfl⟩
  | checked k allowed marked payer ha hk hrow hchecks hrun =>
    obtain ⟨old, hold⟩ := hknown (hchecks.subset (List.mem_cons_of_mem _ hmem))
    rw [hrow, hold]
    split
    · exact ⟨.held, rfl⟩
    · exact ⟨old, rfl⟩
  | exited hdown hrow hword => rw [hdown] at hc; cases hc

end Steps

/-! ## The last word -/

section LastWord

variable {W : Watcher} {w w' : World} {a : Action} {ls : List Action} {i : ℕ}

def Database.statusOf (db : Database) (i : ℕ) : Option PaymentStatus :=
  (db.payerStatus i).map Prod.snd

/-- Each step sets the status to what it says, or keeps it. -/
theorem statusOf_of_step (h : w.Kept) (hs : w.step W a = some w') :
    w'.db.statusOf i = (word i (w, a, w')).or (w.db.statusOf i) := by
  rw [Database.statusOf, Database.statusOf]
  cases turn_of_step h hs i with
  | idle hrow hchecks hword => rw [hrow, hword, Option.none_or]
  | recorded now book payer ha hi hlen hrow hchecks
  | unanswered now book payer ha hi hrow hdown hloses =>
    subst ha
    simp only [word, if_pos hi, hrow, Option.map_some, Option.some_or]
  | decided status ha hrow hchecks =>
    subst ha
    rw [hrow]
    cases hold : w.db.payerStatus i <;> simp [word, hold]
  | checked k allowed marked payer ha hk hrow hchecks hrun =>
    subst ha
    obtain ⟨old, hold⟩ := h.known _ (List.mem_of_getElem? hk)
    rw [hrow, hold]
    cases allowed <;> cases marked <;> simp [word, hk]
  | exited hdown hrow hword => rw [hrow, hword, Option.none_or]

theorem kept_of_exec (h : w.Kept) (hexec : exec (World.step W) w ls = some w') : w'.Kept :=
  invariant_of_exec (H := fun _ => True) h (fun _ _ _ ha _ hs => kept_of_step ha hs)
    (fun _ _ => trivial) hexec

/-- **The status of a payment is the last word about it**: of the loop that recorded it, of a
check, which is always that of the payment's own payer, or of an admin. No payment changes its
status otherwise. -/
theorem status_is_last_word (hdown : w.proc = .down) (hids : w.db.Numbered)
    (hexec : exec (World.step W) w ls = some w') :
    (∀ i, w'.db.statusOf i =
      ((trace (World.step W) w ls).filterMap (word i)).getLast?.or (w.db.statusOf i)) ∧
    ∀ e ∈ trace (World.step W) w ls, ∀ c ∈ e.1.proc.checks, ∃ p ∈ e.1.db.payments,
      p.id = c.paymentId ∧ p.payerAddress = c.payer := by
  have hkept := World.kept_of_down hdown hids
  refine ⟨fun i => last_write hkept (fun a l b ha hs => kept_of_step ha hs)
    (fun a l b ha hs => statusOf_of_step ha hs) hexec, fun e he c hc => ?_⟩
  have hreach : Reaches (World.step W) (fun _ => True) w e.1 :=
    (reaches_of_mem_trace (fun _ _ => trivial) he).1
  have hkept' : e.1.Kept := hreach.invariant hkept fun a l b _ ha hs => kept_of_step ha hs
  obtain ⟨status, hrow⟩ := hkept'.known c hc
  obtain ⟨p, hp, heq⟩ := Option.map_eq_some_iff.mp hrow
  exact ⟨p, List.mem_of_find?_eq_some hp, by simpa using List.find?_some hp,
    congrArg Prod.fst heq⟩

/-- `watch` is stopped with the check of the first payment in flight. The check of the second one
ends. -/
def screeningRun : List Action :=
  [.arrive (examplePayment 5 "7" "1.0000000"), .arrive (examplePayment 6 "8" "2.0000000"),
    .watch (.start 2), .watch (.poll 1), .watch (.handle 0 ⟨[], []⟩), .watch .persist,
    .watch .stop, .watch (.start 2), .watch (.poll 1), .watch (.handle 0 ⟨[], []⟩),
    .watch (.check 0 false true), .watch .persist]

theorem status_is_last_word_example :
    ∃ w, exec (World.step exampleWatcher) exampleWorld screeningRun = some w ∧
      w.db.statusOf 0 = some .paid ∧ w.db.statusOf 1 = some .held := by
  have hrun : ∃ w, exec (World.step exampleWatcher) exampleWorld screeningRun = some w ∧
      w.proc ≠ .down := exists_exec_of_any (by decide +kernel)
  obtain ⟨w, hexec, -⟩ := hrun
  obtain ⟨hlast, -⟩ := status_is_last_word rfl (by decide +kernel) hexec
  refine ⟨w, hexec, ?_, ?_⟩
  · rw [hlast 0]
    decide +kernel
  · rw [hlast 1]
    decide +kernel

end LastWord

/-! ## Payments that are screened -/

section Screening

-- The answers of the compliance contract.
variable (contract : String → Bool)

/-- The status that the blocklist and the contract call for, or that of a payment whose check is
in flight. -/
def Screened (w : World) (p : Payment) : Prop :=
  p.status = (if w.db.isLocallyBlocked p.payerAddress || !contract p.payerAddress
    then .held else .paid) ∨
  p.status = .paid ∧ ⟨p.id, p.payerAddress⟩ ∈ w.proc.checks

/-- The step ends the process, with a check of the payment in flight, or before it hears that it
has inserted the payment and owes it a check. -/
def drops (i : ℕ) : World × Action × World → Prop
  | (w, a, w') => w'.proc = .down ∧
      (w.proc.checksOf i ≠ [] ∨ w.LosesRow a ∧ w.db.payments.length = i)

/-- No admin sets the status of the payment, its payer is neither blocked nor unblocked, and its
check hears the contract's answer and stores it. -/
def Steady (i : ℕ) (payer : String) : World × Action × World → Prop
  | (_, .api (.setPaymentStatus j _), _) => j ≠ i
  | (_, .api (.blockAddress address), _) => address ≠ payer
  | (_, .api (.unblockAddress address), _) => address ≠ payer
  | (w, .watch (.check k allowed marked), _) => ∀ c ∈ w.proc.checks[k]?, c.paymentId = i →
      allowed = contract payer ∧ (allowed = false → marked = true)
  | _ => True

instance (i : ℕ) (e : World × Action × World) : Decidable (drops i e) :=
  inferInstanceAs (Decidable (_ ∧ _))

instance (i : ℕ) (payer : String) : DecidablePred (Steady contract i payer)
  | (_, .api (.setPaymentStatus _ _), _) | (_, .api (.blockAddress _), _)
  | (_, .api (.unblockAddress _), _) => inferInstanceAs (Decidable (_ ≠ _))
  | (w, .watch (.check k _ _), _) => inferInstanceAs (Decidable (∀ c ∈ w.proc.checks[k]?, _ → _))
  | (_, .arrive _, _) | (_, .api (.reserveSession _), _) | (_, .api (.grantPromo _ _ _), _)
  | (_, .api (.signup _), _) | (_, .watch (.start _), _) | (_, .watch .resolveNow, _)
  | (_, .watch .persistHead, _) | (_, .watch (.poll _), _) | (_, .watch (.handle _ _), _)
  | (_, .watch (.handleLost _ _), _) | (_, .watch .persist, _) | (_, .watch .finish, _)
  | (_, .watch .stop, _) => .isTrue trivial

/-- How the payment with the id `i` stands. -/
inductive Stands (i : ℕ) (payer : String) (w : World) : Prop
  | unrecorded (hrow : w.db.payerStatus i = none) (hchecks : w.proc.checksOf i = [])
  | other (payer' : String) (status : PaymentStatus) (hne : payer' ≠ payer)
      (hrow : w.db.payerStatus i = some (payer', status))
  | blocked (hblocked : w.db.isLocallyBlocked payer = true)
      (hrow : w.db.payerStatus i = some (payer, .held)) (hchecks : w.proc.checksOf i = [])
  | pending (hblocked : w.db.isLocallyBlocked payer = false)
      (hrow : w.db.payerStatus i = some (payer, .paid))
      (hchecks : w.proc.checksOf i = [⟨i, payer⟩])
  | cleared (hblocked : w.db.isLocallyBlocked payer = false) (hcontract : contract payer = true)
      (hrow : w.db.payerStatus i = some (payer, .paid)) (hchecks : w.proc.checksOf i = [])
  | denied (hcontract : contract payer = false)
      (hrow : w.db.payerStatus i = some (payer, .held)) (hchecks : w.proc.checksOf i = [])

/-- A payment that the contract would have denied, whose check was dropped. -/
structure Missed (i : ℕ) (payer : String) (w : World) : Prop where
  blocked : w.db.isLocallyBlocked payer = false
  contract : contract payer = false
  row : w.db.payerStatus i = some (payer, .paid)
  checks : w.proc.checksOf i = []

variable {contract} {W : Watcher} {w w' : World} {a : Action} {ls : List Action} {i : ℕ}
  {payer : String}

theorem isLocallyBlocked_of_step (hs : w.step W a = some w')
    (hsteady : Steady contract i payer (w, a, w')) :
    w'.db.isLocallyBlocked payer = w.db.isLocallyBlocked payer := by
  cases a with
  | watch wa =>
    obtain ⟨⟨db, p⟩, hstep, rfl⟩ := Option.map_eq_some_iff.mp hs
    rw [Database.isLocallyBlocked, (Watcher.move_of_step hstep).blockedAddresses_eq]
    rfl
  | arrive op =>
    obtain ⟨history, -, rfl⟩ := Option.map_eq_some_iff.mp hs
    rfl
  | api e =>
    obtain rfl := Option.some.inj hs
    cases e with
    | blockAddress address =>
      have hne : address ≠ payer := hsteady
      simp [Database.isLocallyBlocked, Database.api, hne.symm]
    | unblockAddress address =>
      have hne : address ≠ payer := hsteady
      simp [Database.isLocallyBlocked, Database.api, hne.symm]
    | _ => rfl

theorem checksOf_of_down (h : w.proc = .down) : w.proc.checksOf i = [] := by
  rw [h]
  rfl

theorem perm_cons_singleton {c d : PendingCheck} {cs : List PendingCheck}
    (h : (c :: cs).Perm [d]) : c = d ∧ cs = [] := by
  have heq := List.perm_singleton.mp h
  exact ⟨(List.cons.inj heq).1, (List.cons.inj heq).2⟩

/-- What was missed stays so. -/
theorem Missed.step (h : w.Kept) (hm : Missed contract i payer w) (hs : w.step W a = some w')
    (hsteady : Steady contract i payer (w, a, w')) : Missed contract i payer w' := by
  have hblocked := (isLocallyBlocked_of_step hs hsteady).trans hm.blocked
  cases turn_of_step h hs i with
  | idle hrow hchecks hword =>
    rw [hm.checks] at hchecks
    exact ⟨hblocked, hm.contract, hrow.trans hm.row, hchecks.eq_nil⟩
  | recorded now book payer' ha hi hlen hrow hchecks
  | unanswered now book payer' ha hi hrow hdown hloses =>
    have hnone := h.numbered.payerStatus_of_le hi.le
    rw [hm.row] at hnone
    cases hnone
  | decided status ha hrow hchecks =>
    subst ha
    exact absurd rfl hsteady
  | checked k allowed marked payer' ha hk hrow hchecks hrun =>
    rw [hm.checks] at hchecks
    exact absurd hchecks.eq_nil (List.cons_ne_nil _ _)
  | exited hdown hrow hword =>
    exact ⟨hblocked, hm.contract, hrow.trans hm.row, checksOf_of_down hdown⟩

theorem Stands.congr (hm : Stands contract i payer w)
    (hsame : w'.db.isLocallyBlocked payer = w.db.isLocallyBlocked payer)
    (hrow : w'.db.payerStatus i = w.db.payerStatus i)
    (hchecks : (w'.proc.checksOf i).Perm (w.proc.checksOf i)) : Stands contract i payer w' := by
  have hnil : w.proc.checksOf i = [] → w'.proc.checksOf i = [] := by
    intro hc
    rw [hc] at hchecks
    exact hchecks.eq_nil
  cases hm with
  | unrecorded hrow' hc => exact .unrecorded (hrow.trans hrow') (hnil hc)
  | other payer' status hne hrow' => exact .other payer' status hne (hrow.trans hrow')
  | blocked hb hrow' hc => exact .blocked (hsame.trans hb) (hrow.trans hrow') (hnil hc)
  | pending hb hrow' hc =>
    rw [hc] at hchecks
    exact .pending (hsame.trans hb) (hrow.trans hrow') (List.perm_singleton.mp hchecks)
  | cleared hb hcontract hrow' hc =>
    exact .cleared (hsame.trans hb) hcontract (hrow.trans hrow') (hnil hc)
  | denied hcontract hrow' hc => exact .denied hcontract (hrow.trans hrow') (hnil hc)

/-- The only way to be missed is a check that is dropped. -/
theorem Stands.step (h : w.Kept) (hm : Stands contract i payer w) (hs : w.step W a = some w')
    (hsteady : Steady contract i payer (w, a, w')) :
    Stands contract i payer w' ∨
      drops i (w, a, w') ∧ contract payer = false ∧ Missed contract i payer w' := by
  have hsame := isLocallyBlocked_of_step hs hsteady
  cases turn_of_step h hs i with
  | idle hrow hchecks hword => exact .inl (hm.congr hsame hrow hchecks)
  | recorded now book payer' ha hi hlen hrow hchecks =>
    refine .inl ?_
    by_cases hne : payer' = payer
    · subst hne
      rw [Database.statusAtInsert] at hrow
      cases hb : w.db.isLocallyBlocked payer' with
      | true =>
        rw [if_pos hb] at hrow hchecks
        exact .blocked (hsame.trans hb) hrow hchecks
      | false =>
        rw [hb] at hrow hchecks
        exact .pending (hsame.trans hb) hrow hchecks
    · exact .other payer' _ hne hrow
  | unanswered now book payer' ha hi hrow hdown hloses =>
    have hc' : w'.proc.checksOf i = [] := checksOf_of_down hdown
    by_cases hne : payer' = payer
    · subst hne
      rw [Database.statusAtInsert] at hrow
      cases hb : w.db.isLocallyBlocked payer' with
      | true =>
        rw [if_pos hb] at hrow
        exact .inl (.blocked (hsame.trans hb) hrow hc')
      | false =>
        rw [hb] at hrow
        cases hcontract : contract payer' with
        | true => exact .inl (.cleared (hsame.trans hb) hcontract hrow hc')
        | false =>
          exact .inr ⟨⟨hdown, .inr ⟨hloses.mpr hb, hi⟩⟩, rfl, hsame.trans hb, hcontract, hrow, hc'⟩
    · exact .inl (.other payer' _ hne hrow)
  | decided status ha hrow hchecks =>
    subst ha
    exact absurd rfl hsteady
  | checked k allowed marked payer' ha hk hrow hchecks hrun =>
    subst ha
    obtain ⟨hanswer, hmarked⟩ := hsteady _ hk rfl
    refine .inl ?_
    cases hm with
    | other payer₀ status hne hrow' =>
      rw [hrow'] at hrow
      split at hrow
      · exact .other payer₀ .held hne hrow
      · exact .other payer₀ status hne hrow
    | pending hb hrow' hc =>
      rw [hc] at hchecks
      obtain ⟨-, hnil⟩ := perm_cons_singleton hchecks
      rw [hrow'] at hrow
      cases allowed with
      | true => exact .cleared (hsame.trans hb) hanswer.symm hrow hnil
      | false =>
        rw [hmarked rfl] at hrow
        exact .denied hanswer.symm hrow hnil
    | unrecorded _ hc | blocked _ _ hc | cleared _ _ _ hc | denied _ _ hc =>
      rw [hc] at hchecks
      exact absurd hchecks.eq_nil (List.cons_ne_nil _ _)
  | exited hdown hrow hword =>
    have hc' : w'.proc.checksOf i = [] := checksOf_of_down hdown
    by_cases hc : w.proc.checksOf i = []
    · exact .inl (hm.congr hsame hrow (by rw [hc, hc']))
    · cases hm with
      | other payer' status hne hrow' => exact .inl (.other payer' status hne (hrow.trans hrow'))
      | pending hb hrow' _ =>
        cases hcontract : contract payer with
        | true => exact .inl (.cleared (hsame.trans hb) hcontract (hrow.trans hrow') hc')
        | false =>
          exact .inr ⟨⟨hdown, .inl hc⟩, rfl, hsame.trans hb, hcontract, hrow.trans hrow', hc'⟩
      | unrecorded _ hnil | blocked _ _ hnil | cleared _ _ _ hnil | denied _ _ hnil =>
        exact absurd hnil hc

/-- A payment keeps its payer. -/
theorem payer_of_step {status : PaymentStatus} (h : w.Kept) (hs : w.step W a = some w')
    (hrow : w.db.payerStatus i = some (payer, status)) :
    ∃ status', w'.db.payerStatus i = some (payer, status') := by
  cases turn_of_step h hs i with
  | idle hrow' hchecks hword => exact ⟨status, hrow'.trans hrow⟩
  | recorded now book payer' ha hi hlen hrow' hchecks
  | unanswered now book payer' ha hi hrow' hdown hloses =>
    have hnone := h.numbered.payerStatus_of_le hi.le
    rw [hrow] at hnone
    cases hnone
  | decided status' ha hrow' hchecks => exact ⟨status', by rw [hrow', hrow]; rfl⟩
  | checked k allowed marked payer' ha hk hrow' hchecks hrun =>
    rw [hrow', hrow]
    split
    · exact ⟨.held, rfl⟩
    · exact ⟨status, rfl⟩
  | exited hdown hrow' hword => exact ⟨status, hrow'.trans hrow⟩

/-- What a dropped check leaves behind. -/
theorem Stands.dropped (h : w.Kept) (hm : Stands contract i payer w) (hs : w.step W a = some w')
    (hsteady : Steady contract i payer (w, a, w')) (hdrops : drops i (w, a, w'))
    (hdenied : contract payer = false) :
    Missed contract i payer w' ∨
      ∃ payer' status, payer' ≠ payer ∧ w'.db.payerStatus i = some (payer', status) := by
  obtain ⟨hdown, hflight | ⟨hloses, hi⟩⟩ := hdrops
  · have hc' : w'.proc.checksOf i = [] := checksOf_of_down hdown
    cases hm with
    | other payer' status hne hrow =>
      obtain ⟨status', hrow'⟩ := payer_of_step h hs hrow
      exact .inr ⟨payer', status', hne, hrow'⟩
    | pending hb hrow hc =>
      cases turn_of_step h hs i with
      | idle hrow' hchecks hword =>
        rw [hc'] at hchecks
        exact absurd hchecks.symm.eq_nil hflight
      | recorded now book payer' ha hi hlen hrow' hchecks
      | unanswered now book payer' ha hi hrow' hdown hloses =>
        have hnone := h.numbered.payerStatus_of_le hi.le
        rw [hrow] at hnone
        cases hnone
      | decided status ha hrow' hchecks =>
        rw [hc'] at hchecks
        exact absurd hchecks.symm hflight
      | checked k allowed marked payer' ha hk hrow' hchecks hrun => exact absurd hdown hrun
      | exited _ hrow' hword =>
        exact .inl
          ⟨(isLocallyBlocked_of_step hs hsteady).trans hb, hdenied, hrow'.trans hrow, hc'⟩
    | unrecorded _ hc | blocked _ _ hc | cleared _ _ _ hc | denied _ _ hc => exact absurd hc hflight
  · obtain ⟨payer', hb, hrow⟩ := row_of_losesRow h hs hloses hi
    by_cases hne : payer' = payer
    · subst hne
      exact .inl ⟨(isLocallyBlocked_of_step hs hsteady).trans hb, hdenied, hrow,
        checksOf_of_down hdown⟩
    · exact .inr ⟨payer', .paid, hne, hrow⟩

theorem Stands.screened {p : Payment} (hm : Stands contract p.id p.payerAddress w)
    (hrow : w.db.payerStatus p.id = some (p.payerAddress, p.status)) : Screened contract w p := by
  have hstatus : ∀ {status : PaymentStatus},
      w.db.payerStatus p.id = some (p.payerAddress, status) → p.status = status := by
    intro status h
    rw [hrow] at h
    exact congrArg Prod.snd (Option.some.inj h)
  cases hm with
  | unrecorded hnone _ => rw [hrow] at hnone; cases hnone
  | other payer status hne hrow' =>
    rw [hrow] at hrow'
    exact absurd (congrArg Prod.fst (Option.some.inj hrow')).symm hne
  | blocked hb hrow' _ => exact .inl (by rw [hstatus hrow', hb]; rfl)
  | pending hb hrow' hc =>
    have hmem : (⟨p.id, p.payerAddress⟩ : PendingCheck) ∈ w.proc.checksOf p.id := by
      rw [hc]
      exact List.mem_singleton_self _
    exact .inr ⟨hstatus hrow', List.mem_of_mem_filter hmem⟩
  | cleared hb hcontract hrow' _ => exact .inl (by rw [hstatus hrow', hb, hcontract]; rfl)
  | denied hcontract hrow' _ => exact .inl (by rw [hstatus hrow', hcontract]; simp)

theorem Missed.not_screened {p : Payment} (hm : Missed contract p.id p.payerAddress w)
    (hrow : w.db.payerStatus p.id = some (p.payerAddress, p.status)) :
    ¬Screened contract w p := by
  have hrow' := hm.row
  rw [hrow] at hrow'
  have hstatus : p.status = .paid := congrArg Prod.snd (Option.some.inj hrow')
  rintro (hscreened | ⟨-, hcheck⟩)
  · rw [hstatus, hm.contract] at hscreened
    simp at hscreened
  · have hmem : (⟨p.id, p.payerAddress⟩ : PendingCheck) ∈ w.proc.checksOf p.id :=
      List.mem_filter.mpr ⟨hcheck, decide_eq_true rfl⟩
    rw [hm.checks] at hmem
    cases hmem

/-- **Payments are screened exactly when no check of a denied payer is dropped**: in every run
in which nobody else decides on the payment, whatever fails and however often `watch` is started
again, its status is at last what the blocklist and the contract call for, unless a call of
`watch` returned, or was stopped, while the check of a payer that the contract denies was in
flight, or when the row of such a payer was committed and the answer to the INSERT lost. -/
theorem screened_iff (hdown : w.proc = .down) (hids : w.db.Numbered)
    (hexec : exec (World.step W) w ls = some w') {p : Payment} (hp : p ∈ w'.db.payments)
    (hnew : w.db.payments.length ≤ p.id)
    (hsteady : ∀ e ∈ trace (World.step W) w ls, Steady contract p.id p.payerAddress e) :
    Screened contract w' p ↔
      ∀ e ∈ trace (World.step W) w ls, drops p.id e → contract p.payerAddress = true := by
  have hkept := World.kept_of_down hdown hids
  have hrow := (kept_of_exec hkept hexec).numbered.payerStatus_of_mem hp
  have hstart : Stands contract p.id p.payerAddress w :=
    .unrecorded (hids.payerStatus_of_le hnew) (checksOf_of_down hdown)
  constructor
  · intro hscreened e he hdrops
    by_contra hdenied
    have hcontract : contract p.payerAddress = false := Bool.eq_false_iff.mpr hdenied
    -- the payment is missed from this step on
    have hmissed : Missed contract p.id p.payerAddress w' ∨ ∃ payer status,
        payer ≠ p.payerAddress ∧ w'.db.payerStatus p.id = some (payer, status) := by
      refine effect_of_exec (H := Steady contract p.id p.payerAddress) (Q := drops p.id)
        (I := fun v => v.Kept ∧
          (Stands contract p.id p.payerAddress v ∨ Missed contract p.id p.payerAddress v))
        (J := fun v => Missed contract p.id p.payerAddress v ∨ ∃ payer status,
          payer ≠ p.payerAddress ∧ v.db.payerStatus p.id = some (payer, status))
        ⟨hkept, .inl hstart⟩ ?_ ?_ hsteady hexec (.inr ⟨e, he, hdrops⟩)
      · rintro v a v' ⟨hv, hstands | hmissed⟩ hst hs
        · exact ⟨kept_of_step hv hs, (hstands.step hv hs hst).imp_right fun h => h.2.2⟩
        · exact ⟨kept_of_step hv hs, .inr (hmissed.step hv hs hst)⟩
      · rintro v a v' ⟨hv, hstands⟩ hst hs ((hmissed | ⟨payer, status, hne, hrow'⟩) | hdrops')
        · exact .inl (hmissed.step hv hs hst)
        · obtain ⟨status', hrow''⟩ := payer_of_step hv hs hrow'
          exact .inr ⟨payer, status', hne, hrow''⟩
        · obtain hstands | hmissed := hstands
          · exact hstands.dropped hv hs hst hdrops' hcontract
          · exact .inl (hmissed.step hv hs hst)
    obtain hmissed | ⟨payer, status, hne, hrow'⟩ := hmissed
    · exact hmissed.not_screened hrow hscreened
    · rw [hrow] at hrow'
      exact hne (congrArg Prod.fst (Option.some.inj hrow')).symm
  · intro hkeeps
    refine Stands.screened ?_ hrow
    have hend : w'.Kept ∧ Stands contract p.id p.payerAddress w' := by
      refine invariant_of_exec (H := fun e => Steady contract p.id p.payerAddress e ∧
          (drops p.id e → contract p.payerAddress = true))
        (I := fun v => v.Kept ∧ Stands contract p.id p.payerAddress v)
        ⟨hkept, hstart⟩ ?_ (fun e he => ⟨hsteady e he, hkeeps e he⟩) hexec
      rintro v a v' ⟨hv, hstands⟩ ⟨hst, hdrops⟩ hs
      refine ⟨kept_of_step hv hs, (hstands.step hv hs hst).resolve_right ?_⟩
      rintro ⟨hdrop, hdenied, -⟩
      rw [hdrops hdrop] at hdenied
      cases hdenied
    exact hend.2

theorem screened_iff_example :
    ∃ w, exec (World.step exampleWatcher) exampleWorld screeningRun = some w ∧
      ∃ p ∈ w.db.payments, ∃ q ∈ w.db.payments, p.id = 0 ∧ q.id = 1 ∧
        ¬Screened (fun _ => false) w p ∧ Screened (fun _ => false) w q := by
  have hrun : ∃ w, exec (World.step exampleWatcher) exampleWorld screeningRun = some w ∧
      ∃ p ∈ w.db.payments, ∃ q ∈ w.db.payments, (p.id = 0 ∧ p.payerAddress = "GPAYER") ∧
        q.id = 1 ∧ q.payerAddress = "GPAYER" := exists_exec_of_any (by decide +kernel)
  obtain ⟨w, hexec, p, hp, q, hq, ⟨hp0, hpayer⟩, hq1, hqayer⟩ := hrun
  have hmissed : Screened (fun _ => false) w p ↔ _ :=
    screened_iff rfl (by decide +kernel) hexec hp (Nat.zero_le _)
      (by rw [hp0, hpayer]; decide +kernel)
  have hheld : Screened (fun _ => false) w q ↔ _ :=
    screened_iff rfl (by decide +kernel) hexec hq (Nat.zero_le _)
      (by rw [hq1, hqayer]; decide +kernel)
  refine ⟨w, hexec, p, hp, q, hq, hp0, hq1, ?_, ?_⟩
  · rw [hmissed, hp0]
    decide +kernel
  · rw [hheld, hq1]
    decide +kernel

end Screening

end KonfirmBackend.Reconciler
