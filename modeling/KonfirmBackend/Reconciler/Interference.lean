import KonfirmBackend.Lib.Transition
import KonfirmBackend.Reconciler.Watch

/-!
# Two watchers on one database

Each merchant is watched by a process of its own. The processes share the database, and with
it the one row that holds a cursor. A run of both is compared with the run of the first one
alone, in which the same outside answers the same calls.

## Main definitions

- `Duo`, `Duo.step` — two processes and their histories over one database
- `withoutB` — what is left of a run without the second process
- `Undisturbed` — the first process meets nothing that the second one has stored
- `Agree` — two databases that look the same to a merchant's process

## Main results

- `Agree.step` — a step of the process on one of them is repeated on the other
- `watchers_do_not_interfere` — runs that record the same payments of the first merchant
- `restart_skips_payment` — a restart that meets the position of the second process
-/

namespace KonfirmBackend.Reconciler

open Transition

/-- The process stores its position in the cursor row. -/
def WatchAction.storesCursor : WatchAction → Bool
  | .persistHead | .persist => true
  | _ => false

/-- The process handles an operation, whether or not it hears of the outcome. -/
def WatchAction.handles : WatchAction → Bool
  | .handle _ _ | .handleLost _ _ => true
  | _ => false

/-- The processes of A and of B. `own` is what A's process has stored in the cursor row last,
or what was there at first, and `byB` are the paging tokens of the rows B's process has
inserted. -/
structure Duo where
  db : Database
  histA : History
  histB : History
  procA : Proc
  procB : Proc
  own : Option Cursor
  byB : List ℕ
deriving DecidableEq

inductive DuoAction
  | a (wa : WatchAction)
  | b (wa : WatchAction)
  | arriveA (op : PaymentOp)
  | arriveB (op : PaymentOp)
  | api (e : ApiWrite)

/-- The paging tokens of the rows that were inserted from one database to the next. -/
def newTokens (db db' : Database) : List ℕ :=
  (db'.keys.drop db.keys.length).map PaymentKey.pagingToken

namespace Duo

def start (db : Database) (histA histB : History) : Duo :=
  ⟨db, histA, histB, .down, .down, db.cursor, []⟩

def step (A B : Watcher) (s : Duo) : DuoAction → Option Duo
  | .a wa => (A.step s.histA s.db s.procA wa).map fun r =>
      { s with db := r.1, procA := r.2, own := if wa.storesCursor then r.1.cursor else s.own }
  | .b wa => (B.step s.histB s.db s.procB wa).map fun r =>
      { s with db := r.1, procB := r.2, byB := s.byB ++ newTokens s.db r.1 }
  | .arriveA op => (s.histA.append op).map fun h => { s with histA := h }
  | .arriveB op => (s.histB.append op).map fun h => { s with histB := h }
  | .api e => some { s with db := s.db.api e }

end Duo

/-- The labels of a run that are left when B's process does not exist. -/
def withoutB : DuoAction → Option Action
  | .a wa => some (.watch wa)
  | .arriveA op => some (.arrive op)
  | .api e => some (.api e)
  | _ => none

/-- When A's process starts, the cursor row holds what A's process has stored last, and when
it handles an operation with a session id, B's process has not inserted the row of the same
operation. -/
def Undisturbed (A : Watcher) : Duo × DuoAction × Duo → Prop
  | (s, .a (.start _), _) => s.db.getCursor = s.own.getD .now
  | (s, .a (.handle _ _), _) | (s, .a (.handleLost _ _), _) =>
    ∀ op ∈ s.procA.handled, op.Matched A.muxedFromString → op.pagingToken ∉ s.byB
  | _ => True

instance (A : Watcher) : DecidablePred (Undisturbed A)
  | (s, .a (.start _), _) => inferInstanceAs (Decidable (s.db.getCursor = _))
  | (s, .a (.handle _ _), _) | (s, .a (.handleLost _ _), _) =>
    inferInstanceAs (Decidable (∀ op ∈ s.procA.handled, _ → _))
  | (_, .a .resolveNow, _) | (_, .a .persistHead, _) | (_, .a (.poll _), _)
  | (_, .a .persist, _) | (_, .a (.check _ _ _), _) | (_, .a .finish, _) | (_, .a .stop, _)
  | (_, .b _, _) | (_, .arriveA _, _) | (_, .arriveB _, _) | (_, .api _, _) => .isTrue trivial

/-- A payment of the merchant with this paging token is recorded. -/
def Database.Recorded (db : Database) (merchantId pagingToken : ℕ) : Prop :=
  ∃ p ∈ db.payments, p.merchantId = merchantId ∧ p.pagingToken = pagingToken

instance (db : Database) (merchantId pagingToken : ℕ) :
    Decidable (db.Recorded merchantId pagingToken) :=
  inferInstanceAs (Decidable (∃ p ∈ db.payments, _))

/-! ## Databases that look the same to a merchant's process -/

/-- The indexed columns of the merchant's rows. -/
def Database.keysOf (db : Database) (merchantId : ℕ) : List PaymentKey :=
  db.keys.filter fun k => decide (k.merchantId = merchantId)

/-- `w` is `d` without the rows of others that carry the tokens `others`, as far as the process
of the merchant can see. -/
structure Agree (merchantId : ℕ) (others : List ℕ) (d w : Database) : Prop where
  merchants : w.merchants = d.merchants
  blocked : w.blockedAddresses = d.blockedAddresses
  keysOf : w.keysOf merchantId = d.keysOf merchantId
  tokens : ∀ t, d.HasToken t ↔ w.HasToken t ∨ t ∈ others

section Agree

variable {m : ℕ} {others : List ℕ} {d d' w w' : Database} {t : ℕ}

theorem Database.recorded_iff {db : Database} :
    db.Recorded m t ↔ ∃ k ∈ db.keysOf m, k.pagingToken = t := by
  simp [Recorded, keysOf, keys, Payment.key, and_assoc]

theorem Database.hasSession_iff_keysOf {db : Database} {i : Int64} :
    db.HasSession m i ↔ ∃ k ∈ db.keysOf m, k.muxedId = i := by
  simp [hasSession_iff, keysOf, and_assoc]

namespace Agree

theorem refl (m : ℕ) (db : Database) : Agree m [] db db := ⟨rfl, rfl, rfl, by simp⟩

theorem recorded_iff (h : Agree m others d w) : w.Recorded m t ↔ d.Recorded m t := by
  rw [Database.recorded_iff, Database.recorded_iff, h.keysOf]

theorem hasSession_iff (h : Agree m others d w) {i : Int64} :
    w.HasSession m i ↔ d.HasSession m i := by
  rw [Database.hasSession_iff_keysOf, Database.hasSession_iff_keysOf, h.keysOf]

theorem hasToken_iff (h : Agree m others d w) (ht : t ∉ others) : w.HasToken t ↔ d.HasToken t := by
  rw [h.tokens, or_iff_left ht]

/-- Updates of either side that keep what the process sees. -/
theorem of_keys (h : Agree m others d w) (hd : d'.keys = d.keys) (hw : w'.keys = w.keys)
    (hmerchants : w'.merchants = d'.merchants)
    (hblocked : w'.blockedAddresses = d'.blockedAddresses) : Agree m others d' w' := by
  refine ⟨hmerchants, hblocked, ?_, ?_⟩
  · rw [Database.keysOf, Database.keysOf, hd, hw]
    exact h.keysOf
  · intro t
    rw [Database.hasToken_congr hd, Database.hasToken_congr hw]
    exact h.tokens t

theorem api (h : Agree m others d w) (e : ApiWrite) : Agree m others (d.api e) (w.api e) := by
  refine h.of_keys (d.api_frame e).1 (w.api_frame e).1 ?_ ?_
  · cases e <;> simp [Database.api, h.merchants]
  · cases e <;> simp [Database.api, h.blocked]

/-- Both sides gain the row of one payment of the merchant. -/
theorem append (h : Agree m others d w) {k : PaymentKey} (hd : d'.keys = d.keys ++ [k])
    (hw : w'.keys = w.keys ++ [k]) (hmerchants : w'.merchants = d'.merchants)
    (hblocked : w'.blockedAddresses = d'.blockedAddresses) : Agree m others d' w' := by
  refine ⟨hmerchants, hblocked, ?_, ?_⟩
  · have hold := h.keysOf
    rw [Database.keysOf, Database.keysOf] at hold
    rw [Database.keysOf, Database.keysOf, hd, hw, List.filter_append, List.filter_append, hold]
  · intro t
    have hold := h.tokens t
    rw [Database.hasToken_iff, Database.hasToken_iff] at hold
    simp only [Database.hasToken_iff, hd, hw, List.mem_append, List.mem_singleton, or_and_right,
      exists_or, exists_eq_left, hold]
    exact or_right_comm

/-- Both sides fail on the same payments of the merchant. -/
theorem record_isOk_iff (h : Agree m others d w) {D : RustDecimal} (now : ℕ) {merchant : Merchant}
    {req : PaymentRequest} (hm : merchant.id = m) (hreq : ∀ q ∈ req.amount, Representable q)
    (ht : req.pagingToken ∉ others) :
    (∃ r, recordPaymentIfNew D d now merchant req = .ok r) ↔
      ∃ r, recordPaymentIfNew D w now merchant req = .ok r := by
  rw [recordPaymentIfNew_isOk_iff D now hreq, recordPaymentIfNew_isOk_iff D now hreq, hm,
    h.merchants, h.hasToken_iff ht, h.hasSession_iff]

/-- Both sides come to the same decision about a payment of the merchant. -/
theorem record (h : Agree m others d w) {D : RustDecimal} {now : ℕ} {merchant : Merchant}
    {req : PaymentRequest} (hm : merchant.id = m) (hreq : ∀ q ∈ req.amount, Representable q)
    (ht : req.pagingToken ∉ others) {r : Option RecordedPayment}
    (hd : recordPaymentIfNew D d now merchant req = .ok (d', r)) :
    ∃ w' r', recordPaymentIfNew D w now merchant req = .ok (w', r') ∧ Agree m others d' w' ∧
      r'.map RecordedPayment.locallyBlocked = r.map RecordedPayment.locallyBlocked ∧
      w'.cursor = w.cursor := by
  obtain ⟨⟨w', r'⟩, hw⟩ := (h.record_isOk_iff now hm hreq ht).mp ⟨_, hd⟩
  have hboth : Agree m others d' w' ∧
      r'.map RecordedPayment.locallyBlocked = r.map RecordedPayment.locallyBlocked := by
    rcases recordPaymentIfNew_eq_ok hd with
      ⟨hknown, rfl, rfl⟩ | ⟨_, _, _, _, amounts, -, -, -, -, hnew, -, rfl, rfl⟩
    · rcases recordPaymentIfNew_eq_ok hw with
        ⟨-, rfl, rfl⟩ | ⟨_, _, _, _, _, -, -, -, -, hnew', -, -, -⟩
      · exact ⟨h, rfl⟩
      · exact absurd ((h.hasToken_iff ht).mpr hknown) hnew'
    · rcases recordPaymentIfNew_eq_ok hw with
        ⟨hknown', -, -⟩ | ⟨_, _, _, _, amounts', -, -, -, -, -, -, rfl, rfl⟩
      · exact absurd ((h.hasToken_iff ht).mp hknown') hnew
      · constructor
        · refine h.append (k := (paymentRow d merchant req amounts).key) ?_ ?_ h.merchants h.blocked
          · simp [Database.keys]
          · simp [Database.keys, paymentRow, Payment.key]
        · simp [Database.isLocallyBlocked, h.blocked]
  exact ⟨w', r', hw, hboth.1, hboth.2, (other_tables_of_recordPaymentIfNew hw).1⟩

end Agree

end Agree

/-! ## A step of the process on both sides -/

def Session.setChecks (s : Session) (cs : List PendingCheck) : Session := { s with checks := cs }

/-- The process with other checks in flight: the payments have other ids on the other side. -/
def Proc.setChecks (cs : List PendingCheck) : Proc → Proc
  | polling s => polling (s.setChecks cs)
  | handling s op rest rate => handling (s.setChecks cs) op rest rate
  | recorded s op rest rate => recorded (s.setChecks cs) op rest rate
  | draining _ => draining cs
  | p => p

section Alike

variable {m : ℕ} {others : List ℕ} {d d' w : Database} {W : Watcher} {hist : History}
  {p p' : Proc} {cs : List PendingCheck}

@[simp] theorem Session.next_setChecks (s : Session) (cs : List PendingCheck)
    (rest : List PaymentOp) (rate : Option ℚ) :
    (s.setChecks cs).next rest rate = (s.next rest rate).setChecks cs := by
  cases rest <;> rfl

theorem Session.exists_spawnCheck_setChecks (s : Session) (payer : String)
    {r r' : Option RecordedPayment} (hcs : cs.length = s.checks.length)
    (hr : r'.map RecordedPayment.locallyBlocked = r.map RecordedPayment.locallyBlocked) :
    ∃ cs', (s.setChecks cs).spawnCheck payer r' = (s.spawnCheck payer r).setChecks cs' ∧
      cs'.length = (s.spawnCheck payer r).checks.length := by
  cases r with
  | none =>
    obtain rfl : r' = none := by simpa using hr
    exact ⟨cs, rfl, hcs⟩
  | some x =>
    obtain ⟨y, rfl, hy⟩ := Option.map_eq_some_iff.mp hr
    obtain ⟨i, b⟩ := x
    obtain ⟨j, b'⟩ := y
    obtain rfl : b' = b := hy
    cases b' with
    | true => exact ⟨cs, rfl, hcs⟩
    | false => exact ⟨cs ++ [⟨j, payer⟩], rfl, by simp [Session.spawnCheck, hcs]⟩

theorem Watcher.step_check (w : Database) (p : Proc) (i : ℕ) (allowed marked : Bool) :
    W.step hist w p (.check i allowed marked) = p.checks[i]?.map fun c =>
      (if !allowed && marked then w.markHeld c.paymentId else w, p.endCheck i) := by
  cases p <;> simp only [step] <;> split <;> simp_all

theorem Watcher.step_stop (w : Database) (p : Proc) :
    W.step hist w p .stop = some (w, .down) := by
  cases p with
  | draining cs => cases cs <;> rfl
  | _ => rfl

theorem Proc.checks_setChecks (h : cs.length = p.checks.length) : (p.setChecks cs).checks = cs := by
  cases p with
  | down | resolving | resolved => exact (List.length_eq_zero_iff.mp h).symm
  | _ => rfl

theorem Proc.endCheck_setChecks (p : Proc) (i : ℕ) :
    (p.setChecks cs).endCheck i = (p.endCheck i).setChecks (cs.eraseIdx i) := by
  cases p <;> rfl

theorem Agree.setCursor (h : Agree m others d w) (c : Cursor) :
    Agree m others (d.setCursor c) (w.setCursor c) := h.of_keys rfl rfl h.merchants h.blocked

theorem Agree.markHeld (h : Agree m others d w) (i j : ℕ) :
    Agree m others (d.markHeld i) (w.markHeld j) :=
  h.of_keys (d.keys_markHeld i) (w.keys_markHeld j) h.merchants h.blocked

section LoopBody

variable {now : ℕ} {book : OrderBook} {s : Session} {op : PaymentOp} {rest : List PaymentOp}
  {cached : Option ℚ}

/-- The loop body on both sides, for an operation that no one else has recorded. -/
theorem Agree.handleOp (h : Agree m others d w) (hm : s.merchant.id = m)
    (hcs : cs.length = s.checks.length)
    (hop : op.Matched W.muxedFromString → op.pagingToken ∉ others)
    (hd : W.handleOp d now book s op rest cached = .ok (d', p')) :
    ∃ w' cs', W.handleOp w now book (s.setChecks cs) op rest cached = .ok (w', p'.setChecks cs') ∧
      cs'.length = p'.checks.length ∧ Agree m others d' w' ∧ w'.cursor = w.cursor := by
  rcases Watcher.handleOp_eq_ok hd with
    ⟨hskip, rfl, rfl⟩ | ⟨id, applied, amount, r, htype, hid, hrate, husd, hrec, rfl⟩
  · refine ⟨w, cs, ?_, by simpa [Session.advance] using hcs, h, rfl⟩
    rw [Watcher.handleOp_of_not_matched hskip, ← Session.next_setChecks]
    rfl
  · have hfree : op.pagingToken ∉ others := hop ⟨htype, Option.isSome_iff_exists.mpr ⟨id, hid⟩⟩
    obtain ⟨w', r', hw, hagree, hblocked, hcursor⟩ :=
      h.record hm (representable_of_usdAmount husd) hfree hrec
    obtain ⟨cs', hspawn, hlen⟩ := s.exists_spawnCheck_setChecks op.payer hcs hblocked
    refine ⟨w', cs', ?_, hlen, hagree, hcursor⟩
    rw [Watcher.handleOp_of_record (s := s.setChecks cs) htype hid hrate husd hw, hspawn]
    rfl

/-- When it returns on the one side, it returns on the other. -/
theorem Agree.handleOp_isOk (h : Agree m others d w)
    (hm : s.merchant.id = m) (hop : op.Matched W.muxedFromString → op.pagingToken ∉ others)
    {r : Database × Proc} (hw : W.handleOp w now book (s.setChecks cs) op rest cached = .ok r) :
    ∃ r, W.handleOp d now book s op rest cached = .ok r := by
  obtain ⟨w', p'⟩ := r
  rcases Watcher.handleOp_eq_ok hw with
    ⟨hskip, -, -⟩ | ⟨id, applied, amount, r', htype, hid, hrate, husd, hrec, -⟩
  · exact ⟨_, Watcher.handleOp_of_not_matched hskip⟩
  · have hfree : op.pagingToken ∉ others := hop ⟨htype, Option.isSome_iff_exists.mpr ⟨id, hid⟩⟩
    obtain ⟨⟨d', r⟩, hd⟩ :=
      (h.record_isOk_iff now hm (representable_of_usdAmount husd) hfree).mpr ⟨_, hrec⟩
    exact ⟨_, Watcher.handleOp_of_record htype hid hrate husd hd⟩

end LoopBody

/-- **A step of A's process is repeated on the other side.** Where it reads the cursor row, the
rows have to be equal, and what it handles must not have been recorded by anyone else. -/
theorem Agree.step (h : Agree m others d w)
    (hm : ∀ merchant, p.merchant = some merchant → merchant.id = m)
    (hcs : cs.length = p.checks.length) {a : WatchAction}
    (hstart : ∀ k, a = .start k → w.getCursor = d.getCursor)
    (hhandle : a.handles = true →
      ∀ op ∈ p.handled, op.Matched W.muxedFromString → op.pagingToken ∉ others)
    (hs : W.step hist d p a = some (d', p')) :
    ∃ w' cs', W.step hist w (p.setChecks cs) a = some (w', p'.setChecks cs') ∧
      cs'.length = p'.checks.length ∧ Agree m others d' w' ∧
      w'.cursor = if a.storesCursor then d'.cursor else w.cursor := by
  have hkeep : ∀ {q : Proc} (cs' : List PendingCheck), some (d, q) = some (d', p') →
      W.step hist w (p.setChecks cs) a = some (w, q.setChecks cs') → cs'.length = q.checks.length →
      a.storesCursor = false →
      ∃ w' cs', W.step hist w (p.setChecks cs) a = some (w', p'.setChecks cs') ∧
        cs'.length = p'.checks.length ∧ Agree m others d' w' ∧
        w'.cursor = if a.storesCursor then d'.cursor else w.cursor := by
    intro q cs' heq hstep hlen hno
    obtain ⟨rfl, rfl⟩ := Prod.mk.inj (Option.some.inj heq)
    exact ⟨w, cs', hstep, hlen, h, by simp [hno]⟩
  simp only [Watcher.step] at hs
  split at hs
  · next k =>
    have hfind := Database.findMerchant_congr h.merchants W.merchantAddress
    have hcursor := hstart k rfl
    split at hs
    · next hnone =>
      refine hkeep [] hs ?_ rfl rfl
      simp [Watcher.step, Proc.setChecks, hfind, hnone]
    · next merchant hsome =>
      split at hs
      · next hc =>
        refine hkeep [] hs ?_ rfl rfl
        simp [Watcher.step, Proc.setChecks, hfind, hsome, hcursor, hc]
      · next c hc =>
        refine hkeep [] hs ?_ rfl rfl
        simp [Watcher.step, Proc.setChecks, Session.setChecks, hfind, hsome, hcursor, hc]
  · exact hkeep [] hs rfl rfl rfl
  · obtain ⟨rfl, rfl⟩ := Prod.mk.inj (Option.some.inj hs)
    exact ⟨_, [], rfl, rfl, h.setCursor _, rfl⟩
  · next s n =>
    split at hs
    · cases hs
    · next k hk =>
      refine hkeep cs hs ?_ (by rwa [Session.checks_next]) rfl
      rw [← Session.next_setChecks]
      exact Watcher.step_poll (s := s.setChecks cs) hk n
  · next s =>
    split at hs
    · next hk =>
      refine hkeep cs hs ?_ hcs rfl
      exact if_pos hk
    · cases hs
  · next s op rest cached now book =>
    have hs' := hm s.merchant rfl
    have hop := hhandle rfl op rfl
    split at hs
    · next e herr =>
      refine hkeep [] hs ?_ rfl rfl
      cases hw : W.handleOp w now book (s.setChecks cs) op rest cached with
      | error e' => simp [Watcher.step, Proc.setChecks, hw]
      | ok r =>
        obtain ⟨r', hd⟩ := h.handleOp_isOk hs' hop hw
        rw [herr] at hd
        cases hd
    · next r hok =>
      obtain rfl := Option.some.inj hs
      obtain ⟨w', cs', hw, hlen, hagree, hcursor⟩ := h.handleOp hs' hcs hop hok
      exact ⟨w', cs', Watcher.step_handle hw, hlen, hagree, hcursor⟩
  · next s op rest cached now book =>
    have hs' := hm s.merchant rfl
    have hop := hhandle rfl op rfl
    split at hs
    · next hok =>
      obtain ⟨rfl, rfl⟩ := Prod.mk.inj (Option.some.inj hs)
      obtain ⟨w', cs', hw, -, hagree, hcursor⟩ := h.handleOp hs' hcs hop hok
      refine ⟨w', [], ?_, rfl, hagree, hcursor⟩
      simp only [Watcher.step, Proc.setChecks, hw]
    · cases hs
  · next s op rest cached =>
    obtain ⟨rfl, rfl⟩ := Prod.mk.inj (Option.some.inj hs)
    refine ⟨w.setCursor (.token op.pagingToken), cs, ?_, ?_, h.setCursor _, rfl⟩
    · rw [← Session.next_setChecks]
      rfl
    · rw [Session.checks_next]
      exact hcs
  · obtain rfl := List.length_eq_zero_iff.mp hcs
    exact hkeep [] hs rfl rfl rfl
  · next i allowed marked =>
    split at hs
    · cases hs
    · next c hc =>
      obtain ⟨rfl, rfl⟩ := Prod.mk.inj (Option.some.inj hs)
      have hi : i < cs.length := hcs ▸ (List.getElem?_eq_some_iff.mp hc).1
      refine ⟨if !allowed && marked then w.markHeld cs[i].paymentId else w, cs.eraseIdx i, ?_, ?_,
        ?_, ?_⟩
      · rw [Watcher.step_check, Proc.checks_setChecks hcs, Proc.endCheck_setChecks,
          List.getElem?_eq_getElem hi]
        rfl
      · rw [Proc.checks_endCheck, List.length_eraseIdx, List.length_eraseIdx, hcs]
      · split
        · exact h.markHeld _ _
        · exact h
      · show (if !allowed && marked then w.markHeld cs[i].paymentId else w).cursor = w.cursor
        split <;> rfl
  · exact hkeep [] hs (Watcher.step_stop w _) rfl rfl
  · cases hs

/-- A step of another merchant's process is not seen, but for the token that it takes. -/
theorem Agree.step_other (h : Agree m others d w) (hstep : W.Move hist d p d' p')
    (hm : ∀ merchant, p.merchant = some merchant → merchant.id ≠ m) :
    Agree m (others ++ newTokens d d') d' w := by
  have hmerchants : w.merchants = d'.merchants := h.merchants.trans hstep.merchants_eq.symm
  have hblocked : w.blockedAddresses = d'.blockedAddresses :=
    h.blocked.trans hstep.blockedAddresses_eq.symm
  rcases hstep.keys_cases with hk | ⟨s, op, rest, cached, id, rfl, -, -, -, hk⟩
  · have hnone : newTokens d d' = [] := by simp [newTokens, hk]
    rw [hnone, List.append_nil]
    exact h.of_keys hk rfl hmerchants hblocked
  · have hnew : newTokens d d' = [op.pagingToken] := by simp [newTokens, hk]
    have hne : s.merchant.id ≠ m := hm s.merchant rfl
    refine ⟨hmerchants, hblocked, ?_, ?_⟩
    · have hold := h.keysOf
      rw [Database.keysOf, Database.keysOf] at hold
      rw [Database.keysOf, Database.keysOf, hk, List.filter_append, hold]
      simp [hne]
    · intro t
      have hold := h.tokens t
      rw [Database.hasToken_iff] at hold
      rw [hnew, Database.hasToken_iff, hk]
      simp only [List.mem_append, List.mem_singleton, or_and_right, exists_or, exists_eq_left,
        hold]
      rw [or_assoc, eq_comm (a := op.pagingToken)]

end Alike

/-! ## The run without B's process -/

/-- The world without B's process is where A's process has got to. -/
structure Follows (A B : Watcher) (mA mB : Merchant) (s : Duo) (w : World) : Prop where
  findA : s.db.findMerchantByStellarAddress A.merchantAddress = some mA
  findB : s.db.findMerchantByStellarAddress B.merchantAddress = some mB
  merchantA : ∀ merchant, s.procA.merchant = some merchant → merchant = mA
  merchantB : ∀ merchant, s.procB.merchant = some merchant → merchant = mB
  agree : Agree mA.id s.byB s.db w.db
  history : w.history = s.histA
  cursor : w.db.cursor = s.own
  proc : ∃ cs, cs.length = s.procA.checks.length ∧ w.proc = s.procA.setChecks cs

section Follows

variable {A B : Watcher} {mA mB : Merchant} {s t : Duo} {w : World}

theorem Follows.start {db : Database} {histA histB : History}
    (hA : db.findMerchantByStellarAddress A.merchantAddress = some mA)
    (hB : db.findMerchantByStellarAddress B.merchantAddress = some mB) :
    Follows A B mA mB (.start db histA histB) ⟨db, histA, .down⟩ :=
  ⟨hA, hB, by simp [Duo.start, Proc.merchant], by simp [Duo.start, Proc.merchant], .refl _ _, rfl,
    rfl, [], rfl, rfl⟩

/-- Steps that the world without B's process does not take. -/
theorem Follows.skip {l : DuoAction} (hw : Follows A B mA mB s w) (hne : mA.id ≠ mB.id)
    (hs : s.step A B l = some t) (hl : withoutB l = none) : Follows A B mA mB t w := by
  cases l with
  | b wa =>
    obtain ⟨⟨db, p⟩, hr, rfl⟩ := Option.map_eq_some_iff.mp hs
    have hmove := Watcher.move_of_step hr
    have hother : ∀ merchant, s.procB.merchant = some merchant → merchant.id ≠ mA.id := by
      intro merchant hp
      rw [hw.merchantB merchant hp]
      exact hne.symm
    exact { hw with
      findA := (Database.findMerchant_congr hmove.merchants_eq _).trans hw.findA
      findB := (Database.findMerchant_congr hmove.merchants_eq _).trans hw.findB
      merchantB := hmove.merchant_eq_of_found hw.findB hw.merchantB
      agree := hw.agree.step_other hmove hother }
  | arriveB op =>
    obtain ⟨h, -, rfl⟩ := Option.map_eq_some_iff.mp hs
    exact { hw with }
  | _ => cases hl

/-- Steps that it takes as well. -/
theorem Follows.step {l : DuoAction} {a : Action} (hw : Follows A B mA mB s w)
    (hu : Undisturbed A (s, l, t)) (hs : s.step A B l = some t)
    (hl : withoutB l = some a) : ∃ w', w.step A a = some w' ∧ Follows A B mA mB t w' := by
  cases l with
  | a wa =>
    obtain rfl := Option.some.inj hl
    obtain ⟨⟨db, p⟩, hr, rfl⟩ := Option.map_eq_some_iff.mp hs
    obtain ⟨cs, hcs, hproc⟩ := hw.proc
    have hmove := Watcher.move_of_step hr
    have hstart : ∀ k, wa = .start k → w.db.getCursor = s.db.getCursor := by
      rintro k rfl
      rw [Database.getCursor, hw.cursor]
      exact hu.symm
    have hhandle : wa.handles = true →
        ∀ op ∈ s.procA.handled, op.Matched A.muxedFromString → op.pagingToken ∉ s.byB := by
      intro hhandles
      cases wa with
      | handle | handleLost => exact hu
      | _ => cases hhandles
    obtain ⟨db', cs', hstep, hlen, hagree, hcursor⟩ := hw.agree.step
      (fun merchant hp => congrArg Merchant.id (hw.merchantA merchant hp)) hcs hstart hhandle hr
    refine ⟨⟨db', w.history, p.setChecks cs'⟩, ?_, ?_⟩
    · apply World.step_watch
      rw [hw.history, hproc]
      exact hstep
    · exact { hw with
        findA := (Database.findMerchant_congr hmove.merchants_eq _).trans hw.findA
        findB := (Database.findMerchant_congr hmove.merchants_eq _).trans hw.findB
        merchantA := hmove.merchant_eq_of_found hw.findA hw.merchantA
        agree := hagree
        cursor := by rw [hcursor, hw.cursor]
        proc := ⟨cs', hlen, rfl⟩ }
  | arriveA op =>
    obtain rfl := Option.some.inj hl
    obtain ⟨h, hh, rfl⟩ := Option.map_eq_some_iff.mp hs
    refine ⟨{ w with history := h }, ?_, { hw with history := rfl }⟩
    simp [World.step, hw.history, hh]
  | api e =>
    obtain rfl := Option.some.inj hl
    obtain rfl := Option.some.inj hs
    refine ⟨{ w with db := w.db.api e }, rfl, ?_⟩
    exact { hw with
      findA := Database.findMerchant_api hw.findA e
      findB := Database.findMerchant_api hw.findB e
      agree := hw.agree.api e
      cursor := (w.db.api_frame e).2.trans hw.cursor }
  | _ => cases hl

end Follows

/-- **Watchers do not interfere** in any run in which A's process, whenever it starts, finds in
the cursor row what it has left there, and handles no operation whose row B's process has
inserted: the run without B's process records the same payments of A's merchant. -/
theorem watchers_do_not_interfere (A B : Watcher) (db : Database) (histA histB : History)
    {mA mB : Merchant}
    (hA : db.findMerchantByStellarAddress A.merchantAddress = some mA)
    (hB : db.findMerchantByStellarAddress B.merchantAddress = some mB) (hne : mA.id ≠ mB.id)
    (ls : List DuoAction) (d : Duo)
    (hu : ∀ e ∈ trace (Duo.step A B) (.start db histA histB) ls, Undisturbed A e)
    (hd : exec (Duo.step A B) (.start db histA histB) ls = some d) :
    ∃ w, exec (World.step A) ⟨db, histA, .down⟩ (ls.filterMap withoutB) = some w ∧
      ∀ t, d.db.Recorded mA.id t ↔ w.db.Recorded mA.id t := by
  have hskip : ∀ a l b x, Follows A B mA mB a x → Undisturbed A (a, l, b) →
      Duo.step A B a l = some b → withoutB l = none → Follows A B mA mB b x :=
    fun _ _ _ _ hw _ hs hl => hw.skip hne hs hl
  have hmatch : ∀ a l b x m, Follows A B mA mB a x → Undisturbed A (a, l, b) →
      Duo.step A B a l = some b → withoutB l = some m →
      ∃ y, World.step A x m = some y ∧ Follows A B mA mB b y :=
    fun _ _ _ _ _ hw hu hs hl => hw.step hu hs hl
  obtain ⟨w, hw, hfollows⟩ := exec_filterMap hskip hmatch (.start hA hB) hu hd
  exact ⟨w, hw, fun t => hfollows.agree.recorded_iff.symm⟩

/-- A second merchant beside the one of the example. -/
def duoDb : Database :=
  exampleDb.api (.signup ⟨1, some "GOTHER", ⟨10, FeeBps.ten_le⟩, none, none, none⟩)

def watcherA : Watcher := ⟨.truncating, fun _ => none, "GMERCHANT"⟩

def watcherB : Watcher := ⟨.truncating, fun _ => none, "GOTHER"⟩

/-- A is paid, then B and then A again. B's process has handled its payment when A's process,
which has been down since it `started`, starts again. -/
def restartRun : List DuoAction :=
  [.a (.start 1), .a .stop, .arriveA (examplePayment 5 "5" "1.0000000"),
    .arriveB { examplePayment 9 "9" "1.0000000" with toAccount := some "GOTHER" },
    .arriveA (examplePayment 12 "12" "1.0000000"),
    .b (.start 1), .b (.poll 1), .b (.handle 1 ⟨[], []⟩), .b .persist,
    .a (.start 1), .a (.poll 1), .a (.handle 1 ⟨[], []⟩), .a .persist]

/-- The same without the restart between. -/
def steadyRun : List DuoAction :=
  [.arriveA (examplePayment 5 "5" "1.0000000"), .a (.start 2),
    .arriveB { examplePayment 9 "9" "1.0000000" with toAccount := some "GOTHER" },
    .b (.start 1), .b (.poll 1), .b (.handle 1 ⟨[], []⟩), .b .persist,
    .a (.poll 1), .a (.handle 1 ⟨[], []⟩), .a .persist]

theorem watchers_do_not_interfere_steady :
    ∃ d w, exec (Duo.step watcherA watcherB) (.start duoDb .empty .empty) steadyRun = some d ∧
      exec (World.step watcherA) ⟨duoDb, .empty, .down⟩ (steadyRun.filterMap withoutB) = some w ∧
      ∀ t, d.db.Recorded 0 t ↔ w.db.Recorded 0 t := by
  have hu : ∀ e ∈ trace (Duo.step watcherA watcherB) (.start duoDb .empty .empty) steadyRun,
      Undisturbed watcherA e := by
    decide +kernel
  have hrun : (exec (Duo.step watcherA watcherB) (.start duoDb .empty .empty) steadyRun).isSome := by
    decide +kernel
  have hA : duoDb.findMerchantByStellarAddress "GMERCHANT" = some exampleMerchant := rfl
  have hB : duoDb.findMerchantByStellarAddress "GOTHER" = some ⟨1, ⟨10, FeeBps.ten_le⟩⟩ := rfl
  obtain ⟨d, hd⟩ := Option.isSome_iff_exists.mp hrun
  obtain ⟨w, hw, hrecorded⟩ := watchers_do_not_interfere watcherA watcherB duoDb .empty .empty
    hA hB (by decide) steadyRun d hu hd
  exact ⟨d, w, hd, hw, hrecorded⟩

/-- A's process starts at the position of B's process and never handles the payment with the
token 5, which it records when it is alone. -/
theorem restart_skips_payment :
    (∃ d, exec (Duo.step watcherA watcherB) (.start duoDb .empty .empty) restartRun = some d ∧
      ¬ d.db.Recorded 0 5 ∧ d.db.cursor = some (.token 12)) ∧
    ∃ w, exec (World.step watcherA) ⟨duoDb, .empty, .down⟩ (restartRun.filterMap withoutB) =
      some w ∧ w.db.Recorded 0 5 :=
  ⟨exists_exec_of_any (by decide +kernel), exists_exec_of_any (by decide +kernel)⟩

end KonfirmBackend.Reconciler
