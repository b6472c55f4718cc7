import KonfirmBackend.Lib.Transition
import KonfirmBackend.Reconciler.Store

/-!
# The watch loop

One `watch` process as a step function over the database and the history Horizon
serves. Every call the process waits for is a step of its own, and the process
can stop before each of them: a crash, or a call that fails and leaves through
`?`. What a process holds in memory is lost then.

## Main definitions

- `Session` — what a running process holds in memory
- `Proc` — where in `watch` the process is
- `Watcher.step` — the steps of one process
- `Watcher.Move` — the steps by their effect
- `World`, `World.step` — the process, Horizon and the API together

## Main results

- `Watcher.move_of_step` — every step is one of the moves
-/

namespace KonfirmBackend.Reconciler

/-- A process `watch <merchant_base>` with the crates it is linked against. -/
structure Watcher where
  decimal : RustDecimal
  muxedFromString : String → Option MuxedAccount
  merchantAddress : String

/-- A spawned on-chain compliance check. -/
structure PendingCheck where
  paymentId : ℕ
  payer : String
deriving DecidableEq

structure Session where
  merchant : Merchant
  pollsLeft : ℕ
  cursor : ℕ
  checks : List PendingCheck
deriving DecidableEq

/-- Where in `watch` the process is. `handling` and `recorded` carry the rest of
the batch and the XLM rate fetched for this poll. -/
inductive Proc
  | down
  | resolving (merchant : Merchant) (maxPolls : ℕ)
  | resolved (merchant : Merchant) (maxPolls : ℕ) (head : ℕ)
  | polling (s : Session)
  | handling (s : Session) (op : PaymentOp) (rest : List PaymentOp) (xlmUsdcRate : Option ℚ)
  | recorded (s : Session) (op : PaymentOp) (rest : List PaymentOp) (xlmUsdcRate : Option ℚ)
  | draining (checks : List PendingCheck)
deriving DecidableEq

/-- `cursor = op.paging_token`. -/
def Session.advance (s : Session) (op : PaymentOp) : Session := { s with cursor := op.pagingToken }

/-- The head of the `for op in &ops` loop; an exhausted batch ends the poll. -/
def Session.next (s : Session) (rest : List PaymentOp) (xlmUsdcRate : Option ℚ) : Proc :=
  match rest with
  | [] => .polling s
  | op :: rest => .handling s op rest xlmUsdcRate

/-- A newly recorded payment that is not blocked locally gets a background check. -/
def Session.spawnCheck (s : Session) (payer : String) : Option RecordedPayment → Session
  | some ⟨id, false⟩ => { s with checks := s.checks ++ [⟨id, payer⟩] }
  | _ => s

namespace Proc

def checks : Proc → List PendingCheck
  | polling s | handling s _ _ _ | recorded s _ _ _ => s.checks
  | draining cs => cs
  | _ => []

/-- The check at position `i` has ended. -/
def endCheck (i : ℕ) : Proc → Proc
  | polling s => polling { s with checks := s.checks.eraseIdx i }
  | handling s op rest rate => handling { s with checks := s.checks.eraseIdx i } op rest rate
  | recorded s op rest rate => recorded { s with checks := s.checks.eraseIdx i } op rest rate
  | draining cs => draining (cs.eraseIdx i)
  | p => p

end Proc

/-- The merchant a running process works for. -/
def Proc.merchant : Proc → Option Merchant
  | resolving m _ => some m
  | resolved m _ _ => some m
  | polling s | handling s _ _ _ | recorded s _ _ _ => some s.merchant
  | _ => none

@[simp] theorem Session.merchant_spawnCheck (s : Session) (payer : String)
    (r : Option RecordedPayment) : (s.spawnCheck payer r).merchant = s.merchant := by
  unfold spawnCheck
  split <;> rfl

@[simp] theorem Session.pollsLeft_spawnCheck (s : Session) (payer : String)
    (r : Option RecordedPayment) : (s.spawnCheck payer r).pollsLeft = s.pollsLeft := by
  unfold spawnCheck
  split <;> rfl

@[simp] theorem Session.merchant_advance (s : Session) (op : PaymentOp) :
    (s.advance op).merchant = s.merchant := rfl

@[simp] theorem Session.merchant_next (s : Session) (rest : List PaymentOp) (rate : Option ℚ) :
    (s.next rest rate).merchant = some s.merchant := by
  cases rest <;> rfl

@[simp] theorem Proc.merchant_polling (s : Session) : (polling s).merchant = some s.merchant := rfl

@[simp] theorem Proc.merchant_handling (s : Session) (op : PaymentOp) (rest : List PaymentOp)
    (rate : Option ℚ) : (handling s op rest rate).merchant = some s.merchant := rfl

@[simp] theorem Proc.merchant_recorded (s : Session) (op : PaymentOp) (rest : List PaymentOp)
    (rate : Option ℚ) : (recorded s op rest rate).merchant = some s.merchant := rfl

@[simp] theorem Proc.merchant_endCheck (p : Proc) (i : ℕ) :
    (p.endCheck i).merchant = p.merchant := by
  cases p <;> rfl

@[simp] theorem Session.checks_next (s : Session) (rest : List PaymentOp) (rate : Option ℚ) :
    (s.next rest rate).checks = s.checks := by
  cases rest <;> rfl

@[simp] theorem Proc.checks_endCheck (p : Proc) (i : ℕ) :
    (p.endCheck i).checks = p.checks.eraseIdx i := by
  cases p <;> rfl

/-- The rate for this operation: only XLM has one, and the order book is asked at
most once per poll. -/
def appliedRate (D : RustDecimal) (op : PaymentOp) (cached : Option ℚ) (book : OrderBook) :
    Except Failure (Option ℚ) :=
  if op.isXlm then
    match cached with
    | some rate => return some rate
    | none => do return some (← book.xlmUsdcRate D)
  else return none

def paymentRequest (op : PaymentOp) (id : UInt64) (applied amount : Option ℚ) : PaymentRequest where
  muxedId := id.toInt64
  muxedAddress := op.muxedAddress
  payerAddress := op.payer
  assetCode := op.asset.1
  assetIssuer := op.asset.2
  amount := amount
  fxRateToUsd := applied
  pagingToken := op.pagingToken
  txHash := op.transactionHash

namespace Watcher

/-- The part of the loop body that ends in `record_payment_if_new`, for a payment
that carries the session id `id`. -/
def recordOp (W : Watcher) (db : Database) (now : ℕ) (book : OrderBook) (s : Session)
    (op : PaymentOp) (rest : List PaymentOp) (cached : Option ℚ) (id : UInt64) :
    Except Failure (Database × Proc) := do
  let applied ← appliedRate W.decimal op cached book
  let amount ← usdAmount W.decimal applied op.rawAmount
  let (db', recorded) ←
    recordPaymentIfNew W.decimal db now s.merchant (paymentRequest op id applied amount)
  return (db', .recorded (s.spawnCheck op.payer recorded) op rest (applied.or cached))

/-- The loop body up to `set_cursor`. An operation that is not recorded moves the
cursor in memory only. -/
def handleOp (W : Watcher) (db : Database) (now : ℕ) (book : OrderBook) (s : Session)
    (op : PaymentOp) (rest : List PaymentOp) (cached : Option ℚ) :
    Except Failure (Database × Proc) :=
  if op.opType ≠ "payment" then return (db, (s.advance op).next rest cached)
  else
    match op.sessionId W.muxedFromString with
    | none => return (db, (s.advance op).next rest cached)
    | some id => W.recordOp db now book s op rest cached id

end Watcher

/-- What a process does next, with what the outside answers: the length of the
page Horizon returns, the database's time, the order book, the outcome of a
background check and whether its `mark_held` succeeded. In `handleLost` the INSERT
is carried out and its answer is lost. -/
inductive WatchAction
  | start (maxPolls : ℕ)
  | resolveNow
  | persistHead
  | poll (n : ℕ)
  | handle (now : ℕ) (book : OrderBook)
  | handleLost (now : ℕ) (book : OrderBook)
  | persist
  | check (i : ℕ) (allowed marked : Bool)
  | finish
  | stop

/-- The limit `watch` asks Horizon for. -/
def pageLimit : ℕ := 50

/-- One step of a process; `none` if the process is not at that point. -/
def Watcher.step (W : Watcher) (h : History) (db : Database) :
    Proc → WatchAction → Option (Database × Proc)
  | .down, .start maxPolls =>
    match db.findMerchantByStellarAddress W.merchantAddress with
    | none => some (db, .down)
    | some merchant =>
      match db.getCursor with
      | .now => some (db, .resolving merchant maxPolls)
      | .token c => some (db, .polling ⟨merchant, maxPolls, c, []⟩)
  | .resolving merchant maxPolls, .resolveNow => some (db, .resolved merchant maxPolls h.head)
  | .resolved merchant maxPolls head, .persistHead =>
    some (db.setCursor (.token head), .polling ⟨merchant, maxPolls, head, []⟩)
  | .polling s, .poll n =>
    match s.pollsLeft with
    | 0 => none
    | k + 1 =>
      some (db, { s with pollsLeft := k }.next (h.paymentsSince s.cursor n pageLimit) none)
  | .polling s, .finish => if s.pollsLeft = 0 then some (db, .draining s.checks) else none
  | .handling s op rest cached, .handle now book =>
    match W.handleOp db now book s op rest cached with
    | .error _ => some (db, .down)
    | .ok r => some r
  | .handling s op rest cached, .handleLost now book =>
    match W.handleOp db now book s op rest cached with
    | .ok (db', .recorded _ _ _ _) => some (db', .down)
    | _ => none
  | .recorded s op rest cached, .persist =>
    some (db.setCursor (.token op.pagingToken), (s.advance op).next rest cached)
  | .draining [], .finish => some (db, .down)
  | p, .check i allowed marked =>
    match p.checks[i]? with
    | none => none
    | some c =>
      some (if !allowed && marked then db.markHeld c.paymentId else db, p.endCheck i)
  | _, .stop => some (db, .down)
  | _, _ => none

/-! ## What a step can do -/

/-- The steps of a process, by their effect. -/
inductive Watcher.Move (W : Watcher) (h : History) (db : Database) :
    Proc → Database → Proc → Prop
  | exit (p : Proc) : Move W h db p db .down
  | begin (merchant : Merchant) (maxPolls : ℕ)
      (hm : db.findMerchantByStellarAddress W.merchantAddress = some merchant)
      (hc : db.getCursor = .now) : Move W h db .down db (.resolving merchant maxPolls)
  | resume (merchant : Merchant) (maxPolls c : ℕ)
      (hm : db.findMerchantByStellarAddress W.merchantAddress = some merchant)
      (hc : db.getCursor = .token c) :
      Move W h db .down db (.polling ⟨merchant, maxPolls, c, []⟩)
  | resolve (merchant : Merchant) (maxPolls : ℕ) :
      Move W h db (.resolving merchant maxPolls) db (.resolved merchant maxPolls h.head)
  | position (merchant : Merchant) (maxPolls head : ℕ) :
      Move W h db (.resolved merchant maxPolls head) (db.setCursor (.token head))
        (.polling ⟨merchant, maxPolls, head, []⟩)
  | fetch (s : Session) (n k : ℕ) :
      Move W h db (.polling s) db
        (({ s with pollsLeft := k } : Session).next (h.paymentsSince s.cursor n pageLimit) none)
  | drain (s : Session) : Move W h db (.polling s) db (.draining s.checks)
  | skip (s : Session) (op : PaymentOp) (rest : List PaymentOp) (cached : Option ℚ)
      (hop : ¬ op.Matched W.muxedFromString) :
      Move W h db (.handling s op rest cached) db ((s.advance op).next rest cached)
  | record (s : Session) (op : PaymentOp) (rest : List PaymentOp) (cached : Option ℚ) (now : ℕ)
      (book : OrderBook) (id : UInt64) (applied amount : Option ℚ)
      (db' : Database) (recorded : Option RecordedPayment) (hop : op.opType = "payment")
      (hid : op.sessionId W.muxedFromString = some id)
      (hrate : appliedRate W.decimal op cached book = .ok applied)
      (husd : usdAmount W.decimal applied op.rawAmount = .ok amount)
      (hrec : recordPaymentIfNew W.decimal db now s.merchant
        (paymentRequest op id applied amount) = .ok (db', recorded)) :
      Move W h db (.handling s op rest cached) db'
        (.recorded (s.spawnCheck op.payer recorded) op rest (applied.or cached))
  | lose (s : Session) (op : PaymentOp) (rest : List PaymentOp) (cached : Option ℚ) (now : ℕ)
      (book : OrderBook) (id : UInt64) (applied amount : Option ℚ)
      (db' : Database) (recorded : Option RecordedPayment) (hop : op.opType = "payment")
      (hid : op.sessionId W.muxedFromString = some id)
      (hrate : appliedRate W.decimal op cached book = .ok applied)
      (husd : usdAmount W.decimal applied op.rawAmount = .ok amount)
      (hrec : recordPaymentIfNew W.decimal db now s.merchant
        (paymentRequest op id applied amount) = .ok (db', recorded)) :
      Move W h db (.handling s op rest cached) db' .down
  | save (s : Session) (op : PaymentOp) (rest : List PaymentOp) (cached : Option ℚ) :
      Move W h db (.recorded s op rest cached) (db.setCursor (.token op.pagingToken))
        ((s.advance op).next rest cached)
  | endCheck (p : Proc) (i : ℕ) : Move W h db p db (p.endCheck i)
  | hold (p : Proc) (i id : ℕ) : Move W h db p (db.markHeld id) (p.endCheck i)

namespace Watcher

variable {W : Watcher} {h : History} {db db' : Database} {p p' : Proc} {s : Session}
  {op : PaymentOp} {rest : List PaymentOp} {cached : Option ℚ} {now : ℕ} {book : OrderBook}

theorem handleOp_of_sessionId {id : UInt64} (hop : op.opType = "payment")
    (hid : op.sessionId W.muxedFromString = some id) :
    W.handleOp db now book s op rest cached = W.recordOp db now book s op rest cached id := by
  simp only [handleOp, hop, ne_eq, not_true, if_false, hid]

/-- What recording an operation has asked for, when it returns. -/
theorem recordOp_eq_ok {id : UInt64}
    (hok : W.recordOp db now book s op rest cached id = .ok (db', p')) :
    ∃ applied amount recorded, appliedRate W.decimal op cached book = .ok applied ∧
      usdAmount W.decimal applied op.rawAmount = .ok amount ∧
      recordPaymentIfNew W.decimal db now s.merchant (paymentRequest op id applied amount) =
        .ok (db', recorded) ∧
      p' = .recorded (s.spawnCheck op.payer recorded) op rest (applied.or cached) := by
  obtain ⟨applied, hrate, hok⟩ := bind_eq_ok.mp hok
  obtain ⟨amount, husd, hok⟩ := bind_eq_ok.mp hok
  obtain ⟨⟨db₁, recorded⟩, hrec, hok⟩ := bind_eq_ok.mp hok
  obtain ⟨rfl, rfl⟩ := Prod.mk.inj (Except.ok.inj hok)
  exact ⟨applied, amount, recorded, hrate, husd, hrec, rfl⟩

/-- What is not a payment with a session id moves the cursor in memory only. -/
theorem handleOp_of_not_matched (hop : ¬ op.Matched W.muxedFromString) :
    W.handleOp db now book s op rest cached = .ok (db, (s.advance op).next rest cached) := by
  simp only [handleOp]
  split
  · rfl
  · cases hid : op.sessionId W.muxedFromString with
    | none => rfl
    | some id => exact absurd ⟨not_not.mp ‹_›, Option.isSome_iff_exists.mpr ⟨id, hid⟩⟩ hop

/-- The loop body either skips the operation or records it. -/
theorem handleOp_eq_ok (hok : W.handleOp db now book s op rest cached = .ok (db', p')) :
    (¬ op.Matched W.muxedFromString ∧ db' = db ∧ p' = (s.advance op).next rest cached) ∨
      ∃ id applied amount recorded, op.opType = "payment" ∧
        op.sessionId W.muxedFromString = some id ∧
        appliedRate W.decimal op cached book = .ok applied ∧
        usdAmount W.decimal applied op.rawAmount = .ok amount ∧
        recordPaymentIfNew W.decimal db now s.merchant (paymentRequest op id applied amount) =
          .ok (db', recorded) ∧
        p' = .recorded (s.spawnCheck op.payer recorded) op rest (applied.or cached) := by
  by_cases hmatched : op.Matched W.muxedFromString
  · obtain ⟨id, hid⟩ := Option.isSome_iff_exists.mp hmatched.2
    rw [handleOp_of_sessionId hmatched.1 hid] at hok
    obtain ⟨applied, amount, recorded, hrest⟩ := recordOp_eq_ok hok
    exact .inr ⟨id, applied, amount, recorded, hmatched.1, hid, hrest⟩
  · rw [handleOp_of_not_matched hmatched] at hok
    obtain ⟨rfl, rfl⟩ := Prod.mk.inj (Except.ok.inj hok)
    exact .inl ⟨hmatched, rfl, rfl⟩

/-- The loop body stops at `set_cursor` when it has recorded the operation. -/
theorem handleOp_eq_recorded {s' : Session} {op' : PaymentOp} {rest' : List PaymentOp}
    {rate : Option ℚ}
    (hok : W.handleOp db now book s op rest cached = .ok (db', .recorded s' op' rest' rate)) :
    ∃ id applied amount recorded, op.opType = "payment" ∧
      op.sessionId W.muxedFromString = some id ∧
      appliedRate W.decimal op cached book = .ok applied ∧
      usdAmount W.decimal applied op.rawAmount = .ok amount ∧
      recordPaymentIfNew W.decimal db now s.merchant (paymentRequest op id applied amount) =
        .ok (db', recorded) := by
  obtain ⟨-, -, hskip⟩ | ⟨id, applied, amount, recorded, hop, hid, hrate, husd, hrec, -⟩ :=
    handleOp_eq_ok hok
  · cases rest <;> cases hskip
  · exact ⟨id, applied, amount, recorded, hop, hid, hrate, husd, hrec⟩

theorem move_of_handleOp (hok : W.handleOp db now book s op rest cached = .ok (db', p')) :
    W.Move h db (.handling s op rest cached) db' p' := by
  rcases handleOp_eq_ok hok with
    ⟨hop, rfl, rfl⟩ | ⟨id, applied, amount, recorded, hop, hid, hrate, husd, hrec, rfl⟩
  · exact .skip s op rest cached hop
  · exact .record s op rest cached now book id applied amount _ recorded hop hid hrate husd hrec

/-- Every step is one of the moves. -/
theorem move_of_step {a : WatchAction} (hs : W.step h db p a = some (db', p')) :
    W.Move h db p db' p' := by
  simp only [step] at hs
  split at hs
  · split at hs
    · cases hs
      exact .exit _
    · split at hs <;> cases hs
      · exact .begin _ _ ‹_› ‹_›
      · exact .resume _ _ _ ‹_› ‹_›
  · cases hs
    exact .resolve _ _
  · cases hs
    exact .position _ _ _
  · split at hs
    · cases hs
    · cases hs
      exact .fetch _ _ _
  · split at hs
    · cases hs
      exact .drain _
    · cases hs
  · split at hs
    · cases hs
      exact .exit _
    · cases hs
      exact move_of_handleOp ‹_›
  · split at hs
    · next hok =>
      cases hs
      obtain ⟨id, applied, amount, recorded, hop, hid, hrate, husd, hrec⟩ :=
        handleOp_eq_recorded hok
      exact .lose _ _ _ _ _ _ id applied amount _ recorded hop hid hrate husd hrec
    · cases hs
  · cases hs
    exact .save _ _ _ _
  · cases hs
    exact .exit _
  · split at hs
    · cases hs
    · cases hs
      split
      · exact .hold _ _ _
      · exact .endCheck _ _
  · cases hs
    exact .exit _
  · cases hs

/-- An INSERT whose answer is lost has been carried out, and the process ends. -/
theorem record_of_handleLost (hs : W.step h db p (.handleLost now book) = some (db', p')) :
    ∃ s op rest cached id applied amount recorded, p = .handling s op rest cached ∧ p' = .down ∧
      appliedRate W.decimal op cached book = .ok applied ∧
      usdAmount W.decimal applied op.rawAmount = .ok amount ∧
      recordPaymentIfNew W.decimal db now s.merchant (paymentRequest op id applied amount) =
        .ok (db', recorded) := by
  cases p with
  | handling s op rest cached =>
    simp only [step] at hs
    split at hs
    · next hok =>
      obtain ⟨rfl, rfl⟩ := Prod.mk.inj (Option.some.inj hs)
      obtain ⟨id, applied, amount, recorded, -, -, hrate, husd, hrec⟩ := handleOp_eq_recorded hok
      exact ⟨s, op, rest, cached, id, applied, amount, recorded, rfl, rfl, hrate, husd, hrec⟩
    · cases hs
  | draining cs => cases cs <;> cases hs
  | _ => cases hs

/-- No step of a process writes to `merchants`. -/
theorem Move.merchants_eq (hm : W.Move h db p db' p') : db'.merchants = db.merchants := by
  cases hm with
  | record s op rest cached now book id applied amount db' recorded hop hid hrate husd hrec
  | lose s op rest cached now book id applied amount db' recorded hop hid hrate husd hrec =>
    exact (other_tables_of_recordPaymentIfNew hrec).2
  | _ => rfl

/-- No step of a process writes to `blocked_addresses`. -/
theorem Move.blockedAddresses_eq (hm : W.Move h db p db' p') :
    db'.blockedAddresses = db.blockedAddresses := by
  cases hm with
  | record s op rest cached now book id applied amount db' recorded hop hid hrate husd hrec
  | lose s op rest cached now book id applied amount db' recorded hop hid hrate husd hrec =>
    rcases recordPaymentIfNew_eq_ok hrec with
      ⟨-, rfl, -⟩ | ⟨gross, bps, fee, net, amounts, -, -, -, -, -, -, rfl, -⟩ <;> rfl
  | _ => rfl

/-- The indexed columns of `payments` change in one way only: the operation at
hand gets a row of its own. -/
theorem Move.keys_cases (hm : W.Move h db p db' p') :
    db'.keys = db.keys ∨
      ∃ s op rest cached id, p = .handling s op rest cached ∧
        op.sessionId W.muxedFromString = some id ∧ ¬ db.HasToken op.pagingToken ∧
        ¬ db.HasSession s.merchant.id id.toInt64 ∧
        db'.keys = db.keys ++ [⟨op.pagingToken, s.merchant.id, id.toInt64⟩] := by
  cases hm with
  | record s op rest cached now book id applied amount db' recorded hop hid hrate husd hrec
  | lose s op rest cached now book id applied amount db' recorded hop hid hrate husd hrec =>
    rcases keys_of_recordPaymentIfNew hrec with ⟨-, hk⟩ | ⟨ht, hs, hk⟩
    · exact .inl hk
    · exact .inr ⟨s, op, rest, cached, id, rfl, hid, ht, hs, hk⟩
  | hold p i id => exact .inl (db.keys_markHeld id)
  | _ => exact .inl rfl

/-- A process keeps the merchant row it found when it started. -/
theorem Move.merchant_eq {m : Merchant} (hm : W.Move h db p db' p') (hp' : p'.merchant = some m) :
    p.merchant = some m ∨ db.findMerchantByStellarAddress W.merchantAddress = some m := by
  cases hm with
  | exit => simp [Proc.merchant] at hp'
  | drain => simp [Proc.merchant] at hp'
  | lose => simp [Proc.merchant] at hp'
  | begin merchant maxPolls hm hc => exact .inr (hm.trans hp')
  | resume merchant maxPolls c hm hc => exact .inr (hm.trans hp')
  | fetch => exact .inl (by simpa using hp')
  | skip => exact .inl (by simpa using hp')
  | record => exact .inl (by simpa [Proc.merchant] using hp')
  | save => exact .inl (by simpa using hp')
  | endCheck => exact .inl (by simpa using hp')
  | hold => exact .inl (by simpa using hp')
  | _ => exact .inl hp'

/-- A process whose merchant has the address all along works for this merchant only. -/
theorem Move.merchant_eq_of_found {m : Merchant} (hm : W.Move h db p db' p')
    (hfound : db.findMerchantByStellarAddress W.merchantAddress = some m)
    (hp : ∀ m', p.merchant = some m' → m' = m) : ∀ m', p'.merchant = some m' → m' = m := by
  intro m' hp'
  rcases hm.merchant_eq hp' with hold | hfound'
  · exact hp m' hold
  · exact Option.some.inj (hfound'.symm.trans hfound)

/-! ## Steps that are enabled -/

theorem step_start_of_token {merchant : Merchant} {maxPolls c : ℕ}
    (hm : db.findMerchantByStellarAddress W.merchantAddress = some merchant)
    (hc : db.cursor = some (.token c)) :
    W.step h db .down (.start maxPolls) = some (db, .polling ⟨merchant, maxPolls, c, []⟩) := by
  simp [step, hm, Database.getCursor, hc]

theorem step_poll {s : Session} {k : ℕ} (hk : s.pollsLeft = k + 1) (n : ℕ) :
    W.step h db (.polling s) (.poll n) = some (db,
      ({ s with pollsLeft := k } : Session).next (h.paymentsSince s.cursor n pageLimit) none) := by
  simp [step, hk]

/-- A call of `record_payment_if_new` that returns takes the loop to `set_cursor`. -/
theorem handleOp_of_record {id : UInt64} {applied amount : Option ℚ}
    {recorded : Option RecordedPayment} (hop : op.opType = "payment")
    (hid : op.sessionId W.muxedFromString = some id)
    (hrate : appliedRate W.decimal op cached book = .ok applied)
    (husd : usdAmount W.decimal applied op.rawAmount = .ok amount)
    (hrec : recordPaymentIfNew W.decimal db now s.merchant
      (paymentRequest op id applied amount) = .ok (db', recorded)) :
    W.handleOp db now book s op rest cached =
      .ok (db', .recorded (s.spawnCheck op.payer recorded) op rest (applied.or cached)) := by
  rw [handleOp_of_sessionId hop hid]
  simp only [recordOp, hrate, husd, hrec, ok_bind]
  rfl

/-- A payment worth a storable amount is handled, unless its session id belongs to
another row. -/
theorem exists_handleOp (db : Database) (now : ℕ) (s : Session) (rest : List PaymentOp)
    {applied : Option ℚ} {gross : ℚ} {row : MerchantRow}
    (hop : op.Matched W.muxedFromString)
    (hrate : appliedRate W.decimal op cached book = .ok applied)
    (husd : usdAmount W.decimal applied op.rawAmount = .ok (some gross)) (hgross : Storable gross)
    (hrow : db.merchants.find? (fun m => decide (m.id = s.merchant.id)) = some row)
    (hfree : db.HasToken op.pagingToken ∨ ∀ id, op.sessionId W.muxedFromString = some id →
      ¬ db.HasSession s.merchant.id id.toInt64) :
    ∃ id db' recorded, op.sessionId W.muxedFromString = some id ∧
      recordPaymentIfNew W.decimal db now s.merchant (paymentRequest op id applied (some gross)) =
        .ok (db', recorded) ∧
      W.handleOp db now book s op rest cached =
        .ok (db', .recorded (s.spawnCheck op.payer recorded) op rest (applied.or cached)) := by
  obtain ⟨id, hid⟩ := Option.isSome_iff_exists.mp hop.2
  obtain ⟨db', recorded, hrec⟩ := exists_recordPaymentIfNew W.decimal now
    (paymentRequest op id applied (some gross)) hrow rfl hgross
    (hfree.imp_right fun h => h id hid)
  exact ⟨id, db', recorded, hid, hrec, handleOp_of_record hop.1 hid hrate husd hrec⟩

theorem step_handle {r : Database × Proc} (hok : W.handleOp db now book s op rest cached = .ok r) :
    W.step h db (.handling s op rest cached) (.handle now book) = some r := by
  simp [step, hok]

end Watcher

/-! ## The process in its surroundings -/

/-- What other services write to the tables the reconciler reads. -/
inductive ApiWrite
  | reserveSession (l : LinkSession)
  | blockAddress (address : String)
  | unblockAddress (address : String)
  | setPaymentStatus (paymentId : ℕ) (status : PaymentStatus)
  | grantPromo (merchantId : ℕ) (promoFeeBps : FeeBps) (promoExpiresAt : ℕ)
  | signup (row : MerchantRow)

/-- A time-only promo, as the referral reward sets it. -/
def MerchantRow.grantPromo (m : MerchantRow) (promoFeeBps : FeeBps) (promoExpiresAt : ℕ) :
    MerchantRow :=
  { m with promoFeeBps := some promoFeeBps, promoExpiresAt := some promoExpiresAt,
           promoVolumeCapUsdc := none }

def Database.api (db : Database) : ApiWrite → Database
  | .reserveSession l => { db with linkSessions := db.linkSessions ++ [l] }
  | .blockAddress a => { db with blockedAddresses := db.blockedAddresses ++ [a] }
  | .unblockAddress a => { db with blockedAddresses := db.blockedAddresses.filter (· ≠ a) }
  | .setPaymentStatus id status => { db with payments := db.payments.map fun p =>
      if p.id = id then { p with status := status } else p }
  | .grantPromo id bps expiresAt => { db with merchants := db.merchants.map fun m =>
      if m.id = id then (m.grantPromo bps expiresAt) else m }
  | .signup row => { db with merchants := db.merchants ++ [row] }

/-- Promo grants and signups leave the watched merchant's row first of its address. -/
theorem Database.findMerchant_api {db : Database} {address : String} {m : Merchant}
    (h : db.findMerchantByStellarAddress address = some m) (e : ApiWrite) :
    (db.api e).findMerchantByStellarAddress address = some m := by
  obtain ⟨row, hrow, rfl⟩ := Option.map_eq_some_iff.mp h
  apply Option.map_eq_some_iff.mpr
  cases e with
  | grantPromo id bps expiresAt =>
    have hcomp : ((fun m : MerchantRow => decide (m.stellarBaseAddress = some address)) ∘
        fun m => if m.id = id then m.grantPromo bps expiresAt else m) =
        fun m => decide (m.stellarBaseAddress = some address) := by
      funext m
      by_cases hm : m.id = id <;> simp [hm, MerchantRow.grantPromo]
    refine ⟨if row.id = id then row.grantPromo bps expiresAt else row, ?_, by split <;> rfl⟩
    rw [Database.api, List.find?_map, hcomp, hrow]
    rfl
  | signup row' => exact ⟨row, by simp [Database.api, List.find?_append, hrow], rfl⟩
  | _ => exact ⟨row, hrow, rfl⟩

/-- No API write touches an indexed column of `payments` or the cursor. -/
theorem Database.api_frame (db : Database) (e : ApiWrite) :
    (db.api e).keys = db.keys ∧ (db.api e).cursor = db.cursor := by
  cases e with
  | setPaymentStatus id status => exact ⟨Database.keys_map fun p => by split <;> rfl, rfl⟩
  | _ => exact ⟨rfl, rfl⟩

structure World where
  db : Database
  history : History
  proc : Proc
deriving DecidableEq

inductive Action
  | watch (a : WatchAction)
  | arrive (op : PaymentOp)
  | api (e : ApiWrite)

def World.step (W : Watcher) (w : World) : Action → Option World
  | .watch a => (W.step w.history w.db w.proc a).map fun r => ⟨r.1, w.history, r.2⟩
  | .arrive op => (w.history.append op).map fun h => { w with history := h }
  | .api e => some { w with db := w.db.api e }

/-- The operation that is handled next. -/
def Proc.handled : Proc → Option PaymentOp
  | handling _ op _ _ => some op
  | _ => none

/-- The row of a payer who is not blocked is committed, and the answer to the INSERT is lost. -/
def World.LosesRow (w : World) : Action → Prop
  | .watch (.handleLost _ _) => ∃ op ∈ w.proc.handled,
      ¬ w.db.HasToken op.pagingToken ∧ w.db.isLocallyBlocked op.payer = false
  | _ => False

instance (w : World) : DecidablePred w.LosesRow := fun a => by
  cases a with
  | watch wa =>
    cases wa with
    | handleLost now book => exact inferInstanceAs (Decidable (∃ op ∈ w.proc.handled, _))
    | _ => exact .isFalse id
  | _ => exact .isFalse id

/-- A step of the process is a step of the world. -/
theorem World.step_watch {W : Watcher} {w : World} {a : WatchAction} {db : Database} {p : Proc}
    (h : W.step w.history w.db w.proc a = some (db, p)) :
    w.step W (.watch a) = some ⟨db, w.history, p⟩ := by
  simp [World.step, h]

/-- The example merchant's process, linked against a decoder that knows no muxed
address. -/
def exampleWatcher : Watcher := ⟨.truncating, fun _ => none, "GMERCHANT"⟩

/-- A USDC payment to the example merchant with an id memo. -/
def examplePayment (pagingToken : ℕ) (memo amount : String) : PaymentOp where
  pagingToken := pagingToken
  opType := "payment"
  transactionHash := "tx"
  assetType := some "credit_alphanum4"
  assetCode := some "USDC"
  assetIssuer := some "GISSUER"
  fromAccount := some "GPAYER"
  toAccount := some "GMERCHANT"
  amount := some amount
  toMuxed := none
  toMuxedId := none
  transaction := some ⟨some memo, some "id"⟩

def exampleWorld : World := ⟨exampleDb, .empty, .down⟩

end KonfirmBackend.Reconciler
