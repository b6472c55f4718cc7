import KonfirmBackend.Reconciler.Watch

/-!
# Session reservations

Before a payment the client reserves its session id for a link, as a string of digits; the
reconciler finds the link again from the id that the payment carries. In between the id is
a `BIGINT`: the reservation casts the string, the reconciler its unsigned number. The cast
of the reservation fails on the upper half of the unsigned numbers.

## Main definitions

- `reserveSchema`, `reserve` — `POST /links/:linkId/sessions`
- `Database.resolve` — the reservation that a session id is looked up in
- `Records` — an operation is recorded for a link
- `Valued` — the dollar amount of a payment fits its column

## Main results

- `linkOf_of_reaches` — a reservation stays what the session id resolves to
- `records_iff` — when a payment is recorded for the link of its session id
- `session_survives_iff` — which session ids can be reserved and lead back to their link
-/

namespace KonfirmBackend.Sessions

open Transition KonfirmBackend.Reconciler

/-- The columns of a `links` row that are read. -/
structure LinkRow where
  id : ℕ
  merchantId : ℕ
  active : Bool
deriving DecidableEq

inductive ReserveFailure
  | badRequest (field message : String)
  | notFound (message : String)
  | conflict (message : String)
  /-- an error of Postgres, by its code -/
  | postgres (code : String)
deriving DecidableEq

/-- The body's `muxed_id`, if it matches `/^\d+$/`. -/
def reserveSchema (muxedId : String) : Except ReserveFailure String :=
  if (Numeral.readNat muxedId.toList).isSome then .ok muxedId
  else .error (.badRequest "muxed_id" "must be a stringified u64")

/-- Digits cast to `BIGINT`; a number out of range is an error. -/
def castBigint (digits : String) : Option Int64 :=
  (Numeral.readNat digits.toList).bind fun n : ℕ =>
    if n < 2 ^ 63 then some (Int64.ofNat n) else none

/-- `reserve`: the reservation, and the database after the call. `links` is what the
`SELECT` sees, `db` what the `INSERT` does. -/
def reserve (links : List LinkRow) (db : Database) (linkId : ℕ) (muxedId : String) :
    Except ReserveFailure LinkSession × Database :=
  match links.find? fun link => decide (link.id = linkId) with
  | none => (.error (.notFound "link not found"), db)
  | some link =>
    if !link.active then (.error (.conflict "link is not active"), db)
    else
      match castBigint muxedId with
      | none => (.error (.postgres "22003"), db)
      | some id =>
        if (db.linkOf link.merchantId id).isSome then
          (.error (.conflict
            "muxed_id already reserved for this merchant — client should regenerate the nonce"), db)
        else
          (.ok ⟨linkId, link.merchantId, id⟩,
            db.api (.reserveSession ⟨linkId, link.merchantId, id⟩))

/-- The endpoint. -/
def postSession (links : List LinkRow) (db : Database) (linkId : ℕ) (muxedId : String) :
    Except ReserveFailure LinkSession × Database :=
  match reserveSchema muxedId with
  | .error e => (.error e, db)
  | .ok muxedId => reserve links db linkId muxedId

/-- The reservation that the reconciler looks a session id up in. -/
def Database.resolve (db : Database) (merchantId : ℕ) (id : UInt64) : Option LinkSession :=
  db.linkSessions.find? fun l => decide (l.merchantId = merchantId ∧ l.muxedId = id.toInt64)

/-- The payment at hand carries the session id as a `MEMO_ID`, or has no such memo and
carries it as the id of a muxed destination. -/
def Carries (muxedFromString : String → Option MuxedAccount) (op : PaymentOp) (id : UInt64) : Prop :=
  op.memoId = some id ∨ op.memoId = none ∧
    paymentMuxedId muxedFromString op.toMuxedId op.toMuxed (op.toAccount.getD "") = some id

/-- When `watch` handles the operation at hand, it adds a row for it, for the link `linkId` of
the merchant. -/
def Records (W : Watcher) (w : World) (now : ℕ) (book : OrderBook) (op : PaymentOp)
    (merchantId linkId : ℕ) : Prop :=
  ∃ w' row, w.step W (.watch (.handle now book)) = some w' ∧
    w'.db.payments = w.db.payments ++ [row] ∧ row.pagingToken = op.pagingToken ∧
    row.merchantId = merchantId ∧ row.linkId = some linkId

/-- There is a rate for the asset of the payment at hand, its amount is a decimal that fits its
column in dollars, and the merchant has a row. -/
def Valued (W : Watcher) (db : Database) (book : OrderBook) (merchant : Merchant)
    (op : PaymentOp) (cached : Option ℚ) : Prop :=
  (∃ applied gross, appliedRate W.decimal op cached book = .ok applied ∧
    usdAmount W.decimal applied op.rawAmount = .ok (some gross) ∧
    (Numeric.ofDecimal gross).isSome) ∧
  (db.merchants.find? fun m => decide (m.id = merchant.id)).isSome

variable {W : Watcher} {links : List LinkRow} {db db' : Database} {link : LinkRow}
  {muxedId : String} {m l : ℕ} {id : UInt64} {w w' : World}

/-! ## The reservation -/

theorem castBigint_of_lt (hdigits : Numeral.readNat muxedId.toList = some id.toNat)
    (hid : id.toNat < 2 ^ 63) : castBigint muxedId = some id.toInt64 := by
  rw [castBigint, hdigits, Option.bind_some, if_pos hid, ← UInt64.toInt64_ofNat',
    UInt64.ofNat_toNat]

theorem castBigint_of_le (hdigits : Numeral.readNat muxedId.toList = some id.toNat)
    (hid : 2 ^ 63 ≤ id.toNat) : castBigint muxedId = none := by
  rw [castBigint, hdigits, Option.bind_some, if_neg (not_lt.mpr hid)]

/-- On an active link the cast and the unique index are all that matters. -/
theorem postSession_of_active (hdigits : Numeral.readNat muxedId.toList = some id.toNat)
    (hlink : links.find? (fun link' => decide (link'.id = link.id)) = some link)
    (hactive : link.active) :
    postSession links db link.id muxedId =
      match castBigint muxedId with
      | none => (.error (.postgres "22003"), db)
      | some id =>
        if (db.linkOf link.merchantId id).isSome then
          (.error (.conflict
            "muxed_id already reserved for this merchant — client should regenerate the nonce"), db)
        else
          (.ok ⟨link.id, link.merchantId, id⟩,
            db.api (.reserveSession ⟨link.id, link.merchantId, id⟩)) := by
  have hschema : reserveSchema muxedId = .ok muxedId := by
    rw [reserveSchema, hdigits]
    rfl
  simp only [postSession, hschema, reserve, hlink, hactive]
  rfl

theorem postSession_of_lt (hdigits : Numeral.readNat muxedId.toList = some id.toNat)
    (hid : id.toNat < 2 ^ 63)
    (hlink : links.find? (fun link' => decide (link'.id = link.id)) = some link)
    (hactive : link.active) (hfree : db.linkOf link.merchantId id.toInt64 = none) :
    postSession links db link.id muxedId =
      (.ok ⟨link.id, link.merchantId, id.toInt64⟩,
        db.api (.reserveSession ⟨link.id, link.merchantId, id.toInt64⟩)) := by
  rw [postSession_of_active hdigits hlink hactive, castBigint_of_lt hdigits hid]
  simp only [hfree, Option.isSome_none, Bool.false_eq_true, if_false]

/-- The number does not fit the column. -/
theorem postSession_of_le (hdigits : Numeral.readNat muxedId.toList = some id.toNat)
    (hid : 2 ^ 63 ≤ id.toNat)
    (hlink : links.find? (fun link' => decide (link'.id = link.id)) = some link)
    (hactive : link.active) :
    postSession links db link.id muxedId = (.error (.postgres "22003"), db) := by
  rw [postSession_of_active hdigits hlink hactive, castBigint_of_le hdigits hid]

/-! ## What a session id resolves to -/

/-- Two session ids are never looked up in the same reservation. -/
theorem resolve_inj {id id' : UInt64} {session : LinkSession}
    (h : Database.resolve db m id = some session) (h' : Database.resolve db m id' = some session) :
    id = id' := by
  have hid := List.find?_some h
  have hid' := List.find?_some h'
  simp only [decide_eq_true_eq] at hid hid'
  have hsame : id.toInt64 = id'.toInt64 := hid.2.symm.trans hid'.2
  simpa using congrArg Int64.toUInt64 hsame

theorem linkOf_reserveSession (hfree : db.linkOf m id.toInt64 = none) :
    (db.api (.reserveSession ⟨l, m, id.toInt64⟩)).linkOf m id.toInt64 = some l := by
  rw [Database.linkOf, Option.map_eq_none_iff] at hfree
  rw [Database.linkOf, Database.api, List.find?_append, hfree, Option.none_or,
    List.find?_cons_of_pos (by simp), Option.map_some]

/-- Reservations are only added, and the first one for a session id counts. -/
theorem linkOf_api (h : db.linkOf m id.toInt64 = some l) (e : ApiWrite) :
    (db.api e).linkOf m id.toInt64 = some l := by
  cases e with
  | reserveSession session =>
    obtain ⟨first, hfirst, rfl⟩ := Option.map_eq_some_iff.mp h
    rw [Database.linkOf, Database.api, List.find?_append, hfirst, Option.some_or, Option.map_some]
  | _ => exact h

/-- The reconciler does not write to `link_sessions`. -/
theorem linkSessions_of_move {h : History} {p p' : Proc} (hm : W.Move h db p db' p') :
    db'.linkSessions = db.linkSessions := by
  cases hm with
  | record s op rest cached now book id applied amount db' recorded hop hid hrate husd hrec
  | lose s op rest cached now book id applied amount db' recorded hop hid hrate husd hrec =>
    rcases recordPaymentIfNew_eq_ok hrec with
      ⟨-, rfl, -⟩ | ⟨gross, bps, fee, net, amounts, -, -, -, -, -, -, rfl, -⟩
    · rfl
    · rfl
  | _ => rfl

theorem linkOf_step {a : Action} (h : w.db.linkOf m id.toInt64 = some l)
    (hs : w.step W a = some w') : w'.db.linkOf m id.toInt64 = some l := by
  cases a with
  | watch a =>
    obtain ⟨⟨db', p'⟩, hstep, rfl⟩ := Option.map_eq_some_iff.mp hs
    have hsame := linkSessions_of_move (Watcher.move_of_step hstep)
    rw [Database.linkOf, hsame]
    exact h
  | arrive op =>
    obtain ⟨h', -, rfl⟩ := Option.map_eq_some_iff.mp hs
    exact h
  | api e =>
    obtain rfl := Option.some.inj hs
    exact linkOf_api h e

/-- A reservation stays what the session id resolves to. -/
theorem linkOf_of_reaches (hr : Reaches (World.step W) (fun _ => True) w w')
    (h : w.db.linkOf m id.toInt64 = some l) : w'.db.linkOf m id.toInt64 = some l :=
  hr.invariant (I := fun w => w.db.linkOf m id.toInt64 = some l) h
    fun _ _ _ _ hw hs => linkOf_step hw hs

/-! ## The payment -/

section Payment

variable {now : ℕ} {book : OrderBook} {s : Session} {op : PaymentOp} {rest : List PaymentOp}
  {cached : Option ℚ}

theorem sessionId_of_carries (h : Carries W.muxedFromString op id) :
    op.sessionId W.muxedFromString = some id := by
  rw [PaymentOp.sessionId]
  rcases h with hmemo | ⟨hmemo, hmuxed⟩
  · rw [hmemo, Option.some_or]
  · rw [hmemo, Option.none_or, hmuxed]

/-- A step that adds a row for the payment at hand has recorded it. -/
theorem record_of_records (hproc : w.proc = .handling s op rest cached)
    (hop : op.opType = "payment") (hcarries : Carries W.muxedFromString op id)
    (h : Records W w now book op s.merchant.id l) :
    ∃ applied amount r, appliedRate W.decimal op cached book = .ok applied ∧
      usdAmount W.decimal applied op.rawAmount = .ok amount ∧
      recordPaymentIfNew W.decimal w.db now s.merchant (paymentRequest op id applied amount) =
        .ok r := by
  obtain ⟨w', added, hw', hadded, -⟩ := h
  obtain ⟨⟨db', p'⟩, hstep, rfl⟩ := Option.map_eq_some_iff.mp hw'
  rw [hproc] at hstep
  simp only [Watcher.step] at hstep
  split at hstep
  · -- the call has failed, and nothing is added
    cases hstep
    change w.db.payments = _ at hadded
    exact absurd (congrArg List.length hadded) (by simp)
  · rename_i hok
    cases hstep
    rw [Watcher.handleOp_of_sessionId hop (sessionId_of_carries hcarries)] at hok
    obtain ⟨applied, amount, recorded, hrate, husd, hrec, -⟩ := Watcher.recordOp_eq_ok hok
    exact ⟨applied, amount, _, hrate, husd, hrec⟩

/-- A payment is recorded for the link that its session id resolves to, exactly when it is
worth something and no payment of the merchant has the session id already. -/
theorem records_iff (hproc : w.proc = .handling s op rest cached) (hop : op.opType = "payment")
    (hcarries : Carries W.muxedFromString op id) (hfresh : ¬w.db.HasToken op.pagingToken)
    (hlink : w.db.linkOf s.merchant.id id.toInt64 = some l) :
    Records W w now book op s.merchant.id l ↔
      Valued W w.db book s.merchant op cached ∧ ¬w.db.HasSession s.merchant.id id.toInt64 := by
  have hreq : ∀ {applied amount : Option ℚ}, usdAmount W.decimal applied op.rawAmount = .ok amount →
      ((∃ r, recordPaymentIfNew W.decimal w.db now s.merchant
          (paymentRequest op id applied amount) = .ok r) ↔
        (∃ q ∈ amount, (Numeric.ofDecimal q).isSome) ∧
          (w.db.merchants.find? fun m => decide (m.id = s.merchant.id)).isSome ∧
          (w.db.HasToken op.pagingToken ∨ ¬w.db.HasSession s.merchant.id id.toInt64)) := by
    intro applied amount husd
    have hdecimal : ∀ q ∈ (paymentRequest op id applied amount).amount, Representable q :=
      representable_of_usdAmount husd
    exact recordPaymentIfNew_isOk_iff W.decimal now hdecimal
  constructor
  · intro h
    obtain ⟨applied, amount, r, hrate, husd, hrec⟩ := record_of_records hproc hop hcarries h
    obtain ⟨⟨gross, hgross, hfits⟩, hrow, hfree⟩ := (hreq husd).mp ⟨r, hrec⟩
    obtain rfl : amount = some gross := hgross
    exact ⟨⟨⟨applied, gross, hrate, husd, hfits⟩, hrow⟩, hfree.resolve_left hfresh⟩
  · rintro ⟨⟨⟨applied, gross, hrate, husd, hfits⟩, hrow⟩, hfree⟩
    obtain ⟨⟨db', recorded⟩, hrec⟩ := (hreq husd).mpr ⟨⟨gross, rfl, hfits⟩, hrow, .inr hfree⟩
    have hok : W.handleOp w.db now book s op rest cached = _ :=
      Watcher.handleOp_of_record hop (sessionId_of_carries hcarries) hrate husd hrec
    have hstep := Watcher.step_handle (h := w.history) hok
    rw [← hproc] at hstep
    obtain ⟨htoken, -⟩ | ⟨gross, bps, fee, net, amounts, -, -, -, -, -, -, rfl, -⟩ :=
      recordPaymentIfNew_eq_ok hrec
    · exact absurd htoken hfresh
    · exact ⟨_, _, World.step_watch hstep, rfl, rfl, rfl, hlink⟩

/-- A session id is reserved, a payment that carries it later is recorded for its link, and no
other session id leads to the reservation, exactly when the id fits a signed 64-bit number, no
payment of the merchant has it already, and the payment is worth something. -/
theorem session_survives_iff (hdigits : Numeral.readNat muxedId.toList = some id.toNat)
    (hlink : links.find? (fun link' => decide (link'.id = link.id)) = some link)
    (hactive : link.active) (hfree : db.linkOf link.merchantId id.toInt64 = none)
    {history : History} {proc : Proc}
    (hreach : Reaches (World.step W) (fun _ => True)
      ⟨(postSession links db link.id muxedId).2, history, proc⟩ w)
    (hproc : w.proc = .handling s op rest cached) (hmerchant : s.merchant.id = link.merchantId)
    (hop : op.opType = "payment") (hcarries : Carries W.muxedFromString op id)
    (hfresh : ¬w.db.HasToken op.pagingToken) :
    ((postSession links db link.id muxedId).1 = .ok ⟨link.id, link.merchantId, id.toInt64⟩ ∧
        Records W w now book op link.merchantId link.id ∧
        ∀ id', id' ≠ id → ∀ session, Database.resolve w.db link.merchantId id = some session →
          Database.resolve w.db link.merchantId id' ≠ some session) ↔
      id.toNat < 2 ^ 63 ∧ ¬w.db.HasSession link.merchantId id.toInt64 ∧
        Valued W w.db book s.merchant op cached := by
  by_cases hsmall : id.toNat < 2 ^ 63
  · rw [postSession_of_lt hdigits hsmall hlink hactive hfree] at hreach ⊢
    have hresolves := linkOf_of_reaches hreach (linkOf_reserveSession (l := link.id) hfree)
    rw [← hmerchant] at hresolves ⊢
    have hrecords : Records W w now book op s.merchant.id link.id ↔ _ :=
      records_iff hproc hop hcarries hfresh hresolves
    constructor
    · rintro ⟨-, hrec, -⟩
      obtain ⟨hvalued, hsession⟩ := hrecords.mp hrec
      exact ⟨hsmall, hsession, hvalued⟩
    · rintro ⟨-, hsession, hvalued⟩
      refine ⟨rfl, hrecords.mpr ⟨hvalued, hsession⟩, ?_⟩
      intro id' hne session hs hs'
      exact hne (resolve_inj hs' hs)
  · -- the cast fails, so there is no reservation to lead back to
    rw [postSession_of_le hdigits (not_lt.mp hsmall) hlink hactive]
    constructor
    · rintro ⟨hok, -⟩
      cases hok
    · rintro ⟨hlt, -⟩
      exact absurd hlt hsmall

end Payment

def exampleLink : LinkRow := ⟨7, 0, true⟩

/-- The database after the example link's session id has been posted. -/
def exampleReserved (muxedId : String) : World :=
  ⟨(postSession [exampleLink] exampleDb exampleLink.id muxedId).2, .empty, .down⟩

/-- The reconciler has fetched a payment with the posted id in its memo. -/
def exampleFetched : World where
  db := (exampleReserved "0042").db
  history := ⟨[examplePayment 5 "42" "1.0000000"], by simp [OrderedLog.Ordered]⟩
  proc := .handling ⟨exampleMerchant, 19, 0, []⟩ (examplePayment 5 "42" "1.0000000") [] none

/-- A session id with leading zeros leads back to its link. -/
theorem exampleSession_survives :
    exec (World.step exampleWatcher) (exampleReserved "0042")
        [.arrive (examplePayment 5 "42" "1.0000000"), .watch (.start 20), .watch (.poll 1)] =
          some exampleFetched ∧
      (postSession [exampleLink] exampleDb exampleLink.id "0042").1 =
        .ok ⟨exampleLink.id, exampleLink.merchantId, (42 : UInt64).toInt64⟩ ∧
      Records exampleWatcher exampleFetched 0 ⟨["1"], []⟩ (examplePayment 5 "42" "1.0000000")
        exampleLink.merchantId exampleLink.id := by
  have hexec : exec (World.step exampleWatcher) (exampleReserved "0042")
      [.arrive (examplePayment 5 "42" "1.0000000"), .watch (.start 20), .watch (.poll 1)] =
        some exampleFetched := rfl
  have hreach : Reaches (World.step exampleWatcher) (fun _ => True) _ _ :=
    .of_exec (fun _ _ => trivial) hexec
  have hdigits : Numeral.readNat "0042".toList = some (42 : UInt64).toNat := by decide
  have hcarries : Carries exampleWatcher.muxedFromString (examplePayment 5 "42" "1.0000000") 42 :=
    .inl (by decide)
  have hparse : usdAmount exampleWatcher.decimal none
      (examplePayment 5 "42" "1.0000000").rawAmount = .ok (some 1) := by
    have hq : RustDecimal.truncating.parse "1.0000000" = some 1 := by decide +kernel
    exact congrArg Except.ok hq
  have hvalued : Valued exampleWatcher exampleFetched.db ⟨["1"], []⟩ exampleMerchant
      (examplePayment 5 "42" "1.0000000") none := ⟨⟨none, 1, rfl, hparse, storable_one.fits⟩, rfl⟩
  obtain ⟨hreserved, hrecords, -⟩ : _ ∧ Records exampleWatcher exampleFetched 0 ⟨["1"], []⟩
      (examplePayment 5 "42" "1.0000000") exampleLink.merchantId exampleLink.id ∧ _ :=
    (session_survives_iff hdigits rfl rfl rfl hreach rfl rfl rfl hcarries (by decide)).mpr
      ⟨by decide, by decide, hvalued⟩
  exact ⟨hexec, hreserved, hrecords⟩

/-- The upper half of the unsigned numbers cannot be reserved. -/
theorem upper_half_not_reserved :
    reserveSchema "9223372036854775808" = .ok "9223372036854775808" ∧
      Numeral.readNat "9223372036854775808".toList = some (9223372036854775808 : UInt64).toNat ∧
      (postSession [exampleLink] exampleDb exampleLink.id "9223372036854775808").1 =
        .error (.postgres "22003") := by
  refine ⟨?_, ?_, ?_⟩ <;> decide

end KonfirmBackend.Sessions
