import KonfirmBackend.Reconciler.CursorSafety
import KonfirmBackend.Withdrawals

/-!
# Payments received and payments sent

Horizon lists the payments of an account in both directions. The watch loop looks
at the type of an operation, at its session id and at its amount, and at no
account: it records whatever passes these, an outgoing payment included.

## Main definitions

- `PaymentOp.Received` — the merchant is the destination
- `PaymentOp.Recordable` — what the loop records
- `RecordsOnlyReceived` — no run inserts a row for anything but a payment received

## Main results

- `recordable_of_inserts` — only recordable operations get a row
- `records_only_received_iff` — which operations have to be absent for that
-/

namespace KonfirmBackend.Reconciler

open Transition

/-- The base account of the destination is the merchant's. -/
def PaymentOp.Received (merchantAddress : String) (op : PaymentOp) : Prop :=
  op.toAccount = some merchantAddress

instance (merchantAddress : String) (op : PaymentOp) : Decidable (op.Received merchantAddress) :=
  inferInstanceAs (Decidable (_ = _))

/-- A payment with a session id, in XLM or in an amount that fits the column. -/
def PaymentOp.Recordable (W : Watcher) (op : PaymentOp) : Prop :=
  op.Matched W.muxedFromString ∧
    (op.isXlm ∨ ∃ usd, W.decimal.parse op.rawAmount = some usd ∧ (Numeric.ofDecimal usd).isSome)

/-- What Horizon guarantees of a payment record: a positive paging token and an
amount in stroops. -/
structure PaymentOp.Listed (op : PaymentOp) : Prop where
  token_pos : 0 < op.pagingToken
  stroops : ∃ g : ℕ, g < 2 ^ 63 ∧ Numeral.readDecimal op.rawAmount.toList = some ((g : ℚ) / 10 ^ 7)

/-- In this step a row for the operation appears. -/
def Inserts (w w' : World) (op : PaymentOp) : Prop :=
  op ∈ w.history.ops ∧ ¬ w.db.HasToken op.pagingToken ∧ w'.db.HasToken op.pagingToken

/-- In every run over operations of `S`, each row that appears is one for a
payment received. -/
def RecordsOnlyReceived (W : Watcher) (S : Set PaymentOp) : Prop :=
  ∀ w₀ w w' a op, w₀.proc = .down → Reaches (World.step W) (fun _ => True) w₀ w →
    w.step W a = some w' → (∀ x ∈ w.history.ops, x ∈ S) → Inserts w w' op →
      op.Received W.merchantAddress

variable {W : Watcher} {w₀ w w' : World} {a : Action} {op : PaymentOp}

/-- An amount in stroops is a `Decimal`. -/
theorem representable_stroops {g : ℕ} (hg : g < 2 ^ 63) (e : ℕ) (he : e ≤ 28) :
    Representable ((g : ℚ) / 10 ^ e) :=
  ⟨e, he, g, by rw [Nat.abs_cast]; exact_mod_cast hg.trans (by norm_num), by push_cast; rfl⟩

/-- Only `record_payment_if_new` makes a row appear, and only for the operation
at hand. -/
theorem recordable_of_move {h : History} {db db' : Database} {p p' : Proc} {t : ℕ}
    (hm : W.Move h db p db' p') (hnew : ¬ db.HasToken t) (hrow : db'.HasToken t) :
    ∃ s op rest cached, p = .handling s op rest cached ∧ op.pagingToken = t ∧
      op.Recordable W := by
  cases hm with
  | record s op rest cached now book id applied amount db' recorded hop hid hrate husd hrec
  | lose s op rest cached now book id applied amount db' recorded hop hid hrate husd hrec =>
    have htok := ((hasToken_of_recordPaymentIfNew hrec t).mp hrow).resolve_right hnew
    refine ⟨s, op, rest, cached, rfl, htok.symm, ⟨hop, by rw [hid]; rfl⟩, ?_⟩
    rcases recordPaymentIfNew_eq_ok hrec with
      ⟨hseen, -, -⟩ | ⟨gross, bps, fee, net, amounts, hg, -, -, hstore, -⟩
    · exact absurd (htok ▸ hseen) hnew
    · by_cases hx : op.isXlm
      · exact .inl hx
      · -- without a rate the amount that fitted is the raw amount
        obtain rfl : applied = none := by
          simpa [appliedRate, hx, pure, Except.pure, eq_comm] using hrate
        obtain rfl : amount = W.decimal.parse op.rawAmount := by
          simpa [usdAmount, pure, Except.pure, eq_comm] using husd
        have hfit := (storeAmounts_eq_some hstore).1
        exact .inr ⟨gross, hg, by rw [hfit]; rfl⟩
  | hold p i id => exact absurd ((Database.hasToken_congr (db.keys_markHeld id) t).mp hrow) hnew
  | _ => exact absurd hrow hnew

/-- A row that appears in a run is one for a recordable operation. -/
theorem recordable_of_inserts (hdown : w₀.proc = .down)
    (hrun : Reaches (World.step W) (fun _ => True) w₀ w) (hs : w.step W a = some w')
    (hins : Inserts w w' op) : op.Recordable W := by
  obtain ⟨hop, hnew, hrow⟩ := hins
  cases a with
  | watch a =>
    obtain ⟨⟨db', p'⟩, hstep, rfl⟩ := Option.map_eq_some_iff.mp hs
    obtain ⟨s, x, rest, cached, hproc, htok, hx⟩ :=
      recordable_of_move (Watcher.move_of_step hstep) hnew hrow
    -- the operation at hand comes from the history, where tokens are unique
    have hmem := ((World.sound_of_down hdown).run hrun).mem_history hproc
    rwa [← w.history.ordered.eq_of_key_eq hmem hop htok]
  | arrive x =>
    obtain ⟨h', -, rfl⟩ := Option.map_eq_some_iff.mp hs
    exact absurd hrow hnew
  | api e =>
    obtain rfl := Option.some.inj hs
    exact absurd ((Database.hasToken_congr (w.db.api_frame e).1 _).mp hrow) hnew

/-! ## Every recordable operation is recorded in some run -/

/-- A database with the watched merchant, charged no fee, and no payments. -/
def freshDb (merchantAddress : String) : Database where
  merchants := [⟨0, some merchantAddress, ⟨0, by decide⟩, none, none, none⟩]
  payments := []
  linkSessions := []
  blockedAddresses := []
  cursor := some (.token 0)

theorem findMerchant_freshDb (a : String) :
    (freshDb a).findMerchantByStellarAddress a = some ⟨0, ⟨0, by decide⟩⟩ := by
  simp [freshDb, Database.findMerchantByStellarAddress]

theorem storable_stroops {g e : ℕ} (hg : g < 2 ^ 63) (he : e ≤ 28)
    (hfit : (Numeric.ofDecimal ((g : ℚ) / 10 ^ e)).isSome) : Storable ((g : ℚ) / 10 ^ e) :=
  ⟨by positivity, representable_stroops hg e he, hfit⟩

/-- With the right order book a recordable operation is worth a storable amount. -/
theorem exists_storable (hop : op.Recordable W) (hl : op.Listed) :
    ∃ book applied gross, appliedRate W.decimal op none book = .ok applied ∧
      usdAmount W.decimal applied op.rawAmount = .ok (some gross) ∧ Storable gross := by
  obtain ⟨g, hg, hraw⟩ := hl.stroops
  have hparse := W.decimal.parse_plain _ _ hraw (representable_stroops hg 7 (by norm_num))
  by_cases hx : op.isXlm
  · -- a price so low that any amount of stroops fits
    have hrate : Representable ((1 : ℕ) / 10 ^ 7 : ℚ) := representable_stroops (by norm_num) 7 (by norm_num)
    have hprice : W.decimal.parse "0.0000001" = some ((1 : ℕ) / 10 ^ 7 : ℚ) :=
      W.decimal.parse_plain _ _ (by decide +kernel) hrate
    have hval : (g : ℚ) / 10 ^ 7 * ((1 : ℕ) / 10 ^ 7) = (g : ℚ) / 10 ^ 14 := by
      push_cast
      ring
    have hmul : W.decimal.mul ((g : ℚ) / 10 ^ 7) ((1 : ℕ) / 10 ^ 7) = some ((g : ℚ) / 10 ^ 14) := by
      have hr := representable_stroops hg 14 (by norm_num)
      rw [← hval] at hr ⊢
      exact (W.decimal.mul_faithful _ _).exact hr
    refine ⟨⟨["0.0000001"], []⟩, some ((1 : ℕ) / 10 ^ 7), (g : ℚ) / 10 ^ 14, ?_, ?_, ?_⟩
    · simp only [appliedRate, hx, if_true, OrderBook.xlmUsdcRate, bestPrice, List.head?_cons,
        List.head?_nil, hprice, orFail_some, ok_bind]
      rfl
    · simp only [usdAmount, hparse, orFail_some, ok_bind, hmul]
      rfl
    · apply storable_stroops hg (by norm_num)
      refine Numeric.isSome_ofDecimal_of_le (q := 10 ^ 10) (by positivity) ?_ (by decide +kernel)
      rw [div_le_iff₀ (by norm_num)]
      calc (g : ℚ) ≤ 2 ^ 63 := by exact_mod_cast hg.le
        _ ≤ 10 ^ 10 * 10 ^ 14 := by norm_num
  · obtain ⟨usd, husd, hfit⟩ := hop.2.resolve_left hx
    obtain rfl := Option.some.inj (hparse.symm.trans husd)
    refine ⟨⟨[], []⟩, none, (g : ℚ) / 10 ^ 7, ?_, ?_, storable_stroops hg (by norm_num) hfit⟩
    · simp only [appliedRate, hx]
      rfl
    · simp only [usdAmount, hparse]
      rfl

/-- A fresh watcher that is shown the operation gives it a row. -/
theorem exists_inserts (hop : op.Recordable W) (hl : op.Listed) :
    ∃ w₀ w w' a, w₀.proc = .down ∧ Reaches (World.step W) (fun _ => True) w₀ w ∧
      w.step W a = some w' ∧ w.history.ops = [op] ∧ Inserts w w' op := by
  obtain ⟨book, applied, gross, hrate, husd, hgross⟩ := exists_storable hop hl
  let db := freshDb W.merchantAddress
  let h : History := ⟨[op], List.pairwise_singleton _ _⟩
  let s : Session := ⟨⟨0, ⟨0, by decide⟩⟩, 0, 0, []⟩
  have hstart : W.step h db .down (.start 1) = some (db, .polling { s with pollsLeft := 1 }) :=
    Watcher.step_start_of_token (findMerchant_freshDb _) rfl
  have hpage : h.paymentsSince 0 1 pageLimit = [op] := by
    simp [h, History.paymentsSince, OrderedLog.after, hl.token_pos, pageLimit]
  have hpoll : W.step h db (.polling { s with pollsLeft := 1 }) (.poll 1) =
      some (db, .handling s op [] none) := by
    rw [Watcher.step_poll (k := 0) rfl]
    simp [hpage, s, Session.next]
  obtain ⟨id, db', recorded, -, hrec, hhandle⟩ := Watcher.exists_handleOp db 0 s [] hop.1
    hrate husd hgross (List.find?_cons_of_pos (by simp [s]))
    (.inr fun _ _ hs => by obtain ⟨p, hp, -⟩ := hs; simp [db, freshDb] at hp)
  refine ⟨⟨db, h, .down⟩, ⟨db, h, .handling s op [] none⟩, _, .watch (.handle 0 book), rfl, ?_,
    World.step_watch (Watcher.step_handle hhandle), rfl, List.mem_singleton_self op, ?_, ?_⟩
  · exact .head trivial (World.step_watch hstart) (.head trivial (World.step_watch hpoll) .refl)
  · rintro ⟨p, hp, -⟩
    simp [db, freshDb] at hp
  · exact (hasToken_of_recordPaymentIfNew hrec _).mpr (.inl rfl)

/-- The reconciler records only payments received exactly when the history holds
no recordable operation that is not one. -/
theorem records_only_received_iff {S : Set PaymentOp}
    (hS : ∀ op ∈ S, op.opType = "payment" → op.Listed) :
    RecordsOnlyReceived W S ↔ ∀ op ∈ S, op.Recordable W → op.Received W.merchantAddress := by
  constructor
  · intro hall op hop hrec
    obtain ⟨w₀, w, w', a, hdown, hrun, hs, hops, hins⟩ :=
      exists_inserts hrec (hS op hop hrec.1.1)
    exact hall w₀ w w' a op hdown hrun hs (by simpa [hops] using hop) hins
  · intro hall w₀ w w' a op hdown hrun hs hsub hins
    exact hall op (hsub op hins.1) (recordable_of_inserts hdown hrun hs hins)

theorem listed_examplePayment : (examplePayment 5 "7" "1.0000000").Listed :=
  ⟨by decide, 10000000, by norm_num, by decide +kernel⟩

/-- A history of one checkout payment holds nothing else. -/
theorem records_only_received_checkout :
    RecordsOnlyReceived exampleWatcher {examplePayment 5 "7" "1.0000000"} := by
  refine (records_only_received_iff ?_).mpr ?_
  · rintro op rfl -
    exact listed_examplePayment
  · rintro op rfl -
    exact rfl

/-- A cash-out of 25 USDC to the anchor, with the id memo the anchor asked for. -/
def exampleWithdrawal : Withdrawals.PaymentTx :=
  ⟨"GMERCHANT", "GANCHOR", .credit "USDC" usdcTestnetIssuer, "25.0000000", .id "8675309"⟩

def exampleWithdrawalOp : PaymentOp := exampleWithdrawal.horizonOp (fun _ => none) 5 "tx"

/-- The merchant's own cash-out becomes a paid row with a fee. -/
theorem records_withdrawal :
    Withdrawals.prepareWithdrawalTx (fun _ => true) true "GMERCHANT" "USDC"
        ⟨some "25.0000000", some "GANCHOR", some "8675309", some "id"⟩ = .ok exampleWithdrawal ∧
      ¬ RecordsOnlyReceived exampleWatcher {exampleWithdrawalOp} ∧
      ∃ w, exec (World.step exampleWatcher) exampleWorld
          [.arrive exampleWithdrawalOp, .watch (.start 1), .watch (.poll 1),
            .watch (.handle 0 ⟨[], []⟩)] = some w ∧
        w.db.payments.map (fun p => (p.pagingToken, p.status, p.amounts.feeUsdc.units)) =
          [(5, .paid, 250000)] := by
  have hprep : Withdrawals.prepareWithdrawalTx (fun _ => true) true "GMERCHANT" "USDC"
      ⟨some "25.0000000", some "GANCHOR", some "8675309", some "id"⟩ = .ok exampleWithdrawal := by
    decide +kernel
  have hid : parseU64 "8675309" = some 8675309 := by decide
  have hmatched : exampleWithdrawalOp.Matched exampleWatcher.muxedFromString :=
    (Withdrawals.matched_of_prepareWithdrawalTx _ hprep rfl rfl hid 5 "tx").1
  have hrec : exampleWithdrawalOp.Recordable exampleWatcher :=
    ⟨hmatched, .inr ⟨25, by decide +kernel, by decide +kernel⟩⟩
  have hlisted : exampleWithdrawalOp.Listed :=
    ⟨by decide, 250000000, by norm_num, by decide +kernel⟩
  refine ⟨hprep, fun hall => ?_, exists_exec_of_any (by decide +kernel)⟩
  obtain ⟨w₀, w, w', a, hdown, hrun, hs, hops, hins⟩ := exists_inserts hrec hlisted
  have hto : exampleWithdrawalOp.Received "GMERCHANT" :=
    hall w₀ w w' a _ hdown hrun hs (by simp [hops]) hins
  exact absurd hto (by decide)

end KonfirmBackend.Reconciler
