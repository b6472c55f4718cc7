import KonfirmBackend.Reconciler.CursorSafety
import Mathlib.Data.List.Nodup

/-!
# Completeness of the reconciler

A restarted watcher polls through what is left of the history, whatever the pages
Horizon serves it in. It gets to the end, with one row per operation, as long as
no two operations share a session id: the second one's INSERT violates the unique
index on `(merchant_id, muxed_id)`, which is an error, and every restart meets the
same operation first.

## Main definitions

- `restart` — the schedule of a restarted watcher
- `Complete` — every restart polls through and leaves one row per operation
- `SessionsDistinct` — the session ids are distinct and unused
- `Facts` — what holds in every reachable world

## Main results

- `exec_pollAll` — the schedule of a restart is enabled
- `complete_iff` — completeness is distinctness of the session ids
-/

namespace KonfirmBackend.Reconciler

open Transition OrderedLog

/-! ## The schedule of a restart -/

/-- The order book offers one of the rates in `R`. -/
def OrderBook.Quotes (D : RustDecimal) (R : Set ℚ) (book : OrderBook) : Prop :=
  ∃ r ∈ R, book.xlmUsdcRate D = .ok r

/-- What the database and Horizon answer while an operation is handled. -/
structure Answer where
  now : ℕ
  book : OrderBook

def handleAll (answers : List Answer) : List Action :=
  answers.flatMap fun a => [.watch (.handle a.now a.book), .watch .persist]

/-- One poll for each page; a page is given by the answers for its operations. -/
def pollAll (pages : List (List Answer)) : List Action :=
  pages.flatMap fun page => .watch (.poll page.length) :: handleAll page

def restart (pages : List (List Answer)) (idlePolls : ℕ) : List Action :=
  .watch (.start (pages.length + idlePolls)) :: pollAll pages

/-- Pages within Horizon's limit that hold `n` operations together. -/
structure Paging (W : Watcher) (R : Set ℚ) (n : ℕ) (pages : List (List Answer)) : Prop where
  quotes : ∀ page ∈ pages, ∀ a ∈ page, a.book.Quotes W.decimal R
  limit : ∀ page ∈ pages, page.length ≤ pageLimit
  total : (pages.map List.length).sum = n

/-- The process stands behind the last operation. -/
def World.PolledThrough (w : World) : Prop :=
  ∃ s, w.proc = .polling s ∧ after PaymentOp.pagingToken s.cursor w.history.ops = []

/-- Anything but a new operation. -/
def Quiet : Action → Prop
  | .arrive _ => False
  | _ => True

theorem quiet_watch (a : WatchAction) : Quiet (.watch a) := trivial

def Database.rowCount (db : Database) (t : ℕ) : ℕ := (db.payments.map Payment.pagingToken).count t

/-- From every world that crashes, failing calls and API writes can lead to, the
next restart polls through the history, however it is paged, and then each
operation has exactly one row. -/
def Complete (W : Watcher) (R : Set ℚ) (w₀ : World) : Prop :=
  ∀ w c, Reaches (World.step W) Quiet w₀ w → w.proc = .down → w.db.cursor = some (.token c) →
    ∀ pages idlePolls,
      Paging W R (after PaymentOp.pagingToken c w.history.ops).length pages →
      ∃ w', exec (World.step W) w (restart pages idlePolls) = some w' ∧ w'.PolledThrough ∧
        ∀ op ∈ w.history.ops, w'.db.rowCount op.pagingToken = 1

/-! ## The operations in question -/

/-- The rates that may be applied to the operation. -/
def PaymentOp.Applies (R : Set ℚ) (op : PaymentOp) (applied : Option ℚ) : Prop :=
  if op.isXlm then ∃ r ∈ R, applied = some r else applied = none

/-- A payment with a session id whose dollar value fits the column at every rate. -/
def PaymentOp.Payable (W : Watcher) (R : Set ℚ) (op : PaymentOp) : Prop :=
  op.Matched W.muxedFromString ∧ ∀ applied, op.Applies R applied →
    ∃ gross, usdAmount W.decimal applied op.rawAmount = .ok (some gross) ∧ Storable gross

/-- The two unique indexes of `payments`. -/
structure Database.UniqueKeys (db : Database) : Prop where
  tokens : (db.keys.map PaymentKey.pagingToken).Nodup
  sessions : (db.keys.map fun k => (k.merchantId, k.muxedId)).Nodup

/-- A stopped watcher with payable operations ahead of its cursor. -/
structure Ready (W : Watcher) (R : Set ℚ) (m : Merchant) (c : ℕ) (w₀ : World) : Prop where
  down : w₀.proc = .down
  cursor : w₀.db.cursor = some (.token c)
  merchant : w₀.db.findMerchantByStellarAddress W.merchantAddress = some m
  unique : w₀.db.UniqueKeys
  ahead : ∀ op ∈ w₀.history.ops, c < op.pagingToken
  payable : ∀ op ∈ w₀.history.ops, op.Payable W R
  fresh : ∀ op ∈ w₀.history.ops, ¬ w₀.db.HasToken op.pagingToken

/-- No session id occurs twice, and none has a row of the merchant yet. -/
def SessionsDistinct (W : Watcher) (m : Merchant) (w₀ : World) : Prop :=
  (w₀.history.ops.map (PaymentOp.sessionId W.muxedFromString)).Nodup ∧
  ∀ op ∈ w₀.history.ops, ∀ id, op.sessionId W.muxedFromString = some id →
    ¬ w₀.db.HasSession m.id id.toInt64

/-- The key of the row that an operation gets. -/
def RowOf (W : Watcher) (m : Merchant) (ops : List PaymentOp) (k : PaymentKey) : Prop :=
  ∃ op ∈ ops, ∃ id, op.sessionId W.muxedFromString = some id ∧
    k = ⟨op.pagingToken, m.id, id.toInt64⟩

/-- What holds in every world reachable from `w₀`. -/
structure Facts (W : Watcher) (m : Merchant) (w₀ w : World) : Prop where
  sound : w.Sound W
  history : w.history = w₀.history
  merchant : w.db.findMerchantByStellarAddress W.merchantAddress = some m
  process : ∀ m', w.proc.merchant = some m' → m' = m
  unique : w.db.UniqueKeys
  kept : ∀ k ∈ w₀.db.keys, k ∈ w.db.keys
  origin : ∀ k ∈ w.db.keys, k ∈ w₀.db.keys ∨ RowOf W m w₀.history.ops k

variable {W : Watcher} {R : Set ℚ} {m : Merchant} {c : ℕ} {w₀ w w' : World}

/-- A row with a fresh token and a fresh session id keeps the indexes unique. -/
theorem Database.UniqueKeys.concat {db db' : Database} {k : PaymentKey} (h : db.UniqueKeys)
    (hk : db'.keys = db.keys ++ [k]) (ht : ¬ db.HasToken k.pagingToken)
    (hs : ¬ db.HasSession k.merchantId k.muxedId) : db'.UniqueKeys := by
  rw [Database.hasToken_iff] at ht
  rw [Database.hasSession_iff] at hs
  constructor
  · rw [hk, List.map_append, List.map_singleton, ← List.concat_eq_append]
    apply h.tokens.concat
    rintro hmem
    obtain ⟨k', hk', heq⟩ := List.mem_map.mp hmem
    exact ht ⟨k', hk', heq⟩
  · rw [hk, List.map_append, List.map_singleton, ← List.concat_eq_append]
    apply h.sessions.concat
    rintro hmem
    obtain ⟨k', hk', heq⟩ := List.mem_map.mp hmem
    obtain ⟨hm, hi⟩ := Prod.mk.inj heq
    exact hs ⟨k', hk', hm, hi⟩

theorem Database.UniqueKeys.congr {db db' : Database} (h : db.UniqueKeys)
    (hk : db'.keys = db.keys) : db'.UniqueKeys :=
  ⟨by rw [hk]; exact h.tokens, by rw [hk]; exact h.sessions⟩

/-- The watched merchant is found again by its id. -/
theorem Database.exists_row_of_findMerchant {db : Database} {a : String}
    (h : db.findMerchantByStellarAddress a = some m) :
    ∃ row, db.merchants.find? (fun r => decide (r.id = m.id)) = some row := by
  obtain ⟨row, hrow, rfl⟩ := Option.map_eq_some_iff.mp h
  refine Option.isSome_iff_exists.mp (List.find?_isSome.mpr ⟨row, ?_, by simp⟩)
  exact List.mem_of_find?_eq_some hrow

theorem Ready.facts (hr : Ready W R m c w₀) : Facts W m w₀ w₀ where
  sound := World.sound_of_down hr.down
  history := rfl
  merchant := hr.merchant
  process m' hm' := by simp [hr.down, Proc.merchant] at hm'
  unique := hr.unique
  kept _ hk := hk
  origin _ hk := .inl hk

/-- Every step preserves the facts. -/
theorem Facts.step {a : Action} (h : Facts W m w₀ w) (ha : Quiet a)
    (hs : w.step W a = some w') : Facts W m w₀ w' := by
  have hsound := h.sound.step hs
  cases a with
  | watch a =>
    obtain ⟨⟨db', p'⟩, hstep, rfl⟩ := Option.map_eq_some_iff.mp hs
    have hmove := Watcher.move_of_step hstep
    have hmerchant := (Database.findMerchant_congr hmove.merchants_eq _).trans h.merchant
    have hprocess : ∀ m', p'.merchant = some m' → m' = m :=
      hmove.merchant_eq_of_found h.merchant h.process
    rcases hmove.keys_cases with hk | ⟨s, op, rest, cached, id, hp, hid, ht, hse, hk⟩
    · exact ⟨hsound, h.history, hmerchant, hprocess, h.unique.congr hk,
        fun k hmem => hk ▸ h.kept k hmem, fun k hmem => h.origin k (hk ▸ hmem)⟩
    · obtain rfl : s.merchant = m := h.process _ (by rw [hp]; rfl)
      have hop : op ∈ w₀.history.ops := h.history ▸ h.sound.mem_history hp
      refine ⟨hsound, h.history, hmerchant, hprocess, h.unique.concat hk ht hse, ?_, ?_⟩
      · intro k hmem
        exact hk ▸ List.mem_append_left _ (h.kept k hmem)
      · intro k hmem
        rcases List.mem_append.mp (hk ▸ hmem) with hmem | hmem
        · exact h.origin k hmem
        · exact .inr ⟨op, hop, id, hid, List.mem_singleton.mp hmem⟩
  | arrive op => exact absurd ha id
  | api e =>
    obtain rfl := Option.some.inj hs
    have hk := (w.db.api_frame e).1
    exact ⟨hsound, h.history, Database.findMerchant_api h.merchant e, h.process,
      h.unique.congr hk, fun k hmem => hk ▸ h.kept k hmem, fun k hmem => h.origin k (hk ▸ hmem)⟩

theorem Facts.run (h : Facts W m w₀ w) (hr : Reaches (World.step W) Quiet w w') :
    Facts W m w₀ w' := by
  apply hr.invariant h
  intro _ _ _ ha hf hs
  exact hf.step ha hs

theorem quiet_restart {pages : List (List Answer)} {idlePolls : ℕ} :
    ∀ a ∈ restart pages idlePolls, Quiet a := by
  intro a ha
  simp only [restart, pollAll, handleAll, List.mem_cons, List.mem_flatMap, List.not_mem_nil,
    or_false] at ha
  rcases ha with rfl | ⟨page, -, rfl | ⟨answer, -, rfl | rfl⟩⟩ <;> trivial

/-! ## Distinct session ids are enough -/

/-- The rate comes from this poll's cache or from the order book just asked. -/
theorem exists_appliedRate (op : PaymentOp) {cached : Option ℚ} {book : OrderBook}
    (hc : ∀ r, cached = some r → r ∈ R) (hb : book.Quotes W.decimal R) :
    ∃ applied, appliedRate W.decimal op cached book = .ok applied ∧ op.Applies R applied ∧
      ∀ r, applied.or cached = some r → r ∈ R := by
  by_cases hx : op.isXlm
  · cases cached with
    | none =>
      obtain ⟨r, hr, hrate⟩ := hb
      refine ⟨some r, ?_, ?_, ?_⟩
      · simp only [appliedRate, hx, if_true, hrate, ok_bind]
        rfl
      · rw [PaymentOp.Applies, if_pos hx]
        exact ⟨r, hr, rfl⟩
      · rintro r' h
        exact Option.some.inj h ▸ hr
    | some r =>
      refine ⟨some r, ?_, ?_, fun r' h => hc r' h⟩
      · simp only [appliedRate, hx, if_true]
        rfl
      · rw [PaymentOp.Applies, if_pos hx]
        exact ⟨r, hc r rfl, rfl⟩
  · refine ⟨none, ?_, ?_, fun r h => hc r h⟩
    · simp only [appliedRate, hx]
      rfl
    · rw [PaymentOp.Applies, if_neg hx]

/-- With distinct session ids, a session id that has a row belongs to an operation
that is recorded already. -/
theorem SessionsDistinct.free (hd : SessionsDistinct W m w₀) (hf : Facts W m w₀ w)
    {op : PaymentOp} (hop : op ∈ w₀.history.ops) :
    w.db.HasToken op.pagingToken ∨ ∀ id, op.sessionId W.muxedFromString = some id →
      ¬ w.db.HasSession m.id id.toInt64 := by
  by_contra! hcon
  obtain ⟨hnew, id, hid, hs⟩ := hcon
  obtain ⟨k, hk, hkm, hki⟩ := Database.hasSession_iff.mp hs
  rcases hf.origin k hk with hk₀ | ⟨op', hop', id', hid', rfl⟩
  · exact hd.2 op hop id hid (Database.hasSession_iff.mpr ⟨k, hk₀, hkm, hki⟩)
  · obtain rfl : id' = id := by
      rw [← UInt64.toUInt64_toInt64 id', ← UInt64.toUInt64_toInt64 id]
      exact congrArg _ hki
    obtain rfl : op' = op := List.inj_on_of_nodup_map hd.1 hop' hop (hid'.trans hid.symm)
    exact hnew (Database.hasToken_iff.mpr ⟨_, hk, rfl⟩)

/-- One operation is handled and the cursor persisted behind it. -/
theorem exec_handle_persist (hr : Ready W R m c w₀) (hd : SessionsDistinct W m w₀)
    (hf : Facts W m w₀ w) {s : Session} {op : PaymentOp} {rest : List PaymentOp}
    {cached : Option ℚ} (hp : w.proc = .handling s op rest cached)
    (hc : ∀ r, cached = some r → r ∈ R) {a : Answer} (ha : a.book.Quotes W.decimal R) :
    ∃ (w' : World) (s' : Session) (cached' : Option ℚ),
      exec (World.step W) w [.watch (.handle a.now a.book), .watch .persist] = some w' ∧
      Facts W m w₀ w' ∧ w'.proc = s'.next rest cached' ∧
      s'.cursor = op.pagingToken ∧ s'.pollsLeft = s.pollsLeft ∧
      (∀ r, cached' = some r → r ∈ R) ∧ w'.db.cursor = some (.token op.pagingToken) := by
  have hop : op ∈ w₀.history.ops := hf.history ▸ hf.sound.mem_history hp
  obtain rfl : s.merchant = m := hf.process _ (by rw [hp]; rfl)
  obtain ⟨applied, hrate, happ, hcache⟩ := exists_appliedRate op hc ha
  obtain ⟨hmatched, hpay⟩ := hr.payable op hop
  obtain ⟨gross, husd, hgross⟩ := hpay applied happ
  obtain ⟨row, hrow⟩ := Database.exists_row_of_findMerchant hf.merchant
  obtain ⟨id, db', recorded, -, -, hok⟩ := Watcher.exists_handleOp w.db a.now s rest
    hmatched hrate husd hgross hrow (hd.free hf hop)
  have hstep₁ : w.step W (.watch (.handle a.now a.book)) = some ⟨db', w.history,
      .recorded (s.spawnCheck op.payer recorded) op rest (applied.or cached)⟩ :=
    World.step_watch (by rw [hp]; exact Watcher.step_handle hok)
  have hstep₂ : World.step W ⟨db', w.history,
      .recorded (s.spawnCheck op.payer recorded) op rest (applied.or cached)⟩ (.watch .persist) =
      some ⟨db'.setCursor (.token op.pagingToken), w.history,
        ((s.spawnCheck op.payer recorded).advance op).next rest (applied.or cached)⟩ := rfl
  refine ⟨_, (s.spawnCheck op.payer recorded).advance op, applied.or cached,
    (exec_cons_of_step hstep₁).trans (exec_cons_of_step hstep₂),
    (hf.step (quiet_watch _) hstep₁).step (quiet_watch _) hstep₂, rfl, rfl, ?_, hcache, rfl⟩
  exact Session.pollsLeft_spawnCheck s op.payer recorded

/-- A whole page is handled. -/
theorem exec_handleAll (hr : Ready W R m c w₀) (hd : SessionsDistinct W m w₀)
    (page : List PaymentOp) : ∀ {w : World} {s : Session} {cached : Option ℚ}
      {rest : List PaymentOp} {answers : List Answer}, Facts W m w₀ w →
      w.proc = s.next page cached → (∀ r, cached = some r → r ∈ R) →
      (∀ a ∈ answers, a.book.Quotes W.decimal R) → answers.length = page.length →
      w.db.cursor = some (.token s.cursor) →
      after PaymentOp.pagingToken s.cursor w₀.history.ops = page ++ rest →
      ∃ (w' : World) (s' : Session), exec (World.step W) w (handleAll answers) = some w' ∧ Facts W m w₀ w' ∧
        w'.proc = .polling s' ∧ s'.pollsLeft = s.pollsLeft ∧
        w'.db.cursor = some (.token s'.cursor) ∧
        after PaymentOp.pagingToken s'.cursor w₀.history.ops = rest := by
  induction page with
  | nil =>
    intro w s cached rest answers hf hp hc ha hlen hcur hrest
    obtain rfl := List.length_eq_zero_iff.mp hlen
    exact ⟨w, s, rfl, hf, hp, rfl, hcur, hrest⟩
  | cons op page ih =>
    intro w s cached rest answers hf hp hc ha hlen hcur hrest
    obtain ⟨a, answers, rfl⟩ := List.exists_cons_of_length_eq_add_one hlen
    obtain ⟨w₁, s₁, cached₁, hexec₁, hf₁, hp₁, hs₁, hk₁, hc₁, hcur₁⟩ :=
      exec_handle_persist hr hd hf hp hc (ha a List.mem_cons_self)
    have hrest₁ : after PaymentOp.pagingToken s₁.cursor w₀.history.ops = page ++ rest := by
      rw [hs₁]
      exact after_of_cons w₀.history.ordered hrest
    obtain ⟨w', s', hexec, hf', hp', hk', hcur', hrest'⟩ := ih hf₁ hp₁ hc₁
      (fun b hb => ha b (List.mem_cons_of_mem _ hb)) (Nat.succ.inj hlen) (hs₁ ▸ hcur₁) hrest₁
    refine ⟨w', s', ?_, hf', hp', hk'.trans hk₁, hcur', hrest'⟩
    exact (exec_append_of_exec hexec₁).trans hexec

/-- All polls of a restart. -/
theorem exec_pollAll (hr : Ready W R m c w₀) (hd : SessionsDistinct W m w₀)
    (pages : List (List Answer)) : ∀ {w : World} {s : Session} {idlePolls : ℕ},
      Facts W m w₀ w → w.proc = .polling s → s.pollsLeft = pages.length + idlePolls →
      w.db.cursor = some (.token s.cursor) →
      Paging W R (after PaymentOp.pagingToken s.cursor w₀.history.ops).length pages →
      ∃ (w' : World) (s' : Session), exec (World.step W) w (pollAll pages) = some w' ∧ Facts W m w₀ w' ∧
        w'.proc = .polling s' ∧ w'.db.cursor = some (.token s'.cursor) ∧
        after PaymentOp.pagingToken s'.cursor w₀.history.ops = [] := by
  induction pages with
  | nil =>
    intro w s idlePolls hf hp hk hcur hpg
    exact ⟨w, s, rfl, hf, hp, hcur, List.length_eq_zero_iff.mp hpg.total.symm⟩
  | cons page pages ih =>
    intro w s idlePolls hf hp hk hcur hpg
    let left := after PaymentOp.pagingToken s.cursor w₀.history.ops
    have htotal : page.length + (pages.map List.length).sum = left.length := hpg.total
    have hk' : s.pollsLeft = (pages.length + idlePolls) + 1 := by
      rw [hk, List.length_cons]
      omega
    have hpage : w.history.paymentsSince s.cursor page.length pageLimit = left.take page.length := by
      rw [hf.history, History.paymentsSince,
        min_eq_left (hpg.limit page List.mem_cons_self)]
    have hstep : w.step W (.watch (.poll page.length)) = some ⟨w.db, w.history,
        ({ s with pollsLeft := pages.length + idlePolls } : Session).next
          (left.take page.length) none⟩ :=
      World.step_watch (by rw [hp, Watcher.step_poll hk', hpage])
    have hf₁ := hf.step (quiet_watch _) hstep
    obtain ⟨w₂, s₂, hexec₂, hf₂, hp₂, hk₂, hcur₂, hrest₂⟩ :=
      exec_handleAll hr hd (left.take page.length) hf₁ rfl (by simp)
        (hpg.quotes page List.mem_cons_self)
        (by rw [List.length_take]; omega) hcur (List.take_append_drop _ _).symm
    have hpg₂ : Paging W R (after PaymentOp.pagingToken s₂.cursor w₀.history.ops).length pages := by
      refine ⟨fun p hp => hpg.quotes p (List.mem_cons_of_mem _ hp),
        fun p hp => hpg.limit p (List.mem_cons_of_mem _ hp), ?_⟩
      rw [hrest₂, List.length_drop]
      exact Nat.eq_sub_of_add_eq' htotal
    obtain ⟨w', s', hexec, hf', hp', hcur', hrest'⟩ := ih hf₂ hp₂ hk₂ hcur₂ hpg₂
    refine ⟨w', s', ?_, hf', hp', hcur', hrest'⟩
    calc exec (World.step W) w (pollAll (page :: pages))
        = exec (World.step W) _ (handleAll page ++ pollAll pages) := exec_cons_of_step hstep
      _ = exec (World.step W) w₂ (pollAll pages) := exec_append_of_exec hexec₂
      _ = some w' := hexec

theorem Database.UniqueKeys.rowCount {db : Database} {t : ℕ} (h : db.UniqueKeys)
    (ht : db.HasToken t) : db.rowCount t = 1 := by
  have htokens : db.keys.map PaymentKey.pagingToken = db.payments.map Payment.pagingToken := by
    rw [Database.keys, List.map_map]
    rfl
  have hnodup := h.tokens
  rw [htokens] at hnodup
  obtain ⟨p, hp, rfl⟩ := ht
  exact List.count_eq_one_of_mem hnodup (List.mem_map_of_mem hp)

theorem complete_of_distinct (hr : Ready W R m c w₀) (hd : SessionsDistinct W m w₀) :
    Complete W R w₀ := by
  intro w c' hreach hdown hcur pages idlePolls hpg
  have hf := hr.facts.run hreach
  have hstart : w.step W (.watch (.start (pages.length + idlePolls))) =
      some ⟨w.db, w.history, .polling ⟨m, pages.length + idlePolls, c', []⟩⟩ :=
    World.step_watch (by rw [hdown]; exact Watcher.step_start_of_token hf.merchant hcur)
  obtain ⟨w', s', hexec, hf', hp', hcur', hrest⟩ := exec_pollAll hr hd pages
    (hf.step (quiet_watch _) hstart) rfl rfl hcur (hf.history ▸ hpg)
  have hrun : exec (World.step W) w (restart pages idlePolls) = some w' :=
    (exec_cons_of_step hstart).trans hexec
  refine ⟨w', hrun, ⟨s', hp', hf'.history ▸ hrest⟩, fun op hop => ?_⟩
  rw [hf.history] at hop
  -- the persisted cursor has passed every operation, so each is recorded
  obtain ⟨p, hp⟩ := hr.facts.sound.since hr.cursor
    (hreach.trans (.of_exec quiet_restart hrun))
  obtain rfl : p = s'.cursor := by
    have := Database.cursor_of_position hp.persisted
    simpa using this.symm.trans hcur'
  refine hf'.unique.rowCount (hp.covered op ?_ (hr.payable op hop).1 (hr.ahead op hop) ?_)
  · change op ∈ w'.history.ops
    rwa [hf'.history]
  · exact after_eq_nil_iff.mp hrest op hop

/-! ## Distinct session ids are necessary -/

/-- A row for an operation is its own row: with its session id. -/
theorem Facts.mem_keys (hr : Ready W R m c w₀) (hf : Facts W m w₀ w) {op : PaymentOp}
    (hop : op ∈ w₀.history.ops) (ht : w.db.HasToken op.pagingToken) :
    ∃ id, op.sessionId W.muxedFromString = some id ∧
      ⟨op.pagingToken, m.id, id.toInt64⟩ ∈ w.db.keys := by
  obtain ⟨k, hk, hkt⟩ := Database.hasToken_iff.mp ht
  rcases hf.origin k hk with hk₀ | ⟨op', hop', id, hid, rfl⟩
  · exact absurd (Database.hasToken_iff.mpr ⟨k, hk₀, hkt⟩) (hr.fresh op hop)
  · obtain rfl : op' = op := w₀.history.ordered.eq_of_key_eq hop' hop hkt
    exact ⟨id, hid, hk⟩

/-- Once every operation has a row, the index on `(merchant_id, muxed_id)` tells
them apart. -/
theorem Facts.distinct (hr : Ready W R m c w₀) (hf : Facts W m w₀ w)
    (hrows : ∀ op ∈ w₀.history.ops, w.db.HasToken op.pagingToken) : SessionsDistinct W m w₀ := by
  have hinj := List.inj_on_of_nodup_map hf.unique.sessions
  constructor
  · apply w₀.history.nodup.map_on
    intro x hx y hy hxy
    obtain ⟨id, hid, hk⟩ := hf.mem_keys hr hx (hrows x hx)
    obtain ⟨id', hid', hk'⟩ := hf.mem_keys hr hy (hrows y hy)
    obtain rfl : id = id' := Option.some.inj (hid.symm.trans (hxy.trans hid'))
    have hkey := hinj hk hk' rfl
    exact w₀.history.ordered.eq_of_key_eq hx hy (congrArg PaymentKey.pagingToken hkey)
  · intro op hop id hid hs
    obtain ⟨id', hid', hk⟩ := hf.mem_keys hr hop (hrows op hop)
    obtain rfl : id = id' := Option.some.inj (hid.symm.trans hid')
    obtain ⟨k₀, hk₀, hm, hi⟩ := Database.hasSession_iff.mp hs
    have hkey := hinj (hf.kept k₀ hk₀) hk (Prod.ext hm hi)
    exact hr.fresh op hop (Database.hasToken_iff.mpr
      ⟨k₀, hk₀, congrArg PaymentKey.pagingToken hkey⟩)

/-- One operation to a page. -/
theorem paging_singles {book : OrderBook} (hb : book.Quotes W.decimal R) (n : ℕ) :
    Paging W R n (List.replicate n [⟨0, book⟩]) where
  quotes page hp a ha := by
    obtain rfl := List.eq_of_mem_replicate hp
    obtain rfl := List.mem_singleton.mp ha
    exact hb
  limit page hp := by
    obtain rfl := List.eq_of_mem_replicate hp
    simp [pageLimit]
  total := by simp

theorem distinct_of_complete (hr : Ready W R m c w₀) {book : OrderBook}
    (hb : book.Quotes W.decimal R) (hall : Complete W R w₀) : SessionsDistinct W m w₀ := by
  obtain ⟨w, hexec, -, hrows⟩ :=
    hall w₀ c .refl hr.down hr.cursor _ 0 (paging_singles hb _)
  apply (hr.facts.run (.of_exec quiet_restart hexec)).distinct hr
  intro op hop
  have hcount : 0 < w.db.rowCount op.pagingToken := by
    rw [hrows op hop]
    exact one_pos
  obtain ⟨p, hp, htok⟩ := List.mem_map.mp (List.count_pos_iff.mp hcount)
  exact ⟨p, hp, htok⟩

/-- The reconciler is complete exactly when the session ids of the operations are
distinct and not used by another payment of the merchant. -/
theorem complete_iff (hr : Ready W R m c w₀) (hbook : ∃ book : OrderBook, book.Quotes W.decimal R) :
    Complete W R w₀ ↔ SessionsDistinct W m w₀ := by
  obtain ⟨book, hb⟩ := hbook
  exact ⟨distinct_of_complete hr hb, complete_of_distinct hr⟩

theorem payable_examplePayment {t : ℕ} {memo amount : String} {q : ℚ}
    (hmemo : (parseU64 memo).isSome) (hq : RustDecimal.truncating.parse amount = some q)
    (hs : Storable q) : (examplePayment t memo amount).Payable exampleWatcher R := by
  have hid : (examplePayment t memo amount).memoId = parseU64 memo := rfl
  refine ⟨⟨rfl, ?_⟩, ?_⟩
  · obtain ⟨id, hm⟩ := Option.isSome_iff_exists.mp hmemo
    rw [PaymentOp.sessionId_of_memoId _ (hid.trans hm)]
    rfl
  · rintro applied happ
    obtain rfl : applied = none := happ
    exact ⟨q, congrArg Except.ok hq, hs⟩

/-- The example world with two payments under the given memos. -/
def twoPaymentsWorld (memo memo' : String) : World :=
  ⟨exampleDb, ⟨[examplePayment 5 memo "1.0000000", examplePayment 6 memo' "1.0000000"],
    by simp [OrderedLog.Ordered, examplePayment]⟩, .down⟩

/-- Two payments with two memos. -/
theorem complete_two_memos : Complete exampleWatcher {1} (twoPaymentsWorld "7" "8") := by
  have hready : Ready exampleWatcher {1} exampleMerchant 0 (twoPaymentsWorld "7" "8") := by
    refine ⟨rfl, rfl, by decide, ⟨List.nodup_nil, List.nodup_nil⟩, ?_, ?_, ?_⟩
    · decide
    · simp only [twoPaymentsWorld, List.mem_cons, List.not_mem_nil, or_false]
      rintro op (rfl | rfl)
      · exact payable_examplePayment (by decide) (by decide +kernel) storable_one
      · exact payable_examplePayment (by decide) (by decide +kernel) storable_one
    · decide
  refine (complete_iff hready ⟨⟨["1"], []⟩, 1, rfl, by decide +kernel⟩).mpr ⟨by decide, ?_⟩
  rintro op - id - ⟨p, hp, -⟩
  exact absurd hp List.not_mem_nil

/-- The same memo paid twice: the second payment stops the process, and every
restart stops there again. -/
theorem not_complete_same_memo :
    ¬ Complete exampleWatcher {1} (twoPaymentsWorld "7" "7") ∧
      ∃ w, exec (World.step exampleWatcher) (twoPaymentsWorld "7" "7")
          [.watch (.start 20), .watch (.poll 2), .watch (.handle 0 ⟨["1"], []⟩), .watch .persist,
            .watch (.handle 0 ⟨["1"], []⟩)] = some w ∧
        w.proc = .down ∧ w.db.cursor = some (.token 5) ∧
        exec (World.step exampleWatcher) w
          [.watch (.start 20), .watch (.poll 1), .watch (.handle 0 ⟨["1"], []⟩)] = some w := by
  refine ⟨fun hall => ?_, ?_⟩
  · have hstuck : exec (World.step exampleWatcher) (twoPaymentsWorld "7" "7")
        (restart [[⟨0, ⟨["1"], []⟩⟩, ⟨0, ⟨["1"], []⟩⟩]] 0) = none := by decide +kernel
    obtain ⟨w, hexec, -⟩ := hall _ 0 .refl rfl rfl [[⟨0, ⟨["1"], []⟩⟩, ⟨0, ⟨["1"], []⟩⟩]] 0
      ⟨by
        simp only [List.mem_singleton]
        rintro page rfl a ha
        obtain rfl : a = ⟨0, ⟨["1"], []⟩⟩ := by simpa using ha
        exact ⟨1, rfl, by decide +kernel⟩, by decide, by decide⟩
    exact absurd (hstuck.symm.trans hexec) (by simp)
  · exact exists_exec_of_any (by decide +kernel)

end KonfirmBackend.Reconciler
