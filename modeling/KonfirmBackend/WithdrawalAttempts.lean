import KonfirmBackend.Lib.FirstWrite
import KonfirmBackend.Lib.Mirror
import KonfirmBackend.Lib.Transition
import KonfirmBackend.Withdrawals

/-!
# What the admins see of cash-outs

The status of a cash-out lives at the anchor. `withdrawal_attempts` has a row for each one
that `start` has heard of, and a list of the rows asks the anchor again for those that are not
in a terminal status and have not been polled in the last ten seconds. Lists overlap: each of
their refreshes is on its own, with up to three requests, and writes what it has been told
when the answer arrives.

## Main definitions

- `WithdrawalAttempt`, `Desk`, `Desk.step` — the rows, the calls and the anchor
- `AnchorSound` — the anchor tells the truth, and its terminal statuses stay
- `Desk.mirror` — the rows as copies of what the anchor holds

## Main results

- `polls_of_step`, `serves_of_step` — the rows mirror the anchor
- `attempts_faithful` — one transaction of the anchor for each row, with its terminal status
- `attempts_settle` — after the anchor has ended a transaction, every update says so
- `terminal_for_good` — a terminal row that nobody refreshes stays as it is
-/

namespace KonfirmBackend.Withdrawals

open FirstWrite Transition

def TERMINAL_STATUSES : List String := ["completed", "error", "expired", "refunded"]

/-- The list of `AdminStatsService`. -/
def TERMINAL_WITHDRAWAL_STATUSES : List String := ["completed", "error", "expired", "refunded"]

def RECENT_POLL_WINDOW_MS : ℕ := 10000

/-- The default of `fetchWithRetry`. -/
def STATUS_RETRIES : ℕ := 2

/-- A `withdrawal_attempts` row. -/
structure WithdrawalAttempt where
  id : ℕ
  merchantId : ℕ
  currency : String
  anchorTxId : String
  token : String
  lastStatus : Option String
  lastPolledAt : Option ℕ
  createdAt : ℕ
deriving DecidableEq

namespace WithdrawalAttempt

def isTerminal (row : WithdrawalAttempt) : Bool :=
  row.lastStatus.any fun s => TERMINAL_STATUSES.elem s

def recentlyPolled (row : WithdrawalAttempt) (now : ℕ) : Bool :=
  row.lastPolledAt.any fun t => decide (now < t + RECENT_POLL_WINDOW_MS)

/-- `last_status IS NULL OR last_status != ALL($1)`. -/
def isOpen (row : WithdrawalAttempt) : Bool :=
  row.lastStatus.all fun s => TERMINAL_WITHDRAWAL_STATUSES.all fun t => s ≠ t

end WithdrawalAttempt

/-- The anchor's record, as far as it matters here. -/
structure AnchorTransaction where
  id : String
  assetCode : String
  account : Option String
  status : String
deriving DecidableEq

inductive StartPhase
  | posting
  /-- the anchor has answered with this id, or with none -/
  | inserting (id : Option String)
  | returned (id : Option String)
  | failed
deriving DecidableEq

/-- A call of `start`; `transaction` is what the anchor has opened for its one POST. -/
structure StartCall where
  merchantId : ℕ
  currency : String
  token : String
  account : Option String
  transaction : Option String
  phase : StartPhase
deriving DecidableEq

inductive RefreshPhase
  | asking (attempt : ℕ)
  | answered (attempt : ℕ) (status : Option String)
deriving DecidableEq

/-- `refreshIfStale` past its checks, with the row as the list has read it. -/
structure Refresh where
  row : WithdrawalAttempt
  phase : RefreshPhase
deriving DecidableEq

/-- The clock counts milliseconds. -/
structure Desk where
  clock : ℕ
  anchor : List AnchorTransaction
  attempts : List WithdrawalAttempt
  starts : List StartCall
  refreshes : List Refresh
deriving DecidableEq

def Desk.start (clock : ℕ) : Desk := ⟨clock, [], [], [], []⟩

inductive DeskAction
  | tick (milliseconds : ℕ)
  /-- the anchor goes on with a transaction -/
  | anchorMoves (txId status : String)
  | start (merchantId : ℕ) (currency token : String) (account : Option String)
  /-- the POST of a call is processed, even after the call has given up -/
  | opens (n : ℕ) (txId status : String)
  | responds (n : ℕ) (id : Option String)
  | startFails (n : ℕ)
  | inserts (n rowId : ℕ)
  | insertFails (n : ℕ)
  | list
  /-- the anchor's answer to the GET of a refresh sets out -/
  | answers (n : ℕ) (status : Option String)
  /-- the GET is made again -/
  | retries (n : ℕ)
  /-- the refresh gives up, or its UPDATE fails -/
  | drops (n : ℕ)
  | updates (n : ℕ)
deriving DecidableEq

/-- The asset code of SEP-24. -/
def assetCodeOf (currency : String) : String := if currency = "XLM" then "native" else currency

def StartCall.row (c : StartCall) (anchorTxId : String) (rowId now : ℕ) : WithdrawalAttempt where
  id := rowId
  merchantId := c.merchantId
  currency := c.currency
  anchorTxId := anchorTxId
  token := c.token
  lastStatus := none
  lastPolledAt := none
  createdAt := now

namespace Desk

/-- `UPDATE withdrawal_attempts SET last_status = $2, last_polled_at = NOW() WHERE id = $1`. -/
def updateStatus (rows : List WithdrawalAttempt) (id : ℕ) (status : Option String) (now : ℕ) :
    List WithdrawalAttempt :=
  rows.map fun row =>
    if row.id = id then { row with lastStatus := status, lastPolledAt := some now } else row

def step (w : Desk) : DeskAction → Option Desk
  | .tick ms => some { w with clock := w.clock + ms }
  | .anchorMoves txId status => some { w with
      anchor := w.anchor.map fun t => if t.id = txId then { t with status := status } else t }
  | .start merchantId currency token account => some { w with
      starts := w.starts ++ [⟨merchantId, currency, token, account, none, .posting⟩] }
  | .opens n txId status => do
    let c ← w.starts[n]?
    if c.transaction.isSome ∨ ∃ t ∈ w.anchor, t.id = txId then none
    else some { w with
      anchor := w.anchor ++ [⟨txId, assetCodeOf c.currency, c.account, status⟩]
      starts := w.starts.set n { c with transaction := some txId } }
  | .responds n id => do
    let c ← w.starts[n]?
    if c.phase = .posting then
      some { w with starts := w.starts.set n { c with phase := .inserting id } }
    else none
  | .startFails n => do
    let c ← w.starts[n]?
    if c.phase = .posting then
      some { w with starts := w.starts.set n { c with phase := .failed } }
    else none
  | .inserts n rowId => do
    let c ← w.starts[n]?
    match c.phase with
    | .inserting (some id) =>
      if ∃ row ∈ w.attempts, row.id = rowId then none
      else some { w with
        attempts := w.attempts ++ [c.row id rowId w.clock]
        starts := w.starts.set n { c with phase := .returned (some id) } }
    | _ => none
  | .insertFails n => do
    let c ← w.starts[n]?
    match c.phase with
    | .inserting id => some { w with starts := w.starts.set n { c with phase := .returned id } }
    | _ => none
  | .list => some { w with refreshes := w.refreshes ++
      (w.attempts.filter fun row => !(row.isTerminal || row.recentlyPolled w.clock)).map fun row =>
        ⟨row, .asking 0⟩ }
  | .answers n status => do
    let r ← w.refreshes[n]?
    match r.phase with
    | .asking attempt =>
      some { w with refreshes := w.refreshes.set n { r with phase := .answered attempt status } }
    | .answered .. => none
  | .retries n => do
    let r ← w.refreshes[n]?
    match r.phase with
    | .asking attempt | .answered attempt _ =>
      if attempt < STATUS_RETRIES then
        some { w with refreshes := w.refreshes.set n { r with phase := .asking (attempt + 1) } }
      else none
  | .drops n => (w.refreshes[n]?).map fun _ => { w with refreshes := w.refreshes.eraseIdx n }
  | .updates n => do
    let r ← w.refreshes[n]?
    match r.phase with
    | .asking _ => none
    | .answered _ status => some { w with
        attempts := updateStatus w.attempts r.row.id status w.clock
        refreshes := w.refreshes.eraseIdx n }

end Desk

/-- What SEP-24 says of an anchor: it answers with what it holds, and a terminal status is the
last one. -/
def AnchorSound (e : Desk × DeskAction × Desk) : Prop :=
  match e.2.1 with
  | .anchorMoves txId status => ∀ t ∈ e.1.anchor, t.id = txId → t.status ∈ TERMINAL_STATUSES →
      status = t.status
  | .responds n id => ∀ c ∈ e.1.starts[n]?, c.transaction.isSome ∧ id = c.transaction
  | .answers n status => ∀ r ∈ e.1.refreshes[n]?,
      ∃ t ∈ e.1.anchor, t.id = r.row.anchorTxId ∧ status = some t.status
  | _ => True

instance : ∀ e : Desk × DeskAction × Desk, Decidable (AnchorSound e)
  | (w, .anchorMoves _ _, _) => inferInstanceAs (Decidable (∀ t ∈ w.anchor, _ → _))
  | (w, .responds n _, _) => inferInstanceAs (Decidable (∀ c ∈ w.starts[n]?, _))
  | (w, .answers n _, _) => inferInstanceAs (Decidable (∀ r ∈ w.refreshes[n]?, _))
  | (_, .tick _, _) | (_, .start .., _) | (_, .opens .., _) | (_, .startFails _, _)
  | (_, .inserts .., _) | (_, .insertFails _, _) | (_, .list, _) | (_, .retries _, _)
  | (_, .drops _, _) | (_, .updates _, _) => inferInstanceAs (Decidable True)

/-- The two services have one list of terminal statuses. -/
theorem WithdrawalAttempt.isOpen_eq (row : WithdrawalAttempt) : row.isOpen = !row.isTerminal := by
  cases hstatus : row.lastStatus with
  | none => simp [isOpen, isTerminal, hstatus]
  | some s => simp [isOpen, isTerminal, hstatus, TERMINAL_STATUSES, TERMINAL_WITHDRAWAL_STATUSES]

theorem WithdrawalAttempt.isTerminal_iff {row : WithdrawalAttempt} :
    row.isTerminal = true ↔ ∃ s, row.lastStatus = some s ∧ s ∈ TERMINAL_STATUSES := by
  simp [isTerminal, Option.any_eq_true]

/-! ## The rows as copies -/

namespace Desk

def row (w : Desk) (id : ℕ) : Option WithdrawalAttempt := lookup WithdrawalAttempt.id id w.attempts

/-- What the anchor holds for a transaction. -/
def statusAt (w : Desk) (txId : String) : Option String :=
  (lookup AnchorTransaction.id txId w.anchor).map AnchorTransaction.status

/-- The rows by their ids. -/
def mirror (w : Desk) : Mirror ℕ String where
  value id := (w.row id).bind fun row => w.statusAt row.anchorTxId
  copy id := (w.row id).bind WithdrawalAttempt.lastStatus
  asked id := ∃ r ∈ w.refreshes, r.row.id = id ∧ ∃ n, r.phase = .asking n
  answered id status := ∃ r ∈ w.refreshes, r.row.id = id ∧ ∃ n, r.phase = .answered n status

def IsFinal (s : String) : Prop := s ∈ TERMINAL_STATUSES

/-- The keys of the tables, and that a refresh works on a row. -/
structure Keyed (w : Desk) : Prop where
  rows : (w.attempts.map WithdrawalAttempt.id).Nodup
  anchor : (w.anchor.map AnchorTransaction.id).Nodup
  refreshes : ∀ r ∈ w.refreshes, ∃ row, w.row r.row.id = some row ∧
    row.anchorTxId = r.row.anchorTxId

variable {w v : Desk} {l : DeskAction}

/-- What an UPDATE does to the rows. -/
theorem row_of_updates {n : ℕ} {r : Refresh} (h : w.step (.updates n) = some v)
    (hr : w.refreshes[n]? = some r) (id : ℕ) :
    ∃ attempt status, r.phase = .answered attempt status ∧
      v.row id = if r.row.id = id then (w.row id).map fun row =>
        { row with lastStatus := status, lastPolledAt := some w.clock } else w.row id := by
  obtain ⟨r', hr', h⟩ := Option.bind_eq_some_iff.mp h
  obtain rfl : r = r' := Option.some.inj (hr.symm.trans hr')
  split at h
  · cases h
  case h_2 attempt status hphase =>
    cases h
    refine ⟨attempt, status, hphase, ?_⟩
    have hmap : (updateStatus w.attempts r.row.id status w.clock).find?
        (fun row => decide (row.id = id)) = (w.row id).map fun row =>
          if row.id = r.row.id then
            { row with lastStatus := status, lastPolledAt := some w.clock }
          else row :=
      lookup_map (fun row => by split <;> rfl) id w.attempts
    refine hmap.trans ?_
    by_cases hid : r.row.id = id
    · rw [if_pos hid]
      refine Option.map_congr fun row hrow => ?_
      rw [if_pos ((mem_of_lookup hrow).2.trans hid.symm)]
    · rw [if_neg hid]
      cases hrow : w.row id with
      | none => rfl
      | some row =>
        have hne : row.id ≠ r.row.id := by
          rw [(mem_of_lookup hrow).2]
          exact Ne.symm hid
        rw [Option.map_some, if_neg hne]

/-- What a step does to the rows: it updates one with what a refresh has been told, or inserts
one that has not been polled. -/
theorem row_of_step (h : w.step l = some v) (id : ℕ) :
    v.row id = w.row id ∨
    (w.row id = none ∧ ∃ c ∈ w.starts, ∃ txId, c.phase = .inserting (some txId) ∧
      v.row id = some (c.row txId id w.clock)) ∨
    ∃ n r attempt status, l = .updates n ∧ w.refreshes[n]? = some r ∧ r.row.id = id ∧
      r.phase = .answered attempt status ∧ v.row id = (w.row id).map fun row =>
        { row with lastStatus := status, lastPolledAt := some w.clock } := by
  cases l with
  | inserts n rowId =>
    obtain ⟨c, hc, h⟩ := Option.bind_eq_some_iff.mp h
    split at h
    case h_1 txId hphase =>
      split at h
      · cases h
      case isFalse hfresh =>
        cases h
        have hnone : lookup WithdrawalAttempt.id rowId w.attempts = none := by
          rw [lookup_eq_none_iff]
          exact fun row hrow hid => hfresh ⟨row, hrow, hid⟩
        by_cases hid : rowId = id
        · subst hid
          refine .inr (.inl ⟨hnone, c, List.mem_of_getElem? hc, txId, hphase, ?_⟩)
          rw [row, lookup_append, hnone, Option.none_or]
          exact List.find?_cons_of_pos (by simp [StartCall.row])
        · refine .inl ?_
          have hother : lookup WithdrawalAttempt.id id [c.row txId rowId w.clock] = none := by
            rw [lookup_eq_none_iff]
            intro row hrow
            rw [List.mem_singleton.mp hrow]
            exact hid
          rw [row, lookup_append, hother, Option.or_none]
          rfl
    · cases h
  | updates n =>
    obtain ⟨r, hr, -⟩ := Option.bind_eq_some_iff.mp h
    obtain ⟨attempt, status, hphase, hrow⟩ := row_of_updates h hr id
    by_cases hid : r.row.id = id
    · rw [if_pos hid] at hrow
      exact .inr (.inr ⟨n, r, attempt, status, rfl, hr, hid, hphase, hrow⟩)
    · rw [if_neg hid] at hrow
      exact .inl hrow
  | opens n txId status | responds n id | startFails n | insertFails n | answers n status
  | retries n =>
    obtain ⟨c, -, h⟩ := Option.bind_eq_some_iff.mp h
    split at h <;> try split at h
    all_goals cases h
    all_goals exact .inl rfl
  | drops n =>
    obtain ⟨r, -, rfl⟩ := Option.map_eq_some_iff.mp h
    exact .inl rfl
  | tick ms | anchorMoves txId status | start merchantId currency token account | list =>
    cases h
    exact .inl rfl

/-- What a step does to what the anchor holds: it goes on with a transaction, or opens one. -/
theorem statusAt_of_step (h : w.step l = some v) (txId : String) :
    v.statusAt txId = w.statusAt txId ∨ w.statusAt txId = none ∨
      ∃ status, l = .anchorMoves txId status ∧
        v.statusAt txId = (w.statusAt txId).map fun _ => status := by
  cases l with
  | anchorMoves txId' status =>
    cases h
    have hmap := lookup_map (f := fun t : AnchorTransaction =>
        if t.id = txId' then { t with status := status } else t)
      (fun t => show AnchorTransaction.id _ = t.id by split <;> rfl) txId w.anchor
    simp only [statusAt, hmap]
    cases ht : lookup AnchorTransaction.id txId w.anchor with
    | none => exact .inl rfl
    | some t =>
      have hid : t.id = txId := (mem_of_lookup ht).2
      by_cases heq : txId = txId'
      · subst heq
        exact .inr (.inr ⟨status, rfl, by simp [hid]⟩)
      · exact .inl (by simp [hid, heq])
  | opens n txId' status =>
    obtain ⟨c, hc, h⟩ := Option.bind_eq_some_iff.mp h
    split at h <;> cases h
    simp only [statusAt, lookup_append]
    cases lookup AnchorTransaction.id txId w.anchor with
    | none => exact .inr (.inl rfl)
    | some t => exact .inl rfl
  | inserts n rowId | updates n | responds n id | startFails n | insertFails n | answers n status
  | retries n =>
    obtain ⟨c, -, h⟩ := Option.bind_eq_some_iff.mp h
    split at h <;> try split at h
    all_goals cases h
    all_goals exact .inl rfl
  | drops n =>
    obtain ⟨r, -, rfl⟩ := Option.map_eq_some_iff.mp h
    exact .inl rfl
  | tick ms | start merchantId currency token account | list =>
    cases h
    exact .inl rfl

/-- What a step does to the refreshes: a list begins one for a row that is not terminal, one
asks again, or the anchor answers it. -/
theorem refresh_of_step (h : w.step l = some v) {r : Refresh} (hr : r ∈ v.refreshes) :
    r ∈ w.refreshes ∨
    (∃ n, r.phase = .asking n) ∧
      ((r.row ∈ w.attempts ∧ r.row.isTerminal = false) ∨ ∃ r₀ ∈ w.refreshes, r₀.row = r.row) ∨
    ∃ n status attempt, l = .answers n status ∧ r.phase = .answered attempt status ∧
      ∃ r₀, w.refreshes[n]? = some r₀ ∧ r₀.row = r.row ∧ r₀.phase = .asking attempt := by
  cases l with
  | list =>
    cases h
    refine (List.mem_append.mp hr).imp_right fun hnew => .inl ?_
    obtain ⟨row, hrow, rfl⟩ := List.mem_map.mp hnew
    obtain ⟨hmem, hstale⟩ := List.mem_filter.mp hrow
    rw [Bool.not_eq_true', Bool.or_eq_false_iff] at hstale
    exact ⟨⟨0, rfl⟩, .inl ⟨hmem, hstale.1⟩⟩
  | answers n status =>
    obtain ⟨r₀, hr₀, h⟩ := Option.bind_eq_some_iff.mp h
    split at h
    case h_1 attempt hphase =>
      cases h
      refine (List.mem_or_eq_of_mem_set hr).imp_right fun hnew => .inr ?_
      subst hnew
      exact ⟨n, status, attempt, rfl, rfl, r₀, hr₀, rfl, hphase⟩
    · cases h
  | retries n =>
    obtain ⟨r₀, hr₀, h⟩ := Option.bind_eq_some_iff.mp h
    have hmem := List.mem_of_getElem? hr₀
    split at h
    all_goals
      split at h <;> cases h
      refine (List.mem_or_eq_of_mem_set hr).imp_right fun hnew => .inl ?_
      subst hnew
      exact ⟨⟨_, rfl⟩, .inr ⟨r₀, hmem, rfl⟩⟩
  | updates n =>
    obtain ⟨r₀, hr₀, h⟩ := Option.bind_eq_some_iff.mp h
    split at h <;> cases h
    exact .inl (List.mem_of_mem_eraseIdx hr)
  | drops n =>
    obtain ⟨r₀, -, rfl⟩ := Option.map_eq_some_iff.mp h
    exact .inl (List.mem_of_mem_eraseIdx hr)
  | inserts n rowId | opens n txId status | responds n id | startFails n | insertFails n =>
    obtain ⟨c, -, h⟩ := Option.bind_eq_some_iff.mp h
    split at h <;> try split at h
    all_goals cases h
    all_goals exact .inl hr
  | tick ms | anchorMoves txId status | start merchantId currency token account =>
    cases h
    exact .inl hr

/-- Rows are not deleted, and keep their transactions. -/
theorem exists_row_of_step (h : w.step l = some v) {id : ℕ} {row : WithdrawalAttempt}
    (hrow : w.row id = some row) :
    ∃ row', v.row id = some row' ∧ row'.anchorTxId = row.anchorTxId := by
  obtain hsame | ⟨hnone, -⟩ | ⟨n, r, attempt, status, -, -, -, -, hupdated⟩ := row_of_step h id
  · exact ⟨row, hsame.trans hrow, rfl⟩
  · rw [hrow] at hnone
    cases hnone
  · rw [hrow] at hupdated
    exact ⟨_, hupdated, rfl⟩

theorem Keyed.step (hw : w.Keyed) (h : w.step l = some v) : v.Keyed := by
  refine ⟨?rows, ?anchor, ?refreshes⟩
  case rows =>
    cases l with
    | inserts n rowId =>
      obtain ⟨c, hc, h⟩ := Option.bind_eq_some_iff.mp h
      split at h
      · split at h
        · cases h
        case isFalse hfresh =>
          cases h
          exact nodup_concat hw.rows fun row hrow hid => hfresh ⟨row, hrow, hid⟩
      · cases h
    | updates n =>
      obtain ⟨r, hr, h⟩ := Option.bind_eq_some_iff.mp h
      split at h <;> cases h
      have hids : ∀ (status : Option String) (row : WithdrawalAttempt),
          (if row.id = r.row.id then
            { row with lastStatus := status, lastPolledAt := some w.clock } else row).id =
              row.id := by
        intro status row
        split <;> rfl
      simp only [updateStatus, map_key_map (hids _)]
      exact hw.rows
    | opens n txId status | responds n id | startFails n | insertFails n | answers n status
    | retries n =>
      obtain ⟨c, -, h⟩ := Option.bind_eq_some_iff.mp h
      split at h <;> try split at h
      all_goals cases h
      all_goals exact hw.rows
    | drops n =>
      obtain ⟨r, -, rfl⟩ := Option.map_eq_some_iff.mp h
      exact hw.rows
    | tick ms | anchorMoves txId status | start merchantId currency token account | list =>
      cases h
      exact hw.rows
  case anchor =>
    cases l with
    | anchorMoves txId status =>
      cases h
      have hids : ∀ t : AnchorTransaction,
          (if t.id = txId then { t with status := status } else t).id = t.id := by
        intro t
        split <;> rfl
      simp only [map_key_map hids]
      exact hw.anchor
    | opens n txId status =>
      obtain ⟨c, hc, h⟩ := Option.bind_eq_some_iff.mp h
      split at h
      · cases h
      case isFalse hfresh =>
        cases h
        rw [not_or] at hfresh
        exact nodup_concat hw.anchor fun t ht hid => hfresh.2 ⟨t, ht, hid⟩
    | inserts n rowId | updates n | responds n id | startFails n | insertFails n
    | answers n status | retries n =>
      obtain ⟨c, -, h⟩ := Option.bind_eq_some_iff.mp h
      split at h <;> try split at h
      all_goals cases h
      all_goals exact hw.anchor
    | drops n =>
      obtain ⟨r, -, rfl⟩ := Option.map_eq_some_iff.mp h
      exact hw.anchor
    | tick ms | start merchantId currency token account | list =>
      cases h
      exact hw.anchor
  case refreshes =>
    have hold : ∀ r ∈ w.refreshes, ∃ row, v.row r.row.id = some row ∧
        row.anchorTxId = r.row.anchorTxId := by
      intro r hr
      obtain ⟨row, hrow, htx⟩ := hw.refreshes r hr
      obtain ⟨row', hrow', htx'⟩ := exists_row_of_step h hrow
      exact ⟨row', hrow', htx'.trans htx⟩
    intro r hr
    obtain hr | ⟨-, ⟨hmem, -⟩ | ⟨r₀, hr₀, hrow⟩⟩ | ⟨n, status, attempt, -, -, r₀, hr₀, hrow, -⟩ :=
      refresh_of_step h hr
    · exact hold r hr
    · exact exists_row_of_step h (lookup_eq_some_of_mem hw.rows hmem)
    · exact hrow ▸ hold r₀ hr₀
    · exact hrow ▸ hold r₀ (List.mem_of_getElem? hr₀)

/-- **The rows are copies**: whatever the anchor does, a row that is terminal is not asked for
again, and an update writes what has been answered. -/
theorem polls_of_step (hw : w.Keyed) (h : w.step l = some v) :
    Mirror.Polls IsFinal w.mirror v.mirror where
  asked id := by
    rintro ⟨r, hr, rfl, n, hphase⟩
    obtain hold | ⟨-, ⟨hmem, hopen⟩ | ⟨r₀, hr₀, hrow⟩⟩ | ⟨_, _, _, -, hanswered, -⟩ :=
      refresh_of_step h hr
    · exact .inl (.inl ⟨r, hold, rfl, n, hphase⟩)
    · refine .inr fun s hs hfinal => ?_
      have hlookup : w.row r.row.id = some r.row := lookup_eq_some_of_mem hw.rows hmem
      have hstatus : r.row.lastStatus = some s := by simpa [mirror, hlookup] using hs
      have hterminal := WithdrawalAttempt.isTerminal_iff.mpr ⟨s, hstatus, hfinal⟩
      rw [hterminal] at hopen
      cases hopen
    · refine .inl ?_
      rw [← hrow]
      cases hphase₀ : r₀.phase with
      | asking n₀ => exact .inl ⟨r₀, hr₀, rfl, n₀, hphase₀⟩
      | answered n₀ a => exact .inr ⟨a, r₀, hr₀, rfl, n₀, hphase₀⟩
    · rw [hphase] at hanswered
      cases hanswered
  answered id a := by
    rintro ⟨r, hr, rfl, n, hphase⟩
    obtain hold | ⟨⟨n', hasking⟩, -⟩ | ⟨_, status, attempt, -, -, r₀, hr₀, hrow, hasking⟩ :=
      refresh_of_step h hr
    · exact .inl ⟨r, hold, rfl, n, hphase⟩
    · rw [hphase] at hasking
      cases hasking
    · exact .inr ⟨r₀, List.mem_of_getElem? hr₀, by rw [hrow], attempt, hasking⟩
  copy id := by
    obtain hsame | ⟨hnone, c, -, txId, -, hinserted⟩ |
      ⟨n, r, attempt, status, -, hr, hid, hphase, hupdated⟩ := row_of_step h id
    · exact .inl (by simp only [mirror, hsame])
    · refine .inl ?_
      simp only [mirror, hnone, hinserted]
      rfl
    · cases hrow : w.row id with
      | none => exact .inl (by simp only [mirror, hupdated, hrow, Option.map_none])
      | some row =>
        have hcopy : v.mirror.copy id = status := by simp [mirror, hupdated, hrow]
        rw [hcopy]
        exact .inr ⟨r, List.mem_of_getElem? hr, hid, attempt, hphase⟩

/-- An anchor that keeps to SEP-24 serves the copies. -/
theorem serves_of_step (hw : w.Keyed) (hsound : AnchorSound (w, l, v))
    (h : w.step l = some v) : Mirror.Serves IsFinal w.mirror v.mirror where
  value id s hfinal hs := by
    obtain ⟨row, hrow, hstatus⟩ := Option.bind_eq_some_iff.mp hs
    obtain ⟨row', hrow', htx⟩ := exists_row_of_step h hrow
    have hvalue : v.mirror.value id = v.statusAt row.anchorTxId := by
      simp only [mirror, hrow', Option.bind_some, htx]
    rw [hvalue]
    obtain hsame | hnone | ⟨status, rfl, hmoved⟩ := statusAt_of_step h row.anchorTxId
    · exact hsame.trans hstatus
    · rw [hstatus] at hnone
      cases hnone
    · rw [hmoved, hstatus, Option.map_some]
      obtain ⟨t, ht, rfl⟩ := Option.map_eq_some_iff.mp hstatus
      obtain ⟨hmem, hid⟩ := mem_of_lookup ht
      rw [hsound t hmem hid hfinal]
  answered id a := by
    rintro ⟨r, hr, rfl, n, hphase⟩
    obtain hold | ⟨⟨n', hasking⟩, -⟩ | ⟨m, status, attempt, rfl, hanswered, r₀, hr₀, hrow, -⟩ :=
      refresh_of_step h hr
    · exact .inl ⟨r, hold, rfl, n, hphase⟩
    · rw [hphase] at hasking
      cases hasking
    · refine .inr ?_
      obtain ⟨-, rfl⟩ := RefreshPhase.answered.inj (hphase.symm.trans hanswered)
      obtain ⟨t, ht, hid, rfl⟩ := hsound r₀ hr₀
      obtain ⟨row, hrow', htx⟩ := hw.refreshes r₀ (List.mem_of_getElem? hr₀)
      have hlookup : lookup AnchorTransaction.id row.anchorTxId w.anchor = some t := by
        rw [htx, ← hid]
        exact lookup_eq_some_of_mem hw.anchor ht
      rw [← hrow]
      simp [mirror, hrow', statusAt, hlookup]

/-! ## Where the rows come from -/

/-- What an action does to the call that it is about. -/
inductive Advances (w : Desk) (n : ℕ) (c : StartCall) : DeskAction → StartCall → Prop
  | opens {txId status : String} (hnone : c.transaction = none)
      (hfresh : ∀ t ∈ w.anchor, t.id ≠ txId) :
      Advances w n c (.opens n txId status) { c with transaction := some txId }
  | responds {id : Option String} (hphase : c.phase = .posting) :
      Advances w n c (.responds n id) { c with phase := .inserting id }
  | fails (hphase : c.phase = .posting) :
      Advances w n c (.startFails n) { c with phase := .failed }
  | inserts {rowId : ℕ} {id : String} (hphase : c.phase = .inserting (some id)) :
      Advances w n c (.inserts n rowId) { c with phase := .returned (some id) }
  | insertFails {id : Option String} (hphase : c.phase = .inserting id) :
      Advances w n c (.insertFails n) { c with phase := .returned id }

theorem starts_of_step (h : w.step l = some v) :
    v.starts = w.starts ∨
    (∃ c : StartCall, c.transaction = none ∧ c.phase = .posting ∧ v.starts = w.starts ++ [c]) ∨
    ∃ n c c', w.starts[n]? = some c ∧ Advances w n c l c' ∧ v.starts = w.starts.set n c' := by
  cases l with
  | start merchantId currency token account =>
    cases h
    exact .inr (.inl ⟨_, rfl, rfl, rfl⟩)
  | opens n txId status =>
    obtain ⟨c, hc, h⟩ := Option.bind_eq_some_iff.mp h
    split at h
    · cases h
    case isFalse hfresh =>
      cases h
      rw [not_or, Bool.not_eq_true, Option.isSome_eq_false_iff, Option.isNone_iff_eq_none] at hfresh
      exact .inr (.inr ⟨n, c, _, hc,
        .opens hfresh.1 fun t ht hid => hfresh.2 ⟨t, ht, hid⟩, rfl⟩)
  | responds n id =>
    obtain ⟨c, hc, h⟩ := Option.bind_eq_some_iff.mp h
    split at h
    case isTrue hphase =>
      cases h
      exact .inr (.inr ⟨n, c, _, hc, .responds hphase, rfl⟩)
    · cases h
  | startFails n =>
    obtain ⟨c, hc, h⟩ := Option.bind_eq_some_iff.mp h
    split at h
    case isTrue hphase =>
      cases h
      exact .inr (.inr ⟨n, c, _, hc, .fails hphase, rfl⟩)
    · cases h
  | inserts n rowId =>
    obtain ⟨c, hc, h⟩ := Option.bind_eq_some_iff.mp h
    split at h
    case h_1 id hphase =>
      split at h <;> cases h
      exact .inr (.inr ⟨n, c, _, hc, .inserts hphase, rfl⟩)
    · cases h
  | insertFails n =>
    obtain ⟨c, hc, h⟩ := Option.bind_eq_some_iff.mp h
    split at h
    case h_1 id hphase =>
      cases h
      exact .inr (.inr ⟨n, c, _, hc, .insertFails hphase, rfl⟩)
    · cases h
  | answers n status | retries n | updates n =>
    obtain ⟨r, -, h⟩ := Option.bind_eq_some_iff.mp h
    split at h <;> try split at h
    all_goals cases h
    all_goals exact .inl rfl
  | drops n =>
    obtain ⟨r, -, rfl⟩ := Option.map_eq_some_iff.mp h
    exact .inl rfl
  | tick ms | anchorMoves txId status | list =>
    cases h
    exact .inl rfl

/-- The anchor has opened this transaction for the call. -/
def Opened (w : Desk) (c : StartCall) (txId : String) : Prop :=
  ∃ t ∈ w.anchor, t.id = txId ∧ t.assetCode = assetCodeOf c.currency ∧ t.account = c.account

theorem Opened.step (h : w.step l = some v) {c : StartCall} {txId : String}
    (hc : w.Opened c txId) : v.Opened c txId := by
  obtain ⟨t, ht, hid, hasset, haccount⟩ := hc
  cases l with
  | anchorMoves txId' status =>
    cases h
    refine ⟨_, List.mem_map_of_mem ht, ?_⟩
    split <;> exact ⟨hid, hasset, haccount⟩
  | opens n txId' status =>
    obtain ⟨d, -, h⟩ := Option.bind_eq_some_iff.mp h
    split at h <;> cases h
    exact ⟨t, List.mem_append_left _ ht, hid, hasset, haccount⟩
  | inserts n rowId | updates n | responds n id | startFails n | insertFails n | answers n status
  | retries n =>
    obtain ⟨d, -, h⟩ := Option.bind_eq_some_iff.mp h
    split at h <;> try split at h
    all_goals cases h
    all_goals exact ⟨t, ht, hid, hasset, haccount⟩
  | drops n =>
    obtain ⟨r, -, rfl⟩ := Option.map_eq_some_iff.mp h
    exact ⟨t, ht, hid, hasset, haccount⟩
  | tick ms | start merchantId currency token account | list =>
    cases h
    exact ⟨t, ht, hid, hasset, haccount⟩

/-- A call that has heard of its transaction, and no other call has the same. -/
structure Traced (w : Desk) : Prop where
  opened : ∀ c ∈ w.starts, ∀ txId ∈ c.transaction, w.Opened c txId
  distinct : ∀ (i j : ℕ) (c d : StartCall) (txId : String), w.starts[i]? = some c →
    w.starts[j]? = some d → c.transaction = some txId → d.transaction = some txId → i = j
  heard : ∀ c ∈ w.starts, ∀ id, c.phase = .inserting id ∨ c.phase = .returned id →
    c.transaction.isSome ∧ id = c.transaction
  rows : ∀ row ∈ w.attempts, ∃ c ∈ w.starts, c.phase = .returned (some row.anchorTxId) ∧
    c.merchantId = row.merchantId ∧ c.currency = row.currency ∧ c.token = row.token
  once : (w.attempts.map WithdrawalAttempt.anchorTxId).Nodup

/-- The call at a place is the one before, has just begun, or has been advanced. -/
theorem call_of_step (h : w.step l = some v) {i : ℕ} {d : StartCall}
    (hd : v.starts[i]? = some d) :
    w.starts[i]? = some d ∨ (d.transaction = none ∧ d.phase = .posting) ∨
      ∃ c, w.starts[i]? = some c ∧ Advances w i c l d := by
  obtain hsame | ⟨c, hnone, hphase, hstarts⟩ | ⟨n, c, c', hc, hadvances, hstarts⟩ :=
    starts_of_step h
  · exact .inl (hsame ▸ hd)
  · rw [hstarts, List.getElem?_append] at hd
    split at hd
    · exact .inl hd
    · obtain rfl := List.mem_singleton.mp (List.mem_of_getElem? hd)
      exact .inr (.inl ⟨hnone, hphase⟩)
  · rw [hstarts, List.getElem?_set] at hd
    by_cases hn : n = i
    · subst hn
      rw [if_pos rfl] at hd
      split at hd
      · cases hd
        exact .inr (.inr ⟨c, hc, hadvances⟩)
      · cases hd
    · rw [if_neg hn] at hd
      exact .inl hd

/-- A transaction that a call has was there before, or has been opened for it. -/
theorem transaction_of_step (h : w.step l = some v) {i : ℕ} {d : StartCall} {txId : String}
    (hd : v.starts[i]? = some d) (htx : d.transaction = some txId) :
    (∃ c, w.starts[i]? = some c ∧ c.transaction = some txId ∧ c.currency = d.currency ∧
      c.account = d.account) ∨
    (∃ status, l = .opens i txId status) ∧ (∀ t ∈ w.anchor, t.id ≠ txId) ∧
      v.Opened d txId := by
  obtain hold | ⟨hnone, -⟩ | ⟨c, hc, hadvances⟩ := call_of_step h hd
  · exact .inl ⟨d, hold, htx, rfl, rfl⟩
  · rw [hnone] at htx
    cases htx
  · cases hadvances with
    | @opens txId' status hnone hfresh =>
      obtain rfl : txId' = txId := Option.some.inj htx
      refine .inr ⟨⟨status, rfl⟩, hfresh, ?_⟩
      obtain ⟨c', hc', h⟩ := Option.bind_eq_some_iff.mp h
      obtain rfl : c = c' := Option.some.inj (hc.symm.trans hc')
      split at h <;> cases h
      exact ⟨_, List.mem_append_right _ (List.mem_singleton_self _), rfl, rfl, rfl⟩
    | responds hphase => exact .inl ⟨c, hc, htx, rfl, rfl⟩
    | fails hphase => exact .inl ⟨c, hc, htx, rfl, rfl⟩
    | inserts hphase => exact .inl ⟨c, hc, htx, rfl, rfl⟩
    | insertFails hphase => exact .inl ⟨c, hc, htx, rfl, rfl⟩

/-- A call that has returned an id stays as it is. -/
theorem Traced.returned (hw : w.Traced) (h : w.step l = some v) {c : StartCall}
    {id : Option String} (hc : c ∈ w.starts) (hphase : c.phase = .returned id) :
    c ∈ v.starts := by
  obtain hsame | ⟨c', -, -, hstarts⟩ | ⟨n, c', d, hc', hadvances, hstarts⟩ := starts_of_step h
  · exact hsame ▸ hc
  · rw [hstarts]
    exact List.mem_append_left _ hc
  · have hne : c ≠ c' := by
      rintro rfl
      cases hadvances with
      | opens hnone hfresh =>
        have hsome := (hw.heard c hc id (.inr hphase)).1
        rw [hnone] at hsome
        cases hsome
      | responds hp | fails hp | inserts hp | insertFails hp =>
        rw [hphase] at hp
        cases hp
    obtain ⟨i, hi⟩ := List.getElem?_of_mem hc
    have hin : n ≠ i := by
      rintro rfl
      exact hne (Option.some.inj (hi.symm.trans hc'))
    rw [hstarts]
    exact List.mem_of_getElem? (i := i) (by rw [List.getElem?_set, if_neg hin, hi])

/-- A row is one that was there, or one that a call inserts for what it has heard. -/
theorem mem_attempts_of_step (h : w.step l = some v) {row : WithdrawalAttempt}
    (hrow : row ∈ v.attempts) :
    (∃ row₀ ∈ w.attempts, row₀.merchantId = row.merchantId ∧ row₀.currency = row.currency ∧
      row₀.token = row.token ∧ row₀.anchorTxId = row.anchorTxId) ∨
    ∃ n rowId c id, l = .inserts n rowId ∧ w.starts[n]? = some c ∧
      c.phase = .inserting (some id) ∧ row = c.row id rowId w.clock := by
  cases l with
  | inserts n rowId =>
    obtain ⟨c, hc, h⟩ := Option.bind_eq_some_iff.mp h
    split at h
    case h_1 id hphase =>
      split at h <;> cases h
      cases List.mem_append.mp hrow with
      | inl hold => exact .inl ⟨row, hold, rfl, rfl, rfl, rfl⟩
      | inr hnew =>
        exact .inr ⟨n, rowId, c, id, rfl, hc, hphase, List.mem_singleton.mp hnew⟩
    · cases h
  | updates n =>
    obtain ⟨r, -, h⟩ := Option.bind_eq_some_iff.mp h
    split at h <;> cases h
    obtain ⟨row₀, hrow₀, rfl⟩ := List.mem_map.mp hrow
    refine .inl ⟨row₀, hrow₀, ?_⟩
    split <;> exact ⟨rfl, rfl, rfl, rfl⟩
  | opens n txId status | responds n id | startFails n | insertFails n | answers n status
  | retries n =>
    obtain ⟨c, -, h⟩ := Option.bind_eq_some_iff.mp h
    split at h <;> try split at h
    all_goals cases h
    all_goals exact .inl ⟨row, hrow, rfl, rfl, rfl, rfl⟩
  | drops n =>
    obtain ⟨r, -, rfl⟩ := Option.map_eq_some_iff.mp h
    exact .inl ⟨row, hrow, rfl, rfl, rfl, rfl⟩
  | tick ms | anchorMoves txId status | start merchantId currency token account | list =>
    cases h
    exact .inl ⟨row, hrow, rfl, rfl, rfl, rfl⟩

/-- The transaction that a call is about to insert has no row yet. -/
theorem Traced.fresh (hw : w.Traced) {n : ℕ} {c : StartCall} {id : String}
    (hc : w.starts[n]? = some c) (hphase : c.phase = .inserting (some id)) :
    ∀ row ∈ w.attempts, row.anchorTxId ≠ id := by
  rintro row hrow rfl
  obtain ⟨d, hd, hreturned, -⟩ := hw.rows row hrow
  obtain ⟨m, hm⟩ := List.getElem?_of_mem hd
  have hctx := (hw.heard c (List.mem_of_getElem? hc) _ (.inl hphase)).2
  have hdtx := (hw.heard d hd _ (.inr hreturned)).2
  obtain rfl := hw.distinct n m c d _ hc hm hctx.symm hdtx.symm
  obtain rfl : c = d := Option.some.inj (hc.symm.trans hm)
  rw [hphase] at hreturned
  cases hreturned

theorem Traced.step (hw : w.Traced) (hsound : AnchorSound (w, l, v)) (h : w.step l = some v) :
    v.Traced := by
  refine ⟨?opened, ?distinct, ?heard, ?rows, ?once⟩
  case opened =>
    intro d hd txId htx
    obtain ⟨i, hi⟩ := List.getElem?_of_mem hd
    obtain ⟨c, hc, hctx, hcurrency, haccount⟩ | ⟨-, -, hopened⟩ := transaction_of_step h hi htx
    · obtain ⟨t, ht, hid, hasset, hacc⟩ :=
        (hw.opened c (List.mem_of_getElem? hc) txId hctx).step h
      exact ⟨t, ht, hid, hcurrency ▸ hasset, haccount ▸ hacc⟩
    · exact hopened
  case distinct =>
    intro i j c d txId hc hd hctx hdtx
    obtain ⟨c₀, hc₀, hc₀tx, -⟩ | ⟨⟨s, hs⟩, hfresh, -⟩ := transaction_of_step h hc hctx
    · obtain ⟨d₀, hd₀, hd₀tx, -⟩ | ⟨-, hfresh, -⟩ := transaction_of_step h hd hdtx
      · exact hw.distinct i j c₀ d₀ txId hc₀ hd₀ hc₀tx hd₀tx
      · obtain ⟨t, ht, hid, -⟩ := hw.opened c₀ (List.mem_of_getElem? hc₀) txId hc₀tx
        exact absurd hid (hfresh t ht)
    · obtain ⟨d₀, hd₀, hd₀tx, -⟩ | ⟨⟨s', hs'⟩, -⟩ := transaction_of_step h hd hdtx
      · obtain ⟨t, ht, hid, -⟩ := hw.opened d₀ (List.mem_of_getElem? hd₀) txId hd₀tx
        exact absurd hid (hfresh t ht)
      · exact (DeskAction.opens.inj (hs.symm.trans hs')).1
  case heard =>
    intro d hd id hid
    obtain ⟨i, hi⟩ := List.getElem?_of_mem hd
    obtain hold | ⟨-, hposting⟩ | ⟨c, hc, hadvances⟩ := call_of_step h hi
    · exact hw.heard d (List.mem_of_getElem? hold) id hid
    · rw [hposting] at hid
      cases hid with
      | inl h => cases h
      | inr h => cases h
    · have hmem := List.mem_of_getElem? hc
      cases hadvances with
      | opens hnone hfresh =>
        have hsome := (hw.heard c hmem id hid).1
        rw [hnone] at hsome
        cases hsome
      | responds hphase =>
        have hheard := hsound c hc
        cases hid with
        | inl h =>
          obtain rfl := StartPhase.inserting.inj h
          exact hheard
        | inr h => cases h
      | fails hphase =>
        cases hid with
        | inl h => cases h
        | inr h => cases h
      | inserts hphase | insertFails hphase =>
        have hheard := hw.heard c hmem _ (.inl hphase)
        cases hid with
        | inl h => cases h
        | inr h =>
          obtain rfl := StartPhase.returned.inj h
          exact hheard
  case rows =>
    intro row hrow
    obtain ⟨row₀, hrow₀, hmerchant, hcurrency, htoken, htx⟩ |
      ⟨n, rowId, c, id, rfl, hc, hphase, rfl⟩ := mem_attempts_of_step h hrow
    · obtain ⟨c, hc, hreturned, hm, hcur, htok⟩ := hw.rows row₀ hrow₀
      refine ⟨c, hw.returned h hc hreturned, htx ▸ hreturned, hm.trans hmerchant,
        hcur.trans hcurrency, htok.trans htoken⟩
    · obtain ⟨c', hc', h⟩ := Option.bind_eq_some_iff.mp h
      obtain rfl : c = c' := Option.some.inj (hc.symm.trans hc')
      simp only [hphase] at h
      split at h <;> cases h
      have hlt : n < w.starts.length := (List.getElem?_eq_some_iff.mp hc).1
      exact ⟨_, List.mem_set hlt _, rfl, rfl, rfl, rfl⟩
  case once =>
    cases l with
    | inserts n rowId =>
      obtain ⟨c, hc, h⟩ := Option.bind_eq_some_iff.mp h
      split at h
      case h_1 id hphase =>
        split at h <;> cases h
        exact nodup_concat hw.once (hw.fresh hc hphase)
      · cases h
    | updates n =>
      obtain ⟨r, -, h⟩ := Option.bind_eq_some_iff.mp h
      split at h <;> cases h
      have htx : ∀ (status : Option String) (row : WithdrawalAttempt),
          (if row.id = r.row.id then
            { row with lastStatus := status, lastPolledAt := some w.clock } else row).anchorTxId =
              row.anchorTxId := by
        intro status row
        split <;> rfl
      simp only [updateStatus, map_key_map (htx _)]
      exact hw.once
    | opens n txId status | responds n id | startFails n | insertFails n | answers n status
    | retries n =>
      obtain ⟨c, -, h⟩ := Option.bind_eq_some_iff.mp h
      split at h <;> try split at h
      all_goals cases h
      all_goals exact hw.once
    | drops n =>
      obtain ⟨r, -, rfl⟩ := Option.map_eq_some_iff.mp h
      exact hw.once
    | tick ms | anchorMoves txId status | start merchantId currency token account | list =>
      cases h
      exact hw.once

end Desk

/-! ## Runs -/

open Desk

variable {clock : ℕ} {w w' : Desk} {ls ms : List DeskAction} {id : ℕ}

theorem keyed_start (clock : ℕ) : (Desk.start clock).Keyed :=
  ⟨List.nodup_nil, List.nodup_nil, fun _ hr => absurd hr List.not_mem_nil⟩

/-- What is known of the rows while the anchor keeps to SEP-24. -/
structure Desk.Sound (w : Desk) : Prop where
  keyed : w.Keyed
  traced : w.Traced
  faithful : w.mirror.Faithful IsFinal

theorem Desk.Sound.step {v : Desk} {l : DeskAction} (hw : w.Sound)
    (hsound : AnchorSound (w, l, v)) (h : w.step l = some v) : v.Sound where
  keyed := hw.keyed.step h
  traced := hw.traced.step hsound h
  faithful := hw.faithful.step (polls_of_step hw.keyed h) (serves_of_step hw.keyed hsound h)

theorem sound_start (clock : ℕ) : (Desk.start clock).Sound where
  keyed := keyed_start clock
  traced := by constructor <;> simp [Desk.start]
  faithful := by constructor <;> simp [Desk.mirror, Desk.row, Desk.start]

/-- **The rows tell the truth**: in every run in which the anchor keeps to SEP-24, each row is
the record of exactly one call of `start` and of the transaction that the anchor has opened for
it, no two rows of the same one, and a terminal row has the status that the transaction has. -/
theorem attempts_faithful
    (hsound : ∀ e ∈ trace Desk.step (Desk.start clock) ls, AnchorSound e)
    (h : exec Desk.step (Desk.start clock) ls = some w) :
    (w.attempts.map WithdrawalAttempt.anchorTxId).Nodup ∧ ∀ row ∈ w.attempts,
      ∃ (i : ℕ) (c : StartCall), w.starts[i]? = some c ∧
        c.phase = .returned (some row.anchorTxId) ∧
        (∀ (j : ℕ) (d : StartCall), w.starts[j]? = some d →
          d.phase = .returned (some row.anchorTxId) → j = i) ∧
        c.merchantId = row.merchantId ∧ c.currency = row.currency ∧ c.token = row.token ∧
        ∃ t ∈ w.anchor, t.id = row.anchorTxId ∧ t.assetCode = assetCodeOf row.currency ∧
          t.account = c.account ∧ (row.isTerminal = true → row.lastStatus = some t.status) := by
  have hw : w.Sound :=
    invariant_of_exec (sound_start clock) (fun _ _ _ ha hl hs => ha.step hl hs) hsound h
  refine ⟨hw.traced.once, fun row hrow => ?_⟩
  obtain ⟨c, hc, hphase, hmerchant, hcurrency, htoken⟩ := hw.traced.rows row hrow
  have htx := (hw.traced.heard c hc _ (.inr hphase)).2.symm
  obtain ⟨t, ht, hid, hasset, haccount⟩ := hw.traced.opened c hc _ htx
  obtain ⟨i, hi⟩ := List.getElem?_of_mem hc
  refine ⟨i, c, hi, hphase, ?only, hmerchant, hcurrency, htoken, t, ht, hid, hcurrency ▸ hasset,
    haccount, fun hterminal => ?status⟩
  case only =>
    intro j d hj hreturned
    have hdtx := (hw.traced.heard d (List.mem_of_getElem? hj) _ (.inr hreturned)).2.symm
    exact hw.traced.distinct j i d c _ hj hi hdtx htx
  obtain ⟨s, hs, hfinal⟩ := WithdrawalAttempt.isTerminal_iff.mp hterminal
  have hlookup : w.row row.id = some row := lookup_eq_some_of_mem hw.keyed.rows hrow
  have hstatus : w.statusAt row.anchorTxId = some t.status := by
    rw [Desk.statusAt, ← hid, lookup_eq_some_of_mem hw.keyed.anchor ht, Option.map_some]
  have hvalue := hw.faithful.copy row.id s hfinal (by simp [Desk.mirror, hlookup, hs])
  simp only [Desk.mirror, hlookup, Option.bind_some, hstatus] at hvalue
  rw [hs, hvalue]

/-- The step is the UPDATE of a refresh of this row. -/
def Updates (id : ℕ) (e : Desk × DeskAction × Desk) : Prop :=
  match e.2.1 with
  | .updates n => ∃ r ∈ e.1.refreshes[n]?, r.row.id = id
  | _ => False

instance : ∀ e : Desk × DeskAction × Desk, Decidable (Updates id e)
  | (w, .updates n, _) => inferInstanceAs (Decidable (∃ r ∈ w.refreshes[n]?, _))
  | (_, .tick _, _) | (_, .anchorMoves .., _) | (_, .start .., _) | (_, .opens .., _)
  | (_, .responds .., _) | (_, .startFails _, _) | (_, .inserts .., _) | (_, .insertFails _, _)
  | (_, .list, _) | (_, .answers .., _) | (_, .retries _, _) | (_, .drops _, _) =>
    inferInstanceAs (Decidable False)

theorem Updates.exists_refresh {e : Desk × DeskAction × Desk} (h : Updates id e) :
    ∃ n r, e.2.1 = .updates n ∧ e.1.refreshes[n]? = some r ∧ r.row.id = id := by
  unfold Updates at h
  split at h
  case h_1 n hl =>
    obtain ⟨r, hr, hid⟩ := h
    exact ⟨n, r, hl, hr, hid⟩
  · cases h

/-- A row is only changed by its UPDATEs. -/
theorem row_of_exec (h : exec Desk.step w ms = some w') {row : WithdrawalAttempt}
    (hrow : w.row id = some row) (hnone : ∀ e ∈ trace Desk.step w ms, ¬Updates id e) :
    w'.row id = some row := by
  refine invariant_of_exec (I := fun v => v.row id = some row) (H := fun e => ¬Updates id e)
    hrow ?_ hnone h
  intro a l b ha hl hstep
  obtain hsame | ⟨hempty, -⟩ | ⟨n, r, -, -, rfl, hr, hid, -⟩ := row_of_step hstep id
  · exact hsame.trans ha
  · rw [ha] at hempty
    cases hempty
  · exact absurd ⟨r, hr, hid⟩ hl

/-- Once the transaction has ended with `s`, a step leaves the status of its row or makes it `s`. -/
theorem settled_of_step {v u : Desk} {l : DeskAction} {row : WithdrawalAttempt} {s : String}
    (hkeyed : v.Keyed) (hset : v.mirror.Settled IsFinal id s) (hrow : v.row id = some row)
    (hl : AnchorSound (v, l, u)) (hstep : v.step l = some u) :
    u.Keyed ∧ u.mirror.Settled IsFinal id s ∧
      ∃ row', u.row id = some row' ∧
        (row'.lastStatus = row.lastStatus ∨ row'.lastStatus = some s) := by
  obtain ⟨row', hrow', -⟩ := exists_row_of_step hstep hrow
  refine ⟨hkeyed.step hstep, hset.step (serves_of_step hkeyed hl hstep), row', hrow', ?_⟩
  have hcopy := hset.copy (polls_of_step hkeyed hstep)
  simpa only [Desk.mirror, hrow, hrow', Option.bind_some] using hcopy

/-- **The rows catch up**: when the anchor has ended a transaction and no older answer is on its
way, an UPDATE of its row, by whichever refresh, makes the row terminal with the status that
the transaction has; nothing takes that back, and without an UPDATE the row stays as it is. -/
theorem attempts_settle
    (hpast : ∀ e ∈ trace Desk.step (Desk.start clock) ls, AnchorSound e)
    (h : exec Desk.step (Desk.start clock) ls = some w) {row : WithdrawalAttempt} {s : String}
    (hrow : w.row id = some row) (hs : w.statusAt row.anchorTxId = some s)
    (hfinal : s ∈ TERMINAL_STATUSES)
    (hlate : ∀ r ∈ w.refreshes, r.row.id = id → ∀ n a, r.phase = .answered n a → a = some s)
    (hsound : ∀ e ∈ trace Desk.step w ms, AnchorSound e) (h' : exec Desk.step w ms = some w') :
    ∃ row', w'.row id = some row' ∧
      (row'.lastStatus = row.lastStatus ∨ row'.lastStatus = some s) ∧
      ((∃ e ∈ trace Desk.step w ms, Updates id e) →
        row'.lastStatus = some s ∧ row'.isOpen = false) ∧
      ((∀ e ∈ trace Desk.step w ms, ¬Updates id e) → row' = row) := by
  have hw : w.Sound :=
    invariant_of_exec (sound_start clock) (fun _ _ _ ha hl hs => ha.step hl hs) hpast h
  have hsettled : w.mirror.Settled IsFinal id s := by
    refine ⟨hfinal, by simp [Desk.mirror, hrow, hs], ?_⟩
    rintro a ⟨r, hr, hid, n, hphase⟩
    exact hlate r hr hid n a hphase
  -- the row is there, as it was or with the final status
  obtain ⟨-, -, row', hrow', hstatus⟩ : w'.Keyed ∧ w'.mirror.Settled IsFinal id s ∧
      ∃ row', w'.row id = some row' ∧
        (row'.lastStatus = row.lastStatus ∨ row'.lastStatus = some s) := by
    refine invariant_of_exec (I := fun v => v.Keyed ∧ v.mirror.Settled IsFinal id s ∧
      ∃ row', v.row id = some row' ∧
        (row'.lastStatus = row.lastStatus ∨ row'.lastStatus = some s))
      ⟨hw.keyed, hsettled, row, hrow, .inl rfl⟩ ?_ hsound h'
    rintro a l b ⟨hkeyed, hset, row', hrow', hstatus⟩ hl hstep
    obtain ⟨hkeyed', hset', row'', hrow'', hstep'⟩ := settled_of_step hkeyed hset hrow' hl hstep
    refine ⟨hkeyed', hset', row'', hrow'', ?_⟩
    obtain hsame | hwritten := hstep'
    · rwa [hsame]
    · exact .inr hwritten
  refine ⟨row', hrow', hstatus, fun hupdate => ?_, fun hnone => ?_⟩
  case refine_2 =>
    exact Option.some.inj (hrow'.symm.trans (row_of_exec h' hrow hnone))
  have hlast : w'.mirror.copy id = some s := by
    refine effect_of_exec (I := fun v => v.Keyed ∧ v.mirror.Settled IsFinal id s ∧
        ∃ row', v.row id = some row') (J := fun v => v.mirror.copy id = some s)
      ⟨hw.keyed, hsettled, row, hrow⟩ ?_ ?_ hsound h' (.inr hupdate)
    · rintro a l b ⟨hkeyed, hset, row', hrow'⟩ hl hstep
      obtain ⟨hkeyed', hset', row'', hrow'', -⟩ := settled_of_step hkeyed hset hrow' hl hstep
      exact ⟨hkeyed', hset', row'', hrow''⟩
    · rintro a l b ⟨hkeyed, hset, row', hrow'⟩ hl hstep hcause
      obtain hsame | hwritten := hset.copy (polls_of_step hkeyed hstep)
      · refine hcause.elim (fun hJ => hsame.trans hJ) ?_
        intro hupdates
        obtain ⟨n, r, rfl, hr, hid⟩ := hupdates.exists_refresh
        obtain ⟨attempt, status, hphase, hupdated⟩ := row_of_updates hstep hr id
        have hstatus : status = some s :=
          hset.answered status ⟨r, List.mem_of_getElem? hr, hid, attempt, hphase⟩
        simp [Desk.mirror, hupdated, hid, hrow', hstatus]
      · exact hwritten
  have hterminal : row'.lastStatus = some s := by simpa [Desk.mirror, hrow'] using hlast
  refine ⟨hterminal, ?_⟩
  rw [WithdrawalAttempt.isOpen_eq, WithdrawalAttempt.isTerminal_iff.mpr ⟨s, hterminal, hfinal⟩]
  rfl

/-- A row that no refresh is for. -/
theorem Desk.quiet_iff : w.mirror.Quiet id ↔ ∀ r ∈ w.refreshes, r.row.id ≠ id := by
  constructor
  · rintro ⟨hasked, hanswered⟩ r hr hid
    cases hphase : r.phase with
    | asking n => exact hasked ⟨r, hr, hid, n, hphase⟩
    | answered n status => exact hanswered status ⟨r, hr, hid, n, hphase⟩
  · intro h
    exact ⟨fun ⟨r, hr, hid, _⟩ => h r hr hid, fun _ ⟨r, hr, hid, _⟩ => h r hr hid⟩

/-- **A terminal row is left alone**: when no refresh of it is under way, it stays as it is in
every run, whatever the anchor says, and no list asks for it. -/
theorem terminal_for_good (h : exec Desk.step (Desk.start clock) ls = some w)
    {row : WithdrawalAttempt} (hrow : w.row id = some row) (hterminal : row.isTerminal = true)
    (hquiet : ∀ r ∈ w.refreshes, r.row.id ≠ id) (h' : exec Desk.step w ms = some w') :
    w'.row id = some row ∧ ∀ r ∈ w'.refreshes, r.row.id ≠ id := by
  have hkeyed : w.Keyed := invariant_of_exec (H := fun _ => True) (keyed_start clock)
    (fun _ _ _ ha _ hs => ha.step hs) (fun _ _ => trivial) h
  obtain ⟨s, hs, hfinal⟩ := WithdrawalAttempt.isTerminal_iff.mp hterminal
  rw [← Desk.quiet_iff] at hquiet ⊢
  refine (invariant_of_exec (I := fun v => v.Keyed ∧ v.row id = some row ∧ v.mirror.Quiet id)
    (H := fun _ => True) ⟨hkeyed, hrow, hquiet⟩ ?_ (fun _ _ => trivial) h').2
  rintro a l b ⟨ha, harow, haquiet⟩ - hstep
  have hcopy : a.mirror.copy id = some s := by simpa [Desk.mirror, harow] using hs
  refine ⟨ha.step hstep, ?_, (polls_of_step ha hstep).quiet hfinal hcopy haquiet⟩
  obtain hsame | ⟨hnone, -⟩ | ⟨n, r, -, -, -, hr, hid, -⟩ := row_of_step hstep id
  · exact hsame.trans harow
  · rw [harow] at hnone
    cases hnone
  · exact absurd hid (Desk.quiet_iff.mp haquiet r (List.mem_of_getElem? hr))

/-! ## A cash-out that two lists refresh -/

/-- The anchor ends the transaction while the first list waits for its answer, and the second
list asks again. -/
def exampleCashOut : List DeskAction :=
  [.start 7 "USDC" "jwt" (some "GBXBABMFZIJPTOFI6STUXA2FMEXDBB4URBD3VS5XDHKMFHGLJZ5WPQBB"),
    .opens 0 "tx-1" "incomplete", .responds 0 (some "tx-1"), .inserts 0 1, .list,
    .anchorMoves "tx-1" "completed", .tick 3000, .list]

def exampleRefreshes : List DeskAction :=
  [.answers 1 (some "completed"), .updates 1, .answers 0 (some "completed"), .updates 0]

theorem attempts_faithful_example :
    ∃ w, exec Desk.step (Desk.start 0) (exampleCashOut ++ exampleRefreshes) = some w ∧
      w.attempts.map WithdrawalAttempt.lastStatus = [some "completed"] ∧
      (w.attempts.map WithdrawalAttempt.anchorTxId).Nodup := by
  obtain ⟨w, hw, hstatus⟩ :
      ∃ w, exec Desk.step (Desk.start 0) (exampleCashOut ++ exampleRefreshes) = some w ∧
        w.attempts.map WithdrawalAttempt.lastStatus = [some "completed"] :=
    exists_exec_of_any (by decide +kernel)
  exact ⟨w, hw, hstatus, (attempts_faithful (by decide +kernel) hw).1⟩

def exampleAttempt : WithdrawalAttempt := ⟨1, 7, "USDC", "tx-1", "jwt", none, none, 0⟩

theorem attempts_settle_example :
    ∃ w w', exec Desk.step (Desk.start 0) exampleCashOut = some w ∧
      exec Desk.step w exampleRefreshes = some w' ∧
        ∃ row', w'.row 1 = some row' ∧ row'.lastStatus = some "completed" := by
  obtain ⟨w, hw, hrow, hstatus, hasking, hsound, hsome, hupdates⟩ :
      ∃ w, exec Desk.step (Desk.start 0) exampleCashOut = some w ∧
        w.row 1 = some exampleAttempt ∧ w.statusAt exampleAttempt.anchorTxId = some "completed" ∧
        (∀ r ∈ w.refreshes, r.phase = .asking 0) ∧
        (∀ e ∈ trace Desk.step w exampleRefreshes, AnchorSound e) ∧
        (exec Desk.step w exampleRefreshes).isSome ∧
        ∃ e ∈ trace Desk.step w exampleRefreshes, Updates 1 e :=
    exists_exec_of_any (by decide +kernel)
  obtain ⟨w', hw'⟩ := Option.isSome_iff_exists.mp hsome
  have hlate : ∀ r ∈ w.refreshes, r.row.id = 1 → ∀ n a, r.phase = .answered n a →
      a = some "completed" := by
    intro r hr _ n a ha
    rw [hasking r hr] at ha
    cases ha
  obtain ⟨row', hrow', -, hlast, -⟩ :=
    attempts_settle (by decide +kernel) hw hrow hstatus (by decide) hlate hsound hw'
  exact ⟨w, w', hw, hw', row', hrow', (hlast hupdates).1⟩

theorem terminal_for_good_example :
    ∃ w w', exec Desk.step (Desk.start 0) (exampleCashOut ++ exampleRefreshes) = some w ∧
      exec Desk.step w [.tick 60000, .list, .anchorMoves "tx-1" "pending_anchor", .list] =
        some w' ∧ ∀ r ∈ w'.refreshes, r.row.id ≠ 1 := by
  obtain ⟨w, hw, hrow, hquiet, hsome⟩ :
      ∃ w, exec Desk.step (Desk.start 0) (exampleCashOut ++ exampleRefreshes) = some w ∧
        w.row 1 = some { exampleAttempt with
          lastStatus := some "completed", lastPolledAt := some 3000 } ∧
        (∀ r ∈ w.refreshes, r.row.id ≠ 1) ∧
        (exec Desk.step w
          [.tick 60000, .list, .anchorMoves "tx-1" "pending_anchor", .list]).isSome :=
    exists_exec_of_any (by decide +kernel)
  obtain ⟨w', hw'⟩ := Option.isSome_iff_exists.mp hsome
  exact ⟨w, w', hw, hw', (terminal_for_good hw hrow rfl hquiet hw').2⟩

end KonfirmBackend.Withdrawals
