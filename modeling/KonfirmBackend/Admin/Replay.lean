import KonfirmBackend.Admin.Rewind
import KonfirmBackend.Reconciler.Watch

/-!
# What a rewind makes the reconciler read

The check of a rewind compares strings; the reconciler gives them a meaning. A number is a
position in the merchant's history. The word "now" is no position until the reconciler starts
and resolves it to the head of the history of that moment.

## Main definitions

- `rewind` — a call of `AdminReconcilerService.rewind` with nothing in between
- `polled` — the operations that `payments_since` hands to a reconciler
- `WouldBeGiven` — the operations that a start from a stored cursor leads to
- `NeverSkips` — whatever the old cursor leads to, the new one does

## Main results

- `wouldBeGiven_iff` — a reconciler is given what lies beyond the position it starts from
- `rewind_never_skips_iff` — when an accepted rewind skips no operation
-/

namespace KonfirmBackend.Admin

open Reconciler Transition OrderedLog

/-- Both statements of `rewind`, on the cursor row. The `UPDATE` writes nothing if there is
no row. -/
def rewind (row : Option Cursor) (target : String) : Except BadRequest (Option Cursor) :=
  match assertNotForward (row.getD .now) target with
  | .error e => .error e
  | .ok () => .ok (row.bind fun _ => readCursor target)

/-- The position from which a reconciler polls that starts when the history is `h`. -/
def startPosition (row : Option Cursor) (h : History) : ℕ :=
  match row.getD .now with
  | .now => h.head
  | .token t => t

/-- The operations handed out by a row of polls; a poll sees the history of its time and
returns some of the operations after the cursor. -/
def polled (cursor : ℕ) : List (History × ℕ) → List PaymentOp
  | [] => []
  | (h, n) :: polls =>
    let ops := h.paymentsSince cursor n pageLimit
    ops ++ polled (ops.getLast?.elim cursor PaymentOp.pagingToken) polls

/-- Polls while the history grows from `h₀` to `h`. -/
structure PollsOf (h₀ h : History) (polls : List (History × ℕ)) : Prop where
  since : ∀ p ∈ polls, h₀.ops <+: p.1.ops
  upTo : ∀ p ∈ polls, p.1.ops <+: h.ops
  grows : polls.Pairwise fun p q => p.1.ops <+: q.1.ops

/-- A reconciler that starts from the stored cursor, at the history `h₀`, may be given the
operation by `payments_since` while the history grows to `h`. -/
def WouldBeGiven (row : Option Cursor) (h₀ h : History) (op : PaymentOp) : Prop :=
  ∃ polls, PollsOf h₀ h polls ∧ op ∈ polled (startPosition row h₀) polls

/-- Whatever a reconciler would be given from the old cursor it would be given from the new
one, however the history goes on. -/
def NeverSkips (row row' : Option Cursor) (h₀ : History) : Prop :=
  ∀ h : History, h₀.ops <+: h.ops →
    ∀ op, WouldBeGiven row h₀ h op → WouldBeGiven row' h₀ h op

/-! ## Calls and starts as runs -/

theorem rewind_eq_ok_iff {row row' : Option Cursor} {target : String} :
    rewind row target = .ok row' ↔
      assertNotForward (row.getD .now) target = .ok () ∧
        row' = row.bind fun _ => readCursor target := by
  rw [rewind]
  cases assertNotForward (row.getD .now) target with
  | error e => simp
  | ok => simp [eq_comm]

/-- An accepted call is its two statements, one after the other. -/
theorem exec_rewind {row row' : Option Cursor} {target : String}
    (h : rewind row target = .ok row') :
    exec step ⟨row, []⟩ [.rewind target, .update 0] = some ⟨row', []⟩ := by
  obtain ⟨hcheck, rfl⟩ := rewind_eq_ok_iff.mp h
  obtain ⟨c, hread, -⟩ := assertNotForward_eq_ok hcheck
  have hchecked : step ⟨row, []⟩ (.rewind target) =
      some ⟨row, [.start c (row.getD .now)]⟩ := by
    simp only [step, CursorState.current, hcheck, hread, List.nil_append]
  rw [exec_cons_of_step hchecked, hread]
  cases row <;> rfl

/-- A reconciler that starts from a number polls from there. -/
theorem watch_starts_at_token {W : Watcher} {h : History} {db : Database} {m : Merchant} {t : ℕ}
    (hm : db.findMerchantByStellarAddress W.merchantAddress = some m)
    (hc : db.cursor = some (.token t)) (maxPolls : ℕ) :
    W.step h db .down (.start maxPolls) =
      some (db, .polling ⟨m, maxPolls, startPosition db.cursor h, []⟩) := by
  simp [Watcher.step, hm, Database.getCursor, hc, startPosition]

/-- One that starts from "now" polls from the head of the history it finds. -/
theorem watch_starts_at_head {W : Watcher} {h : History} {db : Database} {m : Merchant}
    (hm : db.findMerchantByStellarAddress W.merchantAddress = some m)
    (hc : db.getCursor = .now) (maxPolls : ℕ) :
    W.step h db .down (.start maxPolls) = some (db, .resolving m maxPolls) ∧
      W.step h db (.resolving m maxPolls) .resolveNow = some (db, .resolved m maxPolls h.head) ∧
      W.step h db (.resolved m maxPolls h.head) .persistHead =
        some (db.setCursor (.token h.head),
          .polling ⟨m, maxPolls, startPosition db.cursor h, []⟩) := by
  have hstart : startPosition db.cursor h = h.head := by
    rw [Database.getCursor] at hc
    rw [startPosition, hc]
  refine ⟨?_, rfl, ?_⟩
  · simp [Watcher.step, hm, hc]
  · rw [hstart]
    rfl

/-! ## What is given -/

variable {row row' : Option Cursor} {h₀ h : History} {op : PaymentOp} {cursor : ℕ}

theorem polled_eq_fetches (polls : List (History × ℕ)) : polled cursor polls =
    fetches PaymentOp.pagingToken cursor (polls.map fun p => (p.1.ops, min p.2 pageLimit)) := by
  induction polls generalizing cursor with
  | nil => rfl
  | cons p polls ih =>
    rw [polled, ih]
    rfl

/-- A reconciler is given exactly the operations beyond the position it starts from. -/
theorem wouldBeGiven_iff (hext : h₀.ops <+: h.ops) :
    WouldBeGiven row h₀ h op ↔
      op ∈ after PaymentOp.pagingToken (startPosition row h₀) h.ops := by
  constructor
  · rintro ⟨polls, hpolls, hop⟩
    rw [polled_eq_fetches] at hop
    refine mem_after_of_mem_fetches ?_ hop
    intro a ha
    obtain ⟨p, hp, rfl⟩ := List.mem_map.mp ha
    exact (hpolls.upTo p hp).subset
  · intro hop
    let n := (after PaymentOp.pagingToken (startPosition row h₀) h.ops).length
    refine ⟨List.replicate n (h, 1), ⟨?_, ?_, ?_⟩, ?_⟩
    · intro p hp
      rw [List.eq_of_mem_replicate hp]
      exact hext
    · intro p hp
      rw [List.eq_of_mem_replicate hp]
    · exact List.pairwise_replicate.mpr (.inr (List.prefix_refl _))
    · rw [polled_eq_fetches, List.map_replicate]
      exact mem_fetches_of_mem_after h.ordered hop

/-- No operation lies beyond the head. -/
theorem token_le_head (h : History) (hop : op ∈ h.ops) : op.pagingToken ≤ h.head := by
  cases hlast : h.ops.getLast? with
  | none => simp [List.getLast?_eq_none_iff.mp hlast] at hop
  | some last =>
    obtain ⟨init, hinit⟩ := List.getLast?_eq_some_iff.mp hlast
    have hord : Ordered PaymentOp.pagingToken (init ++ [last]) := hinit ▸ h.ordered
    have hhead : h.head = last.pagingToken := by rw [History.head, hlast]; rfl
    rw [hinit] at hop
    rw [hhead]
    rcases List.mem_append.mp hop with hmem | hmem
    · exact ((List.pairwise_append.mp hord).2.2 op hmem last (List.mem_singleton_self _)).le
    · rw [List.mem_singleton.mp hmem]

/-- A start from no later position skips nothing. -/
theorem neverSkips_of_le (hle : startPosition row' h₀ ≤ startPosition row h₀) :
    NeverSkips row row' h₀ := by
  intro h hext op hop
  rw [wouldBeGiven_iff hext] at hop ⊢
  exact mem_after_of_le hle hop

/-- An operation that is about to happen. -/
def upcoming (pagingToken : ℕ) : PaymentOp where
  pagingToken := pagingToken
  opType := "payment"
  transactionHash := "upcoming"
  assetType := some "native"
  assetCode := none
  assetIssuer := none
  fromAccount := some "GPAYER"
  toAccount := some "GMERCHANT"
  amount := some "1.0000000"
  toMuxed := none
  toMuxedId := none
  transaction := some ⟨some "7", some "id"⟩

/-- A start from a later position skips the next operation, when the old position is not
behind the head. -/
theorem le_of_neverSkips (hhead : h₀.head ≤ startPosition row h₀) (hskip : NeverSkips row row' h₀) :
    startPosition row' h₀ ≤ startPosition row h₀ := by
  by_contra hlt
  -- the next operation comes right after the old position
  let next := upcoming (startPosition row h₀ + 1)
  have hnew : ∀ y ∈ h₀.ops, y.pagingToken < next.pagingToken := by
    intro y hy
    exact Nat.lt_succ_of_le ((token_le_head h₀ hy).trans hhead)
  let h : History := ⟨h₀.ops ++ [next], h₀.ordered.concat hnew⟩
  have hext : h₀.ops <+: h.ops := List.prefix_append _ _
  have hmem : next ∈ h.ops := List.mem_append_right _ (List.mem_singleton_self _)
  have hold : WouldBeGiven row h₀ h next :=
    (wouldBeGiven_iff hext).mpr (mem_after.mpr ⟨hmem, Nat.lt_succ_self _⟩)
  have hgiven := mem_after.mp ((wouldBeGiven_iff hext).mp (hskip h hext next hold))
  have hpos : startPosition row' h₀ < startPosition row h₀ + 1 := hgiven.2
  omega

/-- **An accepted rewind skips no operation** exactly when it does not replace "now" by a
number beyond the head of the history from which the reconciler would have started. -/
theorem rewind_never_skips_iff {row row' : Option Cursor} {target : String}
    (haccepted : rewind row target = .ok row') (h₀ : History) :
    NeverSkips row row' h₀ ↔
      ∀ n, row = some .now → readCursor target = some (.token n) → n ≤ h₀.head := by
  obtain ⟨hcheck, rfl⟩ := rewind_eq_ok_iff.mp haccepted
  obtain ⟨c, hread, hback⟩ := assertNotForward_eq_ok hcheck
  rw [hread]
  match row, c with
  | none, _ => exact iff_of_true (neverSkips_of_le le_rfl) (by simp)
  | some (.token position), c =>
    -- the check compared two positions
    obtain ⟨t, hle, rfl⟩ := hback position rfl
    exact iff_of_true (neverSkips_of_le hle) (by simp)
  | some .now, .now => exact iff_of_true (neverSkips_of_le le_rfl) (by simp)
  | some .now, .token n =>
    constructor
    · intro hskip m _ hm
      obtain rfl := Cursor.token.inj (Option.some.inj hm)
      exact @le_of_neverSkips (some .now) _ h₀ le_rfl hskip
    · intro hle
      exact neverSkips_of_le (hle n rfl rfl)

/-- A rewind by ten positions, from where the next reconciler goes on. -/
theorem rewind_never_skips_example :
    NeverSkips (some (.token 100)) (some (.token 90)) .empty ∧
      exec step ⟨some (.token 100), []⟩ [.rewind "90", .update 0] = some ⟨some (.token 90), []⟩ ∧
      exampleWatcher.step .empty (exampleDb.setCursor (.token 90)) .down (.start 1) =
        some (exampleDb.setCursor (.token 90), .polling ⟨exampleMerchant, 1, 90, []⟩) := by
  have haccepted : rewind (some (.token 100)) "90" = .ok (some (.token 90)) := by decide +kernel
  exact ⟨(rewind_never_skips_iff haccepted .empty).mpr (by simp), exec_rewind haccepted,
    watch_starts_at_token rfl rfl 1⟩

/-- Moved off "now" to 50 while the account is empty, the reconciler is not given the
operation 10 that happens next. -/
theorem rewind_from_now_skips :
    rewind (some .now) "50" = .ok (some (.token 50)) ∧
      exampleWatcher.step .empty (exampleDb.setCursor .now) (.resolved exampleMerchant 1 0)
          .persistHead =
        some (exampleDb.setCursor (.token 0), .polling ⟨exampleMerchant, 1, 0, []⟩) ∧
      ¬NeverSkips (some .now) (some (.token 50)) .empty := by
  refine ⟨by decide +kernel, (watch_starts_at_head rfl rfl 1).2.2, ?_⟩
  intro hskip
  have hlate := @le_of_neverSkips (some .now) _ .empty le_rfl hskip
  have hnum : (50 : ℕ) ≤ 0 := hlate
  omega

end KonfirmBackend.Admin
