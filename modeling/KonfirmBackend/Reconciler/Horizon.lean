import KonfirmBackend.Lib.OrderedLog
import KonfirmBackend.Reconciler.Decimal
import Mathlib.Data.UInt

/-!
# Horizon operations and session ids

What the reconciler reads from Horizon's `/accounts/{merchant}/payments` and how
it finds the session id a payment carries: a `MEMO_ID` first, then the explicit
muxed id, then a muxed destination address. The strkey decoder is a dependency
and stays a parameter.

## Main definitions

- `PaymentOp`, `History` — operations and the merchant's ordered history of them
- `PaymentOp.sessionId` — the session id, if the operation carries one
- `usdAmount` — the dollar value recorded for an operation
- `OrderBook.xlmUsdcRate` — the rate applied to XLM amounts
-/

namespace KonfirmBackend.Reconciler

/-- Why a call of the reconciler fails. `context` is an error raised with its own
text; a panic inside `Decimal` arithmetic ends the process as an error does. -/
inductive Failure
  | context (message : String)
  | decimalSyntax
  | decimalOverflow
  | rowNotFound
  | numericOverflow
  | uniqueViolation (index : String)
deriving DecidableEq

/-- `?` on a missing value. -/
def orFail {α : Type} (x : Option α) (e : Failure) : Except Failure α :=
  match x with
  | some a => .ok a
  | none => .error e

theorem orFail_eq_ok {α : Type} {x : Option α} {e : Failure} {a : α} :
    orFail x e = .ok a ↔ x = some a := by
  cases x <;> simp [orFail]

@[simp] theorem orFail_some {α : Type} (a : α) (e : Failure) : orFail (some a) e = .ok a := rfl

/-- What a call that returned has gone through. -/
theorem bind_eq_ok {α β : Type} {x : Except Failure α} {f : α → Except Failure β} {b : β} :
    (x >>= f) = .ok b ↔ ∃ a, x = .ok a ∧ f a = .ok b := by
  cases x <;> simp [bind, Except.bind]

theorem ok_bind {α β : Type} (a : α) (f : α → Except Failure β) :
    (Except.ok a >>= f) = f a := rfl

structure EmbeddedTransaction where
  memo : Option String
  memoType : Option String
deriving DecidableEq

/-- An operation record. Only the fields every operation type shares are
mandatory; the paging token is Horizon's decimal string read as a number. -/
structure PaymentOp where
  pagingToken : ℕ
  opType : String
  transactionHash : String
  assetType : Option String
  assetCode : Option String
  assetIssuer : Option String
  fromAccount : Option String
  toAccount : Option String
  amount : Option String
  toMuxed : Option String
  toMuxedId : Option String
  transaction : Option EmbeddedTransaction
deriving DecidableEq

/-- The merchant's operations, in the order Horizon lists them. -/
structure History where
  ops : List PaymentOp
  ordered : OrderedLog.Ordered PaymentOp.pagingToken ops
deriving DecidableEq

namespace History

def empty : History := ⟨[], List.Pairwise.nil⟩

/-- One more operation, later than all others; an earlier one is refused. -/
def append (h : History) (op : PaymentOp) : Option History :=
  if hlt : ∀ y ∈ h.ops, y.pagingToken < op.pagingToken then
    some ⟨h.ops ++ [op], h.ordered.concat hlt⟩
  else none

/-- `resolve_now_cursor`: the latest paging token, "0" on an empty account. -/
def head (h : History) : ℕ := (h.ops.getLast?.map PaymentOp.pagingToken).getD 0

/-- A `payments_since` response: some of the operations after the cursor, oldest
first and at most `limit` of them. -/
def paymentsSince (h : History) (cursor n limit : ℕ) : List PaymentOp :=
  (OrderedLog.after PaymentOp.pagingToken cursor h.ops).take (min n limit)

theorem nodup (h : History) : h.ops.Nodup :=
  h.ordered.imp fun hlt heq => absurd (congrArg PaymentOp.pagingToken heq) hlt.ne

theorem append_eq_some {h h' : History} {op : PaymentOp} (ha : h.append op = some h') :
    (∀ y ∈ h.ops, y.pagingToken < op.pagingToken) ∧ h'.ops = h.ops ++ [op] := by
  simp only [append] at ha
  split at ha
  · rw [← Option.some.inj ha]
    exact ⟨‹_›, rfl⟩
  · simp at ha

theorem paymentsSince_isPrefix (h : History) (cursor n limit : ℕ) :
    h.paymentsSince cursor n limit <+: OrderedLog.after PaymentOp.pagingToken cursor h.ops :=
  List.take_prefix _ _

end History

/-- A decoded `M...` address. -/
structure MuxedAccount where
  account : String
  id : UInt64
deriving DecidableEq

/-- `str::parse::<u64>`: an optional plus sign and digits, without overflow. -/
def parseU64 (s : String) : Option UInt64 :=
  let digits := match s.toList with
    | '+' :: cs => cs
    | cs => cs
  (Numeral.readNat digits).bind fun n : ℕ => if n < 2 ^ 64 then some (UInt64.ofNat n) else none

section Strkey

-- `MuxedAccount::from_string` of the strkey crate.
variable (muxedFromString : String → Option MuxedAccount)

def decodeMuxedId (address : String) : Option UInt64 :=
  (muxedFromString address).map MuxedAccount.id

/-- The explicit id wins, then the muxed form of the destination, then the
destination itself. -/
def paymentMuxedId (toMuxedId toMuxed : Option String) (toAccount : String) : Option UInt64 :=
  ((toMuxedId.bind parseU64).or (toMuxed.bind (decodeMuxedId muxedFromString))).or
    (decodeMuxedId muxedFromString toAccount)

namespace PaymentOp

/-- The id in the transaction's memo, when its type is "id". -/
def memoId (op : PaymentOp) : Option UInt64 :=
  op.transaction.bind fun t =>
    if t.memoType = some "id" then t.memo.bind parseU64 else none

/-- The session id `watch` routes the operation by. -/
def sessionId (op : PaymentOp) : Option UInt64 :=
  op.memoId.or
    (paymentMuxedId muxedFromString op.toMuxedId op.toMuxed (op.toAccount.getD ""))

/-- The operations `watch` records: payments that carry a session id. -/
def Matched (op : PaymentOp) : Prop :=
  op.opType = "payment" ∧ (op.sessionId muxedFromString).isSome

instance (op : PaymentOp) : Decidable (op.Matched muxedFromString) :=
  inferInstanceAs (Decidable (_ ∧ _))

/-- An id memo is a session id, whatever the destination. -/
theorem sessionId_of_memoId {op : PaymentOp} {id : UInt64} (h : op.memoId = some id) :
    op.sessionId muxedFromString = some id := by
  rw [sessionId, h, Option.some_or]

end PaymentOp

end Strkey

namespace PaymentOp

/-- The asset code and issuer that are recorded; the native asset is "XLM". -/
def asset (op : PaymentOp) : String × Option String :=
  if op.assetType = some "native" then ("XLM", none)
  else (op.assetCode.getD "", op.assetIssuer)

def isXlm (op : PaymentOp) : Bool := op.asset.1 = "XLM"

def payer (op : PaymentOp) : String := op.fromAccount.getD ""

def rawAmount (op : PaymentOp) : String := op.amount.getD "0"

def muxedAddress (op : PaymentOp) : String := op.toMuxed.getD (op.toAccount.getD "")

end PaymentOp

/-- The prices of the two sides of the order book, best first. -/
structure OrderBook where
  bids : List String
  asks : List String
deriving DecidableEq

/-- The best price of one side; a price that is there has to be a decimal. -/
def bestPrice (D : RustDecimal) (levels : List String) : Except Failure (Option ℚ) :=
  match levels.head? with
  | none => .ok none
  | some price => do return some (← orFail (D.parse price) .decimalSyntax)

/-- `xlm_usdc_rate`: the midpoint of the best bid and the best ask, or the one
side there is. -/
def OrderBook.xlmUsdcRate (D : RustDecimal) (book : OrderBook) : Except Failure ℚ := do
  let bestBid ← bestPrice D book.bids
  let bestAsk ← bestPrice D book.asks
  match bestBid, bestAsk with
  | some bid, some ask =>
    orFail ((D.add bid ask).bind fun total => D.div total 2) .decimalOverflow
  | some bid, none => return bid
  | none, some ask => return ask
  | none, none =>
    throw (.context "XLM/USDC order book is empty on both sides — no rate available")

/-- The dollar amount of an operation as `record_payment_if_new` reads it: the
raw amount times the rate for XLM, else the raw amount itself. `none` is a string
that is no decimal; a product's string parses back to the product. -/
def usdAmount (D : RustDecimal) (appliedRate : Option ℚ) (rawAmount : String) :
    Except Failure (Option ℚ) :=
  match appliedRate with
  | none => return D.parse rawAmount
  | some rate => do
    let raw ← orFail (D.parse rawAmount) (.context "horizon returned a non-decimal XLM amount")
    let usd ← orFail (D.mul raw rate) .decimalOverflow
    return some usd

/-- The amount of a request is a value of the decimal type. -/
theorem representable_of_usdAmount {D : RustDecimal} {applied amount : Option ℚ}
    {raw : String} (h : usdAmount D applied raw = .ok amount) : ∀ q ∈ amount, Representable q := by
  intro q hq
  cases applied with
  | none =>
    obtain rfl := Except.ok.inj h
    exact D.parse_representable _ _ hq
  | some rate =>
    obtain ⟨x, -, h⟩ := bind_eq_ok.mp h
    obtain ⟨y, hy, h⟩ := bind_eq_ok.mp h
    obtain rfl := Except.ok.inj h
    obtain rfl := Option.some.inj hq
    exact D.mul_representable _ _ _ (orFail_eq_ok.mp hy)

end KonfirmBackend.Reconciler
