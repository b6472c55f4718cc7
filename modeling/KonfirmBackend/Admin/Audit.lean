import KonfirmBackend.Admin.Rewind
import KonfirmBackend.Payments

/-!
# The audit log of the admins

Each of the eight endpoints that change something makes its change in one statement and
inserts its row into `admin_actions` in a second one. Between the two, other writers run and
the process may lose its connection. The guard trusts the token: whether the admin still
has a row is only seen by the statements that store a reference to it.

## Main definitions

- `Request` — the endpoints, with what they are sent
- `Request.mutate` — the statement of a request
- `serve` — a request from its first statement to its last one
- `Served.Audited` — a change that has been committed has its row

## Main results

- `audited_iff` — which requests are audited
-/

namespace KonfirmBackend.Admin

open Reconciler (Cursor PaymentStatus)
open Payments (MerchantStatus)

inductive RiskTier
  | unverified
  | standard
  | established
  | enterprise
deriving DecidableEq

inductive ListingStatus
  | pending
  | approved
  | rejected
deriving DecidableEq

structure MerchantRow where
  id : String
  status : MerchantStatus
  riskTier : RiskTier
deriving DecidableEq

structure PaymentRow where
  id : String
  status : PaymentStatus
deriving DecidableEq

structure BlockedAddress where
  id : String
  stellarAddress : String
  reason : Option String
  blockedBy : Option String
deriving DecidableEq

structure BazaarListing where
  id : String
  status : ListingStatus
  reviewedBy : Option String
deriving DecidableEq

/-- A row of `admin_actions`; the detail is a list of named texts. -/
structure AdminAction where
  adminId : String
  action : String
  targetType : String
  targetId : String
  detail : Option (List (String × String))
deriving DecidableEq

/-- The tables that the endpoints read and write. -/
structure AdminDb where
  admins : List String
  merchants : List MerchantRow
  payments : List PaymentRow
  blockedAddresses : List BlockedAddress
  cursor : Option Cursor
  bazaarListings : List BazaarListing
  facilitatorState : List (String × String)
  adminActions : List AdminAction
deriving DecidableEq

/-- How a statement or a request fails; a Postgres error comes with its code. -/
inductive Failure
  | badRequest (e : BadRequest)
  | notFound (message : String)
  | conflict (message : String)
  | postgres (code : String)
  | unanswered
deriving DecidableEq

/-! ## The statements -/

/-- `UPDATE … WHERE id = $1 RETURNING …`, where no row is an exception. -/
def updateRow {ρ : Type} (key : ρ → String) (notFound id : String) (f : ρ → ρ) (rows : List ρ) :
    Except Failure (List ρ) :=
  if rows.any fun row => key row = id then
    .ok (rows.map fun row => if key row = id then f row else row)
  else .error (.notFound notFound)

namespace AdminDb

variable (db : AdminDb)

/-- A reference to `admins(id)`. -/
def references (admin : String) : Except Failure Unit :=
  if admin ∈ db.admins then .ok () else .error (.postgres "23503")

def setMerchantStatus (id : String) (status : MerchantStatus) : Except Failure AdminDb := do
  let merchants ← updateRow MerchantRow.id "merchant not found" id
    (fun m => { m with status := status }) db.merchants
  return { db with merchants := merchants }

def setTier (id : String) (riskTier : RiskTier) : Except Failure AdminDb := do
  let merchants ← updateRow MerchantRow.id "merchant not found" id
    (fun m => { m with riskTier := riskTier }) db.merchants
  return { db with merchants := merchants }

def setPaymentStatus (id : String) (status : PaymentStatus) : Except Failure AdminDb := do
  let payments ← updateRow PaymentRow.id "payment not found" id
    (fun p => { p with status := status }) db.payments
  return { db with payments := payments }

/-- `block`: the address is unique, and `blocked_by` refers to the admin. -/
def block (freshId stellarAddress admin : String) (reason : Option String) :
    Except Failure AdminDb :=
  if db.blockedAddresses.any fun b => b.stellarAddress = stellarAddress then
    .error (.conflict "this address is already blocked")
  else do
    db.references admin
    return { db with
      blockedAddresses := db.blockedAddresses ++ [⟨freshId, stellarAddress, reason, some admin⟩] }

def unblock (id : String) : Except Failure AdminDb :=
  if db.blockedAddresses.any fun b => b.id = id then
    .ok { db with blockedAddresses := db.blockedAddresses.filter fun b => b.id ≠ id }
  else .error (.notFound "blocked address not found")

/-- `setStatus` of a listing; `reviewed_by` refers to the admin. -/
def setListingStatus (id : String) (status : ListingStatus) (admin : String) :
    Except Failure AdminDb := do
  let listings ← updateRow BazaarListing.id "listing not found" id
    (fun l => { l with status := status, reviewedBy := some admin }) db.bazaarListings
  db.references admin
  return { db with bazaarListings := listings }

/-- `AdminActionsService.log`. -/
def log (row : AdminAction) : Except Failure AdminDb := do
  db.references row.adminId
  return { db with adminActions := db.adminActions ++ [row] }

end AdminDb

def HALT_KEY : String := "halted_at"

def HALT_REASON_KEY : String := "halt_reason"

/-! ## The endpoints -/

/-- The statuses a merchant can be given. -/
inductive MerchantStatusBody
  | active
  | suspended
deriving DecidableEq

def MerchantStatusBody.status : MerchantStatusBody → MerchantStatus
  | active => .active
  | suspended => .suspended

/-- The statuses a payment can be given. -/
inductive PaymentStatusBody
  | paid
  | held
  | disputed
deriving DecidableEq

def PaymentStatusBody.status : PaymentStatusBody → PaymentStatus
  | paid => .paid
  | held => .held
  | disputed => .disputed

def PaymentStatusBody.text : PaymentStatusBody → String
  | paid => "paid"
  | held => "held"
  | disputed => "disputed"

/-- The statuses a listing can be given. -/
inductive ListingStatusBody
  | approved
  | rejected
deriving DecidableEq

def ListingStatusBody.status : ListingStatusBody → ListingStatus
  | approved => .approved
  | rejected => .rejected

def ListingStatusBody.text : ListingStatusBody → String
  | approved => "approved"
  | rejected => "rejected"

def RiskTier.text : RiskTier → String
  | unverified => "unverified"
  | standard => "standard"
  | established => "established"
  | enterprise => "enterprise"

/-- A request to one of the endpoints that change something. -/
inductive Request
  | setMerchantStatus (id : String) (status : MerchantStatusBody) (reason : Option String)
  | setMerchantTier (id : String) (riskTier : RiskTier) (reason : Option String)
  | setPaymentStatus (id : String) (status : PaymentStatusBody) (reason : Option String)
  | blockAddress (stellarAddress : String) (reason : Option String)
  | unblockAddress (id : String)
  | rewindReconciler (cursor : String)
  | setBazaarListingStatus (id : String) (status : ListingStatusBody)
  | resumeFacilitator
deriving DecidableEq

namespace Request

def action : Request → String
  | setMerchantStatus _ .suspended _ => "merchant.suspend"
  | setMerchantStatus _ .active _ => "merchant.reactivate"
  | setMerchantTier _ _ _ => "merchant.set-tier"
  | setPaymentStatus _ status _ => "payment.set-status." ++ status.text
  | blockAddress _ _ => "compliance.block-address"
  | unblockAddress _ => "compliance.unblock-address"
  | rewindReconciler _ => "reconciler.rewind"
  | setBazaarListingStatus _ status => "bazaar-listing." ++ status.text
  | resumeFacilitator => "facilitator.resume"

/-- The type and the id of the target. -/
def target : Request → String × String
  | setMerchantStatus id _ _ | setMerchantTier id _ _ => ("merchant", id)
  | setPaymentStatus id _ _ => ("payment", id)
  | blockAddress stellarAddress _ => ("stellar_address", stellarAddress)
  | unblockAddress id => ("blocked_address", id)
  | rewindReconciler _ => ("reconciler_cursor", "cursor")
  | setBazaarListingStatus id _ => ("bazaar_listing", id)
  | resumeFacilitator => ("facilitator", "spend-guard")

/-- `JSON.stringify` leaves out a reason that is not there. -/
def reasonDetail (reason : Option String) : List (String × String) :=
  reason.toList.map fun text => ("reason", text)

def cursorText : Cursor → String
  | .now => "now"
  | .token t => toString t

/-- `previous` is the cursor that a rewind has read. -/
def detail (previous : Option Cursor) : Request → Option (List (String × String))
  | setMerchantStatus _ _ reason | setPaymentStatus _ _ reason | blockAddress _ reason =>
    some (reasonDetail reason)
  | setMerchantTier _ riskTier reason => some (("risk_tier", riskTier.text) :: reasonDetail reason)
  | rewindReconciler cursor =>
    some [("previous", cursorText (previous.getD .now)), ("new", cursor)]
  | unblockAddress _ | setBazaarListingStatus _ _ | resumeFacilitator => none

/-- The row that is logged for a request. -/
def row (r : Request) (admin : String) (previous : Option Cursor) : AdminAction :=
  ⟨admin, r.action, r.target.1, r.target.2, r.detail previous⟩

/-- The statement that makes the change: the tables after it, and whether it has changed a
row. -/
def mutate (r : Request) (admin freshId : String) (db : AdminDb) : Except Failure (AdminDb × Bool) :=
  match r with
  | setMerchantStatus id status _ => do return (← db.setMerchantStatus id status.status, true)
  | setMerchantTier id riskTier _ => do return (← db.setTier id riskTier, true)
  | setPaymentStatus id status _ => do return (← db.setPaymentStatus id status.status, true)
  | blockAddress stellarAddress reason => do
    return (← db.block freshId stellarAddress admin reason, true)
  | unblockAddress id => do return (← db.unblock id, true)
  | rewindReconciler cursor =>
    match db.cursor, readCursor cursor with
    | some _, some c => .ok ({ db with cursor := some c }, true)
    | _, _ => .ok (db, false)
  | setBazaarListingStatus id status => do
    return (← db.setListingStatus id status.status admin, true)
  | resumeFacilitator =>
    .ok ({ db with facilitatorState :=
        db.facilitatorState.filter fun e => e.1 ∉ [HALT_KEY, HALT_REASON_KEY] },
      db.facilitatorState.any fun e => e.1 ∈ [HALT_KEY, HALT_REASON_KEY])

end Request

/-! ## Serving a request -/

/-- How a query ends: Postgres carries it out and answers, does not carry it out, or carries
it out and its answer is lost. -/
inductive Query
  | answered
  | refused
  | answerLost
deriving DecidableEq

/-- What comes before the statement: a rewind reads the cursor and checks its target. -/
def Request.read (r : Request) (answer : Query) (db : AdminDb) : Except Failure (Option Cursor) :=
  match r, answer with
  | rewindReconciler cursor, .answered =>
    match assertNotForward (db.cursor.getD .now) cursor with
    | .error e => .error (.badRequest e)
    | .ok () => .ok (some (db.cursor.getD .now))
  | rewindReconciler _, _ => .error .unanswered
  | _, _ => .ok none

/-- The outside of a request: how its queries end, and what others write between them. -/
structure Surroundings where
  read : Query
  beforeMutation : AdminDb → AdminDb
  mutation : Query
  beforeLog : AdminDb → AdminDb
  log : Query
  freshId : String

/-- The answer to a request, whether it has committed a change, the row it has committed,
and the tables after its last statement. -/
structure Served where
  answer : Except Failure Unit
  mutated : Bool
  logged : Option AdminAction
  db : AdminDb
deriving DecidableEq

/-- The log of a request, once its statement has been answered. -/
def serveLog (r : Request) (admin : String) (o : Surroundings) (previous : Option Cursor)
    (mutated : Bool) (db : AdminDb) : Served :=
  match o.log, db.log (r.row admin previous) with
  | .refused, _ | .answerLost, .error _ => ⟨.error .unanswered, mutated, none, db⟩
  | .answered, .error e => ⟨.error e, mutated, none, db⟩
  | .answered, .ok db' => ⟨.ok (), mutated, some (r.row admin previous), db'⟩
  | .answerLost, .ok db' => ⟨.error .unanswered, mutated, some (r.row admin previous), db'⟩

/-- A request that has passed `AdminGuard`, with the id in its token. -/
def serve (r : Request) (admin : String) (o : Surroundings) (db : AdminDb) : Served :=
  match r.read o.read db with
  | .error e => ⟨.error e, false, none, db⟩
  | .ok previous =>
    match o.mutation, r.mutate admin o.freshId (o.beforeMutation db) with
    | .refused, _ | .answerLost, .error _ =>
      ⟨.error .unanswered, false, none, o.beforeMutation db⟩
    | .answered, .error e => ⟨.error e, false, none, o.beforeMutation db⟩
    | .answerLost, .ok (db', mutated) => ⟨.error .unanswered, mutated, none, db'⟩
    | .answered, .ok (db', mutated) => serveLog r admin o previous mutated (o.beforeLog db')

/-- A change that has been committed has a row that names the admin, the action and the
target. -/
def Served.Audited (s : Served) (r : Request) (admin : String) : Prop :=
  s.mutated = true → ∃ row ∈ s.logged, row ∈ s.db.adminActions ∧ row.adminId = admin ∧
    row.action = r.action ∧ (row.targetType, row.targetId) = r.target

instance (s : Served) (r : Request) (admin : String) : Decidable (s.Audited r admin) :=
  inferInstanceAs (Decidable (_ → ∃ row ∈ s.logged, _))

/-- The tables right after the change, for a request that commits one. -/
def committed (r : Request) (admin : String) (o : Surroundings) (db : AdminDb) : Option AdminDb :=
  match r.read o.read db, o.mutation, r.mutate admin o.freshId (o.beforeMutation db) with
  | .ok _, .answered, .ok (db', true) | .ok _, .answerLost, .ok (db', true) => some db'
  | _, _, _ => none

section Serving

variable {r : Request} {admin freshId : String} {o : Surroundings} {db db' : AdminDb}
  {previous : Option Cursor} {mutated : Bool}

/-- The row is inserted if the admin is still there. -/
theorem log_of_mem {row : AdminAction} (h : row.adminId ∈ db.admins) :
    db.log row = .ok { db with adminActions := db.adminActions ++ [row] } := by
  rw [AdminDb.log, AdminDb.references, if_pos h]
  rfl

theorem log_of_not_mem {row : AdminAction} (h : row.adminId ∉ db.admins) :
    db.log row = .error (.postgres "23503") := by
  rw [AdminDb.log, AdminDb.references, if_neg h]
  rfl

/-- A change whose statement has been answered is audited when the log goes through. -/
theorem audited_serveLog_iff : (serveLog r admin o previous mutated db).Audited r admin ↔
    (mutated = true → o.log ≠ .refused ∧ admin ∈ db.admins) := by
  by_cases hadmin : admin ∈ db.admins
  · have hlog : db.log (r.row admin previous) = _ := log_of_mem hadmin
    rw [serveLog, hlog]
    cases o.log <;> simp [Served.Audited, Request.row, hadmin]
  · have hlog : db.log (r.row admin previous) = _ := log_of_not_mem hadmin
    rw [serveLog, hlog]
    cases o.log <;> simp [Served.Audited, hadmin]

/-- A request that has changed nothing has nothing to audit. -/
theorem audited_of_not_mutated {s : Served} (h : s.mutated = false) : s.Audited r admin := by
  intro hmutated
  rw [h] at hmutated
  cases hmutated

end Serving

/-- **Audited requests**: whatever fails and whatever others write meanwhile, a change that is
committed has its row exactly when the statement is answered, the log is not refused, and the
admin has not lost its own row by then. -/
theorem audited_iff (r : Request) (admin : String) (o : Surroundings) (db : AdminDb) :
    (serve r admin o db).Audited r admin ↔
      ∀ db' ∈ committed r admin o db,
        o.mutation = .answered ∧ o.log ≠ .refused ∧ admin ∈ (o.beforeLog db').admins := by
  rw [serve, committed]
  cases r.read o.read db with
  | error e => simpa using audited_of_not_mutated rfl
  | ok previous =>
    cases hstatement : r.mutate admin o.freshId (o.beforeMutation db) with
    | error e => cases o.mutation <;> simpa using audited_of_not_mutated rfl
    | ok result =>
      obtain ⟨db', mutated⟩ := result
      cases mutated with
      | false =>
        cases o.mutation with
        | answered => simp [audited_serveLog_iff]
        | refused | answerLost => simpa using audited_of_not_mutated rfl
      | true =>
        cases o.mutation with
        | answered => simp [audited_serveLog_iff]
        | refused => simpa using audited_of_not_mutated rfl
        | answerLost => simp [Served.Audited]

/-- One active merchant, and no admin: the one who holds the token has been deleted. -/
def exampleAdminDb : AdminDb where
  admins := []
  merchants := [⟨"m1", .active, .unverified⟩]
  payments := []
  blockedAddresses := []
  cursor := none
  bazaarListings := []
  facilitatorState := []
  adminActions := []

/-- Every query is answered, and nobody else writes. -/
def undisturbed : Surroundings := ⟨.answered, id, .answered, id, .answered, "b1"⟩

/-- The merchant is suspended, and no row says by whom. -/
theorem suspension_not_audited :
    (serve (.setMerchantStatus "m1" .suspended none) "a1" undisturbed exampleAdminDb).db =
        { exampleAdminDb with merchants := [⟨"m1", .suspended, .unverified⟩] } ∧
      (serve (.setMerchantStatus "m1" .suspended none) "a1" undisturbed exampleAdminDb).answer =
        .error (.postgres "23503") ∧
      ¬(serve (.setMerchantStatus "m1" .suspended none) "a1" undisturbed exampleAdminDb).Audited
        (.setMerchantStatus "m1" .suspended none) "a1" := by
  refine ⟨rfl, rfl, ?_⟩
  decide

end KonfirmBackend.Admin
