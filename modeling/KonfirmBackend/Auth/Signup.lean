import KonfirmBackend.Auth.Accounts
import KonfirmBackend.Lib.Transition
import KonfirmBackend.Referrals.Rewards

/-!
# Concurrent signups

`AuthService.signup` runs up to five kinds of statements, none of them in a transaction with
another: the lookup of the e-mail, the lookup of the referrer, the lookups of freshly drawn
referral codes, the INSERT of the merchant and, for a referred one, the INSERT into
`referrals`. Any number of calls run at once, each statement may fail, and the answer to an
INSERT may be lost after the INSERT has been committed. The token that a successful call
signs is left out.

## Main definitions

- `AccountDb.insertAccount`, `AccountDb.insertReferral` — the INSERTs with their constraints
- `advance` — what one statement does to its call and to the database
- `World`, `step` — the calls on one database
- `AllOrNothing` — a call that has ended has left its merchant whole, or no merchant
- `ConflictOnly` — a call that ends with its e-mail taken ends in the conflict
- `Undisturbed` — the steps under which both hold

## Main results

- `AccountDb.Constrained.insertAccount`, `AccountDb.Constrained.insertReferral` — the INSERTs
  keep the constraints
-/

namespace KonfirmBackend.Auth

open Reconciler Referrals Transition

/-- Excludes 0/O/1/I. -/
def REFERRAL_CODE_ALPHABET : List Char := "ABCDEFGHJKLMNPQRSTUVWXYZ23456789".toList

def REFERRAL_CODE_LENGTH : ℕ := 8

/-- The results of `randomReferralCode`. -/
def IsReferralCode (code : String) : Prop :=
  code.length = REFERRAL_CODE_LENGTH ∧ code.toList.all fun c => REFERRAL_CODE_ALPHABET.elem c

instance (code : String) : Decidable (IsReferralCode code) :=
  inferInstanceAs (Decidable (_ ∧ _ = true))

def CODE_ATTEMPTS : ℕ := 5

structure SignupInput where
  email : String
  password : String
  name : String
  stellarBaseAddress : String
  referralCode : Option String
deriving DecidableEq

structure MerchantClaims where
  id : ℕ
  email : String
  name : String
  stellarBaseAddress : Option String
deriving DecidableEq

/-- How a signup fails; a Postgres error comes with its code. -/
inductive SignupError
  | conflict (message : String)
  | thrown (message : String)
  | postgres (code : String)
  | unanswered
deriving DecidableEq

def emailTaken : SignupError := .conflict "an account with this email already exists"

def codesExhausted : SignupError :=
  .thrown "could not generate a unique referral code after 5 attempts"

/-! ## The statements -/

namespace AccountDb

/-- `SELECT id FROM merchants WHERE email = $1` has a row. -/
def HasEmail (db : AccountDb) (email : String) : Prop := ∃ a ∈ db.accounts, a.email = email

instance (db : AccountDb) (email : String) : Decidable (db.HasEmail email) :=
  inferInstanceAs (Decidable (∃ a ∈ db.accounts, _))

/-- `SELECT 1 FROM merchants WHERE referral_code = $1` has a row. -/
def HasCode (db : AccountDb) (code : String) : Prop :=
  ∃ a ∈ db.accounts, a.referralCode = some code

instance (db : AccountDb) (code : String) : Decidable (db.HasCode code) :=
  inferInstanceAs (Decidable (∃ a ∈ db.accounts, _))

def HasId (db : AccountDb) (id : ℕ) : Prop := ∃ a ∈ db.accounts, a.id = id

instance (db : AccountDb) (id : ℕ) : Decidable (db.HasId id) :=
  inferInstanceAs (Decidable (∃ a ∈ db.accounts, _))

/-- `SELECT id FROM merchants WHERE referral_code = $1`. -/
def referrerOf (db : AccountDb) (code : String) : Option ℕ :=
  (db.accounts.find? fun a => decide (a.referralCode = some code)).map fun a => a.id

/-- A merchant has a `referrals` row. -/
def IsReferred (db : AccountDb) (id : ℕ) : Prop := ∃ r ∈ db.referrals, r.referredId = id

instance (db : AccountDb) (id : ℕ) : Decidable (db.IsReferred id) :=
  inferInstanceAs (Decidable (∃ r ∈ db.referrals, _))

/-- `INSERT INTO merchants`, with the unique columns; 23505 is `unique_violation`. -/
def insertAccount (db : AccountDb) (a : Account) : Except String AccountDb :=
  if db.HasEmail a.email ∨ ∃ code ∈ a.referralCode, db.HasCode code then .error "23505"
  else .ok { db with accounts := db.accounts ++ [a] }

/-- `INSERT INTO referrals`, with the unique column and the two references; 23503 is
`foreign_key_violation`. -/
def insertReferral (db : AccountDb) (r : ReferralRow) : Except String AccountDb :=
  if db.IsReferred r.referredId then .error "23505"
  else if db.HasId r.referrerId ∧ db.HasId r.referredId then
    .ok { db with referrals := db.referrals ++ [r] }
  else .error "23503"

end AccountDb

/-! ## One call -/

/-- What a call waits for, with what it knows by then. -/
inductive Phase
  | checkingEmail
  | findingReferrer (code : String)
  | hashing (referrerId : Option ℕ)
  | drawing (referrerId : Option ℕ) (passwordHash : String) (attempt : ℕ)
  | inserting (referrerId : Option ℕ) (passwordHash ownCode : String)
  | attributing (referrerId : ℕ) (merchant : MerchantClaims)
  | ended (result : Except SignupError MerchantClaims)
deriving DecidableEq

/-- A call; `row` is the id under which its merchant has been stored. -/
structure Call where
  input : SignupInput
  phase : Phase
  row : Option ℕ
deriving DecidableEq

/-- How the statement that a call waits for ends. The `…Lost` events commit their INSERT; the
call hears of a failure all the same. -/
inductive Event
  | emailSelected
  | referrerSelected
  | hashed (passwordHash : String)
  | codeSelected (code : String)
  | merchantInserted (id now : ℕ)
  | merchantInsertLost (id now : ℕ)
  | referralInserted (now : ℕ)
  | referralInsertLost (now : ℕ)
  | failed
deriving DecidableEq

/-- The row of a call's merchant. -/
def SignupInput.account (input : SignupInput) (referrerId : Option ℕ)
    (passwordHash ownCode : String) (id now : ℕ) : Account where
  toMerchantRow := signup id input.stellarBaseAddress referrerId now
  email := input.email
  passwordHash := passwordHash
  name := input.name
  status := "active"
  referralCode := some ownCode

def SignupInput.claims (input : SignupInput) (id : ℕ) : MerchantClaims where
  id := id
  email := input.email
  name := input.name
  stellarBaseAddress := some input.stellarBaseAddress

namespace Call

def goesTo (c : Call) (phase : Phase) : Call := { c with phase := phase }

def fails (c : Call) (e : SignupError) : Call := c.goesTo (.ended (.error e))

/-- After the e-mail has been found free; an empty code is no code. -/
def afterEmail (c : Call) : Phase :=
  match c.input.referralCode with
  | none => .hashing none
  | some code => if code = "" then .hashing none else .findingReferrer code

/-- After the merchant has been stored. -/
def afterInsert (c : Call) (referrerId : Option ℕ) (id : ℕ) : Phase :=
  match referrerId with
  | none => .ended (.ok (c.input.claims id))
  | some referrer => .attributing referrer (c.input.claims id)

end Call

variable (toUpperCase : String → String)

/-- The row that attributes a call's merchant to its referrer. -/
def SignupInput.referral (input : SignupInput) (referrerId id now : ℕ) : ReferralRow where
  referrerId := referrerId
  referredId := id
  code := toUpperCase (input.referralCode.getD "")
  createdAt := now

/-- One statement of a call; `none` where the event is not one that the call waits for, or
an id or a code could not have been drawn. -/
def advance (db : AccountDb) (c : Call) : Event → Option (AccountDb × Call)
  | .emailSelected =>
    match c.phase with
    | .checkingEmail =>
      if db.HasEmail c.input.email then some (db, c.fails emailTaken)
      else some (db, c.goesTo c.afterEmail)
    | _ => none
  | .referrerSelected =>
    match c.phase with
    | .findingReferrer code =>
      some (db, c.goesTo (.hashing (db.referrerOf (toUpperCase code))))
    | _ => none
  | .hashed passwordHash =>
    match c.phase with
    | .hashing referrerId => some (db, c.goesTo (.drawing referrerId passwordHash 0))
    | _ => none
  | .codeSelected code =>
    match c.phase with
    | .drawing referrerId passwordHash attempt =>
      if ¬IsReferralCode code then none
      else if ¬db.HasCode code then
        some (db, c.goesTo (.inserting referrerId passwordHash code))
      else if attempt + 1 < CODE_ATTEMPTS then
        some (db, c.goesTo (.drawing referrerId passwordHash (attempt + 1)))
      else some (db, c.fails codesExhausted)
    | _ => none
  | .merchantInserted id now =>
    match c.phase with
    | .inserting referrerId passwordHash ownCode =>
      if db.HasId id then none
      else match db.insertAccount (c.input.account referrerId passwordHash ownCode id now) with
        | .error code => some (db, c.fails (.postgres code))
        | .ok db' => some (db', { c with phase := c.afterInsert referrerId id, row := some id })
    | _ => none
  | .merchantInsertLost id now =>
    match c.phase with
    | .inserting referrerId passwordHash ownCode =>
      if db.HasId id then none
      else match db.insertAccount (c.input.account referrerId passwordHash ownCode id now) with
        | .error _ => none
        | .ok db' => some (db', { c.fails .unanswered with row := some id })
    | _ => none
  | .referralInserted now =>
    match c.phase with
    | .attributing referrerId merchant =>
      match db.insertReferral (c.input.referral toUpperCase referrerId merchant.id now) with
      | .error code => some (db, c.fails (.postgres code))
      | .ok db' => some (db', c.goesTo (.ended (.ok merchant)))
    | _ => none
  | .referralInsertLost now =>
    match c.phase with
    | .attributing referrerId merchant =>
      match db.insertReferral (c.input.referral toUpperCase referrerId merchant.id now) with
      | .error _ => none
      | .ok db' => some (db', c.fails .unanswered)
    | _ => none
  | .failed =>
    match c.phase with
    | .ended _ => none
    | _ => some (db, c.fails .unanswered)

/-! ## The calls on one database -/

structure World where
  db : AccountDb
  calls : List Call
deriving DecidableEq

inductive Label
  | start (input : SignupInput)
  | event (i : ℕ) (event : Event)
deriving DecidableEq

def World.start (db : AccountDb) : World where
  db := db
  calls := []

def step (w : World) : Label → Option World
  | .start input => some { w with calls := w.calls ++ [⟨input, .checkingEmail, none⟩] }
  | .event i event => do
    let c ← w.calls[i]?
    let (db, c') ← advance toUpperCase w.db c event
    return { db := db, calls := w.calls.set i c' }

/-! ## What signup is for -/

/-- The merchant of a call that has ended: there is none, or its row has the trial exactly if
it has been attributed. -/
def Call.Whole (db : AccountDb) (c : Call) : Prop :=
  ∀ id ∈ c.row, ∃ a ∈ db.accounts, a.id = id ∧ a.email = c.input.email ∧
    (a.promoFeeBps.isSome ↔ db.IsReferred id)

instance (db : AccountDb) (c : Call) : Decidable (c.Whole db) :=
  inferInstanceAs (Decidable (∀ id ∈ c.row, ∃ a ∈ db.accounts, _))

def Call.Ended (c : Call) : Prop := ∃ result, c.phase = .ended result

instance (c : Call) : Decidable c.Ended :=
  match h : c.phase with
  | .ended result => isTrue ⟨result, h⟩
  | .checkingEmail | .findingReferrer _ | .hashing _ | .drawing .. | .inserting ..
  | .attributing .. => isFalse fun ⟨_, hr⟩ => by rw [h] at hr; cases hr

/-- Signup is all or nothing. -/
def AllOrNothing (w : World) : Prop := ∀ c ∈ w.calls, c.Ended → c.Whole w.db

instance (w : World) : Decidable (AllOrNothing w) :=
  inferInstanceAs (Decidable (∀ c ∈ w.calls, _))

/-- A call that ends in this step without a merchant, while its e-mail is registered, ends in
the conflict. -/
def ConflictOnly (e : World × Label × World) : Prop :=
  ∀ (i : ℕ) (c c' : Call), e.1.calls[i]? = some c → e.2.2.calls[i]? = some c' → ¬c.Ended →
    c'.row = none → e.1.db.HasEmail c.input.email → ∀ result, c'.phase = .ended result →
      result = .error emailTaken

/-- What has to be so for a step to do no harm. -/
structure Undisturbed (e : World × Label × World) : Prop where
  /-- The lookup of an e-mail that is registered is answered. -/
  answered : ∀ (i : ℕ) (c : Call), e.2.1 = .event i .failed → e.1.calls[i]? = some c →
    c.phase = .checkingEmail → ¬e.1.db.HasEmail c.input.email
  /-- The INSERT into `referrals` takes effect. -/
  attributed : ∀ (i : ℕ) (c : Call) (referrerId : ℕ) (merchant : MerchantClaims),
    e.2.1 = .event i .failed → e.1.calls[i]? = some c →
      c.phase ≠ .attributing referrerId merchant
  /-- The answer to the INSERT of a referred merchant arrives. -/
  returned : ∀ (i : ℕ) (c : Call) (id now referrerId : ℕ) (passwordHash ownCode : String),
    e.2.1 = .event i (.merchantInsertLost id now) → e.1.calls[i]? = some c →
      c.phase ≠ .inserting (some referrerId) passwordHash ownCode
  /-- When a merchant is stored, no other call for its e-mail is past its lookup. -/
  alone : ∀ (i j : ℕ) (c d : Call) (id now : ℕ) (referrerId : Option ℕ)
    (passwordHash ownCode : String),
    e.2.1 = .event i (.merchantInserted id now) ∨ e.2.1 = .event i (.merchantInsertLost id now) →
      e.1.calls[i]? = some c → c.phase = .inserting referrerId passwordHash ownCode →
        ¬e.1.db.HasCode ownCode → e.1.calls[j]? = some d → j ≠ i →
          d.input.email = c.input.email → d.phase = .checkingEmail ∨ d.Ended

/-! ## The constraints -/

namespace AccountDb

/-- The constraints of the two tables. -/
structure Constrained (db : AccountDb) : Prop where
  ids : (db.accounts.map fun a => a.id).Nodup
  emails : (db.accounts.map Account.email).Nodup
  codes : (db.accounts.filterMap Account.referralCode).Nodup
  referred : (db.referrals.map ReferralRow.referredId).Nodup
  references : ∀ r ∈ db.referrals, db.HasId r.referrerId ∧ db.HasId r.referredId

variable {db db' : AccountDb} {a : Account} {r : ReferralRow}

theorem insertAccount_eq_ok (h : db.insertAccount a = .ok db') :
    db' = { db with accounts := db.accounts ++ [a] } ∧ ¬db.HasEmail a.email ∧
      ∀ code ∈ a.referralCode, ¬db.HasCode code := by
  rw [insertAccount] at h
  split at h
  case isTrue => cases h
  case isFalse hfree =>
    cases h
    rw [not_or] at hfree
    exact ⟨rfl, hfree.1, fun code hcode hhas => hfree.2 ⟨code, hcode, hhas⟩⟩

theorem insertReferral_eq_ok (h : db.insertReferral r = .ok db') :
    db' = { db with referrals := db.referrals ++ [r] } ∧ ¬db.IsReferred r.referredId ∧
      db.HasId r.referrerId ∧ db.HasId r.referredId := by
  rw [insertReferral] at h
  split at h
  case isTrue => cases h
  case isFalse hfree =>
    split at h
    case isTrue hrefs =>
      cases h
      exact ⟨rfl, hfree, hrefs⟩
    case isFalse => cases h

theorem hasId_append (id : ℕ) :
    HasId { db with accounts := db.accounts ++ [a] } id ↔ db.HasId id ∨ a.id = id := by
  simp [HasId, or_and_right, exists_or]

theorem hasEmail_append (email : String) :
    HasEmail { db with accounts := db.accounts ++ [a] } email ↔
      db.HasEmail email ∨ a.email = email := by
  simp [HasEmail, or_and_right, exists_or]

theorem isReferred_append (id : ℕ) :
    IsReferred { db with referrals := db.referrals ++ [r] } id ↔
      db.IsReferred id ∨ r.referredId = id := by
  simp [IsReferred, or_and_right, exists_or]

/-- The INSERT of a merchant keeps the constraints. -/
theorem Constrained.insertAccount (hdb : db.Constrained) (hid : ¬db.HasId a.id)
    (h : db.insertAccount a = .ok db') : db'.Constrained := by
  obtain ⟨rfl, hemail, hcode⟩ := insertAccount_eq_ok h
  refine ⟨?ids, ?emails, ?codes, hdb.referred, ?references⟩
  case ids =>
    rw [List.map_append, List.map_singleton, ← List.concat_eq_append]
    refine hdb.ids.concat fun hmem => hid ?_
    obtain ⟨b, hb, hba⟩ := List.mem_map.mp hmem
    exact ⟨b, hb, hba⟩
  case emails =>
    rw [List.map_append, List.map_singleton, ← List.concat_eq_append]
    refine hdb.emails.concat fun hmem => hemail ?_
    obtain ⟨b, hb, hba⟩ := List.mem_map.mp hmem
    exact ⟨b, hb, hba⟩
  case codes =>
    rw [List.filterMap_append]
    cases hown : a.referralCode with
    | none => simpa [hown] using hdb.codes
    | some code =>
      rw [List.filterMap_cons_some hown, List.filterMap_nil, ← List.concat_eq_append]
      refine hdb.codes.concat fun hmem => hcode code hown ?_
      obtain ⟨b, hb, hba⟩ := List.mem_filterMap.mp hmem
      exact ⟨b, hb, hba⟩
  case references =>
    intro r hr
    obtain ⟨hreferrer, hreferred⟩ := hdb.references r hr
    exact ⟨(hasId_append _).mpr (.inl hreferrer), (hasId_append _).mpr (.inl hreferred)⟩

/-- The INSERT of an attribution keeps the constraints. -/
theorem Constrained.insertReferral (hdb : db.Constrained)
    (h : db.insertReferral r = .ok db') : db'.Constrained := by
  obtain ⟨rfl, hfree, hreferrer, hreferred⟩ := insertReferral_eq_ok h
  refine ⟨hdb.ids, hdb.emails, hdb.codes, ?referred, ?references⟩
  case referred =>
    rw [List.map_append, List.map_singleton, ← List.concat_eq_append]
    refine hdb.referred.concat fun hmem => hfree ?_
    obtain ⟨b, hb, hba⟩ := List.mem_map.mp hmem
    exact ⟨b, hb, hba⟩
  case references =>
    intro x hx
    rcases List.mem_append.mp hx with hx | hx
    · exact hdb.references x hx
    · rw [List.mem_singleton.mp hx]
      exact ⟨hreferrer, hreferred⟩

theorem Constrained.not_isReferred (hdb : db.Constrained) {id : ℕ} (hid : ¬db.HasId id) :
    ¬db.IsReferred id := by
  rintro ⟨r, hr, rfl⟩
  exact hid (hdb.references r hr).2

end AccountDb

end KonfirmBackend.Auth
