import KonfirmBackend.Auth.SignupRuns
import KonfirmBackend.Auth.Tokens
import KonfirmBackend.Lib.FirstWrite

/-!
# Who gets past the guards

The accounts, the admins, the tokens that have been signed, and the calls under way between
two statements of them: a login or a signup past its checks that has not signed yet, and a
request whose token has been verified and whose merchant's status has not been read yet.
Anything else may happen between the two, and a call may stop for good. Merchants also come
from `seed-merchant` of the reconciler, which moves an e-mail to another address, and admins
from `seed-admin`, which replaces password and name.

## Main definitions

- `Access`, `Access.step` — one statement of a call
- `Presented` — the cookies that arrive are tokens that have been signed, or do not verify
- `Access.Sound` — what is known of every token that has been signed

## Main results

- `session_of_admitted` — a request that is admitted belongs to a merchant that logged in
- `admitted_iff_decided` — a suspension takes effect at once, and until it is lifted
- `session_of_admittedAdmin` — an admin's request belongs to an admin that logged in
-/

namespace KonfirmBackend.Auth

open Reconciler SignedToken Transition

/-- A request between the verification of its token and the query. -/
structure Guarded (τ : Type) where
  /-- the cookie that it came with -/
  cookie : Option τ
  claims : MerchantClaims
  /-- when the token was verified -/
  verifiedAt : ℕ
deriving DecidableEq

/-- The clock counts milliseconds. -/
structure Access (τ : Type) where
  clock : ℕ
  db : AccountDb
  admins : List Admin
  issued : List (Issue String Claims τ)
  /-- logins and signups past their checks -/
  signing : List Claims
  guarded : List (Guarded τ)
  /-- the e-mails that `seed-merchant` has moved to another address -/
  moved : List String

def Access.start {τ : Type} (clock : ℕ) (db : AccountDb) (admins : List Admin) : Access τ :=
  ⟨clock, db, admins, [], [], [], []⟩

/-- The statuses that an admin may set. -/
inductive Decision
  | active
  | suspended
deriving DecidableEq

def Decision.text : Decision → String
  | .active => "active"
  | .suspended => "suspended"

inductive AccessAction (τ : Type)
  | tick (milliseconds : ℕ)
  /-- the INSERT of `signup` -/
  | register (a : Account)
  /-- the upsert of `seed-merchant` -/
  | seedMerchant (id : ℕ) (stellarBaseAddress email name : String)
  /-- `AdminMerchantsService.setStatus` -/
  | setStatus (id : ℕ) (status : Decision)
  /-- the upsert of `seed-admin` -/
  | seedAdmin (id : ℕ) (email passwordHash name : String)
  /-- the query and the checks of a login -/
  | login (email password : String)
  | adminLogin (email password : String)
  /-- `issueToken` -/
  | sign (i : ℕ)
  /-- `AuthGuard` up to its query -/
  | authenticate (cookie : Option τ)
  /-- the query of `AuthGuard` -/
  | status (i : ℕ)
deriving DecidableEq

def AccessAction.cookie {τ : Type} : AccessAction τ → Option τ
  | .authenticate cookie => cookie
  | _ => none

/-! ## The statements -/

/-- `UPDATE merchants SET status = $2 WHERE id = $1`. -/
def AccountDb.setStatus (db : AccountDb) (id : ℕ) (status : Decision) : AccountDb :=
  { db with accounts := db.accounts.map fun a =>
      if a.id = id then { a with status := status.text } else a }

/-- The row that `seed-merchant` inserts. -/
def seededAccount (id : ℕ) (stellarBaseAddress email name : String) : Account where
  id := id
  stellarBaseAddress := some stellarBaseAddress
  feeBps := Referrals.DEFAULT_FEE_BPS
  promoFeeBps := none
  promoExpiresAt := none
  promoVolumeCapUsdc := none
  email := email
  passwordHash := "demo-harness-no-login"
  name := name
  status := "pending"
  referralCode := none

/-- `upsert_merchant_by_stellar_address`. -/
def AccountDb.seedMerchant (db : AccountDb) (id : ℕ) (stellarBaseAddress email name : String) :
    AccountDb :=
  if db.HasEmail email then
    { db with accounts := db.accounts.map fun a =>
        if a.email = email then { a with stellarBaseAddress := some stellarBaseAddress } else a }
  else { db with accounts := db.accounts ++ [seededAccount id stellarBaseAddress email name] }

/-- The upsert of `seed-admin`. -/
def seedAdmin (admins : List Admin) (id : ℕ) (email passwordHash name : String) : List Admin :=
  if admins.any fun a => a.email = email then
    admins.map fun a =>
      if a.email = email then { a with passwordHash := passwordHash, name := name } else a
  else admins ++ [⟨id, email, passwordHash, name⟩]

def adminByEmail (admins : List Admin) (email : String) : Option Admin :=
  admins.find? fun a => decide (a.email = email)

section System

variable {τ : Type} (S : Scheme String Claims τ) (env : Env)
  (compare : (password passwordHash : String) → Bool)

namespace Access

/-- `issueToken`. -/
def sign (w : Access τ) (claims : Claims) : Access τ :=
  match S.sign (claims.secret env) claims claims.lifetime (seconds w.clock) with
  | none => w
  | some token => { w with issued :=
      w.issued ++ [⟨claims.secret env, claims, claims.lifetime, seconds w.clock, token⟩] }

/-- A refused call leaves nothing behind. -/
def step (w : Access τ) : AccessAction τ → Option (Access τ)
  | .tick ms => some { w with clock := w.clock + ms }
  | .register a =>
    if w.db.HasId a.id ∨ a.status ≠ "active" then none
    else match w.db.insertAccount a with
      | .error _ => some w
      | .ok db => some { w with db := db, signing := w.signing ++ [.merchant a.claims] }
  | .seedMerchant id stellarBaseAddress email name =>
    if w.db.HasId id then none
    else some { w with
      db := w.db.seedMerchant id stellarBaseAddress email name
      moved := if w.db.HasEmail email then email :: w.moved else w.moved }
  | .setStatus id status => some { w with db := w.db.setStatus id status }
  | .seedAdmin id email passwordHash name =>
    if w.admins.any fun a => a.id = id then none
    else some { w with admins := seedAdmin w.admins id email passwordHash name }
  | .login email password =>
    match checkLogin compare (w.db.accountByEmail email) password with
    | .error _ => some w
    | .ok c => some { w with signing := w.signing ++ [.merchant c] }
  | .adminLogin email password =>
    match checkAdminLogin compare (adminByEmail w.admins email) password with
    | .error _ => some w
    | .ok c => some { w with signing := w.signing ++ [.admin c] }
  | .sign i =>
    (w.signing[i]?).map fun claims => { w with signing := w.signing.eraseIdx i }.sign S env claims
  | .authenticate cookie =>
    match authenticate S env w.clock cookie with
    | .error _ => some w
    | .ok c => some { w with guarded := w.guarded ++ [⟨cookie, c, w.clock⟩] }
  | .status i => (w.guarded[i]?).map fun _ => { w with guarded := w.guarded.eraseIdx i }

end Access

/-! ## What is observed of a step -/

/-- The step has found these claims to be a merchant's: it has just signed up, or logs in. -/
def Vetted (e : Access τ × AccessAction τ × Access τ) (c : MerchantClaims) : Prop :=
  (∃ a, e.2.1 = .register a ∧ a.claims = c ∧ a ∈ e.2.2.db.accounts ∧ ¬e.1.db.HasId a.id) ∨
    ∃ email password, e.2.1 = .login email password ∧
      checkLogin compare (e.1.db.accountByEmail email) password = .ok c

/-- The step has found these claims to be an admin's. -/
def AdminVetted (e : Access τ × AccessAction τ × Access τ) (c : AdminClaims) : Prop :=
  ∃ email password, e.2.1 = .adminLogin email password ∧
    checkAdminLogin compare (adminByEmail e.1.admins email) password = .ok c

/-- Nobody presents a token that verifies and has not been signed here. -/
def Presented (e : Access τ × AccessAction τ × Access τ) : Prop :=
  ∀ token ∈ e.2.1.cookie, Unforged S e.1.issued env.JWT_SECRET (seconds e.1.clock) token

instance [DecidableEq τ] (e : Access τ × AccessAction τ × Access τ) :
    Decidable (Presented S env e) :=
  inferInstanceAs (Decidable (∀ token ∈ e.2.1.cookie, _))

/-- What one secret signs, the other guard refuses. -/
structure SecretsSeparate : Prop where
  merchant : S.Separate env.JWT_SECRET env.ADMIN_JWT_SECRET
  admin : S.Separate env.ADMIN_JWT_SECRET env.JWT_SECRET

end System

/-! ## The tables -/

namespace AccountDb

variable {db : AccountDb}

/-- An UPDATE that leaves the unique columns alone keeps the constraints. -/
theorem Constrained.map (hdb : db.Constrained) {f : Account → Account}
    (hid : ∀ a, (f a).id = a.id) (hemail : ∀ a, (f a).email = a.email)
    (hcode : ∀ a, (f a).referralCode = a.referralCode) :
    Constrained { db with accounts := db.accounts.map f } where
  ids := by
    rw [FirstWrite.map_key_map hid]
    exact hdb.ids
  emails := by
    rw [FirstWrite.map_key_map hemail]
    exact hdb.emails
  codes := by
    have hcodes : (db.accounts.map f).filterMap Account.referralCode =
        db.accounts.filterMap Account.referralCode := by
      rw [List.filterMap_map]
      exact List.filterMap_congr fun a _ => hcode a
    rw [hcodes]
    exact hdb.codes
  referred := hdb.referred
  references := by
    have hhas : ∀ id, db.HasId id → HasId { db with accounts := db.accounts.map f } id := by
      rintro id ⟨a, ha, rfl⟩
      exact ⟨f a, List.mem_map_of_mem ha, hid a⟩
    intro r hr
    exact ⟨hhas _ (hdb.references r hr).1, hhas _ (hdb.references r hr).2⟩

theorem Constrained.setStatus (hdb : db.Constrained) (id : ℕ) (status : Decision) :
    (db.setStatus id status).Constrained :=
  hdb.map (fun a => by split <;> rfl) (fun a => by split <;> rfl) fun a => by split <;> rfl

theorem Constrained.seedMerchant (hdb : db.Constrained) {id : ℕ} (hid : ¬db.HasId id)
    (stellarBaseAddress email name : String) :
    (db.seedMerchant id stellarBaseAddress email name).Constrained := by
  unfold AccountDb.seedMerchant
  by_cases hemail : db.HasEmail email
  · rw [if_pos hemail]
    exact hdb.map (fun a => by split <;> rfl) (fun a => by split <;> rfl) fun a => by split <;> rfl
  · rw [if_neg hemail]
    refine hdb.insertAccount (a := seededAccount id stellarBaseAddress email name) hid ?_
    rw [AccountDb.insertAccount, if_neg]
    rintro (h | ⟨code, hcode, -⟩)
    · exact hemail h
    · cases hcode

/-- With unique ids, a row is found by its id. -/
theorem Constrained.account_eq (hdb : db.Constrained) {a : Account} (ha : a ∈ db.accounts) :
    db.account a.id = some a :=
  FirstWrite.lookup_eq_some_of_mem hdb.ids ha

/-- With unique e-mails, a row is found by its e-mail. -/
theorem Constrained.accountByEmail_eq (hdb : db.Constrained) {a : Account}
    (ha : a ∈ db.accounts) : db.accountByEmail a.email = some a :=
  FirstWrite.lookup_eq_some_of_mem hdb.emails ha

theorem mem_of_account {id : ℕ} {a : Account} (h : db.account id = some a) :
    a ∈ db.accounts ∧ a.id = id :=
  FirstWrite.mem_of_lookup h

/-- An UPDATE that leaves the ids alone finds the row with its new columns. -/
theorem account_map {f : Account → Account} (hid : ∀ a, (f a).id = a.id) (id : ℕ) :
    account { db with accounts := db.accounts.map f } id = (db.account id).map f :=
  FirstWrite.lookup_map hid id db.accounts

/-- An INSERT leaves the rows that are there. -/
theorem account_append_of_some {id : ℕ} {a : Account} (h : db.account id = some a) (b : Account) :
    account { db with accounts := db.accounts ++ [b] } id = some a := by
  have hfind : db.accounts.find? (fun a => decide (a.id = id)) = some a := h
  simp [AccountDb.account, List.find?_append, hfind]

end AccountDb

/-! ## What no step takes away -/

section Runs

variable {τ : Type} {S : Scheme String Claims τ} {env : Env}
  {compare : (password passwordHash : String) → Bool}

/-- A row with these claims is there; its address is theirs unless it has been moved. -/
def Access.Registered (w : Access τ) (c : MerchantClaims) : Prop :=
  ∃ a ∈ w.db.accounts, a.id = c.id ∧ a.email = c.email ∧ a.name = c.name ∧
    (c.email ∈ w.moved ∨ a.stellarBaseAddress = c.stellarBaseAddress)

/-- An admin with this id and e-mail is there; names change. -/
def Access.Enrolled (w : Access τ) (c : AdminClaims) : Prop :=
  ∃ a ∈ w.admins, a.id = c.id ∧ a.email = c.email

def Access.Vouched (w : Access τ) : Claims → Prop
  | .merchant c => w.Registered c
  | .admin c => w.Enrolled c

/-- What stays of `v` in `w`. -/
structure Access.Kept (v w : Access τ) : Prop where
  clock : v.clock ≤ w.clock
  issued : ∀ i ∈ v.issued, i ∈ w.issued
  vouched : ∀ claims, v.Vouched claims → w.Vouched claims

namespace Access

variable {v w : Access τ} {l : AccessAction τ}

/-- Rows keep ids and e-mails, and those of accounts their names and, unless they are moved,
their addresses. -/
theorem Kept.of_rows (hclock : v.clock ≤ w.clock) (hissued : ∀ i ∈ v.issued, i ∈ w.issued)
    (hmoved : ∀ email ∈ v.moved, email ∈ w.moved)
    (haccounts : ∀ a ∈ v.db.accounts, ∃ b ∈ w.db.accounts, b.id = a.id ∧ b.email = a.email ∧
      b.name = a.name ∧ (a.email ∈ w.moved ∨ b.stellarBaseAddress = a.stellarBaseAddress))
    (hadmins : ∀ a ∈ v.admins, ∃ b ∈ w.admins, b.id = a.id ∧ b.email = a.email) :
    v.Kept w := by
  refine ⟨hclock, hissued, fun claims h => ?_⟩
  cases claims with
  | merchant c =>
    obtain ⟨a, ha, hid, hemail, hname, haddress⟩ := h
    obtain ⟨b, hb, hbid, hbemail, hbname, hbaddress⟩ := haccounts a ha
    refine ⟨b, hb, hbid.trans hid, hbemail.trans hemail, hbname.trans hname, ?_⟩
    rw [hemail] at hbaddress
    cases haddress with
    | inl h => exact .inl (hmoved _ h)
    | inr h => exact hbaddress.imp_right fun hb => hb.trans h
  | admin c =>
    obtain ⟨a, ha, hid, hemail⟩ := h
    obtain ⟨b, hb, hbid, hbemail⟩ := hadmins a ha
    exact ⟨b, hb, hbid.trans hid, hbemail.trans hemail⟩

/-- A step that touches neither table. -/
theorem Kept.of_eq (hclock : v.clock ≤ w.clock) (hissued : ∀ i ∈ v.issued, i ∈ w.issued)
    (hdb : w.db = v.db) (hadmins : w.admins = v.admins) (hmoved : w.moved = v.moved) :
    v.Kept w :=
  .of_rows hclock hissued (hmoved ▸ fun _ he => he)
    (hdb ▸ fun a ha => ⟨a, ha, rfl, rfl, rfl, .inr rfl⟩)
    (hadmins ▸ fun a ha => ⟨a, ha, rfl, rfl⟩)

theorem Kept.refl (w : Access τ) : w.Kept w :=
  .of_eq le_rfl (fun _ hi => hi) rfl rfl rfl

theorem Kept.trans {u : Access τ} (h : u.Kept v) (h' : v.Kept w) : u.Kept w :=
  ⟨h.clock.trans h'.clock, fun i hi => h'.issued i (h.issued i hi),
    fun claims hc => h'.vouched claims (h.vouched claims hc)⟩

theorem sign_kept (w : Access τ) (claims : Claims) : w.Kept (w.sign S env claims) := by
  unfold Access.sign
  cases S.sign (claims.secret env) claims claims.lifetime (seconds w.clock) with
  | none => exact .refl w
  | some token => exact .of_eq le_rfl (fun i hi => List.mem_append_left _ hi) rfl rfl rfl

/-- `seed-admin` keeps ids and e-mails. -/
theorem exists_mem_seedAdmin {admins : List Admin} {a : Admin} (ha : a ∈ admins) (id : ℕ)
    (email passwordHash name : String) :
    ∃ b ∈ seedAdmin admins id email passwordHash name, b.id = a.id ∧ b.email = a.email := by
  unfold seedAdmin
  split
  · refine ⟨_, List.mem_map_of_mem ha, ?_⟩
    split <;> exact ⟨rfl, rfl⟩
  · exact ⟨a, List.mem_append_left _ ha, rfl, rfl⟩

/-- Ids, e-mails and names stay, and so do addresses that are not moved. -/
theorem kept_of_step (h : Access.step S env compare w l = some v) : w.Kept v := by
  have hsame : ∀ a ∈ w.admins, ∃ b ∈ w.admins, b.id = a.id ∧ b.email = a.email :=
    fun a ha => ⟨a, ha, rfl, rfl⟩
  cases l with
  | tick ms =>
    cases h
    exact .of_eq (Nat.le_add_right _ _) (fun _ hi => hi) rfl rfl rfl
  | register a =>
    simp only [step] at h
    split at h
    · cases h
    · cases hinsert : w.db.insertAccount a with
      | error e =>
        simp only [hinsert, Option.some.injEq] at h
        exact h ▸ .refl w
      | ok db =>
        obtain ⟨rfl, -, -⟩ := AccountDb.insertAccount_eq_ok hinsert
        simp only [hinsert, Option.some.injEq] at h
        subst h
        refine .of_rows le_rfl (fun _ hi => hi) (fun _ he => he) (fun b hb => ?_) hsame
        exact ⟨b, List.mem_append_left _ hb, rfl, rfl, rfl, .inr rfl⟩
  | seedMerchant id stellarBaseAddress email name =>
    simp only [step] at h
    split at h
    · cases h
    · simp only [Option.some.injEq] at h
      subst h
      by_cases hemail : w.db.HasEmail email
      · simp only [AccountDb.seedMerchant, if_pos hemail]
        refine .of_rows le_rfl (fun _ hi => hi) (fun e he => List.mem_cons_of_mem _ he)
          (fun a ha => ?_) hsame
        refine ⟨_, List.mem_map_of_mem ha, ?_⟩
        by_cases ha : a.email = email
        · rw [if_pos ha]
          exact ⟨rfl, rfl, rfl, .inl (by simp [ha])⟩
        · rw [if_neg ha]
          exact ⟨rfl, rfl, rfl, .inr rfl⟩
      · simp only [AccountDb.seedMerchant, if_neg hemail]
        refine .of_rows le_rfl (fun _ hi => hi) (fun _ he => he) (fun a ha => ?_) hsame
        exact ⟨a, List.mem_append_left _ ha, rfl, rfl, rfl, .inr rfl⟩
  | setStatus id status =>
    cases h
    refine .of_rows le_rfl (fun _ hi => hi) (fun _ he => he) (fun a ha => ?_) hsame
    refine ⟨_, List.mem_map_of_mem ha, ?_⟩
    split <;> exact ⟨rfl, rfl, rfl, .inr rfl⟩
  | seedAdmin id email passwordHash name =>
    simp only [step] at h
    split at h
    · cases h
    · cases h
      exact .of_rows le_rfl (fun _ hi => hi) (fun _ he => he)
        (fun a ha => ⟨a, ha, rfl, rfl, rfl, .inr rfl⟩)
        fun a ha => exists_mem_seedAdmin ha id email passwordHash name
  | login email password =>
    simp only [step] at h
    split at h <;> cases h <;> exact .of_eq le_rfl (fun _ hi => hi) rfl rfl rfl
  | adminLogin email password =>
    simp only [step] at h
    split at h <;> cases h <;> exact .of_eq le_rfl (fun _ hi => hi) rfl rfl rfl
  | sign i =>
    obtain ⟨claims, -, rfl⟩ := Option.map_eq_some_iff.mp h
    have hkept : w.Kept { w with signing := w.signing.eraseIdx i } :=
      .of_eq le_rfl (fun _ hi => hi) rfl rfl rfl
    exact hkept.trans (sign_kept _ claims)
  | authenticate cookie =>
    simp only [step] at h
    split at h <;> cases h <;> exact .of_eq le_rfl (fun _ hi => hi) rfl rfl rfl
  | status i =>
    obtain ⟨r, -, rfl⟩ := Option.map_eq_some_iff.mp h
    exact .of_eq le_rfl (fun _ hi => hi) rfl rfl rfl

/-! ## What a step adds -/

/-- Claims are signed after they have been vetted, tokens are signed under the secret of their
kind, and a request waits for its query when its token has been verified. -/
structure Adds (S : Scheme String Claims τ) (env : Env)
    (compare : (password passwordHash : String) → Bool)
    (e : Access τ × AccessAction τ × Access τ) : Prop where
  signing : ∀ claims ∈ e.2.2.signing, claims ∈ e.1.signing ∨
    (∃ c, claims = .merchant c ∧ Vetted compare e c) ∨
      ∃ c, claims = .admin c ∧ AdminVetted compare e c
  issued : ∀ i ∈ e.2.2.issued, i ∈ e.1.issued ∨
    i.payload ∈ e.1.signing ∧ i.Signed S ∧ i.key = i.payload.secret env ∧
      i.lifetime = i.payload.lifetime ∧ i.issuedAt = seconds e.1.clock
  guarded : ∀ r ∈ e.2.2.guarded, r ∈ e.1.guarded ∨
    ∃ token claims, e.2.1 = .authenticate (some token) ∧ r.cookie = some token ∧
      S.verify env.JWT_SECRET (seconds e.1.clock) token = some claims ∧
        claims.asMerchant = r.claims ∧ r.verifiedAt = e.1.clock

/-- A step that adds nothing. -/
theorem Adds.of_subset (hsigning : ∀ claims ∈ v.signing, claims ∈ w.signing)
    (hissued : ∀ i ∈ v.issued, i ∈ w.issued) (hguarded : ∀ r ∈ v.guarded, r ∈ w.guarded) :
    Adds S env compare (w, l, v) where
  signing claims hc := .inl (hsigning claims hc)
  issued i hi := .inl (hissued i hi)
  guarded r hr := .inl (hguarded r hr)

/-- A step after which one call more is about to sign. -/
theorem Adds.of_signing {claims : Claims}
    (hvetted : (∃ c, claims = .merchant c ∧ Vetted compare (w, l, v) c) ∨
      ∃ c, claims = .admin c ∧ AdminVetted compare (w, l, v) c)
    (hsigning : v.signing = w.signing ++ [claims]) (hissued : v.issued = w.issued)
    (hguarded : v.guarded = w.guarded) : Adds S env compare (w, l, v) where
  signing c hc := by
    simp only [hsigning, List.mem_append, List.mem_singleton] at hc
    refine hc.imp_right fun h => ?_
    rw [h]
    exact hvetted
  issued i hi := .inl (hissued ▸ hi)
  guarded r hr := .inl (hguarded ▸ hr)

theorem adds_of_step (h : Access.step S env compare w l = some v) :
    Adds S env compare (w, l, v) := by
  have hsame : Adds S env compare (w, l, w) :=
    .of_subset (fun _ h => h) (fun _ h => h) fun _ h => h
  cases l with
  | tick ms =>
    cases h
    exact .of_subset (fun _ h => h) (fun _ h => h) fun _ h => h
  | register a =>
    simp only [step] at h
    split at h
    · cases h
    case isFalse hfresh =>
      cases hinsert : w.db.insertAccount a with
      | error e =>
        simp only [hinsert, Option.some.injEq] at h
        exact h ▸ hsame
      | ok db =>
        obtain ⟨rfl, -, -⟩ := AccountDb.insertAccount_eq_ok hinsert
        simp only [hinsert, Option.some.injEq] at h
        subst h
        refine .of_signing (.inl ⟨a.claims, rfl, .inl ⟨a, rfl, rfl, ?_, ?_⟩⟩) rfl rfl rfl
        · exact List.mem_append_right w.db.accounts (List.mem_singleton_self a)
        · exact fun hid => hfresh (.inl hid)
  | seedMerchant id stellarBaseAddress email name =>
    simp only [step] at h
    split at h <;> cases h
    exact .of_subset (fun _ h => h) (fun _ h => h) fun _ h => h
  | setStatus id status =>
    cases h
    exact .of_subset (fun _ h => h) (fun _ h => h) fun _ h => h
  | seedAdmin id email passwordHash name =>
    simp only [step] at h
    split at h <;> cases h
    exact .of_subset (fun _ h => h) (fun _ h => h) fun _ h => h
  | login email password =>
    simp only [step] at h
    split at h
    · cases h
      exact hsame
    case h_2 c hlogin =>
      cases h
      exact .of_signing (.inl ⟨c, rfl, .inr ⟨email, password, rfl, hlogin⟩⟩) rfl rfl rfl
  | adminLogin email password =>
    simp only [step] at h
    split at h
    · cases h
      exact hsame
    case h_2 c hlogin =>
      cases h
      exact .of_signing (.inr ⟨c, rfl, email, password, rfl, hlogin⟩) rfl rfl rfl
  | sign n =>
    obtain ⟨claims, hclaims, rfl⟩ := Option.map_eq_some_iff.mp h
    unfold Access.sign
    cases htoken : S.sign (claims.secret env) claims claims.lifetime (seconds w.clock) with
    | none =>
      exact .of_subset (fun _ h => List.mem_of_mem_eraseIdx h) (fun _ h => h) fun _ h => h
    | some token =>
      refine ⟨fun _ h => .inl (List.mem_of_mem_eraseIdx h), fun i hi => ?_, fun _ h => .inl h⟩
      refine (List.mem_append.mp hi).imp_right fun hnew => ?_
      obtain rfl := List.mem_singleton.mp hnew
      exact ⟨List.mem_of_getElem? hclaims, htoken, rfl, rfl, rfl⟩
  | authenticate cookie =>
    simp only [step] at h
    split at h
    · cases h
      exact hsame
    case h_2 c hcookie =>
      cases h
      refine ⟨fun _ h => .inl h, fun _ h => .inl h, fun r hr => ?_⟩
      refine (List.mem_append.mp hr).imp_right fun hnew => ?_
      obtain rfl := List.mem_singleton.mp hnew
      obtain ⟨token, claims, rfl, hverify, hcast⟩ := authenticate_eq_ok_iff.mp hcookie
      exact ⟨token, claims, rfl, rfl, hverify, hcast, rfl⟩
  | status i =>
    obtain ⟨r, -, rfl⟩ := Option.map_eq_some_iff.mp h
    exact .of_subset (fun _ h => h) (fun _ h => h) fun _ h => List.mem_of_mem_eraseIdx h

/-- The constraints of the table are those of every statement. -/
theorem constrained_of_step (hdb : w.db.Constrained)
    (h : Access.step S env compare w l = some v) : v.db.Constrained := by
  cases l with
  | register a =>
    simp only [step] at h
    split at h
    · cases h
    case isFalse hfresh =>
      split at h <;> cases h
      · exact hdb
      · case h_2 db hinsert => exact hdb.insertAccount (fun hid => hfresh (.inl hid)) hinsert
  | seedMerchant id stellarBaseAddress email name =>
    simp only [step] at h
    split at h
    · cases h
    case isFalse hid =>
      cases h
      exact hdb.seedMerchant hid stellarBaseAddress email name
  | setStatus id status =>
    cases h
    exact hdb.setStatus id status
  | seedAdmin id email passwordHash name =>
    simp only [step] at h
    split at h <;> cases h
    exact hdb
  | sign i =>
    obtain ⟨claims, -, rfl⟩ := Option.map_eq_some_iff.mp h
    unfold Access.sign
    split <;> exact hdb
  | status i =>
    obtain ⟨r, -, rfl⟩ := Option.map_eq_some_iff.mp h
    exact hdb
  | tick ms =>
    cases h
    exact hdb
  | login email password | adminLogin email password | authenticate cookie =>
    simp only [step] at h
    split at h <;> cases h <;> exact hdb

/-! ## What is known of every token that has been signed -/

/-- A call that is about to sign has found what it signs in the tables; so had those that have
signed, under the secret and with the lifetime of its kind. -/
structure Sound (S : Scheme String Claims τ) (env : Env) (w : Access τ) : Prop where
  constrained : w.db.Constrained
  signing : ∀ claims ∈ w.signing, w.Vouched claims
  vouched : ∀ i ∈ w.issued, w.Vouched i.payload
  signed : ∀ i ∈ w.issued, i.Signed S
  key : ∀ i ∈ w.issued, i.key = i.payload.secret env
  lifetime : ∀ i ∈ w.issued, i.lifetime = i.payload.lifetime
  past : ∀ i ∈ w.issued, i.issuedAt ≤ seconds w.clock

theorem sound_start {clock : ℕ} {db : AccountDb} {admins : List Admin} (hdb : db.Constrained) :
    Sound S env (Access.start clock db admins) := by
  constructor <;> simp [Access.start, hdb]

/-- What has been vetted is in the tables. -/
theorem registered_of_vetted (h : Access.step S env compare w l = some v) {c : MerchantClaims}
    (hc : Vetted compare (w, l, v) c) : v.Registered c := by
  obtain ⟨a, -, rfl, ha, -⟩ | ⟨email, password, -, hlogin⟩ := hc
  · exact ⟨a, ha, rfl, rfl, rfl, .inr rfl⟩
  · obtain ⟨a, hfound, -, -, rfl⟩ := checkLogin_eq_ok_iff.mp hlogin
    have hregistered : w.Vouched (.merchant a.claims) :=
      ⟨a, (FirstWrite.mem_of_lookup hfound).1, rfl, rfl, rfl, .inr rfl⟩
    exact (kept_of_step h).vouched _ hregistered

theorem enrolled_of_vetted (h : Access.step S env compare w l = some v) {c : AdminClaims}
    (hc : AdminVetted compare (w, l, v) c) : v.Enrolled c := by
  obtain ⟨email, password, -, hlogin⟩ := hc
  obtain ⟨a, hfound, -, rfl⟩ := checkAdminLogin_eq_ok_iff.mp hlogin
  have henrolled : w.Vouched (.admin a.claims) :=
    ⟨a, List.mem_of_find?_eq_some hfound, rfl, rfl⟩
  exact (kept_of_step h).vouched _ henrolled

theorem Sound.step (hw : Sound S env w) (h : Access.step S env compare w l = some v) :
    Sound S env v := by
  have hkept := kept_of_step h
  have hadds := adds_of_step h
  refine ⟨constrained_of_step hw.constrained h, ?signing, ?vouched, ?signed, ?key, ?lifetime,
    ?past⟩
  case signing =>
    intro claims hc
    obtain hold | ⟨c, rfl, hvetted⟩ | ⟨c, rfl, hvetted⟩ := hadds.signing claims hc
    · exact hkept.vouched claims (hw.signing claims hold)
    · exact registered_of_vetted h hvetted
    · exact enrolled_of_vetted h hvetted
  case vouched =>
    intro i hi
    obtain hold | ⟨hnew, -⟩ := hadds.issued i hi
    · exact hkept.vouched _ (hw.vouched i hold)
    · exact hkept.vouched _ (hw.signing _ hnew)
  case signed =>
    intro i hi
    obtain hold | ⟨-, hsigned, -⟩ := hadds.issued i hi
    · exact hw.signed i hold
    · exact hsigned
  case key =>
    intro i hi
    obtain hold | ⟨-, -, hkey, -⟩ := hadds.issued i hi
    · exact hw.key i hold
    · exact hkey
  case lifetime =>
    intro i hi
    obtain hold | ⟨-, -, -, hlifetime, -⟩ := hadds.issued i hi
    · exact hw.lifetime i hold
    · exact hlifetime
  case past =>
    intro i hi
    have hmono : seconds w.clock ≤ seconds v.clock := Nat.div_le_div_right hkept.clock
    obtain hold | ⟨-, -, -, -, hnow⟩ := hadds.issued i hi
    · exact (hw.past i hold).trans hmono
    · exact hnow ▸ hmono

/-- Every request that waits for its query came with a merchant's token that was alive. -/
def Backed (env : Env) (w : Access τ) : Prop :=
  ∀ r ∈ w.guarded, r.verifiedAt ≤ w.clock ∧ ∃ i ∈ w.issued, r.cookie = some i.token ∧
    i.payload = .merchant r.claims ∧ i.key = env.JWT_SECRET ∧
      i.issuedAt ≤ seconds r.verifiedAt ∧ i.Alive (seconds r.verifiedAt)

/-- What a guard believes has been signed here under its secret. -/
theorem Sound.exists_issue (hS : S.Lawful) (hw : Sound S env w) {secret : String}
    (hsep : ∀ claims : Claims, claims.secret env ≠ secret →
      S.Separate (claims.secret env) secret)
    {token : τ} {claims : Claims} (hun : Unforged S w.issued secret (seconds w.clock) token)
    (h : S.verify secret (seconds w.clock) token = some claims) :
    ∃ i ∈ w.issued, i.token = token ∧ i.payload = claims ∧ i.key = secret ∧
      i.Alive (seconds w.clock) := by
  have hkeys : ∀ i ∈ w.issued, i.key ≠ secret → S.Separate i.key secret := by
    intro i hi hne
    rw [hw.key i hi] at hne ⊢
    exact hsep _ hne
  obtain ⟨i, hi, htoken, hkey, hpayload, halive⟩ :=
    exists_issue_of_verify hS hw.signed hkeys hun h
  exact ⟨i, hi, htoken, hpayload, hkey, halive⟩

/-- A living token of one kind is not under the secret of the other. -/
theorem Sound.merchant_of_key (hS : S.Lawful) (hsecrets : SecretsSeparate S env)
    (hw : Sound S env w) {i : Issue String Claims τ} (hi : i ∈ w.issued)
    (hkey : i.key = env.JWT_SECRET) {now : ℕ} (halive : i.Alive now) :
    ∃ c, i.payload = .merchant c := by
  cases hp : i.payload with
  | merchant c => exact ⟨c, rfl⟩
  | admin c =>
    have hadmin : i.key = env.ADMIN_JWT_SECRET := by
      rw [hw.key i hi, hp]
      rfl
    have hnone := hsecrets.admin i (hw.signed i hi) hadmin now
    rw [← hkey, verify_of_alive hS (hw.signed i hi) halive] at hnone
    cases hnone

/-- The secrets of the other kinds are told apart from each of the two. -/
theorem separate_of_ne (hsecrets : SecretsSeparate S env) :
    (∀ claims : Claims, claims.secret env ≠ env.JWT_SECRET →
      S.Separate (claims.secret env) env.JWT_SECRET) ∧
    ∀ claims : Claims, claims.secret env ≠ env.ADMIN_JWT_SECRET →
      S.Separate (claims.secret env) env.ADMIN_JWT_SECRET := by
  constructor
  · rintro (c | c) hne
    · exact absurd rfl hne
    · exact hsecrets.admin
  · rintro (c | c) hne
    · exact hsecrets.merchant
    · exact absurd rfl hne

theorem Backed.step (hS : S.Lawful) (hsecrets : SecretsSeparate S env) (hw : Sound S env w)
    (hb : Backed env w) (hpresented : Presented S env (w, l, v))
    (h : Access.step S env compare w l = some v) : Backed env v := by
  have hkept := kept_of_step h
  have hadds := adds_of_step h
  intro r hr
  obtain hold | ⟨token, claims, rfl, hcookie, hverify, hcast, hnow⟩ := hadds.guarded r hr
  · obtain ⟨hpast, i, hi, hrest⟩ := hb r hold
    exact ⟨hpast.trans hkept.clock, i, hkept.issued i hi, hrest⟩
  · obtain ⟨i, hi, rfl, hpayload, hkey, halive⟩ :=
      hw.exists_issue hS (separate_of_ne hsecrets).1 (hpresented _ rfl) hverify
    obtain ⟨c, hc⟩ := hw.merchant_of_key hS hsecrets hi hkey halive
    have hclaims : i.payload = .merchant r.claims := by
      rw [hpayload] at hc
      rw [hpayload, ← hcast, hc]
      rfl
    have hpast := hw.past i hi
    rw [← hnow] at hpast halive
    exact ⟨hnow.trans_le hkept.clock, i, hkept.issued i hi, hcookie, hclaims, hkey, hpast, halive⟩

/-- A call has been found to be entitled to these claims. -/
def Claimed (w : Access τ) (claims : Claims) : Prop :=
  claims ∈ w.signing ∨ ∃ i ∈ w.issued, i.payload = claims

/-- Nothing is claimed that the step has not vetted. -/
theorem vetted_of_step (h : Access.step S env compare w l = some v) {claims : Claims}
    (hbefore : ¬w.Claimed claims) (hafter : v.Claimed claims) :
    (∃ c, claims = .merchant c ∧ Vetted compare (w, l, v) c) ∨
      ∃ c, claims = .admin c ∧ AdminVetted compare (w, l, v) c := by
  have hadds := adds_of_step h
  rw [Claimed, not_or] at hbefore
  cases hafter with
  | inl hsigning => exact (hadds.signing _ hsigning).resolve_left hbefore.1
  | inr hissued =>
    obtain ⟨i, hi, rfl⟩ := hissued
    obtain hold | ⟨hsigning, -⟩ := hadds.issued i hi
    · exact absurd ⟨i, hold, rfl⟩ hbefore.2
    · exact absurd hsigning hbefore.1

/-- Nothing is signed that some step has not vetted. -/
theorem exists_vetted_of_exec {clock : ℕ} {db : AccountDb} {admins : List Admin}
    {ls : List (AccessAction τ)}
    (h : exec (Access.step S env compare) (Access.start clock db admins) ls = some w)
    {i : Issue String Claims τ} (hi : i ∈ w.issued) :
    ∃ e ∈ trace (Access.step S env compare) (Access.start clock db admins) ls,
      (∃ c, i.payload = .merchant c ∧ Vetted compare e c) ∨
        ∃ c, i.payload = .admin c ∧ AdminVetted compare e c := by
  obtain ⟨e, he, hbefore, hafter⟩ := exists_step_of_exec
    (P := fun w : Access τ => w.Claimed i.payload) h
    (by simp [Access.start, Claimed]) (.inr ⟨i, hi, rfl⟩)
  have hstep := (reaches_of_mem_trace (fun _ _ => trivial) he).2.2
  exact ⟨e, he, vetted_of_step hstep hbefore hafter⟩

end Access

/-! ## Sessions -/

open Access

variable {clock : ℕ} {db : AccountDb} {admins : List Admin} {w : Access τ}
  {ls : List (AccessAction τ)}

theorem sound_of_exec (hdb : db.Constrained)
    (h : exec (Access.step S env compare) (Access.start clock db admins) ls = some w) :
    Sound S env w :=
  invariant_of_exec (H := fun _ => True) (sound_start hdb) (fun _ _ _ ha _ hs => ha.step hs)
    (fun _ _ => trivial) h

/-- **A request that is admitted** comes with a token that is not older than 30 days and that a
merchant was given that has logged in or signed up with these claims, and whose row is still
there with them, and not suspended; only its address may have been moved by `seed-merchant`.
The two secrets have to be apart: with one for both, an admin's token passes here as well. -/
theorem session_of_admitted (hS : S.Lawful) (hsecrets : SecretsSeparate S env)
    (hdb : db.Constrained)
    (h : exec (Access.step S env compare) (Access.start clock db admins) ls = some w)
    (hpresented : ∀ e ∈ trace (Access.step S env compare) (Access.start clock db admins) ls,
      Presented S env e)
    {n : ℕ} {r : Guarded τ} (hr : w.guarded[n]? = some r)
    (hok : checkStatus (w.db.statusOf r.claims.id) = .ok ()) :
    (∃ e ∈ trace (Access.step S env compare) (Access.start clock db admins) ls,
      Vetted compare e r.claims) ∧
    (∃ i ∈ w.issued, r.cookie = some i.token ∧ i.payload = .merchant r.claims ∧
      i.issuedAt ≤ seconds r.verifiedAt ∧ seconds r.verifiedAt < i.issuedAt + TOKEN_TTL) ∧
    ∃ a, w.db.account r.claims.id = some a ∧ a.status ≠ "suspended" ∧
      a.email = r.claims.email ∧ a.name = r.claims.name ∧
        (r.claims.email ∈ w.moved ∨ a.stellarBaseAddress = r.claims.stellarBaseAddress) := by
  have hinv : Sound S env w ∧ Backed env w := by
    refine invariant_of_exec (I := fun w => Sound S env w ∧ Backed env w)
      ⟨sound_start hdb, ?_⟩ (fun a l b ha hl hs => ?_) hpresented h
    · intro r hr
      cases hr
    · exact ⟨ha.1.step hs, ha.2.step hS hsecrets ha.1 hl hs⟩
  obtain ⟨hw, hbacked⟩ := hinv
  obtain ⟨-, i, hi, hcookie, hpayload, -, hpast, halive⟩ := hbacked r (List.mem_of_getElem? hr)
  refine ⟨?vetted, ⟨i, hi, hcookie, hpayload, hpast, ?alive⟩, ?row⟩
  case vetted =>
    obtain ⟨e, he, ⟨c, hc, hvetted⟩ | ⟨c, hc, -⟩⟩ := exists_vetted_of_exec h hi
    · obtain rfl : r.claims = c := Claims.merchant.inj (hpayload.symm.trans hc)
      exact ⟨e, he, hvetted⟩
    · rw [hpayload] at hc
      cases hc
  case alive =>
    have hlifetime : i.lifetime = TOKEN_TTL := by
      rw [hw.lifetime i hi, hpayload]
      rfl
    exact hlifetime ▸ halive
  case row =>
    have hvouched := hw.vouched i hi
    rw [hpayload] at hvouched
    obtain ⟨a, ha, hid, hemail, hname, haddress⟩ := hvouched
    have haccount : w.db.account r.claims.id = some a := hid ▸ hw.constrained.account_eq ha
    refine ⟨a, haccount, fun hsuspended => ?_, hemail, hname, haddress⟩
    refine checkStatus_eq_ok_iff.mp hok ?_
    rw [AccountDb.statusOf, haccount, Option.map_some, hsuspended]

/-- The status of a merchant after an action. -/
def AccessAction.decide (id : ℕ) (status : String) : AccessAction τ → String
  | .setStatus id' decision => if id' = id then decision.text else status
  | _ => status

/-- A merchant's row after an action. -/
def AccessAction.applyTo (a : Account) : AccessAction τ → Account
  | .setStatus id decision => if a.id = id then { a with status := decision.text } else a
  | .seedMerchant _ stellarBaseAddress email _ =>
    if a.email = email then { a with stellarBaseAddress := some stellarBaseAddress } else a
  | _ => a

theorem AccessAction.id_applyTo (a : Account) (l : AccessAction τ) : (l.applyTo a).id = a.id := by
  cases l with
  | setStatus id decision | seedMerchant id stellarBaseAddress email name =>
    simp only [applyTo]
    split <;> rfl
  | _ => rfl

theorem AccessAction.status_applyTo (a : Account) (l : AccessAction τ) :
    (l.applyTo a).status = l.decide a.id a.status := by
  cases l with
  | setStatus id decision =>
    by_cases h : a.id = id
    · simp [applyTo, AccessAction.decide, h]
    · simp [applyTo, AccessAction.decide, h, Ne.symm h]
  | seedMerchant id stellarBaseAddress email name =>
    simp only [applyTo]
    split <;> rfl
  | _ => rfl

theorem AccessAction.status_foldl (a : Account) (ls : List (AccessAction τ)) :
    (ls.foldl AccessAction.applyTo a).status =
      ls.foldl (AccessAction.decide a.id) a.status := by
  induction ls generalizing a with
  | nil => rfl
  | cons l ls ih =>
    rw [List.foldl_cons, List.foldl_cons, ih, id_applyTo, status_applyTo]

theorem Access.account_step {v : Access τ} {l : AccessAction τ} {id : ℕ} {a : Account}
    (h : Access.step S env compare w l = some v) (ha : w.db.account id = some a) :
    v.db.account id = some (l.applyTo a) := by
  cases l with
  | register b =>
    simp only [step] at h
    split at h
    · cases h
    · split at h
      · cases h
        exact ha
      case h_2 db hinsert =>
        obtain ⟨rfl, -, -⟩ := AccountDb.insertAccount_eq_ok hinsert
        cases h
        exact AccountDb.account_append_of_some ha b
  | seedMerchant id' stellarBaseAddress email name =>
    simp only [step] at h
    split at h
    · cases h
    · cases h
      unfold AccountDb.seedMerchant
      by_cases hemail : w.db.HasEmail email
      · rw [if_pos hemail, AccountDb.account_map fun a => by split <;> rfl, ha]
        rfl
      · have hne : a.email ≠ email := fun heq =>
          hemail ⟨a, (AccountDb.mem_of_account ha).1, heq⟩
        rw [if_neg hemail, AccountDb.account_append_of_some ha, AccessAction.applyTo, if_neg hne]
  | setStatus id' decision =>
    cases h
    simp only [AccountDb.setStatus]
    rw [AccountDb.account_map fun a => by split <;> rfl, ha]
    rfl
  | seedAdmin id' email passwordHash name =>
    simp only [step] at h
    split at h <;> cases h
    exact ha
  | sign i =>
    obtain ⟨claims, -, rfl⟩ := Option.map_eq_some_iff.mp h
    unfold Access.sign
    split <;> exact ha
  | status i =>
    obtain ⟨r, -, rfl⟩ := Option.map_eq_some_iff.mp h
    exact ha
  | tick ms =>
    cases h
    exact ha
  | login email password | adminLogin email password | authenticate cookie =>
    simp only [step] at h
    split at h <;> cases h <;> exact ha

/-- A merchant's row after a run. -/
theorem Access.account_exec {v : Access τ} {id : ℕ} {a : Account}
    (h : exec (Access.step S env compare) w ls = some v) (ha : w.db.account id = some a) :
    v.db.account id = some (ls.foldl AccessAction.applyTo a) := by
  induction ls generalizing w a with
  | nil =>
    obtain rfl : w = v := by simpa using h
    exact ha
  | cons l ls ih =>
    rw [exec_cons] at h
    obtain ⟨u, hu, hrest⟩ := Option.bind_eq_some_iff.mp h
    exact ih hrest (Access.account_step hu ha)

/-- The last decision of a run is the status that stays. -/
theorem Access.statusOf_exec {v : Access τ} {id : ℕ} {status : String}
    (h : exec (Access.step S env compare) w ls = some v)
    (hid : w.db.statusOf id = some status) :
    v.db.statusOf id = some (ls.foldl (AccessAction.decide id) status) := by
  obtain ⟨a, ha, rfl⟩ := Option.map_eq_some_iff.mp hid
  obtain rfl : a.id = id := (AccountDb.mem_of_account ha).2
  rw [AccountDb.statusOf, Access.account_exec h ha, Option.map_some, AccessAction.status_foldl]

/-- **A suspension takes effect at once and until it is lifted**: whatever happens after any
state in which a merchant is there, the guard's query lets it pass, and its right password logs
it in, exactly if the last decision on it, or else its status in that state, is not a
suspension. -/
theorem admitted_iff_decided (hdb : db.Constrained) {v : Access τ}
    (hv : exec (Access.step S env compare) (Access.start clock db admins) ls = some v)
    {a : Account} (ha : v.db.account a.id = some a) {ms : List (AccessAction τ)}
    (h : exec (Access.step S env compare) v ms = some w) :
    (checkStatus (w.db.statusOf a.id) = .ok () ↔
      ms.foldl (AccessAction.decide a.id) a.status ≠ "suspended") ∧
    ∃ b, w.db.account a.id = some b ∧ b.email = a.email ∧ ∀ password,
      compare password b.passwordHash = true →
        (checkLogin compare (w.db.accountByEmail a.email) password = .ok b.claims ↔
          ms.foldl (AccessAction.decide a.id) a.status ≠ "suspended") := by
  have hrun : exec (Access.step S env compare) (Access.start clock db admins) (ls ++ ms) =
      some w := by
    rw [exec_append, hv, Option.bind_some, h]
  have hw := sound_of_exec hdb hrun
  have hbefore : v.db.statusOf a.id = some a.status := by
    rw [AccountDb.statusOf, ha, Option.map_some]
  have hstatus := Access.statusOf_exec h hbefore
  refine ⟨by simp [checkStatus_eq_ok_iff, hstatus], ?_⟩
  have hvouched : v.Vouched (.merchant a.claims) :=
    ⟨a, (AccountDb.mem_of_account ha).1, rfl, rfl, rfl, .inr rfl⟩
  have hkept : w.Vouched (.merchant a.claims) :=
    invariant_of_exec (I := fun w => w.Vouched (.merchant a.claims)) (H := fun _ => True)
      hvouched
      (fun _ _ _ hv _ hs => (Access.kept_of_step hs).vouched _ hv) (fun _ _ => trivial) h
  obtain ⟨b, hb, hid, hemail, -⟩ := hkept
  have haccount : w.db.account a.id = some b := by
    rw [show a.id = b.id from hid.symm]
    exact hw.constrained.account_eq hb
  have hfound : w.db.accountByEmail a.email = some b := by
    rw [show a.email = b.email from hemail.symm]
    exact hw.constrained.accountByEmail_eq hb
  have hbstatus : b.status = ms.foldl (AccessAction.decide a.id) a.status := by
    simpa [AccountDb.statusOf, haccount] using hstatus
  refine ⟨b, haccount, hemail, fun password hpass => ?_⟩
  rw [checkLogin_eq_ok_iff, hfound, ← hbstatus]
  constructor
  · rintro ⟨b', hb', -, hactive, -⟩
    obtain rfl : b = b' := Option.some.inj hb'
    exact hactive
  · intro hactive
    exact ⟨b, rfl, hpass, hactive, rfl⟩

end Runs

/-! ## A login and a suspension -/

section Example

/-- Neither secret is set. -/
def exampleEnv : Env := ⟨none, none⟩

def exampleAdmins : List Admin := [⟨0, "admin@example.com", "hash", "Admin"⟩]

def exampleClaims : MerchantClaims where
  id := 0
  email := "first@example.com"
  name := "Test Merchant"
  stellarBaseAddress := some "GBXBABMFZIJPTOFI6STUXA2FMEXDBB4URBD3VS5XDHKMFHGLJZ5WPQBB"

def exampleStart : Access (Plain String Claims) := .start 1500 exampleAccounts exampleAdmins

def exampleCookie : Option (Plain String Claims) :=
  some ⟨exampleEnv.JWT_SECRET, .merchant exampleClaims, 2592001⟩

/-- A merchant and an admin log in, and the merchant comes back. -/
def exampleLogins : List (AccessAction (Plain String Claims)) :=
  [.login "first@example.com" "hash", .sign 0, .adminLogin "admin@example.com" "hash", .sign 0,
    .tick 5000, .authenticate exampleCookie]

theorem exampleEnv_separate : SecretsSeparate (Scheme.plain : Scheme String Claims _) exampleEnv :=
  ⟨Scheme.plain_separate (by decide), Scheme.plain_separate (by decide)⟩

theorem session_of_admitted_example :
    ∃ e ∈ trace (Access.step Scheme.plain exampleEnv (· == ·)) exampleStart exampleLogins,
      Vetted (· == ·) e exampleClaims := by
  obtain ⟨w, hw, hr, hok⟩ :
      ∃ w, exec (Access.step Scheme.plain exampleEnv (· == ·)) exampleStart exampleLogins =
        some w ∧ w.guarded[0]? = some ⟨exampleCookie, exampleClaims, 6500⟩ ∧
          checkStatus (w.db.statusOf exampleClaims.id) = .ok () :=
    exists_exec_of_any (by decide +kernel)
  exact (session_of_admitted Scheme.plain_lawful exampleEnv_separate exampleAccounts_constrained
    hw (by decide +kernel) hr hok).1

/-- A merchant that signs up during the run. -/
def exampleNewcomer : Account :=
  (exampleSignup "second@example.com" none).account none "hash" "BCDEFGHJ" 1 10

/-- It is suspended later on. -/
theorem admitted_iff_decided_example :
    ∃ v w, exec (Access.step Scheme.plain exampleEnv (· == ·)) exampleStart
        (exampleLogins ++ [.register exampleNewcomer]) = some v ∧
      exec (Access.step Scheme.plain exampleEnv (· == ·)) v
        [.setStatus 1 .suspended, .sign 0, .tick 1000] = some w ∧
      checkStatus (w.db.statusOf 1) ≠ .ok () := by
  obtain ⟨v, hv, ha, hrest⟩ :
      ∃ v, exec (Access.step Scheme.plain exampleEnv (· == ·)) exampleStart
          (exampleLogins ++ [.register exampleNewcomer]) = some v ∧
        v.db.account exampleNewcomer.id = some exampleNewcomer ∧
          (exec (Access.step Scheme.plain exampleEnv (· == ·)) v
            [.setStatus 1 .suspended, .sign 0, .tick 1000]).isSome :=
    exists_exec_of_any (by decide +kernel)
  obtain ⟨w, hw⟩ := Option.isSome_iff_exists.mp hrest
  refine ⟨v, w, hv, hw, fun hok => ?_⟩
  have hiff := (admitted_iff_decided exampleAccounts_constrained hv ha hw).1
  exact hiff.mp hok (by decide +kernel)

end Example

end KonfirmBackend.Auth
