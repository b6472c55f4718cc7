import KonfirmBackend.Reconciler.Promo

/-!
# Merchant accounts

The tables behind the account service: `merchants` with the columns that the reconciler does
not read, and `referrals`. Both services run on one database.

## Main definitions

- `Account`, `ReferralRow`, `AccountDb` — the tables
- `AccountDb.tables` — what the reconciler sees of them
-/

namespace KonfirmBackend.Auth

open Reconciler

/-- A `merchants` row. -/
structure Account extends MerchantRow where
  email : String
  passwordHash : String
  name : String
  status : String
  referralCode : Option String
deriving DecidableEq

/-- A `referrals` row. -/
structure ReferralRow where
  referrerId : ℕ
  referredId : ℕ
  code : String
  createdAt : ℕ
deriving DecidableEq

structure AccountDb where
  accounts : List Account
  referrals : List ReferralRow
  payments : List Payment
deriving DecidableEq

namespace AccountDb

/-- The row with a primary key. -/
def account (db : AccountDb) (id : ℕ) : Option Account :=
  db.accounts.find? fun a => decide (a.id = id)

/-- The database as the reconciler reads it; its remaining tables are those of `other`. -/
def tables (db : AccountDb) (other : Database) : Database :=
  { other with merchants := db.accounts.map Account.toMerchantRow, payments := db.payments }

/-- A paid payment of this merchant exists. -/
def HasPaid (db : AccountDb) (merchantId : ℕ) : Prop :=
  ∃ p ∈ db.payments, p.merchantId = merchantId ∧ p.status = .paid

instance (db : AccountDb) (merchantId : ℕ) : Decidable (db.HasPaid merchantId) :=
  inferInstanceAs (Decidable (∃ p ∈ db.payments, _))

/-- The reconciler finds the row that the account service finds. -/
theorem find_tables (db : AccountDb) (other : Database) (id : ℕ) :
    (db.tables other).merchants.find? (fun m => decide (m.id = id)) =
      (db.account id).map Account.toMerchantRow := by
  rw [tables, List.find?_map]
  rfl

end AccountDb

end KonfirmBackend.Auth
