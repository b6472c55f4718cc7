import KonfirmBackend.Auth.Accounts
import KonfirmBackend.Lib.ThreeValued

/-!
# The referral page

`AuthService.myReferrals` shows a merchant its promo, and computes in SQL whether it is
active. The reconciler decides the same thing in Rust, from values of another query.

## Main definitions

- `promoActive` — the SQL condition
- `myReferrals` — the page
- `TakesPromoBranch` — the reconciler charges the promo rate

## Main results

- `promo_shown_iff_charged` — the promo shown as active is the one that is charged
-/

namespace KonfirmBackend.Auth

open Reconciler

/-- The promo as the page shows it. -/
structure ShownPromo where
  active : Truth
  feeBps : FeeBps
  expiresAt : Option ℕ
  volumeCapUsdc : Option ℚ
  volumeSoFarUsdc : ℚ
deriving DecidableEq

/-- A referred merchant as the page shows it. -/
structure ShownReferral where
  name : String
  email : String
  createdAt : ℕ
  activated : Bool
deriving DecidableEq

structure ReferralPage where
  code : Option String
  promo : Option ShownPromo
  referrals : List ShownReferral
deriving DecidableEq

/-- The column `promo_active` of the query. -/
def promoActive (row : MerchantRow) (now : ℕ) (volume : ℚ) : Truth :=
  (Truth.isNotNull row.promoFeeBps).and
    ((Truth.gt row.promoExpiresAt (some now)).and
      ((Truth.isNull row.promoVolumeCapUsdc).or
        (Truth.gt row.promoVolumeCapUsdc (some volume))))

/-- The referrals of a merchant, joined with the accounts they brought, newest first. -/
def shownReferrals (db : AccountDb) (merchantId : ℕ) : List ShownReferral :=
  let joined := (db.referrals.filter fun r => r.referrerId = merchantId).flatMap fun r =>
    (db.accounts.filter fun a => a.id = r.referredId).map fun a =>
      ⟨a.name, a.email, r.createdAt, decide (db.HasPaid r.referredId)⟩
  joined.mergeSort fun a b => b.createdAt ≤ a.createdAt

/-- The volume column of the query. -/
def AccountDb.volumeSoFar (db : AccountDb) (merchantId : ℕ) : ℚ :=
  ((db.payments.filter fun p => p.merchantId = merchantId ∧ p.status = .paid).map
    fun p => p.amounts.amountUsdc.toRat).sum

/-- `myReferrals` at the database's time `now`. A merchant without a row gets as far as
reading the promo of `undefined`. -/
def myReferrals (db : AccountDb) (now merchantId : ℕ) : Except String ReferralPage :=
  match db.account merchantId with
  | none => .error "Cannot read properties of undefined (reading 'promo_active')"
  | some row =>
    let volume := db.volumeSoFar merchantId
    .ok {
      code := row.referralCode
      promo := row.promoFeeBps.map fun feeBps =>
        { active := promoActive row.toMerchantRow now volume
          feeBps := feeBps
          expiresAt := row.promoExpiresAt
          volumeCapUsdc := row.promoVolumeCapUsdc
          volumeSoFarUsdc := volume }
      referrals := shownReferrals db merchantId }

/-- The page reports this promo. -/
def ShowsPromo (db : AccountDb) (now merchantId : ℕ) (promo : ShownPromo) : Prop :=
  ∃ page, myReferrals db now merchantId = .ok page ∧ page.promo = some promo

/-- The reconciler charges `rate`, whatever base rate it holds for the merchant. -/
def TakesPromoBranch (db : Database) (now merchantId : ℕ) (rate : FeeBps) : Prop :=
  ∀ base, effectiveFeeBps db now ⟨merchantId, base⟩ = .ok rate

/-! ## The two decisions -/

/-- The SQL condition is true exactly when the promo applies. -/
theorem promoActive_eq_true_iff {row : MerchantRow} {now : ℕ} {volume : ℚ} :
    promoActive row now volume = some true ↔ row.PromoApplies now volume := by
  have hcap : (row.promoVolumeCapUsdc = none ∨ ∃ cap ∈ row.promoVolumeCapUsdc, volume < cap) ↔
      ∀ cap ∈ row.promoVolumeCapUsdc, volume < cap := by
    cases row.promoVolumeCapUsdc <;> simp
  simp only [promoActive, Truth.and_eq_true_iff, Truth.or_eq_true_iff, Truth.isNotNull_eq_true_iff,
    Truth.isNull_eq_true_iff, Truth.gt_eq_true_iff, Option.mem_some_iff, exists_eq_left', hcap,
    MerchantRow.PromoApplies, Option.isSome_iff_exists]

theorem showsPromo_iff {db : AccountDb} {now merchantId : ℕ} {promo : ShownPromo} :
    ShowsPromo db now merchantId promo ↔ ∃ row feeBps, db.account merchantId = some row ∧
      row.promoFeeBps = some feeBps ∧
      promo = ⟨promoActive row.toMerchantRow now (db.volumeSoFar merchantId), feeBps,
        row.promoExpiresAt, row.promoVolumeCapUsdc, db.volumeSoFar merchantId⟩ := by
  rw [ShowsPromo, myReferrals]
  cases db.account merchantId with
  | none => simp
  | some row => simp [eq_comm]

/-- A promo without an expiry is shown, and its activity is unknown. -/
example : promoActive ⟨0, none, ⟨10, FeeBps.ten_le⟩, some ⟨0, FeeBps.zero_le⟩, none, none⟩ 5 0 =
    none := by decide +kernel

/-- The promo branch of the reconciler, for a merchant whose row it finds. -/
theorem takesPromoBranch_iff {db : Database} {now merchantId : ℕ} {rate : FeeBps} :
    TakesPromoBranch db now merchantId rate ↔
      ∃ row, db.merchants.find? (fun m => decide (m.id = merchantId)) = some row ∧
        row.promoFeeBps = some rate ∧ row.PromoApplies now (db.paidVolume merchantId) := by
  have heff : ∀ row base, db.merchants.find? (fun m => decide (m.id = merchantId)) = some row →
      effectiveFeeBps db now ⟨merchantId, base⟩ =
        .ok (if row.PromoApplies now (db.paidVolume merchantId) then row.promoFeeBps.getD base
          else base) := by
    intro row base hrow
    rw [effectiveFeeBps, hrow, ← MerchantRow.resolveEffectiveFeeBps_eq]
    rfl
  constructor
  · intro h
    cases hrow : db.merchants.find? (fun m => decide (m.id = merchantId)) with
    | none =>
      have hnone := h rate
      rw [effectiveFeeBps, hrow] at hnone
      cases hnone
    | some row =>
      by_cases happlies : row.PromoApplies now (db.paidVolume merchantId)
      · obtain ⟨promo, hpromo⟩ := Option.isSome_iff_exists.mp happlies.1
        have hrate := h rate
        rw [heff row rate hrow, if_pos happlies, hpromo] at hrate
        obtain rfl : promo = rate := Except.ok.inj hrate
        exact ⟨row, rfl, hpromo, happlies⟩
      · -- without the promo, two base rates are charged differently
        have hbase : ∀ base : FeeBps, base = rate := by
          intro base
          have hrate := h base
          rw [heff row base hrow, if_neg happlies] at hrate
          exact Except.ok.inj hrate
        have hne := (hbase ⟨0, FeeBps.zero_le⟩).trans (hbase ⟨10, FeeBps.ten_le⟩).symm
        cases hne
  · rintro ⟨row, hrow, hpromo, happlies⟩ base
    rw [heff row base hrow, if_pos happlies, hpromo, Option.getD_some]

/-- **The promo shown is the promo charged.** The page reports an active promo exactly when
the reconciler takes the promo branch, and the rate it reports is the one charged. -/
theorem promo_shown_iff_charged (db : AccountDb) (other : Database) (now merchantId : ℕ) :
    ((∃ promo, ShowsPromo db now merchantId promo ∧ promo.active = some true) ↔
        ∃ rate, TakesPromoBranch (db.tables other) now merchantId rate) ∧
      ∀ promo, ShowsPromo db now merchantId promo → promo.active = some true →
        TakesPromoBranch (db.tables other) now merchantId promo.feeBps := by
  have hvolume : (db.tables other).paidVolume merchantId = db.volumeSoFar merchantId := rfl
  have hcharged : ∀ promo, ShowsPromo db now merchantId promo → promo.active = some true →
      TakesPromoBranch (db.tables other) now merchantId promo.feeBps := by
    intro promo hshown hactive
    obtain ⟨row, feeBps, hrow, hpromo, rfl⟩ := showsPromo_iff.mp hshown
    rw [takesPromoBranch_iff, hvolume, AccountDb.find_tables, hrow]
    exact ⟨row.toMerchantRow, rfl, hpromo, promoActive_eq_true_iff.mp hactive⟩
  refine ⟨⟨?_, ?_⟩, hcharged⟩
  · rintro ⟨promo, hshown, hactive⟩
    exact ⟨promo.feeBps, hcharged promo hshown hactive⟩
  · rintro ⟨rate, hrate⟩
    rw [takesPromoBranch_iff, hvolume, AccountDb.find_tables] at hrate
    obtain ⟨_, hfind, hpromo, happlies⟩ := hrate
    obtain ⟨row, hrow, rfl⟩ := Option.map_eq_some_iff.mp hfind
    exact ⟨_, showsPromo_iff.mpr ⟨row, rate, hrow, hpromo, rfl⟩,
      promoActive_eq_true_iff.mpr happlies⟩

end KonfirmBackend.Auth
