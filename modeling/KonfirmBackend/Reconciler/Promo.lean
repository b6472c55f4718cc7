import KonfirmBackend.Reconciler.Store
import Mathlib.Algebra.Order.BigOperators.Group.List

/-!
# Promo rates

The rate of a payment as a function of the merchant's row, the time and the paid volume.

## Main definitions

- `MerchantRow.PromoApplies` — the promo of a row lasts, in time and in volume
- `MerchantRow.rate` — the rate of a payment

## Main results

- `MerchantRow.rate_eq` — the promo rate while the promo applies, else the base rate
- `effectiveFeeBps_eq` — the rate that the reconciler computes
-/

namespace KonfirmBackend.Reconciler

namespace MerchantRow

/-- There is a promo whose time and volume last. -/
def PromoApplies (row : MerchantRow) (t : ℕ) (volume : ℚ) : Prop :=
  row.promoFeeBps.isSome ∧ (∃ e ∈ row.promoExpiresAt, t < e) ∧
    ∀ cap ∈ row.promoVolumeCapUsdc, volume < cap

instance (row : MerchantRow) (t : ℕ) (volume : ℚ) : Decidable (row.PromoApplies t volume) :=
  inferInstanceAs (Decidable (_ ∧ _ ∧ _))

/-- The rate of a payment at time `t`, for a paid volume. -/
def rate (row : MerchantRow) (t : ℕ) (volume : ℚ) : FeeBps :=
  resolveEffectiveFeeBps row.feeBps row.promoFeeBps
    (row.promoExpiresAt.elim false fun e => decide (t < e)) row.promoVolumeCapUsdc volume

/-- What `watch` keeps of the row. -/
def merchant (row : MerchantRow) : Merchant := ⟨row.id, row.feeBps⟩

variable {row : MerchantRow} {t : ℕ} {volume : ℚ}

/-- The decision of the reconciler, for the base rate it holds. -/
theorem resolveEffectiveFeeBps_eq (row : MerchantRow) (base : FeeBps) (t : ℕ) (volume : ℚ) :
    resolveEffectiveFeeBps base row.promoFeeBps
        (row.promoExpiresAt.elim false fun e => decide (t < e)) row.promoVolumeCapUsdc volume =
      if row.PromoApplies t volume then row.promoFeeBps.getD base else base := by
  have htime : (row.promoExpiresAt.elim false fun e => decide (t < e)) = true ↔
      ∃ e ∈ row.promoExpiresAt, t < e := by
    cases row.promoExpiresAt <;> simp
  have hcap : (row.promoVolumeCapUsdc.elim true fun cap => decide (volume < cap)) = true ↔
      ∀ cap ∈ row.promoVolumeCapUsdc, volume < cap := by
    cases row.promoVolumeCapUsdc <;> simp
  cases hpromo : row.promoFeeBps with
  | none => simp [resolveEffectiveFeeBps, PromoApplies, hpromo]
  | some promo =>
    simp only [resolveEffectiveFeeBps, PromoApplies, hpromo, htime, hcap, Option.isSome_some,
      true_and, Option.getD_some]

theorem rate_eq (row : MerchantRow) (t : ℕ) (volume : ℚ) : row.rate t volume =
    if row.PromoApplies t volume then row.promoFeeBps.getD row.feeBps else row.feeBps :=
  resolveEffectiveFeeBps_eq row row.feeBps t volume

theorem rate_of_applies {promo : FeeBps} (hpromo : row.promoFeeBps = some promo)
    (h : row.PromoApplies t volume) : row.rate t volume = promo := by
  rw [rate_eq, if_pos h, hpromo, Option.getD_some]

theorem rate_of_not_applies (h : ¬row.PromoApplies t volume) : row.rate t volume = row.feeBps := by
  rw [rate_eq, if_neg h]

end MerchantRow

/-- The rate of the merchant's next payment. -/
theorem effectiveFeeBps_eq (db : Database) {row : MerchantRow}
    (h : db.merchants.find? (fun m => decide (m.id = row.id)) = some row) (t : ℕ) :
    effectiveFeeBps db t row.merchant = .ok (row.rate t (db.paidVolume row.id)) := by
  rw [effectiveFeeBps, MerchantRow.merchant, h]
  rfl

/-- A paid volume of amounts that are not negative. -/
theorem Database.paidVolume_nonneg {db : Database}
    (h : ∀ p ∈ db.payments, 0 ≤ p.amounts.amountUsdc.units) (merchantId : ℕ) :
    0 ≤ db.paidVolume merchantId := by
  rw [Database.paidVolume]
  apply List.sum_nonneg
  intro q hq
  obtain ⟨p, hp, rfl⟩ := List.mem_map.mp hq
  have hunits : (0 : ℚ) ≤ p.amounts.amountUsdc.units := by
    exact_mod_cast h p (List.mem_of_mem_filter hp)
  exact div_nonneg hunits (by norm_num)

end KonfirmBackend.Reconciler
