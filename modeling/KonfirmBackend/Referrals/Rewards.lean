import KonfirmBackend.Reconciler.Promo
import KonfirmBackend.Referrals.Sweep

/-!
# What a reward does to a referrer's fee

A grant overwrites whatever promo the referrer holds: the trial of a signup with a code, or
an earlier reward. The fee of a payment is computed when the payment is recorded, from the
promo, the time and the paid volume of that moment.

## Main definitions

- `signup` — the row of a new merchant
- `RewardNotWorse` — when a reward replaces no better promo

## Main results

- `rate_reward_le` — a reward that replaces no better promo never raises the rate
- `reward_never_raises_iff` — when a sweep's grant raises no fee that the reconciler computes
-/

namespace KonfirmBackend.Referrals

open Reconciler Transition

/-- The default of the `fee_bps` column. -/
def DEFAULT_FEE_BPS : FeeBps := ⟨10, FeeBps.ten_le⟩

def REFERRAL_TRIAL_FEE_BPS : FeeBps := ⟨0, FeeBps.zero_le⟩

def REFERRAL_TRIAL_DAYS : ℕ := 30

def REFERRAL_TRIAL_VOLUME_CAP_USDC : ℚ := 500

/-- The row that `AuthService.signup` inserts; a merchant that came with a referral code gets
a trial. -/
def signup (id : ℕ) (stellarBaseAddress : String) (referrerId : Option ℕ) (now : ℕ) :
    MerchantRow where
  id := id
  stellarBaseAddress := some stellarBaseAddress
  feeBps := DEFAULT_FEE_BPS
  promoFeeBps := referrerId.map fun _ => REFERRAL_TRIAL_FEE_BPS
  promoExpiresAt := referrerId.map fun _ => now + REFERRAL_TRIAL_DAYS * MS_PER_DAY
  promoVolumeCapUsdc := referrerId.map fun _ => REFERRAL_TRIAL_VOLUME_CAP_USDC

/-- A promo that still runs when the reward is granted is no better than the reward, and, if
it outlasts the reward, no better than the base fee. -/
def RewardNotWorse (row : MerchantRow) (now : ℕ) : Prop :=
  ∀ promo ∈ row.promoFeeBps, ∀ e ∈ row.promoExpiresAt, now < e →
    (∀ cap ∈ row.promoVolumeCapUsdc, 0 < cap) →
      (rewardFeeBps row.feeBps).val ≤ promo.val ∧
        (now + REWARD_DAYS * MS_PER_DAY < e → row.feeBps.val ≤ promo.val)

variable {row : MerchantRow} {t now : ℕ} {volume : ℚ}

/-- A reward is the promo for thirty days, whatever the volume. -/
theorem rate_reward_of_lt (h : t < now + REWARD_DAYS * MS_PER_DAY) :
    (reward row now).rate t volume = rewardFeeBps row.feeBps :=
  MerchantRow.rate_of_applies rfl ⟨rfl, ⟨_, rfl, h⟩, by simp [reward, MerchantRow.grantPromo]⟩

theorem rate_reward_of_le (h : now + REWARD_DAYS * MS_PER_DAY ≤ t) :
    (reward row now).rate t volume = row.feeBps := by
  apply MerchantRow.rate_of_not_applies
  rintro ⟨-, ⟨e, he, hlt⟩, -⟩
  obtain rfl : now + REWARD_DAYS * MS_PER_DAY = e := Option.some.inj he
  exact absurd hlt (not_lt.mpr h)

theorem rewardFeeBps_le (feeBps : FeeBps) : (rewardFeeBps feeBps).val ≤ feeBps.val := by
  show max (feeBps.val / REWARD_DISCOUNT_DIVISOR) 0 ≤ _
  rw [Nat.max_zero]
  exact Nat.div_le_self _ _

/-- A reward that replaces no better promo never raises the rate. -/
theorem rate_reward_le (h : RewardNotWorse row now) (ht : now ≤ t) (hvolume : 0 ≤ volume) :
    ((reward row now).rate t volume).val ≤ (row.rate t volume).val := by
  by_cases happlies : row.PromoApplies t volume
  · obtain ⟨hsome, ⟨e, he, hlt⟩, hcap⟩ := happlies
    obtain ⟨promo, hpromo⟩ := Option.isSome_iff_exists.mp hsome
    obtain ⟨hreward, hafter⟩ := h promo hpromo e he (ht.trans_lt hlt)
      fun cap hc => hvolume.trans_lt (hcap cap hc)
    rw [MerchantRow.rate_of_applies hpromo ⟨hsome, ⟨e, he, hlt⟩, hcap⟩]
    rcases lt_or_ge t (now + REWARD_DAYS * MS_PER_DAY) with hin | hout
    · rw [rate_reward_of_lt hin]
      exact hreward
    · rw [rate_reward_of_le hout]
      exact hafter (hout.trans_lt hlt)
  · rw [MerchantRow.rate_of_not_applies happlies]
    rcases lt_or_ge t (now + REWARD_DAYS * MS_PER_DAY) with hin | hout
    · rw [rate_reward_of_lt hin]
      exact rewardFeeBps_le row.feeBps
    · rw [rate_reward_of_le hout]

/-- Two payments show whether it does: one at the time of the grant, one when the reward ends. -/
theorem rewardNotWorse_of_rate_le
    (h : ∀ t ≥ now, ((reward row now).rate t 0).val ≤ (row.rate t 0).val) :
    RewardNotWorse row now := by
  intro promo hpromo e he hlt hcap
  have hdays : now < now + REWARD_DAYS * MS_PER_DAY := Nat.lt_add_of_pos_right (by decide)
  have hsome : row.promoFeeBps.isSome := Option.isSome_of_mem hpromo
  constructor
  · have hnow := h now le_rfl
    rwa [rate_reward_of_lt hdays,
      MerchantRow.rate_of_applies hpromo ⟨hsome, ⟨e, he, hlt⟩, hcap⟩] at hnow
  · intro hlater
    have hend := h _ hdays.le
    rwa [rate_reward_of_le le_rfl,
      MerchantRow.rate_of_applies hpromo ⟨hsome, ⟨e, he, hlater⟩, hcap⟩] at hend

/-! ## In the database -/

/-- The grant finds and replaces the row of the referrer. -/
theorem find_rewardReferrer {db : Database} {referrerId : ℕ}
    (h : db.merchants.find? (fun m => decide (m.id = referrerId)) = some row) (now : ℕ) :
    (rewardReferrer db now referrerId).merchants.find? (fun m => decide (m.id = referrerId)) =
      some (reward row now) := by
  have hid : row.id = referrerId := by simpa using List.find?_some h
  have hcomp : ((fun m : MerchantRow => decide (m.id = referrerId)) ∘ fun m =>
      if m.id = referrerId then reward m now else m) =
      fun m => decide (m.id = referrerId) := by
    funext m
    by_cases hm : m.id = referrerId <;> simp [hm, reward, MerchantRow.grantPromo]
  rw [rewardReferrer, List.find?_map, hcomp, h, Option.map_some, if_pos hid]

/-- The fee that the reconciler computes with the grant is at most the one without it. -/
def FeeNotRaised (before after : Database) (merchant : Merchant) (t : ℕ)
    (payments : List Payment) : Prop :=
  ∃ fee fee', effectiveFeeBps { before with payments := payments } t merchant = .ok fee ∧
    effectiveFeeBps { after with payments := payments } t merchant = .ok fee' ∧ fee'.val ≤ fee.val

theorem feeNotRaised_iff {before after : Database} {merchant : Merchant} {payments : List Payment}
    {fee fee' : FeeBps}
    (hfee : effectiveFeeBps { before with payments := payments } t merchant = .ok fee)
    (hfee' : effectiveFeeBps { after with payments := payments } t merchant = .ok fee') :
    FeeNotRaised before after merchant t payments ↔ fee'.val ≤ fee.val := by
  constructor
  · rintro ⟨f, f', hf, hf', hle⟩
    obtain rfl := Except.ok.inj (hf.symm.trans hfee)
    obtain rfl := Except.ok.inj (hf'.symm.trans hfee')
    exact hle
  · exact fun hle => ⟨fee, fee', hfee, hfee', hle⟩

/-- **A reward never raises a fee**, of any later payment and whatever has been paid by then,
exactly when the sweep's grant replaces no better promo. -/
theorem reward_never_raises_iff {s s' : Sweeps} {i now : ℕ} {c : Claimed} {rest : List Claimed}
    {row : MerchantRow} (hnext : s.grants[i]? = some (c :: rest))
    (hstep : step s (.grant i now) = some s')
    (hrow : s.db.merchants.find? (fun m => decide (m.id = c.referrerId)) = some row) :
    (∀ t ≥ now, ∀ payments : List Payment, (∀ p ∈ payments, 0 ≤ p.amounts.amountUsdc.units) →
        FeeNotRaised s.db s'.db row.merchant t payments) ↔ RewardNotWorse row now := by
  have hid : row.id = c.referrerId := by simpa using List.find?_some hrow
  have hdb : s'.db = rewardReferrer s.db now c.referrerId := by
    simp only [step, hnext, Option.some.injEq] at hstep
    rw [← hstep]
  have hrow' := find_rewardReferrer hrow now
  rw [← hid] at hrow hrow'
  -- the fee of a payment, before and after
  have hiff : ∀ t payments, FeeNotRaised s.db s'.db row.merchant t payments ↔
      ((reward row now).rate t (Database.paidVolume { s.db with payments := payments } row.id)).val
        ≤ (row.rate t (Database.paidVolume { s.db with payments := payments } row.id)).val := by
    intro t payments
    rw [hdb, ← hid]
    have hbefore := effectiveFeeBps_eq { s.db with payments := payments } hrow t
    have hafter := @effectiveFeeBps_eq { rewardReferrer s.db now row.id with payments := payments }
      (reward row now) hrow' t
    exact feeNotRaised_iff hbefore hafter
  constructor
  · intro h
    apply rewardNotWorse_of_rate_le
    intro t ht
    exact (hiff t []).mp (h t ht [] (by simp))
  · intro h t ht payments hpayments
    exact (hiff t payments).mpr (rate_reward_le h ht (Database.paidVolume_nonneg hpayments row.id))

/-- A sweep about to grant a reward to the example merchant, who has no promo. -/
def exampleGrant : Sweeps := { Sweeps.start exampleDb exampleReferrals with grants := [[⟨0, 0⟩]] }

/-- The reward of a merchant on the default rate raises no fee. -/
theorem reward_never_raises_default :
    ∃ s', step exampleGrant (.grant 0 5) = some s' ∧
      ∀ t ≥ 5, ∀ payments : List Payment, (∀ p ∈ payments, 0 ≤ p.amounts.amountUsdc.units) →
        FeeNotRaised exampleGrant.db s'.db ⟨0, DEFAULT_FEE_BPS⟩ t payments := by
  have hnext : exampleGrant.grants[0]? = some [⟨0, 0⟩] := rfl
  have hrow : exampleGrant.db.merchants.find? (fun m => decide (m.id = 0)) =
      some ⟨0, some "GMERCHANT", DEFAULT_FEE_BPS, none, none, none⟩ := rfl
  exact ⟨_, rfl, (reward_never_raises_iff hnext rfl hrow).mpr (by simp [RewardNotWorse])⟩

/-- Merchant 1 signed up with a code, and so did merchant 2, with the code of merchant 1. -/
def exampleSignups : Database :=
  { exampleDb with
    merchants := [signup 1 "GREFERRER" (some 0) 0, signup 2 "GREFERRED" (some 1) 0]
    payments := [examplePaid 2] }

/-- On its trial, merchant 1 pays no fee; the reward for its referral makes it 5 basis points. -/
theorem reward_raises_trial_fee :
    ∃ s, exec step (.start exampleSignups exampleReferrals) [.begin 1, .visit 0 0, .commit 0] =
        some s ∧
      effectiveFeeBps s.db 3 ⟨1, DEFAULT_FEE_BPS⟩ = .ok ⟨0, by decide⟩ ∧
      ∃ s', step s (.grant 0 2) = some s' ∧
        effectiveFeeBps s'.db 3 ⟨1, DEFAULT_FEE_BPS⟩ = .ok ⟨5, by decide⟩ := by
  refine ⟨_, rfl, by decide +kernel, _, rfl, by decide +kernel⟩

end KonfirmBackend.Referrals
