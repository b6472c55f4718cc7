import KonfirmBackend.Facilitator.Sweep
import KonfirmBackend.Lib.JsNumber

/-!
# What the environment lets the sweep do

`FacilitatorSweepService.sweep` as a function of the two environment variables that bound it,
both of them free text that `Number` reads, and of what the chain and the database answer.
Amounts are JavaScript numbers where the code has them as numbers, and big integers where it
has them as those.

## Main definitions

- `Env`, `Answers` — what a sweep reads
- `guardSpend`, `checkAndRecordSpend`, `doSweep`, `sweep` — the code
- `AsConfigured` — what the two variables are there to ensure of a transfer
- `Refuses`, `Holds` — which strings, balances and totals keep the sweep to that

## Main results

- `doSweep_eq_submitted_iff` — when a transfer is submitted
- `exceedsCap_iff` — which caps refuse an amount
- `failsClosed_of_decimals` — ordinary decimals do not open the sweep
- `sweep_asConfigured_iff` — what the environment lets through, and what ordinary decimals do
-/

namespace KonfirmBackend.Facilitator

/-- The environment variables; either may be unset. -/
structure Env where
  FACILITATOR_SWEEP_MIN_USDC_BALANCE : Option String
  FACILITATOR_DAILY_SPEND_CAP_USDC : Option String

/-- What a sweep is told, with the messages of the errors that it is told instead. -/
structure Answers where
  /-- `pg_try_advisory_lock` -/
  locked : Except String Bool
  signer : Except String Unit
  /-- an error is logged, and ends the sweep -/
  balanceStroops : Except String ℤ
  /-- the value of `halted_at`, and today's total -/
  spendState : Except String (Option String × ℚ)
  /-- the statements of `halt` -/
  halt : Except String Unit
  /-- the insert into `facilitator_spend_log` -/
  record : Except String Unit

/-- What `checkAndRecordSpend` throws. -/
inductive SpendError
  | refused (refusal : SpendRefusal)
  | failed (message : String)
deriving DecidableEq

/-- How a sweep ends, up to the transfer. -/
inductive Outcome
  | notConfigured
  | alreadyRunning
  | unreadableBalance (message : String)
  /-- `BigInt` of no integer -/
  | rangeError
  | nothingAbove
  | blocked (message : String)
  | failed (message : String)
  | submitted (amount : Stroops)
deriving DecidableEq

def SpendRefusal.message : SpendRefusal → String
  | .halted message => message
  | .capExceeded _ message => message

/-! ## The spend guard -/

def dailyCapUsdc (env : Env) : JsNumber :=
  .ofString (env.FACILITATOR_DAILY_SPEND_CAP_USDC.getD "0")

/-- `spentToday + amountUsdc > cap`. -/
def exceedsCap (cap spentToday amountUsdc : JsNumber) : Bool := cap.lt (spentToday.add amountUsdc)

variable (print : JsNumber → String)

/-- `checkAndRecordSpend` between its queries and its insert. -/
def guardSpend (cap : JsNumber) (halted : Option String) (spentToday amountUsdc : JsNumber)
    (operation : String) (reference : Option String) : Except SpendRefusal Unit :=
  match halted with
  | some haltedAt =>
    .error (.halted ("facilitator signing is halted (since " ++ haltedAt ++
      ") pending manual review -- see GET /admin/facilitator/status, resume via POST " ++
      "/admin/facilitator/resume"))
  | none =>
    if exceedsCap cap spentToday amountUsdc then
      .error (.capExceeded
        ("daily cap exceeded: attempted $" ++ print amountUsdc ++ " (" ++ operation ++
          referenceSuffix reference ++ ") with $" ++ print spentToday ++
          " already spent today against a $" ++ print cap ++ " cap")
        ("signing this $" ++ print amountUsdc ++ " " ++ operation ++
          " would exceed the daily cap of $" ++ print cap ++ " ($" ++ print spentToday ++
          " already spent today) -- halting further signing pending manual review"))
    else .ok ()

def checkAndRecordSpend (env : Env) (answers : Answers) (amountUsdc : JsNumber)
    (operation : String) (reference : Option String) : Except SpendError Unit :=
  match answers.spendState with
  | .error err =>
    .error (.failed ("facilitator spend guard: could not read spend state, refusing to sign " ++
      "(fail closed): " ++ err))
  | .ok (halted, total) =>
    match guardSpend print (dailyCapUsdc env) halted (.ofRat total) amountUsdc operation
      reference with
    | .error (.halted message) => .error (.refused (.halted message))
    | .error (.capExceeded haltReason message) =>
      -- signing is halted before the refusal is thrown
      match answers.halt with
      | .error err => .error (.failed err)
      | .ok () => .error (.refused (.capExceeded haltReason message))
    | .ok () =>
      match answers.record with
      | .error err => .error (.failed err)
      | .ok () => .ok ()

/-! ## The sweep -/

/-- `BigInt(Math.round(minUsdc * STROOPS_PER_UNIT))`, if it does not throw. -/
def minStroops (minUsdc : JsNumber) : Option ℤ :=
  (minUsdc.mul STROOPS_PER_UNIT).mathRound.toBigInt

/-- `Number(sweepStroops) / STROOPS_PER_UNIT`. -/
def sweepUsdc (sweepStroops : ℤ) : JsNumber := (JsNumber.ofBigInt sweepStroops).div STROOPS_PER_UNIT

def doSweep (env : Env) (answers : Answers) (minUsdc : JsNumber) : Outcome :=
  match answers.signer, answers.balanceStroops with
  | .error err, _ => .failed err
  | .ok (), .error err => .unreadableBalance err
  | .ok (), .ok balanceStroops =>
    match minStroops minUsdc with
    | none => .rangeError
    | some floor =>
      if h : 0 < balanceStroops - floor then
        match checkAndRecordSpend print env answers (sweepUsdc (balanceStroops - floor)) "sweep"
          (some TREASURY_CONTRACT_ID) with
        | .error (.refused refusal) => .blocked refusal.message
        | .error (.failed message) => .failed message
        | .ok () => .submitted ⟨balanceStroops - floor, h⟩
      else .nothingAbove

def sweep (env : Env) (answers : Answers) : Outcome :=
  match env.FACILITATOR_SWEEP_MIN_USDC_BALANCE with
  | none => .notConfigured
  | some minUsdcRaw =>
    match answers.locked with
    | .error err => .failed err
    | .ok false => .alreadyRunning
    | .ok true => doSweep print env answers (.ofString minUsdcRaw)

variable {print : JsNumber → String} {env : Env} {answers : Answers}

theorem guardSpend_eq_ok_iff {cap spentToday amountUsdc : JsNumber} {halted : Option String}
    {operation : String} {reference : Option String} :
    guardSpend print cap halted spentToday amountUsdc operation reference = .ok () ↔
      halted = none ∧ exceedsCap cap spentToday amountUsdc = false := by
  cases halted with
  | some haltedAt => simp [guardSpend]
  | none =>
    cases hover : exceedsCap cap spentToday amountUsdc with
    | true => simp [guardSpend, hover]
    | false => simp [guardSpend, hover]

theorem checkAndRecordSpend_eq_ok_iff {amountUsdc : JsNumber} {operation : String}
    {reference : Option String} :
    checkAndRecordSpend print env answers amountUsdc operation reference = .ok () ↔
      ∃ total, answers.spendState = .ok (none, total) ∧ answers.record = .ok () ∧
        exceedsCap (dailyCapUsdc env) (.ofRat total) amountUsdc = false := by
  constructor
  · intro h
    unfold checkAndRecordSpend at h
    split at h
    · cases h
    · rename_i halted total hstate
      split at h
      · cases h
      · split at h
        · cases h
        · cases h
      · rename_i hguard
        obtain ⟨rfl, hfits⟩ := guardSpend_eq_ok_iff.mp hguard
        split at h
        · cases h
        · rename_i hrecord
          exact ⟨total, hstate, hrecord, hfits⟩
  · rintro ⟨total, hstate, hrecord, hfits⟩
    have hguard : guardSpend print (dailyCapUsdc env) none (.ofRat total) amountUsdc operation
        reference = .ok () := guardSpend_eq_ok_iff.mpr ⟨rfl, hfits⟩
    simp [checkAndRecordSpend, hstate, hguard, hrecord]

theorem doSweep_eq_submitted_iff {minUsdc : JsNumber} {amount : Stroops} :
    doSweep print env answers minUsdc = .submitted amount ↔
      ∃ balance floor total, answers.signer = .ok () ∧ answers.balanceStroops = .ok balance ∧
        answers.spendState = .ok (none, total) ∧ answers.record = .ok () ∧
        minStroops minUsdc = some floor ∧ amount.val = balance - floor ∧
        exceedsCap (dailyCapUsdc env) (.ofRat total) (sweepUsdc amount.val) = false := by
  constructor
  · intro h
    unfold doSweep at h
    split at h
    · cases h
    · cases h
    · rename_i balance hsigner hbalance
      split at h
      · cases h
      · rename_i floor hfloor
        split at h
        · split at h
          · cases h
          · cases h
          · rename_i hcheck
            cases h
            obtain ⟨total, hstate, hrecord, hfits⟩ := checkAndRecordSpend_eq_ok_iff.mp hcheck
            exact ⟨balance, floor, total, hsigner, hbalance, hstate, hrecord, hfloor, rfl, hfits⟩
        · cases h
  · rintro ⟨balance, floor, total, hsigner, hbalance, hstate, hrecord, hfloor, hamount, hfits⟩
    obtain ⟨val, hpos⟩ := amount
    obtain rfl : val = balance - floor := hamount
    have hcheck : checkAndRecordSpend print env answers (sweepUsdc (balance - floor)) "sweep"
        (some TREASURY_CONTRACT_ID) = .ok () :=
      checkAndRecordSpend_eq_ok_iff.mpr ⟨total, hstate, hrecord, hfits⟩
    simp only [doSweep, hsigner, hbalance, hfloor, hcheck]
    exact dif_pos hpos

theorem sweep_eq_submitted_iff {amount : Stroops} :
    sweep print env answers = .submitted amount ↔
      ∃ minUsdcRaw, env.FACILITATOR_SWEEP_MIN_USDC_BALANCE = some minUsdcRaw ∧
        answers.locked = .ok true ∧
        doSweep print env answers (.ofString minUsdcRaw) = .submitted amount := by
  unfold sweep
  cases env.FACILITATOR_SWEEP_MIN_USDC_BALANCE with
  | none => simp
  | some minUsdcRaw =>
    cases answers.locked with
    | error err => simp
    | ok locked => cases locked <;> simp

/-! ## What the variables ensure -/

open JsNumber (literal ofString ofRat)

/-- What the two variables are there to ensure of a transfer: both are decimals, the balance
keeps the minimum and the day keeps to the cap. -/
def AsConfigured (minUsdcRaw capRaw : String) (balance : ℤ) (spentToday : ℚ) (amount : Stroops) :
    Prop :=
  ∃ m c, literal minUsdcRaw = some (.numeral m) ∧ 0 ≤ m ∧ literal capRaw = some (.numeral c) ∧
    0 < amount.val ∧ (amount.val : ℚ) ≤ balance - m * STROOPS_PER_UNIT ∧
    spentToday + amount.usdc ≤ c

/-- Whether the cap refuses `stroops` more after `spentToday`. A blank is read as zero, and what
spells no number as `NaN`, which nothing exceeds. -/
def Refuses (cap : Option JsNumber.Literal) (spentToday : ℚ) (stroops : ℤ) : Prop :=
  match cap with
  | none | some (.infinity false) => False
  | some .blank | some (.infinity true) => True
  | some (.numeral c) =>
    (ofRat c).lt ((ofRat spentToday).add ((ofRat stroops).div STROOPS_PER_UNIT)) = true

/-- A whole number of stroops, up to a hundred million dollars. -/
def Ordinary (q : ℚ) : Prop := ∃ k : ℕ, k ≤ 10 ^ 15 ∧ q = k / STROOPS_PER_UNIT

/-- Which variables keep the sweep to what they say, for a balance and a total of the day. A
minimum that is no number, or infinite, ends the sweep. A blank one is read as zero. A decimal
may be negative, and the stroops it is read as may be fewer than it says. -/
def Holds (min cap : Option JsNumber.Literal) (balance : ℤ) (spentToday : ℚ) : Prop :=
  match min with
  | none | some (.infinity _) => True
  | some .blank => balance ≤ 0 ∨ Refuses cap spentToday balance
  | some (.numeral m) =>
    (Ordinary m ∧ (∃ c, cap = some (.numeral c) ∧ Ordinary c) ∧
        ∃ k : ℕ, spentToday = k / STROOPS_PER_UNIT) ∨
      ∀ floor, ((ofRat m).mul STROOPS_PER_UNIT).mathRound.toBigInt = some floor →
        balance ≤ floor ∨ Refuses cap spentToday (balance - floor) ∨
          0 ≤ m ∧ m * STROOPS_PER_UNIT ≤ floor ∧ ∃ c, cap = some (.numeral c) ∧
            spentToday + (balance - floor) / STROOPS_PER_UNIT ≤ c

/-! ## A sweep that passes -/

/-- The sweep gets past both variables: the minimum is read as `floor` stroops, the balance is
above it, and the cap does not refuse the rest. -/
structure Passes (minUsdcRaw capRaw : String) (balance : ℤ) (spentToday : ℚ) (floor : ℤ) :
    Prop where
  minimum : minStroops (ofString minUsdcRaw) = some floor
  above : floor < balance
  fits : exceedsCap (ofString capRaw) (ofRat spentToday) (sweepUsdc (balance - floor)) = false

/-- What can be wrong with a sweep that passes. -/
inductive Defect (minUsdcRaw capRaw : String) (balance : ℤ) (spentToday : ℚ) (floor : ℤ) : Prop
  /-- the cap is read as `NaN`, which nothing exceeds -/
  | capNotANumber (h : literal capRaw = none)
  /-- nothing exceeds infinity either -/
  | capInfinite (negative : Bool) (h : literal capRaw = some (.infinity negative))
  /-- a blank is read as zero -/
  | capBlank (h : literal capRaw = some .blank)
  | minBlank (h : literal minUsdcRaw = some .blank)
  | minNegative (m : ℚ) (h : literal minUsdcRaw = some (.numeral m)) (hm : m < 0)
  | minRoundedDown (m : ℚ) (h : literal minUsdcRaw = some (.numeral m))
      (hm : floor < m * STROOPS_PER_UNIT)
  /-- the exact total exceeds the cap, but the rounded one does not -/
  | excessRounded (c : ℚ) (h : literal capRaw = some (.numeral c))
      (hc : c < spentToday + (balance - floor) / STROOPS_PER_UNIT)

/-- No sweep passes that should not. -/
def FailsClosed (minUsdcRaw capRaw : String) (balance : ℤ) (spentToday : ℚ) : Prop :=
  ∀ floor, Passes minUsdcRaw capRaw balance spentToday floor →
    ¬Defect minUsdcRaw capRaw balance spentToday floor

variable {minUsdcRaw capRaw : String} {balance floor : ℤ} {spentToday : ℚ} {halted : Option String}
  {printer : Printer}

/-- What is known of a transfer that is submitted. -/
theorem floor_of_submitted {amount : Stroops} (hbalance : answers.balanceStroops = .ok balance)
    (hstate : answers.spendState = .ok (halted, spentToday))
    (h : sweep print ⟨some minUsdcRaw, some capRaw⟩ answers = .submitted amount) :
    ∃ floor, minStroops (ofString minUsdcRaw) = some floor ∧ amount.val = balance - floor ∧
      exceedsCap (ofString capRaw) (ofRat spentToday) (sweepUsdc amount.val) = false := by
  obtain ⟨raw, hraw, -, h⟩ := sweep_eq_submitted_iff.mp h
  obtain ⟨balance', floor, total, -, hbalance', hstate', -, hfloor, hamount, hfits⟩ :=
    doSweep_eq_submitted_iff.mp h
  cases hraw
  cases hbalance.symm.trans hbalance'
  cases hstate.symm.trans hstate'
  exact ⟨floor, hfloor, hamount, hfits⟩

/-- A minimum that is read as a number of stroops is a decimal or blank. -/
theorem literal_of_minStroops (h : minStroops (ofString minUsdcRaw) = some floor) :
    literal minUsdcRaw = some .blank ∨ ∃ m, literal minUsdcRaw = some (.numeral m) := by
  unfold ofString at h
  cases hl : literal minUsdcRaw with
  | none =>
    rw [hl] at h
    cases h
  | some l =>
    cases l with
    | blank => exact .inl rfl
    | infinity negative =>
      rw [hl] at h
      cases h
    | numeral m => exact .inr ⟨m, rfl⟩

/-- What is not wrong with a sweep that passes. -/
theorem not_defect_iff {m : ℚ} (hmin : literal minUsdcRaw = some (.numeral m)) :
    ¬Defect minUsdcRaw capRaw balance spentToday floor ↔
      0 ≤ m ∧ m * STROOPS_PER_UNIT ≤ floor ∧ ∃ c, literal capRaw = some (.numeral c) ∧
        spentToday + (balance - floor) / STROOPS_PER_UNIT ≤ c := by
  constructor
  · intro h
    refine ⟨?_, ?_, ?_⟩
    · by_contra! hneg
      exact h (.minNegative m hmin hneg)
    · by_contra! hlow
      exact h (.minRoundedDown m hmin hlow)
    · cases hcap : literal capRaw with
      | none => exact absurd (.capNotANumber hcap) h
      | some l =>
        cases l with
        | blank => exact absurd (.capBlank hcap) h
        | infinity negative => exact absurd (.capInfinite negative hcap) h
        | numeral c =>
          refine ⟨c, rfl, ?_⟩
          by_contra! hover
          exact h (.excessRounded c hcap hover)
  · rintro ⟨hnonneg, hkept, c, hcap, hfits⟩ hdefect
    cases hdefect with
    | capNotANumber h => cases hcap.symm.trans h
    | capInfinite negative h => cases hcap.symm.trans h
    | capBlank h => cases hcap.symm.trans h
    | minBlank h => cases hmin.symm.trans h
    | minNegative m h hneg =>
      cases hmin.symm.trans h
      exact absurd hneg (not_lt.mpr hnonneg)
    | minRoundedDown m h hlow =>
      cases hmin.symm.trans h
      exact absurd hlow (not_lt.mpr hkept)
    | excessRounded c h hover =>
      cases hcap.symm.trans h
      exact absurd hover (not_lt.mpr hfits)

/-- What a sweep that passes without a defect transfers is as configured. -/
theorem asConfigured_of_not_defect {amount : Stroops} (hamount : amount.val = balance - floor)
    (hmin : minStroops (ofString minUsdcRaw) = some floor)
    (h : ¬Defect minUsdcRaw capRaw balance spentToday floor) :
    AsConfigured minUsdcRaw capRaw balance spentToday amount := by
  obtain hblank | ⟨m, hm⟩ := literal_of_minStroops hmin
  · exact absurd (.minBlank hblank) h
  · obtain ⟨hnonneg, hkept, c, hcap, hfits⟩ := (not_defect_iff hm).mp h
    refine ⟨m, c, hm, hnonneg, hcap, amount.pos, ?_, ?_⟩
    · rw [hamount]
      push_cast
      linarith
    · rw [Stroops.usdc, hamount]
      exact_mod_cast hfits

/-- And a defect is not. -/
theorem AsConfigured.not_defect {amount : Stroops} (hamount : amount.val = balance - floor)
    (h : AsConfigured minUsdcRaw capRaw balance spentToday amount) :
    ¬Defect minUsdcRaw capRaw balance spentToday floor := by
  obtain ⟨m, c, hmin, hnonneg, hcap, -, hkept, hfits⟩ := h
  rw [hamount] at hkept
  rw [Stroops.usdc, hamount] at hfits
  push_cast at hkept hfits
  exact (not_defect_iff hmin).mpr ⟨hnonneg, by linarith, c, hcap, hfits⟩

/-- The transfers that are submitted are as configured exactly when no sweep passes with a
defect. -/
theorem forall_asConfigured_iff (print : JsNumber → String) (minUsdcRaw capRaw : String)
    (balance : ℤ) (spentToday : ℚ) :
    (∀ answers halted amount, answers.balanceStroops = .ok balance →
        answers.spendState = .ok (halted, spentToday) →
        sweep print ⟨some minUsdcRaw, some capRaw⟩ answers = .submitted amount →
        AsConfigured minUsdcRaw capRaw balance spentToday amount) ↔
      FailsClosed minUsdcRaw capRaw balance spentToday := by
  constructor
  · intro h floor hpasses
    let answers : Answers := ⟨.ok true, .ok (), .ok balance, .ok (none, spentToday), .ok (), .ok ()⟩
    let amount : Stroops := ⟨balance - floor, Int.sub_pos_of_lt hpasses.above⟩
    have hsubmitted : sweep print ⟨some minUsdcRaw, some capRaw⟩ answers = .submitted amount :=
      sweep_eq_submitted_iff.mpr ⟨minUsdcRaw, rfl, rfl, doSweep_eq_submitted_iff.mpr
        ⟨balance, floor, spentToday, rfl, rfl, rfl, rfl, hpasses.minimum, rfl, hpasses.fits⟩⟩
    exact (h answers none amount rfl rfl hsubmitted).not_defect rfl
  · intro h answers halted amount hbalance hstate hsubmitted
    obtain ⟨floor, hfloor, hamount, hfits⟩ := floor_of_submitted hbalance hstate hsubmitted
    have hpasses : Passes minUsdcRaw capRaw balance spentToday floor :=
      ⟨hfloor, by have := amount.pos; omega, by rw [← hamount]; exact hfits⟩
    exact asConfigured_of_not_defect hamount hfloor (h floor hpasses)

/-! ## Ordinary decimals -/

theorem two_zpow_le_stroop : (2 : ℚ) ^ (-1022 : ℤ) ≤ 1 / 2 / 10000000 := by
  have hle : (2 : ℚ) ^ (-1022 : ℤ) ≤ 2 ^ (-25 : ℤ) := Binary64.two_zpow_le_iff.mpr (by norm_num)
  refine hle.trans ?_
  norm_num

theorem normal_stroops (k : ℕ) : Binary64.Normal ((k : ℚ) / 10000000) := by
  by_cases hk : k = 0
  · left
    simp [hk]
  · refine Binary64.normal_of_le two_zpow_le_stroop ?_
    have hone : (1 : ℚ) ≤ k := by exact_mod_cast Nat.one_le_iff_ne_zero.mpr hk
    exact div_le_div_of_nonneg_right (by linarith) (by norm_num)

theorem ofString_eq_finite {s : String} {k : ℕ} (hk : k ≤ 10 ^ 15)
    (h : literal s = some (.numeral ((k : ℚ) / 10000000))) :
    ∃ v, ∃ hv : Binary64.Representable v, ofString s = .finite v hv ∧
      |v - k / 10000000| ≤ k / 10000000 / 2 ^ 53 := by
  have hle : (k : ℚ) ≤ 1000000000000000 := by exact_mod_cast hk
  have hnonneg : (0 : ℚ) ≤ k / 10000000 := by positivity
  obtain ⟨v, hv, hread, herror⟩ := JsNumber.ofRat_eq_finite (normal_stroops k) (by
    rw [abs_of_nonneg hnonneg]
    norm_num
    linarith)
  refine ⟨v, hv, ?_, ?_⟩
  · rw [ofString, h]
    exact hread
  · rwa [abs_of_nonneg hnonneg] at herror

/-- An ordinary minimum is read as it is written. -/
theorem minStroops_of_ordinary {k : ℕ} (hk : k ≤ 10 ^ 15)
    (h : literal minUsdcRaw = some (.numeral ((k : ℚ) / STROOPS_PER_UNIT))) :
    minStroops (ofString minUsdcRaw) = some (k : ℤ) := by
  have hle : (k : ℚ) ≤ 1000000000000000 := by exact_mod_cast hk
  obtain ⟨v, hv, hread, herror⟩ := ofString_eq_finite hk h
  have hv' := abs_le.mp herror
  have hnormal : Binary64.Normal (v * 10000000) := by
    by_cases hzero : k = 0
    · left
      simp only [hzero, Nat.cast_zero, zero_div] at hv'
      have : v = 0 := by linarith
      simp [this]
    · have hone : (1 : ℚ) ≤ k := by exact_mod_cast Nat.one_le_iff_ne_zero.mpr hzero
      refine Binary64.normal_of_le two_zpow_le_stroop ?_
      norm_num at hv' ⊢
      linarith
  have hbound : |v * 10000000| ≤ k + k / 2 ^ 53 := by
    rw [abs_le]
    norm_num at hv' ⊢
    constructor <;> linarith
  obtain ⟨w, hw, hround, herror'⟩ := JsNumber.ofRat_eq_finite hnormal (by
    refine hbound.trans ?_
    norm_num
    linarith)
  have hw' := abs_le.mp (herror'.trans (div_le_div_of_nonneg_right hbound (by norm_num)))
  have hfloor : ⌊w + 1 / 2⌋ = k := by
    rw [Int.floor_eq_iff]
    push_cast
    norm_num at hv' hw' ⊢
    constructor <;> linarith
  have hmul : (ofString minUsdcRaw).mul STROOPS_PER_UNIT = .finite w hw := by
    rw [hread]
    exact hround
  rw [minStroops, hmul, JsNumber.toBigInt_mathRound, hfloor]

theorem sweepUsdc_atLeast {n : ℤ} (hn : 0 < n) :
    JsNumber.AtLeast ((n : ℚ) / 10000000 * (1 - 2 / 2 ^ 53)) (sweepUsdc n) := by
  obtain ⟨k, rfl⟩ := Int.eq_ofNat_of_zero_le hn.le
  have hone : (1 : ℚ) ≤ k := by exact_mod_cast hn
  have hread : JsNumber.AtLeast ((k : ℚ) * (1 - 1 / 2 ^ 53)) (JsNumber.ofBigInt k) := by
    refine JsNumber.atLeast_ofRat ?_ (by positivity)
    refine Binary64.normal_of_le two_zpow_le_stroop ?_
    norm_num
    linarith
  have hquot := hread.div (show (0 : ℚ) < 10000000 by norm_num)
    (two_zpow_le_stroop.trans (by norm_num; linarith))
  refine hquot.mono ?_
  norm_num
  linarith

theorem total_atLeast {n : ℤ} (hn : 0 < n) (k : ℕ) :
    JsNumber.AtLeast (((k : ℚ) / 10000000 + n / 10000000) * (1 - 4 / 2 ^ 53))
      ((ofRat ((k : ℚ) / 10000000)).add (sweepUsdc n)) := by
  have hk : (0 : ℚ) ≤ k := Nat.cast_nonneg k
  have hone : (1 : ℚ) ≤ n := by exact_mod_cast hn
  have hspent := JsNumber.atLeast_ofRat (normal_stroops k) (by positivity)
  have htotal := hspent.add (sweepUsdc_atLeast hn)
    (two_zpow_le_stroop.trans (by norm_num; linarith))
  refine htotal.mono ?_
  norm_num
  linarith

/-- The total is not below what is to be added to it. -/
theorem spent_add_atLeast {n : ℤ} (hn : 0 < n) (hspent : 0 ≤ spentToday) :
    JsNumber.AtLeast (1 / 2 / 10000000) ((ofRat spentToday).add (sweepUsdc n)) := by
  have hone : (1 : ℚ) ≤ n := by exact_mod_cast hn
  have hnonneg : JsNumber.AtLeast 0 (ofRat spentToday) := JsNumber.atLeast_zero_ofRat hspent
  have htotal := hnonneg.add (sweepUsdc_atLeast hn)
    (two_zpow_le_stroop.trans (by norm_num; linarith))
  refine htotal.mono ?_
  norm_num
  linarith

/-- **Which caps refuse an amount**: a blank one refuses any, as minus infinity does, and one
that spells no number refuses none, as infinity does. -/
theorem exceedsCap_iff {n : ℤ} (hn : 0 < n) (hspent : 0 ≤ spentToday) :
    exceedsCap (ofString capRaw) (ofRat spentToday) (sweepUsdc n) = true ↔
      Refuses (literal capRaw) spentToday n := by
  rw [exceedsCap, ofString]
  cases literal capRaw with
  | none => simp [Refuses, JsNumber.nan_lt]
  | some l =>
    cases l with
    | numeral c => exact Iff.rfl
    | blank =>
      refine iff_of_true ?_ trivial
      obtain ⟨v, hv, hread, herror⟩ := JsNumber.ofRat_eq_finite (.inl rfl) (by norm_num)
      have hv' : v ≤ 0 := by
        have hle := (abs_le.mp herror).2
        simpa using hle
      show (ofRat 0).lt _ = true
      rw [hread]
      refine (spent_add_atLeast hn hspent).lt ?_
      norm_num
      linarith
    | infinity negative =>
      cases negative with
      | true => exact iff_of_true (spent_add_atLeast hn hspent).infinity_lt trivial
      | false => simp [Refuses, JsNumber.Literal.toNumber, JsNumber.infinity_lt]

/-- A cap of whole stroops refuses whatever exceeds it. -/
theorem le_cap_of_not_exceedsCap {c k : ℕ} {n : ℤ} (hc : c ≤ 10 ^ 15) (hn : 0 < n)
    (h : literal capRaw = some (.numeral ((c : ℚ) / 10000000)))
    (hfits : exceedsCap (ofString capRaw) (ofRat ((k : ℚ) / 10000000)) (sweepUsdc n) = false) :
    (k : ℚ) / 10000000 + n / 10000000 ≤ c / 10000000 := by
  by_contra! hover
  have hle : (c : ℚ) ≤ 1000000000000000 := by exact_mod_cast hc
  have hone : (c : ℚ) + 1 ≤ k + n := by
    have hlt : (c : ℚ) < k + n := by linarith
    have hlt' : (c : ℤ) < k + n := by exact_mod_cast hlt
    exact_mod_cast hlt'
  obtain ⟨v, hv, hread, herror⟩ := ofString_eq_finite hc h
  have hlt : v < ((k : ℚ) / 10000000 + n / 10000000) * (1 - 4 / 2 ^ 53) := by
    have hv' := (abs_le.mp herror).2
    norm_num at hv' ⊢
    linarith
  rw [exceedsCap, hread, (total_atLeast hn k).lt hlt] at hfits
  cases hfits

/-- **Ordinary decimals fail closed**, for every balance: what is wrong with other values of the
variables is not that numbers are rounded. -/
theorem failsClosed_of_decimals {m c : ℚ} (hmin : literal minUsdcRaw = some (.numeral m))
    (hm : Ordinary m) (hcap : literal capRaw = some (.numeral c)) (hc : Ordinary c)
    (hspent : ∃ k : ℕ, spentToday = k / STROOPS_PER_UNIT) :
    FailsClosed minUsdcRaw capRaw balance spentToday := by
  obtain ⟨k, hk, rfl⟩ := hm
  obtain ⟨c, hc, rfl⟩ := hc
  obtain ⟨spent, rfl⟩ := hspent
  rintro floor ⟨hfloor, habove, hfits⟩ hdefect
  obtain rfl : (k : ℤ) = floor := by
    rw [minStroops_of_ordinary hk hmin] at hfloor
    exact Option.some.inj hfloor
  have hunit : (0 : ℚ) < STROOPS_PER_UNIT := by norm_num [STROOPS_PER_UNIT]
  have hpos : 0 < balance - k := Int.sub_pos_of_lt habove
  have hconfigured : AsConfigured minUsdcRaw capRaw balance (spent / STROOPS_PER_UNIT)
      ⟨balance - k, hpos⟩ := by
    refine ⟨_, _, hmin, div_nonneg (Nat.cast_nonneg k) hunit.le, hcap, hpos, ?_,
      le_cap_of_not_exceedsCap hc hpos hcap hfits⟩
    rw [div_mul_cancel₀ _ hunit.ne']
    push_cast
    exact le_rfl
  exact hconfigured.not_defect rfl hdefect

/-- On ordinary decimals the sweep is that of exact arithmetic. -/
theorem exact_of_submitted {m c : ℚ} {amount : Stroops}
    (hmin : literal minUsdcRaw = some (.numeral m)) (hm : Ordinary m)
    (hcap : literal capRaw = some (.numeral c)) (hc : Ordinary c)
    (hspent : ∃ k : ℕ, spentToday = k / STROOPS_PER_UNIT)
    (hbalance : answers.balanceStroops = .ok balance)
    (hstate : answers.spendState = .ok (halted, spentToday))
    (h : sweep print ⟨some minUsdcRaw, some capRaw⟩ answers = .submitted amount) :
    sweepStroops (some balance) (some m) = some amount ∧
      checkSpend printer c none spentToday amount.usdc "sweep" (some TREASURY_CONTRACT_ID) =
        .ok () := by
  obtain ⟨floor, hfloor, hamount, hfits⟩ := floor_of_submitted hbalance hstate h
  obtain ⟨k, hk, rfl⟩ := hm
  obtain ⟨c, hc, rfl⟩ := hc
  obtain ⟨spent, rfl⟩ := hspent
  obtain rfl : (k : ℤ) = floor := by
    rw [minStroops_of_ordinary hk hmin] at hfloor
    exact Option.some.inj hfloor
  constructor
  · obtain ⟨val, hpos⟩ := amount
    obtain rfl : val = balance - k := hamount
    have hround : ⌊(k : ℚ) / STROOPS_PER_UNIT * STROOPS_PER_UNIT + 1 / 2⌋ = k := by
      rw [div_mul_cancel₀ _ (by norm_num [STROOPS_PER_UNIT]), Int.floor_eq_iff]
      push_cast
      constructor <;> linarith
    simp only [sweepStroops, Option.bind_some, hround]
    exact dif_pos hpos
  · exact checkSpend_eq_ok_iff.mpr ⟨rfl, le_cap_of_not_exceedsCap hc amount.pos hcap hfits⟩

/-! ## What the environment lets through -/

/-- A blank minimum is no stroops. -/
theorem minStroops_of_blank (h : literal minUsdcRaw = some .blank) :
    minStroops (ofString minUsdcRaw) = some 0 := by
  have hzero : literal minUsdcRaw = some .blank → ofString minUsdcRaw = ofRat 0 := by
    intro h
    rw [ofString, h]
    rfl
  rw [hzero h]
  decide +kernel

/-- A sweep passes when something is above the minimum and the cap does not refuse it. -/
theorem passes_iff (hspent : 0 ≤ spentToday) :
    Passes minUsdcRaw capRaw balance spentToday floor ↔
      minStroops (ofString minUsdcRaw) = some floor ∧ floor < balance ∧
        ¬Refuses (literal capRaw) spentToday (balance - floor) := by
  constructor
  · rintro ⟨hfloor, habove, hfits⟩
    refine ⟨hfloor, habove, fun hrefuses => ?_⟩
    have hexceeds := (exceedsCap_iff (Int.sub_pos_of_lt habove) hspent).mpr hrefuses
    exact absurd (hexceeds.symm.trans hfits) (by decide)
  · rintro ⟨hfloor, habove, hrefuses⟩
    refine ⟨hfloor, habove, ?_⟩
    rw [← Bool.not_eq_true, exceedsCap_iff (Int.sub_pos_of_lt habove) hspent]
    exact hrefuses

/-- No sweep gets past a minimum that is read as no number of stroops. -/
theorem failsClosed_of_no_minimum (h : minStroops (ofString minUsdcRaw) = none) :
    FailsClosed minUsdcRaw capRaw balance spentToday := by
  intro floor hpasses
  cases h.symm.trans hpasses.minimum

theorem failsClosed_iff_of_blank (hspent : 0 ≤ spentToday)
    (hmin : literal minUsdcRaw = some .blank) :
    FailsClosed minUsdcRaw capRaw balance spentToday ↔
      balance ≤ 0 ∨ Refuses (literal capRaw) spentToday balance := by
  have hzero := minStroops_of_blank hmin
  constructor
  · intro hclosed
    by_contra! hopen
    refine hclosed 0 ((passes_iff hspent).mpr ⟨hzero, hopen.1, ?_⟩) (.minBlank hmin)
    rw [sub_zero]
    exact hopen.2
  · intro hholds floor hpasses _
    obtain ⟨hfloor, habove, hnot⟩ := (passes_iff hspent).mp hpasses
    cases hzero.symm.trans hfloor
    rw [sub_zero] at hnot
    obtain hbelow | hrefuses := hholds
    · exact absurd habove (not_lt.mpr hbelow)
    · exact hnot hrefuses

theorem failsClosed_iff_of_numeral (hspent : 0 ≤ spentToday) {m : ℚ}
    (hmin : literal minUsdcRaw = some (.numeral m)) :
    FailsClosed minUsdcRaw capRaw balance spentToday ↔
      Holds (some (.numeral m)) (literal capRaw) balance spentToday := by
  have hread : minStroops (ofString minUsdcRaw) =
      ((ofRat m).mul STROOPS_PER_UNIT).mathRound.toBigInt := by
    rw [minStroops, ofString, hmin]
    rfl
  constructor
  · intro hclosed
    refine .inr fun floor hfloor => ?_
    by_contra! hopen
    obtain ⟨habove, hrefuses, hwrong⟩ := hopen
    -- this sweep passes, so it has no defect
    have hpasses := (passes_iff hspent).mpr ⟨hread.trans hfloor, habove, hrefuses⟩
    obtain ⟨hnonneg, hkept, c, hcap, hfits⟩ := (not_defect_iff hmin).mp (hclosed floor hpasses)
    exact absurd hfits (not_le.mpr (hwrong hnonneg hkept c hcap))
  · rintro (⟨hm, ⟨c, hcap, hc⟩, htotal⟩ | hholds)
    · exact failsClosed_of_decimals hmin hm hcap hc htotal
    · intro floor hpasses
      obtain ⟨hfloor, habove, hnot⟩ := (passes_iff hspent).mp hpasses
      obtain hbelow | hrefuses | hright := hholds floor (hread.symm.trans hfloor)
      · exact absurd habove (not_lt.mpr hbelow)
      · exact absurd hrefuses hnot
      · exact (not_defect_iff hmin).mpr hright

theorem failsClosed_iff_holds (hspent : 0 ≤ spentToday) :
    FailsClosed minUsdcRaw capRaw balance spentToday ↔
      Holds (literal minUsdcRaw) (literal capRaw) balance spentToday := by
  cases hmin : literal minUsdcRaw with
  | none =>
    -- `BigInt` of `NaN` throws
    have hread : minStroops (ofString minUsdcRaw) = none := by
      rw [ofString, hmin]
      rfl
    exact iff_of_true (failsClosed_of_no_minimum hread) trivial
  | some l =>
    cases l with
    | infinity negative =>
      have hread : minStroops (ofString minUsdcRaw) = none := by
        rw [ofString, hmin]
        rfl
      exact iff_of_true (failsClosed_of_no_minimum hread) trivial
    | blank => exact failsClosed_iff_of_blank hspent hmin
    | numeral m => exact failsClosed_iff_of_numeral hspent hmin

/-- **What the environment lets through.** For every two strings, every balance and every total
of the day, the transfers that are submitted are as configured exactly when `Holds` says so of
what the strings spell. For ordinary decimals, the transfers are those of exact arithmetic. -/
theorem sweep_asConfigured_iff (print : JsNumber → String) (minUsdcRaw capRaw : String)
    (balance : ℤ) (spentToday : ℚ≥0) :
    ((∀ answers halted amount, answers.balanceStroops = .ok balance →
        answers.spendState = .ok (halted, spentToday) →
        sweep print ⟨some minUsdcRaw, some capRaw⟩ answers = .submitted amount →
        AsConfigured minUsdcRaw capRaw balance spentToday amount) ↔
      Holds (literal minUsdcRaw) (literal capRaw) balance spentToday) ∧
    ∀ (printer : Printer) (m c : ℚ) (k : ℕ) answers halted amount,
      literal minUsdcRaw = some (.numeral m) → Ordinary m →
      literal capRaw = some (.numeral c) → Ordinary c → (spentToday : ℚ) = k / STROOPS_PER_UNIT →
      answers.balanceStroops = .ok balance → answers.spendState = .ok (halted, spentToday) →
      sweep print ⟨some minUsdcRaw, some capRaw⟩ answers = .submitted amount →
      sweepStroops (some balance) (some m) = some amount ∧
        checkSpend printer c none spentToday amount.usdc "sweep" (some TREASURY_CONTRACT_ID) =
          .ok () := by
  constructor
  · rw [forall_asConfigured_iff]
    exact failsClosed_iff_holds spentToday.cast_nonneg
  · intro printer m c k answers halted amount hmin hm hcap hc htotal hbalance hstate h
    exact exact_of_submitted hmin hm hcap hc ⟨k, htotal⟩ hbalance hstate h

/-- Thirty dollars are there, and five have been spent today. -/
def openAnswers : Answers :=
  ⟨.ok true, .ok (), .ok 300000000, .ok (none, 5), .ok (), .ok ()⟩

theorem sweep_not_asConfigured :
    ∃ amount, sweep (fun _ => "") ⟨some "10", some "abc"⟩ openAnswers = .submitted amount ∧
      amount.val = 200000000 ∧ ¬AsConfigured "10" "abc" 300000000 5 amount := by
  have hcap : literal "abc" = none := by decide +kernel
  refine ⟨⟨200000000, by norm_num⟩, by decide +kernel, rfl, ?_⟩
  rintro ⟨m, c, -, -, h, -⟩
  rw [hcap] at h
  cases h

end KonfirmBackend.Facilitator
