import KonfirmBackend.Lib.Numeral
import KonfirmBackend.Lib.Rounding
import Mathlib.Data.Rat.Floor
import Mathlib.Tactic.FieldSimp
import Mathlib.Tactic.Positivity

/-!
# Decimals and NUMERIC columns

The reconciler computes with `rust_decimal::Decimal` and binds the results to
`NUMERIC(18,7)` columns. The crate is not part of the repository: `RustDecimal`
keeps what its documentation promises and leaves the rest open.

## Main definitions

- `Representable` — the values a `Decimal` can hold
- `RustDecimal` — parsing and arithmetic that rounds what it cannot represent
- `RustDecimal.truncating` — one such arithmetic, that rounds down
- `Numeric` — a `NUMERIC(18,7)` value, a count of 10⁻⁷
- `Amounts` — the three amount columns of a payment
-/

namespace KonfirmBackend.Reconciler

/-- `m / 10^e` with a 96-bit mantissa and at most 28 decimals. -/
def Representable (q : ℚ) : Prop :=
  ∃ e : ℕ, e ≤ 28 ∧ ∃ m : ℤ, |m| < 2 ^ 96 ∧ q = m / 10 ^ e

/-- The result of an operation lies between any two representable values around
the exact one; in particular a representable result is exact. -/
def Faithful (op : ℚ → ℚ → Option ℚ) (exact : ℚ → ℚ → ℚ) (x y : ℚ) : Prop :=
  ∀ lo hi, Representable lo → Representable hi → lo ≤ exact x y → exact x y ≤ hi →
    ∃ r, op x y = some r ∧ lo ≤ r ∧ r ≤ hi

/-- `rust_decimal::Decimal`. `parse` is `Decimal::from_str`; `none` of an
operation is its overflow panic. -/
structure RustDecimal where
  parse : String → Option ℚ
  add : ℚ → ℚ → Option ℚ
  sub : ℚ → ℚ → Option ℚ
  mul : ℚ → ℚ → Option ℚ
  div : ℚ → ℚ → Option ℚ
  parse_plain : ∀ s q, Numeral.readDecimal s.toList = some q → Representable q → parse s = some q
  parse_representable : ∀ s q, parse s = some q → Representable q
  mul_representable : ∀ x y q, mul x y = some q → Representable q
  add_faithful : ∀ x y, Faithful add (· + ·) x y
  sub_faithful : ∀ x y, Faithful sub (· - ·) x y
  mul_faithful : ∀ x y, Faithful mul (· * ·) x y
  div_faithful : ∀ x y, y ≠ 0 → Faithful div (· / ·) x y

theorem Faithful.exact {op : ℚ → ℚ → Option ℚ} {exact : ℚ → ℚ → ℚ} {x y : ℚ}
    (h : Faithful op exact x y) (hr : Representable (exact x y)) :
    op x y = some (exact x y) := by
  obtain ⟨r, hop, hlo, hhi⟩ := h _ _ hr hr le_rfl le_rfl
  rw [hop, le_antisymm hhi hlo]

theorem representable_intCast {n : ℤ} (hn : |n| < 2 ^ 96) : Representable n :=
  ⟨0, by norm_num, n, hn, by simp⟩

theorem representable_zero : Representable 0 := by
  exact_mod_cast representable_intCast (n := 0) (by norm_num)

/-- Below 2⁹⁶ a representable value stays representable when its decimal point
moves to the right. -/
theorem Representable.mul_pow {q : ℚ} (hq : Representable q) (k : ℕ)
    (hlt : |q * 10 ^ k| < 2 ^ 96) : Representable (q * 10 ^ k) := by
  obtain ⟨e, he, m, hm, rfl⟩ := hq
  rcases le_total k e with hke | hke
  · refine ⟨e - k, by omega, m, hm, ?_⟩
    obtain ⟨d, rfl⟩ := Nat.exists_eq_add_of_le hke
    rw [Nat.add_sub_cancel_left, pow_add]
    field_simp
  · obtain ⟨d, rfl⟩ := Nat.exists_eq_add_of_le hke
    have hval : (m : ℚ) / 10 ^ e * 10 ^ (e + d) = ((m * 10 ^ d : ℤ) : ℚ) := by
      rw [pow_add]
      push_cast
      field_simp
    rw [hval] at hlt ⊢
    exact representable_intCast (by exact_mod_cast hlt)

/-- A value of a `NUMERIC(18,7)` column, in units of 10⁻⁷. -/
structure Numeric where
  units : ℤ
  inRange : |units| < 10 ^ 18
deriving DecidableEq

namespace Numeric

/-- Binding a decimal to the column: rounded to 7 places, halves away from zero;
`none` is "numeric field overflow". -/
def ofDecimal (q : ℚ) : Option Numeric :=
  if h : |roundAway (q * 10 ^ 7)| < 10 ^ 18 then some ⟨roundAway (q * 10 ^ 7), h⟩ else none

def toRat (n : Numeric) : ℚ := n.units / 10 ^ 7

theorem ofDecimal_eq_some_iff {q : ℚ} {n : Numeric} :
    ofDecimal q = some n ↔ n.units = roundAway (q * 10 ^ 7) := by
  rw [ofDecimal]
  constructor
  · intro h
    split at h
    · rw [← Option.some.inj h]
    · simp at h
  · intro h
    have hr : |roundAway (q * 10 ^ 7)| < 10 ^ 18 := h ▸ n.inRange
    rw [dif_pos hr]
    congr 1
    cases n
    simp_all

theorem units_of_ofDecimal {q : ℚ} {n : Numeric} (h : ofDecimal q = some n) :
    n.units = roundAway (q * 10 ^ 7) := ofDecimal_eq_some_iff.mp h

theorem isSome_ofDecimal_iff {q : ℚ} :
    (ofDecimal q).isSome ↔ |roundAway (q * 10 ^ 7)| < 10 ^ 18 := by
  rw [ofDecimal]
  split
  · exact iff_of_true rfl ‹_›
  · exact iff_of_false (by simp) ‹_›

/-- What fits the column still fits after it got smaller. -/
theorem isSome_ofDecimal_of_le {q r : ℚ} (h0 : 0 ≤ r) (hle : r ≤ q)
    (h : (ofDecimal q).isSome) : (ofDecimal r).isSome := by
  rw [isSome_ofDecimal_iff] at h ⊢
  have hr : 0 ≤ r * 10 ^ 7 := by positivity
  have hrq : r * 10 ^ 7 ≤ q * 10 ^ 7 := mul_le_mul_of_nonneg_right hle (by norm_num)
  have hmono := roundAway_mono hr hrq
  have hq := roundAway_nonneg (hr.trans hrq)
  rw [abs_of_nonneg (roundAway_nonneg hr)]
  rw [abs_of_nonneg hq] at h
  exact hmono.trans_lt h

end Numeric

/-- A fee rate in basis points. The rates the services write (the column default
10, the trial's 0, half of the current rate) all lie between 0 and 10000. -/
structure FeeBps where
  val : ℕ
  le : val ≤ 10000
deriving DecidableEq

theorem FeeBps.zero_le : 0 ≤ 10000 := Nat.zero_le 10000

theorem FeeBps.ten_le : 10 ≤ 10000 := by decide

/-- The amount columns of a `payments` row. -/
structure Amounts where
  amountUsdc : Numeric
  feeUsdc : Numeric
  netUsdc : Numeric
deriving DecidableEq

/-- `fee = gross * fee_bps / 10_000; net = gross - fee`, in `Decimal` arithmetic. -/
def feeAndNet (D : RustDecimal) (gross : ℚ) (bps : FeeBps) : Option (ℚ × ℚ) :=
  (D.mul gross bps.val).bind fun scaled =>
    (D.div scaled 10000).bind fun fee =>
      (D.sub gross fee).map fun net => (fee, net)

/-- The three columns as Postgres stores them. -/
def storeAmounts (gross fee net : ℚ) : Option Amounts :=
  (Numeric.ofDecimal gross).bind fun a =>
    (Numeric.ofDecimal fee).bind fun f =>
      (Numeric.ofDecimal net).map fun n => ⟨a, f, n⟩

theorem storeAmounts_eq_some {gross fee net : ℚ} {a : Amounts}
    (h : storeAmounts gross fee net = some a) :
    Numeric.ofDecimal gross = some a.amountUsdc ∧ Numeric.ofDecimal fee = some a.feeUsdc ∧
      Numeric.ofDecimal net = some a.netUsdc := by
  obtain ⟨x, hx, h⟩ := Option.bind_eq_some_iff.mp h
  obtain ⟨y, hy, h⟩ := Option.bind_eq_some_iff.mp h
  obtain ⟨z, hz, rfl⟩ := Option.map_eq_some_iff.mp h
  exact ⟨hx, hy, hz⟩

/-- The three operations of the fee computation are exact for this amount and
rate, as they are whenever their results are representable. -/
structure ExactFee (D : RustDecimal) (gross : ℚ) (bps : FeeBps) : Prop where
  scaled : D.mul gross bps.val = some (gross * bps.val)
  fee : D.div (gross * bps.val) 10000 = some (gross * bps.val / 10000)
  net : D.sub gross (gross * bps.val / 10000) = some (gross - gross * bps.val / 10000)

theorem ExactFee.of_representable {D : RustDecimal} {gross : ℚ} {bps : FeeBps}
    (hs : Representable (gross * bps.val)) (hf : Representable (gross * bps.val / 10000))
    (hn : Representable (gross - gross * bps.val / 10000)) : ExactFee D gross bps :=
  ⟨(D.mul_faithful _ _).exact hs, (D.div_faithful _ _ (by norm_num)).exact hf,
    (D.sub_faithful _ _).exact hn⟩

theorem ExactFee.feeAndNet {D : RustDecimal} {gross : ℚ} {bps : FeeBps}
    (h : ExactFee D gross bps) : feeAndNet D gross bps =
      some (gross * bps.val / 10000, gross - gross * bps.val / 10000) := by
  simp only [Reconciler.feeAndNet, h.scaled, h.fee, h.net, Option.bind_some, Option.map_some]

/-- The exact fee lies between nothing and the whole amount. -/
theorem exactFee_mem {gross : ℚ} (hg : 0 ≤ gross) (bps : FeeBps) :
    0 ≤ gross * bps.val / 10000 ∧ gross * bps.val / 10000 ≤ gross := by
  have hb : (bps.val : ℚ) ≤ 10000 := by exact_mod_cast bps.le
  constructor
  · positivity
  · rw [div_le_iff₀ (by norm_num)]
    exact mul_le_mul_of_nonneg_left hb hg

/-- However its operations round, the computed fee and net lie between nothing
and the whole amount. -/
theorem feeAndNet_mem (D : RustDecimal) {gross : ℚ} (h0 : 0 ≤ gross) (hr : Representable gross)
    (hlt : gross < 10 ^ 11) (bps : FeeBps) :
    ∃ fee net, feeAndNet D gross bps = some (fee, net) ∧
      (0 ≤ fee ∧ fee ≤ gross) ∧ 0 ≤ net ∧ net ≤ gross := by
  have hb : (bps.val : ℚ) ≤ 10000 := by exact_mod_cast bps.le
  have hwide : Representable (gross * 10 ^ 4) := by
    apply hr.mul_pow 4
    rw [abs_of_nonneg (by positivity)]
    linarith
  obtain ⟨scaled, hscaled, hs0, hsg⟩ := D.mul_faithful gross bps.val _ _ representable_zero hwide
    (by positivity) (mul_le_mul_of_nonneg_left (by linarith) h0)
  obtain ⟨fee, hfee, hf0, hfg⟩ := D.div_faithful scaled 10000 (by norm_num) _ _
    representable_zero hr (by positivity) (by rw [div_le_iff₀ (by norm_num)]; linarith)
  obtain ⟨net, hnet, hn0, hng⟩ := D.sub_faithful gross fee _ _ representable_zero hr
    (by linarith) (by linarith)
  refine ⟨fee, net, ?_, ⟨hf0, hfg⟩, hn0, hng⟩
  simp only [Reconciler.feeAndNet, hscaled, hfee, hnet, Option.bind_some, Option.map_some]

theorem Numeric.lt_of_isSome_ofDecimal {q : ℚ} (h0 : 0 ≤ q) (h : (ofDecimal q).isSome) :
    q < 10 ^ 11 := by
  rw [isSome_ofDecimal_iff] at h
  have hq : 0 ≤ q * 10 ^ 7 := by positivity
  rw [abs_of_nonneg (roundAway_nonneg hq)] at h
  by_contra hge
  have hbig : (((10 : ℤ) ^ 18 : ℤ) : ℚ) ≤ q * 10 ^ 7 := by
    calc (((10 : ℤ) ^ 18 : ℤ) : ℚ) = 10 ^ 11 * 10 ^ 7 := by norm_num
      _ ≤ q * 10 ^ 7 := mul_le_mul_of_nonneg_right (not_lt.mp hge) (by norm_num)
  have hmono := roundAway_mono (by norm_num) hbig
  rw [roundAway_intCast] at hmono
  exact absurd h (not_lt.mpr hmono)

/-- A non-negative decimal that fits the column. -/
structure Storable (q : ℚ) : Prop where
  nonneg : 0 ≤ q
  representable : Representable q
  fits : (Numeric.ofDecimal q).isSome

theorem storable_one : Storable 1 :=
  ⟨by norm_num, by exact_mod_cast representable_intCast (n := 1) (by norm_num), by decide +kernel⟩

/-- An amount that fits its column is stored with a fee and a net that fit theirs. -/
theorem Storable.exists_amounts (D : RustDecimal) {gross : ℚ} (h : Storable gross)
    (bps : FeeBps) :
    ∃ fee net a, feeAndNet D gross bps = some (fee, net) ∧ storeAmounts gross fee net = some a := by
  obtain ⟨fee, net, hfn, ⟨hf0, hfg⟩, hn0, hng⟩ :=
    feeAndNet_mem D h.nonneg h.representable (Numeric.lt_of_isSome_ofDecimal h.nonneg h.fits) bps
  obtain ⟨a, ha⟩ := Option.isSome_iff_exists.mp h.fits
  obtain ⟨f, hf⟩ := Option.isSome_iff_exists.mp (Numeric.isSome_ofDecimal_of_le hf0 hfg h.fits)
  obtain ⟨n, hn⟩ := Option.isSome_iff_exists.mp (Numeric.isSome_ofDecimal_of_le hn0 hng h.fits)
  exact ⟨fee, net, ⟨a, f, n⟩, hfn, by rw [storeAmounts, ha, hf, hn]; rfl⟩

/-- What is closer to zero fits as well. -/
theorem Numeric.isSome_ofDecimal_of_abs_le {q r : ℚ} (hle : |r| ≤ |q|)
    (h : (ofDecimal q).isSome) : (ofDecimal r).isSome := by
  rw [isSome_ofDecimal_iff, abs_roundAway] at h ⊢
  refine (roundAway_mono (abs_nonneg _) ?_).trans_lt h
  rw [abs_mul, abs_mul]
  exact mul_le_mul_of_nonneg_right hle (abs_nonneg _)

theorem Numeric.abs_lt_of_isSome_ofDecimal {q : ℚ} (h : (ofDecimal q).isSome) : |q| < 10 ^ 11 := by
  have habs : (ofDecimal |q|).isSome := isSome_ofDecimal_of_abs_le (by rw [abs_abs]) h
  exact lt_of_isSome_ofDecimal (abs_nonneg q) habs

/-- The same for an amount below zero. -/
theorem feeAndNet_mem_of_nonpos (D : RustDecimal) {gross : ℚ} (h0 : gross ≤ 0)
    (hr : Representable gross) (hlt : |gross| < 10 ^ 11) (bps : FeeBps) :
    ∃ fee net, feeAndNet D gross bps = some (fee, net) ∧
      (gross ≤ fee ∧ fee ≤ 0) ∧ gross ≤ net ∧ net ≤ 0 := by
  have hb : (bps.val : ℚ) ≤ 10000 := by exact_mod_cast bps.le
  have hb0 : (0 : ℚ) ≤ bps.val := Nat.cast_nonneg _
  have hwide : Representable (gross * 10 ^ 4) := by
    apply hr.mul_pow 4
    rw [abs_mul, abs_of_nonneg (by norm_num : (0 : ℚ) ≤ 10 ^ 4)]
    linarith
  obtain ⟨scaled, hscaled, hsg, hs0⟩ := D.mul_faithful gross bps.val _ _ hwide representable_zero
    (mul_le_mul_of_nonpos_left (by linarith) h0) (mul_nonpos_of_nonpos_of_nonneg h0 hb0)
  obtain ⟨fee, hfee, hfg, hf0⟩ := D.div_faithful scaled 10000 (by norm_num) _ _ hr
    representable_zero (by rw [le_div_iff₀ (by norm_num)]; linarith)
    (div_nonpos_of_nonpos_of_nonneg hs0 (by norm_num))
  obtain ⟨net, hnet, hng, hn0⟩ := D.sub_faithful gross fee _ _ hr representable_zero
    (by linarith) (by linarith)
  refine ⟨fee, net, ?_, ⟨hfg, hf0⟩, hng, hn0⟩
  simp only [Reconciler.feeAndNet, hscaled, hfee, hnet, Option.bind_some, Option.map_some]

/-- A decimal that fits its column is stored at every rate. -/
theorem exists_amounts_of_fits (D : RustDecimal) {gross : ℚ} (hr : Representable gross)
    (hfits : (Numeric.ofDecimal gross).isSome) (bps : FeeBps) :
    ∃ fee net a, feeAndNet D gross bps = some (fee, net) ∧ storeAmounts gross fee net = some a := by
  rcases le_total 0 gross with h0 | h0
  · exact Storable.exists_amounts D ⟨h0, hr, hfits⟩ bps
  · obtain ⟨fee, net, hfn, ⟨hfg, hf0⟩, hng, hn0⟩ :=
      feeAndNet_mem_of_nonpos D h0 hr (Numeric.abs_lt_of_isSome_ofDecimal hfits) bps
    have hfee : |fee| ≤ |gross| := by rwa [abs_of_nonpos hf0, abs_of_nonpos h0, neg_le_neg_iff]
    have hnet : |net| ≤ |gross| := by rwa [abs_of_nonpos hn0, abs_of_nonpos h0, neg_le_neg_iff]
    obtain ⟨a, ha⟩ := Option.isSome_iff_exists.mp hfits
    obtain ⟨f, hf⟩ := Option.isSome_iff_exists.mp (Numeric.isSome_ofDecimal_of_abs_le hfee hfits)
    obtain ⟨n, hn⟩ := Option.isSome_iff_exists.mp (Numeric.isSome_ofDecimal_of_abs_le hnet hfits)
    exact ⟨fee, net, ⟨a, f, n⟩, hfn, by rw [storeAmounts, ha, hf, hn]; rfl⟩

/-! ## A decimal type that rounds down -/

/-- The mantissa of the largest decimal with `e` places that is at most `x`. -/
def mantissa (x : ℚ) (e : ℕ) : ℤ := min ⌊x * 10 ^ e⌋ (2 ^ 96 - 1)

/-- The largest decimal that is at most `x`, if there is one. -/
def truncate (x : ℚ) : Option ℚ :=
  (((List.range 29).filter fun e => decide (-(2 ^ 96) < mantissa x e)).map
    fun e => (mantissa x e : ℚ) / 10 ^ e).max?

theorem representable_of_truncate {x r : ℚ} (h : truncate x = some r) : Representable r ∧ r ≤ x := by
  have hmem := List.max?_mem h
  obtain ⟨e, he, rfl⟩ := List.mem_map.mp hmem
  rw [List.mem_filter, List.mem_range, decide_eq_true_eq] at he
  have hpow : (0 : ℚ) < 10 ^ e := by positivity
  constructor
  · refine ⟨e, by omega, mantissa x e, ?_, rfl⟩
    rw [abs_lt]
    exact ⟨he.2, (min_le_right _ _).trans_lt (by norm_num)⟩
  · rw [div_le_iff₀ hpow]
    calc (mantissa x e : ℚ) ≤ (⌊x * 10 ^ e⌋ : ℚ) := Int.cast_le.mpr (min_le_left _ _)
      _ ≤ x * 10 ^ e := Int.floor_le _

theorem le_truncate {x lo : ℚ} (hlo : Representable lo) (hle : lo ≤ x) :
    ∃ r, truncate x = some r ∧ lo ≤ r := by
  obtain ⟨e, he, m, hm, rfl⟩ := hlo
  have hpow : (0 : ℚ) < 10 ^ e := by positivity
  rw [abs_lt] at hm
  have hfloor : m ≤ ⌊x * 10 ^ e⌋ := Int.le_floor.mpr ((div_le_iff₀ hpow).mp hle)
  have hmant : m ≤ mantissa x e := le_min hfloor (by omega)
  have hmem : (mantissa x e : ℚ) / 10 ^ e ∈ ((List.range 29).filter
      fun e => decide (-(2 ^ 96) < mantissa x e)).map fun e => (mantissa x e : ℚ) / 10 ^ e := by
    refine List.mem_map.mpr ⟨e, List.mem_filter.mpr ⟨List.mem_range.mpr (by omega), ?_⟩, rfl⟩
    exact decide_eq_true (hm.1.trans_le hmant)
  obtain ⟨r, hr⟩ := Option.isSome_iff_exists.mp (List.isSome_max?_of_mem hmem)
  refine ⟨r, hr, ?_⟩
  calc (m : ℚ) / 10 ^ e ≤ (mantissa x e : ℚ) / 10 ^ e := by
        apply div_le_div_of_nonneg_right _ hpow.le
        exact_mod_cast hmant
    _ ≤ r := (List.max?_le_iff hr).mp le_rfl _ hmem

theorem truncate_of_representable {x : ℚ} (hx : Representable x) : truncate x = some x := by
  obtain ⟨r, hr, hle⟩ := le_truncate hx le_rfl
  rw [hr, le_antisymm (representable_of_truncate hr).2 hle]

theorem truncate_faithful (exact : ℚ → ℚ → ℚ) (x y : ℚ) :
    Faithful (fun x y => truncate (exact x y)) exact x y := by
  intro lo hi hlo _ hle hhi
  obtain ⟨r, hr, hlr⟩ := le_truncate hlo hle
  exact ⟨r, hr, hlr, (representable_of_truncate hr).2.trans hhi⟩

/-- Arithmetic that rounds down. -/
def RustDecimal.truncating : RustDecimal where
  parse s := (Numeral.readDecimal s.toList).bind truncate
  add x y := truncate (x + y)
  sub x y := truncate (x - y)
  mul x y := truncate (x * y)
  div x y := truncate (x / y)
  parse_plain s q h hq := by rw [h, Option.bind_some, truncate_of_representable hq]
  parse_representable s q h := by
    obtain ⟨x, -, hx⟩ := Option.bind_eq_some_iff.mp h
    exact (representable_of_truncate hx).1
  mul_representable x y q h := (representable_of_truncate h).1
  add_faithful := truncate_faithful (· + ·)
  sub_faithful := truncate_faithful (· - ·)
  mul_faithful := truncate_faithful (· * ·)
  div_faithful x y _ := truncate_faithful (· / ·) x y

end KonfirmBackend.Reconciler
