import Mathlib.Data.Rat.Cast.Order
import Mathlib.Tactic.NormNum

/-!
# Decimal numerals

Reading unsigned decimal numerals, digit by digit and by structural recursion.

## Main definitions

- `Numeral.readNat` — a non-empty string of ASCII digits
- `Numeral.readDecimal` — digits, optionally followed by a point and more digits

## Main results

- `Numeral.readNat_toString` — a printed number is read as itself
- `Numeral.readDecimal_fixed` — so is one that is printed with a fixed number of decimals
-/

namespace Numeral

/-- The value of an ASCII digit. -/
def digit (c : Char) : Option ℕ :=
  if '0' ≤ c ∧ c ≤ '9' then some (c.toNat - '0'.toNat) else none

/-- The value of the digits read so far, `acc`, continued with `cs`. -/
def readFrom (acc : ℕ) : List Char → Option ℕ
  | [] => some acc
  | c :: cs => (digit c).bind fun d => readFrom (10 * acc + d) cs

def readNat : List Char → Option ℕ
  | [] => none
  | c :: cs => readFrom 0 (c :: cs)

/-- The part before the first point, and the part after it if there is one. -/
def splitPoint : List Char → List Char × Option (List Char)
  | [] => ([], none)
  | c :: cs =>
    if c = '.' then ([], some cs)
    else ((c :: (splitPoint cs).1), (splitPoint cs).2)

def readDecimal (cs : List Char) : Option ℚ :=
  match splitPoint cs with
  | (whole, none) => (readNat whole).map fun n : ℕ => (n : ℚ)
  | (whole, some frac) =>
    (readNat whole).bind fun n : ℕ =>
      (readNat frac).map fun f : ℕ => (n : ℚ) + f / 10 ^ frac.length

/-! ## Printed numerals -/

theorem digit_of_isDigit {c : Char} (h : c.isDigit) : digit c = some (c.toNat - '0'.toNat) :=
  if_pos (Char.isDigit_iff_toNat.mp h)

theorem readFrom_of_isDigit {cs : List Char} (h : ∀ c ∈ cs, c.isDigit) (acc : ℕ) :
    readFrom acc cs = some (Nat.ofDigitChars 10 cs acc) := by
  induction cs generalizing acc with
  | nil => rw [readFrom, Nat.ofDigitChars_nil]
  | cons c cs ih =>
    rw [readFrom, digit_of_isDigit (h c List.mem_cons_self), Option.bind_some,
      ih (fun d hd => h d (List.mem_cons_of_mem _ hd)), Nat.ofDigitChars_cons]

theorem readNat_of_isDigit {cs : List Char} (hne : cs ≠ []) (h : ∀ c ∈ cs, c.isDigit) :
    readNat cs = some (Nat.ofDigitChars 10 cs 0) := by
  cases cs with
  | nil => exact absurd rfl hne
  | cons c cs => exact readFrom_of_isDigit h 0

theorem isDigit_of_mem_toString {n : ℕ} {c : Char} (h : c ∈ (toString n).toList) :
    c.isDigit := by
  rw [Nat.toString_eq_repr, Nat.toList_repr] at h
  exact Nat.isDigit_of_mem_toDigits (by norm_num) (by norm_num) h

theorem readNat_toString (n : ℕ) : readNat (toString n).toList = some n := by
  have hne : (toString n).toList ≠ [] := by
    rw [Nat.toString_eq_repr, Nat.toList_repr]
    exact Nat.toDigits_ne_nil
  rw [readNat_of_isDigit hne fun c => isDigit_of_mem_toString, Nat.toString_eq_repr,
    Nat.toList_repr, Nat.ofDigitChars_ten_toDigits]

theorem splitPoint_append {whole : List Char} (h : ∀ c ∈ whole, c ≠ '.') (frac : List Char) :
    splitPoint (whole ++ '.' :: frac) = (whole, some frac) := by
  induction whole with
  | nil => simp [splitPoint]
  | cons c whole ih =>
    rw [List.cons_append, splitPoint, if_neg (h c List.mem_cons_self),
      ih fun d hd => h d (List.mem_cons_of_mem _ hd)]

/-- The decimals of `n / 10 ^ digits`, padded with zeros. -/
def fractionChars (digits n : ℕ) : List Char :=
  List.replicate (digits - (toString (n % 10 ^ digits)).length) '0' ++
    (toString (n % 10 ^ digits)).toList

theorem length_fractionChars {digits : ℕ} (hdigits : 0 < digits) (n : ℕ) :
    (fractionChars digits n).length = digits := by
  have hle : (toString (n % 10 ^ digits)).length ≤ digits :=
    (Nat.length_repr_le_iff hdigits).mpr (Nat.mod_lt _ (by positivity))
  rw [fractionChars, List.length_append, List.length_replicate, String.length_toList]
  omega

theorem readNat_fractionChars {digits : ℕ} (hdigits : 0 < digits) (n : ℕ) :
    readNat (fractionChars digits n) = some (n % 10 ^ digits) := by
  have hall : ∀ c ∈ fractionChars digits n, c.isDigit := by
    intro c hc
    obtain hc | hc := List.mem_append.mp hc
    · rw [List.eq_of_mem_replicate hc]
      rfl
    · exact isDigit_of_mem_toString hc
  have hne : fractionChars digits n ≠ [] := by
    intro hnil
    have hlength := length_fractionChars hdigits n
    rw [hnil] at hlength
    exact hdigits.ne hlength
  rw [readNat_of_isDigit hne hall, fractionChars, Nat.ofDigitChars_append,
    Nat.ofDigitChars_replicate_zero, Nat.mul_zero, Nat.toString_eq_repr, Nat.toList_repr,
    Nat.ofDigitChars_ten_toDigits]

/-- A number that is printed with a fixed number of decimals is read as itself. -/
theorem readDecimal_fixed {digits : ℕ} (hdigits : 0 < digits) (n : ℕ) :
    readDecimal ((toString (n / 10 ^ digits)).toList ++ '.' :: fractionChars digits n) =
      some ((n : ℚ) / 10 ^ digits) := by
  have hpoint : ∀ c ∈ (toString (n / 10 ^ digits)).toList, c ≠ '.' := by
    rintro c hc rfl
    exact absurd (isDigit_of_mem_toString hc) (by decide)
  rw [readDecimal, splitPoint_append hpoint]
  simp only [readNat_toString, readNat_fractionChars hdigits, length_fractionChars hdigits,
    Option.bind_some, Option.map_some, Option.some.injEq]
  have hn : ((n / 10 ^ digits * 10 ^ digits + n % 10 ^ digits : ℕ) : ℚ) = n := by
    rw [Nat.div_add_mod']
  have hpow : (10 : ℚ) ^ digits ≠ 0 := by positivity
  rw [eq_div_iff hpow, add_mul, div_mul_cancel₀ _ hpow, ← hn]
  push_cast
  rfl

end Numeral
