import KonfirmBackend.Lib.Binary64
import KonfirmBackend.Lib.Numeral

/-!
# JavaScript numbers

The Number type of ECMAScript without the sign of zero, the operations on it that round once,
its order, in which nothing is less than `NaN` nor `NaN` less than anything, and the
conversions between numbers, strings and big integers.

## Main definitions

- `JsNumber` — `NaN`, the infinities and the finite values of binary64
- `JsNumber.add`, `mul`, `div`, `lt`, `mathRound`, `toBigInt` — arithmetic
- `JsNumber.literal` — what a string spells, if it spells a number
- `JsNumber.ofString` — `Number(string)`
- `JsNumber.AtLeast` — a lower bound, which an infinity has as well
- `JsNumber.Near` — a number that is off by a bounded error
- `JsNumber.toFixed` — `x.toFixed(digits)`

## Main results

- `JsNumber.toBigInt_mathRound` — rounding a finite number gives an integer
- `JsNumber.ofRat_eq_finite` — how far rounding moves a number
- `JsNumber.AtLeast.add`, `div`, `lt` — lower bounds through arithmetic
- `JsNumber.Near.add`, `div` — errors through arithmetic
- `JsNumber.Near.toFixed` — what is printed of a number with an error
- `JsNumber.literal_of_readDecimal` — the plain decimals spell what they spell elsewhere
-/

inductive JsNumber
  | nan
  | infinity (negative : Bool)
  | finite (value : ℚ) (representable : Binary64.Representable value)

namespace JsNumber

open Binary64

/-! ## Arithmetic -/

/-- The number nearest to an exact result. -/
def ofRat (q : ℚ) : JsNumber :=
  if h : |fl q| < 2 ^ (1024 : ℤ) then .finite (fl q) (representable_fl h) else .infinity (q < 0)

def add : JsNumber → JsNumber → JsNumber
  | .nan, _ | _, .nan => .nan
  | .infinity negative, .infinity negative' =>
    if negative = negative' then .infinity negative else .nan
  | .infinity negative, .finite _ _ => .infinity negative
  | .finite _ _, .infinity negative => .infinity negative
  | .finite v _, .finite w _ => ofRat (v + w)

/-- `x * k`, for a positive number `k`. -/
def mul (x : JsNumber) (k : ℚ) : JsNumber :=
  match x with
  | .nan => .nan
  | .infinity negative => .infinity negative
  | .finite v _ => ofRat (v * k)

/-- `x / k`, for a positive number `k`. -/
def div (x : JsNumber) (k : ℚ) : JsNumber :=
  match x with
  | .nan => .nan
  | .infinity negative => .infinity negative
  | .finite v _ => ofRat (v / k)

/-- `x < y`. -/
def lt : JsNumber → JsNumber → Bool
  | .nan, _ | _, .nan => false
  | .infinity true, .infinity true => false
  | .infinity true, _ => true
  | .infinity false, _ => false
  | .finite _ _, .infinity negative => !negative
  | .finite v _, .finite w _ => v < w

/-- `Math.round`: the nearest integer, halves up. -/
def mathRound : JsNumber → JsNumber
  | .nan => .nan
  | .infinity negative => .infinity negative
  | .finite v hv => .finite ⌊v + 1 / 2⌋ hv.floor_add_half

/-- `BigInt(x)`, which throws a `RangeError` unless `x` is an integer. -/
def toBigInt : JsNumber → Option ℤ
  | .finite v _ => if v.den = 1 then some v.num else none
  | .nan | .infinity _ => none

/-- `Number(n)` of a big integer. -/
def ofBigInt (n : ℤ) : JsNumber := ofRat n

/-! ## Strings -/

/-- White space and line terminators. -/
def isWhiteSpace (c : Char) : Bool :=
  [0x9, 0xA, 0xB, 0xC, 0xD, 0x20, 0xA0, 0x1680, 0x2000, 0x2001, 0x2002, 0x2003, 0x2004, 0x2005,
    0x2006, 0x2007, 0x2008, 0x2009, 0x200A, 0x2028, 0x2029, 0x202F, 0x205F, 0x3000, 0xFEFF].elem
    c.toNat

def trim (cs : List Char) : List Char :=
  ((cs.dropWhile isWhiteSpace).reverse.dropWhile isWhiteSpace).reverse

/-- What a string spells. -/
inductive Literal
  | blank
  | infinity (negative : Bool)
  | numeral (value : ℚ)
deriving DecidableEq

/-- Digits on either side of the point, but not on none. -/
def readMantissa (cs : List Char) : Option ℚ :=
  match Numeral.splitPoint cs with
  | (whole, none) => (Numeral.readNat whole).map fun n : ℕ => (n : ℚ)
  | ([], some []) => none
  | (whole, some frac) =>
    (Numeral.readFrom 0 whole).bind fun n : ℕ =>
      (Numeral.readFrom 0 frac).map fun f : ℕ => (n : ℚ) + f / 10 ^ frac.length

def readExponent : List Char → Option ℤ
  | '+' :: ds => (Numeral.readNat ds).map fun n : ℕ => (n : ℤ)
  | '-' :: ds => (Numeral.readNat ds).map fun n : ℕ => -(n : ℤ)
  | ds => (Numeral.readNat ds).map fun n : ℕ => (n : ℤ)

def isExponentMark (c : Char) : Bool := c == 'e' || c == 'E'

def readUnsigned (cs : List Char) : Option ℚ :=
  match cs.dropWhile (!isExponentMark ·) with
  | [] => readMantissa cs
  | _ :: exponent =>
    (readMantissa (cs.takeWhile (!isExponentMark ·))).bind fun m =>
      (readExponent exponent).map fun e => m * 10 ^ e

/-- A decimal literal after its sign. -/
def readMagnitude (negative : Bool) (cs : List Char) : Option Literal :=
  if cs = "Infinity".toList then some (.infinity negative)
  else (readUnsigned cs).map fun q => .numeral (if negative then -q else q)

def readDecimal : List Char → Option Literal
  | '+' :: cs => readMagnitude false cs
  | '-' :: cs => readMagnitude true cs
  | cs => readMagnitude false cs

/-- The base that the letter after a leading zero stands for. -/
def radix : Char → Option ℕ
  | 'x' | 'X' => some 16
  | 'o' | 'O' => some 8
  | 'b' | 'B' => some 2
  | _ => none

def digitValue (c : Char) : Option ℕ :=
  if '0' ≤ c ∧ c ≤ '9' then some (c.toNat - '0'.toNat)
  else if 'a' ≤ c ∧ c ≤ 'f' then some (c.toNat - 'a'.toNat + 10)
  else if 'A' ≤ c ∧ c ≤ 'F' then some (c.toNat - 'A'.toNat + 10)
  else none

/-- The value of the digits read so far, `acc`, continued with `cs`. -/
def readRadixFrom (base acc : ℕ) : List Char → Option ℕ
  | [] => some acc
  | c :: cs => ((digitValue c).filter (· < base)).bind fun d => readRadixFrom base (base * acc + d) cs

def readRadix (base : ℕ) : List Char → Option ℕ
  | [] => none
  | c :: cs => readRadixFrom base 0 (c :: cs)

def readLiteral : List Char → Option Literal
  | [] => some .blank
  | '0' :: c :: cs =>
    match radix c with
    | some base => (readRadix base cs).map fun n : ℕ => .numeral n
    | none => readDecimal ('0' :: c :: cs)
  | cs => readDecimal cs

/-- What the string spells, but for the white space around it. -/
def literal (s : String) : Option Literal := readLiteral (trim s.toList)

def Literal.toNumber : Literal → JsNumber
  | .blank => ofRat 0
  | .infinity negative => .infinity negative
  | .numeral q => ofRat q

/-- `Number(s)`. -/
def ofString (s : String) : JsNumber :=
  match literal s with
  | some l => l.toNumber
  | none => .nan

example : literal " -12.5e-1\n" = some (.numeral (-5 / 4)) := by decide +kernel
example : literal "0xff" = some (.numeral 255) := by decide +kernel
example : literal "1e" = none := by decide +kernel

/-! ## Comparisons -/

theorem nan_lt (y : JsNumber) : lt .nan y = false := by
  simp [lt]

/-- Nothing is greater than infinity. -/
theorem infinity_lt (y : JsNumber) : lt (.infinity false) y = false := by
  cases y <;> simp [lt]

/-! ## Rounding -/

theorem toBigInt_mathRound {v : ℚ} (hv : Representable v) :
    (mathRound (.finite v hv)).toBigInt = some ⌊v + 1 / 2⌋ := by
  simp [mathRound, toBigInt]

/-- Rounding moves a number by a small part of it, and far from the ends of the format it gives
a finite number. -/
theorem ofRat_eq_finite {q : ℚ} (hq : Normal q) (hle : |q| ≤ 2 ^ 64) :
    ∃ v, ∃ hv : Representable v, ofRat q = .finite v hv ∧ |v - q| ≤ |q| / 2 ^ 53 := by
  have herror := abs_fl_sub_le hq
  have hlt : |fl q| < 2 ^ (1024 : ℤ) := by
    have hsum := abs_add_le (fl q - q) q
    rw [sub_add_cancel] at hsum
    have hbound : |fl q| ≤ 2 ^ 65 := by
      norm_num at hle herror ⊢
      linarith
    have hpow : (2 : ℚ) ^ (65 : ℤ) < 2 ^ (1024 : ℤ) := two_zpow_lt_iff.mpr (by norm_num)
    exact lt_of_le_of_lt hbound (by exact_mod_cast hpow)
  exact ⟨fl q, representable_fl hlt, dif_pos hlt, herror⟩

/-! ## Lower bounds -/

/-- The number is `q` or more. -/
def AtLeast (q : ℚ) : JsNumber → Prop
  | .finite v _ => q ≤ v
  | .infinity negative => negative = false
  | .nan => False

theorem AtLeast.mono {p q : ℚ} {x : JsNumber} (hx : AtLeast q x) (h : p ≤ q) : AtLeast p x := by
  cases x with
  | nan => exact hx
  | infinity negative => exact hx
  | finite v hv => exact h.trans hx

theorem atLeast_ofRat {q : ℚ} (hq : Normal q) (hnonneg : 0 ≤ q) :
    AtLeast (q * (1 - 1 / 2 ^ 53)) (ofRat q) := by
  unfold ofRat
  split
  · have herror := (abs_le.mp (abs_fl_sub_le hq)).1
    rw [abs_of_nonneg hnonneg] at herror
    show q * (1 - 1 / 2 ^ 53) ≤ fl q
    linarith
  · show decide (q < 0) = false
    exact decide_eq_false (not_lt.mpr hnonneg)

/-- Rounding does not cross zero. -/
theorem atLeast_zero_ofRat {q : ℚ} (hq : 0 ≤ q) : AtLeast 0 (ofRat q) := by
  unfold ofRat
  split
  · exact fl_nonneg hq
  · exact decide_eq_false (not_lt.mpr hq)

/-- The sum of numbers that are large enough is, but for its own rounding. -/
theorem AtLeast.add {p q : ℚ} {x y : JsNumber} (hx : AtLeast p x) (hy : AtLeast q y)
    (hsum : 2 ^ (-1022 : ℤ) ≤ p + q) : AtLeast ((p + q) * (1 - 1 / 2 ^ 53)) (x.add y) := by
  cases x with
  | nan => exact hx.elim
  | infinity negative =>
    obtain rfl : negative = false := hx
    cases y with
    | nan => exact hy.elim
    | infinity negative =>
      obtain rfl : negative = false := hy
      exact rfl
    | finite w hw => exact rfl
  | finite v hv =>
    cases y with
    | nan => exact hy.elim
    | infinity negative => exact hy
    | finite w hw =>
      have hle : p + q ≤ v + w := add_le_add hx hy
      have hpos : 0 ≤ v + w := ((two_zpow_pos _).le.trans hsum).trans hle
      refine (atLeast_ofRat (normal_of_le hsum hle) hpos).mono ?_
      exact mul_le_mul_of_nonneg_right hle (by norm_num)

theorem AtLeast.div {p k : ℚ} {x : JsNumber} (hx : AtLeast p x) (hk : 0 < k)
    (hquot : 2 ^ (-1022 : ℤ) ≤ p / k) : AtLeast (p / k * (1 - 1 / 2 ^ 53)) (x.div k) := by
  cases x with
  | nan => exact hx.elim
  | infinity negative => exact hx
  | finite v hv =>
    have hle : p / k ≤ v / k := div_le_div_of_nonneg_right hx hk.le
    have hpos : 0 ≤ v / k := ((two_zpow_pos _).le.trans hquot).trans hle
    refine (atLeast_ofRat (normal_of_le hquot hle) hpos).mono ?_
    exact mul_le_mul_of_nonneg_right hle (by norm_num)

theorem AtLeast.lt {q v : ℚ} {hv : Representable v} {x : JsNumber} (hx : AtLeast q x)
    (h : v < q) : lt (.finite v hv) x = true := by
  cases x with
  | nan => exact hx.elim
  | infinity negative =>
    obtain rfl : negative = false := hx
    rfl
  | finite w hw => exact decide_eq_true (lt_of_lt_of_le h hx)

theorem AtLeast.infinity_lt {q : ℚ} {x : JsNumber} (hx : AtLeast q x) :
    JsNumber.lt (.infinity true) x = true := by
  cases x with
  | nan => exact hx.elim
  | infinity negative =>
    obtain rfl : negative = false := hx
    rfl
  | finite v hv => rfl

/-! ## Errors -/

/-- The number is not negative, and within `ε` of `q`. -/
def Near (ε q : ℚ) : JsNumber → Prop
  | .finite v _ => 0 ≤ v ∧ |v - q| ≤ ε
  | .nan | .infinity _ => False

theorem near_ofRat {q : ℚ} {k : ℤ} (hk : -1021 ≤ k) (hk' : k ≤ 1022) (hnonneg : 0 ≤ q)
    (h : q < 2 ^ k) : Near (2 ^ (k - 54)) q (ofRat q) := by
  have herror := abs_fl_sub_le_of_lt hk (by rwa [abs_of_nonneg hnonneg])
  have hfl := fl_nonneg hnonneg
  have hlt : |fl q| < 2 ^ (1024 : ℤ) := by
    have hsmall : (2 : ℚ) ^ (k - 54) ≤ 2 ^ k := two_zpow_le_iff.mpr (by omega)
    have hbig : (2 : ℚ) ^ (k + 1) ≤ 2 ^ (1024 : ℤ) := two_zpow_le_iff.mpr (by omega)
    rw [two_zpow_add, zpow_one] at hbig
    rw [abs_of_nonneg hfl]
    linarith [(abs_le.mp herror).2]
  rw [ofRat, dif_pos hlt]
  exact ⟨hfl, herror⟩

theorem Near.add {p q ε δ : ℚ} {x y : JsNumber} {k : ℤ} (hx : Near ε p x) (hy : Near δ q y)
    (hk : -1021 ≤ k) (hk' : k ≤ 1022) (h : p + q + (ε + δ) < 2 ^ k) :
    Near (ε + δ + 2 ^ (k - 54)) (p + q) (x.add y) := by
  cases x with
  | nan | infinity => exact hx.elim
  | finite v hv =>
    cases y with
    | nan | infinity => exact hy.elim
    | finite w hw =>
      obtain ⟨hv0, hverr⟩ := hx
      obtain ⟨hw0, hwerr⟩ := hy
      obtain ⟨hvlow, hvhigh⟩ := abs_le.mp hverr
      obtain ⟨hwlow, hwhigh⟩ := abs_le.mp hwerr
      have hsum := near_ofRat hk hk' (add_nonneg hv0 hw0) (show v + w < 2 ^ k by linarith)
      show Near _ _ (ofRat (v + w))
      cases hr : ofRat (v + w) with
      | nan | infinity =>
        rw [hr] at hsum
        exact hsum.elim
      | finite u hu =>
        rw [hr] at hsum
        obtain ⟨hu0, huerr⟩ := hsum
        obtain ⟨hulow, huhigh⟩ := abs_le.mp huerr
        refine ⟨hu0, abs_le.mpr ⟨?_, ?_⟩⟩ <;> linarith

theorem Near.div {q ε c : ℚ} {x : JsNumber} {k : ℤ} (hx : Near ε q x) (hc : 0 < c)
    (hk : -1021 ≤ k) (hk' : k ≤ 1022) (h : (q + ε) / c < 2 ^ k) :
    Near (ε / c + 2 ^ (k - 54)) (q / c) (x.div c) := by
  cases x with
  | nan | infinity => exact hx.elim
  | finite v hv =>
    obtain ⟨hv0, hverr⟩ := hx
    obtain ⟨hvlow, hvhigh⟩ := abs_le.mp hverr
    have hscaled : |v / c - q / c| ≤ ε / c := by
      rw [← sub_div, abs_div, abs_of_pos hc]
      exact div_le_div_of_nonneg_right hverr hc.le
    obtain ⟨hlow, hhigh⟩ := abs_le.mp hscaled
    have hsplit : (q + ε) / c = q / c + ε / c := add_div _ _ _
    have hquot := near_ofRat hk hk' (div_nonneg hv0 hc.le) (show v / c < 2 ^ k by linarith)
    show Near _ _ (ofRat (v / c))
    cases hr : ofRat (v / c) with
    | nan | infinity =>
      rw [hr] at hquot
      exact hquot.elim
    | finite u hu =>
      rw [hr] at hquot
      obtain ⟨hu0, huerr⟩ := hquot
      obtain ⟨hulow, huhigh⟩ := abs_le.mp huerr
      refine ⟨hu0, abs_le.mpr ⟨?_, ?_⟩⟩ <;> linarith

/-! ## Fixed notation -/

/-- `n / 10 ^ digits`, with all its decimals. -/
def fixedText (digits n : ℕ) : String :=
  let frac := toString (n % 10 ^ digits)
  toString (n / 10 ^ digits) ++ "." ++ String.ofList (List.replicate (digits - frac.length) '0') ++
    frac

/-- `x.toFixed(digits)`, for some digits: the nearest decimal, of two the greater one. What is
not finite and what is large is printed by `toText`, as `String(x)` is. -/
def toFixed (toText : JsNumber → String) (digits : ℕ) (x : JsNumber) : String :=
  match x with
  | .nan | .infinity _ => toText x
  | .finite v _ =>
    if 10 ^ 21 ≤ |v| then toText x
    else if v < 0 then "-" ++ fixedText digits ⌊-v * 10 ^ digits + 1 / 2⌋.toNat
    else fixedText digits ⌊v * 10 ^ digits + 1 / 2⌋.toNat

/-- What is printed is off by the error and half a unit of the last decimal. -/
theorem Near.toFixed {ε q : ℚ} {x : JsNumber} (hx : Near ε q x) (h : q + ε < 10 ^ 21)
    (toText : JsNumber → String) (digits : ℕ) :
    ∃ n : ℕ, x.toFixed toText digits = fixedText digits n ∧
      |n - q * 10 ^ digits| ≤ 1 / 2 + ε * 10 ^ digits := by
  cases x with
  | nan | infinity => exact hx.elim
  | finite v hv =>
    obtain ⟨hv0, hverr⟩ := hx
    obtain ⟨hvlow, hvhigh⟩ := abs_le.mp hverr
    have hpow : (0 : ℚ) < 10 ^ digits := by positivity
    have hfloor : 0 ≤ ⌊v * 10 ^ digits + 1 / 2⌋ := Int.floor_nonneg.mpr (by positivity)
    refine ⟨⌊v * 10 ^ digits + 1 / 2⌋.toNat, ?_, ?_⟩
    · rw [JsNumber.toFixed, if_neg (by rw [abs_of_nonneg hv0]; linarith), if_neg (not_lt.mpr hv0)]
    · have hcast : ((⌊v * 10 ^ digits + 1 / 2⌋.toNat : ℕ) : ℚ) = ⌊v * 10 ^ digits + 1 / 2⌋ := by
        exact_mod_cast Int.toNat_of_nonneg hfloor
      have hle := Int.floor_le (v * 10 ^ digits + 1 / 2)
      have hlt := Int.lt_floor_add_one (v * 10 ^ digits + 1 / 2)
      have hscaled : |v * 10 ^ digits - q * 10 ^ digits| ≤ ε * 10 ^ digits := by
        rw [← sub_mul, abs_mul, abs_of_pos hpow]
        exact mul_le_mul_of_nonneg_right hverr hpow.le
      obtain ⟨hlow, hhigh⟩ := abs_le.mp hscaled
      rw [hcast, abs_le]
      constructor <;> linarith

/-! ## Plain decimals -/

def digits : List Char := "0123456789".toList

theorem mem_digits {c : Char} {d : ℕ} (h : Numeral.digit c = some d) : c ∈ digits := by
  unfold Numeral.digit at h
  split at h
  · rename_i hrange
    obtain ⟨n, hn, rfl⟩ : ∃ n < 10, c = Char.ofNat (48 + n) := by
      have hlow : 48 ≤ c.toNat := hrange.1
      have hhigh : c.toNat ≤ 57 := hrange.2
      exact ⟨c.toNat - 48, by omega, by rw [Nat.add_sub_cancel' hlow, Char.ofNat_toNat]⟩
    clear hrange h
    revert n
    decide
  · cases h

theorem mem_digits_of_readFrom {cs : List Char} {acc n : ℕ}
    (h : Numeral.readFrom acc cs = some n) : ∀ c ∈ cs, c ∈ digits := by
  induction cs generalizing acc with
  | nil => exact fun c hc => absurd hc List.not_mem_nil
  | cons c cs ih =>
    obtain ⟨d, hd, hrest⟩ := Option.bind_eq_some_iff.mp h
    exact List.forall_mem_cons.mpr ⟨mem_digits hd, ih hrest⟩

theorem exists_cons_of_readNat {cs : List Char} {n : ℕ} (h : Numeral.readNat cs = some n) :
    ∃ c ds, cs = c :: ds ∧ (∀ b ∈ c :: ds, b ∈ digits) ∧ Numeral.readFrom 0 (c :: ds) = some n := by
  cases cs with
  | nil => cases h
  | cons c ds => exact ⟨c, ds, rfl, mem_digits_of_readFrom h, h⟩

theorem eq_of_splitPoint {cs whole : List Char} {frac : Option (List Char)}
    (h : Numeral.splitPoint cs = (whole, frac)) :
    cs = whole ++ (frac.map ('.' :: ·)).getD [] := by
  induction cs generalizing whole with
  | nil =>
    cases h
    rfl
  | cons c cs ih =>
    rw [Numeral.splitPoint] at h
    split at h
    · cases h
      rename_i hc
      rw [hc]
      rfl
    · cases h
      exact congrArg (c :: ·) (ih rfl)

/-- What the plain decimals are made of, and that they spell the same to `readMantissa`. -/
theorem readMantissa_of_readDecimal {cs : List Char} {q : ℚ} (h : Numeral.readDecimal cs = some q) :
    (∃ c ds, cs = c :: ds ∧ c ∈ digits) ∧ (∀ c ∈ cs, c ∈ '.' :: digits) ∧
      readMantissa cs = some q := by
  unfold Numeral.readDecimal at h
  unfold readMantissa
  split at h
  · rename_i whole hsplit
    obtain ⟨n, hn, rfl⟩ := Option.map_eq_some_iff.mp h
    obtain ⟨c, ds, rfl, hdigits, -⟩ := exists_cons_of_readNat hn
    have hcs : cs = c :: ds := by simpa using eq_of_splitPoint hsplit
    rw [hsplit]
    refine ⟨⟨c, ds, hcs, hdigits c List.mem_cons_self⟩, fun b hb => ?_, by simp only [hn]; rfl⟩
    exact List.mem_cons_of_mem _ (hdigits b (hcs ▸ hb))
  · rename_i whole frac hsplit
    obtain ⟨n, hn, h⟩ := Option.bind_eq_some_iff.mp h
    obtain ⟨f, hf, rfl⟩ := Option.map_eq_some_iff.mp h
    obtain ⟨c, ds, rfl, hdigits, hwhole⟩ := exists_cons_of_readNat hn
    obtain ⟨c', ds', heq, hdigits', hfrac⟩ := exists_cons_of_readNat hf
    rw [← heq] at hdigits' hfrac
    have hcs : cs = c :: ds ++ '.' :: frac := eq_of_splitPoint hsplit
    rw [hsplit]
    refine ⟨⟨c, _, hcs, hdigits c List.mem_cons_self⟩, fun b hb => ?_, ?_⟩
    · rw [hcs] at hb
      cases List.mem_append.mp hb with
      | inl hwhole => exact List.mem_cons_of_mem _ (hdigits b hwhole)
      | inr hrest =>
        cases List.mem_cons.mp hrest with
        | inl hpoint => exact hpoint ▸ List.mem_cons_self
        | inr hfrac => exact List.mem_cons_of_mem _ (hdigits' b hfrac)
    · simp only [hwhole, hfrac, Option.bind_some, Option.map_some]

theorem dropWhile_of_forall {p : Char → Bool} {cs : List Char} (h : ∀ c ∈ cs, p c = false) :
    cs.dropWhile p = cs := by
  cases cs with
  | nil => rfl
  | cons c cs => rw [List.dropWhile_cons_of_neg (by simp [h c List.mem_cons_self])]

/-- A plain decimal spells the number that it stands for, to `Number(string)` as well. -/
theorem literal_of_readDecimal {s : String} {q : ℚ} (h : Numeral.readDecimal s.toList = some q) :
    literal s = some (.numeral q) := by
  obtain ⟨⟨c, ds, hcs, hc⟩, hplain, hq⟩ := readMantissa_of_readDecimal h
  have hspace : ∀ b ∈ s.toList, isWhiteSpace b = false := by
    have hnone : ∀ b ∈ '.' :: digits, isWhiteSpace b = false :=
      List.forall_iff_forall_mem.mp (by decide +kernel)
    exact fun b hb => hnone b (hplain b hb)
  have htrim : trim s.toList = s.toList := by
    rw [trim, dropWhile_of_forall hspace, dropWhile_of_forall, List.reverse_reverse]
    exact fun b hb => hspace b (List.mem_reverse.mp hb)
  have hunsigned : readUnsigned s.toList = some q := by
    have hmark : ∀ b ∈ '.' :: digits, isExponentMark b = false :=
      List.forall_iff_forall_mem.mp (by decide +kernel)
    have hall : s.toList.dropWhile (!isExponentMark ·) = [] := by
      rw [← List.append_nil s.toList]
      exact List.dropWhile_append_of_pos fun b hb => by simp [hmark b (hplain b hb)]
    rw [readUnsigned, hall]
    exact hq
  have hmagnitude : readMagnitude false s.toList = some (.numeral q) := by
    have hne : s.toList ≠ "Infinity".toList := by
      rw [hcs]
      intro heq
      cases heq
      revert hc
      decide
    rw [readMagnitude, if_neg hne, hunsigned]
    rfl
  have hdecimal : readDecimal s.toList = some (.numeral q) := by
    have hsign : ∀ b ∈ digits, b ≠ '+' ∧ b ≠ '-' :=
      List.forall_iff_forall_mem.mp (by decide +kernel)
    obtain ⟨hplus, hminus⟩ := hsign c hc
    rw [hcs] at hmagnitude ⊢
    unfold readDecimal
    split
    · simp_all
    · simp_all
    · exact hmagnitude
  rw [literal, htrim]
  have hradix : ∀ b ∈ '.' :: digits, radix b = none :=
    List.forall_iff_forall_mem.mp (by decide +kernel)
  rw [hcs] at hplain hdecimal ⊢
  unfold readLiteral
  split
  · simp_all
  · rename_i b bs heq
    cases heq
    simp only [hradix b (hplain b (by simp))]
    exact hdecimal
  · exact hdecimal

end JsNumber
