import Mathlib.Data.Int.ModEq
import Mathlib.Data.List.Induction
import Mathlib.Tactic.NormNum

/-!
# Fixed-width big-endian words

The bytes of a number, most significant first, cut to a width. Two numbers have the
same word exactly when they agree modulo the range of the width.

## Main definitions

- `BigEndian.toBytes` — the word of a number
- `BigEndian.toNat` — the number of a word
- `BigEndian.toInt` — the number of a word in two's complement
- `BigEndian.fill` — the loop that writes a word into a buffer from its end

## Main results

- `BigEndian.toNat_toBytes` — reading a word back gives the residue
- `BigEndian.toBytes_eq_iff` — when two numbers have the same word
- `BigEndian.toInt_eq_iff` — the one word of a width with a given signed number
- `BigEndian.fill_eq` — the loop leaves the word in front of what it did not reach
-/

namespace BigEndian

/-- The low `width` bytes of `n`. -/
def toBytes : ℕ → ℕ → List UInt8
  | 0, _ => []
  | width + 1, n => toBytes width (n / 256) ++ [UInt8.ofNat (n % 256)]

def toNat (bytes : List UInt8) : ℕ := bytes.foldl (fun acc b => acc * 256 + b.toNat) 0

@[simp] theorem length_toBytes (width n : ℕ) : (toBytes width n).length = width := by
  induction width generalizing n with
  | zero => rfl
  | succ width ih => rw [toBytes, List.length_append, ih, List.length_singleton]

theorem toNat_toBytes (width n : ℕ) : toNat (toBytes width n) = n % 256 ^ width := by
  induction width generalizing n with
  | zero => simp [toBytes, toNat, Nat.mod_one]
  | succ width ih =>
    have hlow : (UInt8.ofNat (n % 256)).toNat = n % 256 :=
      UInt8.toNat_ofNat_of_lt (Nat.mod_lt n (by decide))
    have hhigh : toNat (toBytes width (n / 256)) = n / 256 % 256 ^ width := ih (n / 256)
    rw [toNat] at hhigh ⊢
    rw [toBytes, List.foldl_append, hhigh, List.foldl_cons, List.foldl_nil, hlow, pow_succ',
      Nat.mod_mul, Nat.mul_comm, Nat.add_comm]

/-- A word determines the number modulo the range of the width, and nothing more. -/
theorem toBytes_eq_iff (width m n : ℕ) :
    toBytes width m = toBytes width n ↔ m ≡ n [MOD 256 ^ width] := by
  constructor
  · intro h
    have hread := congrArg toNat h
    rwa [toNat_toBytes, toNat_toBytes] at hread
  · intro h
    induction width generalizing m n with
    | zero => rfl
    | succ width ih =>
      have hsplit : m % 256 ≡ n % 256 [MOD 256] ∧ m / 256 ≡ n / 256 [MOD 256 ^ width] := by
        rw [pow_succ', Nat.ModEq, Nat.mod_mul, Nat.mod_mul] at h
        have hm := Nat.mod_lt m (show 0 < 256 by decide)
        have hn := Nat.mod_lt n (show 0 < 256 by decide)
        simp only [Nat.ModEq, Nat.mod_mod]
        omega
      obtain ⟨hlow, hhigh⟩ := hsplit
      rw [toBytes, toBytes, ih _ _ hhigh]
      rw [Nat.ModEq, Nat.mod_mod, Nat.mod_mod] at hlow
      rw [hlow]

theorem toNat_append_singleton (bytes : List UInt8) (b : UInt8) :
    toNat (bytes ++ [b]) = toNat bytes * 256 + b.toNat := by
  rw [toNat, List.foldl_append, List.foldl_cons, List.foldl_nil, toNat]

theorem toNat_lt (bytes : List UInt8) : toNat bytes < 256 ^ bytes.length := by
  induction bytes using List.reverseRecOn with
  | nil => simp [toNat]
  | append_singleton bytes b ih =>
    have hb : b.toNat < 256 := b.toNat_lt
    rw [toNat_append_singleton, List.length_append, List.length_singleton, pow_succ]
    omega

/-- Writing the number of a word gives the word back. -/
theorem toBytes_toNat (bytes : List UInt8) : toBytes bytes.length (toNat bytes) = bytes := by
  induction bytes using List.reverseRecOn with
  | nil => rfl
  | append_singleton bytes b ih =>
    have hb : b.toNat < 256 := b.toNat_lt
    have hhigh : (toNat bytes * 256 + b.toNat) / 256 = toNat bytes := by omega
    have hlow : (toNat bytes * 256 + b.toNat) % 256 = b.toNat := by omega
    rw [toNat_append_singleton, List.length_append, List.length_singleton, toBytes, hhigh, hlow, ih,
      UInt8.ofNat_toNat]

/-! ## Signed words -/

/-- The number of a word in two's complement. -/
def toInt (bytes : List UInt8) : ℤ := (BitVec.ofNat (8 * bytes.length) (toNat bytes)).toInt

theorem toInt_eq_bmod (bytes : List UInt8) :
    toInt bytes = (toNat bytes : ℤ).bmod (256 ^ bytes.length) := by
  have hrange : 2 ^ (8 * bytes.length) = 256 ^ bytes.length := by
    rw [pow_mul]
    norm_num
  rw [toInt, BitVec.toInt_ofNat', hrange]

/-- The signed number of a word is its number up to the range of the width. -/
theorem toInt_emod (bytes : List UInt8) :
    toInt bytes % (256 ^ bytes.length : ℕ) = toNat bytes := by
  have hlt : (toNat bytes : ℤ) < (256 ^ bytes.length : ℕ) := by exact_mod_cast toNat_lt bytes
  rw [toInt_eq_bmod, Int.bmod_emod, Int.emod_eq_of_lt (Int.natCast_nonneg _) hlt]

/-- Words of one width with the same signed number are the same. -/
theorem eq_of_toInt_eq {bytes bytes' : List UInt8} (hlen : bytes.length = bytes'.length)
    (h : toInt bytes = toInt bytes') : bytes = bytes' := by
  have hnat : toNat bytes = toNat bytes' := by
    have hread := toInt_emod bytes
    rw [h, hlen, toInt_emod] at hread
    exact_mod_cast hread.symm
  rw [← toBytes_toNat bytes, ← toBytes_toNat bytes', hnat, hlen]

/-- A signed number of the width is read back from its word. -/
theorem toInt_toBytes {width n : ℕ} {z : ℤ} (hn : (n : ℤ) ≡ z [ZMOD 256 ^ width])
    (hz : -(256 ^ width) ≤ z * 2 ∧ z * 2 < 256 ^ width) : toInt (toBytes width n) = z := by
  have hmod : ((n % 256 ^ width : ℕ) : ℤ) = z % (256 ^ width : ℕ) := by
    push_cast
    exact hn
  rw [toInt_eq_bmod, length_toBytes, toNat_toBytes, hmod, Int.emod_bmod]
  exact Int.bmod_eq_of_le_mul_two (by exact_mod_cast hz.1) (by exact_mod_cast hz.2)

theorem toInt_eq_iff {width n : ℕ} {z : ℤ} (hn : (n : ℤ) ≡ z [ZMOD 256 ^ width])
    (hz : -(256 ^ width) ≤ z * 2 ∧ z * 2 < 256 ^ width) (word : List UInt8) :
    word = toBytes width n ↔ word.length = width ∧ toInt word = z := by
  constructor
  · rintro rfl
    exact ⟨length_toBytes width n, toInt_toBytes hn hz⟩
  · rintro ⟨hlen, hword⟩
    exact eq_of_toInt_eq (by rw [hlen, length_toBytes]) (by rw [hword, toInt_toBytes hn hz])

/-! ## Writing into a buffer -/

/-- From the place before `i` down to the first: the low byte of `x` is written, and `x`
shifted by it. -/
def fill : ℕ → ℕ → List UInt8 → List UInt8
  | 0, _, buf => buf
  | i + 1, x, buf => fill i (x >>> 8) (buf.set i (UInt8.ofNat (x &&& 0xff)))

theorem fill_eq (i x : ℕ) (buf : List UInt8) (h : i ≤ buf.length) :
    fill i x buf = toBytes i x ++ buf.drop i := by
  induction i generalizing x buf with
  | zero => rfl
  | succ i ih =>
    have hlow : x &&& 0xff = x % 256 := Nat.and_two_pow_sub_one_eq_mod x 8
    have hhigh : x >>> 8 = x / 256 := Nat.shiftRight_eq_div_pow x 8
    -- what the step writes is the first byte after the ones still to come
    have hdrop : (buf.set i (UInt8.ofNat (x % 256))).drop i =
        UInt8.ofNat (x % 256) :: buf.drop (i + 1) := by
      rw [List.drop_eq_getElem_cons (by rw [List.length_set]; omega), List.getElem_set_self,
        List.drop_set_of_lt (Nat.lt_succ_self i)]
    rw [fill, hlow, hhigh, ih _ _ (by rw [List.length_set]; omega), hdrop, toBytes,
      List.append_assoc, List.singleton_append]

end BigEndian
