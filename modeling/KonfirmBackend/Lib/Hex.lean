import KonfirmBackend.Lib.QueryString

/-!
# Hexadecimal texts

Two digits for each byte. Printing is in lower case; reading takes either case and stops at the
first pair that is none of digits.

## Main definitions

- `Hex.encode`, `Hex.decode` — bytes as a text

## Main results

- `Hex.decode_encode` — what is printed is read as it was
- `Hex.length_decode` — a text of digits stands for half as many bytes
-/

namespace Hex

open QueryString (hexValue)

def digit (n : ℕ) : Char := if n < 10 then Char.ofNat (48 + n) else Char.ofNat (87 + n)

def encode (bs : List UInt8) : List Char :=
  bs.flatMap fun b => [digit (b.toNat / 16), digit (b.toNat % 16)]

def decode : List Char → List UInt8
  | c :: d :: cs =>
    match hexValue c, hexValue d with
    | some hi, some lo => UInt8.ofNat (16 * hi + lo) :: decode cs
    | _, _ => []
  | _ => []

theorem hexValue_digit : ∀ n < 16, hexValue (digit n) = some n := by
  decide

theorem decode_encode (bs : List UInt8) : decode (encode bs) = bs := by
  induction bs with
  | nil => rfl
  | cons b bs ih =>
    have hlt : b.toNat < 256 := b.toNat_lt
    have hhi := hexValue_digit (b.toNat / 16) (by omega)
    have hlo := hexValue_digit (b.toNat % 16) (by omega)
    have hbyte : 16 * (b.toNat / 16) + b.toNat % 16 = b.toNat := Nat.div_add_mod _ 16
    rw [encode, List.flatMap_cons]
    show decode (digit (b.toNat / 16) :: digit (b.toNat % 16) :: encode bs) = _
    rw [decode, hhi, hlo]
    simp only [hbyte, UInt8.ofNat_toNat, ih]

theorem length_decode {cs : List Char} (h : ∀ c ∈ cs, (hexValue c).isSome) :
    (decode cs).length = cs.length / 2 := by
  induction cs using decode.induct with
  | case1 c d cs hi lo hlo hhi ih =>
    rw [decode, hhi, hlo]
    simp only [List.length_cons]
    rw [ih fun e he => h e (List.mem_cons_of_mem _ (List.mem_cons_of_mem _ he))]
    omega
  | case2 c d cs hnot =>
    obtain ⟨hi, hhi⟩ := Option.isSome_iff_exists.mp (h c List.mem_cons_self)
    obtain ⟨lo, hlo⟩ :=
      Option.isSome_iff_exists.mp (h d (List.mem_cons_of_mem _ List.mem_cons_self))
    exact absurd hlo (hnot hi lo hhi)
  | case3 cs hshort =>
    -- an odd digit is dropped
    match cs, hshort with
    | [], _ => rfl
    | [c], _ => simp [decode]
    | c :: d :: cs, hshort => exact (hshort c d cs rfl).elim

end Hex
