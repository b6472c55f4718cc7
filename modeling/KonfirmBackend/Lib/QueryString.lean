import Mathlib.Data.List.Basic
import Mathlib.Tactic.Common

/-!
# Query strings

Percent-encoding of strings by the bytes of their UTF-8 encoding, and the parsing of a query
string into names and values: parts between ampersands, each cut at its first equals sign,
plus signs read as spaces, percent-encoded bytes decoded. Which bytes an encoder leaves as
they are is a parameter.

## Main definitions

- `QueryString.encode` — percent-encoding
- `QueryString.decode` — the reading of one name or value
- `QueryString.parse` — the names and values of a query string
- `QueryString.Unreserved` — the bytes that may be left as they are

## Main results

- `QueryString.decode_encode` — a string is read as it was encoded
- `QueryString.parse_intercalate` — so is a list of names and values
-/

namespace QueryString

def hexDigit (n : ℕ) : Char :=
  if n < 10 then Char.ofNat (48 + n) else Char.ofNat (55 + n)

def hexValue (c : Char) : Option ℕ :=
  if '0' ≤ c ∧ c ≤ '9' then some (c.toNat - 48)
  else if 'A' ≤ c ∧ c ≤ 'F' then some (c.toNat - 55)
  else if 'a' ≤ c ∧ c ≤ 'f' then some (c.toNat - 87)
  else none

/-- One byte, left as it is if it is `plain`. -/
def encodeByte (plain : ℕ → Bool) (b : UInt8) : List Char :=
  if plain b.toNat then [Char.ofNat b.toNat]
  else ['%', hexDigit (b.toNat / 16), hexDigit (b.toNat % 16)]

def encodeBytes (plain : ℕ → Bool) (bs : List UInt8) : List Char :=
  bs.flatMap (encodeByte plain)

def encode (plain : ℕ → Bool) (s : String) : List Char :=
  encodeBytes plain s.toByteArray.data.toList

/-- The bytes that an encoded text stands for; a percent sign that no two hexadecimal digits
follow stands for itself. -/
def decodeBytes : List Char → List UInt8
  | [] => []
  | [c] => literal c
  | [c, d] => literal c ++ literal d
  | c :: d :: e :: cs =>
    if c = '%' then
      match hexValue d, hexValue e with
      | some hi, some lo => UInt8.ofNat (16 * hi + lo) :: decodeBytes cs
      | _, _ => literal c ++ decodeBytes (d :: e :: cs)
    else literal c ++ decodeBytes (d :: e :: cs)
where
  literal (c : Char) : List UInt8 := if c = '+' then [32] else String.utf8EncodeChar c

/-- The string that an encoded text stands for, if its bytes are one. -/
def decode (cs : List Char) : Option String := String.fromUTF8? ⟨(decodeBytes cs).toArray⟩

/-- A part of a query string, cut at its first equals sign. -/
def parsePart (cs : List Char) : Option (String × String) := do
  let name ← decode (cs.takeWhile (· != '='))
  let value ← decode ((cs.dropWhile (· != '=')).tail)
  return (name, value)

def parse (query : List Char) : Option (List (String × String)) :=
  ((query.splitOn '&').filter (· ≠ [])).mapM parsePart

/-- The bytes that may be left as they are: ASCII, and none with a meaning of its own. -/
def Unreserved (plain : ℕ → Bool) : Prop :=
  ∀ n, plain n → n < 128 ∧ n ≠ 37 ∧ n ≠ 38 ∧ n ≠ 43 ∧ n ≠ 61

theorem hexValue_hexDigit : ∀ n < 16, hexValue (hexDigit n) = some n := by
  decide

theorem hexDigit_ne : ∀ n < 16, hexDigit n ≠ '&' ∧ hexDigit n ≠ '=' := by
  decide

/-- What an ASCII character other than the plus sign stands for. -/
theorem literal_ofNat : ∀ n < 128, n ≠ 43 →
    decodeBytes.literal (Char.ofNat n) = [UInt8.ofNat n] := by
  decide

theorem ofNat_ne : ∀ n < 128, (n ≠ 37 → Char.ofNat n ≠ '%') ∧ (n ≠ 38 → Char.ofNat n ≠ '&') ∧
    (n ≠ 61 → Char.ofNat n ≠ '=') := by
  decide

/-- A character that is not a percent sign stands for itself. -/
theorem decodeBytes_cons {c : Char} (hc : c ≠ '%') (cs : List Char) :
    decodeBytes (c :: cs) = decodeBytes.literal c ++ decodeBytes cs := by
  match cs with
  | [] => simp [decodeBytes]
  | [_] => simp [decodeBytes]
  | d :: e :: cs => rw [decodeBytes, if_neg hc]

variable {plain : ℕ → Bool}

theorem decodeBytes_encodeByte (h : Unreserved plain) (b : UInt8) (cs : List Char) :
    decodeBytes (encodeByte plain b ++ cs) = b :: decodeBytes cs := by
  have hb : b.toNat < 256 := b.toNat_lt
  rw [encodeByte]
  by_cases hp : plain b.toNat
  case pos =>
    obtain ⟨hlt, hpercent, -, hplus, -⟩ := h _ hp
    rw [if_pos hp, List.singleton_append, decodeBytes_cons ((ofNat_ne _ hlt).1 hpercent),
      literal_ofNat _ hlt hplus, List.singleton_append, UInt8.ofNat_toNat]
  case neg =>
    have hhi := hexValue_hexDigit (b.toNat / 16) (by omega)
    have hlo := hexValue_hexDigit (b.toNat % 16) (by omega)
    have hbyte : 16 * (b.toNat / 16) + b.toNat % 16 = b.toNat := Nat.div_add_mod _ 16
    rw [if_neg hp]
    show decodeBytes ('%' :: hexDigit (b.toNat / 16) :: hexDigit (b.toNat % 16) :: cs) = _
    rw [decodeBytes, if_pos rfl, hhi, hlo]
    simp only [hbyte, UInt8.ofNat_toNat]

theorem decodeBytes_encodeBytes (h : Unreserved plain) (bs : List UInt8) :
    decodeBytes (encodeBytes plain bs) = bs := by
  induction bs with
  | nil => rfl
  | cons b bs ih =>
    rw [encodeBytes, List.flatMap_cons, decodeBytes_encodeByte h]
    exact congrArg (b :: ·) ih

/-- A string is read as it was encoded. -/
theorem decode_encode (h : Unreserved plain) (s : String) : decode (encode plain s) = some s := by
  rw [decode, encode, decodeBytes_encodeBytes h, Array.toArray_toList]
  exact dif_pos s.isValidUTF8

/-- No separator is left in an encoded text. -/
theorem not_mem_encode (h : Unreserved plain) (s : String) {c : Char}
    (hc : c ∈ encode plain s) : c ≠ '&' ∧ c ≠ '=' := by
  obtain ⟨b, -, hcb⟩ := List.mem_flatMap.mp hc
  have hb : b.toNat < 256 := b.toNat_lt
  rw [encodeByte] at hcb
  by_cases hp : plain b.toNat
  case pos =>
    rw [if_pos hp, List.mem_singleton] at hcb
    obtain ⟨hlt, -, hamp, -, heq⟩ := h _ hp
    rw [hcb]
    exact ⟨(ofNat_ne _ hlt).2.1 hamp, (ofNat_ne _ hlt).2.2 heq⟩
  case neg =>
    rw [if_neg hp] at hcb
    simp only [List.mem_cons, List.not_mem_nil, or_false] at hcb
    rcases hcb with rfl | rfl | rfl
    · decide
    · exact hexDigit_ne _ (by omega)
    · exact hexDigit_ne _ (by omega)

/-- One name and its value. -/
def part (plain : ℕ → Bool) (p : String × String) : List Char :=
  encode plain p.1 ++ '=' :: encode plain p.2

theorem parsePart_part (h : Unreserved plain) (p : String × String) :
    parsePart (part plain p) = some p := by
  have hname : ∀ c ∈ encode plain p.1, (c != '=') = true := by
    intro c hc
    exact bne_iff_ne.mpr (not_mem_encode h _ hc).2
  have htake : (part plain p).takeWhile (· != '=') = encode plain p.1 := by
    rw [part, List.takeWhile_append_of_pos hname]
    simp
  have hdrop : ((part plain p).dropWhile (· != '=')).tail = encode plain p.2 := by
    rw [part, List.dropWhile_append_of_pos hname]
    simp
  simp only [parsePart, htake, hdrop, decode_encode h]
  rfl

theorem mapM_parsePart (h : Unreserved plain) (ps : List (String × String)) :
    (ps.map (part plain)).mapM parsePart = some ps := by
  induction ps with
  | nil => rfl
  | cons p ps ih =>
    rw [List.map_cons, List.mapM_cons, parsePart_part h, ih]
    rfl

/-- Names and values are read as they were encoded. -/
theorem parse_intercalate (h : Unreserved plain) {ps : List (String × String)} (hne : ps ≠ []) :
    parse (['&'].intercalate (ps.map (part plain))) = some ps := by
  have hsep : ∀ cs ∈ ps.map (part plain), '&' ∉ cs := by
    intro cs hcs hmem
    obtain ⟨p, -, rfl⟩ := List.mem_map.mp hcs
    rcases List.mem_append.mp hmem with hc | hc
    · exact (not_mem_encode h _ hc).1 rfl
    · rcases List.mem_cons.mp hc with hc | hc
      · cases hc
      · exact (not_mem_encode h _ hc).1 rfl
  have hfull : ∀ cs ∈ ps.map (part plain), decide (cs ≠ []) = true := by
    intro cs hcs
    obtain ⟨p, -, rfl⟩ := List.mem_map.mp hcs
    simp [part]
  rw [parse, List.splitOn_intercalate _ hsep (by simpa using hne),
    List.filter_eq_self.mpr hfull, mapM_parsePart h]

end QueryString
