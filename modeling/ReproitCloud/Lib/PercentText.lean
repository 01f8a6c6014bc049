import Mathlib.Data.String.Basic
import ReproitCloud.Lib.Hex

/-!
# Percent encoding

`percentEncode` writes a text as one segment of a URL path.  The characters of `uriChar`
stay, and of any other character every byte becomes a percent sign with two digits.
`percentDecode` takes a percent sign with two digits for a byte and everything else for
itself.  It gives back every text (`percentDecode_percentEncode`), and a text of characters
that stay is its own encoding (`percentEncode_eq_self`).
-/

namespace Lib

/-! ## Encoding -/

/-- A character that `encodeURIComponent` leaves alone. -/
def uriChar (c : Char) : Bool := c.isAlphanum || decide (c ∈ "-_.!~*'()".toList)

/-- A percent sign and two digits. -/
def percentByte (b : UInt8) : List Char :=
  ['%', (hexDigit (b.toNat / 16)).toUpper, (hexDigit (b.toNat % 16)).toUpper]

/-- `encodeURIComponent`. -/
def percentEncode (cs : List Char) : List Char :=
  cs.flatMap fun c => if uriChar c then [c] else (String.utf8EncodeChar c).flatMap percentByte

/-! ## Decoding -/

/-- The bytes of a segment. -/
def percentBytes : List Char → List UInt8
  | [] => []
  | '%' :: high :: low :: rest =>
    match hexValue? high, hexValue? low with
    | some m, some n => UInt8.ofNat (16 * m + n) :: percentBytes rest
    | _, _ => String.utf8EncodeChar '%' ++ percentBytes (high :: low :: rest)
  | c :: rest => String.utf8EncodeChar c ++ percentBytes rest

/-- The text of a segment, if its bytes are one. -/
def percentDecode (cs : List Char) : Option String :=
  String.fromUTF8? (percentBytes cs).toByteArray

theorem hexValue?_toUpper_hexDigit {n : Nat} (h : n < 16) :
    hexValue? (hexDigit n).toUpper = some n := by
  interval_cases n <;> rfl

theorem percentBytes_cons {c : Char} (hc : c ≠ '%') (rest : List Char) :
    percentBytes (c :: rest) = String.utf8EncodeChar c ++ percentBytes rest := by
  rw [percentBytes]
  rintro high low rest' hpercent
  exact absurd hpercent hc

theorem percentBytes_percentByte (b : UInt8) (rest : List Char) :
    percentBytes (percentByte b ++ rest) = b :: percentBytes rest := by
  have hb := b.toNat_lt
  have hbyte : 16 * (b.toNat / 16) + b.toNat % 16 = b.toNat := Nat.div_add_mod _ _
  change percentBytes ('%' :: _ :: _ :: rest) = _
  rw [percentBytes, hexValue?_toUpper_hexDigit (by omega), hexValue?_toUpper_hexDigit (by omega)]
  simp only [hbyte, UInt8.ofNat_toNat]

theorem percentBytes_flatMap (bs : List UInt8) (rest : List Char) :
    percentBytes (bs.flatMap percentByte ++ rest) = bs ++ percentBytes rest := by
  induction bs with
  | nil => rfl
  | cons b bs ih =>
    rw [List.flatMap_cons, List.append_assoc, percentBytes_percentByte, ih, List.cons_append]

/-- The bytes that are read of an encoded text are those of the text. -/
theorem percentBytes_percentEncode (cs : List Char) :
    percentBytes (percentEncode cs) = cs.flatMap String.utf8EncodeChar := by
  induction cs with
  | nil => rfl
  | cons c cs ih =>
    rw [percentEncode, List.flatMap_cons, List.flatMap_cons, ← percentEncode]
    split
    · rename_i hplain
      have hc : c ≠ '%' := by
        rintro rfl
        revert hplain
        decide
      rw [List.singleton_append, percentBytes_cons hc, ih]
    · rw [percentBytes_flatMap, ih]

theorem percentDecode_percentEncode (s : String) :
    percentDecode (percentEncode s.toList) = some s := by
  have hbytes : (percentBytes (percentEncode s.toList)).toByteArray = s.toByteArray := by
    rw [percentBytes_percentEncode, ← String.utf8Encode_toList, List.utf8Encode]
  rw [percentDecode, hbytes]
  exact dif_pos s.isValidUTF8

theorem percentEncode_eq_self {cs : List Char} (h : ∀ c ∈ cs, uriChar c = true) :
    percentEncode cs = cs := by
  induction cs with
  | nil => rfl
  | cons c cs ih =>
    rw [List.forall_mem_cons] at h
    rw [percentEncode, List.flatMap_cons, ← percentEncode, if_pos h.1, ih h.2,
      List.singleton_append]

end Lib
