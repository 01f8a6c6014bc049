import Mathlib.Data.Nat.Notation

/-!
# URL-safe base64 without padding

Three bytes become four digits of six bits each, and what is left at the end becomes two
digits for one byte or three for two.  Every digit is a letter, a number, a dash or an
underscore (`base64Char_of_mem_encode`), so the text may stand in a header.
-/

namespace Lib

/-- The digit of a number below 64. -/
def base64Digit (n : Nat) : Char :=
  if n < 26 then Char.ofNat (65 + n)
  else if n < 52 then Char.ofNat (71 + n)
  else if n < 62 then Char.ofNat (n - 4)
  else if n = 62 then '-'
  else '_'

/-- `URL_SAFE_NO_PAD.encode`. -/
def base64Encode : List UInt8 → List Char
  | [] => []
  | [a] => [base64Digit (a.toNat / 4), base64Digit (a.toNat % 4 * 16)]
  | [a, b] =>
    [base64Digit (a.toNat / 4), base64Digit (a.toNat % 4 * 16 + b.toNat / 16),
      base64Digit (b.toNat % 16 * 4)]
  | a :: b :: c :: rest =>
    base64Digit (a.toNat / 4) :: base64Digit (a.toNat % 4 * 16 + b.toNat / 16) ::
      base64Digit (b.toNat % 16 * 4 + c.toNat / 64) :: base64Digit (c.toNat % 64) ::
      base64Encode rest

/-- A digit of a base64 text. -/
def base64Char (c : Char) : Bool := c.isAlphanum || c = '-' || c = '_'

theorem base64Char_digit (n : Nat) : base64Char (base64Digit n) = true := by
  have hdigits : ∀ m < 64, base64Char (base64Digit m) = true := by decide
  by_cases hn : n < 64
  · exact hdigits n hn
  · have hlast : base64Digit n = '_' := by
      simp only [base64Digit]
      rw [if_neg (by omega), if_neg (by omega), if_neg (by omega), if_neg (by omega)]
    rw [hlast]
    decide

theorem base64Char_of_mem_encode {bs : List UInt8} {c : Char} (h : c ∈ base64Encode bs) :
    base64Char c = true := by
  induction bs using base64Encode.induct with
  | case1 => cases h
  | case2 a =>
    simp only [base64Encode, List.mem_cons, List.not_mem_nil, or_false] at h
    rcases h with rfl | rfl <;> exact base64Char_digit _
  | case3 a b =>
    simp only [base64Encode, List.mem_cons, List.not_mem_nil, or_false] at h
    rcases h with rfl | rfl | rfl <;> exact base64Char_digit _
  | case4 a b d rest ih =>
    rw [base64Encode, List.mem_cons, List.mem_cons, List.mem_cons, List.mem_cons] at h
    rcases h with rfl | rfl | rfl | rfl | hrest
    · exact base64Char_digit _
    · exact base64Char_digit _
    · exact base64Char_digit _
    · exact base64Char_digit _
    · exact ih hrest

example : base64Encode [255, 239, 190, 77] = "_---TQ".toList := by decide

end Lib
