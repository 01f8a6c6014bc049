import Mathlib

/-!
# Hexadecimal texts of bytes

`hexText` writes two lower-case digits for a byte, and `hexBytes?` reads digits of
either case.  Reading gives back what was written (`hexBytes?_hexText`), and a text that
can be read is what is written of its bytes up to case (`hexText_of_hexBytes?`).  So the
texts of the same bytes differ in case only, and of these one is in lower case.
-/

namespace Lib

/-! ## Digits -/

/-- The digit of a number below sixteen. -/
def hexDigit (n : Nat) : Char := if n < 10 then Char.ofNat (48 + n) else Char.ofNat (87 + n)

/-- The number of a digit. -/
def hexValue? (c : Char) : Option Nat :=
  if 48 ≤ c.toNat ∧ c.toNat ≤ 57 then some (c.toNat - 48)
  else if 97 ≤ c.toNat ∧ c.toNat ≤ 102 then some (c.toNat - 87)
  else if 65 ≤ c.toNat ∧ c.toNat ≤ 70 then some (c.toNat - 55)
  else none

theorem hexValue?_hexDigit {n : Nat} (h : n < 16) : hexValue? (hexDigit n) = some n := by
  interval_cases n <;> rfl

/-- A digit is the one of its number, up to case. -/
theorem hexDigit_of_hexValue? {c : Char} {n : Nat} (h : hexValue? c = some n) :
    n < 16 ∧ hexDigit n = c.toLower := by
  have hc : Char.ofNat c.toNat = c := Char.ofNat_toNat c
  unfold hexValue? at h
  split at h
  · rename_i hdigit
    cases h
    rw [← hc]
    obtain ⟨hlow, hhigh⟩ := hdigit
    generalize c.toNat = m at hlow hhigh
    interval_cases m <;> decide
  · split at h
    · rename_i hlower
      cases h
      rw [← hc]
      obtain ⟨hlow, hhigh⟩ := hlower
      generalize c.toNat = m at hlow hhigh
      interval_cases m <;> decide
    · split at h
      · rename_i hupper
        cases h
        rw [← hc]
        obtain ⟨hlow, hhigh⟩ := hupper
        generalize c.toNat = m at hlow hhigh
        interval_cases m <;> decide
      · cases h

/-! ## Bytes -/

/-- `hex::encode`: two lower-case digits for each byte. -/
def hexText : List UInt8 → List Char
  | [] => []
  | b :: bs => hexDigit (b.toNat / 16) :: hexDigit (b.toNat % 16) :: hexText bs

/-- `hex::decode`: two digits of either case for each byte, and nothing else. -/
def hexBytes? : List Char → Option (List UInt8)
  | [] => some []
  | high :: low :: rest =>
    match hexValue? high, hexValue? low with
    | some m, some n => (hexBytes? rest).map fun bs => UInt8.ofNat (16 * m + n) :: bs
    | _, _ => none
  | [_] => none

theorem hexBytes?_hexText (bs : List UInt8) : hexBytes? (hexText bs) = some bs := by
  induction bs with
  | nil => rfl
  | cons b bs ih =>
    have hb := b.toNat_lt
    have hbyte : 16 * (b.toNat / 16) + b.toNat % 16 = b.toNat := Nat.div_add_mod _ _
    rw [hexText, hexBytes?, hexValue?_hexDigit (by omega), hexValue?_hexDigit (by omega), ih]
    simp only [Option.map_some, hbyte, UInt8.ofNat_toNat]

/-- A text that is read is what is written of its bytes, up to case. -/
theorem hexText_of_hexBytes? {cs : List Char} {bs : List UInt8} (h : hexBytes? cs = some bs) :
    hexText bs = cs.map Char.toLower := by
  induction cs using hexBytes?.induct generalizing bs with
  | case1 =>
    cases h
    rfl
  | case2 high low rest m n hm hn ih =>
    rw [hexBytes?, hm, hn] at h
    obtain ⟨bs', hrest, rfl⟩ := Option.map_eq_some_iff.1 h
    obtain ⟨hmlt, hmdigit⟩ := hexDigit_of_hexValue? hm
    obtain ⟨hnlt, hndigit⟩ := hexDigit_of_hexValue? hn
    have hbyte : (UInt8.ofNat (16 * m + n)).toNat = 16 * m + n := by
      rw [UInt8.toNat_ofNat']
      omega
    have hhigh : (16 * m + n) / 16 = m := by omega
    have hlow : (16 * m + n) % 16 = n := by omega
    rw [hexText, hbyte, hhigh, hlow, hmdigit, hndigit, ih hrest, List.map_cons, List.map_cons]
  | case3 high low rest hnot =>
    rw [hexBytes?] at h
    split at h
    · rename_i m n hm hn
      exact absurd hn (hnot m n hm)
    · cases h
  | case4 c => cases h

theorem length_hexText (bs : List UInt8) : (hexText bs).length = 2 * bs.length := by
  induction bs with
  | nil => rfl
  | cons b bs ih =>
    rw [hexText, List.length_cons, List.length_cons, ih, List.length_cons]
    omega

end Lib
