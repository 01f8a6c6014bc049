import Mathlib

/-!
# Decimal integers and separated texts

Texts are lists of characters here.  The first part splits a text at the first
or the last occurrence of a separator, as Rust's `split_once` and `rsplit_once`
do.  The second part prints a 64-bit or 32-bit integer in decimal and parses it
back, as `Display` and `str::parse` do.  The parsers accept a leading plus sign,
which the printers never write.

The round trips are `splitOnce_append`, `rsplitOnce_append`, `parseInt64_chars`
and `parseUInt32_chars`.
-/

namespace Lib

/-! ## Splitting -/

/-- The text before and after the first separator. -/
def splitOnce (sep : Char) : List Char → Option (List Char × List Char)
  | [] => none
  | c :: cs => if c = sep then some ([], cs) else (splitOnce sep cs).map fun r => (c :: r.1, r.2)

/-- The text before and after the last separator. -/
def rsplitOnce (sep : Char) (cs : List Char) : Option (List Char × List Char) :=
  (splitOnce sep cs.reverse).map fun r => (r.2.reverse, r.1.reverse)

theorem splitOnce_append {sep : Char} {xs : List Char} (h : sep ∉ xs) (ys : List Char) :
    splitOnce sep (xs ++ sep :: ys) = some (xs, ys) := by
  induction xs with
  | nil => simp [splitOnce]
  | cons x xs ih =>
    rw [List.mem_cons, not_or] at h
    rw [List.cons_append, splitOnce, if_neg (Ne.symm h.1), ih h.2]
    rfl

theorem splitOnce_eq_some {sep : Char} {cs xs ys : List Char}
    (h : splitOnce sep cs = some (xs, ys)) : cs = xs ++ sep :: ys ∧ sep ∉ xs := by
  induction cs generalizing xs with
  | nil => cases h
  | cons c cs ih =>
    rw [splitOnce] at h
    split at h
    · rename_i hc
      cases h
      exact ⟨by rw [hc]; rfl, List.not_mem_nil⟩
    · rename_i hc
      obtain ⟨⟨zs, ws⟩, hrest, hpair⟩ := Option.map_eq_some_iff.1 h
      cases hpair
      obtain ⟨rfl, hnot⟩ := ih hrest
      refine ⟨rfl, fun hmem => ?_⟩
      rcases List.mem_cons.1 hmem with rfl | hmem
      · exact hc rfl
      · exact hnot hmem

theorem rsplitOnce_eq_some {sep : Char} {cs xs ys : List Char}
    (h : rsplitOnce sep cs = some (xs, ys)) : cs = xs ++ sep :: ys ∧ sep ∉ ys := by
  obtain ⟨⟨zs, ws⟩, hsplit, hpair⟩ := Option.map_eq_some_iff.1 h
  cases hpair
  obtain ⟨hreverse, hnot⟩ := splitOnce_eq_some hsplit
  refine ⟨?_, by simpa using hnot⟩
  rw [← List.reverse_reverse cs, hreverse]
  simp

theorem rsplitOnce_append {sep : Char} (xs : List Char) {ys : List Char} (h : sep ∉ ys) :
    rsplitOnce sep (xs ++ sep :: ys) = some (xs, ys) := by
  have hrev : (xs ++ sep :: ys).reverse = ys.reverse ++ sep :: xs.reverse := by simp
  rw [rsplitOnce, hrev, splitOnce_append (by simpa using h)]
  simp

/-! ## Decimal integers -/

/-- One digit or more, as a number. -/
def parseDigits (cs : List Char) : Option Nat :=
  if cs ≠ [] ∧ cs.all Char.isDigit then some (Nat.ofDigitChars 10 cs 0) else none

theorem isDigit_of_mem_toDigits {c : Char} {n : Nat} (h : c ∈ Nat.toDigits 10 n) :
    c.isDigit = true :=
  Nat.isDigit_of_mem_toDigits (by decide) (by decide) h

theorem parseDigits_toDigits (n : Nat) : parseDigits (Nat.toDigits 10 n) = some n := by
  have hdigits : (Nat.toDigits 10 n).all Char.isDigit = true := by
    rw [List.all_eq_true]
    intro c hc
    exact isDigit_of_mem_toDigits hc
  rw [parseDigits, if_pos ⟨Nat.toDigits_ne_nil, hdigits⟩, Nat.ofDigitChars_ten_toDigits]

/-- `i64`'s `Display`. -/
def int64Chars (x : Int64) : List Char :=
  match x.toInt with
  | .ofNat n => Nat.toDigits 10 n
  | .negSucc n => '-' :: Nat.toDigits 10 (n + 1)

/-- `str::parse::<i64>`. -/
def parseInt64 : List Char → Option Int64
  | '-' :: ds => (parseDigits ds).bind fun n =>
      if n ≤ 2 ^ 63 then some (Int64.ofInt (-n)) else none
  | '+' :: ds => (parseDigits ds).bind fun n => if n < 2 ^ 63 then some (Int64.ofInt n) else none
  | ds => (parseDigits ds).bind fun n => if n < 2 ^ 63 then some (Int64.ofInt n) else none

/-- `u32`'s `Display`. -/
def uint32Chars (x : UInt32) : List Char := Nat.toDigits 10 x.toNat

/-- `str::parse::<u32>`. -/
def parseUInt32 : List Char → Option UInt32
  | '+' :: ds => (parseDigits ds).bind fun n => if n < 2 ^ 32 then some (UInt32.ofNat n) else none
  | ds => (parseDigits ds).bind fun n => if n < 2 ^ 32 then some (UInt32.ofNat n) else none

/-- A text of digits starts with no sign. -/
theorem toDigits_eq_cons {n : Nat} {c : Char} {cs : List Char}
    (h : Nat.toDigits 10 n = c :: cs) : c ≠ '+' ∧ c ≠ '-' := by
  have hc : c.isDigit = true := isDigit_of_mem_toDigits (n := n) (by rw [h]; simp)
  constructor <;> rintro rfl <;> revert hc <;> decide

theorem parseUInt32_chars (x : UInt32) : parseUInt32 (uint32Chars x) = some x := by
  have hparse := parseDigits_toDigits x.toNat
  rw [uint32Chars]
  unfold parseUInt32
  split
  · rename_i ds hds
    exact absurd rfl (toDigits_eq_cons hds).1
  · rw [hparse, Option.bind_some, if_pos x.toNat_lt]
    simp

theorem parseInt64_chars (x : Int64) : parseInt64 (int64Chars x) = some x := by
  have hle := x.toInt_lt
  have hge := x.le_toInt
  unfold int64Chars
  split
  · rename_i n hn
    rw [hn] at hle
    unfold parseInt64
    split
    · rename_i ds hds
      exact absurd rfl (toDigits_eq_cons hds).2
    · rename_i ds hds
      exact absurd rfl (toDigits_eq_cons hds).1
    · rw [parseDigits_toDigits, Option.bind_some, if_pos (by simpa using hle)]
      have hx : Int64.ofInt (n : Int) = x := by
        rw [← Int64.ofInt_toInt x, hn]
        rfl
      rw [hx]
  · rename_i n hn
    rw [hn] at hge
    have hx : Int64.ofInt (-((n + 1 : Nat) : Int)) = x := by
      rw [← Int64.ofInt_toInt x, hn]
      rfl
    rw [parseInt64, parseDigits_toDigits, Option.bind_some, if_pos (by omega), hx]

end Lib
