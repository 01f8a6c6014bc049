import ReproitCloud.Lib.DecimalText

/-!
# Fields of a line and bounded prefixes

Texts are lists of characters.  `splitN` cuts a text at its separators into at most so many
fields, and the last field has the rest, as Rust's `splitn` does.  `boundedPrefix` takes so
many bytes of a text, or fewer where they would end inside a character.  A start of the text
that fits is a start of what is taken (`IsPrefix.boundedPrefix`).  The last part prints an
unsigned 64-bit integer and parses it back (`parseUInt64_chars`).
-/

namespace Lib

/-! ## Fields -/

/-- `splitn`. -/
def splitN (sep : Char) : Nat → List Char → List (List Char)
  | 0, _ => []
  | 1, cs => [cs]
  | n + 2, cs =>
    match splitOnce sep cs with
    | some (field, rest) => field :: splitN sep (n + 1) rest
    | none => [cs]

section Fields

variable {sep : Char} {field : List Char}

theorem splitN_append (n : Nat) (h : sep ∉ field) (rest : List Char) :
    splitN sep (n + 2) (field ++ sep :: rest) = field :: splitN sep (n + 1) rest := by
  rw [splitN, splitOnce_append h]

end Fields

/-! ## Bounded prefixes -/

/-- The start of a text that has just so many bytes, if a character ends there. -/
def takeBytes : Nat → List Char → Option (List Char)
  | 0, _ => some []
  | _ + 1, [] => none
  | n + 1, c :: cs =>
    if c.utf8Size ≤ n + 1 then (takeBytes (n + 1 - c.utf8Size) cs).map (c :: ·) else none

/-- `is_char_boundary`. -/
def isCharBoundary (cs : List Char) (n : Nat) : Bool := (takeBytes n cs).isSome

/-- The loop that goes down to a boundary. -/
def boundaryBelow (cs : List Char) : Nat → Nat
  | 0 => 0
  | n + 1 => if isCharBoundary cs (n + 1) then n + 1 else boundaryBelow cs n

/-- `bounded_prefix`. -/
def boundedPrefix (cs : List Char) (maxBytes : Nat) : List Char :=
  if String.utf8Len cs ≤ maxBytes then cs else (takeBytes (boundaryBelow cs maxBytes) cs).getD []

section Prefixes

variable {cs start : List Char} {n : Nat}

theorem takeBytes_utf8Len (start rest : List Char) :
    takeBytes (String.utf8Len start) (start ++ rest) = some start := by
  induction start with
  | nil => simp [takeBytes]
  | cons c start ih =>
    have hpos := c.utf8Size_pos
    obtain ⟨n, hn⟩ : ∃ n, String.utf8Len start + c.utf8Size = n + 1 :=
      ⟨String.utf8Len start + c.utf8Size - 1, by omega⟩
    have hrest : n + 1 - c.utf8Size = String.utf8Len start := by omega
    rw [String.utf8Len_cons, hn, List.cons_append, takeBytes, if_pos (by omega), hrest, ih]
    rfl

theorem takeBytes_eq_some (h : takeBytes n cs = some start) :
    start <+: cs ∧ String.utf8Len start = n := by
  induction n, cs using takeBytes.induct generalizing start with
  | case1 cs =>
    rw [takeBytes, Option.some.injEq] at h
    subst h
    exact ⟨List.nil_prefix, rfl⟩
  | case2 n =>
    rw [takeBytes] at h
    cases h
  | case3 n c cs hc ih =>
    rw [takeBytes, if_pos hc] at h
    obtain ⟨start', htake, rfl⟩ := Option.map_eq_some_iff.1 h
    obtain ⟨hstart, hlen⟩ := ih htake
    refine ⟨List.cons_prefix_cons.2 ⟨rfl, hstart⟩, ?_⟩
    rw [String.utf8Len_cons, hlen]
    omega
  | case4 n c cs hc =>
    rw [takeBytes, if_neg hc] at h
    cases h

/-- The loop stops at a boundary. -/
theorem isCharBoundary_boundaryBelow (cs : List Char) (n : Nat) :
    isCharBoundary cs (boundaryBelow cs n) = true := by
  induction n with
  | zero => cases cs <;> rfl
  | succ n ih =>
    rw [boundaryBelow]
    split
    · assumption
    · exact ih

/-- It goes past no boundary. -/
theorem le_boundaryBelow {m : Nat} (hm : isCharBoundary cs m = true) (hle : m ≤ n) :
    m ≤ boundaryBelow cs n := by
  induction n with
  | zero => exact hle
  | succ n ih =>
    rw [boundaryBelow]
    split
    · exact hle
    · rename_i hnot
      have hne : m ≠ n + 1 := by
        rintro rfl
        exact hnot hm
      exact ih (by omega)

/-- A start of the text that fits the bound is a start of the bounded prefix. -/
theorem prefix_boundedPrefix (hstart : start <+: cs) (hle : String.utf8Len start ≤ n) :
    start <+: boundedPrefix cs n := by
  rw [boundedPrefix]
  split
  · exact hstart
  · obtain ⟨rest, rfl⟩ := hstart
    have hboundary : isCharBoundary (start ++ rest) (String.utf8Len start) = true := by
      rw [isCharBoundary, takeBytes_utf8Len]
      rfl
    have hbelow := le_boundaryBelow hboundary hle
    obtain ⟨taken, htaken⟩ :=
      Option.isSome_iff_exists.1 (isCharBoundary_boundaryBelow (start ++ rest) n)
    obtain ⟨htake, hlen⟩ := takeBytes_eq_some htaken
    rw [htaken]
    -- Two starts of one text, and the shorter one has no more bytes.
    rcases List.prefix_or_prefix_of_prefix (List.prefix_append start rest) htake with h | h
    · exact h
    · have hbytes := String.utf8Len_le_of_prefix h
      obtain ⟨more, rfl⟩ := h
      have hmore : String.utf8Len more = 0 := by
        rw [String.utf8Len_append] at hbytes hbelow
        omega
      rw [String.utf8Len_eq_zero.1 hmore, List.append_nil]
      exact List.prefix_rfl

end Prefixes

/-! ## Unsigned 64-bit integers -/

/-- `u64`'s `Display`. -/
def uint64Chars (x : UInt64) : List Char := Nat.toDigits 10 x.toNat

/-- `str::parse::<u64>`. -/
def parseUInt64 : List Char → Option UInt64
  | '+' :: ds => (parseDigits ds).bind fun n => if n < 2 ^ 64 then some (UInt64.ofNat n) else none
  | ds => (parseDigits ds).bind fun n => if n < 2 ^ 64 then some (UInt64.ofNat n) else none

theorem parseUInt64_chars (x : UInt64) : parseUInt64 (uint64Chars x) = some x := by
  have hparse := parseDigits_toDigits x.toNat
  rw [uint64Chars]
  unfold parseUInt64
  split
  · rename_i ds hds
    exact absurd rfl (toDigits_eq_cons hds).1
  · rw [hparse, Option.bind_some, if_pos x.toNat_lt]
    simp

/-- A text of ASCII characters has one byte for each. -/
theorem utf8Len_of_ascii {cs : List Char} (h : ∀ c ∈ cs, c.toNat ≤ 127) :
    String.utf8Len cs = cs.length := by
  induction cs with
  | nil => rfl
  | cons c cs ih =>
    rw [List.forall_mem_cons] at h
    rw [String.utf8Len_cons, ih h.2,
      Char.utf8Size_eq_one_iff.2 (UInt32.le_iff_toNat_le.2 h.1), List.length_cons]

theorem isDigit_of_mem_uint64Chars {x : UInt64} {c : Char} (h : c ∈ uint64Chars x) :
    c.isDigit = true :=
  isDigit_of_mem_toDigits h

/-- It has twenty bytes at most. -/
theorem utf8Len_uint64Chars_le (x : UInt64) : String.utf8Len (uint64Chars x) ≤ 20 := by
  have hlt : x.toNat < 10 ^ 20 := lt_trans x.toNat_lt (by norm_num)
  have hascii : ∀ c ∈ uint64Chars x, c.toNat ≤ 127 := by
    intro c hc
    have hdigit := isDigit_of_mem_uint64Chars hc
    simp only [Char.isDigit, Bool.and_eq_true, decide_eq_true_eq, UInt32.le_iff_toNat_le] at hdigit
    exact hdigit.2.trans (by decide)
  rw [utf8Len_of_ascii hascii]
  exact (Nat.length_toDigits_le_iff (by decide) (by decide)).2 hlt

end Lib
