import ReproitCloud.Lib.DecimalText

/-!
# Indented outlines of keys and values

A text of lines, each `key: value` behind some indentation, where a line belongs to
the nearest line above it that is indented less.  This is the block form of YAML
with plain keys and values on one line.  Blank lines, comments (`#`) and items of
lists (`-`) are not entries.  Which characters are blank is an argument.

* `splitLines` and `joinLines` go between a text and its lines, and `textLines` takes
  carriage returns off.
* `readEntry` reads a line, `entries` a text.
* `paths` gives every entry the keys it stands under, and `settings` is the text as
  a list of paths and values.

`editEntries` changes values from top to bottom, with a flag that the keys set.  The
paths depend on indentations and keys only, so they stay (`settingsBelow_editEntries`).
`Sheltered` says what a path of two keys promises about the lines above it
(`sheltered_settings`).  The value of a setting is `OnLine`: it can be written behind
a key and is read back (`onLine_of_mem_settings`).
-/

namespace Lib

/-! ## Lines -/

/-- The lines of a text.  A last line without a line break counts. -/
def splitLines : List Char → List (List Char)
  | [] => []
  | c :: cs =>
    if c = '\n' then [] :: splitLines cs
    else
      match splitLines cs with
      | [] => [[c]]
      | line :: lines => (c :: line) :: lines

/-- Every line with a line break. -/
def joinLines (lines : List (List Char)) : List Char := lines.flatMap (· ++ ['\n'])

theorem newline_not_mem_splitLines (cs : List Char) : ∀ line ∈ splitLines cs, '\n' ∉ line := by
  induction cs with
  | nil => simp [splitLines]
  | cons c cs ih =>
    by_cases hc : c = '\n'
    · simpa [splitLines, hc] using ih
    · rw [splitLines, if_neg hc]
      split
      · simpa using Ne.symm hc
      · rename_i line lines heq
        rw [heq] at ih
        intro l hl
        rcases List.mem_cons.1 hl with rfl | hl
        · rw [List.mem_cons, not_or]
          exact ⟨Ne.symm hc, ih line List.mem_cons_self⟩
        · exact ih l (List.mem_cons_of_mem _ hl)

theorem splitLines_line {line : List Char} (h : '\n' ∉ line) (cs : List Char) :
    splitLines (line ++ '\n' :: cs) = line :: splitLines cs := by
  induction line with
  | nil => simp [splitLines]
  | cons c line ih =>
    rw [List.mem_cons, not_or] at h
    rw [List.cons_append, splitLines, if_neg (Ne.symm h.1), ih h.2]

theorem splitLines_joinLines {lines : List (List Char)} (h : ∀ line ∈ lines, '\n' ∉ line) :
    splitLines (joinLines lines) = lines := by
  induction lines with
  | nil => rfl
  | cons line lines ih =>
    have hjoin : joinLines (line :: lines) = line ++ '\n' :: joinLines lines := by
      simp [joinLines]
    rw [hjoin, splitLines_line (h line List.mem_cons_self),
      ih fun l hl => h l (List.mem_cons_of_mem _ hl)]

/-- The line without a carriage return at its end. -/
def stripCr (line : List Char) : List Char :=
  if line.getLast? = some '\r' then line.dropLast else line

theorem not_mem_stripCr {c : Char} {line : List Char} (h : c ∉ line) : c ∉ stripCr line := by
  unfold stripCr
  split
  · exact fun hmem => h (List.mem_of_mem_dropLast hmem)
  · exact h

/-- The lines of a text whose line breaks may have a carriage return before them.  One
that ends the text is no part of a break. -/
def textLines (text : List Char) : List (List Char) :=
  let lines := splitLines text
  if text.getLast? = some '\n' then lines.map stripCr
  else lines.dropLast.map stripCr ++ lines.getLast?.toList

theorem newline_not_mem_textLines (text : List Char) : ∀ line ∈ textLines text, '\n' ∉ line := by
  have hlines := newline_not_mem_splitLines text
  intro line hline
  unfold textLines at hline
  dsimp only at hline
  split at hline
  · obtain ⟨raw, hraw, rfl⟩ := List.mem_map.1 hline
    exact not_mem_stripCr (hlines raw hraw)
  · rcases List.mem_append.1 hline with hline | hline
    · obtain ⟨raw, hraw, rfl⟩ := List.mem_map.1 hline
      exact not_mem_stripCr (hlines raw (List.mem_of_mem_dropLast hraw))
    · exact hlines line (List.mem_of_getLast? (Option.mem_toList.1 hline))

/-! ## Entries -/

section Entries

variable {blank : Char → Bool}

/-- The text without blanks at its two ends. -/
def strip (blank : Char → Bool) (cs : List Char) : List Char :=
  ((cs.dropWhile blank).reverse.dropWhile blank).reverse

/-- A line that is read as a key with a value. -/
structure Entry where
  indent : Nat
  key : List Char
  value : List Char
deriving DecidableEq, Repr

/-- What is before the colon is no key: nothing, a comment or an item. -/
def notKey : List Char → Bool
  | [] => true
  | c :: _ => c = '#' || c = '-'

/-- A line as an entry. -/
def readEntry (blank : Char → Bool) (line : List Char) : Option Entry :=
  let body := line.dropWhile blank
  match splitOnce ':' body with
  | none => none
  | some (key, rest) =>
    if notKey key then none else some ⟨line.length - body.length, key, strip blank rest⟩

/-- The entries of a text. -/
def entries (blank : Char → Bool) (text : List Char) : List Entry :=
  (splitLines text).filterMap (readEntry blank)

/-- Neither end is blank. -/
def Inked (blank : Char → Bool) (cs : List Char) : Prop :=
  (∀ c, cs.head? = some c → blank c = false) ∧ ∀ c, cs.getLast? = some c → blank c = false

theorem strip_of_inked {cs : List Char} (h : Inked blank cs) : strip blank cs = cs := by
  have hfirst : cs.dropWhile blank = cs := by
    cases cs with
    | nil => rfl
    | cons c cs => rw [List.dropWhile_cons, h.1 c rfl, if_neg Bool.false_ne_true]
  have hlast : cs.reverse.dropWhile blank = cs.reverse := by
    cases hrev : cs.reverse with
    | nil => rfl
    | cons c rest =>
      have hget : cs.getLast? = some c := by rw [← List.head?_reverse, hrev]; rfl
      rw [List.dropWhile_cons, h.2 c hget, if_neg Bool.false_ne_true]
  rw [strip, hfirst, hlast, List.reverse_reverse]

theorem not_blank_of_head?_dropWhile (cs : List Char) {c : Char}
    (h : (cs.dropWhile blank).head? = some c) : blank c = false := by
  have hnot := List.head?_dropWhile_not blank cs
  rw [h] at hnot
  exact hnot

theorem inked_strip (cs : List Char) : Inked blank (strip blank cs) := by
  constructor
  · intro c hc
    have hprefix : strip blank cs <+: cs.dropWhile blank := List.rdropWhile_prefix blank _
    obtain ⟨rest, hrest⟩ := hprefix
    refine not_blank_of_head?_dropWhile cs ?_
    rw [← hrest, List.head?_append, hc]
    rfl
  · intro c hc
    rw [strip, List.getLast?_reverse] at hc
    exact not_blank_of_head?_dropWhile _ hc

theorem mem_of_mem_strip {c : Char} {cs : List Char} (h : c ∈ strip blank cs) : c ∈ cs := by
  rw [strip, List.mem_reverse] at h
  have hdrop := (List.dropWhile_sublist blank).subset h
  rw [List.mem_reverse] at hdrop
  exact (List.dropWhile_sublist blank).subset hdrop

theorem strip_append_blank {c : Char} (hc : blank c = true) (cs : List Char) :
    strip blank (cs ++ [c]) = strip blank cs := by
  unfold strip
  by_cases hall : cs.dropWhile blank = []
  · rw [List.dropWhile_append, hall]
    simp [hc]
  · have hne : (cs.dropWhile blank).isEmpty = false := List.isEmpty_eq_false_iff.2 hall
    rw [List.dropWhile_append, hne]
    simp [hc]

theorem splitOnce_append_ne {sep c : Char} (hc : c ≠ sep) (cs : List Char) :
    splitOnce sep (cs ++ [c]) = (splitOnce sep cs).map fun r => (r.1, r.2 ++ [c]) := by
  induction cs with
  | nil => simp [splitOnce, hc]
  | cons d cs ih =>
    rw [List.cons_append, splitOnce, splitOnce]
    split
    · rfl
    · rw [ih, Option.map_map, Option.map_map]
      rfl

/-- A blank at the end of a line is not read. -/
theorem readEntry_append_blank {c : Char} (hc : blank c = true) (hcolon : c ≠ ':')
    (line : List Char) : readEntry blank (line ++ [c]) = readEntry blank line := by
  unfold readEntry
  rw [List.dropWhile_append]
  by_cases hall : line.dropWhile blank = []
  · simp [hall, hc, splitOnce]
  · have hne : (line.dropWhile blank).isEmpty = false := List.isEmpty_eq_false_iff.2 hall
    simp only [hne, Bool.false_eq_true, if_false]
    rw [splitOnce_append_ne hcolon]
    cases splitOnce ':' (line.dropWhile blank) with
    | none => rfl
    | some r =>
      simp only [Option.map_some, List.length_append, List.length_singleton, strip_append_blank hc,
        Nat.add_sub_add_right]

theorem readEntry_stripCr (hcr : blank '\r' = true) (line : List Char) :
    readEntry blank (stripCr line) = readEntry blank line := by
  unfold stripCr
  split
  · rename_i hlast
    obtain ⟨init, rfl⟩ := List.getLast?_eq_some_iff.1 hlast
    rw [List.dropLast_concat, readEntry_append_blank hcr (by decide)]
  · rfl

/-- A text has the entries of its lines, with or without their carriage returns. -/
theorem entries_textLines (hcr : blank '\r' = true) (text : List Char) :
    (textLines text).filterMap (readEntry blank) = entries blank text := by
  have hmap : ∀ lines : List (List Char),
      (lines.map stripCr).filterMap (readEntry blank) = lines.filterMap (readEntry blank) := by
    intro lines
    rw [List.filterMap_map]
    congr 1
    funext line
    exact readEntry_stripCr hcr line
  unfold textLines entries
  dsimp only
  split
  · exact hmap _
  · rw [List.filterMap_append, hmap, ← List.filterMap_append]
    rcases List.eq_nil_or_concat (splitLines text) with hnil | ⟨init, last, hlines⟩
    · rw [hnil]
      rfl
    · rw [hlines, List.concat_eq_append, List.dropLast_concat, List.getLast?_concat,
        Option.toList_some]

end Entries

section Keys

variable {blank : Char → Bool}

/-- What a line that is an entry looks like. -/
theorem readEntry_eq_some {line : List Char} {e : Entry} (h : readEntry blank line = some e) :
    ∃ rest, line.dropWhile blank = e.key ++ ':' :: rest ∧ ':' ∉ e.key ∧ notKey e.key = false ∧
      e.indent = (line.takeWhile blank).length ∧ e.value = strip blank rest := by
  simp only [readEntry] at h
  split at h
  · cases h
  · rename_i key rest hsplit
    split at h
    · cases h
    · rename_i hkey
      cases h
      obtain ⟨hbody, hcolon⟩ := splitOnce_eq_some hsplit
      refine ⟨rest, hbody, hcolon, eq_false_of_ne_true hkey, ?_, rfl⟩
      have hlength := congrArg List.length (List.takeWhile_append_dropWhile (p := blank) (l := line))
      rw [List.length_append] at hlength
      show line.length - (line.dropWhile blank).length = _
      omega

/-- A line written as an entry is read as that entry. -/
theorem readEntry_written {indent key value : List Char} (hindent : ∀ c ∈ indent, blank c = true)
    (hspace : blank ' ' = true) (hhead : ∀ c, key.head? = some c → blank c = false)
    (hcolon : ':' ∉ key) (hkey : notKey key = false) (hvalue : Inked blank value) :
    readEntry blank (indent ++ key ++ ": ".toList ++ value) = some ⟨indent.length, key, value⟩ := by
  have hbody : (indent ++ key ++ ": ".toList ++ value).dropWhile blank =
      key ++ ':' :: ' ' :: value := by
    show (indent ++ key ++ [':', ' '] ++ value).dropWhile blank = _
    rw [List.append_assoc, List.append_assoc, List.dropWhile_append_of_pos hindent]
    cases key with
    | nil => cases hkey
    | cons c key =>
      rw [List.cons_append, List.dropWhile_cons, hhead c rfl, if_neg Bool.false_ne_true]
      simp
  have hstrip : strip blank (' ' :: value) = value := by
    have hdrop : strip blank (' ' :: value) = strip blank value := by
      rw [strip, strip, List.dropWhile_cons_of_pos hspace]
    rw [hdrop, strip_of_inked hvalue]
  unfold readEntry
  rw [hbody]
  simp only [splitOnce_append hcolon, hkey, Bool.false_eq_true, if_false, hstrip]
  congr 2
  simp

/-- A value that is read back when it is written behind a key. -/
structure OnLine (blank : Char → Bool) (value : List Char) : Prop where
  one_line : '\n' ∉ value
  inked : Inked blank value

theorem onLine_of_readEntry {line : List Char} {e : Entry} (hline : '\n' ∉ line)
    (h : readEntry blank line = some e) : OnLine blank e.value := by
  obtain ⟨rest, hbody, -, -, -, hvalue⟩ := readEntry_eq_some h
  rw [hvalue]
  refine ⟨fun hmem => hline ?_, inked_strip rest⟩
  refine (List.dropWhile_sublist blank).subset ?_
  rw [hbody]
  exact List.mem_append_right _ (List.mem_cons_of_mem _ (mem_of_mem_strip hmem))

/-- A line that starts with a key and its colon is an entry. -/
theorem readEntry_of_prefix {k line rest : List Char} (hk : ':' ∉ k) (hkey : notKey k = false)
    (h : line.dropWhile blank = k ++ ':' :: rest) :
    ∃ e, readEntry blank line = some e ∧ e.key = k ∧ e.value = strip blank rest := by
  refine ⟨⟨line.length - (k ++ ':' :: rest).length, k, strip blank rest⟩, ?_, rfl, rfl⟩
  simp only [readEntry, h, splitOnce_append hk, hkey, Bool.false_eq_true, if_false]

/-- A line starts with a key and its colon when that is its key. -/
theorem isPrefixOf?_key {k key : List Char} (hk : ':' ∉ k) (hkey : ':' ∉ key) (rest : List Char) :
    (k ++ [':']).isPrefixOf? (key ++ ':' :: rest) = if key = k then some rest else none := by
  have hread : ∀ zs, (k ++ [':']).isPrefixOf? (key ++ ':' :: rest) = some zs ↔
      key = k ∧ rest = zs := by
    intro zs
    rw [List.isPrefixOf?_eq_some_iff_append_eq, List.append_assoc]
    constructor
    · intro h
      have hsplit := congrArg (splitOnce ':') h
      rw [List.singleton_append, splitOnce_append hk, splitOnce_append hkey, Option.some.injEq,
        Prod.mk.injEq] at hsplit
      exact ⟨hsplit.1.symm, hsplit.2.symm⟩
    · rintro ⟨rfl, rfl⟩
      rfl
  ext zs
  rw [hread]
  split <;> simp_all

end Keys

/-! ## Settings -/

/-- A path of keys, outermost first, with its value. -/
abbrev Setting := List (List Char) × List Char

/-- The path of each entry, below the entries it stands under so far, innermost
first. -/
def paths : List (Nat × List Char) → List (Nat × List Char) → List (List (List Char))
  | _, [] => []
  | above, e :: es =>
    let outer := above.dropWhile fun f => e.1 ≤ f.1
    ((outer.map Prod.snd).reverse ++ [e.2]) :: paths (e :: outer) es

/-- The entries with their paths. -/
def settingsBelow (above : List (Nat × List Char)) (es : List Entry) : List Setting :=
  (paths above (es.map fun e => (e.indent, e.key))).zip (es.map Entry.value)

/-- The settings of a text. -/
def settings (blank : Char → Bool) (text : List Char) : List Setting :=
  settingsBelow [] (entries blank text)

theorem settingsBelow_cons (above : List (Nat × List Char)) (e : Entry) (es : List Entry) :
    settingsBelow above (e :: es) =
      ((((above.dropWhile fun f => e.indent ≤ f.1).map Prod.snd).reverse ++ [e.key]), e.value) ::
        settingsBelow ((e.indent, e.key) :: above.dropWhile fun f => e.indent ≤ f.1) es := rfl

/-- The key of a setting. -/
def Setting.key (s : Setting) : List Char := s.1.getLastD []

/-- The settings are the entries, with the keys above them. -/
theorem map_settingsBelow (above : List (Nat × List Char)) (es : List Entry) :
    (settingsBelow above es).map (fun s => (Setting.key s, s.2)) =
      es.map fun e => (e.key, e.value) := by
  induction es generalizing above with
  | nil => rfl
  | cons e es ih =>
    rw [settingsBelow_cons, List.map_cons, List.map_cons, ih]
    simp [Setting.key]

theorem mem_settings_iff {blank : Char → Bool} {text key value : List Char} :
    (∃ s ∈ settings blank text, Setting.key s = key ∧ s.2 = value) ↔
      ∃ e ∈ entries blank text, e.key = key ∧ e.value = value := by
  have hmem := congrArg (fun l => (key, value) ∈ l) (map_settingsBelow [] (entries blank text))
  rw [settings]
  simpa only [List.mem_map, Prod.mk.injEq, eq_iff_iff] using hmem

theorem onLine_of_mem_settings {blank : Char → Bool} {text : List Char} {s : Setting}
    (h : s ∈ settings blank text) : OnLine blank s.2 := by
  obtain ⟨e, he, -, hvalue⟩ := mem_settings_iff.1 ⟨s, h, rfl, rfl⟩
  obtain ⟨line, hline, hread⟩ := List.mem_filterMap.1 he
  rw [← hvalue]
  exact onLine_of_readEntry (newline_not_mem_splitLines text line hline) hread

/-- A change of values from top to bottom: what a key and its value make of the flag
and the value. -/
abbrev Edit := Bool → List Char → List Char → Bool × List Char

/-- The entries with their values changed. -/
def editEntries (f : Edit) : Bool → List Entry → List Entry
  | _, [] => []
  | flag, e :: es =>
    { e with value := (f flag e.key e.value).2 } :: editEntries f (f flag e.key e.value).1 es

/-- The settings with their values changed. -/
def editSettings (f : Edit) : Bool → List Setting → List Setting
  | _, [] => []
  | flag, s :: ss =>
    (s.1, (f flag (Setting.key s) s.2).2) :: editSettings f (f flag (Setting.key s) s.2).1 ss

theorem settingsBelow_editEntries (f : Edit) (flag : Bool) (above : List (Nat × List Char))
    (es : List Entry) :
    settingsBelow above (editEntries f flag es) = editSettings f flag (settingsBelow above es) := by
  induction es generalizing flag above with
  | nil => rfl
  | cons e es ih =>
    rw [editEntries, settingsBelow_cons, settingsBelow_cons, editSettings, ih]
    simp [Setting.key]

/-- Every setting at the path has a setting of the key above it, or the flag says
so from the start. -/
def Sheltered (path : List (List Char)) (key : List Char) : Bool → List Setting → Prop
  | _, [] => True
  | seen, s :: ss =>
    (s.1 = path → seen = true) ∧ Sheltered path key (seen || Setting.key s = key) ss

theorem sheltered_settingsBelow (a b : List Char) {seen : Bool} {above : List (Nat × List Char)}
    (habove : ∀ f ∈ above, f.2 = a → seen = true) (es : List Entry) :
    Sheltered [a, b] a seen (settingsBelow above es) := by
  induction es generalizing seen above with
  | nil => trivial
  | cons e es ih =>
    rw [settingsBelow_cons]
    have houter : ∀ f ∈ above.dropWhile (fun f => e.indent ≤ f.1), f.2 = a → seen = true :=
      fun f hf => habove f ((List.dropWhile_sublist _).subset hf)
    refine ⟨fun hpath => ?_, ih ?_⟩
    · have hkeys : ((above.dropWhile fun f => decide (e.indent ≤ f.1)).map Prod.snd).reverse =
          [a] := by
        have hsplit : ((above.dropWhile fun f => decide (e.indent ≤ f.1)).map Prod.snd).reverse ++
          [e.key] = [a] ++ [b] := hpath
        exact (List.append_inj' hsplit rfl).1
      have hmem : a ∈ (above.dropWhile fun f => decide (e.indent ≤ f.1)).map Prod.snd := by
        rw [← List.mem_reverse, hkeys]
        exact List.mem_singleton_self a
      obtain ⟨f, hf, hfa⟩ := List.mem_map.1 hmem
      exact houter f hf hfa
    · intro f hf hfa
      rcases List.mem_cons.1 hf with rfl | hf
      · have hkey : Setting.key ((((above.dropWhile fun f => decide (e.indent ≤ f.1)).map
            Prod.snd).reverse ++ [e.key]), e.value) = a := by
          simpa [Setting.key] using hfa
        rw [hkey]
        simp
      · rw [houter f hf hfa]
        rfl

/-- A setting at a path of two keys stands below a line of the first. -/
theorem sheltered_settings (blank : Char → Bool) (a b : List Char) (text : List Char) :
    Sheltered [a, b] a false (settings blank text) :=
  sheltered_settingsBelow a b (fun _ h => absurd h List.not_mem_nil) _

end Lib
