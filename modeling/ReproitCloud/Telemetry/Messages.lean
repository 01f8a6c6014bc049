import ReproitCloud.Lib.Lexemes
import ReproitCloud.Telemetry.Buckets

/-!
# Normalized messages

`normalize_message` is a loop over characters.  What it does to a message is a rewriting
of its maximal runs (`normalizeMessage_eq`): a run of letters and digits is a token and
becomes its class, a run of whitespace becomes one space, and any other character stays.
At the end the ends are trimmed.

The class of a token is a token that is its own class, so the result is a normal form
(`normalizeMessage_normal`): it is normalized to itself, its only whitespace are single
spaces between other characters, and it does not see what the numbers of the message are
and how its blanks are written.
-/

namespace ReproitCloud

open Lib

/-! ## Runs of a message -/

/-- What a character of a message is part of. -/
inductive CharKind where
  | word
  | blank
  | other
deriving DecidableEq, Repr

def charKind (c : Char) : CharKind :=
  if c.isAlphanum then .word else if isWhitespace c then .blank else .other

/-- Words and blanks are maximal runs, and other characters stand alone. -/
def lexemes : Grouping Char CharKind where
  kind := charKind
  joined
    | .word | .blank => true
    | .other => false

/-- What becomes of a run. -/
def normalizeRun (r : List Char) : List Char :=
  if r.all Char.isAlphanum then normalizeToken r else if r.all isWhitespace then [' '] else r

/-- A message in which every number, a token of decimal digits, is replaced by a marker,
and every run of whitespace by a space, without blanks at its ends. -/
def marked (m : List Char) : List (Option Char) :=
  trimEnds (fun c => c.any isWhitespace) ((lexemes.runs m).flatMap fun r =>
    if r.all Char.isDigit then [none] else if r.all isWhitespace then [some ' '] else r.map some)

/-- The form that messages are normalized to. -/
structure SingleSpaced (m : List Char) : Prop where
  spaces : ∀ c ∈ m, isWhitespace c = true → c = ' '
  first : m.head? ≠ some ' '
  last : m.getLast? ≠ some ' '
  single : ¬ [' ', ' '] <:+: m

section Normal

variable {c : Char} {k : CharKind} {r m : List Char} {rs : List (List Char)}

theorem isWhitespace_of_isAlphanum (h : c.isAlphanum = true) : isWhitespace c = false := by
  have hcode : (65 ≤ c.toNat ∧ c.toNat ≤ 90 ∨ 97 ≤ c.toNat ∧ c.toNat ≤ 122) ∨
      48 ≤ c.toNat ∧ c.toNat ≤ 57 := by
    simpa [Char.isAlphanum, Char.isAlpha, Char.isUpper, Char.isLower, Char.isDigit,
      UInt32.le_iff_toNat_le] using h
  simp only [isWhitespace, Bool.or_eq_false_iff, Bool.and_eq_false_iff, decide_eq_false_iff_not]
  omega

theorem isWhitespace_eq (c : Char) : isWhitespace c = decide (charKind c = .blank) := by
  unfold charKind
  split
  · rename_i hc
    simp [isWhitespace_of_isAlphanum hc]
  · split
    · rename_i hc
      simp [hc]
    · rename_i hc
      simp [hc]

theorem isAlphanum_eq (c : Char) : c.isAlphanum = decide (charKind c = .word) := by
  unfold charKind
  split
  · rename_i hc
    simp [hc]
  · rename_i hc
    split <;> simp [hc]

/-- The class of a token is a token. -/
theorem normalizeToken_isRun (h : lexemes.IsRun .word r) : lexemes.IsRun .word (normalizeToken r) := by
  have hself : ∀ r : List Char, r ≠ [] → r.all Char.isAlphanum = true → lexemes.IsRun .word r := by
    intro r hne hall
    refine ⟨hne, fun c hc => ?_, fun hjoined => by cases hjoined⟩
    have hword := List.all_eq_true.1 hall c hc
    rw [isAlphanum_eq] at hword
    exact of_decide_eq_true hword
  unfold normalizeToken
  split
  · exact hself _ (by decide) (by decide)
  · simp only
    split
    · exact hself _ (by decide) (by decide)
    · split
      · exact hself _ (by decide) (by decide)
      · split
        · exact hself _ (by decide) (by decide)
        · exact h

/-- The class of a token is its own class. -/
theorem normalizeToken_normalizeToken (t : List Char) :
    normalizeToken (normalizeToken t) = normalizeToken t := by
  have hclass : normalizeToken t = ['N'] ∨ normalizeToken t = "0xID".toList ∨
      normalizeToken t = "ID".toList ∨ normalizeToken t = t := by
    unfold normalizeToken
    split
    · exact .inl rfl
    · simp only
      split
      · exact .inr (.inl rfl)
      · split
        · exact .inr (.inr (.inl rfl))
        · split
          · exact .inr (.inr (.inl rfl))
          · exact .inr (.inr (.inr rfl))
  rcases hclass with h | h | h | h
  · rw [h]
    decide
  · rw [h]
    decide
  · rw [h]
    decide
  · rw [h, h]

/-! ## The loop -/

theorem IsRun.alphanum (h : lexemes.IsRun .word r) : r.all Char.isAlphanum = true :=
  (h.all_iff (q := fun k => k = .word) isAlphanum_eq).trans (decide_eq_true rfl)

theorem normalizeRun_word (h : lexemes.IsRun .word r) : normalizeRun r = normalizeToken r := by
  rw [normalizeRun, h.all_iff (q := fun k => k = .word) isAlphanum_eq, if_pos (decide_eq_true rfl)]

theorem normalizeRun_blank (h : lexemes.IsRun .blank r) : normalizeRun r = [' '] := by
  rw [normalizeRun, h.all_iff (q := fun k => k = .word) isAlphanum_eq,
    h.all_iff (q := fun k => k = .blank) isWhitespace_eq]
  rfl

theorem normalizeRun_other (h : lexemes.IsRun .other r) : normalizeRun r = r := by
  rw [normalizeRun, h.all_iff (q := fun k => k = .word) isAlphanum_eq,
    h.all_iff (q := fun k => k = .blank) isWhitespace_eq]
  rfl

/-- The loop after some runs: what is written, whether a token is pending and whether a
space was the last. -/
structure LoopAt (rs : List (List Char)) (s : Normalizing) : Prop where
  out : s.flushToken.out = rs.flatMap normalizeRun
  token : s.token ≠ [] → ∃ r, rs.getLast? = some r ∧ lexemes.IsRun .word r
  space : s.lastWasSpace = true → ∃ r, rs.getLast? = some r ∧ lexemes.IsRun .blank r

namespace Normalizing

theorem flushToken_lastWasSpace (s : Normalizing) :
    s.flushToken.lastWasSpace = s.lastWasSpace := by
  unfold flushToken
  split <;> rfl

theorem next_blank {s : Normalizing} (hc : isWhitespace c = true) :
    s.next c = ⟨if s.lastWasSpace then s.flushToken.out else s.flushToken.out ++ [' '], true, []⟩ := by
  have hword : ¬ c.isAlphanum = true := fun h => by simp [isWhitespace_of_isAlphanum h] at hc
  simp [next, hword, hc, flushToken_lastWasSpace, flushToken_token]

theorem next_other {s : Normalizing} (hword : c.isAlphanum = false) (hc : isWhitespace c = false) :
    s.next c = ⟨s.flushToken.out ++ [c], false, []⟩ := by
  simp [next, hword, hc, flushToken_token]

/-- More blanks change nothing. -/
theorem foldl_next_blanks {s : Normalizing} (htoken : s.token = []) (hspace : s.lastWasSpace = true)
    {cs : List Char} (hcs : ∀ c ∈ cs, isWhitespace c = true) : cs.foldl next s = s := by
  induction cs with
  | nil => rfl
  | cons c cs ih =>
    rw [List.forall_mem_cons] at hcs
    have hnext : s.next c = s := by
      rw [next_blank hcs.1, if_pos hspace, flushToken_of_nil htoken, ← htoken, ← hspace]
    rw [List.foldl_cons, hnext, ih hcs.2]

end Normalizing

open Normalizing in
/-- The loop goes run by run. -/
theorem loopAt_foldl (h : lexemes.AreRuns rs) : LoopAt rs (rs.flatten.foldl next {}) := by
  induction rs using List.reverseRecOn with
  | nil => exact ⟨rfl, fun h => absurd rfl h, fun h => by cases h⟩
  | append_singleton rs r ih =>
    have hbefore := ih (h.of_isInfix (List.prefix_append rs [r]).isInfix)
    have hlast : (rs ++ [r]).getLast? = some r := List.getLast?_concat
    have hapart : ∀ q, rs.getLast? = some q → lexemes.Apart q r := by
      intro q hq
      exact (List.isChain_append.1 h.apart).2.2 q hq r rfl
    rw [List.flatten_append, List.flatten_singleton, List.foldl_append]
    generalize rs.flatten.foldl next {} = s at hbefore
    obtain ⟨k, hrun⟩ := h.each r (List.mem_append_right _ (List.mem_singleton.2 rfl))
    cases k with
    | word =>
      -- The run before is no word, so nothing is pending.
      have htoken : s.token = [] := by
        by_contra hne
        obtain ⟨q, hq, hword⟩ := hbefore.token hne
        exact absurd (hapart q hq .word hword hrun) (by decide)
      have hout := hbefore.out
      rw [flushToken_of_nil htoken] at hout
      rw [foldl_next_token (List.all_eq_true.1 (IsRun.alphanum hrun)) hrun.ne_nil, htoken,
        List.nil_append]
      refine ⟨?_, fun _ => ⟨r, hlast, hrun⟩, fun h => by cases h⟩
      rw [flushToken, if_neg hrun.ne_nil, List.flatMap_append, List.flatMap_singleton,
        normalizeRun_word hrun, ← hout]
    | blank =>
      have hspace : s.lastWasSpace = false := by
        by_contra hne
        obtain ⟨q, hq, hblank⟩ := hbefore.space (Bool.of_not_eq_false hne)
        exact absurd (hapart q hq .blank hblank hrun) (by decide)
      obtain ⟨c, cs, rfl⟩ := List.exists_cons_of_ne_nil hrun.ne_nil
      have hwhite : ∀ d ∈ c :: cs, isWhitespace d = true := by
        intro d hd
        rw [isWhitespace_eq]
        exact decide_eq_true (hrun.kind d hd)
      rw [List.forall_mem_cons] at hwhite
      have hturn : s.next c = ⟨s.flushToken.out ++ [' '], true, []⟩ := by
        rw [next_blank hwhite.1, hspace]
        rfl
      rw [List.foldl_cons, hturn, foldl_next_blanks rfl rfl hwhite.2]
      refine ⟨?_, fun h => absurd rfl h, fun _ => ⟨_, hlast, hrun⟩⟩
      rw [flushToken_of_nil rfl, List.flatMap_append, List.flatMap_singleton,
        normalizeRun_blank hrun, ← hbefore.out]
    | other =>
      obtain ⟨c, rfl⟩ := List.length_eq_one_iff.1 (hrun.alone rfl)
      have hkind : charKind c = .other := hrun.kind c (List.mem_singleton.2 rfl)
      have hword : c.isAlphanum = false := by simp [isAlphanum_eq, hkind]
      have hblank : isWhitespace c = false := by simp [isWhitespace_eq, hkind]
      rw [List.foldl_cons, List.foldl_nil, next_other hword hblank]
      refine ⟨?_, fun h => absurd rfl h, fun h => by cases h⟩
      rw [flushToken_of_nil rfl, List.flatMap_append, List.flatMap_singleton,
        normalizeRun_other hrun, ← hbefore.out]

/-- What `normalize_message` does to a message. -/
theorem normalizeMessage_eq (m : List Char) :
    normalizeMessage m = trimEnds isWhitespace (lexemes.rewrite normalizeRun m) := by
  have hloop := loopAt_foldl (lexemes.areRuns_runs m)
  rw [lexemes.flatten_runs] at hloop
  rw [normalizeMessage, hloop.out]
  rfl

/-! ## The normal form -/

theorem normalizeRun_keepsKinds : lexemes.KeepsKinds normalizeRun := by
  intro k r hrun
  cases k with
  | word =>
    rw [normalizeRun_word hrun]
    exact normalizeToken_isRun hrun
  | blank =>
    rw [normalizeRun_blank hrun]
    refine ⟨List.cons_ne_nil _ _, fun c hc => ?_, fun h => by cases h⟩
    rw [List.mem_singleton.1 hc]
    decide
  | other =>
    rw [normalizeRun_other hrun]
    exact hrun

theorem normalizeRun_normalizeRun (hrun : lexemes.IsRun k r) :
    normalizeRun (normalizeRun r) = normalizeRun r := by
  have hkept := normalizeRun_keepsKinds k r hrun
  cases k with
  | word =>
    rw [normalizeRun_word hkept, normalizeRun_word hrun, normalizeToken_normalizeToken]
  | blank => rw [normalizeRun_blank hkept, normalizeRun_blank hrun]
  | other => rw [normalizeRun_other hkept]

theorem normalizeMessage_trimEnds (m : List Char) :
    normalizeMessage (trimEnds isWhitespace m) = normalizeMessage m := by
  rw [normalizeMessage_eq, normalizeMessage_eq,
    Grouping.rewrite_trimEnds (q := fun k => k = .blank) isWhitespace_eq normalizeRun_keepsKinds,
    trimEnds_trimEnds]

theorem normalizeMessage_normalizeMessage (m : List Char) :
    normalizeMessage (normalizeMessage m) = normalizeMessage m := by
  rw [normalizeMessage_eq m, normalizeMessage_trimEnds, normalizeMessage_eq,
    Grouping.rewrite_rewrite normalizeRun_keepsKinds]
  congr 1
  exact Grouping.rewrite_congr fun _ _ => normalizeRun_normalizeRun

/-- The runs of what is written, before the ends are trimmed. -/
theorem areRuns_normalized (m : List Char) :
    lexemes.AreRuns ((lexemes.runs m).map normalizeRun) :=
  (lexemes.areRuns_runs m).map normalizeRun_keepsKinds

/-- A blank run of what is written is a space. -/
theorem blank_of_mem_normalized (hr : r ∈ (lexemes.runs m).map normalizeRun)
    (hblank : lexemes.IsRun .blank r) : r = [' '] := by
  obtain ⟨q, hq, rfl⟩ := List.mem_map.1 hr
  obtain ⟨k, hrun⟩ := (lexemes.areRuns_runs m).each q hq
  obtain rfl := (normalizeRun_keepsKinds k q hrun).kind_unique hblank
  exact normalizeRun_blank hrun

theorem singleSpaced_normalizeMessage (m : List Char) : SingleSpaced (normalizeMessage m) := by
  have hruns := areRuns_normalized m
  have hin : normalizeMessage m <:+: ((lexemes.runs m).map normalizeRun).flatten := by
    rw [normalizeMessage_eq, Grouping.rewrite, List.flatMap_def]
    exact isInfix_trimEnds _ _
  refine ⟨fun c hc hblank => ?_, fun h => ?_, fun h => ?_, fun h => ?_⟩
  · obtain ⟨r, hr, hcr⟩ := List.mem_flatten.1 (hin.subset hc)
    obtain ⟨k, hrun⟩ := hruns.each r hr
    rw [isWhitespace_eq, decide_eq_true_eq, ← show lexemes.kind c = charKind c from rfl,
      hrun.kind c hcr] at hblank
    subst hblank
    rw [blank_of_mem_normalized hr hrun] at hcr
    exact List.mem_singleton.1 hcr
  · rw [normalizeMessage_eq] at h
    exact absurd (head?_trimEnds h) (by decide)
  · rw [normalizeMessage_eq] at h
    exact absurd (getLast?_trimEnds h) (by decide)
  · have hchain := hruns.isChain_flatten (k := .blank) rfl fun r hr hrun => by
      rw [blank_of_mem_normalized hr hrun]
      rfl
    have hpair := List.IsChain.infix hchain (h.trans hin)
    rw [List.isChain_pair] at hpair
    exact hpair (by decide)

/-! ## Marked messages -/

/-- The shortest run that is marked like another. -/
def standFor (r : List Char) : List Char :=
  if r.all Char.isDigit then ['0'] else if r.all isWhitespace then [' '] else r

theorem isAlphanum_of_isDigit (h : c.isDigit = true) : c.isAlphanum = true := by
  simp [Char.isAlphanum, h]

theorem not_all_isDigit (hrun : lexemes.IsRun k r) (hk : k ≠ .word) : r.all Char.isDigit = false := by
  rw [List.all_eq_false]
  obtain ⟨c, hc⟩ := List.exists_mem_of_ne_nil r hrun.ne_nil
  refine ⟨c, hc, fun hdigit => hk ?_⟩
  have hword := isAlphanum_of_isDigit hdigit
  rw [isAlphanum_eq] at hword
  exact (hrun.kind c hc).symm.trans (of_decide_eq_true hword)

theorem standFor_keepsKinds : lexemes.KeepsKinds standFor := by
  intro k r hrun
  unfold standFor
  split
  · rename_i hdigits
    by_cases hk : k = .word
    · subst hk
      refine ⟨List.cons_ne_nil _ _, fun c hc => ?_, fun h => by cases h⟩
      rw [List.mem_singleton.1 hc]
      decide
    · rw [not_all_isDigit hrun hk] at hdigits
      cases hdigits
  · split
    · rename_i hblank
      rw [hrun.all_iff (q := fun k => k = .blank) isWhitespace_eq, decide_eq_true_eq] at hblank
      subst hblank
      refine ⟨List.cons_ne_nil _ _, fun c hc => ?_, fun h => by cases h⟩
      rw [List.mem_singleton.1 hc]
      decide
    · exact hrun

theorem normalizeRun_standFor (hrun : lexemes.IsRun k r) :
    normalizeRun (standFor r) = normalizeRun r := by
  unfold standFor
  split
  · rename_i hdigits
    have hword : r.all Char.isAlphanum = true := by
      rw [List.all_eq_true] at hdigits ⊢
      exact fun c hc => isAlphanum_of_isDigit (hdigits c hc)
    rw [normalizeRun, normalizeRun, if_pos hword, normalizeToken, normalizeToken, if_pos hdigits]
    decide
  · split
    · rename_i hblank
      rw [hrun.all_iff (q := fun k => k = .blank) isWhitespace_eq, decide_eq_true_eq] at hblank
      subst hblank
      rw [normalizeRun_blank hrun]
      decide
    · rfl

/-- The normal form is a function of the marked message. -/
theorem normalizeMessage_marked (m : List Char) :
    normalizeMessage ((marked m).map fun c => c.getD '0') = normalizeMessage m := by
  have hstand : (marked m).map (fun c => c.getD '0') =
      trimEnds isWhitespace (lexemes.rewrite standFor m) := by
    have hread : ∀ c : Option Char, isWhitespace (c.getD '0') = c.any isWhitespace := by
      intro c
      cases c with
      | none => decide
      | some c => rfl
    rw [marked, ← trimEnds_map fun c _ => hread c, List.map_flatMap, Grouping.rewrite]
    congr 2
    funext r
    unfold standFor
    split
    · rfl
    · split
      · rfl
      · rw [List.map_map]
        exact List.map_id _
  rw [hstand, normalizeMessage_trimEnds, normalizeMessage_eq, normalizeMessage_eq,
    Grouping.rewrite_rewrite standFor_keepsKinds]
  congr 1
  exact Grouping.rewrite_congr fun _ _ => normalizeRun_standFor

/-- `normalize_message` gives a normal form: it is normalized to itself, it has single spaces
between other characters and no other whitespace, and messages that differ in their numbers
and blanks have the same. -/
theorem normalizeMessage_normal (m m' : List Char) :
    normalizeMessage (normalizeMessage m) = normalizeMessage m ∧
      SingleSpaced (normalizeMessage m) ∧
      (marked m = marked m' → normalizeMessage m = normalizeMessage m') := by
  refine ⟨normalizeMessage_normalizeMessage m, singleSpaced_normalizeMessage m, fun h => ?_⟩
  rw [← normalizeMessage_marked m, h, normalizeMessage_marked m']

theorem normalizeMessage_normal_retries :
    normalizeMessage "retry 12 of 3".toList = normalizeMessage " retry\t 7 of  40".toList :=
  (normalizeMessage_normal _ _).2.2 (by decide)

end Normal

end ReproitCloud
