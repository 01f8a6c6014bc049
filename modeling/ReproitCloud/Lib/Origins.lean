import ReproitCloud.Lib.DecimalText

/-!
# Web origins

The origin of a URL is its scheme, its host and its port.  `webOrigin` reads it off
a text: the scheme stands before the first `://`, the authority after it up to a
slash, a question mark or a hash, and the host and port at the end of the authority,
behind any user information.  Letter case does not matter in scheme and host, nor
does it matter whether the default port of a scheme is written.

`writtenOrigin` keeps less of a URL, only the scheme in small letters and the
authority as written.  Two texts with the same written origin have the same origin
(`sameOrigin_of_written`).  The converse fails for hosts and ports that are spelled
in two ways.
-/

namespace Lib

/-! ## Splitting at a text -/

/-- The text before and after the first occurrence of a separator. -/
def splitOnceText (sep : List Char) : List Char → Option (List Char × List Char)
  | [] => (sep.isPrefixOf? []).map fun rest => ([], rest)
  | c :: cs =>
    match sep.isPrefixOf? (c :: cs) with
    | some rest => some ([], rest)
    | none => (splitOnceText sep cs).map fun r => (c :: r.1, r.2)

theorem isPrefixOf?_eq_some {sep cs rest : List Char} :
    sep.isPrefixOf? cs = some rest ↔ cs = sep ++ rest := by
  induction sep generalizing cs with
  | nil => simp [List.isPrefixOf?, eq_comm]
  | cons d sep ih =>
    cases cs with
    | nil => simp [List.isPrefixOf?]
    | cons c cs =>
      rw [List.isPrefixOf?]
      split
      · rename_i hhead
        rw [ih, eq_of_beq hhead]
        simp
      · rename_i hhead
        have hne : c ≠ d := fun h => hhead (by rw [h, beq_self_eq_true])
        simp [hne]

theorem isPrefixOf?_eq_none {sep cs : List Char} :
    sep.isPrefixOf? cs = none ↔ ¬sep <+: cs := by
  rw [Option.eq_none_iff_forall_ne_some]
  constructor
  · rintro h ⟨rest, rfl⟩
    exact h rest (isPrefixOf?_eq_some.mpr rfl)
  · rintro h rest hrest
    exact h ⟨rest, (isPrefixOf?_eq_some.mp hrest).symm⟩

theorem splitOnceText_eq_some {sep s a b : List Char}
    (h : splitOnceText sep s = some (a, b)) : s = a ++ (sep ++ b) := by
  induction s generalizing a with
  | nil =>
    obtain ⟨rest, hrest, hpair⟩ := Option.map_eq_some_iff.mp h
    cases hpair
    simpa using isPrefixOf?_eq_some.mp hrest
  | cons c cs ih =>
    rw [splitOnceText] at h
    split at h
    · rename_i rest hrest
      cases h
      simpa using isPrefixOf?_eq_some.mp hrest
    · obtain ⟨⟨a', b'⟩, hsplit, hpair⟩ := Option.map_eq_some_iff.mp h
      cases hpair
      rw [ih hsplit]
      rfl

/-- The function moves no character to or off the separator. -/
def Keeps (f : Char → Char) (sep : List Char) : Prop := ∀ c, ∀ d ∈ sep, f c = d ↔ c = d

theorem Keeps.map_eq_iff {f : Char → Char} {sep l : List Char} (h : Keeps f sep) :
    sep = l.map f ↔ sep = l := by
  induction sep generalizing l with
  | nil => simp [eq_comm]
  | cons d sep ih =>
    have htail : Keeps f sep := fun c e he => h c e (List.mem_cons_of_mem d he)
    cases l with
    | nil => simp
    | cons c l =>
      have hhead := h c d List.mem_cons_self
      rw [List.map_cons, List.cons.injEq, List.cons.injEq, ih htail, eq_comm, hhead, eq_comm]

theorem Keeps.prefix_map_iff {f : Char → Char} {sep l : List Char} (h : Keeps f sep) :
    sep <+: l.map f ↔ sep <+: l := by
  rw [List.prefix_map_iff]
  constructor
  · rintro ⟨m, hm, hsep⟩
    rwa [h.map_eq_iff.mp hsep]
  · intro hsep
    exact ⟨sep, hsep, h.map_eq_iff.mpr rfl⟩

/-- What stands behind a part that is as long as the separator does not matter. -/
theorem prefix_append_iff {sep l : List Char} (hlen : sep.length ≤ l.length) (b : List Char) :
    sep <+: l ++ b ↔ sep <+: l :=
  ⟨fun h => List.prefix_of_prefix_length_le h (List.prefix_append l b) hlen,
    fun h => h.trans (List.prefix_append l b)⟩

/-- The split of a text is that of any text with the same part before the separator,
also after a change of other characters in it. -/
theorem splitOnceText_map {f : Char → Char} {sep s a b : List Char} (hf : Keeps f sep)
    (h : splitOnceText sep s = some (a, b)) (b' : List Char) :
    splitOnceText sep (a.map f ++ (sep ++ b')) = some (a.map f, b') := by
  have hfound : ∀ rest, splitOnceText sep (sep ++ rest) = some ([], rest) := by
    intro rest
    have hprefix : sep.isPrefixOf? (sep ++ rest) = some rest := isPrefixOf?_eq_some.mpr rfl
    generalize sep ++ rest = text at hprefix
    cases text <;> simp [splitOnceText, hprefix]
  induction s generalizing a with
  | nil =>
    obtain ⟨rest, hrest, hpair⟩ := Option.map_eq_some_iff.mp h
    cases hpair
    exact hfound b'
  | cons c cs ih =>
    rw [splitOnceText] at h
    split at h
    · cases h
      exact hfound b'
    · rename_i hnone
      obtain ⟨⟨a', b''⟩, hsplit, hpair⟩ := Option.map_eq_some_iff.mp h
      cases hpair
      have hnot : ¬sep <+: ((c :: a') ++ sep) ++ b'' := by
        have hrest := splitOnceText_eq_some hsplit
        rw [isPrefixOf?_eq_none, hrest] at hnone
        simpa using hnone
      have hlen : sep.length ≤ ((c :: a') ++ sep).length := by
        rw [List.length_append]
        omega
      have hlen' : sep.length ≤ (((c :: a') ++ sep).map f).length := by
        rwa [List.length_map]
      have hmapped : ¬sep <+: ((c :: a') ++ sep).map f ++ b' := by
        rwa [prefix_append_iff hlen', hf.prefix_map_iff, ← prefix_append_iff hlen b'']
      have hsep : sep.map f = sep := (hf.map_eq_iff.mpr rfl).symm
      have hnone' : sep.isPrefixOf? (f c :: (a'.map f ++ (sep ++ b'))) = none := by
        rw [isPrefixOf?_eq_none]
        simpa [hsep] using hmapped
      change splitOnceText sep (f c :: (a'.map f ++ (sep ++ b'))) = _
      rw [splitOnceText, hnone']
      simp only [ih hsplit, Option.map_some, List.map_cons]

/-! ## Scheme and authority -/

/-- The separator of scheme and authority. -/
def schemeEnd : List Char := ['\x3a', '/', '/']

/-- ASCII letters in their small form. -/
def smallLetters (cs : List Char) : List Char := cs.map Char.toLower

/-- The character ends an authority. -/
def endsAuthority (c : Char) : Bool := c = '/' || c = '?' || c = '#'

/-- Scheme and authority of a URL, when it has both. -/
def urlParts (url : List Char) : Option (List Char × List Char) :=
  (splitOnceText schemeEnd url).bind fun r =>
    let authority := r.2.takeWhile fun c => !endsAuthority c
    if r.1.isEmpty || authority.isEmpty then none else some (r.1, authority)

/-- The scheme in small letters and the authority as it stands. -/
def writtenOrigin (url : List Char) : Option (List Char) :=
  (urlParts url).map fun p => smallLetters p.1 ++ (schemeEnd ++ p.2)

/-- A capital letter becomes a small one. -/
theorem toNat_toLower {c : Char} (h : 65 ≤ c.toNat ∧ c.toNat ≤ 90) :
    c.toLower.toNat = c.toNat + 32 := by
  have hupper : c.val ≥ 'A'.val ∧ c.val ≤ 'Z'.val := h
  unfold Char.toLower
  rw [dif_pos hupper]
  change (c.val + ('a'.val - 'A'.val)).toNat = c.val.toNat + 32
  have hbound : c.val.toNat ≤ 90 := h.2
  rw [UInt32.toNat_add]
  simp
  omega

theorem toLower_of_not_capital {c : Char} (h : ¬(65 ≤ c.toNat ∧ c.toNat ≤ 90)) :
    c.toLower = c := by
  unfold Char.toLower
  exact dif_neg h

/-- A character that is no letter comes from itself only. -/
theorem toLower_eq_iff {e : Char} (hcapital : ¬(65 ≤ e.toNat ∧ e.toNat ≤ 90))
    (hsmall : ¬(97 ≤ e.toNat ∧ e.toNat ≤ 122)) (c : Char) : c.toLower = e ↔ c = e := by
  by_cases h : 65 ≤ c.toNat ∧ c.toNat ≤ 90
  · have hnat := toNat_toLower h
    constructor <;> rintro rfl
    · omega
    · omega
  · rw [toLower_of_not_capital h]

theorem toLower_keeps_schemeEnd : Keeps Char.toLower schemeEnd := by
  intro c d hd
  simp only [schemeEnd, List.mem_cons, List.not_mem_nil, or_false] at hd
  rcases hd with rfl | rfl | rfl <;> exact toLower_eq_iff (by decide) (by decide) c

theorem toLower_toLower (c : Char) : c.toLower.toLower = c.toLower := by
  unfold Char.toLower
  split
  · rename_i hupper
    refine dif_neg ?_
    rintro ⟨-, hhigh⟩
    have hval : (c.val + ('a'.val - 'A'.val)).toNat ≤ 90 := hhigh
    have hlow : 65 ≤ c.toNat := hupper.1
    have hbound : c.toNat ≤ 90 := hupper.2
    rw [UInt32.toNat_add] at hval
    simp at hval
    omega
  · rfl

@[simp] theorem smallLetters_smallLetters (cs : List Char) :
    smallLetters (smallLetters cs) = smallLetters cs := by
  rw [smallLetters, smallLetters, List.map_map]
  exact List.map_congr_left fun c _ => toLower_toLower c

theorem urlParts_eq_some {url scheme authority : List Char}
    (h : urlParts url = some (scheme, authority)) :
    ∃ rest, splitOnceText schemeEnd url = some (scheme, rest) ∧ scheme ≠ [] ∧ authority ≠ [] ∧
      rest.takeWhile (fun c => !endsAuthority c) = authority := by
  obtain ⟨⟨a, rest⟩, hsplit, hparts⟩ := Option.bind_eq_some_iff.mp h
  simp only [Bool.or_eq_true, List.isEmpty_iff, not_or, Option.ite_none_left_eq_some,
    Option.some.injEq, Prod.mk.injEq] at hparts
  obtain ⟨⟨hscheme, hauthority⟩, rfl, rfl⟩ := hparts
  exact ⟨rest, hsplit, hscheme, hauthority, rfl⟩

/-- The parts of a written origin are the scheme in small letters and the authority. -/
theorem urlParts_written {url scheme authority : List Char}
    (h : urlParts url = some (scheme, authority)) :
    urlParts (smallLetters scheme ++ (schemeEnd ++ authority)) =
      some (smallLetters scheme, authority) := by
  obtain ⟨rest, hsplit, hscheme, hauthority, htake⟩ := urlParts_eq_some h
  have hwhole : authority.takeWhile (fun c => !endsAuthority c) = authority := by
    rw [← htake, List.takeWhile_takeWhile]
    simp
  rw [urlParts, smallLetters, splitOnceText_map toLower_keeps_schemeEnd hsplit authority,
    Option.bind_some]
  simp only [hwhole]
  exact if_neg (by simp [hscheme, hauthority])

theorem writtenOrigin_eq_some {url o : List Char} (h : writtenOrigin url = some o) :
    ∃ scheme authority, urlParts url = some (scheme, authority) ∧
      o = smallLetters scheme ++ (schemeEnd ++ authority) := by
  obtain ⟨⟨scheme, authority⟩, hparts, rfl⟩ := Option.map_eq_some_iff.mp h
  exact ⟨scheme, authority, hparts, rfl⟩

/-- A written origin is its own. -/
theorem writtenOrigin_idem {url o : List Char} (h : writtenOrigin url = some o) :
    writtenOrigin o = some o := by
  obtain ⟨scheme, authority, hparts, rfl⟩ := writtenOrigin_eq_some h
  rw [writtenOrigin, urlParts_written hparts]
  simp

theorem isSome_writtenOrigin {url : List Char} :
    (writtenOrigin url).isSome = (urlParts url).isSome := Option.isSome_map

/-! ## Origins -/

/-- Scheme, host and port. -/
structure WebOrigin where
  scheme : List Char
  host : List Char
  port : Option Nat
deriving DecidableEq

/-- The port of a scheme that no text names. -/
def defaultPort (scheme : List Char) : Option Nat :=
  if scheme = "http".toList ∨ scheme = "ws".toList then some 80
  else if scheme = "https".toList ∨ scheme = "wss".toList then some 443
  else none

/-- Host and written port of an authority, behind its user information. -/
def hostPort (authority : List Char) : List Char × Option Nat :=
  let located := (rsplitOnce '@' authority).elim authority Prod.snd
  match rsplitOnce ':' located with
  | none => (located, none)
  | some (host, digits) =>
    if digits.isEmpty then (host, none)
    else
      match parseDigits digits with
      | some port => (host, some port)
      | none => (located, none)

/-- The origin of a scheme and an authority. -/
def partsOrigin (scheme authority : List Char) : WebOrigin :=
  let located := hostPort authority
  ⟨smallLetters scheme, smallLetters located.1,
    located.2.or (defaultPort (smallLetters scheme))⟩

/-- The origin of a URL. -/
def webOrigin (url : List Char) : Option WebOrigin :=
  (urlParts url).map fun p => partsOrigin p.1 p.2

/-- Two URLs of one origin. -/
def SameOrigin (s u : List Char) : Prop := ∃ o, webOrigin s = some o ∧ webOrigin u = some o

/-- The authority of the URL names a user. -/
def NamesUser (url : List Char) : Prop := (urlParts url).any (fun p => '@' ∈ p.2) = true

instance (url : List Char) : Decidable (NamesUser url) := inferInstanceAs (Decidable (_ = true))

/-- URLs of one origin, without user information, whose hosts or ports are spelled in
two ways. -/
structure SpelledApart (s u : List Char) : Prop where
  same : SameOrigin s u
  left_plain : ¬NamesUser s
  right_plain : ¬NamesUser u
  apart : writtenOrigin s ≠ writtenOrigin u

example : SpelledApart "https://app.example".toList "https://App.example:443/".toList where
  same := ⟨⟨"https".toList, "app.example".toList, some 443⟩, by decide, by decide⟩
  left_plain := by decide
  right_plain := by decide
  apart := by decide

theorem partsOrigin_smallLetters (scheme authority : List Char) :
    partsOrigin (smallLetters scheme) authority = partsOrigin scheme authority := by
  simp [partsOrigin]

/-- A written origin determines the origin. -/
theorem webOrigin_written {url o : List Char} (h : writtenOrigin url = some o) :
    webOrigin o = webOrigin url := by
  obtain ⟨scheme, authority, hparts, rfl⟩ := writtenOrigin_eq_some h
  rw [webOrigin, webOrigin, urlParts_written hparts, hparts, Option.map_some, Option.map_some,
    partsOrigin_smallLetters]

theorem sameOrigin_of_written {s u o : List Char} (hs : writtenOrigin s = some o)
    (hu : writtenOrigin u = some o) : SameOrigin s u := by
  obtain ⟨scheme, authority, hparts, -⟩ := writtenOrigin_eq_some hs
  refine ⟨partsOrigin scheme authority, ?_, ?_⟩
  · rw [webOrigin, hparts, Option.map_some]
  · rw [← webOrigin_written hu, webOrigin_written hs, webOrigin, hparts, Option.map_some]

/-! ## One spelling -/

/-- How an origin is written in small letters and without its default port. -/
def WebOrigin.text (o : WebOrigin) : List Char :=
  o.host ++ if o.port = defaultPort o.scheme then []
    else ':' :: (o.port.map (Nat.toDigits 10)).getD []

/-- The authority of the URL is spelled as its origin writes it. -/
def Canonical (url : List Char) : Prop :=
  ∀ p, urlParts url = some p → p.2 = (partsOrigin p.1 p.2).text

/-- With one spelling only, the origin determines the written origin. -/
theorem written_of_canonical {s u : List Char} (hs : Canonical s) (hu : Canonical u)
    (h : SameOrigin s u) : writtenOrigin s = writtenOrigin u := by
  obtain ⟨o, hos, hou⟩ := h
  obtain ⟨p, hp, rfl⟩ := Option.map_eq_some_iff.mp hos
  obtain ⟨q, hq, horigin⟩ := Option.map_eq_some_iff.mp hou
  have hauthority : p.2 = q.2 := by rw [hs p hp, hu q hq, horigin]
  have hscheme : smallLetters p.1 = smallLetters q.1 := (congrArg WebOrigin.scheme horigin).symm
  rw [writtenOrigin, writtenOrigin, hp, hq, Option.map_some, Option.map_some, hauthority, hscheme]

end Lib
