import ReproitCloud.Http.Request
import ReproitCloud.Lib.Lexemes
import ReproitCloud.Lib.Origins

/-!
# The host gate

A server may be told the hosts it answers for.  `normalizeHost` reads a `Host` header and
every configured host: white space around it goes, then the dots at its end, capital
letters become small ones, and of the rest the part before the port stays.  The port is
cut last.  So a dot or a blank in front of it stays too, and so does a blank in front of
the dots at the end (`EndHidden`).

* `normalize_host_canonical_iff`: a header is normalised once and for all exactly when its
  end is not hidden.  Two spellings of one host agree exactly when both or neither has a
  dot in front of a port, or the host is a bracketed address, and only then does the gate
  treat them alike under any configuration.
* `dotted_host_with_port_is_refused`: the gate takes `example.com` and refuses
  `example.com.:443`.
-/

namespace ReproitCloud

open Lib

/-! ## Normalisation -/

/-- The host without its port.  A bracketed address ends with its bracket. -/
def withoutPort (host : List Char) : List Char :=
  if host.head? = some '[' then
    ((splitOnce ']' host).map fun r => r.1 ++ [']']).getD host
  else ((splitOnce ':' host).map Prod.fst).getD host

/-- The header without the white space around it and the dots at its end. -/
def undotted (value : List Char) : List Char := (trim value).rdropWhile (· = '.')

/-- `normalize_host`. -/
def normalizeHost (value : String) : Option String :=
  let host := smallLetters (undotted value.toList)
  if host = [] then none else some (String.ofList (withoutPort host))

/-- `configured_allowed_hosts`, of the value of `REPROIT_ALLOWED_HOSTS`. -/
def configuredAllowedHosts (env : Option String) : List String :=
  (((env.getD "").toList.splitOn ',').map String.ofList).filterMap normalizeHost

/-- `host_is_allowed`. -/
def hostIsAllowed (host : Option String) (allowed : List String) : Bool :=
  allowed.isEmpty || (host.bind normalizeHost).any fun h => decide (h ∈ allowed)

/-! ## Characters that letter case does not touch -/

theorem isWhitespace_toLower (c : Char) : isWhitespace c.toLower = isWhitespace c := by
  by_cases h : 65 ≤ c.toNat ∧ c.toNat ≤ 90
  · have hnat := toNat_toLower h
    rw [Bool.eq_iff_iff]
    simp only [isWhitespace, hnat, Bool.or_eq_true, Bool.and_eq_true, decide_eq_true_eq]
    omega
  · rw [toLower_of_not_capital h]

theorem smallLetters_append (xs ys : List Char) :
    smallLetters (xs ++ ys) = smallLetters xs ++ smallLetters ys :=
  List.map_append

theorem head?_smallLetters_bracket (cs : List Char) :
    (smallLetters cs).head? = some '[' ↔ cs.head? = some '[' := by
  cases cs with
  | nil => rfl
  | cons c cs => simp [smallLetters, toLower_eq_iff]

theorem splitOnce_smallLetters {sep : Char} (hsep : ∀ c : Char, c.toLower = sep ↔ c = sep)
    (cs : List Char) : splitOnce sep (smallLetters cs) =
      (splitOnce sep cs).map fun r => (smallLetters r.1, smallLetters r.2) := by
  induction cs with
  | nil => rfl
  | cons c cs ih =>
    simp only [smallLetters, List.map_cons] at ih ⊢
    rw [splitOnce, splitOnce, ih]
    by_cases hc : c = sep
    · rw [if_pos ((hsep c).2 hc), if_pos hc]
      rfl
    · rw [if_neg fun h => hc ((hsep c).1 h), if_neg hc, Option.map_map, Option.map_map]
      rfl

/-- Port and letters go in either order. -/
theorem withoutPort_smallLetters (cs : List Char) :
    withoutPort (smallLetters cs) = smallLetters (withoutPort cs) := by
  unfold withoutPort
  by_cases hbracket : cs.head? = some '['
  · rw [if_pos ((head?_smallLetters_bracket cs).2 hbracket), if_pos hbracket,
      splitOnce_smallLetters (toLower_eq_iff (by decide) (by decide))]
    cases hsplit : splitOnce ']' cs with
    | none => rfl
    | some r =>
      simp only [Option.map_some, Option.getD_some, smallLetters_append]
      rfl
  · rw [if_neg (mt (head?_smallLetters_bracket cs).1 hbracket), if_neg hbracket,
      splitOnce_smallLetters (toLower_eq_iff (by decide) (by decide))]
    cases hsplit : splitOnce ':' cs with
    | none => rfl
    | some r => rfl

theorem normalizeHost_eq (value : String) : normalizeHost value =
    if undotted value.toList = [] then none
    else some (String.ofList (smallLetters (withoutPort (undotted value.toList)))) := by
  have hnil : smallLetters (undotted value.toList) = [] ↔ undotted value.toList = [] :=
    List.map_eq_nil_iff
  unfold normalizeHost
  simp only [withoutPort_smallLetters, hnil]

/-! ## What stays of a header -/

theorem withoutPort_isPrefix (cs : List Char) : withoutPort cs <+: cs := by
  unfold withoutPort
  split
  · cases hsplit : splitOnce ']' cs with
    | none => exact List.prefix_refl cs
    | some r => exact ⟨r.2, by simpa using (splitOnce_eq_some hsplit).1.symm⟩
  · cases hsplit : splitOnce ':' cs with
    | none => exact List.prefix_refl cs
    | some r => exact ⟨':' :: r.2, (splitOnce_eq_some hsplit).1.symm⟩

theorem splitOnce_eq_none_iff {sep : Char} {cs : List Char} :
    splitOnce sep cs = none ↔ sep ∉ cs := by
  constructor
  · intro hnone hmem
    obtain ⟨xs, ys, rfl, hxs⟩ := List.eq_append_cons_of_mem hmem
    simp [splitOnce_append hxs] at hnone
  · intro hnot
    cases hsplit : splitOnce sep cs with
    | none => rfl
    | some r => exact absurd (by simp [(splitOnce_eq_some hsplit).1]) hnot

/-- The host of a header with a port. -/
theorem withoutPort_port {name : List Char} (hbracket : (name ++ [':']).head? ≠ some '[')
    (hname : ':' ∉ name) (rest : List Char) : withoutPort (name ++ ':' :: rest) = name := by
  have hhead : (name ++ ':' :: rest).head? = (name ++ [':']).head? := by
    cases name <;> rfl
  rw [withoutPort, hhead, if_neg hbracket, splitOnce_append hname]
  rfl

/-- The host of a bracketed address. -/
theorem withoutPort_bracket {inside : List Char} (hinside : ']' ∉ inside) (rest : List Char) :
    withoutPort ('[' :: inside ++ ']' :: rest) = '[' :: inside ++ [']'] := by
  have hnot : ']' ∉ '[' :: inside := by simpa using hinside
  have hhead : ('[' :: inside ++ ']' :: rest).head? = some '[' := rfl
  rw [withoutPort, if_pos hhead, splitOnce_append hnot]
  rfl

/-- Nothing is cut off a header with no port. -/
theorem withoutPort_portless {cs : List Char} (hname : cs.head? ≠ some '[' → ':' ∉ cs)
    (haddress : cs.head? = some '[' → ']' ∉ cs) : withoutPort cs = cs := by
  unfold withoutPort
  split
  · rename_i hbracket
    rw [splitOnce_eq_none_iff.2 (haddress hbracket)]
    rfl
  · rename_i hbracket
    rw [splitOnce_eq_none_iff.2 (hname hbracket)]
    rfl

/-- What is cut once has no port. -/
theorem withoutPort_withoutPort (cs : List Char) :
    withoutPort (withoutPort cs) = withoutPort cs := by
  by_cases hbracket : cs.head? = some '['
  · by_cases hclosed : ']' ∈ cs
    · obtain ⟨inside, rest, rfl, hinside⟩ := List.eq_append_cons_of_mem hclosed
      cases inside with
      | nil => cases hbracket
      | cons c inside =>
        cases hbracket
        rw [List.mem_cons, not_or] at hinside
        rw [withoutPort_bracket hinside.2, withoutPort_bracket hinside.2 []]
    · have hwhole := withoutPort_portless (fun h => absurd hbracket h) fun _ => hclosed
      rw [hwhole, hwhole]
  · by_cases hport : ':' ∈ cs
    · obtain ⟨name, rest, rfl, hname⟩ := List.eq_append_cons_of_mem hport
      have hstart : (name ++ [':']).head? ≠ some '[' := by
        cases name with
        | nil => simp
        | cons c name => simpa using hbracket
      have hportless : name.head? ≠ some '[' := by
        cases name with
        | nil => simp
        | cons c name => simpa using hbracket
      rw [withoutPort_port hstart hname]
      exact withoutPort_portless (fun _ => hname) fun h => absurd h hportless
    · have hwhole := withoutPort_portless (fun _ => hport) fun h => absurd h hbracket
      rw [hwhole, hwhole]

/-! ## Ends -/

/-- The text ends with a dot or a blank. -/
def Loose (cs : List Char) : Prop := ∃ c, cs.getLast? = some c ∧ (c = '.' ∨ isWhitespace c = true)

theorem isPrefix_undotted (value : List Char) : undotted value <+: trim value :=
  List.rdropWhile_prefix _ _

theorem not_blank_of_head?_undotted {value : List Char} {c : Char}
    (h : (undotted value).head? = some c) : isWhitespace c = false := by
  obtain ⟨dots, hdots⟩ := isPrefix_undotted value
  refine head?_trimEnds (l := value) (p := isWhitespace) ?_
  change (trim value).head? = some c
  rw [← hdots, List.head?_append, h]
  rfl

/-- Dots at the end of a header go, and a last character that is no dot stays. -/
theorem getLast?_undotted {value : List Char} {c : Char}
    (h : (undotted value).getLast? = some c) : c ≠ '.' := by
  have hne : undotted value ≠ [] := by
    rintro hnil
    simp [hnil] at h
  rw [List.getLast?_eq_some_getLast hne, Option.some.injEq] at h
  have hlast : ¬decide ((undotted value).getLast hne = '.') = true :=
    List.rdropWhile_last_not _ _ hne
  simpa [← h] using hlast

theorem undotted_eq_self {cs : List Char} (hhead : ∀ c, cs.head? = some c → isWhitespace c = false)
    (hlast : ¬Loose cs) : undotted cs = cs := by
  have htrim : trim cs = cs := by
    refine trimEnds_eq_self hhead fun c hc => ?_
    rw [← Bool.not_eq_true]
    exact fun hblank => hlast ⟨c, hc, .inr hblank⟩
  rw [undotted, htrim, List.rdropWhile_eq_self_iff]
  intro hne
  have hlast' := List.getLast?_eq_some_getLast hne
  simpa using fun hdot => hlast ⟨_, hlast', .inl hdot⟩

theorem loose_smallLetters (cs : List Char) : Loose (smallLetters cs) ↔ Loose cs := by
  have hdot : ∀ c : Char, c.toLower = '.' ↔ c = '.' := toLower_eq_iff (by decide) (by decide)
  simp only [Loose, smallLetters, List.getLast?_map, Option.map_eq_some_iff]
  constructor
  · rintro ⟨_, ⟨c, hc, rfl⟩, hend⟩
    rw [hdot, isWhitespace_toLower] at hend
    exact ⟨c, hc, hend⟩
  · rintro ⟨c, hc, hend⟩
    rw [← hdot, ← isWhitespace_toLower] at hend
    exact ⟨c.toLower, ⟨c, hc, rfl⟩, hend⟩

/-! ## Normalised once and for all -/

/-- A host that ends with no dot and no blank is normalised already. -/
theorem normalizeHost_of_settled {w : List Char} (hne : w ≠ [])
    (hhead : ∀ c, w.head? = some c → isWhitespace c = false) (hlast : ¬Loose w)
    (hport : withoutPort w = w) :
    normalizeHost (String.ofList (smallLetters w)) = some (String.ofList (smallLetters w)) := by
  have hself : undotted (smallLetters w) = smallLetters w := by
    refine undotted_eq_self (fun c hc => ?_) (mt (loose_smallLetters w).1 hlast)
    simp only [smallLetters, List.head?_map, Option.map_eq_some_iff] at hc
    obtain ⟨d, hd, rfl⟩ := hc
    rw [isWhitespace_toLower, hhead d hd]
  have hnil : smallLetters w ≠ [] := by simpa [smallLetters] using hne
  rw [normalizeHost_eq, String.toList_ofList, hself, if_neg hnil, withoutPort_smallLetters, hport,
    smallLetters_smallLetters]

/-- Only such hosts are. -/
theorem settled_of_normalizeHost {w : List Char}
    (h : normalizeHost (String.ofList (smallLetters w)) = some (String.ofList (smallLetters w))) :
    w ≠ [] ∧ ¬Loose w := by
  rw [normalizeHost_eq, String.toList_ofList] at h
  split at h
  · cases h
  rename_i hne
  have htext := String.ofList_injective (Option.some.inj h)
  have hlength := congrArg List.length htext
  simp only [smallLetters, List.length_map] at hlength
  have hport := (withoutPort_isPrefix (undotted (smallLetters w))).length_le
  have hdots := (isPrefix_undotted (smallLetters w)).length_le
  have hblanks : trim (smallLetters w) <:+: smallLetters w := isInfix_trimEnds isWhitespace _
  have hblanks' := hblanks.length_le
  simp only [smallLetters, List.length_map] at hport hdots hblanks'
  -- nothing is trimmed, so the ends are those of a trimmed text
  have htrim : trim (smallLetters w) = smallLetters w :=
    hblanks.eq_of_length (by simp only [smallLetters, List.length_map]; omega)
  have hundot : undotted (smallLetters w) = smallLetters w := by
    refine ((isPrefix_undotted (smallLetters w)).eq_of_length ?_).trans htrim
    rw [htrim]
    simp only [smallLetters, List.length_map]
    omega
  rw [hundot] at hne
  refine ⟨by simpa [smallLetters] using hne, ?_⟩
  rw [← loose_smallLetters]
  rintro ⟨c, hc, rfl | hblank⟩
  · exact getLast?_undotted (hundot.symm ▸ hc) rfl
  · have hend := getLast?_trimEnds (p := isWhitespace) (l := smallLetters w) (htrim.symm ▸ hc)
    rw [hblank] at hend
    cases hend

/-- The port has a dot, a blank or nothing in front of it. -/
def PortHides (header : List Char) : Prop :=
  header.head? ≠ some '[' ∧ ∃ name rest, header = name ++ ':' :: rest ∧ ':' ∉ name ∧
    (name = [] ∨ Loose name)

/-- There is no port, and the dots at the end have a blank in front of them. -/
def DotsHide (header : List Char) : Prop :=
  (header.head? ≠ some '[' → ':' ∉ header) ∧ (header.head? = some '[' → ']' ∉ header) ∧
    ∃ name blank dots, header = name ++ blank :: dots ∧ isWhitespace blank = true ∧
      ∀ c ∈ dots, c = '.'

/-- The trimming of a header does not reach the end of its host. -/
def EndHidden (header : List Char) : Prop := PortHides header ∨ DotsHide header

/-- What is dropped from the end goes no further than an element that stays. -/
theorem rdropWhile_append_cons {α : Type} {p : α → Bool} {c : α} (hc : p c = false)
    (xs ys : List α) : (xs ++ c :: ys).rdropWhile p = xs ++ c :: ys.rdropWhile p := by
  induction ys using List.reverseRecOn with
  | nil =>
    rw [List.rdropWhile_nil]
    exact List.rdropWhile_concat_neg _ _ _ (by simp [hc])
  | append_singleton ys y ih =>
    have hsnoc : xs ++ c :: (ys ++ [y]) = (xs ++ c :: ys) ++ [y] := by simp
    rw [hsnoc, List.rdropWhile_concat, List.rdropWhile_concat]
    split
    · exact ih
    · exact hsnoc.symm

theorem not_dot_of_blank {c : Char} (h : isWhitespace c = true) : c ≠ '.' := by
  rintro rfl
  revert h
  decide

/-- A header without a port ends with a blank exactly when its dots hide one. -/
theorem loose_rdropWhile_iff (header : List Char) :
    Loose (header.rdropWhile (· = '.')) ↔ ∃ name blank dots, header = name ++ blank :: dots ∧
      isWhitespace blank = true ∧ ∀ c ∈ dots, c = '.' := by
  constructor
  · rintro ⟨c, hc, hend⟩
    have hne : header.rdropWhile (· = '.') ≠ [] := by
      rintro hnil
      simp [hnil] at hc
    have hlast := List.getLast?_eq_some_getLast hne
    have hdot : c ≠ '.' := by
      have hnot := List.rdropWhile_last_not (fun c : Char => decide (c = '.')) header hne
      rw [hc, Option.some.injEq] at hlast
      simpa [← hlast] using hnot
    have hsplit := List.rdropWhile_append_rtakeWhile (p := (· = '.')) (l := header)
    refine ⟨(header.rdropWhile (· = '.')).dropLast, c, header.rtakeWhile (· = '.'), ?_,
      hend.resolve_left hdot, fun d hd => by simpa using List.mem_rtakeWhile_imp hd⟩
    rw [hc, Option.some.injEq] at hlast
    have hwhole := List.dropLast_append_getLast hne
    rw [← hlast] at hwhole
    calc header = header.rdropWhile (· = '.') ++ header.rtakeWhile (· = '.') := hsplit.symm
      _ = ((header.rdropWhile (· = '.')).dropLast ++ [c]) ++ header.rtakeWhile (· = '.') := by
        rw [hwhole]
      _ = _ := by simp
  · rintro ⟨name, blank, dots, rfl, hblank, hdots⟩
    have hnone : dots.rdropWhile (· = '.') = [] := by
      rw [List.rdropWhile_eq_nil_iff]
      simpa using hdots
    rw [rdropWhile_append_cons (by simpa using not_dot_of_blank hblank), hnone]
    exact ⟨blank, by simp, .inr hblank⟩

theorem not_loose_nil : ¬Loose [] := by
  rintro ⟨c, hc, -⟩
  cases hc

/-- A host in front of a port. -/
theorem endHidden_port_iff {name : List Char} (hbracket : (name ++ [':']).head? ≠ some '[')
    (hname : ':' ∉ name) (rest : List Char) :
    EndHidden (name ++ ':' :: rest) ↔ name = [] ∨ Loose name := by
  have hhead : (name ++ ':' :: rest).head? ≠ some '[' := by
    cases name with
    | nil => simp
    | cons c name => simpa using hbracket
  constructor
  · rintro (⟨-, name', rest', heq, hname', hend⟩ | ⟨hnone, -, -⟩)
    · have hsplit := splitOnce_append hname rest
      rw [heq, splitOnce_append hname'] at hsplit
      cases hsplit
      exact hend
    · exact absurd (by simp) (hnone hhead)
  · exact fun hend => .inl ⟨hhead, name, rest, rfl, hname, hend⟩

/-- A bracketed address. -/
theorem not_endHidden_bracket {header : List Char} (hbracket : header.head? = some '[')
    (hclosed : ']' ∈ header) : ¬EndHidden header := by
  rintro (⟨hname, -⟩ | ⟨-, hnone, -⟩)
  · exact hname hbracket
  · exact hnone hbracket hclosed

/-- A header without a port. -/
theorem endHidden_portless_iff {header : List Char} (hname : header.head? ≠ some '[' → ':' ∉ header)
    (haddress : header.head? = some '[' → ']' ∉ header) :
    EndHidden header ↔ Loose (header.rdropWhile (· = '.')) := by
  rw [loose_rdropWhile_iff]
  constructor
  · rintro (⟨hbracket, name, rest, rfl, -, -⟩ | ⟨-, -, hdots⟩)
    · exact absurd (by simp) (hname hbracket)
    · exact hdots
  · exact fun hdots => .inr ⟨hname, haddress, hdots⟩

/-- The end of a header is hidden exactly when its host is left with a loose end. -/
theorem settled_iff (header : List Char) :
    (header.rdropWhile (· = '.') ≠ [] → withoutPort (header.rdropWhile (· = '.')) ≠ [] ∧
      ¬Loose (withoutPort (header.rdropWhile (· = '.')))) ↔ ¬EndHidden header := by
  by_cases hported : header.head? ≠ some '[' ∧ ':' ∈ header
  · obtain ⟨hbracket, hport⟩ := hported
    obtain ⟨name, rest, rfl, hname⟩ := List.eq_append_cons_of_mem hport
    have hstart : (name ++ [':']).head? ≠ some '[' := by
      cases name with
      | nil => simp
      | cons c name => simpa using hbracket
    rw [rdropWhile_append_cons (by decide), withoutPort_port hstart hname,
      endHidden_port_iff hstart hname, not_or]
    exact ⟨fun h => h (by simp), fun h _ => h⟩
  by_cases hclosed : header.head? = some '[' ∧ ']' ∈ header
  · obtain ⟨hbracket, hmem⟩ := hclosed
    refine ⟨fun _ => not_endHidden_bracket hbracket hmem, fun _ _ => ?_⟩
    obtain ⟨inside, rest, rfl, hinside⟩ := List.eq_append_cons_of_mem hmem
    cases inside with
    | nil => cases hbracket
    | cons c inside =>
      cases hbracket
      rw [List.mem_cons, not_or] at hinside
      rw [rdropWhile_append_cons (by decide), withoutPort_bracket hinside.2]
      refine ⟨by simp, ?_⟩
      rintro ⟨c, hc, hend⟩
      rw [List.getLast?_concat, Option.some.injEq] at hc
      subst hc
      revert hend
      decide
  · have hname : header.head? ≠ some '[' → ':' ∉ header := fun h hmem => hported ⟨h, hmem⟩
    have haddress : header.head? = some '[' → ']' ∉ header := fun h hmem => hclosed ⟨h, hmem⟩
    rw [endHidden_portless_iff hname haddress]
    by_cases hnil : header.rdropWhile (· = '.') = []
    · rw [hnil]
      exact ⟨fun _ => not_loose_nil, fun _ h => absurd rfl h⟩
    · have hpart := List.rdropWhile_prefix (fun c : Char => decide (c = '.')) header
      have hhead : (header.rdropWhile (· = '.')).head? = header.head? := by
        obtain ⟨dots, hdots⟩ := hpart
        cases hkept : header.rdropWhile (· = '.') with
        | nil => exact absurd hkept hnil
        | cons c kept =>
          rw [hkept] at hdots
          rw [← hdots]
          rfl
      have hwhole : withoutPort (header.rdropWhile (· = '.')) = header.rdropWhile (· = '.') :=
        withoutPort_portless (fun h hmem => hname (hhead ▸ h) (hpart.subset hmem))
          fun h hmem => haddress (hhead ▸ h) (hpart.subset hmem)
      rw [hwhole]
      exact ⟨fun h => (h hnil).2, fun h _ => ⟨hnil, h⟩⟩

/-- The header is normalised once and for all exactly when its end is not hidden. -/
theorem normalizeHost_idem_iff (value : String) :
    (normalizeHost value).bind normalizeHost = normalizeHost value ↔
      ¬EndHidden (trim value.toList) := by
  rw [← settled_iff]
  change _ ↔ (undotted value.toList ≠ [] → withoutPort (undotted value.toList) ≠ [] ∧
    ¬Loose (withoutPort (undotted value.toList)))
  rw [normalizeHost_eq]
  by_cases hnil : undotted value.toList = []
  · simp [hnil]
  rw [if_neg hnil, Option.bind_some]
  constructor
  · exact fun h _ => settled_of_normalizeHost h
  · intro h
    obtain ⟨hne, hlast⟩ := h hnil
    refine normalizeHost_of_settled hne (fun c hc => ?_) hlast (withoutPort_withoutPort _)
    obtain ⟨rest, hrest⟩ := withoutPort_isPrefix (undotted value.toList)
    have hfirst : (undotted value.toList).head? = some c := by
      rw [← hrest, List.head?_append, hc]
      rfl
    exact not_blank_of_head?_undotted hfirst

/-! ## Spellings of one host -/

/-- A name, or an address in brackets. -/
inductive Host where
  | name (letters : List Char) (hne : letters ≠ []) (hport : ':' ∉ letters)
      (hbracket : letters.head? ≠ some '[') (hblank : ∀ c ∈ letters, isWhitespace c = false)
      (hdot : letters.getLast? ≠ some '.')
  | address (inside : List Char) (hinside : ']' ∉ inside)

namespace Host

/-- The host as written without dot and port. -/
def text : Host → List Char
  | name letters .. => letters
  | address inside _ => '[' :: inside ++ [']']

/-- The host is a name. -/
def isName : Host → Bool
  | name .. => true
  | address .. => false

/-- The same host in other letters, maybe with a dot at the end and with a port. -/
structure Spelling (host : Host) where
  letters : List Char
  sameLetters : smallLetters letters = smallLetters host.text
  dot : Bool
  port : Option (List Char)

namespace Spelling

variable {host : Host}

/-- The dot, if there is one. -/
def dotText (s : host.Spelling) : List Char := if s.dot then ['.'] else []

/-- The port after its colon, if there is one. -/
def portText (s : host.Spelling) : List Char := (s.port.map (':' :: ·)).getD []

/-- What a request writes. -/
def text (s : host.Spelling) : String := String.ofList (s.letters ++ s.dotText ++ s.portText)

/-- The dot is in front of a port. -/
def dotBeforePort (s : host.Spelling) : Bool := s.dot && s.port.isSome

end Spelling

end Host

theorem mem_smallLetters_iff {sep : Char} (hsep : ∀ c : Char, c.toLower = sep ↔ c = sep)
    (cs : List Char) : sep ∈ smallLetters cs ↔ sep ∈ cs := by
  simp [smallLetters, hsep]

/-- A name keeps in other letters what makes it a name. -/
theorem name_of_sameLetters {letters other : List Char}
    (hsame : smallLetters other = smallLetters letters) (hne : letters ≠ [])
    (hport : ':' ∉ letters) (hbracket : letters.head? ≠ some '[')
    (hblank : ∀ c ∈ letters, isWhitespace c = false) (hdot : letters.getLast? ≠ some '.') :
    other ≠ [] ∧ ':' ∉ other ∧ other.head? ≠ some '[' ∧
      (∀ c, other.head? = some c → isWhitespace c = false) ∧ ¬Loose other := by
  have hcolon : ∀ cs, ':' ∈ smallLetters cs ↔ ':' ∈ cs :=
    mem_smallLetters_iff (toLower_eq_iff (by decide) (by decide))
  have hempty : ∀ cs : List Char, smallLetters cs = [] ↔ cs = [] := fun cs => List.map_eq_nil_iff
  have hblank' : ∀ c ∈ other, isWhitespace c = false := by
    intro c hc
    have hmem : c.toLower ∈ smallLetters letters := hsame ▸ List.mem_map_of_mem hc
    obtain ⟨d, hd, hlower⟩ := List.mem_map.1 hmem
    rw [← isWhitespace_toLower, ← hlower, isWhitespace_toLower, hblank d hd]
  refine ⟨?_, ?_, ?_, fun c hc => hblank' c (List.mem_of_mem_head? hc), ?_⟩
  · rwa [ne_eq, ← hempty, hsame, hempty]
  · rwa [← hcolon, hsame, hcolon]
  · rwa [ne_eq, ← head?_smallLetters_bracket, hsame, head?_smallLetters_bracket]
  · rw [← loose_smallLetters, hsame, loose_smallLetters]
    rintro ⟨c, hc, rfl | hc'⟩
    · exact hdot hc
    · exact absurd hc' (by simp [hblank c (List.mem_of_getLast? hc)])

/-- A header that starts with no blank loses nothing in front of a mark. -/
theorem undotted_mark (mark : Char) (hblank : isWhitespace mark = false) (hdot : mark ≠ '.')
    {start : List Char} (hhead : ∀ c, start.head? = some c → isWhitespace c = false)
    (rest : List Char) : ∃ rest', undotted (start ++ mark :: rest) = start ++ mark :: rest' := by
  have hdrop : (start ++ mark :: rest).dropWhile isWhitespace = start ++ mark :: rest := by
    cases start with
    | nil => exact List.dropWhile_cons_of_neg (by simp [hblank])
    | cons c start => exact List.dropWhile_cons_of_neg (by simp [hhead c rfl])
  refine ⟨(rest.rdropWhile isWhitespace).rdropWhile (· = '.'), ?_⟩
  change ((List.dropWhile isWhitespace _).rdropWhile isWhitespace).rdropWhile (· = '.') = _
  rw [hdrop, rdropWhile_append_cons hblank, rdropWhile_append_cons (by simpa using hdot)]

/-- A dot at the end goes. -/
theorem undotted_dot {cs : List Char} (hhead : ∀ c, cs.head? = some c → isWhitespace c = false)
    (hlast : ¬Loose cs) : undotted (cs ++ ['.']) = cs := by
  have htrim : trim (cs ++ ['.']) = cs ++ ['.'] := by
    refine trimEnds_eq_self (fun c hc => ?_) fun c hc => ?_
    · cases cs with
      | nil =>
        cases hc
        decide
      | cons d cs => exact hhead c hc
    · rw [List.getLast?_concat, Option.some.injEq] at hc
      subst hc
      decide
  have hself := undotted_eq_self hhead hlast
  rw [undotted, htrim, List.rdropWhile_concat_pos _ _ _ (by decide), List.rdropWhile_eq_self_iff]
  intro hne
  simpa using fun hdot => hlast ⟨_, List.getLast?_eq_some_getLast hne, .inl hdot⟩

namespace Host.Spelling

/-- A name is normalised to its small letters, and to a dot that stands before a port. -/
theorem normalizeHost_name {host : Host} (hname : host.isName = true) (s : host.Spelling) :
    normalizeHost s.text = some (String.ofList
      (smallLetters host.text ++ if s.dotBeforePort then ['.'] else [])) := by
  cases host with
  | address inside hinside => cases hname
  | name letters hne hport hbracket hblank hdot =>
  obtain ⟨hne', hport', hbracket', hhead, hlast⟩ :=
    name_of_sameLetters s.sameLetters hne hport hbracket hblank hdot
  have hwhole : withoutPort s.letters = s.letters :=
    withoutPort_portless (fun _ => hport') fun h => absurd h hbracket'
  rw [normalizeHost_eq, text, String.toList_ofList, ← s.sameLetters]
  cases hp : s.port with
  | none =>
    have hkept : undotted (s.letters ++ s.dotText ++ s.portText) = s.letters := by
      cases hd : s.dot with
      | true => simpa [dotText, portText, hp, hd] using undotted_dot hhead hlast
      | false => simpa [dotText, portText, hp, hd] using undotted_eq_self hhead hlast
    rw [hkept, if_neg hne', hwhole]
    simp [dotBeforePort, hp]
  | some port =>
    have htext : s.letters ++ s.dotText ++ s.portText =
        (s.letters ++ s.dotText) ++ ':' :: port := by
      simp [portText, hp]
    have hstart : (s.letters ++ s.dotText).head? = s.letters.head? := by
      rw [List.head?_append, List.head?_eq_some_head hne', Option.some_or]
    obtain ⟨rest, hrest⟩ := undotted_mark ':' (by decide) (by decide)
      (fun c hc => hhead c (hstart ▸ hc)) port
    have hcolon : ':' ∉ s.letters ++ s.dotText := by
      cases hd : s.dot <;> simp [dotText, hd, hport']
    have hopen : (s.letters ++ s.dotText ++ [':']).head? ≠ some '[' := by
      rw [List.head?_append, hstart, List.head?_eq_some_head hne', Option.some_or,
        ← List.head?_eq_some_head hne']
      exact hbracket'
    have hdots : smallLetters (s.letters ++ s.dotText) =
        smallLetters s.letters ++ if s.dotBeforePort then ['.'] else [] := by
      cases hd : s.dot <;> simp [smallLetters, dotText, dotBeforePort, hd, hp]
    rw [htext, hrest, if_neg (by simp), withoutPort_port hopen hcolon, hdots]

/-- A bracketed address is normalised to its small letters. -/
theorem normalizeHost_address {host : Host} (haddress : host.isName = false) (s : host.Spelling) :
    normalizeHost s.text = some (String.ofList (smallLetters host.text)) := by
  cases host with
  | name => cases haddress
  | address inside hinside =>
  obtain ⟨inside', hletters, hinside'⟩ : ∃ inside', s.letters = '[' :: inside' ++ [']'] ∧
      ']' ∉ inside' := by
    have hsep : ∀ c : Char, c.toLower = ']' ↔ c = ']' := toLower_eq_iff (by decide) (by decide)
    have hnot : ']' ∉ '[' :: inside := by simpa using hinside
    have hsplit := splitOnce_smallLetters hsep s.letters
    rw [s.sameLetters, splitOnce_smallLetters hsep, Host.text, splitOnce_append hnot] at hsplit
    obtain ⟨⟨start, rest⟩, hfound, hparts⟩ := Option.map_eq_some_iff.1 hsplit.symm
    obtain ⟨hwhole, hfree⟩ := splitOnce_eq_some hfound
    obtain ⟨hstart, hrest⟩ := Prod.mk.inj hparts
    have hnil : rest = [] := by simpa [smallLetters] using hrest
    cases start with
    | nil => simp [smallLetters] at hstart
    | cons c start =>
      have hc : c = '[' := (toLower_eq_iff (e := '[') (by decide) (by decide) c).1
        (List.cons.inj hstart).1
      rw [List.mem_cons, not_or] at hfree
      exact ⟨start, by rw [hwhole, hnil, hc], hfree.2⟩
  have htext : s.letters ++ s.dotText ++ s.portText =
      ('[' :: inside') ++ ']' :: (s.dotText ++ s.portText) := by
    rw [hletters]
    simp
  have hhead : ∀ c, ('[' :: inside').head? = some c → isWhitespace c = false := by
    rintro c ⟨⟩
    decide
  obtain ⟨rest, hrest⟩ := undotted_mark ']' (by decide) (by decide) hhead (s.dotText ++ s.portText)
  rw [normalizeHost_eq, text, String.toList_ofList, htext, hrest, if_neg (by simp),
    withoutPort_bracket hinside', ← s.sameLetters, hletters]

/-- Two spellings agree on the dot in front of a port, where that matters. -/
def Alike {host : Host} (a b : host.Spelling) : Prop :=
  host.isName = true → a.dotBeforePort = b.dotBeforePort

theorem normalizeHost_eq_iff {host : Host} (a b : host.Spelling) :
    normalizeHost a.text = normalizeHost b.text ↔ a.Alike b := by
  cases hname : host.isName with
  | false =>
    rw [normalizeHost_address hname, normalizeHost_address hname]
    exact ⟨fun _ h => absurd h (by simp [hname]), fun _ => rfl⟩
  | true =>
    rw [normalizeHost_name hname, normalizeHost_name hname, Option.some.injEq]
    constructor
    · intro h _
      have hdots := List.append_cancel_left (String.ofList_injective h)
      cases ha : a.dotBeforePort <;> cases hb : b.dotBeforePort <;> simp [ha, hb] at hdots <;> rfl
    · intro h
      rw [h hname]

/-- A host goes through the gate exactly when its value is configured, or nothing is. -/
theorem hostIsAllowed_spelling {host : Host} (s : host.Spelling) :
    ∃ value, normalizeHost s.text = some value ∧ ∀ allowed,
      hostIsAllowed (some s.text) allowed = (allowed.isEmpty || decide (value ∈ allowed)) := by
  cases hname : host.isName with
  | false =>
    have hvalue := normalizeHost_address hname s
    exact ⟨_, hvalue, fun allowed => by simp [hostIsAllowed, hvalue]⟩
  | true =>
    have hvalue := normalizeHost_name hname s
    exact ⟨_, hvalue, fun allowed => by simp [hostIsAllowed, hvalue]⟩

theorem hostIsAllowed_eq_iff {host : Host} (a b : host.Spelling) :
    (∀ allowed, hostIsAllowed (some a.text) allowed = hostIsAllowed (some b.text) allowed) ↔
      normalizeHost a.text = normalizeHost b.text := by
  obtain ⟨value, ha, hgate⟩ := a.hostIsAllowed_spelling
  obtain ⟨value', hb, hgate'⟩ := b.hostIsAllowed_spelling
  rw [ha, hb, Option.some.injEq]
  constructor
  · intro h
    have hone := h [value]
    rw [hgate, hgate'] at hone
    simpa [eq_comm] using hone
  · rintro rfl allowed
    rw [hgate, hgate']

end Host.Spelling

/-! ## The gate -/

/-- A header is normalised once and for all exactly when its end is not hidden.  Two
spellings of a host are normalised to one value, and treated alike by the gate under every
configuration, exactly when both or neither has a dot in front of a port or the host is a
bracketed address. -/
theorem normalize_host_canonical_iff (value : String) (host : Host) (a b : host.Spelling) :
    ((normalizeHost value).bind normalizeHost = normalizeHost value ↔
      ¬EndHidden (trim value.toList)) ∧
    (normalizeHost a.text = normalizeHost b.text ↔ a.Alike b) ∧
    ((∀ allowed, hostIsAllowed (some a.text) allowed = hostIsAllowed (some b.text) allowed) ↔
      a.Alike b) :=
  ⟨normalizeHost_idem_iff value, a.normalizeHost_eq_iff b,
    (a.hostIsAllowed_eq_iff b).trans (a.normalizeHost_eq_iff b)⟩

/-- The host is taken with its dot and with its port, but not with both. -/
theorem dotted_host_with_port_is_refused :
    (normalizeHost "example.com.:443").bind normalizeHost ≠ normalizeHost "example.com.:443" ∧
    normalizeHost "example.com.:443" ≠ normalizeHost "example.com" ∧
    configuredAllowedHosts (some "example.com") = ["example.com"] ∧
    hostIsAllowed (some "example.com.") ["example.com"] = true ∧
    hostIsAllowed (some "EXAMPLE.com:443") ["example.com"] = true ∧
    hostIsAllowed (some "example.com.:443") ["example.com"] = false := by
  decide

end ReproitCloud
