import ReproitCloud.Http.Request
import ReproitCloud.Lib.Origins

/-!
# The origin check of cookie requests

A request that changes state under a cookie passes `csrfOriginCheck` when it claims
no origin, or one of the allowed origins.  Allowed are the origins of the public URL
and of the configured CORS list.  The claim is the `Origin` header, and for a request
without one the origin of its `Referer`.

Origins are compared as `originOf` writes them: the scheme in small letters, the
authority letter for letter.  So an accepted origin is an allowed one
(`csrfOriginAllowed_sound`), but an allowed one is refused when its host or port is
spelled in another way than the configuration spells it.  `csrf_exact_iff` says for
which texts the answer is that of the same-origin rule.
-/

namespace ReproitCloud

open Lib

/-! ## The check -/

/-- `origin_of`. -/
def originOf (url : List Char) : Option (List Char) :=
  (splitOnceText "://".toList url).bind fun (scheme, rest) =>
    if scheme.isEmpty || rest.isEmpty then none
    else
      let authority := rest.takeWhile fun c => !(c = '/' || c = '?' || c = '#')
      if authority.isEmpty then none
      else some (scheme.map Char.toLower ++ ("://".toList ++ authority))

/-- The loop over the CORS list: origins that are not there yet. -/
def addOrigin (allowed : List (List Char)) (raw : List Char) : List (List Char) :=
  match originOf (trim raw) with
  | some o => if o ∈ allowed then allowed else allowed ++ [o]
  | none => allowed

/-- `csrf_allowed_origins`, from the two variables.  Nothing without a public URL. -/
def csrfAllowedOrigins (publicUrl corsOrigins : Option String) : Option (List (List Char)) :=
  (publicUrl.filter fun s => !(trim s.toList).isEmpty).map fun url =>
    let allowed := (originOf (trim url.toList)).toList
    match corsOrigins with
    | some list => (list.toList.splitOn ',').foldl addOrigin allowed
    | none => allowed

/-- `to_str`, where the header is there. -/
def Header.readable : Header → Option (List Char)
  | .text value => some value.toList
  | _ => none

/-- The origin a request claims: its `Origin`, or that of its `Referer`. -/
def claimedOrigin (origin referer : Header) : Option (List Char) :=
  origin.readable.or (referer.readable.bind originOf)

/-- `csrf_origin_allowed`. -/
def csrfOriginAllowed (claimed : Option (List Char)) (allowed : List (List Char)) : Bool :=
  match claimed with
  | none => true
  | some o =>
    let normalized := (originOf o).getD o
    allowed.any fun a => a = normalized

/-- The method of a request. -/
inductive Method where
  | get
  | head
  | options
  | post
  | put
  | patch
  | delete
  | other (name : String)
deriving DecidableEq, Repr

/-- The method changes state. -/
def Method.isUnsafe : Method → Bool
  | post | put | patch | delete => true
  | _ => false

/-- `csrf_origin_check`: the request goes on, or is answered with a status. -/
def csrfOriginCheck (publicUrl corsOrigins : Option String) (method : Method)
    (origin referer : Header) : Except Nat Unit :=
  if method.isUnsafe then
    match csrfAllowedOrigins publicUrl corsOrigins with
    | none => .ok ()
    | some allowed =>
      if csrfOriginAllowed (claimedOrigin origin referer) allowed then .ok () else .error 403
  else .ok ()

/-! ## What the check compares -/

theorem originOf_eq (url : List Char) : originOf url = writtenOrigin url := by
  have htake : ∀ rest : List Char, (rest.takeWhile fun c => !(c = '/' || c = '?' || c = '#')) =
      rest.takeWhile fun c => !endsAuthority c := fun _ => rfl
  rw [originOf, writtenOrigin, urlParts, Option.map_bind]
  congr 1
  funext r
  obtain ⟨scheme, rest⟩ := r
  cases rest with
  | nil => simp
  | cons c rest =>
    cases hscheme : scheme.isEmpty with
    | true =>
      rw [List.isEmpty_iff] at hscheme
      simp [hscheme]
    | false =>
      simp only [hscheme, htake, Function.comp_apply, List.isEmpty_cons, Bool.or_self,
        Bool.false_or, Bool.false_eq_true, if_false]
      split <;> rfl

/-- The URLs of the configuration. -/
def configuredUrls (publicUrl : String) (corsOrigins : Option String) : List (List Char) :=
  trim publicUrl.toList ::
    corsOrigins.elim [] fun list => (list.toList.splitOn ',').map trim

theorem mem_foldl_addOrigin {o : List Char} (raws : List (List Char))
    (allowed : List (List Char)) :
    o ∈ raws.foldl addOrigin allowed ↔
      o ∈ allowed ∨ ∃ raw ∈ raws, originOf (trim raw) = some o := by
  induction raws generalizing allowed with
  | nil => simp
  | cons raw raws ih =>
    have hone : o ∈ addOrigin allowed raw ↔ o ∈ allowed ∨ originOf (trim raw) = some o := by
      unfold addOrigin
      cases originOf (trim raw) with
      | none => simp
      | some o' =>
        simp only [Option.some.injEq]
        split
        · rename_i hmem
          constructor
          · exact Or.inl
          · rintro (h | rfl)
            · exact h
            · exact hmem
        · rw [List.mem_append, List.mem_singleton, eq_comm]
    rw [List.foldl_cons, ih, hone, List.exists_mem_cons_iff, or_assoc]

/-- Allowed are the origins of the configured URLs. -/
theorem mem_csrfAllowedOrigins {publicUrl : String} {corsOrigins : Option String}
    {allowed : List (List Char)}
    (h : csrfAllowedOrigins (some publicUrl) corsOrigins = some allowed) {o : List Char} :
    o ∈ allowed ↔ ∃ u ∈ configuredUrls publicUrl corsOrigins, writtenOrigin u = some o := by
  obtain ⟨url, hurl, rfl⟩ := Option.map_eq_some_iff.mp h
  obtain ⟨hsame, -⟩ := Option.filter_eq_some_iff.mp hurl
  cases hsame
  simp only [← originOf_eq]
  rw [configuredUrls, List.exists_mem_cons_iff]
  cases corsOrigins with
  | none => simp
  | some list =>
    rw [mem_foldl_addOrigin]
    simp

section Check

variable {publicUrl : String} {corsOrigins : Option String} {allowed : List (List Char)}

/-- A text that is presented as the claim passes when a configured URL has its
written origin. -/
theorem csrfOriginAllowed_some
    (h : csrfAllowedOrigins (some publicUrl) corsOrigins = some allowed) (s : List Char) :
    csrfOriginAllowed (some s) allowed = true ↔
      ∃ u ∈ configuredUrls publicUrl corsOrigins, ∃ o,
        writtenOrigin u = some o ∧ writtenOrigin s = some o := by
  have hmem : csrfOriginAllowed (some s) allowed = true ↔ (originOf s).getD s ∈ allowed := by
    simp [csrfOriginAllowed]
  rw [hmem, mem_csrfAllowedOrigins h, originOf_eq]
  cases hs : writtenOrigin s with
  | some o => simp
  | none =>
    constructor
    · rintro ⟨u, hu, hwritten⟩
      have hself : writtenOrigin s = some s := writtenOrigin_idem hwritten
      rw [hs] at hself
      cases hself
    · rintro ⟨u, -, o, -, hnone⟩
      cases hnone

/-- An accepted text has the origin of a configured URL. -/
theorem csrfOriginAllowed_sound
    (h : csrfAllowedOrigins (some publicUrl) corsOrigins = some allowed) {s : List Char}
    (haccepted : csrfOriginAllowed (some s) allowed = true) :
    ∃ u ∈ configuredUrls publicUrl corsOrigins, SameOrigin s u := by
  obtain ⟨u, hu, o, huo, hso⟩ := (csrfOriginAllowed_some h s).mp haccepted
  exact ⟨u, hu, sameOrigin_of_written hso huo⟩

end Check

/-! ## The same-origin rule -/

/-- The text a request presents: its `Origin`, or its whole `Referer`. -/
def presentedText (origin referer : Header) : Option (List Char) :=
  origin.readable.or referer.readable

/-- The answer to a text is that of the same-origin rule.  It is left open for user
information, which may be ignored or refused. -/
structure ExactlySameOrigin (urls : List (List Char)) (s : List Char) (accepted : Bool) :
    Prop where
  sound : accepted = true → ∃ u ∈ urls, SameOrigin s u
  complete : ∀ u ∈ urls, SameOrigin s u → ¬NamesUser s → ¬NamesUser u → accepted = true

/-- What the check needs of a text: a `Referer` has an origin at all, and a URL that
spells the origin of the text in another way does not stand alone. -/
structure SpelledAsConfigured (urls : List (List Char)) (origin : Header) (s : List Char) :
    Prop where
  recognised : origin.readable = none → (urlParts s).isSome = true
  spelled : ∀ u ∈ urls, SpelledApart s u → ∃ u' ∈ urls, writtenOrigin u' = writtenOrigin s

theorem isSome_of_sameOrigin {s u : List Char} (h : SameOrigin s u) :
    (writtenOrigin s).isSome = true := by
  obtain ⟨o, hs, -⟩ := h
  rw [isSome_writtenOrigin, ← @Option.isSome_map _ _ (fun p => partsOrigin p.1 p.2) (urlParts s)]
  exact Option.isSome_of_eq_some hs

section Check

variable {publicUrl : String} {corsOrigins : Option String} {allowed : List (List Char)}
variable {origin referer : Header} {s : List Char}

/-- The decision in terms of the text presented. -/
theorem csrfOriginAllowed_iff
    (h : csrfAllowedOrigins (some publicUrl) corsOrigins = some allowed)
    (hs : presentedText origin referer = some s) :
    csrfOriginAllowed (claimedOrigin origin referer) allowed = true ↔
      (origin.readable = none ∧ writtenOrigin s = none) ∨
        ∃ u ∈ configuredUrls publicUrl corsOrigins, ∃ o,
          writtenOrigin u = some o ∧ writtenOrigin s = some o := by
  unfold presentedText at hs
  unfold claimedOrigin
  cases horigin : origin.readable with
  | some v =>
    rw [horigin, Option.some_or, Option.some.injEq] at hs
    subst hs
    rw [Option.some_or, csrfOriginAllowed_some h]
    simp
  | none =>
    rw [horigin, Option.none_or] at hs
    rw [Option.none_or, hs, Option.bind_some, originOf_eq]
    cases hwritten : writtenOrigin s with
    | none => simp [csrfOriginAllowed]
    | some o =>
      rw [csrfOriginAllowed_some h, writtenOrigin_idem hwritten]
      simp

/-- The check follows the same-origin rule exactly on the texts that are spelled as the
configuration spells their origin. -/
theorem csrf_exact_iff
    (h : csrfAllowedOrigins (some publicUrl) corsOrigins = some allowed)
    (hs : presentedText origin referer = some s) :
    ExactlySameOrigin (configuredUrls publicUrl corsOrigins) s
        (csrfOriginAllowed (claimedOrigin origin referer) allowed) ↔
      SpelledAsConfigured (configuredUrls publicUrl corsOrigins) origin s := by
  have haccept := csrfOriginAllowed_iff h hs
  constructor
  · intro hexact
    constructor
    · intro hreferer
      by_contra hnone
      rw [← isSome_writtenOrigin, Bool.not_eq_true, Option.isSome_eq_false_iff,
        Option.isNone_iff_eq_none] at hnone
      obtain ⟨u, -, hsame⟩ := hexact.sound (haccept.mpr (Or.inl ⟨hreferer, hnone⟩))
      have hsome := isSome_of_sameOrigin hsame
      rw [hnone] at hsome
      cases hsome
    · intro u hu hspelled
      have hsome := isSome_of_sameOrigin hspelled.same
      have hpass := hexact.complete u hu hspelled.same hspelled.left_plain hspelled.right_plain
      rcases haccept.mp hpass with ⟨-, hnone⟩ | ⟨u', hu', o, hwritten, hown⟩
      · rw [hnone] at hsome
        cases hsome
      · exact ⟨u', hu', hwritten.trans hown.symm⟩
  · rintro ⟨hrecognised, hspelled⟩
    constructor
    · intro hpass
      rcases haccept.mp hpass with ⟨hreferer, hnone⟩ | ⟨u, hu, o, hwritten, hown⟩
      · have hsome := hrecognised hreferer
        rw [← isSome_writtenOrigin, hnone] at hsome
        cases hsome
      · exact ⟨u, hu, sameOrigin_of_written hown hwritten⟩
    · intro u hu hsame hleft hright
      obtain ⟨o, hown⟩ := Option.isSome_iff_exists.mp (isSome_of_sameOrigin hsame)
      refine haccept.mpr (Or.inr ?_)
      by_cases hwritten : writtenOrigin s = writtenOrigin u
      · exact ⟨u, hu, o, hwritten.symm.trans hown, hown⟩
      · obtain ⟨u', hu', hwritten'⟩ := hspelled u hu ⟨hsame, hleft, hright, hwritten⟩
        exact ⟨u', hu', o, hwritten'.trans hown, hown⟩

/-- The dashboard's own origin, as it is configured, passes. -/
theorem csrf_exact_iff_dashboard :
    ExactlySameOrigin (configuredUrls "https://cloud.reproit.com/" none)
        "https://cloud.reproit.com".toList
        (csrfOriginAllowed (claimedOrigin (.text "https://cloud.reproit.com") .missing)
          ["https://cloud.reproit.com".toList]) ↔
      SpelledAsConfigured (configuredUrls "https://cloud.reproit.com/" none)
        (.text "https://cloud.reproit.com") "https://cloud.reproit.com".toList :=
  csrf_exact_iff (by decide) (by decide)

/-- A public URL with a capital letter, or with its port, shuts the browsers of that
origin out.  A `Referer` that is no URL passes. -/
theorem csrf_spellings_differ :
    ¬ExactlySameOrigin (configuredUrls "https://Cloud.Reproit.com" none)
        "https://cloud.reproit.com".toList
        (csrfOriginAllowed (claimedOrigin (.text "https://cloud.reproit.com") .missing)
          ["https://Cloud.Reproit.com".toList]) ∧
    ¬ExactlySameOrigin (configuredUrls "https://cloud.reproit.com:443" none)
        "https://cloud.reproit.com".toList
        (csrfOriginAllowed (claimedOrigin (.text "https://cloud.reproit.com") .missing)
          ["https://cloud.reproit.com:443".toList]) ∧
    ¬ExactlySameOrigin (configuredUrls "https://cloud.reproit.com" none)
        "about:blank".toList
        (csrfOriginAllowed (claimedOrigin .missing (.text "about:blank"))
          ["https://cloud.reproit.com".toList]) ∧
    csrfAllowedOrigins (some "https://Cloud.Reproit.com") none =
      some ["https://Cloud.Reproit.com".toList] ∧
    csrfAllowedOrigins (some "https://cloud.reproit.com:443") none =
      some ["https://cloud.reproit.com:443".toList] ∧
    csrfAllowedOrigins (some "https://cloud.reproit.com") none =
      some ["https://cloud.reproit.com".toList] := by
  refine ⟨?_, ?_, ?_, by decide, by decide, by decide⟩
  · intro hexact
    have hpass := hexact.complete _ List.mem_cons_self
      ⟨⟨"https".toList, "cloud.reproit.com".toList, some 443⟩, by decide, by decide⟩
      (by decide) (by decide)
    revert hpass
    decide
  · intro hexact
    have hpass := hexact.complete _ List.mem_cons_self
      ⟨⟨"https".toList, "cloud.reproit.com".toList, some 443⟩, by decide, by decide⟩
      (by decide) (by decide)
    revert hpass
    decide
  · intro hexact
    obtain ⟨u, -, hsame⟩ := hexact.sound (by decide)
    have hsome := isSome_of_sameOrigin hsame
    revert hsome
    decide

/-- A browser writes the origin of a page in small letters and without a default port.
If the configuration does too, the answer to a browser is that of the rule. -/
theorem spelledAsConfigured_of_canonical
    (hcanonical : ∀ u ∈ configuredUrls publicUrl corsOrigins, Canonical u)
    (hbrowser : Canonical s) (hrecognised : origin.readable = none → (urlParts s).isSome = true) :
    SpelledAsConfigured (configuredUrls publicUrl corsOrigins) origin s where
  recognised := hrecognised
  spelled u hu hspelled :=
    absurd (written_of_canonical hbrowser (hcanonical u hu) hspelled.same) hspelled.apart

end Check

/-- A request that changes state is stopped exactly when the check is on and its claim
is not allowed. -/
theorem csrfOriginCheck_eq_error_iff {publicUrl corsOrigins : Option String} {method : Method}
    {origin referer : Header} {status : Nat} :
    csrfOriginCheck publicUrl corsOrigins method origin referer = .error status ↔
      status = 403 ∧ method.isUnsafe = true ∧ ∃ allowed,
        csrfAllowedOrigins publicUrl corsOrigins = some allowed ∧
          csrfOriginAllowed (claimedOrigin origin referer) allowed = false := by
  unfold csrfOriginCheck
  cases method.isUnsafe with
  | false => simp
  | true =>
    cases csrfAllowedOrigins publicUrl corsOrigins with
    | none => simp
    | some allowed =>
      cases hpass : csrfOriginAllowed (claimedOrigin origin referer) allowed with
      | true => simp [hpass]
      | false =>
        simp only [if_true, hpass, Bool.false_eq_true, if_false, Except.error.injEq,
          Option.some.injEq, exists_eq_left', and_true]
        exact eq_comm

end ReproitCloud
