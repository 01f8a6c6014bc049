import ReproitCloud.Control.NewProject
import ReproitCloud.Lib.PercentText
import ReproitCloud.Protocol.Checks
import ReproitCloud.Tenancy.BlobRoute

/-!
# App ids

A project gets an app id from its name: the name in small letters, with dashes for what is
no ASCII letter or digit, and six random digits.  The name may be any text of at most 80
bytes.  `toLowercase` is that of the standard library, over the tables of Unicode, which
are a parameter.  It makes two characters of a capital `I` with a dot and one of any other,
so a name has no more small letters than bytes.

* `minted_app_id_is_usable`: every app id is a token of the protocol, one safe segment of a
  blob key, and one segment of a URL that is written and read as it is.
-/

namespace ReproitCloud

open Lib

/-! ## Small letters -/

/-- What the tables of Unicode say of a character. -/
structure CaseTable where
  /-- The small form, where it is one character and depends on nothing. -/
  small : Char → Char
  cased : Char → Bool
  caseIgnorable : Char → Bool

namespace CaseTable

variable (T : CaseTable)

/-- `case_ignorable_then_cased`. -/
def ignorableThenCased (cs : List Char) : Bool :=
  (cs.dropWhile T.caseIgnorable).head?.any T.cased

/-- `map_uppercase_sigma`, with the text before it from its end. -/
def smallSigma (before after : List Char) : Char :=
  if T.ignorableThenCased before && !T.ignorableThenCased after then 'ς' else 'σ'

/-- `char::to_lowercase`. -/
def smallChar (c : Char) : List Char :=
  if c.toNat < 128 then [c.toLower]
  else if c = 'İ' then ['i', Char.ofNat 0x307]
  else [T.small c]

/-- The small letters of a text, with the text before it from its end. -/
def smallText : List Char → List Char → List Char
  | _, [] => []
  | before, c :: after =>
    (if c = 'Σ' then [T.smallSigma before after] else T.smallChar c) ++
      smallText (c :: before) after

end CaseTable

/-- `str::to_lowercase`. -/
def toLowercase (T : CaseTable) (s : String) : String := String.ofList (T.smallText [] s.toList)

theorem length_smallChar_le (T : CaseTable) (c : Char) : (T.smallChar c).length ≤ c.utf8Size := by
  have hpos : 0 < c.utf8Size := c.utf8Size_pos
  unfold CaseTable.smallChar
  split
  · exact hpos
  · split
    · rename_i hdotted
      subst hdotted
      decide
    · exact hpos

theorem length_smallText_le (T : CaseTable) (before cs : List Char) :
    (T.smallText before cs).length ≤ (String.ofList cs).utf8ByteSize := by
  rw [String.utf8ByteSize_ofList]
  induction cs generalizing before with
  | nil => exact Nat.le_refl _
  | cons c cs ih =>
    have hrest := ih (c :: before)
    have hfirst : (if c = 'Σ' then [T.smallSigma before cs] else T.smallChar c).length ≤
        c.utf8Size := by
      split
      · exact c.utf8Size_pos
      · exact length_smallChar_le T c
    rw [CaseTable.smallText, List.length_append, String.utf8Len_cons]
    omega

/-- A text has at least as many bytes as small letters. -/
theorem length_toLowercase_le (T : CaseTable) (s : String) :
    (toLowercase T s).toList.length ≤ s.utf8ByteSize := by
  have hle := length_smallText_le T [] s.toList
  rw [String.ofList_toList] at hle
  rwa [toLowercase, String.toList_ofList]

/-! ## The characters of an app id -/

/-- A letter, a digit or a dash. -/
def appIdChar (c : Char) : Bool := c.isAlphanum || c = '-'

theorem appIdChar_of_isHexDigit {c : Char} (h : isHexDigit c = true) : appIdChar c = true := by
  simp only [isHexDigit, Bool.or_eq_true, Bool.and_eq_true, decide_eq_true_eq] at h
  simp only [appIdChar, Char.isAlphanum, Char.isAlpha, Char.isUpper, Char.isLower, Bool.or_eq_true,
    Bool.and_eq_true, decide_eq_true_eq]
  rcases h with (hdigit | hsmall) | hcapital
  · exact .inl (.inr hdigit)
  · exact .inl (.inl (.inr ⟨hsmall.1, le_trans hsmall.2 (by decide)⟩))
  · exact .inl (.inl (.inl ⟨hcapital.1, le_trans hcapital.2 (by decide)⟩))

theorem tokenChar_of_appIdChar {c : Char} (h : appIdChar c = true) :
    Protocol.tokenChar c = true := by
  simp only [appIdChar, Bool.or_eq_true, decide_eq_true_eq] at h
  rcases h with h | rfl
  · simp [Protocol.tokenChar, h]
  · decide

theorem uriChar_of_appIdChar {c : Char} (h : appIdChar c = true) : uriChar c = true := by
  simp only [appIdChar, Bool.or_eq_true, decide_eq_true_eq] at h
  rcases h with h | rfl
  · simp [uriChar, h]
  · decide

theorem utf8Size_of_appIdChar {c : Char} (h : appIdChar c = true) : c.utf8Size = 1 := by
  simp only [appIdChar, Char.isAlphanum, Char.isAlpha, Char.isUpper, Char.isLower, Char.isDigit,
    Bool.or_eq_true, Bool.and_eq_true, decide_eq_true_eq, UInt32.le_iff_toNat_le, ge_iff_le] at h
  rw [Char.utf8Size_eq_one_iff, UInt32.le_iff_toNat_le]
  rcases h with ((h | h) | h) | rfl
  · exact h.2.trans (by decide)
  · exact h.2.trans (by decide)
  · exact h.2.trans (by decide)
  · decide

/-- A text of such characters has one byte for each. -/
theorem utf8ByteSize_of_appIdChar {cs : List Char} (h : ∀ c ∈ cs, appIdChar c = true) :
    (String.ofList cs).utf8ByteSize = cs.length := by
  rw [String.utf8ByteSize_ofList]
  induction cs with
  | nil => rfl
  | cons c cs ih =>
    rw [List.forall_mem_cons] at h
    rw [String.utf8Len_cons, ih h.2, utf8Size_of_appIdChar h.1, List.length_cons]

/-! ## App ids -/

section Minting

variable {name digits : String}

theorem toList_newAppId (lowercase : String → String) (name digits : String) :
    (newAppId lowercase name digits).toList =
      (slugOf (lowercase name)).toList ++ '-' :: digits.toList := by
  simp [newAppId]

theorem appIdChar_of_mem_slugOf {lowercase : String} {c : Char}
    (h : c ∈ (slugOf lowercase).toList) : appIdChar c = true := by
  rw [slugOf, String.toList_ofList] at h
  obtain ⟨d, -, rfl⟩ := List.mem_map.1 (mem_of_mem_strip h)
  split
  · rename_i halnum
    simp [appIdChar, halnum]
  · decide

theorem appIdChar_of_mem_newAppId {lowercase : String → String}
    (hdigits : digits.toList.all isHexDigit = true) {c : Char}
    (h : c ∈ (newAppId lowercase name digits).toList) : appIdChar c = true := by
  rw [toList_newAppId, List.mem_append, List.mem_cons] at h
  rcases h with hslug | rfl | hdigit
  · exact appIdChar_of_mem_slugOf hslug
  · decide
  · exact appIdChar_of_isHexDigit (List.all_eq_true.1 hdigits c hdigit)

/-- An app id is as long as the name, the dash and the digits at most. -/
theorem length_newAppId_le (T : CaseTable) (name digits : String) :
    (newAppId (toLowercase T) name digits).toList.length ≤
      name.utf8ByteSize + 1 + digits.toList.length := by
  have hlower := length_toLowercase_le T name
  have hslug : (slugOf (toLowercase T name)).toList.length ≤
      (toLowercase T name).toList.length := by
    rw [slugOf, String.toList_ofList, strip, List.length_reverse]
    refine (List.dropWhile_sublist _).length_le.trans ?_
    rw [List.length_reverse]
    refine (List.dropWhile_sublist _).length_le.trans ?_
    rw [List.length_map]
  rw [toList_newAppId, List.length_append, List.length_cons]
  omega

/-- A segment with a dash is no directory. -/
theorem properSegment_of_dash {cs : List Char} (h : '-' ∈ cs) : properSegment cs = true := by
  have hne : ∀ other : List Char, '-' ∉ other → cs ≠ other := by
    rintro other hother rfl
    exact hother h
  simp [properSegment, hne [] (by simp), hne ['.', '.'] (by decide), hne ['.'] (by decide)]

end Minting

/-- The route accepts names of at most 80 bytes. -/
theorem appId_of_projectToCreate {w : Accounts} {lowercase : String → String} {orgId db : Int64}
    {role requestedName name appId : String} {chance : CreationChance}
    (h : w.projectToCreate lowercase orgId role requestedName chance = .ok (db, name, appId)) :
    name = String.ofList (trim requestedName.toList) ∧ name.utf8ByteSize ≤ 80 ∧
      appId = newAppId lowercase name chance.digits := by
  unfold Accounts.projectToCreate at h
  split at h
  · cases h
  dsimp only at h
  split at h
  · cases h
  rename_i hname
  split at h
  · cases h
  rename_i db' t hresolve
  generalize (if chance.countFails = true then (0 : Int) else t.countProjects) = used at h
  split at h
  · cases h
  cases h
  exact ⟨rfl, Nat.le_of_not_lt fun hlong => hname (.inr hlong), rfl⟩

/-- The app id is the one that the keys of the blobs start with. -/
theorem minted_of_projectToCreate {w : Accounts} {lowercase : String → String} {orgId db : Int64}
    {role requestedName name appId : String} {chance : CreationChance}
    (hlength : chance.digits.toList.length = 6)
    (hdigits : chance.digits.toList.all isHexDigit = true)
    (h : w.projectToCreate lowercase orgId role requestedName chance = .ok (db, name, appId)) :
    Minted appId := by
  obtain ⟨rfl, -, rfl⟩ := appId_of_projectToCreate h
  refine ⟨lowercase, requestedName, chance.digits.toList, hlength, hdigits, ?_⟩
  apply String.toList_injective
  rw [toList_newAppId, mintAppId, slugOf, String.toList_ofList, String.toList_ofList]
  rfl

/-- Every app id that a creation mints is a token of the protocol, one safe segment of a blob
key, and one segment of a URL that is written and read as it is. -/
theorem minted_app_id_is_usable (T : CaseTable) (w : Accounts) (orgId : Int64)
    (role requestedName : String) (chance : CreationChance) {db : Int64} {name appId : String}
    (hlength : chance.digits.toList.length = 6)
    (hdigits : chance.digits.toList.all isHexDigit = true)
    (h : w.projectToCreate (toLowercase T) orgId role requestedName chance =
      .ok (db, name, appId)) :
    Protocol.validateToken appId = .ok () ∧
      (appId.toList.splitOn '/' = [appId.toList] ∧ properSegment appId.toList = true ∧
        isSafeKey appId = true) ∧
      percentEncode appId.toList = appId.toList ∧ percentDecode appId.toList = some appId := by
  obtain ⟨-, hname, rfl⟩ := appId_of_projectToCreate h
  have hchars : ∀ c ∈ (newAppId (toLowercase T) name chance.digits).toList, appIdChar c = true :=
    fun c hc => appIdChar_of_mem_newAppId hdigits hc
  have hdash : '-' ∈ (newAppId (toLowercase T) name chance.digits).toList := by
    simp [toList_newAppId]
  have hlong := length_newAppId_le T name chance.digits
  generalize newAppId (toLowercase T) name chance.digits = appId at hchars hdash hlong
  have hsegment : appId.toList.splitOn '/' = [appId.toList] := by
    refine List.splitOn_eq_singleton fun hslash => ?_
    exact absurd (hchars '/' hslash) (by decide)
  have hproper := properSegment_of_dash hdash
  have hwritten := percentEncode_eq_self fun c hc => uriChar_of_appIdChar (hchars c hc)
  refine ⟨?_, ⟨hsegment, hproper, ?_⟩, hwritten, ?_⟩
  · have hbytes := utf8ByteSize_of_appIdChar hchars
    rw [String.ofList_toList] at hbytes
    rw [Protocol.validateToken_ok_iff, hbytes, Protocol.maxTokenBytes]
    refine ⟨?_, by omega, fun c hc => tokenChar_of_appIdChar (hchars c hc)⟩
    rintro rfl
    cases hdash
  · rw [isSafeKey_iff, hsegment]
    simpa using hproper
  · have hread := percentDecode_percentEncode appId
    rwa [hwritten] at hread

/-- Tables for a name whose letters are ASCII letters or the dotted capital. -/
def plainCases : CaseTable where
  small := id
  cased := Char.isAlpha
  caseIgnorable := fun c => c = '.'

theorem minted_app_id_is_usable_istanbul :
    (twoShops 5).projectToCreate (toLowercase plainCases) 1 "owner" " İstanbul! " secondShop =
        .ok (1, "İstanbul!", "i-stanbul-c0ffee") ∧
      Protocol.validateToken "i-stanbul-c0ffee" = .ok () :=
  have haccepted : (twoShops 5).projectToCreate (toLowercase plainCases) 1 "owner" " İstanbul! "
      secondShop = .ok (1, "İstanbul!", "i-stanbul-c0ffee") := rfl
  ⟨haccepted, (minted_app_id_is_usable plainCases (twoShops 5) 1 "owner" " İstanbul! " secondShop
    rfl rfl haccepted).1⟩

end ReproitCloud
