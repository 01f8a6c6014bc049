import ReproitCloud.Lib.DecimalText
import ReproitCloud.Telemetry.Store

/-!
# The replay of an error

The path of an error is the list of steps that led to it.  `replayActions` keeps the
actions a runner can repeat: going back, keys, taps on structural selectors, and typed
input whose value is named by a class.

The value of a typed step is what follows its first `=`.  `is_safe_type_action` takes
what follows the last `=`, and of the selector before it only the first letters when it
is a `key:` selector.  So a value may hide in the selector (`HidesValue`), and
`replay_typed_iff` says that no value is kept otherwise.
-/

namespace ReproitCloud

open Lib

/-! ## Replay actions -/

/-- `is_role_selector`. -/
def isRoleSelector (sel : List Char) : Bool :=
  match ("role:".toList.isPrefixOf? sel).bind (splitOnce '#') with
  | none => false
  | some (role, idx) =>
    !role.isEmpty && role.all (fun c => c.isLower || c = '-') && !idx.isEmpty && idx.all Char.isDigit

/-- `is_structural_selector`. -/
def isStructuralSelector (sel : List Char) : Bool :=
  "key:".toList.isPrefixOf sel || isRoleSelector sel

/-- `is_structural_tap_action`. -/
def isStructuralTapAction (a : List Char) : Bool :=
  match "tap:".toList.isPrefixOf? a with
  | none => false
  | some sel => isStructuralSelector sel

/-- A letter of a class token. -/
def classChar (c : Char) : Bool := c.isLower || c.isDigit || c = '_' || c = '-'

/-- `is_safe_type_action`. -/
def isSafeTypeAction (a : List Char) : Bool :=
  match ("type:".toList.isPrefixOf? a).bind (rsplitOnce '=') with
  | none => false
  | some (sel, cls) =>
    if !("key:".toList.isPrefixOf sel) && !isRoleSelector sel then false
    else !cls.isEmpty && (String.ofList cls).utf8ByteSize ≤ 32 && cls.all classChar

/-- `is_replay_action`. -/
def isReplayAction (a : List Char) : Bool :=
  a = "back".toList || "key:".toList.isPrefixOf a || isStructuralTapAction a || isSafeTypeAction a

/-- `replay_actions`. -/
def replayActions (rec : ErrorRec) : List String :=
  (rec.path.map Step.action).filter fun a => isReplayAction a.toList

/-! ## Typed values -/

/-- A class token. -/
structure ClassToken (cls : List Char) : Prop where
  ne_nil : cls ≠ []
  short : cls.length ≤ 32
  chars : ∀ c ∈ cls, classChar c = true

/-- The action names a class after its first `=`. -/
def NamesClass (a : List Char) : Prop :=
  ∃ sel cls, a = sel ++ '=' :: cls ∧ '=' ∉ sel ∧ ClassToken cls

/-- A typed step whose value ends in `=` and a class token. -/
def HidesValue (a : List Char) : Prop :=
  ∃ sel cls, a = "type:key:".toList ++ sel ++ '=' :: cls ∧ '=' ∈ sel ∧ ClassToken cls

section Typed

variable {a sel cls : List Char} {c : Char}

theorem utf8ByteSize_of_classChar (h : ∀ c ∈ cls, classChar c = true) :
    (String.ofList cls).utf8ByteSize = cls.length := by
  rw [String.utf8ByteSize_ofList]
  induction cls with
  | nil => rfl
  | cons c cls ih =>
    rw [List.forall_mem_cons] at h
    have hcode : c.toNat ≤ 127 := by
      have hclass := h.1
      simp only [classChar, Char.isLower, Char.isDigit, Bool.or_eq_true, Bool.and_eq_true,
        decide_eq_true_eq, UInt32.le_iff_toNat_le, ge_iff_le] at hclass
      rcases hclass with ((hclass | hclass) | rfl) | rfl
      · exact hclass.2.trans (by decide)
      · exact hclass.2.trans (by decide)
      · decide
      · decide
    rw [String.utf8Len_cons, ih h.2, Char.utf8Size_eq_one_iff.2 (UInt32.le_iff_toNat_le.2 hcode),
      List.length_cons]

theorem classToken_iff : (!cls.isEmpty && (String.ofList cls).utf8ByteSize ≤ 32 &&
    cls.all classChar) = true ↔ ClassToken cls := by
  simp only [Bool.and_eq_true, Bool.not_eq_true', List.isEmpty_eq_false_iff, decide_eq_true_eq,
    List.all_eq_true]
  constructor
  · rintro ⟨⟨hne, hshort⟩, hchars⟩
    exact ⟨hne, utf8ByteSize_of_classChar hchars ▸ hshort, hchars⟩
  · rintro ⟨hne, hshort, hchars⟩
    exact ⟨⟨hne, (utf8ByteSize_of_classChar hchars).symm ▸ hshort⟩, hchars⟩

theorem ClassToken.no_equals (h : ClassToken cls) : '=' ∉ cls :=
  fun hmem => absurd (h.chars '=' hmem) (by decide)

theorem not_mem_roleSelector (h : isRoleSelector sel = true) : '=' ∉ sel := by
  rw [isRoleSelector] at h
  split at h
  · cases h
  rename_i role idx hsplit
  obtain ⟨rest, hrole, hidx⟩ := Option.bind_eq_some_iff.1 hsplit
  rw [List.isPrefixOf?_eq_some_iff_append_eq] at hrole
  obtain ⟨rfl, -⟩ := splitOnce_eq_some hidx
  simp only [Bool.and_eq_true, List.all_eq_true] at h
  obtain ⟨⟨⟨-, hroles⟩, -⟩, hdigits⟩ := h
  rw [← hrole, List.mem_append, List.mem_append, List.mem_cons]
  rintro (hmem | hmem | hmem | hmem)
  · exact absurd hmem (by decide)
  · exact absurd (hroles _ hmem) (by decide)
  · exact absurd hmem (by decide)
  · exact absurd (hdigits _ hmem) (by decide)

theorem not_structural_eq (sel : List Char) : (!("key:".toList.isPrefixOf sel) &&
    !isRoleSelector sel) = !isStructuralSelector sel := (Bool.not_or _ _).symm

/-- What `is_safe_type_action` takes. -/
theorem isSafeTypeAction_iff : isSafeTypeAction a = true ↔
    ∃ sel cls, a = "type:".toList ++ sel ++ '=' :: cls ∧ isStructuralSelector sel = true ∧
      ClassToken cls := by
  constructor
  · intro h
    rw [isSafeTypeAction] at h
    split at h
    · cases h
    rename_i sel cls hsplit
    obtain ⟨rest, hrest, hclass⟩ := Option.bind_eq_some_iff.1 hsplit
    rw [List.isPrefixOf?_eq_some_iff_append_eq] at hrest
    obtain ⟨rfl, -⟩ := rsplitOnce_eq_some hclass
    rw [not_structural_eq] at h
    split at h
    · cases h
    · rename_i hsel
      exact ⟨sel, cls, by rw [← hrest, List.append_assoc], by simpa using hsel, classToken_iff.1 h⟩
  · rintro ⟨sel, cls, rfl, hsel, hclass⟩
    have hsplit : ("type:".toList.isPrefixOf? ("type:".toList ++ sel ++ '=' :: cls)).bind
        (rsplitOnce '=') = some (sel, cls) := by
      rw [List.append_assoc, List.isPrefixOf?_eq_some_iff_append_eq.2 rfl, Option.bind_some,
        rsplitOnce_append sel hclass.no_equals]
    rw [isSafeTypeAction, hsplit]
    simp only [not_structural_eq, hsel]
    exact classToken_iff.2 hclass

/-- The only replay actions that start like typed steps are those. -/
theorem isReplayAction_typed (h : "type:".toList <+: a) :
    isReplayAction a = isSafeTypeAction a := by
  obtain ⟨rest, rfl⟩ := h
  have hback : decide ("type:".toList ++ rest = "back".toList) = false :=
    decide_eq_false fun h => by simp at h
  have hkey : "key:".toList.isPrefixOf ("type:".toList ++ rest) = false := rfl
  have htap : isStructuralTapAction ("type:".toList ++ rest) = false := rfl
  rw [isReplayAction, hback, hkey, htap]
  rfl

/-- A replay carries no typed value when none hides in the selector of a typed step. -/
theorem replay_typed_iff (rec : ErrorRec) :
    (∀ a ∈ replayActions rec, "type:".toList <+: a.toList → NamesClass a.toList) ↔
      ∀ s ∈ rec.path, ¬ HidesValue s.action.toList := by
  constructor
  · rintro hall s hs ⟨sel, cls, haction, hequals, hclass⟩
    have htyped : "type:".toList <+: s.action.toList :=
      ⟨"key:".toList ++ sel ++ '=' :: cls, by rw [haction]; simp⟩
    have hsafe : isSafeTypeAction s.action.toList = true :=
      isSafeTypeAction_iff.2 ⟨"key:".toList ++ sel, cls, by rw [haction]; simp, by
        simp [isStructuralSelector], hclass⟩
    have hkept : s.action ∈ replayActions rec :=
      List.mem_filter.2 ⟨List.mem_map_of_mem hs, (isReplayAction_typed htyped).trans hsafe⟩
    obtain ⟨sel', cls', hnames, hfirst, hclass'⟩ := hall _ hkept htyped
    -- The first `=` is in the selector, so the last is in what follows it.
    obtain ⟨before, after, rfl, hbefore⟩ := List.eq_append_cons_of_mem hequals
    have hprefix : '=' ∉ "type:key:".toList ++ before := by
      rw [List.mem_append]
      exact fun hmem => hmem.elim (by decide) hbefore
    have hsplit : splitOnce '=' s.action.toList =
        some ("type:key:".toList ++ before, after ++ '=' :: cls) := by
      rw [haction, ← splitOnce_append hprefix]
      simp
    rw [hnames, splitOnce_append hfirst, Option.some.injEq, Prod.mk.injEq] at hsplit
    exact hclass'.no_equals (by simp [hsplit.2])
  · intro hnone a ha htyped
    obtain ⟨hpath, hkept⟩ := List.mem_filter.1 ha
    obtain ⟨s, hs, rfl⟩ := List.mem_map.1 hpath
    rw [isReplayAction_typed htyped] at hkept
    obtain ⟨sel, cls, haction, hsel, hclass⟩ := isSafeTypeAction_iff.1 hkept
    refine ⟨"type:".toList ++ sel, cls, haction, ?_, hclass⟩
    rw [List.mem_append]
    rintro (hmem | hmem)
    · exact absurd hmem (by decide)
    · have hkey : "key:".toList.isPrefixOf sel = true := by
        rw [isStructuralSelector, Bool.or_eq_true] at hsel
        exact hsel.resolve_right fun hrole => not_mem_roleSelector hrole hmem
      obtain ⟨rest, rfl⟩ := List.isPrefixOf_iff_prefix.1 hkey
      refine hnone s hs ⟨rest, cls, by rw [haction]; simp, ?_, hclass⟩
      rcases List.mem_append.1 hmem with hmem | hmem
      · exact absurd hmem (by decide)
      · exact hmem

/-- A record whose one step types a name, and ends in a class. -/
def typedName : ErrorRec where
  sig := "crash"
  message := ""
  path := [{ sig := "form", action := "type:key:name=Jane Doe=long" }]
  context := .empty

/-- The name is kept in the replay. -/
theorem typed_name_is_kept :
    replayActions typedName = ["type:key:name=Jane Doe=long"] ∧
      ¬ ∀ rec, ∀ a ∈ replayActions rec, "type:".toList <+: a.toList → NamesClass a.toList := by
  have hkept : replayActions typedName = ["type:key:name=Jane Doe=long"] := by decide
  refine ⟨hkept, fun hall => ?_⟩
  obtain ⟨sel, cls, hnames, hfirst, hclass⟩ := hall typedName "type:key:name=Jane Doe=long"
    (by rw [hkept]; exact List.mem_singleton.2 rfl) (by decide)
  have hsplit := congrArg (splitOnce '=') hnames
  rw [splitOnce_append hfirst] at hsplit
  have hread : splitOnce '=' "type:key:name=Jane Doe=long".toList =
      some ("type:key:name".toList, "Jane Doe=long".toList) := by decide
  rw [hread, Option.some.injEq, Prod.mk.injEq] at hsplit
  exact absurd (hclass.chars 'J' (hsplit.2 ▸ by decide)) (by decide)

end Typed

end ReproitCloud
