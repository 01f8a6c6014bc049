import ReproitCloud.Captures.Store
import ReproitCloud.Lib.DecimalText
import ReproitCloud.Lib.Segments

/-!
# The blobs of a tenant

All tenants share one store of objects.  A handler gets a `TenantBlobs`, which puts the scope
of its tenant before every key and refuses a key with a segment that is empty or a dot.  The
scope of an organization is `t/` and its id.  A server that hosts itself has one tenant and
no scope.

A backend turns the scoped key into that of an object (`Backend.objectKey`).  The files of
the local backend have the key as their path.  The bucket has a code of its own for the
characters of a segment.

* `splitOn_physical`: an object that is reached through the blobs of an organization has the
  scope as its first two segments, and proper ones after it.
* `tenant_blobs_isolated`: so no object is reached through two organizations, no operation
  of one touches an object of another, and the end of one that succeeds takes all of its
  objects along.
* `delete_scope_stops`: in the bucket it goes through `maxDeletePrefixObjects` objects, and
  fails when there are more.
-/

namespace ReproitCloud

open Lib

/-! ## Keys -/

/-- A segment that names nothing but an entry of its directory. -/
def properSegment (seg : List Char) : Bool := seg ≠ "..".toList && seg ≠ ".".toList && !seg.isEmpty

/-- `is_safe_key`. -/
def isSafeKey (key : String) : Bool :=
  !key.toList.isEmpty && key.toList.head? ≠ some '/' &&
    (key.toList.splitOn '/').all properSegment

/-- `str::trim_start_matches` of a character. -/
def trimStartMatches (d : Char) (cs : List Char) : List Char := cs.dropWhile fun c => c = d

/-- `str::trim_matches` of a character. -/
def trimMatches (d : Char) (cs : List Char) : List Char :=
  (trimStartMatches d (trimStartMatches d cs).reverse).reverse

/-- `Provisioner::blob_scope`. -/
def blobScope (orgId : Int64) : String := String.ofList ("t/".toList ++ int64Chars orgId)

/-! ## Backends -/

/-- How the object store writes a segment of a path: `PathPart::from`. -/
structure SegmentCode where
  encode : List Char → List Char
  injective : ∀ a b, encode a = encode b → a = b
  proper : ∀ seg, properSegment seg = true → '/' ∉ seg →
    properSegment (encode seg) = true ∧ '/' ∉ encode seg
  /-- Letters, digits and dashes are written as they are. -/
  plain : ∀ seg, (seg.all fun c => c.isAlphanum || c = '-') = true → encode seg = seg

/-- `Backend`. -/
inductive Backend where
  | localFs
  | r2 (code : SegmentCode)

/-- `Path::from`: empty segments are left out. -/
def SegmentCode.objectPath (code : SegmentCode) (key : String) : String :=
  String.ofList (['/'].intercalate
    (((key.toList.splitOn '/').filter fun seg => !seg.isEmpty).map code.encode))

/-- The object of a scoped key. -/
def Backend.objectKey : Backend → String → String
  | localFs, key => String.ofList (trimStartMatches '/' key.toList)
  | r2 code, key => code.objectPath key

/-- The objects of a backend, by their keys. -/
abbrev Objects := Table String Bytes

/-- The objects under a prefix. -/
def objectsUnder (dir key : String) : Bool := Under '/' dir.toList key.toList

/-- `MAX_DELETE_PREFIX_OBJECTS`. -/
def maxDeletePrefixObjects : Nat := 100000

/-- What the environment decides of an operation on objects. -/
structure BlobChance where
  fails : Bool := false
  /-- What a write that fails leaves of the object, if it has begun one. -/
  begun : Option Bytes := none
  /-- The objects that a deletion does not get to before it fails. -/
  kept : String → Bool := fun _ => true

/-- More objects than a deletion in the bucket goes through. -/
def Backend.tooMany (B : Backend) (objects : Objects) (dir : String) : Bool :=
  match B with
  | localFs => false
  | r2 _ => maxDeletePrefixObjects < objects.count fun key _ => objectsUnder dir key

/-- `delete_prefix`, with whether it has succeeded. -/
def Backend.deletePrefix (B : Backend) (objects : Objects) (dir : String) (chance : BlobChance) :
    Objects × Bool :=
  let dir := B.objectKey dir
  if chance.fails || B.tooMany objects dir then
    (objects.delete fun key _ => objectsUnder dir key && !chance.kept key, false)
  else (objects.delete fun key _ => objectsUnder dir key, true)

/-- `Blobs::delete_scope`. -/
def Backend.deleteScope (B : Backend) (objects : Objects) (scope : String) (chance : BlobChance) :
    Objects × Bool :=
  let scope := trimMatches '/' scope.toList
  if scope.isEmpty then (objects, false)
  else B.deletePrefix objects (String.ofList scope) chance

/-! ## The blobs of one tenant -/

/-- `TenantBlobs`. -/
structure TenantBlobs where
  backend : Backend
  scope : String

/-- `Blobs::for_tenant`. -/
def Backend.forTenant (B : Backend) (scope : String) : TenantBlobs := ⟨B, scope⟩

/-- What `url_for` hands out. -/
inductive BlobUrl where
  /-- A path of this server. -/
  | proxied (path : String)
  /-- A signed request for an object of the bucket. -/
  | presigned (key : String)
deriving DecidableEq, Repr

namespace TenantBlobs

variable (t : TenantBlobs)

/-- `scoped`. -/
def scopedKey (key : String) : String :=
  if t.scope.toList.isEmpty then key
  else String.ofList (trimMatches '/' t.scope.toList ++ '/' :: key.toList)

/-- `safe_scoped`. -/
def safeScoped (key : String) : Option String :=
  if isSafeKey (t.scopedKey key) then some (t.scopedKey key) else none

/-- The object of a key that is not refused. -/
def physical (key : String) : Option String := (t.safeScoped key).map t.backend.objectKey

/-- `put` and `put_path`, with whether it has succeeded. -/
def put (objects : Objects) (key : String) (bytes : Bytes) (chance : BlobChance) : Objects × Bool :=
  (t.physical key).elim (objects, false) fun object =>
    if chance.fails then
      (chance.begun.elim objects fun part => objects.upsert object part fun _ => part, false)
    else (objects.upsert object bytes fun _ => bytes, true)

/-- `get`. -/
def get (objects : Objects) (key : String) (chance : BlobChance) : Option Bytes :=
  if chance.fails then none else (t.physical key).bind objects.get?

/-- `url_for`. -/
def urlFor (key : String) (chance : BlobChance) : Option BlobUrl :=
  (t.safeScoped key).bind fun key =>
    match t.backend with
    | .localFs => some (.proxied ("/v1/blob/" ++ key))
    | .r2 code => if chance.fails then none else some (.presigned (code.objectPath key))

/-- `delete`, with whether it has succeeded.  A key without an object is no error. -/
def delete (objects : Objects) (key : String) (chance : BlobChance) : Objects × Bool :=
  (t.physical key).elim (objects, false) fun object =>
    if chance.fails then
      (if chance.kept object then objects else objects.delete fun k _ => k = object, false)
    else (objects.delete fun k _ => k = object, true)

end TenantBlobs

/-- The operations on blobs. -/
inductive BlobOp where
  | put (key : String) (bytes : Bytes)
  | get (key : String)
  | urlFor (key : String)
  | delete (key : String)
  | deleteScope

/-- The objects after an operation on the blobs of a tenant. -/
def BlobOp.run (t : TenantBlobs) (objects : Objects) (chance : BlobChance) : BlobOp → Objects
  | put key bytes => (t.put objects key bytes chance).1
  | get _ | urlFor _ => objects
  | delete key => (t.delete objects key chance).1
  | deleteScope => (t.backend.deleteScope objects t.scope chance).1

/-! ## What a key can reach -/

theorem int64Chars_inj {a b : Int64} (h : int64Chars a = int64Chars b) : a = b := by
  have := congrArg parseInt64 h
  rwa [parseInt64_chars, parseInt64_chars, Option.some.injEq] at this

theorem plain_of_mem_int64Chars {a : Int64} {c : Char} (h : c ∈ int64Chars a) :
    c.isDigit = true ∨ c = '-' := by
  unfold int64Chars at h
  split at h
  · exact .inl (isDigit_of_mem_toDigits h)
  · rcases List.mem_cons.1 h with rfl | h
    · exact .inr rfl
    · exact .inl (isDigit_of_mem_toDigits h)

theorem slash_not_mem_int64Chars (a : Int64) : '/' ∉ int64Chars a := by
  intro h
  rcases plain_of_mem_int64Chars h with h | h <;> revert h <;> decide

theorem int64Chars_ne_nil (a : Int64) : int64Chars a ≠ [] := by
  unfold int64Chars
  split
  · exact Nat.toDigits_ne_nil
  · exact List.cons_ne_nil _ _

/-- The number is a proper segment, and one that is written as it is. -/
theorem properSegment_int64Chars (a : Int64) :
    properSegment (int64Chars a) = true ∧
      ((int64Chars a).all fun c => c.isAlphanum || c = '-') = true := by
  have hdot : '.' ∉ int64Chars a := fun h => by
    rcases plain_of_mem_int64Chars h with h | h <;> revert h <;> decide
  constructor
  · rw [properSegment, Bool.and_eq_true, Bool.and_eq_true, Bool.not_eq_true', decide_eq_true_eq,
      decide_eq_true_eq]
    refine ⟨⟨?_, ?_⟩, ?_⟩
    · intro h
      exact hdot (h ▸ List.mem_cons_self)
    · intro h
      exact hdot (h ▸ List.mem_cons_self)
    · rw [List.isEmpty_eq_false_iff]
      exact int64Chars_ne_nil a
  · rw [List.all_eq_true]
    intro c hc
    rcases plain_of_mem_int64Chars hc with h | h
    · simp [Char.isAlphanum, h]
    · simp [h]

theorem splitOn_blobScope (a : Int64) :
    (blobScope a).toList.splitOn '/' = [['t'], int64Chars a] := by
  rw [blobScope, String.toList_ofList]
  show (['t'] ++ '/' :: int64Chars a).splitOn '/' = _
  rw [List.splitOn_append_cons_self, List.splitOn_eq_singleton (slash_not_mem_int64Chars a)]
  rfl

/-- Nothing is trimmed off a scope. -/
theorem trimMatches_blobScope (a : Int64) :
    trimMatches '/' (blobScope a).toList = (blobScope a).toList := by
  have hlast : trimStartMatches '/' (blobScope a).toList.reverse = (blobScope a).toList.reverse := by
    rw [blobScope, String.toList_ofList, List.reverse_append]
    obtain ⟨c, cs, hcs⟩ := List.exists_cons_of_ne_nil
      (List.reverse_ne_nil_iff.2 (int64Chars_ne_nil a))
    have hc : c ≠ '/' := by
      rintro rfl
      exact slash_not_mem_int64Chars a (List.mem_reverse.1 (hcs ▸ List.mem_cons_self))
    rw [hcs, List.cons_append, trimStartMatches, List.dropWhile_cons_of_neg (by simpa using hc)]
  have hfirst : trimStartMatches '/' (blobScope a).toList = (blobScope a).toList := by
    rw [blobScope, String.toList_ofList]
    rfl
  rw [trimMatches, hfirst, hlast, List.reverse_reverse]

theorem isSafeKey_iff {key : String} :
    isSafeKey key = true ↔ ∀ seg ∈ key.toList.splitOn '/', properSegment seg = true := by
  rw [isSafeKey, Bool.and_eq_true, List.all_eq_true]
  refine ⟨fun h => h.2, fun h => ⟨?_, h⟩⟩
  cases hcs : key.toList with
  | nil =>
    have := h [] (by rw [hcs, List.splitOn_nil]; exact List.mem_singleton_self [])
    cases this
  | cons c cs =>
    have hc : c ≠ '/' := by
      rintro rfl
      have := h [] (by rw [hcs, List.splitOn_cons_eq_if_modifyHead]; exact List.mem_cons_self)
      cases this
    simp [hc]

section OneObject

variable {t : TenantBlobs} {key object : String}

theorem get?_put_of_ne (h : ∀ object', t.physical key = some object' → object ≠ object')
    (objects : Objects) (bytes : Bytes) (chance : BlobChance) :
    (t.put objects key bytes chance).1.get? object = objects.get? object := by
  rw [TenantBlobs.put]
  cases hphysical : t.physical key with
  | none => rw [Option.elim_none]
  | some object' =>
    have hne := h object' hphysical
    rw [Option.elim_some]
    cases chance.fails with
    | true => cases chance.begun <;> simp [hne]
    | false => simp [hne]

theorem get?_delete_of_ne (h : ∀ object', t.physical key = some object' → object ≠ object')
    (objects : Objects) (chance : BlobChance) :
    (t.delete objects key chance).1.get? object = objects.get? object := by
  rw [TenantBlobs.delete]
  cases hphysical : t.physical key with
  | none => rw [Option.elim_none]
  | some object' =>
    rw [Option.elim_some]
    have hdelete : (objects.delete fun k _ => k = object').get? object = objects.get? object :=
      Table.get?_delete_of_false objects fun _ => decide_eq_false (h object' hphysical)
    cases chance.fails with
    | true => cases chance.kept object' <;> simp [hdelete]
    | false => simp [hdelete]

/-- An address is that of a key that is not refused. -/
theorem urlFor_spec {chance : BlobChance} {url : BlobUrl} (h : t.urlFor key chance = some url) :
    t.safeScoped key = some (t.scopedKey key) ∧
      (t.backend = .localFs ∧ url = .proxied ("/v1/blob/" ++ t.scopedKey key) ∨
        url = .presigned (t.backend.objectKey (t.scopedKey key))) := by
  obtain ⟨scopedKey, hscoped, hurl⟩ := Option.bind_eq_some_iff.1 h
  obtain ⟨-, heq⟩ := Option.ite_none_right_eq_some.1 hscoped
  cases heq
  refine ⟨hscoped, ?_⟩
  cases hbackend : t.backend with
  | localFs =>
    rw [hbackend] at hurl
    exact .inl ⟨rfl, (Option.some.inj hurl).symm⟩
  | r2 code =>
    rw [hbackend] at hurl
    exact .inr (Option.some.inj (Option.ite_none_left_eq_some.1 hurl).2).symm

end OneObject

section Physical

variable {B : Backend} {a : Int64} {key object : String}

theorem scopedKey_blobScope (B : Backend) (a : Int64) (key : String) :
    (B.forTenant (blobScope a)).scopedKey key =
      String.ofList ((blobScope a).toList ++ '/' :: key.toList) := by
  have hne : (blobScope a).toList.isEmpty = false := by
    rw [blobScope, String.toList_ofList]
    rfl
  rw [TenantBlobs.scopedKey]
  simp only [Backend.forTenant, hne, Bool.false_eq_true, if_false, trimMatches_blobScope]

theorem splitOn_scopedKey (B : Backend) (a : Int64) (key : String) :
    ((B.forTenant (blobScope a)).scopedKey key).toList.splitOn '/' =
      ['t'] :: int64Chars a :: key.toList.splitOn '/' := by
  rw [scopedKey_blobScope, String.toList_ofList, List.splitOn_append_cons_self, splitOn_blobScope]
  rfl

/-- The local backend keeps a scoped key as it is. -/
theorem objectKey_scopedKey (a : Int64) (key : String) :
    Backend.localFs.objectKey ((Backend.localFs.forTenant (blobScope a)).scopedKey key) =
      (Backend.localFs.forTenant (blobScope a)).scopedKey key := by
  rw [scopedKey_blobScope, Backend.objectKey, String.toList_ofList, blobScope, String.toList_ofList]
  rfl

/-- The segments of an object that is reached through the blobs of an organization. -/
theorem splitOn_physical (h : (B.forTenant (blobScope a)).physical key = some object) :
    ∃ rest, rest ≠ [] ∧ (∀ seg ∈ rest, properSegment seg = true) ∧
      object.toList.splitOn '/' = ['t'] :: int64Chars a :: rest := by
  obtain ⟨scopedKey, hscoped, hobject⟩ := Option.map_eq_some_iff.1 h
  obtain ⟨hsafe, heq⟩ := Option.ite_none_right_eq_some.1 hscoped
  cases heq
  rw [isSafeKey_iff, splitOn_scopedKey] at hsafe
  have hrest : ∀ seg ∈ key.toList.splitOn '/', properSegment seg = true := fun seg hseg =>
    hsafe seg (List.mem_cons_of_mem _ (List.mem_cons_of_mem _ hseg))
  cases B with
  | localFs =>
    refine ⟨key.toList.splitOn '/', List.splitOn_ne_nil _ _, hrest, ?_⟩
    have hkept : object = (Backend.localFs.forTenant (blobScope a)).scopedKey key :=
      hobject.symm.trans (objectKey_scopedKey a key)
    rw [hkept, splitOn_scopedKey]
  | r2 code =>
    have hnonempty : ∀ seg ∈ ['t'] :: int64Chars a :: key.toList.splitOn '/',
        (!seg.isEmpty) = true := fun seg hseg => (Bool.and_eq_true_iff.1 (hsafe seg hseg)).2
    have hencoded : ∀ seg ∈ key.toList.splitOn '/', properSegment (code.encode seg) = true ∧
        '/' ∉ code.encode seg := fun seg hseg =>
      code.proper seg (hrest seg hseg) (not_mem_of_mem_splitOn hseg)
    refine ⟨(key.toList.splitOn '/').map code.encode, ?_, ?_, ?_⟩
    · rw [Ne, List.map_eq_nil_iff]
      exact List.splitOn_ne_nil _ _
    · intro seg hseg
      obtain ⟨raw, hraw, rfl⟩ := List.mem_map.1 hseg
      exact (hencoded raw hraw).1
    · rw [← hobject]
      simp only [Backend.objectKey, Backend.forTenant, SegmentCode.objectPath, String.toList_ofList]
      have hsplit := splitOn_scopedKey (.r2 code) a key
      simp only [Backend.forTenant] at hsplit
      rw [hsplit, List.filter_eq_self.2 hnonempty, List.map_cons, List.map_cons,
        code.plain ['t'] rfl, code.plain _ (properSegment_int64Chars a).2]
      apply List.splitOn_intercalate
      · intro seg hseg
        rcases List.mem_cons.1 hseg with rfl | hseg
        · decide
        · rcases List.mem_cons.1 hseg with rfl | hseg
          · exact slash_not_mem_int64Chars a
          · obtain ⟨raw, hraw, rfl⟩ := List.mem_map.1 hseg
            exact (hencoded raw hraw).2
      · exact List.cons_ne_nil _ _

/-- The object lies under the scope. -/
theorem under_physical (h : (B.forTenant (blobScope a)).physical key = some object) :
    Under '/' (blobScope a).toList object.toList := by
  obtain ⟨rest, hne, -, hsegments⟩ := splitOn_physical h
  rw [under_iff, splitOn_blobScope]
  exact ⟨rest, hne, hsegments⟩

theorem blobScope_inj {b : Int64} (h : (blobScope a).toList = (blobScope b).toList) : a = b := by
  simp only [blobScope, String.toList_ofList, List.append_cancel_left_eq] at h
  exact int64Chars_inj h

/-- An object lies under the scope of one organization. -/
theorem under_unique {b : Int64} (ha : Under '/' (blobScope a).toList object.toList)
    (hb : Under '/' (blobScope b).toList object.toList) : a = b := by
  have hdepth : ((blobScope a).toList.splitOn '/').length =
      ((blobScope b).toList.splitOn '/').length := by
    simp only [splitOn_blobScope, List.length_cons, List.length_nil]
  exact blobScope_inj (ha.unique hb hdepth)

/-- A scope is its own object key. -/
theorem objectKey_blobScope (B : Backend) (a : Int64) : B.objectKey (blobScope a) = blobScope a := by
  cases B with
  | localFs =>
    rw [Backend.objectKey, blobScope, String.toList_ofList]
    rfl
  | r2 code =>
    have hnonempty : ∀ seg ∈ [['t'], int64Chars a], (!seg.isEmpty) = true := by
      intro seg hseg
      rcases List.mem_cons.1 hseg with rfl | hseg
      · rfl
      · rw [List.mem_singleton.1 hseg]
        exact (Bool.and_eq_true_iff.1 (properSegment_int64Chars a).1).2
    rw [Backend.objectKey, SegmentCode.objectPath, splitOn_blobScope,
      List.filter_eq_self.2 hnonempty, List.map_cons, List.map_singleton, code.plain ['t'] rfl,
      code.plain _ (properSegment_int64Chars a).2]
    simp [blobScope, List.intercalate]

theorem deleteScope_blobScope (B : Backend) (a : Int64) (objects : Objects) (chance : BlobChance) :
    B.deleteScope objects (blobScope a) chance = B.deletePrefix objects (blobScope a) chance := by
  have hne : (blobScope a).toList.isEmpty = false := by
    rw [blobScope, String.toList_ofList]
    rfl
  simp only [Backend.deleteScope, trimMatches_blobScope, hne, Bool.false_eq_true, if_false,
    String.ofList_toList]

/-- A deletion under a scope keeps what lies elsewhere. -/
theorem get?_deleteScope_of_not_under (B : Backend) (objects : Objects) (chance : BlobChance)
    (h : ¬ Under '/' (blobScope a).toList object.toList) :
    (B.deleteScope objects (blobScope a) chance).1.get? object = objects.get? object := by
  have hnot : objectsUnder (blobScope a) object = false := decide_eq_false h
  rw [deleteScope_blobScope]
  simp only [Backend.deletePrefix, objectKey_blobScope]
  split
  · dsimp only
    exact Table.get?_delete_of_false objects fun _ => by simp [hnot]
  · dsimp only
    exact Table.get?_delete_of_false objects fun _ => by simp [hnot]

/-- One that succeeds leaves nothing under the scope. -/
theorem get?_deleteScope_of_under {objects objects' : Objects} {chance : BlobChance}
    (hdelete : B.deleteScope objects (blobScope a) chance = (objects', true))
    (h : Under '/' (blobScope a).toList object.toList) : objects'.get? object = none := by
  have hunder : objectsUnder (blobScope a) object = true := decide_eq_true h
  rw [deleteScope_blobScope] at hdelete
  simp only [Backend.deletePrefix, objectKey_blobScope] at hdelete
  split at hdelete
  · cases hdelete
  · cases hdelete
    rw [Table.get?_delete, Option.filter_eq_none_iff]
    intro bytes _
    simp [hunder]

/-- A deletion succeeds when nothing fails and it gets to all objects under the scope. -/
theorem deleteScope_succeeds_iff (B : Backend) (a : Int64) (objects : Objects)
    (chance : BlobChance) : (B.deleteScope objects (blobScope a) chance).2 = true ↔
      chance.fails = false ∧ (B = .localFs ∨
        objects.count (fun key _ => objectsUnder (blobScope a) key) ≤ maxDeletePrefixObjects) := by
  rw [deleteScope_blobScope]
  simp only [Backend.deletePrefix, objectKey_blobScope]
  cases hfails : chance.fails with
  | true => simp
  | false =>
    cases B with
    | localFs => simp [Backend.tooMany]
    | r2 code =>
      by_cases hmany : maxDeletePrefixObjects <
          objects.count fun key _ => objectsUnder (blobScope a) key
      · simp [Backend.tooMany, hmany]
      · simp [Backend.tooMany, hmany, not_lt.1 hmany]

/-- An operation on the blobs of an organization keeps what lies outside its scope. -/
theorem get?_run_of_not_under (op : BlobOp) (objects : Objects) (chance : BlobChance)
    (h : ¬ Under '/' (blobScope a).toList object.toList) :
    (op.run (B.forTenant (blobScope a)) objects chance).get? object = objects.get? object := by
  have hother : ∀ key object', (B.forTenant (blobScope a)).physical key = some object' →
      object ≠ object' := by
    rintro key object' hphysical rfl
    exact h (under_physical hphysical)
  cases op with
  | put key bytes => exact get?_put_of_ne (hother key) objects bytes chance
  | get key => rfl
  | urlFor key => rfl
  | delete key => exact get?_delete_of_ne (hother key) objects chance
  | deleteScope => exact get?_deleteScope_of_not_under B objects chance h

end Physical

/-! ## Two organizations -/

/-- No object is reached through the blobs of two organizations.  Every operation of one
keeps to the objects under its scope.  The deletion of its scope takes none of the other, and
all of its own if it succeeds, which it does unless a call fails or, in the bucket, more than
`maxDeletePrefixObjects` objects are there. -/
theorem tenant_blobs_isolated {a b : Int64} (hab : a ≠ b) (B : Backend) :
    (∀ key object, (B.forTenant (blobScope a)).physical key = some object →
        Under '/' (blobScope a).toList object.toList ∧
        (∀ seg ∈ object.toList.splitOn '/', properSegment seg = true) ∧
        ∀ key', (B.forTenant (blobScope b)).physical key' ≠ some object) ∧
      (∀ key chance url, (B.forTenant (blobScope a)).urlFor key chance = some url →
        ∃ object, (B.forTenant (blobScope a)).physical key = some object ∧
          (url = .proxied ("/v1/blob/" ++ object) ∨ url = .presigned object)) ∧
      (∀ (op : BlobOp) objects chance object, ¬ Under '/' (blobScope a).toList object.toList →
        (op.run (B.forTenant (blobScope a)) objects chance).get? object = objects.get? object) ∧
      ∀ objects chance,
        ((B.deleteScope objects (blobScope a) chance).2 = true ↔
          chance.fails = false ∧ (B = .localFs ∨
            objects.count (fun key _ => objectsUnder (blobScope a) key) ≤
              maxDeletePrefixObjects)) ∧
        ((B.deleteScope objects (blobScope a) chance).2 = true →
          ∀ key object, (B.forTenant (blobScope a)).physical key = some object →
            (B.deleteScope objects (blobScope a) chance).1.get? object = none) ∧
        ∀ key object, (B.forTenant (blobScope b)).physical key = some object →
          (B.deleteScope objects (blobScope a) chance).1.get? object = objects.get? object := by
  have hapart : ∀ key object, (B.forTenant (blobScope b)).physical key = some object →
      ¬ Under '/' (blobScope a).toList object.toList := fun key object hphysical hunder =>
    hab (under_unique hunder (under_physical hphysical))
  refine ⟨fun key object hphysical => ⟨under_physical hphysical, ?_, ?_⟩, ?_, ?_, ?_⟩
  · obtain ⟨rest, -, hproper, hsegments⟩ := splitOn_physical hphysical
    rw [hsegments]
    intro seg hseg
    rcases List.mem_cons.1 hseg with rfl | hseg
    · decide
    · rcases List.mem_cons.1 hseg with rfl | hseg
      · exact (properSegment_int64Chars a).1
      · exact hproper seg hseg
  · exact fun key' hphysical' => hapart key' object hphysical' (under_physical hphysical)
  · intro key chance url hurl
    obtain ⟨hscoped, haddress⟩ := urlFor_spec hurl
    refine ⟨_, Option.map_eq_some_iff.2 ⟨_, hscoped, rfl⟩, ?_⟩
    rcases haddress with ⟨hlocal, rfl⟩ | hsigned
    · have hlocal : B = .localFs := hlocal
      subst hlocal
      exact .inl (congrArg (fun object => BlobUrl.proxied ("/v1/blob/" ++ object))
        (objectKey_scopedKey a key).symm)
    · exact .inr hsigned
  · exact fun op objects chance object h => get?_run_of_not_under op objects chance h
  · intro objects chance
    refine ⟨deleteScope_succeeds_iff B a objects chance, fun hdelete key object hphysical => ?_,
      fun key object hphysical =>
        get?_deleteScope_of_not_under B objects chance (hapart key object hphysical)⟩
    have hpair : B.deleteScope objects (blobScope a) chance =
        ((B.deleteScope objects (blobScope a) chance).1, true) := by rw [← hdelete]
    exact get?_deleteScope_of_under hpair (under_physical hphysical)

/-- A file of organization 1, and one of organization 10. -/
def twoFiles : Objects :=
  ⟨[("t/1/app/1/a.png", [1]), ("t/10/app/1/a.png", [2])], by decide⟩

/-- The end of organization 1 takes its file and not the one of organization 10. -/
theorem tenant_blobs_isolated_ten :
    (Backend.localFs.forTenant (blobScope 1)).physical "app/1/a.png" = some "t/1/app/1/a.png" ∧
      (Backend.localFs.deleteScope twoFiles (blobScope 1) {}).2 = true ∧
      (Backend.localFs.deleteScope twoFiles (blobScope 1) {}).1.get? "t/1/app/1/a.png" = none ∧
      (Backend.localFs.deleteScope twoFiles (blobScope 1) {}).1.get? "t/10/app/1/a.png" =
        some [2] := by
  obtain ⟨-, -, -, hdelete⟩ := tenant_blobs_isolated (by decide : (1 : Int64) ≠ 10) .localFs
  obtain ⟨hsucceeds, hgone, hkept⟩ := hdelete twoFiles {}
  have hone : (Backend.localFs.forTenant (blobScope 1)).physical "app/1/a.png" =
      some "t/1/app/1/a.png" := by decide
  have hten : (Backend.localFs.forTenant (blobScope 10)).physical "app/1/a.png" =
      some "t/10/app/1/a.png" := by decide
  have hdone := hsucceeds.2 ⟨rfl, .inl rfl⟩
  exact ⟨hone, hdone, hgone hdone _ _ hone, hkept _ _ hten⟩

/-! ## A scope with too many objects -/

/-- The objects after a put for each of some keys. -/
def putAll (t : TenantBlobs) (keys : List String) (objects : Objects) : Objects :=
  keys.foldl (fun objects key => (t.put objects key [] {}).1) objects

section TooMany

variable {t : TenantBlobs} {keys : List String} {objects : Objects} {object : String}

theorem has_put (t : TenantBlobs) (objects : Objects) (key : String) (bytes : Bytes)
    (object : String) : (t.put objects key bytes {}).1.has object = true ↔
      t.physical key = some object ∨ objects.has object = true := by
  rw [TenantBlobs.put]
  cases t.physical key with
  | none => simp
  | some object' =>
    rw [Option.elim_some, if_neg Bool.false_ne_true, Table.has_upsert, Bool.or_eq_true,
      decide_eq_true_eq, Option.some.injEq, eq_comm]

theorem has_putAll (t : TenantBlobs) (keys : List String) (objects : Objects) (object : String) :
    (putAll t keys objects).has object = true ↔
      (∃ key ∈ keys, t.physical key = some object) ∨ objects.has object = true := by
  induction keys generalizing objects with
  | nil => simp [putAll]
  | cons key keys ih =>
    show (putAll t keys (t.put objects key [] {}).1).has object = true ↔ _
    rw [ih, has_put, List.exists_mem_cons_iff, or_assoc, or_left_comm]

/-- Objects that are there and are counted are no more than the count. -/
theorem length_le_count {p : String → Bytes → Bool} {there : List String} (hnodup : there.Nodup)
    (h : ∀ object ∈ there, objects.has object = true ∧ ∀ bytes, p object bytes = true) :
    there.length ≤ objects.count p := by
  have hsub : there ⊆ (objects.rows.filter fun r => p r.1 r.2).map Prod.fst := by
    intro object hobject
    obtain ⟨hhas, hcounted⟩ := h object hobject
    obtain ⟨bytes, hbytes⟩ := Option.isSome_iff_exists.1 hhas
    exact List.mem_map.2 ⟨(object, bytes),
      List.mem_filter.2 ⟨Table.get?_eq_some_iff.1 hbytes, hcounted bytes⟩, rfl⟩
  have hle := (List.subperm_of_subset hnodup hsub).length_le
  rwa [List.length_map, ← List.countP_eq_length_filter] at hle

end TooMany

/-- A store that writes every segment as it is. -/
def plainCode : SegmentCode where
  encode := id
  injective _ _ h := h
  proper _ hproper hslash := ⟨hproper, hslash⟩
  plain _ _ := rfl

/-- A number as a key. -/
def numberKey (n : Nat) : String := String.ofList (Nat.toDigits 10 n)

/-- The bucket has the object of a number under the key of the number. -/
theorem physical_numberKey (a : Int64) (n : Nat) :
    ((Backend.r2 plainCode).forTenant (blobScope a)).physical (numberKey n) =
      some (String.ofList ((blobScope a).toList ++ '/' :: Nat.toDigits 10 n)) := by
  have hdigit : ∀ c ∈ Nat.toDigits 10 n, c ≠ '/' ∧ c ≠ '.' := fun c hc => by
    have hc := isDigit_of_mem_toDigits hc
    constructor <;> (rintro rfl; revert hc; decide)
  have hproper : properSegment (Nat.toDigits 10 n) = true := by
    rw [properSegment, Bool.and_eq_true, Bool.and_eq_true, Bool.not_eq_true', decide_eq_true_eq,
      decide_eq_true_eq, List.isEmpty_eq_false_iff]
    refine ⟨⟨fun h => ?_, fun h => ?_⟩, Nat.toDigits_ne_nil⟩
    · exact (hdigit '.' (h ▸ List.mem_cons_self)).2 rfl
    · exact (hdigit '.' (h ▸ List.mem_cons_self)).2 rfl
  have hsplit : (((Backend.r2 plainCode).forTenant (blobScope a)).scopedKey
      (numberKey n)).toList.splitOn '/' = [['t'], int64Chars a, Nat.toDigits 10 n] := by
    rw [splitOn_scopedKey, numberKey, String.toList_ofList,
      List.splitOn_eq_singleton fun h => (hdigit '/' h).1 rfl]
  have hsegments : ∀ seg ∈ [['t'], int64Chars a, Nat.toDigits 10 n], properSegment seg = true := by
    intro seg hseg
    simp only [List.mem_cons, List.not_mem_nil, or_false] at hseg
    rcases hseg with rfl | rfl | rfl
    · decide
    · exact (properSegment_int64Chars a).1
    · exact hproper
  have hsafe : isSafeKey (((Backend.r2 plainCode).forTenant (blobScope a)).scopedKey
      (numberKey n)) = true := by
    rw [isSafeKey_iff, hsplit]
    exact hsegments
  rw [TenantBlobs.physical, TenantBlobs.safeScoped, if_pos hsafe, Option.map_some,
    Option.some.injEq]
  simp only [Backend.forTenant, Backend.objectKey, SegmentCode.objectPath]
  simp only [Backend.forTenant] at hsplit
  have hkept : [['t'], int64Chars a, Nat.toDigits 10 n].filter (fun seg => !seg.isEmpty) =
      [['t'], int64Chars a, Nat.toDigits 10 n] :=
    List.filter_eq_self.2 fun seg hseg => (Bool.and_eq_true_iff.1 (hsegments seg hseg)).2
  rw [hsplit, hkept, blobScope, String.toList_ofList]
  simp [plainCode, List.intercalate]

/-- The numbered objects of an organization. -/
def numberedObject (a : Int64) (n : Nat) : String :=
  String.ofList ((blobScope a).toList ++ '/' :: Nat.toDigits 10 n)

theorem numberedObject_inj {a : Int64} {m n : Nat} (h : numberedObject a m = numberedObject a n) :
    m = n := by
  have hchars := List.append_cancel_left (String.ofList_injective h)
  have hdigits := congrArg parseDigits (List.cons.inj hchars).2
  rwa [parseDigits_toDigits, parseDigits_toDigits, Option.some.injEq] at hdigits

/-- With one object more than a deletion in the bucket goes through, one that was put through
the blobs of the organization stays, though no call fails. -/
theorem delete_scope_stops :
    ¬ ∀ (B : Backend) (a : Int64) (keys : List String) (chance : BlobChance) (key object : String),
      chance.fails = false → key ∈ keys →
      (B.forTenant (blobScope a)).physical key = some object →
      (B.deleteScope (putAll (B.forTenant (blobScope a)) keys .empty) (blobScope a)
        chance).1.get? object = none := by
  intro hall
  have hthis := hall (.r2 plainCode) 1 ((List.range (maxDeletePrefixObjects + 1)).map numberKey)
    { kept := fun object => object = numberedObject 1 0 } (numberKey 0) (numberedObject 1 0) rfl
    (List.mem_map.2 ⟨0, List.mem_range.2 (Nat.succ_pos _), rfl⟩) (physical_numberKey 1 0)
  generalize hobjects : putAll ((Backend.r2 plainCode).forTenant (blobScope 1))
    ((List.range (maxDeletePrefixObjects + 1)).map numberKey) .empty = objects at hthis
  have hhas : ∀ n, n < maxDeletePrefixObjects + 1 →
      objects.has (numberedObject 1 n) = true := by
    intro n hn
    rw [← hobjects, has_putAll]
    exact .inl ⟨numberKey n, List.mem_map.2 ⟨n, List.mem_range.2 hn, rfl⟩, physical_numberKey 1 n⟩
  have hunder : ∀ n, objectsUnder (blobScope 1) (numberedObject 1 n) = true := fun n =>
    decide_eq_true (under_physical (physical_numberKey 1 n))
  have hmany : maxDeletePrefixObjects <
      objects.count fun key _ => objectsUnder (blobScope 1) key := by
    have hnodup : ((List.range (maxDeletePrefixObjects + 1)).map (numberedObject 1)).Nodup :=
      List.nodup_range.map fun m n => numberedObject_inj
    have hthere : ∀ object ∈ (List.range (maxDeletePrefixObjects + 1)).map (numberedObject 1),
        objects.has object = true ∧ ∀ _ : Bytes, objectsUnder (blobScope 1) object = true := by
      intro object hobject
      obtain ⟨n, hn, rfl⟩ := List.mem_map.1 hobject
      exact ⟨hhas n (List.mem_range.1 hn), fun _ => hunder n⟩
    have hle : ((List.range (maxDeletePrefixObjects + 1)).map (numberedObject 1)).length ≤
        objects.count fun key _ => objectsUnder (blobScope 1) key := length_le_count hnodup hthere
    rwa [List.length_map, List.length_range] at hle
  rw [deleteScope_blobScope] at hthis
  simp only [Backend.deletePrefix, objectKey_blobScope, Backend.tooMany, hmany, decide_true,
    Bool.or_true, if_true, Table.get?_delete, Option.filter_eq_none_iff] at hthis
  obtain ⟨bytes, hbytes⟩ := Option.isSome_iff_exists.1 (hhas 0 (Nat.succ_pos _))
  have hgone := hthis bytes hbytes
  simp at hgone

end ReproitCloud
