import ReproitCloud.Captures.Uploads
import ReproitCloud.Control.ProjectKeys
import ReproitCloud.Tenancy.Blobs

/-!
# Blobs over the network

The local backend hands out a path of this server for a key, and `get_blob` answers for it.
The path has the scoped key.  The handler takes what it gets for a key of the tenant: its
first segment has to be an app of the tenant, and the scope is put before it once more.

* `blob_url_round_trip`: so what was stored is read back exactly on a server without scopes,
  and only for evidence.  The keys of captures start with no app.
* `scoped_url_is_lost`: evidence of an organization whose blobs have a scope.
-/

namespace ReproitCloud

open Lib

/-! ## Names -/

/-- The app id that `create_project` makes of a name and the digits of a random id. -/
def mintAppId (toLowercase : String → String) (name : String) (hex : List Char) : String :=
  let slug := (toLowercase (String.ofList (trim name.toList))).toList.map fun c =>
    if c.isAlphanum then c else '-'
  String.ofList (trimMatches '-' slug ++ '-' :: hex)

/-- An app id that was made so. -/
def Minted (appId : String) : Prop :=
  ∃ toLowercase name hex, hex.length = 6 ∧ hex.all isHexDigit = true ∧
    appId = mintAppId toLowercase name hex

/-- `kind_ext`. -/
def kindExt (kind : String) : String :=
  if kind = "mp4" then "mp4" else if kind = "gif" then "gif" else if kind = "png" then "png"
  else if kind = "jpg" then "jpg" else "bin"

/-- The text of a `Uuid`. -/
def isUuid (id : String) : Bool := id.toList.length = 36 && id.toList.all fun c => isHexDigit c || c = '-'

/-- The key of an evidence file. -/
def evidenceKey (appId : String) (errorId : Int64) (uuid kind : String) : String :=
  String.ofList (appId.toList ++ '/' :: (int64Chars errorId ++ '/' ::
    (uuid.toList ++ '.' :: (kindExt kind).toList)))

/-- `valid_capture_id`. -/
def validCaptureId (id : String) : Bool :=
  match "cap_".toList.isPrefixOf? id.toList with
  | some suffix => suffix.length = 16 && suffix.all isHexDigit
  | none => false

/-- What an upload path stores a blob for. -/
inductive UploadKey where
  | evidence (appId : String) (errorId : Int64) (uuid kind : String)
  | capture (id filename : String)

namespace UploadKey

def key : UploadKey → String
  | evidence appId errorId uuid kind => evidenceKey appId errorId uuid kind
  | capture id filename => captureKey id filename

/-- What the upload paths accept of a tenant. -/
def Accepted (p : ProjectStore) : UploadKey → Prop
  | evidence appId _ uuid _ => p.ownsApp appId = true ∧ isUuid uuid = true
  | capture id filename => validCaptureId id = true ∧ safeFilename filename = true

end UploadKey

/-! ## The route -/

/-- How the router decodes a parameter of a path. -/
structure PathDecoder where
  decode : String → String
  /-- Only a percent sign is decoded. -/
  plain : ∀ text, '%' ∉ text.toList → decode text = text

/-- The type of a blob, by the extension of its key. -/
def mimeOf (key : String) : String :=
  let ext := String.ofList ((key.toList.splitOn '.').getLastD [])
  if ext = "mp4" then "video/mp4" else if ext = "gif" then "image/gif"
  else if ext = "png" then "image/png" else if ext = "jpg" || ext = "jpeg" then "image/jpeg"
  else "application/octet-stream"

/-- The caller of a route, and what happens to the calls of its gate. -/
structure BlobCaller where
  auth : AuthCtx
  target : Header
  chance : KeyChance

/-- `get_blob`, with the blobs of the tenant of each database. -/
def getBlob (w : Accounts) (blobs : Int64 → TenantBlobs) (objects : Objects) (caller : BlobCaller)
    (key : String) (chance : BlobChance) : Except Reply (String × Bytes) :=
  if !isSafeKey key then .error (err 400 "invalid key")
  else
    let keyApp := String.ofList ((key.toList.splitOn '/').headD [])
    match w.tenantFor caller.auth caller.target keyApp caller.chance with
    | .error reply => .error reply
    | .ok t =>
      match (blobs t.1).get objects key chance with
      | some bytes => .ok (mimeOf key, bytes)
      | none => .error (err 404 "not found")

/-- The parameter of `/v1/blob/*key`.  A query or a fragment is no part of the path. -/
def blobRoute (D : PathDecoder) (url : String) : Option String :=
  ("/v1/blob/".toList.isPrefixOf? (url.toList.takeWhile fun c => c ≠ '?' && c ≠ '#')).map fun key =>
    D.decode (String.ofList key)

/-- What a caller gets for the address of a blob. -/
def fetchUrl (D : PathDecoder) (w : Accounts) (blobs : Int64 → TenantBlobs) (objects : Objects)
    (caller : BlobCaller) (url : BlobUrl) (chance : BlobChance) : Option Bytes :=
  match url with
  | .proxied path =>
    (blobRoute D path).bind fun key =>
      match getBlob w blobs objects caller key chance with
      | .ok (_, bytes) => some bytes
      | .error _ => none
  | .presigned _ => none

/-! ## The characters of a key -/

/-- The characters of the keys.  None of them means anything in a path but the slash. -/
def urlChar (c : Char) : Bool := c.isAlphanum || c = '-' || c = '.' || c = '_' || c = '/'

theorem mem_of_mem_trimStartMatches {d c : Char} {cs : List Char} (h : c ∈ trimStartMatches d cs) :
    c ∈ cs :=
  (List.dropWhile_sublist _).subset h

theorem mem_of_mem_trimMatches {d c : Char} {cs : List Char} (h : c ∈ trimMatches d cs) : c ∈ cs :=
  mem_of_mem_trimStartMatches (List.mem_reverse.1
    (mem_of_mem_trimStartMatches (List.mem_reverse.1 h)))

theorem isAlphanum_of_isHexDigit {c : Char} (h : isHexDigit c = true) : c.isAlphanum = true := by
  simp only [isHexDigit, Char.isDigit, Bool.or_eq_true, Bool.and_eq_true, decide_eq_true_eq] at h
  simp only [Char.isAlphanum, Char.isAlpha, Char.isUpper, Char.isLower, Char.isDigit,
    Bool.or_eq_true, Bool.and_eq_true, decide_eq_true_eq]
  rcases h with (h | h) | h
  · exact .inr h
  · exact .inl (.inr ⟨h.1, h.2.trans (by decide)⟩)
  · exact .inl (.inl ⟨h.1, h.2.trans (by decide)⟩)

namespace Minted

variable {appId : String}

/-- An app id consists of letters, digits and dashes. -/
theorem plain (h : Minted appId) {c : Char} (hc : c ∈ appId.toList) :
    c.isAlphanum = true ∨ c = '-' := by
  obtain ⟨toLowercase, name, hex, -, hhex, rfl⟩ := h
  rw [mintAppId, String.toList_ofList, List.mem_append, List.mem_cons] at hc
  rcases hc with hc | rfl | hc
  · obtain ⟨raw, -, rfl⟩ := List.mem_map.1 (mem_of_mem_trimMatches hc)
    split
    · rename_i hplain
      exact .inl hplain
    · exact .inr rfl
  · exact .inr rfl
  · exact .inl (isAlphanum_of_isHexDigit (List.all_eq_true.1 hhex c hc))

/-- There is a dash in it. -/
theorem dash_mem (h : Minted appId) : '-' ∈ appId.toList := by
  obtain ⟨toLowercase, name, hex, -, -, rfl⟩ := h
  rw [mintAppId, String.toList_ofList]
  exact List.mem_append_right _ List.mem_cons_self

theorem slash_not_mem (h : Minted appId) : '/' ∉ appId.toList := by
  intro hc
  rcases h.plain hc with hc | hc <;> revert hc <;> decide

end Minted

/-- The apps of a tenant have minted ids. -/
def MintedApps (p : ProjectStore) : Prop := ∀ r ∈ p.projects.rows, Minted r.2.appId

theorem minted_of_ownsApp {p : ProjectStore} {appId : String} (h : MintedApps p)
    (howns : p.ownsApp appId = true) : Minted appId := by
  rw [ProjectStore.ownsApp, ProjectStore.projectForApp, Option.isSome_map] at howns
  obtain ⟨r, hr⟩ := Option.isSome_iff_exists.1 howns
  have hid : r.2.appId = appId := by simpa using List.find?_some hr
  exact hid ▸ h r (List.mem_of_find?_eq_some hr)

/-- A text without a dash is no app. -/
theorem ownsApp_eq_false {p : ProjectStore} {appId : String} (h : MintedApps p)
    (hdash : '-' ∉ appId.toList) : p.ownsApp appId = false := by
  by_contra howns
  exact hdash (minted_of_ownsApp h (Bool.not_eq_false _ ▸ howns)).dash_mem

namespace UploadKey

variable {p : ProjectStore} {k : UploadKey}

theorem kindExt_plain (kind : String) : (kindExt kind).toList.all Char.isAlphanum = true := by
  unfold kindExt
  repeat' split
  all_goals decide

theorem captureId_plain {id : String} (h : validCaptureId id = true) {c : Char} (hc : c ∈ id.toList) :
    c.isAlphanum = true ∨ c = '_' := by
  unfold validCaptureId at h
  split at h
  · rename_i suffix hsuffix
    rw [List.isPrefixOf?_eq_some_iff_append_eq] at hsuffix
    rw [← hsuffix] at hc
    rcases List.mem_append.1 hc with hc | hc
    · have hcap : ("cap_".toList.all fun c => c.isAlphanum || c = '_') = true := by decide
      simpa using List.all_eq_true.1 hcap c hc
    · exact .inl (isAlphanum_of_isHexDigit
        (List.all_eq_true.1 (Bool.and_eq_true_iff.1 h).2 c hc))
  · cases h

theorem urlChar_of_isAlphanum {c : Char} (h : c.isAlphanum = true) : urlChar c = true := by
  simp [urlChar, h]

theorem urlChars_key (hminted : MintedApps p) (hk : k.Accepted p) {c : Char}
    (hc : c ∈ k.key.toList) : urlChar c = true := by
  cases k with
  | evidence appId errorId uuid kind =>
    simp only [key, evidenceKey, String.toList_ofList, List.mem_append, List.mem_cons] at hc
    rcases hc with hc | rfl | hc | rfl | hc | rfl | hc
    · rcases (minted_of_ownsApp hminted hk.1).plain hc with hc | rfl
      · exact urlChar_of_isAlphanum hc
      · rfl
    · rfl
    · rcases plain_of_mem_int64Chars hc with hc | rfl
      · exact urlChar_of_isAlphanum (by simp [Char.isAlphanum, hc])
      · rfl
    · rfl
    · have hid := List.all_eq_true.1 (Bool.and_eq_true_iff.1 hk.2).2 c hc
      rw [Bool.or_eq_true, decide_eq_true_eq] at hid
      rcases hid with hid | rfl
      · exact urlChar_of_isAlphanum (isAlphanum_of_isHexDigit hid)
      · rfl
    · rfl
    · exact urlChar_of_isAlphanum (List.all_eq_true.1 (kindExt_plain kind) c hc)
  | capture id filename =>
    simp only [key, captureKey, String.toList_append, List.mem_append] at hc
    rcases hc with ((hc | hc) | hc) | hc
    · have hword : "captures/".toList.all urlChar = true := by decide
      exact List.all_eq_true.1 hword c hc
    · rcases captureId_plain hk.1 hc with hc | rfl
      · exact urlChar_of_isAlphanum hc
      · rfl
    · have hslash : "/".toList.all urlChar = true := by decide
      exact List.all_eq_true.1 hslash c hc
    · have hname := hk.2
      rw [safeFilename, Bool.and_eq_true] at hname
      have hchar := List.all_eq_true.1 hname.2 c hc
      simp only [Bool.or_eq_true, decide_eq_true_eq] at hchar
      simp only [urlChar, Bool.or_eq_true, decide_eq_true_eq]
      tauto

/-- The first segment of a key: the app of evidence. -/
theorem head_key (hminted : MintedApps p) (hk : k.Accepted p) :
    (k.key.toList.splitOn '/').headD [] =
      match k with
      | evidence appId _ _ _ => appId.toList
      | capture _ _ => "captures".toList := by
  cases k with
  | evidence appId errorId uuid kind =>
    simp only [key, evidenceKey, String.toList_ofList]
    rw [List.splitOn_append_cons_self_of_not_mem (minted_of_ownsApp hminted hk.1).slash_not_mem]
    rfl
  | capture id filename =>
    have hword : (key (.capture id filename)).toList =
        "captures".toList ++ '/' :: (id.toList ++ "/".toList ++ filename.toList) := by
      simp [key, captureKey]
    rw [hword, List.splitOn_append_cons_self_of_not_mem (by decide)]
    rfl

end UploadKey

/-! ## From the address to the blob -/

section RoundTrip

variable {D : PathDecoder} {w : Accounts} {blobs : Int64 → TenantBlobs} {objects : Objects}
  {caller : BlobCaller} {db : Int64} {p : ProjectStore}

/-- A path whose characters mean nothing reaches the handler as it is. -/
theorem blobRoute_of_urlChars {key : String} (h : ∀ c ∈ key.toList, urlChar c = true) :
    blobRoute D ("/v1/blob/" ++ key) = some key := by
  have hall : ("/v1/blob/" ++ key).toList.takeWhile (fun c => c ≠ '?' && c ≠ '#') =
      "/v1/blob/".toList ++ key.toList := by
    rw [String.toList_append, List.takeWhile_eq_self_iff]
    intro c hc
    have hurl : urlChar c = true := by
      rcases List.mem_append.1 hc with hc | hc
      · have hword : "/v1/blob/".toList.all urlChar = true := by decide
        exact List.all_eq_true.1 hword c hc
      · exact h c hc
    have hother : c ≠ '?' ∧ c ≠ '#' := by
      constructor <;> rintro rfl <;> revert hurl <;> decide
    simp [hother]
  have hplain : '%' ∉ key.toList := fun hc => by
    have := h '%' hc
    revert this
    decide
  have hdrop : "/v1/blob/".toList.isPrefixOf? ("/v1/blob/".toList ++ key.toList) =
      some key.toList := by
    rw [List.isPrefixOf?_eq_some_iff_append_eq]
  rw [blobRoute, hall, hdrop, Option.map_some, String.ofList_toList, D.plain key hplain]

/-- The handler finds nothing for a key whose first segment is no app of the caller. -/
theorem getBlob_of_not_ownsApp {key : String} {chance : BlobChance}
    (howner : w.tenantOf caller.auth caller.target caller.chance = .ok (db, p))
    (hforeign : p.ownsApp (String.ofList ((key.toList.splitOn '/').headD [])) = false) :
    ∃ reply, getBlob w blobs objects caller key chance = .error reply := by
  unfold getBlob
  split
  · exact ⟨_, rfl⟩
  · simp only [Accounts.tenantFor, howner, hforeign, Bool.not_false, Bool.or_true, if_true]
    exact ⟨_, rfl⟩

/-- For a key of one of the caller's apps it reads the blob. -/
theorem getBlob_of_ownsApp {key : String} {chance : BlobChance} (hsafe : isSafeKey key = true)
    (howner : w.tenantOf caller.auth caller.target caller.chance = .ok (db, p))
    (hcalls : caller.chance.ownsFails = false)
    (howns : p.ownsApp (String.ofList ((key.toList.splitOn '/').headD [])) = true) :
    getBlob w blobs objects caller key chance =
      match (blobs db).get objects key chance with
      | some bytes => .ok (mimeOf key, bytes)
      | none => .error (err 404 "not found") := by
  rw [getBlob, hsafe]
  simp only [Bool.not_true, Bool.false_eq_true, if_false, Accounts.tenantFor, howner, hcalls, howns,
    Bool.or_self]

/-- What a write that succeeds leaves. -/
theorem put_spec {t : TenantBlobs} {objects' : Objects} {key : String} {bytes : Bytes}
    {chance : BlobChance} (h : t.put objects key bytes chance = (objects', true)) :
    isSafeKey (t.scopedKey key) = true ∧
      objects'.get? (t.backend.objectKey (t.scopedKey key)) = some bytes := by
  rw [TenantBlobs.put] at h
  cases hphysical : t.physical key with
  | none =>
    rw [hphysical, Option.elim_none] at h
    cases h
  | some object =>
    rw [hphysical, Option.elim_some] at h
    obtain ⟨scopedKey, hscoped, hobject⟩ := Option.map_eq_some_iff.1 hphysical
    obtain ⟨hsafe, heq⟩ := Option.ite_none_right_eq_some.1 hscoped
    cases heq
    refine ⟨hsafe, ?_⟩
    rw [hobject]
    cases hfails : chance.fails with
    | true =>
      rw [hfails] at h
      cases h
    | false =>
      rw [hfails] at h
      cases h
      cases hold : objects.get? object <;> simp [hold]

theorem get_of_put {t : TenantBlobs} {objects' : Objects} {key : String} {bytes : Bytes}
    {chance : BlobChance} (h : t.put objects key bytes chance = (objects', true)) :
    t.get objects' key {} = some bytes := by
  obtain ⟨hsafe, hobject⟩ := put_spec h
  have hphysical : t.physical key = some (t.backend.objectKey (t.scopedKey key)) := by
    rw [TenantBlobs.physical, TenantBlobs.safeScoped, if_pos hsafe, Option.map_some]
  rw [TenantBlobs.get, if_neg (by decide), hphysical, Option.bind_some, hobject]

/-- What was stored through the local backend is read back at its address exactly on a server
without scopes, for evidence. -/
theorem blob_url_round_trip {D : PathDecoder} {objects' : Objects} {k : UploadKey} {bytes : Bytes}
    {chance : BlobChance}
    (howner : w.tenantOf caller.auth caller.target caller.chance = .ok (db, p))
    (hcalls : caller.chance.ownsFails = false) (hminted : MintedApps p)
    (hlocal : (blobs db).backend = .localFs)
    (hscope : (blobs db).scope = "" ∨ ∃ org, (blobs db).scope = blobScope org)
    (hk : k.Accepted p) (hput : (blobs db).put objects k.key bytes chance = (objects', true)) :
    (∃ url, (blobs db).urlFor k.key {} = some url ∧
        fetchUrl D w blobs objects' caller url {} = some bytes) ↔
      (blobs db).scope = "" ∧
        ∃ appId errorId uuid kind, k = .evidence appId errorId uuid kind := by
  obtain ⟨hsafe, -⟩ := put_spec hput
  have hurl : (blobs db).urlFor k.key {} =
      some (.proxied ("/v1/blob/" ++ (blobs db).scopedKey k.key)) := by
    rw [TenantBlobs.urlFor, TenantBlobs.safeScoped, if_pos hsafe, Option.bind_some, hlocal]
  have hiff : (∃ url, (blobs db).urlFor k.key {} = some url ∧
      fetchUrl D w blobs objects' caller url {} = some bytes) ↔
        fetchUrl D w blobs objects' caller
          (.proxied ("/v1/blob/" ++ (blobs db).scopedKey k.key)) {} = some bytes := by
    rw [hurl]
    simp
  rw [hiff, fetchUrl]
  rcases hscope with hscope | ⟨org, hscope⟩
  · have hkey : (blobs db).scopedKey k.key = k.key := by
      rw [TenantBlobs.scopedKey, hscope]
      rfl
    rw [hkey, blobRoute_of_urlChars fun c => UploadKey.urlChars_key hminted hk, Option.bind_some]
    rw [hkey] at hsafe
    have hhead := UploadKey.head_key hminted hk
    cases k with
    | evidence appId errorId uuid kind =>
      have howns : p.ownsApp (String.ofList
          (((UploadKey.evidence appId errorId uuid kind).key.toList.splitOn '/').headD [])) =
            true := by
        rw [hhead, String.ofList_toList]
        exact hk.1
      rw [getBlob_of_ownsApp hsafe howner hcalls howns, get_of_put hput]
      simp [hscope]
    | capture id filename =>
      have hforeign : p.ownsApp (String.ofList
          (((UploadKey.capture id filename).key.toList.splitOn '/').headD [])) = false := by
        rw [hhead, String.ofList_toList]
        exact ownsApp_eq_false hminted (by decide)
      obtain ⟨reply, hreply⟩ := getBlob_of_not_ownsApp howner hforeign
      rw [hreply]
      simp
  · have hkey : (blobs db).scopedKey k.key =
        (Backend.localFs.forTenant (blobScope org)).scopedKey k.key := by
      have htenant : blobs db = Backend.localFs.forTenant (blobScope org) := by
        cases hb : blobs db with
        | mk backend scope =>
          rw [hb] at hlocal hscope
          cases hlocal
          cases hscope
          rfl
      rw [htenant]
    have hchars : ∀ c ∈ ((blobs db).scopedKey k.key).toList, urlChar c = true := by
      intro c hc
      rw [hkey, scopedKey_blobScope, String.toList_ofList, blobScope, String.toList_ofList] at hc
      rcases List.mem_append.1 hc with hc | hc
      · rcases List.mem_append.1 hc with hc | hc
        · have hword : "t/".toList.all urlChar = true := by decide
          exact List.all_eq_true.1 hword c hc
        · rcases plain_of_mem_int64Chars hc with hc | rfl
          · exact UploadKey.urlChar_of_isAlphanum (by simp [Char.isAlphanum, hc])
          · rfl
      · rcases List.mem_cons.1 hc with rfl | hc
        · rfl
        · exact UploadKey.urlChars_key hminted hk hc
    -- the handler takes the scope for an app
    have hforeign : p.ownsApp (String.ofList
        ((((blobs db).scopedKey k.key).toList.splitOn '/').headD [])) = false := by
      rw [hkey, splitOn_scopedKey, List.headD_cons]
      exact ownsApp_eq_false hminted (by decide)
    obtain ⟨reply, hreply⟩ := getBlob_of_not_ownsApp howner hforeign
    rw [blobRoute_of_urlChars hchars, Option.bind_some, hreply]
    have hne : (blobs db).scope ≠ "" := by
      intro h
      have hnil := congrArg String.toList (hscope.symm.trans h)
      rw [blobScope, String.toList_ofList] at hnil
      cases hnil
    simp [hne]

end RoundTrip

/-! ## Two tenants -/

/-- A tenant with one app, and a caller of it. -/
def oneApp : Accounts where
  control := {}
  tenants := ⟨[(1, { projects := ⟨[(1, { name := "Web", appId := "web-a1b2c3" })], by decide⟩ })],
    by decide⟩

def theOwner : BlobCaller where
  auth := .org 1
  target := .missing
  chance := { resolved := fun org => .ok org }

/-- A screenshot. -/
def screenshot : UploadKey :=
  .evidence "web-a1b2c3" 7 "0a1b2c3d-0a1b-4c2d-8e3f-0a1b2c3d4e5f" "png"

theorem minted_oneApp :
    MintedApps { projects := ⟨[(1, { name := "Web", appId := "web-a1b2c3" })], by decide⟩ } := by
  intro r hr
  rw [List.mem_singleton.1 hr]
  exact ⟨fun _ => "web", "Web", "a1b2c3".toList, by decide, by decide, by decide⟩

/-- The decoder that a path without a percent sign does not need. -/
def noDecoder : PathDecoder := ⟨id, fun _ _ => rfl⟩

theorem blob_url_round_trip_self_hosted :
    ∃ url, (Backend.localFs.forTenant "").urlFor screenshot.key {} = some url ∧
      fetchUrl noDecoder oneApp (fun _ => Backend.localFs.forTenant "")
        ((Backend.localFs.forTenant "").put .empty screenshot.key [1, 2, 3] {}).1 theOwner url {} =
          some [1, 2, 3] := by
  have hput : (Backend.localFs.forTenant "").put .empty screenshot.key [1, 2, 3] {} =
      (((Backend.localFs.forTenant "").put .empty screenshot.key [1, 2, 3] {}).1, true) :=
    Prod.ext rfl (by decide)
  exact (@blob_url_round_trip oneApp (fun _ => Backend.localFs.forTenant "") .empty theOwner 1 _
    noDecoder _ screenshot [1, 2, 3] {} rfl rfl minted_oneApp rfl (.inl rfl)
    ⟨by decide, by decide⟩ hput).2 ⟨rfl, _, _, _, _, rfl⟩

/-- The same screenshot of an organization with a scope. -/
theorem scoped_url_is_lost :
    ¬ ∀ (D : PathDecoder) (w : Accounts) (blobs : Int64 → TenantBlobs) (objects objects' : Objects)
      (caller : BlobCaller) (db : Int64) (p : ProjectStore) (k : UploadKey) (bytes : Bytes)
      (chance : BlobChance),
      w.tenantOf caller.auth caller.target caller.chance = .ok (db, p) →
      caller.chance.ownsFails = false → MintedApps p → (blobs db).backend = .localFs →
      ((blobs db).scope = "" ∨ ∃ org, (blobs db).scope = blobScope org) → k.Accepted p →
      (blobs db).put objects k.key bytes chance = (objects', true) →
      ∃ url, (blobs db).urlFor k.key {} = some url ∧
        fetchUrl D w blobs objects' caller url {} = some bytes := by
  intro hall
  have hput : (Backend.localFs.forTenant (blobScope 1)).put .empty screenshot.key [1, 2, 3] {} =
      (((Backend.localFs.forTenant (blobScope 1)).put .empty screenshot.key [1, 2, 3] {}).1, true) :=
    Prod.ext rfl (by decide)
  obtain ⟨url, hurl, hfetch⟩ := hall noDecoder oneApp
    (fun _ => Backend.localFs.forTenant (blobScope 1)) .empty _ theOwner 1 _ screenshot [1, 2, 3] {}
    rfl rfl minted_oneApp rfl (.inr ⟨1, rfl⟩) ⟨by decide, by decide⟩ hput
  have hlost : ((Backend.localFs.forTenant (blobScope 1)).urlFor screenshot.key {}).bind (fun url =>
      fetchUrl noDecoder oneApp (fun _ => Backend.localFs.forTenant (blobScope 1))
        ((Backend.localFs.forTenant (blobScope 1)).put .empty screenshot.key [1, 2, 3] {}).1
          theOwner url {}) = none := by decide
  rw [hurl, Option.bind_some, hfetch] at hlost
  cases hlost

end ReproitCloud
