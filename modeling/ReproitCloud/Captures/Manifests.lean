import ReproitCloud.Captures.Integrity
import ReproitCloud.Lib.Alone
import ReproitCloud.Lib.Hex
import ReproitCloud.Tenancy.BlobRoute

/-!
# Capture sessions from the manifest to the end

A capture is accepted with a manifest that names its files with their hashes.  `create`
checks the names and the hashes, `put_file` compares the digest of a body with the hash
that is declared, and `complete` compares the rows of the files with the manifest again.
The three do not read a hash alike: `valid_sha256` takes digits of either case, and the
comparisons are those of texts, with a digest in lower case on one side.

So a manifest with a hash in upper case is accepted, and no upload can satisfy it.
`accepted_capture_completes_iff` says that there is no other way to get stuck, apart from
the limits on sizes: with hashes in lower case, the files can be uploaded in any order.

A request here is served with nobody else under way and with all its calls answered.  It
is the program of the uploads that is followed (`Program.follow`).
-/

namespace ReproitCloud

open Lib

/-! ## Creation -/

/-- `valid_manifest_files`. -/
def validManifestFiles (manifest : Json) : Bool :=
  match manifest.get "fileSha256" with
  | some (.object files) =>
    !files.isEmpty && files.all fun (name, hash) => safeFilename name && hash.asStr.any validSha256
  | _ => false

/-- `CreateCaptureRequest`. -/
structure CreateCaptureRequest where
  id : String
  manifest : Json
  appId : Option String

/-- The manifest is that of an original with this id. -/
def describesCapture (manifest : Json) (id : String) : Bool :=
  (manifest.get "id").bind Json.asStr = some id &&
    match manifest.get "immutableOriginal" with
    | some (.bool b) => b
    | _ => false

/-- `create`, behind the tenant.  `appForProjectId` is the statement of that name, and
the review token is drawn outside. -/
def Captures.create (E : UploadEnv) (appForProjectId : Int64 → Option String) (u : UploadStore)
    (now : Micros) (reviewTokenHash : String) (scope : KeyScope) (request : CreateCaptureRequest) :
    Except Reply UploadStore :=
  if !validCaptureId request.id then .error (err 400 "invalid capture id")
  else if !describesCapture request.manifest request.id then
    .error (err 400 "manifest does not describe this capture")
  else if !validManifestFiles request.manifest then
    .error (err 400 "manifest file hashes are missing or invalid")
  else
    match scope.projectId.map appForProjectId with
    | some none => .error (err 403 "project key is no longer valid")
    | scopedApp =>
      if scopedApp.join.any fun app => request.appId.any (· ≠ app) then
        .error (err 403 "project key cannot upload to that project")
      else
        let appId := scopedApp.join.or request.appId
        if !appId.all (u.projects.contains ·) then .error (err 400 "unknown project")
        else
          match createCapture E.sameManifest u now
            ⟨request.id, reviewTokenHash, appId, request.manifest⟩ with
          | some (true, u') => .ok u'
          | some (false, _) => .error (err 409 "capture already exists or project is invalid")
          | none => .error (err 500 "server error")

/-! ## Requests served alone -/

/-- `put_file` alone: the tenant after it, when the file has been marked. -/
def Captures.putFile (E : UploadEnv) (u : UploadStore) (up : FileUpload) : Option UploadStore :=
  ((uploads E).follow {} 5 u (.fileOpening up)).bind fun r =>
    match r.2 with
    | .fileMarking f _ =>
      if (markCaptureFileUploaded r.1 f.key).1 then some (markCaptureFileUploaded r.1 f.key).2
      else none
    | _ => none

/-- `complete` alone: the tenant after it, when the status has been set. -/
def Captures.complete (E : UploadEnv) (u : UploadStore) (now : Micros) (id : String)
    (keyApp : Option String) : Option UploadStore :=
  ((uploads E).follow {} 2 u (.completing id keyApp)).bind fun r =>
    match r.2 with
    | .closing id =>
      if (completeCapture r.1 now id).1 then some (completeCapture r.1 now id).2 else none
    | _ => none

section Following

variable {E : UploadEnv} {u u' : UploadStore} {n : Nat} {f : PendingCaptureFile} {body : Bytes}

/-- Alone and answered, a call takes effect: nobody holds a lock. -/
theorem uploadNext_alone (E : UploadEnv) (u : UploadStore) (op : UploadOp) :
    uploadNext E u [] {} op = takeEffect E u [] 0 op := by
  show (takeEffect E u [] 0 op).filter (fun r => ledgerFree u r.1 []) = _
  cases takeEffect E u [] 0 op <;> rfl

theorem follow_succ (E : UploadEnv) (n : Nat) (u : UploadStore) (op : UploadOp) :
    (uploads E).follow {} (n + 1) u op =
      (takeEffect E u [] 0 op).bind fun r =>
        r.2.bind fun op' => (uploads E).follow {} n r.1 op' := by
  rw [← uploadNext_alone]
  rfl

/-- The cap allows a capture file beside what is stored. -/
def UploadEnv.captureAllows (E : UploadEnv) (used incoming : Int) : Bool :=
  E.captureCap.all fun max => quotaAllows used incoming max

theorem follow_fileSumming (app : String) :
    (uploads E).follow {} (n + 1) u (.fileSumming f body app) =
      if E.captureAllows (bytesBesides u app f.key) f.bytes then
        (uploads E).follow {} n u (.fileRecording f body app
          (E.captureCap.map fun _ => bytesBesides u app f.key))
      else none := by
  rw [follow_succ, takeEffect, UploadEnv.captureAllows]
  cases E.captureCap with
  | none => rfl
  | some max =>
    simp only [List.any_nil, Bool.false_eq_true, if_false, Option.bind_some, Option.all_some,
      Option.map_some]
    split <;> rfl

theorem follow_fileRecording (app : String) (used : Option Int) :
    (uploads E).follow {} (n + 1) u (.fileRecording f body app used) =
      (recordCaptureFile u f).bind fun u' => (uploads E).follow {} n u' (.fileStoring f body) := by
  rw [follow_succ, takeEffect]
  cases recordCaptureFile u f <;> rfl

/-- What is left to do for a file that has been recorded. -/
def storeFile (u : UploadStore) (f : PendingCaptureFile) (body : Bytes) : UploadStore :=
  (markCaptureFileUploaded (putBlob u f.storageKey body) f.key).2

/-- A file that has been opened: the app of its capture, the cap, and the writes. -/
theorem putFile_of_open {up : FileUpload} (h : openFile E u up = .ok (.fileChecking f up.body)) :
    Captures.putFile E u up = (captureAppForUpload u f.captureId).bind fun app =>
      if E.captureAllows (bytesBesides u app f.key) f.bytes then
        (recordCaptureFile u f).map fun u' => storeFile u' f up.body
      else none := by
  rw [Captures.putFile, follow_succ, takeEffect, h, Option.bind_some, Except.toOption,
    Option.bind_some, follow_succ, takeEffect, Option.bind_some]
  cases captureAppForUpload u f.captureId with
  | none => rfl
  | some app =>
    rw [Option.map_some, Option.bind_some, follow_fileSumming, Option.bind_some]
    split
    · rw [follow_fileRecording]
      cases hrecord : recordCaptureFile u f with
      | none => rfl
      | some u' =>
        -- the row is there when it is marked, for it has just been recorded
        have hthere :
            (markCaptureFileUploaded (putBlob u' f.storageKey up.body) f.key).1 = true := by
          show u'.captureFiles.has f.key = true
          rw [Table.has, get?_recorded hrecord, if_pos rfl]
          rfl
        rw [Option.bind_some, follow_succ, takeEffect, Option.bind_some, Option.bind_some,
          Program.follow, Option.bind_some, Option.map_some]
        exact if_pos hthere
    · rfl

theorem putFile_of_refused {up : FileUpload} {reply : Reply} (h : openFile E u up = .error reply) :
    Captures.putFile E u up = none := by
  rw [Captures.putFile, follow_succ, takeEffect, h]
  rfl

/-- A request served alone is a run of the uploads. -/
theorem putFile_run {up : FileUpload} (h : Captures.putFile E u up = some u') :
    ∃ es, Run (stepOf (uploads E).step) ⟨u, [.fileOpening up]⟩ es ⟨u', []⟩ := by
  obtain ⟨⟨t, op⟩, hfollow, hlast⟩ := Option.bind_eq_some_iff.1 h
  obtain ⟨es, hrun⟩ := (Program.solo_of_follow hfollow).run
  split at hlast
  · rename_i f body hop
    cases hop
    rw [Option.ite_none_right_eq_some] at hlast
    cases hlast.2
    have hstep : (uploads E).step ⟨t, [.fileMarking f body]⟩ (.advance 0 {}) =
        some ⟨(markCaptureFileUploaded t f.key).2, []⟩ := by
      simp [Program.step, uploads, uploadNext_alone, takeEffect]
    exact ⟨_, hrun.snoc hstep⟩
  · cases hlast

theorem complete_of_refused {now : Micros} {id : String} {keyApp : Option String} {reply : Reply}
    (h : openComplete u id keyApp = .error reply) : Captures.complete E u now id keyApp = none := by
  rw [Captures.complete, follow_succ, takeEffect, h]
  rfl

theorem complete_of_open {now : Micros} {id : String} {keyApp : Option String} {manifest : Json}
    (h : openComplete u id keyApp = .ok (.listing id manifest)) :
    Captures.complete E u now id keyApp =
      if allUploaded u id manifest && (completeCapture u now id).1 then
        some (completeCapture u now id).2
      else none := by
  rw [Captures.complete, follow_succ, takeEffect, h, Except.toOption, Option.bind_some,
    Option.bind_some, follow_succ, takeEffect, checkFiles]
  cases allUploaded u id manifest <;> rfl

theorem complete_run {now : Micros} {id : String} {keyApp : Option String}
    (h : Captures.complete E u now id keyApp = some u') :
    ∃ es, Run (stepOf (uploads E).step) ⟨u, [.completing id keyApp]⟩ es ⟨u', []⟩ := by
  obtain ⟨⟨t, op⟩, hfollow, hlast⟩ := Option.bind_eq_some_iff.1 h
  obtain ⟨es, hrun⟩ := (Program.solo_of_follow hfollow).run
  split at hlast
  · rename_i id' hop
    cases hop
    rw [Option.ite_none_right_eq_some] at hlast
    cases hlast.2
    have hstep : (uploads E).step ⟨t, [.closing id']⟩ (.advance 0 { now := now }) =
        some ⟨(completeCapture t now id').2, []⟩ := by
      simp [Program.step, uploads, uploadNext, takeEffect, ledgerFree]
    exact ⟨_, hrun.snoc hstep⟩
  · cases hlast

theorem complete_eq_some_iff {now : Micros} {id : String} {keyApp : Option String} :
    Captures.complete E u now id keyApp = some u' ↔ ∃ c, u.captures.get? id = some c ∧
      keyCanAccess c keyApp = true ∧ allUploaded u id c.manifest = true ∧ c.status.ready = true ∧
      (completeCapture u now id).2 = u' := by
  cases hc : u.captures.get? id with
  | none =>
    have hopen : openComplete u id keyApp = .error (err 404 "capture not found") := by
      rw [openComplete, hc]
    simp [complete_of_refused hopen]
  | some c =>
    have hflag : (completeCapture u now id).1 = c.status.ready := by
      rw [completeCapture, hc, Option.any_some]
    cases haccess : keyCanAccess c keyApp with
    | false =>
      have hopen : openComplete u id keyApp = .error (err 404 "capture not found") := by
        simp [openComplete, hc, haccess]
      simp [complete_of_refused hopen, haccess]
    | true =>
      have hopen : openComplete u id keyApp = .ok (.listing id c.manifest) := by
        simp [openComplete, hc, haccess]
      simp [complete_of_open hopen, hflag, haccess, and_assoc]

end Following

/-! ## Files of a manifest -/

/-- The manifest declares a file with this hash. -/
def Declares (manifest : Json) (filename hash : String) : Prop :=
  ∃ files, manifest.get "fileSha256" = some (.object files) ∧ (filename, .string hash) ∈ files

/-- No file is declared twice, which a map of files rules out. -/
def DeclaresOnce (manifest : Json) : Prop :=
  ∀ files, manifest.get "fileSha256" = some (.object files) → (files.map Prod.fst).Nodup

section Manifest

variable {manifest : Json} {filename hash : String}

theorem mem_expectedFiles_iff (hvalid : validManifestFiles manifest = true) :
    (filename, hash) ∈ expectedFiles manifest ↔ Declares manifest filename hash := by
  unfold validManifestFiles at hvalid
  split at hvalid
  · rename_i files hfiles
    rw [Bool.and_eq_true] at hvalid
    have hall := List.all_eq_true.1 hvalid.2
    simp only [expectedFiles, hfiles, Declares, List.mem_filter, List.mem_filterMap,
      Option.some.injEq, Json.object.injEq, exists_eq_left', Prod.exists, Option.map_eq_some_iff,
      Prod.mk.injEq]
    constructor
    · rintro ⟨⟨name, value, hm, hash', hstr, rfl, rfl⟩, -⟩
      cases value with
      | string s =>
        cases hstr
        exact hm
      | null | bool | number | array | object => cases hstr
    · intro hm
      have hfile : (safeFilename filename && (Json.string hash).asStr.any validSha256) = true :=
        hall (filename, .string hash) hm
      rw [Json.asStr, Option.any_some] at hfile
      exact ⟨⟨filename, .string hash, hm, hash, rfl, rfl, rfl⟩, hfile⟩
  · cases hvalid

theorem keys_filterMap_sublist (files : List (String × Json)) :
    ((files.filterMap fun (name, hash) => hash.asStr.map fun hash => (name, hash)).map
      Prod.fst).Sublist (files.map Prod.fst) := by
  induction files with
  | nil => exact .slnil
  | cons file files ih =>
    obtain ⟨name, value⟩ := file
    rw [List.map_cons]
    cases hstr : value.asStr with
    | none =>
      rw [List.filterMap_cons_none (by simp [hstr])]
      exact ih.cons name
    | some hash =>
      rw [List.filterMap_cons_some (b := (name, hash)) (by simp [hstr])]
      exact ih.cons_cons name

/-- The names of a manifest that lists no file twice are different. -/
theorem nodup_expectedFiles (honce : DeclaresOnce manifest) :
    ((expectedFiles manifest).map Prod.fst).Nodup := by
  unfold expectedFiles
  split
  · rename_i files hfiles
    refine (List.Nodup.sublist (List.filter_sublist.map _) ?_)
    exact (honce files hfiles).sublist (keys_filterMap_sublist files)
  · exact List.nodup_nil

theorem lookup_expectedFiles_iff (hvalid : validManifestFiles manifest = true)
    (honce : DeclaresOnce manifest) :
    (expectedFiles manifest).lookup filename = some hash ↔ Declares manifest filename hash := by
  rw [Table.lookup_eq_some_iff (nodup_expectedFiles honce), mem_expectedFiles_iff hvalid]

end Manifest

/-! ## A session that takes files -/

/-- The capture is filed under the app, and takes the files of its manifest. -/
def Receiving (u : UploadStore) (id : String) (manifest : Json) (app : String) : Prop :=
  ∃ c, u.captures.get? id = some c ∧ c.manifest = manifest ∧ c.appId = some app ∧
    c.status.ready = true

/-- What `put_file` asks of a request. -/
structure FileAccepted (E : UploadEnv) (manifest : Json) (up : FileUpload) : Prop where
  named : up.filename = manifestFile ∨
    ((expectedFiles manifest).lookup up.filename).isSome = true
  safe : safeFilename up.filename = true
  claimed : up.claimed = .text (E.sha256 up.body)
  short : up.body.length ≤ maxCaptureFileBytes
  agrees : ∀ hash, (expectedFiles manifest).lookup up.filename = some hash → hash = E.sha256 up.body

/-- The file of a request. -/
structure FileOf (E : UploadEnv) (up : FileUpload) (f : PendingCaptureFile) : Prop where
  key : f.key = (up.id, up.filename)
  bytes : f.bytes = up.body.length
  hash : f.sha256 = E.sha256 up.body

section Session

variable {E : UploadEnv} {u u' : UploadStore} {up : FileUpload} {f : PendingCaptureFile}
  {id app : String} {manifest : Json}

/-- A key of the app may access its captures. -/
theorem keyCanAccess_of_app {c : CaptureRow} {keyApp : Option String} (happ : c.appId = some app)
    (h : ∀ key ∈ keyApp, key = app) : keyCanAccess c keyApp = true := by
  rw [keyCanAccess, Option.all_eq_true]
  intro key hkey
  rw [happ, h key hkey, decide_eq_true_eq]

/-- A request is turned down when one of the checks fails, and only then. -/
theorem openFile_spec (hrecv : Receiving u up.id manifest app)
    (haccess : ∀ key ∈ up.keyApp, key = app) (hdigest : validSha256 (E.sha256 up.body) = true) :
    (FileAccepted E manifest up ∧
        ∃ f, openFile E u up = .ok (.fileChecking f up.body) ∧ FileOf E up f) ∨
      (¬FileAccepted E manifest up ∧ ∃ reply, openFile E u up = .error reply) := by
  obtain ⟨c, hc, rfl, happ, hready⟩ := hrecv
  have hkey : keyCanAccess c up.keyApp = true := keyCanAccess_of_app happ haccess
  simp only [openFile, hc, hready, hkey, Bool.not_true, Bool.false_eq_true, if_false]
  split
  · rename_i hunnamed
    refine .inr ⟨fun h => ?_, _, rfl⟩
    rw [Bool.and_eq_true, decide_eq_true_eq, Option.isNone_iff_eq_none] at hunnamed
    rcases h.named with hname | hsome
    · exact hunnamed.1 hname
    · rw [hunnamed.2] at hsome
      cases hsome
  rename_i hnamed
  split
  · rename_i hunsafe
    refine .inr ⟨fun h => ?_, _, rfl⟩
    rw [h.safe] at hunsafe
    cases hunsafe
  rename_i hsafe
  split
  · rename_i claimed hclaimed
    split
    · rename_i hinvalid
      refine .inr ⟨fun h => ?_, _, rfl⟩
      rw [h.claimed, Header.text.injEq] at hclaimed
      rw [← hclaimed, hdigest] at hinvalid
      cases hinvalid
    split
    · rename_i hlong
      exact .inr ⟨fun h => absurd h.short (Nat.not_le.2 hlong), _, rfl⟩
    rename_i hshort
    split
    · rename_i hdiffers
      refine .inr ⟨fun h => ?_, _, rfl⟩
      rw [Bool.or_eq_true, decide_eq_true_eq] at hdiffers
      rcases hdiffers with hne | hany
      · rw [h.claimed, Header.text.injEq] at hclaimed
        exact hne hclaimed.symm
      · obtain ⟨hash, hlookup, hne⟩ := (Option.any_eq_true _ _).1 hany
        exact of_decide_eq_true hne (h.agrees hash hlookup)
    · rename_i hagrees
      rw [Bool.or_eq_true, decide_eq_true_eq, not_or, not_ne_iff] at hagrees
      refine .inl ⟨⟨?_, by simpa using hsafe, ?_, Nat.not_lt.1 hshort, fun hash hlookup => ?_⟩,
        _, rfl, rfl, rfl, rfl⟩
      · by_cases hname : up.filename = manifestFile
        · exact .inl hname
        · rw [Bool.and_eq_true, decide_eq_true_eq, not_and, Option.isNone_iff_eq_none] at hnamed
          exact .inr (Option.isSome_iff_ne_none.2 (hnamed hname))
      · rw [hclaimed, hagrees.1]
      · have hsame := hagrees.2
        rw [hlookup, Option.any_some, decide_eq_true_eq, not_ne_iff] at hsame
        exact hsame
  · rename_i hother
    exact .inr ⟨fun h => hother _ h.claimed, _, rfl⟩

/-- What a file leaves behind that has been taken. -/
structure FileTaken (E : UploadEnv) (u : UploadStore) (app : String) (up : FileUpload)
    (u' : UploadStore) : Prop where
  row : ∃ r, u'.captureFiles.get? (up.id, up.filename) = some r ∧ r.uploaded = true ∧
    r.sha256 = E.sha256 up.body
  others : ∀ k, k ≠ (up.id, up.filename) → u'.captureFiles.get? k = u.captureFiles.get? k
  stored : u'.storedBytes app = bytesBesides u app (up.id, up.filename) + up.body.length
  receiving : ∀ id manifest, Receiving u id manifest app → Receiving u' id manifest app

theorem get?_storeFile (u : UploadStore) (f : PendingCaptureFile) (body : Bytes) (k : FileKey) :
    (storeFile u f body).captureFiles.get? k =
      (u.captureFiles.get? k).map fun r => if k = f.key then { r with uploaded := true } else r :=
  get?_markCaptureFileUploaded (putBlob u f.storageKey body) f.key k

theorem storedBytes_storeFile (u : UploadStore) (f : PendingCaptureFile) (body : Bytes) :
    (storeFile u f body).storedBytes app = u.storedBytes app := by
  show evidenceBytes u.telemetry app + _ = _
  congr 1
  show (u.captureFiles.update (fun k _ => k = f.key) fun _ r => { r with uploaded := true }).sum
    (fun k r => if u.capturedFor app k.1 && true then r.bytes else 0) = _
  exact Table.sum_update fun _ _ => rfl

theorem fileTaken_of_recorded {u₁ : UploadStore} (hrecv : Receiving u up.id manifest app)
    (hf : FileOf E up f) (hrecord : recordCaptureFile u f = some u₁) :
    FileTaken E u app up (storeFile u₁ f up.body) := by
  obtain ⟨htelemetry, -, -, -, hcaptures⟩ := recordCaptureFile_eq hrecord
  refine ⟨⟨{ f.row with uploaded := true }, ?_, rfl, hf.hash⟩, fun k hk => ?_, ?_, ?_⟩
  · rw [get?_storeFile, get?_recorded hrecord, if_pos hf.key.symm, Option.map_some,
      if_pos hf.key.symm]
  · rw [← hf.key] at hk
    rw [get?_storeFile, get?_recorded hrecord, if_neg hk]
    simp [hk]
  · obtain ⟨c, hc, -, happ, -⟩ := hrecv
    have hfiled : u.capturedFor app f.captureId = true := by
      rw [show f.captureId = up.id from congrArg Prod.fst hf.key, capturedFor_of_get? hc, happ]
      exact decide_eq_true rfl
    rw [storedBytes_storeFile, UploadStore.storedBytes, captureBytes_recorded hrecord,
      if_pos hfiled, htelemetry, hf.bytes, bytesBesides, hf.key]
    exact (add_assoc _ _ _).symm
  · rintro id manifest ⟨c, hc, hmanifest, happ, hready⟩
    have hget : (storeFile u₁ f up.body).captures.get? id =
        some (if id = f.captureId then { c with status := .uploading } else c) := by
      show u₁.captures.get? id = _
      rw [hcaptures, Table.get?_update, hc]
      simp
    refine ⟨_, hget, ?_⟩
    split
    · exact ⟨hmanifest, happ, rfl⟩
    · exact ⟨hmanifest, happ, hready⟩

/-- A file is taken when it is accepted and the cap allows it, and else nothing is written. -/
theorem putFile_cases (hrecv : Receiving u up.id manifest app)
    (haccess : ∀ key ∈ up.keyApp, key = app) (hdigest : validSha256 (E.sha256 up.body) = true) :
    (FileAccepted E manifest up ∧
        E.captureAllows (bytesBesides u app (up.id, up.filename)) up.body.length = true ∧
        ∃ u', Captures.putFile E u up = some u' ∧ FileTaken E u app up u') ∨
      (¬(FileAccepted E manifest up ∧
        E.captureAllows (bytesBesides u app (up.id, up.filename)) up.body.length = true) ∧
        Captures.putFile E u up = none) := by
  rcases openFile_spec hrecv haccess hdigest with ⟨haccepted, f, hopen, hf⟩ | ⟨hnot, reply, hopen⟩
  · have hid : f.captureId = up.id := congrArg Prod.fst hf.key
    have happ : captureAppForUpload u f.captureId = some app := by
      obtain ⟨c, hc, -, happ, hready⟩ := hrecv
      rw [captureAppForUpload, hid, hc, Option.bind_some, if_pos hready, happ]
    have hthere : u.captures.has f.captureId = true := by
      obtain ⟨c, hc, -⟩ := hrecv
      rw [Table.has, hid, hc, Option.isSome_some]
    have hput := putFile_of_open hopen
    rw [happ, Option.bind_some, hf.key, hf.bytes] at hput
    cases hallows : E.captureAllows (bytesBesides u app (up.id, up.filename)) up.body.length with
    | true =>
      rw [hallows, if_pos rfl] at hput
      obtain ⟨u₁, hrecord⟩ : ∃ u₁, recordCaptureFile u f = some u₁ := by
        rw [recordCaptureFile, dif_pos hthere]
        exact ⟨_, rfl⟩
      rw [hrecord, Option.map_some] at hput
      exact .inl ⟨haccepted, rfl, _, hput, fileTaken_of_recorded hrecv hf hrecord⟩
    | false =>
      rw [hallows, if_neg Bool.false_ne_true] at hput
      exact .inr ⟨fun h => Bool.false_ne_true h.2, hput⟩
  · exact .inr ⟨fun h => hnot h.1, putFile_of_refused hopen⟩

/-- Besides a file that has no row yet there is all that is stored. -/
theorem bytesBesides_of_fresh {key : FileKey} (h : u.captureFiles.get? key = none) :
    bytesBesides u app key = u.storedBytes app := by
  rw [bytesBesides, UploadStore.storedBytes, UploadStore.captureBytes, UploadStore.captureBytes]
  congr 1
  refine Table.sum_congr fun r hr => ?_
  have hne : r.1 ≠ key := by
    rintro rfl
    exact Table.get?_eq_none_iff.1 h r.2 hr
  simp [hne]

theorem captureAllows_add (E : UploadEnv) (used a b : Int) :
    E.captureAllows (used + a) b = E.captureAllows used (a + b) := by
  simp only [UploadEnv.captureAllows, quotaAllows, add_assoc]

theorem captureAllows_mono {used a b : Int} (hab : a ≤ b) (h : E.captureAllows used b = true) :
    E.captureAllows used a = true := by
  simp only [UploadEnv.captureAllows, quotaAllows, Option.all_eq_true, Bool.and_eq_true,
    decide_eq_true_eq] at h ⊢
  intro max hmax
  have := h max hmax
  omega

/-! ### All files, one after another -/

/-- The bytes of all files. -/
def totalBytes (order : List FileUpload) : Int := (order.map fun up => (up.body.length : Int)).sum

theorem totalBytes_nonneg (order : List FileUpload) : 0 ≤ totalBytes order := by
  apply List.sum_nonneg
  intro n hn
  obtain ⟨up, -, rfl⟩ := List.mem_map.1 hn
  exact Int.natCast_nonneg _

theorem totalBytes_cons (up : FileUpload) (order : List FileUpload) :
    totalBytes (up :: order) = up.body.length + totalBytes order := by
  rw [totalBytes, totalBytes, List.map_cons, List.sum_cons]

/-- The files of a session are uploaded, each once, by keys of its project. -/
structure EachFileOnce (id app : String) (order : List FileUpload) : Prop where
  session : ∀ up ∈ order, up.id = id
  once : (order.map FileUpload.filename).Nodup
  access : ∀ up ∈ order, ∀ key ∈ up.keyApp, key = app

theorem EachFileOnce.tail {order : List FileUpload} (h : EachFileOnce id app (up :: order)) :
    EachFileOnce id app order :=
  ⟨fun up' hup' => h.session up' (List.mem_cons_of_mem _ hup'), (List.nodup_cons.1 h.once).2,
    fun up' hup' => h.access up' (List.mem_cons_of_mem _ hup')⟩

theorem EachFileOnce.ne_head {order : List FileUpload} (h : EachFileOnce id app (up :: order))
    {up' : FileUpload} (hup' : up' ∈ order) : up'.filename ≠ up.filename := by
  intro heq
  exact (List.nodup_cons.1 h.once).1 (heq ▸ List.mem_map_of_mem hup')

/-- All files are taken exactly when each is accepted and the cap allows them together. -/
theorem putFiles_isSome_iff (hdigest : ∀ body, validSha256 (E.sha256 body) = true)
    {order : List FileUpload} (honce : EachFileOnce id app order) (hrecv : Receiving u id manifest app)
    (hfresh : ∀ up ∈ order, u.captureFiles.get? (id, up.filename) = none) :
    (order.foldlM (Captures.putFile E) u).isSome = true ↔
      (∀ up ∈ order, FileAccepted E manifest up) ∧
        (order ≠ [] → E.captureAllows (u.storedBytes app) (totalBytes order) = true) := by
  induction order generalizing u with
  | nil => simp
  | cons up order ih =>
    have hid : up.id = id := honce.session up List.mem_cons_self
    have hbesides : bytesBesides u app (up.id, up.filename) = u.storedBytes app :=
      bytesBesides_of_fresh (hid ▸ hfresh up List.mem_cons_self)
    have hput := putFile_cases (hid ▸ hrecv) (honce.access up List.mem_cons_self) (hdigest up.body)
    rw [hbesides] at hput
    rw [List.foldlM_cons, List.forall_mem_cons, totalBytes_cons]
    rcases hput with ⟨haccepted, hallows, u', hput, htaken⟩ | ⟨hnot, hput⟩
    · have hfresh' : ∀ up' ∈ order, u'.captureFiles.get? (id, up'.filename) = none := by
        intro up' hup'
        rw [htaken.others _ fun heq => honce.ne_head hup' (congrArg Prod.snd heq)]
        exact hfresh up' (List.mem_cons_of_mem _ hup')
      rw [hput]
      refine (ih honce.tail (htaken.receiving id manifest hrecv) hfresh').trans ?_
      rw [htaken.stored, hbesides, captureAllows_add]
      cases order with
      | nil =>
        rw [show totalBytes [] = 0 from rfl, add_zero]
        simp [haccepted, hallows]
      | cons up' order => simp [haccepted]
    · rw [hput]
      refine ⟨nofun, fun h => absurd ⟨h.1.1, ?_⟩ hnot⟩
      have hrest := totalBytes_nonneg order
      exact captureAllows_mono (by omega) (h.2 (List.cons_ne_nil _ _))

/-- After all files were taken each has its row, and the session is still open. -/
theorem putFiles_taken (hdigest : ∀ body, validSha256 (E.sha256 body) = true)
    {order : List FileUpload} (honce : EachFileOnce id app order) (hrecv : Receiving u id manifest app)
    (h : order.foldlM (Captures.putFile E) u = some u') :
    Receiving u' id manifest app ∧
      (∀ up ∈ order, ∃ r, u'.captureFiles.get? (id, up.filename) = some r ∧ r.uploaded = true ∧
        r.sha256 = E.sha256 up.body) ∧
      ∀ k, (∀ up ∈ order, k ≠ (id, up.filename)) →
        u'.captureFiles.get? k = u.captureFiles.get? k := by
  induction order generalizing u with
  | nil =>
    cases h
    exact ⟨hrecv, List.forall_mem_nil _, fun _ _ => rfl⟩
  | cons up order ih =>
    have hid : up.id = id := honce.session up List.mem_cons_self
    rw [List.foldlM_cons] at h
    rcases putFile_cases (hid ▸ hrecv) (honce.access up List.mem_cons_self) (hdigest up.body) with
      ⟨-, -, v, hput, htaken⟩ | ⟨-, hput⟩
    · rw [hput] at h
      obtain ⟨hopen, hrows, hothers⟩ := ih honce.tail (htaken.receiving id manifest hrecv) h
      refine ⟨hopen, List.forall_mem_cons.2 ⟨?_, hrows⟩, fun k hk => ?_⟩
      · -- the other files have other names, so the row of this one is left alone
        obtain ⟨r, hr, hup, hhash⟩ := htaken.row
        refine ⟨r, ?_, hup, hhash⟩
        rw [hothers _ fun up' hup' heq => honce.ne_head hup' (congrArg Prod.snd heq).symm, ← hid]
        exact hr
      · rw [List.forall_mem_cons] at hk
        rw [hothers k hk.2, htaken.others k (hid ▸ hk.1)]
    · rw [hput] at h
      cases h

end Session

/-! ## The comparison of `complete` -/

/-- The files of a capture are listed by name. -/
theorem lookup_uploadedFiles {u : UploadStore} {id filename hash : String} :
    (uploadedFiles u id).lookup filename = some hash ↔
      ∃ r, u.captureFiles.get? (id, filename) = some r ∧ r.uploaded = true ∧ r.sha256 = hash := by
  have hnames : ((uploadedFiles u id).map Prod.fst).Nodup := by
    rw [uploadedFiles, List.map_map]
    refine List.Nodup.map_on ?_ ((List.Nodup.of_map _ u.captureFiles.keys_nodup).filter _)
    intro r hr r' hr' heq
    obtain ⟨hr, hid⟩ := List.mem_filter.1 hr
    obtain ⟨hr', hid'⟩ := List.mem_filter.1 hr'
    rw [Bool.and_eq_true, decide_eq_true_eq] at hid hid'
    have hkey : r.1 = r'.1 := Prod.ext (hid.1.trans hid'.1.symm) heq
    have hget := Table.get?_eq_some_iff.2 (show (r.1, r.2) ∈ _ from hr)
    rw [hkey, Table.get?_eq_some_iff.2 (show (r'.1, r'.2) ∈ _ from hr')] at hget
    exact Prod.ext hkey (Option.some.inj hget).symm
  rw [Table.lookup_eq_some_iff hnames]
  simp only [uploadedFiles, List.mem_map, List.mem_filter, Prod.exists, Prod.mk.injEq,
    Bool.and_eq_true, decide_eq_true_eq, Table.get?_eq_some_iff]
  constructor
  · rintro ⟨id', name, r, ⟨hr, rfl, hup⟩, rfl, rfl⟩
    exact ⟨r, hr, hup, rfl⟩
  · rintro ⟨r, hr, hup, rfl⟩
    exact ⟨id, filename, r, ⟨hr, rfl, hup⟩, rfl, rfl⟩

/-- All files of a manifest are there, each with the hash that is declared. -/
structure FilesPresent (u : UploadStore) (id : String) (manifest : Json) : Prop where
  itself : ∃ r, u.captureFiles.get? (id, manifestFile) = some r ∧ r.uploaded = true
  declared : ∀ filename hash, Declares manifest filename hash →
    ∃ r, u.captureFiles.get? (id, filename) = some r ∧ r.uploaded = true ∧ r.sha256 = hash

theorem allUploaded_iff {u : UploadStore} {id : String} {manifest : Json}
    (hvalid : validManifestFiles manifest = true) :
    allUploaded u id manifest = true ↔ FilesPresent u id manifest := by
  rw [allUploaded, Bool.and_eq_true, Option.isSome_iff_exists, List.all_eq_true]
  constructor
  · rintro ⟨⟨hash, hmanifest⟩, hall⟩
    obtain ⟨r, hr, hup, -⟩ := lookup_uploadedFiles.1 hmanifest
    refine ⟨⟨r, hr, hup⟩, fun filename hash hdeclares => lookup_uploadedFiles.1 ?_⟩
    exact of_decide_eq_true (hall _ ((mem_expectedFiles_iff hvalid).2 hdeclares))
  · rintro ⟨⟨r, hr, hup⟩, hdeclared⟩
    refine ⟨⟨r.sha256, lookup_uploadedFiles.2 ⟨r, hr, hup, rfl⟩⟩, fun file hfile => ?_⟩
    obtain ⟨filename, hash⟩ := file
    refine decide_eq_true (lookup_uploadedFiles.2 ?_)
    exact hdeclared filename hash ((mem_expectedFiles_iff hvalid).1 hfile)

/-! ## Hashes -/

/-- The digests are those of a function with 32 bytes, written in hexadecimal. -/
structure HexDigests (E : UploadEnv) : Prop where
  digest : ∀ body, ∃ bytes : List UInt8, bytes.length = 32 ∧
    (E.sha256 body).toList = hexText bytes

/-- Two texts are the same as hexadecimal values. -/
def SameHex (a b : String) : Prop := hexBytes? a.toList = hexBytes? b.toList

/-- No letter is in upper case. -/
def lowerCase (text : String) : Bool := text.toList.map Char.toLower = text.toList

section Hashes

variable {E : UploadEnv}

theorem isHexDigit_hexDigit {n : Nat} (h : n < 16) : isHexDigit (hexDigit n) = true := by
  interval_cases n <;> rfl

theorem isHexDigit_of_mem_hexText {bytes : List UInt8} {c : Char} (h : c ∈ hexText bytes) :
    isHexDigit c = true := by
  induction bytes with
  | nil => cases h
  | cons b bytes ih =>
    have hb := b.toNat_lt
    rw [hexText, List.mem_cons, List.mem_cons] at h
    rcases h with rfl | rfl | h
    · exact isHexDigit_hexDigit (by omega)
    · exact isHexDigit_hexDigit (by omega)
    · exact ih h

/-- A digest is a valid hash. -/
theorem HexDigests.valid (h : HexDigests E) (body : Bytes) :
    validSha256 (E.sha256 body) = true := by
  obtain ⟨bytes, hlength, htext⟩ := h.digest body
  rw [validSha256, htext, length_hexText, hlength, Bool.and_eq_true, List.all_eq_true]
  exact ⟨rfl, fun c hc => isHexDigit_of_mem_hexText hc⟩

/-- A text with the value of a digest is the digest when it is in lower case. -/
theorem HexDigests.eq_iff (h : HexDigests E) {text : String} {body : Bytes}
    (hsame : SameHex text (E.sha256 body)) : text = E.sha256 body ↔ lowerCase text = true := by
  obtain ⟨bytes, -, htext⟩ := h.digest body
  have hread : hexBytes? text.toList = some bytes := by
    rw [show hexBytes? text.toList = _ from hsame, htext, hexBytes?_hexText]
  rw [← String.toList_inj, htext, hexText_of_hexBytes? hread, lowerCase, decide_eq_true_eq, eq_comm]

/-- A text of 64 digits in lower case is what is written of 32 bytes. -/
theorem exists_hexText {text : String} (hread : (hexBytes? text.toList).isSome = true)
    (hlower : lowerCase text = true) (hlength : text.toList.length = 64) :
    ∃ bytes : List UInt8, bytes.length = 32 ∧ text.toList = hexText bytes := by
  obtain ⟨bytes, hbytes⟩ := Option.isSome_iff_exists.1 hread
  have htext : hexText bytes = text.toList :=
    (hexText_of_hexBytes? hbytes).trans (of_decide_eq_true hlower)
  refine ⟨bytes, ?_, htext.symm⟩
  have hboth := length_hexText bytes
  rw [htext, hlength] at hboth
  omega

end Hashes

/-! ## From the manifest to the end -/

/-- The requests bring each file of a manifest and the manifest itself.  The header and the
hash that is declared are those of the body as hexadecimal values. -/
structure FilesOf (E : UploadEnv) (manifest : Json) (order : List FileUpload) : Prop where
  all : ∀ filename, filename ∈ order.map FileUpload.filename ↔
    filename = manifestFile ∨ ∃ hash, Declares manifest filename hash
  declared : ∀ up ∈ order, ∀ hash, Declares manifest up.filename hash →
    SameHex hash (E.sha256 up.body)
  claimed : ∀ up ∈ order, ∃ text, up.claimed = .text text ∧ SameHex text (E.sha256 up.body)

/-- The hashes are in lower case, and the bodies are within the limits. -/
structure Uploadable (E : UploadEnv) (u : UploadStore) (app : String) (manifest : Json)
    (order : List FileUpload) : Prop where
  declared : ∀ filename hash, Declares manifest filename hash → lowerCase hash = true
  claimed : ∀ up ∈ order, ∀ text, up.claimed = .text text → lowerCase text = true
  short : ∀ up ∈ order, up.body.length ≤ maxCaptureFileBytes
  fits : E.captureAllows (u.storedBytes app) (totalBytes order) = true

section Completion

variable {E : UploadEnv} {u : UploadStore} {manifest : Json} {order : List FileUpload}

/-- A manifest that is accepted names and hashes its files. -/
theorem validManifestFiles_of_create {appForProjectId : Int64 → Option String} {u' : UploadStore}
    {now : Micros} {reviewTokenHash : String} {scope : KeyScope} {request : CreateCaptureRequest}
    (h : Captures.create E appForProjectId u now reviewTokenHash scope request = .ok u') :
    validManifestFiles request.manifest = true := by
  unfold Captures.create at h
  split at h
  · cases h
  split at h
  · cases h
  split at h
  · cases h
  rename_i hvalid
  simpa using hvalid

theorem safeFilename_of_declares (hvalid : validManifestFiles manifest = true)
    {filename hash : String} (h : Declares manifest filename hash) :
    safeFilename filename = true := by
  have hm := (mem_expectedFiles_iff hvalid).2 h
  unfold expectedFiles at hm
  split at hm
  · have hboth := (List.mem_filter.1 hm).2
    rw [Bool.and_eq_true] at hboth
    exact hboth.1
  · cases hm

/-- With the right bodies, only the spelling of the hashes and the sizes are left. -/
theorem filesAccepted_iff (hdigest : HexDigests E) (hvalid : validManifestFiles manifest = true)
    (honce : DeclaresOnce manifest) (hfiles : FilesOf E manifest order) :
    (∀ up ∈ order, FileAccepted E manifest up) ↔
      (∀ filename hash, Declares manifest filename hash → lowerCase hash = true) ∧
      (∀ up ∈ order, ∀ text, up.claimed = .text text → lowerCase text = true) ∧
      ∀ up ∈ order, up.body.length ≤ maxCaptureFileBytes := by
  constructor
  · intro haccepted
    refine ⟨fun filename hash hdeclares => ?_, fun up hup text htext => ?_,
      fun up hup => (haccepted up hup).short⟩
    · obtain ⟨up, hup, rfl⟩ := List.mem_map.1 ((hfiles.all filename).2 (.inr ⟨hash, hdeclares⟩))
      refine (hdigest.eq_iff (hfiles.declared up hup hash hdeclares)).1 ?_
      exact (haccepted up hup).agrees hash ((lookup_expectedFiles_iff hvalid honce).2 hdeclares)
    · obtain ⟨text', htext', hsame⟩ := hfiles.claimed up hup
      rw [htext, Header.text.injEq] at htext'
      subst htext'
      have hclaimed := (haccepted up hup).claimed
      rw [htext, Header.text.injEq] at hclaimed
      exact (hdigest.eq_iff hsame).1 hclaimed
  · rintro ⟨hdeclared, hclaimed, hshort⟩ up hup
    have hname := (hfiles.all up.filename).1 (List.mem_map_of_mem hup)
    obtain ⟨text, htext, hsame⟩ := hfiles.claimed up hup
    refine ⟨?_, ?_, ?_, hshort up hup, fun hash hlookup => ?_⟩
    · rcases hname with hname | ⟨hash, hdeclares⟩
      · exact .inl hname
      · rw [(lookup_expectedFiles_iff hvalid honce).2 hdeclares]
        exact .inr rfl
    · rcases hname with hname | ⟨hash, hdeclares⟩
      · rw [hname]
        decide
      · exact safeFilename_of_declares hvalid hdeclares
    · rw [htext, (hdigest.eq_iff hsame).2 (hclaimed up hup text htext)]
    · have hdeclares := (lookup_expectedFiles_iff hvalid honce).1 hlookup
      exact (hdigest.eq_iff (hfiles.declared up hup hash hdeclares)).2
        (hdeclared up.filename hash hdeclares)

/-- The files of an accepted manifest are uploaded in any order and the capture is completed
exactly when its hashes and those of the headers are in lower case and the bodies are within
the limits.  A capture is never completed while one of its files is missing or differs. -/
theorem accepted_capture_completes_iff {appForProjectId : Int64 → Option String}
    {u₀ u₁ : UploadStore} {now later : Micros} {reviewTokenHash app : String} {scope : KeyScope}
    {request : CreateCaptureRequest} {keyApp : Option String} (hdigest : HexDigests E)
    (honce : DeclaresOnce request.manifest)
    (hcreate : Captures.create E appForProjectId u₀ now reviewTokenHash scope request = .ok u₁)
    (hrecv : Receiving u request.id request.manifest app)
    (hfresh : ∀ filename, u.captureFiles.get? (request.id, filename) = none)
    (hsession : EachFileOnce request.id app order) (hfiles : FilesOf E request.manifest order)
    (haccess : ∀ key ∈ keyApp, key = app) :
    (((order.foldlM (Captures.putFile E) u).bind fun u' =>
        Captures.complete E u' later request.id keyApp).isSome = true ↔
          Uploadable E u app request.manifest order) ∧
      ∀ v c now keyApp, v.captures.get? request.id = some c → c.manifest = request.manifest →
        (Captures.complete E v now request.id keyApp).isSome = true →
        FilesPresent v request.id request.manifest := by
  have hvalid := validManifestFiles_of_create hcreate
  have hput := putFiles_isSome_iff hdigest.valid hsession hrecv fun up _ => hfresh up.filename
  rw [filesAccepted_iff hdigest hvalid honce hfiles] at hput
  have hmanifest : manifestFile ∈ order.map FileUpload.filename :=
    (hfiles.all manifestFile).2 (.inl rfl)
  have hsome : order ≠ [] := by
    rintro rfl
    cases hmanifest
  refine ⟨⟨fun h => ?_, fun h => ?_⟩, fun v c now keyApp hc hsame hcomplete => ?_⟩
  · rw [Option.isSome_bind] at h
    obtain ⟨u', hu', -⟩ := (Option.any_eq_true _ _).1 h
    obtain ⟨⟨hdeclared, hclaimed, hshort⟩, hfits⟩ := hput.1 (by rw [hu']; rfl)
    exact ⟨hdeclared, hclaimed, hshort, hfits hsome⟩
  · obtain ⟨u', hu'⟩ := Option.isSome_iff_exists.1
      (hput.2 ⟨⟨h.declared, h.claimed, h.short⟩, fun _ => h.fits⟩)
    obtain ⟨⟨c, hc, hsame, happ, hready⟩, hrows, -⟩ :=
      putFiles_taken hdigest.valid hsession hrecv hu'
    have hpresent : FilesPresent u' request.id request.manifest := by
      refine ⟨?_, fun filename hash hdeclares => ?_⟩
      · obtain ⟨up, hup, hname⟩ := List.mem_map.1 hmanifest
        obtain ⟨r, hr, hmarked, -⟩ := hrows up hup
        exact ⟨r, hname ▸ hr, hmarked⟩
      · obtain ⟨up, hup, rfl⟩ := List.mem_map.1 ((hfiles.all filename).2 (.inr ⟨hash, hdeclares⟩))
        obtain ⟨r, hr, hmarked, hsha⟩ := hrows up hup
        have hhash : hash = E.sha256 up.body :=
          (hdigest.eq_iff (hfiles.declared up hup hash hdeclares)).2 (h.declared _ hash hdeclares)
        exact ⟨r, hr, hmarked, hsha.trans hhash.symm⟩
    have hkey : keyCanAccess c keyApp = true := keyCanAccess_of_app happ haccess
    have hcomplete : Captures.complete E u' later request.id keyApp =
        some (completeCapture u' later request.id).2 :=
      complete_eq_some_iff.2 ⟨c, hc, hkey, hsame ▸ (allUploaded_iff hvalid).2 hpresent, hready, rfl⟩
    rw [hu', Option.bind_some, hcomplete]
    rfl
  · obtain ⟨v', hv'⟩ := Option.isSome_iff_exists.1 hcomplete
    obtain ⟨c', hc', -, hall, -⟩ := complete_eq_some_iff.1 hv'
    rw [hc, Option.some.injEq] at hc'
    subst hc'
    rw [hsame] at hall
    exact (allUploaded_iff hvalid).1 hall

end Completion

/-- An environment whose digests are right for two contents, and digests for all others. -/
def hexEnv : UploadEnv where
  platform := oneBucket
  sameManifest _ _ := false
  sha256 body :=
    if body = bodyHi then digestHi else if body = bodyHo then digestHo
    else String.ofList (List.replicate 64 '0')
  policyCap := none
  envVar := some 10

theorem hexDigests_hexEnv : HexDigests hexEnv := by
  refine ⟨fun body => ?_⟩
  show ∃ bytes : List UInt8, bytes.length = 32 ∧
    (if body = bodyHi then digestHi else if body = bodyHo then digestHo
      else String.ofList (List.replicate 64 '0')).toList = hexText bytes
  split
  · exact exists_hexText (by decide) (by decide) (by decide)
  split
  · exact exists_hexText (by decide) (by decide) (by decide)
  · exact exists_hexText (by decide) (by decide) (by decide)

/-- A capture of one file, with the hash that its manifest declares. -/
def captureOf (hash : String) : CreateCaptureRequest where
  id := "cap_0123456789abcdef"
  manifest := originalManifest hash
  appId := some "shop"

/-- A tenant with one project. -/
def shopOnly : UploadStore := { Uploading.init.store with projects := ["shop"] }

/-- The answer to the request. -/
def createdWith (hash : String) : Except Reply UploadStore :=
  Captures.create hexEnv (fun _ => none) shopOnly 0 "review" .open (captureOf hash)

/-- The session when it has been reviewed. -/
def approvedWith (hash : String) : UploadStore :=
  approveCapture ((createdWith hash).toOption.getD shopOnly) 0 "review" "shop"

/-- The file of the capture and its manifest, both announced in lower case. -/
def filesHi : List FileUpload :=
  [putOriginal, putManifest bodyHo]

/-- The digest of the file in upper case. -/
def upperHi : String := "8F434346648F6B96DF89DDA901C5176B10A6D83961DD3C1AC88B59B2DC327AA4"

theorem sameHex_upperHi : SameHex upperHi digestHi := by
  unfold SameHex
  decide +kernel

section Sample

variable {hash hash' filename : String}

theorem declares_captureOf :
    Declares (captureOf hash).manifest filename hash' ↔ filename = "a.txt" ∧ hash' = hash := by
  constructor
  · rintro ⟨files, hfiles, hm⟩
    cases hfiles
    rw [List.mem_singleton, Prod.mk.injEq, Json.string.injEq] at hm
    exact hm
  · rintro ⟨rfl, rfl⟩
    exact ⟨_, rfl, List.mem_singleton_self _⟩

theorem declaresOnce_captureOf (hash : String) : DeclaresOnce (captureOf hash).manifest := by
  intro files hfiles
  cases hfiles
  exact List.nodup_singleton _

theorem eachFileOnce_filesHi : EachFileOnce "cap_0123456789abcdef" "shop" filesHi := by
  refine ⟨fun up hup => ?_, by decide, fun up hup key hkey => ?_⟩
  · simp only [filesHi, List.mem_cons, List.not_mem_nil, or_false] at hup
    rcases hup with rfl | rfl <;> rfl
  · simp only [filesHi, List.mem_cons, List.not_mem_nil, or_false] at hup
    rcases hup with rfl | rfl <;> cases hkey

theorem filesOf_captureOf (hsame : SameHex hash digestHi) :
    FilesOf hexEnv (captureOf hash).manifest filesHi := by
  refine ⟨fun filename => ?_, fun up hup hash' hdeclares => ?_, fun up hup => ?_⟩
  · simp only [declares_captureOf, filesHi, putOriginal, putManifest, List.map_cons, List.map_nil,
      List.mem_cons, List.not_mem_nil, or_false, exists_and_left, exists_eq, and_true]
    exact or_comm
  · simp only [filesHi, List.mem_cons, List.not_mem_nil, or_false] at hup
    obtain ⟨hname, rfl⟩ := declares_captureOf.1 hdeclares
    rcases hup with rfl | rfl
    · exact hsame
    · exact absurd hname (by decide)
  · simp only [filesHi, List.mem_cons, List.not_mem_nil, or_false] at hup
    rcases hup with rfl | rfl
    · exact ⟨digestHi, rfl, rfl⟩
    · exact ⟨digestHo, rfl, rfl⟩

end Sample

theorem accepted_capture_completes_iff_lower :
    ((filesHi.foldlM (Captures.putFile hexEnv) (approvedWith digestHi)).bind fun u' =>
      Captures.complete hexEnv u' 0 "cap_0123456789abcdef" none).isSome = true := by
  have hcreate : createdWith digestHi = .ok ((createdWith digestHi).toOption.getD shopOnly) := rfl
  have hrecv : Receiving (approvedWith digestHi) (captureOf digestHi).id
      (captureOf digestHi).manifest "shop" := ⟨_, rfl, rfl, rfl, rfl⟩
  refine (accepted_capture_completes_iff hexDigests_hexEnv (declaresOnce_captureOf digestHi) hcreate
    hrecv (fun _ => rfl) eachFileOnce_filesHi (filesOf_captureOf rfl) fun _ h => by cases h).1.2
    ⟨fun filename hash hdeclares => ?_, fun up hup text htext => ?_, by decide, by decide⟩
  · rw [(declares_captureOf.1 hdeclares).2]
    decide
  · simp only [filesHi, List.mem_cons, List.not_mem_nil, or_false] at hup
    rcases hup with rfl | rfl
    · cases htext
      decide
    · cases htext
      decide

/-- A manifest with a hash in upper case is accepted, and its capture cannot be completed. -/
theorem upper_case_manifest_is_stuck :
    ¬∀ (request : CreateCaptureRequest) (u₁ : UploadStore) (order : List FileUpload),
      Captures.create hexEnv (fun _ => none) shopOnly 0 "review" .open request = .ok u₁ →
      DeclaresOnce request.manifest → EachFileOnce request.id "shop" order →
      FilesOf hexEnv request.manifest order →
      ((order.foldlM (Captures.putFile hexEnv) (approveCapture u₁ 0 "review" "shop")).bind fun u' =>
        Captures.complete hexEnv u' 0 request.id none).isSome = true := by
  intro hall
  have hstuck : ((filesHi.foldlM (Captures.putFile hexEnv) (approvedWith upperHi)).bind fun u' =>
      Captures.complete hexEnv u' 0 "cap_0123456789abcdef" none).isSome = false := by decide
  have hcompletes := hall (captureOf upperHi) ((createdWith upperHi).toOption.getD shopOnly)
    filesHi rfl (declaresOnce_captureOf upperHi) eachFileOnce_filesHi (filesOf_captureOf sameHex_upperHi)
  exact Bool.false_ne_true (hstuck.symm.trans hcompletes)

end ReproitCloud
