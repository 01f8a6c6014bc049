import ReproitCloud.Captures.Store
import ReproitCloud.Http.Request
import ReproitCloud.Lib.Processes

/-!
# Uploads under way

An upload is a request that makes several calls to the database and the blob store.
`UploadOp` says at which call it is, with what it has read.  The calls of one request
come one after the other, and those of different requests in any order.

* Evidence: the quota transaction reads the ledger of the app under a row lock and
  inserts the row.  The blob is stored after that, and the row is removed when the
  blob store fails.  A multipart request is one such upload after another.
* `put_file`: the capture is read, the body hashed and compared, the row recorded by
  a transaction of its own, the blob stored, and the row marked or removed.
* `complete`: the capture is read, its files are listed and compared with the
  manifest, and the status is set.

`add_capture_file` runs at the isolation level of the server, which is read committed.
Its statements see what others have committed in between, so it has three points: the
status, the sum under the advisory lock, and the writes that commit.

The end of a project takes its captures along.  The handler lists the keys, deletes one
blob after another and then commits the rows.  These calls are one step here, and a
deletion that stops between two blobs is no step.

A call can fail, and it can take effect while its answer is lost.
-/

namespace ReproitCloud

open Lib

/-! ## What the handlers check -/

/-- `safe_filename`.  The characters it lets through are single bytes. -/
def safeFilename (value : String) : Bool :=
  !value.toList.isEmpty && value.toList.length ≤ 128 && value.toList.head? ≠ some '.' &&
    value.toList.all fun c => c.isAlphanum || c = '.' || c = '_' || c = '-'

/-- `valid_sha256`. -/
def validSha256 (value : String) : Bool :=
  value.toList.length = 64 && value.toList.all isHexDigit

/-- `expected_files`: the files that a manifest declares, with their hashes. -/
def expectedFiles (manifest : Json) : List (String × String) :=
  match manifest.get "fileSha256" with
  | some (.object values) =>
    (values.filterMap fun (name, hash) => hash.asStr.map fun hash => (name, hash)).filter
      fun (name, hash) => safeFilename name && validSha256 hash
  | _ => []

/-- The file a capture always has. -/
def manifestFile : String := "manifest.json"

/-- `MAX_CAPTURE_FILE_BYTES`. -/
def maxCaptureFileBytes : Nat := 4 * 1024 * 1024 * 1024

/-- `MAX_EVIDENCE_FIELD_BYTES`. -/
def maxEvidenceFieldBytes : Int := 25 * 1024 * 1024

/-- `DEFAULT_MAX_EVIDENCE_BYTES_PER_APP`. -/
def defaultMaxEvidenceBytesPerApp : Int := 10 * 1024 * 1024 * 1024

/-- `max_evidence_bytes_per_app`, of the variable when it parses. -/
def maxEvidenceBytesPerApp (variable_ : Option Int) : Option Int :=
  match variable_ with
  | some n => if 0 < n then some n else none
  | none => some defaultMaxEvidenceBytesPerApp

/-- The key of a capture file in the blob store. -/
def captureKey (id filename : String) : String := "captures/" ++ id ++ "/" ++ filename

/-- What the uploads take from outside the modelled code. -/
structure UploadEnv where
  platform : Platform
  /-- The equality of `jsonb`. -/
  sameManifest : Json → Json → Bool
  /-- `hex::encode(Sha256::digest(..))`. -/
  sha256 : Bytes → String
  /-- `Policy::evidence_cap` of the organization. -/
  policyCap : Option Int
  /-- `REPROIT_MAX_EVIDENCE_BYTES_PER_APP`, when it parses. -/
  envVar : Option Int

/-- The cap that captures are checked against. -/
def UploadEnv.captureCap (E : UploadEnv) : Option Int := maxEvidenceBytesPerApp E.envVar

/-- `evidence_cap`. -/
def UploadEnv.evidenceCap (E : UploadEnv) : Option Int :=
  match E.policyCap with
  | some cap => some cap
  | none => maxEvidenceBytesPerApp E.envVar

/-! ## Requests -/

/-- A part of an evidence request that is stored. -/
structure EvidenceUpload where
  app : String
  errorId : Nat
  storageKey : String
  bytes : Int
deriving DecidableEq, Repr

/-- A `put_file` request.  `keyApp` is the app of the project key that sends it. -/
structure FileUpload where
  id : String
  filename : String
  claimed : Header
  contentType : Header
  body : Bytes
  keyApp : Option String := none
deriving DecidableEq, Repr

/-- Where an upload is: the call it makes next, with what it has read. -/
inductive UploadOp where
  /-- The ledger of the app. -/
  | evidenceReserving (up : EvidenceUpload)
  /-- The insert and the commit, with the ledger row locked. -/
  | evidenceInserting (up : EvidenceUpload) (used : Int)
  /-- The blob of the evidence row. -/
  | evidenceStoring (id : Nat)
  /-- `remove_evidence`. -/
  | evidenceReleasing (id : Nat)
  /-- The capture, and the checks before the file is recorded. -/
  | fileOpening (up : FileUpload)
  /-- The status of the capture, in `add_capture_file`. -/
  | fileChecking (f : PendingCaptureFile) (body : Bytes)
  /-- The sum, after the advisory lock. -/
  | fileSumming (f : PendingCaptureFile) (body : Bytes) (app : String)
  /-- The writes and the commit, with what the sum gave. -/
  | fileRecording (f : PendingCaptureFile) (body : Bytes) (app : String) (used : Option Int)
  /-- The blob of the file. -/
  | fileStoring (f : PendingCaptureFile) (body : Bytes)
  /-- `remove_capture_file`. -/
  | fileDropping (f : PendingCaptureFile)
  /-- `mark_capture_file_uploaded`. -/
  | fileMarking (f : PendingCaptureFile) (body : Bytes)
  /-- The capture, in `complete`. -/
  | completing (id : String) (keyApp : Option String)
  /-- The files of the capture. -/
  | listing (id : String) (manifest : Json)
  /-- `complete_capture`. -/
  | closing (id : String)

/-- A part is read whole before its size is looked at, and an empty one is passed over. -/
def UploadOp.starts : UploadOp → Bool
  | evidenceReserving up => 0 < up.bytes && up.bytes ≤ maxEvidenceFieldBytes
  | fileOpening _ => true
  | completing _ _ => true
  | _ => false

/-- `key_can_access`. -/
def keyCanAccess (capture : CaptureRow) (keyApp : Option String) : Bool :=
  keyApp.all fun app => capture.appId = some app

/-- `put_file` up to its transaction. -/
def openFile (E : UploadEnv) (u : UploadStore) (up : FileUpload) : Except Reply UploadOp :=
  match u.captures.get? up.id with
  | none => .error (err 404 "capture not found")
  | some capture =>
    let expected := expectedFiles capture.manifest
    if !capture.status.ready then .error (err 409 "capture is not ready for upload")
    else if !keyCanAccess capture up.keyApp then .error (err 404 "capture not found")
    else if up.filename ≠ manifestFile && (expected.lookup up.filename).isNone then
      .error (err 400 "file is not declared by the manifest")
    else if !safeFilename up.filename then .error (err 400 "invalid capture filename")
    else
      match up.claimed with
      | .text claimed =>
        if !validSha256 claimed then .error (err 400 "x-reproit-sha256 is required")
        else if maxCaptureFileBytes < up.body.length then
          .error (err 413 "capture file is too large")
        else
          let actual := E.sha256 up.body
          if claimed ≠ actual || (expected.lookup up.filename).any (· ≠ actual) then
            .error (err 422 "capture file hash mismatch")
          else
            .ok (.fileChecking ⟨up.id, up.filename, captureKey up.id up.filename, up.body.length,
              actual, match up.contentType with
                | .text value => value
                | _ => "application/octet-stream"⟩ up.body)
      | _ => .error (err 400 "x-reproit-sha256 is required")

/-- `complete` up to its list of files. -/
def openComplete (u : UploadStore) (id : String) (keyApp : Option String) :
    Except Reply UploadOp :=
  match u.captures.get? id with
  | none => .error (err 404 "capture not found")
  | some capture =>
    if !keyCanAccess capture keyApp then .error (err 404 "capture not found")
    else .ok (.listing id capture.manifest)

/-- Whether all files of a manifest have been uploaded. -/
def allUploaded (u : UploadStore) (id : String) (manifest : Json) : Bool :=
  ((uploadedFiles u id).lookup manifestFile).isSome &&
    (expectedFiles manifest).all fun (name, hash) => (uploadedFiles u id).lookup name = some hash

/-- The check of `complete`. -/
def checkFiles (u : UploadStore) (id : String) (manifest : Json) : Except Reply UploadOp :=
  if allUploaded u id manifest then .ok (.closing id)
  else .error (err 409 "not all manifest files have been uploaded")

/-! ## One call -/

/-- What the environment decides of a call. -/
structure UploadChance where
  result : CallResult := .answered
  now : Micros := 0
deriving DecidableEq, Repr

namespace UploadOp

/-- The app whose ledger row the transaction of the upload has locked. -/
def ledgerLock : UploadOp → Option String
  | evidenceInserting up _ => some up.app
  | _ => none

/-- The app whose advisory lock the transaction of the upload holds. -/
def quotaLock : UploadOp → Option String
  | fileRecording _ _ app (some _) => some app
  | _ => none

/-- What the handler does after a call that failed.  The blob store is made up for, and
after anything else the request ends. -/
def afterFailure : UploadOp → Option UploadOp
  | evidenceStoring id => some (evidenceReleasing id)
  | fileStoring f _ => some (fileDropping f)
  | _ => none

end UploadOp

/-- The bytes under a key of the blob store. -/
def putBlob (u : UploadStore) (key : String) (body : Bytes) : UploadStore :=
  { u with blobs := u.blobs.upsert key body fun _ => body }

/-- The call that an upload makes next, when it takes effect.  There is none while a
lock is held by another. -/
def takeEffect (E : UploadEnv) (u : UploadStore) (others : List UploadOp) (now : Micros) :
    UploadOp → Option (UploadStore × Option UploadOp)
  | .evidenceReserving up =>
    match E.evidenceCap with
    | some max =>
      if others.any fun o => o.ledgerLock = some up.app then none
      else
        let used := storageUsed u.telemetry up.app
        some (u, if quotaAllows used up.bytes max then some (.evidenceInserting up used) else none)
    | none =>
      -- without a cap the transaction is the insert
      match insertEvidence u up.app up.errorId up.storageKey up.bytes with
      | some (id, u') => some (u', some (.evidenceStoring id))
      | none => some (u, none)
  | .evidenceInserting up _ =>
    match insertEvidence u up.app up.errorId up.storageKey up.bytes with
    | some (id, u') => some (u', some (.evidenceStoring id))
    | none => some (u, none)
  | .evidenceStoring _ => some (u, none)
  | .evidenceReleasing id => some (removeEvidence u id, none)
  | .fileOpening up => some (u, (openFile E u up).toOption)
  | .fileChecking f body =>
    some (u, (captureAppForUpload u f.captureId).map fun app => .fileSumming f body app)
  | .fileSumming f body app =>
    match E.captureCap with
    | none => some (u, some (.fileRecording f body app none))
    | some max =>
      if others.any fun o => o.quotaLock = some app then none
      else
        let used := bytesBesides u app f.key
        some (u, if quotaAllows used f.bytes max then some (.fileRecording f body app (some used))
          else none)
  | .fileRecording f body _ _ =>
    match recordCaptureFile u f with
    | some u' => some (u', some (.fileStoring f body))
    | none => some (u, none)
  | .fileStoring f body => some (putBlob u f.storageKey body, some (.fileMarking f body))
  | .fileDropping f => some (removeCaptureFile u f.key, none)
  | .fileMarking f _ => some ((markCaptureFileUploaded u f.key).2, none)
  | .completing id keyApp => some (u, (openComplete u id keyApp).toOption)
  | .listing id manifest => some (u, (checkFiles u id manifest).toOption)
  | .closing id => some ((completeCapture u now id).2, none)

/-- A step that would write the ledger row of an app waits for the transaction that has
locked it. -/
def ledgerFree (u u' : UploadStore) (others : List UploadOp) : Bool :=
  others.all fun o => o.ledgerLock.all fun app =>
    u'.telemetry.appStorageUsage.get? app = u.telemetry.appStorageUsage.get? app

/-- The next call of an upload. -/
def uploadNext (E : UploadEnv) (u : UploadStore) (others : List UploadOp) (chance : UploadChance)
    (op : UploadOp) : Option (UploadStore × Option UploadOp) :=
  match chance.result with
  | .failed => some (u, op.afterFailure)
  | .answered => (takeEffect E u others chance.now op).filter fun r => ledgerFree u r.1 others
  | .unanswered =>
    ((takeEffect E u others chance.now op).filter fun r => ledgerFree u r.1 others).map fun r =>
      (r.1, op.afterFailure)

/-! ## The writes of other handlers -/

/-- A transaction that is one step. -/
inductive UploadCommit where
  | telemetry (c : TelemetryCommit)
  | createProject (app : String)
  | createCapture (now : Micros) (c : NewCapture)
  | approveCapture (now : Micros) (reviewTokenHash app : String)

/-- The transaction, if the database takes it. -/
def commitUpload (E : UploadEnv) (u : UploadStore) : UploadCommit → Option UploadStore
  | .telemetry c =>
    (commitTelemetry E.platform u.telemetry c).map fun t =>
      let u' : UploadStore := { u with telemetry := t }
      match c with
      | .deleteProject app _ => dropCaptures u' app
      | _ => u'
  | .createProject app =>
    if u.projects.contains app then none else some { u with projects := u.projects ++ [app] }
  | .createCapture now c =>
    (createCapture E.sameManifest u now c).bind fun r => if r.1 then some r.2 else none
  | .approveCapture now hash app => some (approveCapture u now hash app)

/-- The uploads of a tenant. -/
def uploads (E : UploadEnv) : Program UploadStore UploadOp UploadChance UploadCommit where
  starts _ op := op.starts
  next := uploadNext E
  write u others c := (commitUpload E u c).filter fun u' => ledgerFree u u' others

/-- A tenant's uploads, and those under way. -/
abbrev Uploading := Pool UploadStore UploadOp

/-- What happens to a tenant's uploads. -/
abbrev UploadEvent := PoolEvent UploadOp UploadChance UploadCommit

/-- A tenant just after the schema was applied. -/
def Uploading.init : Uploading := ⟨{}, []⟩

/-! ## What a call does -/

/-- The file has been hashed and measured, and its name is safe. -/
structure FileMeasured (E : UploadEnv) (f : PendingCaptureFile) (body : Bytes) : Prop where
  safe : safeFilename f.filename = true
  key : f.storageKey = captureKey f.captureId f.filename
  bytes : f.bytes = body.length
  hash : f.sha256 = E.sha256 body

/-- The manifest allows the file: it declares it with this hash, or it is the file that
needs no declaration. -/
structure FileDeclared (manifest : Json) (f : PendingCaptureFile) : Prop where
  named : f.filename = manifestFile ∨ ∃ hash, (expectedFiles manifest).lookup f.filename = some hash
  agrees : ∀ hash, (expectedFiles manifest).lookup f.filename = some hash → hash = f.sha256

theorem openFile_inv {E : UploadEnv} {u : UploadStore} {up : FileUpload} {op : UploadOp}
    (h : openFile E u up = .ok op) :
    ∃ c f, u.captures.get? up.id = some c ∧ c.status.ready = true ∧ f.captureId = up.id ∧
      op = .fileChecking f up.body ∧ FileMeasured E f up.body ∧ FileDeclared c.manifest f := by
  unfold openFile at h
  split at h
  · cases h
  rename_i c hc
  dsimp only at h
  split at h
  · cases h
  rename_i hready
  split at h
  · cases h
  split at h
  · cases h
  rename_i hnamed
  split at h
  · cases h
  rename_i hsafe
  split at h
  · split at h
    · cases h
    split at h
    · cases h
    split at h
    · cases h
    rename_i hhash
    cases h
    simp only [Bool.or_eq_true, decide_eq_true_eq, not_or] at hhash
    refine ⟨c, _, hc, by simpa using hready, rfl, rfl, ⟨by simpa using hsafe, rfl, rfl, rfl⟩,
      ?_, ?_⟩
    · simp only [Bool.and_eq_true, decide_eq_true_eq, not_and, Option.isNone_iff_eq_none] at hnamed
      by_cases hname : up.filename = manifestFile
      · exact .inl hname
      · exact .inr (Option.ne_none_iff_exists'.1 (hnamed hname))
    · intro hash hlookup
      have hagree := hhash.2
      rw [hlookup, Option.any_some, decide_eq_true_eq, not_ne_iff] at hagree
      exact hagree
  · cases h

/-- What the next call of an upload does when it takes effect. -/
inductive TookEffect (E : UploadEnv) (u : UploadStore) (others : List UploadOp) (now : Micros) :
    UploadOp → UploadStore → Option UploadOp → Prop
  /-- The request ends here, with nothing written. -/
  | ended (op : UploadOp) : TookEffect E u others now op u none
  | reserved {up : EvidenceUpload} {max : Int} : E.evidenceCap = some max →
      (∀ o ∈ others, o.ledgerLock ≠ some up.app) →
      quotaAllows (storageUsed u.telemetry up.app) up.bytes max = true →
      TookEffect E u others now (.evidenceReserving up) u
        (some (.evidenceInserting up (storageUsed u.telemetry up.app)))
  | insertedUncapped {up : EvidenceUpload} {id : Nat} {u' : UploadStore} : E.evidenceCap = none →
      insertEvidence u up.app up.errorId up.storageKey up.bytes = some (id, u') →
      TookEffect E u others now (.evidenceReserving up) u' (some (.evidenceStoring id))
  | inserted {up : EvidenceUpload} {used : Int} {id : Nat} {u' : UploadStore} :
      insertEvidence u up.app up.errorId up.storageKey up.bytes = some (id, u') →
      TookEffect E u others now (.evidenceInserting up used) u' (some (.evidenceStoring id))
  | released {id : Nat} :
      TookEffect E u others now (.evidenceReleasing id) (removeEvidence u id) none
  | opened {up : FileUpload} {c : CaptureRow} {f : PendingCaptureFile} :
      u.captures.get? up.id = some c → c.status.ready = true → f.captureId = up.id →
      FileMeasured E f up.body → FileDeclared c.manifest f →
      TookEffect E u others now (.fileOpening up) u (some (.fileChecking f up.body))
  | checked {f : PendingCaptureFile} {body : Bytes} {c : CaptureRow} {app : String} :
      u.captures.get? f.captureId = some c → c.status.ready = true → c.appId = some app →
      TookEffect E u others now (.fileChecking f body) u (some (.fileSumming f body app))
  | uncapped {f : PendingCaptureFile} {body : Bytes} {app : String} : E.captureCap = none →
      TookEffect E u others now (.fileSumming f body app) u (some (.fileRecording f body app none))
  | summed {f : PendingCaptureFile} {body : Bytes} {app : String} {max : Int} :
      E.captureCap = some max → quotaAllows (bytesBesides u app f.key) f.bytes max = true →
      TookEffect E u others now (.fileSumming f body app) u
        (some (.fileRecording f body app (some (bytesBesides u app f.key))))
  | recorded {f : PendingCaptureFile} {body : Bytes} {app : String} {used : Option Int}
      {u' : UploadStore} : recordCaptureFile u f = some u' →
      TookEffect E u others now (.fileRecording f body app used) u' (some (.fileStoring f body))
  | stored {f : PendingCaptureFile} {body : Bytes} :
      TookEffect E u others now (.fileStoring f body) (putBlob u f.storageKey body)
        (some (.fileMarking f body))
  | dropped {f : PendingCaptureFile} :
      TookEffect E u others now (.fileDropping f) (removeCaptureFile u f.key) none
  | marked {f : PendingCaptureFile} {body : Bytes} :
      TookEffect E u others now (.fileMarking f body) (markCaptureFileUploaded u f.key).2 none
  | captureRead {id : String} {keyApp : Option String} {c : CaptureRow} :
      u.captures.get? id = some c →
      TookEffect E u others now (.completing id keyApp) u (some (.listing id c.manifest))
  | listed {id : String} {manifest : Json} : allUploaded u id manifest = true →
      TookEffect E u others now (.listing id manifest) u (some (.closing id))
  | closed {id : String} :
      TookEffect E u others now (.closing id) (completeCapture u now id).2 none

theorem tookEffect_of_some {E : UploadEnv} {u u' : UploadStore} {others : List UploadOp}
    {now : Micros} {op : UploadOp} {next : Option UploadOp}
    (h : takeEffect E u others now op = some (u', next)) : TookEffect E u others now op u' next := by
  cases op with
  | evidenceReserving up =>
    simp only [takeEffect] at h
    split at h
    · rename_i max hcap
      split at h
      · cases h
      · rename_i hfree
        cases h
        split
        · rename_i hallows
          refine .reserved hcap (fun o ho heq => hfree ?_) hallows
          exact List.any_eq_true.2 ⟨o, ho, decide_eq_true heq⟩
        · exact .ended _
    · rename_i hcap
      split at h
      · rename_i hinsert
        cases h
        exact .insertedUncapped hcap hinsert
      · cases h
        exact .ended _
  | evidenceInserting up used =>
    simp only [takeEffect] at h
    split at h
    · rename_i hinsert
      cases h
      exact .inserted hinsert
    · cases h
      exact .ended _
  | evidenceStoring id =>
    cases h
    exact .ended _
  | evidenceReleasing id =>
    cases h
    exact .released
  | fileOpening up =>
    simp only [takeEffect] at h
    cases hopen : openFile E u up with
    | error reply =>
      rw [hopen] at h
      cases h
      exact .ended _
    | ok op' =>
      rw [hopen] at h
      cases h
      obtain ⟨c, f, hc, hready, hid, rfl, hmeasured, hdeclared⟩ := openFile_inv hopen
      exact .opened hc hready hid hmeasured hdeclared
  | fileChecking f body =>
    simp only [takeEffect] at h
    cases happ : captureAppForUpload u f.captureId with
    | none =>
      rw [happ] at h
      cases h
      exact .ended _
    | some app =>
      rw [happ] at h
      cases h
      obtain ⟨c, hc, hsome⟩ := Option.bind_eq_some_iff.1 happ
      split at hsome
      · rename_i hready
        exact .checked hc hready hsome
      · cases hsome
  | fileSumming f body app =>
    simp only [takeEffect] at h
    split at h
    · rename_i hcap
      cases h
      exact .uncapped hcap
    · rename_i max hcap
      split at h
      · cases h
      · cases h
        split
        · rename_i hallows
          exact .summed hcap hallows
        · exact .ended _
  | fileRecording f body app used =>
    simp only [takeEffect] at h
    split at h
    · rename_i hrecord
      cases h
      exact .recorded hrecord
    · cases h
      exact .ended _
  | fileStoring f body =>
    cases h
    exact .stored
  | fileDropping f =>
    cases h
    exact .dropped
  | fileMarking f body =>
    cases h
    exact .marked
  | completing id keyApp =>
    simp only [takeEffect, openComplete] at h
    split at h
    · cases h
      exact .ended _
    · rename_i c hc
      split at h
      · cases h
        exact .ended _
      · cases h
        exact .captureRead hc
  | listing id manifest =>
    simp only [takeEffect, checkFiles] at h
    split at h
    · rename_i hall
      cases h
      exact .listed hall
    · cases h
      exact .ended _
  | closing id =>
    cases h
    exact .closed

/-- A step of an upload: its call fails with no effect, or it takes effect and the
handler goes on as it was answered or as after a failure. -/
inductive UploadStepped (E : UploadEnv) (u : UploadStore) (others : List UploadOp)
    (chance : UploadChance) (op : UploadOp) : UploadStore → Option UploadOp → Prop
  | failed : chance.result = .failed → UploadStepped E u others chance op u op.afterFailure
  | answered {u' : UploadStore} {next : Option UploadOp} : chance.result = .answered →
      TookEffect E u others chance.now op u' next → ledgerFree u u' others = true →
      UploadStepped E u others chance op u' next
  | unanswered {u' : UploadStore} {next : Option UploadOp} : chance.result = .unanswered →
      TookEffect E u others chance.now op u' next → ledgerFree u u' others = true →
      UploadStepped E u others chance op u' op.afterFailure

theorem uploadStepped_of_next {E : UploadEnv} {u u' : UploadStore} {others : List UploadOp}
    {chance : UploadChance} {op : UploadOp} {next : Option UploadOp}
    (h : uploadNext E u others chance op = some (u', next)) :
    UploadStepped E u others chance op u' next := by
  unfold uploadNext at h
  split at h
  · rename_i hresult
    cases h
    exact .failed hresult
  · rename_i hresult
    obtain ⟨htake, hfree⟩ := Option.filter_eq_some_iff.1 h
    exact .answered hresult (tookEffect_of_some htake) hfree
  · rename_i hresult
    obtain ⟨⟨u1, next1⟩, hsome, heq⟩ := Option.map_eq_some_iff.1 h
    cases heq
    obtain ⟨htake, hfree⟩ := Option.filter_eq_some_iff.1 hsome
    exact .unanswered hresult (tookEffect_of_some htake) hfree

/-! ## What the writes of others do -/

/-- A capture that is created is new, or was waiting for review under the same manifest. -/
inductive CaptureCreated (u : UploadStore) (c : NewCapture) : UploadStore → Prop
  | added {u' : UploadStore} {row : CaptureRow} : u.captures.get? c.id = none →
      row.status = .pendingReview → u'.telemetry = u.telemetry → u'.captureFiles = u.captureFiles →
      u'.blobs = u.blobs →
      (∀ id, u'.captures.get? id = if id = c.id then some row else u.captures.get? id) →
      CaptureCreated u c u'
  | again {old : CaptureRow} {f : CaptureRow → CaptureRow} : u.captures.get? c.id = some old →
      old.status = .pendingReview → (∀ r, (f r).status = r.status ∧ (f r).manifest = r.manifest) →
      CaptureCreated u c (u.updateCaptures (fun id _ => id = c.id) f)

theorem captureCreated_of_create {same : Json → Json → Bool} {u u' : UploadStore} {now : Micros}
    {c : NewCapture} (h : createCapture same u now c = some (true, u')) :
    CaptureCreated u c u' := by
  unfold createCapture at h
  dsimp only at h
  split at h
  · cases h
  split at h
  · rename_i hnone
    split at h
    · cases h
    · cases h
      exact .added hnone rfl rfl rfl rfl fun id =>
        Table.get?_append u.captures c.id _ (Table.has_eq_false_iff.2 hnone) id
  · rename_i old hold
    split at h
    · rename_i hsame
      rw [Bool.and_eq_true, decide_eq_true_eq] at hsame
      split at h
      · cases h
      · cases h
        exact .again hold hsame.1 fun _ => ⟨rfl, rfl⟩
    · cases h

/-- What a transaction of another handler does. -/
inductive Committed (E : UploadEnv) (u : UploadStore) : UploadCommit → UploadStore → Prop
  | telemetry {c : TelemetryCommit} {t : TenantStore} :
      commitTelemetry E.platform u.telemetry c = some t → (∀ app ids, c ≠ .deleteProject app ids) →
      Committed E u (.telemetry c) { u with telemetry := t }
  | projectDeleted {app : String} {ids : List Nat} {t : TenantStore} :
      commitTelemetry E.platform u.telemetry (.deleteProject app ids) = some t →
      Committed E u (.telemetry (.deleteProject app ids))
        (dropCaptures { u with telemetry := t } app)
  | projectCreated {app : String} :
      Committed E u (.createProject app) { u with projects := u.projects ++ [app] }
  | captureCreated {now : Micros} {c : NewCapture} {u' : UploadStore} : CaptureCreated u c u' →
      Committed E u (.createCapture now c) u'
  | approved {now : Micros} {hash app : String} :
      Committed E u (.approveCapture now hash app) (approveCapture u now hash app)

theorem committed_of_some {E : UploadEnv} {u u' : UploadStore} {c : UploadCommit}
    (h : commitUpload E u c = some u') : Committed E u c u' := by
  cases c with
  | telemetry c =>
    obtain ⟨t, ht, heq⟩ := Option.map_eq_some_iff.1 h
    cases c with
    | deleteProject app ids =>
      subst heq
      exact .projectDeleted ht
    | ingest | deleteErrors | deleteSample =>
      subst heq
      exact .telemetry ht nofun
  | createProject app =>
    rw [commitUpload, Option.ite_none_left_eq_some] at h
    obtain ⟨-, heq⟩ := h
    cases heq
    exact .projectCreated
  | createCapture now c =>
    obtain ⟨⟨done, store⟩, hcreate, h⟩ := Option.bind_eq_some_iff.1 h
    rw [Option.ite_none_right_eq_some] at h
    obtain ⟨rfl, heq⟩ := h
    cases heq
    exact .captureCreated (captureCreated_of_create hcreate)
  | approveCapture now hash app =>
    cases h
    exact .approved

/-! ## A tenant with one capture, for runs on fixed inputs -/

/-- Two file contents. -/
def bodyHi : Bytes := [104, 105]

def bodyHo : Bytes := [104, 111]

/-- The digests of the two contents. -/
def digestHi : String := "8f434346648f6b96df89dda901c5176b10a6d83961dd3c1ac88b59b2dc327aa4"

def digestHo : String := "a821c62e8104f8519d639b4c0948aece641b143f6601fa145993bb2e2c7299d4"

/-- A text of its own for any other content. -/
def otherDigest (body : Bytes) : String :=
  String.ofList (body.map fun b => Char.ofNat (b.toNat + 256))

/-- The digests, as far as the runs need them. -/
def sampleDigest (body : Bytes) : String :=
  if body = bodyHi then digestHi else if body = bodyHo then digestHo else otherDigest body

/-- An operator who allows ten bytes for each app. -/
def sampleEnv : UploadEnv where
  platform := oneBucket
  sameManifest _ _ := false
  sha256 := sampleDigest
  policyCap := none
  envVar := some 10

/-- The manifest of an original with one file of this hash. -/
def originalManifest (hash : String) : Json :=
  .object [("id", .string "cap_0123456789abcdef"), ("immutableOriginal", .bool true),
    ("fileSha256", .object [("a.txt", .string hash)])]

/-- A project with one approved capture, and two errors. -/
def captureApproved : List UploadEvent :=
  [.commit (.createProject "shop"),
    .commit (.createCapture 0
      ⟨"cap_0123456789abcdef", "review", some "shop", originalManifest digestHi⟩),
    .commit (.approveCapture 0 "review" "shop"),
    .commit (.telemetry (.ingest 0 (twoCrashes none)))]

/-- The upload of the file of that capture. -/
def putOriginal : FileUpload :=
  ⟨"cap_0123456789abcdef", "a.txt", .text digestHi, .missing, bodyHi, none⟩

/-- An upload of the manifest of that capture. -/
def putManifest (body : Bytes) : FileUpload :=
  ⟨"cap_0123456789abcdef", manifestFile, .text (sampleDigest body), .missing, body, none⟩

/-- The next call of the upload at an index, which is answered. -/
def answered (i : Nat) : UploadEvent := .advance i {}

end ReproitCloud
