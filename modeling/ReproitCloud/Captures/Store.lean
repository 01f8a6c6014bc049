import ReproitCloud.Telemetry.Consistency

/-!
# Captures, their files and the evidence of an app

A capture is a report that a human recorded.  Its row says how far it is: created and
waiting for review, approved, uploading, complete.  Its files are rows of
`capture_files`, and their bytes are objects of the blob store.  Evidence is the other
kind of stored bytes.  Both kinds count against one cap for each app.

`UploadStore` is the part of a tenant database that the two upload paths touch, with
the tenant's blobs.  Each definition below is one SQL statement, or the statements of
a transaction that take effect at its commit.

The ledger `app_storage_usage` is kept by a trigger on `evidence`.  `evidenceBytes` is
what it stands for, and `captureBytes` has no ledger: it is a sum over a join.
-/

namespace ReproitCloud

open Lib

/-! ## Rows -/

/-- The `status` of a capture. -/
inductive CaptureStatus where
  | pendingReview
  | approved
  | uploading
  | complete
deriving DecidableEq, Repr

namespace CaptureStatus

/-- The stored tag. -/
def asStr : CaptureStatus → String
  | pendingReview => "pending_review"
  | approved => "approved"
  | uploading => "uploading"
  | complete => "complete"

/-- `status IN ('approved','uploading')`. -/
def ready : CaptureStatus → Bool
  | approved | uploading => true
  | pendingReview | complete => false

end CaptureStatus

/-- A row of `captures`. -/
structure CaptureRow where
  reviewTokenHash : String
  appId : Option String
  status : CaptureStatus := .pendingReview
  manifest : Json
  expiresAt : Micros

/-- The key of `capture_files`: capture and filename. -/
abbrev FileKey := String × String

/-- A row of `capture_files`. -/
structure CaptureFileRow where
  storageKey : String
  bytes : Int
  sha256 : String
  contentType : String
  uploaded : Bool := false
deriving DecidableEq, Repr

/-- The content of a blob. -/
abbrev Bytes := List UInt8

/-- The tables of the two upload paths, and the blobs of captures. -/
structure UploadStore where
  telemetry : TenantStore := .empty
  /-- The serial of `evidence`. -/
  nextEvidenceId : Nat := 1
  /-- The app ids of `projects`. -/
  projects : List String := []
  captures : Table String CaptureRow := .empty
  captureFiles : Table FileKey CaptureFileRow := .empty
  blobs : Table String Bytes := .empty
  /-- `capture_id TEXT NOT NULL REFERENCES captures(id)`. -/
  owned : ∀ r ∈ captureFiles.rows, captures.has r.1.1 = true := by exact fun _ h => nomatch h

/-! ## What is stored for an app -/

/-- `SUM(bytes) FROM evidence WHERE app_id=$1`. -/
def evidenceBytes (t : TenantStore) (app : String) : Int :=
  ((t.evidence.filter fun e => e.appId = app).map EvidenceRow.bytes).sum

namespace UploadStore

/-- The capture is filed under the app. -/
def capturedFor (u : UploadStore) (app id : String) : Bool :=
  (u.captures.get? id).any fun c => c.appId = some app

/-- The bytes of the app's capture files whose key `p` takes. -/
def captureBytes (u : UploadStore) (app : String) (p : FileKey → Bool) : Int :=
  u.captureFiles.sum fun k r => if u.capturedFor app k.1 && p k then r.bytes else 0

/-- All bytes stored for the app. -/
def storedBytes (u : UploadStore) (app : String) : Int :=
  evidenceBytes u.telemetry app + u.captureBytes app fun _ => true

end UploadStore

/-! ## Evidence statements -/

/-- `quota_allows`, with the overflow check of an `i64`. -/
def quotaAllows (used incoming max : Int) : Bool :=
  used + incoming ≤ 9223372036854775807 && used + incoming ≤ max

/-- The `bytes` of the app's row of `app_storage_usage`.  The transaction has put a
zero row there first. -/
def storageUsed (t : TenantStore) (app : String) : Int := (t.appStorageUsage.get? app).getD 0

/-- The trigger on an inserted evidence row. -/
def chargeStorage (usage : Table String Int) (app : String) (bytes : Int) : Table String Int :=
  usage.upsert app bytes fun n => n + bytes

/-- The insert of `add_evidence_within_quota`, which the foreign key to `errors` may
refuse: the id of the row. -/
def insertEvidence (u : UploadStore) (app : String) (errorId : Nat) (storageKey : String)
    (bytes : Int) : Option (Nat × UploadStore) :=
  if u.telemetry.errors.rows.any fun r => r.id = errorId then
    some (u.nextEvidenceId,
      { u with
        telemetry := { u.telemetry with
          evidence := u.telemetry.evidence ++ [⟨u.nextEvidenceId, app, errorId, storageKey, bytes⟩]
          appStorageUsage := chargeStorage u.telemetry.appStorageUsage app bytes }
        nextEvidenceId := u.nextEvidenceId + 1 })
  else none

/-- `remove_evidence`. -/
def removeEvidence (u : UploadStore) (id : Nat) : UploadStore :=
  { u with telemetry := { u.telemetry with
    evidence := u.telemetry.evidence.filter fun e => e.id ≠ id
    appStorageUsage := releaseStorage u.telemetry.appStorageUsage
      (u.telemetry.evidence.filter fun e => e.id = id) } }

/-! ## Capture statements -/

/-- `NewCapture`, the columns that are read. -/
structure NewCapture where
  id : String
  reviewTokenHash : String
  appId : Option String
  manifest : Json

namespace UploadStore

/-- An `UPDATE captures`. -/
def updateCaptures (u : UploadStore) (p : String → CaptureRow → Bool)
    (f : CaptureRow → CaptureRow) : UploadStore where
  telemetry := u.telemetry
  nextEvidenceId := u.nextEvidenceId
  projects := u.projects
  captures := u.captures.update p fun _ => f
  captureFiles := u.captureFiles
  blobs := u.blobs
  owned := by
    intro r hr
    have h := u.owned r hr
    rw [Table.has, Option.isSome_iff_exists] at h ⊢
    obtain ⟨c, hc⟩ := h
    exact ⟨_, by rw [Table.get?_update, hc]; rfl⟩

/-- A statement that replaces or removes rows of `capture_files`. -/
def withFiles (u : UploadStore) (files : Table FileKey CaptureFileRow)
    (h : ∀ r ∈ files.rows, u.captures.has r.1.1 = true) : UploadStore :=
  { u with captureFiles := files, owned := h }

end UploadStore

/-- The upsert of `create_capture`: whether it wrote a row.  `sameManifest` is the equality
of `jsonb`.  A token hash that another capture has breaks the UNIQUE constraint, and the
statement fails. -/
def createCapture (sameManifest : Json → Json → Bool) (u : UploadStore) (now : Micros)
    (c : NewCapture) : Option (Bool × UploadStore) :=
  let expires := now + 30 * 60 * microsPerSecond
  let taken := u.captures.rows.any fun r => r.1 ≠ c.id && r.2.reviewTokenHash = c.reviewTokenHash
  if !c.appId.all (u.projects.contains ·) then some (false, u)
  else
    match h : u.captures.get? c.id with
    | none =>
      if taken then none
      else some (true, { u with
        captures := u.captures.append c.id ⟨c.reviewTokenHash, c.appId, .pendingReview, c.manifest,
          expires⟩ (Table.has_eq_false_iff.2 h)
        owned := by
          intro r hr
          rw [Table.has, Table.get?_append]
          split
          · rfl
          · exact u.owned r hr })
    | some old =>
      if old.status = .pendingReview && sameManifest old.manifest c.manifest then
        if taken then none
        else some (true, u.updateCaptures (fun id _ => id = c.id) fun r =>
          { r with reviewTokenHash := c.reviewTokenHash, appId := c.appId, expiresAt := expires })
      else some (false, u)

/-- `approve_capture`. -/
def approveCapture (u : UploadStore) (now : Micros) (reviewTokenHash app : String) : UploadStore :=
  u.updateCaptures
    (fun _ c => c.reviewTokenHash = reviewTokenHash && now < c.expiresAt &&
      c.status = .pendingReview && u.projects.contains app)
    fun c => { c with appId := some app, status := .approved }

/-- The first statement of `add_capture_file`: the app of a capture that is ready. -/
def captureAppForUpload (u : UploadStore) (id : String) : Option String :=
  (u.captures.get? id).bind fun c => if c.status.ready then c.appId else none

/-- The sum of `add_capture_file`: all bytes of the app but those of the row that will
be replaced. -/
def bytesBesides (u : UploadStore) (app : String) (key : FileKey) : Int :=
  evidenceBytes u.telemetry app + u.captureBytes app fun k => k ≠ key

/-- `PendingCaptureFile`, as a row. -/
structure PendingCaptureFile where
  captureId : String
  filename : String
  storageKey : String
  bytes : Int
  sha256 : String
  contentType : String
deriving DecidableEq, Repr

/-- The key of the row. -/
def PendingCaptureFile.key (f : PendingCaptureFile) : FileKey := (f.captureId, f.filename)

/-- The row as it is inserted, or written over another. -/
def PendingCaptureFile.row (f : PendingCaptureFile) : CaptureFileRow :=
  ⟨f.storageKey, f.bytes, f.sha256, f.contentType, false⟩

/-- The writes of `add_capture_file`, which the foreign key may refuse.  Neither looks
at the status. -/
def recordCaptureFile (u : UploadStore) (f : PendingCaptureFile) : Option UploadStore :=
  if h : u.captures.has f.captureId = true then
    some ((u.withFiles (u.captureFiles.upsert f.key f.row fun _ => f.row) (by
      intro r hr
      have hget := Table.get?_eq_some_iff.2 (show (r.1, r.2) ∈ _ from hr)
      rw [Table.get?_upsert] at hget
      split at hget
      · rename_i hk
        rw [hk]
        exact h
      · exact u.owned r (Table.get?_eq_some_iff.1 hget))).updateCaptures
        (fun id _ => id = f.captureId) fun c => { c with status := .uploading })
  else none

/-- `remove_capture_file`. -/
def removeCaptureFile (u : UploadStore) (key : FileKey) : UploadStore :=
  u.withFiles (u.captureFiles.delete fun k _ => k = key) fun r hr =>
    u.owned r (List.mem_filter.1 hr).1

/-- `mark_capture_file_uploaded`.  The flag says whether there was a row. -/
def markCaptureFileUploaded (u : UploadStore) (key : FileKey) : Bool × UploadStore :=
  (u.captureFiles.has key,
    u.withFiles (u.captureFiles.update (fun k _ => k = key) fun _ r => { r with uploaded := true })
      fun r hr => by
        obtain ⟨r', hr', rfl⟩ := List.mem_map.1 hr
        exact u.owned r' hr')

/-- `capture_files`: the uploaded files of a capture, by name and hash. -/
def uploadedFiles (u : UploadStore) (id : String) : List (String × String) :=
  (u.captureFiles.rows.filter fun r => r.1.1 = id && r.2.uploaded).map fun r =>
    (r.1.2, r.2.sha256)

/-- `complete_capture`.  The flag says whether a row was updated. -/
def completeCapture (u : UploadStore) (now : Micros) (id : String) : Bool × UploadStore :=
  ((u.captures.get? id).any fun c => c.status.ready,
    u.updateCaptures (fun k c => k = id && c.status.ready) fun c =>
      { c with status := .complete, expiresAt := now })

/-- The capture half of `project_evidence_keys`.  The blobs of evidence are not among
those of captures. -/
def captureFileKeys (u : UploadStore) (app : String) : List String :=
  (u.captureFiles.rows.filter fun r => u.capturedFor app r.1.1).map fun r => r.2.storageKey

/-- The loop of `delete_project_for` over the keys of a project. -/
def dropBlobs (blobs : Table String Bytes) (keys : List String) : Table String Bytes :=
  keys.foldl (fun left key => left.delete fun k _ => k = key) blobs

theorem get?_dropBlobs {keys : List String} {key : String} (h : key ∉ keys)
    (blobs : Table String Bytes) : (dropBlobs blobs keys).get? key = blobs.get? key := by
  induction keys generalizing blobs with
  | nil => rfl
  | cons k keys ih =>
    rw [List.mem_cons, not_or] at h
    exact (ih h.2 _).trans (Table.get?_delete_of_false _ fun _ => decide_eq_false h.1)

/-- The end of a project: the blobs of its captures go one after another, and then the
captures, by the cascade of its row, with their files. -/
def dropCaptures (u : UploadStore) (app : String) : UploadStore where
  telemetry := u.telemetry
  nextEvidenceId := u.nextEvidenceId
  projects := u.projects.filter fun a => a ≠ app
  captures := u.captures.delete fun _ c => c.appId = some app
  captureFiles := u.captureFiles.delete fun k _ => u.capturedFor app k.1
  blobs := dropBlobs u.blobs (captureFileKeys u app)
  owned := by
    intro r hr
    obtain ⟨hr, hother⟩ := List.mem_filter.1 hr
    have h := u.owned r hr
    rw [Table.has, Option.isSome_iff_exists] at h
    obtain ⟨c, hc⟩ := h
    simp only [UploadStore.capturedFor, hc, Option.any_some, Bool.not_eq_true'] at hother
    rw [Table.has, Table.get?_delete, hc]
    simp [Option.filter, hother]

end ReproitCloud
