import ReproitCloud.Captures.Uploads

/-!
# One quota for evidence and captures

The bytes stored for an app are those of its evidence and those of its capture files,
and one cap is meant for both.  Each upload path checks the cap before it writes.

* Evidence reads the ledger, under the lock of its row.  The ledger is exact in every
  reachable state (`ledgerExact_run`), so two evidence uploads never go past the cap
  together.  It says nothing of the capture files.
* A capture file sums both kinds, under an advisory lock that evidence does not take.

So the cap holds as long as evidence comes only to apps that have no capture bytes, and
nothing comes between the sum of a capture file and its commit
(`stored_bytes_within_cap`).
-/

namespace ReproitCloud

open Lib

/-! ## The ledger -/

/-- The bytes of an app's rows. -/
def bytesOf (rows : List EvidenceRow) (app : String) : Int :=
  ((rows.filter fun e => e.appId = app).map EvidenceRow.bytes).sum

/-- The ledger is what it stands for. -/
structure LedgerExact (t : TenantStore) : Prop where
  exact : ∀ app, storageUsed t app = evidenceBytes t app
  measured : ∀ e ∈ t.evidence, 0 ≤ e.bytes

section Ledger

variable {P : Platform} {R : Renderings} {t t' : TenantStore} {rows gone : List EvidenceRow}
  {app : String}

theorem bytesOf_cons (e : EvidenceRow) (rows : List EvidenceRow) (app : String) :
    bytesOf (e :: rows) app = (if e.appId = app then e.bytes else 0) + bytesOf rows app := by
  by_cases happ : e.appId = app
  · simp [bytesOf, happ]
  · simp [bytesOf, happ]

theorem bytesOf_nonneg (h : ∀ e ∈ rows, 0 ≤ e.bytes) (app : String) : 0 ≤ bytesOf rows app := by
  apply List.sum_nonneg
  intro n hn
  obtain ⟨e, he, rfl⟩ := List.mem_map.1 hn
  exact h e (List.mem_filter.1 he).1

/-- Rows are those that go and those that stay. -/
theorem bytesOf_split (rows : List EvidenceRow) (p : EvidenceRow → Bool) (app : String) :
    bytesOf rows app = bytesOf (rows.filter p) app + bytesOf (rows.filter fun e => !p e) app := by
  induction rows with
  | nil => rfl
  | cons e rows ih =>
    rw [bytesOf_cons, ih]
    cases hp : p e with
    | true =>
      rw [List.filter_cons_of_pos hp, List.filter_cons_of_neg (by simp [hp]), bytesOf_cons]
      omega
    | false =>
      rw [List.filter_cons_of_neg (by simp [hp]), List.filter_cons_of_pos (by simp [hp]),
        bytesOf_cons]
      omega

/-- Releasing rows takes their bytes off, and `GREATEST(0, ..)` never cuts anything. -/
theorem releaseStorage_getD {usage : Table String Int} {rest : String → Int}
    (hgone : ∀ e ∈ gone, 0 ≤ e.bytes) (hrest : ∀ app, 0 ≤ rest app)
    (h : ∀ app, (usage.get? app).getD 0 = bytesOf gone app + rest app) (app : String) :
    ((releaseStorage usage gone).get? app).getD 0 = rest app := by
  induction gone generalizing usage with
  | nil =>
    have happ := h app
    rw [show bytesOf [] app = 0 from rfl, zero_add] at happ
    exact happ
  | cons e gone ih =>
    have htail : ∀ e' ∈ gone, 0 ≤ e'.bytes := fun e' he' => hgone e' (List.mem_cons_of_mem _ he')
    refine ih htail fun a => ?_
    have ha := h a
    have hpos := bytesOf_nonneg htail a
    have hr := hrest a
    rw [bytesOf_cons] at ha
    rw [Table.get?_update]
    cases hrow : usage.get? a with
    | none =>
      -- no row: nothing is stored for the app, so nothing of it goes
      have he := hgone e List.mem_cons_self
      rw [hrow, Option.getD_none] at ha
      rw [Option.map_none, Option.getD_none]
      split at ha <;> omega
    | some n =>
      rw [hrow, Option.getD_some] at ha
      rw [Option.map_some, Option.getD_some]
      by_cases hae : a = e.appId
      · rw [if_pos hae.symm] at ha
        rw [if_pos (by simpa using hae)]
        omega
      · rw [if_neg (Ne.symm hae)] at ha
        rw [if_neg (by simpa using hae)]
        omega

/-- Rows of evidence go, and the trigger releases them. -/
theorem LedgerExact.release (h : LedgerExact t) (p : EvidenceRow → Bool)
    (hevidence : t'.evidence = t.evidence.filter fun e => !p e)
    (husage : t'.appStorageUsage = releaseStorage t.appStorageUsage (t.evidence.filter p)) :
    LedgerExact t' ∧ ∀ app, evidenceBytes t' app ≤ evidenceBytes t app := by
  have hkept : ∀ e ∈ t.evidence.filter fun e => !p e, 0 ≤ e.bytes := fun e he =>
    h.measured e (List.mem_filter.1 he).1
  have hgone : ∀ e ∈ t.evidence.filter p, 0 ≤ e.bytes := fun e he =>
    h.measured e (List.mem_filter.1 he).1
  have hbytes : ∀ app, evidenceBytes t' app = bytesOf (t.evidence.filter fun e => !p e) app := by
    intro app
    rw [← hevidence]
    rfl
  refine ⟨⟨fun app => ?_, ?_⟩, fun app => ?_⟩
  · rw [storageUsed, husage, hbytes]
    refine releaseStorage_getD hgone (bytesOf_nonneg hkept) (fun a => ?_) app
    exact (h.exact a).trans (bytesOf_split t.evidence p a)
  · rw [hevidence]
    exact hkept
  · have hsplit := bytesOf_split t.evidence p app
    have hpos := bytesOf_nonneg hgone app
    rw [hbytes]
    show bytesOf _ app ≤ bytesOf t.evidence app
    omega

theorem removeErrorFromReadModels_evidence {old : ErrorRow}
    (h : removeErrorFromReadModels R t old = .ok t') :
    t'.evidence = t.evidence ∧ t'.appStorageUsage = t.appStorageUsage := by
  obtain ⟨_, -, rfl⟩ := removeErrorFromReadModels_inv h
  exact ⟨rfl, rfl⟩

theorem firings_evidence {order : List ErrorRow}
    (h : order.foldlM (removeErrorFromReadModels R) t = .ok t') :
    t'.evidence = t.evidence ∧ t'.appStorageUsage = t.appStorageUsage := by
  induction order generalizing t with
  | nil =>
    cases h
    exact ⟨rfl, rfl⟩
  | cons old order ih =>
    rw [List.foldlM_cons] at h
    cases hfire : removeErrorFromReadModels R t old with
    | error e =>
      rw [hfire] at h
      cases h
    | ok u =>
      rw [hfire] at h
      obtain ⟨hevidence, husage⟩ := removeErrorFromReadModels_evidence hfire
      obtain ⟨hevidence', husage'⟩ := ih h
      exact ⟨hevidence'.trans hevidence, husage'.trans husage⟩

theorem LedgerExact.deleteErrors {p : ErrorRow → Bool} {order : List ErrorRow} (h : LedgerExact t)
    (hrun : deleteErrors R t p order = .ok t') :
    LedgerExact t' ∧ ∀ app, evidenceBytes t' app ≤ evidenceBytes t app := by
  obtain ⟨hevidence, husage⟩ := firings_evidence hrun
  exact h.release _ hevidence husage

/-- A ledger is read off two tables. -/
theorem LedgerExact.congr (h : LedgerExact t) (hevidence : t'.evidence = t.evidence)
    (husage : t'.appStorageUsage = t.appStorageUsage) : LedgerExact t' := by
  refine ⟨fun app => ?_, ?_⟩
  · have happ := h.exact app
    rw [storageUsed, evidenceBytes] at happ ⊢
    rwa [hevidence, husage]
  · rw [hevidence]
    exact h.measured

theorem bytesOf_others (rows : List EvidenceRow) (app a : String) :
    bytesOf (rows.filter fun e => e.appId ≠ app) a = if a = app then 0 else bytesOf rows a := by
  induction rows with
  | nil => exact (ite_self _).symm
  | cons e rows ih =>
    rw [bytesOf_cons]
    by_cases he : e.appId = app
    · rw [List.filter_cons_of_neg (by simpa using he), ih]
      by_cases ha : a = app
      · rw [if_pos ha, if_pos ha]
      · rw [if_neg ha, if_neg ha, if_neg fun heq => ha (heq.symm.trans he), zero_add]
    · rw [List.filter_cons_of_pos (by simpa using he), bytesOf_cons, ih]
      by_cases ha : a = app
      · rw [if_pos ha, if_pos ha, if_neg fun heq => he (heq.trans ha), zero_add]
      · rw [if_neg ha, if_neg ha]

theorem LedgerExact.clearBeforeErrors (h : LedgerExact t) (app : String) :
    LedgerExact (clearBeforeErrors t app) ∧
      ∀ a, evidenceBytes (clearBeforeErrors t app) a ≤ evidenceBytes t a := by
  have hbytes : ∀ a, evidenceBytes (ReproitCloud.clearBeforeErrors t app) a =
      if a = app then 0 else evidenceBytes t a := bytesOf_others t.evidence app
  refine ⟨⟨fun a => ?_, fun e he => h.measured e (List.mem_filter.1 he).1⟩, fun a => ?_⟩
  · rw [hbytes]
    show ((t.appStorageUsage.delete fun k _ => k = app).get? a).getD 0 = _
    rw [Table.get?_delete, ← h.exact a, storageUsed]
    cases t.appStorageUsage.get? a with
    | none => exact (ite_self _).symm
    | some n =>
      by_cases haa : a = app
      · simp [haa, Option.filter]
      · simp [haa, Option.filter]
  · rw [hbytes]
    split
    · exact bytesOf_nonneg h.measured a
    · exact le_refl _

/-- A telemetry transaction keeps the ledger exact, and adds no evidence. -/
theorem LedgerExact.step {e : TelemetryEvent} (h : LedgerExact t) (hstep : TelemetryStep P t e t') :
    LedgerExact t' ∧ ∀ app, evidenceBytes t' app ≤ evidenceBytes t app := by
  cases hstep with
  | @ingest _ now b dup hrun =>
    have hsame : t'.evidence = t.evidence ∧ t'.appStorageUsage = t.appStorageUsage := by
      rcases ingestBatch_cases hrun with ⟨rfl, -⟩ | ⟨-, hing⟩
      · exact ⟨rfl, rfl⟩
      · have hevidence := hing.inserted.evidence
        have husage := hing.inserted.usage
        cases hbuild : b.deployment with
        | none =>
          rw [hbuild] at hevidence husage
          exact ⟨hevidence, husage⟩
        | some build =>
          rw [hbuild] at hevidence husage
          exact ⟨hevidence, husage⟩
    refine ⟨h.congr hsame.1 hsame.2, fun app => le_of_eq ?_⟩
    rw [evidenceBytes, evidenceBytes, hsame.1]
  | deleteErrors _ hrun => exact h.deleteErrors hrun
  | deleteSample _ hrun =>
    simp only [deleteSampleBucketData, pure, Except.pure, bind, Except.bind] at hrun
    split at hrun
    · cases hrun
      exact ⟨h, fun _ => le_refl _⟩
    split at hrun
    · cases hrun
    rename_i u hu
    obtain ⟨hexact, hle⟩ := h.deleteErrors hu
    split at hrun
    · cases hrun
      exact ⟨hexact.congr rfl rfl, hle⟩
    · cases hrun
      exact ⟨hexact, hle⟩
  | @deleteProject _ app order _ hrun =>
    unfold deleteProjectByApp at hrun
    obtain ⟨hbefore, hle⟩ := h.clearBeforeErrors app
    cases hdel : ReproitCloud.deleteErrors P.toRenderings (ReproitCloud.clearBeforeErrors t app)
        (fun r => r.appId = app) order with
    | error e =>
      rw [hdel] at hrun
      cases hrun
    | ok u =>
      rw [hdel] at hrun
      cases hrun
      obtain ⟨hexact, hle'⟩ := hbefore.deleteErrors hdel
      exact ⟨hexact.congr rfl rfl, fun a => (hle' a).trans (hle a)⟩

end Ledger

/-! ## The bytes of capture files -/

/-- Files have a size, and belong to captures that have been reviewed. -/
structure FilesHeld (u : UploadStore) : Prop where
  measured : ∀ r ∈ u.captureFiles.rows, 0 ≤ r.2.bytes
  reviewed : ∀ r ∈ u.captureFiles.rows, ∀ c, u.captures.get? r.1.1 = some c →
    c.status ≠ .pendingReview

section Files

variable {u u' : UploadStore} {app : String} {p : FileKey → Bool}

theorem capturedFor_of_get? {id : String} {c : CaptureRow} (h : u.captures.get? id = some c) :
    u.capturedFor app id = decide (c.appId = some app) := by
  rw [UploadStore.capturedFor, h, Option.any_some]

theorem FilesHeld.weight_nonneg (h : FilesHeld u) (app : String) (p : FileKey → Bool) :
    ∀ r ∈ u.captureFiles.rows,
      0 ≤ (if u.capturedFor app r.1.1 && p r.1 then r.2.bytes else 0) := by
  intro r hr
  split
  · exact h.measured r hr
  · exact le_refl 0

/-- Captures that move between apps have no files. -/
theorem captureBytes_of_captures (hfiles : u'.captureFiles = u.captureFiles)
    (h : ∀ r ∈ u.captureFiles.rows, u'.capturedFor app r.1.1 = u.capturedFor app r.1.1) :
    u'.captureBytes app p = u.captureBytes app p := by
  rw [UploadStore.captureBytes, UploadStore.captureBytes, hfiles]
  refine Table.sum_congr fun r hr => ?_
  rw [h r hr]

theorem capturedFor_updateCaptures {q : String → CaptureRow → Bool} {f : CaptureRow → CaptureRow}
    {id : String} (h : ∀ c, u.captures.get? id = some c → q id c = true → (f c).appId = c.appId) :
    (u.updateCaptures q f).capturedFor app id = u.capturedFor app id := by
  have hget : (u.updateCaptures q f).captures.get? id =
      (u.captures.get? id).map fun c => if q id c then f c else c := Table.get?_update ..
  rw [UploadStore.capturedFor, UploadStore.capturedFor, hget]
  cases hc : u.captures.get? id with
  | none => rfl
  | some c =>
    rw [Option.map_some, Option.any_some, Option.any_some]
    split
    · rename_i hq
      rw [h c hc hq]
    · rfl

theorem FilesHeld.updateCaptures {q : String → CaptureRow → Bool} {f : CaptureRow → CaptureRow}
    (h : FilesHeld u) (hf : ∀ c, c.status ≠ .pendingReview → (f c).status ≠ .pendingReview) :
    FilesHeld (u.updateCaptures q f) := by
  refine ⟨h.measured, fun r hr c hc => ?_⟩
  have hget : (u.updateCaptures q f).captures.get? r.1.1 =
      (u.captures.get? r.1.1).map fun c => if q r.1.1 c then f c else c := Table.get?_update ..
  rw [hget, Option.map_eq_some_iff] at hc
  obtain ⟨c0, hc0, rfl⟩ := hc
  have hreviewed := h.reviewed r hr c0 hc0
  split
  · exact hf c0 hreviewed
  · exact hreviewed

theorem recordCaptureFile_eq {f : PendingCaptureFile} (h : recordCaptureFile u f = some u') :
    u'.telemetry = u.telemetry ∧ u'.blobs = u.blobs ∧ u'.projects = u.projects ∧
      u'.captureFiles = u.captureFiles.upsert f.key f.row (fun _ => f.row) ∧
      u'.captures = u.captures.update (fun id _ => id = f.captureId)
        fun _ c => { c with status := .uploading } := by
  unfold recordCaptureFile at h
  split at h
  · cases h
    exact ⟨rfl, rfl, rfl, rfl, rfl⟩
  · cases h

/-- A row of a file that was recorded is that of the file, or another. -/
theorem get?_recorded {f : PendingCaptureFile} (h : recordCaptureFile u f = some u') (k : FileKey) :
    u'.captureFiles.get? k = if k = f.key then some f.row else u.captureFiles.get? k := by
  obtain ⟨-, -, -, hfiles, -⟩ := recordCaptureFile_eq h
  rw [hfiles, Table.get?_upsert]
  split
  · cases u.captureFiles.get? f.key <;> rfl
  · rfl

theorem capturedFor_recorded {f : PendingCaptureFile} (h : recordCaptureFile u f = some u')
    (id : String) : u'.capturedFor app id = u.capturedFor app id := by
  obtain ⟨-, -, -, -, hcaptures⟩ := recordCaptureFile_eq h
  rw [UploadStore.capturedFor, UploadStore.capturedFor, hcaptures, Table.get?_update]
  cases u.captures.get? id with
  | none => rfl
  | some c =>
    rw [Option.map_some, Option.any_some, Option.any_some]
    split <;> rfl

theorem FilesHeld.recorded {f : PendingCaptureFile} (h : FilesHeld u) (hbytes : 0 ≤ f.bytes)
    (hrecord : recordCaptureFile u f = some u') : FilesHeld u' := by
  obtain ⟨-, -, -, -, hcaptures⟩ := recordCaptureFile_eq hrecord
  have hrow : ∀ r ∈ u'.captureFiles.rows, (r.1 = f.key ∧ r.2 = f.row) ∨ r ∈ u.captureFiles.rows := by
    intro r hr
    have hget := Table.get?_eq_some_iff.2 (show (r.1, r.2) ∈ _ from hr)
    rw [get?_recorded hrecord] at hget
    split at hget
    · rename_i hk
      exact .inl ⟨hk, (Option.some.inj hget).symm⟩
    · exact .inr (Table.get?_eq_some_iff.1 hget)
  refine ⟨fun r hr => ?_, fun r hr c hc => ?_⟩
  · rcases hrow r hr with ⟨-, hf⟩ | hr
    · rw [hf]
      exact hbytes
    · exact h.measured r hr
  · rw [hcaptures, Table.get?_update, Option.map_eq_some_iff] at hc
    obtain ⟨c0, hc0, rfl⟩ := hc
    split
    · exact nofun
    · rename_i hother
      rcases hrow r hr with ⟨hk, -⟩ | hr
      · rw [hk] at hother
        exact absurd (decide_eq_true rfl) hother
      · exact h.reviewed r hr c0 hc0

/-- A file that is recorded replaces the bytes under its key. -/
theorem captureBytes_recorded {f : PendingCaptureFile} (hrecord : recordCaptureFile u f = some u')
    (app : String) :
    u'.captureBytes app (fun _ => true) = u.captureBytes app (fun k => k ≠ f.key) +
      if u.capturedFor app f.captureId then f.bytes else 0 := by
  have hweight : u'.captureBytes app (fun _ => true) =
      u'.captureFiles.sum fun k r => if u.capturedFor app k.1 then r.bytes else 0 := by
    refine Table.sum_congr fun r _ => ?_
    rw [capturedFor_recorded hrecord, Bool.and_true]
  obtain ⟨-, -, -, hfiles, -⟩ := recordCaptureFile_eq hrecord
  rw [hweight, hfiles, Table.sum_upsert]
  congr 1
  · refine Table.sum_congr fun r _ => ?_
    by_cases hk : r.1 = f.key
    · simp [hk]
    · simp [hk]
  · cases u.captureFiles.get? f.key <;> rfl

theorem captureBytes_besides_le (h : FilesHeld u) (key : FileKey) (app : String) :
    u.captureBytes app (fun k => k ≠ key) ≤ u.captureBytes app fun _ => true := by
  have hsplit := Table.sum_split u.captureFiles
    (fun k r => if u.capturedFor app k.1 && true then r.bytes else 0) key
  have hpart : u.captureBytes app (fun k => k ≠ key) = u.captureFiles.sum fun k r =>
      if k = key then 0 else if u.capturedFor app k.1 && true then r.bytes else 0 := by
    refine Table.sum_congr fun r _ => ?_
    by_cases hk : r.1 = key
    · simp [hk]
    · simp [hk]
  have hpos : 0 ≤ (u.captureFiles.get? key).elim 0
      fun r => if u.capturedFor app key.1 && true then r.bytes else 0 := by
    cases hr : u.captureFiles.get? key with
    | none => exact le_refl 0
    | some r => exact h.weight_nonneg app (fun _ => true) (key, r) (Table.get?_eq_some_iff.1 hr)
  have hall : u.captureBytes app (fun _ => true) = u.captureFiles.sum fun k r =>
      if u.capturedFor app k.1 && true then r.bytes else 0 := rfl
  omega

end Files

/-! ## What a step does to the sizes -/

/-- The ledger is exact and the files are measured. -/
structure StoreSized (u : UploadStore) : Prop where
  ledger : LedgerExact u.telemetry
  files : FilesHeld u

/-- What an upload is about to write has a size. -/
def UploadOp.Sized : UploadOp → Prop
  | evidenceReserving up => 0 ≤ up.bytes
  | evidenceInserting up _ => 0 ≤ up.bytes
  | fileChecking f _ => 0 ≤ f.bytes
  | fileSumming f _ _ => 0 ≤ f.bytes
  | fileRecording f _ _ _ => 0 ≤ f.bytes
  | _ => True

section Sizes

variable {E : UploadEnv} {u u' : UploadStore} {others : List UploadOp} {now : Micros}
  {op : UploadOp} {next : Option UploadOp}

theorem insertEvidence_sized {app key : String} {errorId id : Nat} {bytes : Int}
    (h : StoreSized u) (hbytes : 0 ≤ bytes)
    (hinsert : insertEvidence u app errorId key bytes = some (id, u')) :
    StoreSized u' ∧
      ∀ a, u'.storedBytes a = u.storedBytes a + if a = app then bytes else 0 := by
  rw [insertEvidence, Option.ite_none_right_eq_some] at hinsert
  obtain ⟨-, heq⟩ := hinsert
  cases heq
  have hgrows : ∀ a, bytesOf (u.telemetry.evidence ++ [⟨u.nextEvidenceId, app, errorId, key, bytes⟩]) a =
      bytesOf u.telemetry.evidence a + if a = app then bytes else 0 := by
    intro a
    rw [bytesOf, List.filter_append, List.map_append, List.sum_append]
    by_cases ha : a = app
    · simp [bytesOf, ha]
    · simp [bytesOf, ha, Ne.symm ha]
  refine ⟨⟨⟨fun a => ?_, fun e he => ?_⟩, h.files.measured, h.files.reviewed⟩, fun a => ?_⟩
  · have ha := h.ledger.exact a
    refine Eq.trans ?_ (hgrows a).symm
    rw [show bytesOf u.telemetry.evidence a = storageUsed u.telemetry a from ha.symm]
    show ((chargeStorage u.telemetry.appStorageUsage app bytes).get? a).getD 0 = _
    rw [chargeStorage, Table.get?_upsert, storageUsed]
    by_cases haa : a = app
    · rw [if_pos haa, if_pos haa, haa]
      cases u.telemetry.appStorageUsage.get? app with
      | none => exact (zero_add bytes).symm
      | some n => rfl
    · rw [if_neg haa, if_neg haa, add_zero]
  · rcases List.mem_append.1 he with he | he
    · exact h.ledger.measured e he
    · rw [List.mem_singleton.1 he]
      exact hbytes
  · have hstored : ∀ v : UploadStore, v.storedBytes a =
        bytesOf v.telemetry.evidence a + v.captureBytes a fun _ => true := fun _ => rfl
    rw [hstored, hstored]
    show bytesOf (u.telemetry.evidence ++ _) a + u.captureBytes a _ = _
    rw [hgrows]
    omega

/-- Evidence goes, and nothing else is touched. -/
theorem StoreSized.released (h : StoreSized u) (id : Nat) :
    StoreSized (removeEvidence u id) ∧
      ∀ a, (removeEvidence u id).storedBytes a ≤ u.storedBytes a := by
  have hkept : (removeEvidence u id).telemetry.evidence =
      u.telemetry.evidence.filter fun e => !decide (e.id = id) := by
    show u.telemetry.evidence.filter _ = _
    congr 1
    funext e
    simp
  obtain ⟨hledger, hle⟩ := h.ledger.release (fun e => e.id = id) hkept rfl
  refine ⟨⟨hledger, h.files.measured, h.files.reviewed⟩, fun a => ?_⟩
  exact Int.add_le_add_right (hle a) (u.captureBytes a fun _ => true)

theorem StoreSized.dropped (h : StoreSized u) (key : FileKey) :
    StoreSized (removeCaptureFile u key) ∧
      ∀ a, (removeCaptureFile u key).storedBytes a ≤ u.storedBytes a := by
  refine ⟨⟨h.ledger, fun r hr => h.files.measured r (List.mem_filter.1 hr).1,
    fun r hr => h.files.reviewed r (List.mem_filter.1 hr).1⟩, fun a => ?_⟩
  refine Int.add_le_add_left ?_ (evidenceBytes u.telemetry a)
  exact Table.sum_delete_le (t := u.captureFiles)
    (w := fun (k : FileKey) r => if u.capturedFor a k.1 && true then r.bytes else 0) _
    (h.files.weight_nonneg a fun _ => true)

theorem StoreSized.marked (h : StoreSized u) (key : FileKey) :
    StoreSized (markCaptureFileUploaded u key).2 ∧
      ∀ a, (markCaptureFileUploaded u key).2.storedBytes a ≤ u.storedBytes a := by
  refine ⟨⟨h.ledger, fun r hr => ?_, fun r hr => ?_⟩, fun a => ?_⟩
  · obtain ⟨r0, hr0, rfl⟩ := List.mem_map.1 hr
    have hbytes := h.files.measured r0 hr0
    dsimp only
    split
    · exact hbytes
    · exact hbytes
  · obtain ⟨r0, hr0, rfl⟩ := List.mem_map.1 hr
    exact h.files.reviewed r0 hr0
  · refine le_of_eq (congrArg (evidenceBytes u.telemetry a + ·) ?_)
    exact Table.sum_update (t := u.captureFiles)
      (w := fun (k : FileKey) r => if u.capturedFor a k.1 && true then r.bytes else 0) fun _ _ => rfl

theorem StoreSized.closed (h : StoreSized u) (now : Micros) (id : String) :
    StoreSized (completeCapture u now id).2 ∧
      ∀ a, (completeCapture u now id).2.storedBytes a ≤ u.storedBytes a := by
  refine ⟨⟨h.ledger, h.files.updateCaptures fun _ _ => nofun⟩, fun a => le_of_eq ?_⟩
  refine congrArg (evidenceBytes u.telemetry a + ·) ?_
  exact captureBytes_of_captures rfl fun r _ => capturedFor_updateCaptures fun _ _ _ => rfl

theorem StoreSized.recorded {f : PendingCaptureFile} (h : StoreSized u) (hbytes : 0 ≤ f.bytes)
    (hrecord : recordCaptureFile u f = some u') : StoreSized u' := by
  obtain ⟨htelemetry, -⟩ := recordCaptureFile_eq hrecord
  exact ⟨htelemetry ▸ h.ledger, h.files.recorded hbytes hrecord⟩

/-- A call keeps the sizes. -/
theorem StoreSized.took (h : StoreSized u) (hop : op.Sized)
    (htook : TookEffect E u others now op u' next) : StoreSized u' := by
  cases htook with
  | insertedUncapped _ hinsert => exact (insertEvidence_sized h hop hinsert).1
  | inserted hinsert => exact (insertEvidence_sized h hop hinsert).1
  | released => exact (h.released _).1
  | recorded hrecord => exact h.recorded hop hrecord
  | stored => exact ⟨h.ledger, h.files.measured, h.files.reviewed⟩
  | dropped => exact (h.dropped _).1
  | marked => exact (h.marked _).1
  | closed => exact (h.closed now _).1
  | ended | reserved | opened | checked | uncapped | summed | captureRead | listed => exact h

/-- What an upload goes on to write has a size. -/
theorem UploadOp.Sized.took (hop : op.Sized) (htook : TookEffect E u others now op u' next) :
    ∀ op', next = some op' → op'.Sized := by
  intro op' hop'
  cases htook with
  | opened _ _ _ hmeasured _ =>
    cases hop'
    show 0 ≤ _
    rw [hmeasured.bytes]
    exact Int.natCast_nonneg _
  | reserved | checked | uncapped | summed =>
    cases hop'
    exact hop
  | insertedUncapped | inserted | recorded | stored | captureRead | listed =>
    cases hop'
    trivial
  | ended | released | dropped | marked | closed => cases hop'

theorem UploadOp.sized_afterFailure {op' : UploadOp} (h : op.afterFailure = some op') :
    op'.Sized := by
  cases op with
  | evidenceStoring id | fileStoring f body =>
    cases h
    trivial
  | _ => cases h

end Sizes

section Commits

variable {E : UploadEnv} {u u' : UploadStore}

/-- The captures of an app go with their files. -/
theorem StoreSized.dropCaptures (h : StoreSized u) (app : String) :
    StoreSized (dropCaptures u app) ∧
      ∀ a, (ReproitCloud.dropCaptures u app).storedBytes a ≤ u.storedBytes a := by
  have hsurvives : ∀ id, u.capturedFor app id = false →
      (u.captures.delete fun _ c => c.appId = some app).get? id = u.captures.get? id := by
    intro id hother
    rw [Table.get?_delete]
    cases hc : u.captures.get? id with
    | none => rfl
    | some c =>
      rw [capturedFor_of_get? hc] at hother
      simp [Option.filter, hother]
  have hother : ∀ r ∈ (ReproitCloud.dropCaptures u app).captureFiles.rows,
      u.capturedFor app r.1.1 = false := by
    intro r hr
    simpa using (List.mem_filter.1 hr).2
  refine ⟨⟨h.ledger, fun r hr => h.files.measured r (List.mem_filter.1 hr).1, fun r hr c hc => ?_⟩,
    fun a => ?_⟩
  · refine h.files.reviewed r (List.mem_filter.1 hr).1 c ?_
    rw [← hsurvives r.1.1 (hother r hr)]
    exact hc
  · have hsame : (ReproitCloud.dropCaptures u app).captureBytes a (fun _ => true) =
        (ReproitCloud.dropCaptures u app).captureFiles.sum fun k r =>
          if u.capturedFor a k.1 && true then r.bytes else 0 := by
      refine Table.sum_congr fun r hr => ?_
      have hget := hsurvives r.1.1 (hother r hr)
      rw [UploadStore.capturedFor, UploadStore.capturedFor]
      rw [show (ReproitCloud.dropCaptures u app).captures.get? r.1.1 = _ from hget]
    refine Int.add_le_add_left ?_ (evidenceBytes u.telemetry a)
    rw [hsame]
    exact Table.sum_delete_le (t := u.captureFiles)
      (w := fun (k : FileKey) r => if u.capturedFor a k.1 && true then r.bytes else 0) _
      (h.files.weight_nonneg a fun _ => true)

theorem StoreSized.created {c : NewCapture} (h : StoreSized u) (hcreated : CaptureCreated u c u') :
    StoreSized u' ∧ ∀ a, u'.storedBytes a ≤ u.storedBytes a := by
  cases hcreated with
  | @added _ row hnone hpending htelemetry hfiles hblobs hget =>
    -- no file belongs to a capture that was not there
    have hne : ∀ r ∈ u.captureFiles.rows, r.1.1 ≠ c.id := by
      intro r hr heq
      have hhas := u.owned r hr
      rw [heq, Table.has, hnone] at hhas
      cases hhas
    refine ⟨⟨htelemetry ▸ h.ledger, ⟨fun r hr => ?_, fun r hr c' hc' => ?_⟩⟩, fun a => le_of_eq ?_⟩
    · rw [hfiles] at hr
      exact h.files.measured r hr
    · rw [hfiles] at hr
      rw [hget, if_neg (hne r hr)] at hc'
      exact h.files.reviewed r hr c' hc'
    · rw [UploadStore.storedBytes, UploadStore.storedBytes, htelemetry]
      refine congrArg (evidenceBytes u.telemetry a + ·) ?_
      refine captureBytes_of_captures hfiles fun r hr => ?_
      rw [UploadStore.capturedFor, UploadStore.capturedFor, hget, if_neg (hne r hr)]
  | @again old f hold hpending hf =>
    have hne : ∀ r ∈ u.captureFiles.rows, r.1.1 ≠ c.id := by
      intro r hr heq
      exact h.files.reviewed r hr old (heq ▸ hold) hpending
    refine ⟨⟨h.ledger, h.files.updateCaptures fun r hr => ?_⟩, fun a => le_of_eq ?_⟩
    · rw [(hf r).1]
      exact hr
    · refine congrArg (evidenceBytes u.telemetry a + ·) ?_
      refine captureBytes_of_captures rfl fun r hr => capturedFor_updateCaptures fun c' _ hid => ?_
      exact absurd (of_decide_eq_true hid) (hne r hr)

theorem StoreSized.approved (h : StoreSized u) (now : Micros) (hash app : String) :
    StoreSized (approveCapture u now hash app) ∧
      ∀ a, (approveCapture u now hash app).storedBytes a ≤ u.storedBytes a := by
  refine ⟨⟨h.ledger, h.files.updateCaptures fun _ _ => nofun⟩, fun a => le_of_eq ?_⟩
  refine congrArg (evidenceBytes u.telemetry a + ·) ?_
  refine captureBytes_of_captures rfl fun r hr => capturedFor_updateCaptures fun c hc hpending => ?_
  -- what is approved was waiting for review, and has no files
  simp only [Bool.and_eq_true, decide_eq_true_eq] at hpending
  exact absurd hpending.1.2 (h.files.reviewed r hr c hc)

/-- The writes of other handlers keep the sizes, and add nothing. -/
theorem StoreSized.commit {c : UploadCommit} (h : StoreSized u)
    (hcommit : commitUpload E u c = some u') :
    StoreSized u' ∧ ∀ a, u'.storedBytes a ≤ u.storedBytes a := by
  have htelemetry : ∀ {t e}, TelemetryStep E.platform u.telemetry e t →
      StoreSized { u with telemetry := t } ∧
        ∀ a, ({ u with telemetry := t } : UploadStore).storedBytes a ≤ u.storedBytes a := by
    intro t e hstep
    obtain ⟨hledger, hle⟩ := h.ledger.step hstep
    exact ⟨⟨hledger, h.files.measured, h.files.reviewed⟩,
      fun a => Int.add_le_add_right (hle a) (u.captureBytes a fun _ => true)⟩
  cases committed_of_some hcommit with
  | telemetry ht _ => exact htelemetry (telemetryStep_of_commit ht)
  | @projectDeleted app ids t ht =>
    obtain ⟨hsized, hless⟩ := htelemetry (telemetryStep_of_commit ht)
    obtain ⟨hsized', hless'⟩ := hsized.dropCaptures app
    exact ⟨hsized', fun a => (hless' a).trans (hless a)⟩
  | projectCreated => exact ⟨⟨h.ledger, h.files.measured, h.files.reviewed⟩, fun _ => le_refl _⟩
  | captureCreated hcreated => exact h.created hcreated
  | @approved now hash app => exact h.approved now hash app

end Commits

/-! ## Every run: the ledger -/

/-- The outline of sizes: nothing is asked of a run. -/
theorem keepsOutline_sized (E : UploadEnv) :
    KeepsOutline (uploads E) (fun _ _ _ => True) StoreSized (fun _ op => op.Sized)
      (fun _ _ => True) where
  start s s' op _ _ hstarts := by
    refine ⟨?_, fun _ _ => trivial⟩
    cases op with
    | evidenceReserving up =>
      have hboth : 0 < up.bytes ∧ up.bytes ≤ maxEvidenceFieldBytes := by
        simpa [uploads, UploadOp.starts] using hstarts
      exact hboth.1.le
    | fileOpening up | completing id keyApp => trivial
    | _ => cases hstarts
  advance s s' i chance op store next h _ hop hnext := by
    have hsized := h.each op (List.mem_of_getElem? hop)
    have hothers : ∀ o ∈ s.inFlight.eraseIdx i, o.Sized := fun o ho =>
      h.each o (List.mem_of_mem_eraseIdx ho)
    cases uploadStepped_of_next hnext with
    | failed _ =>
      exact ⟨h.store, hothers, fun op' hop' =>
        ⟨UploadOp.sized_afterFailure hop', fun _ _ => trivial⟩⟩
    | answered _ htook _ =>
      exact ⟨h.store.took hsized htook, hothers, fun op' hop' =>
        ⟨hsized.took htook op' hop', fun _ _ => trivial⟩⟩
    | unanswered _ htook _ =>
      exact ⟨h.store.took hsized htook, hothers, fun op' hop' =>
        ⟨UploadOp.sized_afterFailure hop', fun _ _ => trivial⟩⟩
  commit s s' c store h _ hwrite := by
    obtain ⟨hcommit, -⟩ := Option.filter_eq_some_iff.1 hwrite
    exact ⟨(h.store.commit hcommit).1, h.each⟩

theorem storeSized_init : StoreSized Uploading.init.store :=
  ⟨⟨fun _ => rfl, fun _ h => nomatch h⟩, ⟨fun _ h => (nomatch h), fun _ h => (nomatch h)⟩⟩

/-- The ledger is exact in every reachable state. -/
theorem ledgerExact_run {E : UploadEnv} {es : List UploadEvent} {s : Uploading}
    (hrun : Run (stepOf (uploads E).step) Uploading.init es s) : LedgerExact s.store.telemetry := by
  have hguarded : Run (Guarded (stepOf (uploads E).step) fun _ _ _ => True)
      Uploading.init es s :=
    hrun.mono fun _ _ _ hstep => ⟨hstep, trivial⟩
  exact (Outline.run (keepsOutline_sized E) hguarded
    (outline_of_idle storeSized_init rfl)).store.ledger

/-! ## Guarded runs: the cap -/

/-- The app of a capture. -/
def UploadStore.appOf (u : UploadStore) (id : String) : Option String :=
  (u.captures.get? id).bind CaptureRow.appId

/-- What the upload has checked covers what it is about to write: evidence comes to an
app without capture bytes, and the sum of a capture file has not been overtaken. -/
def UploadOp.covered (u : UploadStore) : UploadOp → Bool
  | evidenceInserting up _ => u.captureBytes up.app (fun _ => true) = 0
  | fileRecording f _ _ (some used) =>
    (u.appOf f.captureId).all fun app => bytesBesides u app f.key ≤ used
  | _ => true

/-- Every call that takes effect is covered by what was checked. -/
def QuotaCovers (s : Uploading) : UploadEvent → Uploading → Prop
  | .advance i chance, _ => chance.result ≠ .failed →
      ∀ op, s.inFlight[i]? = some op → op.covered s.store = true
  | _, _ => True

/-- What an upload has read of the quota. -/
def UploadOp.Checked (E : UploadEnv) (u : UploadStore) : UploadOp → Prop
  | evidenceInserting up used => used = storageUsed u.telemetry up.app ∧
      ∃ max, E.evidenceCap = some max ∧ quotaAllows used up.bytes max = true
  | fileRecording f _ _ (some used) =>
      ∃ max, E.captureCap = some max ∧ quotaAllows used f.bytes max = true
  | fileRecording _ _ _ none => E.captureCap = none
  | _ => True

/-- No app has more bytes than its cap. -/
def WithinCap (E : UploadEnv) (u : UploadStore) : Prop :=
  ∀ app cap, E.evidenceCap = some cap → u.storedBytes app ≤ cap

/-- Captures are checked against no more than the cap in force. -/
def CapsAgree (E : UploadEnv) : Prop :=
  ∀ cap, E.evidenceCap = some cap → ∃ max, E.captureCap = some max ∧ max ≤ cap

theorem captureCap_pos {E : UploadEnv} {max : Int} (h : E.captureCap = some max) : 0 < max := by
  unfold UploadEnv.captureCap maxEvidenceBytesPerApp at h
  split at h
  · rw [Option.ite_none_right_eq_some] at h
    obtain ⟨hpos, heq⟩ := h
    cases heq
    exact hpos
  · cases h
    decide

theorem le_of_quotaAllows {used bytes max : Int} (h : quotaAllows used bytes max = true) :
    used + bytes ≤ max := by
  rw [quotaAllows, Bool.and_eq_true, decide_eq_true_eq, decide_eq_true_eq] at h
  exact h.2

section Cap

variable {E : UploadEnv} {u u' : UploadStore} {others : List UploadOp} {now : Micros}
  {op : UploadOp} {next : Option UploadOp}

theorem WithinCap.of_le (h : WithinCap E u) (hle : ∀ a, u'.storedBytes a ≤ u.storedBytes a) :
    WithinCap E u' :=
  fun a cap hcap => (hle a).trans (h a cap hcap)

/-- What other uploads have read of the ledger stays true, for the row is locked. -/
theorem UploadOp.Checked.of_ledgerFree {o : UploadOp} (h : o.Checked E u) (ho : o ∈ others)
    (hfree : ledgerFree u u' others = true) : o.Checked E u' := by
  have hlock := List.all_eq_true.1 hfree o ho
  cases o with
  | evidenceInserting up used =>
    obtain ⟨hused, hmax⟩ := h
    have hrow : u'.telemetry.appStorageUsage.get? up.app =
        u.telemetry.appStorageUsage.get? up.app := by
      simpa [UploadOp.ledgerLock] using hlock
    refine ⟨?_, hmax⟩
    rw [hused, storageUsed, storageUsed, hrow]
  | fileRecording f body app used =>
    cases used with
    | none => exact h
    | some used => exact h
  | _ => trivial

/-- A covered call stays within the cap. -/
theorem WithinCap.took (hagree : CapsAgree E) (h : WithinCap E u) (hsized : StoreSized u)
    (hop : op.Sized) (hchecked : op.Checked E u) (hcovered : op.covered u = true)
    (htook : TookEffect E u others now op u' next) : WithinCap E u' := by
  cases htook with
  | insertedUncapped hnone =>
    intro a cap hcap
    rw [hnone] at hcap
    cases hcap
  | @inserted up used id _ hinsert =>
    intro a cap hcap
    have ha := h a cap hcap
    rw [(insertEvidence_sized hsized hop hinsert).2 a]
    split
    · rename_i happ
      subst happ
      obtain ⟨hused, max, hmax, hallows⟩ := hchecked
      have hle := le_of_quotaAllows hallows
      have hnone : u.captureBytes up.app (fun _ => true) = 0 := of_decide_eq_true hcovered
      have hexact := hsized.ledger.exact up.app
      rw [hcap, Option.some.injEq] at hmax
      rw [UploadStore.storedBytes, hnone]
      omega
    · omega
  | released => exact h.of_le (hsized.released _).2
  | @recorded f body app used _ hrecord =>
    intro a cap hcap
    obtain ⟨htelemetry, -⟩ := recordCaptureFile_eq hrecord
    rw [UploadStore.storedBytes, htelemetry, captureBytes_recorded hrecord]
    split
    · rename_i hfor
      obtain ⟨max, hmax, hle⟩ := hagree cap hcap
      cases used with
      | none =>
        have hnone : E.captureCap = none := hchecked
        rw [hnone] at hmax
        cases hmax
      | some used =>
        obtain ⟨max', hmax', hallows⟩ := hchecked
        have hwithin := le_of_quotaAllows hallows
        rw [hmax, Option.some.injEq] at hmax'
        have hall : (u.appOf f.captureId).all (fun app => bytesBesides u app f.key ≤ used) = true :=
          hcovered
        have happ : u.appOf f.captureId = some a := by
          rw [UploadStore.capturedFor, Option.any_eq_true] at hfor
          obtain ⟨c, hc, hca⟩ := hfor
          rw [UploadStore.appOf, hc, Option.bind_some]
          exact of_decide_eq_true hca
        rw [happ, Option.all_some, decide_eq_true_eq] at hall
        have hbesides : bytesBesides u a f.key =
            evidenceBytes u.telemetry a + u.captureBytes a fun k => k ≠ f.key := rfl
        omega
    · have hle := captureBytes_besides_le hsized.files f.key a
      have ha : evidenceBytes u.telemetry a + u.captureBytes a (fun _ => true) ≤ cap := h a cap hcap
      omega
  | dropped => exact h.of_le (hsized.dropped _).2
  | marked => exact h.of_le (hsized.marked _).2
  | closed => exact h.of_le (hsized.closed now _).2
  | ended | reserved | opened | checked | uncapped | summed | stored | captureRead | listed => exact h

theorem UploadOp.Checked.took (htook : TookEffect E u others now op u' next) :
    ∀ op', next = some op' → op'.Checked E u' := by
  intro op' hop'
  cases htook with
  | reserved hcap _ hallows =>
    cases hop'
    exact ⟨rfl, _, hcap, hallows⟩
  | uncapped hcap =>
    cases hop'
    exact hcap
  | summed hcap hallows =>
    cases hop'
    exact ⟨_, hcap, hallows⟩
  | opened | checked | insertedUncapped | inserted | recorded | stored | captureRead | listed =>
    cases hop'
    trivial
  | ended | released | dropped | marked | closed => cases hop'

theorem UploadOp.checked_afterFailure {op' : UploadOp} (h : op.afterFailure = some op') :
    op'.Checked E u := by
  cases op with
  | evidenceStoring id | fileStoring f body =>
    cases h
    trivial
  | _ => cases h

end Cap

/-- The outline of the quota. -/
theorem keepsOutline_quota {E : UploadEnv} (hagree : CapsAgree E) :
    KeepsOutline (uploads E) QuotaCovers (fun u => StoreSized u ∧ WithinCap E u)
      (fun u op => op.Sized ∧ op.Checked E u) (fun _ _ => True) where
  start s s' op h _ hstarts := by
    have hsized := (keepsOutline_sized E).start s s' op
      ⟨h.store.1, fun o ho => (h.each o ho).1, h.apart⟩ trivial hstarts
    refine ⟨⟨hsized.1, ?_⟩, fun _ _ => trivial⟩
    cases op with
    | evidenceReserving up | fileOpening up | completing id keyApp => trivial
    | _ => cases hstarts
  advance s s' i chance op store next h hok hop hnext := by
    obtain ⟨hsized, hchecked⟩ := h.each op (List.mem_of_getElem? hop)
    have hothers : ∀ o ∈ s.inFlight.eraseIdx i, o.Sized ∧ o.Checked E s.store := fun o ho =>
      h.each o (List.mem_of_mem_eraseIdx ho)
    have hafter : ∀ u op', op.afterFailure = some op' → (op'.Sized ∧ op'.Checked E u) ∧
        ∀ o ∈ s.inFlight.eraseIdx i, True := fun u op' hop' =>
      ⟨⟨UploadOp.sized_afterFailure hop', UploadOp.checked_afterFailure hop'⟩, fun _ _ => trivial⟩
    cases uploadStepped_of_next hnext with
    | failed _ => exact ⟨h.store, hothers, hafter s.store⟩
    | answered hresult htook hfree =>
      have hcovered := hok (hresult ▸ nofun) op hop
      refine ⟨⟨h.store.1.took hsized htook,
        h.store.2.took hagree h.store.1 hsized hchecked hcovered htook⟩,
        fun o ho => ⟨(hothers o ho).1, (hothers o ho).2.of_ledgerFree ho hfree⟩,
        fun op' hop' => ⟨⟨hsized.took htook op' hop', UploadOp.Checked.took htook op' hop'⟩,
          fun _ _ => trivial⟩⟩
    | unanswered hresult htook hfree =>
      have hcovered := hok (hresult ▸ nofun) op hop
      exact ⟨⟨h.store.1.took hsized htook,
        h.store.2.took hagree h.store.1 hsized hchecked hcovered htook⟩,
        fun o ho => ⟨(hothers o ho).1, (hothers o ho).2.of_ledgerFree ho hfree⟩, hafter store⟩
  commit s s' c store h _ hwrite := by
    obtain ⟨hcommit, hfree⟩ := Option.filter_eq_some_iff.1 hwrite
    obtain ⟨hsized, hle⟩ := h.store.1.commit hcommit
    exact ⟨⟨hsized, h.store.2.of_le hle⟩, fun o ho =>
      ⟨(h.each o ho).1, (h.each o ho).2.of_ledgerFree ho hfree⟩⟩

/-- Along every run whose writes are covered by what was checked, the ledger is exact
and no app has more bytes than its cap. -/
theorem stored_bytes_within_cap {E : UploadEnv} {es : List UploadEvent} {s : Uploading}
    (hagree : CapsAgree E) (hrun : Run (Guarded (stepOf (uploads E).step) QuotaCovers) Uploading.init es s)
    (app : String) :
    (∀ cap, E.evidenceCap = some cap → s.store.storedBytes app ≤ cap) ∧
      storageUsed s.store.telemetry app = evidenceBytes s.store.telemetry app := by
  have hwithin : WithinCap E Uploading.init.store := by
    intro a cap hcap
    obtain ⟨max, hmax, hle⟩ := hagree cap hcap
    have hpos := captureCap_pos hmax
    show (0 : Int) ≤ cap
    omega
  have hout := Outline.run (keepsOutline_quota hagree) hrun
    (outline_of_idle ⟨storeSized_init, hwithin⟩ rfl)
  exact ⟨hout.store.2 app, (ledgerExact_run hrun.of_guarded).exact app⟩

/-- The guard, computed. -/
def quotaCovers (s : Uploading) : UploadEvent → Bool
  | .advance i chance =>
    chance.result = .failed || (s.inFlight[i]?).all fun op => op.covered s.store
  | _ => true

theorem quotaCovers_sound (s : Uploading) (e : UploadEvent) (s' : Uploading)
    (h : quotaCovers s e = true) : QuotaCovers s e s' := by
  cases e with
  | advance i chance =>
    intro hresult op hop
    rw [quotaCovers, hop, Option.all_some, Bool.or_eq_true, decide_eq_true_eq] at h
    exact h.resolve_left hresult
  | _ => trivial

/-- An upload of evidence, whose row is inserted. -/
def attachEvidence (bytes : Int) : List UploadEvent :=
  [.start (.evidenceReserving ⟨"shop", 2, "shop/2/proof.png", bytes⟩), answered 0, answered 0,
    answered 0]

/-- An upload of a file, through to its mark. -/
def attachFile (up : FileUpload) : List UploadEvent :=
  [.start (.fileOpening up), answered 0, answered 0, answered 0, answered 0, answered 0, answered 0]

theorem sampleEnv_capsAgree : CapsAgree sampleEnv := by
  intro cap hcap
  cases hcap
  exact ⟨10, rfl, le_refl 10⟩

theorem stored_bytes_within_cap_evidence_first :
    CapsAgree sampleEnv ∧ ∃ s, Run (Guarded (stepOf (uploads sampleEnv).step) QuotaCovers)
        Uploading.init (captureApproved ++ attachEvidence 8 ++ attachFile putOriginal) s ∧
      s.store.storedBytes "shop" = 10 ∧
      (∀ cap, sampleEnv.evidenceCap = some cap → s.store.storedBytes "shop" ≤ cap) ∧
      storageUsed s.store.telemetry "shop" = evidenceBytes s.store.telemetry "shop" := by
  have hsome : (runOf (checked (uploads sampleEnv).step quotaCovers) Uploading.init
      (captureApproved ++ attachEvidence 8 ++ attachFile putOriginal)).map
        (fun s => s.store.storedBytes "shop") = some 10 := by decide
  obtain ⟨s, hs, hbytes⟩ := Option.map_eq_some_iff.1 hsome
  have hrun := Run.of_runOf_checked quotaCovers_sound hs
  exact ⟨sampleEnv_capsAgree, s, hrun, hbytes, stored_bytes_within_cap sampleEnv_capsAgree hrun "shop"⟩

/-- Two bytes of a capture file and nine of evidence are each within a cap of ten. -/
theorem evidence_ignores_capture_bytes :
    ¬ ∀ es s, Run (stepOf (uploads sampleEnv).step) Uploading.init es s →
      ∀ app cap, sampleEnv.evidenceCap = some cap → s.store.storedBytes app ≤ cap := by
  intro hall
  have hsome : (runOf (uploads sampleEnv).step Uploading.init
      (captureApproved ++ attachFile putOriginal ++ attachEvidence 9)).map
        (fun s => s.store.storedBytes "shop") = some 11 := by decide
  obtain ⟨s, hs, hbytes⟩ := Option.map_eq_some_iff.1 hsome
  have hle := hall _ s (Run.of_runOf hs) "shop" 10 rfl
  omega

end ReproitCloud
