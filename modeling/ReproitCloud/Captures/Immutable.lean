import ReproitCloud.Captures.Quota

/-!
# A capture that is complete

`put_file` looks at the status of the capture twice and then writes, and `complete`
looks at the files and then sets the status.  Nothing in a write looks at the status
again: `add_capture_file` sets it to uploading whatever it is by then, and
`remove_capture_file` removes the row.

An upload that has passed its last look is *late* (`UploadOp.lateFor`).  When no upload
is late for a capture as it is completed, none ever is, since a complete capture lets no
upload pass.  What is left is an upload that has written its row before and fails at
the blob store after: it takes the row away.  Without these two, a complete capture
stays as it is (`complete_capture_is_immutable`).
-/

namespace ReproitCloud

open Lib

/-! ## The status of a capture -/

/-- The capture is complete. -/
def UploadStore.isComplete (u : UploadStore) (id : String) : Bool :=
  (u.captures.get? id).any fun c => c.status = .complete

/-- The capture lets uploads and completion pass. -/
def UploadStore.isReady (u : UploadStore) (id : String) : Bool :=
  (u.captures.get? id).any fun c => c.status.ready

/-- What a call makes of the row of a capture. -/
inductive CaptureMoved (op : UploadOp) (id : String) : CaptureRow → CaptureRow → Prop
  | kept (c : CaptureRow) : CaptureMoved op id c c
  | uploading {c : CaptureRow} {f : PendingCaptureFile} {body : Bytes} {app : String}
      {used : Option Int} : op = .fileRecording f body app used → f.captureId = id →
      CaptureMoved op id c { c with status := .uploading }
  | completed {c : CaptureRow} {now : Micros} : op = .closing id → c.status.ready = true →
      CaptureMoved op id c { c with status := .complete, expiresAt := now }

section Status

variable {E : UploadEnv} {u u' : UploadStore} {others : List UploadOp} {now : Micros}
  {op : UploadOp} {next : Option UploadOp} {id : String}

theorem captureMoved_refl (o : Option CaptureRow) : Option.Rel (CaptureMoved op id) o o := by
  cases o with
  | none => exact .none
  | some c => exact .some (.kept c)

/-- A call adds no capture, removes none, and moves at most one. -/
theorem captureMoved_took (htook : TookEffect E u others now op u' next) (id : String) :
    Option.Rel (CaptureMoved op id) (u.captures.get? id) (u'.captures.get? id) := by
  cases htook with
  | insertedUncapped _ hinsert | inserted hinsert =>
    rw [insertEvidence, Option.ite_none_right_eq_some] at hinsert
    obtain ⟨-, heq⟩ := hinsert
    cases heq
    exact captureMoved_refl _
  | recorded hrecord =>
    obtain ⟨-, -, -, -, hcaptures⟩ := recordCaptureFile_eq hrecord
    rw [hcaptures, Table.get?_update]
    cases u.captures.get? id with
    | none => exact .none
    | some c =>
      rw [Option.map_some]
      split
      · rename_i hid
        exact .some (.uploading rfl (of_decide_eq_true hid).symm)
      · exact .some (.kept c)
  | @closed id' =>
    have hget : (completeCapture u now id').2.captures.get? id =
        (u.captures.get? id).map fun c => if id = id' && c.status.ready then
          { c with status := .complete, expiresAt := now } else c := Table.get?_update ..
    rw [hget]
    cases u.captures.get? id with
    | none => exact .none
    | some c =>
      rw [Option.map_some]
      split
      · rename_i hid
        rw [Bool.and_eq_true, decide_eq_true_eq] at hid
        obtain ⟨rfl, hready⟩ := hid
        exact .some (.completed rfl hready)
      · exact .some (.kept c)
  | ended | reserved | released | opened | checked | uncapped | summed | stored | dropped | marked
    | captureRead | listed => exact captureMoved_refl _

/-- A capture is completed by `complete_capture`. -/
theorem isComplete_took (htook : TookEffect E u others now op u' next)
    (h : u'.isComplete id = true) :
    u.isComplete id = true ∨ (op = .closing id ∧ u.isReady id = true) := by
  have hmoved := captureMoved_took htook id
  rw [UploadStore.isComplete, Option.any_eq_true] at h
  obtain ⟨c', hc', hcomplete⟩ := h
  rw [hc'] at hmoved
  cases hc : u.captures.get? id with
  | none =>
    rw [hc] at hmoved
    cases hmoved
  | some c =>
    rw [hc] at hmoved
    rw [UploadStore.isComplete, UploadStore.isReady, hc, Option.any_some, Option.any_some]
    obtain hmoved | - := hmoved
    cases hmoved with
    | kept => exact .inl hcomplete
    | uploading => cases of_decide_eq_true hcomplete
    | completed hop hready => exact .inr ⟨hop, hready⟩

/-- What the transaction of another handler leaves of the row of a capture. -/
inductive CaptureReviewed : Option CaptureRow → CaptureRow → Prop
  | kept (c : CaptureRow) : CaptureReviewed (some c) c
  | added {c : CaptureRow} : c.status = .pendingReview → CaptureReviewed none c
  | reviewed {c c' : CaptureRow} : c.status = .pendingReview → c'.status ≠ .complete →
      c'.manifest = c.manifest → CaptureReviewed (some c) c'

theorem captureReviewed_updateCaptures {q : String → CaptureRow → Bool}
    {f : CaptureRow → CaptureRow} {c' : CaptureRow}
    (hc' : (u.updateCaptures q f).captures.get? id = some c')
    (h : ∀ c, u.captures.get? id = some c → q id c = true →
      c.status = .pendingReview ∧ (f c).status ≠ .complete ∧ (f c).manifest = c.manifest) :
    CaptureReviewed (u.captures.get? id) c' := by
  have hget : (u.updateCaptures q f).captures.get? id =
      (u.captures.get? id).map fun c => if q id c then f c else c := Table.get?_update ..
  rw [hget, Option.map_eq_some_iff] at hc'
  obtain ⟨c, hc, rfl⟩ := hc'
  rw [hc]
  split
  · rename_i hq
    obtain ⟨hpending, hstatus, hmanifest⟩ := h c hc hq
    exact .reviewed hpending hstatus hmanifest
  · exact .kept c

/-- Other handlers change captures that wait for review, and no others. -/
theorem captureReviewed_committed {c : UploadCommit} {row : CaptureRow} (h : Committed E u c u')
    (hrow : u'.captures.get? id = some row) : CaptureReviewed (u.captures.get? id) row := by
  cases h with
  | telemetry _ _ | projectCreated =>
    rw [show u.captures.get? id = some row from hrow]
    exact .kept row
  | @projectDeleted app ids t _ =>
    have hkept : (u.captures.delete fun _ c => c.appId = some app).get? id = some row := hrow
    rw [Table.get?_delete, Option.filter_eq_some_iff] at hkept
    rw [hkept.1]
    exact .kept row
  | captureCreated hcreated =>
    cases hcreated with
    | added hnone hpending _ _ _ hrows =>
      rw [hrows] at hrow
      split at hrow
      · rename_i hid
        cases hrow
        rw [hid, hnone]
        exact .added hpending
      · rw [hrow]
        exact .kept row
    | @again old f hold hpending hf =>
      refine captureReviewed_updateCaptures hrow fun c' hc' hid => ?_
      rw [of_decide_eq_true hid, hold, Option.some.injEq] at hc'
      subst hc'
      obtain ⟨hstatus, hmanifest⟩ := hf old
      rw [hstatus, hpending]
      exact ⟨rfl, nofun, hmanifest⟩
  | approved =>
    refine captureReviewed_updateCaptures hrow fun c' _ hq => ?_
    simp only [Bool.and_eq_true, decide_eq_true_eq] at hq
    exact ⟨hq.1.2, nofun, rfl⟩

/-- No other handler completes a capture. -/
theorem isComplete_committed {c : UploadCommit} (hcommit : Committed E u c u')
    (h : u'.isComplete id = true) : u.isComplete id = true := by
  rw [UploadStore.isComplete, Option.any_eq_true] at h
  obtain ⟨row, hrow, hstatus⟩ := h
  have hreviewed := captureReviewed_committed hcommit hrow
  generalize hold : u.captures.get? id = old at hreviewed
  cases hreviewed with
  | kept =>
    rw [UploadStore.isComplete, hold]
    exact hstatus
  | added hpending =>
    rw [hpending] at hstatus
    cases hstatus
  | reviewed _ hnot _ => exact absurd (of_decide_eq_true hstatus) hnot

end Status

/-! ## The rows of files -/

/-- The transaction does not end the project of the capture. -/
def KeepsSession (u : UploadStore) (id : String) (c : UploadCommit) : Prop :=
  ∀ app ids, c = .telemetry (.deleteProject app ids) → u.capturedFor app id = false

section Rows

variable {E : UploadEnv} {u u' : UploadStore} {others : List UploadOp} {now : Micros}
  {op : UploadOp} {next : Option UploadOp} {id : String}

theorem get?_removeCaptureFile (u : UploadStore) (key k : FileKey) :
    (removeCaptureFile u key).captureFiles.get? k =
      if k = key then none else u.captureFiles.get? k := by
  refine (Table.get?_delete ..).trans ?_
  split
  · rename_i hk
    cases u.captureFiles.get? k <;> simp [Option.filter, hk]
  · rename_i hk
    cases u.captureFiles.get? k <;> simp [Option.filter, hk]

theorem get?_markCaptureFileUploaded (u : UploadStore) (key k : FileKey) :
    (markCaptureFileUploaded u key).2.captureFiles.get? k =
      (u.captureFiles.get? k).map fun r => if k = key then { r with uploaded := true } else r := by
  refine (Table.get?_update ..).trans ?_
  congr 1
  funext r
  simp

/-- The key of the row that a call writes. -/
def UploadOp.writesRow : UploadOp → Option FileKey
  | fileRecording f _ _ _ => some f.key
  | fileDropping f => some f.key
  | fileMarking f _ => some f.key
  | _ => none

/-- A call writes one row of a file at most. -/
theorem get?_files_took {k : FileKey} (htook : TookEffect E u others now op u' next)
    (hk : op.writesRow ≠ some k) : u'.captureFiles.get? k = u.captureFiles.get? k := by
  cases htook with
  | insertedUncapped _ hinsert | inserted hinsert =>
    rw [insertEvidence, Option.ite_none_right_eq_some] at hinsert
    obtain ⟨-, heq⟩ := hinsert
    cases heq
    rfl
  | recorded hrecord =>
    rw [get?_recorded hrecord, if_neg]
    exact fun heq => hk (congrArg some heq.symm)
  | dropped =>
    rw [get?_removeCaptureFile, if_neg]
    exact fun heq => hk (congrArg some heq.symm)
  | @marked f body =>
    rw [get?_markCaptureFileUploaded]
    cases u.captureFiles.get? k with
    | none => rfl
    | some r => exact congrArg some (if_neg fun heq => hk (congrArg some heq.symm))
  | ended | reserved | released | opened | checked | uncapped | summed | stored | closed
    | captureRead | listed => rfl

/-- What is left of a capture whose project goes on is all of it. -/
theorem dropCaptures_kept {app : String} (h : u.capturedFor app id = false) :
    (dropCaptures u app).captures.get? id = u.captures.get? id ∧
      ∀ filename, (dropCaptures u app).captureFiles.get? (id, filename) =
        u.captureFiles.get? (id, filename) := by
  refine ⟨(Table.get?_delete ..).trans ?_, fun filename => (Table.get?_delete ..).trans ?_⟩
  · cases hc : u.captures.get? id with
    | none => rfl
    | some c =>
      rw [capturedFor_of_get? hc] at h
      simp [Option.filter, h]
  · cases u.captureFiles.get? (id, filename) with
    | none => rfl
    | some r => simp [Option.filter, h]

/-- Other handlers write no rows of files. -/
theorem get?_files_committed {c : UploadCommit} (h : Committed E u c u')
    (hkeeps : KeepsSession u id c) (filename : String) :
    u'.captureFiles.get? (id, filename) = u.captureFiles.get? (id, filename) := by
  cases h with
  | @projectDeleted app ids t _ =>
    exact (dropCaptures_kept (u := { u with telemetry := t }) (hkeeps app ids rfl)).2 filename
  | captureCreated hcreated =>
    cases hcreated with
    | added _ _ _ hfiles _ _ => rw [hfiles]
    | again => rfl
  | telemetry | projectCreated | approved => rfl

/-- A capture that has been reviewed is left alone. -/
theorem get?_captures_committed {c : UploadCommit} {row : CaptureRow} (h : Committed E u c u')
    (hkeeps : KeepsSession u id c) (hrow : u.captures.get? id = some row)
    (hreviewed : row.status ≠ .pendingReview) : u'.captures.get? id = some row := by
  have hupdate : ∀ {q : String → CaptureRow → Bool} {f : CaptureRow → CaptureRow},
      q id row = false → (u.updateCaptures q f).captures.get? id = some row := by
    intro q f hq
    refine (Table.get?_update ..).trans ?_
    rw [hrow, Option.map_some, if_neg (by simp [hq])]
  cases h with
  | @projectDeleted app ids t _ =>
    exact (dropCaptures_kept (u := { u with telemetry := t }) (hkeeps app ids rfl)).1.trans hrow
  | captureCreated hcreated =>
    cases hcreated with
    | added hnone _ _ _ _ hrows =>
      rw [hrows, if_neg, hrow]
      intro heq
      rw [heq, hnone] at hrow
      cases hrow
    | again hold hpending _ =>
      refine hupdate (decide_eq_false fun heq => hreviewed ?_)
      rw [heq, hold, Option.some.injEq] at hrow
      rw [← hrow]
      exact hpending
  | approved => exact hupdate (by simp [hreviewed])
  | telemetry | projectCreated => exact hrow

end Rows

/-! ## Uploads that are late -/

/-- The upload has seen the capture ready for the last time, or its blob has failed, and
a write to the rows of the capture is next or follows. -/
def UploadOp.lateFor (id : String) : UploadOp → Bool
  | fileSumming f _ _ => f.captureId = id
  | fileRecording f _ _ _ => f.captureId = id
  | fileDropping f => f.captureId = id
  | _ => false

/-- The call is no completion while an upload is late for the capture, and no failure
of the blob store for a capture that is complete. -/
def UploadOp.inTime (s : Uploading) (result : CallResult) : UploadOp → Bool
  | closing id => result = .failed || !s.store.isReady id || s.inFlight.all fun o => !o.lateFor id
  | fileStoring f _ => result = .answered || !s.store.isComplete f.captureId
  | _ => true

/-- Every call of a step is in time. -/
def CompletesInTime (s : Uploading) : UploadEvent → Uploading → Prop
  | .advance i chance, _ => ∀ op, s.inFlight[i]? = some op → op.inTime s chance.result = true
  | _, _ => True

/-- An upload is not late for a capture that is complete. -/
def UploadOp.OnTime (u : UploadStore) (op : UploadOp) : Prop :=
  ∀ id, op.lateFor id = true → u.isComplete id = false

section OnTime

variable {E : UploadEnv} {u u' : UploadStore} {others : List UploadOp} {now : Micros}
  {op : UploadOp} {next : Option UploadOp} {id : String}

theorem isComplete_false_of_ready {c : CaptureRow} (hc : u.captures.get? id = some c)
    (hready : c.status.ready = true) : u.isComplete id = false := by
  rw [UploadStore.isComplete, hc, Option.any_some, decide_eq_false_iff_not]
  intro hcomplete
  rw [hcomplete] at hready
  cases hready

theorem UploadOp.OnTime.of_isComplete (h : op.OnTime u)
    (hle : ∀ id, op.lateFor id = true → u'.isComplete id = true → u.isComplete id = true) :
    op.OnTime u' := by
  intro id hlate
  have hnot := h id hlate
  cases hcomplete : u'.isComplete id with
  | false => rfl
  | true =>
    rw [hle id hlate hcomplete] at hnot
    cases hnot

/-- An upload becomes late by seeing a capture that is ready. -/
theorem UploadOp.OnTime.took (h : op.OnTime u) (htook : TookEffect E u others now op u' next) :
    ∀ op', next = some op' → op'.OnTime u' := by
  intro op' hop' id hlate
  cases htook with
  | checked hc hready _ =>
    cases hop'
    rw [← of_decide_eq_true hlate]
    exact isComplete_false_of_ready hc hready
  | uncapped | summed =>
    cases hop'
    exact h id hlate
  | opened | reserved | insertedUncapped | inserted | recorded | stored | captureRead | listed =>
    cases hop'
    cases hlate
  | ended | released | dropped | marked | closed => cases hop'

/-- A failure makes an upload late when it comes from the blob store. -/
theorem UploadOp.onTime_afterFailure {s : Uploading} {result : CallResult} {op' : UploadOp}
    (hresult : result ≠ .answered) (hin : op.inTime s result = true)
    (h : op.afterFailure = some op')
    (hle : ∀ id, u'.isComplete id = true → s.store.isComplete id = true ∨ op = .closing id) :
    op'.OnTime u' := by
  cases op with
  | evidenceStoring eid =>
    cases h
    exact fun id hlate => nomatch hlate
  | fileStoring f body =>
    cases h
    intro id hlate
    rw [← of_decide_eq_true hlate]
    rw [UploadOp.inTime, Bool.or_eq_true, decide_eq_true_eq, Bool.not_eq_true'] at hin
    have hnot := hin.resolve_left hresult
    cases hcomplete : u'.isComplete f.captureId with
    | false => rfl
    | true =>
      rcases hle f.captureId hcomplete with hbefore | hclosing
      · rw [hbefore] at hnot
        cases hnot
      · cases hclosing
  | _ => cases h

end OnTime

/-- The outline of captures that are complete. -/
theorem keepsOutline_onTime (E : UploadEnv) :
    KeepsOutline (uploads E) CompletesInTime (fun _ => True) (fun u op => op.OnTime u)
      (fun _ _ => True) where
  start s s' op _ _ hstarts := by
    refine ⟨fun id hlate => ?_, fun _ _ => trivial⟩
    cases op with
    | fileSumming f body app | fileRecording f body app used | fileDropping f => cases hstarts
    | _ => cases hlate
  advance s s' i chance op store next h hok hop hnext := by
    have hin := hok op hop
    have hon := h.each op (List.mem_of_getElem? hop)
    -- a capture that the call completes has no late upload
    have hothers : ∀ u' next', chance.result ≠ .failed →
        TookEffect E s.store (s.inFlight.eraseIdx i) chance.now op u' next' →
        ∀ o ∈ s.inFlight.eraseIdx i, o.OnTime u' := by
      intro u' next' hresult htook o ho
      have hmem := List.mem_of_mem_eraseIdx ho
      refine (h.each o hmem).of_isComplete fun id hlate hcomplete => ?_
      rcases isComplete_took htook hcomplete with hbefore | ⟨rfl, hready⟩
      · exact hbefore
      · rw [UploadOp.inTime, hready, Bool.or_eq_true, Bool.or_eq_true, decide_eq_true_eq] at hin
        rcases hin with (hfailed | hnot) | hall
        · exact absurd hfailed hresult
        · cases hnot
        · have ho' := List.all_eq_true.1 hall o hmem
          rw [hlate] at ho'
          cases ho'
    cases uploadStepped_of_next hnext with
    | failed hresult =>
      exact ⟨trivial, fun o ho => h.each o (List.mem_of_mem_eraseIdx ho), fun op' hop' =>
        ⟨UploadOp.onTime_afterFailure (hresult ▸ nofun) hin hop' fun _ => .inl,
          fun _ _ => trivial⟩⟩
    | answered hresult htook _ =>
      exact ⟨trivial, hothers _ _ (hresult ▸ nofun) htook, fun op' hop' =>
        ⟨hon.took htook op' hop', fun _ _ => trivial⟩⟩
    | unanswered hresult htook _ =>
      exact ⟨trivial, hothers _ _ (hresult ▸ nofun) htook, fun op' hop' =>
        ⟨UploadOp.onTime_afterFailure (hresult ▸ nofun) hin hop' fun id hcomplete =>
          (isComplete_took htook hcomplete).imp_right And.left, fun _ _ => trivial⟩⟩
  commit s s' c store h _ hwrite := by
    obtain ⟨hcommit, -⟩ := Option.filter_eq_some_iff.1 hwrite
    exact ⟨trivial, fun o ho => (h.each o ho).of_isComplete fun id _ hcomplete =>
      isComplete_committed (committed_of_some hcommit) hcomplete⟩

/-! ## A complete capture stays as it is -/

/-- A row but for its mark. -/
def CaptureFileRow.content (r : CaptureFileRow) : CaptureFileRow := { r with uploaded := false }

/-- The files of a capture, by name, but for their marks. -/
def UploadStore.contents (u : UploadStore) (id filename : String) : Option CaptureFileRow :=
  (u.captureFiles.get? (id, filename)).map CaptureFileRow.content

/-- The event does not end the project of the capture. -/
def SparesSession (id : String) (s : Uploading) : UploadEvent → Uploading → Prop
  | .commit c, _ => KeepsSession s.store id c
  | _, _ => True

section Frozen

variable {E : UploadEnv} {u u' : UploadStore} {others : List UploadOp} {now : Micros}
  {op : UploadOp} {next : Option UploadOp} {id : String}

theorem CaptureMoved.complete {c c' : CaptureRow} (h : CaptureMoved op id c c')
    (hcomplete : c.status = .complete) (hop : op.lateFor id = false) : c' = c := by
  cases h with
  | kept => rfl
  | uploading hrecording hid =>
    rw [hrecording, UploadOp.lateFor, hid, decide_eq_false_iff_not] at hop
    exact absurd rfl hop
  | completed _ hready =>
    rw [hcomplete] at hready
    cases hready

/-- A call that is not late for a complete capture leaves it and its files alone. -/
theorem frozen_took (hcomplete : u.isComplete id = true) (hon : op.OnTime u)
    (htook : TookEffect E u others now op u' next) :
    u'.isComplete id = true ∧ ∀ filename, u'.contents id filename = u.contents id filename := by
  have hlate : op.lateFor id = false := by
    cases hl : op.lateFor id with
    | false => rfl
    | true =>
      rw [hon id hl] at hcomplete
      cases hcomplete
  refine ⟨?_, fun filename => ?_⟩
  · have hmoved := captureMoved_took htook id
    rw [UploadStore.isComplete, Option.any_eq_true] at hcomplete
    obtain ⟨c, hc, hstatus⟩ := hcomplete
    rw [hc] at hmoved
    rw [UploadStore.isComplete]
    generalize u'.captures.get? id = row at hmoved
    cases hmoved with
    | some hmoved =>
      rw [hmoved.complete (of_decide_eq_true hstatus) hlate]
      exact hstatus
  · by_cases hwrites : op.writesRow = some (id, filename)
    · -- the only row of the capture that can be written is one that is marked
      cases htook with
      | @marked f body =>
        rw [UploadStore.contents, UploadStore.contents, get?_markCaptureFileUploaded]
        cases u.captureFiles.get? (id, filename) with
        | none => rfl
        | some r =>
          rw [Option.map_some, Option.map_some, Option.map_some]
          split <;> rfl
      | @recorded f body app used _ _ | @dropped f =>
        have hid : f.captureId = id := congrArg Prod.fst (Option.some.inj hwrites)
        rw [UploadOp.lateFor, hid, decide_eq_false_iff_not] at hlate
        exact absurd rfl hlate
      | ended => rfl
      | _ => cases hwrites
    · rw [UploadStore.contents, UploadStore.contents, get?_files_took htook hwrites]

theorem frozen_committed {c : UploadCommit} (hcomplete : u.isComplete id = true)
    (hkeeps : KeepsSession u id c) (h : Committed E u c u') :
    u'.isComplete id = true ∧ ∀ filename, u'.contents id filename = u.contents id filename := by
  rw [UploadStore.isComplete, Option.any_eq_true] at hcomplete
  obtain ⟨row, hrow, hstatus⟩ := hcomplete
  have hreviewed : row.status ≠ .pendingReview := by
    rw [of_decide_eq_true hstatus]
    exact nofun
  refine ⟨?_, fun filename => ?_⟩
  · rw [UploadStore.isComplete, get?_captures_committed h hkeeps hrow hreviewed]
    exact hstatus
  · rw [UploadStore.contents, UploadStore.contents, get?_files_committed h hkeeps]

end Frozen

/-- The guard of a run after a capture has been completed. -/
def SparesCapture (id : String) (s : Uploading) (e : UploadEvent) (s' : Uploading) : Prop :=
  CompletesInTime s e s' ∧ SparesSession id s e s'

/-- When every completion and every failure of the blob store is in time, a capture that
is complete stays complete with the files it has, until its project ends. -/
theorem complete_capture_is_immutable {E : UploadEnv} {es fs : List UploadEvent}
    {s t : Uploading} {id : String}
    (hrun : Run (Guarded (stepOf (uploads E).step) CompletesInTime) Uploading.init es s)
    (hcomplete : s.store.isComplete id = true)
    (hrest : Run (Guarded (stepOf (uploads E).step) (SparesCapture id)) s fs t) :
    t.store.isComplete id = true ∧
      ∀ filename, t.store.contents id filename = s.store.contents id filename := by
  have hout : Outline (fun _ => True) (fun u op => UploadOp.OnTime u op) (fun _ _ => True) s :=
    Outline.run (keepsOutline_onTime E) hrun (outline_of_idle trivial rfl)
  have hinv := hrest.invariant_of_guarded
    (fun v => Outline (fun _ => True) (fun u op => UploadOp.OnTime u op) (fun _ _ => True) v ∧
      v.store.isComplete id = true ∧
      ∀ filename, v.store.contents id filename = s.store.contents id filename)
    (fun v e v' hv hstep hok => ?_) ⟨hout, hcomplete, fun _ => rfl⟩
  · exact hinv.2
  obtain ⟨hvout, hvcomplete, hvfiles⟩ := hv
  refine ⟨hvout.step (keepsOutline_onTime E) hstep hok.1, ?_⟩
  cases Program.effect_of_step hstep with
  | start _ | abandon _ => exact ⟨hvcomplete, hvfiles⟩
  | @advance i chance op store next hop hnext =>
    have hon := hvout.each op (List.mem_of_getElem? hop)
    cases uploadStepped_of_next hnext with
    | failed _ => exact ⟨hvcomplete, hvfiles⟩
    | answered _ htook _ | unanswered _ htook _ =>
      obtain ⟨hstill, hsame⟩ := frozen_took hvcomplete hon htook
      exact ⟨hstill, fun filename => (hsame filename).trans (hvfiles filename)⟩
  | @commit c store hwrite =>
    obtain ⟨hcommit, -⟩ := Option.filter_eq_some_iff.1 hwrite
    obtain ⟨hstill, hsame⟩ := frozen_committed hvcomplete hok.2 (committed_of_some hcommit)
    exact ⟨hstill, fun filename => (hsame filename).trans (hvfiles filename)⟩

/-- The guards, computed, for events that end no project. -/
def sparesCapture (s : Uploading) : UploadEvent → Bool
  | .advance i chance => (s.inFlight[i]?).all fun op => op.inTime s chance.result
  | .commit (.telemetry _) => false
  | _ => true

theorem sparesCapture_sound (id : String) (s : Uploading) (e : UploadEvent) (s' : Uploading)
    (h : sparesCapture s e = true) : SparesCapture id s e s' := by
  cases e with
  | advance i chance =>
    refine ⟨fun op hop => ?_, trivial⟩
    rw [sparesCapture, hop, Option.all_some] at h
    exact h
  | commit c =>
    cases c with
    | telemetry c => cases h
    | createProject app | createCapture now c | approveCapture now hash app =>
      exact ⟨trivial, fun _ _ => nofun⟩
  | start op | abandon i => exact ⟨trivial, trivial⟩

/-- A completion, through its three calls. -/
def completeAt (i : Nat) : List UploadEvent :=
  [.start (.completing "cap_0123456789abcdef" none), answered i, answered i, answered i]

/-- A capture with its file, approved without any errors around. -/
def fileAttached : List UploadEvent := captureApproved.take 3 ++ attachFile putOriginal

/-- The same capture with its manifest. -/
def filesAttached : List UploadEvent := fileAttached ++ attachFile (putManifest bodyHi)

/-- An upload that has not passed its status check when the capture is completed. -/
def lateStart : List UploadEvent :=
  [.start (.fileOpening (putManifest bodyHo)), answered 0, answered 0]

theorem complete_capture_is_immutable_in_time :
    ∃ s t, Run (Guarded (stepOf (uploads sampleEnv).step) CompletesInTime) Uploading.init
        (filesAttached ++ completeAt 0) s ∧
      s.store.isComplete "cap_0123456789abcdef" = true ∧
      Run (Guarded (stepOf (uploads sampleEnv).step) (SparesCapture "cap_0123456789abcdef")) s
        (lateStart.take 2) t ∧
      t.store.isComplete "cap_0123456789abcdef" = true ∧
      ∀ filename, t.store.contents "cap_0123456789abcdef" filename =
        s.store.contents "cap_0123456789abcdef" filename := by
  have hsome : ((runOf (checked (uploads sampleEnv).step sparesCapture) Uploading.init
      (filesAttached ++ completeAt 0)).bind fun s =>
        (runOf (checked (uploads sampleEnv).step sparesCapture) s (lateStart.take 2)).map fun _ =>
          s.store.isComplete "cap_0123456789abcdef") = some true := by decide
  obtain ⟨s, hs, hrest⟩ := Option.bind_eq_some_iff.1 hsome
  obtain ⟨t, ht, hcomplete⟩ := Option.map_eq_some_iff.1 hrest
  have hrun : Run (Guarded (stepOf (uploads sampleEnv).step) CompletesInTime) Uploading.init
      (filesAttached ++ completeAt 0) s :=
    Run.of_runOf_checked (fun v e v' h =>
      (sparesCapture_sound "cap_0123456789abcdef" v e v' h).1) hs
  have hafter : Run (Guarded (stepOf (uploads sampleEnv).step)
      (SparesCapture "cap_0123456789abcdef")) s (lateStart.take 2) t :=
    Run.of_runOf_checked (sparesCapture_sound "cap_0123456789abcdef") ht
  exact ⟨s, t, hrun, hcomplete, hafter, complete_capture_is_immutable hrun hcomplete hafter⟩

/-- The end of an upload that was late, after the capture has been completed. -/
def lateEnd : List UploadEvent := [answered 0, answered 0]

/-- An upload passes its status check, the capture is completed, and the upload writes
its row and opens the capture again. -/
theorem late_upload_reopens_capture :
    ¬ ∀ es s, Run (stepOf (uploads sampleEnv).step) Uploading.init es s →
      ∀ id, s.store.isComplete id = true →
      ∀ fs t, Run (Guarded (stepOf (uploads sampleEnv).step) (SparesSession id)) s fs t →
        t.store.isComplete id = true ∧
          ∀ filename, t.store.contents id filename = s.store.contents id filename := by
  intro hall
  have hsome : ((runOf (uploads sampleEnv).step Uploading.init
      (filesAttached ++ lateStart ++ completeAt 1)).bind fun s =>
        (runOf (checked (uploads sampleEnv).step sparesCapture) s lateEnd).map fun t =>
          (s.store.isComplete "cap_0123456789abcdef", t.store.isComplete "cap_0123456789abcdef")) =
      some (true, false) := by decide
  obtain ⟨s, hs, hrest⟩ := Option.bind_eq_some_iff.1 hsome
  obtain ⟨t, ht, hboth⟩ := Option.map_eq_some_iff.1 hrest
  rw [Prod.mk.injEq] at hboth
  have hafter := hall _ s (Run.of_runOf hs) _ hboth.1 lateEnd t
    (Run.of_runOf_checked (fun v e v' h => (sparesCapture_sound _ v e v' h).2) ht)
  rw [hboth.2] at hafter
  cases hafter.1

end ReproitCloud
