import ReproitCloud.Captures.Immutable

/-!
# What a complete capture has stored

The row of a capture file and its blob are written by different calls, and whoever
marks the row as uploaded knows it by the name of the file only.  Of a file that the
manifest declares all uploads have the hash that is declared, so all have one content
and it does not matter which of them wrote what.

The manifest itself is a file too, `manifest.json`, and need not be declared.  Two
uploads of it can have different contents, and then the row can be of one and the blob
of the other.  `completed_files_are_stored` says that this is the only way: along every
run in which no such two uploads meet, every file of a complete capture is stored with
the hash and the length that its row says.
-/

namespace ReproitCloud

open Lib

/-! ## Keys of the blob store -/

theorem split_at_first {α : Type} {c : α} {f g a b : List α} (hf : c ∉ f) (hg : c ∉ g)
    (h : f ++ c :: a = g ++ c :: b) : f = g ∧ a = b := by
  induction f generalizing g with
  | nil =>
    cases g with
    | nil => exact ⟨rfl, (List.cons.inj h).2⟩
    | cons y g => exact absurd ((List.cons.inj h).1 ▸ List.mem_cons_self) hg
  | cons x f ih =>
    cases g with
    | nil => exact absurd ((List.cons.inj h).1 ▸ List.mem_cons_self) hf
    | cons y g =>
      obtain ⟨hxy, hrest⟩ := List.cons.inj h
      obtain ⟨hfg, hab⟩ := ih (fun hm => hf (List.mem_cons_of_mem x hm))
        (fun hm => hg (List.mem_cons_of_mem y hm)) hrest
      exact ⟨by rw [hxy, hfg], hab⟩

theorem slash_not_mem_of_safe {filename : String} (h : safeFilename filename = true) :
    '/' ∉ filename.toList := by
  intro hm
  rw [safeFilename, Bool.and_eq_true] at h
  exact absurd (List.all_eq_true.1 h.2 '/' hm) (by decide)

/-- Different files have different keys, for a safe name has no slash. -/
theorem captureKey_inj {id id' f f' : String} (hf : safeFilename f = true)
    (hf' : safeFilename f' = true) (h : captureKey id f = captureKey id' f') : id = id' ∧ f = f' := by
  have hlist := congrArg String.toList h
  simp only [captureKey, String.toList_append] at hlist
  have hreverse := congrArg List.reverse hlist
  simp only [List.reverse_append, show "/".toList = ['/'] from rfl, List.reverse_cons,
    List.singleton_append, List.append_assoc] at hreverse
  obtain ⟨hname, hrest⟩ := split_at_first
    (fun hm => slash_not_mem_of_safe hf (List.mem_reverse.1 hm))
    (fun hm => slash_not_mem_of_safe hf' (List.mem_reverse.1 hm)) hreverse
  have hid := List.append_cancel_right hrest
  exact ⟨String.toList_injective (List.reverse_injective hid),
    String.toList_injective (List.reverse_injective hname)⟩

/-! ## Rows and their blobs -/

/-- The row is that of a content. -/
structure RowOf (E : UploadEnv) (r : CaptureFileRow) (body : Bytes) : Prop where
  hash : r.sha256 = E.sha256 body
  length : r.bytes = body.length

/-- The blob of a row exists, with the hash and the length of the row. -/
def FileStored (E : UploadEnv) (u : UploadStore) (r : CaptureFileRow) : Prop :=
  ∃ body, u.blobs.get? r.storageKey = some body ∧ RowOf E r body

/-- A file that the manifest declares has the hash that is declared. -/
def ManifestAgrees (manifest : Json) (filename hash : String) : Prop :=
  ∀ h, (expectedFiles manifest).lookup filename = some h → h = hash

/-- The row of a file is in order: its key is that of the file, its capture has been
reviewed, the manifest allows it, and it is the row of some content. -/
structure RowSound (E : UploadEnv) (u : UploadStore) (k : FileKey) (r : CaptureFileRow) : Prop where
  safe : safeFilename k.2 = true
  key : r.storageKey = captureKey k.1 k.2
  session : ∃ c, u.captures.get? k.1 = some c ∧ c.status ≠ .pendingReview ∧
    (k.2 = manifestFile ∨ ∃ h, (expectedFiles c.manifest).lookup k.2 = some h) ∧
    ManifestAgrees c.manifest k.2 r.sha256
  content : ∃ body, RowOf E r body

/-- All files of a capture are stored, those with rows and those that are declared. -/
structure SessionStored (E : UploadEnv) (u : UploadStore) (id : String) (manifest : Json) :
    Prop where
  rows : ∀ filename r, u.captureFiles.get? (id, filename) = some r → FileStored E u r
  declared : ∀ filename h, (expectedFiles manifest).lookup filename = some h →
    ∃ body, u.blobs.get? (captureKey id filename) = some body ∧ E.sha256 body = h

/-- The rows of a tenant agree with its blobs where they are marked, and all rows of a
complete capture do. -/
structure FilesSound (E : UploadEnv) (u : UploadStore) : Prop where
  row : ∀ k r, u.captureFiles.get? k = some r → RowSound E u k r
  uploaded : ∀ k r, u.captureFiles.get? k = some r → r.uploaded = true → FileStored E u r
  complete : ∀ id c, u.captures.get? id = some c → c.status = .complete →
    SessionStored E u id c.manifest

/-! ## What an upload knows -/

/-- The capture is there, reviewed, and the file is one of its manifest. -/
structure FileKnown (E : UploadEnv) (u : UploadStore) (f : PendingCaptureFile) (body : Bytes) :
    Prop where
  measured : FileMeasured E f body
  session : ∃ c, u.captures.get? f.captureId = some c ∧ c.status ≠ .pendingReview ∧
    FileDeclared c.manifest f

/-- The row under the key of the file, if there is one, is of this content. -/
def RowAgrees (E : UploadEnv) (u : UploadStore) (f : PendingCaptureFile) (body : Bytes) : Prop :=
  ∀ r, u.captureFiles.get? f.key = some r → RowOf E r body

/-- What an upload knows at its point. -/
def UploadOp.Knows (E : UploadEnv) (u : UploadStore) : UploadOp → Prop
  | fileChecking f body => FileKnown E u f body
  | fileSumming f body _ => FileKnown E u f body
  | fileRecording f body _ _ => FileKnown E u f body
  | fileStoring f body => FileKnown E u f body ∧ RowAgrees E u f body
  | fileMarking f body => FileKnown E u f body ∧ RowAgrees E u f body ∧
      u.blobs.get? f.storageKey = some body
  | listing id manifest => ∃ c, u.captures.get? id = some c ∧ c.manifest = manifest
  | closing id => ∃ c, u.captures.get? id = some c ∧ SessionStored E u id c.manifest
  | _ => True

/-- The file that the upload has recorded and not yet marked, with its content. -/
def UploadOp.held : UploadOp → Option (FileKey × Bytes)
  | fileStoring f body => some (f.key, body)
  | fileMarking f body => some (f.key, body)
  | _ => none

/-- Two uploads that hold one file hold one content. -/
def HoldSame (op o : UploadOp) : Prop :=
  ∀ k body body', op.held = some (k, body) → o.held = some (k, body') → body = body'

/-! ## Runs in which contents do not meet -/

/-- The capture that the upload has read, if it relies on what it has read. -/
def UploadOp.session : UploadOp → Option String
  | fileChecking f _ => some f.captureId
  | fileSumming f _ _ => some f.captureId
  | fileRecording f _ _ _ => some f.captureId
  | fileStoring f _ => some f.captureId
  | fileMarking f _ => some f.captureId
  | listing id _ => some id
  | closing id => some id
  | _ => none

/-- The manifest of the capture declares the file. -/
def UploadStore.declares (u : UploadStore) (id filename : String) : Bool :=
  (u.captures.get? id).any fun c => ((expectedFiles c.manifest).lookup filename).isSome

/-- The upload completes the capture. -/
def UploadOp.closes (id : String) : UploadOp → Bool
  | closing id' => id' = id
  | _ => false

/-- A file that is not declared is recorded when no other upload holds it with another
content, and when no completion that has listed the files is under way, unless the blob
is of this content already. -/
def UploadOp.undisputed (s : Uploading) : UploadOp → Bool
  | fileRecording f body _ _ => s.store.declares f.captureId f.filename ||
    (s.inFlight.all (fun o => o.held.all fun h => h.1 ≠ f.key || h.2 = body) &&
      (s.inFlight.all (fun o => !o.closes f.captureId) ||
        s.store.blobs.get? f.storageKey = some body))
  | _ => true

/-- The guard: no two contents of an undeclared file meet, and no project ends while an
upload to one of its captures is under way. -/
def ContentsApart (s : Uploading) : UploadEvent → Uploading → Prop
  | .advance i chance, _ => chance.result ≠ .failed →
      ∀ op, s.inFlight[i]? = some op → op.undisputed s = true
  | .commit c, _ => ∀ o ∈ s.inFlight, ∀ id, o.session = some id → KeepsSession s.store id c
  | _, _ => True

section Keep

variable {E : UploadEnv} {u u' : UploadStore} {others : List UploadOp} {now : Micros}
  {op : UploadOp} {next : Option UploadOp} {id : String} {manifest : Json}
  {r r' : CaptureFileRow} {k : FileKey} {body : Bytes} {f : PendingCaptureFile}

/-! ### What is read off a row -/

theorem eq_of_content (h : r'.content = r.content) :
    r'.storageKey = r.storageKey ∧ r'.bytes = r.bytes ∧ r'.sha256 = r.sha256 := by
  have hfields := h
  rw [CaptureFileRow.content, CaptureFileRow.content, CaptureFileRow.mk.injEq] at hfields
  exact ⟨hfields.1, hfields.2.1, hfields.2.2.1⟩

theorem RowOf.congr (h : RowOf E r body) (hcontent : r'.content = r.content) : RowOf E r' body := by
  obtain ⟨-, hbytes, hhash⟩ := eq_of_content hcontent
  exact ⟨hhash.trans h.hash, hbytes.trans h.length⟩

theorem FileStored.keep (h : FileStored E u r) (hcontent : r'.content = r.content)
    (hblob : ∀ body, u.blobs.get? r.storageKey = some body →
      u'.blobs.get? r.storageKey = some body) : FileStored E u' r' := by
  obtain ⟨body, hbody, hrow⟩ := h
  obtain ⟨hkey, -⟩ := eq_of_content hcontent
  exact ⟨body, hkey ▸ hblob body hbody, hrow.congr hcontent⟩

/-- The capture is still there, under its manifest, and reviewed if it was. -/
def SessionKept (u u' : UploadStore) (id : String) : Prop :=
  ∀ c, u.captures.get? id = some c → ∃ c', u'.captures.get? id = some c' ∧
    c'.manifest = c.manifest ∧ (c.status ≠ .pendingReview → c'.status ≠ .pendingReview)

theorem RowSound.keep (h : RowSound E u k r) (hcontent : r'.content = r.content)
    (hsession : SessionKept u u' k.1) : RowSound E u' k r' := by
  obtain ⟨hkey, -, hhash⟩ := eq_of_content hcontent
  obtain ⟨c, hc, hreviewed, hnamed, hagrees⟩ := h.session
  obtain ⟨c', hc', hmanifest, hreviewed'⟩ := hsession c hc
  obtain ⟨body, hrow⟩ := h.content
  refine ⟨h.safe, hkey.trans h.key, ⟨c', hc', hreviewed' hreviewed, ?_, ?_⟩, body,
    hrow.congr hcontent⟩
  · rw [hmanifest]
    exact hnamed
  · rw [hmanifest, hhash]
    exact hagrees

theorem lookup_mem {l : List (String × String)} {a b : String} (h : l.lookup a = some b) :
    (a, b) ∈ l := by
  induction l with
  | nil => cases h
  | cons x l ih =>
    obtain ⟨x, y⟩ := x
    rw [List.lookup_cons] at h
    split at h
    · rename_i heq
      rw [eq_of_beq heq, Option.some.inj h]
      exact List.mem_cons_self
    · exact List.mem_cons_of_mem _ (ih h)

/-- A name that a manifest declares is safe. -/
theorem safe_of_expected {filename hash : String}
    (h : (expectedFiles manifest).lookup filename = some hash) : safeFilename filename = true := by
  have hm := lookup_mem h
  unfold expectedFiles at hm
  split at hm
  · have hboth := (List.mem_filter.1 hm).2
    rw [Bool.and_eq_true] at hboth
    exact hboth.1
  · cases hm

theorem SessionStored.keep (h : SessionStored E u id manifest) (hsound : FilesSound E u)
    (hrows : ∀ filename r', u'.captureFiles.get? (id, filename) = some r' →
      (∃ r, u.captureFiles.get? (id, filename) = some r ∧ r'.content = r.content) ∨
        FileStored E u' r')
    (hblobs : ∀ filename body, safeFilename filename = true →
      u.blobs.get? (captureKey id filename) = some body →
        u'.blobs.get? (captureKey id filename) = some body) :
    SessionStored E u' id manifest := by
  refine ⟨fun filename r' hr' => ?_, fun filename hash hhash => ?_⟩
  · rcases hrows filename r' hr' with ⟨r, hr, hcontent⟩ | hstored
    · have hrow := hsound.row _ r hr
      refine (h.rows filename r hr).keep hcontent fun body hbody => ?_
      rw [hrow.key] at hbody ⊢
      exact hblobs filename body hrow.safe hbody
    · exact hstored
  · obtain ⟨body, hbody, hdigest⟩ := h.declared filename hash hhash
    exact ⟨body, hblobs filename body (safe_of_expected hhash) hbody, hdigest⟩

theorem FileKnown.keep (h : FileKnown E u f body) (hsession : SessionKept u u' f.captureId) :
    FileKnown E u' f body := by
  obtain ⟨c, hc, hreviewed, hdeclared⟩ := h.session
  obtain ⟨c', hc', hmanifest, hreviewed'⟩ := hsession c hc
  exact ⟨h.measured, c', hc', hreviewed' hreviewed, hmanifest ▸ hdeclared⟩

/-- What an upload knows stays true when its capture, its row and its blob are kept. -/
theorem UploadOp.Knows.keep (h : op.Knows E u)
    (hsession : ∀ id, op.session = some id → SessionKept u u' id)
    (hheld : ∀ k body, op.held = some (k, body) → ∀ r', u'.captureFiles.get? k = some r' →
      (∃ r, u.captureFiles.get? k = some r ∧ r'.content = r.content) ∨ RowOf E r' body)
    (hblob : ∀ f body, op = .fileMarking f body → u.blobs.get? f.storageKey = some body →
      u'.blobs.get? f.storageKey = some body)
    (hclosing : ∀ id c, op = .closing id → u.captures.get? id = some c →
      SessionStored E u id c.manifest → SessionStored E u' id c.manifest) : op.Knows E u' := by
  have hfile : ∀ {f body}, op.session = some f.captureId → FileKnown E u f body →
      FileKnown E u' f body := fun hs hknown => hknown.keep (hsession _ hs)
  have hrow : ∀ {f body}, op.held = some (f.key, body) → RowAgrees E u f body →
      RowAgrees E u' f body := by
    intro f body hh hagrees r' hr'
    rcases hheld _ _ hh r' hr' with ⟨r, hr, hcontent⟩ | hof
    · exact (hagrees r hr).congr hcontent
    · exact hof
  cases op with
  | fileChecking f body | fileSumming f body app | fileRecording f body app used => exact hfile rfl h
  | fileStoring f body => exact ⟨hfile rfl h.1, hrow rfl h.2⟩
  | fileMarking f body => exact ⟨hfile rfl h.1, hrow rfl h.2.1, hblob f body rfl h.2.2⟩
  | listing id manifest =>
    obtain ⟨c, hc, rfl⟩ := h
    obtain ⟨c', hc', hmanifest, -⟩ := hsession id rfl c hc
    exact ⟨c', hc', hmanifest⟩
  | closing id =>
    obtain ⟨c, hc, hstored⟩ := h
    obtain ⟨c', hc', hmanifest, -⟩ := hsession id rfl c hc
    exact ⟨c', hc', hmanifest ▸ hclosing id c rfl hc hstored⟩
  | _ => trivial

/-! ### Captures under a call -/

theorem CaptureMoved.session {c c' : CaptureRow} (h : CaptureMoved op id c c') :
    c'.manifest = c.manifest ∧ (c.status ≠ .pendingReview → c'.status ≠ .pendingReview) := by
  cases h with
  | kept => exact ⟨rfl, fun hr => hr⟩
  | uploading => exact ⟨rfl, fun _ => nofun⟩
  | completed => exact ⟨rfl, fun _ => nofun⟩

theorem sessionKept_took (htook : TookEffect E u others now op u' next) (id : String) :
    SessionKept u u' id := by
  intro c hc
  have hmoved := captureMoved_took htook id
  rw [hc] at hmoved
  generalize hrow : u'.captures.get? id = row at hmoved
  cases hmoved with
  | some hmoved => exact ⟨_, rfl, hmoved.session⟩

/-- A capture that is complete after a call was complete before, or the call has
completed it. -/
theorem complete_took {c' : CaptureRow} (htook : TookEffect E u others now op u' next)
    (hc' : u'.captures.get? id = some c') (hcomplete : c'.status = .complete) :
    u.captures.get? id = some c' ∨
      (op = .closing id ∧ ∃ c, u.captures.get? id = some c ∧ c'.manifest = c.manifest) := by
  have hmoved := captureMoved_took htook id
  rw [hc'] at hmoved
  generalize hrow : u.captures.get? id = row at hmoved
  cases hmoved with
  | some hmoved =>
    cases hmoved with
    | kept => exact .inl rfl
    | uploading => cases hcomplete
    | completed hop _ => exact .inr ⟨hop, _, rfl, rfl⟩

/-! ### The store under a step -/

theorem sessionKept_refl (u : UploadStore) (id : String) : SessionKept u u id :=
  fun c hc => ⟨c, hc, rfl, fun h => h⟩

/-- A step that writes no blob.  Its rows have the contents of rows that were there, or
are new and belong to captures that are not complete. -/
theorem FilesSound.keep (h : FilesSound E u)
    (hrows : ∀ k r', u'.captureFiles.get? k = some r' →
      (SessionKept u u' k.1 ∧ ∃ r, u.captureFiles.get? k = some r ∧ r'.content = r.content ∧
        (r'.uploaded = true → r.uploaded = true ∨ FileStored E u r)) ∨
      (RowSound E u' k r' ∧ r'.uploaded = false ∧ u'.isComplete k.1 = false))
    (hcomplete : ∀ id c', u'.captures.get? id = some c' → c'.status = .complete →
      SessionStored E u id c'.manifest)
    (hblobs : ∀ id filename body, (u'.captures.get? id).isSome = true →
      safeFilename filename = true → u.blobs.get? (captureKey id filename) = some body →
        u'.blobs.get? (captureKey id filename) = some body) : FilesSound E u' := by
  refine ⟨fun k r' hr' => ?_, fun k r' hr' hup => ?_, fun id c' hc' hstatus => ?_⟩
  · rcases hrows k r' hr' with ⟨hsession, r, hr, hcontent, -⟩ | ⟨hnew, -⟩
    · exact (h.row k r hr).keep hcontent hsession
    · exact hnew
  · rcases hrows k r' hr' with ⟨hsession, r, hr, hcontent, hbefore⟩ | ⟨-, hnot, -⟩
    · have hrow := h.row k r hr
      have hstored : FileStored E u r := (hbefore hup).elim (h.uploaded k r hr) id
      obtain ⟨c, hc, -⟩ := hrow.session
      obtain ⟨c', hc', -⟩ := hsession c hc
      refine hstored.keep hcontent fun body hbody => ?_
      rw [hrow.key] at hbody ⊢
      exact hblobs _ _ body (by rw [hc']; rfl) hrow.safe hbody
    · rw [hnot] at hup
      cases hup
  · refine (hcomplete id c' hc' hstatus).keep h (fun filename r' hr' => ?_) fun filename body =>
      hblobs id filename body (by rw [hc']; rfl)
    rcases hrows _ r' hr' with ⟨-, r, hr, hcontent, -⟩ | ⟨-, -, hnot⟩
    · exact .inl ⟨r, hr, hcontent⟩
    · rw [UploadStore.isComplete, hc', Option.any_some, hstatus] at hnot
      cases hnot

theorem get?_putBlob (u : UploadStore) (key : String) (body : Bytes) (k : String) :
    (putBlob u key body).blobs.get? k = if k = key then some body else u.blobs.get? k := by
  refine (Table.get?_upsert ..).trans ?_
  split
  · cases u.blobs.get? key <;> rfl
  · rfl

/-- A row under the key of a blob that is written is the row of that file. -/
theorem RowSound.eq_key (h : RowSound E u k r) (hmeasured : FileMeasured E f body)
    (hkey : r.storageKey = f.storageKey) : k = f.key := by
  rw [h.key, hmeasured.key] at hkey
  obtain ⟨hid, hname⟩ := captureKey_inj h.safe hmeasured.safe hkey
  exact Prod.ext hid hname

theorem FileStored.put (h : FileStored E u r) (hrow : RowSound E u k r)
    (hget : u.captureFiles.get? k = some r) (hmeasured : FileMeasured E f body)
    (hagrees : RowAgrees E u f body) : FileStored E (putBlob u f.storageKey body) r := by
  by_cases hkey : r.storageKey = f.storageKey
  · refine ⟨body, ?_, hagrees r (hrow.eq_key hmeasured hkey ▸ hget)⟩
    rw [get?_putBlob, if_pos hkey]
  · refine h.keep rfl fun b hb => ?_
    rw [get?_putBlob, if_neg hkey]
    exact hb

/-- A blob that is written where its row agrees leaves a capture stored. -/
theorem SessionStored.put {c : CaptureRow} (h : SessionStored E u id c.manifest)
    (hsound : FilesSound E u) (hc : u.captures.get? id = some c) (hknown : FileKnown E u f body)
    (hagrees : RowAgrees E u f body) :
    SessionStored E (putBlob u f.storageKey body) id c.manifest := by
  refine ⟨fun filename r hr => ?_, fun filename hash hhash => ?_⟩
  · exact (h.rows filename r hr).put (hsound.row _ r hr) hr hknown.measured hagrees
  · by_cases hkey : captureKey id filename = f.storageKey
    · -- the file is declared, so what is written has the hash that is declared
      rw [hknown.measured.key] at hkey
      obtain ⟨rfl, rfl⟩ := captureKey_inj (safe_of_expected hhash) hknown.measured.safe hkey
      obtain ⟨c', hc', -, hdeclared⟩ := hknown.session
      rw [hc, Option.some.injEq] at hc'
      subst hc'
      refine ⟨body, ?_, ?_⟩
      · rw [get?_putBlob, if_pos hknown.measured.key.symm]
      · rw [hdeclared.agrees hash hhash]
        exact hknown.measured.hash.symm
    · obtain ⟨b, hb, hdigest⟩ := h.declared filename hash hhash
      refine ⟨b, ?_, hdigest⟩
      rw [get?_putBlob, if_neg hkey]
      exact hb

theorem FilesSound.put (h : FilesSound E u) (hknown : FileKnown E u f body)
    (hagrees : RowAgrees E u f body) : FilesSound E (putBlob u f.storageKey body) where
  row k r hr := (h.row k r hr).keep rfl (sessionKept_refl u k.1)
  uploaded k r hr hup :=
    (h.uploaded k r hr hup).put (h.row k r hr) hr hknown.measured hagrees
  complete id c hc hstatus := (h.complete id c hc hstatus).put h hc hknown hagrees

/-- What has been listed is stored. -/
theorem SessionStored.of_listed {c : CaptureRow} (hsound : FilesSound E u)
    (hc : u.captures.get? id = some c) (hall : allUploaded u id c.manifest = true) :
    SessionStored E u id c.manifest := by
  rw [allUploaded, Bool.and_eq_true, Option.isSome_iff_exists] at hall
  obtain ⟨⟨hash0, hmanifest⟩, hexpected⟩ := hall
  have hlisted : ∀ filename hash, (uploadedFiles u id).lookup filename = some hash →
      ∃ r, u.captureFiles.get? (id, filename) = some r ∧ r.uploaded = true ∧ r.sha256 = hash := by
    intro filename hash hlookup
    obtain ⟨⟨k, r⟩, hr, heq⟩ := List.mem_map.1 (lookup_mem hlookup)
    obtain ⟨hr, hboth⟩ := List.mem_filter.1 hr
    rw [Bool.and_eq_true, decide_eq_true_eq] at hboth
    obtain ⟨hid, hup⟩ := hboth
    rw [Prod.mk.injEq] at heq
    have hk : k = (id, filename) := Prod.ext hid heq.1
    rw [hk] at hr
    exact ⟨r, Table.get?_eq_some_iff.2 hr, hup, heq.2⟩
  have hdeclared : ∀ filename hash, (expectedFiles c.manifest).lookup filename = some hash →
      (uploadedFiles u id).lookup filename = some hash := fun filename hash hhash =>
    of_decide_eq_true (List.all_eq_true.1 hexpected _ (lookup_mem hhash))
  refine ⟨fun filename r hr => ?_, fun filename hash hhash => ?_⟩
  · -- the row is that of the manifest or of a declared file, and both are listed
    obtain ⟨c', hc', -, hnamed, -⟩ := (hsound.row _ r hr).session
    rw [hc, Option.some.injEq] at hc'
    subst hc'
    obtain ⟨r', hr', hup, -⟩ : ∃ r', u.captureFiles.get? (id, filename) = some r' ∧
        r'.uploaded = true ∧ True := by
      rcases hnamed with hname | ⟨hash, hhash⟩
      · obtain ⟨r', hr', hup, -⟩ := hlisted _ _ hmanifest
        rw [show filename = manifestFile from hname]
        exact ⟨r', hr', hup, trivial⟩
      · obtain ⟨r', hr', hup, -⟩ := hlisted _ _ (hdeclared filename hash hhash)
        exact ⟨r', hr', hup, trivial⟩
    rw [hr, Option.some.injEq] at hr'
    subst hr'
    exact hsound.uploaded _ r hr hup
  · obtain ⟨r, hr, hup, hsha⟩ := hlisted _ _ (hdeclared filename hash hhash)
    obtain ⟨body, hbody, hrow⟩ := hsound.uploaded _ r hr hup
    rw [(hsound.row _ r hr).key] at hbody
    exact ⟨body, hbody, hrow.hash.symm.trans hsha⟩

end Keep

/-! ## A call keeps what is known -/

/-- A file that is about to be recorded fits: whoever holds it holds this content, and
whoever completes its capture has found this content stored. -/
structure RecordFits (u : UploadStore) (inFlight : List UploadOp) (f : PendingCaptureFile)
    (body : Bytes) : Prop where
  held : ∀ o ∈ inFlight, ∀ b, o.held = some (f.key, b) → b = body
  closing : ∀ o ∈ inFlight, o.closes f.captureId = true → u.blobs.get? f.storageKey = some body

section Took

variable {E : UploadEnv} {u u' : UploadStore} {others : List UploadOp} {now : Micros}
  {op o : UploadOp} {next : Option UploadOp} {k : FileKey} {body : Bytes}
  {f : PendingCaptureFile}

theorem known_of_held (h : o.Knows E u) (hheld : o.held = some (k, body)) :
    ∃ f, f.key = k ∧ FileKnown E u f body := by
  cases o with
  | fileStoring f b =>
    cases hheld
    exact ⟨f, rfl, h.1⟩
  | fileMarking f b =>
    cases hheld
    exact ⟨f, rfl, h.1⟩
  | _ => cases hheld

/-- The content of a file that is declared has the hash that is declared. -/
theorem FileKnown.hash_of_declared {c : CaptureRow} {hash : String} (h : FileKnown E u f body)
    (hc : u.captures.get? f.captureId = some c)
    (hhash : (expectedFiles c.manifest).lookup f.filename = some hash) : E.sha256 body = hash := by
  obtain ⟨c', hc', -, hdeclared⟩ := h.session
  rw [hc, Option.some.injEq] at hc'
  subst hc'
  rw [hdeclared.agrees hash hhash]
  exact h.measured.hash.symm

/-- A declared file fits because all contents with its hash are one, and any other file
because the guard says so. -/
theorem recordFits_of_undisputed (hinj : Function.Injective E.sha256) {s : Uploading}
    {app : String} {used : Option Int} (heach : ∀ o ∈ s.inFlight, o.Knows E s.store)
    (hknown : FileKnown E s.store f body)
    (hok : (UploadOp.fileRecording f body app used).undisputed s = true) :
    RecordFits s.store s.inFlight f body := by
  rw [UploadOp.undisputed, Bool.or_eq_true] at hok
  rcases hok with hdeclared | hfree
  · rw [UploadStore.declares, Option.any_eq_true] at hdeclared
    obtain ⟨c, hc, hhash⟩ := hdeclared
    obtain ⟨hash, hhash⟩ := Option.isSome_iff_exists.1 hhash
    have hbody := hknown.hash_of_declared hc hhash
    refine ⟨fun o ho b hheld => ?_, fun o ho hcloses => ?_⟩
    · obtain ⟨f', hkey, hknown'⟩ := known_of_held (heach o ho) hheld
      have hid : f'.captureId = f.captureId := congrArg Prod.fst hkey
      have hname : f'.filename = f.filename := congrArg Prod.snd hkey
      have hb := hknown'.hash_of_declared (hid ▸ hc) (hname ▸ hhash)
      exact hinj (hb.trans hbody.symm)
    · have hknows := heach o ho
      cases o with
      | closing id =>
        obtain rfl : id = f.captureId := of_decide_eq_true hcloses
        obtain ⟨c', hc', hstored⟩ := hknows
        rw [hc, Option.some.injEq] at hc'
        subst hc'
        obtain ⟨b, hb, hdigest⟩ := hstored.declared f.filename hash hhash
        rw [hknown.measured.key, hb, hinj (hdigest.trans hbody.symm)]
      | _ => cases hcloses
  · rw [Bool.and_eq_true, Bool.or_eq_true, decide_eq_true_eq] at hfree
    obtain ⟨hheld, hclosing⟩ := hfree
    refine ⟨fun o ho b hb => ?_, fun o ho hcloses => ?_⟩
    · have hall := List.all_eq_true.1 hheld o ho
      rw [hb, Option.all_some, Bool.or_eq_true, decide_eq_true_eq, decide_eq_true_eq] at hall
      exact hall.resolve_left fun hne => hne rfl
    · refine hclosing.resolve_left fun hnone => ?_
      have hno := List.all_eq_true.1 hnone o ho
      rw [hcloses] at hno
      cases hno

theorem blobs_took (htook : TookEffect E u others now op u' next)
    (hop : ∀ f body, op ≠ .fileStoring f body) : u'.blobs = u.blobs := by
  cases htook with
  | insertedUncapped _ hinsert | inserted hinsert =>
    rw [insertEvidence, Option.ite_none_right_eq_some] at hinsert
    obtain ⟨-, heq⟩ := hinsert
    cases heq
    rfl
  | recorded hrecord => exact (recordCaptureFile_eq hrecord).2.1
  | stored => exact absurd rfl (hop _ _)
  | ended | reserved | released | opened | checked | uncapped | summed | dropped | marked | closed
    | captureRead | listed => rfl

/-- The row that a recording leaves is of the content that was hashed. -/
theorem FileMeasured.rowOf (h : FileMeasured E f body) : RowOf E f.row body := ⟨h.hash, h.bytes⟩

/-- A call other than a recording leaves rows that were there, with their contents. -/
theorem content_took {r' : CaptureFileRow} (htook : TookEffect E u others now op u' next)
    (hop : ∀ f body app used, op ≠ .fileRecording f body app used)
    (hr' : u'.captureFiles.get? k = some r') :
    ∃ r, u.captureFiles.get? k = some r ∧ r'.content = r.content ∧
      (r'.uploaded = true → r.uploaded = true ∨ ∃ f body, op = .fileMarking f body ∧ f.key = k) := by
  by_cases hwrites : op.writesRow = some k
  · cases htook with
    | recorded => exact absurd rfl (hop _ _ _ _)
    | dropped =>
      rw [get?_removeCaptureFile, if_pos (Option.some.inj hwrites).symm] at hr'
      cases hr'
    | @marked f body =>
      rw [get?_markCaptureFileUploaded, Option.map_eq_some_iff] at hr'
      obtain ⟨r, hr, rfl⟩ := hr'
      refine ⟨r, hr, ?_, fun _ => .inr ⟨f, body, rfl, Option.some.inj hwrites⟩⟩
      split <;> rfl
    | ended => exact ⟨r', hr', rfl, .inl⟩
    | _ => cases hwrites
  · rw [get?_files_took htook hwrites] at hr'
    exact ⟨r', hr', rfl, .inl⟩

/-- A call keeps the rows and the blobs sound. -/
theorem FilesSound.took (h : FilesSound E u) (hop : op.Knows E u)
    (htook : TookEffect E u others now op u' next) : FilesSound E u' := by
  have hsession := sessionKept_took htook
  have hcomplete : ∀ id c', u'.captures.get? id = some c' → c'.status = .complete →
      SessionStored E u id c'.manifest := by
    intro id c' hc' hstatus
    rcases complete_took htook hc' hstatus with hbefore | ⟨rfl, c, hc, hmanifest⟩
    · exact h.complete id c' hbefore hstatus
    · obtain ⟨c0, hc0, hstored⟩ := hop
      rw [hc, Option.some.injEq] at hc0
      subst hc0
      rw [hmanifest]
      exact hstored
  by_cases hstoring : ∃ f body, op = .fileStoring f body
  · obtain ⟨f, body, rfl⟩ := hstoring
    cases htook with
    | ended => exact h
    | stored => exact h.put hop.1 hop.2
  have hblobs := blobs_took htook fun f body heq => hstoring ⟨f, body, heq⟩
  refine h.keep (fun k r' hr' => ?_) hcomplete fun id filename b _ _ hb => by rw [hblobs]; exact hb
  by_cases hrecording : ∃ f body app used, op = .fileRecording f body app used
  · obtain ⟨f, body, app, used, rfl⟩ := hrecording
    cases htook with
    | ended => exact .inl ⟨hsession k.1, r', hr', rfl, .inl⟩
    | recorded hrecord =>
      rw [get?_recorded hrecord] at hr'
      split at hr'
      · rename_i hk
        cases hr'
        subst hk
        -- the row is new, and its capture is uploading
        obtain ⟨c, hc, hreviewed, hdeclared⟩ := hop.session
        obtain ⟨-, -, -, -, hcaptures⟩ := recordCaptureFile_eq hrecord
        have hc' : u'.captures.get? f.captureId = some { c with status := .uploading } := by
          rw [hcaptures, Table.get?_update, hc, Option.map_some, if_pos (decide_eq_true rfl)]
        refine .inr ⟨⟨hop.measured.safe, hop.measured.key,
          ⟨_, hc', nofun, hdeclared.named, hdeclared.agrees⟩, body, hop.measured.rowOf⟩, rfl, ?_⟩
        exact isComplete_false_of_ready hc' rfl
      · exact .inl ⟨hsession k.1, r', hr', rfl, .inl⟩
  · obtain ⟨r, hr, hcontent, hup⟩ := content_took htook
      (fun f body app used heq => hrecording ⟨f, body, app, used, heq⟩) hr'
    refine .inl ⟨hsession k.1, r, hr, hcontent, fun hup' => ?_⟩
    rcases hup hup' with hbefore | ⟨f, body, rfl, rfl⟩
    · exact .inl hbefore
    · -- what is marked is stored, for the upload has stored it
      obtain ⟨hknown, hagrees, hblob⟩ := hop
      refine .inr ⟨body, ?_, hagrees r hr⟩
      rw [(h.row _ r hr).key]
      exact hknown.measured.key ▸ hblob

/-- A call disturbs nothing that other uploads know. -/
theorem UploadOp.Knows.beside (h : FilesSound E u) (hop : op.Knows E u) (ho : o.Knows E u)
    (hsame : HoldSame op o)
    (hfits : ∀ f body app used, op = .fileRecording f body app used →
      (∀ b, o.held = some (f.key, b) → b = body) ∧
        (o.closes f.captureId = true → u.blobs.get? f.storageKey = some body))
    (htook : TookEffect E u others now op u' next) : o.Knows E u' := by
  have hsession := sessionKept_took htook
  by_cases hstoring : ∃ f body, op = .fileStoring f body
  · obtain ⟨f, body, rfl⟩ := hstoring
    cases htook with
    | ended => exact ho
    | stored =>
      refine ho.keep (fun id _ => hsession id) (fun k b _ r hr => .inl ⟨r, hr, rfl⟩)
        (fun f' b hmarking hb => ?_) fun id c _ hc hstored => hstored.put h hc hop.1 hop.2
      subst hmarking
      rw [get?_putBlob]
      split
      · rename_i hkey
        rw [ho.1.measured.key, hop.1.measured.key] at hkey
        obtain ⟨hid, hname⟩ := captureKey_inj ho.1.measured.safe hop.1.measured.safe hkey
        have hk : f'.key = f.key := Prod.ext hid hname
        exact congrArg some (hsame f.key body b rfl (congrArg (fun k => some (k, b)) hk))
      · exact hb
  have hblobs := blobs_took htook fun f body heq => hstoring ⟨f, body, heq⟩
  by_cases hrecording : ∃ f body app used, op = .fileRecording f body app used
  · obtain ⟨f, body, app, used, rfl⟩ := hrecording
    cases htook with
    | ended => exact ho
    | recorded hrecord =>
      obtain ⟨hheld, hclosing⟩ := hfits f body app used rfl
      refine ho.keep (fun id _ => hsession id) (fun k b hk r' hr' => ?_)
        (fun f' b _ hb => by rw [hblobs]; exact hb) fun id c hcloses hc hstored => ?_
      · rw [get?_recorded hrecord] at hr'
        split at hr'
        · rename_i heq
          cases hr'
          rw [hheld b (heq ▸ hk)]
          exact .inr hop.measured.rowOf
        · exact .inl ⟨r', hr', rfl⟩
      · refine hstored.keep h (fun filename r' hr' => ?_) fun _ b _ hb => by rw [hblobs]; exact hb
        rw [get?_recorded hrecord] at hr'
        split at hr'
        · rename_i heq
          cases hr'
          have hid : id = f.captureId := congrArg Prod.fst heq
          refine .inr ⟨body, ?_, hop.measured.rowOf⟩
          rw [hblobs]
          exact hclosing (by rw [hcloses]; exact decide_eq_true hid)
        · exact .inl ⟨r', hr', rfl⟩
  · have hrows : ∀ k r', u'.captureFiles.get? k = some r' →
        ∃ r, u.captureFiles.get? k = some r ∧ r'.content = r.content := by
      intro k r' hr'
      obtain ⟨r, hr, hcontent, -⟩ := content_took htook
        (fun f body app used heq => hrecording ⟨f, body, app, used, heq⟩) hr'
      exact ⟨r, hr, hcontent⟩
    refine ho.keep (fun id _ => hsession id) (fun k _ _ r' hr' => .inl (hrows k r' hr'))
      (fun f' b _ hb => by rw [hblobs]; exact hb) fun id c _ _ hstored => ?_
    exact hstored.keep h (fun filename r' hr' => .inl (hrows _ r' hr'))
      fun _ b _ hb => by rw [hblobs]; exact hb

/-- What an upload knows where it goes on. -/
theorem UploadOp.Knows.took (h : FilesSound E u) (hop : op.Knows E u)
    (htook : TookEffect E u others now op u' next) : ∀ op', next = some op' → op'.Knows E u' := by
  intro op' hop'
  have hkept := sessionKept_took htook
  cases htook with
  | @opened up c f hc hready hid hmeasured hdeclared =>
    cases hop'
    refine ⟨hmeasured, c, hid ▸ hc, fun hpending => ?_, hdeclared⟩
    rw [hpending] at hready
    cases hready
  | checked | uncapped | summed =>
    cases hop'
    exact hop
  | @recorded f body app used _ hrecord =>
    cases hop'
    refine ⟨FileKnown.keep hop (hkept f.captureId), fun r hr => ?_⟩
    rw [get?_recorded hrecord, if_pos rfl] at hr
    cases hr
    exact hop.measured.rowOf
  | @stored f body =>
    cases hop'
    refine ⟨⟨hop.1.measured, hop.1.session⟩, hop.2, ?_⟩
    rw [get?_putBlob, if_pos rfl]
  | captureRead hc =>
    cases hop'
    exact ⟨_, hc, rfl⟩
  | listed hall =>
    cases hop'
    obtain ⟨c, hc, rfl⟩ := hop
    exact ⟨c, hc, .of_listed h hc hall⟩
  | reserved | insertedUncapped | inserted =>
    cases hop'
    trivial
  | ended | released | dropped | marked | closed => cases hop'

end Took

/-! ## The writes of others keep what is known -/

section Committed

variable {E : UploadEnv} {u u' : UploadStore} {c : UploadCommit} {id : String} {o : UploadOp}

theorem sessionKept_committed (h : Committed E u c u') (hkeeps : KeepsSession u id c) :
    SessionKept u u' id := by
  have hupdate : ∀ {q : String → CaptureRow → Bool} {f : CaptureRow → CaptureRow},
      (∀ r, (f r).manifest = r.manifest ∧ (r.status ≠ .pendingReview →
        (f r).status ≠ .pendingReview)) → SessionKept u (u.updateCaptures q f) id := by
    intro q f hf r hr
    have hget : (u.updateCaptures q f).captures.get? id =
        (u.captures.get? id).map fun r => if q id r then f r else r := Table.get?_update ..
    refine ⟨_, by rw [hget, hr]; rfl, ?_⟩
    dsimp only
    split
    · exact hf r
    · exact ⟨rfl, fun h => h⟩
  cases h with
  | telemetry | projectCreated => exact fun r hr => ⟨r, hr, rfl, fun h => h⟩
  | @projectDeleted app ids t _ =>
    intro r hr
    refine ⟨r, ?_, rfl, fun h => h⟩
    exact (dropCaptures_kept (u := { u with telemetry := t }) (hkeeps app ids rfl)).1.trans hr
  | captureCreated hcreated =>
    cases hcreated with
    | added hnone _ _ _ _ hrows =>
      intro r hr
      refine ⟨r, ?_, rfl, fun h => h⟩
      rw [hrows, if_neg, hr]
      intro heq
      rw [heq, hnone] at hr
      cases hr
    | again _ _ hf =>
      refine hupdate fun r => ⟨(hf r).2, fun hr => ?_⟩
      rw [(hf r).1]
      exact hr
  | approved => exact hupdate fun r => ⟨rfl, fun _ => nofun⟩

/-- The blobs of a capture that stays are not deleted with those of others. -/
theorem blobs_committed (hsound : FilesSound E u) (h : Committed E u c u')
    (hkeeps : KeepsSession u id c) {filename : String} (hsafe : safeFilename filename = true) :
    u'.blobs.get? (captureKey id filename) = u.blobs.get? (captureKey id filename) := by
  cases h with
  | @projectDeleted app ids t _ =>
    refine get?_dropBlobs (fun hkey => ?_) _
    obtain ⟨r, hr, hstorage⟩ := List.mem_map.1 hkey
    obtain ⟨hr, hcaptured⟩ := List.mem_filter.1 hr
    have hrow := hsound.row r.1 r.2 (Table.get?_eq_some_iff.2 hr)
    obtain ⟨hid, -⟩ := captureKey_inj hrow.safe hsafe (hrow.key.symm.trans hstorage)
    have hapart : u.capturedFor app r.1.1 = false := hid ▸ hkeeps app ids rfl
    exact Bool.false_ne_true (hapart.symm.trans hcaptured)
  | captureCreated hcreated =>
    cases hcreated with
    | added _ _ _ _ hblobs _ => rw [hblobs]
    | again => rfl
  | telemetry | projectCreated | approved => rfl

/-- A capture that is there after a transaction of another handler was kept by it, if it
was there before. -/
theorem keepsSession_of_some {row : CaptureRow} (h : Committed E u c u')
    (hrow : u'.captures.get? id = some row) : KeepsSession u id c := by
  intro app ids heq
  subst heq
  cases h with
  | telemetry _ hnot => exact absurd rfl (hnot app ids)
  | @projectDeleted _ _ t _ =>
    have hkept : (u.captures.delete fun _ c => c.appId = some app).get? id = some row := hrow
    rw [Table.get?_delete, Option.filter_eq_some_iff] at hkept
    rw [capturedFor_of_get? hkept.1]
    simpa using hkept.2

theorem FilesSound.committed (hsound : FilesSound E u) (h : Committed E u c u') :
    FilesSound E u' := by
  refine hsound.keep (fun k r' hr' => .inl ?_) (fun id row hrow hstatus => ?_)
    fun id filename body hsome hsafe hb => ?_
  · obtain ⟨row, hrow⟩ := Option.isSome_iff_exists.1
      (u'.owned (k, r') (Table.get?_eq_some_iff.1 hr'))
    have hkeeps := keepsSession_of_some h hrow
    have hfile := get?_files_committed h hkeeps k.2
    rw [hr'] at hfile
    exact ⟨sessionKept_committed h hkeeps, r', hfile.symm, rfl, .inl⟩
  · have hreviewed := captureReviewed_committed h hrow
    generalize hold : u.captures.get? id = old at hreviewed
    cases hreviewed with
    | kept => exact hsound.complete id row hold hstatus
    | added hpending =>
      rw [hpending] at hstatus
      cases hstatus
    | reviewed _ hnot _ => exact absurd hstatus hnot
  · obtain ⟨row, hrow⟩ := Option.isSome_iff_exists.1 hsome
    rw [blobs_committed hsound h (keepsSession_of_some h hrow) hsafe]
    exact hb

theorem UploadOp.Knows.committed (hsound : FilesSound E u) (ho : o.Knows E u)
    (h : Committed E u c u') (hkeeps : ∀ id, o.session = some id → KeepsSession u id c) :
    o.Knows E u' := by
  refine ho.keep (fun id hid => sessionKept_committed h (hkeeps id hid))
    (fun k body hheld r' hr' => .inl ?_) (fun f body hmarking hb => ?_)
    fun id row hcloses _ hstored => ?_
  · have hid : o.session = some k.1 := by
      cases o with
      | fileStoring f b | fileMarking f b =>
        cases hheld
        rfl
      | _ => cases hheld
    have hfile := get?_files_committed h (hkeeps k.1 hid) k.2
    rw [hr'] at hfile
    exact ⟨r', hfile.symm, rfl⟩
  · subst hmarking
    have hmeasured := ho.1.measured
    rw [hmeasured.key] at hb ⊢
    rw [blobs_committed hsound h (hkeeps f.captureId rfl) hmeasured.safe]
    exact hb
  · subst hcloses
    have hkept := hkeeps id rfl
    refine hstored.keep hsound (fun filename r' hr' => ?_) fun filename body hsafe hb => ?_
    · rw [get?_files_committed h hkept] at hr'
      exact .inl ⟨r', hr', rfl⟩
    · rw [blobs_committed hsound h hkept hsafe]
      exact hb

end Committed

/-! ## Runs -/

theorem holdSame_symm (op o : UploadOp) (h : HoldSame op o) : HoldSame o op :=
  fun k b b' ho hop => (h k b' b hop ho).symm

/-- An upload holds a file from its recording on. -/
theorem holdSame_took {E : UploadEnv} {u u' : UploadStore} {others : List UploadOp}
    {now : Micros} {op o op' : UploadOp} (htook : TookEffect E u others now op u' (some op'))
    (hsame : HoldSame op o)
    (hfits : ∀ f body app used, op = .fileRecording f body app used →
      ∀ b, o.held = some (f.key, b) → b = body) : HoldSame o op' := by
  intro k b b' ho hop'
  cases htook with
  | @recorded f body app used _ hrecord =>
    cases hop'
    exact hfits f b' app used rfl b ho
  | @stored f body =>
    cases hop'
    exact (hsame _ b' b rfl ho).symm
  | _ => cases hop'

theorem held_afterFailure {op op' : UploadOp} (h : op.afterFailure = some op') :
    op'.held = none := by
  cases op with
  | evidenceStoring id | fileStoring f body =>
    cases h
    rfl
  | _ => cases h

theorem knows_afterFailure {E : UploadEnv} {u : UploadStore} {op op' : UploadOp}
    (h : op.afterFailure = some op') : op'.Knows E u := by
  cases op with
  | evidenceStoring id | fileStoring f body =>
    cases h
    trivial
  | _ => cases h

/-- The outline of contents. -/
theorem keepsOutline_contents {E : UploadEnv} (hinj : Function.Injective E.sha256) :
    KeepsOutline (uploads E) ContentsApart (FilesSound E) (fun u op => op.Knows E u) HoldSame where
  start s s' op _ _ hstarts := by
    cases op with
    | evidenceReserving up | fileOpening up | completing id keyApp =>
      exact ⟨trivial, fun o _ k b b' _ hnew => nomatch hnew⟩
    | _ => cases hstarts
  advance s s' i chance op store next h hok hop hnext := by
    have hknows := h.each op (List.mem_of_getElem? hop)
    have heach : ∀ o ∈ s.inFlight.eraseIdx i, o ∈ s.inFlight ∧ o.Knows E s.store := fun o ho =>
      ⟨List.mem_of_mem_eraseIdx ho, h.each o (List.mem_of_mem_eraseIdx ho)⟩
    have hafter : ∀ u op', op.afterFailure = some op' →
        op'.Knows E u ∧ ∀ o ∈ s.inFlight.eraseIdx i, HoldSame o op' := fun u op' hop' =>
      ⟨knows_afterFailure hop', fun o _ k b b' _ hheld => by
        rw [held_afterFailure hop'] at hheld
        cases hheld⟩
    -- a recording fits with all others
    have hfits : chance.result ≠ .failed → ∀ o ∈ s.inFlight.eraseIdx i, ∀ f body app used,
        op = .fileRecording f body app used → (∀ b, o.held = some (f.key, b) → b = body) ∧
          (o.closes f.captureId = true → s.store.blobs.get? f.storageKey = some body) := by
      intro hresult o ho f body app used heq
      subst heq
      have hrecord := recordFits_of_undisputed hinj h.each hknows (hok hresult _ hop)
      exact ⟨hrecord.held o (heach o ho).1, hrecord.closing o (heach o ho).1⟩
    have htaken : ∀ u' next', chance.result ≠ .failed →
        TookEffect E s.store (s.inFlight.eraseIdx i) chance.now op u' next' →
        FilesSound E u' ∧ ∀ o ∈ s.inFlight.eraseIdx i, o.Knows E u' := fun u' next' hresult htook =>
      ⟨h.store.took hknows htook, fun o ho => hknows.beside h.store (heach o ho).2
        (h.apart_at holdSame_symm hop ho) (hfits hresult o ho) htook⟩
    cases uploadStepped_of_next hnext with
    | failed _ => exact ⟨h.store, fun o ho => (heach o ho).2, hafter s.store⟩
    | answered hresult htook _ =>
      have hne : chance.result ≠ .failed := hresult ▸ nofun
      obtain ⟨hsound, hothers⟩ := htaken _ _ hne htook
      refine ⟨hsound, hothers, fun op' hop' => ⟨hknows.took h.store htook op' hop', fun o ho => ?_⟩⟩
      subst hop'
      exact holdSame_took htook (h.apart_at holdSame_symm hop ho) fun f body app used heq =>
        (hfits hne o ho f body app used heq).1
    | unanswered hresult htook _ =>
      obtain ⟨hsound, hothers⟩ := htaken _ _ (hresult ▸ nofun) htook
      exact ⟨hsound, hothers, hafter store⟩
  commit s s' c store h hok hwrite := by
    obtain ⟨hcommit, -⟩ := Option.filter_eq_some_iff.1 hwrite
    have hcommitted := committed_of_some hcommit
    exact ⟨h.store.committed hcommitted, fun o ho =>
      (h.each o ho).committed h.store hcommitted (hok o ho)⟩

theorem filesSound_init (E : UploadEnv) : FilesSound E Uploading.init.store :=
  ⟨fun _ _ h => (nomatch h), fun _ _ h => (nomatch h), fun _ _ h => (nomatch h)⟩

/-- Along every run in which no two contents of an undeclared file meet, every file of a
complete capture is stored, with the hash and the length of its row. -/
theorem completed_files_are_stored {E : UploadEnv} (hinj : Function.Injective E.sha256)
    {es : List UploadEvent} {s : Uploading}
    (hrun : Run (Guarded (stepOf (uploads E).step) ContentsApart) Uploading.init es s)
    {id filename : String} {r : CaptureFileRow} (hcomplete : s.store.isComplete id = true)
    (hr : s.store.captureFiles.get? (id, filename) = some r) :
    ∃ body, s.store.blobs.get? r.storageKey = some body ∧ r.sha256 = E.sha256 body ∧
      r.bytes = body.length := by
  have hout := Outline.run (keepsOutline_contents hinj) hrun
    (outline_of_idle (filesSound_init E) rfl)
  rw [UploadStore.isComplete, Option.any_eq_true] at hcomplete
  obtain ⟨c, hc, hstatus⟩ := hcomplete
  obtain ⟨body, hbody, hrow⟩ :=
    (hout.store.complete id c hc (of_decide_eq_true hstatus)).rows filename r hr
  exact ⟨body, hbody, hrow.hash, hrow.length⟩

theorem otherDigest_injective : Function.Injective otherDigest := by
  intro a b hab
  refine List.map_injective_iff.2 (fun x y hxy => ?_) (String.ofList_injective hab)
  have hnat := congrArg Char.toNat hxy
  have hx := x.toNat_lt
  have hy := y.toNat_lt
  rw [Char.toNat_ofNat, Char.toNat_ofNat, if_pos (.inl (by omega)), if_pos (.inl (by omega))] at hnat
  exact UInt8.toNat_inj.1 (by omega)

/-- Another content has no text that begins as a digest does. -/
theorem otherDigest_ne {body : Bytes} {text : String} {c : Char} (h : text.toList.head? = some c)
    (hc : c.toNat < 256) : otherDigest body ≠ text := by
  intro heq
  rw [← heq, otherDigest, String.toList_ofList] at h
  cases body with
  | nil => cases h
  | cons b body =>
    have hnat := congrArg Char.toNat (Option.some.inj h)
    have hb := b.toNat_lt
    rw [Char.toNat_ofNat, if_pos (.inl (by omega))] at hnat
    omega

theorem sampleDigest_cases (body : Bytes) :
    (body = bodyHi ∧ sampleDigest body = digestHi) ∨ (body = bodyHo ∧ sampleDigest body = digestHo) ∨
      sampleDigest body = otherDigest body := by
  unfold sampleDigest
  split
  · exact .inl ⟨‹_›, rfl⟩
  · split
    · exact .inr (.inl ⟨‹_›, rfl⟩)
    · exact .inr (.inr rfl)

theorem sampleDigest_injective : Function.Injective sampleDigest := by
  intro a b hab
  have hhi : ∀ body, otherDigest body ≠ digestHi := fun body =>
    otherDigest_ne (c := '8') (by decide) (by decide)
  have hho : ∀ body, otherDigest body ≠ digestHo := fun body =>
    otherDigest_ne (c := 'a') (by decide) (by decide)
  have hne : digestHi ≠ digestHo := by decide
  rcases sampleDigest_cases a with ⟨rfl, ha⟩ | ⟨rfl, ha⟩ | ha <;>
    rcases sampleDigest_cases b with ⟨rfl, hb⟩ | ⟨rfl, hb⟩ | hb <;>
    have heq := ha.symm.trans (hab.trans hb)
  · rfl
  · exact absurd heq hne
  · exact absurd heq.symm (hhi b)
  · exact absurd heq.symm hne
  · rfl
  · exact absurd heq.symm (hho b)
  · exact absurd heq (hhi a)
  · exact absurd heq (hho a)
  · exact otherDigest_injective heq

/-- The guard, computed, for runs without deletions. -/
def contentsApart (s : Uploading) : UploadEvent → Bool
  | .advance i chance => chance.result = .failed || (s.inFlight[i]?).all fun op => op.undisputed s
  | .commit (.telemetry (.deleteProject _ _)) => false
  | _ => true

theorem contentsApart_sound (s : Uploading) (e : UploadEvent) (s' : Uploading)
    (h : contentsApart s e = true) : ContentsApart s e s' := by
  cases e with
  | advance i chance =>
    intro hresult op hop
    rw [contentsApart, hop, Option.all_some, Bool.or_eq_true, decide_eq_true_eq] at h
    exact h.resolve_left hresult
  | commit c =>
    intro o _ id _ app ids heq
    subst heq
    cases h
  | start op | abandon i => trivial

/-- The row and the blob of the manifest of the sample capture. -/
def manifestStored (u : UploadStore) : Option (String × Option Bytes) :=
  (u.captureFiles.get? ("cap_0123456789abcdef", manifestFile)).map fun r =>
    (r.sha256, u.blobs.get? r.storageKey)

theorem completed_files_are_stored_manifest :
    Function.Injective sampleEnv.sha256 ∧
      ∃ s r, Run (Guarded (stepOf (uploads sampleEnv).step) ContentsApart) Uploading.init
          (filesAttached ++ completeAt 0) s ∧
        s.store.isComplete "cap_0123456789abcdef" = true ∧
        s.store.captureFiles.get? ("cap_0123456789abcdef", manifestFile) = some r ∧
        ∃ body, s.store.blobs.get? r.storageKey = some body ∧
          r.sha256 = sampleEnv.sha256 body ∧ r.bytes = body.length := by
  have hsome : (runOf (checked (uploads sampleEnv).step contentsApart) Uploading.init
      (filesAttached ++ completeAt 0)).map (fun s =>
        (s.store.isComplete "cap_0123456789abcdef", manifestStored s.store)) =
      some (true, some (digestHi, some bodyHi)) := by decide
  obtain ⟨s, hs, hboth⟩ := Option.map_eq_some_iff.1 hsome
  rw [Prod.mk.injEq] at hboth
  obtain ⟨r, hr, -⟩ := Option.map_eq_some_iff.1 hboth.2
  have hrun := Run.of_runOf_checked contentsApart_sound hs
  exact ⟨sampleDigest_injective, s, r, hrun, hboth.1, hr,
    completed_files_are_stored sampleDigest_injective hrun hboth.1 hr⟩

/-- Two uploads of the manifest.  The row is of the second, and its blob is stored
before that of the first. -/
def crossedManifests : List UploadEvent :=
  fileAttached ++
    [.start (.fileOpening (putManifest bodyHi)), answered 0, answered 0, answered 0, answered 0,
      .start (.fileOpening (putManifest bodyHo)), answered 1, answered 1, answered 1, answered 1,
      answered 1, answered 0, answered 0, answered 0] ++ completeAt 0

/-- The row of a complete capture has the hash of one upload and the blob of another. -/
theorem crossed_manifests_are_completed :
    Function.Injective sampleEnv.sha256 ∧
      ¬ ∀ es s, Run (stepOf (uploads sampleEnv).step) Uploading.init es s →
        ∀ id filename r, s.store.isComplete id = true →
          s.store.captureFiles.get? (id, filename) = some r →
          ∃ body, s.store.blobs.get? r.storageKey = some body ∧
            r.sha256 = sampleEnv.sha256 body ∧ r.bytes = body.length := by
  refine ⟨sampleDigest_injective, fun hall => ?_⟩
  have hsome : (runOf (uploads sampleEnv).step Uploading.init crossedManifests).map (fun s =>
      (s.store.isComplete "cap_0123456789abcdef", manifestStored s.store)) =
      some (true, some (digestHo, some bodyHi)) := by decide
  obtain ⟨s, hs, hboth⟩ := Option.map_eq_some_iff.1 hsome
  rw [Prod.mk.injEq] at hboth
  obtain ⟨r, hr, hread⟩ := Option.map_eq_some_iff.1 hboth.2
  rw [Prod.mk.injEq] at hread
  obtain ⟨body, hbody, hhash, -⟩ := hall _ s (Run.of_runOf hs) _ _ r hboth.1 hr
  rw [hread.2, Option.some.injEq] at hbody
  rw [hread.1, ← hbody] at hhash
  revert hhash
  decide

end ReproitCloud
