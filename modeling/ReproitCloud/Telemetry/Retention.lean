import ReproitCloud.Lib.Loops
import ReproitCloud.Lib.Turns
import ReproitCloud.Telemetry.Deletion

/-!
# Retention

A retention pass deletes what a tenant has kept for longer than its plan says.  First the
files of the expired errors go from the object storage, 500 at a time, and the rows of
`evidence` whose file has gone.  Then the expired errors go that have no row of `evidence`
left, 5000 at a time.

A file that cannot be deleted keeps its row, so the next batch may be the same one again.
The first loop leaves when a batch has deleted nothing, and so every turn that goes on
lowers the number of rows.  The pass also ends at the first statement that fails.

* `retention_safe_and_ends`: in every pattern of failures the pass ends, a row of
  `evidence` goes after its file, and an error goes when it has expired and after all its
  evidence.  Only a statement that fails (`StatementFailed`) keeps a pass from its end, and
  one in which nothing fails leaves nothing that had expired at its start.
-/

namespace ReproitCloud

open Lib

/-! ## The statements -/

/-- The instant before which an error has expired. -/
def retentionCutoff (now : Micros) (days : Int) : Micros := now - days * microsPerDay

/-- An error that has expired is the one of a row of `evidence`. -/
def evidenceExpired (t : TenantStore) (now : Micros) (days : Int) (e : EvidenceRow) : Bool :=
  t.errors.rows.any fun r => r.id = e.errorId && r.createdAt < retentionCutoff now days

/-- `expired_evidence_keys`, with the rows that have the keys. -/
def expiredEvidence (t : TenantStore) (now : Micros) (days : Int) (limit : Nat) :
    List EvidenceRow :=
  firstBy EvidenceRow.id limit (t.evidence.filter (evidenceExpired t now days))

/-- `delete_evidence_rows`, with the storage trigger. -/
def deleteEvidenceRows (t : TenantStore) (ids : List Nat) : TenantStore :=
  { t with
    evidence := t.evidence.filter fun e => !ids.contains e.id
    appStorageUsage :=
      releaseStorage t.appStorageUsage (t.evidence.filter fun e => ids.contains e.id) }

/-! ## The pass -/

/-- What a pass has done. -/
inductive RetentionEvent where
  /-- The storage has deleted a file. -/
  | blob (key : String)
  /-- A row of `evidence` has gone. -/
  | evidence (row : EvidenceRow)
  /-- A row of `errors` has gone, by a statement at an instant. -/
  | error (row : ErrorRow) (now : Micros)

/-- The tables, with what the pass has done to them. -/
structure RetentionState where
  telemetry : TenantStore
  trace : List RetentionEvent := []

/-- What happens to the calls of a pass, turn by turn, and when they are made. -/
structure RetentionChance where
  startsAt : Micros
  readAt : Nat → Micros
  prunedAt : Nat → Micros
  readFails : Nat → Bool := fun _ => false
  /-- Whether the storage fails to delete the file of a row. -/
  blobFails : Nat → Nat → Bool := fun _ _ => false
  deleteFails : Nat → Bool := fun _ => false
  pruneFails : Nat → Bool := fun _ => false
  /-- The order in which the trigger fires for the rows of a statement. -/
  order : Nat → List ErrorRow → List ErrorRow := fun _ rows => rows
  starts_le_read : ∀ k, startsAt ≤ readAt k
  starts_le_pruned : ∀ k, startsAt ≤ prunedAt k

section Pass

variable (R : Renderings) (days : Int) (chance : RetentionChance)

/-- A turn of the loop over the evidence.  It leaves with whether the pass goes on. -/
def evidenceTurn (k : Nat) (s : RetentionState) :
    LoopStep RetentionState (Bool × RetentionState) :=
  if chance.readFails k then .done (false, s)
  else
    let batch := expiredEvidence s.telemetry (chance.readAt k) days 500
    if batch.isEmpty then .done (true, s)
    else
      let deletable := batch.filter fun e => !chance.blobFails k e.id
      let trace := s.trace ++ deletable.map fun e => .blob e.storageKey
      -- without a row the statement is not sent
      if chance.deleteFails k && !deletable.isEmpty then
        .done (false, { s with trace := trace })
      else
        let s : RetentionState :=
          { telemetry := deleteEvidenceRows s.telemetry (deletable.map EvidenceRow.id)
            trace := trace ++ deletable.map .evidence }
        if deletable.isEmpty || batch.length < 500 then .done (true, s) else .again s

/-- A turn of the loop over the errors. -/
def pruneTurn (k : Nat) (s : RetentionState) :
    LoopStep RetentionState (Bool × RetentionState) :=
  if chance.pruneFails k then .done (false, s)
  else
    let now := chance.prunedAt k
    let gone := s.telemetry.selected (expiredErrors s.telemetry now days 5000)
    match deleteExpiredErrors R s.telemetry now days 5000 (chance.order k gone) with
    | .error _ => .done (false, s)
    | .ok t =>
      let s : RetentionState :=
        { telemetry := t
          trace := s.trace ++ gone.map fun r => .error r now }
      if gone.length < 5000 then .done (true, s) else .again s

/-- `retention_pass`: whether it comes to its end, and the tables after it. -/
def retentionPass (fuel : Nat) (t : TenantStore) : Option (Bool × RetentionState) :=
  (loop (evidenceTurn days chance) fuel 0 { telemetry := t }).bind fun r =>
    if r.1 then loop (pruneTurn R days chance) fuel 0 r.2 else some r

end Pass

/-! ## What the statements do -/

section Statements

variable {R : Renderings} {t t' : TenantStore} {days : Int} {now : Micros}

theorem retentionCutoff_mono {now now' : Micros} (h : now ≤ now') :
    retentionCutoff now days ≤ retentionCutoff now' days :=
  Int.sub_le_sub_right h _

/-- What has expired stays so. -/
theorem evidenceExpired_mono {now' : Micros} {e : EvidenceRow} (h : now ≤ now')
    (he : evidenceExpired t now days e = true) : evidenceExpired t now' days e = true := by
  obtain ⟨r, hr, hboth⟩ := List.any_eq_true.1 he
  rw [Bool.and_eq_true, decide_eq_true_eq, decide_eq_true_eq] at hboth
  refine List.any_eq_true.2 ⟨r, hr, ?_⟩
  rw [Bool.and_eq_true, decide_eq_true_eq, decide_eq_true_eq]
  exact ⟨hboth.1, lt_of_lt_of_le hboth.2 (retentionCutoff_mono h)⟩

theorem mem_expiredEvidence {e : EvidenceRow} {limit : Nat}
    (h : e ∈ expiredEvidence t now days limit) :
    e ∈ t.evidence ∧ evidenceExpired t now days e = true :=
  List.mem_filter.1 (mem_of_mem_firstBy h)

/-- A batch that is not full has all that has expired. -/
theorem mem_expiredEvidence_of_short {e : EvidenceRow} {limit : Nat} (he : e ∈ t.evidence)
    (hexpired : evidenceExpired t now days e = true)
    (hshort : (expiredEvidence t now days limit).length < limit) :
    e ∈ expiredEvidence t now days limit := by
  by_contra hnot
  have hfull := (firstBy_full (List.mem_filter.2 ⟨he, hexpired⟩) hnot).1
  exact hshort.ne hfull

theorem mem_deleteEvidenceRows {e : EvidenceRow} {ids : List Nat} :
    e ∈ (deleteEvidenceRows t ids).evidence ↔ e ∈ t.evidence ∧ e.id ∉ ids := by
  simp [deleteEvidenceRows]

/-- A deletion of some of the rows leaves fewer. -/
theorem length_deleteEvidenceRows {e : EvidenceRow} {ids : List Nat} (he : e ∈ t.evidence)
    (hid : e.id ∈ ids) : (deleteEvidenceRows t ids).evidence.length < t.evidence.length := by
  refine List.length_filter_lt_length_iff_exists.2 ⟨e, he, ?_⟩
  simp [hid]

/-- The rows that a retention delete takes have expired and have no evidence. -/
theorem of_selected_expired {r : ErrorRow} {limit : Nat}
    (h : r ∈ t.selected (expiredErrors t now days limit)) :
    r ∈ t.errors.rows ∧ r.createdAt < retentionCutoff now days ∧
      ∀ e ∈ t.evidence, e.errorId ≠ r.id := by
  obtain ⟨hr, hsel⟩ := List.mem_filter.1 h
  rw [expiredErrors, List.contains_iff_mem, List.mem_map] at hsel
  obtain ⟨q, hq, hid⟩ := hsel
  obtain ⟨hqrow, hboth⟩ := List.mem_filter.1 (List.mem_of_mem_take hq)
  obtain rfl := ErrorTable.eq_of_id hqrow hr hid
  rw [Bool.and_eq_true, decide_eq_true_eq, Bool.not_eq_true'] at hboth
  refine ⟨hr, hboth.1, fun e he heq => ?_⟩
  have hnone := List.any_eq_false.1 hboth.2 e he
  rw [heq] at hnone
  simp at hnone

/-- A retention delete that is not full leaves no expired error without evidence. -/
theorem selected_of_short {r : ErrorRow} {limit : Nat} (hr : r ∈ t.errors.rows)
    (hexpired : r.createdAt < retentionCutoff now days) (hfree : ∀ e ∈ t.evidence, e.errorId ≠ r.id)
    (hshort : (t.selected (expiredErrors t now days limit)).length < limit) :
    r ∈ t.selected (expiredErrors t now days limit) := by
  have hmem : r ∈ t.errors.rows.filter fun r => r.createdAt < now - days * microsPerDay &&
      !t.evidence.any fun e => e.errorId = r.id := by
    refine List.mem_filter.2 ⟨hr, ?_⟩
    rw [Bool.and_eq_true, decide_eq_true_eq, Bool.not_eq_true', List.any_eq_false]
    exact ⟨hexpired, fun e he => by simpa using hfree e he⟩
  have hnodup : ((t.errors.rows.filter fun r => r.createdAt < now - days * microsPerDay &&
      !t.evidence.any fun e => e.errorId = r.id).take limit).Nodup :=
    ((List.Nodup.of_map _ t.errors.ids_nodup).filter _).sublist (List.take_sublist _ _)
  have hsub : ∀ q ∈ (t.errors.rows.filter fun r => r.createdAt < now - days * microsPerDay &&
      !t.evidence.any fun e => e.errorId = r.id).take limit,
      q ∈ t.selected (expiredErrors t now days limit) := by
    intro q hq
    refine List.mem_filter.2 ⟨(List.mem_filter.1 (List.mem_of_mem_take hq)).1, ?_⟩
    rw [expiredErrors, List.contains_iff_mem]
    exact List.mem_map.2 ⟨q, hq, rfl⟩
  have hle := (List.subperm_of_subset hnodup hsub).length_le
  rw [List.length_take] at hle
  refine hsub r ?_
  rwa [List.take_of_length_le (by omega)]

/-- A retention delete that succeeds takes the rows it selects, and no evidence with them. -/
theorem deleteExpiredErrors_ok {limit : Nat} {order : List ErrorRow}
    (h : deleteExpiredErrors R t now days limit order = .ok t') :
    t'.errors = t.errors.delete (expiredErrors t now days limit) ∧ t'.evidence = t.evidence := by
  have hrows : t'.errors = (removeErrorRows t (expiredErrors t now days limit)).errors ∧
      t'.evidence = (removeErrorRows t (expiredErrors t now days limit)).evidence := by
    refine firings_invariant (fun u _ =>
      u.errors = (removeErrorRows t (expiredErrors t now days limit)).errors ∧
        u.evidence = (removeErrorRows t (expiredErrors t now days limit)).evidence) ?_
      ⟨rfl, rfl⟩ h
    intro u v old pending hu hfire
    obtain ⟨summaries, -, rfl⟩ := removeErrorFromReadModels_inv hfire
    exact hu
  refine ⟨hrows.1, hrows.2.trans (List.filter_eq_self.2 fun e he => ?_)⟩
  rw [Bool.not_eq_true', List.any_eq_false]
  intro r hr hgone
  rw [Bool.and_eq_true, decide_eq_true_eq] at hgone
  obtain ⟨-, -, hfree⟩ := of_selected_expired (List.mem_filter.2 ⟨hr, hgone.1⟩)
  exact hfree e he hgone.2.symm

end Statements

/-! ## The loops -/

/-- What has to come before a deletion: before a row of `evidence` its file, and before an
error all its evidence.  The error has expired. -/
def RetentionEvent.Justified (t : TenantStore) (days : Int) (before : List RetentionEvent) :
    RetentionEvent → Prop
  | .blob _ => True
  | .evidence e => .blob e.storageKey ∈ before
  | .error r now => r.createdAt < retentionCutoff now days ∧
      ∀ e ∈ t.evidence, e.errorId = r.id → .evidence e ∈ before

/-- The tables that a pass has made of those of a tenant. -/
structure Retained (t : TenantStore) (days : Int) (s : RetentionState) : Prop where
  ids_nodup : (s.telemetry.evidence.map EvidenceRow.id).Nodup
  evidence_sub : ∀ e ∈ s.telemetry.evidence, e ∈ t.evidence
  errors_sub : s.telemetry.errors.rows.Sublist t.errors.rows
  evidence_gone : ∀ e ∈ t.evidence, e ∈ s.telemetry.evidence ∨ .evidence e ∈ s.trace
  errors_gone : ∀ r ∈ t.errors.rows,
    r ∈ s.telemetry.errors.rows ∨ ∃ now, .error r now ∈ s.trace
  explained : Explained (RetentionEvent.Justified t days) s.trace

/-- No row of `evidence` is left whose error had expired at an instant. -/
def NoExpiredEvidence (t : TenantStore) (now : Micros) (days : Int) : Prop :=
  ∀ e ∈ t.evidence, evidenceExpired t now days e = false

/-- No error is left that had expired and has no evidence. -/
def NoExpiredError (t : TenantStore) (now : Micros) (days : Int) : Prop :=
  ∀ r ∈ t.errors.rows, r.createdAt < retentionCutoff now days → ∃ e ∈ t.evidence, e.errorId = r.id

/-- A statement of a pass has failed, which leaves the tables as they are: a read, a deletion
of rows of `evidence`, or one of errors, which the database may also refuse. -/
inductive StatementFailed (R : Renderings) (days : Int) (chance : RetentionChance)
    (t : TenantStore) : Prop
  | read (k : Nat) : chance.readFails k = true → StatementFailed R days chance t
  | delete (k : Nat) : chance.deleteFails k = true → StatementFailed R days chance t
  | prune (k : Nat) : chance.pruneFails k = true → StatementFailed R days chance t
  | refused (k : Nat) (error : SqlError) :
      deleteExpiredErrors R t (chance.prunedAt k) days 5000 (chance.order k
        (t.selected (expiredErrors t (chance.prunedAt k) days 5000))) = .error error →
      StatementFailed R days chance t

section Loops

variable {R : Renderings} {t : TenantStore} {days : Int} {chance : RetentionChance}
  {s : RetentionState}

theorem RetentionEvent.justified_mono (before more : List RetentionEvent) (e : RetentionEvent)
    (h : e.Justified t days before) : e.Justified t days (before ++ more) := by
  cases e with
  | blob key => trivial
  | evidence e => exact List.mem_append_left more h
  | error r now => exact ⟨h.1, fun e he heq => List.mem_append_left more (h.2 e he heq)⟩

/-- Files go. -/
theorem Retained.blobs (h : Retained t days s) (gone : List EvidenceRow) :
    Retained t days { s with
      trace := s.trace ++ gone.map fun e => RetentionEvent.blob e.storageKey } where
  ids_nodup := h.ids_nodup
  evidence_sub := h.evidence_sub
  errors_sub := h.errors_sub
  evidence_gone e he := (h.evidence_gone e he).imp_right (List.mem_append_left _)
  errors_gone r hr := (h.errors_gone r hr).imp_right fun ⟨now, hnow⟩ =>
    ⟨now, List.mem_append_left _ hnow⟩
  explained := h.explained.append RetentionEvent.justified_mono fun e he => by
    obtain ⟨row, -, rfl⟩ := List.mem_map.1 he
    trivial

/-- After their files the rows go. -/
theorem Retained.rows (h : Retained t days s) {gone : List EvidenceRow}
    (hsub : ∀ e ∈ gone, e ∈ s.telemetry.evidence)
    (hfiles : ∀ e ∈ gone, .blob e.storageKey ∈ s.trace) :
    Retained t days
      { telemetry := deleteEvidenceRows s.telemetry (gone.map EvidenceRow.id)
        trace := s.trace ++ gone.map RetentionEvent.evidence } where
  ids_nodup := h.ids_nodup.sublist (List.filter_sublist.map _)
  evidence_sub e he := h.evidence_sub e (mem_deleteEvidenceRows.1 he).1
  errors_sub := h.errors_sub
  evidence_gone e he := by
    rcases h.evidence_gone e he with hkept | hgone
    · by_cases hid : e.id ∈ gone.map EvidenceRow.id
      · right
        obtain ⟨e', he', hsame⟩ := List.mem_map.1 hid
        obtain rfl := List.inj_on_of_nodup_map h.ids_nodup (hsub e' he') hkept hsame
        exact List.mem_append_right _ (List.mem_map.2 ⟨e', he', rfl⟩)
      · exact .inl (mem_deleteEvidenceRows.2 ⟨hkept, hid⟩)
    · exact .inr (List.mem_append_left _ hgone)
  errors_gone r hr := (h.errors_gone r hr).imp_right fun ⟨now, hnow⟩ =>
    ⟨now, List.mem_append_left _ hnow⟩
  explained := h.explained.append RetentionEvent.justified_mono fun e he => by
    obtain ⟨row, hrow, rfl⟩ := List.mem_map.1 he
    exact hfiles row hrow

variable (R) in
/-- A turn over the evidence that goes on has deleted a row, and the loop leaves without a
failure only when no evidence is expired any more. -/
theorem evidenceTurn_keeps (k : Nat) (h : Retained t days s) :
    (evidenceTurn days chance k s).Keeps
      (fun s' => Retained t days s' ∧
        s'.telemetry.evidence.length < s.telemetry.evidence.length)
      fun r => Retained t days r.2 ∧ (r.1 = false → StatementFailed R days chance r.2.telemetry) ∧
        (r.1 = true → (∀ k id, chance.blobFails k id = false) →
          NoExpiredEvidence r.2.telemetry chance.startsAt days) := by
  have hgone : ∀ e ∈ (expiredEvidence s.telemetry (chance.readAt k) days 500).filter
      (fun e => !chance.blobFails k e.id), e ∈ s.telemetry.evidence := fun e he =>
    (mem_expiredEvidence (List.mem_filter.1 he).1).1
  have hblobs := h.blobs ((expiredEvidence s.telemetry (chance.readAt k) days 500).filter
    fun e => !chance.blobFails k e.id)
  have hrows := hblobs.rows hgone fun e he =>
    List.mem_append_right _ (List.mem_map.2 ⟨e, he, rfl⟩)
  -- what is expired at the start of the pass is expired when a batch is read
  have hexpired : ∀ e, evidenceExpired s.telemetry chance.startsAt days e = true →
      evidenceExpired s.telemetry (chance.readAt k) days e = true := fun e =>
    evidenceExpired_mono (chance.starts_le_read k)
  unfold evidenceTurn
  split
  · rename_i hread
    exact ⟨h, fun _ => .read k hread, fun hfinished => by cases hfinished⟩
  · dsimp only
    split
    · rename_i hempty
      refine ⟨h, fun hstopped => (by cases hstopped), fun _ _ e he => ?_⟩
      rw [Bool.eq_false_iff]
      intro hthis
      have hnil := List.isEmpty_iff.1 hempty
      have hmem : e ∈ expiredEvidence s.telemetry (chance.readAt k) days 500 := by
        refine mem_expiredEvidence_of_short he (hexpired e hthis) ?_
        rw [hnil]
        exact Nat.succ_pos _
      rw [hnil] at hmem
      cases hmem
    · rename_i hbatch
      split
      · rename_i hdelete
        exact ⟨hblobs, fun _ => .delete k (Bool.and_eq_true_iff.1 hdelete).1,
          fun hfinished => by cases hfinished⟩
      · split
        · rename_i hleaves
          refine ⟨hrows, fun hstopped => (by cases hstopped), fun _ hworks e he => ?_⟩
          have hall : (expiredEvidence s.telemetry (chance.readAt k) days 500).filter
              (fun e => !chance.blobFails k e.id) =
                expiredEvidence s.telemetry (chance.readAt k) days 500 :=
            List.filter_eq_self.2 fun e _ => by rw [hworks k e.id]; rfl
          rw [hall, Bool.or_eq_true, decide_eq_true_eq] at hleaves
          have hshort := hleaves.resolve_left hbatch
          obtain ⟨hkept, hid⟩ := mem_deleteEvidenceRows.1 he
          rw [Bool.eq_false_iff]
          intro hthis
          rw [hall] at hid
          exact hid (List.mem_map.2
            ⟨e, mem_expiredEvidence_of_short hkept (hexpired e hthis) hshort, rfl⟩)
        · rename_i hgoes
          rw [Bool.or_eq_true, not_or] at hgoes
          obtain ⟨e, he⟩ := List.exists_mem_of_ne_nil _ (mt List.isEmpty_iff.2 hgoes.1)
          exact ⟨hrows, length_deleteEvidenceRows (hgone e he) (List.mem_map.2 ⟨e, he, rfl⟩)⟩

variable (R chance) in
/-- A turn over the errors that goes on has deleted a row, and the loop leaves without a
failure only when no error without evidence is expired any more. -/
theorem pruneTurn_keeps (k : Nat) (h : Retained t days s) :
    (pruneTurn R days chance k s).Keeps
      (fun s' => (Retained t days s' ∧ (NoExpiredEvidence s.telemetry chance.startsAt days →
          NoExpiredEvidence s'.telemetry chance.startsAt days)) ∧
        s'.telemetry.errors.rows.length < s.telemetry.errors.rows.length)
      fun r => (Retained t days r.2 ∧ (NoExpiredEvidence s.telemetry chance.startsAt days →
          NoExpiredEvidence r.2.telemetry chance.startsAt days)) ∧
        (r.1 = false → StatementFailed R days chance r.2.telemetry) ∧
        (r.1 = true → NoExpiredError r.2.telemetry chance.startsAt days) := by
  unfold pruneTurn
  split
  · rename_i hprune
    exact ⟨⟨h, id⟩, fun _ => .prune k hprune, fun hfinished => by cases hfinished⟩
  · dsimp only
    split
    · rename_i error hrefused
      exact ⟨⟨h, id⟩, fun _ => .refused k error hrefused, fun hfinished => by cases hfinished⟩
    · rename_i t' hdelete
      obtain ⟨herrors, hevidence⟩ := deleteExpiredErrors_ok hdelete
      have hretained : Retained t days
          { telemetry := t'
            trace := s.trace ++ (s.telemetry.selected
              (expiredErrors s.telemetry (chance.prunedAt k) days 5000)).map fun r =>
                RetentionEvent.error r (chance.prunedAt k) } := by
        refine ⟨?_, ?_, ?_, fun e he => ?_, fun r hr => ?_, ?_⟩
        · rw [hevidence]
          exact h.ids_nodup
        · rw [hevidence]
          exact h.evidence_sub
        · rw [herrors]
          exact List.filter_sublist.trans h.errors_sub
        · rw [hevidence]
          exact (h.evidence_gone e he).imp_right (List.mem_append_left _)
        · rcases h.errors_gone r hr with hkept | ⟨now, hgone⟩
          · by_cases hsel : expiredErrors s.telemetry (chance.prunedAt k) days 5000 r = true
            · exact .inr ⟨chance.prunedAt k, List.mem_append_right _
                (List.mem_map.2 ⟨r, List.mem_filter.2 ⟨hkept, hsel⟩, rfl⟩)⟩
            · left
              rw [herrors]
              exact List.mem_filter.2 ⟨hkept, by simpa using hsel⟩
          · exact .inr ⟨now, List.mem_append_left _ hgone⟩
        · refine h.explained.append RetentionEvent.justified_mono fun e he => ?_
          obtain ⟨r, hr, rfl⟩ := List.mem_map.1 he
          obtain ⟨-, hexpired, hfree⟩ := of_selected_expired hr
          exact ⟨hexpired, fun e he heq =>
            (h.evidence_gone e he).resolve_left fun hkept => hfree e hkept heq⟩
      have hclean : NoExpiredEvidence s.telemetry chance.startsAt days →
          NoExpiredEvidence t' chance.startsAt days := by
        intro hnone e he
        rw [hevidence] at he
        have hthis := List.any_eq_false.1 (hnone e he)
        refine List.any_eq_false.2 fun r hr => hthis r ?_
        rw [herrors] at hr
        exact (List.mem_filter.1 hr).1
      split
      · rename_i hshort
        refine ⟨⟨hretained, hclean⟩, fun hstopped => (by cases hstopped),
          fun _ r hr hexpired => ?_⟩
        dsimp only at hr ⊢
        rw [herrors] at hr
        obtain ⟨hrow, hkept⟩ := List.mem_filter.1 hr
        by_contra hnone
        push Not at hnone
        rw [hevidence] at hnone
        have hcut := lt_of_lt_of_le hexpired (retentionCutoff_mono (chance.starts_le_pruned k))
        have hsel := (List.mem_filter.1 (selected_of_short hrow hcut hnone hshort)).2
        rw [hsel] at hkept
        cases hkept
      · rename_i hgoes
        refine ⟨⟨hretained, hclean⟩, ?_⟩
        dsimp only
        have hpos : 0 < (s.telemetry.selected
            (expiredErrors s.telemetry (chance.prunedAt k) days 5000)).length := by omega
        obtain ⟨r, hr⟩ := List.exists_mem_of_length_pos hpos
        obtain ⟨hrow, hsel⟩ := List.mem_filter.1 hr
        rw [herrors]
        exact List.length_filter_lt_length_iff_exists.2 ⟨r, hrow, by simp [hsel]⟩

end Loops

/-- A tenant with one error of the first instant, and a file of it. -/
def oneOldError : TenantStore where
  errors := .insert .empty [⟨"shop", ⟨"sig", "boom", [], .empty⟩, none, 0⟩]
  evidence := [⟨1, "shop", 1, "evidence/shop/1", 4⟩]

/-- A pass at an instant, in which nothing fails. -/
def quietPass (now : Micros) : RetentionChance where
  startsAt := now
  readAt _ := now
  prunedAt _ := now
  starts_le_read _ := le_refl _
  starts_le_pruned _ := le_refl _

/-- No value is rendered. -/
def noRenderings : Renderings := ⟨fun _ => "", fun _ => "", fun _ => ""⟩

/-- The file, its row and the error go in one pass, in this order. -/
example (R : Renderings) :
    (retentionPass R 30 (quietPass (31 * microsPerDay)) 3 oneOldError).map (fun r =>
      (r.1, r.2.telemetry.evidence.length, r.2.telemetry.errors.rows.length, r.2.trace.length)) =
      some (true, 0, 0, 3) := rfl

end ReproitCloud
