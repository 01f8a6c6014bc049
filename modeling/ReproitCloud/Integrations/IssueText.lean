import ReproitCloud.Telemetry.Buckets
import ReproitCloud.Triage.Grouping

/-!
# What an issue tells

The text of an issue is made from the oldest and the newest record of a bucket: the signature,
the normalized message, the actions that a runner repeats, and the builds.  `RecordsAlike` is
what two records have in common when they differ in nothing that is filed: labels, screens on the
way, steps that no runner repeats, numbers and ids in the message, and what else the context
holds may all be different.

Two records that are alike get the same bucket id (`bucketId_alike`), so two histories of posts
that are alike leave the same buckets with records that are alike at the same places
(`logsAlike_run`).  Hence the text, for each of the three callers that file an issue, is the same
after both (`issue_text_hides`).
-/

namespace ReproitCloud

open Lib

/-! ## The text -/

/-- `normalized_message`. -/
def normalizedMessage (rec : ErrorRec) : String :=
  String.ofList (normalizeMessage rec.message.toList)

/-- `crash_summary`. -/
def crashSummary (rec : ErrorRec) : String :=
  let head := (normalizedMessage rec).toList.take 80
  if head.isEmpty then rec.sig else String.ofList head ++ " (" ++ rec.sig ++ ")"

/-- `build_of`. -/
def buildOf (rec : ErrorRec) : Json :=
  .object (["version", "commit"].filterMap fun k =>
    (((rec.context.get? "build").bind fun build => build.get k).bind Json.asStr).map fun v =>
      (k, .string v))

/-- `lineage`. -/
def lineage (oldest newest : ErrorRec) : Json :=
  .object [("firstSeen", buildOf oldest), ("lastSeen", buildOf newest)]

/-- `build_str`. -/
def buildStr (lineage : Json) (side : String) : String :=
  let b := (lineage.get side).getD .null
  match (b.get "version").bind Json.asStr, (b.get "commit").bind Json.asStr with
  | some v, some c => v ++ " (" ++ c ++ ")"
  | some v, none => v
  | none, some c => c
  | none, none => "unknown"

/-- The title and the body of an issue. -/
structure IssueText where
  title : String
  body : String
deriving DecidableEq, Repr

/-- The replay of an issue. -/
def replayMd (replay : List String) : String :=
  if replay.isEmpty then "_(no executable replay steps; reproduces on load)_"
  else "\n".intercalate (replay.zipIdx.map fun (a, i) => toString (i + 1) ++ ". `" ++ a ++ "`")

/-- `issue_body`. -/
def issueBody (app bucket : String) (oldest newest : ErrorRec) : IssueText where
  title := "[reproit] " ++ bucket ++ ": " ++ crashSummary newest
  body := "Auto-filed by **reproit** for production bug bucket `" ++ bucket ++ "` in app `" ++
    app ++ "`.\n" ++
    "\n" ++
    "This is a PII-safe repro package: derived signatures and an executable replay only, " ++
    "never user values.\n" ++
    "\n" ++
    "**Crash signature:** `" ++ newest.sig ++ "`\n" ++
    "**Normalized message:** " ++ normalizedMessage newest ++ "\n" ++
    "**First seen:** " ++ buildStr (lineage oldest newest) "firstSeen" ++ "\n" ++
    "**Last seen:** " ++ buildStr (lineage oldest newest) "lastSeen" ++ "\n" ++
    "\n" ++
    "**Replay actions:**\n" ++ replayMd (replayActions newest) ++ "\n" ++
    "\n" ++
    "**Reproduce locally:**\n" ++
    "```sh\n" ++
    "reproit " ++ bucket ++ "\n" ++
    "```\n" ++
    "reproit will download the replay package, synthesize a PII-safe fixture, replay the " ++
    "actions deterministically, and post the verdict back. A clean pull request verifies " ++
    "the candidate fix. This issue closes only after that commit is deployed and production " ++
    "confirms the bug stays gone."

/-! ## Who files it -/

/-- `trim_start_matches("bug_")`. -/
def trimBug : List Char → List Char
  | 'b' :: 'u' :: 'g' :: '_' :: rest => trimBug rest
  | cs => cs

/-- `bucket_id`. -/
def bucketIdOf (sha256 : ByteArray → List Char) (rec : ErrorRec) : String :=
  match findingIdentity rec with
  | some identity => "bkt_" ++ String.ofList (trimBug (structuralBugId sha256 identity).toList)
  | none => derivedBucketId sha256 rec

/-- The issue a drain files for an item of the outbox. -/
def drainedIssue (t : TenantStore) (app bucket : String) : Option IssueText :=
  (bucketEndpoints t app bucket).bind fun endpoints =>
    if isTesterCapture endpoints.2 then none
    else some (issueBody app bucket endpoints.1 endpoints.2)

/-- The ends of what `errors_for_bucket` reads. -/
def scannedEndpoints (t : TenantStore) (app bucket : String) (cap : Nat) :
    Option (ErrorRec × ErrorRec) :=
  (errorsForBucket t app bucket cap).head?.bind fun oldest =>
    (errorsForBucket t app bucket cap).getLast?.map fun newest => (oldest.2.2, newest.2.2)

/-- The issue `post_ticket` files. -/
def askedIssue (t : TenantStore) (app bucket : String) (cap : Nat) : Option IssueText :=
  (scannedEndpoints t app bucket cap).map fun endpoints =>
    issueBody app bucket endpoints.1 endpoints.2

/-- The issue `post_replay_results` files when a capture of a tester was reproduced. -/
def confirmedIssue (t : TenantStore) (app bucket : String) (cap : Nat) : Option IssueText :=
  (scannedEndpoints t app bucket cap).bind fun endpoints =>
    if isTesterCapture endpoints.2 then some (issueBody app bucket endpoints.1 endpoints.2)
    else none

/-- A caller goes on to file exactly when it has a text. -/
theorem files_iff_text (E : TicketEnv) (s : TicketStore) (item : WorkItem) (rest : List WorkItem)
    (chance : TicketChance) (app bucket : String) :
    (drainNext E s item rest chance.issue true .reading =
        some (.draining item rest (.filing .resolving)) ↔
      (drainedIssue s.telemetry item.appId item.bucketId).isSome = true) ∧
    (TicketOp.next E s chance true (.postReading app bucket) =
        some (.filing app bucket .resolving) ↔
      (askedIssue s.telemetry app bucket E.maxErrorScan).isSome = true) ∧
    (TicketOp.next E s chance true (.confirmReading app bucket) =
        some (.filing app bucket .resolving) ↔
      (confirmedIssue s.telemetry app bucket E.maxErrorScan).isSome = true) := by
  refine ⟨?_, ?_, ?_⟩
  · rw [drainNext, drainedIssue]
    cases bucketEndpoints s.telemetry item.appId item.bucketId with
    | none => simp
    | some endpoints => cases htester : isTesterCapture endpoints.2 <;> simp [htester]
  all_goals
    simp only [TicketOp.next, askedIssue, confirmedIssue, scannedEndpoints, Bool.true_and]
    cases errorsForBucket s.telemetry app bucket E.maxErrorScan with
    | nil => simp
    | cons oldest later =>
      have hlast : (oldest :: later).getLast? = some ((oldest :: later).getLast (by simp)) :=
        List.getLast?_eq_getLast_of_ne_nil (by simp)
      rw [hlast]
      cases htester : isTesterCapture ((oldest :: later).getLast (by simp)).2.2 <;> simp [htester]

/-! ## Histories that are alike -/

/-- Paths with the same steps for a runner.  What they are labelled, on which screens they are
taken, and what comes between them is not compared. -/
inductive PathsAlike : List Step → List Step → Prop
  | nil : PathsAlike [] []
  | replayed {a b : Step} {p q : List Step} :
      a.action = b.action → PathsAlike p q → PathsAlike (a :: p) (b :: q)
  | left {a : Step} {p q : List Step} :
      isReplayAction a.action.toList = false → PathsAlike p q → PathsAlike (a :: p) q
  | right {b : Step} {p q : List Step} :
      isReplayAction b.action.toList = false → PathsAlike p q → PathsAlike p (b :: q)

/-- Records that differ in nothing that is filed. -/
structure RecordsAlike (a b : ErrorRec) : Prop where
  sig : a.sig = b.sig
  message : normalizeMessage a.message.toList = normalizeMessage b.message.toList
  entry : (a.path.head?.map Step.sig).getD "" = (b.path.head?.map Step.sig).getD ""
  path : PathsAlike a.path b.path
  build : buildOf a = buildOf b
  identity : a.context.get? "findingIdentity" = b.context.get? "findingIdentity"
  oracle : a.context.get? "oracle" = b.context.get? "oracle"

/-- Rows of records that are alike, of the same post. -/
structure RowsAlike (a b : ErrorRow) : Prop where
  id : a.id = b.id
  appId : a.appId = b.appId
  bucketId : a.bucketId = b.bucketId
  createdAt : a.createdAt = b.createdAt
  record : RecordsAlike a.record b.record

/-- Batches of records that are alike. -/
structure BatchesAlike (b c : IngestBatch) : Prop where
  appId : b.appId = c.appId
  batchId : b.batchId = c.batchId
  empty : b.isEmpty = c.isEmpty
  errors : List.Forall₂ RecordsAlike b.errors c.errors

/-- Transactions that are alike: a deletion takes rows that are alike, or none of the two. -/
inductive EventsAlike : TelemetryEvent → TelemetryEvent → Prop
  | ingest (now : Micros) {b c : IngestBatch} :
      BatchesAlike b c → EventsAlike (.ingest now b) (.ingest now c)
  | deleteErrors {p q : ErrorRow → Bool} :
      (∀ a b, RowsAlike a b → p a = q b) → EventsAlike (.deleteErrors p) (.deleteErrors q)
  | deleteSample (app bucket : String) (ids : List Nat) :
      EventsAlike (.deleteSample app bucket ids) (.deleteSample app bucket ids)
  | deleteProject (app : String) : EventsAlike (.deleteProject app) (.deleteProject app)

/-- Logs of rows that are alike. -/
structure LogsAlike (l m : ErrorLog) : Prop where
  rows : List.Forall₂ RowsAlike l.errors.rows m.errors.rows
  nextId : l.errors.nextId = m.errors.nextId
  batches : l.batches = m.batches

/-! ## The text of records that are alike -/

theorem PathsAlike.replay {p q : List Step} (h : PathsAlike p q) :
    (p.map Step.action).filter (fun a => isReplayAction a.toList) =
      (q.map Step.action).filter fun a => isReplayAction a.toList := by
  induction h with
  | nil => rfl
  | replayed haction _ ih => simp only [List.map_cons, List.filter_cons, haction, ih]
  | left hdropped _ ih => simpa [hdropped] using ih
  | right hdropped _ ih => simpa [hdropped] using ih

namespace RecordsAlike

variable {a b c d : ErrorRec}

theorem isTesterCapture_eq (h : RecordsAlike a b) : isTesterCapture a = isTesterCapture b := by
  rw [isTesterCapture, isTesterCapture, h.oracle]

/-- The text reads nothing else of the two records. -/
theorem issueBody_eq (h : RecordsAlike a b) (h' : RecordsAlike c d) (app bucket : String) :
    issueBody app bucket a c = issueBody app bucket b d := by
  have hmessage : normalizedMessage c = normalizedMessage d :=
    congrArg String.ofList h'.message
  have hreplay : replayActions c = replayActions d := h'.path.replay
  have hlineage : lineage a c = lineage b d := by rw [lineage, lineage, h.build, h'.build]
  simp only [issueBody, crashSummary, hmessage, hreplay, hlineage, h'.sig]

/-- Nor does the bucket id. -/
theorem bucketId_alike (h : RecordsAlike a b) (sha256 : ByteArray → List Char) :
    bucketIdOf sha256 a = bucketIdOf sha256 b := by
  have hidentity : findingIdentity a = findingIdentity b := by
    rw [findingIdentity, findingIdentity, h.identity]
  have hderived : derivedBucketId sha256 a = derivedBucketId sha256 b := by
    simp only [derivedBucketId, derivedInput, h.message, h.sig, h.entry]
  rw [bucketIdOf, bucketIdOf, hidentity, hderived]

end RecordsAlike

/-! ## The logs -/

section Logs

variable {sha256 : ByteArray → List Char} {P : Platform} {l m : ErrorLog}

theorem numbered_alike (hP : P.bucketId = bucketIdOf sha256) (now : Micros) (app : String)
    {xs ys : List ErrorRec} (h : List.Forall₂ RecordsAlike xs ys) (start : Nat) :
    List.Forall₂ RowsAlike (numbered start (xs.map (newError P now app)))
      (numbered start (ys.map (newError P now app))) := by
  induction h generalizing start with
  | nil => exact .nil
  | @cons x y xs ys hrecord _ ih =>
    have hbucket : P.bucketId x = P.bucketId y := by rw [hP, hrecord.bucketId_alike]
    exact .cons ⟨rfl, rfl, congrArg some hbucket, rfl, hrecord⟩ (ih (start + 1))

theorem take_alike (hP : P.bucketId = bucketIdOf sha256) (h : LogsAlike l m) (now : Micros)
    {b c : IngestBatch} (hbatch : BatchesAlike b c) :
    LogsAlike (l.take P now b) (m.take P now c) := by
  rw [ErrorLog.take, ErrorLog.take, hbatch.empty, h.batches, hbatch.appId, hbatch.batchId]
  split
  · exact h
  · have hrows := numbered_alike hP now c.appId hbatch.errors m.errors.nextId
    refine ⟨?_, ?_, rfl⟩
    · show List.Forall₂ RowsAlike (l.errors.rows ++ numbered l.errors.nextId _)
        (m.errors.rows ++ numbered m.errors.nextId _)
      rw [h.nextId]
      exact List.rel_append h.rows hrows
    · show l.errors.nextId + _ = m.errors.nextId + _
      rw [h.nextId, List.length_map, List.length_map, hbatch.errors.length_eq]

theorem delete_alike (h : LogsAlike l m) {p q : ErrorRow → Bool}
    (hpq : ∀ a b, RowsAlike a b → p a = q b) :
    List.Forall₂ RowsAlike (l.errors.delete p).rows (m.errors.delete q).rows := by
  refine List.rel_filter (fun {a b} hrow => ?_) h.rows
  simp only [hpq a b hrow]

/-- Transactions that are alike keep the logs alike. -/
theorem logsAlike_after (hP : P.bucketId = bucketIdOf sha256) (h : LogsAlike l m)
    {e f : TelemetryEvent} (hevents : EventsAlike e f) : LogsAlike (l.after P e) (m.after P f) := by
  cases hevents with
  | ingest now hbatch => exact take_alike hP h now hbatch
  | deleteErrors hpq => exact ⟨delete_alike h hpq, h.nextId, h.batches⟩
  | deleteSample app bucket ids =>
    refine ⟨delete_alike h fun a b hrow => ?_, h.nextId, h.batches⟩
    rw [sampleErrors, sampleErrors, ErrorRow.inBucket, ErrorRow.inBucket, hrow.appId,
      hrow.bucketId, hrow.id]
  | deleteProject app =>
    have hbatches : l.batches.delete (fun k _ => k.1 = app) =
        m.batches.delete fun k _ => k.1 = app := by rw [h.batches]
    exact ⟨delete_alike h fun a b hrow => by rw [hrow.appId], h.nextId, hbatches⟩

theorem logsAlike_run (hP : P.bucketId = bucketIdOf sha256) {es fs : List TelemetryEvent}
    (hevents : List.Forall₂ EventsAlike es fs) (h : LogsAlike l m) :
    LogsAlike (es.foldl (ErrorLog.after P) l) (fs.foldl (ErrorLog.after P) m) := by
  induction hevents generalizing l m with
  | nil => exact h
  | cons hevent _ ih => exact ih (logsAlike_after hP h hevent)

end Logs

/-! ## The ends of a bucket -/

/-- The records at the ends of some rows. -/
def rowEnds (rows : List ErrorRow) : Option (ErrorRec × ErrorRec) :=
  rows.head?.bind fun oldest => rows.getLast?.map fun newest => (oldest.record, newest.record)

/-- The two ends are alike, or neither is there. -/
def EndsAlike : Option (ErrorRec × ErrorRec) → Option (ErrorRec × ErrorRec) → Prop :=
  Option.Rel fun a b => RecordsAlike a.1 b.1 ∧ RecordsAlike a.2 b.2

section Ends

variable {t u : TenantStore} {app bucket : String}

theorem rowEnds_alike {xs ys : List ErrorRow} (h : List.Forall₂ RowsAlike xs ys) :
    EndsAlike (rowEnds xs) (rowEnds ys) := by
  cases h with
  | nil => exact .none
  | @cons x y xs ys hrow hrows =>
    have hlast : RowsAlike ((x :: xs).getLast (List.cons_ne_nil x xs))
        ((y :: ys).getLast (List.cons_ne_nil y ys)) := by
      induction hrows generalizing x y with
      | nil => exact hrow
      | cons hnext _ ih => simpa using ih hnext
    rw [rowEnds, rowEnds, List.head?_cons, List.head?_cons,
      List.getLast?_eq_getLast_of_ne_nil (List.cons_ne_nil x xs),
      List.getLast?_eq_getLast_of_ne_nil (List.cons_ne_nil y ys)]
    exact .some ⟨hrow.record, hlast.record⟩

theorem bucketRows_alike (h : LogsAlike t.log u.log) (app bucket : String) :
    List.Forall₂ RowsAlike (t.bucketRows app bucket) (u.bucketRows app bucket) := by
  refine List.rel_filter (fun {a b} hrow => ?_) h.rows
  simp only [ErrorRow.inBucket, hrow.appId, hrow.bucketId]

/-- The summary names the ends of the rows. -/
theorem bucketEndpoints_of_agrees (h : SummariesAgree t) (app bucket : String) :
    bucketEndpoints t app bucket = rowEnds (t.bucketRows app bucket) := by
  rw [bucketEndpoints]
  cases hs : t.bucketSummaries.get? (app, bucket) with
  | none =>
    have hnone := h app bucket
    rw [hs] at hnone
    rw [show t.bucketRows app bucket = [] from hnone]
    rfl
  | some s =>
    obtain ⟨first, last, hfirst, hlast, hrollup⟩ := rollupOf_of_agrees h hs
    rw [rowEnds, hfirst, hlast, Option.bind_some, hrollup]
    rfl

theorem scannedEndpoints_eq (t : TenantStore) (app bucket : String) (cap : Nat) :
    scannedEndpoints t app bucket cap = rowEnds ((t.bucketRows app bucket).take cap) := by
  rw [scannedEndpoints, errorsForBucket, rowEnds, List.head?_map, List.getLast?_map]
  cases ((t.bucketRows app bucket).take cap).head? with
  | none => rfl
  | some first => cases ((t.bucketRows app bucket).take cap).getLast? <;> rfl

/-- Whoever reads the ends cannot tell. -/
theorem EndsAlike.congr {x y : Option (ErrorRec × ErrorRec)} (h : EndsAlike x y)
    {f : ErrorRec × ErrorRec → Option IssueText}
    (hf : ∀ a b c d, RecordsAlike a b → RecordsAlike c d → f (a, c) = f (b, d)) :
    x.bind f = y.bind f := by
  cases h with
  | none => rfl
  | some hends => exact hf _ _ _ _ hends.1 hends.2

end Ends

/-- Histories of posts and deletions that differ in nothing that is filed lead to the same
issues. -/
theorem issue_text_hides {sha256 : ByteArray → List Char} {P : Platform}
    {es fs : List TelemetryEvent} {t u : TenantStore} (hP : P.bucketId = bucketIdOf sha256)
    (hevents : List.Forall₂ EventsAlike es fs) (ht : Run (TelemetryStep P) .empty es t)
    (hu : Run (TelemetryStep P) .empty fs u) (app bucket : String) (cap : Nat) :
    drainedIssue t app bucket = drainedIssue u app bucket ∧
      askedIssue t app bucket cap = askedIssue u app bucket cap ∧
      confirmedIssue t app bucket cap = confirmedIssue u app bucket cap := by
  have hlogs : LogsAlike t.log u.log := by
    rw [log_run ht, log_run hu]
    exact logsAlike_run hP hevents ⟨.nil, rfl, rfl⟩
  have hrows := bucketRows_alike hlogs app bucket
  have hends : EndsAlike (bucketEndpoints t app bucket) (bucketEndpoints u app bucket) := by
    rw [bucketEndpoints_of_agrees
        (summariesAgree_run (readModelAgrees_empty P.toRenderings).summaries ht),
      bucketEndpoints_of_agrees
        (summariesAgree_run (readModelAgrees_empty P.toRenderings).summaries hu)]
    exact rowEnds_alike hrows
  have hscanned : EndsAlike (scannedEndpoints t app bucket cap)
      (scannedEndpoints u app bucket cap) := by
    rw [scannedEndpoints_eq, scannedEndpoints_eq]
    exact rowEnds_alike (List.forall₂_take cap hrows)
  refine ⟨?_, ?_, ?_⟩
  · exact hends.congr fun a b c d hoff hnewest => by
      rw [hnewest.isTesterCapture_eq, hoff.issueBody_eq hnewest]
  · rw [askedIssue, askedIssue, Option.map_eq_bind, Option.map_eq_bind]
    exact hscanned.congr fun a b c d hoff hnewest =>
      congrArg some (hoff.issueBody_eq hnewest app bucket)
  · exact hscanned.congr fun a b c d hoff hnewest => by
      rw [hnewest.isTesterCapture_eq, hoff.issueBody_eq hnewest]

/-- A platform with the content-addressed ids of a digest. -/
def contentIds : Platform :=
  { oneBucket with bucketId := bucketIdOf fun _ => "dd250179f692".toList }

/-- An order that was lost. -/
def orderLost : ErrorRec :=
  ⟨"checkout", "order 17 lost", [⟨"cart", "tap:key:pay", none⟩], .empty⟩

/-- Another, with the name of the customer on the button and in the context. -/
def annsOrderLost : ErrorRec :=
  ⟨"checkout", "order 4211 lost",
    [⟨"cart", "tap:key:pay", some "Pay as Ann"⟩, ⟨"receipt", "auto", none⟩],
    Table.empty.insertIgnore "customer" (.string "ann")⟩

/-- A batch with one error. -/
def postOf (record : ErrorRec) : IngestBatch where
  appId := "shop"
  errors := [record]
  batchId := "batch-1"

theorem issue_text_hides_customer :
    ∃ t u, Run (TelemetryStep contentIds) .empty [.ingest 0 (postOf orderLost)] t ∧
      Run (TelemetryStep contentIds) .empty [.ingest 0 (postOf annsOrderLost)] u ∧
      drainedIssue t "shop" "bkt_dd250179f692" = drainedIssue u "shop" "bkt_dd250179f692" := by
  obtain ⟨⟨_, t⟩, ht⟩ := ok_of_isOk
    (by decide : (ingestBatch contentIds .empty 0 (postOf orderLost)).isOk = true)
  obtain ⟨⟨_, u⟩, hu⟩ := ok_of_isOk
    (by decide : (ingestBatch contentIds .empty 0 (postOf annsOrderLost)).isOk = true)
  have hpath : PathsAlike orderLost.path annsOrderLost.path :=
    .replayed rfl (.right (by decide) .nil)
  have hrecords : RecordsAlike orderLost annsOrderLost :=
    ⟨rfl, by decide, rfl, hpath, rfl, rfl, rfl⟩
  have hevents : List.Forall₂ EventsAlike [.ingest 0 (postOf orderLost)]
      [.ingest 0 (postOf annsOrderLost)] :=
    .cons (.ingest 0 ⟨rfl, rfl, rfl, .cons hrecords .nil⟩) .nil
  have hrun : Run (TelemetryStep contentIds) .empty [.ingest 0 (postOf orderLost)] t :=
    .cons (.ingest ht) (.nil t)
  have hrun' : Run (TelemetryStep contentIds) .empty [.ingest 0 (postOf annsOrderLost)] u :=
    .cons (.ingest hu) (.nil u)
  exact ⟨t, u, hrun, hrun',
    (issue_text_hides rfl hevents hrun hrun' "shop" "bkt_dd250179f692" 0).1⟩

end ReproitCloud
