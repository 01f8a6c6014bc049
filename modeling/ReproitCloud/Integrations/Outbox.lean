import ReproitCloud.Integrations.Tracker
import ReproitCloud.Lib.Processes
import ReproitCloud.Telemetry.Consistency
import ReproitCloud.Triage.Reads

/-!
# Filing issues, and the outbox

Every bucket with a new occurrence has an item in `integration_outbox` that asks for an
issue.  A drain claims items that are due, which puts them off for a while, and takes
them up one after the other: it looks for a tracker, reads the ends of the bucket,
files the issue, and deletes the item when there is nothing to do or a ticket is stored.

`file_issue_for_bucket` looks for a ticket, calls the tracker, and stores the link.
It is called by a drain, by `post_ticket`, and by `post_replay_results` for a tester
capture that was reproduced.

`TicketOp` says at which call one of these is, with what it has read.  A call may fail,
and it may take effect while its answer is lost; a process may end between two calls.
`issues` is what the trackers hold, in the order in which it was created.

The transactions run at read committed.  An ingest that inserts the item of a bucket does
nothing when the item is there, and takes no lock on it, so the item can be gone when the
ingest commits.  Hence an ingest has two points.
-/

namespace ReproitCloud

open Lib

/-! ## The tables and their statements -/

/-- A tenant's telemetry and tracker rows, with what its trackers hold. -/
structure TicketStore where
  telemetry : TenantStore := .empty
  projectIntegrations : Table String IntegrationRow := .empty
  /-- The issues created for a bucket of an app. -/
  issues : List ((String × String) × TicketLink) := []

/-- What filing takes from outside the modelled code. -/
structure TicketEnv where
  platform : Platform
  tracker : TrackerEnv
  /-- `max_error_scan`. -/
  maxErrorScan : Nat := 20000

/-- An item that a drain has claimed. -/
structure WorkItem where
  id : Nat
  appId : String
  bucketId : String
deriving DecidableEq, Repr

/-- The `kind` of an item that asks for an issue. -/
def fileIssue : String := "file-issue"

/-- The delay after so many attempts: doubling, at most an hour. -/
def retryDelay (attempts : Nat) : Micros :=
  (min 3600 (15 * 2 ^ min attempts 8) : Nat) * microsPerSecond

/-- The ids that `claim_integration_work` takes: due, by id, and not locked by another. -/
def dueIds (t : TenantStore) (now : Micros) (locked : List Nat) (limit : Int) : List Nat :=
  ((((t.integrationOutbox.rows.filter fun r => r.2.availableAt ≤ now).map fun r =>
    r.2.id).insertionSort (· ≤ ·)).filter fun id => !locked.contains id).take
      (max 1 (min limit 100)).toNat

/-- The item under an id. -/
def workItem (t : TenantStore) (id : Nat) : Option WorkItem :=
  (t.integrationOutbox.rows.find? fun r => r.2.id = id).map fun r => ⟨id, r.1.1, r.1.2.1⟩

/-- `claim_integration_work`: what is claimed is put off. -/
def claimIntegrationWork (t : TenantStore) (now : Micros) (ids : List Nat) : TenantStore :=
  { t with
    integrationOutbox := t.integrationOutbox.update (fun _ row => ids.contains row.id)
      fun _ row => { row with
        attempts := row.attempts + 1
        availableAt := now + retryDelay row.attempts } }

/-- `complete_integration_work`. -/
def completeIntegrationWork (t : TenantStore) (id : Nat) : TenantStore :=
  { t with integrationOutbox := t.integrationOutbox.delete fun _ row => row.id = id }

/-- `bucket_endpoints`: the oldest and the newest record, off the summary. -/
def bucketEndpoints (t : TenantStore) (app bucket : String) : Option (ErrorRec × ErrorRec) :=
  (t.bucketSummaries.get? (app, bucket)).bind fun s =>
    (rollupOf t ((app, bucket), s)).map fun r => (r.oldest, r.newest)

/-- `is_tester_capture`. -/
def isTesterCapture (record : ErrorRec) : Bool :=
  (record.context.get? "oracle").bind Json.asStr = some "tester-capture"

/-- `link_ticket`. -/
def linkTicket (t : TenantStore) (app bucket : String) (link : TicketLink) : TenantStore :=
  { t with bucketTickets := t.bucketTickets.upsert (app, bucket) link fun _ => link }

/-- `ticket_for_bucket`. -/
def ticketForBucket (t : TenantStore) (app bucket : String) : Option TicketLink :=
  t.bucketTickets.get? (app, bucket)

theorem ticketForBucket_linkTicket (t : TenantStore) (a b : String) (link : TicketLink)
    (app bucket : String) :
    ticketForBucket (linkTicket t a b link) app bucket =
      if (a, b) = (app, bucket) then some link else ticketForBucket t app bucket := by
  refine (Table.get?_upsert ..).trans ?_
  by_cases h : (a, b) = (app, bucket)
  · rw [if_pos h.symm, if_pos h]
    cases t.bucketTickets.get? (a, b) <;> rfl
  · rw [if_neg (Ne.symm h), if_neg h]
    rfl

/-- The buckets of a batch whose item is there already. -/
def queuedBuckets (P : Platform) (t : TenantStore) (b : IngestBatch) : List String :=
  (batchBuckets P b).filter fun bucket => t.integrationOutbox.has (b.appId, bucket, fileIssue)

/-- The commit of an ingest that has found the items of `found` there: it inserts none of
them, also when one has been deleted since. -/
def commitIngest (P : Platform) (t : TenantStore) (now : Micros) (b : IngestBatch)
    (found : List String) : Option TenantStore :=
  (ingestBatch P t now b).toOption.map fun (_, t') => { t' with
    integrationOutbox := t'.integrationOutbox.delete fun k _ =>
      k.1 = b.appId && found.contains k.2.1 && !t.integrationOutbox.has k }

/-! ## What the transactions do to the outbox -/

/-- The items have different ids, all given out. -/
structure OutboxSound (t : TenantStore) : Prop where
  bounded : ∀ k row, t.integrationOutbox.get? k = some row → row.id < t.nextOutboxId
  distinct : ∀ k k' row row', t.integrationOutbox.get? k = some row →
    t.integrationOutbox.get? k' = some row' → row.id = row'.id → k = k'

/-- Two stores with the same outbox and tickets. -/
structure SameQueue (t t' : TenantStore) : Prop where
  outbox : t'.integrationOutbox = t.integrationOutbox
  serial : t'.nextOutboxId = t.nextOutboxId
  tickets : t'.bucketTickets = t.bucketTickets

/-- What asking for the issues of some buckets does. -/
structure Enqueued (t t' : TenantStore) (app : String) (buckets : List String) : Prop where
  tickets : t'.bucketTickets = t.bucketTickets
  serial : t.nextOutboxId ≤ t'.nextOutboxId
  sound : OutboxSound t → OutboxSound t'
  keeps : ∀ k row, t.integrationOutbox.get? k = some row → t'.integrationOutbox.get? k = some row
  fresh : ∀ k row, t'.integrationOutbox.get? k = some row →
    t.integrationOutbox.get? k = some row ∨ t.nextOutboxId ≤ row.id
  queued : ∀ b ∈ buckets, t'.integrationOutbox.has (app, b, fileIssue) = true

section Queue

variable {t t' u u' : TenantStore} {app : String} {buckets : List String}

theorem SameQueue.refl (t : TenantStore) : SameQueue t t := ⟨rfl, rfl, rfl⟩

theorem SameQueue.trans (h : SameQueue t u) (h' : SameQueue u t') : SameQueue t t' where
  outbox := h'.outbox.trans h.outbox
  serial := h'.serial.trans h.serial
  tickets := h'.tickets.trans h.tickets

theorem OutboxSound.congr (h : OutboxSound t) (hsame : SameQueue t t') : OutboxSound t' := by
  constructor
  · rw [hsame.outbox, hsame.serial]
    exact h.bounded
  · rw [hsame.outbox]
    exact h.distinct

theorem Enqueued.none (h : SameQueue t t') : Enqueued t t' app [] where
  tickets := h.tickets
  serial := le_of_eq h.serial.symm
  sound := fun hsound => hsound.congr h
  keeps := by
    rw [h.outbox]
    exact fun _ _ hrow => hrow
  fresh := by
    rw [h.outbox]
    exact fun _ _ hrow => .inl hrow
  queued := fun _ hb => nomatch hb

theorem Enqueued.append {more : List String} (h : Enqueued t u app buckets)
    (h' : Enqueued u t' app more) : Enqueued t t' app (buckets ++ more) where
  tickets := h'.tickets.trans h.tickets
  serial := le_trans h.serial h'.serial
  sound := fun hsound => h'.sound (h.sound hsound)
  keeps := fun k row hrow => h'.keeps k row (h.keeps k row hrow)
  fresh := by
    intro k row hrow
    rcases h'.fresh k row hrow with hold | hnew
    · exact h.fresh k row hold
    · exact .inr (le_trans h.serial hnew)
  queued := by
    intro b hb
    rcases List.mem_append.1 hb with hb | hb
    · obtain ⟨row, hrow⟩ := Option.isSome_iff_exists.1 (h.queued b hb)
      exact Option.isSome_iff_exists.2 ⟨row, h'.keeps _ row hrow⟩
    · exact h'.queued b hb

/-- The same buckets in another order, or more than once. -/
theorem Enqueued.of_subset {more : List String} (h : Enqueued t t' app more)
    (hsub : ∀ b ∈ buckets, b ∈ more) : Enqueued t t' app buckets :=
  { h with queued := fun b hb => h.queued b (hsub b hb) }

/-- Asking for the issue of one bucket. -/
theorem enqueued_one (t : TenantStore) (now : Micros) (app bucket : String) :
    Enqueued t { t with
      integrationOutbox :=
        t.integrationOutbox.insertIgnore (app, bucket, fileIssue) ⟨t.nextOutboxId, 0, now⟩
      nextOutboxId := t.nextOutboxId + 1 } app [bucket] := by
  -- a row after the insert is an old one, or the new one under the next id
  have hrows : ∀ k row, (t.integrationOutbox.insertIgnore (app, bucket, fileIssue)
      ⟨t.nextOutboxId, 0, now⟩).get? k = some row →
      t.integrationOutbox.get? k = some row ∨
        k = (app, bucket, fileIssue) ∧ row.id = t.nextOutboxId := by
    intro k row hrow
    rw [Table.get?_insertIgnore] at hrow
    split at hrow
    · rename_i hk
      subst hk
      cases hold : t.integrationOutbox.get? (app, bucket, fileIssue) with
      | some old =>
        rw [hold, Option.getD_some] at hrow
        exact .inl hrow
      | none =>
        rw [hold, Option.getD_none, Option.some.injEq] at hrow
        exact .inr ⟨rfl, by rw [← hrow]⟩
    · exact .inl hrow
  refine ⟨rfl, Nat.le_succ _, fun hsound => ⟨?_, ?_⟩, ?_, ?_, ?_⟩
  · intro k row hrow
    rcases hrows k row hrow with hold | ⟨-, hid⟩
    · exact Nat.lt_succ_of_lt (hsound.bounded k row hold)
    · exact hid ▸ Nat.lt_succ_self _
  · intro k k' row row' hrow hrow' hid
    rcases hrows k row hrow with hold | ⟨hk, hnew⟩ <;>
      rcases hrows k' row' hrow' with hold' | ⟨hk', hnew'⟩
    · exact hsound.distinct k k' row row' hold hold' hid
    · have := hsound.bounded k row hold
      omega
    · have := hsound.bounded k' row' hold'
      omega
    · rw [hk, hk']
  · intro k row hrow
    rw [Table.get?_insertIgnore]
    split
    · rename_i hk
      rw [← hk, hrow, Option.getD_some]
    · exact hrow
  · intro k row hrow
    rcases hrows k row hrow with hold | ⟨-, hid⟩
    · exact .inl hold
    · exact .inr (le_of_eq hid.symm)
  · intro b hb
    rw [List.mem_singleton.1 hb, Table.has, Table.get?_insertIgnore, if_pos rfl]
    rfl

theorem enqueued_enqueueIssues (t : TenantStore) (now : Micros) (app : String)
    (buckets : List String) : Enqueued t (enqueueIssues t now app buckets) app buckets := by
  have hlist : ∀ (bs : List String) (t : TenantStore),
      Enqueued t (bs.foldl (fun t bucket => { t with
        integrationOutbox :=
          t.integrationOutbox.insertIgnore (app, bucket, fileIssue) ⟨t.nextOutboxId, 0, now⟩
        nextOutboxId := t.nextOutboxId + 1 }) t) app bs := by
    intro bs
    induction bs with
    | nil => exact fun t => .none (.refl t)
    | cons b bs ih => exact fun t => (enqueued_one t now app b).append (ih _)
  refine (hlist _ t).of_subset fun b hb => ?_
  rw [List.mem_insertionSort]
  exact List.mem_dedup.2 hb

theorem sameQueue_recordTraffic (t : TenantStore) (now : Micros) (app : String)
    (deployment : Option String) : SameQueue t (recordTraffic t now app deployment) := by
  cases deployment <;> exact ⟨rfl, rfl, rfl⟩

theorem sameQueue_upsertEdges {edges : List (String × Int)}
    (h : upsertEdges t app edges = .ok t') : SameQueue t t' := by
  rw [upsertEdges] at h
  split at h
  · cases h
    exact ⟨rfl, rfl, rfl⟩
  · cases h

theorem sameQueue_storeGraphs {evidence : List EvidenceGraph}
    (h : storeGraphs t app evidence = .ok t') : SameQueue t t' := by
  simp only [storeGraphs] at h
  split at h
  · cases h
    exact .refl t
  · split at h
    · cases h
      exact ⟨rfl, rfl, rfl⟩
    · cases h

/-- An ingest asks for the issues of the buckets of its errors. -/
theorem enqueued_ingestBatch {P : Platform} {now : Micros} {b : IngestBatch} {dup : Bool}
    (h : ingestBatch P t now b = .ok (dup, t')) :
    t' = t ∨ Enqueued t t' b.appId (batchBuckets P b) := by
  simp only [ingestBatch, pure, Except.pure, bind, Except.bind] at h
  split at h
  · cases h
    exact .inl rfl
  split at h
  · cases h
    exact .inl rfl
  split at h
  · cases h
  rename_i t1 hedges
  split at h
  · cases h
  rename_i t2 hgraphs
  cases h
  have hbefore : SameQueue t t1 :=
    .trans (.trans (by exact ⟨rfl, rfl, rfl⟩) (sameQueue_recordTraffic _ now b.appId b.deployment))
      (sameQueue_upsertEdges hedges)
  have hafter := sameQueue_storeGraphs hgraphs
  refine .inr ?_
  split at hafter
  · rename_i hnone
    have hbuckets : batchBuckets P b = [] := by
      rw [batchBuckets, List.isEmpty_iff.1 hnone, List.map_nil]
    rw [hbuckets]
    exact .none (hbefore.trans hafter)
  · have hinserted : Enqueued t1 (insertErrors P t1 now b) b.appId (batchBuckets P b) :=
      ((Enqueued.none (by exact ⟨rfl, rfl, rfl⟩)).append (enqueued_enqueueIssues _ _ _ _)).of_subset
        fun _ hb => hb
    have hall := ((Enqueued.none hbefore).append hinserted).append (.none hafter)
    exact hall.of_subset fun bucket hb => by simpa using hb

/-- The commit of an ingest asks for the issues of the buckets whose items it has not
found, unless it writes nothing. -/
theorem enqueued_commitIngest {P : Platform} {now : Micros} {b : IngestBatch}
    {found : List String} (h : commitIngest P t now b found = some t') :
    ∃ dup u, ingestBatch P t now b = .ok (dup, u) ∧ t'.errors = u.errors ∧
      t'.bucketSummaries = u.bucketSummaries ∧
      (u = t ∧ SameQueue t t' ∨
        Enqueued t t' b.appId ((batchBuckets P b).filter fun x => x ∉ found)) := by
  obtain ⟨⟨dup, u⟩, hok, rfl⟩ := Option.map_eq_some_iff.1 h
  refine ⟨dup, u, eq_ok_of_toOption hok, rfl, rfl, ?_⟩
  rcases enqueued_ingestBatch (eq_ok_of_toOption hok) with rfl | hq
  · -- every row is one that was there
    refine .inl ⟨rfl, Table.ext_rows (List.filter_eq_self.2 fun r hr => ?_), rfl, rfl⟩
    have hhas : u.integrationOutbox.has r.1 = true := by
      rw [Table.has_iff_mem_keys]
      exact List.mem_map_of_mem hr
    simp [hhas]
  · refine .inr ⟨hq.tickets, hq.serial, fun hsound => ⟨?_, ?_⟩, ?_, ?_, ?_⟩
    · intro k row hrow
      rw [Table.get?_delete, Option.filter_eq_some_iff] at hrow
      exact (hq.sound hsound).bounded k row hrow.1
    · intro k k' row row' hrow hrow'
      rw [Table.get?_delete, Option.filter_eq_some_iff] at hrow hrow'
      exact (hq.sound hsound).distinct k k' row row' hrow.1 hrow'.1
    · intro k row hrow
      rw [Table.get?_delete, Option.filter_eq_some_iff]
      refine ⟨hq.keeps k row hrow, ?_⟩
      simp [Table.has, hrow]
    · intro k row hrow
      rw [Table.get?_delete, Option.filter_eq_some_iff] at hrow
      exact hq.fresh k row hrow.1
    · intro bucket hb
      obtain ⟨hbatch, hfound⟩ := List.mem_filter.1 hb
      have hnot : bucket ∉ found := by simpa using hfound
      obtain ⟨row, hrow⟩ := Option.isSome_iff_exists.1 (hq.queued bucket hbatch)
      refine Option.isSome_iff_exists.2 ⟨row, ?_⟩
      rw [Table.get?_delete, Option.filter_eq_some_iff]
      exact ⟨hrow, by simp [hnot]⟩

theorem sameQueue_deleteErrors {R : Renderings} {p : ErrorRow → Bool} {order : List ErrorRow}
    (h : deleteErrors R t p order = .ok t') : SameQueue t t' := by
  have hwrites := deletedFrom_deleteErrors h
  rw [hwrites]
  exact ⟨rfl, rfl, rfl⟩

end Queue

/-! ## The ends of a bucket -/

/-- With the summaries right, the read of the ends gives the newest row of the bucket, and
nothing exactly of a bucket without rows. -/
theorem bucketEndpoints_cases {t : TenantStore} (h : SummariesAgree t) (app bucket : String) :
    (bucketEndpoints t app bucket = none ∧ t.bucketRows app bucket = []) ∨
      ∃ oldest, ∃ r ∈ t.bucketRows app bucket,
        bucketEndpoints t app bucket = some (oldest, r.record) := by
  have hsummary := h app bucket
  rw [bucketEndpoints]
  cases hs : t.bucketSummaries.get? (app, bucket) with
  | none =>
    rw [hs] at hsummary
    exact .inl ⟨rfl, hsummary⟩
  | some s =>
    rw [hs] at hsummary
    obtain ⟨-, ⟨⟨first, hfirst, hfirstId⟩, -⟩, ⟨⟨last, hlast, hlastId⟩, -⟩⟩ := hsummary
    refine .inr ⟨first.record, last, hlast, ?_⟩
    have hf := ErrorTable.find?_of_id (t := t.errors) (List.mem_of_mem_filter hfirst)
    have hl := ErrorTable.find?_of_id (t := t.errors) (List.mem_of_mem_filter hlast)
    rw [hfirstId] at hf
    rw [hlastId] at hl
    rw [Option.bind_some, rollupOf]
    simp only [hf, hl]
    rfl

/-! ## Filing one issue -/

/-- Where `file_issue_for_bucket` is. -/
inductive Filing where
  /-- The app's row of `project_integrations`. -/
  | resolving
  /-- `ticket_for_bucket`. -/
  | looking (tracker : ConfiguredTracker)
  /-- `create_issue`. -/
  | creating (tracker : ConfiguredTracker)
  /-- `link_ticket`. -/
  | linking (link : TicketLink)
deriving DecidableEq, Repr

/-- The link to an issue with an id and a url. -/
def ConfiguredTracker.link (tracker : ConfiguredTracker) (issue : String × String) : TicketLink :=
  ⟨tracker.provider, tracker.repo, issue.1, issue.2⟩

/-- `integration_for`, with nothing for a call that fails. -/
def integrationFor (s : TicketStore) (app : String) (answered : Bool) :
    Option (Option IntegrationRow) :=
  if answered then some (s.projectIntegrations.get? app) else none

/-- What a call of a filing does when it takes effect.  The tracker gives a new issue its
id and url. -/
def Filing.effect (s : TicketStore) (app bucket : String) (issue : String × String) :
    Filing → TicketStore
  | .resolving | .looking _ => s
  | .creating tracker => { s with issues := s.issues ++ [((app, bucket), tracker.link issue)] }
  | .linking link => { s with telemetry := linkTicket s.telemetry app bucket link }

/-- Where a filing goes from a call that was answered, or failed. -/
def Filing.next (E : TicketEnv) (s : TicketStore) (app bucket : String) (issue : String × String)
    (answered : Bool) : Filing → Option Filing
  | .resolving => (resolveFor E.tracker (integrationFor s app answered) app).map .looking
  | .looking tracker =>
    if answered && (ticketForBucket s.telemetry app bucket).isNone then some (.creating tracker)
    else none
  | .creating tracker => if answered then some (.linking (tracker.link issue)) else none
  | .linking _ => none

/-! ## The processes -/

/-- Why a drain deletes an item. -/
inductive CompleteReason where
  /-- No tracker is configured. -/
  | unconfigured
  /-- The bucket has no rows. -/
  | empty
  /-- The newest row is a tester capture. -/
  | tester
  /-- A ticket is stored. -/
  | linked
deriving DecidableEq, Repr

/-- Where a drain is with an item. -/
inductive ItemPoint where
  /-- `is_configured_for`. -/
  | configuring
  /-- `bucket_endpoints`. -/
  | reading
  | filing (f : Filing)
  /-- `ticket_for_bucket`, after the filing. -/
  | checking
  /-- `complete_integration_work`. -/
  | completing (reason : CompleteReason)
deriving DecidableEq, Repr

/-- Where a process is: the call it makes next, with what it has read. -/
inductive TicketOp where
  /-- An ingest at its statements. -/
  | ingesting (now : Micros) (batch : IngestBatch)
  /-- An ingest at its commit, with the buckets whose item it has found. -/
  | ingestCommitting (now : Micros) (batch : IngestBatch) (found : List String)
  /-- `drain_outbox` at its claim. -/
  | claiming
  /-- `drain_outbox` at an item, with the items left. -/
  | draining (item : WorkItem) (rest : List WorkItem) (point : ItemPoint)
  /-- `post_ticket` at `is_configured_for`. -/
  | postConfiguring (app bucket : String)
  /-- `post_ticket` at `ticket_for_bucket`. -/
  | postLooking (app bucket : String)
  /-- `post_ticket` at `errors_for_bucket`. -/
  | postReading (app bucket : String)
  /-- `post_replay_results` at `errors_for_bucket`, for a bug that was reproduced. -/
  | confirmReading (app bucket : String)
  /-- A request that files the issue. -/
  | filing (app bucket : String) (f : Filing)

/-- The bucket that a process files an issue for, and where it is with that. -/
def TicketOp.filing? : TicketOp → Option ((String × String) × Filing)
  | draining item _ (.filing f) => some ((item.appId, item.bucketId), f)
  | filing app bucket f => some ((app, bucket), f)
  | _ => none

/-- Where a process starts. -/
def TicketOp.starts : TicketOp → Bool
  | ingesting _ _ | claiming | postConfiguring _ _ | confirmReading _ _ => true
  | _ => false

/-- The next item of a drain. -/
def nextItem : List WorkItem → Option TicketOp
  | [] => none
  | item :: rest => some (.draining item rest .configuring)

/-- What the environment decides of a call. -/
structure TicketChance where
  result : CallResult := .answered
  now : Micros := 0
  /-- The items that a claim skips, and the order in which it returns the others. -/
  locked : List Nat := []
  order : List Nat := []
  /-- The id and the url of a new issue. -/
  issue : String × String := ("", "")
deriving DecidableEq, Repr

/-- What a call does when it takes effect. -/
def TicketOp.effect (E : TicketEnv) (s : TicketStore) (chance : TicketChance) :
    TicketOp → TicketStore
  | .ingestCommitting now b found =>
    match commitIngest E.platform s.telemetry now b found with
    | some t => { s with telemetry := t }
    | none => s
  | .claiming => { s with telemetry := claimIntegrationWork s.telemetry chance.now chance.order }
  | .draining item _ (.filing f) => f.effect s item.appId item.bucketId chance.issue
  | .draining item _ (.completing _) =>
    { s with telemetry := completeIntegrationWork s.telemetry item.id }
  | .filing app bucket f => f.effect s app bucket chance.issue
  | _ => s

/-- Where a drain goes with an item from a call that was answered, or failed. -/
def drainNext (E : TicketEnv) (s : TicketStore) (item : WorkItem) (rest : List WorkItem)
    (issue : String × String) (answered : Bool) : ItemPoint → Option TicketOp
  | .configuring =>
    if (resolveFor E.tracker (integrationFor s item.appId answered) item.appId).isSome then
      some (.draining item rest .reading)
    else some (.draining item rest (.completing .unconfigured))
  | .reading =>
    if answered then
      match bucketEndpoints s.telemetry item.appId item.bucketId with
      | some endpoints =>
        if isTesterCapture endpoints.2 then some (.draining item rest (.completing .tester))
        else some (.draining item rest (.filing .resolving))
      | none => some (.draining item rest (.completing .empty))
    else nextItem rest
  | .filing f =>
    match f.next E s item.appId item.bucketId issue answered with
    | some f' => some (.draining item rest (.filing f'))
    | none => some (.draining item rest .checking)
  | .checking =>
    if answered && (ticketForBucket s.telemetry item.appId item.bucketId).isSome then
      some (.draining item rest (.completing .linked))
    else nextItem rest
  | .completing _ => nextItem rest

/-- Where a process goes from a call that was answered, or failed. -/
def TicketOp.next (E : TicketEnv) (s : TicketStore) (chance : TicketChance) (answered : Bool) :
    TicketOp → Option TicketOp
  | .ingesting now b =>
    if answered then some (.ingestCommitting now b (queuedBuckets E.platform s.telemetry b))
    else none
  | .ingestCommitting _ _ _ => none
  | .claiming => if answered then nextItem (chance.order.filterMap (workItem s.telemetry)) else none
  | .draining item rest point => drainNext E s item rest chance.issue answered point
  | .postConfiguring app bucket =>
    if (resolveFor E.tracker (integrationFor s app answered) app).isSome then
      some (.postLooking app bucket)
    else none
  | .postLooking app bucket =>
    if answered && (ticketForBucket s.telemetry app bucket).isNone then
      some (.postReading app bucket)
    else none
  | .postReading app bucket =>
    if answered && !(errorsForBucket s.telemetry app bucket E.maxErrorScan).isEmpty then
      some (.filing app bucket .resolving)
    else none
  | .confirmReading app bucket =>
    if answered && (errorsForBucket s.telemetry app bucket E.maxErrorScan).getLast?.any
        (fun r => isTesterCapture r.2.2) then
      some (.filing app bucket .resolving)
    else none
  | .filing app bucket f => (f.next E s app bucket chance.issue answered).map (.filing app bucket)

/-- A claim returns the items it has taken in any order. -/
def TicketOp.admits (s : TicketStore) (chance : TicketChance) : TicketOp → Bool
  | .claiming => chance.order.isPerm (dueIds s.telemetry chance.now chance.locked 20)
  | _ => true

/-- The next call of a process. -/
def ticketNext (E : TicketEnv) (s : TicketStore) (_others : List TicketOp)
    (chance : TicketChance) (op : TicketOp) : Option (TicketStore × Option TicketOp) :=
  match chance.result with
  | .failed => some (s, op.next E s chance false)
  | .answered =>
    if op.admits s chance then some (op.effect E s chance, op.next E s chance true) else none
  | .unanswered =>
    if op.admits s chance then some (op.effect E s chance, op.next E s chance false) else none

/-- What a step is: a call that failed, or a call that took effect. -/
theorem ticketNext_cases {E : TicketEnv} {s store : TicketStore} {others : List TicketOp}
    {chance : TicketChance} {op : TicketOp} {next : Option TicketOp}
    (h : ticketNext E s others chance op = some (store, next)) :
    (chance.result = .failed ∧ store = s ∧ next = op.next E s chance false) ∨
      (chance.result ≠ .failed ∧ op.admits s chance = true ∧ store = op.effect E s chance ∧
        next = op.next E s chance (chance.result = .answered)) := by
  rw [ticketNext] at h
  cases hresult : chance.result with
  | failed =>
    rw [hresult] at h
    cases h
    exact .inl ⟨rfl, rfl, rfl⟩
  | answered | unanswered =>
    rw [hresult] at h
    dsimp only at h
    rw [Option.ite_none_right_eq_some] at h
    obtain ⟨hadmits, heq⟩ := h
    cases heq
    exact .inr ⟨nofun, hadmits, rfl, rfl⟩

/-- The writes of others: the retention delete, and `set_integration`. -/
inductive TicketCommit where
  | expire (now : Micros) (days : Int) (limit : Nat) (ids : List Nat)
  | configure (app : String) (row : IntegrationRow)

def commitTickets (E : TicketEnv) (s : TicketStore) : TicketCommit → Option TicketStore
  | .expire now days limit ids =>
    (commitTelemetry E.platform s.telemetry
      (.deleteErrors (expiredErrors s.telemetry now days limit) ids)).map fun t =>
        { s with telemetry := t }
  | .configure app row =>
    some { s with projectIntegrations := s.projectIntegrations.upsert app row fun _ => row }

/-- Ingest, drains and the requests that file issues. -/
def tickets (E : TicketEnv) : Program TicketStore TicketOp TicketChance TicketCommit where
  starts _ op := op.starts
  next := ticketNext E
  write s _ c := commitTickets E s c

abbrev Ticketing := Pool TicketStore TicketOp

abbrev TicketEvent := PoolEvent TicketOp TicketChance TicketCommit

/-- A new tenant whose apps have these tracker rows. -/
def Ticketing.init (integrations : Table String IntegrationRow) : Ticketing :=
  ⟨{ projectIntegrations := integrations }, []⟩

/-! ## A shop -/

/-- A hosted server with one tenant key and no variables. -/
def shopEnv : TicketEnv where
  platform := oneBucket
  tracker := ⟨some, fun _ => none, false⟩

/-- The shop files with GitHub. -/
def shopTracker : IntegrationRow where
  repo := some "acme/shop"
  tokenEnc := some "token"

def shopIntegrations : Table String IntegrationRow := Table.empty.insertIgnore "shop" shopTracker

/-- Its one bucket. -/
def shopBucket : String := "bkt_dd250179f692"

/-- The process at an index makes its call, with an issue if it is to create one. -/
def callAt (i : Nat) (number : String) : TicketEvent :=
  .advance i { order := [1], issue := (number, "https://github.com/acme/shop/issues/" ++ number) }

/-- A batch with two crashes. -/
def shopIngest : List TicketEvent :=
  [.start (.ingesting 0 (twoCrashes (some "c1"))), callAt 0 "", callAt 0 ""]

end ReproitCloud
