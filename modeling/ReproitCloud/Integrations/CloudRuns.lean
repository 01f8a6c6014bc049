import ReproitCloud.Integrations.Settings
import ReproitCloud.Triage.Replays

/-!
# The ledger of hosted reproductions

`post_reproduce` inserts a run into `cloud_runs` and asks the repository that is bound to the app
to replay the bucket in its own CI.  The verdict comes back as a replay result with the id of the
run, and closes it.  A run that was not dispatched is closed as failed, and one that nobody reports
on is expired by a pass in the background.  Whoever is in between is at one of the calls of
`CloudOp`.

`cloud_runs_accounted` is about any two states of a run.  A run of the ledger that is closed was
closed once, for the reason that its status names, and stays as it is.  One that is open was not
older than the timeout at the last pass.  A repository is asked once for a run, about its bucket
and with a token that was stored for the app.

The ledger does not say what has happened.  `CloudStore` remembers the dispatches, the reports
and what was bound to the apps.  No code reads these.
-/

namespace ReproitCloud

open Lib Secrets

/-! ## The tables -/

/-- A row of `cloud_runs`. -/
structure CloudRunRow where
  appId : String
  bucketId : String
  status : String := "dispatched"
  requestedBy : String
  dispatchedAt : Micros
  completedAt : Option Micros := none
deriving DecidableEq, Repr

/-- A row of `replay_results`. -/
structure ReplayResultRow where
  appId : String
  bucketId : String
  status : String
  runs : Int
  failures : Int
  localReproId : Option String
deriving DecidableEq, Repr

/-- A `repository_dispatch` that was sent, with its payload. -/
structure Dispatch where
  repo : String
  token : String
  app : String
  bucket : String
  run : Int
deriving DecidableEq, Repr

/-- A replay result that names a run. -/
structure CloudReport where
  run : Int
  app : String
  bucket : String
  time : Micros
deriving DecidableEq, Repr

structure CloudStore where
  now : Micros
  projectIntegrations : Table String IntegrationRecord := .empty
  cloudRuns : Table Int CloudRunRow := .empty
  /-- The serial of `cloud_runs`. -/
  nextRunId : Int := 1
  replayResults : List ReplayResultRow := []
  /-- No tables: what was bound to the apps, what was sent, the runs whose dispatch came back as
  an error, the reports, the runs that were closed, and the time of the last pass. -/
  bound : List (String × IntegrationRecord) := []
  dispatches : List Dispatch := []
  refused : List Int := []
  reports : List CloudReport := []
  closed : List Int := []
  lastPass : Option Micros := none

/-- What a server is given. -/
structure CloudEnv where
  secrets : SecretEnv
  /-- `REPROIT_CLOUD_RUN_TIMEOUT_SECS`. -/
  timeoutVar : Option String := none

/-- `cloud_run_timeout_secs`. -/
def cloudRunTimeoutSecs (E : CloudEnv) : Int :=
  (((E.timeoutVar.bind fun v => parseInt64 v.toList).map Int64.toInt).filter fun n => 0 < n).getD
    1800

/-- The timeout as an interval. -/
def cloudRunTimeout (E : CloudEnv) : Micros := cloudRunTimeoutSecs E * microsPerSecond

theorem cloudRunTimeout_pos (E : CloudEnv) : 0 < cloudRunTimeout E := by
  have hsecs : 0 < cloudRunTimeoutSecs E := by
    rw [cloudRunTimeoutSecs]
    cases hvar : Option.filter (fun n => decide (0 < n)) ((E.timeoutVar.bind fun v =>
        parseInt64 v.toList).map Int64.toInt) with
    | none => decide
    | some n =>
      have hn := (Option.filter_eq_some_iff.1 hvar).2
      exact of_decide_eq_true hn
  exact Int.mul_pos hsecs (by decide)

namespace CloudStore

variable (s : CloudStore)

/-- `create_cloud_run`, with the id of the run. -/
def createCloudRun (app bucket requestedBy : String) : Option (CloudStore × Int) :=
  (s.cloudRuns.insert? s.nextRunId
    { appId := app, bucketId := bucket, requestedBy := requestedBy, dispatchedAt := s.now }).map
      fun runs => ({ s with cloudRuns := runs, nextRunId := s.nextRunId + 1 }, s.nextRunId)

/-- The rows that an update of `cloud_runs` selects are closed with a status. -/
def closeRuns (p : Int → CloudRunRow → Bool) (status : String) : CloudStore :=
  { s with
    cloudRuns := s.cloudRuns.update p fun _ r =>
      { r with status := status, completedAt := some s.now }
    closed := s.closed ++ (s.cloudRuns.rows.filter fun r => p r.1 r.2).map Prod.fst }

/-- The rows of `complete_cloud_run`. -/
def completes (id : Int) (app bucket : String) (k : Int) (r : CloudRunRow) : Bool :=
  k = id && r.appId = app && r.bucketId = bucket && r.status = "dispatched"

/-- `complete_cloud_run`, with whether a row was updated. -/
def completeCloudRun (id : Int) (app bucket status : String) : CloudStore × Bool :=
  (s.closeRuns (completes id app bucket) status,
    0 < s.cloudRuns.count (completes id app bucket))

/-- The rows of `expire_stale_cloud_runs`. -/
def stale (olderThan : Micros) (_ : Int) (r : CloudRunRow) : Bool :=
  r.status = "dispatched" && r.dispatchedAt < s.now - olderThan

/-- `expire_stale_cloud_runs`. -/
def expireStaleCloudRuns (olderThan : Micros) : CloudStore :=
  { s.closeRuns (s.stale olderThan) "expired" with lastPass := some s.now }

/-- `add_replay_result`. -/
def addReplayResult (app bucket : String) (body : Json) : CloudStore :=
  { s with
    replayResults := s.replayResults ++
      [⟨app, bucket, replayStatus body, replayRuns body, replayFailures body,
        (body.get "localReproId").bind Json.asStr⟩]
    reports := s.reports ++ ((countOf body "runId").map fun run =>
      (⟨run, app, bucket, s.now⟩ : CloudReport)).toList }

/-- A `repository_dispatch` that has reached the repository. -/
def send (d : Dispatch) : CloudStore := { s with dispatches := s.dispatches ++ [d] }

/-- A `repository_dispatch` that comes back as an error. -/
def refuse (run : Int) : CloudStore := { s with refused := s.refused ++ [run] }

/-- `set_integration`. -/
def setIntegration (app : String) (row : IntegrationRecord) : CloudStore :=
  { s with
    projectIntegrations := s.projectIntegrations.upsert app row fun _ => row
    bound := s.bound ++ [(app, row)] }

end CloudStore

/-! ## The requests -/

/-- `requested_by`. -/
def requestedBy : AuthCtx → String
  | .admin => "admin"
  | .org id => "org:" ++ String.ofList (int64Chars id)

/-- Where a request is, from where `tenant_for` has let it through. -/
inductive CloudOp where
  /-- `integration_for`, `create_cloud_run`, `repository_dispatch` and the `complete_cloud_run`
  after a failure, of `post_reproduce`. -/
  | configuring (auth : AuthCtx) (app bucket : String)
  | creating (auth : AuthCtx) (app bucket repo token : String)
  | dispatching (run : Int) (app bucket repo token : String)
  | failing (run : Int) (app bucket : String)
  /-- `add_replay_result` and `complete_cloud_run` of `post_replay_results`. -/
  | recording (app bucket : String) (body : Json)
  | closing (run : Int) (app bucket : String) (result : Int)
  | replied (reply : Reply)

/-- What the environment decides of a call. -/
structure CloudChance where
  result : CallResult := .answered
  /-- The id of the replay result. -/
  resultId : Int := 0

/-- The reply for an app without a repository. -/
def noDispatchRepo : Reply :=
  err 409 "no dispatch repo configured for this app; PUT /v1/apps/:app/integrations with dispatchRepo + dispatchToken first"

/-- The repository and the token of a row, if it has both and the token is readable. -/
def dispatchTarget (E : CloudEnv) (row : Option IntegrationRecord) :
    Except Reply (String × String) :=
  match row.bind fun r => r.dispatchRepo.bind fun repo => r.dispatchTokenEnc.map (repo, ·) with
  | none => .error noDispatchRepo
  | some (repo, enc) =>
    match decrypt E.secrets enc with
    | .error _ => .error (err 500 "internal error")
    | .ok token => .ok (repo, token)

def dispatchFailed (run : Int) : Reply :=
  ⟨502, .object [("error", .string "repository_dispatch failed; check the dispatch repo/token"),
    ("runId", .number (.int run))]⟩

def dispatched (run : Int) : Reply :=
  ⟨200, .object [("ok", .bool true), ("runId", .number (.int run)),
    ("status", .string "dispatched")]⟩

def resultRecorded (id : Int) : Reply :=
  ⟨200, .object [("ok", .bool true), ("id", .number (.int id))]⟩

/-- The next call of a request. -/
def cloudNext (E : CloudEnv) (s : CloudStore) (chance : CloudChance) :
    CloudOp → Option (CloudStore × Option CloudOp)
  | .configuring auth app bucket =>
    match if chance.result = .answered then dispatchTarget E (s.projectIntegrations.get? app)
      else .error (err 500 "internal error") with
    | .error reply => some (s, some (.replied reply))
    | .ok (repo, token) => some (s, some (.creating auth app bucket repo token))
  | .creating auth app bucket repo token =>
    match if chance.result = .failed then none
      else s.createCloudRun app bucket (requestedBy auth) with
    | none => some (s, some (.replied (err 500 "internal error")))
    | some (s', run) =>
      some (s', some (if chance.result = .answered then .dispatching run app bucket repo token
        else .replied (err 500 "internal error")))
  | .dispatching run app bucket repo token =>
    match chance.result with
    | .answered => some (s.send ⟨repo, token, app, bucket, run⟩, some (.replied (dispatched run)))
    | .failed => some (s.refuse run, some (.failing run app bucket))
    | .unanswered =>
      some ((s.send ⟨repo, token, app, bucket, run⟩).refuse run, some (.failing run app bucket))
  | .failing run app bucket =>
    some (if chance.result = .failed then s else (s.completeCloudRun run app bucket "failed").1,
      some (.replied (dispatchFailed run)))
  | .recording app bucket body =>
    if ¬ replayStatuses.contains (replayStatus body) then
      some (s, some (.replied (err 400
        "status must be one of [\"reproduced\", \"not_reproduced\", \"stale\", \"flaky\"]")))
    else
      match chance.result, countOf body "runId" with
      | .failed, _ => some (s, some (.replied (err 500 "internal error")))
      | .unanswered, _ =>
        some (s.addReplayResult app bucket body, some (.replied (err 500 "internal error")))
      | .answered, none =>
        some (s.addReplayResult app bucket body, some (.replied (resultRecorded chance.resultId)))
      | .answered, some run =>
        some (s.addReplayResult app bucket body, some (.closing run app bucket chance.resultId))
  | .closing run app bucket result =>
    -- An unknown run, one that is closed, and a failure are logged.
    some (if chance.result = .failed then s else (s.completeCloudRun run app bucket "completed").1,
      some (.replied (resultRecorded result)))
  | .replied _ => none

/-- What happens beside the requests. -/
inductive CloudWrite where
  | tick (now : Micros)
  | bind (app : String) (row : IntegrationRecord)
  /-- The pass over the open runs. -/
  | pass
  /-- The end of `delete_sample_bucket_data`, and `delete_project_by_app`. -/
  | clearBucket (app bucket : String)
  | deleteProject (app : String)

def CloudWrite.write (E : CloudEnv) (s : CloudStore) : CloudWrite → Option CloudStore
  | tick now => if s.now ≤ now then some { s with now := now } else none
  | bind app row => some (s.setIntegration app row)
  | pass => some (s.expireStaleCloudRuns (cloudRunTimeout E))
  | clearBucket app bucket =>
    some { s with
      cloudRuns := s.cloudRuns.delete fun _ r => r.appId = app && r.bucketId = bucket
      replayResults := s.replayResults.filter fun r => !(r.appId = app && r.bucketId = bucket) }
  | deleteProject app =>
    some { s with
      cloudRuns := s.cloudRuns.delete fun _ r => r.appId = app
      replayResults := s.replayResults.filter fun r => r.appId ≠ app
      projectIntegrations := s.projectIntegrations.delete fun k _ => k = app }

/-- Reproductions and replay results side by side. -/
def cloudRequests (E : CloudEnv) : Program CloudStore CloudOp CloudChance CloudWrite where
  starts _ op := match op with
    | .configuring .. | .recording .. => true
    | _ => false
  next s _ := cloudNext E s
  write s _ := CloudWrite.write E s

abbrev CloudRequests := Pool CloudStore CloudOp

abbrev CloudEvent := PoolEvent CloudOp CloudChance CloudWrite

/-! ## What a row says -/

/-- What may become of a row. -/
structure CloudRunRow.Moves (r r' : CloudRunRow) : Prop where
  about : r'.appId = r.appId ∧ r'.bucketId = r.bucketId
  final : r.status ≠ "dispatched" → r' = r

theorem CloudRunRow.Moves.refl (r : CloudRunRow) : r.Moves r := ⟨⟨rfl, rfl⟩, fun _ => rfl⟩

theorem CloudRunRow.Moves.trans {r r' r'' : CloudRunRow} (h : r.Moves r') (h' : r'.Moves r'') :
    r.Moves r'' where
  about := ⟨h'.about.1.trans h.about.1, h'.about.2.trans h.about.2⟩
  final hclosed := by
    obtain rfl := h.final hclosed
    exact h'.final hclosed

namespace CloudStore

variable {E : CloudEnv} {s s' s'' : CloudStore} {id : Int} {r : CloudRunRow}

/-- Why a row of the ledger is as it is. -/
inductive Accounted (E : CloudEnv) (s : CloudStore) (id : Int) (r : CloudRunRow) : Prop
  | awaited : r.status = "dispatched" → r.completedAt = none → id ∉ s.closed →
      (∀ pass, s.lastPass = some pass → pass - cloudRunTimeout E ≤ r.dispatchedAt) →
      Accounted E s id r
  | completed {report : CloudReport} {time : Micros} : r.status = "completed" →
      r.completedAt = some time → id ∈ s.closed → report ∈ s.reports → report.run = id →
      report.app = r.appId → report.bucket = r.bucketId → report.time ≤ time →
      Accounted E s id r
  | failed {time : Micros} : r.status = "failed" → r.completedAt = some time → id ∈ s.closed →
      id ∈ s.refused → Accounted E s id r
  | expired {time : Micros} : r.status = "expired" → r.completedAt = some time → id ∈ s.closed →
      r.dispatchedAt < time - cloudRunTimeout E → Accounted E s id r

/-- A repository and its token were stored for an app. -/
def WasBound (E : CloudEnv) (s : CloudStore) (app repo token : String) : Prop :=
  ∃ row, (app, row) ∈ s.bound ∧ dispatchTarget E (some row) = .ok (repo, token)

/-- The row of a run, if it is there, is about a bucket. -/
def About (s : CloudStore) (run : Int) (app bucket : String) : Prop :=
  ∀ r, s.cloudRuns.get? run = some r → r.appId = app ∧ r.bucketId = bucket

/-- What the ledger says is what has happened. -/
structure Accounts (E : CloudEnv) (s : CloudStore) : Prop where
  rows : ∀ id r, s.cloudRuns.get? id = some r → s.Accounted E id r
  closedOnce : s.closed.Nodup
  askedOnce : (s.dispatches.map Dispatch.run).Nodup
  asked : ∀ d ∈ s.dispatches, s.WasBound E d.app d.repo d.token ∧ s.About d.run d.app d.bucket

/-- `Accounts`, with what keeps it. -/
structure Kept (E : CloudEnv) (s : CloudStore) : Prop extends s.Accounts E where
  below : ∀ id r, s.cloudRuns.get? id = some r → id < s.nextRunId
  closedBelow : ∀ id ∈ s.closed, id < s.nextRunId
  askedBelow : ∀ d ∈ s.dispatches, d.run < s.nextRunId
  bindings : ∀ app row, s.projectIntegrations.get? app = some row → (app, row) ∈ s.bound
  reportsPast : ∀ report ∈ s.reports, report.time ≤ s.now
  passPast : ∀ pass, s.lastPass = some pass → pass ≤ s.now

/-- What a call may do, whichever it is. -/
structure Later (s s' : CloudStore) : Prop where
  nextRunId : s.nextRunId ≤ s'.nextRunId
  rows : ∀ id r', s'.cloudRuns.get? id = some r' → id < s.nextRunId →
    ∃ r, s.cloudRuns.get? id = some r ∧ r.Moves r'
  bound : s.bound ⊆ s'.bound
  refused : s.refused ⊆ s'.refused
  reports : s.reports ⊆ s'.reports
  now : s.now ≤ s'.now

theorem Later.refl (s : CloudStore) : s.Later s :=
  ⟨le_rfl, fun _ r' hr' _ => ⟨r', hr', .refl r'⟩, fun _ => id, fun _ => id, fun _ => id, le_rfl⟩

theorem Later.trans (h : s.Later s') (h' : s'.Later s'') : s.Later s'' where
  nextRunId := h.nextRunId.trans h'.nextRunId
  rows id r'' hr'' hid := by
    obtain ⟨r', hr', hmoves'⟩ := h'.rows id r'' hr'' (hid.trans_le h.nextRunId)
    obtain ⟨r, hr, hmoves⟩ := h.rows id r' hr' hid
    exact ⟨r, hr, hmoves.trans hmoves'⟩
  bound := List.Subset.trans h.bound h'.bound
  refused := List.Subset.trans h.refused h'.refused
  reports := List.Subset.trans h.reports h'.reports
  now := h.now.trans h'.now

theorem Later.wasBound (h : s.Later s') {app repo token : String}
    (hbound : s.WasBound E app repo token) : s'.WasBound E app repo token := by
  obtain ⟨row, hrow, htarget⟩ := hbound
  exact ⟨row, h.bound hrow, htarget⟩

theorem Later.about (h : s.Later s') {app bucket : String} (hid : id < s.nextRunId)
    (habout : s.About id app bucket) : s'.About id app bucket := by
  intro r' hr'
  obtain ⟨r, hr, hmoves⟩ := h.rows id r' hr' hid
  obtain ⟨happ, hbucket⟩ := habout r hr
  exact ⟨hmoves.about.1.trans happ, hmoves.about.2.trans hbucket⟩

/-- What is added to the records leaves the account of a closed run as it is. -/
theorem Accounted.later (h : s.Accounted E id r) (hclosed : s.closed ⊆ s'.closed)
    (hreports : s.reports ⊆ s'.reports) (hrefused : s.refused ⊆ s'.refused)
    (hawaited : r.status = "dispatched" → r.completedAt = none → id ∉ s.closed →
      (∀ pass, s.lastPass = some pass → pass - cloudRunTimeout E ≤ r.dispatchedAt) →
      s'.Accounted E id r) : s'.Accounted E id r := by
  cases h with
  | awaited hstatus hnone hopen hfresh => exact hawaited hstatus hnone hopen hfresh
  | completed hstatus htime hin hreport hrun happ hbucket hle =>
    exact .completed hstatus htime (hclosed hin) (hreports hreport) hrun happ hbucket hle
  | failed hstatus htime hin hrefusal =>
    exact .failed hstatus htime (hclosed hin) (hrefused hrefusal)
  | expired hstatus htime hin hstale => exact .expired hstatus htime (hclosed hin) hstale

/-! ## The statements -/

section Statements

/-- The ledger stays in order where no row is added or closed. -/
theorem Kept.of_rows (hs : s.Kept E) (hlater : s.Later s')
    (hrows : ∀ id r, s'.cloudRuns.get? id = some r → s.cloudRuns.get? id = some r)
    (hnext : s'.nextRunId = s.nextRunId) (hclosed : s'.closed = s.closed)
    (hdispatches : s'.dispatches = s.dispatches) (hpass : s'.lastPass = s.lastPass)
    (hbindings : ∀ app row, s'.projectIntegrations.get? app = some row → (app, row) ∈ s'.bound)
    (hreports : ∀ report ∈ s'.reports, report.time ≤ s'.now) : s'.Kept E where
  rows id r hr := by
    refine (hs.rows id r (hrows id r hr)).later (fun _ hin => hclosed ▸ hin) hlater.reports
      hlater.refused fun hstatus hnone hopen hfresh => ?_
    rw [← hclosed] at hopen
    rw [← hpass] at hfresh
    exact .awaited hstatus hnone hopen hfresh
  closedOnce := hclosed ▸ hs.closedOnce
  askedOnce := hdispatches ▸ hs.askedOnce
  asked d hd := by
    rw [hdispatches] at hd
    obtain ⟨hbound, habout⟩ := hs.asked d hd
    exact ⟨hlater.wasBound hbound, hlater.about (hs.askedBelow d hd) habout⟩
  below id r hr := hnext ▸ hs.below id r (hrows id r hr)
  closedBelow id hid := by
    rw [hclosed] at hid
    rw [hnext]
    exact hs.closedBelow id hid
  askedBelow d hd := by
    rw [hdispatches] at hd
    rw [hnext]
    exact hs.askedBelow d hd
  bindings := hbindings
  reportsPast := hreports
  passPast pass h := (hs.passPast pass (hpass ▸ h)).trans hlater.now

/-- A run that is created has an id of its own. -/
theorem createCloudRun_spec {app bucket requestedBy : String} {run : Int}
    (h : s.createCloudRun app bucket requestedBy = some (s', run)) (hs : s.Kept E) :
    s'.Kept E ∧ s.Later s' ∧ run = s.nextRunId ∧ s'.nextRunId = run + 1 ∧
      s'.dispatches = s.dispatches ∧ s'.About run app bucket := by
  obtain ⟨runs, hinsert, heq⟩ := Option.map_eq_some_iff.1 h
  cases heq
  have hget : ∀ id r, runs.get? id = some r → id = s.nextRunId ∧
      r = { appId := app, bucketId := bucket, requestedBy := requestedBy,
            dispatchedAt := s.now } ∨ s.cloudRuns.get? id = some r := by
    intro id r hr
    rw [Table.get?_insert? hinsert] at hr
    by_cases hid : id = s.nextRunId
    · rw [if_pos hid] at hr
      cases hr
      exact .inl ⟨hid, rfl⟩
    · rw [if_neg hid] at hr
      exact .inr hr
  have hlater : s.Later { s with cloudRuns := runs, nextRunId := s.nextRunId + 1 } :=
    { Later.refl s with
      nextRunId := (Int.lt_succ s.nextRunId).le
      rows := fun id r' hr' hid => by
        rcases hget id r' hr' with ⟨rfl, -⟩ | hold
        · exact absurd hid (lt_irrefl _)
        · exact ⟨r', hold, .refl r'⟩ }
  refine ⟨?_, hlater, rfl, rfl, rfl, fun r hr => ?_⟩
  · exact
      { rows := fun id r hr => by
          rcases hget id r hr with ⟨rfl, rfl⟩ | hold
          · refine .awaited rfl rfl (fun hin => lt_irrefl _ (hs.closedBelow _ hin)) ?_
            intro pass hpass
            exact (sub_le_self _ (cloudRunTimeout_pos E).le).trans (hs.passPast pass hpass)
          · exact (hs.rows id r hold).later (List.Subset.refl _) (List.Subset.refl _)
              (List.Subset.refl _) fun hstatus hnone hopen hfresh =>
                .awaited hstatus hnone hopen hfresh
        closedOnce := hs.closedOnce
        askedOnce := hs.askedOnce
        asked := fun d hd => ⟨hlater.wasBound (hs.asked d hd).1,
          hlater.about (hs.askedBelow d hd) (hs.asked d hd).2⟩
        below := fun id r hr => by
          rcases hget id r hr with ⟨rfl, -⟩ | hold
          · exact Int.lt_succ _
          · exact (hs.below id r hold).trans (Int.lt_succ _)
        closedBelow := fun id hid => (hs.closedBelow id hid).trans (Int.lt_succ _)
        askedBelow := fun d hd => (hs.askedBelow d hd).trans (Int.lt_succ _)
        bindings := hs.bindings
        reportsPast := hs.reportsPast
        passPast := hs.passPast }
  · rcases hget _ r hr with ⟨-, rfl⟩ | hold
    · exact ⟨rfl, rfl⟩
    · exact absurd (hs.below _ r hold) (lt_irrefl _)

/-- Open runs that are closed with a status that says why. -/
theorem closeRuns_spec {p : Int → CloudRunRow → Bool} {status : String}
    (hopen : ∀ id r, p id r = true → r.status = "dispatched") (hs : s.Kept E)
    (hwhy : ∀ id r, s.cloudRuns.get? id = some r → p id r = true →
      (s.closeRuns p status).Accounted E id
        { r with status := status, completedAt := some s.now }) :
    (s.closeRuns p status).Kept E ∧ s.Later (s.closeRuns p status) := by
  have hget : ∀ id r', (s.closeRuns p status).cloudRuns.get? id = some r' →
      ∃ r, s.cloudRuns.get? id = some r ∧ (p id r = true ∧
          r' = { r with status := status, completedAt := some s.now } ∨
        p id r = false ∧ r' = r) := by
    intro id r' hr'
    rw [closeRuns, Table.get?_update, Option.map_eq_some_iff] at hr'
    obtain ⟨r, hr, rfl⟩ := hr'
    refine ⟨r, hr, ?_⟩
    cases hp : p id r with
    | true => exact .inl ⟨rfl, if_pos rfl⟩
    | false => exact .inr ⟨rfl, if_neg Bool.false_ne_true⟩
  have hnew : ∀ id ∈ (s.cloudRuns.rows.filter fun r => p r.1 r.2).map Prod.fst,
      ∃ r, s.cloudRuns.get? id = some r ∧ p id r = true := by
    intro id hid
    obtain ⟨⟨k, r⟩, hrow, rfl⟩ := List.mem_map.1 hid
    obtain ⟨hmem, hp⟩ := List.mem_filter.1 hrow
    exact ⟨r, Table.get?_eq_some_iff.2 hmem, hp⟩
  -- a run that is closed now was awaited, so it is not among the closed ones
  have hfresh : ∀ id r, s.cloudRuns.get? id = some r → p id r = true → id ∉ s.closed := by
    intro id r hr hp
    have hdispatched := hopen id r hp
    cases hs.rows id r hr with
    | awaited _ _ hnot _ => exact hnot
    | completed hstatus | failed hstatus | expired hstatus =>
      rw [hdispatched] at hstatus
      exact absurd hstatus (by decide)
  have hlater : s.Later (s.closeRuns p status) :=
    { Later.refl s with
      rows := fun id r' hr' _ => by
        obtain ⟨r, hr, ⟨hp, rfl⟩ | ⟨-, rfl⟩⟩ := hget id r' hr'
        · exact ⟨r, hr, ⟨rfl, rfl⟩, fun hclosed => absurd (hopen id r hp) hclosed⟩
        · exact ⟨r', hr, .refl r'⟩ }
  refine ⟨?_, hlater⟩
  exact
    { rows := fun id r' hr' => by
        obtain ⟨r, hr, ⟨hp, rfl⟩ | ⟨hnot, rfl⟩⟩ := hget id r' hr'
        · exact hwhy id r hr hp
        · cases hs.rows id r' hr with
          | awaited hstatus hnone hopened hpass =>
            refine .awaited hstatus hnone (fun hin => ?_) hpass
            rcases List.mem_append.1 hin with hin | hin
            · exact hopened hin
            · obtain ⟨r2, hr2, hp2⟩ := hnew id hin
              rw [hr] at hr2
              cases hr2
              exact Bool.noConfusion (hp2.symm.trans hnot)
          | completed hstatus htime hin hreport hrun happ hbucket hle =>
            exact .completed hstatus htime (List.mem_append_left _ hin) hreport hrun happ hbucket
              hle
          | failed hstatus htime hin hrefused =>
            exact .failed hstatus htime (List.mem_append_left _ hin) hrefused
          | expired hstatus htime hin hstale =>
            exact .expired hstatus htime (List.mem_append_left _ hin) hstale
      closedOnce := by
        refine List.nodup_append.2 ⟨hs.closedOnce, ?_, fun id hid id' hid' heq => ?_⟩
        · exact s.cloudRuns.keys_nodup.sublist (List.filter_sublist.map Prod.fst)
        · obtain ⟨r, hr, hp⟩ := hnew id' hid'
          exact hfresh id' r hr hp (heq ▸ hid)
      askedOnce := hs.askedOnce
      asked := fun d hd => ⟨hlater.wasBound (hs.asked d hd).1,
        hlater.about (hs.askedBelow d hd) (hs.asked d hd).2⟩
      below := fun id r' hr' => by
        obtain ⟨r, hr, -⟩ := hget id r' hr'
        exact hs.below id r hr
      closedBelow := fun id hid => by
        rcases List.mem_append.1 hid with hid | hid
        · exact hs.closedBelow id hid
        · obtain ⟨r, hr, -⟩ := hnew id hid
          exact hs.below id r hr
      askedBelow := hs.askedBelow
      bindings := hs.bindings
      reportsPast := hs.reportsPast
      passPast := hs.passPast }

/-- The id of a run that an update selects is among the closed ones. -/
theorem mem_closed_closeRuns {p : Int → CloudRunRow → Bool} {status : String}
    (hr : s.cloudRuns.get? id = some r) (hp : p id r = true) :
    id ∈ (s.closeRuns p status).closed :=
  List.mem_append_right _ (List.mem_map.2
    ⟨(id, r), List.mem_filter.2 ⟨Table.get?_eq_some_iff.1 hr, hp⟩, rfl⟩)

theorem completes_eq_true {run k : Int} {app bucket : String}
    (h : completes run app bucket k r = true) :
    k = run ∧ r.appId = app ∧ r.bucketId = bucket ∧ r.status = "dispatched" := by
  simp only [completes, Bool.and_eq_true, decide_eq_true_eq] at h
  exact ⟨h.1.1.1, h.1.1.2, h.1.2, h.2⟩

/-- A report closes the run that it names, if it is about its bucket. -/
theorem completeCloudRun_reported {report : CloudReport} (hs : s.Kept E)
    (hreport : report ∈ s.reports) :
    (s.completeCloudRun report.run report.app report.bucket "completed").1.Kept E ∧
      s.Later (s.completeCloudRun report.run report.app report.bucket "completed").1 := by
  refine closeRuns_spec (fun id r hp => (completes_eq_true hp).2.2.2) hs fun id r hr hp => ?_
  obtain ⟨hid, happ, hbucket, -⟩ := completes_eq_true hp
  exact .completed rfl rfl (mem_closed_closeRuns hr hp) hreport hid.symm happ.symm hbucket.symm
    (hs.reportsPast report hreport)

/-- A run whose dispatch came back as an error is closed. -/
theorem completeCloudRun_refused {run : Int} {app bucket : String} (hs : s.Kept E)
    (hrefused : run ∈ s.refused) :
    (s.completeCloudRun run app bucket "failed").1.Kept E ∧
      s.Later (s.completeCloudRun run app bucket "failed").1 := by
  refine closeRuns_spec (fun id r hp => (completes_eq_true hp).2.2.2) hs fun id r hr hp => ?_
  obtain ⟨rfl, -⟩ := completes_eq_true hp
  exact .failed rfl rfl (mem_closed_closeRuns hr hp) hrefused

/-- The pass leaves no run open that is older than the timeout. -/
theorem expireStaleCloudRuns_spec (hs : s.Kept E) :
    (s.expireStaleCloudRuns (cloudRunTimeout E)).Kept E ∧
      s.Later (s.expireStaleCloudRuns (cloudRunTimeout E)) := by
  have hstale : ∀ id r, s.stale (cloudRunTimeout E) id r = true →
      r.status = "dispatched" ∧ r.dispatchedAt < s.now - cloudRunTimeout E := by
    intro id r h
    simpa only [stale, Bool.and_eq_true, decide_eq_true_eq] using h
  obtain ⟨hkept, hlater⟩ : (s.closeRuns (s.stale (cloudRunTimeout E)) "expired").Kept E ∧
      s.Later (s.closeRuns (s.stale (cloudRunTimeout E)) "expired") :=
    closeRuns_spec (fun id r hp => (hstale id r hp).1) hs fun id r hr hp =>
      .expired rfl rfl (mem_closed_closeRuns hr hp) (hstale id r hp).2
  refine ⟨{ hkept with rows := fun id r' hr' => ?_, passPast := ?_ }, { hlater with }⟩
  · refine (hkept.rows id r' hr').later (List.Subset.refl _) (List.Subset.refl _)
      (List.Subset.refl _) fun hstatus hnone hnot hfresh => ?_
    refine .awaited hstatus hnone hnot fun pass hpass => ?_
    cases hpass
    obtain ⟨r, hr, hrest⟩ : ∃ r, s.cloudRuns.get? id = some r ∧
        (if s.stale (cloudRunTimeout E) id r then
          { r with status := "expired", completedAt := some s.now } else r) = r' := by
      have hr' : (s.closeRuns (s.stale (cloudRunTimeout E)) "expired").cloudRuns.get? id =
        some r' := hr'
      rw [closeRuns, Table.get?_update, Option.map_eq_some_iff] at hr'
      exact hr'
    cases hp : s.stale (cloudRunTimeout E) id r with
    | true =>
      rw [hp, if_pos rfl] at hrest
      subst hrest
      cases hnone
    | false =>
      rw [hp, if_neg Bool.false_ne_true] at hrest
      subst hrest
      simp only [stale, hstatus, decide_true, Bool.true_and, decide_eq_false_iff_not,
        not_lt] at hp
      exact hp
  · intro pass hpass
    cases hpass
    exact le_rfl

/-- A replay result is recorded with the run that it names. -/
theorem addReplayResult_spec (hs : s.Kept E) (app bucket : String) (body : Json) :
    (s.addReplayResult app bucket body).Kept E ∧ s.Later (s.addReplayResult app bucket body) ∧
      ∀ run, countOf body "runId" = some run →
        (⟨run, app, bucket, s.now⟩ : CloudReport) ∈
          (s.addReplayResult app bucket body).reports := by
  have hlater : s.Later (s.addReplayResult app bucket body) :=
    { Later.refl s with reports := List.subset_append_left _ _ }
  refine ⟨hs.of_rows hlater (fun _ _ => id) rfl rfl rfl rfl hs.bindings fun report hreport => ?_,
    hlater, fun run hrun => ?_⟩
  · rcases List.mem_append.1 hreport with hold | hnew
    · exact hs.reportsPast report hold
    · obtain ⟨run, -, rfl⟩ := Option.map_eq_some_iff.1 (Option.mem_toList.1 hnew)
      exact le_rfl
  · refine List.mem_append_right _ (Option.mem_toList.2 ?_)
    rw [hrun]
    rfl

/-- A dispatch is sent once for a run. -/
theorem kept_send {d : Dispatch} (hs : s.Kept E) (hbound : s.WasBound E d.app d.repo d.token)
    (hbelow : d.run < s.nextRunId) (hnew : d.run ∉ s.dispatches.map Dispatch.run)
    (habout : s.About d.run d.app d.bucket) :
    (s.send d).Kept E where
  rows id r hr := (hs.rows id r hr).later (List.Subset.refl _) (List.Subset.refl _)
    (List.Subset.refl _) fun hstatus hnone hopen hfresh => .awaited hstatus hnone hopen hfresh
  closedOnce := hs.closedOnce
  askedOnce := by
    rw [send, List.map_append, List.map_singleton]
    refine List.nodup_append.2
      ⟨hs.askedOnce, List.nodup_singleton _, fun run hrun run' hrun' heq => ?_⟩
    rw [List.mem_singleton.1 hrun'] at heq
    exact hnew (heq ▸ hrun)
  asked d' hd' := by
    rcases List.mem_append.1 hd' with hold | hd'
    · exact hs.asked d' hold
    · rw [List.mem_singleton.1 hd']
      exact ⟨hbound, habout⟩
  below := hs.below
  closedBelow := hs.closedBelow
  askedBelow d' hd' := by
    rcases List.mem_append.1 hd' with hold | hd'
    · exact hs.askedBelow d' hold
    · rw [List.mem_singleton.1 hd']
      exact hbelow
  bindings := hs.bindings
  reportsPast := hs.reportsPast
  passPast := hs.passPast

theorem later_send (s : CloudStore) (d : Dispatch) : s.Later (s.send d) := { Later.refl s with }

/-- An error is remembered. -/
theorem refuse_spec (hs : s.Kept E) (run : Int) :
    (s.refuse run).Kept E ∧ s.Later (s.refuse run) ∧ run ∈ (s.refuse run).refused := by
  have hlater : s.Later (s.refuse run) :=
    { Later.refl s with refused := List.subset_append_left _ _ }
  exact ⟨hs.of_rows hlater (fun _ _ => id) rfl rfl rfl rfl hs.bindings hs.reportsPast, hlater,
    List.mem_append_right _ (List.mem_singleton_self run)⟩

/-- What happens beside the requests. -/
theorem write_spec {w : CloudWrite} (h : w.write E s = some s') (hs : s.Kept E) :
    s'.Kept E ∧ s.Later s' ∧ s'.dispatches = s.dispatches := by
  cases w with
  | tick now =>
    rw [CloudWrite.write, Option.ite_none_right_eq_some] at h
    obtain ⟨hnow, heq⟩ := h
    cases heq
    have hlater : s.Later { s with now := now } := { Later.refl s with now := hnow }
    exact ⟨hs.of_rows hlater (fun _ _ => id) rfl rfl rfl rfl hs.bindings fun report hreport =>
      (hs.reportsPast report hreport).trans hnow, hlater, rfl⟩
  | bind app row =>
    cases h
    have hlater : s.Later (s.setIntegration app row) :=
      { Later.refl s with bound := List.subset_append_left _ _ }
    refine ⟨hs.of_rows hlater (fun _ _ => id) rfl rfl rfl rfl (fun app' row' hrow => ?_)
      hs.reportsPast, hlater, rfl⟩
    have hrow : (s.projectIntegrations.upsert app row fun _ => row).get? app' = some row' := hrow
    rw [Table.get?_upsert] at hrow
    by_cases happ : app' = app
    · rw [if_pos happ] at hrow
      have hsame : row' = row := by
        cases hold : s.projectIntegrations.get? app with
        | none =>
          rw [hold] at hrow
          exact (Option.some.inj hrow).symm
        | some old =>
          rw [hold] at hrow
          exact (Option.some.inj hrow).symm
      rw [happ, hsame]
      exact List.mem_append_right _ (List.mem_singleton_self _)
    · rw [if_neg happ] at hrow
      exact List.mem_append_left _ (hs.bindings app' row' hrow)
  | pass =>
    cases h
    obtain ⟨hkept, hlater⟩ := expireStaleCloudRuns_spec hs
    exact ⟨hkept, hlater, rfl⟩
  | clearBucket app bucket =>
    cases h
    have hrows : ∀ id r, (s.cloudRuns.delete fun _ r =>
        r.appId = app && r.bucketId = bucket).get? id = some r → s.cloudRuns.get? id = some r :=
      fun _ _ hr => (Table.get?_of_delete hr).1
    have hlater : s.Later { s with
        cloudRuns := s.cloudRuns.delete fun _ r => r.appId = app && r.bucketId = bucket
        replayResults :=
          s.replayResults.filter fun r => !(r.appId = app && r.bucketId = bucket) } :=
      { Later.refl s with rows := fun id r' hr' _ => ⟨r', hrows id r' hr', .refl r'⟩ }
    exact ⟨hs.of_rows hlater hrows rfl rfl rfl rfl hs.bindings hs.reportsPast, hlater, rfl⟩
  | deleteProject app =>
    cases h
    have hrows : ∀ id r, (s.cloudRuns.delete fun _ r => r.appId = app).get? id = some r →
        s.cloudRuns.get? id = some r :=
      fun _ _ hr => (Table.get?_of_delete hr).1
    have hlater : s.Later { s with
        cloudRuns := s.cloudRuns.delete fun _ r => r.appId = app
        replayResults := s.replayResults.filter fun r => r.appId ≠ app
        projectIntegrations := s.projectIntegrations.delete fun k _ => k = app } :=
      { Later.refl s with rows := fun id r' hr' _ => ⟨r', hrows id r' hr', .refl r'⟩ }
    exact ⟨hs.of_rows hlater hrows rfl rfl rfl rfl
      (fun app' row hrow => hs.bindings app' row (Table.get?_of_delete hrow).1) hs.reportsPast,
      hlater, rfl⟩

end Statements

end CloudStore

/-! ## Requests side by side -/

section Outline

variable {E : CloudEnv} {s s' : CloudStore}

/-- The run that a request is about to dispatch. -/
def CloudOp.toDispatch : CloudOp → Option Int
  | dispatching run .. => some run
  | _ => none

/-- What a request knows. -/
def CloudOp.Knows (E : CloudEnv) (s : CloudStore) : CloudOp → Prop
  | creating _ app _ repo token => s.WasBound E app repo token
  | dispatching run app bucket repo token =>
    s.WasBound E app repo token ∧ run < s.nextRunId ∧ run ∉ s.dispatches.map Dispatch.run ∧
      s.About run app bucket
  | failing run .. => run ∈ s.refused
  | closing run app bucket _ =>
    ∃ report ∈ s.reports, report.run = run ∧ report.app = app ∧ report.bucket = bucket
  | _ => True

/-- No two requests dispatch one run. -/
def CloudOp.Apart (o o' : CloudOp) : Prop :=
  ∀ run, o.toDispatch = some run → o'.toDispatch ≠ some run

theorem CloudOp.Apart.symm (o o' : CloudOp) (h : o.Apart o') : o'.Apart o :=
  fun run ho' ho => h run ho ho'

theorem CloudOp.apart_of_none {o o' : CloudOp} (h : o'.toDispatch = none) : o.Apart o' := by
  intro run _ ho'
  rw [h] at ho'
  cases ho'

/-- A step keeps what the others know if it sends nothing for their runs. -/
theorem CloudOp.Knows.later {o : CloudOp} (h : o.Knows E s) (hlater : s.Later s')
    (hnew : ∀ run, o.toDispatch = some run → run ∉ s.dispatches.map Dispatch.run →
      run ∉ s'.dispatches.map Dispatch.run) : o.Knows E s' := by
  cases o with
  | creating auth app bucket repo token => exact hlater.wasBound h
  | dispatching run app bucket repo token =>
    obtain ⟨hbound, hbelow, hnot, habout⟩ := h
    exact ⟨hlater.wasBound hbound, hbelow.trans_le hlater.nextRunId, hnew run rfl hnot,
      hlater.about hbelow habout⟩
  | failing run app bucket => exact hlater.refused h
  | closing run app bucket result =>
    obtain ⟨report, hreport, hrest⟩ := h
    exact ⟨report, hlater.reports hreport, hrest⟩
  | _ => trivial

/-- What a call of a request does. -/
structure CloudOp.Advances (E : CloudEnv) (s s' : CloudStore) (op : CloudOp)
    (next : Option CloudOp) : Prop where
  kept : s'.Kept E
  later : s.Later s'
  /-- It sends a dispatch for its own run only. -/
  sent : ∀ run, op.toDispatch ≠ some run → run ∉ s.dispatches.map Dispatch.run →
    run ∉ s'.dispatches.map Dispatch.run
  knows : ∀ op', next = some op' → op'.Knows E s'
  /-- What it goes on to dispatch is a new run. -/
  new : ∀ op' run, next = some op' → op'.toDispatch = some run → s.nextRunId ≤ run

/-- A call that sends no dispatch, and leads to none. -/
theorem CloudOp.advances {op op' : CloudOp} (hkept : s'.Kept E) (hlater : s.Later s')
    (hsame : s'.dispatches = s.dispatches) (hknows : op'.Knows E s')
    (hnone : op'.toDispatch = none) : op.Advances E s s' (some op') where
  kept := hkept
  later := hlater
  sent run _ hnot := by
    rw [hsame]
    exact hnot
  knows o ho := by
    cases ho
    exact hknows
  new o run ho hrun := by
    cases ho
    rw [hnone] at hrun
    cases hrun

theorem cloudNext_spec {chance : CloudChance} {op : CloudOp} {next : Option CloudOp}
    (h : cloudNext E s chance op = some (s', next)) (hs : s.Kept E) (hknows : op.Knows E s) :
    op.Advances E s s' next := by
  cases op with
  | configuring auth app bucket =>
    simp only [cloudNext] at h
    cases htarget : (if chance.result = .answered then
        dispatchTarget E (s.projectIntegrations.get? app)
      else .error (err 500 "internal error")) with
    | error reply =>
      rw [htarget] at h
      cases h
      exact CloudOp.advances hs (.refl s) rfl trivial rfl
    | ok target =>
      obtain ⟨repo, token⟩ := target
      rw [htarget] at h
      cases h
      refine CloudOp.advances hs (.refl s) rfl ?_ rfl
      split at htarget
      · cases hrow : s.projectIntegrations.get? app with
        | none =>
          rw [hrow] at htarget
          cases htarget
        | some row =>
          rw [hrow] at htarget
          exact ⟨row, hs.bindings app row hrow, htarget⟩
      · cases htarget
  | creating auth app bucket repo token =>
    simp only [cloudNext] at h
    cases hcreate : (if chance.result = .failed then none
        else s.createCloudRun app bucket (requestedBy auth)) with
    | none =>
      rw [hcreate] at h
      cases h
      exact CloudOp.advances hs (.refl s) rfl trivial rfl
    | some created =>
      obtain ⟨t, run⟩ := created
      rw [hcreate] at h
      cases h
      rw [Option.ite_none_left_eq_some] at hcreate
      obtain ⟨hkept, hlater, rfl, hnext, hsame, habout⟩ :=
        CloudStore.createCloudRun_spec hcreate.2 hs
      split
      · have hbelow : s.nextRunId < s'.nextRunId := by
          rw [hnext]
          exact Int.lt_succ _
        exact
          { kept := hkept
            later := hlater
            sent := fun run _ hnot => by
              rw [hsame]
              exact hnot
            knows := fun op' hop' => by
              cases hop'
              refine ⟨hlater.wasBound hknows, hbelow, fun hin => ?_, habout⟩
              rw [hsame] at hin
              obtain ⟨d, hd, hrun⟩ := List.mem_map.1 hin
              exact (hs.askedBelow d hd).ne hrun
            new := fun op' run hop' hrun => by
              cases hop'
              cases hrun
              exact le_rfl }
      · exact CloudOp.advances hkept hlater hsame trivial rfl
  | dispatching run app bucket repo token =>
    obtain ⟨hbound, hbelow, hnot, habout⟩ := hknows
    have hsent := CloudStore.kept_send (d := ⟨repo, token, app, bucket, run⟩) hs hbound hbelow hnot
      habout
    have hothers : ∀ run', some run ≠ some run' → run' ∉ s.dispatches.map Dispatch.run →
        run' ∉ (s.send ⟨repo, token, app, bucket, run⟩).dispatches.map Dispatch.run := by
      intro run' hne hold hin
      rw [CloudStore.send, List.map_append, List.mem_append] at hin
      rcases hin with hin | hin
      · exact hold hin
      · exact hne (congrArg some (List.mem_singleton.1 hin).symm)
    cases hresult : chance.result with
    | answered =>
      simp only [cloudNext, hresult] at h
      cases h
      exact
        { kept := hsent
          later := s.later_send _
          sent := hothers
          knows := fun op' hop' => by
            cases hop'
            trivial
          new := fun op' run' hop' hrun => by
            cases hop'
            cases hrun }
    | failed =>
      simp only [cloudNext, hresult] at h
      cases h
      obtain ⟨hkept, hlater, hrefused⟩ := CloudStore.refuse_spec hs run
      exact CloudOp.advances hkept hlater rfl hrefused rfl
    | unanswered =>
      simp only [cloudNext, hresult] at h
      cases h
      obtain ⟨hkept, hlater, hrefused⟩ := CloudStore.refuse_spec hsent run
      exact
        { kept := hkept
          later := (s.later_send _).trans hlater
          sent := hothers
          knows := fun op' hop' => by
            cases hop'
            exact hrefused
          new := fun op' run' hop' hrun => by
            cases hop'
            cases hrun }
  | failing run app bucket =>
    cases h
    split
    · exact CloudOp.advances hs (.refl s) rfl trivial rfl
    · obtain ⟨hkept, hlater⟩ := CloudStore.completeCloudRun_refused hs hknows
      exact CloudOp.advances hkept hlater rfl trivial rfl
  | recording app bucket body =>
    simp only [cloudNext] at h
    split at h
    · cases h
      exact CloudOp.advances hs (.refl s) rfl trivial rfl
    · obtain ⟨hkept, hlater, hreport⟩ :=
        CloudStore.addReplayResult_spec hs app bucket body
      split at h
      · cases h
        exact CloudOp.advances hs (.refl s) rfl trivial rfl
      · cases h
        exact CloudOp.advances hkept hlater rfl trivial rfl
      · cases h
        exact CloudOp.advances hkept hlater rfl trivial rfl
      · rename_i run _ hrun
        cases h
        exact CloudOp.advances hkept hlater rfl ⟨_, hreport run hrun, rfl, rfl, rfl⟩ rfl
  | closing run app bucket result =>
    cases h
    split
    · exact CloudOp.advances hs (.refl s) rfl trivial rfl
    · obtain ⟨report, hreport, rfl, rfl, rfl⟩ := hknows
      obtain ⟨hkept, hlater⟩ := CloudStore.completeCloudRun_reported hs hreport
      exact CloudOp.advances hkept hlater rfl trivial rfl
  | replied reply => cases h

theorem keepsOutline_cloudRequests :
    KeepsOutline (cloudRequests E) (fun _ _ _ => True) (CloudStore.Kept E)
      (fun s op => op.Knows E s) CloudOp.Apart where
  start t _ op _ _ hstarts := by
    cases op with
    | configuring auth app bucket => exact ⟨trivial, fun o _ => CloudOp.apart_of_none rfl⟩
    | recording app bucket body => exact ⟨trivial, fun o _ => CloudOp.apart_of_none rfl⟩
    | _ => cases hstarts
  commit t _ w s' houtline _ hwrite := by
    obtain ⟨hkept, hlater, hsame⟩ := CloudStore.write_spec hwrite houtline.store
    refine ⟨hkept, fun o ho => (houtline.each o ho).later hlater fun run _ hnot => ?_⟩
    rw [hsame]
    exact hnot
  advance t _ i chance op s' next houtline _ hop hnext := by
    have hadvances :=
      cloudNext_spec hnext houtline.store (houtline.each op (List.mem_of_getElem? hop))
    refine ⟨hadvances.kept, fun o ho => ?_, fun op' hop' => ⟨hadvances.knows op' hop', ?_⟩⟩
    · have hknows := houtline.each o (List.mem_of_mem_eraseIdx ho)
      have hapart := houtline.apart_at CloudOp.Apart.symm hop ho
      exact hknows.later hadvances.later fun run hrun hnot =>
        hadvances.sent run (fun hsame => hapart run hsame hrun) hnot
    · -- the run that it goes on to dispatch is newer than those of the others
      intro o ho run hrun hrun'
      have hnew := hadvances.new op' run hop' hrun'
      have hknows := houtline.each o (List.mem_of_mem_eraseIdx ho)
      cases o with
      | dispatching run' app bucket repo token =>
        cases hrun
        exact absurd hknows.2.1 (not_lt.2 hnew)
      | _ => cases hrun

/-- The store and the requests of a state. -/
def CloudRequests.Kept (E : CloudEnv) (t : CloudRequests) : Prop :=
  Outline (CloudStore.Kept E) (fun s op => op.Knows E s) CloudOp.Apart t

theorem CloudRequests.Kept.step {t t' : CloudRequests} {e : CloudEvent} (h : t.Kept E)
    (hstep : (cloudRequests E).step t e = some t') : t'.Kept E :=
  Outline.step keepsOutline_cloudRequests h hstep trivial

theorem CloudRequests.Kept.later {t t' : CloudRequests} {e : CloudEvent} (houtline : t.Kept E)
    (h : (cloudRequests E).step t e = some t') : t.store.Later t'.store := by
  cases Program.effect_of_step h with
  | start _ | abandon _ => exact .refl _
  | commit hwrite => exact (CloudStore.write_spec hwrite houtline.store).2.1
  | advance hop hnext =>
    exact (cloudNext_spec hnext houtline.store (houtline.each _ (List.mem_of_getElem? hop))).later

end Outline

/-- A ledger without runs. -/
def CloudStore.fresh (now : Micros) : CloudStore where
  now := now

theorem CloudStore.kept_fresh (E : CloudEnv) (now : Micros) : (CloudStore.fresh now).Kept E where
  rows _ _ hr := by cases hr
  closedOnce := List.nodup_nil
  askedOnce := List.nodup_nil
  asked _ hd := by cases hd
  below _ _ hr := by cases hr
  closedBelow _ hid := by cases hid
  askedBelow _ hd := by cases hd
  bindings _ _ hrow := by cases hrow
  reportsPast _ hreport := by cases hreport
  passPast _ hpass := by cases hpass

/-- The ledger says what has happened, and what is closed stays as it is. -/
theorem cloud_runs_accounted {E : CloudEnv} {now : Micros} {t t' : CloudRequests}
    {es es' : List CloudEvent}
    (hrun : Run (stepOf (cloudRequests E).step) ⟨.fresh now, []⟩ es t)
    (hrest : Run (stepOf (cloudRequests E).step) t es' t') :
    t'.store.Accounts E ∧ ∀ id r r', t.store.cloudRuns.get? id = some r → r.status ≠ "dispatched" →
      t'.store.cloudRuns.get? id = some r' → r' = r := by
  have hstart : CloudRequests.Kept E ⟨.fresh now, []⟩ :=
    outline_of_idle (CloudStore.kept_fresh E now) rfl
  have hkept : t.Kept E :=
    hrun.invariant (CloudRequests.Kept E) (fun _ _ _ hu hstep => hu.step hstep) hstart
  obtain ⟨hkept', hlater⟩ : t'.Kept E ∧ t.store.Later t'.store :=
    hrest.invariant (fun u => CloudRequests.Kept E u ∧ t.store.Later u.store)
      (fun _ _ _ hu hstep => ⟨hu.1.step hstep, hu.2.trans (hu.1.later hstep)⟩) ⟨hkept, .refl _⟩
  refine ⟨hkept'.store.toAccounts, fun id r r' hr hclosed hr' => ?_⟩
  obtain ⟨r2, hr2, hmoves⟩ := hlater.rows id r' hr' (hkept.store.below id r hr)
  rw [hr] at hr2
  cases hr2
  exact hmoves.final hclosed

def cloudServer : CloudEnv where
  secrets := keyless

/-- An app is bound to a repository. -/
def bindsShop : CloudEvent :=
  .commit (.bind "shop"
    { provider := "", extra := .null, dispatchRepo := some "acme/web",
      dispatchTokenEnc := some "pat" })

/-- Somebody asks for a reproduction, and the dispatch ends in a way. -/
def reproduces (i : Nat) (result : CallResult) : List CloudEvent :=
  [.start (.configuring (.org 1) "shop" "bkt"), .advance i {}, .advance i {},
    .advance i { result := result }]

/-- A replay result that names a run. -/
def reportsRun (i : Nat) (run : Int) : List CloudEvent :=
  [.start (.recording "shop" "bkt"
      (.object [("status", .string "reproduced"), ("runId", .number (.int run))])),
    .advance i {}, .advance i {}]

/-- Three reproductions: one is reported on, one is not dispatched, and one is not reported on.
The first is reported on again after the others. -/
theorem cloud_runs_accounted_shop :
    ∃ es es' t t' r, Run (stepOf (cloudRequests cloudServer).step) ⟨.fresh 0, []⟩ es t ∧
      Run (stepOf (cloudRequests cloudServer).step) t es' t' ∧
      t'.store.cloudRuns.rows.map (fun r => (r.1, r.2.status)) =
        [(1, "completed"), (2, "failed"), (3, "expired")] ∧
      t'.store.Accounts cloudServer ∧ t.store.cloudRuns.get? 1 = some r ∧
      t'.store.cloudRuns.get? 1 = some r := by
  have hsome : ((runOf (cloudRequests cloudServer).step ⟨.fresh 0, []⟩
      (bindsShop :: reproduces 0 .answered ++ reportsRun 1 1)).bind fun t =>
        (runOf (cloudRequests cloudServer).step t
          (reproduces 2 .failed ++ [.advance 2 {}] ++ reproduces 3 .answered ++
            [.commit (.tick 1800000001), .commit .pass] ++ reportsRun 4 1)).map fun t' =>
          ((t.store.cloudRuns.get? 1).map CloudRunRow.status,
            (t'.store.cloudRuns.get? 1).isSome,
            t'.store.cloudRuns.rows.map fun r => (r.1, r.2.status))) =
      some (some "completed", true, [(1, "completed"), (2, "failed"), (3, "expired")]) := by decide
  obtain ⟨t, ht, hrest⟩ := Option.bind_eq_some_iff.1 hsome
  obtain ⟨t', ht', hend⟩ := Option.map_eq_some_iff.1 hrest
  simp only [Prod.mk.injEq, Option.map_eq_some_iff] at hend
  obtain ⟨⟨r, hr, hstatus⟩, hthere, hrows⟩ := hend
  obtain ⟨r', hr'⟩ := Option.isSome_iff_exists.1 hthere
  have hrun := Run.of_runOf ht
  have hrun' := Run.of_runOf ht'
  obtain ⟨haccounts, hstays⟩ := cloud_runs_accounted hrun hrun'
  have hclosed : r.status ≠ "dispatched" := by
    rw [hstatus]
    decide
  obtain rfl := hstays 1 r r' hr hclosed hr'
  exact ⟨_, _, t, t', r', hrun, hrun', hrows, haccounts, hr, hr'⟩

end ReproitCloud
