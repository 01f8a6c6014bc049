import ReproitCloud.Lib.ChangeLog
import ReproitCloud.Lib.Processes
import ReproitCloud.Telemetry.Consistency
import ReproitCloud.Triage.Reads

/-!
# The resolution sweep

A sweep of a tenant lists the buckets with a fix anchor and takes them one after the
other.  For each it reads the rows that the resolution is computed from, reads the status
that was stored last, appends an event when the two differ, tells the tracker of a
resolved or a regressed bucket, and stores the status.  A call that fails ends the bucket
and the sweep goes on to the next one.

`SweepOp` says at which call a sweep is, with what it has read.  Any number of sweeps run
over the tenant at a time, and each may end between two calls.

The event comes before the status it leads to, so a sweep that ends in between leaves an
event which the next one repeats, and two sweeps that read one status record their events
from it both.

* `resolution_log_is_faithful`: as long as a sweep that has recorded an event stores the
  status, and no status is written over one that the sweep has not read, the events are
  the changes of the stored status, each once and in order.
* `lost_status_repeats_event`: the status is not stored, and the event is recorded again.
-/

namespace ReproitCloud

open Lib

/-! ## The tables and their statements -/

/-- A tenant's telemetry and triage tables. -/
structure SweepStore where
  telemetry : TenantStore := .empty
  /-- The statuses that have been stored, in order.  The code keeps the last of a bucket. -/
  stored : List ((String × String) × String) := []

/-- A bucket with the build that is to have fixed it. -/
structure AnchoredBucket where
  appId : String
  bucketId : String
  fixedInBuild : String
deriving DecidableEq, Repr

/-- `anchored_buckets`. -/
def anchoredBuckets (t : TenantStore) : List AnchoredBucket :=
  ((t.bucketTriage.rows.filterMap fun r =>
    (r.2.fixedInBuild.filter (· ≠ "")).map fun build => (⟨r.1.1, r.1.2, build⟩ : AnchoredBucket))).insertionSort
      fun a b => a.appId < b.appId ∨ a.appId = b.appId ∧ a.bucketId ≤ b.bucketId

/-- `last_resolution_status`. -/
def lastResolutionStatus (t : TenantStore) (app bucket : String) : Option String :=
  (t.bucketResolutionStatus.get? (app, bucket)).map Prod.fst

/-- `upsert_resolution_status`. -/
def upsertResolutionStatus (s : SweepStore) (app bucket status : String)
    (build : Option String) : SweepStore where
  telemetry := { s.telemetry with
    bucketResolutionStatus :=
      s.telemetry.bucketResolutionStatus.upsert (app, bucket) (status, build)
        fun _ => (status, build) }
  stored := s.stored ++ [((app, bucket), status)]

/-- `record_resolution_event`. -/
def recordResolutionEvent (s : SweepStore) (app bucket : String) (fromStatus : Option String)
    (toStatus : String) (build : Option String) : SweepStore :=
  { s with telemetry := { s.telemetry with
      bucketResolutionEvents :=
        s.telemetry.bucketResolutionEvents ++ [⟨app, bucket, fromStatus, toStatus, build⟩] } }

/-- `transition`: whether there is an event to record, and its `from`. -/
def transition (prev : Option String) (current : String) : Option (Option String) :=
  match prev with
  | none => none
  | some p => if p = current then none else some (some p)

/-- A transition is recorded exactly from a status that is stored and another one. -/
theorem transition_eq_some {prev fromStatus : Option String} {current : String} :
    transition prev current = some fromStatus ↔
      ∃ p, prev = some p ∧ fromStatus = some p ∧ p ≠ current := by
  cases prev with
  | none => simp [transition]
  | some p =>
    by_cases h : p = current
    · simp [transition, h]
    · simp only [transition, if_neg h]
      constructor
      · rintro ⟨⟩
        exact ⟨p, rfl, rfl, h⟩
      · rintro ⟨_, ⟨⟩, rfl, -⟩
        rfl

/-- `upsert_triage`. -/
def upsertTriage (t : TenantStore) (app bucket status : String) (assignee : Option Nat)
    (fixedInBuild : Option String) : TenantStore :=
  { t with
    bucketTriage := t.bucketTriage.upsert (app, bucket) ⟨status, assignee, fixedInBuild⟩
      fun _ => ⟨status, assignee, fixedInBuild⟩ }

/-- `advance_triage_unless_wontfix`.  A regressed bucket takes the new anchor, any other
keeps the one it has. -/
def advanceTriageUnlessWontfix (t : TenantStore) (app bucket status : String)
    (fixedInBuild : Option String) : TenantStore :=
  { t with
    bucketTriage := t.bucketTriage.upsert (app, bucket) ⟨status, none, fixedInBuild⟩
      fun row =>
        if row.status = "wontfix" then row
        else { row with
          status := status
          fixedInBuild :=
            if lastResolutionStatus t app bucket = some "regressed" then fixedInBuild
            else row.fixedInBuild.or fixedInBuild } }

/-! ## The processes -/

/-- Where a sweep is with a bucket. -/
inductive SweepPoint where
  /-- `build_traffic`. -/
  | readingTraffic
  /-- `recent_errors_with_meta`, of an app without traffic. -/
  | readingRecent
  /-- `errors_for_bucket`. -/
  | readingOccurrences (weighted : List (Occurrence × Nat)) (recent : List Occurrence)
  /-- `last_resolution_status`, with the status computed. -/
  | readingStatus (current : String)
  /-- `record_resolution_event`. -/
  | recording (fromStatus : Option String) (current : String)
  /-- The calls to the tracker, after the event. -/
  | telling (current : String)
  /-- `upsert_resolution_status`, with or without an event before it. -/
  | persisting (current : String) (recorded : Bool)
deriving DecidableEq, Repr

/-- Where a sweep is. -/
inductive SweepOp where
  /-- `anchored_buckets`.  `now` is the time the sweep evaluates for. -/
  | anchoring (now : Rfc3339)
  /-- `sweep_bucket`, with the buckets left. -/
  | sweeping (b : AnchoredBucket) (rest : List AnchoredBucket) (now : Rfc3339)
    (point : SweepPoint)
deriving DecidableEq, Repr

def SweepOp.starts : SweepOp → Bool
  | anchoring _ => true
  | sweeping _ _ _ _ => false

/-- The next bucket of a sweep. -/
def nextBucket (now : Rfc3339) : List AnchoredBucket → Option SweepOp
  | [] => none
  | b :: rest => some (.sweeping b rest now .readingTraffic)

/-- The status of the evaluation, once all rows are read. -/
def sweptStatus (cfg : ResolutionConfig) (t : TenantStore) (b : AnchoredBucket) (now : Rfc3339)
    (weighted : List (Occurrence × Nat)) (recent : List Occurrence) : String :=
  (evaluateOn cfg (occurrencesOf (errorsForBucket t b.appId b.bucketId cfg.baselineSample))
    weighted recent (some b.fixedInBuild) now).status.asStr

/-- What a call does when it takes effect. -/
def SweepOp.effect (s : SweepStore) : SweepOp → SweepStore
  | sweeping b _ _ (.recording fromStatus current) =>
    recordResolutionEvent s b.appId b.bucketId fromStatus current (some b.fixedInBuild)
  | sweeping b _ _ (.persisting current _) =>
    upsertResolutionStatus s b.appId b.bucketId current (some b.fixedInBuild)
  | _ => s

/-- Where a bucket goes from a call that was answered, if not to its end. -/
def SweepPoint.next (cfg : ResolutionConfig) (t : TenantStore) (b : AnchoredBucket)
    (now : Rfc3339) : SweepPoint → Option SweepPoint
  | .readingTraffic =>
    let weighted := weightedTraffic (buildTrafficOf t b.appId)
    if weighted.isEmpty then some .readingRecent else some (.readingOccurrences weighted [])
  | .readingRecent =>
    some (.readingOccurrences []
      (occurrencesOf (recentErrorsWithMeta t b.appId cfg.baselineSample)))
  | .readingOccurrences weighted recent =>
    some (.readingStatus (sweptStatus cfg t b now weighted recent))
  | .readingStatus current =>
    match transition (lastResolutionStatus t b.appId b.bucketId) current with
    | some fromStatus => some (.recording fromStatus current)
    | none => some (.persisting current false)
  | .recording _ current =>
    if current = "resolved" ∨ current = "regressed" then some (.telling current)
    else some (.persisting current true)
  | .telling current => some (.persisting current true)
  | .persisting _ _ => none

/-- Where a sweep goes from a call that was answered, or failed.  The calls to the tracker
are swallowed, and any other that fails ends the bucket. -/
def SweepOp.next (cfg : ResolutionConfig) (t : TenantStore) (answered : Bool) :
    SweepOp → Option SweepOp
  | anchoring now => if answered then nextBucket now (anchoredBuckets t) else none
  | sweeping b rest now (.telling current) => some (.sweeping b rest now (.persisting current true))
  | sweeping b rest now point =>
    match if answered then point.next cfg t b now else none with
    | some point' => some (.sweeping b rest now point')
    | none => nextBucket now rest

/-- The next call of a sweep. -/
def sweepNext (cfg : ResolutionConfig) (s : SweepStore) (result : CallResult) (op : SweepOp) :
    SweepStore × Option SweepOp :=
  match result with
  | .failed => (s, op.next cfg s.telemetry false)
  | .answered => (op.effect s, op.next cfg s.telemetry true)
  | .unanswered => (op.effect s, op.next cfg s.telemetry false)

/-- What a step is: a call that failed, or a call that took effect. -/
theorem sweepNext_cases (cfg : ResolutionConfig) (s : SweepStore) (result : CallResult)
    (op : SweepOp) :
    (result = .failed ∧ sweepNext cfg s result op = (s, op.next cfg s.telemetry false)) ∨
      (result ≠ .failed ∧ sweepNext cfg s result op =
        (op.effect s, op.next cfg s.telemetry (result = .answered))) := by
  cases result with
  | failed => exact .inl ⟨rfl, rfl⟩
  | answered | unanswered => exact .inr ⟨nofun, rfl⟩

/-- The writes of others: telemetry comes and expires, and buckets are triaged. -/
inductive SweepCommit where
  | ingest (now : Micros) (batch : IngestBatch)
  | expire (now : Micros) (days : Int) (limit : Nat) (ids : List Nat)
  | triage (app bucket status : String) (assignee : Option Nat) (fixedInBuild : Option String)
  | advance (app bucket status : String) (fixedInBuild : Option String)

def commitSweep (P : Platform) (s : SweepStore) : SweepCommit → Option SweepStore
  | .ingest now b =>
    (commitTelemetry P s.telemetry (.ingest now b)).map fun t => { s with telemetry := t }
  | .expire now days limit ids =>
    (commitTelemetry P s.telemetry
      (.deleteErrors (expiredErrors s.telemetry now days limit) ids)).map fun t =>
        { s with telemetry := t }
  | .triage app bucket status assignee fixedInBuild =>
    some { s with telemetry := upsertTriage s.telemetry app bucket status assignee fixedInBuild }
  | .advance app bucket status fixedInBuild =>
    some { s with telemetry := advanceTriageUnlessWontfix s.telemetry app bucket status fixedInBuild }

/-- The sweeps of a tenant. -/
def sweeps (P : Platform) (cfg : ResolutionConfig) :
    Program SweepStore SweepOp CallResult SweepCommit where
  starts _ op := op.starts
  next s _ result op := some (sweepNext cfg s result op)
  write s _ c := commitSweep P s c

abbrev Sweeping := Pool SweepStore SweepOp

abbrev SweepEvent := PoolEvent SweepOp CallResult SweepCommit

/-- A new tenant. -/
def Sweeping.init : Sweeping := ⟨{}, []⟩

/-- A sweep that nothing comes in between of computes what `compute_for_bucket` does. -/
theorem sweptStatus_eq (cfg : ResolutionConfig) (t : TenantStore) (b : AnchoredBucket)
    (now : Rfc3339) :
    (computeForBucket cfg t {} b.appId b.bucketId b.fixedInBuild now).map
        (fun r => r.1.status.asStr) =
      some (sweptStatus cfg t b now (weightedTraffic (buildTrafficOf t b.appId))
        (occurrencesOf (recentErrorsWithMeta t b.appId cfg.baselineSample))) := by
  simp [computeForBucket, sweptStatus]

/-! ## The log of a bucket -/

/-- The events of a bucket, in id order. -/
def SweepStore.eventsFor (s : SweepStore) (app bucket : String) : List ResolutionEventRow :=
  s.telemetry.bucketResolutionEvents.filter fun e => (e.appId, e.bucketId) = (app, bucket)

/-- The statuses that have been stored for a bucket, in order. -/
def SweepStore.historyFor (s : SweepStore) (app bucket : String) : List String :=
  (s.stored.filter fun r => r.1 = (app, bucket)).map Prod.snd

/-- The status of an event that a sweep has recorded and not stored yet. -/
def SweepOp.recorded? : SweepOp → Option ((String × String) × String)
  | sweeping b _ _ (.telling current) => some ((b.appId, b.bucketId), current)
  | sweeping b _ _ (.persisting current true) => some ((b.appId, b.bucketId), current)
  | _ => none

/-- The same of one bucket. -/
def SweepOp.announced (app bucket : String) (op : SweepOp) : Option String :=
  (op.recorded?.filter fun r => r.1 = (app, bucket)).map Prod.snd

/-- The statuses of a bucket that are still to be stored. -/
def announcements (app bucket : String) (ops : List SweepOp) : List String :=
  ops.filterMap (SweepOp.announced app bucket)

/-- The events of a bucket are a faithful chain: each starts where the one before it ended,
none is from a status to itself, the last one ends at the stored status, and they are the
changes of the stored status, none twice and none left out. -/
structure FaithfulLog (s : SweepStore) (app bucket : String) : Prop where
  chain : (s.eventsFor app bucket).IsChain fun e e' => e'.fromStatus = some e.toStatus
  moves : ∀ e ∈ s.eventsFor app bucket, e.fromStatus ≠ some e.toStatus
  last : ∀ e, (s.eventsFor app bucket).getLast? = some e →
    lastResolutionStatus s.telemetry app bucket = some e.toStatus
  changes : (s.eventsFor app bucket).map (fun e => (e.fromStatus, e.toStatus)) =
    (Lib.changes (s.historyFor app bucket)).map fun c => (some c.1, c.2)

/-- Events that are the changes of the stored status are a faithful chain. -/
theorem faithfulLog_of_changes {s : SweepStore} {app bucket : String}
    (hstatus : lastResolutionStatus s.telemetry app bucket = (s.historyFor app bucket).getLast?)
    (hlog : (s.eventsFor app bucket).map (fun e => (e.fromStatus, e.toStatus)) =
      (Lib.changes (s.historyFor app bucket)).map fun c => (some c.1, c.2)) :
    FaithfulLog s app bucket := by
  refine ⟨?_, fun e he => ?_, fun e he => ?_, hlog⟩
  · have hpairs : ((s.eventsFor app bucket).map fun e => (e.fromStatus, e.toStatus)).IsChain
        fun p q => q.1 = some p.2 := by
      rw [hlog, List.isChain_map]
      exact (changes_isChain _).imp fun c d hcd => congrArg some hcd
    rwa [List.isChain_map] at hpairs
  · have hmem : (e.fromStatus, e.toStatus) ∈ (s.eventsFor app bucket).map
        fun e => (e.fromStatus, e.toStatus) := List.mem_map_of_mem he
    rw [hlog] at hmem
    obtain ⟨c, hc, heq⟩ := List.mem_map.1 hmem
    rw [Prod.mk.injEq] at heq
    rw [← heq.1, ← heq.2, ne_eq, Option.some.injEq]
    exact ne_of_mem_changes hc
  · have hlast : ((s.eventsFor app bucket).map fun e => (e.fromStatus, e.toStatus)).getLast? =
        some (e.fromStatus, e.toStatus) := by rw [List.getLast?_map, he]; rfl
    rw [hlog, List.getLast?_map] at hlast
    obtain ⟨c, hc, heq⟩ := Option.map_eq_some_iff.1 hlast
    rw [Prod.mk.injEq] at heq
    rw [hstatus, getLast?_changes hc, heq.2]

/-! ## The condition -/

/-- The call of a sweep at a bucket, as it should be.  An event is recorded while the
status is the one that was read and no other sweep has an event before its status, and the
sweep hears of it.  The status of an event is stored, and a status without an event is
stored over none or over itself. -/
def SweepPoint.inTurn (s : Sweeping) (app bucket : String) (result : CallResult) :
    SweepPoint → Prop
  | .recording fromStatus _ => result ≠ .failed →
    result = .answered ∧ fromStatus = lastResolutionStatus s.store.telemetry app bucket ∧
      announcements app bucket s.inFlight = []
  | .persisting _ true => result ≠ .failed
  | .persisting current false => result ≠ .failed →
    ∀ status, lastResolutionStatus s.store.telemetry app bucket = some status → status = current
  | _ => True

/-- The guard of a run for a bucket. -/
def SweepsInTurn (app bucket : String) (s : Sweeping) : SweepEvent → Sweeping → Prop
  | .advance i result, _ => ∀ b rest now point,
      s.inFlight[i]? = some (.sweeping b rest now point) → (b.appId, b.bucketId) = (app, bucket) →
      point.inTurn s app bucket result
  | .abandon i, _ => ∀ op, s.inFlight[i]? = some op → op.announced app bucket = none
  | _, _ => True

/-- An event to record is from one status to another. -/
def SweepOp.Moves : SweepOp → Prop
  | sweeping _ _ _ (.recording fromStatus current) =>
    ∃ prev, fromStatus = some prev ∧ prev ≠ current
  | _ => True

/-- The events are the changes of the stored status and of the one that is announced. -/
structure LogKept (app bucket : String) (s : Sweeping) : Prop where
  status : lastResolutionStatus s.store.telemetry app bucket =
    (s.store.historyFor app bucket).getLast?
  log : (s.store.eventsFor app bucket).map (fun e => (e.fromStatus, e.toStatus)) =
    (changes (s.store.historyFor app bucket ++ announcements app bucket s.inFlight)).map
      fun c => (some c.1, c.2)
  single : (announcements app bucket s.inFlight).length ≤ 1
  seeded : announcements app bucket s.inFlight ≠ [] → s.store.historyFor app bucket ≠ []
  moves : ∀ op ∈ s.inFlight, op.Moves

section Steps

variable {cfg : ResolutionConfig} {s s' : Sweeping} {app bucket : String} {i : Nat} {op : SweepOp}
  {store : SweepStore}

/-- Lists of one element at most that are permutations of each other. -/
theorem eq_of_perm_single {α : Type} {xs ys : List α} (h : xs.Perm ys) (hlen : xs.length ≤ 1) :
    xs = ys := by
  cases xs with
  | nil => exact (List.nil_perm.1 h).symm
  | cons x xs =>
    cases xs with
    | nil => exact (List.perm_singleton.1 h.symm).symm
    | cons y xs =>
      simp at hlen

/-- A step that the log of the bucket does not see. -/
theorem LogKept.of_same {ops : List SweepOp} (h : LogKept app bucket s)
    (hstatus : lastResolutionStatus store.telemetry app bucket =
      lastResolutionStatus s.store.telemetry app bucket)
    (hevents : store.eventsFor app bucket = s.store.eventsFor app bucket)
    (hhistory : store.historyFor app bucket = s.store.historyFor app bucket)
    (hannounced : (announcements app bucket s.inFlight).Perm (announcements app bucket ops))
    (hmoves : ∀ op ∈ ops, op.Moves) : LogKept app bucket ⟨store, ops⟩ := by
  have heq := eq_of_perm_single hannounced h.single
  constructor
  · rw [hstatus, hhistory]
    exact h.status
  · rw [hevents, hhistory, ← heq]
    exact h.log
  · rw [← heq]
    exact h.single
  · rw [hhistory, ← heq]
    exact h.seeded
  · exact hmoves

/-- A sweep at another bucket than the one looked at has nothing announced for it. -/
theorem announced_other {b : AnchoredBucket} (hkey : (b.appId, b.bucketId) ≠ (app, bucket))
    (rest : List AnchoredBucket) (now : Rfc3339) (point : SweepPoint) :
    (SweepOp.sweeping b rest now point).announced app bucket = none := by
  cases point with
  | telling current => simp [SweepOp.announced, SweepOp.recorded?, hkey]
  | persisting current recorded =>
    cases recorded with
    | true => simp [SweepOp.announced, SweepOp.recorded?, hkey]
    | false => rfl
  | readingTraffic | readingRecent | readingOccurrences _ _ | readingStatus _ | recording _ _ =>
    rfl

theorem announced_nextBucket (app bucket : String) (now : Rfc3339) (rest : List AnchoredBucket) :
    (nextBucket now rest).bind (SweepOp.announced app bucket) = none := by
  cases rest <;> rfl

theorem moves_nextBucket {now : Rfc3339} {rest : List AnchoredBucket} {op' : SweepOp}
    (h : nextBucket now rest = some op') : op'.Moves := by
  cases rest with
  | nil => cases h
  | cons b rest =>
    cases h
    trivial

/-- A sweep goes on at its bucket, or to the next one. -/
theorem next_sweeping (cfg : ResolutionConfig) (t : TenantStore) (answered : Bool)
    (b : AnchoredBucket) (rest : List AnchoredBucket) (now : Rfc3339) (point : SweepPoint) :
    (∃ point', (SweepOp.sweeping b rest now point).next cfg t answered =
        some (.sweeping b rest now point') ∧
        (point.next cfg t b now = some point' ∨
          ∃ current, point = .telling current ∧ point' = .persisting current true)) ∨
      (SweepOp.sweeping b rest now point).next cfg t answered = nextBucket now rest := by
  cases point with
  | telling current => exact .inl ⟨_, rfl, .inr ⟨current, rfl, rfl⟩⟩
  | readingTraffic | readingRecent | readingOccurrences _ _ | readingStatus _ | recording _ _
    | persisting _ _ =>
    cases answered with
    | false => exact .inr rfl
    | true =>
      rw [SweepOp.next, if_pos rfl]
      · split
        · rename_i point' hpoint
          exact .inl ⟨point', rfl, .inl hpoint⟩
        · exact .inr rfl
      · exact nofun

/-- An event to record is one that `transition` has decided. -/
theorem moves_next {t : TenantStore} {answered : Bool} {op' : SweepOp}
    (h : op.next cfg t answered = some op') : op'.Moves := by
  cases op with
  | anchoring now =>
    rw [SweepOp.next, Option.ite_none_right_eq_some] at h
    exact moves_nextBucket h.2
  | sweeping b rest now point =>
    rcases next_sweeping cfg t answered b rest now point with
      ⟨point', hthis, hpoint⟩ | hthis
    · rw [hthis] at h
      cases h
      rcases hpoint with hpoint | ⟨current, -, rfl⟩
      · cases point with
        | readingTraffic =>
          rw [SweepPoint.next] at hpoint
          split at hpoint <;> cases hpoint <;> trivial
        | readingStatus current =>
          rw [SweepPoint.next] at hpoint
          split at hpoint
          · rename_i fromStatus htransition
            cases hpoint
            obtain ⟨prev, -, hfrom, hne⟩ := transition_eq_some.1 htransition
            exact ⟨prev, hfrom, hne⟩
          · cases hpoint
            trivial
        | recording fromStatus current =>
          rw [SweepPoint.next] at hpoint
          split at hpoint <;> cases hpoint <;> trivial
        | readingRecent | readingOccurrences _ _ | telling _ =>
          cases hpoint
          trivial
        | persisting _ _ => cases hpoint
      · trivial
    · rw [hthis] at h
      exact moves_nextBucket h

/-- A sweep that has recorded an event of the bucket has its status announced. -/
theorem announced_this {b : AnchoredBucket} (hkey : (b.appId, b.bucketId) = (app, bucket))
    (rest : List AnchoredBucket) (now : Rfc3339) (current : String) :
    (SweepOp.sweeping b rest now (.telling current)).announced app bucket = some current ∧
      (SweepOp.sweeping b rest now (.persisting current true)).announced app bucket =
        some current := by
  constructor <;> simp [SweepOp.announced, SweepOp.recorded?, hkey, Option.filter]

/-- A sweep goes on with an event announced from the call that records it, answered, and
until the status is stored. -/
theorem announced_next (cfg : ResolutionConfig) (t : TenantStore) (answered : Bool)
    (b : AnchoredBucket) (rest : List AnchoredBucket) (now : Rfc3339) (point : SweepPoint)
    (hkey : (b.appId, b.bucketId) = (app, bucket)) :
    ((SweepOp.sweeping b rest now point).next cfg t answered).bind
        (SweepOp.announced app bucket) =
      match point with
      | .recording _ current => if answered then some current else none
      | .telling current => some current
      | _ => none := by
  have hnext := announced_nextBucket app bucket now rest
  cases point with
  | telling current => exact (announced_this hkey rest now current).2
  | readingTraffic =>
    cases answered with
    | false => exact hnext
    | true =>
      rw [SweepOp.next, if_pos rfl, SweepPoint.next]
      · cases (weightedTraffic (buildTrafficOf t b.appId)).isEmpty <;> rfl
      · exact nofun
  | readingStatus current =>
    cases answered with
    | false => exact hnext
    | true =>
      rw [SweepOp.next, if_pos rfl, SweepPoint.next]
      · cases transition (lastResolutionStatus t b.appId b.bucketId) current <;> rfl
      · exact nofun
  | readingRecent | readingOccurrences _ _ | persisting _ _ =>
    cases answered with
    | false => exact hnext
    | true => first | exact hnext | rfl
  | recording fromStatus current =>
    cases answered with
    | false => exact hnext
    | true =>
      rw [SweepOp.next, if_pos rfl, SweepPoint.next]
      · by_cases htells : current = "resolved" ∨ current = "regressed"
        · rw [if_pos htells]
          exact (announced_this hkey rest now current).1
        · rw [if_neg htells]
          exact (announced_this hkey rest now current).2
      · exact nofun

/-- A call at another bucket is not seen. -/
theorem effect_other {u : SweepStore} {b : AnchoredBucket}
    (hkey : (b.appId, b.bucketId) ≠ (app, bucket)) (rest : List AnchoredBucket) (now : Rfc3339)
    (point : SweepPoint) :
    lastResolutionStatus ((SweepOp.sweeping b rest now point).effect u).telemetry app bucket =
        lastResolutionStatus u.telemetry app bucket ∧
      ((SweepOp.sweeping b rest now point).effect u).eventsFor app bucket =
        u.eventsFor app bucket ∧
      ((SweepOp.sweeping b rest now point).effect u).historyFor app bucket =
        u.historyFor app bucket := by
  cases point with
  | recording fromStatus current =>
    refine ⟨rfl, ?_, rfl⟩
    rw [SweepOp.effect, recordResolutionEvent, SweepStore.eventsFor, List.filter_append,
      List.filter_cons_of_neg (by simpa using hkey), List.filter_nil, List.append_nil]
    rfl
  | persisting current recorded =>
    refine ⟨?_, rfl, ?_⟩
    · refine congrArg (Option.map Prod.fst) ((Table.get?_upsert ..).trans (if_neg ?_))
      exact Ne.symm hkey
    · simp [SweepOp.effect, upsertResolutionStatus, SweepStore.historyFor, List.filter_append, hkey]
  | readingTraffic | readingRecent | readingOccurrences _ _ | readingStatus _ | telling _ =>
    exact ⟨rfl, rfl, rfl⟩

theorem eventsFor_record {u : SweepStore} (fromStatus : Option String) (current : String)
    (build : Option String) :
    (recordResolutionEvent u app bucket fromStatus current build).eventsFor app bucket =
      u.eventsFor app bucket ++ [⟨app, bucket, fromStatus, current, build⟩] := by
  simp [recordResolutionEvent, SweepStore.eventsFor, List.filter_append]

theorem lastResolutionStatus_upsert {u : SweepStore} (current : String) (build : Option String) :
    lastResolutionStatus (upsertResolutionStatus u app bucket current build).telemetry app bucket =
      some current := by
  refine (congrArg (Option.map Prod.fst) (Table.get?_upsert ..)).trans ?_
  rw [if_pos rfl]
  cases u.telemetry.bucketResolutionStatus.get? (app, bucket) <;> rfl

theorem historyFor_upsert {u : SweepStore} (current : String) (build : Option String) :
    (upsertResolutionStatus u app bucket current build).historyFor app bucket =
      u.historyFor app bucket ++ [current] := by
  simp [upsertResolutionStatus, SweepStore.historyFor, List.filter_append]

/-- The step of `record_resolution_event`. -/
theorem LogKept.recorded {ops : List SweepOp} {prev current : String} (h : LogKept app bucket s)
    (hnone : announcements app bucket s.inFlight = [])
    (hprev : lastResolutionStatus s.store.telemetry app bucket = some prev) (hne : prev ≠ current)
    (build : Option String) (hannounced : announcements app bucket ops = [current])
    (hmoves : ∀ op ∈ ops, op.Moves) :
    LogKept app bucket ⟨recordResolutionEvent s.store app bucket (some prev) current build, ops⟩ := by
  have hlast : (s.store.historyFor app bucket).getLast? = some prev := h.status.symm.trans hprev
  refine ⟨h.status, ?_, ?_, ?_, hmoves⟩
  · have hlog := h.log
    rw [hnone, List.append_nil] at hlog
    rw [eventsFor_record, List.map_append, hlog, hannounced]
    show _ = (changes (s.store.historyFor app bucket ++ [current])).map _
    rw [changes_snoc_ne hlast hne, List.map_append]
    rfl
  · rw [hannounced]
    exact le_refl 1
  · intro _ hempty
    have hnil : s.store.historyFor app bucket = [] := hempty
    rw [hnil] at hlast
    cases hlast

/-- The step of `upsert_resolution_status`, of a status that was announced. -/
theorem LogKept.persisted {ops : List SweepOp} {current : String} (h : LogKept app bucket s)
    (hannounced : announcements app bucket s.inFlight = [current]) (build : Option String)
    (hnone : announcements app bucket ops = []) (hmoves : ∀ op ∈ ops, op.Moves) :
    LogKept app bucket ⟨upsertResolutionStatus s.store app bucket current build, ops⟩ := by
  refine ⟨?_, ?_, ?_, ?_, hmoves⟩
  · rw [lastResolutionStatus_upsert, historyFor_upsert, List.getLast?_concat]
  · rw [historyFor_upsert, hnone, List.append_nil, ← hannounced]
    exact h.log
  · rw [hnone]
    exact Nat.zero_le 1
  · exact fun hne => absurd hnone hne

/-- The step of `upsert_resolution_status`, of the status that is stored or the first
one. -/
theorem LogKept.refreshed {ops : List SweepOp} {current : String} (h : LogKept app bucket s)
    (hlast : ∀ status, lastResolutionStatus s.store.telemetry app bucket = some status →
      status = current) (build : Option String)
    (hannounced : announcements app bucket s.inFlight = announcements app bucket ops)
    (hmoves : ∀ op ∈ ops, op.Moves) :
    LogKept app bucket ⟨upsertResolutionStatus s.store app bucket current build, ops⟩ := by
  refine ⟨?_, ?_, ?_, ?_, hmoves⟩
  · rw [lastResolutionStatus_upsert, historyFor_upsert, List.getLast?_concat]
  · rw [historyFor_upsert, ← hannounced]
    refine h.log.trans (congrArg _ ?_)
    rw [List.append_assoc, List.singleton_append]
    cases hhistory : (s.store.historyFor app bucket).getLast? with
    | some status =>
      have heq := hlast status (h.status.trans hhistory)
      exact (changes_stutter (heq ▸ hhistory) _).symm
    | none =>
      have hnil := List.getLast?_eq_none_iff.1 hhistory
      have hpending : announcements app bucket s.inFlight = [] := by
        by_contra hne
        exact h.seeded hne hnil
      rw [hnil, hpending]
      rfl
  · rw [← hannounced]
    exact h.single
  · rw [historyFor_upsert]
    exact fun _ hempty => List.append_ne_nil_of_right_ne_nil _ (List.cons_ne_nil _ _) hempty

/-- The sweeps after a step record transitions, when the one that has stepped does. -/
theorem moves_stepped (h : LogKept app bucket s) {next : Option SweepOp}
    (hnext : ∀ op', next = some op' → op'.Moves) :
    ∀ o ∈ s.inFlight.eraseIdx i ++ next.toList, o.Moves := by
  intro o ho
  rcases List.mem_append.1 ho with ho | ho
  · exact h.moves o (List.mem_of_mem_eraseIdx ho)
  · exact hnext o (Option.mem_toList.1 ho)

/-- A sweep that goes on with what it has announced, and writes nothing that is seen. -/
theorem LogKept.stepped {next : Option SweepOp} (h : LogKept app bucket s)
    (hop : s.inFlight[i]? = some op)
    (hstatus : lastResolutionStatus store.telemetry app bucket =
      lastResolutionStatus s.store.telemetry app bucket)
    (hevents : store.eventsFor app bucket = s.store.eventsFor app bucket)
    (hhistory : store.historyFor app bucket = s.store.historyFor app bucket)
    (hannounced : next.bind (SweepOp.announced app bucket) = op.announced app bucket)
    (hnext : ∀ op', next = some op' → op'.Moves) :
    LogKept app bucket ⟨store, s.inFlight.eraseIdx i ++ next.toList⟩ := by
  refine h.of_same hstatus hevents hhistory ?_ (moves_stepped h hnext)
  rw [announcements, announcements, filterMap_append_toList, hannounced]
  exact (filterMap_perm_eraseIdx _ hop).trans List.perm_append_comm

/-- A sweep at another bucket announces nothing for this one as it goes on. -/
theorem announced_next_other {b : AnchoredBucket} (hkey : (b.appId, b.bucketId) ≠ (app, bucket))
    (t : TenantStore) (answered : Bool) (rest : List AnchoredBucket) (now : Rfc3339)
    (point : SweepPoint) :
    ((SweepOp.sweeping b rest now point).next cfg t answered).bind
      (SweepOp.announced app bucket) = none := by
  rcases next_sweeping cfg t answered b rest now point with ⟨point', hthis, -⟩ | hthis
  · rw [hthis]
    exact announced_other hkey rest now point'
  · rw [hthis]
    exact announced_nextBucket app bucket now rest

/-- A call that fails is not the one that stores an announced status. -/
theorem logKept_failed (h : LogKept app bucket s) (hop : s.inFlight[i]? = some op)
    (hok : SweepsInTurn app bucket s (.advance i .failed) s') :
    LogKept app bucket
      ⟨s.store, s.inFlight.eraseIdx i ++ (op.next cfg s.store.telemetry false).toList⟩ := by
  refine h.stepped hop rfl rfl rfl ?_ fun _ => moves_next
  cases op with
  | anchoring now => rfl
  | sweeping b rest now point =>
    by_cases hkey : (b.appId, b.bucketId) = (app, bucket)
    · rw [announced_next _ _ _ _ _ _ _ hkey]
      cases point with
      | telling current => exact (announced_this hkey rest now current).1.symm
      | persisting current recorded =>
        cases recorded with
        | true => exact absurd rfl (hok b rest now _ hop hkey)
        | false => rfl
      | readingTraffic | readingRecent | readingOccurrences _ _ | readingStatus _
        | recording _ _ => rfl
    · rw [announced_next_other hkey, announced_other hkey]

/-- A call that takes effect at the bucket. -/
theorem logKept_here {result : CallResult} {b : AnchoredBucket} {rest : List AnchoredBucket}
    {now : Rfc3339} {point : SweepPoint} (h : LogKept b.appId b.bucketId s)
    (hop : s.inFlight[i]? = some (.sweeping b rest now point)) (hresult : result ≠ .failed)
    (hturn : point.inTurn s b.appId b.bucketId result) :
    LogKept b.appId b.bucketId ⟨(SweepOp.sweeping b rest now point).effect s.store,
      s.inFlight.eraseIdx i ++ ((SweepOp.sweeping b rest now point).next cfg s.store.telemetry
        (result = .answered)).toList⟩ := by
  have hgoes := announced_next cfg s.store.telemetry (result = .answered) b rest now point
    rfl
  have hbefore := filterMap_perm_eraseIdx (SweepOp.announced b.appId b.bucketId) hop
  have hafter := filterMap_append_toList (SweepOp.announced b.appId b.bucketId)
    (s.inFlight.eraseIdx i) ((SweepOp.sweeping b rest now point).next cfg s.store.telemetry
      (result = .answered))
  rw [hgoes] at hafter
  have hnext : ∀ op', (SweepOp.sweeping b rest now point).next cfg s.store.telemetry
      (result = .answered) = some op' → op'.Moves := fun _ => moves_next
  have hmoves := moves_stepped (i := i) h hnext
  cases point with
  | readingTraffic | readingRecent | readingOccurrences _ _ | readingStatus _ =>
    exact h.stepped hop rfl rfl rfl hgoes fun _ => moves_next
  | telling current =>
    refine h.stepped hop rfl rfl rfl (hgoes.trans ?_) fun _ => moves_next
    exact (announced_this rfl rest now current).1.symm
  | recording fromStatus current =>
    obtain ⟨rfl, hread, hnone⟩ := hturn hresult
    obtain ⟨prev, rfl, hne⟩ := h.moves _ (List.mem_of_getElem? hop)
    refine h.recorded hnone hread.symm hne _ (hafter.trans ?_) hmoves
    -- no other sweep has anything announced
    rw [announcements] at hnone
    rw [hnone] at hbefore
    have hothers : (s.inFlight.eraseIdx i).filterMap (SweepOp.announced b.appId b.bucketId) = [] :=
      List.nil_perm.1 hbefore
    rw [hothers]
    rfl
  | persisting current recorded =>
    cases recorded with
    | true =>
      -- the status is the one that is announced, and no other is
      rw [(announced_this rfl rest now current).2, Option.toList_some,
        List.singleton_append] at hbefore
      have hthis := eq_of_perm_single hbefore h.single
      have hothers : (s.inFlight.eraseIdx i).filterMap (SweepOp.announced b.appId b.bucketId) =
          [] := by
        have hlen := h.single
        rw [announcements, hthis, List.length_cons] at hlen
        exact List.length_eq_zero_iff.1 (by omega)
      rw [hothers] at hthis hafter
      exact h.persisted hthis _ hafter hmoves
    | false =>
      refine h.refreshed (hturn hresult) _ (eq_of_perm_single ?_ h.single) hmoves
      rw [announcements, announcements, hafter]
      exact hbefore.trans List.perm_append_comm

/-- The calls of a run keep the log of a bucket. -/
theorem logKept_advance (h : LogKept app bucket s) {result : CallResult} {next : Option SweepOp}
    (hop : s.inFlight[i]? = some op) (hnext : sweepNext cfg s.store result op = (store, next))
    (hok : SweepsInTurn app bucket s (.advance i result) s') :
    LogKept app bucket ⟨store, s.inFlight.eraseIdx i ++ next.toList⟩ := by
  rcases sweepNext_cases cfg s.store result op with ⟨rfl, hcase⟩ | ⟨hresult, hcase⟩
  · rw [hnext] at hcase
    cases hcase
    exact logKept_failed h hop hok
  · rw [hnext] at hcase
    cases hcase
    cases op with
    | anchoring now =>
      refine h.stepped hop rfl rfl rfl ?_ fun _ => moves_next
      rw [SweepOp.next]
      split
      · exact announced_nextBucket _ _ now _
      · rfl
    | sweeping b rest now point =>
      by_cases hkey : (b.appId, b.bucketId) = (app, bucket)
      · have hturn := hok b rest now point hop hkey
        obtain ⟨rfl, rfl⟩ := Prod.mk.inj hkey
        exact logKept_here h hop hresult hturn
      · obtain ⟨hstatus, hevents, hhistory⟩ := effect_other (u := s.store) hkey rest now point
        refine h.stepped hop hstatus hevents hhistory ?_ fun _ => moves_next
        rw [announced_next_other hkey, announced_other hkey]

/-- The writes of others neither store a status nor record an event. -/
theorem sameLog_commit (app bucket : String) {P : Platform} {u u' : SweepStore}
    {c : SweepCommit} (hwrite : commitSweep P u c = some u') :
    lastResolutionStatus u'.telemetry app bucket = lastResolutionStatus u.telemetry app bucket ∧
      u'.eventsFor app bucket = u.eventsFor app bucket ∧
      u'.historyFor app bucket = u.historyFor app bucket := by
  cases c with
  | ingest now b =>
    obtain ⟨t, ht, rfl⟩ := Option.map_eq_some_iff.1 hwrite
    obtain ⟨⟨dup, t'⟩, hok, rfl⟩ := Option.map_eq_some_iff.1 ht
    have hwrites := ingestedFrom_ingestBatch (eq_ok_of_toOption hok)
    dsimp only
    rw [hwrites]
    exact ⟨rfl, rfl, rfl⟩
  | expire now days limit ids =>
    obtain ⟨t, ht, rfl⟩ := Option.map_eq_some_iff.1 hwrite
    obtain ⟨order, -, hok⟩ := Option.bind_eq_some_iff.1 ht
    have hwrites := deletedFrom_deleteErrors (eq_ok_of_toOption hok)
    rw [hwrites]
    exact ⟨rfl, rfl, rfl⟩
  | triage app' bucket' status assignee fixedInBuild =>
    cases hwrite
    exact ⟨rfl, rfl, rfl⟩
  | advance app' bucket' status fixedInBuild =>
    cases hwrite
    exact ⟨rfl, rfl, rfl⟩

theorem logKept_step {P : Platform} {e : SweepEvent} (h : LogKept app bucket s)
    (hstep : (sweeps P cfg).step s e = some s') (hok : SweepsInTurn app bucket s e s') :
    LogKept app bucket s' := by
  cases Program.effect_of_step hstep with
  | @start op hstarts =>
    cases op with
    | sweeping b rest now point => cases hstarts
    | anchoring now =>
      refine h.of_same rfl rfl rfl (List.Perm.of_eq ?_) fun o ho => ?_
      · have hnew := filterMap_append_toList (SweepOp.announced app bucket) s.inFlight
          (some (.anchoring now))
        exact (hnew.trans (List.append_nil _)).symm
      · rcases List.mem_append.1 ho with ho | ho
        · exact h.moves o ho
        · rw [List.mem_singleton.1 ho]
          trivial
  | advance hop hnext =>
    exact logKept_advance h hop (Option.some.inj hnext) hok
  | @abandon i op hop =>
    refine h.of_same rfl rfl rfl ?_ fun o ho => h.moves o (List.mem_of_mem_eraseIdx ho)
    have hperm := filterMap_perm_eraseIdx (SweepOp.announced app bucket) hop
    rw [hok op hop] at hperm
    exact hperm
  | commit hwrite =>
    obtain ⟨hstatus, hevents, hhistory⟩ := sameLog_commit app bucket hwrite
    exact h.of_same hstatus hevents hhistory (.refl _) h.moves

end Steps

theorem logKept_init (app bucket : String) : LogKept app bucket Sweeping.init :=
  ⟨rfl, rfl, Nat.zero_le 1, fun h => absurd rfl h, fun _ hop => nomatch hop⟩

/-- In a run whose sweeps are as they should be at a bucket, its events are a faithful
chain, whenever none of its events waits for its status to be stored. -/
theorem resolution_log_is_faithful {P : Platform} {cfg : ResolutionConfig} {es : List SweepEvent}
    {s : Sweeping} {app bucket : String}
    (hrun : Run (Guarded (stepOf (sweeps P cfg).step) (SweepsInTurn app bucket)) Sweeping.init es s)
    (hstored : announcements app bucket s.inFlight = []) : FaithfulLog s.store app bucket := by
  have h := hrun.invariant_of_guarded (LogKept app bucket)
    (fun _ _ _ hi hstep hok => logKept_step hi hstep hok) (logKept_init app bucket)
  refine faithfulLog_of_changes h.status ?_
  have hlog := h.log
  rwa [hstored, List.append_nil] at hlog

/-- The guard, computed. -/
def sweepsInTurn (app bucket : String) (s : Sweeping) : SweepEvent → Bool
  | .advance i result => (s.inFlight[i]?).all fun op =>
      match op with
      | .sweeping b _ _ point => (b.appId, b.bucketId) ≠ (app, bucket) ||
          match point with
          | .recording fromStatus _ => result = .answered &&
              fromStatus = lastResolutionStatus s.store.telemetry app bucket &&
              (announcements app bucket s.inFlight).isEmpty
          | .persisting _ true => result ≠ .failed
          | .persisting current false =>
            (lastResolutionStatus s.store.telemetry app bucket).all (· = current)
          | _ => true
      | .anchoring _ => true
  | .abandon _ => false
  | _ => true

theorem sweepsInTurn_sound (app bucket : String) (s : Sweeping) (e : SweepEvent) (s' : Sweeping)
    (h : sweepsInTurn app bucket s e = true) : SweepsInTurn app bucket s e s' := by
  cases e with
  | advance i result =>
    intro b rest now point hop hkey
    rw [sweepsInTurn, hop, Option.all_some] at h
    cases point with
    | recording fromStatus current =>
      intro _
      simpa [hkey, and_assoc] using h
    | persisting current recorded =>
      cases recorded with
      | true => simpa [hkey, SweepPoint.inTurn] using h
      | false =>
        intro _ status hstatus
        simpa [hkey, hstatus] using h
    | readingTraffic | readingRecent | readingOccurrences _ _ | readingStatus _ | telling _ =>
      trivial
  | abandon i => cases h
  | start op | commit c => trivial

/-- A sweep on its own, through so many answered calls. -/
def sweepAlone (now : Micros) (calls : Nat) : List SweepEvent :=
  .start (.anchoring (.instant now)) :: List.replicate calls (.advance 0 .answered)

/-- A bucket is anchored and swept, and then crashes on the anchored build. -/
def crashAfterFix : List SweepEvent :=
  .commit (.triage "shop" "bkt_dd250179f692" "fixed" none (some "c1")) :: sweepAlone 0 6 ++
    [.commit (.ingest 0 (twoCrashes (some "c1")))]

theorem resolution_log_is_faithful_regressed :
    ∃ s, Run (Guarded (stepOf (sweeps oneBucket {}).step) (SweepsInTurn "shop" "bkt_dd250179f692"))
        Sweeping.init (crashAfterFix ++ sweepAlone 1 7) s ∧
      s.store.historyFor "shop" "bkt_dd250179f692" = ["resolving", "regressed"] ∧
      FaithfulLog s.store "shop" "bkt_dd250179f692" := by
  have hsome : (runOf (checked (sweeps oneBucket {}).step (sweepsInTurn "shop" "bkt_dd250179f692"))
      Sweeping.init (crashAfterFix ++ sweepAlone 1 7)).map (fun s =>
        (s.inFlight.length, s.store.historyFor "shop" "bkt_dd250179f692")) =
      some (0, ["resolving", "regressed"]) := by decide
  obtain ⟨s, hs, hend⟩ := Option.map_eq_some_iff.1 hsome
  rw [Prod.mk.injEq] at hend
  have hrun : Run (Guarded (stepOf (sweeps oneBucket {}).step)
      (SweepsInTurn "shop" "bkt_dd250179f692")) Sweeping.init (crashAfterFix ++ sweepAlone 1 7) s :=
    Run.of_runOf_checked (sweepsInTurn_sound "shop" "bkt_dd250179f692") hs
  have hstored : announcements "shop" "bkt_dd250179f692" s.inFlight = [] := by
    rw [List.length_eq_zero_iff.1 hend.1]
    rfl
  exact ⟨s, hrun, hend.2, resolution_log_is_faithful hrun hstored⟩

/-- The status is not stored after its event, and the next sweep records the event again. -/
theorem lost_status_repeats_event :
    ¬ ∀ es s, Run (stepOf (sweeps oneBucket {}).step) Sweeping.init es s → s.inFlight = [] →
      ∀ app bucket, FaithfulLog s.store app bucket := by
  intro hall
  have hsome : (runOf (sweeps oneBucket {}).step Sweeping.init
      (crashAfterFix ++ sweepAlone 1 6 ++ [.advance 0 .failed] ++ sweepAlone 2 7)).map (fun s =>
        (s.inFlight.length, (s.store.eventsFor "shop" "bkt_dd250179f692"))) =
      some (0, List.replicate 2 ⟨"shop", "bkt_dd250179f692", some "resolving", "regressed",
        some "c1"⟩) := by decide
  obtain ⟨s, hs, hend⟩ := Option.map_eq_some_iff.1 hsome
  rw [Prod.mk.injEq] at hend
  have hlog := hall _ s (Run.of_runOf hs) (List.length_eq_zero_iff.1 hend.1) "shop"
    "bkt_dd250179f692"
  have hchain := hlog.chain
  rw [hend.2] at hchain
  revert hchain
  decide

end ReproitCloud
