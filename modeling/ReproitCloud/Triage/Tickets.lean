import ReproitCloud.Integrations.Outbox
import ReproitCloud.Triage.Sweep

/-!
# What the tickets are told

A sweep that has recorded an event into `resolved` or `regressed` calls the tracker before it
stores the status: `close_ticket_on_fix` comments on the linked issue and closes it, and
`reopen_ticket_on_regression` comments on it and reopens it.  A verified replay in CI calls
`comment_ticket_fix_verified`, which only comments.  The three are one `Hook`, with the text of
the comment, the request that follows it, and whether a comment that fails ends the hook.

`NotifyOp` says at which call a sweep or a hook is.  A hook of a sweep carries the sweep, which
goes on when the hook ends, however it ends.  `calls` is what the trackers have received, and
`linked` has the issues that a bucket was ever linked to.

`tickets_follow_production` is what all runs keep.  A ticket is closed only after a comment on
the same issue that names a build, and only for a bucket whose log has an event into `resolved`
on that build; there are no more requests to close, and to reopen, than such events.

A hook asks the tracker that the app has now for the issue that was linked before, by its
external id.  As long as the app keeps its tracker (`KeepsTracker`), the two are the same.
-/

namespace ReproitCloud

open Lib

/-! ## The comments -/

/-- `fix_comment`. -/
def fixComment (bucket : String) : Option String → String
  | some b => "reproit confirmed in production that bucket `" ++ bucket ++
      "` stays gone after build `" ++ b ++ "`. Closing automatically."
  | none => "reproit confirmed in production that bucket `" ++ bucket ++
      "` stays gone. Closing automatically."

/-- `fix_verified_comment`. -/
def fixVerifiedComment (bucket : String) : Option String → String
  | some build => "reproit verified the fix for bucket `" ++ bucket ++ "` on commit `" ++ build ++
      "`. The issue will close after that build is deployed and production confirms the bug " ++
      "stays gone."
  | none => "reproit verified the fix for bucket `" ++ bucket ++
      "` in CI. The issue will close after deployment and production confirmation."

/-- `regression_comment`. -/
def regressionComment (bucket : String) : Option String → String
  | some build => "reproit detected bucket `" ++ bucket ++ "` again in production on build `" ++
      build ++ "`. The fix has regressed."
  | none => "reproit detected bucket `" ++ bucket ++
      "` again in production. The fix has regressed."

/-! ## The hooks -/

/-- A request to a tracker about an issue. -/
inductive TrackerRequest where
  | comment (body : String)
  | close
  | reopen
deriving DecidableEq, Repr

/-- A request that a tracker has received, and the bucket it was made for. -/
structure TrackerCall where
  appId : String
  bucketId : String
  tracker : ConfiguredTracker
  externalId : String
  request : TrackerRequest
deriving DecidableEq, Repr

/-- A call sequence about the linked issue of a bucket. -/
structure Hook where
  body : String
  /-- What follows the comment. -/
  request : Option TrackerRequest
  /-- Whether a comment that fails ends it. -/
  needsComment : Bool
deriving DecidableEq, Repr

/-- `close_ticket_on_fix`. -/
def closeTicketOnFix (bucket : String) (build : Option String) : Hook where
  body := fixComment bucket build
  request := some .close
  needsComment := true

/-- `comment_ticket_fix_verified`. -/
def commentTicketFixVerified (bucket : String) (build : Option String) : Hook where
  body := fixVerifiedComment bucket build
  request := none
  needsComment := true

/-- `reopen_ticket_on_regression`. -/
def reopenTicketOnRegression (bucket : String) (build : Option String) : Hook where
  body := regressionComment bucket build
  request := some .reopen
  needsComment := false

/-- Which hook is called, and with which build. -/
inductive HookKind where
  | fix (build : Option String)
  | fixVerified (build : Option String)
  | regression (build : Option String)
deriving DecidableEq, Repr

def HookKind.hook (bucket : String) : HookKind → Hook
  | fix build => closeTicketOnFix bucket build
  | fixVerified build => commentTicketFixVerified bucket build
  | regression build => reopenTicketOnRegression bucket build

/-- Where a hook is. -/
inductive HookPoint where
  /-- `integration_for`, of `resolve_for`. -/
  | resolving
  /-- `ticket_for_bucket`. -/
  | linking (tracker : ConfiguredTracker)
  /-- `comment`. -/
  | commenting (tracker : ConfiguredTracker) (link : TicketLink)
  /-- `close` or `reopen`. -/
  | requesting (tracker : ConfiguredTracker) (link : TicketLink)
deriving DecidableEq, Repr

/-- A tenant's tables with what the trackers have received. -/
structure NotifyStore where
  sweep : SweepStore := {}
  projectIntegrations : Table String IntegrationRow := .empty
  calls : List TrackerCall := []
  /-- The issues that were ever linked to a bucket. -/
  linked : List ((String × String) × TicketLink) := []

/-- The call of a hook to the tracker. -/
def Hook.call (h : Hook) (app bucket : String) : HookPoint → Option TrackerCall
  | .commenting tracker link => some ⟨app, bucket, tracker, link.externalId, .comment h.body⟩
  | .requesting tracker link =>
    h.request.map fun request => ⟨app, bucket, tracker, link.externalId, request⟩
  | _ => none

/-- Where a hook goes from a call that was answered, or failed. -/
def Hook.next (E : TrackerEnv) (s : NotifyStore) (h : Hook) (app bucket : String)
    (answered : Bool) : HookPoint → Option HookPoint
  | .resolving =>
    (resolveFor E (if answered then some (s.projectIntegrations.get? app) else none) app).map
      .linking
  | .linking tracker =>
    if answered then
      (ticketForBucket s.sweep.telemetry app bucket).map (.commenting tracker)
    else none
  | .commenting tracker link =>
    if (answered || !h.needsComment) && h.request.isSome then some (.requesting tracker link)
    else none
  | .requesting _ _ => none

/-! ## The processes -/

/-- Where a sweep or a hook is. -/
inductive NotifyOp where
  /-- A sweep, with the build that its bucket has regressed on. -/
  | sweep (op : SweepOp) (regressionBuild : Option String)
  /-- A hook, with the sweep that goes on after it. -/
  | hook (app bucket : String) (kind : HookKind) (point : HookPoint) (rest : Option SweepOp)
deriving DecidableEq, Repr

/-- A sweep starts at its list of buckets, and the hook of a verified replay by itself. -/
def NotifyOp.starts : NotifyOp → Bool
  | sweep op none => op.starts
  | hook _ _ (.fixVerified _) .resolving none => true
  | _ => false

/-- The build of the regression, once the occurrences are read. -/
def regressionBuildAfter (cfg : ResolutionConfig) (t : TenantStore) (old : Option String) :
    SweepOp → Option String
  | .sweeping b _ _ (.readingOccurrences weighted recent) =>
    latestPostFixBuild
      (occurrencesOf (errorsForBucket t b.appId b.bucketId cfg.baselineSample))
      (firstSeenByBuild (appStreamOf weighted recent)) b.fixedInBuild
  | _ => old

/-- The hook of an event. -/
def hookKindFor (b : AnchoredBucket) (current : String) (regressionBuild : Option String) :
    HookKind :=
  if current = "resolved" then .fix (some b.fixedInBuild) else .regression regressionBuild

/-- A sweep that is to tell the tracker calls its hook. -/
def enterHook (regressionBuild : Option String) : SweepOp → NotifyOp
  | .sweeping b rest now (.telling current) =>
    .hook b.appId b.bucketId (hookKindFor b current regressionBuild) .resolving
      (some (.sweeping b rest now (.persisting current true)))
  | op => .sweep op regressionBuild

/-- What a call does when it takes effect. -/
def NotifyOp.effect (s : NotifyStore) : NotifyOp → NotifyStore
  | sweep op _ => { s with sweep := op.effect s.sweep }
  | hook app bucket kind point _ =>
    { s with calls := s.calls ++ ((kind.hook bucket).call app bucket point).toList }

/-- Where a process goes from a call that was answered, or failed. -/
def NotifyOp.next (E : TrackerEnv) (cfg : ResolutionConfig) (s : NotifyStore) (answered : Bool) :
    NotifyOp → Option NotifyOp
  | sweep op regressionBuild =>
    (op.next cfg s.sweep.telemetry answered).map
      (enterHook (regressionBuildAfter cfg s.sweep.telemetry regressionBuild op))
  | hook app bucket kind point rest =>
    match (kind.hook bucket).next E s app bucket answered point with
    | some point' => some (.hook app bucket kind point' rest)
    | none => rest.map fun op => .sweep op none

/-- The next call of a process. -/
def notifyNext (E : TrackerEnv) (cfg : ResolutionConfig) (s : NotifyStore) (result : CallResult)
    (op : NotifyOp) : NotifyStore × Option NotifyOp :=
  (if result = .failed then s else op.effect s, op.next E cfg s (result = .answered))

/-- The writes of others. -/
inductive NotifyCommit where
  | sweep (c : SweepCommit)
  /-- `link_ticket`. -/
  | link (app bucket : String) (link : TicketLink)
  /-- `set_integration`. -/
  | configure (app : String) (row : IntegrationRow)

def commitNotify (P : Platform) (s : NotifyStore) : NotifyCommit → Option NotifyStore
  | .sweep c => (commitSweep P s.sweep c).map fun u => { s with sweep := u }
  | .link app bucket link =>
    some { s with
      sweep := { s.sweep with telemetry := linkTicket s.sweep.telemetry app bucket link }
      linked := s.linked ++ [((app, bucket), link)] }
  | .configure app row =>
    some { s with projectIntegrations := s.projectIntegrations.upsert app row fun _ => row }

/-- The sweeps and the hooks of a tenant. -/
def notifies (E : TrackerEnv) (P : Platform) (cfg : ResolutionConfig) :
    Program NotifyStore NotifyOp CallResult NotifyCommit where
  starts _ op := op.starts
  next s _ result op := some (notifyNext E cfg s result op)
  write s _ c := commitNotify P s c

abbrev Notifying := Pool NotifyStore NotifyOp

abbrev NotifyEvent := PoolEvent NotifyOp CallResult NotifyCommit

/-- A new tenant. -/
def Notifying.init : Notifying := ⟨{}, []⟩

/-! ## What a run keeps -/

/-- The status whose event leads to a request. -/
def TrackerRequest.status? : TrackerRequest → Option String
  | comment _ => none
  | close => some "resolved"
  | reopen => some "regressed"

/-- The requests that were made for a bucket. -/
def requestsFor (calls : List TrackerCall) (app bucket : String) (request : TrackerRequest) : Nat :=
  calls.countP fun c => c.appId = app && c.bucketId = bucket && c.request = request

/-- The events of a bucket into a status. -/
def eventsInto (u : SweepStore) (app bucket status : String) : Nat :=
  (u.eventsFor app bucket).countP fun e => e.toStatus = status

/-- The hook is still to make a request for a bucket. -/
def NotifyOp.owes (app bucket : String) (request : TrackerRequest) : NotifyOp → Bool
  | hook a b kind _ _ => a = app && b = bucket && (kind.hook b).request = some request
  | sweep _ _ => false

/-- There is an event of the bucket that calls for the hook. -/
def HookKind.Called (u : SweepStore) (app bucket : String) : HookKind → Prop
  | fix build => ∃ e ∈ u.eventsFor app bucket, e.toStatus = "resolved" ∧ e.build = build
  | fixVerified _ => True
  | regression _ => ∃ e ∈ u.eventsFor app bucket, e.toStatus = "regressed"

/-- What a hook has read, and what it has said, is as it should be at its point. -/
def HookPoint.Sound (s : NotifyStore) (app bucket : String) (kind : HookKind) : HookPoint → Prop
  | commenting _ link => ((app, bucket), link) ∈ s.linked
  | requesting tracker link => ((app, bucket), link) ∈ s.linked ∧
      ∀ build, kind = .fix build →
        ⟨app, bucket, tracker, link.externalId, .comment (fixComment bucket build)⟩ ∈ s.calls
  | _ => True

def NotifyOp.Sound (s : NotifyStore) : NotifyOp → Prop
  | sweep _ _ => True
  | hook app bucket kind point _ => kind.Called s.sweep app bucket ∧ point.Sound s app bucket kind

/-- The trackers have received nothing but what production calls for. -/
structure TicketsFollow (s : NotifyStore) : Prop where
  /-- A request has the external id of an issue that was linked to its bucket. -/
  linked : ∀ c ∈ s.calls, ∃ link, ((c.appId, c.bucketId), link) ∈ s.linked ∧
    link.externalId = c.externalId
  /-- An issue is closed after a comment that names a build, on which the bucket has an event
  into `resolved`. -/
  closed : ∀ (i : Nat) (c : TrackerCall), s.calls[i]? = some c → c.request = .close → ∃ build,
    (∃ e ∈ s.sweep.eventsFor c.appId c.bucketId, e.toStatus = "resolved" ∧ e.build = build) ∧
      ∃ j, j < i ∧ s.calls[j]? = some { c with request := .comment (fixComment c.bucketId build) }
  /-- An issue is reopened after an event into `regressed`. -/
  reopened : ∀ c ∈ s.calls, c.request = .reopen →
    ∃ e ∈ s.sweep.eventsFor c.appId c.bucketId, e.toStatus = "regressed"

/-- What all runs keep. -/
structure NotifyKept (s : Notifying) : Prop where
  follow : TicketsFollow s.store
  tickets : ∀ app bucket link, ticketForBucket s.store.sweep.telemetry app bucket = some link →
    ((app, bucket), link) ∈ s.store.linked
  sound : ∀ op ∈ s.inFlight, op.Sound s.store
  owed : ∀ app bucket request status, request.status? = some status →
    requestsFor s.store.calls app bucket request +
        s.inFlight.countP (NotifyOp.owes app bucket request) ≤
      eventsInto s.store.sweep app bucket status

/-- The log of every bucket has only grown. -/
def LogGrows (u u' : SweepStore) : Prop :=
  ∀ app bucket, ∃ more, u'.eventsFor app bucket = u.eventsFor app bucket ++ more

section Grows

variable {u u' : SweepStore}

theorem LogGrows.refl (u : SweepStore) : LogGrows u u := fun _ _ => ⟨[], (List.append_nil _).symm⟩

theorem LogGrows.mem (h : LogGrows u u') {app bucket : String} {e : ResolutionEventRow}
    (he : e ∈ u.eventsFor app bucket) : e ∈ u'.eventsFor app bucket := by
  obtain ⟨more, hmore⟩ := h app bucket
  rw [hmore]
  exact List.mem_append_left _ he

theorem LogGrows.eventsInto_le (h : LogGrows u u') (app bucket status : String) :
    eventsInto u app bucket status ≤ eventsInto u' app bucket status := by
  obtain ⟨more, hmore⟩ := h app bucket
  rw [eventsInto, eventsInto, hmore, List.countP_append]
  exact Nat.le_add_right _ _

theorem logGrows_effect (u : SweepStore) (op : SweepOp) : LogGrows u (op.effect u) := by
  intro app bucket
  cases op with
  | anchoring now => exact ⟨[], (List.append_nil _).symm⟩
  | sweeping b rest now point =>
    by_cases hkey : (b.appId, b.bucketId) = (app, bucket)
    · obtain ⟨rfl, rfl⟩ := Prod.mk.inj hkey
      cases point with
      | recording fromStatus current => exact ⟨_, eventsFor_record ..⟩
      | readingTraffic | readingRecent | readingOccurrences _ _ | readingStatus _ | telling _
        | persisting _ _ => exact ⟨[], (List.append_nil _).symm⟩
    · exact ⟨[], by rw [(effect_other hkey rest now point).2.1, List.append_nil]⟩

theorem HookKind.Called.grows {kind : HookKind} {app bucket : String} (hgrows : LogGrows u u')
    (h : kind.Called u app bucket) : kind.Called u' app bucket := by
  cases kind with
  | fix build =>
    obtain ⟨e, he, hevent⟩ := h
    exact ⟨e, hgrows.mem he, hevent⟩
  | fixVerified build => trivial
  | regression build =>
    obtain ⟨e, he, hevent⟩ := h
    exact ⟨e, hgrows.mem he, hevent⟩

end Grows

/-- A store with a longer log, more links and more calls. -/
structure NotifyGrows (s s' : NotifyStore) : Prop where
  log : LogGrows s.sweep s'.sweep
  linked : ∀ l ∈ s.linked, l ∈ s'.linked
  calls : ∀ c ∈ s.calls, c ∈ s'.calls

theorem NotifyOp.Sound.grows {s s' : NotifyStore} {op : NotifyOp} (hgrows : NotifyGrows s s')
    (h : op.Sound s) : op.Sound s' := by
  cases op with
  | sweep op regressionBuild => trivial
  | hook app bucket kind point rest =>
    refine ⟨h.1.grows hgrows.log, ?_⟩
    cases point with
    | resolving | linking _ => trivial
    | commenting tracker link => exact hgrows.linked _ h.2
    | requesting tracker link =>
      exact ⟨hgrows.linked _ h.2.1, fun build hkind => hgrows.calls _ (h.2.2 build hkind)⟩

/-- A step that leaves the calls as they are keeps what they follow. -/
theorem TicketsFollow.of_same_calls {s s' : NotifyStore} (h : TicketsFollow s)
    (hgrows : NotifyGrows s s') (hcalls : s'.calls = s.calls) : TicketsFollow s' where
  linked c hc := by
    obtain ⟨link, hlink, hid⟩ := h.linked c (hcalls ▸ hc)
    exact ⟨link, hgrows.linked _ hlink, hid⟩
  closed i c hc hrequest := by
    rw [hcalls] at hc ⊢
    obtain ⟨build, ⟨e, he, hevent⟩, hproof⟩ := h.closed i c hc hrequest
    exact ⟨build, ⟨e, hgrows.log.mem he, hevent⟩, hproof⟩
  reopened c hc hrequest := by
    obtain ⟨e, he, hevent⟩ := h.reopened c (hcalls ▸ hc) hrequest
    exact ⟨e, hgrows.log.mem he, hevent⟩

/-! ## The steps -/

section Steps

variable {E : TrackerEnv} {P : Platform} {cfg : ResolutionConfig} {s s' : Notifying} {i : Nat}

/-- A sweep comes to its hook from the event it has recorded. -/
theorem telling_of_next {t : TenantStore} {answered : Bool} {op : SweepOp} {b : AnchoredBucket}
    {rest : List AnchoredBucket} {now : Rfc3339} {current : String}
    (h : op.next cfg t answered = some (.sweeping b rest now (.telling current))) :
    answered = true ∧ (current = "resolved" ∨ current = "regressed") ∧
      ∃ fromStatus, op = .sweeping b rest now (.recording fromStatus current) := by
  have hnext : ∀ {now' : Rfc3339} {bs : List AnchoredBucket},
      nextBucket now' bs ≠ some (.sweeping b rest now (.telling current)) := by
    intro now' bs
    cases bs <;> simp [nextBucket]
  cases op with
  | anchoring now' =>
    rw [SweepOp.next, Option.ite_none_right_eq_some] at h
    exact absurd h.2 hnext
  | sweeping b' rest' now' point =>
    cases answered with
    | false =>
      cases point with
      | telling current' => cases h
      | readingTraffic | readingRecent | readingOccurrences _ _ | readingStatus _ | recording _ _
        | persisting _ _ => exact absurd h hnext
    | true =>
      rcases next_sweeping cfg t true b' rest' now' point with ⟨point', hthis, hpoint⟩ | hthis
      · rw [hthis] at h
        cases h
        rcases hpoint with hpoint | ⟨_, -, hpersists⟩
        · cases point with
          | recording fromStatus current' =>
            rw [SweepPoint.next] at hpoint
            split at hpoint
            · rename_i htells
              cases hpoint
              exact ⟨rfl, htells, fromStatus, rfl⟩
            · cases hpoint
          | readingTraffic | readingStatus _ =>
            rw [SweepPoint.next] at hpoint
            split at hpoint <;> cases hpoint
          | readingRecent | readingOccurrences _ _ | telling _ | persisting _ _ => cases hpoint
        · cases hpersists
      · rw [hthis] at h
        exact absurd h hnext

/-- A sweep that goes on is told to a tracker or goes on as a sweep. -/
theorem enterHook_cases (regressionBuild : Option String) (op : SweepOp) :
    (∃ b rest now current, op = .sweeping b rest now (.telling current) ∧
      enterHook regressionBuild op =
        .hook b.appId b.bucketId (hookKindFor b current regressionBuild) .resolving
          (some (.sweeping b rest now (.persisting current true)))) ∨
    enterHook regressionBuild op = .sweep op regressionBuild := by
  cases op with
  | anchoring now => exact .inr rfl
  | sweeping b rest now point =>
    cases point with
    | telling current => exact .inl ⟨b, rest, now, current, rfl, rfl⟩
    | readingTraffic | readingRecent | readingOccurrences _ _ | readingStatus _ | recording _ _
      | persisting _ _ => exact .inr rfl

theorem eventsInto_record (u : SweepStore) (app bucket : String) (fromStatus : Option String)
    (current : String) (build : Option String) :
    eventsInto (recordResolutionEvent u app bucket fromStatus current build) app bucket current =
      eventsInto u app bucket current + 1 := by
  rw [eventsInto, eventsFor_record, List.countP_append]
  simp [eventsInto]

/-- A hook that is called is called for by the event just recorded. -/
theorem called_hookKindFor {u : SweepStore} (b : AnchoredBucket) {fromStatus : Option String}
    {current : String} (hcurrent : current = "resolved" ∨ current = "regressed")
    (regressionBuild : Option String) :
    (hookKindFor b current regressionBuild).Called
      (recordResolutionEvent u b.appId b.bucketId fromStatus current (some b.fixedInBuild))
      b.appId b.bucketId := by
  have hmem : (⟨b.appId, b.bucketId, fromStatus, current, some b.fixedInBuild⟩ :
      ResolutionEventRow) ∈ (recordResolutionEvent u b.appId b.bucketId fromStatus current
        (some b.fixedInBuild)).eventsFor b.appId b.bucketId := by
    rw [eventsFor_record]
    exact List.mem_append_right _ (List.mem_singleton_self _)
  rcases hcurrent with rfl | rfl
  · exact ⟨_, hmem, rfl, rfl⟩
  · exact ⟨_, hmem, rfl⟩

/-- The request of that hook is the one its status leads to. -/
theorem status_of_hookKindFor {b : AnchoredBucket} {current : String}
    {regressionBuild : Option String} {request : TrackerRequest} {status : String}
    (hcurrent : current = "resolved" ∨ current = "regressed")
    (hrequest : ((hookKindFor b current regressionBuild).hook b.bucketId).request = some request)
    (hstatus : request.status? = some status) : current = status := by
  rcases hcurrent with rfl | rfl
  · cases hrequest
    exact Option.some.inj hstatus
  · cases hrequest
    exact Option.some.inj hstatus

/-- What the processes owe after a step, by the one that has stepped. -/
theorem owed_step {op : NotifyOp} (hop : s.inFlight[i]? = some op) (next : Option NotifyOp)
    (app bucket : String) (request : TrackerRequest) :
    (s.inFlight.eraseIdx i ++ next.toList).countP (NotifyOp.owes app bucket request) +
        (if op.owes app bucket request then 1 else 0) =
      s.inFlight.countP (NotifyOp.owes app bucket request) +
        if next.any (NotifyOp.owes app bucket request) then 1 else 0 := by
  rw [(perm_cons_eraseIdx hop).countP_eq, List.countP_append, List.countP_cons]
  cases next with
  | none => simp
  | some o =>
    simp only [Option.toList_some, Option.any_some, List.countP_cons, List.countP_nil]
    omega

/-- A step keeps what runs keep when it keeps these, and the hook it goes on with is sound. -/
theorem NotifyKept.stepped {store : NotifyStore} {op : NotifyOp} {next : Option NotifyOp}
    (h : NotifyKept s) (hop : s.inFlight[i]? = some op) (hgrows : NotifyGrows s.store store)
    (hfollow : TicketsFollow store)
    (htickets : ∀ app bucket, ticketForBucket store.sweep.telemetry app bucket =
      ticketForBucket s.store.sweep.telemetry app bucket)
    (hnext : ∀ op', next = some op' → op'.Sound store)
    (howed : ∀ app bucket request status, request.status? = some status →
      requestsFor store.calls app bucket request +
          (if next.any (NotifyOp.owes app bucket request) then 1 else 0) +
          eventsInto s.store.sweep app bucket status ≤
        requestsFor s.store.calls app bucket request +
          (if op.owes app bucket request then 1 else 0) +
          eventsInto store.sweep app bucket status) :
    NotifyKept ⟨store, s.inFlight.eraseIdx i ++ next.toList⟩ := by
  refine ⟨hfollow, fun app bucket link hlink => ?_, fun o ho => ?_,
    fun app bucket request status hstatus => ?_⟩
  · rw [htickets] at hlink
    exact hgrows.linked _ (h.tickets app bucket link hlink)
  · rcases List.mem_append.1 ho with ho | ho
    · exact (h.sound o (List.mem_of_mem_eraseIdx ho)).grows hgrows
    · exact hnext o (Option.mem_toList.1 ho)
  · have hcount := owed_step hop next app bucket request
    have hkept := h.owed app bucket request status hstatus
    have := howed app bucket request status hstatus
    dsimp only
    omega

theorem ticketForBucket_effect (u : SweepStore) (op : SweepOp) (app bucket : String) :
    ticketForBucket (op.effect u).telemetry app bucket =
      ticketForBucket u.telemetry app bucket := by
  cases op with
  | anchoring now => rfl
  | sweeping b rest now point => cases point <;> rfl

/-- The call of a sweep. -/
theorem notifyKept_sweep (E : TrackerEnv) {result : CallResult} {op : SweepOp}
    {regressionBuild : Option String} (h : NotifyKept s)
    (hop : s.inFlight[i]? = some (.sweep op regressionBuild)) :
    NotifyKept ⟨(notifyNext E cfg s.store result (.sweep op regressionBuild)).1,
      s.inFlight.eraseIdx i ++
        (notifyNext E cfg s.store result (.sweep op regressionBuild)).2.toList⟩ := by
  simp only [notifyNext]
  generalize hstore : (if result = .failed then s.store else
    (NotifyOp.sweep op regressionBuild).effect s.store) = store
  have hcalls : store.calls = s.store.calls := by
    rw [← hstore]
    split <;> rfl
  have hgrows : NotifyGrows s.store store := by
    rw [← hstore]
    split
    · exact ⟨.refl _, fun _ hl => hl, fun _ hc => hc⟩
    · exact ⟨logGrows_effect _ op, fun _ hl => hl, fun _ hc => hc⟩
  have htickets : ∀ app bucket, ticketForBucket store.sweep.telemetry app bucket =
      ticketForBucket s.store.sweep.telemetry app bucket := by
    intro app bucket
    rw [← hstore]
    split
    · rfl
    · exact ticketForBucket_effect ..
  refine h.stepped hop hgrows (h.follow.of_same_calls hgrows hcalls) htickets ?_ ?_
  · intro op' hop'
    obtain ⟨next, hnext, rfl⟩ := Option.map_eq_some_iff.1 hop'
    rcases enterHook_cases (regressionBuildAfter cfg s.store.sweep.telemetry regressionBuild op)
      next with ⟨b, rest, now, current, rfl, henter⟩ | henter
    · obtain ⟨hanswered, hcurrent, fromStatus, rfl⟩ := telling_of_next hnext
      rw [decide_eq_true_eq] at hanswered
      subst hanswered
      rw [henter, ← hstore]
      exact ⟨called_hookKindFor b hcurrent _, trivial⟩
    · rw [henter]
      trivial
  · intro app bucket request status hstatus
    have hle := hgrows.log.eventsInto_le app bucket status
    have hnothing : (NotifyOp.sweep op regressionBuild).owes app bucket request = false := rfl
    rw [hcalls, hnothing]
    by_cases howes : ((NotifyOp.sweep op regressionBuild).next E cfg s.store
        (result = .answered)).any (NotifyOp.owes app bucket request) = true
    · -- the hook is owed to the event that is recorded
      obtain ⟨op', hop', howes'⟩ := (Option.any_eq_true _ _).1 howes
      obtain ⟨next, hnext, rfl⟩ := Option.map_eq_some_iff.1 hop'
      rcases enterHook_cases (regressionBuildAfter cfg s.store.sweep.telemetry regressionBuild op)
        next with ⟨b, rest, now, current, rfl, henter⟩ | henter
      · obtain ⟨hanswered, hcurrent, fromStatus, rfl⟩ := telling_of_next hnext
        rw [decide_eq_true_eq] at hanswered
        subst hanswered
        simp only [henter, NotifyOp.owes, Bool.and_eq_true, decide_eq_true_eq] at howes'
        obtain ⟨⟨rfl, rfl⟩, hrequest⟩ := howes'
        have hevent : eventsInto store.sweep b.appId b.bucketId status =
            eventsInto s.store.sweep b.appId b.bucketId status + 1 := by
          rw [← hstore, ← status_of_hookKindFor hcurrent hrequest hstatus]
          exact eventsInto_record ..
        rw [if_pos howes, hevent]
        simp only [Bool.false_eq_true, if_false]
        omega
      · rw [henter] at howes'
        cases howes'
    · rw [if_neg howes]
      omega

/-- A call more is followed, when it is about a linked issue and is called for. -/
theorem TicketsFollow.called {s : NotifyStore} {c : TrackerCall} (h : TicketsFollow s)
    (hlinked : ∃ link, ((c.appId, c.bucketId), link) ∈ s.linked ∧ link.externalId = c.externalId)
    (hclosed : c.request = .close → ∃ build,
      (∃ e ∈ s.sweep.eventsFor c.appId c.bucketId, e.toStatus = "resolved" ∧ e.build = build) ∧
        { c with request := .comment (fixComment c.bucketId build) } ∈ s.calls)
    (hreopened : c.request = .reopen →
      ∃ e ∈ s.sweep.eventsFor c.appId c.bucketId, e.toStatus = "regressed") :
    TicketsFollow { s with calls := s.calls ++ [c] } where
  linked c' hc' := by
    rcases List.mem_append.1 hc' with hc' | hc'
    · exact h.linked c' hc'
    · rw [List.mem_singleton.1 hc']
      exact hlinked
  closed i c' hc' hrequest := by
    dsimp only at hc' ⊢
    rcases Nat.lt_or_ge i s.calls.length with hi | hi
    · rw [List.getElem?_append_left hi] at hc'
      obtain ⟨build, hevent, j, hj, hcomment⟩ := h.closed i c' hc' hrequest
      refine ⟨build, hevent, j, hj, ?_⟩
      rw [List.getElem?_append_left (List.getElem?_eq_some_iff.1 hcomment).1, hcomment]
    · rw [List.getElem?_append_right hi] at hc'
      obtain rfl : c' = c := List.mem_singleton.1 (List.mem_of_getElem? hc')
      obtain ⟨build, hevent, hcomment⟩ := hclosed hrequest
      obtain ⟨j, hj⟩ := List.getElem?_of_mem hcomment
      have hlt : j < s.calls.length := (List.getElem?_eq_some_iff.1 hj).1
      refine ⟨build, hevent, j, by omega, ?_⟩
      rw [List.getElem?_append_left hlt, hj]
  reopened c' hc' hrequest := by
    rcases List.mem_append.1 hc' with hc' | hc'
    · exact h.reopened c' hc' hrequest
    · rw [List.mem_singleton.1 hc'] at hrequest ⊢
      exact hreopened hrequest

/-- Where a hook goes. -/
theorem hook_next_cases {u : NotifyStore} {hook : Hook} {app bucket : String} {answered : Bool}
    {point point' : HookPoint} (h : hook.next E u app bucket answered point = some point') :
    (∃ tracker, point = .resolving ∧ point' = .linking tracker) ∨
    (∃ tracker link, point = .linking tracker ∧ point' = .commenting tracker link ∧
      ticketForBucket u.sweep.telemetry app bucket = some link) ∨
    ∃ tracker link, point = .commenting tracker link ∧ point' = .requesting tracker link ∧
      (answered = true ∨ hook.needsComment = false) := by
  cases point with
  | resolving =>
    obtain ⟨tracker, -, rfl⟩ := Option.map_eq_some_iff.1 h
    exact .inl ⟨tracker, rfl, rfl⟩
  | linking tracker =>
    rw [Hook.next, Option.ite_none_right_eq_some] at h
    obtain ⟨link, hlink, rfl⟩ := Option.map_eq_some_iff.1 h.2
    exact .inr (.inl ⟨tracker, link, rfl, rfl, hlink⟩)
  | commenting tracker link =>
    rw [Hook.next, Option.ite_none_right_eq_some, Bool.and_eq_true, Bool.or_eq_true,
      Bool.not_eq_true'] at h
    exact .inr (.inr ⟨tracker, link, rfl, (Option.some.inj h.2).symm, h.1.1⟩)
  | requesting tracker link => cases h

/-- What a hook says. -/
theorem hook_call_cases {hook : Hook} {app bucket : String} {point : HookPoint} {c : TrackerCall}
    (h : hook.call app bucket point = some c) :
    (∃ tracker link, point = .commenting tracker link ∧
      c = ⟨app, bucket, tracker, link.externalId, .comment hook.body⟩) ∨
    ∃ tracker link request, point = .requesting tracker link ∧ hook.request = some request ∧
      c = ⟨app, bucket, tracker, link.externalId, request⟩ := by
  cases point with
  | commenting tracker link => exact .inl ⟨tracker, link, rfl, (Option.some.inj h).symm⟩
  | requesting tracker link =>
    obtain ⟨request, hrequest, rfl⟩ := Option.map_eq_some_iff.1 h
    exact .inr ⟨tracker, link, request, rfl, hrequest, rfl⟩
  | resolving | linking _ => cases h

/-- A sound hook says what is called for. -/
theorem TicketsFollow.hook_called {s : NotifyStore} {app bucket : String} {kind : HookKind}
    {point : HookPoint} {rest : Option SweepOp} {c : TrackerCall} (h : TicketsFollow s)
    (hsound : (NotifyOp.hook app bucket kind point rest).Sound s)
    (hcall : (kind.hook bucket).call app bucket point = some c) :
    TicketsFollow { s with calls := s.calls ++ [c] } := by
  obtain ⟨hevent, hpoint⟩ := hsound
  rcases hook_call_cases hcall with ⟨tracker, link, rfl, rfl⟩ | ⟨tracker, link, request, rfl,
    hrequest, rfl⟩
  · exact h.called ⟨link, hpoint, rfl⟩ (fun hrequest => by cases hrequest) fun hrequest => by
      cases hrequest
  · cases kind with
    | fix build =>
      cases hrequest
      exact h.called ⟨link, hpoint.1, rfl⟩ (fun _ => ⟨build, hevent, hpoint.2 build rfl⟩)
        fun hrequest => by cases hrequest
    | fixVerified build => cases hrequest
    | regression build =>
      cases hrequest
      exact h.called ⟨link, hpoint.1, rfl⟩ (fun hrequest => by cases hrequest) fun _ => hevent

/-- Where a hook or its sweep goes. -/
theorem hook_op_next {u : NotifyStore} {app bucket : String} {kind : HookKind}
    {point : HookPoint} {rest : Option SweepOp} {answered : Bool} {op : NotifyOp}
    (h : (NotifyOp.hook app bucket kind point rest).next E cfg u answered = some op) :
    (∃ point', (kind.hook bucket).next E u app bucket answered point = some point' ∧
      op = .hook app bucket kind point' rest) ∨ ∃ op', op = .sweep op' none := by
  rw [NotifyOp.next] at h
  split at h
  · rename_i point' hpoint
    exact .inl ⟨point', hpoint, (Option.some.inj h).symm⟩
  · obtain ⟨op', -, rfl⟩ := Option.map_eq_some_iff.1 h
    exact .inr ⟨op', rfl⟩

/-- A hook goes on as a sound one. -/
theorem sound_hook_next (htickets : ∀ app bucket link,
      ticketForBucket s.store.sweep.telemetry app bucket = some link →
        ((app, bucket), link) ∈ s.store.linked)
    {app bucket : String} {kind : HookKind} {point : HookPoint} {rest : Option SweepOp}
    {result : CallResult} {op : NotifyOp}
    (hsound : (NotifyOp.hook app bucket kind point rest).Sound s.store)
    (h : (NotifyOp.hook app bucket kind point rest).next E cfg s.store (result = .answered) =
      some op) :
    op.Sound (if result = .failed then s.store else
      (NotifyOp.hook app bucket kind point rest).effect s.store) := by
  have hsweep : (if result = .failed then s.store else
      (NotifyOp.hook app bucket kind point rest).effect s.store).sweep = s.store.sweep := by
    split <;> rfl
  have hlinked : (if result = .failed then s.store else
      (NotifyOp.hook app bucket kind point rest).effect s.store).linked = s.store.linked := by
    split <;> rfl
  rcases hook_op_next h with ⟨point', hpoint, rfl⟩ | ⟨op', rfl⟩
  · refine ⟨hsweep ▸ hsound.1, ?_⟩
    rcases hook_next_cases hpoint with ⟨tracker, rfl, rfl⟩ | ⟨tracker, link, rfl, rfl, hlink⟩ |
      ⟨tracker, link, rfl, rfl, hlanded⟩
    · trivial
    · rw [HookPoint.Sound, hlinked]
      exact htickets app bucket link hlink
    · refine ⟨by rw [hlinked]; exact hsound.2, ?_⟩
      rintro build rfl
      rcases hlanded with hanswered | hneeds
      · rw [decide_eq_true_eq] at hanswered
        subst hanswered
        exact List.mem_append_right _ (List.mem_singleton_self _)
      · cases hneeds
  · trivial

/-- A request is made by the hook that owes it, which owes nothing after. -/
theorem owed_hook {request : TrackerRequest} {status : String}
    (hstatus : request.status? = some status) (E : TrackerEnv) (cfg : ResolutionConfig)
    (u : NotifyStore) (app bucket a b : String) (kind : HookKind) (point : HookPoint)
    (rest : Option SweepOp) (answered : Bool) :
    requestsFor ((kind.hook b).call a b point).toList app bucket request +
        (if ((NotifyOp.hook a b kind point rest).next E cfg u answered).any
          (NotifyOp.owes app bucket request) then 1 else 0) ≤
      if (NotifyOp.hook a b kind point rest).owes app bucket request then 1 else 0 := by
  have hnext : ((NotifyOp.hook a b kind point rest).next E cfg u answered).any
      (NotifyOp.owes app bucket request) = true →
      (NotifyOp.hook a b kind point rest).owes app bucket request = true ∧
        ∀ tracker link, point ≠ .requesting tracker link := by
    intro hany
    obtain ⟨op, hop, howes⟩ := (Option.any_eq_true _ _).1 hany
    rcases hook_op_next hop with ⟨point', hpoint, rfl⟩ | ⟨op', rfl⟩
    · refine ⟨howes, ?_⟩
      rintro tracker link rfl
      cases hpoint
    · cases howes
  cases hcall : (kind.hook b).call a b point with
  | none =>
    rw [Option.toList_none, show requestsFor [] app bucket request = 0 from rfl, Nat.zero_add]
    split
    · rename_i hany
      rw [if_pos (hnext hany).1]
    · exact Nat.zero_le _
  | some c =>
    rw [Option.toList_some]
    rcases hook_call_cases hcall with ⟨tracker, link, rfl, rfl⟩ | ⟨tracker, link, request', rfl,
      hrequest, rfl⟩
    · have hcomment : requestsFor [⟨a, b, tracker, link.externalId, .comment (kind.hook b).body⟩]
          app bucket request = 0 := by
        refine List.countP_eq_zero.2 fun c hc => ?_
        rw [List.mem_singleton.1 hc]
        rintro hthis
        simp only [Bool.and_eq_true, decide_eq_true_eq] at hthis
        rw [← hthis.2] at hstatus
        cases hstatus
      rw [hcomment, Nat.zero_add]
      split
      · rename_i hany
        rw [if_pos (hnext hany).1]
      · exact Nat.zero_le _
    · have hlast : ¬ ((NotifyOp.hook a b kind (.requesting tracker link) rest).next E cfg u
          answered).any (NotifyOp.owes app bucket request) = true :=
        fun hany => (hnext hany).2 tracker link rfl
      rw [if_neg hlast, Nat.add_zero]
      have hmade : requestsFor [⟨a, b, tracker, link.externalId, request'⟩] app bucket request =
          if (NotifyOp.hook a b kind (.requesting tracker link) rest).owes app bucket request then 1
          else 0 := by
        rw [requestsFor, List.countP_singleton, NotifyOp.owes, hrequest]
        simp
      exact hmade.le

/-- The call of a hook. -/
theorem notifyKept_hook (E : TrackerEnv) (cfg : ResolutionConfig) {result : CallResult}
    {app bucket : String} {kind : HookKind} {point : HookPoint} {rest : Option SweepOp}
    (h : NotifyKept s) (hop : s.inFlight[i]? = some (.hook app bucket kind point rest)) :
    NotifyKept ⟨(notifyNext E cfg s.store result (.hook app bucket kind point rest)).1,
      s.inFlight.eraseIdx i ++
        (notifyNext E cfg s.store result (.hook app bucket kind point rest)).2.toList⟩ := by
  have hsound := h.sound _ (List.mem_of_getElem? hop)
  refine h.stepped hop ?_ ?_ (fun _ _ => ?_) (fun op hop' => ?_) ?_
  · unfold notifyNext
    dsimp only
    split
    · exact ⟨.refl _, fun _ hl => hl, fun _ hc => hc⟩
    · exact ⟨.refl _, fun _ hl => hl, fun _ hc => List.mem_append_left _ hc⟩
  · unfold notifyNext
    dsimp only
    split
    · exact h.follow
    · rw [NotifyOp.effect]
      cases hcall : (kind.hook bucket).call app bucket point with
      | none => simpa using h.follow
      | some c => exact h.follow.hook_called hsound hcall
  · unfold notifyNext
    dsimp only
    split <;> rfl
  · have hnext : (NotifyOp.hook app bucket kind point rest).next E cfg s.store
        (result = .answered) = some op := hop'
    exact sound_hook_next h.tickets hsound hnext
  · intro a b request status hstatus
    have howed := owed_hook hstatus E cfg s.store a b app bucket kind point rest
      (result = .answered)
    unfold notifyNext
    dsimp only
    split
    · omega
    · rw [NotifyOp.effect, requestsFor, List.countP_append]
      dsimp only [requestsFor] at howed ⊢
      omega

/-- The writes that a sweep comes between leave the tickets as they are. -/
theorem ticketForBucket_commitSweep {u u' : SweepStore} {c : SweepCommit}
    (hwrite : commitSweep P u c = some u') (app bucket : String) :
    ticketForBucket u'.telemetry app bucket = ticketForBucket u.telemetry app bucket := by
  cases c with
  | ingest now b =>
    obtain ⟨t, ht, rfl⟩ := Option.map_eq_some_iff.1 hwrite
    obtain ⟨⟨dup, t'⟩, hok, rfl⟩ := Option.map_eq_some_iff.1 ht
    dsimp only
    rw [ingestedFrom_ingestBatch (eq_ok_of_toOption hok)]
    rfl
  | expire now days limit ids =>
    obtain ⟨t, ht, rfl⟩ := Option.map_eq_some_iff.1 hwrite
    obtain ⟨order, -, hok⟩ := Option.bind_eq_some_iff.1 ht
    rw [deletedFrom_deleteErrors (eq_ok_of_toOption hok)]
    rfl
  | triage app' bucket' status assignee fixedInBuild =>
    cases hwrite
    rfl
  | advance app' bucket' status fixedInBuild =>
    cases hwrite
    rfl

/-- A write that keeps the calls, the log and what is owed. -/
theorem NotifyKept.written {store : NotifyStore} (h : NotifyKept s)
    (hgrows : NotifyGrows s.store store) (hcalls : store.calls = s.store.calls)
    (htickets : ∀ app bucket link, ticketForBucket store.sweep.telemetry app bucket = some link →
      ((app, bucket), link) ∈ store.linked) :
    NotifyKept { s with store := store } where
  follow := h.follow.of_same_calls hgrows hcalls
  tickets := htickets
  sound op hop := (h.sound op hop).grows hgrows
  owed app bucket request status hstatus := by
    have hkept := h.owed app bucket request status hstatus
    have hlog := hgrows.log.eventsInto_le app bucket status
    dsimp only
    rw [hcalls]
    omega

/-- The writes of others keep what all runs keep. -/
theorem notifyKept_commit {store : NotifyStore} {c : NotifyCommit} (h : NotifyKept s)
    (hwrite : commitNotify P s.store c = some store) : NotifyKept { s with store := store } := by
  cases c with
  | sweep c =>
    obtain ⟨u, hu, rfl⟩ := Option.map_eq_some_iff.1 hwrite
    refine h.written ⟨fun app bucket => ⟨[], ?_⟩, fun _ hl => hl, fun _ hc => hc⟩ rfl
      fun app bucket link hlink => ?_
    · rw [List.append_nil]
      exact (sameLog_commit app bucket hu).2.1
    · dsimp only at hlink
      rw [ticketForBucket_commitSweep hu] at hlink
      exact h.tickets app bucket link hlink
  | link a b link =>
    cases hwrite
    refine h.written ⟨fun _ _ => ⟨[], (List.append_nil _).symm⟩,
      fun _ hl => List.mem_append_left _ hl, fun _ hc => hc⟩ rfl fun app bucket link' hlink => ?_
    dsimp only at hlink
    rw [ticketForBucket_linkTicket] at hlink
    split at hlink
    · rename_i hkey
      cases hlink
      rw [← hkey]
      exact List.mem_append_right _ (List.mem_singleton_self _)
    · exact List.mem_append_left _ (h.tickets app bucket link' hlink)
  | configure app row =>
    cases hwrite
    exact h.written ⟨.refl _, fun _ hl => hl, fun _ hc => hc⟩ rfl h.tickets

theorem notifyKept_step {e : NotifyEvent} (h : NotifyKept s)
    (hstep : (notifies E P cfg).step s e = some s') : NotifyKept s' := by
  cases Program.effect_of_step hstep with
  | @start op hstarts =>
    have hstart : ∀ app bucket request, op.owes app bucket request = false := by
      intro app bucket request
      cases op with
      | sweep op regressionBuild => rfl
      | hook a b kind point rest =>
        cases kind with
        | fixVerified build => simp [NotifyOp.owes, HookKind.hook, commentTicketFixVerified]
        | fix build | regression build => cases hstarts
    refine ⟨h.follow, h.tickets, fun o ho => ?_, fun app bucket request status hstatus => ?_⟩
    · rcases List.mem_append.1 ho with ho | ho
      · exact h.sound o ho
      · rw [List.mem_singleton.1 ho]
        cases op with
        | sweep op regressionBuild => trivial
        | hook a b kind point rest =>
          cases kind with
          | fixVerified build =>
            cases point with
            | resolving => exact ⟨trivial, trivial⟩
            | linking _ | commenting _ _ | requesting _ _ => cases hstarts
          | fix build | regression build => cases hstarts
    · have hkept := h.owed app bucket request status hstatus
      have hcount : (s.inFlight ++ [op]).countP (NotifyOp.owes app bucket request) =
          s.inFlight.countP (NotifyOp.owes app bucket request) := by
        rw [List.countP_append, List.countP_singleton, hstart]
        rfl
      dsimp only
      rw [hcount]
      exact hkept
  | @advance i result op store next hop hnext =>
    obtain ⟨rfl, rfl⟩ := Prod.mk.inj (Option.some.inj hnext)
    cases op with
    | sweep op regressionBuild => exact notifyKept_sweep E h hop
    | hook app bucket kind point rest => exact notifyKept_hook E cfg h hop
  | @abandon i op hop =>
    refine ⟨h.follow, h.tickets, fun o ho => h.sound o (List.mem_of_mem_eraseIdx ho),
      fun app bucket request status hstatus => ?_⟩
    have hkept := h.owed app bucket request status hstatus
    have hcount : (s.inFlight.eraseIdx i).countP (NotifyOp.owes app bucket request) ≤
        s.inFlight.countP (NotifyOp.owes app bucket request) :=
      (List.eraseIdx_sublist s.inFlight i).countP_le
    dsimp only
    omega
  | commit hwrite => exact notifyKept_commit h hwrite

end Steps

theorem notifyKept_init : NotifyKept Notifying.init where
  follow :=
    { linked := fun _ hc => absurd hc List.not_mem_nil
      closed := fun _ _ hc => by cases hc
      reopened := fun _ hc => absurd hc List.not_mem_nil }
  tickets _ _ _ hlink := by cases hlink
  sound _ hop := absurd hop List.not_mem_nil
  owed _ _ _ _ _ := Nat.zero_le _

/-! ## An app that keeps its tracker -/

/-- The configurations and the links of an app are to one tracker. -/
def KeepsTracker (E : TrackerEnv) (app : String) (tracker : ConfiguredTracker) (_ : Notifying)
    (e : NotifyEvent) (_ : Notifying) : Prop :=
  match e with
  | .commit (.configure a row) => a = app → fromConfig E row = some tracker
  | .commit (.link a _ link) => a = app → ⟨link.provider, link.repo⟩ = tracker
  | _ => True

/-- The tracker that a hook has read. -/
def HookPoint.Asks (tracker : ConfiguredTracker) : HookPoint → Prop
  | resolving => True
  | linking t | commenting t _ | requesting t _ => t = tracker

def NotifyOp.Asks (app : String) (tracker : ConfiguredTracker) : NotifyOp → Prop
  | sweep _ _ => True
  | hook a _ _ point _ => a = app → point.Asks tracker

/-- The row, the links and the calls of an app are of one tracker. -/
structure OneTracker (E : TrackerEnv) (app : String) (tracker : ConfiguredTracker)
    (s : NotifyStore) : Prop where
  row : ∀ row, s.projectIntegrations.get? app = some row → fromConfig E row = some tracker
  links : ∀ bucket link, ((app, bucket), link) ∈ s.linked → ⟨link.provider, link.repo⟩ = tracker
  calls : ∀ c ∈ s.calls, c.appId = app → c.tracker = tracker

section Kept

variable {E : TrackerEnv} {P : Platform} {cfg : ResolutionConfig} {app : String}
  {tracker : ConfiguredTracker} {s : NotifyStore}

/-- Whether the row is read or not, the tracker is the one. -/
theorem OneTracker.resolves (h : OneTracker E app tracker s)
    (hown : ∀ t ∈ resolve E app, t = tracker) {answered : Bool} {t : ConfiguredTracker}
    (ht : resolveFor E (if answered then some (s.projectIntegrations.get? app) else none) app =
      some t) : t = tracker := by
  cases answered with
  | false => exact hown t ht
  | true =>
    rw [if_pos rfl] at ht
    cases hrow : s.projectIntegrations.get? app with
    | none =>
      rw [hrow] at ht
      exact hown t ht
    | some row =>
      rw [hrow, resolveFor_of_row (h.row row hrow)] at ht
      exact (Option.some.inj ht).symm

/-- A hook goes on with the tracker it has read. -/
theorem asks_next (h : OneTracker E app tracker s) (hown : ∀ t ∈ resolve E app, t = tracker)
    {op op' : NotifyOp} {answered : Bool} (hop : op.Asks app tracker)
    (hnext : op.next E cfg s answered = some op') : op'.Asks app tracker := by
  cases op with
  | sweep op regressionBuild =>
    obtain ⟨next, -, rfl⟩ := Option.map_eq_some_iff.1 hnext
    rcases enterHook_cases (regressionBuildAfter cfg s.sweep.telemetry regressionBuild op) next with
      ⟨b, rest, now, current, -, henter⟩ | henter
    · rw [henter]
      exact fun _ => trivial
    · rw [henter]
      trivial
  | hook a bucket kind point rest =>
    rcases hook_op_next hnext with ⟨point', hpoint, rfl⟩ | ⟨op', rfl⟩
    · rintro rfl
      have hasks := hop rfl
      rcases hook_next_cases hpoint with ⟨t, rfl, rfl⟩ | ⟨t, link, rfl, rfl, -⟩ |
        ⟨t, link, rfl, rfl, -⟩
      · obtain ⟨t', ht', heq⟩ := Option.map_eq_some_iff.1 hpoint
        cases heq
        exact h.resolves hown ht'
      · exact hasks
      · exact hasks
    · trivial

/-- What a hook says, it says to the tracker it has read. -/
theorem oneTracker_effect (h : OneTracker E app tracker s) {op : NotifyOp}
    (hop : op.Asks app tracker) : OneTracker E app tracker (op.effect s) := by
  cases op with
  | sweep op regressionBuild => exact ⟨h.row, h.links, h.calls⟩
  | hook a bucket kind point rest =>
    refine ⟨h.row, h.links, fun c hc hcapp => ?_⟩
    rcases List.mem_append.1 hc with hc | hc
    · exact h.calls c hc hcapp
    · rcases hook_call_cases (Option.mem_toList.1 hc) with ⟨t, link, rfl, rfl⟩ |
        ⟨t, link, request, rfl, -, rfl⟩
      · exact hop hcapp
      · exact hop hcapp

theorem oneTracker_commit (h : OneTracker E app tracker s) {c : NotifyCommit} {store : NotifyStore}
    {t t' : Notifying} (hok : KeepsTracker E app tracker t (.commit c) t')
    (hwrite : commitNotify P s c = some store) : OneTracker E app tracker store := by
  cases c with
  | sweep c =>
    obtain ⟨u, -, rfl⟩ := Option.map_eq_some_iff.1 hwrite
    exact ⟨h.row, h.links, h.calls⟩
  | link a bucket link =>
    cases hwrite
    refine ⟨h.row, fun bucket' link' hlink => ?_, h.calls⟩
    rcases List.mem_append.1 hlink with hlink | hlink
    · exact h.links bucket' link' hlink
    · cases List.mem_singleton.1 hlink
      exact hok rfl
  | configure a row =>
    cases hwrite
    refine ⟨fun row' hrow => ?_, h.links, h.calls⟩
    dsimp only at hrow
    rw [Table.get?_upsert] at hrow
    split at hrow
    · rename_i ha
      subst ha
      cases hget : s.projectIntegrations.get? app <;> simp_all [KeepsTracker]
    · exact h.row row' hrow

theorem keepsOutline_tracker (hown : ∀ t ∈ resolve E app, t = tracker) :
    KeepsOutline (notifies E P cfg) (KeepsTracker E app tracker) (OneTracker E app tracker)
      (fun _ op => op.Asks app tracker) fun _ _ => True where
  start s s' op _ _ hstarts := by
    refine ⟨?_, fun _ _ => trivial⟩
    cases op with
    | sweep op regressionBuild => trivial
    | hook a bucket kind point rest =>
      intro _
      cases kind with
      | fixVerified build =>
        cases point with
        | resolving => trivial
        | linking _ | commenting _ _ | requesting _ _ => cases hstarts
      | fix build | regression build => cases hstarts
  advance s s' i result op store next h _ hop hnext := by
    have hasks := h.each op (List.mem_of_getElem? hop)
    obtain ⟨rfl, rfl⟩ := Prod.mk.inj (Option.some.inj hnext)
    refine ⟨?_, fun o ho => h.each o (List.mem_of_mem_eraseIdx ho),
      fun op' hop' => ⟨asks_next h.store hown hasks hop', fun _ _ => trivial⟩⟩
    show OneTracker E app tracker (if result = .failed then s.store else op.effect s.store)
    split
    · exact h.store
    · exact oneTracker_effect h.store hasks
  commit s s' c store h hok hwrite :=
    ⟨oneTracker_commit h.store hok hwrite, h.each⟩

end Kept

/-- In every run of the sweeps and the hooks, the trackers receive nothing but what production
calls for.  An app that keeps its tracker has it asked for the issues that were linked. -/
theorem tickets_follow_production {E : TrackerEnv} {P : Platform} {cfg : ResolutionConfig}
    {es : List NotifyEvent} {s : Notifying}
    (hrun : Run (stepOf (notifies E P cfg).step) Notifying.init es s) :
    TicketsFollow s.store ∧ (∀ app bucket,
      requestsFor s.store.calls app bucket .close ≤
          eventsInto s.store.sweep app bucket "resolved" ∧
        requestsFor s.store.calls app bucket .reopen ≤
          eventsInto s.store.sweep app bucket "regressed") ∧
      ∀ app tracker, (∀ t ∈ resolve E app, t = tracker) →
        Run (Guarded (stepOf (notifies E P cfg).step) (KeepsTracker E app tracker))
          Notifying.init es s →
        ∀ c ∈ s.store.calls, c.appId = app → c.tracker = tracker ∧
          ∃ link, ((app, c.bucketId), link) ∈ s.store.linked ∧ link.externalId = c.externalId ∧
            ⟨link.provider, link.repo⟩ = tracker := by
  have h : NotifyKept s := hrun.invariant NotifyKept
    (fun _ _ _ hi hstep => notifyKept_step hi hstep) notifyKept_init
  refine ⟨h.follow, fun app bucket => ⟨?_, ?_⟩, ?_⟩
  · exact le_trans (Nat.le_add_right _ _) (h.owed app bucket .close "resolved" rfl)
  · exact le_trans (Nat.le_add_right _ _) (h.owed app bucket .reopen "regressed" rfl)
  · rintro app tracker hown hkept c hc rfl
    have hinit : OneTracker E c.appId tracker Notifying.init.store :=
      ⟨fun _ hrow => (by cases hrow), fun _ _ hlink => absurd hlink List.not_mem_nil,
        fun _ hc => absurd hc List.not_mem_nil⟩
    have hone := (Outline.run (keepsOutline_tracker hown) hkept (outline_of_idle hinit rfl)).store
    obtain ⟨link, hlink, hid⟩ := h.follow.linked c hc
    exact ⟨hone.calls c hc rfl, link, hlink, hid, hone.links c.bucketId link hlink⟩

/-- A server whose tokens are stored as they are, and without trackers of its own. -/
def rowsOnly : TrackerEnv where
  decrypt := some
  var _ := none
  selfHosted := false

/-- A sweep on its own, through so many answered calls of its own and of its hook. -/
def notifyAlone (now : Micros) (calls : Nat) : List NotifyEvent :=
  .start (.sweep (.anchoring (.instant now)) none) :: List.replicate calls (.advance 0 .answered)

/-- A linked bucket is anchored and swept, its fix is deployed, and it is swept again. -/
def deployedFix : List NotifyEvent :=
  [.commit (.configure "shop" { repo := some "acme/shop", tokenEnc := some "token" }),
    .commit (.link "shop" "bkt_dd250179f692" ⟨"github", "acme/shop", "7", "/issues/7"⟩),
    .commit (.sweep (.triage "shop" "bkt_dd250179f692" "fixed" none (some "c1")))] ++
  notifyAlone 0 6 ++
  [.commit (.sweep (.ingest 0
    { appId := "shop", edges := [("a", 1)], batchId := "batch-1", deployment := some "c1" }))] ++
  notifyAlone 1 10

/-- The guard, as a check. -/
def keepsTracker (E : TrackerEnv) (app : String) (tracker : ConfiguredTracker) (_ : Notifying) :
    NotifyEvent → Bool
  | .commit (.configure a row) => a ≠ app || fromConfig E row = some tracker
  | .commit (.link a _ link) =>
    a ≠ app || (⟨link.provider, link.repo⟩ : ConfiguredTracker) = tracker
  | _ => true

theorem keepsTracker_sound {E : TrackerEnv} {app : String} {tracker : ConfiguredTracker}
    (s : Notifying) (e : NotifyEvent) (s' : Notifying) (h : keepsTracker E app tracker s e = true) :
    KeepsTracker E app tracker s e s' := by
  cases e with
  | commit c =>
    cases c with
    | sweep c => trivial
    | link a bucket link | configure a row =>
      rintro rfl
      simpa [keepsTracker] using h
  | start op | abandon i | advance i result => trivial

theorem tickets_follow_production_closed :
    ∃ s, Run (stepOf (notifies rowsOnly oneBucket { thresholds := ⟨0, 1⟩ }).step) Notifying.init
        deployedFix s ∧
      s.store.calls.map (fun c => (c.externalId, decide (c.request = .close))) =
        [("7", false), ("7", true)] ∧
      eventsInto s.store.sweep "shop" "bkt_dd250179f692" "resolved" = 1 ∧
      TicketsFollow s.store ∧
      ∀ c ∈ s.store.calls, c.appId = "shop" → c.tracker = ⟨"github", "acme/shop"⟩ := by
  have hsome : (runOf (checked (notifies rowsOnly oneBucket { thresholds := ⟨0, 1⟩ }).step
      (keepsTracker rowsOnly "shop" ⟨"github", "acme/shop"⟩)) Notifying.init deployedFix).map
      (fun s => (s.store.calls.map (fun c => (c.externalId, decide (c.request = .close))),
        eventsInto s.store.sweep "shop" "bkt_dd250179f692" "resolved")) =
      some ([("7", false), ("7", true)], 1) := by decide
  obtain ⟨s, hs, hend⟩ := Option.map_eq_some_iff.1 hsome
  rw [Prod.mk.injEq] at hend
  have hkept : Run (Guarded (stepOf (notifies rowsOnly oneBucket { thresholds := ⟨0, 1⟩ }).step)
      (KeepsTracker rowsOnly "shop" ⟨"github", "acme/shop"⟩)) Notifying.init deployedFix s :=
    Run.of_runOf_checked keepsTracker_sound hs
  obtain ⟨hfollow, -, hone⟩ := tickets_follow_production hkept.of_guarded
  have hown : ∀ t ∈ resolve rowsOnly "shop", t = ⟨"github", "acme/shop"⟩ := by
    have hnone : resolve rowsOnly "shop" = none := by decide
    simp [hnone]
  exact ⟨s, hkept.of_guarded, hend.1, hend.2, hfollow, fun c hc happ =>
    (hone "shop" _ hown hkept c hc happ).1⟩

end ReproitCloud
