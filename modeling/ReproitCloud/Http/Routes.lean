import ReproitCloud.Http.Gates

/-!
# What a publishable key can reach

A publishable key is shipped in web pages, so it is meant to be write-only: it may post
events and nothing else.  This module has the routes of the router with their gates and
asks of a request that presents such a key, and no session, whether it is turned down.

`WriteOnly` is the property, about two runs: whatever is in the tenants' databases, the
gate turns the request down, the databases and the control plane stay as they are apart
from the audit log, and the reply is the same for any two contents of the databases.

It holds on every route but those of `authorizeApp`, where it fails whenever a database
opens for the key's organization: the request gets to the handler if the app is there
and is not found if it is not.  `publishable_key_refused_iff` has the exact condition.
-/

namespace ReproitCloud

open Lib

/-! ## The router -/

/-- How a route finds out who is calling. -/
inductive Gate where
  /-- `require_ingest_key`. -/
  | ingestKey
  /-- `require_api_key`. -/
  | apiKey
  /-- `require_worker_token`. -/
  | worker
  /-- `user_and_org`, first thing in the handler. -/
  | userAndOrg
  /-- `current_user`, first thing in the handler, with the reply to others. -/
  | currentUser (msg : String)
  /-- `create_org`: `current_user`, after a check of the edition. -/
  | createOrg
  /-- `authorize_app`, first thing in the handler. -/
  | app
  /-- The route has no organization behind it, or its own credential: a password, a mailed
  token, a device code. -/
  | own
deriving DecidableEq, Repr

/-- The routes, by their handlers. -/
inductive Route where
  | postEvents
  | submitJob | getJob | getMe | getBucketGlobal | getGraph | getErrors | getCohorts
  | getBuckets | getRunProof | postPublishableKey | getIntegration | putIntegration | getBucket
  | postReplayResults | getReplayResults | postReproduce | getCloudRuns | postBucketEvidence
  | getBucketEvidence | getTicket | postTicket | getExport | getBlob | createProjectApi
  | deleteProjectApi | captureCreate | captureStatus | capturePutFile | captureComplete
  | workerClaim | workerHeartbeat | workerResult
  | me | usage | createProject | deleteProject | cliApprove | rotatePublishableKey | renameOrg
  | deleteOrg | inviteMember | resendInvitation | revokeInvitation | addMember | removeMember
  | setMemberRole | setSeat | accountScans | accountScanDetail | deleteSampleBucket
  | captureReview | captureApprove | accountCapture
  | setActiveOrg | acceptInvitation | createOrg
  | getTriage | postTriage | getDashboardBuckets | getBucketDetail | getBucketTimeline
  | getResolutionEvents
  | signup | login | logout | cliDevice | cliToken | invitationPreview | verifyEmail
  | forgotPassword | resetPassword | sessionStatus | authConfig | health | ready | root
deriving DecidableEq, Repr

/-- The gate of a route. -/
def Route.gate : Route → Gate
  | postEvents => .ingestKey
  | submitJob | getJob | getMe | getBucketGlobal | getGraph | getErrors | getCohorts
  | getBuckets | getRunProof | postPublishableKey | getIntegration | putIntegration | getBucket
  | postReplayResults | getReplayResults | postReproduce | getCloudRuns | postBucketEvidence
  | getBucketEvidence | getTicket | postTicket | getExport | getBlob | createProjectApi
  | deleteProjectApi | captureCreate | captureStatus | capturePutFile | captureComplete => .apiKey
  | workerClaim | workerHeartbeat | workerResult => .worker
  | me | usage | createProject | deleteProject | cliApprove | rotatePublishableKey | renameOrg
  | deleteOrg | inviteMember | resendInvitation | revokeInvitation | addMember | removeMember
  | setMemberRole | setSeat | accountScans | accountScanDetail | deleteSampleBucket
  | captureReview | captureApprove | accountCapture => .userAndOrg
  | setActiveOrg => .currentUser "not signed in"
  | acceptInvitation => .currentUser "sign in to accept this invitation"
  | createOrg => .createOrg
  | getTriage | postTriage | getDashboardBuckets | getBucketDetail | getBucketTimeline
  | getResolutionEvents => .app
  | signup | login | logout | cliDevice | cliToken | invitationPreview | verifyEmail
  | forgotPassword | resetPassword | sessionStatus | authConfig | health | ready | root => .own

/-- A route that reads or writes the data of an organization, other than ingest. -/
def Route.ofOrganization (route : Route) : Bool := route.gate ≠ .ingestKey && route.gate ≠ .own

/-- A request to a route. -/
structure Request extends Credentials where
  route : Route
  /-- `:app` of the path. -/
  appId : String := ""
  /-- What the layers in front of the gate answer, if they turn the request down: the host
  and origin checks, the rate limits, the body limit. -/
  layers : Option Refusal := none
  /-- What the extractors of the handler answer, if path, query or body do not parse. -/
  extractors : Option Refusal := none

/-- The extractors of the handler. -/
def Request.extracted (req : Request) (access : Access) : Except Refusal Access :=
  match req.extractors with
  | some refusal => .error refusal
  | none => .ok access

/-- What the router makes of a request before the handler does its work.  A gate in front
of the route comes before the extractors, a gate inside the handler after them. -/
def passGates (cfg : ServerConfig) (chance : GateChance) (w : Accounts) (req : Request) :
    Except Refusal Access × Accounts :=
  match req.layers with
  | some refusal => (.error refusal, w)
  | none =>
    match req.route.gate with
    | .ingestKey =>
      let auth := resolveApiAuth cfg chance w.control req.toCredentials true
      (auth.1.bind req.extracted, { w with control := auth.2 })
    | .apiKey =>
      let auth := resolveApiAuth cfg chance w.control req.toCredentials false
      (auth.1.bind req.extracted, { w with control := auth.2 })
    | .worker => ((requireWorkerToken cfg req.toCredentials).bind req.extracted, w)
    | .userAndOrg =>
      ((req.extracted .anyone).bind fun _ =>
        (userAndOrg cfg chance w.control req.toCredentials).map fun found =>
          .session found.1 (some found.2), w)
    | .currentUser msg =>
      ((req.extracted .anyone).bind fun _ =>
        match currentUser cfg chance w.control req.toCredentials with
        | none => .error (refuse 401 msg isError_401)
        | some user => .ok (.session user none), w)
    | .createOrg =>
      ((req.extracted .anyone).bind fun _ =>
        if cfg.selfHosted then
          .error (refuse 400 "self-hosted ReproIt uses one organization" isError_400)
        else
          match currentUser cfg chance w.control req.toCredentials with
          | none => .error (refuse 401 "not signed in" isError_401)
          | some user => .ok (.session user none), w)
    | .app =>
      ((req.extracted .anyone).bind fun _ =>
        authorizeApp cfg chance w req.toCredentials req.appId, w)
    | .own => (req.extracted .anyone, w)

/-- The whole answer to a request, with the handlers of the routes. -/
def serve (handle : Access → Request → Accounts → Reply × Accounts) (cfg : ServerConfig)
    (chance : GateChance) (w : Accounts) (req : Request) : Reply × Accounts :=
  match passGates cfg chance w req with
  | (.error refusal, w') => (refusal.reply, w')
  | (.ok access, w') => handle access req w'

/-! ## Write-only keys -/

/-- The request presents an active publishable key, and this is its owner. -/
structure PresentsPublishable (cfg : ServerConfig) (now : Micros) (c : ControlStore)
    (req : Request) (token : String) (owner : ControlStore.KeyOwner) : Prop where
  presented : bearer req.authorization = .ok token
  publishable : "pk_live_".toList <+: token.toList
  active : c.orgForApiKey now (cfg.keyHash token) = some owner

/-- The request is turned down, changes nothing but the audit log and tells nothing of
what the databases hold. -/
structure WriteOnly (cfg : ServerConfig) (chance : GateChance) (c : ControlStore)
    (req : Request) : Prop where
  refused : ∀ tenants, ∃ refusal, (passGates cfg chance ⟨c, tenants⟩ req).1 = .error refusal
  unchanged : ∀ tenants, ∃ log,
    (passGates cfg chance ⟨c, tenants⟩ req).2 = ⟨{ c with auditLog := log }, tenants⟩
  silent : ∀ tenants tenants',
    (passGates cfg chance ⟨c, tenants⟩ req).1 = (passGates cfg chance ⟨c, tenants'⟩ req).1

/-- The organization `authorize_app` resolves the key to. -/
def targetOrg (cfg : ServerConfig) (chance : GateChance) (req : Credentials) (token : String)
    (owner : ControlStore.KeyOwner) : Option Int64 :=
  if cfg.isAdmin token then adminTarget req.target
  else if chance.keyLookupFails then none
  else some owner.orgId

/-- When a publishable key is kept out of a route. -/
def KeptOut (cfg : ServerConfig) (chance : GateChance) (req : Request) (token : String)
    (owner : ControlStore.KeyOwner) : Prop :=
  req.layers ≠ none ∨
    match req.route.gate with
    | .apiKey => cfg.isAdmin token = false ∨ req.extractors ≠ none
    | .worker => (token.toList ∉ cfg.workerTokens ∧ cfg.devOpen = false) ∨ req.extractors ≠ none
    | .userAndOrg | .currentUser _ | .createOrg => True
    | .app =>
      (∀ org, targetOrg cfg chance req.toCredentials token owner = some org →
        ∀ db, chance.resolved org ≠ .ok db) ∨ req.extractors ≠ none
    | .ingestKey | .own => False

section WriteOnly

variable {cfg : ServerConfig} {chance : GateChance} {c : ControlStore} {req : Request}
  {token : String} {owner : ControlStore.KeyOwner}

theorem resolveApiAuth_snd (cfg : ServerConfig) (chance : GateChance) (c : ControlStore)
    (req : Credentials) (allowPublishable : Bool) :
    ∃ log, (resolveApiAuth cfg chance c req allowPublishable).2 = { c with auditLog := log } := by
  unfold resolveApiAuth
  split
  · exact ⟨_, rfl⟩
  split
  · dsimp only [ControlStore.audit]
    split
    · exact ⟨_, rfl⟩
    · exact ⟨_, rfl⟩
  split
  · exact ⟨_, rfl⟩
  split
  · exact ⟨_, rfl⟩
  split
  · exact ⟨_, rfl⟩
  · exact ⟨_, rfl⟩

/-- No gate writes anything but the audit log. -/
theorem passGates_snd (cfg : ServerConfig) (chance : GateChance) (c : ControlStore)
    (tenants : Table Int64 ProjectStore) (req : Request) :
    ∃ log, (passGates cfg chance ⟨c, tenants⟩ req).2 = ⟨{ c with auditLog := log }, tenants⟩ := by
  unfold passGates
  split
  · exact ⟨_, rfl⟩
  split
  · obtain ⟨log, hlog⟩ := resolveApiAuth_snd cfg chance c req.toCredentials true
    exact ⟨log, by rw [← hlog]⟩
  · obtain ⟨log, hlog⟩ := resolveApiAuth_snd cfg chance c req.toCredentials false
    exact ⟨log, by rw [← hlog]⟩
  all_goals exact ⟨_, rfl⟩

/-- The property in one formula: one refusal, whatever the databases hold. -/
theorem writeOnly_iff :
    WriteOnly cfg chance c req ↔
      ∃ refusal, ∀ tenants, (passGates cfg chance ⟨c, tenants⟩ req).1 = .error refusal := by
  constructor
  · intro h
    obtain ⟨refusal, hrefusal⟩ := h.refused .empty
    exact ⟨refusal, fun tenants => (h.silent tenants .empty).trans hrefusal⟩
  · rintro ⟨refusal, h⟩
    exact ⟨fun tenants => ⟨refusal, h tenants⟩, fun tenants => passGates_snd cfg chance c tenants req,
      fun tenants tenants' => (h tenants).trans (h tenants').symm⟩

/-- Whatever the handlers do, a write-only request gets one reply with an error code, and
leaves everything but the audit log as it was. -/
theorem serve_of_writeOnly (handle : Access → Request → Accounts → Reply × Accounts)
    (h : WriteOnly cfg chance c req) :
    ∃ refusal : Refusal, ∀ tenants, ∃ log,
      serve handle cfg chance ⟨c, tenants⟩ req =
        (refusal.reply, ⟨{ c with auditLog := log }, tenants⟩) := by
  obtain ⟨refusal, hrefusal⟩ := writeOnly_iff.1 h
  refine ⟨refusal, fun tenants => ?_⟩
  obtain ⟨log, hlog⟩ := h.unchanged tenants
  have hpass : passGates cfg chance ⟨c, tenants⟩ req =
      (.error refusal, ⟨{ c with auditLog := log }, tenants⟩) := Prod.ext (hrefusal tenants) hlog
  exact ⟨log, by rw [serve, hpass]⟩

theorem isPublishable_of_pkLive (h : "pk_live_".toList <+: token.toList) :
    isPublishable token = true := by
  have hpk : "pk_".toList <+: "pk_live_".toList := ⟨"live_".toList, rfl⟩
  exact List.isPrefixOf_iff_prefix.2 (hpk.trans h)

/-- The refusal of a lookup of the app does not depend on the databases exactly when none
of them opens. -/
theorem resolveOwning_refused_iff {org : Int64} {appId : String} :
    (∃ refusal, ∀ tenants, resolveOwning chance tenants org appId = .error refusal) ↔
      ∀ db, chance.resolved org ≠ .ok db := by
  constructor
  · rintro ⟨refusal, h⟩ db hdb
    have hopen := h ⟨[(db, oneProject 1 appId)], List.nodup_singleton _⟩
    simp [resolveOwning, hdb, Table.get?, oneProject, ProjectStore.ownsApp,
      ProjectStore.projectForApp] at hopen
  · intro h
    refine ⟨refuse 404 "not found" (by decide), fun tenants => ?_⟩
    unfold resolveOwning
    split
    · rfl
    · rename_i db hdb
      exact absurd hdb (h db)

/-- What `authorize_app` makes of an active key without a session: it looks the app up in
the database of an organization, or it turns the request down before that. -/
theorem authorizeApp_of_key (hkey : PresentsPublishable cfg chance.now c req token owner)
    (hsession : NoSession cfg chance.now c req.toCredentials) (appId : String) :
    (∃ org, targetOrg cfg chance req.toCredentials token owner = some org ∧
      ∀ tenants, authorizeApp cfg chance ⟨c, tenants⟩ req.toCredentials appId =
        resolveOwning chance tenants org appId) ∨
    (targetOrg cfg chance req.toCredentials token owner = none ∧
      ∃ refusal, ∀ tenants, authorizeApp cfg chance ⟨c, tenants⟩ req.toCredentials appId =
        .error refusal) := by
  have htoken := triageBearer_of_bearer hkey.presented
  cases hadmin : cfg.isAdmin token with
  | true =>
    cases htarget : adminTarget req.target with
    | some org =>
      refine .inl ⟨org, ?_, fun tenants => ?_⟩
      · simp [targetOrg, hadmin, htarget]
      · simp [authorizeApp, htoken, hadmin, htarget]
    | none =>
      refine .inr ⟨?_, refuse 400 "admin requests must name a tenant via X-Reproit-Tenant"
        (by decide), fun tenants => ?_⟩
      · simp [targetOrg, hadmin, htarget]
      · simp [authorizeApp, htoken, hadmin, htarget]
  | false =>
    cases hfails : chance.keyLookupFails with
    | false =>
      refine .inl ⟨owner.orgId, ?_, fun tenants => ?_⟩
      · simp [targetOrg, hadmin, hfails]
      · simp [authorizeApp, htoken, hadmin, orgForKey, hfails, hkey.active]
    | true =>
      refine .inr ⟨?_, refuse 401 "not signed in" (by decide), fun tenants => ?_⟩
      · simp [targetOrg, hadmin, hfails]
      · have hseat : seatGate cfg chance ⟨c, tenants⟩ req.toCredentials appId =
            .error (refuse 401 "not signed in" (by decide)) := seatGate_eq_error hsession
        simp [authorizeApp, htoken, hadmin, orgForKey, hfails, hseat]

/-- So a key is refused there, in one way, exactly when no database opens for it. -/
theorem authorizeApp_refused_iff (hkey : PresentsPublishable cfg chance.now c req token owner)
    (hsession : NoSession cfg chance.now c req.toCredentials) (appId : String) :
    (∃ refusal, ∀ tenants,
        authorizeApp cfg chance ⟨c, tenants⟩ req.toCredentials appId = .error refusal) ↔
      ∀ org, targetOrg cfg chance req.toCredentials token owner = some org →
        ∀ db, chance.resolved org ≠ .ok db := by
  rcases authorizeApp_of_key hkey hsession appId with ⟨org, htarget, hsame⟩ | ⟨htarget, hrefused⟩
  · simp only [hsame, resolveOwning_refused_iff, htarget, Option.some.injEq]
    exact ⟨fun h org' horg => horg ▸ h, fun h => h org rfl⟩
  · refine ⟨fun _ org horg => ?_, fun _ => hrefused⟩
    rw [htarget] at horg
    cases horg

theorem extracted_refused_iff (access : Access) :
    (∃ refusal, req.extracted access = .error refusal) ↔ req.extractors ≠ none := by
  unfold Request.extracted
  cases req.extractors with
  | none => simp
  | some refusal => simp

/-- A gate in front of the route, and then the extractors. -/
theorem bind_extracted_refused_iff (x : Except Refusal Access) :
    (∃ refusal, x.bind req.extracted = .error refusal) ↔
      (∃ refusal, x = .error refusal) ∨ req.extractors ≠ none := by
  cases x with
  | error refusal => exact ⟨fun _ => .inl ⟨refusal, rfl⟩, fun _ => ⟨refusal, rfl⟩⟩
  | ok access =>
    rw [← extracted_refused_iff access]
    refine ⟨fun h => .inr h, fun h => h.resolve_left ?_⟩
    rintro ⟨refusal, h⟩
    cases h

/-- The extractors, and then a gate inside the handler. -/
theorem extracted_bind_refused_iff (x : Table Int64 ProjectStore → Except Refusal Access) :
    (∃ refusal, ∀ tenants, ((req.extracted .anyone).bind fun _ => x tenants) = .error refusal) ↔
      (∃ refusal, ∀ tenants, x tenants = .error refusal) ∨ req.extractors ≠ none := by
  unfold Request.extracted
  cases req.extractors with
  | none => exact ⟨.inl, fun h => h.resolve_right fun hne => hne rfl⟩
  | some refusal => exact ⟨fun _ => .inr nofun, fun _ => ⟨refusal, fun _ => rfl⟩⟩

/-- The gate in front of the API routes keeps the key out, unless it is the admin key. -/
theorem resolveApiAuth_refused_iff (hkey : PresentsPublishable cfg chance.now c req token owner) :
    (∃ refusal, (resolveApiAuth cfg chance c req.toCredentials false).1 = .error refusal) ↔
      cfg.isAdmin token = false := by
  cases hadmin : cfg.isAdmin token with
  | false =>
    rw [resolveApiAuth_publishable hkey.presented (isPublishable_of_pkLive hkey.publishable) hadmin]
    exact ⟨fun _ => rfl, fun _ => ⟨_, rfl⟩⟩
  | true =>
    simp [resolveApiAuth, hkey.presented, hadmin]

/-- On a route of an organization's data, an active publishable key without a session is
turned down, changes nothing and learns nothing exactly when the route keeps it out. -/
theorem publishable_key_refused_iff
    (hkey : PresentsPublishable cfg chance.now c req token owner)
    (hsession : NoSession cfg chance.now c req.toCredentials)
    (hroute : req.route.ofOrganization = true) :
    WriteOnly cfg chance c req ↔ KeptOut cfg chance req token owner := by
  have hno : currentUser cfg chance c req.toCredentials = none := currentUser_eq_none hsession
  rw [writeOnly_iff, KeptOut]
  cases hlayers : req.layers with
  | some refusal =>
    refine ⟨fun _ => .inl nofun, fun _ => ⟨refusal, fun tenants => ?_⟩⟩
    simp only [passGates, hlayers]
  | none =>
    simp only [passGates, hlayers, ne_eq, not_true, false_or]
    cases hgate : req.route.gate with
    | ingestKey => simp [Route.ofOrganization, hgate] at hroute
    | own => simp [Route.ofOrganization, hgate] at hroute
    | apiKey =>
      simp only [forall_const]
      rw [bind_extracted_refused_iff, resolveApiAuth_refused_iff hkey]
    | worker =>
      simp only [forall_const]
      rw [bind_extracted_refused_iff, requireWorkerToken_refused_iff hkey.presented]
    | userAndOrg =>
      obtain ⟨refusal, hrefusal⟩ := userAndOrg_eq_error hsession
      simp only [hrefusal, iff_true]
      exact (extracted_bind_refused_iff fun _ => .error refusal).2 (.inl ⟨refusal, fun _ => rfl⟩)
    | currentUser msg =>
      simp only [hno, iff_true]
      exact (extracted_bind_refused_iff fun _ => .error (refuse 401 msg (by decide))).2
        (.inl ⟨_, fun _ => rfl⟩)
    | createOrg =>
      simp only [hno, iff_true]
      refine (extracted_bind_refused_iff fun _ => _).2 (.inl ?_)
      split
      · exact ⟨_, fun _ => rfl⟩
      · exact ⟨_, fun _ => rfl⟩
    | app =>
      simp only
      rw [extracted_bind_refused_iff fun tenants =>
        authorizeApp cfg chance ⟨c, tenants⟩ req.toCredentials req.appId,
        authorizeApp_refused_iff hkey hsession]

end WriteOnly

/-- An organization with a browser key. -/
def oneBrowserKey : ControlStore where
  orgs := ⟨[(1, { name := "A" })], by decide⟩
  apiKeys := ⟨[("pk_live_9f", { orgId := 1, projectId := some 1, keyPrefix := "pk_live_9f..." })],
    by decide⟩

/-- A request with that key to a route of the app. -/
def browserRequest (method path : String) (route : Route) : Request where
  method := method
  path := path
  authorization := .text "Bearer pk_live_9f"
  route := route
  appId := "shop-a"

theorem presentsPublishable_browserRequest (method path : String) (route : Route) :
    PresentsPublishable { keyHash := id } 0 oneBrowserKey (browserRequest method path route)
      "pk_live_9f" ⟨1, "free", some 1, none⟩ where
  presented := rfl
  publishable := ⟨"9f".toList, rfl⟩
  active := rfl

theorem noSession_browserRequest (method path : String) (route : Route) :
    NoSession { keyHash := id } 0 oneBrowserKey (browserRequest method path route).toCredentials := by
  intro token h
  cases h

theorem publishable_key_refused_iff_buckets :
    WriteOnly { keyHash := id } { now := 0, resolved := .ok } oneBrowserKey
        (browserRequest "GET" "/v1/apps/shop-a/buckets" .getBuckets) ∧
      ∀ handle, ∃ refusal : Refusal, ∀ tenants, ∃ log,
        serve handle { keyHash := id } { now := 0, resolved := .ok } ⟨oneBrowserKey, tenants⟩
            (browserRequest "GET" "/v1/apps/shop-a/buckets" .getBuckets) =
          (refusal.reply, ⟨{ oneBrowserKey with auditLog := log }, tenants⟩) := by
  have hwrite : WriteOnly { keyHash := id } { now := 0, resolved := .ok } oneBrowserKey
      (browserRequest "GET" "/v1/apps/shop-a/buckets" .getBuckets) :=
    (publishable_key_refused_iff (presentsPublishable_browserRequest _ _ _)
      (noSession_browserRequest _ _ _) rfl).2 (.inr (.inl rfl))
  exact ⟨hwrite, fun handle => serve_of_writeOnly handle hwrite⟩

/-- On the triage route the key gets to the handler. -/
theorem publishable_key_triages :
    ¬ ∀ cfg chance c req token owner, PresentsPublishable cfg chance.now c req token owner →
      NoSession cfg chance.now c req.toCredentials → req.route.ofOrganization = true →
        WriteOnly cfg chance c req := by
  intro hall
  have hwrite := hall { keyHash := id } { now := 0, resolved := .ok } oneBrowserKey
    (browserRequest "POST" "/v1/apps/shop-a/buckets/bkt_1/triage" .postTriage) _ _
    (presentsPublishable_browserRequest _ _ _) (noSession_browserRequest _ _ _) rfl
  obtain ⟨refusal, hrefusal⟩ := hwrite.refused ⟨[(1, oneProject 1 "shop-a")], by decide⟩
  have hadmitted : (passGates { keyHash := id } { now := 0, resolved := .ok }
      ⟨oneBrowserKey, ⟨[(1, oneProject 1 "shop-a")], by decide⟩⟩
      (browserRequest "POST" "/v1/apps/shop-a/buckets/bkt_1/triage" .postTriage)).1 =
        .ok (.tenant 1 1) := rfl
  rw [hadmitted] at hrefusal
  cases hrefusal

end ReproitCloud
