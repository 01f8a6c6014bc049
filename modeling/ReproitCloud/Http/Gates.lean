import ReproitCloud.Control.ProjectKeys

/-!
# The gates

Before a handler does its work, a gate decides who is calling.  There are four.

* `resolveApiAuth` stands in front of the API routes and of ingest.
* `requireWorkerToken` stands in front of the worker routes.
* `userAndOrg` and `currentUser` read the session cookie inside the dashboard
  handlers.
* `authorizeApp` is inside the triage handlers, which take a key or a session.

A gate answers the request itself, with a `Refusal`, or lets it in with an `Access`,
what the handler goes on with.

The first gate turns publishable keys down before it looks anything up.  The last one
looks a presented key up in the same table and does not ask what kind it is.
-/

namespace ReproitCloud

open Lib

/-- The settings the gates read. -/
structure ServerConfig where
  /-- `REPROIT_API_KEY`. -/
  apiKey : Option String := none
  /-- `REPROIT_WORKER_TOKEN`, empty when it is not set. -/
  workerToken : String := ""
  /-- `dev_open()`. -/
  devOpen : Bool := false
  selfHosted : Bool := false
  /-- `key_hash`. -/
  keyHash : String → String

/-- What happens to the calls of a gate.  The databases of the tenants are its state; one
that cannot be read is one that is not there. -/
structure GateChance where
  now : Micros
  keyLookupFails : Bool := false
  sessionFails : Bool := false
  seatFails : Bool := false
  auditFails : Bool := false
  resolved : Int64 → Except ResolveError Int64

/-- What a handler goes on with. -/
inductive Access where
  /-- The extensions that the API gate inserts. -/
  | api (auth : AuthCtx) (scope : KeyScope)
  | worker
  | session (user : ControlStore.User) (org : Option ControlStore.Org)
  /-- The database of the tenant, and the organization. -/
  | tenant (db orgId : Int64)
  /-- The route asks for nothing, or for a credential in its own body or link. -/
  | anyone
deriving DecidableEq, Repr

/-- The parts of a request that the gates read. -/
structure Credentials where
  method : String
  path : String
  authorization : Header := .missing
  cookie : Header := .missing
  /-- `X-Reproit-Tenant`. -/
  target : Header := .missing

/-- The admin key, if one is configured. -/
def ServerConfig.shared (cfg : ServerConfig) : Option String := cfg.apiKey.filter (· ≠ "")

/-- Whether a token is the admin key. -/
def ServerConfig.isAdmin (cfg : ServerConfig) (token : String) : Bool :=
  cfg.shared.any fun shared => ctEq shared.toList token.toList

/-- The worker tokens, comma-separated in the setting. -/
def ServerConfig.workerTokens (cfg : ServerConfig) : List (List Char) :=
  ((cfg.workerToken.toList.splitOn ',').map trim).filter (· ≠ [])

/-! ## The API gate -/

/-- `api_auth_error`. -/
def apiAuthError : Except BearerError String → Refusal
  | .error .missing => refuse 401
      "missing Authorization header: send `Authorization: Bearer <api key>` using an org API key (`sk_live_...`) or the configured `REPROIT_API_KEY` admin token"
      (by decide)
  | .error .malformed => refuse 401
      "invalid Authorization header: expected `Authorization: Bearer <api key>`; do not include quotes, prefixes other than Bearer, or redacted tokens"
      (by decide)
  | .ok _ => refuse 401
      "invalid API key: use an active org API key (`sk_live_...`) or the server's configured `REPROIT_API_KEY` admin token"
      (by decide)

/-- The audit row of an admin request. -/
def adminAudit (req : Credentials) : AuditRow where
  actor := "admin-key"
  action := "admin.request"
  orgId := adminTarget req.target
  detail := .object [("method", .string req.method), ("path", .string req.path)]

/-- The end of `resolve_api_auth`: open in development, closed otherwise. -/
def devOpenOr (cfg : ServerConfig) (refusal : Refusal) : Except Refusal Access :=
  if cfg.devOpen then .ok (.api .admin .open) else .error refusal

/-- `resolve_api_auth`, with the control plane after it. -/
def resolveApiAuth (cfg : ServerConfig) (chance : GateChance) (c : ControlStore)
    (req : Credentials) (allowPublishable : Bool) : Except Refusal Access × ControlStore :=
  match bearer req.authorization with
  | .error e => (devOpenOr cfg (apiAuthError (.error e)), c)
  | .ok token =>
    if cfg.isAdmin token then
      (.ok (.api .admin .open), c.audit chance.auditFails (adminAudit req))
    else if !allowPublishable && isPublishable token then
      (.error (refuse 403
        "publishable keys (pk_live_) may only POST /v1/events; use a secret key (sk_live_) for this endpoint"
        (by decide)), c)
    else if chance.keyLookupFails then
      (.error (refuse 500
        "could not validate API key: check control database connectivity/config (`DATABASE_URL`) and retry"
        (by decide)), c)
    else
      match c.orgForApiKey chance.now (cfg.keyHash token) with
      | some owner =>
        (.ok (.api (.org owner.orgId) ⟨owner.projectId, owner.createdBy, isPublishable token⟩), c)
      | none => (devOpenOr cfg (apiAuthError (.ok token)), c)

/-! ## The worker gate -/

/-- `worker_auth_error`. -/
def workerAuthError (configured : Bool) (token : Except BearerError String) : Refusal :=
  if !configured then
    refuse 503
      "worker auth is not configured on this server: set `REPROIT_WORKER_TOKEN` and send it as `Authorization: Bearer <worker token>`"
      (by decide)
  else
    match token with
    | .error .missing => refuse 401
        "missing Authorization header: worker requests must send `Authorization: Bearer <worker token>` matching `REPROIT_WORKER_TOKEN`"
        (by decide)
    | .error .malformed => refuse 401
        "invalid Authorization header: expected `Authorization: Bearer <worker token>` for the worker API"
        (by decide)
    | .ok _ => refuse 401
        "invalid worker token: send the exact `REPROIT_WORKER_TOKEN` value as `Authorization: Bearer <worker token>`"
        (by decide)

/-- `require_worker_token`. -/
def requireWorkerToken (cfg : ServerConfig) (req : Credentials) : Except Refusal Access :=
  let want := cfg.workerTokens
  let token := bearer req.authorization
  -- every candidate is compared, without an early exit
  let ok := match token with
    | .ok token => want.foldl (fun ok w => ok || ctEq w token.toList) false
    | .error _ => false
  if ok then .ok .worker
  else if cfg.devOpen then .ok .worker
  else .error (workerAuthError (!want.isEmpty) token)

/-! ## Sessions -/

/-- `current_user`. -/
def currentUser (cfg : ServerConfig) (chance : GateChance) (c : ControlStore) (req : Credentials) :
    Option ControlStore.User :=
  (cookieValue sessionCookieName req.cookie).bind fun token =>
    if chance.sessionFails then none else c.userForSession chance.now (cfg.keyHash token)

/-- `user_and_org`. -/
def userAndOrg (cfg : ServerConfig) (chance : GateChance) (c : ControlStore) (req : Credentials) :
    Except Refusal (ControlStore.User × ControlStore.Org) :=
  match cookieValue sessionCookieName req.cookie with
  | none => .error (refuse 401 "not signed in" (by decide))
  | some token =>
    match if chance.sessionFails then none
      else c.userAndOrgForSession chance.now (cfg.keyHash token) with
    | none => .error (refuse 500 "no org for account" (by decide))
    | some found => .ok found

/-! ## The gate of the triage handlers -/

/-- `resolve_owning`. -/
def resolveOwning (chance : GateChance) (tenants : Table Int64 ProjectStore) (orgId : Int64)
    (appId : String) : Except Refusal Access :=
  match chance.resolved orgId with
  | .error _ => .error (refuse 404 "not found" (by decide))
  | .ok db =>
    match tenants.get? db with
    | none => .error (refuse 404 "not found" (by decide))
    | some t =>
      if t.ownsApp appId then .ok (.tenant db orgId)
      else .error (refuse 404 "not found" (by decide))

/-- `SeatVerdict`. -/
inductive SeatVerdict where
  | allow
  | noSeat
  | notSignedIn
deriving DecidableEq, Repr

/-- `seat_decision`. -/
def seatDecision (signedIn hasSeat : Bool) : SeatVerdict :=
  if !signedIn then .notSignedIn else if hasSeat then .allow else .noSeat

/-- `seat_gate`. -/
def seatGate (cfg : ServerConfig) (chance : GateChance) (w : Accounts) (req : Credentials)
    (appId : String) : Except Refusal Access :=
  let user := currentUser cfg chance w.control req
  let org := user.bind fun _ => (userAndOrg cfg chance w.control req).toOption.map Prod.snd
  let hasSeat := match user, org with
    | some u, some o => !chance.seatFails && w.control.hasSeat o.id u.id
    | _, _ => false
  match seatDecision user.isSome hasSeat, org with
  | .notSignedIn, _ => .error (refuse 401 "not signed in" (by decide))
  | .noSeat, _ => .error (refuse 402
      "a dashboard seat is required (the CLI stays free); ask an owner to assign you one"
      (by decide))
  | .allow, none => .error (refuse 401 "not signed in" (by decide))
  | .allow, some o => resolveOwning chance w.tenants o.id appId

/-- The organization that `authorize_app` resolves a key to. -/
def orgForKey (cfg : ServerConfig) (chance : GateChance) (c : ControlStore) (token : String) :
    Option Int64 :=
  if chance.keyLookupFails then none
  else (c.orgForApiKey chance.now (cfg.keyHash token)).map ControlStore.KeyOwner.orgId

/-- `authorize_app`. -/
def authorizeApp (cfg : ServerConfig) (chance : GateChance) (w : Accounts) (req : Credentials)
    (appId : String) : Except Refusal Access :=
  match triageBearer req.authorization with
  | none => seatGate cfg chance w req appId
  | some token =>
    if cfg.isAdmin token then
      match adminTarget req.target with
      | some orgId => resolveOwning chance w.tenants orgId appId
      | none => .error (refuse 400 "admin requests must name a tenant via X-Reproit-Tenant"
          (by decide))
    else
      match orgForKey cfg chance w.control token with
      | some orgId => resolveOwning chance w.tenants orgId appId
      | none => seatGate cfg chance w req appId

/-! ## What the gates let in -/

section Gates

variable {cfg : ServerConfig} {chance : GateChance} {c : ControlStore} {req : Credentials}
  {token : String}

theorem isAdmin_iff : cfg.isAdmin token = true ↔ cfg.shared = some token := by
  unfold ServerConfig.isAdmin
  cases cfg.shared with
  | none => simp
  | some shared =>
    rw [Option.any_some, ctEq_iff, Option.some.injEq, String.toList_inj]

/-- The API gate turns a publishable key down, unless it is the admin key. -/
theorem resolveApiAuth_publishable (hb : bearer req.authorization = .ok token)
    (hpub : isPublishable token = true) (hadmin : cfg.isAdmin token = false) :
    resolveApiAuth cfg chance c req false =
      (.error (refuse 403
        "publishable keys (pk_live_) may only POST /v1/events; use a secret key (sk_live_) for this endpoint"
        (by decide)), c) := by
  simp only [resolveApiAuth, hb, hadmin, hpub, Bool.false_eq_true, if_false, Bool.not_false,
    Bool.and_self, if_true]

theorem foldl_or_eq_true_iff {α : Type} (p : α → Bool) (xs : List α) (b : Bool) :
    xs.foldl (fun ok x => ok || p x) b = true ↔ b = true ∨ ∃ x ∈ xs, p x = true := by
  induction xs generalizing b with
  | nil => simp
  | cons x xs ih => rw [List.foldl_cons, ih, Bool.or_eq_true, List.exists_mem_cons_iff, or_assoc]

/-- The worker gate turns a token down when it is none of the worker tokens and the
server is not open. -/
theorem requireWorkerToken_refused_iff (hb : bearer req.authorization = .ok token) :
    (∃ refusal, requireWorkerToken cfg req = .error refusal) ↔
      token.toList ∉ cfg.workerTokens ∧ cfg.devOpen = false := by
  have hfold : cfg.workerTokens.foldl (fun ok w => ok || ctEq w token.toList) false = true ↔
      token.toList ∈ cfg.workerTokens := by
    rw [foldl_or_eq_true_iff]
    simp only [ctEq_iff, Bool.false_eq_true, false_or, exists_eq_right]
  simp only [requireWorkerToken, hb]
  rw [← hfold]
  split
  · rename_i hok
    refine ⟨?_, fun h => absurd hok h.1⟩
    rintro ⟨refusal, h⟩
    cases h
  · rename_i hok
    cases hdev : cfg.devOpen with
    | true =>
      refine ⟨?_, fun h => by cases h.2⟩
      rintro ⟨refusal, h⟩
      cases h
    | false => exact ⟨fun _ => ⟨hok, rfl⟩, fun _ => ⟨_, rfl⟩⟩

/-- Without a session there is no user, no organization and no seat. -/
def NoSession (cfg : ServerConfig) (now : Micros) (c : ControlStore) (req : Credentials) : Prop :=
  ∀ token, cookieValue sessionCookieName req.cookie = some token →
    c.userForSession now (cfg.keyHash token) = none

theorem currentUser_eq_none (h : NoSession cfg chance.now c req) :
    currentUser cfg chance c req = none := by
  unfold currentUser
  cases hcookie : cookieValue sessionCookieName req.cookie with
  | none => rfl
  | some token =>
    rw [Option.bind_some, h token hcookie, ite_self]

theorem userAndOrg_eq_error (h : NoSession cfg chance.now c req) :
    ∃ refusal, userAndOrg cfg chance c req = .error refusal := by
  unfold userAndOrg
  cases hcookie : cookieValue sessionCookieName req.cookie with
  | none => exact ⟨_, rfl⟩
  | some token =>
    have hnone := ControlStore.userAndOrgForSession_eq_none (h token hcookie)
    simp only [hnone, ite_self]
    exact ⟨_, rfl⟩

theorem seatGate_eq_error {w : Accounts} {appId : String} (h : NoSession cfg chance.now w.control req) :
    seatGate cfg chance w req appId = .error (refuse 401 "not signed in" (by decide)) := by
  simp only [seatGate, currentUser_eq_none h]
  rfl

end Gates

end ReproitCloud
