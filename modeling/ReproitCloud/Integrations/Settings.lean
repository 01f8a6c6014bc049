import ReproitCloud.Integrations.Secrets
import ReproitCloud.Integrations.Tracker
import ReproitCloud.Lib.Processes

/-!
# The settings of an app's integrations

`put_integration` reads the row of the app, merges what the request gives into it, and
writes the row back.  A secret that the request leaves out is that of the row that was
read.  A read that fails counts as an empty row, and another request may write between
the read and the write.

`omitted_secrets_survive` is about any number of such requests: a write keeps the secrets
that its request leaves out exactly when what was read of them is what is stored
(`FreshWrite`), and then the stored secrets are those of the requests in the order of their
writes.
-/

namespace ReproitCloud

open Lib Secrets

/-! ## Rows and requests -/

/-- A row of `project_integrations`, with the columns of the dispatcher. -/
structure IntegrationRecord extends IntegrationRow where
  dispatchRepo : Option String := none
  dispatchTokenEnc : Option String := none

/-- `IntegrationRow::default`. -/
def IntegrationRecord.dflt : IntegrationRecord where
  provider := ""
  extra := .null

/-- `PutIntegration`. -/
structure PutIntegration where
  provider : Option String := none
  repo : Option String := none
  baseUrl : Option String := none
  userEmail : Option String := none
  extra : Option Json := none
  token : Option String := none
  dispatchRepo : Option String := none
  dispatchToken : Option String := none

/-- `Value::is_object`. -/
def Json.isObject : Json → Bool
  | .object _ => true
  | _ => false

/-- The two secrets of a row. -/
inductive SecretColumn where
  | token
  | dispatchToken
deriving DecidableEq, Repr

/-- A secret as it is stored. -/
def IntegrationRecord.secret (r : IntegrationRecord) : SecretColumn → Option String
  | .token => r.tokenEnc
  | .dispatchToken => r.dispatchTokenEnc

/-- A secret as it is requested. -/
def PutIntegration.secret (put : PutIntegration) : SecretColumn → Option String
  | .token => put.token
  | .dispatchToken => put.dispatchToken

/-- `merge_secret`: absent keeps, empty clears, and a value replaces. -/
def mergeSecret (E : SecretEnv) (nonce : SecretNonce) (incoming stored : Option String) :
    Except String (Option String) :=
  match incoming with
  | none => .ok stored
  | some s => if s = "" then .ok none else (encrypt E nonce s).map some

/-- The row that a request writes over another. -/
def mergeIntegration (E : SecretEnv) (nonces : SecretNonce × SecretNonce) (put : PutIntegration)
    (prev : IntegrationRecord) : Except String IntegrationRecord := do
  let tokenEnc ← mergeSecret E nonces.1 put.token prev.tokenEnc
  let dispatchTokenEnc ← mergeSecret E nonces.2 put.dispatchToken prev.dispatchTokenEnc
  return {
    provider := (nonEmpty put.provider).getD (if prev.provider = "" then "github" else prev.provider)
    repo := nonEmpty (put.repo.or prev.repo)
    baseUrl := nonEmpty (put.baseUrl.or prev.baseUrl)
    userEmail := nonEmpty (put.userEmail.or prev.userEmail)
    extra := (put.extra.filter Json.isObject).getD
      (if prev.extra.isObject then prev.extra else .object [])
    tokenEnc := tokenEnc
    dispatchRepo := nonEmpty (put.dispatchRepo.or prev.dispatchRepo)
    dispatchTokenEnc := dispatchTokenEnc }

/-- A secret that is left out is that of the row that was read. -/
theorem secret_of_merge {E : SecretEnv} {nonces : SecretNonce × SecretNonce} {put : PutIntegration}
    {prev row : IntegrationRecord} (h : mergeIntegration E nonces put prev = .ok row)
    {column : SecretColumn} (homitted : put.secret column = none) :
    row.secret column = prev.secret column := by
  cases htoken : mergeSecret E nonces.1 put.token prev.tokenEnc with
  | error e =>
    simp only [mergeIntegration, htoken] at h
    cases h
  | ok tokenEnc =>
    cases hdispatch : mergeSecret E nonces.2 put.dispatchToken prev.dispatchTokenEnc with
    | error e =>
      simp only [mergeIntegration, htoken, hdispatch] at h
      cases h
    | ok dispatchTokenEnc =>
      simp only [mergeIntegration, htoken, hdispatch] at h
      cases h
      cases column with
      | token =>
        have hnone : put.token = none := homitted
        rw [hnone] at htoken
        cases htoken
        rfl
      | dispatchToken =>
        have hnone : put.dispatchToken = none := homitted
        rw [hnone] at hdispatch
        cases hdispatch
        rfl

/-! ## The requests under way -/

/-- The rows of a tenant's apps. -/
structure SettingsStore where
  projectIntegrations : Table String IntegrationRecord := .empty
  /-- What the requests whose rows were written made of the secrets, in order.  A secret that
  a request left out has no entry in it.  The code keeps the rows. -/
  written : List (String × (SecretColumn → Option (Option String))) := []

/-- The row for a read: an empty one without a row, and also when the read failed. -/
def prevOf (read : Option (Option IntegrationRecord)) : IntegrationRecord := (read.getD none).getD .dflt

/-- A request with the row that it will write. -/
structure PendingPut (E : SecretEnv) where
  app : String
  put : PutIntegration
  /-- The answer of `integration_for`, and none if it failed. -/
  read : Option (Option IntegrationRecord)
  nonces : SecretNonce × SecretNonce
  row : IntegrationRecord
  merged : mergeIntegration E nonces put (prevOf read) = .ok row

/-- Where a request is. -/
inductive PutOp (E : SecretEnv) where
  /-- `integration_for`. -/
  | reading (app : String) (put : PutIntegration)
  /-- `set_integration`. -/
  | writing (w : PendingPut E)
  | replied (reply : Reply)

def PutOp.starts {E : SecretEnv} : PutOp E → Bool
  | reading _ _ => true
  | writing _ => false
  | replied _ => false

/-- What the environment decides of a call. -/
structure PutChance where
  result : CallResult
  nonces : SecretNonce × SecretNonce

/-- What a request makes of the secrets. -/
def PendingPut.changes {E : SecretEnv} (w : PendingPut E) (column : SecretColumn) :
    Option (Option String) :=
  (w.put.secret column).map fun _ => w.row.secret column

/-- `set_integration`. -/
def setIntegration {E : SecretEnv} (s : SettingsStore) (w : PendingPut E) : SettingsStore where
  projectIntegrations := s.projectIntegrations.upsert w.app w.row fun _ => w.row
  written := s.written ++ [(w.app, w.changes)]

/-- The merge of a request with what its read gave, which needs no call. -/
def merging (E : SecretEnv) (app : String) (put : PutIntegration)
    (read : Option (Option IntegrationRecord)) (nonces : SecretNonce × SecretNonce) : PutOp E :=
  match h : mergeIntegration E nonces put (prevOf read) with
  | .ok row => .writing ⟨app, put, read, nonces, row, h⟩
  | .error _ => .replied (err 500 "internal error")

/-- The next call of a request. -/
def putNext (E : SecretEnv) (s : SettingsStore) (chance : PutChance) :
    PutOp E → Option (SettingsStore × Option (PutOp E))
  | .reading app put =>
    some (s, some (merging E app put
      (if chance.result = .answered then some (s.projectIntegrations.get? app) else none)
      chance.nonces))
  | .writing w =>
    some (if chance.result = .failed then s else setIntegration s w,
      some (.replied (if chance.result = .answered then
        ⟨200, .object [("ok", .bool true), ("provider", .string w.row.provider)]⟩
      else err 500 "internal error")))
  | .replied _ => none

/-- The requests of a tenant. -/
def puts (E : SecretEnv) : Program SettingsStore (PutOp E) PutChance Empty where
  starts _ op := op.starts
  next s _ chance op := putNext E s chance op
  write _ _ e := e.elim

abbrev Putting (E : SecretEnv) := Pool SettingsStore (PutOp E)

abbrev PutEvent (E : SecretEnv) := PoolEvent (PutOp E) PutChance Empty

/-- A tenant with rows, and no request under way. -/
def Putting.init (E : SecretEnv) (integrations : Table String IntegrationRecord) : Putting E :=
  ⟨{ projectIntegrations := integrations }, []⟩

/-! ## The stored secrets -/

/-- The stored secret of an app. -/
def SettingsStore.secret (s : SettingsStore) (app : String) (column : SecretColumn) :
    Option String :=
  (s.projectIntegrations.get? app).bind fun r => r.secret column

/-- What the requests made of a secret of an app, in the order of their writes. -/
def SettingsStore.changes (s : SettingsStore) (app : String) (column : SecretColumn) :
    List (Option (Option String)) :=
  (s.written.filter fun r => r.1 = app).map fun r => r.2 column

/-- The secret that is left when requests are served one after the other. -/
def served (stored : Option String) (changes : List (Option (Option String))) : Option String :=
  changes.foldl (fun stored change => change.getD stored) stored

/-- The request whose write takes effect in an event. -/
def writes {E : SecretEnv} (s : Putting E) : PutEvent E → Option (PendingPut E)
  | .advance i chance =>
    match s.inFlight[i]? with
    | some (.writing w) => if chance.result = .failed then none else some w
    | _ => none
  | _ => none

/-- A write keeps a secret that its request leaves out. -/
def KeepsOmitted {E : SecretEnv} (app : String) (column : SecretColumn) (s : Putting E)
    (e : PutEvent E) (s' : Putting E) : Prop :=
  ∀ w, writes s e = some w → w.app = app → w.put.secret column = none →
    s'.store.secret app column = s.store.secret app column

/-- What a request that leaves out a secret has read of it is what is stored when it writes:
the read was answered or there is none, and no other request has changed it since. -/
def FreshWrite {E : SecretEnv} (app : String) (column : SecretColumn) (s : Putting E)
    (e : PutEvent E) (_ : Putting E) : Prop :=
  ∀ w, writes s e = some w → w.app = app → w.put.secret column = none →
    (prevOf w.read).secret column = s.store.secret app column

section Secrets

variable {E : SecretEnv} {s s' : Putting E} {e : PutEvent E} {app : String}
  {column : SecretColumn}

/-- What an event does to the store: nothing, or the write of a request. -/
theorem store_step (h : (puts E).step s e = some s') :
    (writes s e = none ∧ s'.store = s.store) ∨
      ∃ w, writes s e = some w ∧ s'.store = setIntegration s.store w := by
  cases Program.effect_of_step h with
  | start _ => exact .inl ⟨rfl, rfl⟩
  | abandon _ => exact .inl ⟨rfl, rfl⟩
  | commit _ =>
    rename_i e _ _
    exact e.elim
  | @advance i chance op store next hop hnext =>
    cases op with
    | reading app put =>
      cases hnext
      refine .inl ⟨?_, rfl⟩
      rw [writes, hop]
    | writing w =>
      cases hnext
      by_cases hfailed : chance.result = .failed
      · refine .inl ⟨?_, if_pos hfailed⟩
        rw [writes, hop]
        exact if_pos hfailed
      · refine .inr ⟨w, ?_, if_neg hfailed⟩
        rw [writes, hop]
        exact if_neg hfailed
    | replied reply => cases hnext

theorem secret_setIntegration (t : SettingsStore) (w : PendingPut E) (app : String)
    (column : SecretColumn) : (setIntegration t w).secret app column =
      if app = w.app then w.row.secret column else t.secret app column := by
  rw [SettingsStore.secret, setIntegration, Table.get?_upsert]
  by_cases happ : app = w.app
  · rw [if_pos happ, if_pos happ]
    cases t.projectIntegrations.get? w.app <;> rfl
  · rw [if_neg happ, if_neg happ, SettingsStore.secret]

theorem changes_setIntegration (t : SettingsStore) (w : PendingPut E) (app : String)
    (column : SecretColumn) : (setIntegration t w).changes app column =
      t.changes app column ++ if app = w.app then [w.changes column] else [] := by
  rw [SettingsStore.changes, setIntegration, List.filter_append, List.map_append,
    SettingsStore.changes, List.filter_cons]
  by_cases happ : app = w.app
  · simp [happ]
  · simp [happ, Ne.symm happ]

theorem keepsOmitted_iff (h : (puts E).step s e = some s') :
    KeepsOmitted app column s e s' ↔ FreshWrite app column s e s' := by
  refine forall_congr' fun w => forall_congr' fun hwrites => forall_congr' fun happ =>
    forall_congr' fun homitted => ?_
  rcases store_step h with ⟨hnone, -⟩ | ⟨w', hw', hstore⟩
  · rw [hnone] at hwrites
    cases hwrites
  · rw [hwrites] at hw'
    cases hw'
    rw [hstore, secret_setIntegration, if_pos happ.symm, secret_of_merge w.merged homitted]

/-- The requests so far have been served one after the other. -/
def Served (integrations : Table String IntegrationRecord) (app : String) (column : SecretColumn)
    (s : Putting E) : Prop :=
  s.store.secret app column =
    served (((integrations.get? app).bind fun r => r.secret column)) (s.store.changes app column)

theorem served_step {integrations : Table String IntegrationRecord}
    (hs : Served integrations app column s) (h : (puts E).step s e = some s')
    (hfresh : FreshWrite app column s e s') : Served integrations app column s' := by
  rcases store_step h with ⟨-, hstore⟩ | ⟨w, hwrites, hstore⟩
  · rw [Served, hstore]
    exact hs
  · rw [Served, hstore, secret_setIntegration, changes_setIntegration, served, List.foldl_append]
    by_cases happ : app = w.app
    · rw [if_pos happ, if_pos happ, List.foldl_cons, List.foldl_nil, ← served, ← hs,
        PendingPut.changes]
      cases homitted : w.put.secret column with
      | none =>
        rw [Option.map_none, Option.getD_none, secret_of_merge w.merged homitted]
        exact hfresh w hwrites happ.symm homitted
      | some incoming => rfl
    · rw [if_neg happ, if_neg happ]
      exact hs

/-- Writes keep what their requests leave out exactly when they are fresh, and requests with
fresh writes are served one after the other. -/
theorem omitted_secrets_survive (integrations : Table String IntegrationRecord)
    (es : List (PutEvent E)) (s : Putting E) (app : String) (column : SecretColumn) :
    (Run (Guarded (stepOf (puts E).step) (KeepsOmitted app column))
        (Putting.init E integrations) es s ↔
      Run (Guarded (stepOf (puts E).step) (FreshWrite app column))
        (Putting.init E integrations) es s) ∧
      (Run (Guarded (stepOf (puts E).step) (FreshWrite app column))
          (Putting.init E integrations) es s →
        Served integrations app column s) := by
  refine ⟨⟨fun h => h.mono ?_, fun h => h.mono ?_⟩, fun h => ?_⟩
  · rintro s e s' ⟨hstep, hkeeps⟩
    exact ⟨hstep, (keepsOmitted_iff hstep).1 hkeeps⟩
  · rintro s e s' ⟨hstep, hfresh⟩
    exact ⟨hstep, (keepsOmitted_iff hstep).2 hfresh⟩
  · exact h.invariant_of_guarded (Served integrations app column)
      (fun s e s' hs hstep hfresh => served_step hs hstep hfresh) rfl

end Secrets

/-! ## Requests in turn -/

section Turns

variable {E : SecretEnv} {s s' : Putting E} {app : String} {column : SecretColumn}

/-- The app of a request under way. -/
def PutOp.app? : PutOp E → Option String
  | reading app _ => some app
  | writing w => some w.app
  | replied _ => none

/-- The requests of an app come one at a time, and their reads are answered. -/
structure InTurn (app : String) (s : Putting E) (e : PutEvent E) (_ : Putting E) : Prop where
  alone : ∀ put, e = .start (.reading app put) → ∀ o ∈ s.inFlight, o.app? ≠ some app
  answered : ∀ i chance put, e = .advance i chance → s.inFlight[i]? = some (.reading app put) →
    chance.result = .answered

/-- What a request is about to write comes from the row that is stored. -/
def PutOp.KnowsRow (app : String) (t : SettingsStore) (op : PutOp E) : Prop :=
  ∀ w, op = .writing w → w.app = app → w.read = some (t.projectIntegrations.get? app)

theorem merging_cases (E : SecretEnv) (app : String) (put : PutIntegration)
    (read : Option (Option IntegrationRecord)) (nonces : SecretNonce × SecretNonce) :
    merging E app put read nonces = .replied (err 500 "internal error") ∨
      ∃ w, merging E app put read nonces = .writing w ∧ w.app = app ∧ w.read = read := by
  unfold merging
  split
  · exact .inr ⟨_, rfl, rfl, rfl⟩
  · exact .inl rfl

theorem keepsOutline_inTurn : KeepsOutline (puts E) (InTurn app) (fun _ => True)
    (PutOp.KnowsRow app) fun x y => ¬ (x.app? = some app ∧ y.app? = some app) where
  start s s' op _ hok hstarts := by
    cases op with
    | reading app' put =>
      refine ⟨fun w hw => (by cases hw), fun o ho hboth => ?_⟩
      have happ : app' = app := Option.some.inj hboth.2
      rw [happ] at hok
      exact hok.alone put rfl o ho hboth.1
    | writing w => cases hstarts
    | replied reply => cases hstarts
  advance s s' i chance op store next h hok hop hnext := by
    have hothers : ∀ o ∈ s.inFlight.eraseIdx i, ¬ (op.app? = some app ∧ o.app? = some app) :=
      fun o ho => h.apart_at (fun _ _ hnot hboth => hnot hboth.symm) hop ho
    refine ⟨trivial, ?_⟩
    cases op with
    | reading app' put =>
      cases hnext
      refine ⟨fun o ho => h.each o (List.mem_of_mem_eraseIdx ho), fun op' hop' => ?_⟩
      cases hop'
      rcases merging_cases E app' put (if chance.result = .answered then
        some (s.store.projectIntegrations.get? app') else none) chance.nonces with
        hreply | ⟨w, hmerged, happ, hread⟩
      · rw [hreply]
        exact ⟨fun w hw => (by cases hw), fun o ho hboth => Option.some_ne_none _ hboth.2.symm⟩
      · rw [hmerged]
        refine ⟨fun w' hw' hw'app => ?_, fun o ho hboth => ?_⟩
        · cases hw'
          have happ' : app' = app := happ.symm.trans hw'app
          rw [happ'] at hop
          rw [hread, if_pos (hok.answered i chance put rfl hop), happ']
        · have happ' : app' = app := happ.symm.trans (Option.some.inj hboth.2)
          exact hothers o ho ⟨congrArg some happ', hboth.1⟩
    | writing w =>
      cases hnext
      refine ⟨fun o ho w' hw' happ => ?_, fun op' hop' => ?_⟩
      · have hknows := h.each o (List.mem_of_mem_eraseIdx ho) w' hw' happ
        by_cases hfailed : chance.result = .failed
        · rw [if_pos hfailed]
          exact hknows
        · have hne : app ≠ w.app := by
            intro heq
            refine hothers o ho ⟨congrArg some heq.symm, ?_⟩
            rw [hw']
            exact congrArg some happ
          rw [if_neg hfailed, setIntegration, Table.get?_upsert, if_neg hne]
          exact hknows
      · cases hop'
        exact ⟨fun w' hw' => (by cases hw'), fun o ho hboth => Option.some_ne_none _ hboth.2.symm⟩
    | replied reply => cases hnext
  commit s s' e _ _ _ _ := e.elim

/-- Requests that come in turn write fresh. -/
theorem freshWrite_of_inTurn {integrations : Table String IntegrationRecord}
    {es : List (PutEvent E)}
    (h : Run (Guarded (stepOf (puts E).step) (InTurn app)) (Putting.init E integrations) es s)
    (column : SecretColumn) :
    Run (Guarded (stepOf (puts E).step) (FreshWrite app column))
      (Putting.init E integrations) es s := by
  refine h.guarded_of_invariant (Outline (fun _ => True) (PutOp.KnowsRow app)
    fun x y => ¬ (x.app? = some app ∧ y.app? = some app))
    (fun s e s' hi hstep hok => hi.step keepsOutline_inTurn hstep hok) ?_
    (outline_of_idle trivial rfl)
  intro s e s' hi hstep _ w hwrites happ _
  cases e with
  | start op => cases hwrites
  | abandon i => cases hwrites
  | commit e => exact e.elim
  | advance i chance =>
    cases hop : s.inFlight[i]? with
    | none =>
      rw [writes, hop] at hwrites
      cases hwrites
    | some op =>
      cases op with
      | reading app' put =>
        rw [writes, hop] at hwrites
        cases hwrites
      | replied reply =>
        rw [writes, hop] at hwrites
        cases hwrites
      | writing w' =>
        rw [writes, hop] at hwrites
        obtain ⟨-, heq⟩ := Option.ite_none_left_eq_some.1 hwrites
        cases heq
        have hread := hi.each _ (List.mem_of_getElem? hop) w rfl happ
        rw [prevOf, hread, SettingsStore.secret, Option.getD_some]
        cases s.store.projectIntegrations.get? app with
        | none => cases column <;> rfl
        | some row => rfl

end Turns

/-! ## Runs of one request -/

section OneRequest

/-- An app with a token. -/
def tokenSet : Table String IntegrationRecord :=
  Table.empty.insertIgnore "shop" { tokenEnc := some "ghp_token" }

/-- A request that leaves out both secrets, and how the call of its read ends. -/
def renamed (read : CallResult) : List (PutEvent keyless) :=
  [.start (.reading "shop" { repo := some "acme/shop" }),
    .advance 0 ⟨read, zeroNonce, zeroNonce⟩, .advance 0 ⟨.answered, zeroNonce, zeroNonce⟩]

/-- The row that the request writes over what it has read. -/
def renamedOver (read : Option (Option IntegrationRecord)) : PendingPut keyless where
  app := "shop"
  put := { repo := some "acme/shop" }
  read := read
  nonces := (zeroNonce, zeroNonce)
  row := {
    provider := if (prevOf read).provider = "" then "github" else (prevOf read).provider
    repo := some "acme/shop"
    baseUrl := nonEmpty (prevOf read).baseUrl
    userEmail := nonEmpty (prevOf read).userEmail
    extra := if (prevOf read).extra.isObject then (prevOf read).extra else .object []
    tokenEnc := (prevOf read).tokenEnc
    dispatchRepo := nonEmpty (prevOf read).dispatchRepo
    dispatchTokenEnc := (prevOf read).dispatchTokenEnc }
  merged := rfl

theorem omitted_secrets_survive_renamed :
    ∃ s, Run (Guarded (stepOf (puts keyless).step) (FreshWrite "shop" .token))
        (Putting.init keyless tokenSet) (renamed .answered) s ∧
      s.store.secret "shop" .token = some "ghp_token" ∧ Served tokenSet "shop" .token s := by
  have hrun : Run (Guarded (stepOf (puts keyless).step) (InTurn "shop"))
      (Putting.init keyless tokenSet) (renamed .answered)
      ⟨setIntegration { projectIntegrations := tokenSet }
        (renamedOver (some (tokenSet.get? "shop"))), [.replied ⟨200, .object [("ok", .bool true),
          ("provider", .string "github")]⟩]⟩ := by
    refine .cons ⟨rfl, ⟨fun put _ o ho => absurd ho List.not_mem_nil, fun i chance put he => ?_⟩⟩
      (.cons ⟨rfl, ⟨fun put he => ?_, fun i chance put he _ => ?_⟩⟩
        (.cons ⟨rfl, ⟨fun put he => ?_, fun i chance put he _ => ?_⟩⟩ (.nil _)))
    · cases he
    · cases he
    · cases he
      rfl
    · cases he
    · cases he
      rfl
  have hfresh := freshWrite_of_inTurn hrun .token
  exact ⟨_, hfresh, rfl, (omitted_secrets_survive tokenSet (renamed .answered) _ "shop" .token).2
    hfresh⟩

/-- The read fails, the request is answered, and the token is gone. -/
theorem failed_read_clears_token :
    (∃ s, Run (stepOf (puts keyless).step) (Putting.init keyless tokenSet) (renamed .failed) s ∧
      s.inFlight = [.replied ⟨200, .object [("ok", .bool true),
        ("provider", .string "github")]⟩] ∧
      (Putting.init keyless tokenSet).store.secret "shop" .token = some "ghp_token" ∧
      s.store.secret "shop" .token = none) ∧
      ¬ ∀ (E : SecretEnv) (integrations : Table String IntegrationRecord)
          (es : List (PutEvent E)) (s : Putting E) (app : String) (column : SecretColumn),
        Run (stepOf (puts E).step) (Putting.init E integrations) es s →
          Served integrations app column s := by
  have hrun : Run (stepOf (puts keyless).step) (Putting.init keyless tokenSet) (renamed .failed)
      ⟨setIntegration { projectIntegrations := tokenSet } (renamedOver none),
        [.replied ⟨200, .object [("ok", .bool true), ("provider", .string "github")]⟩]⟩ :=
    .cons rfl (.cons rfl (.cons rfl (.nil _)))
  refine ⟨⟨_, hrun, rfl, rfl, rfl⟩, fun hall => ?_⟩
  have hserved : (none : Option String) = some "ghp_token" :=
    hall keyless tokenSet _ _ "shop" .token hrun
  cases hserved

end OneRequest

end ReproitCloud
