import ReproitCloud.Lib.Alone
import ReproitCloud.Control.ProjectKeys

/-!
# Rotations of a publishable key side by side

`Control.ProjectKeys` has a rotation as one step.  The handlers send two statements,
one that revokes the publishable keys of the project and one that stores a new key,
and whatever happens between the two can be seen.  Here a rotation is a process with a
point before each of its calls, and the rotations of a project run side by side, from
the dashboard and with a secret key.  `rotations_alone` says that a rotation with
nobody beside it does what the handler of `Control.ProjectKeys` does.

A rotation that has finished stays in the pool with what it answered, and every
rotation remembers the keys that were active when it began and the keys that its
revocation found active.  `RotationsAtomic` is what a rotation should be: an error has
revoked nothing, a new key comes with the revocation of the ones before, and when all
have answered one key is active.

Two things go wrong.  A failure after the revocation leaves the project without a key,
and two rotations that both revoke before either stores a key leave it with two.
`Rotation.Careful` excludes the two, and `rotations_atomic_of_careful` is the result.
-/

namespace ReproitCloud

open Lib ControlStore

/-! ## Rotations as processes -/

/-- A project: its organization with the database, and its two ids. -/
structure ProjectAddress where
  orgId : Int64
  db : Int64
  projectId : Int64
  appId : String

/-- The two routes to a rotation, with who asks. -/
inductive RotationRoute where
  | dashboard (userId : Int64) (role : String)
  | api (admin : Bool) (scope : KeyScope) (target : Header)

/-- How far a rotation is. -/
inductive RotationPoint where
  | checking
  | revoking (projectId userId : Int64)
  | creating (projectId userId : Int64)
  | auditing (projectId userId : Int64) (hex : String)
  /-- It has answered with an error. -/
  | failed (reply : Reply)
  /-- It has answered with the key of these digits. -/
  | rotated (hex : String)

structure Rotation where
  route : RotationRoute
  point : RotationPoint := .checking
  /-- The keys that were active when the rotation began.  No code reads it. -/
  before : List String
  /-- The active keys that its revocation found.  No code reads it. -/
  revoked : List String := []

/-- What the environment decides of a step.  `call` is for the two writes. -/
structure RotationChance where
  resolveError : Option ResolveError := none
  ownsFails : Bool := false
  readFails : Bool := false
  call : CallResult := .answered
  /-- The random digits of the new key. -/
  hex : String := ""
  auditFails : Bool := false

/-- The active publishable keys of a project of an organization, by their hashes. -/
def activeKeys (c : ControlStore) (orgId projectId : Int64) : List String :=
  (c.apiKeys.rows.filter fun r =>
    r.2.orgId = orgId && (r.2.active && publishableOf projectId r.2)).map Prod.fst

namespace Rotation

/-- The error of a failed write. -/
def failure (op : Rotation) : Reply :=
  match op.route with
  | .dashboard .. => err 500 "could not rotate publishable key"
  | .api .. => err 500 "internal error"

variable (a : ProjectAddress)

/-- The reads of the checks, with the database of the organization. -/
def reads (chance : RotationChance) : KeyChance where
  resolved _ := chance.resolveError.elim (.ok a.db) .error
  ownsFails := chance.ownsFails
  readFails := chance.readFails

/-- The checks of a rotation: the project and the user. -/
def checks (w : Accounts) (chance : RotationChance) (op : Rotation) :
    Except Reply (Int64 × Int64) :=
  match op.route with
  | .dashboard userId role =>
    match w.projectToRotate ⟨userId, a.orgId, role⟩ a.appId (reads a chance) with
    | .error reply => .error reply
    | .ok projectId => .ok (projectId, userId)
  | .api admin scope target =>
    match w.projectToPost (if admin then .admin else .org a.orgId) scope target a.appId
        (reads a chance) with
    | .error reply => .error reply
    | .ok (projectId, _, userId) => .ok (projectId, userId)

variable (keyHash : String → String)

/-- `create_api_key` of a rotation, for the key of the digits. -/
def newKey (w : Accounts) (projectId userId : Int64) (hex : String) : Option ControlStore :=
  w.control.createApiKey (keyHash (newPublishableKey hex)) (apiKeyPrefix (newPublishableKey hex))
    a.orgId userId (some projectId)

/-- The next step of a rotation. -/
def next (w : Accounts) (chance : RotationChance) (op : Rotation) :
    Option (Accounts × Rotation) :=
  match op.point with
  | .checking =>
    match op.checks a w chance with
    | .error reply => some (w, { op with point := .failed reply })
    | .ok (projectId, userId) => some (w, { op with point := .revoking projectId userId })
  | .revoking projectId userId =>
    let after := { w with control := w.control.revokePublishableKeysForProject projectId }
    let revoked := activeKeys w.control a.orgId projectId
    match chance.call with
    | .answered => some (after, { op with point := .creating projectId userId, revoked := revoked })
    | .failed => some (w, { op with point := .failed op.failure })
    | .unanswered => some (after, { op with point := .failed op.failure, revoked := revoked })
  | .creating projectId userId =>
    match newKey a keyHash w projectId userId chance.hex with
    | none => some (w, { op with point := .failed op.failure })
    | some control =>
      match chance.call with
      | .answered =>
        some ({ w with control := control },
          { op with point := .auditing projectId userId chance.hex })
      | .failed => some (w, { op with point := .failed op.failure })
      | .unanswered =>
        some ({ w with control := control }, { op with point := .failed op.failure })
  | .auditing projectId userId hex =>
    some ({ w with
        control := w.control.audit chance.auditFails
          { actor := "user:" ++ toString userId.toInt
            action := "apikey.publishable.rotate"
            orgId := some a.orgId
            detail := .object [("project", .number (.int projectId.toInt)),
              ("prefix", .string (apiKeyPrefix (newPublishableKey hex)))] } },
      { op with point := .rotated hex })
  | .failed _ | .rotated _ => none

/-- A rotation that begins, with the keys that are active then. -/
def begins (w : Accounts) (op : Rotation) : Bool :=
  match op.point with
  | .checking => op.revoked = [] && op.before = activeKeys w.control a.orgId a.projectId
  | _ => false

end Rotation

/-- The rotations of the key of a project. -/
def rotations (keyHash : String → String) (a : ProjectAddress) :
    Program Accounts Rotation RotationChance Empty where
  starts w op := op.begins a w
  next w _ chance op := (op.next a keyHash w chance).map fun r => (r.1, some r.2)
  write _ _ e := nomatch e

/-- What a rotation has answered, once it has. -/
def Rotation.answer (keyHash : String → String) (op : Rotation) : Option (Option String) :=
  match op.point with
  | .failed _ => some none
  | .rotated hex => some (some (keyHash (newPublishableKey hex)))
  | _ => none

/-- The rotations of a project are atomic.  `first` is the key that was active before
all of them. -/
structure RotationsAtomic (keyHash : String → String) (a : ProjectAddress) (first : String)
    (s : Pool Accounts Rotation) : Prop where
  /-- A rotation that answers with an error has left the active keys active. -/
  errors : ∀ op ∈ s.inFlight, op.answer keyHash = some none → op.revoked = []
  /-- The keys from before a rotation that answers with a key are revoked. -/
  replaced : ∀ op ∈ s.inFlight, ∀ key, op.answer keyHash = some (some key) →
    ∀ old ∈ op.before, old ∉ activeKeys s.store.control a.orgId a.projectId
  /-- When all have answered, one key is active: that of one of them, or the first one. -/
  settled : (∀ op ∈ s.inFlight, op.answer keyHash ≠ none) →
    ∃ key, activeKeys s.store.control a.orgId a.projectId = [key] ∧
      ((∃ op ∈ s.inFlight, op.answer keyHash = some (some key)) ∨
        (∀ op ∈ s.inFlight, op.answer keyHash = some none) ∧ key = first)

/-- The next step of a rotation does not go wrong.  A revocation that fails has revoked
nothing, a new key is stored when no other one is active, and a key that is not stored
replaces none. -/
def Rotation.Careful (keyHash : String → String) (a : ProjectAddress) (w : Accounts)
    (chance : RotationChance) (op : Rotation) : Prop :=
  match op.point with
  | .revoking projectId _ => chance.call = .unanswered → activeKeys w.control a.orgId projectId = []
  | .creating projectId userId =>
    if chance.call ≠ .failed ∧ (newKey a keyHash w projectId userId chance.hex).isSome then
      chance.call = .answered ∧ activeKeys w.control a.orgId projectId = []
    else op.revoked = []
  | _ => True

/-- A rotation that has not written yet. -/
def Rotation.Unwritten (op : Rotation) : Prop :=
  match op.point with
  | .checking | .revoking .. => True
  | _ => False

/-- Every step of a rotation is careful, and none is given up once it has written. -/
def CarefulRotations (keyHash : String → String) (a : ProjectAddress) (s : Pool Accounts Rotation) :
    PoolEvent Rotation RotationChance Empty → Pool Accounts Rotation → Prop
  | .advance i chance, _ => ∀ op, s.inFlight[i]? = some op → op.Careful keyHash a s.store chance
  | .abandon i, _ => ∀ op, s.inFlight[i]? = some op → op.Unwritten
  | .start _, _ | .commit _, _ => True

/-! ## A rotation alone is the handler -/

/-- The reply of a rotation that has answered. -/
def Rotation.reply (appId : String) (op : Rotation) : Option Reply :=
  match op.point with
  | .failed reply => some reply
  | .rotated hex => some (Accounts.rotatedReply appId hex)
  | _ => none

/-- The handler of a route in one step. -/
def RotationRoute.handle (keyHash : String → String) (a : ProjectAddress) (w : Accounts)
    (hex : String) (chance : KeyChance) : RotationRoute → Reply × Accounts
  | .dashboard userId role =>
    w.rotatePublishableKey keyHash ⟨userId, a.orgId, role⟩ a.appId hex chance
  | .api admin scope target =>
    w.postPublishableKey keyHash (if admin then .admin else .org a.orgId) scope target a.appId hex
      chance

section HandledAlone

variable (keyHash : String → String) (a : ProjectAddress) (w : Accounts) (chance : RotationChance)
  (keysFail createFails : Bool)

/-- The failures of a handler, from those of the steps. -/
def handlerChance : KeyChance :=
  { Rotation.reads a chance with
    keysFail := keysFail, createFails := createFails, auditFails := chance.auditFails }

/-- What happens to the second write of a handler is what happens to that of a step. -/
theorem creating_alone (op : Rotation) (projectId userId : Int64)
    (hpoint : op.point = .creating projectId userId) :
    let stored := if createFails then none else Rotation.newKey a keyHash w projectId userId chance.hex
    ∃ w' op', Solo (rotations keyHash a) (fun _ _ _ => True) w op w' op' ∧
      match stored with
      | none => w' = w ∧ op'.reply a.appId = some op.failure
      | some control =>
        op'.reply a.appId = some (Accounts.rotatedReply a.appId chance.hex) ∧
          w' = { w with
            control := control.audit chance.auditFails
              { actor := "user:" ++ toString userId.toInt
                action := "apikey.publishable.rotate"
                orgId := some a.orgId
                detail := .object [("project", .number (.int projectId.toInt)),
                  ("prefix", .string (apiKeyPrefix (newPublishableKey chance.hex)))] } } := by
  intro stored
  have hfails : ∀ chance' : RotationChance, chance'.hex = chance.hex →
      (chance'.call = .failed ∨ Rotation.newKey a keyHash w projectId userId chance.hex = none) →
      (rotations keyHash a).next w [] chance' op =
        some (w, some { op with point := .failed op.failure }) := by
    intro chance' hhex hwhy
    simp only [rotations, Rotation.next, hpoint, hhex]
    cases hkey : Rotation.newKey a keyHash w projectId userId chance.hex with
    | none => rfl
    | some control =>
      have hcall : chance'.call = .failed := hwhy.resolve_right (by simp [hkey])
      simp [hcall]
  cases hstored : stored with
  | none =>
    refine ⟨w, { op with point := .failed op.failure }, ?_, rfl, rfl⟩
    cases hcreate : createFails with
    | true => exact .step trivial (hfails { chance with call := .failed } rfl (.inl rfl)) (.refl _ _)
    | false =>
      have hkey : Rotation.newKey a keyHash w projectId userId chance.hex = none := by
        simpa [stored, hcreate] using hstored
      exact .step trivial (hfails chance rfl (.inr hkey)) (.refl _ _)
  | some control =>
    have hkey : Rotation.newKey a keyHash w projectId userId chance.hex = some control := by
      simp only [stored] at hstored
      split at hstored
      · cases hstored
      · exact hstored
    have hcreated : (rotations keyHash a).next w [] { chance with call := .answered } op =
        some ({ w with control := control },
          some { op with point := .auditing projectId userId chance.hex }) := by
      simp [rotations, Rotation.next, hpoint, hkey]
    refine ⟨_, { op with point := .rotated chance.hex }, .step trivial hcreated ?_, rfl, rfl⟩
    exact .step trivial (show (rotations keyHash a).next _ [] chance _ = _ from rfl) (.refl _ _)

/-- Alone from its checks on, a rotation does what the two handlers share. -/
theorem revoking_alone (op : Rotation) (projectId userId : Int64)
    (hpoint : op.point = .revoking projectId userId) :
    let replaced := Accounts.replacePublishableKey keyHash w.control projectId a.orgId userId
      chance.hex (handlerChance a chance keysFail createFails)
    ∃ op', Solo (rotations keyHash a) (fun _ _ _ => True) w op { w with control := replaced.2 } op' ∧
      op'.reply a.appId =
        some (if replaced.1 then Accounts.rotatedReply a.appId chance.hex else op.failure) := by
  intro replaced
  cases hkeys : keysFail with
  | true =>
    have hrefused : (rotations keyHash a).next w [] { chance with call := .failed } op =
        some (w, some { op with point := .failed op.failure }) := by
      simp [rotations, Rotation.next, hpoint]
    refine ⟨{ op with point := .failed op.failure }, .step trivial hrefused ?_, ?_⟩
    · simp only [replaced, Accounts.replacePublishableKey, handlerChance, hkeys, if_true]
      exact .refl _ _
    · simp [replaced, Accounts.replacePublishableKey, handlerChance, hkeys, Rotation.reply]
  | false =>
    have hrevoked : (rotations keyHash a).next w [] { chance with call := .answered } op =
        some ({ w with control := w.control.revokePublishableKeysForProject projectId },
          some { op with
            point := .creating projectId userId
            revoked := activeKeys w.control a.orgId projectId }) := by
      simp [rotations, Rotation.next, hpoint]
    obtain ⟨w', op', hsolo, hend⟩ := creating_alone keyHash a
      { w with control := w.control.revokePublishableKeysForProject projectId } chance createFails
      { op with
        point := .creating projectId userId
        revoked := activeKeys w.control a.orgId projectId } projectId userId rfl
    have hboth : { w with control := replaced.2 } = w' ∧ op'.reply a.appId =
        some (if replaced.1 then Accounts.rotatedReply a.appId chance.hex else op.failure) := by
      simp only [replaced, Accounts.replacePublishableKey, handlerChance, hkeys, Bool.false_eq_true,
        if_false]
      simp only [Rotation.newKey] at hend
      generalize (if createFails = true then none
        else (w.control.revokePublishableKeysForProject projectId).createApiKey
          (keyHash (newPublishableKey chance.hex)) (apiKeyPrefix (newPublishableKey chance.hex))
          a.orgId userId (some projectId)) = stored at hend ⊢
      cases stored with
      | none => exact ⟨hend.1.symm, hend.2⟩
      | some control => exact ⟨hend.2.symm, hend.1⟩
    rw [hboth.1]
    exact ⟨op', .step trivial hrevoked hsolo, hboth.2⟩

variable {a w chance} in
/-- The route of the keys writes for the organization of the key. -/
theorem org_of_projectToPost {admin : Bool} {scope : KeyScope} {target : Header} {appId : String}
    {projectId orgId userId : Int64}
    (h : w.projectToPost (if admin then .admin else .org a.orgId) scope target appId
      (Rotation.reads a chance) = .ok (projectId, orgId, userId)) : orgId = a.orgId := by
  cases admin with
  | false => exact Accounts.projectToPost_org h
  | true =>
    simp only [if_true] at h
    unfold Accounts.projectToPost at h
    split at h
    · cases h
    split at h
    · cases h
    split at h
    · cases h
    split at h
    · cases h
    split at h
    · cases h
    split at h
    · cases h
    · cases h
    · rename_i hauth
      cases hauth

/-- A rotation with nobody beside it answers and leaves what the handler does. -/
theorem rotations_alone (op : Rotation) (hpoint : op.point = .checking) :
    let handled := op.route.handle keyHash a w chance.hex
      (handlerChance a chance keysFail createFails)
    ∃ op', Solo (rotations keyHash a) (fun _ _ _ => True) w op handled.2 op' ∧
      op'.reply a.appId = some handled.1 := by
  intro handled
  obtain ⟨route, point, before, revoked⟩ := op
  obtain rfl : point = .checking := hpoint
  have hchecks : ∀ result : Except Reply (Int64 × Int64),
      Rotation.checks a w chance ⟨route, .checking, before, revoked⟩ = result →
      (rotations keyHash a).next w [] chance ⟨route, .checking, before, revoked⟩ =
        some (w, some ⟨route, match result with
          | .error reply => .failed reply
          | .ok (projectId, userId) => .revoking projectId userId, before, revoked⟩) := by
    intro result hresult
    simp only [rotations, Rotation.next, hresult]
    cases result <;> rfl
  cases route with
  | dashboard userId role =>
    have hhandled : handled = w.rotatePublishableKey keyHash ⟨userId, a.orgId, role⟩ a.appId
        chance.hex (handlerChance a chance keysFail createFails) := rfl
    have hsame : w.projectToRotate ⟨userId, a.orgId, role⟩ a.appId
        (handlerChance a chance keysFail createFails) =
        w.projectToRotate ⟨userId, a.orgId, role⟩ a.appId (Rotation.reads a chance) := rfl
    rw [Accounts.rotatePublishableKey, hsame] at hhandled
    cases hfound : w.projectToRotate ⟨userId, a.orgId, role⟩ a.appId (Rotation.reads a chance) with
    | error reply =>
      rw [hfound] at hhandled
      rw [hhandled]
      have hstep := hchecks (.error reply) (by simp only [Rotation.checks, hfound])
      exact ⟨_, .step trivial hstep (.refl _ _), rfl⟩
    | ok projectId =>
      rw [hfound] at hhandled
      rw [hhandled]
      have hstep := hchecks (.ok (projectId, userId)) (by simp only [Rotation.checks, hfound])
      obtain ⟨op', hsolo, hreply⟩ := revoking_alone keyHash a w chance keysFail createFails
        ⟨.dashboard userId role, .revoking projectId userId, before, revoked⟩ projectId userId rfl
      exact ⟨op', .step trivial hstep hsolo, hreply⟩
  | api admin scope target =>
    have hhandled : handled = w.postPublishableKey keyHash (if admin then .admin else .org a.orgId)
        scope target a.appId chance.hex (handlerChance a chance keysFail createFails) := rfl
    have hsame : w.projectToPost (if admin then .admin else .org a.orgId) scope target a.appId
        (handlerChance a chance keysFail createFails) =
        w.projectToPost (if admin then .admin else .org a.orgId) scope target a.appId
          (Rotation.reads a chance) := rfl
    rw [Accounts.postPublishableKey, hsame] at hhandled
    cases hfound : w.projectToPost (if admin then .admin else .org a.orgId) scope target a.appId
        (Rotation.reads a chance) with
    | error reply =>
      rw [hfound] at hhandled
      rw [hhandled]
      have hstep := hchecks (.error reply) (by simp only [Rotation.checks, hfound])
      exact ⟨_, .step trivial hstep (.refl _ _), rfl⟩
    | ok found =>
      obtain ⟨projectId, orgId, userId⟩ := found
      rw [hfound] at hhandled
      rw [hhandled]
      obtain rfl : orgId = a.orgId := org_of_projectToPost hfound
      have hstep := hchecks (.ok (projectId, userId)) (by simp only [Rotation.checks, hfound])
      obtain ⟨op', hsolo, hreply⟩ := revoking_alone keyHash a w chance keysFail createFails
        ⟨.api admin scope target, .revoking projectId userId, before, revoked⟩ projectId userId rfl
      exact ⟨op', .step trivial hstep hsolo, hreply⟩

end HandledAlone

/-! ## The active keys -/

section ActiveKeys

variable {c c' : ControlStore} {orgId projectId userId : Int64} {hash : String}

theorem mem_activeKeys : hash ∈ activeKeys c orgId projectId ↔
    ∃ k, c.apiKeys.get? hash = some k ∧ k.orgId = orgId ∧ k.active = true ∧
      publishableOf projectId k = true := by
  simp only [activeKeys, List.mem_map, List.mem_filter, Bool.and_eq_true, decide_eq_true_eq]
  constructor
  · rintro ⟨⟨hash, k⟩, ⟨hrow, horg, hactive, hpublishable⟩, rfl⟩
    exact ⟨k, Table.get?_eq_some_iff.2 hrow, horg, hactive, hpublishable⟩
  · rintro ⟨k, hrow, horg, hactive, hpublishable⟩
    exact ⟨(hash, k), ⟨Table.get?_eq_some_iff.1 hrow, horg, hactive, hpublishable⟩, rfl⟩

theorem has_of_mem_activeKeys (h : hash ∈ activeKeys c orgId projectId) :
    c.apiKeys.has hash = true := by
  obtain ⟨k, hk, -⟩ := mem_activeKeys.1 h
  rw [Table.has, hk]
  rfl

/-- A revocation leaves no publishable key of the project active. -/
theorem activeKeys_revoke (c : ControlStore) (orgId projectId : Int64) :
    activeKeys (c.revokePublishableKeysForProject projectId) orgId projectId = [] := by
  rw [List.eq_nil_iff_forall_not_mem]
  intro hash hmem
  obtain ⟨k, hk, -, hactive, hpublishable⟩ := mem_activeKeys.1 hmem
  rw [revokePublishableKeysForProject, Table.get?_update] at hk
  obtain ⟨k', -, rfl⟩ := Option.map_eq_some_iff.1 hk
  by_cases hselected : publishableOf projectId k' = true
  · rw [if_pos hselected] at hactive
    cases hactive
  · rw [if_neg hselected] at hpublishable
    exact hselected hpublishable

theorem like_percent (text : List Char) : like ['%'] text = true := by
  have hnone : text.tails.any (like []) = true :=
    List.any_eq_true.2 ⟨[], (List.mem_tails _ _).2 List.nil_suffix, by simp [like]⟩
  simpa only [like, if_true] using hnone

/-- What may be shown of a publishable key is what the revocation looks for. -/
theorem like_newPublishableKey (hex : String) :
    like "pk_live_%".toList (apiKeyPrefix (newPublishableKey hex)).toList = true := by
  have hshown : (apiKeyPrefix (newPublishableKey hex)).toList =
      "pk_live_".toList ++ (hex.toList.take 2 ++ "...".toList) := by
    simp [apiKeyPrefix, newPublishableKey]
  rw [hshown]
  exact like_percent _

/-- A new key of the project is active, beside the ones that were. -/
theorem activeKeys_newKey {keyHash : String → String} {a : ProjectAddress} {w : Accounts}
    {userId : Int64} {hex : String} {control : ControlStore}
    (h : Rotation.newKey a keyHash w a.projectId userId hex = some control) :
    activeKeys control a.orgId a.projectId =
        activeKeys w.control a.orgId a.projectId ++ [keyHash (newPublishableKey hex)] ∧
      w.control.apiKeys.has (keyHash (newPublishableKey hex)) = false ∧
      ∀ hash, w.control.apiKeys.has hash = true → control.apiKeys.has hash = true := by
  unfold Rotation.newKey createApiKey at h
  split at h
  · obtain ⟨apiKeys, hinsert, rfl⟩ := Option.map_eq_some_iff.1 h
    refine ⟨?_, Table.has_of_insert? hinsert, fun hash hhas => ?_⟩
    · have hselected : publishableOf a.projectId
          { orgId := a.orgId, createdBy := some userId, projectId := some a.projectId,
            keyPrefix := apiKeyPrefix (newPublishableKey hex) } = true := by
        rw [publishableOf, decide_eq_true rfl, Bool.true_and]
        exact like_newPublishableKey hex
      rw [activeKeys, Table.rows_insert? hinsert, List.filter_append, List.map_append,
        List.filter_cons_of_pos (by rw [hselected, decide_eq_true rfl]; rfl)]
      rfl
    · rw [Table.has_insert? hinsert, hhas, Bool.or_true]
  · cases h

end ActiveKeys

/-! ## What a careful step does -/

/-- The database of the organization has the project. -/
def ProjectAddress.Home (a : ProjectAddress) (w : Accounts) : Prop :=
  ∃ t, w.tenants.get? a.db = some t ∧ t.projectIdForApp a.appId = some a.projectId

namespace Rotation

section Checks

variable {a : ProjectAddress} {w : Accounts} {chance : RotationChance} {op : Rotation}

theorem store_of_resolve {org : Int64} {t : Int64 × ProjectStore}
    (h : w.resolve (reads a chance) org = .ok t) : w.tenants.get? a.db = some t.2 := by
  obtain ⟨db, t⟩ := t
  obtain ⟨hopen, htenant⟩ := Accounts.resolve_eq_ok h
  simp only [reads] at hopen
  cases hresolve : chance.resolveError with
  | none =>
    rw [hresolve] at hopen
    cases hopen
    exact htenant
  | some e =>
    rw [hresolve] at hopen
    cases hopen

theorem store_of_tenantFor {auth : AuthCtx} {target : Header} {appId : String}
    {t : Int64 × ProjectStore} (h : w.tenantFor auth target appId (reads a chance) = .ok t) :
    w.tenants.get? a.db = some t.2 := by
  unfold Accounts.tenantFor at h
  split at h
  · cases h
  rename_i t' htenant
  split at h
  · cases h
  cases h
  unfold Accounts.tenantOf at htenant
  split at htenant
  · cases htenant
  all_goals
    split at htenant
    · rename_i hresolve
      cases htenant
      exact store_of_resolve hresolve
    all_goals cases htenant

/-- The dashboard finds the project under its id. -/
theorem projectId_of_projectToRotate {caller : Caller} {projectId : Int64} (hhome : a.Home w)
    (h : w.projectToRotate caller a.appId (reads a chance) = .ok projectId) :
    projectId = a.projectId := by
  obtain ⟨t, ht, hproject⟩ := hhome
  unfold Accounts.projectToRotate at h
  split at h
  · cases h
  split at h
  · cases h
  rename_i db t' hresolve
  have hsame := (store_of_resolve hresolve).symm.trans ht
  cases hsame
  rw [hproject] at h
  split at h
  · cases h
  · cases h
    rfl

/-- The route of the keys finds the project under its id. -/
theorem projectId_of_projectToPost {auth : AuthCtx} {scope : KeyScope} {target : Header}
    {projectId orgId userId : Int64} (hhome : a.Home w)
    (h : w.projectToPost auth scope target a.appId (reads a chance) =
      .ok (projectId, orgId, userId)) : projectId = a.projectId := by
  obtain ⟨t, ht, hproject⟩ := hhome
  unfold Accounts.projectToPost at h
  split at h
  · cases h
  split at h
  · cases h
  rename_i db t' htenant
  have hsame := (store_of_tenantFor htenant).symm.trans ht
  cases hsame
  rw [hproject] at h
  split at h
  · cases h
  dsimp only at h
  split at h
  · cases h
  split at h
  · cases h
  · cases h
  · cases h
    rfl

/-- The checks find the project under its id. -/
theorem projectId_of_checks {projectId userId : Int64} (hhome : a.Home w)
    (h : op.checks a w chance = .ok (projectId, userId)) : projectId = a.projectId := by
  unfold checks at h
  split at h
  · split at h
    · cases h
    · rename_i hfound
      cases h
      exact projectId_of_projectToRotate hhome hfound
  · split at h
    · cases h
    · rename_i hfound
      cases h
      exact projectId_of_projectToPost hhome hfound

end Checks

/-- A rotation that has revoked and goes on. -/
def Written (op : Rotation) : Prop :=
  match op.point with
  | .creating .. | .auditing .. | .rotated _ => True
  | .checking | .revoking .. | .failed _ => False

/-- The key that a rotation has stored and not failed after. -/
def made (keyHash : String → String) (op : Rotation) : Option String :=
  match op.point with
  | .auditing _ _ hex | .rotated hex => some (keyHash (newPublishableKey hex))
  | _ => none

/-- A rotation that has revoked a key and will store another one. -/
def Owes (op : Rotation) : Prop :=
  match op.point with
  | .creating .. => op.revoked ≠ []
  | _ => False

/-- The project that a rotation is about to write to. -/
def target (op : Rotation) : Option Int64 :=
  match op.point with
  | .revoking projectId _ | .creating projectId _ | .auditing projectId _ _ => some projectId
  | _ => none

/-- What holds of a rotation at its point. -/
structure Sound (keyHash : String → String) (a : ProjectAddress) (first : String) (w : Accounts)
    (op : Rotation) : Prop where
  target : ∀ projectId, op.target = some projectId → projectId = a.projectId
  known : ∀ old ∈ op.before, w.control.apiKeys.has old = true
  unwritten : op.Unwritten → op.revoked = []
  errors : op.answer keyHash = some none → op.revoked = []
  gone : op.Written → ∀ old, old = first ∨ old ∈ op.before →
    old ∉ activeKeys w.control a.orgId a.projectId

/-- What a careful step can do to the accounts and to its rotation. -/
inductive Move (keyHash : String → String) (a : ProjectAddress) (w : Accounts) (op : Rotation) :
    Accounts → Rotation → Prop
  | found {userId : Int64} : op.point = .checking →
      Move keyHash a w op w { op with point := .revoking a.projectId userId }
  | refused {reply : Reply} : op.made keyHash = none → op.revoked = [] →
      Move keyHash a w op w { op with point := .failed reply }
  | revoked {userId : Int64} : op.point = .revoking a.projectId userId →
      Move keyHash a w op
        { w with control := w.control.revokePublishableKeysForProject a.projectId }
        { op with
          point := .creating a.projectId userId
          revoked := activeKeys w.control a.orgId a.projectId }
  | unheard {userId : Int64} {reply : Reply} : op.point = .revoking a.projectId userId →
      activeKeys w.control a.orgId a.projectId = [] →
      Move keyHash a w op
        { w with control := w.control.revokePublishableKeysForProject a.projectId }
        { op with point := .failed reply, revoked := [] }
  | created {userId : Int64} {hex : String} {control : ControlStore} :
      op.point = .creating a.projectId userId → activeKeys w.control a.orgId a.projectId = [] →
      newKey a keyHash w a.projectId userId hex = some control →
      Move keyHash a w op { w with control := control }
        { op with point := .auditing a.projectId userId hex }
  | audited {userId : Int64} {hex : String} {fails : Bool} {row : AuditRow} :
      op.point = .auditing a.projectId userId hex →
      Move keyHash a w op { w with control := w.control.audit fails row }
        { op with point := .rotated hex }

section Moves

variable {keyHash : String → String} {a : ProjectAddress} {w w' : Accounts}
  {chance : RotationChance} {op op' : Rotation} {first : String}

theorem move_of_next (hhome : a.Home w) (hop : op.Sound keyHash a first w)
    (hcareful : op.Careful keyHash a w chance)
    (hnext : op.next a keyHash w chance = some (w', op')) : Move keyHash a w op w' op' := by
  have htarget := hop.target
  have hunwritten := hop.unwritten
  cases hpoint : op.point with
  | checking =>
    have hrevoked : op.revoked = [] := hunwritten (by simp [Unwritten, hpoint])
    simp only [next, hpoint] at hnext
    split at hnext
    · cases hnext
      exact .refused (by simp [made, hpoint]) hrevoked
    · rename_i hchecks
      cases hnext
      obtain rfl := projectId_of_checks hhome hchecks
      exact .found hpoint
  | revoking projectId userId =>
    have hrevoked : op.revoked = [] := hunwritten (by simp [Unwritten, hpoint])
    obtain rfl : projectId = a.projectId := htarget projectId (by simp [target, hpoint])
    simp only [Careful, hpoint] at hcareful
    simp only [next, hpoint] at hnext
    split at hnext
    · cases hnext
      exact .revoked hpoint
    · cases hnext
      exact .refused (by simp [made, hpoint]) hrevoked
    · rename_i hcall
      cases hnext
      have hnone := hcareful hcall
      rw [hnone]
      exact .unheard hpoint hnone
  | creating projectId userId =>
    obtain rfl : projectId = a.projectId := htarget projectId (by simp [target, hpoint])
    have hmade : op.made keyHash = none := by simp [made, hpoint]
    simp only [Careful, hpoint] at hcareful
    simp only [next, hpoint] at hnext
    cases hkey : newKey a keyHash w a.projectId userId chance.hex with
    | none =>
      simp only [hkey] at hcareful hnext
      cases hnext
      exact .refused hmade (by simpa using hcareful)
    | some control =>
      cases hcall : chance.call with
      | answered =>
        simp only [hkey, hcall] at hcareful hnext
        cases hnext
        exact .created hpoint (by simpa using hcareful) hkey
      | failed =>
        simp only [hkey, hcall] at hcareful hnext
        cases hnext
        exact .refused hmade (by simpa using hcareful)
      | unanswered =>
        simp [hkey, hcall] at hcareful
  | auditing projectId userId hex =>
    obtain rfl : projectId = a.projectId := htarget projectId (by simp [target, hpoint])
    simp only [next, hpoint] at hnext
    cases hnext
    exact .audited hpoint
  | failed reply => simp [next, hpoint] at hnext
  | rotated hex => simp [next, hpoint] at hnext

/-- No key is deleted, and none becomes active again. -/
theorem Move.noneRevived (h : Move keyHash a w op w' op') {hash : String}
    (hhas : w.control.apiKeys.has hash = true) :
    w'.control.apiKeys.has hash = true ∧
      (hash ∈ activeKeys w'.control a.orgId a.projectId →
        hash ∈ activeKeys w.control a.orgId a.projectId) := by
  have hrevoke : (w.control.revokePublishableKeysForProject a.projectId).apiKeys.has hash = true := by
    rw [Table.has, revokePublishableKeysForProject, Table.get?_update, Option.isSome_map]
    exact hhas
  cases h with
  | found | refused => exact ⟨hhas, id⟩
  | revoked | unheard =>
    refine ⟨hrevoke, fun hmem => ?_⟩
    rw [activeKeys_revoke] at hmem
    cases hmem
  | created hpoint hnone hkey =>
    obtain ⟨hkeys, hnew, hkept⟩ := activeKeys_newKey hkey
    refine ⟨hkept hash hhas, fun hmem => ?_⟩
    rw [hkeys, List.mem_append, List.mem_singleton] at hmem
    refine hmem.resolve_right fun he => ?_
    rw [he, hnew] at hhas
    cases hhas
  | audited =>
    refine ⟨?_, ?_⟩
    · rwa [apiKeys_audit]
    · rw [activeKeys, apiKeys_audit]
      exact id

/-- A key that is active after a step is one from before or the one that the rotation has
made. -/
theorem Move.owned (h : Move keyHash a w op w' op') {hash : String}
    (hmem : hash ∈ activeKeys w'.control a.orgId a.projectId) :
    hash ∈ activeKeys w.control a.orgId a.projectId ∧
        (op.made keyHash = some hash → op'.made keyHash = some hash) ∨
      op'.made keyHash = some hash := by
  cases h with
  | found hpoint => exact .inl ⟨hmem, by simp [made, hpoint]⟩
  | refused hmade => exact .inl ⟨hmem, by simp [hmade]⟩
  | revoked | unheard =>
    rw [activeKeys_revoke] at hmem
    cases hmem
  | created hpoint hnone hkey =>
    rw [(activeKeys_newKey hkey).1, hnone, List.nil_append, List.mem_singleton] at hmem
    exact .inr (by simp [made, hmem])
  | audited hpoint =>
    rw [activeKeys, apiKeys_audit] at hmem
    exact .inl ⟨hmem, by simp [made, hpoint]⟩

/-- When no key is active after a step, none was before, or the rotation owes one now. -/
theorem Move.owes (h : Move keyHash a w op w' op')
    (hnone : activeKeys w'.control a.orgId a.projectId = []) :
    activeKeys w.control a.orgId a.projectId = [] ∧ ¬ op.Owes ∨ op'.Owes := by
  cases h with
  | found hpoint => exact .inl ⟨hnone, by simp [Owes, hpoint]⟩
  | refused _ hrevoked =>
    refine .inl ⟨hnone, ?_⟩
    unfold Owes
    split
    · exact fun h => h hrevoked
    · exact not_false
  | revoked hpoint =>
    by_cases hbefore : activeKeys w.control a.orgId a.projectId = []
    · exact .inl ⟨hbefore, by simp [Owes, hpoint]⟩
    · exact .inr hbefore
  | unheard hpoint hbefore => exact .inl ⟨hbefore, by simp [Owes, hpoint]⟩
  | created hpoint _ hkey =>
    rw [(activeKeys_newKey hkey).1] at hnone
    simp at hnone
  | audited hpoint =>
    rw [activeKeys, apiKeys_audit] at hnone
    exact .inl ⟨hnone, by simp [Owes, hpoint]⟩

theorem Move.few (h : Move keyHash a w op w' op')
    (hfew : (activeKeys w.control a.orgId a.projectId).length ≤ 1) :
    (activeKeys w'.control a.orgId a.projectId).length ≤ 1 := by
  cases h with
  | found | refused => exact hfew
  | revoked | unheard =>
    rw [activeKeys_revoke]
    exact Nat.zero_le 1
  | created hpoint hnone hkey =>
    rw [(activeKeys_newKey hkey).1, hnone]
    exact le_rfl
  | audited =>
    rw [activeKeys, apiKeys_audit]
    exact hfew

theorem Move.tenants (h : Move keyHash a w op w' op') : w'.tenants = w.tenants := by
  cases h <;> rfl

/-- A step leaves the other rotations sound. -/
theorem Sound.beside {o : Rotation} (h : Move keyHash a w op w' op')
    (hfirst : w.control.apiKeys.has first = true) (ho : o.Sound keyHash a first w) :
    o.Sound keyHash a first w' where
  target := ho.target
  known old hold := (h.noneRevived (ho.known old hold)).1
  unwritten := ho.unwritten
  errors := ho.errors
  gone hwritten old hold := by
    have hhas : w.control.apiKeys.has old = true := by
      rcases hold with rfl | hold
      · exact hfirst
      · exact ho.known old hold
    exact fun hmem => ho.gone hwritten old hold ((h.noneRevived hhas).2 hmem)

/-- A step leaves its rotation sound. -/
theorem Sound.after (h : Move keyHash a w op w' op') (hfirst : w.control.apiKeys.has first = true)
    (hop : op.Sound keyHash a first w) : op'.Sound keyHash a first w' := by
  have hstays := Sound.beside h hfirst hop
  cases h with
  | found hpoint =>
    constructor
    case target => simp [Rotation.target]
    case known => exact hstays.known
    case unwritten => exact fun _ => hop.unwritten (by simp [Unwritten, hpoint])
    case errors => simp [answer]
    case gone => simp [Written]
  | refused _ hrevoked =>
    constructor
    case target => simp [Rotation.target]
    case known => exact hstays.known
    case unwritten => simp [Unwritten]
    case errors => exact fun _ => hrevoked
    case gone => simp [Written]
  | revoked hpoint =>
    constructor
    case target => simp [Rotation.target]
    case known => exact hstays.known
    case unwritten => simp [Unwritten]
    case errors => simp [answer]
    case gone =>
      intro _ old _
      rw [activeKeys_revoke]
      exact List.not_mem_nil
  | unheard hpoint =>
    constructor
    case target => simp [Rotation.target]
    case known => exact hstays.known
    case unwritten => simp [Unwritten]
    case errors => exact fun _ => rfl
    case gone => simp [Written]
  | created hpoint =>
    constructor
    case target => simp [Rotation.target]
    case known => exact hstays.known
    case unwritten => simp [Unwritten]
    case errors => simp [answer]
    case gone => exact fun _ => hstays.gone (by simp [Written, hpoint])
  | audited hpoint =>
    constructor
    case target => simp [Rotation.target]
    case known => exact hstays.known
    case unwritten => simp [Unwritten]
    case errors => simp [answer]
    case gone => exact fun _ => hstays.gone (by simp [Written, hpoint])

end Moves

end Rotation

section Points

variable {keyHash : String → String} {a : ProjectAddress} {w : Accounts} {op : Rotation}

theorem Rotation.Unwritten.not_owes (h : op.Unwritten) : ¬ op.Owes := by
  unfold Unwritten at h
  split at h <;> simp_all [Owes]

theorem Rotation.Unwritten.made_eq_none (h : op.Unwritten) : op.made keyHash = none := by
  unfold Unwritten at h
  split at h <;> simp_all [made]

/-- A rotation that has answered with a key has written. -/
theorem Rotation.written_of_answer {key : String} (h : op.answer keyHash = some (some key)) :
    op.Written := by
  unfold Rotation.answer at h
  split at h
  · cases h
  · rename_i hex hpoint
    simp [Written, hpoint]
  · cases h

/-- A rotation that has answered owes nothing, and answers with what it has made. -/
theorem Rotation.answered_cases (h : op.answer keyHash ≠ none) :
    ¬ op.Owes ∧ op.answer keyHash = some (op.made keyHash) := by
  unfold Rotation.answer at h ⊢
  split at h
  · rename_i reply hpoint
    simp [Owes, made, hpoint]
  · rename_i hex hpoint
    simp [Owes, made, hpoint]
  · exact absurd rfl h

/-- A rotation is sound when it begins. -/
theorem sound_of_begins (first : String) (h : op.begins a w = true) :
    op.Sound keyHash a first w := by
  unfold Rotation.begins at h
  split at h
  · rename_i hpoint
    rw [Bool.and_eq_true, decide_eq_true_eq, decide_eq_true_eq] at h
    obtain ⟨hrevoked, hbefore⟩ := h
    constructor
    case target => simp [Rotation.target, hpoint]
    case known =>
      intro old hold
      rw [hbefore] at hold
      exact has_of_mem_activeKeys hold
    case unwritten => exact fun _ => hrevoked
    case errors => exact fun _ => hrevoked
    case gone => simp [Rotation.Written, hpoint]
  · cases h

end Points

/-! ## Runs -/

/-- What holds of the rotations of a project all along a careful run. -/
structure RotationInv (keyHash : String → String) (a : ProjectAddress) (first : String)
    (s : Pool Accounts Rotation) : Prop where
  home : a.Home s.store
  first_known : s.store.control.apiKeys.has first = true
  few : (activeKeys s.store.control a.orgId a.projectId).length ≤ 1
  each : ∀ op ∈ s.inFlight, op.Sound keyHash a first s.store
  /-- A project without a key waits for a rotation that has revoked one. -/
  owed : activeKeys s.store.control a.orgId a.projectId = [] → ∃ op ∈ s.inFlight, op.Owes
  owned : ∀ key ∈ activeKeys s.store.control a.orgId a.projectId,
    key = first ∨ ∃ op ∈ s.inFlight, op.made keyHash = some key

section Runs

variable {keyHash : String → String} {a : ProjectAddress} {first : String}
  {s s' : Pool Accounts Rotation}

theorem rotationInv_step {e : PoolEvent Rotation RotationChance Empty}
    (hinv : RotationInv keyHash a first s) (hstep : (rotations keyHash a).step s e = some s')
    (hcareful : CarefulRotations keyHash a s e s') : RotationInv keyHash a first s' := by
  cases Program.effect_of_step hstep with
  | @start op hstarts =>
    have hsound : op.Sound keyHash a first s.store := sound_of_begins first hstarts
    refine ⟨hinv.home, hinv.first_known, hinv.few, fun o ho => ?_, fun hnone => ?_, fun key hkey => ?_⟩
    · rcases List.mem_append.1 ho with ho | ho
      · exact hinv.each o ho
      · rw [List.mem_singleton.1 ho]
        exact hsound
    · obtain ⟨o, ho, howes⟩ := hinv.owed hnone
      exact ⟨o, List.mem_append_left _ ho, howes⟩
    · refine (hinv.owned key hkey).imp_right fun ⟨o, ho, hmade⟩ => ?_
      exact ⟨o, List.mem_append_left _ ho, hmade⟩
  | @advance i chance op store next hop hnext =>
    obtain ⟨⟨w', op'⟩, hstepped, hpair⟩ := Option.map_eq_some_iff.1 hnext
    cases hpair
    have hmem : op ∈ s.inFlight := List.mem_of_getElem? hop
    have hmove := Rotation.move_of_next hinv.home (hinv.each op hmem) (hcareful op hop) hstepped
    have hothers : ∀ {Q : Rotation → Prop}, (∃ o ∈ s.inFlight, Q o) → (Q op → Q op') →
        ∃ o ∈ s.inFlight.eraseIdx i ++ [op'], Q o := by
      rintro Q ⟨o, ho, hQ⟩ himp
      rcases (mem_iff_eraseIdx hop).1 ho with rfl | ho
      · exact ⟨op', by simp, himp hQ⟩
      · exact ⟨o, List.mem_append_left _ ho, hQ⟩
    constructor
    case home =>
      obtain ⟨t, ht, hproject⟩ := hinv.home
      refine ⟨t, ?_, hproject⟩
      rw [hmove.tenants]
      exact ht
    case first_known => exact (hmove.noneRevived hinv.first_known).1
    case few => exact hmove.few hinv.few
    case each =>
      intro o ho
      rcases List.mem_append.1 ho with ho | ho
      · exact (hinv.each o (List.mem_of_mem_eraseIdx ho)).beside hmove hinv.first_known
      · rw [List.mem_singleton.1 ho]
        exact (hinv.each op hmem).after hmove hinv.first_known
    case owed =>
      intro hnone
      rcases hmove.owes hnone with ⟨hbefore, hnot⟩ | howes
      · exact hothers (hinv.owed hbefore) fun h => absurd h hnot
      · exact ⟨op', by simp, howes⟩
    case owned =>
      intro key hkey
      rcases hmove.owned hkey with ⟨hbefore, hmade⟩ | hmade
      · exact (hinv.owned key hbefore).imp_right fun hsome => hothers hsome hmade
      · exact .inr ⟨op', by simp, hmade⟩
  | @abandon i op hop =>
    have hunwritten : op.Unwritten := hcareful op hop
    have hothers : ∀ {Q : Rotation → Prop}, (∃ o ∈ s.inFlight, Q o) → ¬ Q op →
        ∃ o ∈ s.inFlight.eraseIdx i, Q o := by
      rintro Q ⟨o, ho, hQ⟩ hnot
      rcases (mem_iff_eraseIdx hop).1 ho with rfl | ho
      · exact absurd hQ hnot
      · exact ⟨o, ho, hQ⟩
    refine ⟨hinv.home, hinv.first_known, hinv.few, fun o ho => ?_, fun hnone => ?_, fun key hkey => ?_⟩
    · exact hinv.each o (List.mem_of_mem_eraseIdx ho)
    · exact hothers (hinv.owed hnone) hunwritten.not_owes
    · refine (hinv.owned key hkey).imp_right fun hsome => hothers hsome ?_
      simp [hunwritten.made_eq_none]
  | @commit e store hwrite => exact e.elim

/-- What holds all along a careful run makes the rotations atomic. -/
theorem RotationInv.atomic (h : RotationInv keyHash a first s) :
    RotationsAtomic keyHash a first s := by
  constructor
  case errors => exact fun op hop => (h.each op hop).errors
  case replaced =>
    intro op hop key hkey old hold
    exact (h.each op hop).gone (Rotation.written_of_answer hkey) old (.inr hold)
  case settled =>
    intro hanswered
    have hsome : activeKeys s.store.control a.orgId a.projectId ≠ [] := by
      intro hnone
      obtain ⟨op, hop, howes⟩ := h.owed hnone
      exact (Rotation.answered_cases (hanswered op hop)).1 howes
    obtain ⟨key, hkey⟩ : ∃ key, activeKeys s.store.control a.orgId a.projectId = [key] :=
      List.length_eq_one_iff.1 (le_antisymm h.few (List.length_pos_iff.2 hsome))
    have hactive : key ∈ activeKeys s.store.control a.orgId a.projectId := by rw [hkey]; simp
    refine ⟨key, hkey, ?_⟩
    rcases h.owned key hactive with rfl | ⟨op, hop, hmade⟩
    · -- the first key is active, so none has revoked
      refine .inr ⟨fun op hop => ?_, rfl⟩
      cases hanswer : op.answer keyHash with
      | none => exact absurd hanswer (hanswered op hop)
      | some result =>
        cases result with
        | none => rfl
        | some made =>
          have hgone := (h.each op hop).gone (Rotation.written_of_answer hanswer) key (.inl rfl)
          exact absurd hactive hgone
    · refine .inl ⟨op, hop, ?_⟩
      rw [(Rotation.answered_cases (hanswered op hop)).2, hmade]

/-- In a run whose steps are careful, the rotations of a project that has one active key
are atomic. -/
theorem rotations_atomic_of_careful {w : Accounts}
    {es : List (PoolEvent Rotation RotationChance Empty)} (hhome : a.Home w)
    (hfirst : activeKeys w.control a.orgId a.projectId = [first])
    (hrun : Run (Guarded (stepOf (rotations keyHash a).step) (CarefulRotations keyHash a)) ⟨w, []⟩
      es s) : RotationsAtomic keyHash a first s := by
  have hmem : first ∈ activeKeys w.control a.orgId a.projectId := by rw [hfirst]; simp
  have hstart : RotationInv keyHash a first ⟨w, []⟩ := by
    refine ⟨hhome, has_of_mem_activeKeys hmem, by rw [hfirst]; exact le_rfl, ?_, ?_, ?_⟩
    · simp
    · rw [hfirst]
      simp
    · rw [hfirst]
      simp
  have hend := hrun.invariant_of_guarded (RotationInv keyHash a first)
    (fun _ _ _ hi hstep hok => rotationInv_step hi hstep hok) hstart
  exact hend.atomic

end Runs

/-- The owner of a shop, whose browser key is `pk_live_a1`. -/
def shopWithKey : Accounts where
  control :=
    { users := ⟨[(1, ⟨"owner@a.example"⟩)], List.nodup_singleton _⟩
      orgs := ⟨[(1, { name := "A" })], List.nodup_singleton _⟩
      apiKeys := ⟨[("pk_live_a1", { orgId := 1, projectId := some 1, keyPrefix := "pk_live_a1..." })],
        List.nodup_singleton _⟩ }
  tenants := ⟨[(1, oneProject 1 "shop-a")], List.nodup_singleton _⟩

/-- Its project, in the database of the same number. -/
def shopAddress : ProjectAddress := ⟨1, 1, 1, "shop-a"⟩

/-- A rotation of its key at a point. -/
def shopRotation (point : RotationPoint) (revoked : List String) : Rotation :=
  { route := .dashboard 1 "owner", point := point, before := ["pk_live_a1"], revoked := revoked }

theorem shopAddress_home : shopAddress.Home shopWithKey := ⟨oneProject 1 "shop-a", rfl, by decide⟩

theorem rotations_atomic_of_careful_shop :
    ∃ s, RotationsAtomic id shopAddress "pk_live_a1" s ∧ s.inFlight.length = 1 := by
  have hrun : ∃ s, Run (Guarded (stepOf (rotations id shopAddress).step)
      (CarefulRotations id shopAddress)) ⟨shopWithKey, []⟩
      [.start (shopRotation .checking []), .advance 0 {}, .advance 0 {}, .advance 0 { hex := "b2" },
        .advance 0 {}] s ∧ s.inFlight.length = 1 := by
    refine ⟨_, .cons ⟨rfl, trivial⟩ (.cons ⟨rfl, ?_⟩ (.cons ⟨rfl, ?_⟩ (.cons ⟨rfl, ?_⟩
      (.cons ⟨rfl, ?_⟩ (.nil _))))), rfl⟩
    · rintro op hop
      cases hop
      trivial
    · rintro op hop
      cases hop
      exact CallResult.noConfusion
    · rintro op hop
      cases hop
      exact ⟨rfl, by decide⟩
    · rintro op hop
      cases hop
      trivial
  obtain ⟨s, hrun, hone⟩ := hrun
  exact ⟨s, rotations_atomic_of_careful shopAddress_home (by decide) hrun, hone⟩

/-- A failure after the revocation leaves the project without a key. -/
theorem failed_rotation_leaves_no_key :
    ¬ ∀ (keyHash : String → String) (a : ProjectAddress) (first : String) (w : Accounts)
      (es : List (PoolEvent Rotation RotationChance Empty)) (s : Pool Accounts Rotation),
      a.Home w → activeKeys w.control a.orgId a.projectId = [first] → (∀ i, .abandon i ∉ es) →
        Run (stepOf (rotations keyHash a).step) ⟨w, []⟩ es s →
          RotationsAtomic keyHash a first s := by
  intro hall
  have hrun : Run (stepOf (rotations id shopAddress).step) ⟨shopWithKey, []⟩
      [.start (shopRotation .checking []), .advance 0 {}, .advance 0 {},
        .advance 0 { call := .failed }]
      ⟨{ shopWithKey with control := shopWithKey.control.revokePublishableKeysForProject 1 },
        [shopRotation (.failed (err 500 "could not rotate publishable key")) ["pk_live_a1"]]⟩ :=
    .cons rfl (.cons rfl (.cons rfl (.cons rfl (.nil _))))
  have hatomic := hall id shopAddress "pk_live_a1" shopWithKey _ _ shopAddress_home (by decide)
    (by simp) hrun
  have hkept := hatomic.errors _ (List.mem_singleton_self _) rfl
  cases hkept

/-- Two rotations that both revoke before either stores a key leave two. -/
example : ((runOf (rotations id shopAddress).step ⟨shopWithKey, []⟩
    [.start (shopRotation .checking []), .start (shopRotation .checking []),
      .advance 0 {}, .advance 0 {}, .advance 0 {}, .advance 0 {},
      .advance 0 { hex := "b2" }, .advance 0 { hex := "c3" }]).map fun s =>
    activeKeys s.store.control 1 1) = some ["pk_live_b2", "pk_live_c3"] := by decide

end ReproitCloud
