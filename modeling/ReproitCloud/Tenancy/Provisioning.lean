import ReproitCloud.Lib.Alone
import ReproitCloud.Tenancy.Suspension

/-!
# Provisioning recovers from a crash

A provisioning call stops anywhere, and the reconciler starts again from the row of the
registry.  What the call has done is in the registry and at the provider, and every step
says what it relies on (`TenancyOp.Sure`): the schema is applied to the database whose
connection is stored, and the status is set when both are there.  Nothing that another call
does takes any of it back (`Kept`).

* `provisioning_recovers`: once the row of an organization is there, one pass of the
  reconciler in which no call fails makes it complete.  Provisioning again changes nothing,
  and on a server of many tenants the organization is not served before.
* `unstarted_provisioning_is_lost`: a call that stops before the row is written leaves
  nothing that the reconciler could find, and a server that hosts itself serves its
  organization in every state of the registry.
-/

namespace ReproitCloud

open Lib

/-! ## What is there of an organization -/

section Facts

variable (E : TenancyEnv) (orgId : Int64) (s : TenancyStore)

/-- The connection leads to the organization's database. -/
def OwnDb (conn : String) : Prop :=
  ∃ d, s.databases.get? conn = some d ∧ d.name = E.provider.databaseName orgId

/-- It leads to the organization's database, and the schema has been applied there. -/
def SchemaAt (conn : String) : Prop :=
  s.databases.get? conn = some ⟨E.provider.databaseName orgId, true⟩

/-- The registry has the connection. -/
def StoredConn (conn : String) : Prop :=
  ∃ row, s.registry.get? orgId = some row ∧ row.dbConn = some conn

/-- The registry has the scope of the blobs. -/
def StoredScope : Prop :=
  ∃ row, s.registry.get? orgId = some row ∧ row.blobMode = "prefix" ∧
    row.blobScope = blobScope orgId

/-- The organization is provisioned. -/
def Complete : Prop :=
  ∃ conn, s.registry.get? orgId = some ⟨.active, some conn, "prefix", blobScope orgId⟩ ∧
    SchemaAt E orgId s conn

/-- What the provider guarantees of its databases.  Where connections are derived, an
organization's leads to its database and no other one does, and a server that hosts itself
has one. -/
structure Provided : Prop where
  derived : ∀ conn d orgId, s.databases.get? conn = some d →
    E.provider.deriveConn orgId = some conn → d.name = E.provider.databaseName orgId
  named : ∀ conn conn' d orgId, s.databases.get? conn = some d →
    d.name = E.provider.databaseName orgId → E.provider.deriveConn orgId = some conn' → conn = conn'
  installed : ∀ conn, E.provider = .single conn → s.databases.has conn = true

/-- What holds of an organization that nobody suspends, moves or deletes. -/
structure Tracked : Prop where
  provided : Provided E s
  /-- The provider has at most one database for it. -/
  only : ∀ conn conn', OwnDb E orgId s conn → OwnDb E orgId s conn' → conn = conn'
  stored : ∀ conn, StoredConn orgId s conn → OwnDb E orgId s conn
  status : ∀ status, s.statusOf orgId = some status → status = .provisioning ∨ status = .active
  complete : s.statusOf orgId = some .active → Complete E orgId s
  cached : E.provider.singleTenant = none → s.cache.has orgId = true →
    s.statusOf orgId = some .active

end Facts

/-- What a step relies on. -/
def TenancyOp.Sure (E : TenancyEnv) (orgId : Int64) (s : TenancyStore) : TenancyOp → Prop
  | dbFinding _ k | dbCreating _ k | dbRechecking _ k => k = orgId → s.registry.has orgId = true
  | connStoring _ k conn => k = orgId → s.registry.has orgId = true ∧ OwnDb E orgId s conn
  | schemaApplying _ k conn => k = orgId → OwnDb E orgId s conn ∧ StoredConn orgId s conn
  | blobRecording _ k => k = orgId → ∃ conn, StoredConn orgId s conn ∧ SchemaAt E orgId s conn
  | activating _ k =>
    k = orgId → ∃ conn, StoredConn orgId s conn ∧ SchemaAt E orgId s conn ∧ StoredScope orgId s
  | adminConnecting .. | terminating .. | dropping .. | projectFinding .. | projectDeleting .. =>
    E.provider.singleTenant = none
  | stamping call _ _ | caching call _ | poolGetting call _ _ | connecting call _ _
  | pooling call _ _ | served call _ =>
    E.provider.singleTenant = none → call.orgId = orgId → s.statusOf orgId = some .active
  | _ => True

/-- Nothing that has been done for the organization is taken back. -/
structure Kept (E : TenancyEnv) (orgId : Int64) (s s' : TenancyStore) : Prop where
  row : s.registry.has orgId = true → s'.registry.has orgId = true
  own : ∀ conn, OwnDb E orgId s conn → OwnDb E orgId s' conn
  schema : ∀ conn, SchemaAt E orgId s conn → SchemaAt E orgId s' conn
  conn : ∀ conn, StoredConn orgId s conn → StoredConn orgId s' conn
  scope : StoredScope orgId s → StoredScope orgId s'
  active : s.statusOf orgId = some .active → s'.statusOf orgId = some .active

theorem TenancyOp.Sure.mono {E : TenancyEnv} {orgId : Int64} {s s' : TenancyStore} {op : TenancyOp}
    (h : op.Sure E orgId s) (hkept : Kept E orgId s s') : op.Sure E orgId s' := by
  cases op with
  | dbFinding | dbCreating | dbRechecking => exact fun hk => hkept.row (h hk)
  | connStoring flow k conn => exact fun hk => ⟨hkept.row (h hk).1, hkept.own conn (h hk).2⟩
  | schemaApplying flow k conn =>
    exact fun hk => ⟨hkept.own conn (h hk).1, hkept.conn conn (h hk).2⟩
  | blobRecording flow k =>
    intro hk
    obtain ⟨conn, hconn, hschema⟩ := h hk
    exact ⟨conn, hkept.conn conn hconn, hkept.schema conn hschema⟩
  | activating flow k =>
    intro hk
    obtain ⟨conn, hconn, hschema, hscope⟩ := h hk
    exact ⟨conn, hkept.conn conn hconn, hkept.schema conn hschema, hkept.scope hscope⟩
  | stamping | caching | poolGetting | connecting | pooling | served =>
    exact fun hmulti horg => hkept.active (h hmulti horg)
  | adminConnecting | terminating | dropping | projectFinding | projectDeleting => exact h
  | _ => trivial

/-- An organization is complete as soon as everything is there. -/
theorem complete_of_facts {E : TenancyEnv} {orgId : Int64} {s : TenancyStore} {conn : String}
    (hconn : StoredConn orgId s conn) (hschema : SchemaAt E orgId s conn)
    (hscope : StoredScope orgId s) (hactive : s.statusOf orgId = some .active) :
    Complete E orgId s := by
  obtain ⟨row, hrow, hdbConn⟩ := hconn
  obtain ⟨row', hrow', hmode, hscope⟩ := hscope
  rw [hrow] at hrow'
  cases hrow'
  rw [TenancyStore.statusOf, hrow, Option.map_some] at hactive
  refine ⟨conn, ?_, hschema⟩
  rw [hrow]
  cases row
  cases hdbConn
  cases hmode
  cases hscope
  cases hactive
  rfl

theorem Complete.facts {E : TenancyEnv} {orgId : Int64} {s : TenancyStore}
    (h : Complete E orgId s) :
    ∃ conn, StoredConn orgId s conn ∧ SchemaAt E orgId s conn ∧ StoredScope orgId s ∧
      s.statusOf orgId = some .active := by
  obtain ⟨conn, hrow, hschema⟩ := h
  refine ⟨conn, ⟨_, hrow, rfl⟩, hschema, ⟨_, hrow, rfl, rfl⟩, ?_⟩
  rw [TenancyStore.statusOf, hrow]
  rfl

theorem Complete.mono {E : TenancyEnv} {orgId : Int64} {s s' : TenancyStore}
    (h : Complete E orgId s) (hkept : Kept E orgId s s') : Complete E orgId s' := by
  obtain ⟨conn, hconn, hschema, hscope, hactive⟩ := h.facts
  exact complete_of_facts (hkept.conn conn hconn) (hkept.schema conn hschema) (hkept.scope hscope)
    (hkept.active hactive)

/-! ## What a step takes back -/

/-- A step that does not suspend, move or delete the organization.  Neon makes a project
under a name that none has. -/
def TenancyOp.Undisturbing (E : TenancyEnv) (orgId : Int64) (s : TenancyStore) : TenancyOp → Prop
  | statusWriting k _ | orgDeleting k | dropping _ k | projectDeleting _ k _ => k ≠ orgId
  | dbCreating _ k => k = orgId → E.provider = .neon → ∀ conn, ¬ OwnDb E orgId s conn
  | _ => True

def Undisturbed (E : TenancyEnv) (orgId : Int64) (s : Tenants) (e : TenancyEvent) (_ : Tenants) :
    Prop :=
  match e with
  | .advance i _ => ∀ op, s.inFlight[i]? = some op → op.Undisturbing E orgId s.store
  | .commit (.rotate k _) => k ≠ orgId
  | _ => True

section Steps

variable {E : TenancyEnv} {orgId : Int64} {s s' : TenancyStore} {chance : TenancyChance}
  {op : TenancyOp}

theorem Kept.of_databases (hregistry : s'.registry = s.registry)
    (h : ∀ conn d, s.databases.get? conn = some d → d.name = E.provider.databaseName orgId →
      ∃ d', s'.databases.get? conn = some d' ∧ d'.name = d.name ∧
        (d.schema = true → d'.schema = true)) : Kept E orgId s s' := by
  have hrow : s'.registry.get? orgId = s.registry.get? orgId := congrArg (Table.get? · orgId) hregistry
  refine ⟨fun hrow => hregistry ▸ hrow, fun conn hown => ?_, fun conn hschema => ?_,
    fun conn hconn => ?_, fun hscope => ?_, fun hactive => ?_⟩
  · obtain ⟨d, hd, hname⟩ := hown
    obtain ⟨d', hd', hsame, -⟩ := h conn d hd hname
    exact ⟨d', hd', hsame.trans hname⟩
  · obtain ⟨⟨name, schema⟩, hd', hname, hstays⟩ := h conn _ hschema rfl
    have hname : name = E.provider.databaseName orgId := hname
    have htrue : schema = true := hstays rfl
    rw [SchemaAt, hd', hname, htrue]
  · rwa [StoredConn, hrow]
  · rwa [StoredScope, hrow]
  · rwa [TenancyStore.statusOf, hrow]

theorem Kept.of_registry (hdatabases : s'.databases = s.databases)
    (h : ∀ row, s.registry.get? orgId = some row → ∃ row', s'.registry.get? orgId = some row' ∧
      (∀ conn, row.dbConn = some conn → row'.dbConn = some conn) ∧
      (row.blobMode = "prefix" ∧ row.blobScope = blobScope orgId →
        row'.blobMode = "prefix" ∧ row'.blobScope = blobScope orgId) ∧
      (row.status = .active → row'.status = .active)) : Kept E orgId s s' := by
  refine ⟨fun hhas => ?_, fun conn hown => ?_, fun conn hschema => ?_, fun conn hconn => ?_,
    fun hscope => ?_, fun hactive => ?_⟩
  · obtain ⟨row, hrow⟩ := Option.isSome_iff_exists.1 hhas
    obtain ⟨row', hrow', -⟩ := h row hrow
    exact Option.isSome_iff_exists.2 ⟨row', hrow'⟩
  · rwa [OwnDb, hdatabases]
  · rwa [SchemaAt, hdatabases]
  · obtain ⟨row, hrow, hconn⟩ := hconn
    obtain ⟨row', hrow', hstays, -⟩ := h row hrow
    exact ⟨row', hrow', hstays conn hconn⟩
  · obtain ⟨row, hrow, hscope⟩ := hscope
    obtain ⟨row', hrow', -, hstays, -⟩ := h row hrow
    exact ⟨row', hrow', hstays hscope⟩
  · obtain ⟨row, hrow, hstatus⟩ := Option.map_eq_some_iff.1 hactive
    obtain ⟨row', hrow', -, -, hstays⟩ := h row hrow
    rw [TenancyStore.statusOf, hrow', Option.map_some, hstays hstatus]

theorem Kept.of_same (hregistry : s'.registry = s.registry) (hdatabases : s'.databases = s.databases) :
    Kept E orgId s s' :=
  .of_registry hdatabases fun row hrow => ⟨row, hregistry ▸ hrow, fun _ => id, id, id⟩

/-- An update of a row keeps what it does not set. -/
theorem Kept.of_update {k : Int64} {f : TenantRow → TenantRow}
    (h : k = orgId → ∀ row, s.registry.get? orgId = some row →
      (∀ conn, row.dbConn = some conn → (f row).dbConn = some conn) ∧
      (row.blobMode = "prefix" ∧ row.blobScope = blobScope orgId →
        (f row).blobMode = "prefix" ∧ (f row).blobScope = blobScope orgId) ∧
      (row.status = .active → (f row).status = .active)) :
    Kept E orgId s { s with registry := s.updateTenant k f } := by
  refine .of_registry rfl fun row hrow => ?_
  by_cases hk : k = orgId
  · refine ⟨f row, ?_, h hk row hrow⟩
    rw [TenancyStore.get?_updateTenant, if_pos hk.symm, hrow]
    rfl
  · refine ⟨row, ?_, fun _ => id, id, id⟩
    rw [TenancyStore.get?_updateTenant, if_neg fun he => hk he.symm, hrow]

theorem kept_beginProvisioning (k : Int64) :
    Kept E orgId s { s with registry := (s.beginProvisioning k).getD s.registry } := by
  cases hbegin : s.beginProvisioning k with
  | none => exact .of_same rfl rfl
  | some registry =>
    refine .of_registry rfl fun row hrow => ⟨row, ?_, fun _ => id, id, id⟩
    rw [Option.getD_some, (TenancyStore.get?_beginProvisioning hbegin orgId).2, hrow]
    exact ite_self _

theorem kept_createDatabase (conn name : String) :
    Kept E orgId s { s with databases := (s.createDatabase conn name).getD s.databases } := by
  cases hcreate : s.createDatabase conn name with
  | none => exact .of_same rfl rfl
  | some databases =>
    refine .of_databases rfl fun conn' d hd _ => ⟨d, ?_, rfl, id⟩
    have hne : conn' ≠ conn := by
      rintro rfl
      rw [Table.has_eq_false_iff.1 (Table.has_of_insert? hcreate)] at hd
      cases hd
    rw [Option.getD_some, TenancyStore.get?_createDatabase hcreate, if_neg hne, hd]

theorem kept_applySchema (conn : String) :
    Kept E orgId s { s with databases := (s.applySchema conn).getD s.databases } := by
  cases happly : s.applySchema conn with
  | none => exact .of_same rfl rfl
  | some databases =>
    refine .of_databases rfl fun conn' d hd _ => ?_
    rw [Option.getD_some, TenancyStore.get?_applySchema happly, hd]
    split
    · exact ⟨_, rfl, rfl, fun _ => rfl⟩
    · exact ⟨d, rfl, rfl, id⟩

theorem kept_dropDatabases {k : Int64} (hmulti : E.provider.singleTenant = none) (hk : k ≠ orgId)
    (p : String → Bool) :
    Kept E orgId s { s with databases := s.dropDatabases (E.provider.databaseName k) p } := by
  refine .of_databases rfl fun conn d hd hname => ⟨d, ?_, rfl, id⟩
  have hother : d.name ≠ E.provider.databaseName k := fun hsame =>
    hk (Provider.databaseName_inj hmulti (hsame.symm.trans hname))
  rw [TenancyStore.dropDatabases, Table.get?_delete, hd]
  simp [hother]

/-- No step but those of a suspension or an offboarding takes anything back. -/
theorem kept_effect (h : Tracked E orgId s) (hsure : op.Sure E orgId s)
    (hguard : op.Undisturbing E orgId s) : Kept E orgId s (op.effect E s chance) := by
  cases op with
  | intending flow k => exact kept_beginProvisioning k
  | dbCreating flow k => exact kept_createDatabase _ _
  | connStoring flow k conn =>
    refine .of_update fun hk row hrow => ⟨fun conn' hconn' => ?_, id, id⟩
    -- The organization has one database, so the connection is the one that is stored.
    rw [h.only conn conn' (hsure hk).2 (h.stored conn' ⟨row, hrow, hconn'⟩)]
  | schemaApplying flow k conn => exact kept_applySchema conn
  | blobRecording flow k =>
    refine .of_update fun hk row _ => ⟨fun _ => id, fun _ => ⟨rfl, ?_⟩, id⟩
    rw [hk]
  | activating flow k => exact .of_update fun _ _ _ => ⟨fun _ => id, id, fun _ => rfl⟩
  | statusWriting k status => exact .of_update fun hk => absurd hk hguard
  | dropping flow k => exact kept_dropDatabases hsure hguard _
  | projectDeleting flow k conn => exact kept_dropDatabases hsure hguard _
  | orgDeleting k =>
    refine .of_registry rfl fun row hrow => ⟨row, ?_, fun _ => id, id, id⟩
    exact (Table.get?_delete_of_false s.registry fun _ =>
      decide_eq_false fun he => hguard he.symm).trans hrow
  | _ => exact .of_same rfl rfl

/-! ## What a step adds -/

/-- A connection that is new in the registry is the one of the step. -/
theorem conn_of_effect {conn : String} (h : StoredConn orgId (op.effect E s chance) conn) :
    StoredConn orgId s conn ∨ ∃ flow, op = .connStoring flow orgId conn := by
  obtain ⟨row, hrow, hconn⟩ := h
  have hupdate : ∀ k (f : TenantRow → TenantRow), (∀ row, (f row).dbConn = row.dbConn) →
      (s.updateTenant k f).get? orgId = some row → StoredConn orgId s conn := by
    intro k f hf hrow
    rw [TenancyStore.get?_updateTenant] at hrow
    split at hrow
    · obtain ⟨row', hrow', rfl⟩ := Option.map_eq_some_iff.1 hrow
      exact ⟨row', hrow', (hf row').symm.trans hconn⟩
    · exact ⟨row, hrow, hconn⟩
  cases op with
  | intending flow k =>
    left
    cases hbegin : s.beginProvisioning k with
    | none =>
      simp only [TenancyOp.effect, hbegin, Option.getD_none] at hrow
      exact ⟨row, hrow, hconn⟩
    | some registry =>
      simp only [TenancyOp.effect, hbegin, Option.getD_some] at hrow
      rw [(TenancyStore.get?_beginProvisioning hbegin orgId).2] at hrow
      cases hold : s.registry.get? orgId with
      | none =>
        rw [hold] at hrow
        split at hrow
        · cases hrow
          cases hconn
        · cases hrow
      | some row' =>
        rw [hold, Option.getD_some, ite_self] at hrow
        cases hrow
        exact ⟨row, hold, hconn⟩
  | connStoring flow k conn' =>
    simp only [TenancyOp.effect, TenancyStore.setTenantConn, TenancyStore.get?_updateTenant] at hrow
    split at hrow
    · rename_i hk
      obtain ⟨row', -, rfl⟩ := Option.map_eq_some_iff.1 hrow
      cases hconn
      exact .inr ⟨flow, by rw [hk]⟩
    · exact .inl ⟨row, hrow, hconn⟩
  | blobRecording flow k =>
    exact .inl (hupdate k (fun row => { row with blobMode := "prefix", blobScope := blobScope k })
      (fun _ => rfl) hrow)
  | activating flow k =>
    exact .inl (hupdate k (fun row => { row with status := .active }) (fun _ => rfl) hrow)
  | statusWriting k status =>
    exact .inl (hupdate k (fun row => { row with status := status }) (fun _ => rfl) hrow)
  | orgDeleting k => exact .inl ⟨row, (Table.get?_of_delete hrow).1, hconn⟩
  | _ => exact .inl ⟨row, hrow, hconn⟩

/-- The status of an organization changes with a new row, or with the last step of its
provisioning. -/
theorem status_of_effect {status : TenantStatus} (hguard : op.Undisturbing E orgId s)
    (h : (op.effect E s chance).statusOf orgId = some status) :
    s.statusOf orgId = some status ∨ status = .provisioning ∨
      status = .active ∧ ∃ flow, op = .activating flow orgId := by
  cases op with
  | intending flow k =>
    rcases statusOf_beginProvisioning s orgId k with hsame | ⟨-, hnew⟩
    · exact .inl (hsame.symm.trans h)
    · exact .inr (.inl (Option.some.inj (hnew.symm.trans h)).symm)
  | connStoring flow k conn =>
    have hsame : (TenancyOp.effect E s chance (.connStoring flow k conn)).statusOf orgId =
        s.statusOf orgId := statusOf_update rfl fun _ => rfl
    exact .inl (hsame.symm.trans h)
  | blobRecording flow k =>
    have hsame : (TenancyOp.effect E s chance (.blobRecording flow k)).statusOf orgId =
        s.statusOf orgId := statusOf_update rfl fun _ => rfl
    exact .inl (hsame.symm.trans h)
  | activating flow k =>
    simp only [TenancyOp.effect, statusOf_setTenantStatus] at h
    split at h
    · rename_i hk
      obtain ⟨-, -, rfl⟩ := Option.map_eq_some_iff.1 h
      exact .inr (.inr ⟨rfl, flow, by rw [hk]⟩)
    · exact .inl h
  | statusWriting k status' =>
    have hk : orgId ≠ k := fun he => hguard he.symm
    simp only [TenancyOp.effect, statusOf_setTenantStatus, if_neg hk] at h
    exact .inl h
  | orgDeleting k =>
    obtain ⟨row, hrow, hstatus⟩ := Option.map_eq_some_iff.1 h
    exact .inl (Option.map_eq_some_iff.2 ⟨row, (Table.get?_of_delete hrow).1, hstatus⟩)
  | _ => exact .inl h

/-- A database that is new is the one of the step. -/
theorem db_of_effect {conn : String} {d : TenantDb}
    (h : (op.effect E s chance).databases.get? conn = some d) :
    (∃ d', s.databases.get? conn = some d' ∧ d'.name = d.name) ∨
      ∃ flow k, op = .dbCreating flow k ∧ conn = E.provider.connFor k chance.conn ∧
        s.databases.has conn = false ∧ d.name = E.provider.databaseName k := by
  cases op with
  | dbCreating flow k =>
    cases hcreate : s.createDatabase (E.provider.connFor k chance.conn)
        (E.provider.databaseName k) with
    | none =>
      simp only [TenancyOp.effect, hcreate, Option.getD_none] at h
      exact .inl ⟨d, h, rfl⟩
    | some databases =>
      simp only [TenancyOp.effect, hcreate, Option.getD_some] at h
      rw [TenancyStore.get?_createDatabase hcreate] at h
      split at h
      · rename_i hconn
        cases h
        exact .inr ⟨flow, k, rfl, hconn, hconn ▸ Table.has_of_insert? hcreate, rfl⟩
      · exact .inl ⟨d, h, rfl⟩
  | schemaApplying flow k conn' =>
    left
    cases happly : s.applySchema conn' with
    | none =>
      simp only [TenancyOp.effect, happly, Option.getD_none] at h
      exact ⟨d, h, rfl⟩
    | some databases =>
      simp only [TenancyOp.effect, happly, Option.getD_some] at h
      rw [TenancyStore.get?_applySchema happly] at h
      split at h
      · obtain ⟨d', hd', rfl⟩ := Option.map_eq_some_iff.1 h
        exact ⟨d', hd', rfl⟩
      · exact ⟨d, h, rfl⟩
  | dropping flow k => exact .inl ⟨d, (Table.get?_of_delete h).1, rfl⟩
  | projectDeleting flow k conn' => exact .inl ⟨d, (Table.get?_of_delete h).1, rfl⟩
  | _ => exact .inl ⟨d, h, rfl⟩

/-- A new database at a derived connection has the name that belongs there. -/
theorem databaseName_of_connFor {P : Provider} {k k' : Int64} {answer : String}
    (h : P.deriveConn k = some (P.connFor k' answer)) : P.databaseName k' = P.databaseName k := by
  cases P with
  | localDb baseUrl => exact Provider.databaseName_of_deriveConn (P := .localDb baseUrl) rfl h
  | single conn => rfl
  | neon => cases h

/-- A server that hosts itself has its database for every organization. -/
theorem Provided.ownDb {conn : String} (h : Provided E s) (hsingle : E.provider = .single conn) :
    OwnDb E orgId s conn := by
  obtain ⟨d, hd⟩ := Option.isSome_iff_exists.1 (h.installed conn hsingle)
  exact ⟨d, hd, h.derived conn d orgId hd (by rw [hsingle]; rfl)⟩

/-- The derived connection of an organization is the one under which its database is made. -/
theorem connFor_of_databaseName {P : Provider} {k k' : Int64} {answer conn : String}
    (hname : P.databaseName k' = P.databaseName k) (h : P.deriveConn k = some conn) :
    P.connFor k' answer = conn := by
  cases P with
  | localDb baseUrl =>
    rw [dbName_inj hname, Provider.connFor, h, Option.getD_some]
  | single conn' => exact Option.some.inj h
  | neon => cases h

theorem provided_effect (h : Provided E s) (hkept : Kept E orgId s (op.effect E s chance)) :
    Provided E (op.effect E s chance) := by
  refine ⟨fun conn d k hd hderive => ?_, fun conn conn' d k hd hname hderive => ?_,
    fun conn hsingle => ?_⟩
  · rcases db_of_effect hd with ⟨d', hd', hname⟩ | ⟨flow, k', rfl, rfl, -, hname⟩
    · exact hname.symm.trans (h.derived conn d' k hd' hderive)
    · exact hname.trans (databaseName_of_connFor hderive)
  · rcases db_of_effect hd with ⟨d', hd', hsame⟩ | ⟨flow, k', rfl, rfl, -, hnew⟩
    · exact h.named conn conn' d' k hd' (hsame.trans hname) hderive
    · exact connFor_of_databaseName (hnew.symm.trans hname) hderive
  · obtain ⟨d, hd, -⟩ := hkept.own conn (h.ownDb hsingle)
    exact Option.isSome_iff_exists.2 ⟨d, hd⟩

theorem has_cacheMapping {k k' pick : Int64} {m : CachedMapping}
    (h : (s.cacheMapping k m pick).has k' = true) : k' = k ∨ s.cache.has k' = true := by
  obtain ⟨m', hm'⟩ := Option.isSome_iff_exists.1 h
  rcases TenancyStore.get?_of_cacheMapping hm' with ⟨hk, -⟩ | hm'
  · exact .inl hk
  · exact .inr (Option.isSome_iff_exists.2 ⟨m', hm'⟩)

theorem cached_of_effect (h : (op.effect E s chance).cache.has orgId = true) :
    s.cache.has orgId = true ∨ ∃ call cached, op = .caching call cached ∧ call.orgId = orgId := by
  cases op with
  | caching call cached =>
    rcases has_cacheMapping h with hk | h
    · exact .inr ⟨call, cached, rfl, hk.symm⟩
    · exact .inl h
  | mappingForgetting flow k =>
    obtain ⟨m, hm⟩ := Option.isSome_iff_exists.1 h
    exact .inl (Option.isSome_iff_exists.2 ⟨m, (Table.get?_of_delete hm).1⟩)
  | _ => exact .inl h

theorem tracked_effect (h : Tracked E orgId s) (hsure : op.Sure E orgId s)
    (hguard : op.Undisturbing E orgId s) : Tracked E orgId (op.effect E s chance) := by
  have hkept : Kept E orgId s (op.effect E s chance) := kept_effect h hsure hguard
  have hown : ∀ conn, OwnDb E orgId (op.effect E s chance) conn → OwnDb E orgId s conn ∨
      (∀ conn', ¬ OwnDb E orgId s conn') ∧ conn = E.provider.connFor orgId chance.conn := by
    rintro conn ⟨d, hd, hname⟩
    rcases db_of_effect hd with ⟨d', hd', hsame⟩ | ⟨flow, k, rfl, rfl, hfree, hnew⟩
    · exact .inl ⟨d', hd', hsame.trans hname⟩
    · cases hmulti : E.provider.singleTenant with
      | none =>
        have hk : k = orgId := Provider.databaseName_inj hmulti (hnew.symm.trans hname)
        subst hk
        refine .inr ⟨fun conn' hconn' => ?_, rfl⟩
        obtain ⟨d', hd', hname'⟩ := hconn'
        cases hderive : E.provider.deriveConn k with
        | some derived =>
          -- The database of the organization is where the new one is to be.
          rw [Provider.connFor, hderive, Option.getD_some] at hfree
          rw [h.provided.named conn' derived d' k hd' hname' hderive,
            Table.has_eq_false_iff.1 hfree] at hd'
          cases hd'
        | none =>
          have hneon : E.provider = .neon := by
            cases hprovider : E.provider with
            | neon => rfl
            | localDb | single =>
              rw [hprovider] at hderive
              cases hderive
          exact hguard rfl hneon conn' ⟨d', hd', hname'⟩
      | some fixed =>
        -- The one database is there, and a second one has no connection of its own.
        cases hprovider : E.provider with
        | single conn =>
          have hinstalled := h.provided.installed conn hprovider
          rw [hprovider] at hfree
          exact absurd hinstalled (Bool.not_eq_true _ ▸ hfree)
        | localDb url =>
          rw [hprovider] at hmulti
          cases hmulti
        | neon =>
          rw [hprovider] at hmulti
          cases hmulti
  refine ⟨provided_effect h.provided hkept, fun conn conn' hconn hconn' => ?_, fun conn hconn => ?_,
    fun status hstatus => ?_, fun hactive => ?_, fun hmulti hcached => ?_⟩
  · rcases hown conn hconn with hold | ⟨hnone, rfl⟩
    · rcases hown conn' hconn' with hold' | ⟨hnone, -⟩
      · exact h.only conn conn' hold hold'
      · exact absurd hold (hnone conn)
    · rcases hown conn' hconn' with hold' | ⟨-, rfl⟩
      · exact absurd hold' (hnone conn')
      · rfl
  · rcases conn_of_effect hconn with hold | ⟨flow, rfl⟩
    · exact hkept.own conn (h.stored conn hold)
    · exact hkept.own conn (hsure rfl).2
  · rcases status_of_effect hguard hstatus with hold | hnew | ⟨hnew, -⟩
    · exact h.status status hold
    · exact .inl hnew
    · exact .inr hnew
  · rcases status_of_effect hguard hactive with hold | hnew | ⟨-, flow, rfl⟩
    · exact (h.complete hold).mono hkept
    · cases hnew
    · obtain ⟨conn, hconn, hschema, hscope⟩ := hsure rfl
      exact complete_of_facts (hkept.conn conn hconn) (hkept.schema conn hschema)
        (hkept.scope hscope) hactive
  · rcases cached_of_effect hcached with hold | ⟨call, cached, rfl, hk⟩
    · exact hkept.active (h.cached hmulti hold)
    · exact hkept.active (hsure hmulti hk)

/-! ## What a step leads to -/

theorem sure_afterProvisioning (flow : ProvisionFlow) (k : Int64) (ok : Bool) :
    (afterProvisioning flow k ok).Sure E orgId s := by
  cases flow with
  | request => cases ok <;> trivial
  | reconcile rest => cases rest <;> trivial

theorem sure_afterDeprovision (flow : TeardownFlow) (k : Int64) :
    (afterDeprovision flow k).Sure E orgId s := by
  cases flow <;> trivial

theorem sure_deprovision (flow : TeardownFlow) (k : Int64) :
    (E.provider.deprovision flow k).Sure E orgId s := by
  cases hprovider : E.provider with
  | single conn => exact sure_afterDeprovision flow k
  | localDb url =>
    show E.provider.singleTenant = none
    rw [hprovider]
    rfl
  | neon =>
    show E.provider.singleTenant = none
    rw [hprovider]
    rfl

/-- The database that the provider finds is the organization's. -/
theorem ownDb_of_findTenantDb {answer conn : String} (h : Provided E s)
    (hfind : s.findTenantDb E.provider orgId answer = some conn) : OwnDb E orgId s conn := by
  cases hprovider : E.provider with
  | single conn' =>
    rw [hprovider] at hfind
    cases hfind
    exact h.ownDb hprovider
  | localDb url | neon =>
    obtain ⟨d, hd, hname⟩ := TenancyStore.findDatabase_eq_some (by rwa [hprovider] at hfind)
    exact ⟨d, hd, by rw [hname, hprovider]⟩

/-- A step leads to one that may rely on what it needs. -/
theorem sure_next (h : Tracked E orgId s) (hsure : op.Sure E orgId s)
    (hguard : op.Undisturbing E orgId s) :
    (op.next E s chance (op.hears chance)).Sure E orgId
      (if op.takes chance then op.effect E s chance else s) := by
  have hkept : Kept E orgId s (if op.takes chance then op.effect E s chance else s) := by
    split
    · exact kept_effect h hsure hguard
    · exact .of_same rfl rfl
  -- What takes effect, takes effect before the answer.
  have heffect : op.hears chance = true →
      (if op.takes chance then op.effect E s chance else s) = op.effect E s chance := fun hhears =>
    if_pos (TenancyOp.takes_of_hears hhears)
  generalize (if op.takes chance then op.effect E s chance else s) = s' at hkept heffect ⊢
  cases op with
  | resolving call =>
    refine TenancyOp.Sure.mono ?_ hkept
    simp only [TenancyOp.next]
    split
    · rename_i fixed hsingle
      split
      · exact fun hmulti => by cases hsingle.symm.trans hmulti
      · trivial
    · split
      · rename_i mapping hmapping
        intro hmulti horg
        obtain ⟨m, hm, -⟩ := TenancyStore.cachedMapping_eq_some hmapping
        exact h.cached hmulti (Option.isSome_iff_exists.2 ⟨m, horg ▸ hm⟩)
      · trivial
  | registryReading call =>
    refine TenancyOp.Sure.mono ?_ hkept
    simp only [TenancyOp.next]
    split
    · rcases afterRegistry_cases E.provider call s.now (s.registry.get? call.orgId) with
        ⟨error, hafter⟩ | ⟨row, mapping, hrow, hactive, -, hafter⟩
      · rw [hafter]
        trivial
      · rw [hafter]
        intro _ horg
        rw [TenancyStore.statusOf, ← horg, hrow, Option.map_some, hactive]
    · trivial
  | stamping call mapping readAt =>
    exact (show (TenancyOp.caching call ⟨mapping, s.now⟩).Sure E orgId s from hsure).mono hkept
  | caching call cached =>
    exact (show (TenancyOp.poolGetting call call.orgId cached.mapping).Sure E orgId s from
      hsure).mono hkept
  | poolGetting call k mapping =>
    refine TenancyOp.Sure.mono ?_ hkept
    simp only [TenancyOp.next]
    split <;> exact hsure
  | connecting call k mapping =>
    refine TenancyOp.Sure.mono ?_ hkept
    simp only [TenancyOp.next]
    split
    · exact hsure
    · trivial
  | pooling call k mapping =>
    refine TenancyOp.Sure.mono ?_ hkept
    exact hsure
  | served call tenant =>
    exact (show (TenancyOp.served call tenant).Sure E orgId s from hsure).mono hkept
  | intentReading flow k =>
    refine TenancyOp.Sure.mono ?_ hkept
    simp only [TenancyOp.next]
    split
    · rename_i hrow
      exact fun hk => hk ▸ (Bool.and_eq_true_iff.1 hrow).2
    · exact sure_afterProvisioning flow k false
  | dbFinding flow k =>
    refine TenancyOp.Sure.mono ?_ hkept
    simp only [TenancyOp.next]
    split
    · split
      · rename_i conn hfind
        exact fun hk => ⟨hsure hk, ownDb_of_findTenantDb h.provided (hk ▸ hfind)⟩
      · exact hsure
    · exact sure_afterProvisioning flow k false
  | dbCreating flow k =>
    simp only [TenancyOp.next]
    split
    · rename_i hcreate
      obtain ⟨hhears, hsome⟩ := Bool.and_eq_true_iff.1 hcreate
      obtain ⟨databases, hdatabases⟩ := Option.isSome_iff_exists.1 hsome
      refine fun hk => ⟨hkept.row (hsure hk), ?_⟩
      rw [heffect hhears]
      refine ⟨{ name := E.provider.databaseName k }, ?_, by rw [hk]⟩
      simp only [TenancyOp.effect, hdatabases, Option.getD_some,
        TenancyStore.get?_createDatabase hdatabases, if_pos]
    · split
      · exact fun hk => hkept.row (hsure hk)
      · exact sure_afterProvisioning flow k false
  | dbRechecking flow k =>
    refine TenancyOp.Sure.mono ?_ hkept
    simp only [TenancyOp.next]
    split
    · rename_i conn hfind
      obtain ⟨-, hfind⟩ := Option.ite_none_right_eq_some.1 hfind
      exact fun hk => ⟨hsure hk, ownDb_of_findTenantDb h.provided (hk ▸ hfind)⟩
    · exact sure_afterProvisioning flow k false
  | connStoring flow k conn =>
    simp only [TenancyOp.next]
    split
    · rename_i hhears
      refine fun hk => ⟨hkept.own conn (hsure hk).2, ?_⟩
      obtain ⟨row, hrow⟩ := Option.isSome_iff_exists.1 (hsure hk).1
      rw [heffect hhears]
      refine ⟨{ row with dbConn := some conn }, ?_, rfl⟩
      simp only [TenancyOp.effect, TenancyStore.setTenantConn, TenancyStore.get?_updateTenant,
        if_pos hk.symm, hrow, Option.map_some]
    · exact sure_afterProvisioning flow k false
  | schemaApplying flow k conn =>
    simp only [TenancyOp.next]
    split
    · rename_i happly
      obtain ⟨hhears, hsome⟩ := Bool.and_eq_true_iff.1 happly
      obtain ⟨databases, hdatabases⟩ := Option.isSome_iff_exists.1 hsome
      intro hk
      obtain ⟨⟨d, hd, hname⟩, hconn⟩ := hsure hk
      refine ⟨conn, hkept.conn conn hconn, ?_⟩
      rw [heffect hhears, SchemaAt]
      simp only [TenancyOp.effect, hdatabases, Option.getD_some,
        TenancyStore.get?_applySchema hdatabases, if_pos, hd, Option.map_some, hname]
    · exact sure_afterProvisioning flow k false
  | blobRecording flow k =>
    simp only [TenancyOp.next]
    split
    · rename_i hhears
      intro hk
      obtain ⟨conn, hconn, hschema⟩ := hsure hk
      refine ⟨conn, hkept.conn conn hconn, hkept.schema conn hschema, ?_⟩
      obtain ⟨row, hrow, -⟩ := hconn
      rw [heffect hhears]
      refine ⟨{ row with blobMode := "prefix", blobScope := blobScope k }, ?_, rfl, by rw [hk]⟩
      simp only [TenancyOp.effect, TenancyStore.setTenantBlob, TenancyStore.get?_updateTenant,
        if_pos hk.symm, hrow, Option.map_some]
    · exact sure_afterProvisioning flow k false
  | activating flow k => exact sure_afterProvisioning flow k _
  | intending flow k =>
    simp only [TenancyOp.next]
    split
    · trivial
    · exact sure_afterProvisioning flow k false
  | pendingListing =>
    simp only [TenancyOp.next]
    split
    · split <;> trivial
    · trivial
  | statusReading k status =>
    simp only [TenancyOp.next]
    split
    · trivial
    · split <;> trivial
  | scopeReading k =>
    simp only [TenancyOp.next]
    split
    · split
      · trivial
      · exact sure_deprovision .route k
    · trivial
  | scopeListing k =>
    simp only [TenancyOp.next]
    split
    · exact sure_deprovision _ k
    · trivial
  | scopeDeleting flow k scope =>
    simp only [TenancyOp.next]
    split
    · split
      · exact sure_deprovision .route k
      · trivial
    · trivial
  | adminConnecting flow k =>
    simp only [TenancyOp.next]
    split
    · exact hsure
    · trivial
  | terminating flow k => exact hsure
  | dropping flow k => exact sure_afterDeprovision flow k
  | projectFinding flow k =>
    simp only [TenancyOp.next]
    split
    · split
      · exact hsure
      · exact sure_afterDeprovision flow k
    · trivial
  | projectDeleting flow k conn =>
    simp only [TenancyOp.next]
    split
    · exact sure_afterDeprovision flow k
    · trivial
  | poolForgetting flow k => cases flow <;> trivial
  | refused | statusWriting | mappingForgetting | orgDeleting | finished => trivial

/-! ## The writes of others -/

theorem kept_write {c : TenancyWrite} (hwrite : tenancyWrite E s c = some s')
    (hguard : ∀ k conn, c = .rotate k conn → k ≠ orgId) : Kept E orgId s s' := by
  cases c with
  | tick now =>
    obtain ⟨-, heq⟩ := Option.ite_none_right_eq_some.1 hwrite
    cases heq
    exact .of_same rfl rfl
  | createOrg k =>
    obtain ⟨-, heq⟩ := Option.ite_none_left_eq_some.1 hwrite
    cases heq
    exact .of_same rfl rfl
  | rotate k conn =>
    cases hwrite
    exact .of_update fun hk => absurd hk (hguard k conn rfl)
  | _ =>
    cases hwrite
    exact .of_same rfl rfl

theorem Tracked.with_objects (h : Tracked E orgId s) (objects : Objects) :
    Tracked E orgId { s with objects := objects } :=
  ⟨⟨h.provided.derived, h.provided.named, h.provided.installed⟩, h.only, h.stored, h.status,
    h.complete, h.cached⟩

theorem tracked_write {c : TenancyWrite} (h : Tracked E orgId s)
    (hwrite : tenancyWrite E s c = some s') (hguard : ∀ k conn, c = .rotate k conn → k ≠ orgId) :
    Tracked E orgId s' := by
  cases c with
  | tick now =>
    obtain ⟨-, heq⟩ := Option.ite_none_right_eq_some.1 hwrite
    cases heq
    exact ⟨⟨h.provided.derived, h.provided.named, h.provided.installed⟩, h.only, h.stored, h.status,
      h.complete, h.cached⟩
  | createOrg k =>
    obtain ⟨-, heq⟩ := Option.ite_none_left_eq_some.1 hwrite
    cases heq
    exact ⟨⟨h.provided.derived, h.provided.named, h.provided.installed⟩, h.only, h.stored, h.status,
      h.complete, h.cached⟩
  | rotate k conn =>
    have hkept := kept_write (E := E) hwrite hguard
    cases hwrite
    have hrow : (s.setTenantConn k conn).get? orgId = s.registry.get? orgId := by
      rw [TenancyStore.setTenantConn, TenancyStore.get?_updateTenant,
        if_neg fun he => hguard k conn rfl he.symm]
    have hstatus : ({ s with registry := s.setTenantConn k conn } : TenancyStore).statusOf orgId =
        s.statusOf orgId := congrArg (Option.map TenantRow.status) hrow
    refine ⟨⟨h.provided.derived, h.provided.named, h.provided.installed⟩, h.only,
      fun conn' hconn => ?_, fun status hget => h.status status (hstatus.symm.trans hget), fun hactive => ?_,
      fun hmulti hcached => hstatus.trans (h.cached hmulti hcached)⟩
    · obtain ⟨row, hget, hconn⟩ := hconn
      exact h.stored conn' ⟨row, hrow.symm.trans hget, hconn⟩
    · exact (h.complete (hstatus.symm.trans hactive)).mono hkept
  | forgetMapping k =>
    cases hwrite
    refine ⟨⟨h.provided.derived, h.provided.named, h.provided.installed⟩, h.only, h.stored,
      h.status, h.complete, fun hmulti hcached => h.cached hmulti ?_⟩
    obtain ⟨m, hm⟩ := Option.isSome_iff_exists.1 hcached
    exact Option.isSome_iff_exists.2 ⟨m, (Table.get?_of_delete hm).1⟩
  | putBlob =>
    cases hwrite
    exact h.with_objects _
  | forgetPool | sweepIdle =>
    cases hwrite
    exact ⟨⟨h.provided.derived, h.provided.named, h.provided.installed⟩, h.only, h.stored, h.status,
      h.complete, h.cached⟩

theorem sure_starts (h : op.starts E s = true) : op.Sure E orgId s := by
  cases op with
  | resolving | registryReading | pendingListing | intending | intentReading | statusReading
  | statusWriting | scopeReading | scopeListing | scopeDeleting | mappingForgetting | poolForgetting
  | orgDeleting | refused | finished => trivial
  | _ => exact Bool.noConfusion h

end Steps

/-! ## Runs -/

section Runs

variable {E : TenancyEnv} {orgId : Int64}

theorem keepsOutline_sure : KeepsOutline (tenancy E) (Undisturbed E orgId) (Tracked E orgId)
    (fun s op => op.Sure E orgId s) fun _ _ => True where
  start s s' op _ _ hstarts := ⟨sure_starts hstarts, fun _ _ => trivial⟩
  advance s s' i chance op store next h hguard hop hnext := by
    have hsure := h.each op (List.mem_of_getElem? hop)
    have hguard := hguard op hop
    obtain ⟨-, rfl, rfl⟩ := tenancyNext_eq_some hnext
    refine ⟨?_, fun o ho => ?_, fun op' heq => ⟨?_, fun _ _ => trivial⟩⟩
    · split
      · exact tracked_effect h.store hsure hguard
      · exact h.store
    · refine (h.each o (List.mem_of_mem_eraseIdx ho)).mono ?_
      split
      · exact kept_effect h.store hsure hguard
      · exact .of_same rfl rfl
    · cases heq
      exact sure_next h.store hsure hguard
  commit s s' c store h hguard hwrite := by
    have hguard : ∀ k conn, c = .rotate k conn → k ≠ orgId := by
      rintro k conn rfl
      exact hguard
    exact ⟨tracked_write h.store hwrite hguard, fun o ho => (h.each o ho).mono (kept_write hwrite hguard)⟩

end Runs

/-! ## One pass of the reconciler -/

section Reconciler

variable {E : TenancyEnv} {orgId : Int64} {s : TenancyStore} {chance : TenancyChance}
  {op : TenancyOp}

/-- An organization is still to come in the pass, unless it is active. -/
def ToDo (orgId : Int64) (s : TenancyStore) (flow : ProvisionFlow) (k : Int64) : Prop :=
  ∃ rest, flow = .reconcile rest ∧ k ∈ s.orgs ∧ (∀ r ∈ rest, r ∈ s.orgs) ∧
    (s.statusOf orgId = some .active ∨ k = orgId ∨ orgId ∈ rest)

/-- Where a pass of the reconciler is, when nothing fails. -/
def TenancyOp.Reconciles (E : TenancyEnv) (orgId : Int64) (s : TenancyStore) : TenancyOp → Prop
  | pendingListing => s.registry.has orgId = true ∧ ∀ k ∈ s.provisioningTenants, k ∈ s.orgs
  | intending flow k => ToDo orgId s flow k
  | intentReading flow k | dbFinding flow k | blobRecording flow k | activating flow k =>
    ToDo orgId s flow k ∧ s.registry.has k = true
  | dbCreating flow k =>
    ToDo orgId s flow k ∧ s.registry.has k = true ∧ E.provider.singleTenant = none ∧
      ∀ conn d, s.databases.get? conn = some d → d.name ≠ E.provider.databaseName k
  | connStoring flow k conn | schemaApplying flow k conn =>
    ToDo orgId s flow k ∧ s.registry.has k = true ∧ s.databases.has conn = true
  | finished ok => ok = true ∧ s.statusOf orgId = some .active
  | _ => False

/-- The steps that are left, at most. -/
def TenancyOp.stepsLeft (s : TenancyStore) : TenancyOp → Nat
  | pendingListing => 9 * s.provisioningTenants.length + 1
  | intending (.reconcile rest) _ => 9 * rest.length + 9
  | intentReading (.reconcile rest) _ => 9 * rest.length + 8
  | dbFinding (.reconcile rest) _ => 9 * rest.length + 7
  | dbCreating (.reconcile rest) _ => 9 * rest.length + 6
  | connStoring (.reconcile rest) _ _ => 9 * rest.length + 5
  | schemaApplying (.reconcile rest) _ _ => 9 * rest.length + 4
  | blobRecording (.reconcile rest) _ => 9 * rest.length + 3
  | activating (.reconcile rest) _ => 9 * rest.length + 2
  | _ => 0

theorem undisturbing_of_reconciles (h : op.Reconciles E orgId s) : op.Undisturbing E orgId s := by
  cases op with
  | dbCreating flow k =>
    rintro rfl - conn ⟨d, hd, hname⟩
    exact h.2.2.2 conn d hd hname
  | statusWriting | orgDeleting | dropping | projectDeleting => exact h.elim
  | _ => trivial

/-- There is always a connection that no database has. -/
theorem exists_free_conn (databases : Table String TenantDb) :
    ∃ conn, databases.has conn = false := by
  obtain ⟨conn, hconn⟩ := Infinite.exists_notMem_finset (databases.rows.map Prod.fst).toFinset
  refine ⟨conn, ?_⟩
  rw [← Bool.not_eq_true, Table.has_iff_mem_keys]
  exact fun hmem => hconn (List.mem_toFinset.2 hmem)

/-- The call of a step can succeed. -/
theorem exists_succeeds (h : Tracked E orgId s) (hop : op.Reconciles E orgId s) :
    ∃ chance, op.Succeeds E s chance := by
  cases op with
  | dbCreating flow k =>
    obtain ⟨-, -, -, hnone⟩ := hop
    obtain ⟨conn, hconn⟩ := exists_free_conn s.databases
    refine ⟨{ conn := conn }, rfl, ?_⟩
    have hfree : s.databases.has (E.provider.connFor k conn) = false := by
      cases hderive : E.provider.deriveConn k with
      | none => rwa [Provider.connFor, hderive]
      | some derived =>
        rw [Provider.connFor, hderive, Option.getD_some, Table.has_eq_false_iff]
        cases hd : s.databases.get? derived with
        | none => rfl
        | some d => exact absurd (h.provided.derived derived d k hd hderive) (hnone derived d hd)
    show (s.databases.insert? _ _).isSome = true
    rw [Table.insert?, dif_pos hfree]
    rfl
  | scopeDeleting => exact hop.elim
  | _ => exact ⟨{}, rfl, trivial⟩

theorem ToDo.kept {s' : TenancyStore} {flow : ProvisionFlow} {k : Int64} (h : ToDo orgId s flow k)
    (horgs : s'.orgs = s.orgs) (hkept : Kept E orgId s s') : ToDo orgId s' flow k := by
  obtain ⟨rest, hflow, hk, hrest, hcomes⟩ := h
  exact ⟨rest, hflow, horgs ▸ hk, horgs ▸ hrest, hcomes.imp_left hkept.active⟩

/-- Where the pass goes with an organization that is active, and how far it is then. -/
theorem reconciles_afterProvisioning {flow : ProvisionFlow} {k : Int64} (h : ToDo orgId s flow k)
    (hactive : k = orgId → s.statusOf orgId = some .active) :
    (afterProvisioning flow k true).Reconciles E orgId s ∧
      (afterProvisioning flow k true).stepsLeft s < (TenancyOp.activating flow k).stepsLeft s := by
  obtain ⟨rest, rfl, -, hrest, hcomes⟩ := h
  have hcomes : s.statusOf orgId = some .active ∨ orgId ∈ rest := by
    rcases hcomes with hdone | hk | hcomes
    · exact .inl hdone
    · exact .inl (hactive hk)
    · exact .inr hcomes
  cases rest with
  | nil =>
    refine ⟨⟨rfl, hcomes.resolve_right List.not_mem_nil⟩, ?_⟩
    simp only [afterProvisioning, TenancyOp.stepsLeft]
    omega
  | cons next rest =>
    refine ⟨⟨rest, rfl, hrest next List.mem_cons_self,
      fun r hr => hrest r (List.mem_cons_of_mem next hr), hcomes.imp_right fun hmem => ?_⟩, ?_⟩
    · exact (List.mem_cons.1 hmem).imp_left Eq.symm
    · simp only [afterProvisioning, TenancyOp.stepsLeft, List.length_cons]
      omega

theorem mem_provisioningTenants {k : Int64} :
    k ∈ s.provisioningTenants ↔ s.statusOf k = some .provisioning := by
  simp only [TenancyStore.provisioningTenants, List.mem_map, List.mem_filter, decide_eq_true_eq]
  constructor
  · rintro ⟨r, ⟨hr, hstatus⟩, rfl⟩
    rw [TenancyStore.statusOf, Table.get?_eq_some_iff.2 hr, Option.map_some, hstatus]
  · intro h
    obtain ⟨row, hrow, hstatus⟩ := Option.map_eq_some_iff.1 h
    exact ⟨(k, row), ⟨Table.get?_eq_some_iff.1 hrow, hstatus⟩, rfl⟩

theorem has_provisioningTenants {k : Int64} (h : k ∈ s.provisioningTenants) :
    s.registry.has k = true := by
  obtain ⟨row, hrow, -⟩ := Option.map_eq_some_iff.1 (mem_provisioningTenants.1 h)
  exact Option.isSome_iff_exists.2 ⟨row, hrow⟩

/-- A step of the pass that succeeds leads to the next one. -/
theorem reconciles_next (h : Tracked E orgId s) (hsure : op.Sure E orgId s)
    (hop : op.Reconciles E orgId s) (hok : op.Succeeds E s chance) (hover : op.isOver = false) :
    (op.next E s chance true).Reconciles E orgId (op.effect E s chance) ∧
      (op.next E s chance true).stepsLeft (op.effect E s chance) < op.stepsLeft s := by
  have hkept : Kept E orgId s (op.effect E s chance) :=
    kept_effect h hsure (undisturbing_of_reconciles hop)
  cases op with
  | pendingListing =>
    obtain ⟨hrow, horgs⟩ := hop
    have hcomes : s.statusOf orgId = some .active ∨ orgId ∈ s.provisioningTenants := by
      obtain ⟨row, hrow⟩ := Option.isSome_iff_exists.1 hrow
      have hstatus : s.statusOf orgId = some row.status := by
        rw [TenancyStore.statusOf, hrow, Option.map_some]
      rcases h.status row.status hstatus with hnew | hactive
      · exact .inr (mem_provisioningTenants.2 (hstatus.trans (congrArg some hnew)))
      · exact .inl (hstatus.trans (congrArg some hactive))
    simp only [TenancyOp.next, TenancyOp.effect, if_pos]
    cases hpending : s.provisioningTenants with
    | nil =>
      rw [hpending] at hcomes
      refine ⟨⟨rfl, hcomes.resolve_right List.not_mem_nil⟩, ?_⟩
      simp only [TenancyOp.stepsLeft]
      omega
    | cons k rest =>
      rw [hpending] at hcomes horgs
      refine ⟨⟨rest, rfl, horgs k List.mem_cons_self,
        fun r hr => horgs r (List.mem_cons_of_mem k hr), hcomes.imp_right fun hmem => ?_⟩, ?_⟩
      · exact (List.mem_cons.1 hmem).imp_left Eq.symm
      · simp only [TenancyOp.stepsLeft, hpending, List.length_cons]
        omega
  | intending flow k =>
    have htodo : ToDo orgId (TenancyOp.effect E s chance (.intending flow k)) flow k :=
      hop.kept rfl hkept
    obtain ⟨rest, rfl, hk, -⟩ := hop
    obtain ⟨registry, hbegin⟩ : ∃ registry, s.beginProvisioning k = some registry :=
      ⟨_, if_pos (List.contains_iff_mem.2 hk)⟩
    have hhas : registry.has k = true := by
      rw [Table.has, (TenancyStore.get?_beginProvisioning hbegin k).2, if_pos rfl]
      rfl
    simp only [TenancyOp.next, hbegin, Option.isSome_some, Bool.and_true, if_pos]
    refine ⟨⟨htodo, ?_⟩, ?_⟩
    · simp only [TenancyOp.effect, hbegin, Option.getD_some]
      exact hhas
    · simp only [TenancyOp.stepsLeft]
      omega
  | intentReading flow k =>
    obtain ⟨htodo, hhas⟩ := hop
    simp only [TenancyOp.next, hhas, Bool.and_true, if_pos]
    refine ⟨⟨htodo.kept rfl hkept, hhas⟩, ?_⟩
    obtain ⟨rest, rfl, -⟩ := htodo
    simp only [TenancyOp.stepsLeft]
    omega
  | dbFinding flow k =>
    obtain ⟨htodo, hhas⟩ := hop
    simp only [TenancyOp.next, if_pos]
    cases hfind : s.findTenantDb E.provider k chance.conn with
    | none =>
      have hmulti : E.provider.singleTenant = none := by
        cases hprovider : E.provider with
        | single conn =>
          rw [hprovider] at hfind
          cases hfind
        | localDb | neon => rfl
      refine ⟨⟨htodo.kept rfl hkept, hhas, hmulti, fun conn d hd => ?_⟩, ?_⟩
      · have hnone : s.findDatabase (E.provider.databaseName k) chance.conn = none := by
          cases hprovider : E.provider with
          | single conn =>
            rw [hprovider] at hfind
            cases hfind
          | localDb | neon => rwa [hprovider] at hfind
        exact TenancyStore.findDatabase_eq_none hnone hd
      · obtain ⟨rest, rfl, -⟩ := htodo
        simp only [TenancyOp.stepsLeft]
        omega
    | some conn =>
      obtain ⟨d, hd, -⟩ := ownDb_of_findTenantDb h.provided hfind
      refine ⟨⟨htodo.kept rfl hkept, hhas, Option.isSome_iff_exists.2 ⟨d, hd⟩⟩, ?_⟩
      obtain ⟨rest, rfl, -⟩ := htodo
      simp only [TenancyOp.stepsLeft]
      omega
  | dbCreating flow k =>
    obtain ⟨htodo, hhas, -⟩ := hop
    have hsome := hok.2
    simp only [TenancyOp.next, hsome, Bool.and_true, if_pos]
    obtain ⟨databases, hdatabases⟩ := Option.isSome_iff_exists.1 hsome
    refine ⟨⟨htodo.kept rfl hkept, hhas, ?_⟩, ?_⟩
    · simp only [TenancyOp.effect, hdatabases, Option.getD_some]
      exact (Table.has_insert? hdatabases _).trans (by simp)
    · obtain ⟨rest, rfl, -⟩ := htodo
      simp only [TenancyOp.stepsLeft]
      omega
  | connStoring flow k conn =>
    obtain ⟨htodo, hhas, hdb⟩ := hop
    simp only [TenancyOp.next, if_pos]
    refine ⟨⟨htodo.kept rfl hkept, (TenancyStore.has_updateTenant s k _ k).trans hhas, hdb⟩, ?_⟩
    obtain ⟨rest, rfl, -⟩ := htodo
    simp only [TenancyOp.stepsLeft]
    omega
  | schemaApplying flow k conn =>
    obtain ⟨htodo, hhas, hdb⟩ := hop
    have hsome : (s.applySchema conn).isSome = true := by
      rw [TenancyStore.applySchema, if_pos hdb]
      rfl
    simp only [TenancyOp.next, hsome, Bool.and_true, if_pos]
    refine ⟨⟨htodo.kept rfl hkept, hhas⟩, ?_⟩
    obtain ⟨rest, rfl, -⟩ := htodo
    simp only [TenancyOp.stepsLeft]
    omega
  | blobRecording flow k =>
    obtain ⟨htodo, hhas⟩ := hop
    simp only [TenancyOp.next, if_pos]
    refine ⟨⟨htodo.kept rfl hkept, (TenancyStore.has_updateTenant s k _ k).trans hhas⟩, ?_⟩
    obtain ⟨rest, rfl, -⟩ := htodo
    simp only [TenancyOp.stepsLeft]
    omega
  | activating flow k =>
    obtain ⟨htodo, hhas⟩ := hop
    have hactive : k = orgId →
        (TenancyOp.effect E s chance (.activating flow k)).statusOf orgId = some .active := by
      rintro rfl
      obtain ⟨row, hrow⟩ := Option.isSome_iff_exists.1 hhas
      simp only [TenancyOp.effect, statusOf_setTenantStatus, if_pos]
      rw [TenancyStore.statusOf, hrow]
      rfl
    have htodo' : ToDo orgId (TenancyOp.effect E s chance (.activating flow k)) flow k :=
      htodo.kept rfl hkept
    obtain ⟨hnext, hless⟩ := reconciles_afterProvisioning (E := E) htodo' hactive
    refine ⟨hnext, hless.trans_eq ?_⟩
    obtain ⟨rest, rfl, -⟩ := htodo
    rfl
  | finished => cases hover
  | _ => exact hop.elim

/-- One pass in which no call fails completes the organization. -/
theorem within_reconcile (h : Tracked E orgId s) (hfounded : Founded s)
    (hrow : s.registry.has orgId = true) :
    Within (tenancy E) (fun s op chance => op.Succeeds E s chance)
      (fun t op => op = .finished true ∧ Complete E orgId t)
      (9 * s.provisioningTenants.length + 1) s .pendingListing := by
  have hstart : Tracked E orgId s ∧ TenancyOp.pendingListing.Sure E orgId s ∧
      TenancyOp.pendingListing.Reconciles E orgId s :=
    ⟨h, trivial, hrow, fun k hk => hfounded.rows k (has_provisioningTenants hk)⟩
  refine Within.of_variant (fun s (op : TenancyOp) => op.stepsLeft s)
    (fun s (op : TenancyOp) => Tracked E orgId s ∧ op.Sure E orgId s ∧ op.Reconciles E orgId s) ?_
    hstart
  rintro t op ⟨h, hsure, hop⟩
  cases hover : op.isOver with
  | true =>
    cases op with
    | finished ok =>
      obtain ⟨rfl, hactive⟩ := hop
      exact .inl ⟨rfl, h.complete hactive⟩
    | served | refused => exact hop.elim
    | _ => cases hover
  | false =>
    refine .inr ⟨exists_succeeds h hop, fun chance hok => ?_⟩
    have hguard := undisturbing_of_reconciles hop
    have hnext := tenancyNext_of_succeeds hok hover
    obtain ⟨hreconciles, hless⟩ := reconciles_next h hsure hop hok hover
    refine ⟨_, _, hnext, ⟨tracked_effect h hsure hguard, ?_, hreconciles⟩, hless⟩
    have hhears : op.hears chance = true := by
      rw [TenancyOp.hears, hok.1, decide_eq_true rfl, Bool.or_true]
    have : (op.next E t chance (op.hears chance)).Sure E orgId
        (if op.takes chance then op.effect E t chance else t) := sure_next h hsure hguard
    rwa [hhears, if_pos (TenancyOp.takes_of_hears hhears)] at this

end Reconciler

/-! ## Provisioning again -/

section Again

variable {E : TenancyEnv} {orgId : Int64} {s t : TenancyStore} {chance : TenancyChance}
  {op : TenancyOp} {conn : String}

/-- The registry, the databases and the blobs are what they were. -/
structure SameTenants (s t : TenancyStore) : Prop where
  orgs : t.orgs = s.orgs
  registry : ∀ k, t.registry.get? k = s.registry.get? k
  databases : ∀ conn, t.databases.get? conn = s.databases.get? conn
  objects : t.objects = s.objects

theorem SameTenants.refl (s : TenancyStore) : SameTenants s s := ⟨rfl, fun _ => rfl, fun _ => rfl, rfl⟩

theorem SameTenants.of_registry (h : ∀ k, t.registry.get? k = s.registry.get? k)
    (horgs : t.orgs = s.orgs) (hdatabases : t.databases = s.databases)
    (hobjects : t.objects = s.objects) : SameTenants s t :=
  ⟨horgs, h, fun _ => by rw [hdatabases], hobjects⟩

theorem SameTenants.trans {u : TenancyStore} (h : SameTenants s t) (h' : SameTenants t u) :
    SameTenants s u :=
  ⟨h'.orgs.trans h.orgs, fun k => (h'.registry k).trans (h.registry k),
    fun conn => (h'.databases conn).trans (h.databases conn), h'.objects.trans h.objects⟩

/-- An update that leaves the row as it is changes nothing. -/
theorem get?_updateTenant_of_fixed {f : TenantRow → TenantRow} {k : Int64} {row : TenantRow}
    (hrow : s.registry.get? orgId = some row) (hf : f row = row) :
    (s.updateTenant orgId f).get? k = s.registry.get? k := by
  rw [TenancyStore.get?_updateTenant]
  split
  · rename_i hk
    rw [hk, hrow, Option.map_some, hf]
  · rfl

/-- Where a call is that provisions a complete organization again. -/
def TenancyOp.Repeats (orgId : Int64) (conn : String) : TenancyOp → Prop
  | intending flow k | intentReading flow k | dbFinding flow k | blobRecording flow k
  | activating flow k => flow = .request ∧ k = orgId
  | connStoring flow k conn' | schemaApplying flow k conn' =>
    flow = .request ∧ k = orgId ∧ conn' = conn
  | mappingForgetting flow _ | poolForgetting flow _ => flow = .provisioned
  | finished _ => True
  | _ => False

theorem sameTenants_effect (h : op.Repeats orgId conn)
    (hrow : s.registry.get? orgId = some ⟨.active, some conn, "prefix", blobScope orgId⟩)
    (hschema : SchemaAt E orgId s conn) : SameTenants s (op.effect E s chance) := by
  cases op with
  | intending flow k =>
    obtain ⟨-, rfl⟩ := h
    refine .of_registry (fun k' => ?_) rfl rfl rfl
    cases hbegin : s.beginProvisioning k with
    | none => simp only [TenancyOp.effect, hbegin, Option.getD_none]
    | some registry =>
      simp only [TenancyOp.effect, hbegin, Option.getD_some]
      rw [(TenancyStore.get?_beginProvisioning hbegin k').2]
      split
      · rename_i hk
        rw [hk, hrow, Option.getD_some]
      · rfl
  | connStoring flow k conn' =>
    obtain ⟨-, rfl, rfl⟩ := h
    exact .of_registry (fun k' => get?_updateTenant_of_fixed hrow rfl) rfl rfl rfl
  | blobRecording flow k =>
    obtain ⟨-, rfl⟩ := h
    exact .of_registry (fun k' => get?_updateTenant_of_fixed hrow rfl) rfl rfl rfl
  | activating flow k =>
    obtain ⟨-, rfl⟩ := h
    exact .of_registry (fun k' => get?_updateTenant_of_fixed hrow rfl) rfl rfl rfl
  | schemaApplying flow k conn' =>
    obtain ⟨-, rfl, rfl⟩ := h
    refine ⟨rfl, fun _ => rfl, fun conn => ?_, rfl⟩
    cases happly : s.applySchema conn' with
    | none => simp only [TenancyOp.effect, happly, Option.getD_none]
    | some databases =>
      simp only [TenancyOp.effect, happly, Option.getD_some]
      rw [TenancyStore.get?_applySchema happly]
      split
      · rename_i hconn
        rw [hconn, show s.databases.get? conn' = _ from hschema, Option.map_some]
      · rfl
  | mappingForgetting | poolForgetting => exact .of_registry (fun _ => rfl) rfl rfl rfl
  | intentReading | dbFinding | finished => exact .refl s
  | _ => exact h.elim

theorem repeats_next {answered : Bool} (h : op.Repeats orgId conn) (htracked : Tracked E orgId s)
    (hschema : SchemaAt E orgId s conn) : (op.next E s chance answered).Repeats orgId conn := by
  have hown : OwnDb E orgId s conn := ⟨_, hschema, rfl⟩
  cases op with
  | intending flow k | intentReading flow k =>
    obtain ⟨rfl, rfl⟩ := h
    simp only [TenancyOp.next]
    split
    · exact ⟨rfl, rfl⟩
    · trivial
  | dbFinding flow k =>
    obtain ⟨rfl, rfl⟩ := h
    simp only [TenancyOp.next]
    split
    · split
      · rename_i conn' hfind
        exact ⟨rfl, rfl, htracked.only conn' conn (ownDb_of_findTenantDb htracked.provided hfind) hown⟩
      · rename_i hnone
        cases hprovider : E.provider with
        | single conn' =>
          rw [hprovider] at hnone
          cases hnone
        | localDb | neon =>
          obtain ⟨d, hd, hname⟩ := hown
          have hfind : s.findDatabase (E.provider.databaseName k) chance.conn = none := by
            rw [hprovider] at hnone
            rwa [hprovider]
          exact absurd hname (TenancyStore.findDatabase_eq_none hfind hd)
    · trivial
  | connStoring flow k conn' =>
    obtain ⟨rfl, rfl, rfl⟩ := h
    simp only [TenancyOp.next]
    split
    · exact ⟨rfl, rfl, rfl⟩
    · trivial
  | schemaApplying flow k conn' =>
    obtain ⟨rfl, rfl, -⟩ := h
    simp only [TenancyOp.next]
    split
    · exact ⟨rfl, rfl⟩
    · trivial
  | blobRecording flow k =>
    obtain ⟨rfl, rfl⟩ := h
    simp only [TenancyOp.next]
    split
    · exact ⟨rfl, rfl⟩
    · trivial
  | activating flow k =>
    obtain ⟨rfl, rfl⟩ := h
    cases answered
    · trivial
    · exact (rfl : ForgetFlow.provisioned = .provisioned)
  | mappingForgetting flow k => exact h
  | poolForgetting flow k =>
    cases h
    trivial
  | finished ok => trivial
  | _ => exact h.elim

/-- Provisioning a complete organization again changes nothing, wherever the call stops. -/
theorem sameTenants_again (h : Tracked E orgId s) (hcomplete : Complete E orgId s) {o : TenancyOp}
    (hsolo : Solo (tenancy E) (fun _ _ _ => True) s (.intending .request orgId) t o) :
    SameTenants s t := by
  obtain ⟨conn, hrow, hschema⟩ := hcomplete
  refine (hsolo.invariant (fun t op => SameTenants s t ∧ op.Repeats orgId conn ∧
    Tracked E orgId t ∧ op.Sure E orgId t) ?_ ⟨.refl s, ⟨rfl, rfl⟩, h, trivial⟩).1
  rintro t op chance t' op' ⟨hsame, hrepeats, htracked, hsure⟩ - hnext
  have hrow : t.registry.get? orgId = _ := (hsame.registry orgId).trans hrow
  have hschema : SchemaAt E orgId t conn := (hsame.databases conn).trans hschema
  have hguard : op.Undisturbing E orgId t := by
    cases op with
    | statusWriting | orgDeleting | dropping | projectDeleting | dbCreating => exact hrepeats.elim
    | _ => trivial
  obtain ⟨-, rfl, heq⟩ := tenancyNext_eq_some hnext
  cases heq
  refine ⟨hsame.trans ?_, repeats_next hrepeats htracked hschema, ?_, sure_next htracked hsure hguard⟩
  · split
    · exact sameTenants_effect hrepeats hrow hschema
    · exact .refl t
  · split
    · exact tracked_effect htracked hsure hguard
    · exact htracked

end Again

/-! ## A resolver before it is active -/

/-- An organization that is not active is refused, by the second step of the call. -/
theorem within_refused {E : TenancyEnv} {orgId : Int64} {s : TenancyStore}
    (h : Tracked E orgId s) (hmulti : E.provider.singleTenant = none)
    (hstatus : s.statusOf orgId ≠ some .active) (since : Micros) :
    Within (tenancy E) (fun _ _ _ => True) (fun _ op => ∃ error, op = .refused ⟨orgId, since⟩ error)
      2 s (.resolving ⟨orgId, since⟩) := by
  have hmapping : s.cachedMapping orgId = none := by
    cases hcached : s.cachedMapping orgId with
    | none => rfl
    | some mapping =>
      obtain ⟨m, hm, -⟩ := TenancyStore.cachedMapping_eq_some hcached
      exact absurd (h.cached hmulti (Option.isSome_iff_exists.2 ⟨m, hm⟩)) hstatus
  refine .inr ⟨⟨{}, trivial⟩, fun chance _ => ⟨s, .registryReading ⟨orgId, since⟩, ?_, ?_⟩⟩
  · show tenancyNext E s chance (.resolving ⟨orgId, since⟩) = _
    simp only [tenancyNext, TenancyOp.isOver, TenancyOp.effect, TenancyOp.next, ite_self, hmulti,
      hmapping, Bool.false_eq_true, if_false]
  · refine .inr ⟨⟨{}, trivial⟩, fun chance _ => ⟨_, _, rfl, ?_⟩⟩
    simp only [Within, TenancyOp.next]
    split
    · rcases afterRegistry_cases E.provider ⟨orgId, since⟩ s.now (s.registry.get? orgId) with
        hrefused | ⟨row, mapping, hrow, hactive, -⟩
      · exact hrefused
      · refine absurd ?_ hstatus
        rw [TenancyStore.statusOf, hrow, Option.map_some, hactive]
    · exact ⟨.internal, rfl⟩

/-! ## Recovery -/

/-- An organization of which nothing is there, but for a database that the provider may have. -/
structure Unprovisioned (E : TenancyEnv) (orgId : Int64) (t : Tenants) : Prop where
  idle : t.inFlight = []
  founded : Founded t.store
  provided : Provided E t.store
  only : ∀ conn conn', OwnDb E orgId t.store conn → OwnDb E orgId t.store conn' → conn = conn'
  row : t.store.registry.get? orgId = none
  cached : t.store.cache.has orgId = false

theorem Unprovisioned.tracked {E : TenancyEnv} {orgId : Int64} {t : Tenants}
    (h : Unprovisioned E orgId t) : Tracked E orgId t.store := by
  have hstatus : t.store.statusOf orgId = none := by
    rw [TenancyStore.statusOf, h.row]
    rfl
  refine ⟨h.provided, h.only, fun conn hconn => ?_, fun status hget => ?_, fun hactive => ?_,
    fun _ hcached => ?_⟩
  · obtain ⟨row, hrow, -⟩ := hconn
    cases h.row.symm.trans hrow
  · cases hstatus.symm.trans hget
  · cases hstatus.symm.trans hactive
  · cases h.cached.symm.trans hcached

/-- Wherever the provisioning of an organization has stopped, once its row is in the registry
one pass of the reconciler in which no call fails completes it.  To provision a complete
organization again changes nothing, and a resolver of many tenants refuses an organization
that is not active. -/
theorem provisioning_recovers {E : TenancyEnv} {orgId : Int64} {t u : Tenants}
    {es : List TenancyEvent} (hstart : Unprovisioned E orgId t)
    (hrun : Run (Guarded (stepOf (tenancy E).step) (Undisturbed E orgId)) t es u) :
    (u.store.registry.has orgId = true →
      Within (tenancy E) (fun s op chance => op.Succeeds E s chance)
        (fun s op => op = .finished true ∧ Complete E orgId s)
        (9 * u.store.provisioningTenants.length + 1) u.store .pendingListing) ∧
    (Complete E orgId u.store → ∀ v op,
      Solo (tenancy E) (fun _ _ _ => True) u.store (.intending .request orgId) v op →
      SameTenants u.store v) ∧
    (E.provider.singleTenant = none → u.store.statusOf orgId ≠ some .active →
      (∀ call tenant, .served call tenant ∈ u.inFlight → call.orgId ≠ orgId) ∧
      ∀ since, Within (tenancy E) (fun _ _ _ => True)
        (fun _ op => ∃ error, op = .refused ⟨orgId, since⟩ error) 2 u.store
        (.resolving ⟨orgId, since⟩)) := by
  have houtline := Outline.run keepsOutline_sure hrun (outline_of_idle hstart.tracked hstart.idle)
  have hfounded := hrun.invariant_of_guarded (fun t => Founded t.store)
    (fun _ _ _ h hstep _ => founded_step h hstep) hstart.founded
  refine ⟨within_reconcile houtline.store hfounded, fun hcomplete v op =>
    sameTenants_again houtline.store hcomplete, fun hmulti hstatus => ⟨fun call tenant hserved horg => ?_,
    within_refused houtline.store hmulti hstatus⟩⟩
  exact hstatus (houtline.each _ hserved hmulti horg)

/-- No database is there, and no tenant either. -/
theorem unprovisioned_localTenants (orgId : Int64) : Unprovisioned localTenants orgId ⟨{}, []⟩ := by
  have hnone : ∀ conn, (Table.empty : Table String TenantDb).get? conn = none := fun _ => rfl
  refine ⟨rfl, ⟨fun _ h => absurd h Bool.false_ne_true, fun _ h => absurd h List.not_mem_nil⟩,
    ⟨fun conn d _ hd _ => ?_, fun conn _ d _ hd _ _ => ?_, fun conn hsingle => ?_⟩,
    fun conn _ hconn _ => ?_, rfl, rfl⟩
  · cases (hnone conn).symm.trans hd
  · cases (hnone conn).symm.trans hd
  · cases (hsingle : Provider.localDb "postgres://db/reproit" = .single conn)
  · obtain ⟨d, hd, -⟩ := hconn
    cases (hnone conn).symm.trans hd

/-- The guard, as a check. -/
def undisturbed (orgId : Int64) (s : Tenants) : TenancyEvent → Bool
  | .advance i _ => (s.inFlight[i]?).all fun op =>
    match op with
    | .statusWriting k _ | .orgDeleting k | .dropping _ k | .projectDeleting _ k _ => k ≠ orgId
    | _ => true
  | .commit (.rotate k _) => k ≠ orgId
  | _ => true

theorem undisturbed_sound {E : TenancyEnv} (hlocal : E.provider ≠ .neon) (orgId : Int64)
    (s : Tenants) (e : TenancyEvent) (s' : Tenants) (h : undisturbed orgId s e = true) :
    Undisturbed E orgId s e s' := by
  cases e with
  | advance i chance =>
    intro op hop
    rw [undisturbed, hop] at h
    cases op with
    | statusWriting k | orgDeleting k | dropping _ k | projectDeleting _ k =>
      exact (of_decide_eq_true h : k ≠ orgId)
    | dbCreating flow k => exact fun _ hneon => absurd hneon hlocal
    | _ => trivial
  | commit c =>
    cases c with
    | rotate k conn => exact (of_decide_eq_true h : k ≠ orgId)
    | _ => trivial
  | start op | abandon i => trivial

theorem localTenants_ne_neon : localTenants.provider ≠ .neon := by
  intro h
  cases (h : Provider.localDb "postgres://db/reproit" = .neon)

/-- The process dies when the database is there and its connection is not stored, and one
pass of the reconciler completes the organization. -/
theorem provisioning_recovers_crashed :
    ∃ u, Run (Guarded (stepOf (tenancy localTenants).step) (Undisturbed localTenants 7)) ⟨{}, []⟩
        (provisionSeven 4 ++ [.abandon 0]) u ∧
      Within (tenancy localTenants) (fun s op chance => op.Succeeds localTenants s chance)
        (fun s op => op = .finished true ∧ Complete localTenants 7 s)
        (9 * u.store.provisioningTenants.length + 1) u.store .pendingListing := by
  have hsome : ((runOf (checked (tenancy localTenants).step (undisturbed 7)) ⟨{}, []⟩
      (provisionSeven 4 ++ [.abandon 0])).any fun u => u.store.registry.has 7) = true := by decide
  obtain ⟨u, hu, hrow⟩ := (Option.any_eq_true _ _).1 hsome
  have hrun : Run (Guarded (stepOf (tenancy localTenants).step) (Undisturbed localTenants 7)) ⟨{}, []⟩
      (provisionSeven 4 ++ [.abandon 0]) u :=
    Run.of_runOf_checked (undisturbed_sound localTenants_ne_neon 7) hu
  exact ⟨u, hrun, (provisioning_recovers (unprovisioned_localTenants 7) hrun).1 hrow⟩

/-- A server that hosts itself, with its database. -/
def selfHosted : TenancyEnv where
  provider := .single "postgres://db"
  blobs := .localFs

def installed : TenancyStore where
  databases := ⟨[("postgres://db", { name := "postgres://db" })], by decide⟩

theorem unprovisioned_selfHosted (orgId : Int64) : Unprovisioned selfHosted orgId ⟨installed, []⟩ := by
  have hget : ∀ conn d, installed.databases.get? conn = some d →
      conn = "postgres://db" ∧ d.name = "postgres://db" := by
    intro conn d hd
    have hmem := Table.get?_eq_some_iff.1 hd
    cases List.mem_singleton.1 hmem
    exact ⟨rfl, rfl⟩
  refine ⟨rfl, ⟨fun _ h => absurd h Bool.false_ne_true, fun _ h => absurd h List.not_mem_nil⟩,
    ⟨fun conn d _ hd _ => (hget conn d hd).2, fun conn conn' d _ hd _ hderive => ?_,
      fun conn hsingle => ?_⟩, fun conn conn' hconn hconn' => ?_, rfl, rfl⟩
  · exact (hget conn d hd).1.trans (Option.some.inj hderive)
  · cases (hsingle : Provider.single "postgres://db" = .single conn)
    rfl
  · obtain ⟨d, hd, -⟩ := hconn
    obtain ⟨d', hd', -⟩ := hconn'
    rw [(hget conn d hd).1, (hget conn' d' hd').1]

/-- A provisioning that stops before it has written the row is not found by the reconciler,
and a server that hosts itself serves its organization before it is active. -/
theorem unstarted_provisioning_is_lost :
    (¬ ∀ (E : TenancyEnv) (orgId : Int64) (t u : Tenants) (es : List TenancyEvent),
      Unprovisioned E orgId t →
      Run (Guarded (stepOf (tenancy E).step) (Undisturbed E orgId)) t es u →
      .start (.intending .request orgId) ∈ es →
      ∃ n, Within (tenancy E) (fun s op chance => op.Succeeds E s chance)
        (fun s _ => Complete E orgId s) n u.store .pendingListing) ∧
    ¬ ∀ (E : TenancyEnv) (orgId : Int64) (t u : Tenants) (es : List TenancyEvent),
      Unprovisioned E orgId t →
      Run (Guarded (stepOf (tenancy E).step) (Undisturbed E orgId)) t es u →
      u.store.statusOf orgId ≠ some .active →
      ∀ call tenant, .served call tenant ∈ u.inFlight → call.orgId ≠ orgId := by
  refine ⟨fun hall => ?_, fun hall => ?_⟩
  · have hsome : ((runOf (checked (tenancy localTenants).step (undisturbed 7)) ⟨{}, []⟩
        (provisionSeven 0 ++ [.abandon 0])).any fun u => u.store.registry.rows.isEmpty) = true := by
      decide
    obtain ⟨u, hu, hempty⟩ := (Option.any_eq_true _ _).1 hsome
    obtain ⟨n, hwithin⟩ := hall localTenants 7 ⟨{}, []⟩ u _ (unprovisioned_localTenants 7)
      (Run.of_runOf_checked (undisturbed_sound localTenants_ne_neon 7) hu)
      (List.mem_append_left _ (List.mem_cons_of_mem _ List.mem_cons_self))
    obtain ⟨v, op, hsolo, conn, hrow, -⟩ := hwithin.solo
    -- With no row there is nothing to go on with, so the pass is over.
    have hinv := hsolo.invariant
      (fun s op => s.registry.rows = [] ∧ (op = .pendingListing ∨ ∃ ok, op = .finished ok)) ?_
      ⟨List.isEmpty_iff.1 hempty, .inl rfl⟩
    · rw [Table.get?_eq_some_iff, hinv.1] at hrow
      cases hrow
    · rintro s op chance s' op' ⟨hrows, rfl | ⟨ok, rfl⟩⟩ - hnext
      · have hnext : tenancyNext localTenants s chance .pendingListing = some (s', some op') := hnext
        obtain ⟨-, rfl, heq⟩ := tenancyNext_eq_some hnext
        cases heq
        have hpending : s.provisioningTenants = [] := by
          rw [TenancyStore.provisioningTenants, hrows]
          rfl
        refine ⟨by simpa only [TenancyOp.effect, ite_self] using hrows, .inr ?_⟩
        simp only [TenancyOp.next, hpending]
        split
        · exact ⟨true, rfl⟩
        · exact ⟨false, rfl⟩
      · cases hnext
  · have hsome : ((runOf (checked (tenancy selfHosted).step (undisturbed 1)) ⟨installed, []⟩
        [.start (.resolving ⟨1, 0⟩), .advance 0 {}, .advance 0 {}, .advance 0 {}, .advance 0 {}]).any
        fun u => u.store.statusOf 1 = none &&
          u.inFlight[0]? = some (.served ⟨1, 0⟩ ⟨1, "postgres://db", ""⟩)) = true := by
      decide
    obtain ⟨u, hu, hserved⟩ := (Option.any_eq_true _ _).1 hsome
    obtain ⟨hstatus, hserved⟩ := Bool.and_eq_true_iff.1 hserved
    have hlocal : selfHosted.provider ≠ .neon := by
      intro h
      cases (h : Provider.single "postgres://db" = .neon)
    refine hall selfHosted 1 _ u _ (unprovisioned_selfHosted 1)
      (Run.of_runOf_checked (undisturbed_sound hlocal 1) hu) ?_ ⟨1, 0⟩ _
      (List.mem_of_getElem? (of_decide_eq_true hserved)) rfl
    rw [of_decide_eq_true hstatus]
    exact fun heq => by cases heq

end ReproitCloud
