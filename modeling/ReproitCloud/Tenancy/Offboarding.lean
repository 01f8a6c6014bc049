import ReproitCloud.Tenancy.Provisioning

/-!
# Offboarding

`offboard_data` deletes the blobs of an organization, then its database, then what the
caches have of it, and `delete_org` deletes the rows last.  The two results are about
whether this gets to its end, and whether the rows go only when everything else is gone.

* `offboarding_completes`: a call that is alone and in which no call fails gets to
  `delete_org` exactly if the row of the organization has a scope.  The row of a
  provisioning that has stopped early has none, and an empty scope is refused.
* `erasure_is_real`: the rows go only after the database and the blobs, in every run in
  which a `DROP DATABASE` of the local provider takes effect.  The provider swallows the
  error of one that does not (`failed_drop_is_reported_gone`).
-/

namespace ReproitCloud

open Lib

/-! ## What is left of an organization -/

section Facts

variable (E : TenancyEnv) (orgId : Int64) (s : TenancyStore)

/-- No object lies under its scope. -/
def BlobsGone : Prop :=
  ∀ object : String, Under '/' (blobScope orgId).toList object.toList → s.objects.get? object = none

/-- The provider has no database for it. -/
def DbGone : Prop :=
  ∀ conn, ¬ OwnDb E orgId s conn

/-- Nothing is left but the rows. -/
structure Offboarded : Prop where
  blobs : BlobsGone orgId s
  database : DbGone E orgId s
  mapping : s.cache.has orgId = false
  pool : s.pools.has orgId = false

/-- The scope in its row is empty or its own. -/
def Scoped : Prop :=
  ∀ row, s.registry.get? orgId = some row → row.blobScope = "" ∨ row.blobScope = blobScope orgId

/-- The row has a scope, or there is nothing that it would be needed for.  Neon may have many
projects of a name, and one of them is deleted. -/
structure Ready : Prop where
  scope : ∀ row, s.registry.get? orgId = some row → row.blobScope ≠ ""
  unregistered : s.registry.get? orgId = none → BlobsGone orgId s
  projects : E.provider = .neon →
    ∀ conn conn', OwnDb E orgId s conn → OwnDb E orgId s conn' → conn = conn'

end Facts

section Steps

variable {E : TenancyEnv} {orgId : Int64} {s s' : TenancyStore} {chance : TenancyChance}
  {op : TenancyOp}

/-! ## The scope in the registry -/

/-- A scope that is new in the registry is the organization's own, or empty. -/
theorem scoped_effect (h : Scoped orgId s) : Scoped orgId (op.effect E s chance) := by
  have hupdate : ∀ k (f : TenantRow → TenantRow),
      (∀ row, (f row).blobScope = row.blobScope ∨ (f row).blobScope = blobScope k) →
      Scoped orgId { s with registry := s.updateTenant k f } := by
    intro k f hf row hrow
    simp only [TenancyStore.get?_updateTenant] at hrow
    split at hrow
    · rename_i hk
      obtain ⟨row', hrow', rfl⟩ := Option.map_eq_some_iff.1 hrow
      rcases hf row' with hsame | hown
      · rw [hsame]
        exact h row' hrow'
      · rw [hown, hk]
        exact .inr rfl
    · exact h row hrow
  cases op with
  | intending flow k =>
    intro row hrow
    cases hbegin : s.beginProvisioning k with
    | none =>
      simp only [TenancyOp.effect, hbegin, Option.getD_none] at hrow
      exact h row hrow
    | some registry =>
      simp only [TenancyOp.effect, hbegin, Option.getD_some] at hrow
      rw [(TenancyStore.get?_beginProvisioning hbegin orgId).2] at hrow
      split at hrow
      · cases hold : s.registry.get? orgId with
        | none =>
          rw [hold] at hrow
          cases hrow
          exact .inl rfl
        | some row' =>
          rw [hold, Option.getD_some] at hrow
          exact h row (hold.trans hrow)
      · exact h row hrow
  | connStoring flow k conn => exact hupdate k _ fun _ => .inl rfl
  | blobRecording flow k => exact hupdate k _ fun _ => .inr rfl
  | activating flow k => exact hupdate k _ fun _ => .inl rfl
  | statusWriting k status => exact hupdate k _ fun _ => .inl rfl
  | orgDeleting k => exact fun row hrow => h row (Table.get?_of_delete hrow).1
  | _ => exact h

theorem Scoped.of_registry (h : Scoped orgId s) (hregistry : s'.registry = s.registry) :
    Scoped orgId s' := fun row hrow => h row (hregistry ▸ hrow)

theorem scoped_write {c : TenancyWrite} (h : Scoped orgId s) (hwrite : tenancyWrite E s c = some s') :
    Scoped orgId s' := by
  cases c with
  | tick now =>
    obtain ⟨-, heq⟩ := Option.ite_none_right_eq_some.1 hwrite
    cases heq
    exact h
  | createOrg k =>
    obtain ⟨-, heq⟩ := Option.ite_none_left_eq_some.1 hwrite
    cases heq
    exact h
  | rotate k conn =>
    cases hwrite
    intro row hrow
    simp only [TenancyStore.setTenantConn, TenancyStore.get?_updateTenant] at hrow
    split at hrow
    · obtain ⟨row', hrow', rfl⟩ := Option.map_eq_some_iff.1 hrow
      exact h row' hrow'
    · exact h row hrow
  | _ =>
    cases hwrite
    exact h.of_registry rfl

theorem scoped_step {t t' : Tenants} {e : TenancyEvent} (h : Scoped orgId t.store)
    (hstep : (tenancy E).step t e = some t') : Scoped orgId t'.store := by
  cases Program.effect_of_step hstep with
  | start | abandon => exact h
  | @advance i chance op store next hop hnext =>
    exact tenancyNext_keeps hnext (Scoped orgId) h fun _ => scoped_effect h
  | @commit c store hwrite => exact scoped_write h hwrite

/-! ## Blobs and databases that go -/

theorem mem_dropDatabases {name conn : String} {d : TenantDb} {p : String → Bool}
    (h : (s.dropDatabases name p).get? conn = some d) :
    s.databases.get? conn = some d ∧ ¬ (d.name = name ∧ p conn = true) := by
  obtain ⟨hd, hkept⟩ := Table.get?_of_delete h
  exact ⟨hd, by simpa using hkept⟩

/-- The local provider drops the database of a name. -/
theorem dbGone_dropping {k : Int64} :
    DbGone E k { s with databases := s.dropDatabases (E.provider.databaseName k) fun _ => true } := by
  rintro conn ⟨d, hd, hname⟩
  exact (mem_dropDatabases hd).2 ⟨hname, rfl⟩

/-- Neon deletes one project, and none is left if it is the only one. -/
theorem dbGone_projectDeleting {k : Int64} {conn : String}
    (honly : ∀ conn', OwnDb E k s conn' → conn' = conn) :
    DbGone E k { s with
      databases := s.dropDatabases (E.provider.databaseName k) fun c => c = conn } := by
  rintro conn' ⟨d, hd, hname⟩
  obtain ⟨hd, hkept⟩ := mem_dropDatabases hd
  exact hkept ⟨hname, decide_eq_true (honly conn' ⟨d, hd, hname⟩)⟩

theorem dbGone_of_findDatabase {answer : String}
    (h : s.findDatabase (E.provider.databaseName orgId) answer = none) : DbGone E orgId s := by
  rintro conn ⟨d, hd, hname⟩
  exact TenancyStore.findDatabase_eq_none h hd hname

/-- A deletion of blobs deletes some objects, or none. -/
theorem deleteScope_cases (B : Backend) (objects : Objects) (scope : String) (chance : BlobChance) :
    (B.deleteScope objects scope chance).1 = objects ∨
      ∃ p, (B.deleteScope objects scope chance).1 = objects.delete p := by
  simp only [Backend.deleteScope]
  split
  · exact .inl rfl
  · simp only [Backend.deletePrefix]
    split <;> exact .inr ⟨_, by dsimp only⟩

theorem get?_of_deleteScope {B : Backend} {objects : Objects} {scope object : String}
    {chance : BlobChance} {bytes : Bytes}
    (h : (B.deleteScope objects scope chance).1.get? object = some bytes) :
    objects.get? object = some bytes := by
  rcases deleteScope_cases B objects scope chance with hsame | ⟨p, hdelete⟩
  · rwa [hsame] at h
  · rw [hdelete] at h
    exact (Table.get?_of_delete h).1

/-- What a deletion can go through before another one, it can after it. -/
theorem tooMany_deleteScope {B : Backend} {objects : Objects} {dir : String} (scope : String)
    (chance : BlobChance) (h : B.tooMany objects dir = false) :
    B.tooMany (B.deleteScope objects scope chance).1 dir = false := by
  rcases deleteScope_cases B objects scope chance with hsame | ⟨p, hdelete⟩
  · rwa [hsame]
  · rw [hdelete]
    cases B with
    | localFs => rfl
    | r2 endpoint =>
      have hfew := of_decide_eq_false h
      exact decide_eq_false fun hmany => hfew (hmany.trans_le (Table.count_delete_le _ _ _))

/-- A deletion of an organization's scope that succeeds leaves nothing there. -/
theorem blobsGone_deleteScope {k : Int64}
    (h : (E.blobs.deleteScope s.objects (blobScope k) chance.blob).2 = true) :
    BlobsGone k { s with objects := (E.blobs.deleteScope s.objects (blobScope k) chance.blob).1 } := by
  intro object hunder
  have hdelete : E.blobs.deleteScope s.objects (blobScope k) chance.blob =
      ((E.blobs.deleteScope s.objects (blobScope k) chance.blob).1, true) := by
    rw [← h]
  dsimp only
  exact get?_deleteScope_of_under hdelete hunder

/-! ## A call that is alone -/

/-- What a call that offboards the organization has done when no call has failed. -/
def TenancyOp.Clears (E : TenancyEnv) (orgId : Int64) (s : TenancyStore) : TenancyOp → Prop
  | scopeReading k => k = orgId
  | scopeDeleting flow k scope => flow = .route ∧ k = orgId ∧ scope = blobScope orgId
  | adminConnecting flow k | terminating flow k | dropping flow k =>
    flow = .route ∧ k = orgId ∧ BlobsGone orgId s
  | projectFinding flow k => flow = .route ∧ k = orgId ∧ E.provider = .neon ∧ BlobsGone orgId s
  | projectDeleting flow k conn =>
    flow = .route ∧ k = orgId ∧ BlobsGone orgId s ∧ ∀ conn', OwnDb E orgId s conn' → conn' = conn
  | mappingForgetting flow k =>
    flow = .offboarded ∧ k = orgId ∧ BlobsGone orgId s ∧ DbGone E orgId s
  | poolForgetting flow k =>
    flow = .offboarded ∧ k = orgId ∧ BlobsGone orgId s ∧ DbGone E orgId s ∧
      s.cache.has orgId = false
  | orgDeleting k => k = orgId ∧ Offboarded E orgId s
  | _ => False

/-- The steps that are left of it, at most. -/
def TenancyOp.stepsToClear : TenancyOp → Nat
  | scopeReading _ => 7
  | scopeDeleting .. => 6
  | adminConnecting .. => 5
  | terminating .. | projectFinding .. => 4
  | dropping .. | projectDeleting .. => 3
  | mappingForgetting .. => 2
  | poolForgetting .. => 1
  | _ => 0

theorem Ready.blobScope (h : Ready E orgId s) (hscoped : Scoped orgId s) {row : TenantRow}
    (hrow : s.registry.get? orgId = some row) : row.blobScope = blobScope orgId :=
  (hscoped row hrow).resolve_left (h.scope row hrow)

/-- The call is ready to go on when it has taken something away. -/
theorem Ready.of_less (h : Ready E orgId s) (hregistry : s'.registry = s.registry)
    (hdatabases : ∀ conn, OwnDb E orgId s' conn → OwnDb E orgId s conn)
    (hobjects : ∀ object bytes, s'.objects.get? object = some bytes →
      s.objects.get? object = some bytes) : Ready E orgId s' := by
  refine ⟨hregistry ▸ h.scope, fun hnone object hunder => ?_, fun hneon conn conn' hconn hconn' =>
    h.projects hneon conn conn' (hdatabases conn hconn) (hdatabases conn' hconn')⟩
  cases hobject : s'.objects.get? object with
  | none => rfl
  | some bytes =>
    have hgone := h.unregistered (hregistry ▸ hnone) object hunder
    rw [hobjects object bytes hobject] at hgone
    cases hgone

theorem Ready.with_objects {objects : Objects} (h : Ready E orgId s)
    (hobjects : ∀ object bytes, objects.get? object = some bytes →
      s.objects.get? object = some bytes) : Ready E orgId { s with objects := objects } :=
  h.of_less rfl (fun _ => id) hobjects

theorem ready_deleting {databases : Table String TenantDb} (h : Ready E orgId s)
    (hdatabases : ∀ conn d, databases.get? conn = some d → s.databases.get? conn = some d) :
    Ready E orgId { s with databases := databases } :=
  h.of_less rfl (fun conn ⟨d, hd, hname⟩ => ⟨d, hdatabases conn d hd, hname⟩) fun _ _ => id

/-- The first step of a provider. -/
theorem clears_deprovision (hmulti : E.provider.singleTenant = none) (h : BlobsGone orgId s) :
    (E.provider.deprovision .route orgId).Clears E orgId s ∧
      (E.provider.deprovision .route orgId).stepsToClear ≤ 5 := by
  cases hprovider : E.provider with
  | localDb url => exact ⟨⟨rfl, rfl, h⟩, le_refl 5⟩
  | neon => exact ⟨⟨rfl, rfl, hprovider, h⟩, Nat.le_succ 4⟩
  | single conn =>
    rw [hprovider] at hmulti
    cases hmulti

/-- A deletion of the scope goes through what is there. -/
theorem deletePrefix_blobScope {chance : BlobChance}
    (hfits : E.blobs.tooMany s.objects (blobScope orgId) = false) (hfails : chance.fails = false) :
    (E.blobs.deletePrefix s.objects
      (String.ofList (trimMatches '/' (blobScope orgId).toList)) chance).2 = true := by
  rw [trimMatches_blobScope, String.ofList_toList]
  simp only [Backend.deletePrefix, objectKey_blobScope, hfits, hfails, Bool.or_false,
    Bool.false_eq_true, if_false]

/-- The call of a step can succeed. -/
theorem exists_succeeds_clears (hfits : E.blobs.tooMany s.objects (blobScope orgId) = false)
    (hop : op.Clears E orgId s) : ∃ chance, op.Succeeds E s chance := by
  cases op with
  | scopeDeleting flow k scope =>
    obtain ⟨rfl, rfl, rfl⟩ := hop
    exact ⟨{}, rfl, deletePrefix_blobScope hfits rfl⟩
  | dbCreating => exact hop.elim
  | _ => exact ⟨{}, rfl, trivial⟩

/-- A step that succeeds leads to the next one. -/
theorem clears_next (hmulti : E.provider.singleTenant = none) (h : Ready E orgId s)
    (hscoped : Scoped orgId s) (hop : op.Clears E orgId s) (hok : op.Succeeds E s chance)
    (hlast : op ≠ .orgDeleting orgId) :
    Ready E orgId (op.effect E s chance) ∧
      (op.next E s chance true).Clears E orgId (op.effect E s chance) ∧
      (op.next E s chance true).stepsToClear < op.stepsToClear := by
  cases op with
  | scopeReading k =>
    obtain rfl := hop
    refine ⟨h, ?_⟩
    simp only [TenancyOp.next, TenancyOp.effect, if_pos]
    cases hrow : s.registry.get? k with
    | some row => exact ⟨⟨rfl, rfl, h.blobScope hscoped hrow⟩, Nat.lt_succ_self 6⟩
    | none =>
      obtain ⟨hclears, hsteps⟩ := clears_deprovision hmulti (h.unregistered hrow)
      exact ⟨hclears, Nat.lt_succ_of_le (hsteps.trans (Nat.le_succ 5))⟩
  | scopeDeleting flow k scope =>
    obtain ⟨rfl, rfl, rfl⟩ := hop
    have hdeleted : (E.blobs.deleteScope s.objects (blobScope k) chance.blob).2 = true := by
      have hprefix : (E.blobs.deletePrefix s.objects
        (String.ofList (trimMatches '/' (blobScope k).toList)) chance.blob).2 = true := hok.2
      rwa [trimMatches_blobScope, String.ofList_toList, ← deleteScope_blobScope] at hprefix
    simp only [TenancyOp.next, TenancyOp.effect, hdeleted, if_pos]
    refine ⟨h.with_objects fun _ _ => get?_of_deleteScope, ?_⟩
    obtain ⟨hclears, hsteps⟩ := clears_deprovision hmulti (blobsGone_deleteScope hdeleted)
    exact ⟨hclears, Nat.lt_succ_of_le hsteps⟩
  | adminConnecting flow k => exact ⟨h, hop, Nat.lt_succ_self 4⟩
  | terminating flow k => exact ⟨h, hop, Nat.lt_succ_self 3⟩
  | dropping flow k =>
    obtain ⟨rfl, rfl, hblobs⟩ := hop
    exact ⟨ready_deleting h fun conn d hd => (mem_dropDatabases hd).1,
      ⟨rfl, rfl, hblobs, dbGone_dropping⟩, Nat.lt_succ_self 2⟩
  | projectFinding flow k =>
    obtain ⟨rfl, rfl, hneon, hblobs⟩ := hop
    refine ⟨h, ?_⟩
    simp only [TenancyOp.next, TenancyOp.effect, if_pos]
    cases hfind : s.findDatabase (E.provider.databaseName k) chance.conn with
    | none =>
      exact ⟨⟨rfl, rfl, hblobs, dbGone_of_findDatabase hfind⟩, Nat.lt_succ_of_le (Nat.le_succ 2)⟩
    | some conn =>
      have hown : OwnDb E k s conn := TenancyStore.findDatabase_eq_some hfind
      exact ⟨⟨rfl, rfl, hblobs, fun conn' hconn' => h.projects hneon conn' conn hconn' hown⟩,
        Nat.lt_succ_self 3⟩
  | projectDeleting flow k conn =>
    obtain ⟨rfl, rfl, hblobs, honly⟩ := hop
    exact ⟨ready_deleting h fun conn d hd => (mem_dropDatabases hd).1,
      ⟨rfl, rfl, hblobs, dbGone_projectDeleting honly⟩, Nat.lt_succ_self 2⟩
  | mappingForgetting flow k =>
    obtain ⟨rfl, rfl, hblobs, hdb⟩ := hop
    refine ⟨h.of_less rfl (fun _ => id) fun _ _ => id, ⟨rfl, rfl, hblobs, hdb, ?_⟩,
      Nat.lt_succ_self 1⟩
    simp [TenancyOp.effect, TenancyStore.forgetMapping, Table.has]
  | poolForgetting flow k =>
    obtain ⟨rfl, rfl, hblobs, hdb, hmapping⟩ := hop
    refine ⟨h.of_less rfl (fun _ => id) fun _ _ => id, ⟨rfl, hblobs, hdb, hmapping, ?_⟩,
      Nat.lt_succ_self 0⟩
    simp [TenancyOp.effect, TenancyStore.forgetPool, Table.has]
  | orgDeleting k =>
    obtain ⟨rfl, -⟩ := hop
    exact absurd rfl hlast
  | _ => exact hop.elim

/-- A call for an organization that is ready gets to the deletion of the rows. -/
theorem within_clears (hmulti : E.provider.singleTenant = none) (h : Ready E orgId s)
    (hscoped : Scoped orgId s) (hfits : E.blobs.tooMany s.objects (blobScope orgId) = false) :
    Within (tenancy E) (fun s op chance => op.Succeeds E s chance)
      (fun t op => op = .orgDeleting orgId ∧ Offboarded E orgId t ∧ Ready E orgId t ∧ Scoped orgId t)
      7 s (.scopeReading orgId) := by
  have hstart : Ready E orgId s ∧ Scoped orgId s ∧
      E.blobs.tooMany s.objects (blobScope orgId) = false ∧
      (TenancyOp.scopeReading orgId).Clears E orgId s := ⟨h, hscoped, hfits, rfl⟩
  refine Within.of_variant (fun _ (op : TenancyOp) => op.stepsToClear)
    (fun s (op : TenancyOp) => Ready E orgId s ∧ Scoped orgId s ∧
      E.blobs.tooMany s.objects (blobScope orgId) = false ∧ op.Clears E orgId s) ?_ hstart
  rintro t op ⟨h, hscoped, hfits, hop⟩
  by_cases hlast : op = .orgDeleting orgId
  · subst hlast
    exact .inl ⟨rfl, hop.2, h, hscoped⟩
  · have hover : op.isOver = false := by
      cases op with
      | served | refused | finished => exact hop.elim
      | _ => rfl
    refine .inr ⟨exists_succeeds_clears hfits hop, fun chance hok => ?_⟩
    obtain ⟨hready, hclears, hless⟩ := clears_next hmulti h hscoped hop hok hlast
    refine ⟨_, _, tenancyNext_of_succeeds hok hover, ⟨hready, scoped_effect hscoped, ?_, hclears⟩,
      hless⟩
    cases op with
    | scopeDeleting flow k scope => exact tooMany_deleteScope scope chance.blob hfits
    | _ => exact hfits

/-- Where no object lies under a scope, a deletion has nothing to go through. -/
theorem BlobsGone.fits (h : BlobsGone orgId s) :
    E.blobs.tooMany s.objects (blobScope orgId) = false := by
  cases hblobs : E.blobs with
  | localFs => rfl
  | r2 code =>
    have hnone : (s.objects.count fun key _ => objectsUnder (blobScope orgId) key) = 0 := by
      rw [Table.count_eq_zero_iff]
      intro object bytes hobject
      refine decide_eq_false fun hunder => ?_
      cases (h object hunder).symm.trans hobject
    exact decide_eq_false (by rw [hnone]; exact Nat.not_lt_zero _)

/-! ## A call that is stuck -/

/-- With an empty scope in the row the call fails at the blobs. -/
theorem stuck_of_unscoped {ok : TenancyStore → TenancyOp → TenancyChance → Prop}
    {t : TenancyStore} {row : TenantRow} (hrow : s.registry.get? orgId = some row)
    (hscope : row.blobScope = "") (h : Solo (tenancy E) ok s (.scopeReading orgId) t op) :
    op ≠ .orgDeleting orgId := by
  have hinv := h.invariant
    (fun u o => u.registry.get? orgId = some row ∧
      (o = .scopeReading orgId ∨ o = .scopeDeleting .route orgId "" ∨ o = .finished false)) ?_
    ⟨hrow, .inl rfl⟩
  · rintro rfl
    rcases hinv.2 with h | h | h <;> cases h
  · rintro u o chance u' o' ⟨hrow, rfl | rfl | rfl⟩ - hnext
    · have hnext : tenancyNext E u chance (.scopeReading orgId) = some (u', some o') := hnext
      obtain ⟨-, rfl, heq⟩ := tenancyNext_eq_some hnext
      cases heq
      refine ⟨by simpa only [TenancyOp.effect, ite_self] using hrow, .inr ?_⟩
      simp only [TenancyOp.next, hrow, hscope]
      split
      · exact .inl rfl
      · exact .inr rfl
    · have hnext : tenancyNext E u chance (.scopeDeleting .route orgId "") = some (u', some o') :=
        hnext
      obtain ⟨-, rfl, heq⟩ := tenancyNext_eq_some hnext
      cases heq
      refine ⟨?_, .inr (.inr rfl)⟩
      split <;> exact hrow
    · cases hnext

/-- Where a call is that has not deleted any blob. -/
def TenancyOp.Spares (orgId : Int64) : TenancyOp → Prop
  | scopeReading k | orgDeleting k => k = orgId
  | adminConnecting flow k | terminating flow k | dropping flow k | projectFinding flow k
  | projectDeleting flow k _ => flow = .route ∧ k = orgId
  | mappingForgetting flow k | poolForgetting flow k => flow = .offboarded ∧ k = orgId
  | finished _ => True
  | _ => False

theorem spares_deprovision : (E.provider.deprovision .route orgId).Spares orgId := by
  cases E.provider with
  | localDb | neon | single => exact ⟨rfl, rfl⟩

theorem spares_next {answered : Bool} (hrow : s.registry.get? orgId = none) (h : op.Spares orgId) :
    (op.next E s chance answered).Spares orgId := by
  cases op with
  | scopeReading k =>
    obtain rfl := h
    simp only [TenancyOp.next, hrow]
    split
    · exact spares_deprovision
    · trivial
  | orgDeleting k => trivial
  | adminConnecting flow k =>
    simp only [TenancyOp.next]
    split
    · exact h
    · trivial
  | terminating flow k => exact h
  | dropping flow k =>
    obtain ⟨rfl, rfl⟩ := h
    exact ⟨rfl, rfl⟩
  | projectFinding flow k =>
    obtain ⟨rfl, rfl⟩ := h
    simp only [TenancyOp.next]
    split
    · split <;> exact ⟨rfl, rfl⟩
    · trivial
  | projectDeleting flow k conn =>
    obtain ⟨rfl, rfl⟩ := h
    simp only [TenancyOp.next]
    split
    · exact ⟨rfl, rfl⟩
    · trivial
  | mappingForgetting flow k => exact h
  | poolForgetting flow k =>
    obtain ⟨rfl, rfl⟩ := h
    rfl
  | finished ok => trivial
  | _ => exact h.elim

theorem spares_effect (h : op.Spares orgId) :
    (op.effect E s chance).objects = s.objects ∧
      (s.registry.get? orgId = none → (op.effect E s chance).registry.get? orgId = none) := by
  cases op with
  | orgDeleting k =>
    refine ⟨rfl, fun hrow => ?_⟩
    simp only [TenancyOp.effect, TenancyStore.deleteOrg, Table.get?_delete, hrow, Option.filter_none]
  | scopeReading | adminConnecting | terminating | dropping | projectFinding | projectDeleting
  | mappingForgetting | poolForgetting | finished => exact ⟨rfl, id⟩
  | _ => exact h.elim

/-- Without a row no blob is deleted. -/
theorem blobs_left_of_unregistered {ok : TenancyStore → TenancyOp → TenancyChance → Prop}
    {t : TenancyStore} (hrow : s.registry.get? orgId = none)
    (h : Solo (tenancy E) ok s (.scopeReading orgId) t op) : t.objects = s.objects := by
  have hinv := h.invariant
    (fun u o => u.registry.get? orgId = none ∧ u.objects = s.objects ∧ o.Spares orgId) ?_
    ⟨hrow, rfl, rfl⟩
  · exact hinv.2.1
  · rintro u o chance u' o' ⟨hrow, hobjects, hop⟩ - hnext
    have heffect : (o.effect E u chance).objects = u.objects ∧ (u.registry.get? orgId = none →
        (o.effect E u chance).registry.get? orgId = none) := spares_effect hop
    obtain ⟨-, rfl, heq⟩ := tenancyNext_eq_some hnext
    cases heq
    refine ⟨?_, ?_, spares_next hrow hop⟩
    · split
      · exact heffect.2 hrow
      · exact hrow
    · split
      · exact heffect.1.trans hobjects
      · exact hobjects

/-- The projects that are left at Neon when there were several. -/
def TenancyOp.LeavesOne (E : TenancyEnv) (orgId : Int64) (s : TenancyStore) : TenancyOp → Prop
  | scopeReading k | scopeDeleting .route k _ | projectFinding .route k
  | projectDeleting .route k _ =>
    k = orgId ∧ ∃ conn conn', conn ≠ conn' ∧ OwnDb E orgId s conn ∧ OwnDb E orgId s conn'
  | mappingForgetting .offboarded _ | poolForgetting .offboarded _ | orgDeleting _ =>
    ∃ conn, OwnDb E orgId s conn
  | finished _ => True
  | _ => False

theorem leavesOne_step (hneon : E.provider = .neon) {answered : Bool}
    (h : op.LeavesOne E orgId s) :
    (op.next E s chance answered).LeavesOne E orgId (op.effect E s chance) ∧
      (op.next E s chance false).LeavesOne E orgId s := by
  have hdeprovision : ∀ flow, E.provider.deprovision flow orgId = .projectFinding flow orgId := by
    rw [hneon]
    exact fun _ => rfl
  cases op with
  | scopeReading k =>
    obtain ⟨rfl, hmany⟩ := h
    refine ⟨?_, trivial⟩
    simp only [TenancyOp.next, TenancyOp.effect]
    split
    · split
      · exact ⟨rfl, hmany⟩
      · rw [hdeprovision]
        exact ⟨rfl, hmany⟩
    · trivial
  | scopeDeleting flow k scope =>
    cases flow with
    | operator => exact h.elim
    | route =>
      obtain ⟨rfl, hmany⟩ := h
      simp only [TenancyOp.next, TenancyOp.effect]
      split
      · rw [hdeprovision]
        exact ⟨⟨rfl, hmany⟩, rfl, hmany⟩
      · exact ⟨trivial, trivial⟩
  | projectFinding flow k =>
    cases flow with
    | operator => exact h.elim
    | route =>
      obtain ⟨rfl, hmany⟩ := h
      refine ⟨?_, trivial⟩
      simp only [TenancyOp.next, TenancyOp.effect]
      split
      · split
        · exact ⟨rfl, hmany⟩
        · obtain ⟨conn, -, -, hconn, -⟩ := hmany
          exact ⟨conn, hconn⟩
      · trivial
  | projectDeleting flow k conn =>
    cases flow with
    | operator => exact h.elim
    | route =>
      obtain ⟨rfl, c, c', hne, hc, hc'⟩ := h
      refine ⟨?_, trivial⟩
      have hleft : ∀ c, c ≠ conn → OwnDb E k s c →
          OwnDb E k (TenancyOp.effect E s chance (.projectDeleting .route k conn)) c := by
        rintro c hne ⟨d, hd, hname⟩
        refine ⟨d, ?_, hname⟩
        simp only [TenancyOp.effect, TenancyStore.dropDatabases, Table.get?_delete, hd]
        simp [hne]
      simp only [TenancyOp.next]
      split
      · rcases eq_or_ne c conn with rfl | hother
        · exact ⟨c', hleft c' hne.symm hc'⟩
        · exact ⟨c, hleft c hother hc⟩
      · trivial
  | mappingForgetting flow k =>
    cases flow with
    | provisioned => exact h.elim
    | offboarded => exact ⟨h, h⟩
  | poolForgetting flow k =>
    cases flow with
    | provisioned => exact h.elim
    | offboarded => exact ⟨h, h⟩
  | orgDeleting | finished => exact ⟨trivial, trivial⟩
  | _ => exact h.elim

/-- Of several projects at Neon one is deleted. -/
theorem projects_left_of_many {ok : TenancyStore → TenancyOp → TenancyChance → Prop}
    {t : TenancyStore} {conn conn' : String} (hneon : E.provider = .neon) (hne : conn ≠ conn')
    (hconn : OwnDb E orgId s conn) (hconn' : OwnDb E orgId s conn')
    (h : Solo (tenancy E) ok s (.scopeReading orgId) t (.orgDeleting orgId)) :
    ∃ conn, OwnDb E orgId t conn := by
  refine h.invariant (fun u o => o.LeavesOne E orgId u) ?_ ⟨rfl, conn, conn', hne, hconn, hconn'⟩
  intro u o chance u' o' hop _ hnext
  obtain ⟨-, rfl, heq⟩ := tenancyNext_eq_some hnext
  cases heq
  split
  · exact (leavesOne_step hneon hop).1
  · rename_i htakes
    have hhears : o.hears chance = false :=
      Bool.eq_false_iff.2 fun hhears => htakes (TenancyOp.takes_of_hears hhears)
    have hboth : (o.next E u chance false).LeavesOne E orgId (o.effect E u chance) ∧
        (o.next E u chance false).LeavesOne E orgId u := leavesOne_step hneon hop
    rw [hhears]
    exact hboth.2

/-- A call that gets to its end was ready. -/
theorem ready_of_solo {ok : TenancyStore → TenancyOp → TenancyChance → Prop} {t : TenancyStore}
    (h : Solo (tenancy E) ok s (.scopeReading orgId) t (.orgDeleting orgId))
    (hoffboarded : Offboarded E orgId t) : Ready E orgId s := by
  refine ⟨fun row hrow hscope => stuck_of_unscoped hrow hscope h rfl, fun hrow object hunder => ?_,
    fun hneon conn conn' hconn hconn' => ?_⟩
  · rw [← blobs_left_of_unregistered hrow h]
    exact hoffboarded.blobs object hunder
  · by_contra hne
    obtain ⟨conn, hleft⟩ := projects_left_of_many hneon hne hconn hconn' h
    exact hoffboarded.database conn hleft

end Steps

/-- In every state that is reached, a call of `offboard_data` in which nothing fails gets to
`delete_org` with nothing left of the organization, and so does a second one, exactly if the
organization is ready. -/
theorem offboarding_completes {E : TenancyEnv} {orgId : Int64} {t u : Tenants}
    {es : List TenancyEvent} (hmulti : E.provider.singleTenant = none)
    (hscoped : Scoped orgId t.store) (hrun : Run (stepOf (tenancy E).step) t es u)
    (hfits : E.blobs.tooMany u.store.objects (blobScope orgId) = false) :
    Within (tenancy E) (fun s op chance => op.Succeeds E s chance)
      (fun v op => op = .orgDeleting orgId ∧ Offboarded E orgId v ∧
        Within (tenancy E) (fun s op chance => op.Succeeds E s chance)
          (fun w op => op = .orgDeleting orgId ∧ Offboarded E orgId w) 7 v (.scopeReading orgId))
      7 u.store (.scopeReading orgId) ↔ Ready E orgId u.store := by
  have hscoped := hrun.invariant (fun t => Scoped orgId t.store) (fun _ _ _ h => scoped_step h) hscoped
  constructor
  · intro hwithin
    obtain ⟨v, op, hsolo, rfl, hoffboarded, -⟩ := hwithin.solo
    exact ready_of_solo hsolo hoffboarded
  · intro hready
    refine (within_clears hmulti hready hscoped hfits).mono ?_ (le_refl 7)
    rintro v op ⟨rfl, hoffboarded, hready, hscoped⟩
    refine ⟨rfl, hoffboarded, ?_⟩
    refine (within_clears hmulti hready hscoped hoffboarded.blobs.fits).mono ?_ (le_refl 7)
    exact fun w op h => ⟨h.1, h.2.1⟩

theorem scoped_of_empty (orgId : Int64) : Scoped orgId {} := by
  intro row hrow
  cases (hrow : (Table.empty : Table Int64 TenantRow).get? orgId = some row)

/-- The organization is served, and stores a file. -/
def serveSeven : List TenancyEvent := List.flatten [
  .start (.resolving ⟨7, 0⟩) :: List.replicate 7 (.advance 1 {}),
  [.commit (.putBlob 7 "proof.png" [1] {})]]

/-- An organization that is in use is offboarded. -/
theorem offboarding_completes_provisioned :
    ∃ u, Run (stepOf (tenancy localTenants).step) ⟨{}, []⟩ (provisionSeven 10 ++ serveSeven) u ∧
      u.store.cache.has 7 = true ∧ u.store.pools.has 7 = true ∧
      u.store.objects.has "t/7/proof.png" = true ∧
      Within (tenancy localTenants) (fun s op chance => op.Succeeds localTenants s chance)
        (fun v op => op = .orgDeleting 7 ∧ Offboarded localTenants 7 v ∧
          Within (tenancy localTenants) (fun s op chance => op.Succeeds localTenants s chance)
            (fun w op => op = .orgDeleting 7 ∧ Offboarded localTenants 7 w) 7 v (.scopeReading 7))
        7 u.store (.scopeReading 7) := by
  have hsome : ((runOf (tenancy localTenants).step ⟨{}, []⟩ (provisionSeven 10 ++ serveSeven)).any
      fun u => ((u.store.registry.get? 7).any fun row => row.blobScope ≠ "") &&
        (u.store.cache.has 7 && u.store.pools.has 7 && u.store.objects.has "t/7/proof.png")) =
      true := by decide
  obtain ⟨u, hu, hboth⟩ := (Option.any_eq_true _ _).1 hsome
  obtain ⟨hrow, hserved⟩ := Bool.and_eq_true_iff.1 hboth
  obtain ⟨row, hrow, hscope⟩ := (Option.any_eq_true _ _).1 hrow
  obtain ⟨hserved, hobject⟩ := Bool.and_eq_true_iff.1 hserved
  obtain ⟨hcache, hpool⟩ := Bool.and_eq_true_iff.1 hserved
  have hready : Ready localTenants 7 u.store := by
    refine ⟨fun row' hrow' => ?_, fun hnone => ?_, fun hneon => absurd hneon localTenants_ne_neon⟩
    · rw [Option.some.inj (hrow'.symm.trans hrow)]
      exact of_decide_eq_true hscope
    · cases hnone.symm.trans hrow
  exact ⟨u, Run.of_runOf hu, hcache, hpool, hobject,
    (offboarding_completes rfl (scoped_of_empty 7) (Run.of_runOf hu) rfl).2 hready⟩

/-- The provisioning has stopped after its first step, and the organization cannot be
offboarded. -/
theorem unscoped_offboarding_is_stuck :
    ¬ ∀ (E : TenancyEnv) (orgId : Int64) (u : Tenants) (es : List TenancyEvent),
      E.provider.singleTenant = none → Run (stepOf (tenancy E).step) ⟨{}, []⟩ es u →
      E.blobs.tooMany u.store.objects (blobScope orgId) = false →
      ∃ n, Within (tenancy E) (fun s op chance => op.Succeeds E s chance)
        (fun v op => op = .orgDeleting orgId ∧ Offboarded E orgId v) n u.store
        (.scopeReading orgId) := by
  intro hall
  have hsome : ((runOf (tenancy localTenants).step ⟨{}, []⟩
      (provisionSeven 1 ++ [.abandon 0])).any fun u => u.store.registry.get? 7 = some {}) = true := by
    decide
  obtain ⟨u, hu, hrow⟩ := (Option.any_eq_true _ _).1 hsome
  obtain ⟨n, hwithin⟩ := hall localTenants 7 u _ rfl (Run.of_runOf hu) rfl
  obtain ⟨v, op, hsolo, rfl, -⟩ := hwithin.solo
  exact stuck_of_unscoped (of_decide_eq_true hrow) rfl hsolo rfl

/-! ## Among other calls -/

/-- Whether a call has deleted the blobs of the organization. -/
def TenancyOp.clearedBlobs (orgId : Int64) : TenancyOp → Bool
  | adminConnecting .route k | terminating .route k | dropping .route k | projectFinding .route k
  | projectDeleting .route k _ | mappingForgetting .offboarded k | poolForgetting .offboarded k
  | orgDeleting k => k = orgId
  | _ => false

/-- Whether it has deleted the database. -/
def TenancyOp.clearedDb (orgId : Int64) : TenancyOp → Bool
  | mappingForgetting .offboarded k | poolForgetting .offboarded k | orgDeleting k => k = orgId
  | _ => false

/-- A step of an operator who offboards the organization, or one of the route with a scope that
is not its own. -/
def TenancyOp.Foreign (orgId : Int64) : TenancyOp → Prop
  | scopeListing k | adminConnecting (.operator _) k | terminating (.operator _) k
  | dropping (.operator _) k | projectFinding (.operator _) k | projectDeleting (.operator _) k _
  | scopeDeleting (.operator _) k _ => k = orgId
  | scopeDeleting .route k scope => k = orgId ∧ scope ≠ "" ∧ scope ≠ blobScope orgId
  | _ => False

/-- What a call has done, when the steps of the run are those of `Erasing`. -/
structure TenancyOp.Erased (E : TenancyEnv) (orgId : Int64) (s : TenancyStore) (op : TenancyOp) :
    Prop where
  own : ¬ op.Foreign orgId
  blobs : op.clearedBlobs orgId = true → BlobsGone orgId s
  database : op.clearedDb orgId = true → DbGone E orgId s

/-- When a step of the teardown does what is said of it.  A `DROP DATABASE` takes effect where
there is a database, Neon has one project of the name, and an organization without a row has
no blobs. -/
def TenancyOp.TakesDown (E : TenancyEnv) (orgId : Int64) (s : TenancyStore) (chance : TenancyChance) :
    TenancyOp → Prop
  | scopeReading k => k = orgId → s.registry.get? orgId = none → BlobsGone orgId s
  | dropping _ k => k = orgId → chance.result = .failed → DbGone E orgId s
  | projectDeleting _ k conn => k = orgId → ∀ conn', OwnDb E orgId s conn' → conn' = conn
  | _ => True

/-- The steps of a run in which the rows go last.  No operator offboards the organization, every
step of the teardown takes effect, and nobody makes a database or a blob for the organization
that a call under way has already deleted. -/
def Erasing (E : TenancyEnv) (orgId : Int64) (s : Tenants) (e : TenancyEvent) (_ : Tenants) : Prop :=
  match e with
  | .start op => op ≠ .scopeListing orgId
  | .advance i chance => ∀ op, s.inFlight[i]? = some op →
      op.TakesDown E orgId s.store chance ∧
        ∀ flow, op = .dbCreating flow orgId → ∀ o ∈ s.inFlight, o.clearedDb orgId = false
  | .commit (.putBlob k ..) => k = orgId → ∀ o ∈ s.inFlight, o.clearedBlobs orgId = false
  | _ => True

section Erasing

variable {E : TenancyEnv} {orgId : Int64} {s s' : TenancyStore} {chance : TenancyChance}
  {op : TenancyOp}

theorem BlobsGone.mono (h : BlobsGone orgId s)
    (hless : ∀ object bytes, s'.objects.get? object = some bytes →
      Under '/' (blobScope orgId).toList object.toList →
      ∃ bytes', s.objects.get? object = some bytes') : BlobsGone orgId s' := by
  intro object hunder
  cases hobject : s'.objects.get? object with
  | none => rfl
  | some bytes =>
    obtain ⟨bytes', hbytes'⟩ := hless object bytes hobject hunder
    cases (h object hunder).symm.trans hbytes'

/-- No step of a call makes a blob. -/
theorem blobsGone_effect (h : BlobsGone orgId s) : BlobsGone orgId (op.effect E s chance) := by
  refine h.mono fun object bytes hobject _ => ⟨bytes, ?_⟩
  cases op with
  | scopeDeleting flow k scope => exact get?_of_deleteScope hobject
  | _ => exact hobject

/-- A database is made by its own step. -/
theorem dbGone_effect (hmulti : E.provider.singleTenant = none) (h : DbGone E orgId s)
    (hcreate : ∀ flow, op ≠ .dbCreating flow orgId) : DbGone E orgId (op.effect E s chance) := by
  rintro conn ⟨d, hd, hname⟩
  rcases db_of_effect hd with ⟨d', hd', hsame⟩ | ⟨flow, k, rfl, -, -, hnew⟩
  · exact h conn ⟨d', hd', hsame.trans hname⟩
  · have hk : k = orgId := Provider.databaseName_inj hmulti (hnew.symm.trans hname)
    exact hcreate flow (by rw [hk])

/-- The blobs of another organization lie elsewhere. -/
theorem blobsGone_put {k : Int64} {key : String} {bytes : Bytes} {c : BlobChance}
    (h : BlobsGone orgId s) (hk : k ≠ orgId) : BlobsGone orgId { s with
      objects := ((E.blobs.forTenant (blobScope k)).put s.objects key bytes c).1 } := by
  refine h.mono fun object bytes' hobject hunder => ⟨bytes', ?_⟩
  have hother : ∀ object', (E.blobs.forTenant (blobScope k)).physical key = some object' →
      object ≠ object' := by
    rintro object' hphysical rfl
    exact hk (under_unique (under_physical hphysical) hunder)
  rwa [get?_put_of_ne hother] at hobject

/-- A step of another call keeps what a call has done. -/
theorem TenancyOp.Erased.of_effect {o : TenancyOp} (hmulti : E.provider.singleTenant = none)
    (h : o.Erased E orgId s)
    (hcreate : ∀ flow, op = .dbCreating flow orgId → o.clearedDb orgId = false) :
    o.Erased E orgId (op.effect E s chance) := by
  refine ⟨h.own, fun hcleared => blobsGone_effect (h.blobs hcleared), fun hcleared =>
    dbGone_effect hmulti (h.database hcleared) ?_⟩
  rintro flow rfl
  cases hcleared.symm.trans (hcreate flow rfl)

/-- A call that has done nothing yet for the organization. -/
theorem TenancyOp.Erased.of_uncleared (hown : ¬ op.Foreign orgId)
    (hblobs : op.clearedBlobs orgId = false) (hdatabase : op.clearedDb orgId = false) :
    op.Erased E orgId s :=
  ⟨hown, fun h => absurd (hblobs.symm.trans h) Bool.false_ne_true,
    fun h => absurd (hdatabase.symm.trans h) Bool.false_ne_true⟩

theorem erased_afterProvisioning (flow : ProvisionFlow) (k : Int64) (ok : Bool) :
    (afterProvisioning flow k ok).Erased E orgId s := by
  cases flow with
  | request => cases ok <;> exact .of_uncleared not_false rfl rfl
  | reconcile rest => cases rest <;> exact .of_uncleared not_false rfl rfl

/-- A call goes to the provider when the blobs are deleted. -/
theorem erased_deprovision {k : Int64} (hmulti : E.provider.singleTenant = none)
    (hblobs : k = orgId → BlobsGone orgId s) :
    (E.provider.deprovision .route k).Erased E orgId s := by
  cases hprovider : E.provider with
  | localDb url =>
    exact ⟨not_false, fun hk => hblobs (of_decide_eq_true hk), fun h => absurd h Bool.false_ne_true⟩
  | neon =>
    exact ⟨not_false, fun hk => hblobs (of_decide_eq_true hk), fun h => absurd h Bool.false_ne_true⟩
  | single conn =>
    rw [hprovider] at hmulti
    cases hmulti

theorem erased_deprovision_operator {k : Int64} {scope : String} (hk : k ≠ orgId) :
    (E.provider.deprovision (.operator scope) k).Erased E orgId s := by
  cases E.provider with
  | localDb | neon | single => exact .of_uncleared hk rfl rfl

/-- It goes to the caches when the database is deleted, too. -/
theorem erased_afterDeprovision {flow : TeardownFlow} {k : Int64}
    (hown : ∀ scope, flow = .operator scope → k ≠ orgId)
    (hblobs : flow = .route → k = orgId → BlobsGone orgId s) (hdb : k = orgId → DbGone E orgId s) :
    (afterDeprovision flow k).Erased E orgId s := by
  cases flow with
  | route =>
    exact ⟨not_false, fun hk => hblobs rfl (of_decide_eq_true hk),
      fun hk => hdb (of_decide_eq_true hk)⟩
  | operator scope => exact .of_uncleared (hown scope rfl) rfl rfl

theorem erased_next (hmulti : E.provider.singleTenant = none) (hscoped : Scoped orgId s)
    (h : op.Erased E orgId s) (htakes : op.TakesDown E orgId s chance) :
    (op.next E s chance (op.hears chance)).Erased E orgId
      (if op.takes chance then op.effect E s chance else s) := by
  have hfinished : ∀ s ok, (TenancyOp.finished ok).Erased E orgId s := fun _ _ =>
    .of_uncleared not_false rfl rfl
  cases op with
  | scopeReading k =>
    simp only [TenancyOp.next, TenancyOp.effect, ite_self]
    split
    · split
      · rename_i row hrow
        refine .of_uncleared ?_ rfl rfl
        rintro ⟨rfl, hempty, hother⟩
        exact (hscoped row hrow).elim hempty hother
      · rename_i hnone
        exact erased_deprovision hmulti fun hk => htakes hk (hk ▸ hnone)
    · exact hfinished _ _
  | scopeDeleting flow k scope =>
    rw [if_pos (show (TenancyOp.scopeDeleting flow k scope).takes chance = true from rfl)]
    cases flow with
    | operator scope' =>
      have hk : k ≠ orgId := h.own
      exact .of_uncleared not_false (decide_eq_false hk) (decide_eq_false hk)
    | route =>
      simp only [TenancyOp.next]
      split
      · rename_i hdeleted
        refine erased_deprovision hmulti fun hk => ?_
        subst hk
        have hscope : scope = blobScope k := by
          by_contra hother
          refine h.own ⟨rfl, ?_, hother⟩
          rintro rfl
          exact absurd hdeleted Bool.false_ne_true
        subst hscope
        exact blobsGone_deleteScope hdeleted
      · exact hfinished _ _
  | adminConnecting flow k =>
    simp only [TenancyOp.next, TenancyOp.effect, ite_self]
    split
    · cases flow <;> exact ⟨h.own, h.blobs, h.database⟩
    · exact hfinished _ _
  | terminating flow k =>
    simp only [TenancyOp.next, TenancyOp.effect, ite_self]
    cases flow <;> exact ⟨h.own, h.blobs, h.database⟩
  | dropping flow k =>
    refine erased_afterDeprovision ?_ ?_ fun hk => ?_
    · rintro scope rfl
      exact h.own
    · rintro rfl hk
      have hblobs := h.blobs (decide_eq_true hk)
      split
      · exact blobsGone_effect hblobs
      · exact hblobs
    · split
      · subst hk
        exact dbGone_dropping
      · rename_i hfailed
        refine htakes hk ?_
        simpa [TenancyOp.takes, TenancyOp.remote] using hfailed
  | projectFinding flow k =>
    simp only [TenancyOp.next, TenancyOp.effect, ite_self]
    split
    · split
      · cases flow <;> exact ⟨h.own, h.blobs, h.database⟩
      · rename_i hnone
        refine erased_afterDeprovision ?_ ?_ fun hk => ?_
        · rintro scope rfl
          exact h.own
        · rintro rfl hk
          exact h.blobs (decide_eq_true hk)
        · subst hk
          exact dbGone_of_findDatabase hnone
    · exact hfinished _ _
  | projectDeleting flow k conn =>
    cases hhears : (TenancyOp.projectDeleting flow k conn).hears chance with
    | false => exact hfinished _ _
    | true =>
      rw [if_pos (TenancyOp.takes_of_hears hhears)]
      refine erased_afterDeprovision ?_ ?_ fun hk => ?_
      · rintro scope rfl
        exact h.own
      · rintro rfl hk
        exact blobsGone_effect (h.blobs (decide_eq_true hk))
      · subst hk
        exact dbGone_projectDeleting (htakes rfl)
  | mappingForgetting flow k =>
    have hkept : (TenancyOp.mappingForgetting flow k).Erased E orgId
        (if (TenancyOp.mappingForgetting flow k).takes chance then
          (TenancyOp.mappingForgetting flow k).effect E s chance else s) := by
      split
      · exact h.of_effect hmulti fun _ heq => by cases heq
      · exact h
    cases flow with
    | provisioned => exact .of_uncleared not_false rfl rfl
    | offboarded => exact ⟨not_false, hkept.blobs, hkept.database⟩
  | poolForgetting flow k =>
    have hkept : (TenancyOp.poolForgetting flow k).Erased E orgId
        (if (TenancyOp.poolForgetting flow k).takes chance then
          (TenancyOp.poolForgetting flow k).effect E s chance else s) := by
      split
      · exact h.of_effect hmulti fun _ heq => by cases heq
      · exact h
    cases flow with
    | provisioned => exact hfinished _ _
    | offboarded => exact ⟨not_false, hkept.blobs, hkept.database⟩
  | scopeListing k =>
    simp only [TenancyOp.next, TenancyOp.effect, ite_self]
    split
    · exact erased_deprovision_operator h.own
    · exact hfinished _ _
  | registryReading call =>
    generalize (if (TenancyOp.registryReading call).takes chance then _ else s) = s'
    simp only [TenancyOp.next]
    split
    · rcases afterRegistry_cases E.provider call s.now (s.registry.get? call.orgId) with
        ⟨error, hafter⟩ | ⟨row, mapping, -, -, -, hafter⟩
      · rw [hafter]
        exact .of_uncleared not_false rfl rfl
      · rw [hafter]
        exact .of_uncleared not_false rfl rfl
    · exact .of_uncleared not_false rfl rfl
  | _ =>
    simp only [TenancyOp.next]
    repeat' split
    all_goals
      first
      | exact .of_uncleared not_false rfl rfl
      | exact erased_afterProvisioning _ _ _

/-- A call that starts has done nothing. -/
theorem erased_starts (hstarts : op.starts E s = true) (hop : op ≠ .scopeListing orgId) :
    op.Erased E orgId s := by
  cases op with
  | scopeListing k =>
    refine .of_uncleared ?_ rfl rfl
    rintro rfl
    exact hop rfl
  | resolving | pendingListing | intending | statusReading | scopeReading =>
    exact .of_uncleared not_false rfl rfl
  | _ => exact Bool.noConfusion hstarts

theorem keepsOutline_erased (hmulti : E.provider.singleTenant = none) :
    KeepsOutline (tenancy E) (Erasing E orgId) (Scoped orgId) (fun s op => op.Erased E orgId s)
      fun _ _ => True where
  start s s' op _ hguard hstarts := ⟨erased_starts hstarts hguard, fun _ _ => trivial⟩
  advance s s' i chance op store next h hguard hop hnext := by
    have herased := h.each op (List.mem_of_getElem? hop)
    obtain ⟨htakes, hcreate⟩ := hguard op hop
    obtain ⟨-, rfl, rfl⟩ := tenancyNext_eq_some hnext
    refine ⟨?_, fun o ho => ?_, fun op' heq => ⟨?_, fun _ _ => trivial⟩⟩
    · split
      · exact scoped_effect h.store
      · exact h.store
    · have ho := List.mem_of_mem_eraseIdx ho
      split
      · exact (h.each o ho).of_effect hmulti fun flow heq => hcreate flow heq o ho
      · exact h.each o ho
    · cases heq
      exact erased_next hmulti h.store herased htakes
  commit s s' c store h hguard hwrite := by
    refine ⟨scoped_write h.store hwrite, fun o ho => ?_⟩
    have herased := h.each o ho
    cases c with
    | tick now =>
      obtain ⟨-, heq⟩ := Option.ite_none_right_eq_some.1 hwrite
      cases heq
      exact ⟨herased.own, herased.blobs, herased.database⟩
    | createOrg k =>
      obtain ⟨-, heq⟩ := Option.ite_none_left_eq_some.1 hwrite
      cases heq
      exact ⟨herased.own, herased.blobs, herased.database⟩
    | putBlob k key bytes c =>
      cases hwrite
      refine ⟨herased.own, fun hcleared => ?_, herased.database⟩
      refine blobsGone_put (herased.blobs hcleared) fun hk => ?_
      cases (hguard hk o ho).symm.trans hcleared
    | _ =>
      cases hwrite
      exact ⟨herased.own, herased.blobs, herased.database⟩

/-- The rows of an organization go with one step. -/
theorem orgDeleting_of_lost
    (hlost : orgId ∈ s.orgs ∧ orgId ∉ (op.effect E s chance).orgs ∨
      s.registry.has orgId = true ∧ (op.effect E s chance).registry.has orgId = false) :
    op = .orgDeleting orgId := by
  cases op with
  | orgDeleting k =>
    by_contra hother
    have hk : orgId ≠ k := fun hk => hother (by rw [hk])
    rcases hlost with ⟨horg, hgone⟩ | ⟨hrow, hgone⟩
    · exact hgone (List.mem_filter.2 ⟨horg, decide_eq_true hk⟩)
    · have hsame : (s.deleteOrg k).registry.get? orgId = s.registry.get? orgId :=
        Table.get?_delete_of_false s.registry fun _ => decide_eq_false hk
      rw [Table.has_eq_false_iff] at hgone
      rw [Table.has, ← hsame, show (s.deleteOrg k).registry.get? orgId = none from hgone] at hrow
      cases hrow
  | intending flow k =>
    rcases hlost with ⟨horg, hgone⟩ | ⟨hrow, hgone⟩
    · exact absurd horg hgone
    · have hkept : Kept E orgId s (TenancyOp.effect E s chance (.intending flow k)) :=
        kept_beginProvisioning k
      cases hgone.symm.trans (hkept.row hrow)
  | connStoring | blobRecording | activating | statusWriting =>
    rcases hlost with ⟨horg, hgone⟩ | ⟨hrow, hgone⟩
    · exact absurd horg hgone
    · cases ((TenancyStore.has_updateTenant s _ _ orgId).symm.trans hgone).symm.trans hrow
  | _ =>
    rcases hlost with ⟨horg, hgone⟩ | ⟨hrow, hgone⟩
    · exact absurd horg hgone
    · cases hgone.symm.trans hrow

theorem not_lost_write {c : TenancyWrite} (hwrite : tenancyWrite E s c = some s') :
    (orgId ∈ s.orgs → orgId ∈ s'.orgs) ∧
      (s.registry.has orgId = true → s'.registry.has orgId = true) := by
  cases c with
  | tick now =>
    obtain ⟨-, heq⟩ := Option.ite_none_right_eq_some.1 hwrite
    cases heq
    exact ⟨id, id⟩
  | createOrg k =>
    obtain ⟨-, heq⟩ := Option.ite_none_left_eq_some.1 hwrite
    cases heq
    exact ⟨List.mem_append_left _, id⟩
  | rotate k conn =>
    cases hwrite
    exact ⟨id, fun hrow => (TenancyStore.has_updateTenant s _ _ orgId).trans hrow⟩
  | _ =>
    cases hwrite
    exact ⟨id, id⟩

end Erasing

/-- In a run whose steps are those of `Erasing`, a call of `offboard_data` that has succeeded
has erased the organization, and whenever its rows go, its database and its blobs are gone. -/
theorem erasure_is_real {E : TenancyEnv} {orgId : Int64} {t u : Tenants} {es : List TenancyEvent}
    (hmulti : E.provider.singleTenant = none) (hidle : t.inFlight = [])
    (hscoped : Scoped orgId t.store)
    (hrun : Run (Guarded (stepOf (tenancy E).step) (Erasing E orgId)) t es u) :
    (.orgDeleting orgId ∈ u.inFlight → DbGone E orgId u.store ∧ BlobsGone orgId u.store) ∧
    ∀ e v, (tenancy E).step u e = some v →
      orgId ∈ u.store.orgs ∧ orgId ∉ v.store.orgs ∨
        u.store.registry.has orgId = true ∧ v.store.registry.has orgId = false →
      DbGone E orgId u.store ∧ BlobsGone orgId u.store := by
  have houtline := Outline.run (keepsOutline_erased hmulti) hrun (outline_of_idle hscoped hidle)
  have hreported : .orgDeleting orgId ∈ u.inFlight →
      DbGone E orgId u.store ∧ BlobsGone orgId u.store := by
    intro hop
    have herased := houtline.each _ hop
    have hcleared : decide (orgId = orgId) = true := decide_eq_true rfl
    exact ⟨herased.database hcleared, herased.blobs hcleared⟩
  refine ⟨hreported, fun e v hstep hlost => ?_⟩
  cases Program.effect_of_step hstep with
  | start | abandon =>
    rcases hlost with ⟨horg, hgone⟩ | ⟨hrow, hgone⟩
    · exact absurd horg hgone
    · cases hgone.symm.trans hrow
  | @advance i chance op store next hop hnext =>
    obtain ⟨-, rfl, -⟩ := tenancyNext_eq_some hnext
    dsimp only at hlost
    split at hlost
    · obtain rfl := orgDeleting_of_lost hlost
      exact hreported (List.mem_of_getElem? hop)
    · rcases hlost with ⟨horg, hgone⟩ | ⟨hrow, hgone⟩
      · exact absurd horg hgone
      · cases hgone.symm.trans hrow
  | @commit c store hwrite =>
    obtain ⟨horgs, hrows⟩ := not_lost_write hwrite
    rcases hlost with ⟨horg, hgone⟩ | ⟨hrow, hgone⟩
    · exact absurd (horgs horg) hgone
    · cases hgone.symm.trans (hrows hrow)

/-- The guard, as a check. -/
def erasing (orgId : Int64) (s : Tenants) : TenancyEvent → Bool
  | .start op => op ≠ .scopeListing orgId
  | .advance i chance => (s.inFlight[i]?).all fun op =>
    match op with
    | .scopeReading k => k ≠ orgId || s.store.registry.has orgId
    | .dropping _ k => k ≠ orgId || chance.result ≠ .failed
    | .projectDeleting _ k _ => k ≠ orgId
    | .dbCreating _ k => k ≠ orgId || s.inFlight.all fun o => !o.clearedDb orgId
    | _ => true
  | .commit (.putBlob k ..) => k ≠ orgId || s.inFlight.all fun o => !o.clearedBlobs orgId
  | _ => true

theorem erasing_sound {E : TenancyEnv} (orgId : Int64) (s : Tenants) (e : TenancyEvent)
    (s' : Tenants) (h : erasing orgId s e = true) : Erasing E orgId s e s' := by
  cases e with
  | start op => exact (of_decide_eq_true h : op ≠ .scopeListing orgId)
  | abandon i => trivial
  | commit c =>
    cases c with
    | putBlob k key bytes c =>
      intro hk o ho
      simp only [erasing, hk, ne_eq, not_true, decide_false, Bool.false_or, List.all_eq_true,
        Bool.not_eq_true'] at h
      exact h o ho
    | _ => trivial
  | advance i chance =>
    intro op hop
    rw [erasing, hop] at h
    cases op with
    | scopeReading k =>
      refine ⟨fun hk hnone => ?_, fun _ heq => by cases heq⟩
      have hhas : s.store.registry.has orgId = true := by simpa [hk] using h
      rw [Table.has, hnone] at hhas
      cases hhas
    | dropping flow k =>
      refine ⟨fun hk hfailed => ?_, fun _ heq => by cases heq⟩
      simp [hk, hfailed] at h
    | projectDeleting flow k conn =>
      refine ⟨fun hk => ?_, fun _ heq => by cases heq⟩
      simp [hk] at h
    | dbCreating flow k =>
      refine ⟨trivial, fun flow' heq o ho => ?_⟩
      cases heq
      have hall : (s.inFlight.all fun o => !o.clearedDb orgId) = true := by simpa using h
      exact Bool.not_eq_true' _ ▸ List.all_eq_true.1 hall o ho
    | _ => exact ⟨trivial, fun _ heq => by cases heq⟩

/-- The owner deletes the organization, alone.  The result of `DROP DATABASE` is given. -/
def teardownSeven (drop : CallResult) : List TenancyEvent :=
  .advance 0 {} :: .advance 0 {} :: .advance 0 {} :: .advance 0 {} ::
    .advance 0 { result := drop } :: [.advance 0 {}, .advance 0 {}]

/-- The database is dropped, with no answer, and the organization is erased. -/
theorem erasure_is_real_provisioned :
    ∃ u, Run (Guarded (stepOf (tenancy localTenants).step) (Erasing localTenants 7)) ⟨{}, []⟩
        (provisionSeven 10 ++ .abandon 0 :: .start (.scopeReading 7) :: teardownSeven .unanswered) u ∧
      .orgDeleting 7 ∈ u.inFlight ∧ DbGone localTenants 7 u.store ∧ BlobsGone 7 u.store := by
  have hsome : ((runOf (checked (tenancy localTenants).step (erasing 7)) ⟨{}, []⟩
      (provisionSeven 10 ++ .abandon 0 :: .start (.scopeReading 7) :: teardownSeven .unanswered)).any
      fun u => u.inFlight = [.orgDeleting 7]) = true := by decide
  obtain ⟨u, hu, hflight⟩ := (Option.any_eq_true _ _).1 hsome
  have hrun : Run (Guarded (stepOf (tenancy localTenants).step) (Erasing localTenants 7)) ⟨{}, []⟩
      (provisionSeven 10 ++ .abandon 0 :: .start (.scopeReading 7) :: teardownSeven .unanswered) u :=
    Run.of_runOf_checked (erasing_sound 7) hu
  have hmem : .orgDeleting 7 ∈ u.inFlight := by
    rw [of_decide_eq_true hflight]
    exact List.mem_singleton_self _
  exact ⟨u, hrun, hmem, (erasure_is_real rfl rfl (scoped_of_empty 7) hrun).1 hmem⟩

/-- Another session is open, `DROP DATABASE` fails, and the call succeeds. -/
theorem failed_drop_is_reported_gone :
    ¬ ∀ (E : TenancyEnv) (orgId : Int64) (t u : Tenants) (es fs : List TenancyEvent),
      E.provider.singleTenant = none → Run (stepOf (tenancy E).step) ⟨{}, []⟩ es t →
      (∀ e ∈ fs, ∃ chance, e = .advance 0 chance) →
      Run (stepOf (tenancy E).step) ⟨t.store, [.scopeReading orgId]⟩ fs u →
      .orgDeleting orgId ∈ u.inFlight → DbGone E orgId u.store := by
  intro hall
  have hsome : ((runOf (tenancy localTenants).step ⟨{}, []⟩ (provisionSeven 10)).any fun t =>
      (runOf (tenancy localTenants).step ⟨t.store, [.scopeReading 7]⟩ (teardownSeven .failed)).any
        fun u => u.inFlight = [.orgDeleting 7] &&
          (u.store.databases.get? (swapDb "postgres://db/reproit" (dbName 7))).any fun d =>
            d.name = dbName 7) = true := by decide
  obtain ⟨t, ht, hsome⟩ := (Option.any_eq_true _ _).1 hsome
  obtain ⟨u, hu, hsome⟩ := (Option.any_eq_true _ _).1 hsome
  obtain ⟨hflight, hleft⟩ := Bool.and_eq_true_iff.1 hsome
  obtain ⟨d, hd, hname⟩ := (Option.any_eq_true _ _).1 hleft
  have hadvances : ∀ e ∈ teardownSeven .failed, ∃ chance, e = .advance 0 chance := by
    simp [teardownSeven]
  refine hall localTenants 7 t u _ _ rfl (Run.of_runOf ht) hadvances (Run.of_runOf hu) ?_ _
    ⟨d, hd, of_decide_eq_true hname⟩
  rw [of_decide_eq_true hflight]
  exact List.mem_singleton_self _

end ReproitCloud
