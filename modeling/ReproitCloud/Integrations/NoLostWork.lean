import ReproitCloud.Integrations.Outbox

/-!
# The outbox keeps its work

A drain deletes an item for four reasons.  Two of them are right when they are given: the
newest row is a tester capture, and a ticket is stored.  The other two are right only in a
good run.  A configuration that could not be read is taken as none, and a bucket that was
read as empty may have rows by the time the item is deleted, whose ingest has found the
item there and inserted none.

* `outbox_keeps_work`: in a run without these two, every bucket with rows has an item or a
  ticket, if none of its rows is a tester capture and its app has a tracker row that works.
* `unread_configuration_loses_work`: one read of the configuration fails, and the item is
  deleted.
-/

namespace ReproitCloud

open Lib

/-- The bucket has an item in the outbox, or a ticket. -/
def Accounted (s : TicketStore) (app bucket : String) : Prop :=
  s.telemetry.integrationOutbox.has (app, bucket, fileIssue) = true ∨
    (ticketForBucket s.telemetry app bucket).isSome

instance (s : TicketStore) (app bucket : String) : Decidable (Accounted s app bucket) :=
  inferInstanceAs (Decidable (_ ∨ _))

/-- The ingest has found the item of the bucket there, and will insert none. -/
def TicketOp.hasFound (app bucket : String) : TicketOp → Bool
  | ingestCommitting _ b found => b.appId = app && found.contains bucket
  | _ => false

/-! ## The condition -/

/-- No occurrence of the bucket is a tester capture. -/
def PlainBatch (P : Platform) (app bucket : String) (b : IngestBatch) : Prop :=
  b.appId = app → ∀ record ∈ b.errors, P.bucketId record = bucket → isTesterCapture record = false

instance (P : Platform) (app bucket : String) (b : IngestBatch) :
    Decidable (PlainBatch P app bucket b) :=
  inferInstanceAs (Decidable (_ → _))

/-- What is said of the bucket: its occurrences are no tester captures, and the row of
its app works throughout. -/
def FilesByRow (E : TicketEnv) (app bucket : String) (_ : Ticketing) :
    TicketEvent → Ticketing → Prop
  | .start (.ingesting _ b), _ => PlainBatch E.platform app bucket b
  | .commit (.configure a row), _ => a = app → (fromConfig E.tracker row).isSome
  | _, _ => True

/-- The call of a drain at an item of the bucket, as it should be.  The configuration is
read, or the environment has one.  An item is deleted for want of rows while there are
none, and no ingest under way relies on it. -/
def ItemPoint.keepsWork (E : TicketEnv) (s : Ticketing) (app bucket : String)
    (result : CallResult) : ItemPoint → Prop
  | .configuring => result = .answered ∨ (resolve E.tracker app).isSome
  | .completing .empty => result ≠ .failed →
    s.store.telemetry.bucketRows app bucket = [] ∧
      ∀ o ∈ s.inFlight, o.hasFound app bucket = false
  | _ => True

/-- The guard of a run for a bucket. -/
def KeepsWork (E : TicketEnv) (app bucket : String) (s : Ticketing) (e : TicketEvent)
    (s' : Ticketing) : Prop :=
  FilesByRow E app bucket s e s' ∧
    match e with
    | .advance i chance => ∀ item rest point, s.inFlight[i]? = some (.draining item rest point) →
        (item.appId, item.bucketId) = (app, bucket) →
        point.keepsWork E s app bucket chance.result
    | _ => True

/-! ## The outline -/

/-- An item was claimed from the outbox: a row under its id is the item's. -/
def ClaimedFrom (t : TenantStore) (item : WorkItem) : Prop :=
  item.id < t.nextOutboxId ∧ ∀ k row, t.integrationOutbox.get? k = some row → row.id = item.id →
    k.1 = item.appId ∧ k.2.1 = item.bucketId

/-- What a drain knows where it deletes an item. -/
def ItemPoint.Knows (s : TicketStore) (app bucket : String) : ItemPoint → Prop
  | .completing .unconfigured => False
  | .completing .tester => False
  | .completing .linked => (ticketForBucket s.telemetry app bucket).isSome
  | _ => True

/-- What a process knows of the bucket. -/
def TicketOp.Knows (E : TicketEnv) (app bucket : String) (s : TicketStore) : TicketOp → Prop
  | ingesting _ b => PlainBatch E.platform app bucket b
  | ingestCommitting now b found => PlainBatch E.platform app bucket b ∧
      (hasFound app bucket (ingestCommitting now b found) = true → Accounted s app bucket)
  | draining item rest point => (∀ i ∈ item :: rest, ClaimedFrom s.telemetry i) ∧
      ((item.appId, item.bucketId) = (app, bucket) → point.Knows s app bucket)
  | _ => True

/-- What holds of the tables. -/
structure WorkKept (E : TicketEnv) (app bucket : String) (s : TicketStore) : Prop where
  works : ∃ row tracker, s.projectIntegrations.get? app = some row ∧
    fromConfig E.tracker row = some tracker
  sound : OutboxSound s.telemetry
  summaries : SummariesAgree s.telemetry
  plain : ∀ r ∈ s.telemetry.bucketRows app bucket, isTesterCapture r.record = false
  accounted : s.telemetry.bucketRows app bucket ≠ [] → Accounted s app bucket

/-- What a step leaves to the other processes, but for the items of the bucket. -/
structure LeavesTickets (app bucket : String) (s s' : TicketStore) : Prop where
  serial : s.telemetry.nextOutboxId ≤ s'.telemetry.nextOutboxId
  items : ∀ k row', s'.telemetry.integrationOutbox.get? k = some row' →
    (∃ row, s.telemetry.integrationOutbox.get? k = some row ∧ row.id = row'.id) ∨
      s.telemetry.nextOutboxId ≤ row'.id
  ticket : (ticketForBucket s.telemetry app bucket).isSome →
    (ticketForBucket s'.telemetry app bucket).isSome

section Knowledge

variable {E : TicketEnv} {app bucket : String} {s s' : TicketStore}

theorem ClaimedFrom.mono {item : WorkItem} (h : ClaimedFrom s.telemetry item)
    (hleaves : LeavesTickets app bucket s s') : ClaimedFrom s'.telemetry item := by
  refine ⟨Nat.lt_of_lt_of_le h.1 hleaves.serial, fun k row' hrow' hid => ?_⟩
  rcases hleaves.items k row' hrow' with ⟨row, hrow, hsame⟩ | hnew
  · exact h.2 k row hrow (hsame.trans hid)
  · have := h.1
    omega

theorem ItemPoint.Knows.mono {point : ItemPoint} (h : point.Knows s app bucket)
    (hleaves : LeavesTickets app bucket s s') : point.Knows s' app bucket := by
  cases point with
  | completing reason =>
    cases reason with
    | linked => exact hleaves.ticket h
    | unconfigured | tester => exact h.elim
    | empty => trivial
  | configuring | reading | filing _ | checking => trivial

/-- What a process knows is not disturbed by a step that leaves the bucket accounted for,
if the process relies on that. -/
theorem TicketOp.Knows.mono {op : TicketOp} (h : op.Knows E app bucket s)
    (hleaves : LeavesTickets app bucket s s')
    (haccounted : op.hasFound app bucket = true → Accounted s app bucket →
      Accounted s' app bucket) : op.Knows E app bucket s' := by
  cases op with
  | ingesting now b => exact h
  | ingestCommitting now b found => exact ⟨h.1, fun hfound => haccounted hfound (h.2 hfound)⟩
  | draining item rest point =>
    exact ⟨fun i hi => (h.1 i hi).mono hleaves, fun hkey => (h.2 hkey).mono hleaves⟩
  | claiming | postConfiguring _ _ | postLooking _ _ | postReading _ _ | confirmReading _ _
    | filing _ _ _ => trivial

theorem LeavesTickets.refl : LeavesTickets app bucket s s :=
  ⟨le_refl _, fun _ row' h => .inl ⟨row', h, rfl⟩, fun h => h⟩

/-- A step that changes no item and no ticket. -/
theorem leavesTickets_of_sameQueue (h : SameQueue s.telemetry s'.telemetry) :
    LeavesTickets app bucket s s' := by
  refine ⟨le_of_eq h.serial.symm, fun k row' hrow' => ?_, fun hticket => ?_⟩
  · rw [h.outbox] at hrow'
    exact .inl ⟨row', hrow', rfl⟩
  · rw [ticketForBucket, h.tickets]
    exact hticket

theorem accounted_of_sameQueue (h : SameQueue s.telemetry s'.telemetry) :
    Accounted s' app bucket ↔ Accounted s app bucket := by
  rw [Accounted, Accounted, h.outbox, ticketForBucket, ticketForBucket, h.tickets]

end Knowledge

/-! ## What the calls do -/

/-- What a call does that neither stores occurrences nor deletes an item. -/
structure KeepsTables (app bucket : String) (s s' : TicketStore) : Prop
    extends LeavesTickets app bucket s s' where
  integrations : s'.projectIntegrations = s.projectIntegrations
  errors : s'.telemetry.errors = s.telemetry.errors
  summaries : s'.telemetry.bucketSummaries = s.telemetry.bucketSummaries
  sound : OutboxSound s.telemetry → OutboxSound s'.telemetry
  accounted : Accounted s app bucket → Accounted s' app bucket

section Calls

variable {E : TicketEnv} {app bucket : String} {s s' : TicketStore}

theorem keepsTables_of_sameQueue (h : SameQueue s.telemetry s'.telemetry)
    (hintegrations : s'.projectIntegrations = s.projectIntegrations)
    (herrors : s'.telemetry.errors = s.telemetry.errors)
    (hsummaries : s'.telemetry.bucketSummaries = s.telemetry.bucketSummaries) :
    KeepsTables app bucket s s' where
  toLeavesTickets := leavesTickets_of_sameQueue h
  integrations := hintegrations
  errors := herrors
  summaries := hsummaries
  sound := fun hsound => hsound.congr h
  accounted := (accounted_of_sameQueue h).2

theorem KeepsTables.refl : KeepsTables app bucket s s :=
  keepsTables_of_sameQueue (.refl _) rfl rfl rfl

theorem keepsTables_filing (f : Filing) (a b : String) (issue : String × String) :
    KeepsTables app bucket s (f.effect s a b issue) := by
  cases f with
  | resolving | looking _ => exact .refl
  | creating tracker => exact keepsTables_of_sameQueue (.refl _) rfl rfl rfl
  | linking link =>
    have hticket : (ticketForBucket s.telemetry app bucket).isSome →
        (ticketForBucket (linkTicket s.telemetry a b link) app bucket).isSome := by
      intro h
      have hget := ticketForBucket_linkTicket s.telemetry a b link app bucket
      rw [hget]
      split
      · rfl
      · exact h
    exact {
      serial := le_refl _
      items := fun _ row' hrow' => .inl ⟨row', hrow', rfl⟩
      ticket := hticket
      integrations := rfl
      errors := rfl
      summaries := rfl
      sound := fun hsound => ⟨hsound.bounded, hsound.distinct⟩
      accounted := fun h => h.imp_right hticket }

/-- A claim changes no id. -/
theorem keepsTables_claim (now : Micros) (ids : List Nat) :
    KeepsTables app bucket s { s with telemetry := claimIntegrationWork s.telemetry now ids } := by
  have hitems : ∀ k row', (claimIntegrationWork s.telemetry now ids).integrationOutbox.get? k =
      some row' → ∃ row, s.telemetry.integrationOutbox.get? k = some row ∧ row.id = row'.id := by
    intro k row' hrow'
    rw [claimIntegrationWork, Table.get?_update] at hrow'
    obtain ⟨row, hrow, rfl⟩ := Option.map_eq_some_iff.1 hrow'
    refine ⟨row, hrow, ?_⟩
    split <;> rfl
  exact {
    serial := le_refl _
    items := fun k row' hrow' => .inl (hitems k row' hrow')
    ticket := fun h => h
    integrations := rfl
    errors := rfl
    summaries := rfl
    sound := by
      intro hsound
      constructor
      · intro k row' hrow'
        obtain ⟨row, hrow, hid⟩ := hitems k row' hrow'
        exact hid ▸ hsound.bounded k row hrow
      · intro k k' row1 row2 hrow1 hrow2 hid
        obtain ⟨old1, hold1, hid1⟩ := hitems k row1 hrow1
        obtain ⟨old2, hold2, hid2⟩ := hitems k' row2 hrow2
        exact hsound.distinct k k' old1 old2 hold1 hold2 (hid1.trans (hid.trans hid2.symm))
    accounted := by
      intro h
      refine h.imp_left fun hhas => ?_
      obtain ⟨row, hrow⟩ := Option.isSome_iff_exists.1 hhas
      rw [Table.has, claimIntegrationWork, Table.get?_update, hrow]
      rfl }

/-- Deleting an item leaves the bucket accounted for, unless it is the item of the bucket
that goes. -/
theorem accounted_complete {item : WorkItem} (h : Accounted s app bucket)
    (hclaimed : ClaimedFrom s.telemetry item) :
    Accounted { s with telemetry := completeIntegrationWork s.telemetry item.id } app bucket ∨
      (item.appId, item.bucketId) = (app, bucket) := by
  rcases h with hhas | hticket
  · obtain ⟨row, hrow⟩ := Option.isSome_iff_exists.1 hhas
    by_cases hid : row.id = item.id
    · obtain ⟨happ, hbucket⟩ := hclaimed.2 _ row hrow hid
      exact .inr (Prod.ext happ.symm hbucket.symm)
    · refine .inl (.inl ?_)
      rw [Table.has, completeIntegrationWork, Table.get?_delete, hrow]
      simp [Option.filter, hid]
  · exact .inl (.inr hticket)

theorem leavesTickets_complete (id : Nat) :
    LeavesTickets app bucket s { s with telemetry := completeIntegrationWork s.telemetry id } := by
  refine ⟨le_refl _, fun k row' hrow' => ?_, fun h => h⟩
  rw [completeIntegrationWork, Table.get?_delete, Option.filter_eq_some_iff] at hrow'
  exact .inl ⟨row', hrow'.1, rfl⟩

theorem outboxSound_complete {t : TenantStore} (h : OutboxSound t) (id : Nat) :
    OutboxSound (completeIntegrationWork t id) := by
  have hrows : ∀ k row, (completeIntegrationWork t id).integrationOutbox.get? k = some row →
      t.integrationOutbox.get? k = some row := by
    intro k row hrow
    rw [completeIntegrationWork, Table.get?_delete, Option.filter_eq_some_iff] at hrow
    exact hrow.1
  exact ⟨fun k row hrow => h.bounded k row (hrows k row hrow),
    fun k k' row row' hrow hrow' => h.distinct k k' row row' (hrows k row hrow) (hrows k' row' hrow')⟩

/-- What holds of the tables is read off them. -/
theorem WorkKept.congr (h : WorkKept E app bucket s) (hkeeps : KeepsTables app bucket s s') :
    WorkKept E app bucket s' where
  works := by
    rw [hkeeps.integrations]
    exact h.works
  sound := hkeeps.sound h.sound
  summaries := by
    intro a b
    rw [TenantStore.bucketRows, hkeeps.errors, hkeeps.summaries]
    exact h.summaries a b
  plain := by
    rw [TenantStore.bucketRows, hkeeps.errors]
    exact h.plain
  accounted := by
    rw [TenantStore.bucketRows, hkeeps.errors]
    exact fun hrows => hkeeps.accounted (h.accounted hrows)

/-- The rows of the bucket after an ingest are the old ones, and those of its batch. -/
theorem bucketRows_ingested {P : Platform} {t t' : TenantStore} {now : Micros} {b : IngestBatch}
    (h : Ingested P t now b t') {r : ErrorRow} (hr : r ∈ t'.bucketRows app bucket) :
    r ∈ t.bucketRows app bucket ∨
      b.appId = app ∧ ∃ record ∈ b.errors, r.record = record ∧ P.bucketId record = bucket := by
  rw [bucketRows_insert _ _ _ _ h.inserted.errors] at hr
  rcases List.mem_append.1 hr with hold | hnew
  · refine .inl ?_
    obtain ⟨traffic, htraffic⟩ := recordTraffic_eq t now b.appId b.deployment
    rw [htraffic] at hold
    exact hold
  · obtain ⟨hnumbered, hin⟩ := List.mem_filter.1 hnew
    obtain ⟨happ, -, record, hrecord, heq, hid⟩ := mem_numbered_newError hnumbered
    obtain ⟨happ', hid'⟩ := inBucket_iff.1 hin
    rw [hid, Option.some.injEq] at hid'
    exact .inr ⟨happ.symm.trans happ', record, hrecord, heq, hid'⟩

/-- An ingest keeps the bucket accounted for: an item that it has found is not lost before
its commit, and it inserts the others. -/
theorem workKept_ingest {now : Micros} {b : IngestBatch} {found : List String} {t : TenantStore}
    (h : WorkKept E app bucket s)
    (hknows : (TicketOp.ingestCommitting now b found).Knows E app bucket s)
    (hcommit : commitIngest E.platform s.telemetry now b found = some t) :
    WorkKept E app bucket { s with telemetry := t } ∧
      LeavesTickets app bucket s { s with telemetry := t } ∧
      (Accounted s app bucket → Accounted { s with telemetry := t } app bucket) := by
  obtain ⟨dup, u, hingest, herrors, hsummaries, hqueue⟩ := enqueued_commitIngest hcommit
  rcases hqueue with ⟨rfl, hsame⟩ | hqueued
  · have hkeeps : KeepsTables app bucket s { s with telemetry := t } :=
      keepsTables_of_sameQueue hsame rfl herrors hsummaries
    exact ⟨h.congr hkeeps, hkeeps.toLeavesTickets, hkeeps.accounted⟩
  have hticket : (ticketForBucket s.telemetry app bucket).isSome →
      (ticketForBucket t app bucket).isSome := by
    rw [ticketForBucket, ticketForBucket, hqueued.tickets]
    exact fun h => h
  have haccounted : Accounted s app bucket → Accounted { s with telemetry := t } app bucket := by
    refine Or.imp (fun hhas => ?_) hticket
    obtain ⟨row, hrow⟩ := Option.isSome_iff_exists.1 hhas
    exact Option.isSome_iff_exists.2 ⟨row, hqueued.keeps _ row hrow⟩
  refine ⟨?_, ⟨hqueued.serial, fun k row' hrow' => ?_, hticket⟩, haccounted⟩
  · have hrows : ∀ r ∈ t.bucketRows app bucket, r ∈ s.telemetry.bucketRows app bucket ∨
        b.appId = app ∧ ∃ record ∈ b.errors, r.record = record ∧
          E.platform.bucketId record = bucket := by
      intro r hr
      rw [TenantStore.bucketRows, herrors] at hr
      rcases ingestBatch_cases hingest with ⟨rfl, -⟩ | ⟨-, hing⟩
      · exact .inl hr
      · exact bucketRows_ingested hing hr
    refine ⟨h.works, hqueued.sound h.sound, ?_, fun r hr => ?_, fun hne => ?_⟩
    · intro a c
      rw [TenantStore.bucketRows, herrors, hsummaries]
      rcases ingestBatch_cases hingest with ⟨rfl, -⟩ | ⟨-, hing⟩
      · exact h.summaries a c
      · refine summariesAgree_inserted hing.inserted ?_ a c
        obtain ⟨traffic, htraffic⟩ := recordTraffic_eq s.telemetry now b.appId b.deployment
        rw [htraffic]
        exact h.summaries
    · rcases hrows r hr with hold | ⟨happ, record, hrecord, heq, hid⟩
      · exact h.plain r hold
      · rw [heq]
        exact hknows.1 happ record hrecord hid
    · obtain ⟨r, hr⟩ := List.exists_mem_of_ne_nil _ hne
      rcases hrows r hr with hold | ⟨happ, record, hrecord, -, hid⟩
      · exact haccounted (h.accounted (List.ne_nil_of_mem hold))
      · by_cases hfound : bucket ∈ found
        · -- the insert has done nothing, as the item was there
          exact haccounted (hknows.2 (by simp [TicketOp.hasFound, happ, hfound]))
        · refine .inl ?_
          have hbucket : bucket ∈ batchBuckets E.platform b := by
            rw [← hid]
            exact List.mem_map_of_mem hrecord
          have hhas := hqueued.queued bucket (List.mem_filter.2 ⟨hbucket, by simpa using hfound⟩)
          rwa [happ] at hhas
  · rcases hqueued.fresh k row' hrow' with hold | hnew
    · exact .inl ⟨row', hold, rfl⟩
    · exact .inr hnew

/-- The retention delete and `set_integration`. -/
theorem workKept_commit {c : TicketCommit} (h : WorkKept E app bucket s)
    (hworks : ∀ a row, c = .configure a row → a = app → (fromConfig E.tracker row).isSome)
    (hwrite : commitTickets E s c = some s') :
    WorkKept E app bucket s' ∧ SameQueue s.telemetry s'.telemetry := by
  cases c with
  | configure a row =>
    cases hwrite
    refine ⟨⟨?_, h.sound, h.summaries, h.plain, h.accounted⟩, .refl _⟩
    by_cases happ : a = app
    · obtain ⟨tracker, htracker⟩ := Option.isSome_iff_exists.1 (hworks a row rfl happ)
      refine ⟨row, tracker, ?_, htracker⟩
      refine (Table.get?_upsert ..).trans ?_
      rw [if_pos happ.symm]
      cases s.projectIntegrations.get? a <;> rfl
    · obtain ⟨row', tracker, hrow', htracker⟩ := h.works
      refine ⟨row', tracker, ?_, htracker⟩
      exact ((Table.get?_upsert ..).trans (if_neg (Ne.symm happ))).trans hrow'
  | expire now days limit ids =>
    obtain ⟨t, ht, rfl⟩ := Option.map_eq_some_iff.1 hwrite
    obtain ⟨order, horder, hok⟩ := Option.bind_eq_some_iff.1 ht
    have hdelete := eq_ok_of_toOption hok
    obtain ⟨hsummaries, herrors⟩ :=
      summariesAgree_deleteErrors h.summaries (inOrder_perm horder) hdelete
    have hsame := sameQueue_deleteErrors hdelete
    -- the rows left are rows that were there
    have hrows : ∀ r ∈ t.bucketRows app bucket, r ∈ s.telemetry.bucketRows app bucket := by
      intro r hr
      rw [TenantStore.bucketRows, herrors] at hr
      obtain ⟨hmem, hin⟩ := List.mem_filter.1 hr
      exact List.mem_filter.2 ⟨List.mem_of_mem_filter hmem, hin⟩
    refine ⟨⟨h.works, h.sound.congr hsame, hsummaries, fun r hr => h.plain r (hrows r hr),
      fun hne => ?_⟩, hsame⟩
    obtain ⟨r, hr⟩ := List.exists_mem_of_ne_nil _ hne
    exact (accounted_of_sameQueue hsame).2 (h.accounted (List.ne_nil_of_mem (hrows r hr)))

end Calls

/-! ## Where the processes go -/

section Moves

variable {E : TicketEnv} {app bucket : String} {s : TicketStore} {chance : TicketChance}

/-- The items of a claim are rows of the outbox. -/
theorem claimedFrom_workItem {t : TenantStore} (h : OutboxSound t) {id : Nat} {item : WorkItem}
    (hitem : workItem t id = some item) : ClaimedFrom t item := by
  obtain ⟨⟨k, row⟩, hfound, rfl⟩ := Option.map_eq_some_iff.1 hitem
  have hrow := Table.get?_eq_some_iff.2 (List.mem_of_find?_eq_some hfound)
  have hid : row.id = id := by simpa using List.find?_some hfound
  refine ⟨hid ▸ h.bounded k row hrow, fun k' row' hrow' hid' => ?_⟩
  rw [h.distinct k' k row' row hrow' hrow (hid'.trans hid.symm)]
  exact ⟨rfl, rfl⟩

theorem knows_nextItem {rest : List WorkItem} {op' : TicketOp}
    (h : ∀ i ∈ rest, ClaimedFrom s.telemetry i) (hnext : nextItem rest = some op') :
    op'.Knows E app bucket s := by
  cases rest with
  | nil => cases hnext
  | cons item rest =>
    cases hnext
    exact ⟨h, fun _ => trivial⟩

/-- A working row is found when it is read, and else the environment has a tracker. -/
theorem configured_of_read {answered : Bool} (h : WorkKept E app bucket s)
    (hread : answered = true ∨ (resolve E.tracker app).isSome) :
    (resolveFor E.tracker (integrationFor s app answered) app).isSome := by
  obtain ⟨row, tracker, hrow, htracker⟩ := h.works
  cases answered with
  | true =>
    rw [integrationFor, if_pos rfl, hrow, resolveFor_of_row htracker]
    rfl
  | false =>
    rcases hread with hfalse | henv
    · cases hfalse
    · exact henv

/-- A process knows what it is to know at the point it goes to. -/
theorem knows_next {op op' : TicketOp} {answered : Bool} (hkept : WorkKept E app bucket s)
    (hknows : op.Knows E app bucket s)
    (hread : ∀ item rest, op = .draining item rest .configuring →
      (item.appId, item.bucketId) = (app, bucket) →
      answered = true ∨ (resolve E.tracker app).isSome)
    (hnext : op.next E s chance answered = some op') : op'.Knows E app bucket s := by
  cases op with
  | ingesting now b =>
    rw [TicketOp.next, Option.ite_none_right_eq_some] at hnext
    obtain ⟨-, heq⟩ := hnext
    cases heq
    refine ⟨hknows, fun hfound => .inl ?_⟩
    simp only [TicketOp.hasFound, queuedBuckets, Bool.and_eq_true, decide_eq_true_eq,
      List.contains_iff_mem, List.mem_filter] at hfound
    obtain ⟨happ, -, hhas⟩ := hfound
    rwa [happ] at hhas
  | ingestCommitting now b found => cases hnext
  | claiming =>
    rw [TicketOp.next, Option.ite_none_right_eq_some] at hnext
    refine knows_nextItem (fun i hi => ?_) hnext.2
    obtain ⟨id, -, hid⟩ := List.mem_filterMap.1 hi
    exact claimedFrom_workItem hkept.sound hid
  | draining item rest point =>
    have hrest : ∀ i ∈ rest, ClaimedFrom s.telemetry i :=
      fun i hi => hknows.1 i (List.mem_cons_of_mem _ hi)
    rw [TicketOp.next] at hnext
    cases point with
    | configuring =>
      rw [drainNext] at hnext
      split at hnext
      · cases hnext
        exact ⟨hknows.1, fun _ => trivial⟩
      · rename_i hnone
        cases hnext
        refine ⟨hknows.1, fun hkey => ?_⟩
        have hconfigured := configured_of_read hkept (hread item rest rfl hkey)
        rw [Prod.mk.injEq] at hkey
        rw [hkey.1] at hnone
        exact hnone hconfigured
    | reading =>
      rw [drainNext] at hnext
      split at hnext
      · rcases bucketEndpoints_cases hkept.summaries item.appId item.bucketId with
          ⟨hnone, -⟩ | ⟨oldest, r, hr, hsome⟩
        · rw [hnone] at hnext
          cases hnext
          exact ⟨hknows.1, fun _ => trivial⟩
        · rw [hsome] at hnext
          dsimp only at hnext
          split at hnext
          · rename_i htester
            cases hnext
            refine ⟨hknows.1, fun hkey => ?_⟩
            rw [Prod.mk.injEq] at hkey
            rw [hkey.1, hkey.2] at hr
            rw [hkept.plain r hr] at htester
            cases htester
          · cases hnext
            exact ⟨hknows.1, fun _ => trivial⟩
      · exact knows_nextItem hrest hnext
    | filing f =>
      rw [drainNext] at hnext
      split at hnext <;> cases hnext <;> exact ⟨hknows.1, fun _ => trivial⟩
    | checking =>
      rw [drainNext] at hnext
      split at hnext
      · rename_i hticket
        cases hnext
        refine ⟨hknows.1, fun hkey => ?_⟩
        rw [Prod.mk.injEq] at hkey
        rw [Bool.and_eq_true, hkey.1, hkey.2] at hticket
        exact hticket.2
      · exact knows_nextItem hrest hnext
    | completing reason => exact knows_nextItem hrest hnext
  | postConfiguring _ _ | postLooking _ _ | postReading _ _ | confirmReading _ _ =>
    rw [TicketOp.next, Option.ite_none_right_eq_some] at hnext
    obtain ⟨-, heq⟩ := hnext
    cases heq
    trivial
  | filing a b f =>
    obtain ⟨f', -, rfl⟩ := Option.map_eq_some_iff.1 hnext
    trivial

/-- Only an ingest at its commit relies on an item that it has found. -/
theorem hasFound_next {op op' : TicketOp} {answered : Bool}
    (hnext : op.next E s chance answered = some op') (hfound : op'.hasFound app bucket = true) :
    ∃ now b, op = .ingesting now b := by
  have hitems : ∀ rest, nextItem rest = some op' → False := by
    intro rest hrest
    cases rest <;> cases hrest
    cases hfound
  cases op with
  | ingesting now b => exact ⟨now, b, rfl⟩
  | ingestCommitting now b found => cases hnext
  | claiming =>
    rw [TicketOp.next, Option.ite_none_right_eq_some] at hnext
    exact (hitems _ hnext.2).elim
  | draining item rest point =>
    rw [TicketOp.next] at hnext
    cases point with
    | configuring | filing _ =>
      rw [drainNext] at hnext
      split at hnext <;> cases hnext <;> cases hfound
    | reading =>
      rw [drainNext] at hnext
      split at hnext
      · split at hnext
        · split at hnext <;> cases hnext <;> cases hfound
        · cases hnext
          cases hfound
      · exact (hitems _ hnext).elim
    | checking =>
      rw [drainNext] at hnext
      split at hnext
      · cases hnext
        cases hfound
      · exact (hitems _ hnext).elim
    | completing reason => exact (hitems _ hnext).elim
  | postConfiguring _ _ | postLooking _ _ | postReading _ _ | confirmReading _ _ =>
    rw [TicketOp.next, Option.ite_none_right_eq_some] at hnext
    obtain ⟨-, heq⟩ := hnext
    cases heq
    cases hfound
  | filing a b f =>
    obtain ⟨f', -, rfl⟩ := Option.map_eq_some_iff.1 hnext
    cases hfound

end Moves

/-! ## Runs -/

section Steps

variable {E : TicketEnv} {app bucket : String} {s s' : Ticketing} {i : Nat}

/-- What a call does to the tables and to what the others know, when it takes effect. -/
theorem workKept_effect {chance : TicketChance} {op : TicketOp}
    (h : Outline (WorkKept E app bucket) (fun u o => o.Knows E app bucket u) (fun _ _ => True) s)
    (hop : s.inFlight[i]? = some op) (hresult : chance.result ≠ .failed)
    (hok : KeepsWork E app bucket s (.advance i chance) s') :
    WorkKept E app bucket (op.effect E s.store chance) ∧
      LeavesTickets app bucket s.store (op.effect E s.store chance) ∧
      ∀ o ∈ s.inFlight.eraseIdx i, o.hasFound app bucket = true →
        Accounted s.store app bucket → Accounted (op.effect E s.store chance) app bucket := by
  have hknows := h.each op (List.mem_of_getElem? hop)
  have hkeeps : KeepsTables app bucket s.store (op.effect E s.store chance) →
      WorkKept E app bucket (op.effect E s.store chance) ∧
        LeavesTickets app bucket s.store (op.effect E s.store chance) ∧
        ∀ o ∈ s.inFlight.eraseIdx i, o.hasFound app bucket = true →
          Accounted s.store app bucket → Accounted (op.effect E s.store chance) app bucket :=
    fun hkeeps => ⟨h.store.congr hkeeps, hkeeps.toLeavesTickets, fun _ _ _ => hkeeps.accounted⟩
  cases op with
  | ingestCommitting now b found =>
    rw [TicketOp.effect] at hkeeps ⊢
    cases hcommit : commitIngest E.platform s.store.telemetry now b found with
    | none => exact ⟨h.store, .refl, fun _ _ _ h => h⟩
    | some t =>
      obtain ⟨hkept, hleaves, haccounted⟩ := workKept_ingest h.store hknows hcommit
      exact ⟨hkept, hleaves, fun _ _ _ => haccounted⟩
  | draining item rest point =>
    cases point with
    | filing f => exact hkeeps (keepsTables_filing f _ _ _)
    | configuring | reading | checking => exact hkeeps .refl
    | completing reason =>
      have hclaimed := hknows.1 item List.mem_cons_self
      have hguard := hok.2 item rest _ hop
      -- an item of the bucket goes with a ticket stored, or with nothing that needs it
      have hreason : (item.appId, item.bucketId) = (app, bucket) →
          (ticketForBucket s.store.telemetry app bucket).isSome ∨
            s.store.telemetry.bucketRows app bucket = [] ∧
              ∀ o ∈ s.inFlight, o.hasFound app bucket = false := by
        intro hkey
        have hpoint := hknows.2 hkey
        cases reason with
        | unconfigured | tester => exact hpoint.elim
        | linked => exact .inl hpoint
        | empty => exact .inr (hguard hkey hresult)
      refine ⟨⟨h.store.works, outboxSound_complete h.store.sound item.id, h.store.summaries,
        h.store.plain, fun hne => ?_⟩, leavesTickets_complete item.id, fun o ho hfound hacc => ?_⟩
      · rcases accounted_complete (h.store.accounted hne) hclaimed with hacc | hkey
        · exact hacc
        · rcases hreason hkey with hticket | ⟨hempty, -⟩
          · exact .inr hticket
          · exact absurd hempty hne
      · rcases accounted_complete hacc hclaimed with hacc | hkey
        · exact hacc
        · rcases hreason hkey with hticket | ⟨-, hnone⟩
          · exact .inr hticket
          · rw [hnone o (List.mem_of_mem_eraseIdx ho)] at hfound
            cases hfound
  | claiming => exact hkeeps (keepsTables_claim _ _)
  | filing a b f => exact hkeeps (keepsTables_filing f _ _ _)
  | ingesting _ _ | postConfiguring _ _ | postLooking _ _ | postReading _ _
    | confirmReading _ _ => exact hkeeps .refl

theorem keepsOutline_work (E : TicketEnv) (app bucket : String) :
    KeepsOutline (tickets E) (KeepsWork E app bucket) (WorkKept E app bucket)
      (fun u o => o.Knows E app bucket u) (fun _ _ => True) where
  start := by
    intro s s' op _ hok hstarts
    refine ⟨?_, fun _ _ => trivial⟩
    cases op with
    | ingesting now b => exact hok.1
    | claiming | postConfiguring _ _ | confirmReading _ _ => trivial
    | ingestCommitting _ _ _ | draining _ _ _ | postLooking _ _ | postReading _ _
      | filing _ _ _ => cases hstarts
  advance := by
    intro s s' i chance op store next h hok hop hnext
    have hknows := h.each op (List.mem_of_getElem? hop)
    have hothers : ∀ o ∈ s.inFlight.eraseIdx i, o.Knows E app bucket s.store :=
      fun o ho => h.each o (List.mem_of_mem_eraseIdx ho)
    have hcall : ticketNext E s.store (s.inFlight.eraseIdx i) chance op = some (store, next) :=
      hnext
    rcases ticketNext_cases hcall with ⟨hfailed, rfl, rfl⟩ | ⟨hresult, -, rfl, rfl⟩
    · refine ⟨h.store, hothers, fun op' hop' => ⟨?_, fun _ _ => trivial⟩⟩
      refine knows_next h.store hknows (fun item rest heq hkey => .inr ?_) hop'
      subst heq
      rcases hok.2 item rest _ hop hkey with hanswered | henv
      · rw [hfailed] at hanswered
        cases hanswered
      · exact henv
    · obtain ⟨hkept, hleaves, haccounted⟩ := workKept_effect h hop hresult hok
      refine ⟨hkept, fun o ho => (hothers o ho).mono hleaves (haccounted o ho),
        fun op' hop' => ⟨?_, fun _ _ => trivial⟩⟩
      have hthis : op'.Knows E app bucket s.store := by
        refine knows_next h.store hknows (fun item rest heq hkey => ?_) hop'
        subst heq
        rcases hok.2 item rest _ hop hkey with hanswered | henv
        · exact .inl (decide_eq_true hanswered)
        · exact .inr henv
      refine hthis.mono hleaves fun hfound hacc => ?_
      obtain ⟨now, b, rfl⟩ := hasFound_next hop' hfound
      exact hacc
  commit := by
    intro s s' c store h hok hwrite
    obtain ⟨hkept, hsame⟩ := workKept_commit h.store (fun a row heq happ => by
      subst heq
      exact hok.1 happ) hwrite
    exact ⟨hkept, fun o ho => (h.each o ho).mono (leavesTickets_of_sameQueue hsame)
      fun _ => (accounted_of_sameQueue hsame).2⟩

end Steps

theorem workKept_init {E : TicketEnv} {integrations : Table String IntegrationRow}
    {row : IntegrationRow} {app : String} (hrow : integrations.get? app = some row)
    (hworks : (fromConfig E.tracker row).isSome) (bucket : String) :
    WorkKept E app bucket (Ticketing.init integrations).store := by
  obtain ⟨tracker, htracker⟩ := Option.isSome_iff_exists.1 hworks
  exact ⟨⟨row, tracker, hrow, htracker⟩, ⟨nofun, nofun⟩, fun _ _ => rfl, nofun,
    fun hne => absurd rfl hne⟩

/-- In a run whose drains read the configuration, and delete no item for want of rows once
the bucket has some, every bucket with rows has an item or a ticket. -/
theorem outbox_keeps_work {E : TicketEnv} {integrations : Table String IntegrationRow}
    {row : IntegrationRow} {app bucket : String} {es : List TicketEvent} {s : Ticketing}
    (hrow : integrations.get? app = some row) (hworks : (fromConfig E.tracker row).isSome)
    (hrun : Run (Guarded (stepOf (tickets E).step) (KeepsWork E app bucket))
      (Ticketing.init integrations) es s)
    (hrows : s.store.telemetry.bucketRows app bucket ≠ []) : Accounted s.store app bucket := by
  have hout := Outline.run (keepsOutline_work E app bucket) hrun
    (outline_of_idle (workKept_init hrow hworks bucket) rfl)
  exact hout.store.accounted hrows

/-- The guards, computed, for runs without tester captures and changes of a row. -/
def filesByRow : TicketEvent → Bool
  | .start (.ingesting _ b) => b.errors.all fun record => !isTesterCapture record
  | .commit (.configure _ _) => false
  | _ => true

theorem filesByRow_sound (E : TicketEnv) (app bucket : String) (s : Ticketing) (e : TicketEvent)
    (s' : Ticketing) (h : filesByRow e = true) : FilesByRow E app bucket s e s' := by
  cases e with
  | start op =>
    cases op with
    | ingesting now b =>
      intro _ record hrecord _
      simpa using List.all_eq_true.1 h record hrecord
    | ingestCommitting _ _ _ | claiming | draining _ _ _ | postConfiguring _ _ | postLooking _ _
      | postReading _ _ | confirmReading _ _ | filing _ _ _ => trivial
  | commit c =>
    cases c with
    | configure a row => cases h
    | expire now days limit ids => trivial
  | advance i chance | abandon i => trivial

def drainsWell (s : Ticketing) : TicketEvent → Bool
  | .advance i chance => (s.inFlight[i]?).all fun op =>
      match op with
      | .draining _ _ .configuring => chance.result = .answered
      | .draining _ _ (.completing .empty) => false
      | _ => true
  | _ => true

theorem keepsWork_sound (E : TicketEnv) (app bucket : String) (s : Ticketing) (e : TicketEvent)
    (s' : Ticketing) (h : (filesByRow e && drainsWell s e) = true) :
    KeepsWork E app bucket s e s' := by
  rw [Bool.and_eq_true] at h
  refine ⟨filesByRow_sound E app bucket s e s' h.1, ?_⟩
  cases e with
  | advance i chance =>
    intro item rest point hop _
    have hpoint := h.2
    rw [drainsWell, hop, Option.all_some] at hpoint
    cases point with
    | configuring => exact .inl (of_decide_eq_true hpoint)
    | completing reason =>
      cases reason with
      | empty => cases hpoint
      | unconfigured | tester | linked => trivial
    | reading | filing _ | checking => trivial
  | start op | abandon i | commit c => trivial

/-- A drain that files the issue of the shop's bucket, from its claim to its end. -/
def drainAlone : List TicketEvent := .start .claiming :: List.replicate 9 (callAt 0 "1")

theorem outbox_keeps_work_of_drain :
    ∃ s, Run (Guarded (stepOf (tickets shopEnv).step) (KeepsWork shopEnv "shop" shopBucket))
        (Ticketing.init shopIntegrations) (shopIngest ++ drainAlone) s ∧
      s.inFlight = [] ∧ s.store.telemetry.bucketRows "shop" shopBucket ≠ [] ∧
      Accounted s.store "shop" shopBucket := by
  have hsome : (runOf (checked (tickets shopEnv).step fun s e => filesByRow e && drainsWell s e)
      (Ticketing.init shopIntegrations) (shopIngest ++ drainAlone)).map (fun s =>
        (s.inFlight.length, (s.store.telemetry.bucketRows "shop" shopBucket).length)) =
      some (0, 2) := by decide
  obtain ⟨s, hs, hend⟩ := Option.map_eq_some_iff.1 hsome
  rw [Prod.mk.injEq] at hend
  have hrun : Run (Guarded (stepOf (tickets shopEnv).step) (KeepsWork shopEnv "shop" shopBucket))
      (Ticketing.init shopIntegrations) (shopIngest ++ drainAlone) s :=
    Run.of_runOf_checked (keepsWork_sound shopEnv "shop" shopBucket) hs
  have hrows : s.store.telemetry.bucketRows "shop" shopBucket ≠ [] := by
    intro hnil
    rw [hnil] at hend
    cases hend.2
  have hrow : shopIntegrations.get? "shop" = some shopTracker := rfl
  have hworks : (fromConfig shopEnv.tracker shopTracker).isSome = true := by decide
  exact ⟨s, hrun, List.length_eq_zero_iff.1 hend.1, hrows,
    outbox_keeps_work hrow hworks hrun hrows⟩

/-- A drain whose read of the configuration fails. -/
def drainUnread : List TicketEvent :=
  [.start .claiming, callAt 0 "", .advance 0 { result := .failed }, callAt 0 ""]

/-- The configuration is not read, which is taken as no configuration, and the item of a
bucket without a ticket is deleted. -/
theorem unread_configuration_loses_work :
    ¬ ∀ es s, Run (Guarded (stepOf (tickets shopEnv).step)
        (FilesByRow shopEnv "shop" shopBucket)) (Ticketing.init shopIntegrations) es s →
      s.inFlight = [] → s.store.telemetry.bucketRows "shop" shopBucket ≠ [] →
      Accounted s.store "shop" shopBucket := by
  intro hall
  have hsome : (runOf (checked (tickets shopEnv).step fun _ => filesByRow)
      (Ticketing.init shopIntegrations) (shopIngest ++ drainUnread)).map (fun s =>
        (s.inFlight.length, (s.store.telemetry.bucketRows "shop" shopBucket).length,
          decide (Accounted s.store "shop" shopBucket))) = some (0, 2, false) := by decide
  obtain ⟨s, hs, hend⟩ := Option.map_eq_some_iff.1 hsome
  rw [Prod.mk.injEq, Prod.mk.injEq] at hend
  have hrows : s.store.telemetry.bucketRows "shop" shopBucket ≠ [] := by
    intro hnil
    rw [hnil] at hend
    cases hend.2.1
  have hlost := hall _ s (Run.of_runOf_checked (filesByRow_sound shopEnv "shop" shopBucket) hs)
    (List.length_eq_zero_iff.1 hend.1) hrows
  exact of_decide_eq_false hend.2.2 hlost

end ReproitCloud
