import ReproitCloud.Integrations.Outbox

/-!
# One issue for a bucket

A filing looks for a ticket, creates the issue, and stores the link.  Nothing keeps a
second filing of the bucket from the same three calls, and a filing that ends after the
second call leaves an issue without a link, which the next filing does not find.

The issues of a bucket are always the one of its ticket and those of filings that are
still to store their link.  `FilesOnce` says when these are one issue at most.

* `filed_once`: as long as every issue is created with the look-up before it still good,
  and every filing that has created an issue goes on to store its link, a bucket has one
  issue at most, and its ticket is the link to it.
* `drain_and_post_file_twice`: a drain and `post_ticket` both look before either creates.
-/

namespace ReproitCloud

open Lib

/-- The issues created for a bucket. -/
def TicketStore.issuesFor (s : TicketStore) (app bucket : String) : List TicketLink :=
  (s.issues.filter fun i => i.1 = (app, bucket)).map Prod.snd

/-- The link that a filing stores next. -/
def Filing.toLink : Filing → Option TicketLink
  | .linking link => some link
  | _ => none

/-- The link to the issue that a filing creates next. -/
def Filing.toCreate (issue : String × String) : Filing → Option TicketLink
  | .creating tracker => some (tracker.link issue)
  | _ => none

/-- The link that a process stores next for a bucket. -/
def TicketOp.linkFor (app bucket : String) (op : TicketOp) : Option TicketLink :=
  op.filing?.bind fun r => r.2.toLink.filter fun _ => r.1 = (app, bucket)

/-- The link to the issue that a process creates next for a bucket. -/
def TicketOp.createFor (app bucket : String) (issue : String × String) (op : TicketOp) :
    Option TicketLink :=
  op.filing?.bind fun r => (r.2.toCreate issue).filter fun _ => r.1 = (app, bucket)

/-- The links still to be stored for a bucket. -/
def pendingLinks (app bucket : String) (ops : List TicketOp) : List TicketLink :=
  ops.filterMap (TicketOp.linkFor app bucket)

/-! ## What a call does to the issues and the tickets -/

section Calls

variable {E : TicketEnv} {s : TicketStore} {chance : TicketChance} {op : TicketOp}
  {app bucket : String}

theorem issuesFor_filing (f : Filing) (a b : String) (issue : String × String) :
    (f.effect s a b issue).issuesFor app bucket = s.issuesFor app bucket ++
      ((f.toCreate issue).filter fun _ => (a, b) = (app, bucket)).toList := by
  cases f with
  | resolving | looking _ | linking _ => exact (List.append_nil _).symm
  | creating tracker =>
    rw [Filing.effect, TicketStore.issuesFor, List.filter_append, List.map_append]
    congr 1
    by_cases h : (a, b) = (app, bucket)
    · simp [h, Filing.toCreate, Option.filter]
    · simp [h, Filing.toCreate]

theorem ticketForBucket_filing (f : Filing) (a b : String) (issue : String × String) :
    ticketForBucket (f.effect s a b issue).telemetry app bucket =
      (f.toLink.filter fun _ => (a, b) = (app, bucket)).or
        (ticketForBucket s.telemetry app bucket) := by
  cases f with
  | resolving | looking _ | creating _ => rfl
  | linking link =>
    refine (ticketForBucket_linkTicket ..).trans ?_
    by_cases h : (a, b) = (app, bucket)
    · simp [Filing.toLink, Option.filter, h]
    · simp [Filing.toLink, h]

/-- A process that is not filing leaves the issues and the tickets alone. -/
theorem effect_of_not_filing (E : TicketEnv) (s : TicketStore) (chance : TicketChance)
    (h : op.filing? = none) :
    (op.effect E s chance).issues = s.issues ∧
      (op.effect E s chance).telemetry.bucketTickets = s.telemetry.bucketTickets := by
  cases op with
  | ingestCommitting now b found =>
    rw [TicketOp.effect]
    cases hcommit : commitIngest E.platform s.telemetry now b found with
    | none => exact ⟨rfl, rfl⟩
    | some t =>
      obtain ⟨-, -, -, -, -, ⟨-, hsame⟩ | hqueued⟩ := enqueued_commitIngest hcommit
      · exact ⟨rfl, hsame.tickets⟩
      · exact ⟨rfl, hqueued.tickets⟩
  | draining item rest point =>
    cases point with
    | filing f => cases h
    | configuring | reading | checking | completing _ => exact ⟨rfl, rfl⟩
  | filing a b f => cases h
  | ingesting _ _ | claiming | postConfiguring _ _ | postLooking _ _ | postReading _ _
    | confirmReading _ _ => exact ⟨rfl, rfl⟩

/-- A process that files does what the filing does. -/
theorem effect_of_filing {key : String × String} {f : Filing} (h : op.filing? = some (key, f)) :
    op.effect E s chance = f.effect s key.1 key.2 chance.issue := by
  cases op with
  | draining item rest point =>
    cases point with
    | filing f' =>
      cases h
      rfl
    | configuring | reading | checking | completing _ => cases h
  | filing a b f' =>
    cases h
    rfl
  | ingesting _ _ | ingestCommitting _ _ _ | claiming | postConfiguring _ _ | postLooking _ _
    | postReading _ _ | confirmReading _ _ => cases h

/-- A call creates the issue that its process was to create, and stores the link that it
was to store. -/
theorem effect_spec (E : TicketEnv) (s : TicketStore) (chance : TicketChance) (op : TicketOp)
    (app bucket : String) :
    (op.effect E s chance).issuesFor app bucket =
        s.issuesFor app bucket ++ (op.createFor app bucket chance.issue).toList ∧
      ticketForBucket (op.effect E s chance).telemetry app bucket =
        (op.linkFor app bucket).or (ticketForBucket s.telemetry app bucket) := by
  cases hfiling : op.filing? with
  | none =>
    obtain ⟨hissues, htickets⟩ := effect_of_not_filing E s chance hfiling
    rw [TicketOp.createFor, TicketOp.linkFor, hfiling]
    constructor
    · rw [TicketStore.issuesFor, hissues]
      exact (List.append_nil _).symm
    · rw [ticketForBucket, htickets]
      rfl
  | some r =>
    obtain ⟨⟨a, b⟩, f⟩ := r
    rw [effect_of_filing hfiling, issuesFor_filing, ticketForBucket_filing, TicketOp.createFor,
      TicketOp.linkFor, hfiling]
    exact ⟨rfl, rfl⟩

/-- A filing goes on to store the link to an issue from the call that created it. -/
theorem toLink_next (f : Filing) (a b : String) (issue : String × String) (answered : Bool) :
    (f.next E s a b issue answered).bind Filing.toLink =
      if answered then f.toCreate issue else none := by
  cases f with
  | resolving =>
    rw [Filing.next]
    cases resolveFor E.tracker (integrationFor s a answered) a <;> split <;> rfl
  | looking tracker =>
    rw [Filing.next]
    split <;> split <;> rfl
  | creating tracker => cases answered <;> rfl
  | linking link => cases answered <;> rfl

theorem linkFor_nextItem (rest : List WorkItem) :
    (nextItem rest).bind (TicketOp.linkFor app bucket) = none := by
  cases rest <;> rfl

/-- The same of the bucket that the filing is for. -/
theorem toLink_next_filter (f : Filing) (a b : String) (issue : String × String)
    (answered : Bool) (q : TicketLink → Bool) :
    ((f.next E s a b issue answered).bind Filing.toLink).filter q =
      if answered then (f.toCreate issue).filter q else none := by
  rw [toLink_next]
  cases answered <;> rfl

/-- A process goes on to store the link to the issue that it has created, if it hears of
it. -/
theorem linkFor_next (E : TicketEnv) (s : TicketStore) (chance : TicketChance) (op : TicketOp)
    (app bucket : String) (answered : Bool) :
    (op.next E s chance answered).bind (TicketOp.linkFor app bucket) =
      if answered then op.createFor app bucket chance.issue else none := by
  -- a point of no filing leads to no link, and creates nothing
  have hother : ∀ next : Option TicketOp, next.bind (TicketOp.linkFor app bucket) = none →
      op.filing? = none → next.bind (TicketOp.linkFor app bucket) =
        if answered then op.createFor app bucket chance.issue else none := by
    intro next hnext hop
    rw [hnext, TicketOp.createFor, hop]
    exact (ite_self none).symm
  cases op with
  | draining item rest point =>
    rw [TicketOp.next]
    cases point with
    | filing f =>
      refine Eq.trans ?_ (toLink_next_filter (E := E) (s := s) f item.appId item.bucketId
        chance.issue answered fun _ => (item.appId, item.bucketId) = (app, bucket))
      rw [drainNext]
      cases f.next E s item.appId item.bucketId chance.issue answered <;> rfl
    | configuring =>
      refine hother _ ?_ rfl
      rw [drainNext]
      split <;> rfl
    | reading =>
      refine hother _ ?_ rfl
      rw [drainNext]
      split
      · split
        · split <;> rfl
        · rfl
      · exact linkFor_nextItem rest
    | checking =>
      refine hother _ ?_ rfl
      rw [drainNext]
      split
      · rfl
      · exact linkFor_nextItem rest
    | completing reason => exact hother _ (linkFor_nextItem rest) rfl
  | filing a b f =>
    refine Eq.trans ?_ (toLink_next_filter (E := E) (s := s) f a b chance.issue answered
      fun _ => (a, b) = (app, bucket))
    rw [TicketOp.next]
    cases f.next E s a b chance.issue answered <;> rfl
  | claiming =>
    refine hother _ ?_ rfl
    rw [TicketOp.next]
    split
    · exact linkFor_nextItem _
    · rfl
  | ingestCommitting _ _ _ => exact hother _ rfl rfl
  | ingesting _ _ | postConfiguring _ _ | postLooking _ _ | postReading _ _
    | confirmReading _ _ =>
    refine hother _ ?_ rfl
    rw [TicketOp.next]
    split <;> rfl

end Calls

/-! ## The condition -/

/-- The call of a filing of a bucket, as it should be.  An issue is created while there is
still no ticket and no filing that is about to store one, and the tracker is heard.  A link
that is to be stored is stored. -/
def Filing.onceIn (s : Ticketing) (app bucket : String) (result : CallResult) : Filing → Prop
  | .creating _ => result ≠ .failed →
    result = .answered ∧ ticketForBucket s.store.telemetry app bucket = none ∧
      pendingLinks app bucket s.inFlight = []
  | .linking _ => result ≠ .failed
  | _ => True

/-- The guard of a run for a bucket. -/
def FilesOnce (app bucket : String) (s : Ticketing) : TicketEvent → Ticketing → Prop
  | .advance i chance, _ => ∀ op f, s.inFlight[i]? = some op →
      op.filing? = some ((app, bucket), f) → f.onceIn s app bucket chance.result
  | .abandon i, _ => ∀ op, s.inFlight[i]? = some op → op.linkFor app bucket = none
  | _, _ => True

/-- Every issue of a bucket is the one of its ticket or about to be, and there is one at
most. -/
structure OneIssue (app bucket : String) (s : Ticketing) : Prop where
  accounted : (s.store.issuesFor app bucket).Perm
    (pendingLinks app bucket s.inFlight ++
      (ticketForBucket s.store.telemetry app bucket).toList)
  single : (s.store.issuesFor app bucket).length ≤ 1

section Steps

variable {E : TicketEnv} {s s' : Ticketing} {app bucket : String} {i : Nat} {op : TicketOp}

theorem filing_of_linkFor {link : TicketLink} (h : op.linkFor app bucket = some link) :
    op.filing? = some ((app, bucket), .linking link) := by
  obtain ⟨⟨key, f⟩, hop, hfilter⟩ := Option.bind_eq_some_iff.1 h
  obtain ⟨hlink, hkey⟩ := Option.filter_eq_some_iff.1 hfilter
  have hkey' : key = (app, bucket) := of_decide_eq_true hkey
  rw [hop, hkey']
  cases f with
  | linking link' =>
    cases hlink
    rfl
  | resolving | looking _ | creating _ => cases hlink

theorem filing_of_createFor {issue : String × String} {link : TicketLink}
    (h : op.createFor app bucket issue = some link) :
    ∃ tracker, op.filing? = some ((app, bucket), .creating tracker) := by
  obtain ⟨⟨key, f⟩, hop, hfilter⟩ := Option.bind_eq_some_iff.1 h
  obtain ⟨hcreate, hkey⟩ := Option.filter_eq_some_iff.1 hfilter
  have hkey' : key = (app, bucket) := of_decide_eq_true hkey
  rw [hop, hkey']
  cases f with
  | creating tracker => exact ⟨tracker, rfl⟩
  | resolving | looking _ | linking _ => cases hcreate

/-- The links still to be stored are those of the process at an index and of the others. -/
theorem pendingLinks_perm (app bucket : String) (hop : s.inFlight[i]? = some op) :
    (pendingLinks app bucket s.inFlight).Perm
      ((op.linkFor app bucket).toList ++ pendingLinks app bucket (s.inFlight.eraseIdx i)) :=
  filterMap_perm_eraseIdx _ hop

/-- With the process gone on, those of the others and of the process. -/
theorem pendingLinks_append (app bucket : String) (ops : List TicketOp) (next : Option TicketOp) :
    pendingLinks app bucket (ops ++ next.toList) =
      pendingLinks app bucket ops ++ (next.bind (TicketOp.linkFor app bucket)).toList :=
  filterMap_append_toList _ ops next

/-- The calls of a run keep the issues of a bucket accounted for. -/
theorem oneIssue_advance (h : OneIssue app bucket s) {chance : TicketChance} {store : TicketStore}
    {next : Option TicketOp} (hop : s.inFlight[i]? = some op)
    (hnext : ticketNext E s.store (s.inFlight.eraseIdx i) chance op = some (store, next))
    (hok : FilesOnce app bucket s (.advance i chance) s') :
    OneIssue app bucket ⟨store, s.inFlight.eraseIdx i ++ next.toList⟩ := by
  have hbefore := h.accounted.trans ((pendingLinks_perm app bucket hop).append_right _)
  rcases ticketNext_cases hnext with ⟨hfailed, rfl, rfl⟩ | ⟨hresult, -, rfl, rfl⟩
  · -- a call that fails is not one that was to store a link
    have hlink : op.linkFor app bucket = none := by
      rw [Option.eq_none_iff_forall_ne_some]
      intro link hlink
      exact hok op _ hop (filing_of_linkFor hlink) hfailed
    refine ⟨?_, h.single⟩
    rw [pendingLinks_append, linkFor_next]
    rw [hlink] at hbefore
    simpa using hbefore
  · obtain ⟨hissues, hticket⟩ := effect_spec E s.store chance op app bucket
    cases hcreate : op.createFor app bucket chance.issue with
    | some link =>
      obtain ⟨tracker, hfiling⟩ := filing_of_createFor hcreate
      obtain ⟨hanswered, hnone, hpending⟩ := hok op _ hop hfiling hresult
      have hlink : op.linkFor app bucket = none := by rw [TicketOp.linkFor, hfiling]; rfl
      have hempty : s.store.issuesFor app bucket = [] := by
        have := h.accounted
        rw [hpending, hnone] at this
        exact List.perm_nil.1 this
      have hothers : pendingLinks app bucket (s.inFlight.eraseIdx i) = [] := by
        have := pendingLinks_perm app bucket hop
        rw [hpending, hlink] at this
        exact List.nil_perm.1 this
      rw [hcreate, hempty] at hissues
      rw [hlink, hnone] at hticket
      refine ⟨?_, by rw [hissues]; exact le_refl 1⟩
      rw [pendingLinks_append, linkFor_next, hothers, hcreate, hissues, hticket, hanswered]
      exact .refl _
    | none =>
      rw [hcreate, Option.toList_none, List.append_nil] at hissues
      refine ⟨?_, by rw [hissues]; exact h.single⟩
      rw [pendingLinks_append, linkFor_next, hcreate, ite_self, Option.toList_none,
        List.append_nil, hissues, hticket]
      cases hlink : op.linkFor app bucket with
      | none =>
        rw [hlink] at hbefore
        exact hbefore
      | some link =>
        -- the one issue there is was waiting for this link
        rw [hlink] at hbefore
        have hlen := hbefore.length_eq
        have hsingle := h.single
        simp only [Option.toList_some, List.length_append, List.length_singleton] at hlen
        have hothers : pendingLinks app bucket (s.inFlight.eraseIdx i) = [] :=
          List.length_eq_zero_iff.1 (by omega)
        have hnone : (ticketForBucket s.store.telemetry app bucket).toList = [] :=
          List.length_eq_zero_iff.1 (by omega)
        rw [hothers, hnone] at hbefore
        rw [hothers]
        exact hbefore

theorem oneIssue_step {e : TicketEvent} (h : OneIssue app bucket s)
    (hstep : (tickets E).step s e = some s') (hok : FilesOnce app bucket s e s') :
    OneIssue app bucket s' := by
  cases Program.effect_of_step hstep with
  | @start op hstarts =>
    refine ⟨?_, h.single⟩
    have hnone : op.linkFor app bucket = none := by
      cases op with
      | ingesting _ _ | claiming | postConfiguring _ _ | confirmReading _ _ => rfl
      | ingestCommitting _ _ _ | draining _ _ _ | postLooking _ _ | postReading _ _
        | filing _ _ _ => cases hstarts
    have hsame := pendingLinks_append app bucket s.inFlight (some op)
    rw [Option.bind_some, hnone, Option.toList_none, List.append_nil, Option.toList_some] at hsame
    rw [hsame]
    exact h.accounted
  | advance hop hnext => exact oneIssue_advance h hop hnext hok
  | @abandon i op hop =>
    refine ⟨h.accounted.trans ?_, h.single⟩
    refine ((pendingLinks_perm app bucket hop).append_right _).trans (List.Perm.of_eq ?_)
    rw [hok op hop]
    rfl
  | @commit c store hwrite =>
    have hsame : store.issues = s.store.issues ∧
        store.telemetry.bucketTickets = s.store.telemetry.bucketTickets := by
      cases c with
      | configure app' row =>
        cases hwrite
        exact ⟨rfl, rfl⟩
      | expire now days limit ids =>
        obtain ⟨t, ht, rfl⟩ := Option.map_eq_some_iff.1 hwrite
        obtain ⟨order, -, hdelete⟩ := Option.bind_eq_some_iff.1 ht
        exact ⟨rfl, (sameQueue_deleteErrors (eq_ok_of_toOption hdelete)).tickets⟩
    refine ⟨?_, ?_⟩
    · rw [TicketStore.issuesFor, hsame.1, ticketForBucket, hsame.2]
      exact h.accounted
    · rw [TicketStore.issuesFor, hsame.1]
      exact h.single

end Steps

theorem oneIssue_init (integrations : Table String IntegrationRow) (app bucket : String) :
    OneIssue app bucket (Ticketing.init integrations) :=
  ⟨.refl _, Nat.zero_le 1⟩

/-- In a run whose filings of a bucket are as they should be, the bucket has one issue at
most, and unless a filing is about to store its link, the ticket is that issue's. -/
theorem filed_once {E : TicketEnv} {integrations : Table String IntegrationRow}
    {es : List TicketEvent} {s : Ticketing} {app bucket : String}
    (hrun : Run (Guarded (stepOf (tickets E).step) (FilesOnce app bucket))
      (Ticketing.init integrations) es s) :
    (s.store.issuesFor app bucket).length ≤ 1 ∧
      (pendingLinks app bucket s.inFlight = [] →
        ∀ link ∈ s.store.issuesFor app bucket,
          ticketForBucket s.store.telemetry app bucket = some link) := by
  have h := hrun.invariant_of_guarded (OneIssue app bucket)
    (fun _ _ _ hi hstep hok => oneIssue_step hi hstep hok) (oneIssue_init integrations app bucket)
  refine ⟨h.single, fun hpending link hlink => ?_⟩
  have hmem := h.accounted.mem_iff.1 hlink
  rw [hpending, List.nil_append] at hmem
  exact Option.mem_toList.1 hmem

/-- The guard, computed. -/
def filesOnce (app bucket : String) (s : Ticketing) : TicketEvent → Bool
  | .advance i chance => (s.inFlight[i]?).all fun op =>
      match op.filing? with
      | some (key, .creating _) => key ≠ (app, bucket) || chance.result = .answered &&
          (ticketForBucket s.store.telemetry app bucket).isNone &&
          (pendingLinks app bucket s.inFlight).isEmpty
      | some (key, .linking _) => key ≠ (app, bucket) || chance.result ≠ .failed
      | _ => true
  | .abandon i => (s.inFlight[i]?).all fun op => (op.linkFor app bucket).isNone
  | _ => true

theorem filesOnce_sound (app bucket : String) (s : Ticketing) (e : TicketEvent) (s' : Ticketing)
    (h : filesOnce app bucket s e = true) : FilesOnce app bucket s e s' := by
  cases e with
  | advance i chance =>
    intro op f hop hfiling
    rw [filesOnce, hop, Option.all_some, hfiling] at h
    cases f with
    | resolving | looking _ => trivial
    | creating tracker =>
      intro _
      simpa [and_assoc] using h
    | linking link => simpa [Filing.onceIn] using h
  | abandon i =>
    intro op hop
    rw [filesOnce, hop, Option.all_some, Option.isNone_iff_eq_none] at h
    exact h
  | start op | commit c => trivial

/-- `post_ticket`, from its start to the end. -/
def postAlone : List TicketEvent :=
  .start (.postConfiguring "shop" shopBucket) :: List.replicate 7 (callAt 0 "1")

theorem filed_once_by_post :
    ∃ s, Run (Guarded (stepOf (tickets shopEnv).step) (FilesOnce "shop" shopBucket))
        (Ticketing.init shopIntegrations) (shopIngest ++ postAlone) s ∧
      pendingLinks "shop" shopBucket s.inFlight = [] ∧
      (s.store.issuesFor "shop" shopBucket).length ≤ 1 ∧
      ∀ link ∈ s.store.issuesFor "shop" shopBucket,
        ticketForBucket s.store.telemetry "shop" shopBucket = some link := by
  have hsome : (runOf (checked (tickets shopEnv).step (filesOnce "shop" shopBucket))
      (Ticketing.init shopIntegrations) (shopIngest ++ postAlone)).map
      (fun s => (s.inFlight.length, (s.store.issuesFor "shop" shopBucket).length)) =
        some (0, 1) := by decide
  obtain ⟨s, hs, hend⟩ := Option.map_eq_some_iff.1 hsome
  rw [Prod.mk.injEq] at hend
  have hidle : pendingLinks "shop" shopBucket s.inFlight = [] := by
    rw [List.length_eq_zero_iff.1 hend.1]
    rfl
  have hrun : Run (Guarded (stepOf (tickets shopEnv).step) (FilesOnce "shop" shopBucket))
      (Ticketing.init shopIntegrations) (shopIngest ++ postAlone) s :=
    Run.of_runOf_checked (filesOnce_sound "shop" shopBucket) hs
  obtain ⟨hone, hlinked⟩ := filed_once hrun
  exact ⟨s, hrun, hidle, hone, hlinked hidle⟩

/-- A drain and `post_ticket` in turns, up to the links. -/
def drainAndPost : List TicketEvent :=
  [.start .claiming, .start (.postConfiguring "shop" shopBucket)] ++
    List.replicate 11 (callAt 0 "1") ++ [callAt 0 "2"]

/-- A drain and `post_ticket` look for the ticket before either of them creates the issue,
and both create one. -/
theorem drain_and_post_file_twice :
    ¬ ∀ es s, Run (stepOf (tickets shopEnv).step) (Ticketing.init shopIntegrations) es s →
      ∀ app bucket, (s.store.issuesFor app bucket).length ≤ 1 ∧
        (pendingLinks app bucket s.inFlight = [] → ∀ link ∈ s.store.issuesFor app bucket,
          ticketForBucket s.store.telemetry app bucket = some link) := by
  intro hall
  have hsome : (runOf (tickets shopEnv).step (Ticketing.init shopIntegrations)
      (shopIngest ++ drainAndPost)).map
      (fun s => (s.store.issuesFor "shop" shopBucket).length) = some 2 := by decide
  obtain ⟨s, hs, htwo⟩ := Option.map_eq_some_iff.1 hsome
  have hone := (hall _ s (Run.of_runOf hs) "shop" shopBucket).1
  omega

end ReproitCloud
