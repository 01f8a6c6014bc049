import ReproitCloud.Telemetry.ReadModel

/-!
# What a delete statement does

`deleteErrors` removes rows and then fires the trigger along the deleted ones.
Two questions are answered here, both by induction on the rows still to be fired
for: what the read models hold when the statement succeeds, and when it does.

For a count view the firings drop the keys of the pending rows one by one, so
the view ends at the keys of the rows that remain.  For a summary the invariant
is `MidSummary`, over the rows of the bucket that remain and those pending.

A firing fails only in a bucket none of whose rows remain, on an end of the
summary, with another row still pending.  So a bucket that loses its only row is
fine, a bucket that keeps a row is fine, and a bucket that loses two or more
rows and keeps none always fails: its least and its greatest id are different,
and the one fired first is not the last firing.
-/

namespace ReproitCloud

open Lib

/-! ## The summary of one bucket between two firings -/

/-- The summary of a bucket with `final` rows left and `pending` rows to fire for.
Each end is pending or is the end of the rows left. -/
def MidSummary (final pending : List ErrorRow) : Option BucketSummary → Prop
  | none => final = [] ∧ pending = []
  | some s => s.count = final.length + pending.length ∧ 0 < s.count ∧
      ((∃ r ∈ pending, r.id = s.firstErrorId) ∨
        IsLeast {i | ∃ r ∈ final, r.id = i} s.firstErrorId) ∧
      ((∃ r ∈ pending, r.id = s.lastErrorId) ∨
        IsGreatest {i | ∃ r ∈ final, r.id = i} s.lastErrorId)

/-- With nothing pending, the summary is the one of the rows left. -/
theorem summaryOf_of_mid {final : List ErrorRow} {o : Option BucketSummary}
    (h : MidSummary final [] o) : SummaryOf final o := by
  cases o with
  | none => exact h.1
  | some s =>
    obtain ⟨hcount, -, hfirst, hlast⟩ := h
    refine ⟨by simpa using hcount, ?_, ?_⟩
    · exact hfirst.resolve_left (by simp)
    · exact hlast.resolve_left (by simp)

/-- Before the first firing, the rows selected are all pending. -/
theorem mid_of_summaryOf {rows final pending : List ErrorRow} {o : Option BucketSummary}
    (h : SummaryOf rows o) (hsplit : rows.Perm (final ++ pending)) :
    MidSummary final pending o := by
  have hlen := hsplit.length_eq
  rw [List.length_append] at hlen
  cases o with
  | none =>
    rw [summaryOf_none] at h
    subst h
    have := List.nil_perm.1 hsplit
    exact List.append_eq_nil_iff.1 this
  | some s =>
    obtain ⟨hcount, hfirst, hlast⟩ := h
    obtain ⟨r, hr, hid⟩ := hfirst.1
    have hpos := List.length_pos_of_mem hr
    refine ⟨by omega, by omega, ?_, ?_⟩
    · rcases List.mem_append.1 (hsplit.mem_iff.1 hr) with hf | hp
      · refine .inr ⟨⟨r, hf, hid⟩, ?_⟩
        rintro i ⟨q, hq, rfl⟩
        exact hfirst.2 ⟨q, hsplit.mem_iff.2 (List.mem_append_left _ hq), rfl⟩
      · exact .inl ⟨r, hp, hid⟩
    · obtain ⟨r, hr, hid⟩ := hlast.1
      rcases List.mem_append.1 (hsplit.mem_iff.1 hr) with hf | hp
      · refine .inr ⟨⟨r, hf, hid⟩, ?_⟩
        rintro i ⟨q, hq, rfl⟩
        exact hlast.2 ⟨q, hsplit.mem_iff.2 (List.mem_append_left _ hq), rfl⟩
      · exact .inl ⟨r, hp, hid⟩

/-! ## One firing -/

theorem inBucket_iff {r : ErrorRow} {app bucket : String} :
    r.inBucket app bucket = true ↔ r.appId = app ∧ r.bucketId = some bucket := by
  simp [ErrorRow.inBucket]

/-- What a firing makes of the summary of the deleted row's bucket, given the
aggregate of the rows that remain. -/
def fireSummary (remaining : Option BucketSummary) (id : Nat) :
    Option BucketSummary → Except SqlError (Option BucketSummary)
  | none => .ok none
  | some v =>
    if v.count ≤ 1 then .ok none
    else if v.firstErrorId = id ∨ v.lastErrorId = id then
      match remaining with
      | none => .error (.notNull "bucket_summaries" "first_error_id")
      | some r => .ok (some { r with count := v.count - 1 })
    else .ok (some { v with count := v.count - 1 })

/-- A firing changes one summary, and changes it as `fireSummary` says. -/
theorem triggerSummaries_spec (final : ErrorTable) {old : ErrorRow} {bucket : String}
    (hold : old.bucketId = some bucket) (s : Table (String × String) BucketSummary) :
    match fireSummary (summarize (final.rows.filter (ErrorRow.inBucket old.appId bucket))) old.id
      (s.get? (old.appId, bucket)) with
    | .error e => triggerSummaries final old s = .error e
    | .ok o => ∃ s', triggerSummaries final old s = .ok s' ∧
        s'.get? (old.appId, bucket) = o ∧
        ∀ k, k ≠ (old.appId, bucket) → s'.get? k = s.get? k := by
  have hother : ∀ k, k ≠ (old.appId, bucket) →
      ((s.update (fun k _ => k = (old.appId, bucket)) fun _ v =>
        { v with count := v.count - 1 }).delete fun k v =>
          k = (old.appId, bucket) && v.count ≤ 0).get? k = s.get? k := by
    intro k hk
    cases hv : s.get? k <;> simp [hk, hv]
  have hsame : ((s.update (fun k _ => k = (old.appId, bucket)) fun _ v =>
      { v with count := v.count - 1 }).delete fun k v =>
        k = (old.appId, bucket) && v.count ≤ 0).get? (old.appId, bucket) =
      (s.get? (old.appId, bucket)).bind fun v =>
        if v.count ≤ 1 then none else some { v with count := v.count - 1 } := by
    cases hv : s.get? (old.appId, bucket) with
    | none => simp [hv]
    | some v => by_cases hc : v.count ≤ 1 <;> simp [hv, Option.filter, hc]
  unfold triggerSummaries
  rw [hold]
  simp only [hsame]
  cases hv : s.get? (old.appId, bucket) with
  | none => exact ⟨_, rfl, by rw [hsame, hv]; rfl, hother⟩
  | some v =>
    by_cases hc : v.count ≤ 1
    · simp only [fireSummary, Option.bind_some, hc, if_true]
      exact ⟨_, rfl, by rw [hsame, hv]; simp [hc], hother⟩
    · simp only [fireSummary, Option.bind_some, hc, if_false]
      by_cases hend : v.firstErrorId = old.id ∨ v.lastErrorId = old.id
      · simp only [hend, if_true]
        cases hrem : summarize (final.rows.filter (ErrorRow.inBucket old.appId bucket)) with
        | none => rfl
        | some r =>
          refine ⟨_, rfl, ?_, ?_⟩
          · rw [Table.get?_update, hsame, hv]
            simp [hc]
          · intro k hk
            rw [Table.get?_update, hother k hk]
            simp [hk]
      · simp only [hend, if_false]
        exact ⟨_, rfl, by rw [hsame, hv]; simp [hc], hother⟩

theorem triggerSummaries_inv {final : ErrorTable} {old : ErrorRow}
    {s s' : Table (String × String) BucketSummary} (h : triggerSummaries final old s = .ok s')
    (app bucket : String) :
    if old.inBucket app bucket then
      fireSummary (summarize (final.rows.filter (ErrorRow.inBucket app bucket))) old.id
        (s.get? (app, bucket)) = .ok (s'.get? (app, bucket))
    else s'.get? (app, bucket) = s.get? (app, bucket) := by
  cases hold : old.bucketId with
  | none =>
    rw [triggerSummaries, hold] at h
    cases h
    rw [if_neg (by simp [inBucket_iff, hold])]
  | some b =>
    have hspec := triggerSummaries_spec final hold s
    split at hspec
    · rw [h] at hspec
      cases hspec
    · rename_i o hfire
      obtain ⟨s'', hs'', hsame, hother⟩ := hspec
      rw [h] at hs''
      cases hs''
      split
      · rename_i hin
        obtain ⟨rfl, hb⟩ := inBucket_iff.1 hin
        rw [hold, Option.some.injEq] at hb
        subst hb
        rw [hfire, hsame]
      · rename_i hout
        apply hother
        rintro he
        rw [Prod.mk.injEq] at he
        exact hout (inBucket_iff.2 ⟨he.1.symm, by rw [hold, he.2]⟩)

/-- The summary part of a firing fails only as `fireSummary` does, in a bucket
of the deleted row. -/
theorem triggerSummaries_ok {final : ErrorTable} {old : ErrorRow}
    {s : Table (String × String) BucketSummary}
    (h : ∀ app bucket, old.inBucket app bucket = true →
      ∃ o, fireSummary (summarize (final.rows.filter (ErrorRow.inBucket app bucket))) old.id
        (s.get? (app, bucket)) = .ok o) :
    ∃ s', triggerSummaries final old s = .ok s' := by
  cases hold : old.bucketId with
  | none => exact ⟨s, by rw [triggerSummaries, hold]⟩
  | some b =>
    obtain ⟨o, ho⟩ := h old.appId b (inBucket_iff.2 ⟨rfl, hold⟩)
    have hspec := triggerSummaries_spec final hold s
    rw [ho] at hspec
    obtain ⟨s', hs', -⟩ := hspec
    exact ⟨s', hs'⟩

section Fire

variable {final pending : List ErrorRow} {old : ErrorRow} {o o' : Option BucketSummary}

/-- An end that is not the deleted row stays pending, or stays the end of the
rows left. -/
theorem end_pending {i : Nat} {q : Prop} (h : (∃ r ∈ old :: pending, r.id = i) ∨ q)
    (hne : i ≠ old.id) : (∃ r ∈ pending, r.id = i) ∨ q := by
  rcases h with ⟨r, hr, hid⟩ | hq
  · rcases List.mem_cons.1 hr with rfl | hr
    · exact absurd hid.symm hne
    · exact .inl ⟨r, hr, hid⟩
  · exact .inr hq

/-- A firing that succeeds takes one row off the pending ones. -/
theorem midSummary_fire (h : MidSummary final (old :: pending) o)
    (hfire : fireSummary (summarize final) old.id o = .ok o') : MidSummary final pending o' := by
  cases o with
  | none => exact absurd h.2 (by simp)
  | some v =>
    obtain ⟨hcount, -, hfirst, hlast⟩ := h
    rw [List.length_cons] at hcount
    simp only [fireSummary] at hfire
    split at hfire
    · cases hfire
      have hlen : final.length + pending.length = 0 := by omega
      exact ⟨List.length_eq_zero_iff.1 (by omega), List.length_eq_zero_iff.1 (by omega)⟩
    · rename_i hpos
      split at hfire
      · cases hrem : summarize final with
        | none =>
          rw [hrem] at hfire
          cases hfire
        | some r =>
          rw [hrem] at hfire
          cases hfire
          have hr : SummaryOf final (some r) := hrem ▸ summaryOf_summarize final
          exact ⟨by simp only; omega, by simp only; omega, .inr hr.2.1, .inr hr.2.2⟩
      · rename_i hend
        rw [not_or] at hend
        cases hfire
        exact ⟨by simp only; omega, by simp only; omega, end_pending hfirst hend.1,
          end_pending hlast hend.2⟩

/-- A firing succeeds when the bucket keeps a row or this is its last firing. -/
theorem fireSummary_ok (h : MidSummary final (old :: pending) o)
    (hok : final ≠ [] ∨ pending = []) :
    ∃ o', fireSummary (summarize final) old.id o = .ok o' := by
  cases o with
  | none => exact ⟨none, rfl⟩
  | some v =>
    obtain ⟨hcount, -, -, -⟩ := h
    rw [List.length_cons] at hcount
    simp only [fireSummary]
    by_cases hpos : v.count ≤ 1
    · exact ⟨none, by rw [if_pos hpos]⟩
    · rw [if_neg hpos]
      by_cases hend : v.firstErrorId = old.id ∨ v.lastErrorId = old.id
      · rw [if_pos hend]
        cases hrem : summarize final with
        | none =>
          have hfinal := summarize_eq_none.1 hrem
          subst hfinal
          have hlast : pending = [] := hok.resolve_left (by simp)
          subst hlast
          simp at hcount
          omega
        | some r => exact ⟨_, rfl⟩
      · rw [if_neg hend]
        exact ⟨_, rfl⟩

/-- A firing on an end fails when the bucket keeps no row and others are pending. -/
theorem fireSummary_error {v : BucketSummary} (hcount : 1 < v.count)
    (hend : v.firstErrorId = old.id ∨ v.lastErrorId = old.id) :
    fireSummary none old.id (some v) = .error (.notNull "bucket_summaries" "first_error_id") := by
  simp only [fireSummary]
  rw [if_neg (by omega), if_pos hend]

end Fire

/-! ## One firing on the store -/

/-- The store with `pending` rows still to be fired for. -/
structure MidAgrees (R : Renderings) (t : TenantStore) (pending : List ErrorRow) : Prop where
  summaries : ∀ app bucket, MidSummary (t.bucketRows app bucket)
    (pending.filter (ErrorRow.inBucket app bucket)) (t.bucketSummaries.get? (app, bucket))
  windows : Counts t.bucketWindows
    (keysOf (windowKeysOf R) t.errors.rows + keysOf (windowKeysOf R) pending)
  appCounts : Counts t.appContextCounts
    (keysOf (appDimensionsOf R) t.errors.rows + keysOf (appDimensionsOf R) pending)
  bucketCounts : Counts t.bucketContextCounts
    (keysOf (bucketDimensionsOf R) t.errors.rows + keysOf (bucketDimensionsOf R) pending)

section Step

variable {R : Renderings} {t t' : TenantStore} {old : ErrorRow} {pending order : List ErrorRow}

/-- With nothing pending, the read models agree. -/
theorem readModelAgrees_of_mid (h : MidAgrees R t []) : ReadModelAgrees R t := by
  refine ⟨fun app bucket => summaryOf_of_mid (h.summaries app bucket), ?_, ?_, ?_⟩
  · simpa [keysOf] using h.windows
  · simpa [keysOf] using h.appCounts
  · simpa [keysOf] using h.bucketCounts

/-- Removing the rows makes the selected ones pending, for the summary of each bucket. -/
theorem midSummary_removeErrorRows {p : ErrorRow → Bool} (h : SummariesAgree t)
    (horder : order.Perm (t.selected p)) (app bucket : String) :
    MidSummary ((removeErrorRows t p).bucketRows app bucket)
      (order.filter (ErrorRow.inBucket app bucket)) (t.bucketSummaries.get? (app, bucket)) := by
  refine mid_of_summaryOf (h app bucket) ?_
  have hsplit : t.errors.rows.Perm (t.errors.rows.filter (fun r => !p r) ++ order) := by
    refine List.Perm.trans ?_ (horder.symm.append_left _)
    exact (List.perm_append_comm.trans (List.filter_append_perm p t.errors.rows)).symm
  have := hsplit.filter (ErrorRow.inBucket app bucket)
  rwa [List.filter_append] at this

/-- Removing the rows makes the selected ones pending. -/
theorem midAgrees_removeErrorRows {p : ErrorRow → Bool} (h : ReadModelAgrees R t)
    (horder : order.Perm (t.selected p)) : MidAgrees R (removeErrorRows t p) order := by
  refine ⟨midSummary_removeErrorRows h.summaries horder, ?_, ?_, ?_⟩
  · have := h.windows
    rwa [keysOf_split _ horder] at this
  · have := h.appCounts
    rwa [keysOf_split _ horder] at this
  · have := h.bucketCounts
    rwa [keysOf_split _ horder] at this

/-- A firing takes the keys of the deleted row off a count view. -/
theorem counts_fire {κ : Type} [DecidableEq κ] {keys : ErrorRow → List κ} {c : Table κ Int}
    {m : Multiset κ} {sweep : κ → κ → Bool} (hsweep : ∀ k, sweep k k = true)
    (h : Counts c (m + keysOf keys (old :: pending))) :
    Counts ((keys old).foldl (fun c k => c.dropOne (sweep k) k) c) (m + keysOf keys pending) := by
  apply Counts.dropMany hsweep
  rw [keysOf_cons, ← Multiset.add_assoc] at h
  exact h

theorem removeErrorFromReadModels_of_ok {summaries : Table (String × String) BucketSummary}
    (h : triggerSummaries t.errors old t.bucketSummaries = .ok summaries) :
    removeErrorFromReadModels R t old = .ok (takeOff R t old summaries) := by
  rw [removeErrorFromReadModels, h]
  rfl

theorem removeErrorFromReadModels_inv (h : removeErrorFromReadModels R t old = .ok t') :
    ∃ summaries, triggerSummaries t.errors old t.bucketSummaries = .ok summaries ∧
      t' = takeOff R t old summaries := by
  unfold removeErrorFromReadModels at h
  cases hs : triggerSummaries t.errors old t.bucketSummaries with
  | error e =>
    rw [hs] at h
    cases h
  | ok summaries =>
    rw [hs] at h
    cases h
    exact ⟨summaries, rfl, rfl⟩

/-- A firing keeps the summary of each bucket between two firings. -/
theorem midSummary_fired {app bucket : String}
    (h : MidSummary (t.bucketRows app bucket)
      ((old :: pending).filter (ErrorRow.inBucket app bucket))
      (t.bucketSummaries.get? (app, bucket)))
    (hfire : removeErrorFromReadModels R t old = .ok t') :
    MidSummary (t'.bucketRows app bucket) (pending.filter (ErrorRow.inBucket app bucket))
      (t'.bucketSummaries.get? (app, bucket)) := by
  obtain ⟨summaries, hs, rfl⟩ := removeErrorFromReadModels_inv hfire
  have hinv := triggerSummaries_inv hs app bucket
  by_cases hin : old.inBucket app bucket = true
  · rw [if_pos hin] at hinv
    rw [List.filter_cons_of_pos hin] at h
    exact midSummary_fire h hinv
  · rw [if_neg hin] at hinv
    rw [List.filter_cons_of_neg hin, ← hinv] at h
    exact h

theorem midAgrees_fire (h : MidAgrees R t (old :: pending))
    (hfire : removeErrorFromReadModels R t old = .ok t') : MidAgrees R t' pending := by
  have hsummaries := fun app bucket => midSummary_fired (h.summaries app bucket) hfire
  obtain ⟨summaries, -, rfl⟩ := removeErrorFromReadModels_inv hfire
  refine ⟨hsummaries, ?_, ?_, ?_⟩
  · exact counts_fire (fun k => by simp) h.windows
  · exact counts_fire (fun k => by simp) h.appCounts
  · exact counts_fire (fun k => by simp) h.bucketCounts

/-- A firing succeeds when each bucket of the row keeps a row, or has no other
row pending. -/
theorem removeErrorFromReadModels_ok (h : MidAgrees R t (old :: pending))
    (hok : ∀ app bucket, old.inBucket app bucket = true →
      t.bucketRows app bucket ≠ [] ∨ pending.filter (ErrorRow.inBucket app bucket) = []) :
    ∃ t', removeErrorFromReadModels R t old = .ok t' := by
  have hs : ∃ s', triggerSummaries t.errors old t.bucketSummaries = .ok s' := by
    apply triggerSummaries_ok
    intro app bucket hin
    have hmid := h.summaries app bucket
    rw [List.filter_cons_of_pos hin] at hmid
    exact fireSummary_ok hmid (hok app bucket hin)
  obtain ⟨s', hs'⟩ := hs
  exact ⟨_, removeErrorFromReadModels_of_ok hs'⟩

theorem removeErrorFromReadModels_errors (h : removeErrorFromReadModels R t old = .ok t') :
    t'.errors = t.errors := by
  obtain ⟨_, -, rfl⟩ := removeErrorFromReadModels_inv h
  rfl

end Step

/-! ## The whole statement -/

section Statement

variable {R : Renderings} {t t' : TenantStore} {p : ErrorRow → Bool} {order : List ErrorRow}

/-- What each firing keeps of the store and the rows still pending, all firings keep. -/
theorem firings_invariant (inv : TenantStore → List ErrorRow → Prop)
    (hfire : ∀ t t' old pending, inv t (old :: pending) →
      removeErrorFromReadModels R t old = .ok t' → inv t' pending)
    (h : inv t order) (hrun : order.foldlM (removeErrorFromReadModels R) t = .ok t') :
    inv t' [] := by
  induction order generalizing t with
  | nil =>
    cases hrun
    exact h
  | cons old order ih =>
    rw [List.foldlM_cons] at hrun
    cases hthis : removeErrorFromReadModels R t old with
    | error e =>
      rw [hthis] at hrun
      cases hrun
    | ok u =>
      rw [hthis] at hrun
      exact ih (hfire t u old order h hthis) hrun

/-- The store with the tables that a deletion of errors writes taken from another one. -/
def TenantStore.deletedFrom (t u : TenantStore) : TenantStore :=
  { t with
    errors := u.errors
    bucketSummaries := u.bucketSummaries
    bucketWindows := u.bucketWindows
    appContextCounts := u.appContextCounts
    bucketContextCounts := u.bucketContextCounts
    evidence := u.evidence
    appStorageUsage := u.appStorageUsage }

/-- A delete statement writes no other tables. -/
theorem deletedFrom_deleteErrors (h : deleteErrors R t p order = .ok t') :
    t' = t.deletedFrom t' := by
  refine firings_invariant (fun u _ => u = t.deletedFrom u) ?_ (t := removeErrorRows t p) rfl h
  intro u v old pending hu hfire
  obtain ⟨summaries, -, rfl⟩ := removeErrorFromReadModels_inv hfire
  rw [hu]
  rfl

/-- The firings that are left keep the invariant to the end. -/
theorem midAgrees_firings (h : MidAgrees R t order)
    (hrun : order.foldlM (removeErrorFromReadModels R) t = .ok t') :
    MidAgrees R t' [] ∧ t'.errors = t.errors :=
  firings_invariant (fun u pending => MidAgrees R u pending ∧ u.errors = t.errors)
    (fun _ _ _ _ hu hfire => ⟨midAgrees_fire hu.1 hfire,
      (removeErrorFromReadModels_errors hfire).trans hu.2⟩) ⟨h, rfl⟩ hrun

/-- A delete statement that succeeds keeps the summaries, whatever the other read models
hold. -/
theorem summariesAgree_deleteErrors (h : SummariesAgree t) (horder : order.Perm (t.selected p))
    (hrun : deleteErrors R t p order = .ok t') :
    SummariesAgree t' ∧ t'.errors = t.errors.delete p := by
  have hmid := firings_invariant (fun u pending =>
      (∀ app bucket, MidSummary (u.bucketRows app bucket)
        (pending.filter (ErrorRow.inBucket app bucket)) (u.bucketSummaries.get? (app, bucket))) ∧
      u.errors = t.errors.delete p)
    (fun _ _ _ _ hu hfire => ⟨fun app bucket => midSummary_fired (hu.1 app bucket) hfire,
      (removeErrorFromReadModels_errors hfire).trans hu.2⟩)
    ⟨midSummary_removeErrorRows h horder, rfl⟩ hrun
  exact ⟨fun app bucket => summaryOf_of_mid (hmid.1 app bucket), hmid.2⟩

/-- A delete statement that succeeds keeps the read models. -/
theorem readModelAgrees_deleteErrors (h : ReadModelAgrees R t)
    (horder : order.Perm (t.selected p)) (hrun : deleteErrors R t p order = .ok t') :
    ReadModelAgrees R t' ∧ t'.errors = t.errors.delete p := by
  obtain ⟨hmid, herr⟩ := midAgrees_firings (midAgrees_removeErrorRows h horder) hrun
  exact ⟨readModelAgrees_of_mid hmid, herr⟩

/-- The rows of a bucket that a statement selects are all of them. -/
def Empties (t : TenantStore) (p : ErrorRow → Bool) (app bucket : String) : Prop :=
  ∀ r ∈ t.bucketRows app bucket, p r = true

/-- No bucket with two rows or more loses them all. -/
def LeavesOrSingle (t : TenantStore) (p : ErrorRow → Bool) : Prop :=
  ∀ app bucket, Empties t p app bucket → (t.bucketRows app bucket).length ≤ 1

/-- Firings succeed when every bucket keeps a row or has one firing at most. -/
theorem firings_ok (h : MidAgrees R t order)
    (hok : ∀ app bucket, t.bucketRows app bucket ≠ [] ∨
      (order.filter (ErrorRow.inBucket app bucket)).length ≤ 1) :
    ∃ t', order.foldlM (removeErrorFromReadModels R) t = .ok t' := by
  induction order generalizing t with
  | nil => exact ⟨t, rfl⟩
  | cons old order ih =>
    have hfire : ∃ u, removeErrorFromReadModels R t old = .ok u := by
      apply removeErrorFromReadModels_ok h
      intro app bucket hin
      refine (hok app bucket).imp_right fun hlen => ?_
      rw [List.filter_cons_of_pos hin, List.length_cons] at hlen
      exact List.length_eq_zero_iff.1 (by omega)
    obtain ⟨u, hu⟩ := hfire
    have hrest : ∀ app bucket, u.bucketRows app bucket ≠ [] ∨
        (order.filter (ErrorRow.inBucket app bucket)).length ≤ 1 := by
      intro app bucket
      rw [TenantStore.bucketRows, removeErrorFromReadModels_errors hu]
      refine (hok app bucket).imp_right fun hlen => le_trans ?_ hlen
      exact ((List.sublist_cons_self old order).filter _).length_le
    obtain ⟨t', ht'⟩ := ih (midAgrees_fire h hu) hrest
    exact ⟨t', by rw [List.foldlM_cons, hu]; exact ht'⟩

/-- Firings fail in a bucket that keeps no row while both ends of its summary
are pending and different. -/
theorem firings_stuck {app bucket : String} (h : MidAgrees R t order)
    (hfinal : t.bucketRows app bucket = []) {v : BucketSummary}
    (hv : t.bucketSummaries.get? (app, bucket) = some v)
    (hfirst : ∃ r ∈ order, r.inBucket app bucket = true ∧ r.id = v.firstErrorId)
    (hlast : ∃ r ∈ order, r.inBucket app bucket = true ∧ r.id = v.lastErrorId)
    (hne : v.firstErrorId ≠ v.lastErrorId) :
    order.foldlM (removeErrorFromReadModels R) t ≠ .ok t' := by
  induction order generalizing t v with
  | nil => simp at hfirst
  | cons old order ih =>
    intro hrun
    rw [List.foldlM_cons] at hrun
    cases hfire : removeErrorFromReadModels R t old with
    | error e =>
      rw [hfire] at hrun
      cases hrun
    | ok u =>
      rw [hfire] at hrun
      obtain ⟨summaries, hs, hu⟩ := removeErrorFromReadModels_inv hfire
      have hinv := triggerSummaries_inv hs app bucket
      have hufinal : u.bucketRows app bucket = [] := by
        rw [TenantStore.bucketRows, removeErrorFromReadModels_errors hfire]
        exact hfinal
      have husum : u.bucketSummaries = summaries := by rw [hu, takeOff]
      by_cases hin : old.inBucket app bucket = true
      · -- the row is in the bucket: on an end it fails, elsewhere the ends stay pending
        rw [if_pos hin] at hinv
        rw [TenantStore.bucketRows] at hfinal
        rw [hfinal, hv] at hinv
        have hmid := h.summaries app bucket
        rw [TenantStore.bucketRows, hfinal, hv, List.filter_cons_of_pos hin] at hmid
        have hcount : 1 < v.count := by
          obtain ⟨hcount, -, -, -⟩ := hmid
          rw [hcount, List.length_nil, List.length_cons]
          have hother : order.filter (ErrorRow.inBucket app bucket) ≠ [] := by
            intro hnil
            rw [List.filter_eq_nil_iff] at hnil
            obtain ⟨r, hr, hrin, hrid⟩ := hfirst
            obtain ⟨q, hq, hqin, hqid⟩ := hlast
            have hro : r = old := (List.mem_cons.1 hr).resolve_right fun hm => hnil r hm hrin
            have hqo : q = old := (List.mem_cons.1 hq).resolve_right fun hm => hnil q hm hqin
            exact hne (by rw [← hrid, ← hqid, hro, hqo])
          have := List.length_pos_iff.2 hother
          omega
        by_cases hend : v.firstErrorId = old.id ∨ v.lastErrorId = old.id
        · rw [summarize_eq_none.2 rfl, fireSummary_error hcount hend] at hinv
          cases hinv
        · have hfire' : fireSummary (summarize []) old.id (some v) =
              .ok (some { v with count := v.count - 1 }) := by
            simp only [fireSummary]
            rw [if_neg (by omega), if_neg hend]
          rw [not_or] at hend
          rw [hfire', Except.ok.injEq, ← husum] at hinv
          refine ih (midAgrees_fire h hfire) hufinal hinv.symm ?_ ?_ hne hrun
          · obtain ⟨r, hr, hrin, hrid⟩ := hfirst
            refine ⟨r, (List.mem_cons.1 hr).resolve_left ?_, hrin, hrid⟩
            rintro rfl
            exact hend.1 hrid.symm
          · obtain ⟨r, hr, hrin, hrid⟩ := hlast
            refine ⟨r, (List.mem_cons.1 hr).resolve_left ?_, hrin, hrid⟩
            rintro rfl
            exact hend.2 hrid.symm
      · -- another bucket's row: nothing here changes
        rw [if_neg hin, ← husum, hv] at hinv
        refine ih (midAgrees_fire h hfire) hufinal hinv ?_ ?_ hne hrun
        · obtain ⟨r, hr, hrin, hrid⟩ := hfirst
          refine ⟨r, (List.mem_cons.1 hr).resolve_left ?_, hrin, hrid⟩
          rintro rfl
          exact hin hrin
        · obtain ⟨r, hr, hrin, hrid⟩ := hlast
          refine ⟨r, (List.mem_cons.1 hr).resolve_left ?_, hrin, hrid⟩
          rintro rfl
          exact hin hrin

theorem bucketRows_removeErrorRows (app bucket : String) :
    (removeErrorRows t p).bucketRows app bucket =
      (t.bucketRows app bucket).filter fun r => !p r := by
  simp only [TenantStore.bucketRows, removeErrorRows, ErrorTable.delete]
  rw [List.filter_comm]

/-- Two rows of a bucket make its ends different. -/
theorem ends_ne_of_two {app bucket : String} {v : BucketSummary}
    (h : SummaryOf (t.bucketRows app bucket) (some v))
    (hlen : 1 < (t.bucketRows app bucket).length) : v.firstErrorId ≠ v.lastErrorId := by
  obtain ⟨-, hfirst, hlast⟩ := h
  have hsorted : (t.bucketRows app bucket).Pairwise fun a b => a.id < b.id :=
    t.errors.sorted.filter _
  cases hrows : t.bucketRows app bucket with
  | nil => simp [hrows] at hlen
  | cons a rest =>
    cases rest with
    | nil => simp [hrows] at hlen
    | cons b rest =>
      rw [hrows] at hsorted hfirst hlast
      have hab : a.id < b.id := List.rel_of_pairwise_cons hsorted (by simp)
      have h1 := hfirst.2 ⟨a, by simp, rfl⟩
      have h2 := hlast.2 ⟨b, by simp, rfl⟩
      omega

/-- A delete statement succeeds exactly when no bucket with two rows or more
loses them all, in whatever order the trigger fires. -/
theorem deleteErrors_ok_iff (h : ReadModelAgrees R t) (horder : order.Perm (t.selected p)) :
    (∃ t', deleteErrors R t p order = .ok t') ↔ LeavesOrSingle t p := by
  have hmid := midAgrees_removeErrorRows h horder
  have hpending : ∀ app bucket, Empties t p app bucket →
      (order.filter (ErrorRow.inBucket app bucket)).Perm (t.bucketRows app bucket) := by
    intro app bucket hempty
    refine (horder.filter _).trans (List.Perm.of_eq ?_)
    rw [TenantStore.selected, List.filter_comm]
    exact List.filter_eq_self.2 hempty
  constructor
  · rintro ⟨t', hrun⟩ app bucket hempty
    by_contra hlen
    rw [not_le] at hlen
    have hsum := h.summaries app bucket
    cases hv : t.bucketSummaries.get? (app, bucket) with
    | none =>
      rw [hv, summaryOf_none] at hsum
      simp [hsum] at hlen
    | some v =>
      rw [hv] at hsum
      have hin : ∀ i, (∃ r ∈ t.bucketRows app bucket, r.id = i) →
          ∃ r ∈ order, r.inBucket app bucket = true ∧ r.id = i := by
        rintro i ⟨r, hr, hid⟩
        have hm := (hpending app bucket hempty).mem_iff.2 hr
        exact ⟨r, List.mem_of_mem_filter hm, (List.mem_filter.1 hm).2, hid⟩
      refine firings_stuck hmid ?_ hv (hin _ hsum.2.1.1) (hin _ hsum.2.2.1)
        (ends_ne_of_two hsum hlen) hrun
      rw [bucketRows_removeErrorRows, List.filter_eq_nil_iff]
      intro r hr
      simp [hempty r hr]
  · intro hok
    apply firings_ok hmid
    intro app bucket
    rw [bucketRows_removeErrorRows]
    by_cases hempty : Empties t p app bucket
    · right
      rw [(hpending app bucket hempty).length_eq]
      exact hok app bucket hempty
    · left
      intro hnil
      rw [List.filter_eq_nil_iff] at hnil
      apply hempty
      intro r hr
      simpa using hnil r hr

end Statement

end ReproitCloud
