import ReproitCloud.Lib.Keyset
import ReproitCloud.Lib.Loops
import ReproitCloud.Telemetry.Deletion

/-!
# The export of an app

An export streams what is stored of an app, a line for each thing: a header, the triage of
the buckets, the errors, the keys of the evidence, and the captures.  Errors and evidence
are read in pages behind a cursor, and the tables go on changing in the meantime.

A read that fails aborts the stream, and a client that has gone ends it.  Otherwise the
loop over the pages leaves at the first page that is not full.  The ids of the database are
those of a `BIGSERIAL` column, so a cursor that goes up comes to an end.

* `export_reads_lasting_rows`: an export ends, whatever is inserted and deleted meanwhile.
  Its ids go up.  It is complete if no call fails, and then every row of the app that is
  there at all of its reads is in it once, an error if it is also within the retention
  window.
* `export_leaves_out_expired`: an error past its retention is there all the time and not in
  the export.
-/

namespace ReproitCloud

open Lib

/-! ## The tables and their reads -/

/-- The tables of a tenant at an instant, with ids from `BIGSERIAL` columns. -/
structure ExportTables where
  telemetry : TenantStore
  error_ids : ∀ r ∈ telemetry.errors.rows, 0 < r.id ∧ r.id < 2 ^ 63
  evidence_ids : ∀ e ∈ telemetry.evidence, 0 < e.id ∧ e.id < 2 ^ 63
  evidence_nodup : (telemetry.evidence.map EvidenceRow.id).Nodup

/-- An error that an export shows, with a retention window or without. -/
def withinDays (days : Option Int) (now : Micros) (r : ErrorRow) : Bool :=
  days.all fun days => now - days * microsPerDay ≤ r.createdAt

/-- The errors that the pages are taken from. -/
def exportErrors (t : ExportTables) (appId : String) (days : Option Int) (now : Micros) :
    List ErrorRow :=
  t.telemetry.errors.rows.filter fun r => r.appId = appId && withinDays days now r

/-- `export_errors_page`. -/
def exportErrorsPage (t : ExportTables) (appId : String) (days : Option Int) (now : Micros)
    (after limit : Nat) : List ErrorRow :=
  keysetPage ErrorRow.id limit after (exportErrors t appId days now)

/-- The evidence that the pages are taken from. -/
def exportEvidence (t : ExportTables) (appId : String) : List EvidenceRow :=
  t.telemetry.evidence.filter fun e => e.appId = appId

/-- `export_evidence_page`. -/
def exportEvidencePage (t : ExportTables) (appId : String) (after limit : Nat) :
    List EvidenceRow :=
  keysetPage EvidenceRow.id limit after (exportEvidence t appId)

/-- `triage_all_for_app`, sorted by bucket. -/
def exportTriage (t : ExportTables) (appId : String) : List (String × TriageRow) :=
  (t.telemetry.bucketTriage.rows.filterMap fun r =>
    if r.1.1 = appId then some (r.1.2, r.2) else none).insertionSort fun a b => a.1 ≤ b.1

/-! ## The stream -/

/-- A line of an export. -/
inductive ExportLine where
  | app (appId : String) (orgId : Int64) (exportedAt : Micros) (retentionDays : Option Int)
  | bucket (bucket : String) (triage : TriageRow)
  | error (row : ErrorRow)
  | evidence (row : EvidenceRow)
  | capture (capture files : Json)

def ExportLine.error? : ExportLine → Option ErrorRow
  | error row => some row
  | _ => none

def ExportLine.evidence? : ExportLine → Option EvidenceRow
  | evidence row => some row
  | _ => none

/-- How a stream ends before it is complete. -/
inductive ExportEnd where
  | aborted
  | closed
deriving DecidableEq, Repr

/-- What has been sent, and whether the stream has ended. -/
structure Export where
  ended : Option ExportEnd := none
  sent : List ExportLine

/-- The error rows of an export. -/
def Export.errors (x : Export) : List ErrorRow := x.sent.filterMap ExportLine.error?

/-- The evidence rows of an export. -/
def Export.evidence (x : Export) : List EvidenceRow := x.sent.filterMap ExportLine.evidence?

/-- The next part of a stream that has not ended. -/
def Export.andThen (x : Export) (next : List ExportLine → Option Export) : Option Export :=
  if x.ended.isSome then some x else next x.sent

/-- What an export reads, and what happens to its calls. -/
structure ExportChance where
  orgId : Int64
  exportedAt : Micros
  triageAt : ExportTables
  triageFails : Bool := false
  /-- The tables when the pages of errors are read, and the instants. -/
  errorsAt : Nat → ExportTables
  errorsNow : Nat → Micros
  errorsFail : Nat → Bool := fun _ => false
  evidenceAt : Nat → ExportTables
  evidenceFails : Nat → Bool := fun _ => false
  /-- The ids of the captures, with what is written of them. -/
  captures : Option (List (String × Json)) := some []
  captureFiles : String → Option Json := fun _ => none
  /-- Whether the client has gone when it has been sent so many lines. -/
  gone : Nat → Bool := fun _ => false

/-- No call of an export fails, and the client stays. -/
structure ExportChance.Works (chance : ExportChance) : Prop where
  client : ∀ n, chance.gone n = false
  triage : chance.triageFails = false
  errors : ∀ k, chance.errorsFail k = false
  evidence : ∀ k, chance.evidenceFails k = false
  captures : ∃ captures, chance.captures = some captures ∧
    ∀ c ∈ captures, chance.captureFiles c.1 ≠ none

/-- Lines are sent one after the other. -/
def sendAll (gone : Nat → Bool) : List ExportLine → List ExportLine → Export
  | sent, [] => { sent := sent }
  | sent, line :: lines =>
    if gone sent.length then { ended := some .closed, sent := sent }
    else sendAll gone (sent ++ [line]) lines

/-- A turn of a loop over pages.  `rows` has what the pages are taken from, or that the read
fails. -/
def pageTurn {α : Type} (gone : Nat → Bool) (limit : Nat) (key : α → Nat) (line : α → ExportLine)
    (rows : Nat → Option (List α)) (k : Nat) (s : Nat × List ExportLine) :
    LoopStep (Nat × List ExportLine) Export :=
  match rows k with
  | none => .done { ended := some .aborted, sent := s.2 }
  | some rows =>
    let page := keysetPage key limit s.1 rows
    match page.getLast? with
    | none => .done { sent := s.2 }
    | some last =>
      let x := sendAll gone s.2 (page.map line)
      if x.ended.isSome || page.length < limit then .done x else .again (key last, x.sent)

/-- The loop over the captures. -/
def sendCaptures (gone : Nat → Bool) (files : String → Option Json) :
    List ExportLine → List (String × Json) → Export
  | sent, [] => { sent := sent }
  | sent, c :: captures =>
    match files c.1 with
    | none => { ended := some .aborted, sent := sent }
    | some json =>
      let x := sendAll gone sent [.capture c.2 json]
      if x.ended.isSome then x else sendCaptures gone files x.sent captures

section Stream

variable (limit : Nat) (appId : String) (days : Option Int) (chance : ExportChance)

/-- The errors that the pages of a turn are taken from. -/
def errorsRead (k : Nat) : Option (List ErrorRow) :=
  if chance.errorsFail k then none
  else some (exportErrors (chance.errorsAt k) appId days (chance.errorsNow k))

/-- The evidence that the pages of a turn are taken from. -/
def evidenceRead (k : Nat) : Option (List EvidenceRow) :=
  if chance.evidenceFails k then none else some (exportEvidence (chance.evidenceAt k) appId)

/-- The captures, which come last. -/
def streamCaptures (sent : List ExportLine) : Export :=
  match chance.captures with
  | none => { ended := some .aborted, sent := sent }
  | some captures => sendCaptures chance.gone chance.captureFiles sent captures

/-- The pages of evidence, and what follows them. -/
def streamEvidence (fuel : Nat) (sent : List ExportLine) : Option Export :=
  (loop (pageTurn chance.gone limit EvidenceRow.id .evidence (evidenceRead appId chance)) fuel 0
    (0, sent)).bind fun x => x.andThen fun sent => some (streamCaptures chance sent)

/-- The pages of errors, and what follows them. -/
def streamErrors (fuel : Nat) (sent : List ExportLine) : Option Export :=
  (loop (pageTurn chance.gone limit ErrorRow.id .error (errorsRead appId days chance)) fuel 0
    (0, sent)).bind fun x => x.andThen (streamEvidence limit appId chance fuel)

/-- `export_stream`. -/
def exportStream (fuel : Nat) : Option Export :=
  (sendAll chance.gone [] [.app appId chance.orgId chance.exportedAt days]).andThen fun sent =>
    if chance.triageFails then some { ended := some .aborted, sent := sent }
    else
      (sendAll chance.gone sent ((exportTriage chance.triageAt appId).map fun r =>
        .bucket r.1 r.2)).andThen (streamErrors limit appId days chance fuel)

end Stream

/-! ## What the parts of a stream send -/

section Sending

variable {gone : Nat → Bool} {sent lines : List ExportLine}

/-- What is sent of lines is the first of them, all if the stream goes on. -/
theorem sendAll_spec (gone : Nat → Bool) (sent lines : List ExportLine) :
    ∃ part rest, lines = part ++ rest ∧ (sendAll gone sent lines).sent = sent ++ part ∧
      ((sendAll gone sent lines).ended = none → rest = []) := by
  induction lines generalizing sent with
  | nil => exact ⟨[], [], rfl, (List.append_nil sent).symm, fun _ => rfl⟩
  | cons line lines ih =>
    rw [sendAll]
    split
    · exact ⟨[], line :: lines, rfl, (List.append_nil sent).symm, fun h => by cases h⟩
    · obtain ⟨part, rest, hlines, hsent, hall⟩ := ih (sent ++ [line])
      refine ⟨line :: part, rest, by rw [hlines]; rfl, ?_, hall⟩
      rw [hsent, List.append_assoc]
      rfl

variable (gone sent) in
/-- Lines that show nothing of a kind send nothing of it. -/
theorem filterMap_sendAll {β : Type} {pick : ExportLine → Option β}
    (h : ∀ line ∈ lines, pick line = none) :
    (sendAll gone sent lines).sent.filterMap pick = sent.filterMap pick := by
  obtain ⟨part, rest, rfl, hsent, -⟩ := sendAll_spec gone sent lines
  rw [hsent, List.filterMap_append, List.filterMap_eq_nil_iff.2 fun line hline =>
    h line (List.mem_append_left rest hline), List.append_nil]

theorem filterMap_sendCaptures {β : Type} {pick : ExportLine → Option β}
    (h : ∀ capture files, pick (.capture capture files) = none) (files : String → Option Json)
    (sent : List ExportLine) (captures : List (String × Json)) :
    (sendCaptures gone files sent captures).sent.filterMap pick = sent.filterMap pick := by
  induction captures generalizing sent with
  | nil => rfl
  | cons c captures ih =>
    rw [sendCaptures]
    split
    · rfl
    · rename_i json _
      have hthis : (sendAll gone sent [.capture c.2 json]).sent.filterMap pick =
          sent.filterMap pick := filterMap_sendAll _ _ fun line hline => by
        rw [List.mem_singleton.1 hline]
        exact h c.2 json
      dsimp only
      split
      · exact hthis
      · exact (ih _).trans hthis

end Sending

section Pages

variable {α β : Type} {gone : Nat → Bool} {limit : Nat} {key : α → Nat} {line : α → ExportLine}
  {rows : Nat → Option (List α)} {lasts : α → Prop} {pick : ExportLine → Option α}
  {other : ExportLine → Option β} {base : List β}

/-- What a loop over pages leaves with: the rows of its kind in order, all that last if the
stream goes on, and of another kind what there was. -/
structure PagesSent (key : α → Nat) (lasts : α → Prop) (pick : ExportLine → Option α)
    (other : ExportLine → Option β) (base : List β) (x : Export) : Prop where
  increasing : (x.sent.filterMap pick).Pairwise fun a b => key a < key b
  all : x.ended = none → ∀ a, lasts a → a ∈ x.sent.filterMap pick
  others : x.sent.filterMap other = base

/-- Rows that can be paged: their keys are different and below a bound. -/
def Pageable (key : α → Nat) (lasts : α → Prop) (rows : Nat → Option (List α)) : Prop :=
  ∀ k l, rows k = some l → (l.map key).Nodup ∧ (∀ a ∈ l, key a < 2 ^ 63) ∧ ∀ a, lasts a → a ∈ l

theorem pageTurn_keeps (hlimit : 0 < limit) (hpick : ∀ a, pick (line a) = some a)
    (hother : ∀ a, other (line a) = none) (hrows : Pageable key lasts rows) (k : Nat)
    (s : Nat × List ExportLine)
    (h : ReadUpTo key lasts s.1 (s.2.filterMap pick) ∧ s.2.filterMap other = base) :
    (pageTurn gone limit key line rows k s).Keeps
      (fun s' => (ReadUpTo key lasts s'.1 (s'.2.filterMap pick) ∧ s'.2.filterMap other = base) ∧
        2 ^ 63 - s'.1 < 2 ^ 63 - s.1)
      (PagesSent key lasts pick other base) := by
  obtain ⟨hread, hbase⟩ := h
  unfold pageTurn
  split
  · exact ⟨hread.increasing, fun hends => (by cases hends), hbase⟩
  · rename_i l hl
    obtain ⟨hnodup, hbound, hlasts⟩ := hrows k l hl
    have hmap : ∀ page : List α, (page.map line).filterMap pick = page := by
      intro page
      rw [List.filterMap_map]
      exact (List.filterMap_congr fun a _ => hpick a).trans List.filterMap_some
    have hnone : ∀ page : List α, ∀ l ∈ page.map line, other l = none := by
      intro page l hl
      obtain ⟨a, -, rfl⟩ := List.mem_map.1 hl
      exact hother a
    dsimp only
    split
    · rename_i hempty
      have hnil := List.getLast?_eq_none_iff.1 hempty
      refine ⟨hread.increasing, fun _ a ha => ?_, hbase⟩
      have hshort : (keysetPage key limit s.1 l).length < limit := by
        rw [hnil]
        exact hlimit
      have hmem := hread.short hlasts hshort ha
      rwa [hnil, List.append_nil] at hmem
    · rename_i last hlast
      obtain ⟨hpage, hless⟩ := hread.page hnodup hlasts hlast
      obtain ⟨part, rest, hpart, hsent, hall⟩ := sendAll_spec gone s.2
        ((keysetPage key limit s.1 l).map line)
      have hpicked : (sendAll gone s.2 ((keysetPage key limit s.1 l).map line)).sent.filterMap
          pick = s.2.filterMap pick ++ part.filterMap pick := by
        rw [hsent, List.filterMap_append]
      have hsub : (part.filterMap pick).Sublist (keysetPage key limit s.1 l) := by
        have hprefix := (List.sublist_append_left part rest).filterMap pick
        rwa [← hpart, hmap] at hprefix
      have hwhole : (sendAll gone s.2 ((keysetPage key limit s.1 l).map line)).ended = none →
          part.filterMap pick = keysetPage key limit s.1 l := by
        intro hends
        rw [hall hends, List.append_nil] at hpart
        rw [← hpart, hmap]
      have hothers := (filterMap_sendAll gone s.2
        (hnone (keysetPage key limit s.1 l))).trans hbase
      split
      · rename_i hleaves
        rw [Bool.or_eq_true, decide_eq_true_eq] at hleaves
        refine ⟨?_, fun hends a ha => ?_, hothers⟩
        · rw [hpicked]
          exact hread.increasing_append hnodup hsub
        · have hshort := hleaves.resolve_left (by simp [hends])
          rw [hpicked, hwhole hends]
          exact hread.short hlasts hshort ha
      · rename_i hgoes
        rw [Bool.or_eq_true, not_or, Bool.not_eq_true, Option.isSome_eq_false_iff,
          Option.isNone_iff_eq_none] at hgoes
        refine ⟨⟨?_, hothers⟩, ?_⟩
        · rw [hpicked, hwhole hgoes.1]
          exact hpage
        · have hbounded := hbound last (mem_keysetPage (List.mem_of_getLast? hlast)).1
          dsimp only
          omega

variable (gone line pick other) in
/-- A loop over pages ends. -/
theorem pages_end (hlimit : 0 < limit) (hpick : ∀ a, pick (line a) = some a)
    (hother : ∀ a, other (line a) = none) (hrows : Pageable key lasts rows)
    (hpos : ∀ a, lasts a → 0 < key a) {sent : List ExportLine} (hnone : sent.filterMap pick = [])
    (hbase : sent.filterMap other = base) :
    ∃ x, (∀ fuel, 2 ^ 63 < fuel →
        loop (pageTurn gone limit key line rows) fuel 0 (0, sent) = some x) ∧
      PagesSent key lasts pick other base x := by
  have hstart : ReadUpTo key lasts 0 (sent.filterMap pick) ∧ sent.filterMap other = base := by
    rw [hnone]
    exact ⟨⟨.nil, fun a ha => by (cases ha), fun a ha hle => absurd (hpos a ha) (by omega)⟩, hbase⟩
  obtain ⟨x, hx, hsent⟩ := loop_total (pageTurn gone limit key line rows)
    (fun _ s => ReadUpTo key lasts s.1 (s.2.filterMap pick) ∧ s.2.filterMap other = base)
    (fun s => 2 ^ 63 - s.1) (PagesSent key lasts pick other base)
    (fun k s h => pageTurn_keeps hlimit hpick hother hrows k s h) (k := 0) (s := (0, sent)) hstart
    (Nat.lt_succ_self _)
  exact ⟨x, fun fuel hfuel => loop_mono hx hfuel, hsent⟩

end Pages

/-! ## The whole stream -/

/-- An error of the app that every read of a page finds within the window. -/
def LastingError (appId : String) (days : Option Int) (chance : ExportChance) (r : ErrorRow) :
    Prop :=
  r.appId = appId ∧ ∀ k, r ∈ (chance.errorsAt k).telemetry.errors.rows ∧
    withinDays days (chance.errorsNow k) r = true

/-- Evidence of the app that is there at every read of a page. -/
def LastingEvidence (appId : String) (chance : ExportChance) (e : EvidenceRow) : Prop :=
  e.appId = appId ∧ ∀ k, e ∈ (chance.evidenceAt k).telemetry.evidence

/-- The ids of an export go up, and a complete one has what lasts. -/
structure ExportSound (appId : String) (days : Option Int) (chance : ExportChance) (x : Export) :
    Prop where
  errors_increasing : x.errors.Pairwise fun a b => a.id < b.id
  evidence_increasing : x.evidence.Pairwise fun a b => a.id < b.id
  errors_all : x.ended = none → ∀ r, LastingError appId days chance r → r ∈ x.errors
  evidence_all : x.ended = none → ∀ e, LastingEvidence appId chance e → e ∈ x.evidence

section Stream

variable {limit : Nat} {appId : String} {days : Option Int} {chance : ExportChance}

variable (appId days chance) in
theorem pageable_errors : Pageable ErrorRow.id (LastingError appId days chance)
    (errorsRead appId days chance) := by
  intro k l hl
  rw [errorsRead] at hl
  split at hl
  · cases hl
  · rw [Option.some.injEq] at hl
    subst hl
    refine ⟨(chance.errorsAt k).telemetry.errors.ids_nodup.sublist (List.filter_sublist.map _),
      fun a ha => ((chance.errorsAt k).error_ids a (List.mem_filter.1 ha).1).2, fun a ha => ?_⟩
    refine List.mem_filter.2 ⟨(ha.2 k).1, ?_⟩
    rw [Bool.and_eq_true, decide_eq_true_eq]
    exact ⟨ha.1, (ha.2 k).2⟩

variable (appId chance) in
theorem pageable_evidence : Pageable EvidenceRow.id (LastingEvidence appId chance)
    (evidenceRead appId chance) := by
  intro k l hl
  rw [evidenceRead] at hl
  split at hl
  · cases hl
  · rw [Option.some.injEq] at hl
    subst hl
    exact ⟨(chance.evidenceAt k).evidence_nodup.sublist (List.filter_sublist.map _),
      fun a ha => ((chance.evidenceAt k).evidence_ids a (List.mem_filter.1 ha).1).2,
      fun a ha => List.mem_filter.2 ⟨ha.2 k, decide_eq_true ha.1⟩⟩

/-- A stream that has ended is its result, and one that goes on has the result of the rest. -/
theorem andThen_total (next : Nat → List ExportLine → Option Export) {x : Export}
    (post : Export → Prop) (hends : x.ended ≠ none → post x)
    (hgoes : x.ended = none → ∃ y, (∀ fuel, 2 ^ 63 < fuel → next fuel x.sent = some y) ∧ post y) :
    ∃ y, (∀ fuel, 2 ^ 63 < fuel → x.andThen (next fuel) = some y) ∧ post y := by
  unfold Export.andThen
  cases hx : x.ended with
  | some reason => exact ⟨x, fun fuel _ => rfl, hends (by simp [hx])⟩
  | none => exact hgoes hx

/-- A stream that ends before the pages has no rows. -/
theorem exportSound_of_no_rows {x : Export} (herrors : x.errors = []) (hevidence : x.evidence = [])
    (hends : x.ended ≠ none) : ExportSound appId days chance x where
  errors_increasing := by rw [herrors]; exact .nil
  evidence_increasing := by rw [hevidence]; exact .nil
  errors_all h := absurd h hends
  evidence_all h := absurd h hends

theorem filterMap_streamCaptures {β : Type} {pick : ExportLine → Option β}
    (h : ∀ capture files, pick (.capture capture files) = none) (sent : List ExportLine) :
    (streamCaptures chance sent).sent.filterMap pick = sent.filterMap pick := by
  unfold streamCaptures
  split
  · rfl
  · exact filterMap_sendCaptures h _ _ _

/-- After the errors. -/
theorem streamEvidence_sound (hlimit : 0 < limit) {sent : List ExportLine}
    (hincreasing : (sent.filterMap ExportLine.error?).Pairwise fun a b => a.id < b.id)
    (hall : ∀ r, LastingError appId days chance r → r ∈ sent.filterMap ExportLine.error?)
    (hnone : sent.filterMap ExportLine.evidence? = []) :
    ∃ x, (∀ fuel, 2 ^ 63 < fuel → streamEvidence limit appId chance fuel sent = some x) ∧
      ExportSound appId days chance x := by
  obtain ⟨x, hx, hpages⟩ := pages_end chance.gone ExportLine.evidence ExportLine.evidence?
    ExportLine.error? hlimit (fun _ => rfl) (fun _ => rfl) (pageable_evidence appId chance)
    (fun e he => ((chance.evidenceAt 0).evidence_ids e (he.2 0)).1) hnone rfl
  have herrors : x.errors = sent.filterMap ExportLine.error? := hpages.others
  obtain ⟨y, hy, hsound⟩ := andThen_total
    (fun _ sent => some (streamCaptures chance sent)) (ExportSound appId days chance)
    (fun hends => ⟨herrors ▸ hincreasing, hpages.increasing, fun h => absurd h hends,
      fun h => absurd h hends⟩)
    fun hends => by
      have hkept : (streamCaptures chance x.sent).errors = x.errors :=
        filterMap_streamCaptures (fun _ _ => rfl) _
      have hrows : (streamCaptures chance x.sent).evidence = x.evidence :=
        filterMap_streamCaptures (fun _ _ => rfl) _
      refine ⟨_, fun fuel _ => rfl, ?_, ?_, fun _ => ?_, fun _ => ?_⟩
      · rw [hkept, herrors]
        exact hincreasing
      · rw [hrows]
        exact hpages.increasing
      · rw [hkept, herrors]
        exact hall
      · rw [hrows]
        exact hpages.all hends
  refine ⟨y, fun fuel hfuel => ?_, hsound⟩
  rw [streamEvidence, hx fuel hfuel]
  exact hy fuel hfuel

/-- After the header and the buckets. -/
theorem streamErrors_sound (hlimit : 0 < limit) {sent : List ExportLine}
    (herrors : sent.filterMap ExportLine.error? = [])
    (hevidence : sent.filterMap ExportLine.evidence? = []) :
    ∃ x, (∀ fuel, 2 ^ 63 < fuel → streamErrors limit appId days chance fuel sent = some x) ∧
      ExportSound appId days chance x := by
  obtain ⟨x, hx, hpages⟩ := pages_end chance.gone ExportLine.error ExportLine.error?
    ExportLine.evidence? hlimit (fun _ => rfl) (fun _ => rfl) (pageable_errors appId days chance)
    (fun r hr => ((chance.errorsAt 0).error_ids r (hr.2 0).1).1) herrors hevidence
  obtain ⟨y, hy, hsound⟩ := andThen_total
    (fun fuel => streamEvidence limit appId chance fuel) (ExportSound appId days chance)
    (fun hends => ⟨hpages.increasing, by rw [Export.evidence, hpages.others]; exact .nil,
      fun h => absurd h hends, fun h => absurd h hends⟩)
    fun hends => streamEvidence_sound hlimit hpages.increasing (hpages.all hends) hpages.others
  refine ⟨y, fun fuel hfuel => ?_, hsound⟩
  rw [streamErrors, hx fuel hfuel]
  exact hy fuel hfuel

/-- An export has a result, which is sound. -/
theorem exportStream_sound (appId : String) (days : Option Int) (chance : ExportChance)
    (hlimit : 0 < limit) :
    ∃ x, (∀ fuel, 2 ^ 63 < fuel → exportStream limit appId days chance fuel = some x) ∧
      ExportSound appId days chance x := by
  -- neither the header nor the buckets show a row
  have hhead : ∀ {β : Type} (pick : ExportLine → Option β),
      pick (.app appId chance.orgId chance.exportedAt days) = none →
      (sendAll chance.gone [] [.app appId chance.orgId chance.exportedAt days]).sent.filterMap
        pick = [] := by
    intro β pick hpick
    refine filterMap_sendAll _ _ fun line hline => ?_
    rw [List.mem_singleton.1 hline]
    exact hpick
  have hbuckets : ∀ {β : Type} (pick : ExportLine → Option β) (sent : List ExportLine),
      (∀ bucket triage, pick (.bucket bucket triage) = none) →
      (sendAll chance.gone sent ((exportTriage chance.triageAt appId).map fun r =>
        .bucket r.1 r.2)).sent.filterMap pick = sent.filterMap pick := by
    intro β pick sent hpick
    refine filterMap_sendAll _ _ fun line hline => ?_
    obtain ⟨r, -, rfl⟩ := List.mem_map.1 hline
    exact hpick r.1 r.2
  have herrors := hhead ExportLine.error? rfl
  have hevidence := hhead ExportLine.evidence? rfl
  refine andThen_total _ _ (exportSound_of_no_rows herrors hevidence) fun _ => ?_
  split
  · exact ⟨_, fun fuel _ => rfl, exportSound_of_no_rows herrors hevidence fun h => by cases h⟩
  · have herrors' := (hbuckets ExportLine.error? _ fun _ _ => rfl).trans herrors
    have hevidence' := (hbuckets ExportLine.evidence? _ fun _ _ => rfl).trans hevidence
    exact andThen_total _ _ (exportSound_of_no_rows herrors' hevidence') fun _ =>
      streamErrors_sound hlimit herrors' hevidence'

/-! ## A stream that is not cut short -/

section Complete

variable {gone : Nat → Bool}

theorem ended_sendAll (hgone : ∀ n, gone n = false) (sent lines : List ExportLine) :
    (sendAll gone sent lines).ended = none := by
  induction lines generalizing sent with
  | nil => rfl
  | cons line lines ih =>
    rw [sendAll, hgone, if_neg Bool.false_ne_true]
    exact ih _

theorem ended_sendCaptures (hgone : ∀ n, gone n = false) {files : String → Option Json}
    {captures : List (String × Json)} (hfiles : ∀ c ∈ captures, files c.1 ≠ none)
    (sent : List ExportLine) : (sendCaptures gone files sent captures).ended = none := by
  induction captures generalizing sent with
  | nil => rfl
  | cons c captures ih =>
    rw [List.forall_mem_cons] at hfiles
    rw [sendCaptures]
    split
    · rename_i hnone
      exact absurd hnone hfiles.1
    · dsimp only
      rw [ended_sendAll hgone, Option.isSome_none, if_neg Bool.false_ne_true]
      exact ih hfiles.2 _

/-- A loop over pages that can be read leaves with a stream that goes on. -/
theorem ended_pageTurn {α : Type} {key : α → Nat} {line : α → ExportLine}
    {rows : Nat → Option (List α)} (hgone : ∀ n, gone n = false) (hrows : ∀ k, rows k ≠ none)
    (k : Nat) (s : Nat × List ExportLine) (x : Export)
    (h : pageTurn gone limit key line rows k s = .done x) : x.ended = none := by
  unfold pageTurn at h
  split at h
  · rename_i hnone
    exact absurd hnone (hrows k)
  · dsimp only at h
    split at h
    · cases h
      rfl
    · split at h
      · cases h
        exact ended_sendAll hgone _ _
      · cases h

theorem ended_andThen {x y : Export} {next : List ExportLine → Option Export}
    (hx : x.ended = none) (hnext : ∀ sent, next sent = some y → y.ended = none)
    (h : x.andThen next = some y) : y.ended = none := by
  rw [Export.andThen, hx, Option.isSome_none, if_neg Bool.false_ne_true] at h
  exact hnext _ h

/-- An export whose calls work is complete. -/
theorem ended_exportStream {fuel : Nat} {x : Export} (hworks : chance.Works)
    (h : exportStream limit appId days chance fuel = some x) : x.ended = none := by
  refine ended_andThen (ended_sendAll hworks.client _ _) (fun sent h => ?_) h
  rw [hworks.triage, if_neg Bool.false_ne_true] at h
  refine ended_andThen (ended_sendAll hworks.client _ _) (fun sent h => ?_) h
  obtain ⟨pages, hpages, h⟩ := Option.bind_eq_some_iff.1 h
  have herrors : ∀ k, errorsRead appId days chance k ≠ none := fun k => by
    rw [errorsRead, hworks.errors, if_neg Bool.false_ne_true]
    exact Option.some_ne_none _
  refine ended_andThen (loop_done (fun x => x.ended = none)
    (ended_pageTurn hworks.client herrors) hpages) (fun sent h => ?_) h
  obtain ⟨pages, hpages, h⟩ := Option.bind_eq_some_iff.1 h
  have hevidence : ∀ k, evidenceRead appId chance k ≠ none := fun k => by
    rw [evidenceRead, hworks.evidence, if_neg Bool.false_ne_true]
    exact Option.some_ne_none _
  refine ended_andThen (loop_done (fun x => x.ended = none)
    (ended_pageTurn hworks.client hevidence) hpages) (fun sent h => ?_) h
  obtain ⟨captures, hcaptures, hfiles⟩ := hworks.captures
  rw [Option.some.injEq, streamCaptures, hcaptures] at h
  rw [← h]
  exact ended_sendCaptures hworks.client hfiles _

end Complete

/-- Of rows whose keys go up, those with the key of one of them are this one. -/
theorem filter_key_eq_singleton {α : Type} {key : α → Nat} {l : List α}
    (h : l.Pairwise fun a b => key a < key b) {a : α} (ha : a ∈ l) :
    l.filter (fun b => key b = key a) = [a] := by
  obtain ⟨front, back, rfl⟩ := List.append_of_mem ha
  obtain ⟨-, hback, hfront⟩ := List.pairwise_append.1 h
  have hbefore : front.filter (fun b => key b = key a) = [] :=
    List.filter_eq_nil_iff.2 fun b hb => by
      have hless := hfront b hb a List.mem_cons_self
      simp [hless.ne]
  have hafter : back.filter (fun b => key b = key a) = [] :=
    List.filter_eq_nil_iff.2 fun b hb => by
      have hless := (List.pairwise_cons.1 hback).1 b hb
      simp [hless.ne']
  rw [List.filter_append, hbefore, List.nil_append, List.filter_cons_of_pos (by simp), hafter]

end Stream

/-- An export ends, whatever happens to the tables meanwhile.  The ids of its errors and those
of its evidence go up.  It is complete if no call fails and the client stays.  A complete one
shows every row of the app once that is there at each read, an error if each read is within
its retention window. -/
theorem export_reads_lasting_rows {limit : Nat} (hlimit : 0 < limit) (appId : String)
    (days : Option Int) (chance : ExportChance) :
    ∃ x : Export, (∀ fuel, 2 ^ 63 < fuel →
        exportStream limit appId days chance fuel = some x) ∧
      (x.errors.Pairwise fun a b => a.id < b.id) ∧
      (x.evidence.Pairwise fun a b => a.id < b.id) ∧
      (chance.Works → x.ended = none) ∧
      (x.ended = none →
        (∀ r, LastingError appId days chance r → x.errors.filter (fun q => q.id = r.id) = [r]) ∧
        ∀ e, LastingEvidence appId chance e → x.evidence.filter (fun q => q.id = e.id) = [e]) := by
  obtain ⟨x, hx, hsound⟩ := exportStream_sound appId days chance hlimit
  refine ⟨x, hx, hsound.errors_increasing, hsound.evidence_increasing,
    fun hworks => ended_exportStream hworks (hx _ (Nat.lt_succ_self _)),
    fun hends => ⟨fun r hr => ?_, fun e he => ?_⟩⟩
  · exact filter_key_eq_singleton hsound.errors_increasing (hsound.errors_all hends r hr)
  · exact filter_key_eq_singleton hsound.evidence_increasing (hsound.evidence_all hends e he)

/-- An error of the first instant. -/
def firstError : NewError := ⟨"shop", ⟨"sig", "boom", [], .empty⟩, none, 0⟩

/-- A tenant with that error and nothing else. -/
def firstErrorOnly : ExportTables where
  telemetry := { errors := .insert .empty [firstError] }
  error_ids := by decide
  evidence_ids _ he := by cases he
  evidence_nodup := .nil

/-- An export at an instant, while the tables stay as they are. -/
def quietExport (t : ExportTables) (now : Micros) : ExportChance where
  orgId := 1
  exportedAt := now
  triageAt := t
  errorsAt _ := t
  errorsNow _ := now
  evidenceAt _ := t

theorem works_quietExport (t : ExportTables) (now : Micros) : (quietExport t now).Works :=
  ⟨fun _ => rfl, rfl, fun _ => rfl, fun _ => rfl, [], rfl, fun _ hc => by cases hc⟩

theorem export_reads_lasting_rows_page_one :
    ∃ x : Export, (∀ fuel, 2 ^ 63 < fuel →
        exportStream 1 "shop" none (quietExport firstErrorOnly 0) fuel = some x) ∧
      x.ended = none ∧
      x.errors.filter (fun q => q.id = (firstError.row 1).id) = [firstError.row 1] := by
  obtain ⟨x, hx, -, -, hends, hall⟩ := export_reads_lasting_rows (by decide : 0 < 1) "shop" none
    (quietExport firstErrorOnly 0)
  have hends := hends (works_quietExport firstErrorOnly 0)
  exact ⟨x, hx, hends, (hall hends).1 _ ⟨rfl, fun _ => ⟨List.mem_cons_self, rfl⟩⟩⟩

/-- With a retention window of 30 days, an error that is 31 days old is there all the time and
not in the complete export. -/
theorem export_leaves_out_expired :
    ¬∀ (limit : Nat) (appId : String) (days : Option Int) (chance : ExportChance) (fuel : Nat)
      (x : Export), 0 < limit → exportStream limit appId days chance fuel = some x →
      x.ended = none → ∀ r : ErrorRow, r.appId = appId →
        (∀ k, r ∈ (chance.errorsAt k).telemetry.errors.rows) →
        x.errors.filter (fun q => q.id = r.id) = [r] := by
  intro hall
  have hnone := hall 1000 "shop" (some 30) (quietExport firstErrorOnly (31 * microsPerDay)) 1 _
    (by decide) rfl rfl (firstError.row 1) rfl fun _ => List.mem_cons_self
  cases hnone

end ReproitCloud
