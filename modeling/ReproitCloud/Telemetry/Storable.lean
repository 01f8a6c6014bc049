import ReproitCloud.Protocol.Batch
import ReproitCloud.Telemetry.ExactlyOnce

/-!
# Which accepted batches can be stored

The protocol checks the length of a text, and PostgreSQL has two conditions of its own.  Neither
a text nor a `jsonb` value can have U+0000, and the entry of an index has to fit on a page.  An
entry is compressed before it is put there, so a long one may fit.  `IndexPages` has the ones
that do, and the short ones are among them.

`Bound` is what a statement sends: its texts, its `jsonb` values, and the texts of the index
entries that its rows have.  `storeBatch` is the transaction of `ingest_batch` where a statement
is refused for what it sends.

The two sides meet in `accepted_storable_iff`.  Of a batch that the protocol accepts, the ids,
the kinds and the build are tokens or hashes and can always be stored.  What is left are the
edges, the findings and the payloads.
-/

namespace ReproitCloud

open Lib Protocol

/-! ## What the database takes -/

/-- A text without U+0000. -/
def nulFree (s : String) : Bool := s.toList.all (· ≠ Char.ofNat 0)

mutual

/-- A value without U+0000, as `jsonb` has it. -/
def Json.nulFree : Json → Bool
  | .string s => ReproitCloud.nulFree s
  | .array items => itemsNulFree items
  | .object members => membersNulFree members
  | _ => true

def itemsNulFree : List Json → Bool
  | [] => true
  | v :: rest => v.nulFree && itemsNulFree rest

def membersNulFree : List (String × Json) → Bool
  | [] => true
  | (k, v) :: rest => nulFree k && v.nulFree && membersNulFree rest

end

/-- The length of an index entry, before it is compressed. -/
def entryBytes (entry : List String) : Nat := (entry.map String.utf8ByteSize).sum

/-- The length up to which an entry always fits. -/
def shortEntry : Nat := 2600

/-- The index entries that fit on a page. -/
structure IndexPages where
  fits : List String → Bool
  short : ∀ entry, entryBytes entry ≤ shortEntry → fits entry = true

/-- What a statement sends. -/
structure Bound where
  texts : List String := []
  values : List Json := []
  /-- The texts of the index entries of its rows. -/
  entries : List (List String) := []

def Bound.stored (D : IndexPages) (v : Bound) : Bool :=
  v.texts.all nulFree && v.values.all Json.nulFree && v.entries.all D.fits

/-- `BEGIN`, `COMMIT` and `ROLLBACK` send nothing. -/
def Bound.nothing : Bound := {}

/-- A statement refused for what it sends, or for another reason. -/
inductive StoreRefusal where
  | value
  | statement (e : SqlError)
deriving DecidableEq, Repr

/-- A statement with what it sends. -/
def sending (D : IndexPages) (v : Bound) (f : Statement SqlError TenantStore) :
    Statement StoreRefusal TenantStore := fun t =>
  if v.stored D then (f t).mapError .statement else .error .value

/-! ## What the statements send -/

def consumeBound (b : IngestBatch) : Bound where
  texts := [b.appId, b.batchId]
  entries := [[b.appId, b.batchId]]

def trafficBounds (b : IngestBatch) : List Bound :=
  match b.deployment with
  | some build => [{ texts := [b.appId, build], entries := [[b.appId, build]] }]
  | none => []

def edgeBounds (b : IngestBatch) : List Bound :=
  if b.edges.isEmpty then [] else
    [{ texts := b.appId :: b.edges.map Prod.fst
       entries := b.edges.map fun e => [b.appId, e.1] }]

/-- A step as `serde_json` writes it. -/
def Step.toValue (s : Step) : Json :=
  .object ([("sig", .string s.sig), ("action", .string s.action)] ++
    (s.label.map fun label => ("label", .string label)).toList)

def pathValue (path : List Step) : Json := .array (path.map Step.toValue)

/-- The error rows and the summaries.  The indexes of `errors` have the app and the bucket too. -/
def rowsBound (P : Platform) (b : IngestBatch) : Bound where
  texts := b.appId :: b.errors.map ErrorRec.sig ++ b.errors.map ErrorRec.message ++
    batchBuckets P b
  values := b.errors.map (fun r => pathValue r.path) ++
    b.errors.map fun r => .object r.context.rows
  entries := (batchBuckets P b).map fun bucket => [b.appId, bucket]

def dimensionBounds (P : Platform) (b : IngestBatch) : List Bound :=
  if (batchAppDimensions P b).isEmpty then [] else
    [{ texts := b.appId :: (batchAppDimensions P b).flatMap fun d => [d.key, d.value]
       entries := (batchAppDimensions P b).map fun d => [b.appId, d.key, d.value] },
     { texts := b.appId :: (batchBucketDimensions P b).flatMap fun d => [d.bucketId, d.key, d.value]
       entries :=
        (batchBucketDimensions P b).map fun d => [b.appId, d.bucketId, d.key, d.value] }]

def issuesBound (P : Platform) (b : IngestBatch) : Bound where
  texts := b.appId :: batchBuckets P b
  entries := (batchBuckets P b).map fun bucket => [b.appId, bucket, "file-issue"]

def windowsBound (P : Platform) (b : IngestBatch) : Bound where
  texts := b.appId :: b.deployment.getD "" :: batchBuckets P b
  entries := (batchBuckets P b).map fun bucket => [b.appId, bucket, b.deployment.getD ""]

def errorBounds (P : Platform) (b : IngestBatch) : List Bound :=
  [rowsBound P b] ++ dimensionBounds P b ++ [issuesBound P b, windowsBound P b]

def graphBounds (b : IngestBatch) : List Bound :=
  let nodes := b.evidence.flatMap ReproitCloud.EvidenceGraph.nodes
  if nodes.isEmpty then [] else
    [{ texts := b.appId :: nodes.map ReproitCloud.ArtifactNode.id ++
         nodes.map ReproitCloud.ArtifactNode.kind
       values := nodes.map (fun n => stringsValue n.parents) ++
         nodes.map ReproitCloud.ArtifactNode.payload
       entries := nodes.map fun n => [b.appId, n.id] },
     { texts := b.appId :: b.evidence.map ReproitCloud.EvidenceGraph.runId ++
         b.evidence.map ReproitCloud.EvidenceGraph.root
       entries := b.evidence.map fun g => [b.appId, g.runId, g.root] }]

def batchBounds (P : Platform) (b : IngestBatch) : List Bound :=
  trafficBounds b ++ edgeBounds b ++ (if b.errors.isEmpty then [] else errorBounds P b) ++
    graphBounds b

/-- What the statements of a call send, in the order of `ingestStatements`. -/
def ingestBounds (P : Platform) (t : TenantStore) (b : IngestBatch) : List Bound :=
  if t.processedBatches.has (b.appId, b.batchId) then
    [.nothing, consumeBound b, .nothing]
  else [.nothing, consumeBound b] ++ batchBounds P b ++ [.nothing]

/-- `ingest_batch` on a database that is there. -/
def storeBatch (D : IndexPages) (P : Platform) (t : TenantStore) (now : Micros)
    (b : IngestBatch) : Except StoreRefusal (Bool × TenantStore) :=
  if b.isEmpty then .ok (false, t)
  else
    (runAll ((ingestBounds P t b).zipWith (sending D) (ingestStatements P t now b)) t).map
      (t.processedBatches.has (b.appId, b.batchId), ·)

/-! ## A transaction of checked statements -/

section Checking

variable {D : IndexPages} {P : Platform} {t u : TenantStore} {now : Micros} {b : IngestBatch}

/-- Checked statements run when everything they send is stored and the statements run. -/
theorem runAll_checked {bounds : List Bound} {fs : List (Statement SqlError TenantStore)}
    (hlength : bounds.length = fs.length) :
    runAll (bounds.zipWith (sending D) fs) t = .ok u ↔
      (∀ v ∈ bounds, v.stored D = true) ∧ runAll fs t = .ok u := by
  induction fs generalizing bounds t with
  | nil =>
    rw [List.length_eq_zero_iff.1 hlength]
    simp
  | cons f fs ih =>
    obtain ⟨v, bounds, rfl⟩ := List.exists_cons_of_length_eq_add_one hlength
    have hrest (s : TenantStore) := ih (t := s) (Nat.succ.inj hlength)
    rw [List.zipWith_cons_cons, runAll_cons, runAll_cons, List.forall_mem_cons, sending]
    by_cases hv : v.stored D = true
    · rw [if_pos hv]
      cases hf : f t with
      | error e =>
        refine iff_of_false ?_ ?_
        · rintro ⟨⟩
        · rintro ⟨-, ⟨⟩⟩
      | ok s =>
        show runAll _ s = .ok u ↔ (v.stored D = true ∧ _) ∧ runAll fs s = .ok u
        rw [hrest s, and_assoc]
        exact (and_iff_right hv).symm
    · rw [if_neg hv]
      refine iff_of_false ?_ fun h => hv h.1.1
      rintro ⟨⟩

theorem length_errorBounds (P : Platform) (now : Micros) (b : IngestBatch) :
    (errorBounds P b).length = (errorStatements P now b).length := by
  simp only [errorBounds, dimensionBounds, errorStatements, List.length_append]
  split <;> rfl

theorem length_batchBounds (P : Platform) (now : Micros) (b : IngestBatch) :
    (batchBounds P b).length = (batchStatements P now b).length := by
  have htraffic : (trafficBounds b).length = (trafficStatements now b).length := by
    rw [trafficBounds, trafficStatements]
    cases b.deployment <;> rfl
  have hedges : (edgeBounds b).length = (edgeStatements b).length := by
    rw [edgeBounds, edgeStatements]
    split <;> rfl
  have herrors : (if b.errors.isEmpty then [] else errorBounds P b).length =
      (if b.errors.isEmpty then [] else errorStatements P now b).length := by
    split
    · rfl
    · exact length_errorBounds P now b
  have hgraphs : (graphBounds b).length = (graphStatements b).length := by
    simp only [graphBounds, graphStatements]
    split <;> rfl
  simp only [batchBounds, batchStatements, List.length_append, htraffic, hedges, herrors, hgraphs]

theorem length_ingestBounds :
    (ingestBounds P t b).length = (ingestStatements P t now b).length := by
  rw [ingestBounds, ingestStatements]
  split
  · rfl
  · simp only [List.length_append, length_batchBounds P now b]
    rfl

theorem stored_nothing : Bound.nothing.stored D = true := rfl

/-- A batch is stored or found to be a duplicate, as `ingestBatch` has it, when the id can be
sent, and the rest as well if it comes to that. -/
theorem storeBatch_ok_iff {answer : Bool × TenantStore} (hbatch : b.isEmpty = false) :
    storeBatch D P t now b = .ok answer ↔
      ((consumeBound b).stored D = true ∧
        (t.processedBatches.has (b.appId, b.batchId) = true ∨
          ∀ v ∈ batchBounds P b, v.stored D = true)) ∧
      ingestBatch P t now b = .ok answer := by
  obtain ⟨dup, u⟩ := answer
  have hrun : storeBatch D P t now b = .ok (dup, u) ↔
      runAll ((ingestBounds P t b).zipWith (sending D) (ingestStatements P t now b)) t = .ok u ∧
        t.processedBatches.has (b.appId, b.batchId) = dup := by
    rw [storeBatch, hbatch, if_neg Bool.false_ne_true]
    cases runAll ((ingestBounds P t b).zipWith (sending D) (ingestStatements P t now b)) t with
    | error e => simp [Except.map]
    | ok s => simp [Except.map, and_comm]
  rw [hrun, runAll_checked length_ingestBounds, ingestBatch_eq, hbatch,
    if_neg Bool.false_ne_true, ingestBounds]
  cases hknown : t.processedBatches.has (b.appId, b.batchId) with
  | true =>
    rw [runAll_ingestStatements_known hknown]
    simp [stored_nothing, and_assoc, and_comm]
  | false =>
    rw [runAll_ingestStatements_fresh hknown]
    cases applyBatch P now b (consumeBatch now b t) with
    | error e => simp [Except.map]
    | ok s => simp [stored_nothing, Except.map, and_assoc, and_comm, or_imp, forall_and]

end Checking

/-! ## Texts that can always be stored -/

/-- A text of the length of a token. -/
structure Plain (s : String) : Prop where
  nulFree : nulFree s = true
  bytes : s.utf8ByteSize ≤ maxTokenBytes

section Texts

variable {D : IndexPages}

theorem nulFree_iff {s : String} : nulFree s = true ↔ ∀ c ∈ s.toList, c ≠ Char.ofNat 0 := by
  simp [nulFree]

theorem itemsNulFree_iff {items : List Json} :
    itemsNulFree items = true ↔ ∀ v ∈ items, v.nulFree = true := by
  induction items with
  | nil => simp [itemsNulFree]
  | cons v items ih => rw [itemsNulFree, Bool.and_eq_true, ih, List.forall_mem_cons]

theorem membersNulFree_iff {members : List (String × Json)} :
    membersNulFree members = true ↔
      ∀ m ∈ members, nulFree m.1 = true ∧ m.2.nulFree = true := by
  induction members with
  | nil => simp [membersNulFree]
  | cons m members ih =>
    rw [membersNulFree, Bool.and_eq_true, Bool.and_eq_true, ih, List.forall_mem_cons]

theorem nulFree_stringsValue {values : List String} :
    (stringsValue values).nulFree = true ↔ ∀ s ∈ values, nulFree s = true := by
  rw [stringsValue, Json.nulFree, itemsNulFree_iff, List.forall_mem_map]
  rfl

/-- A token is plain. -/
theorem plain_of_token {s : String} (h : validateToken s = .ok ()) : Plain s := by
  obtain ⟨-, hbytes, hchars⟩ := validateToken_ok_iff.1 h
  refine ⟨nulFree_iff.2 fun c hc hnul => ?_, hbytes⟩
  have hchar := hchars c hc
  rw [hnul] at hchar
  exact absurd hchar (by decide)

theorem plain_of_optional {o : Option String} (h : Protocol.optional validateToken o = .ok ())
    {s : String} (hs : o = some s) : Plain s := by
  subst hs
  exact plain_of_token h

/-- An entry of a few plain texts fits. -/
theorem fits_of_plain {entry : List String} (hlength : entry.length ≤ 20)
    (hplain : ∀ s ∈ entry, Plain s) : D.fits entry = true := by
  refine D.short entry ?_
  have hsum : entryBytes entry ≤ entry.length * maxTokenBytes := by
    rw [entryBytes, ← List.length_map String.utf8ByteSize, ← smul_eq_mul]
    refine List.sum_le_card_nsmul _ _ fun n hn => ?_
    obtain ⟨s, hs, rfl⟩ := List.mem_map.1 hn
    exact (hplain s hs).bytes
  refine hsum.trans ?_
  have hcount := Nat.mul_le_mul_right maxTokenBytes hlength
  exact hcount.trans (by decide)

theorem hashChar_ne_nul {c : Char} (h : hashChar c = true) : c ≠ Char.ofNat 0 := by
  rintro rfl
  exact absurd h (by decide)

theorem nulFree_of_validHash {value : String} {length : Nat} (h : validHash value length = true) :
    nulFree value = true := by
  rw [validHash, Bool.and_eq_true, List.all_eq_true] at h
  exact nulFree_iff.2 fun c hc => hashChar_ne_nul (h.2 c hc)

theorem nulFree_hashPrefix : ∀ c ∈ "sha256:".toList, c ≠ Char.ofNat 0 :=
  nulFree_iff.1 rfl

/-- The id of a node is plain when its hash is one. -/
theorem plain_of_digest {value : String} (h : validHash value 64 = true) :
    Plain (String.ofList ("sha256:".toList ++ value.toList)) := by
  constructor
  · rw [nulFree_iff, String.toList_ofList]
    intro c hc
    rcases List.mem_append.1 hc with hprefix | hvalue
    · exact nulFree_hashPrefix c hprefix
    · exact nulFree_iff.1 (nulFree_of_validHash h) c hvalue
  · rw [validHash, Bool.and_eq_true, decide_eq_true_eq] at h
    rw [String.ofList_append, String.utf8ByteSize_append, String.ofList_toList,
      String.ofList_toList, h.1]
    decide

theorem nulFree_of_validParent {parent : String} (h : validParent parent = true) :
    nulFree parent = true := by
  rw [validParent, Bool.and_eq_true, List.isPrefixOf_iff_prefix] at h
  obtain ⟨⟨rest, hrest⟩, hhash⟩ := h
  rw [nulFree_iff]
  intro c hc
  rw [← hrest] at hc hhash
  rcases List.mem_append.1 hc with hprefix | hdigest
  · exact nulFree_hashPrefix c hprefix
  · have hdrop : ("sha256:".toList ++ rest).drop 7 = rest := rfl
    rw [hdrop] at hhash
    have hfree := nulFree_iff.1 (nulFree_of_validHash hhash) c
    rw [String.toList_ofList] at hfree
    exact hfree hdigest

theorem nulFree_edgeKey {from' label to' : String} :
    nulFree (edgeKey from' label to') = true ↔
      nulFree from' = true ∧ nulFree label = true ∧ nulFree to' = true := by
  have hbar : '|' ≠ Char.ofNat 0 := by decide
  simp only [nulFree_iff, edgeKey, String.toList_ofList, List.mem_append, List.mem_cons, or_imp,
    forall_and, forall_eq, ne_eq, hbar, not_false_eq_true, true_and, and_assoc]

end Texts

/-! ## Errors and graphs that can be stored -/

/-- A dimension can be sent and counted, for the app and for a bucket. -/
def DimensionStorable (D : IndexPages) (app bucket : String) (d : String × String) : Prop :=
  (nulFree d.1 = true ∧ nulFree d.2 = true) ∧
    D.fits [app, d.1, d.2] = true ∧ D.fits [app, bucket, d.1, d.2] = true

/-- An error can be stored. -/
structure RecordStorable (D : IndexPages) (P : Platform) (app : String) (r : ErrorRec) : Prop where
  sig : nulFree r.sig = true
  message : nulFree r.message = true
  path : (pathValue r.path).nulFree = true
  context : (Json.object r.context.rows).nulFree = true
  dimensions : ∀ d ∈ dimensionValues P.toRenderings r.context,
    DimensionStorable D app (P.bucketId r) d

/-- The ids that come with a batch are plain. -/
structure PlainIds (P : Platform) (b : IngestBatch) : Prop where
  appId : Plain b.appId
  batchId : Plain b.batchId
  deployment : ∀ build, b.deployment = some build → Plain build
  buckets : ∀ r, Plain (P.bucketId r)

section Statements

variable {D : IndexPages} {P : Platform} {b : IngestBatch}

theorem Bound.stored_iff {v : Bound} : v.stored D = true ↔
    (∀ s ∈ v.texts, nulFree s = true) ∧ (∀ j ∈ v.values, j.nulFree = true) ∧
      ∀ entry ∈ v.entries, D.fits entry = true := by
  simp [Bound.stored, and_assoc]

theorem plain_empty : Plain "" := ⟨rfl, by decide⟩

theorem PlainIds.build (h : PlainIds P b) : Plain (b.deployment.getD "") := by
  cases hbuild : b.deployment with
  | none => exact plain_empty
  | some build => exact h.deployment build hbuild

theorem PlainIds.bucket (h : PlainIds P b) {bucket : String} (hin : bucket ∈ batchBuckets P b) :
    Plain bucket := by
  obtain ⟨r, -, rfl⟩ := List.mem_map.1 hin
  exact h.buckets r

theorem PlainIds.consume_stored (h : PlainIds P b) : (consumeBound b).stored D = true := by
  have hplain : ∀ s ∈ [b.appId, b.batchId], Plain s := by
    simp [h.appId, h.batchId]
  refine Bound.stored_iff.2 ⟨fun s hs => (hplain s hs).nulFree, by simp [consumeBound], ?_⟩
  intro entry hentry
  rw [consumeBound, List.mem_singleton] at hentry
  subst hentry
  exact fits_of_plain (by simp) hplain

theorem PlainIds.traffic_stored (h : PlainIds P b) : ∀ v ∈ trafficBounds b, v.stored D = true := by
  intro v hv
  rw [trafficBounds] at hv
  split at hv
  · rename_i build hbuild
    rw [List.mem_singleton] at hv
    subst hv
    have hplain : ∀ s ∈ [b.appId, build], Plain s := by
      simp [h.appId, h.deployment build hbuild]
    refine Bound.stored_iff.2 ⟨fun s hs => (hplain s hs).nulFree, by simp, ?_⟩
    intro entry hentry
    rw [List.mem_singleton] at hentry
    subst hentry
    exact fits_of_plain (by simp) hplain
  · cases hv

theorem PlainIds.edges_stored_iff (h : PlainIds P b) :
    (∀ v ∈ edgeBounds b, v.stored D = true) ↔
      ∀ e ∈ b.edges, nulFree e.1 = true ∧ D.fits [b.appId, e.1] = true := by
  rw [edgeBounds]
  cases hedges : b.edges with
  | nil => simp
  | cons e es =>
    rw [List.isEmpty_cons, if_neg Bool.false_ne_true, List.forall_mem_singleton, Bound.stored_iff]
    simp only [List.forall_mem_cons, List.forall_mem_map, List.not_mem_nil, false_imp_iff,
      imp_true_iff, true_and, h.appId.nulFree, forall_and]

/-- The dimensions of a batch are those of its errors. -/
theorem dimensionsStorable_iff :
    ((∀ d ∈ batchAppDimensions P b, (nulFree d.key = true ∧ nulFree d.value = true) ∧
        D.fits [b.appId, d.key, d.value] = true) ∧
      ∀ d ∈ batchBucketDimensions P b,
        D.fits [b.appId, d.bucketId, d.key, d.value] = true) ↔
      ∀ r ∈ b.errors, ∀ d ∈ dimensionValues P.toRenderings r.context,
        DimensionStorable D b.appId (P.bucketId r) d := by
  simp only [batchAppDimensions, batchBucketDimensions, List.forall_mem_flatMap,
    List.forall_mem_map, DimensionStorable]
  constructor
  · rintro ⟨happ, hbucket⟩ r hr d hd
    exact ⟨(happ r hr d hd).1, (happ r hr d hd).2, hbucket r hr d hd⟩
  · intro hall
    exact ⟨fun r hr d hd => ⟨(hall r hr d hd).1, (hall r hr d hd).2.1⟩,
      fun r hr d hd => (hall r hr d hd).2.2⟩

/-- Entries of an app, a bucket and one text more fit when these are plain. -/
theorem PlainIds.bucket_fits (h : PlainIds P b) {last : String} (hlast : Plain last)
    {entry : List String}
    (hentry : entry ∈ (batchBuckets P b).map fun bucket => [b.appId, bucket, last]) :
    D.fits entry = true := by
  obtain ⟨bucket, hbucket, rfl⟩ := List.mem_map.1 hentry
  refine fits_of_plain (by simp) fun s hs => ?_
  simp only [List.mem_cons, List.not_mem_nil, or_false] at hs
  rcases hs with rfl | rfl | rfl
  · exact h.appId
  · exact h.bucket hbucket
  · exact hlast

theorem PlainIds.rows_stored_iff (h : PlainIds P b) :
    (rowsBound P b).stored D = true ↔
      ∀ r ∈ b.errors, (nulFree r.sig = true ∧ nulFree r.message = true) ∧
        (pathValue r.path).nulFree = true ∧ (Json.object r.context.rows).nulFree = true := by
  have hbuckets : ∀ s ∈ batchBuckets P b, nulFree s = true := fun s hs => (h.bucket hs).nulFree
  have hentries : ∀ bucket ∈ batchBuckets P b, D.fits [b.appId, bucket] = true := by
    intro bucket hbucket
    refine fits_of_plain (by simp) fun s hs => ?_
    simp only [List.mem_cons, List.not_mem_nil, or_false] at hs
    rcases hs with rfl | rfl
    · exact h.appId
    · exact h.bucket hbucket
  rw [Bound.stored_iff, rowsBound]
  simp only [List.forall_mem_append, List.forall_mem_cons, List.forall_mem_map,
    h.appId.nulFree, true_and, forall_and, List.cons_append]
  constructor
  · rintro ⟨⟨⟨hsig, hmessage⟩, -⟩, ⟨hpath, hcontext⟩, -⟩
    exact ⟨⟨hsig, hmessage⟩, hpath, hcontext⟩
  · rintro ⟨⟨hsig, hmessage⟩, hpath, hcontext⟩
    exact ⟨⟨⟨hsig, hmessage⟩, hbuckets⟩, ⟨hpath, hcontext⟩, hentries⟩

theorem PlainIds.issues_stored (h : PlainIds P b) : (issuesBound P b).stored D = true := by
  have hissue : Plain "file-issue" := ⟨rfl, by decide⟩
  refine Bound.stored_iff.2 ⟨List.forall_mem_cons.2 ⟨h.appId.nulFree, ?_⟩, ?_, ?_⟩
  · exact fun s hs => (h.bucket hs).nulFree
  · exact fun j hj => absurd hj List.not_mem_nil
  · exact fun entry hentry => h.bucket_fits hissue hentry

theorem PlainIds.windows_stored (h : PlainIds P b) : (windowsBound P b).stored D = true := by
  refine Bound.stored_iff.2 ⟨List.forall_mem_cons.2 ⟨h.appId.nulFree, ?_⟩, ?_, ?_⟩
  · exact List.forall_mem_cons.2 ⟨h.build.nulFree, fun s hs => (h.bucket hs).nulFree⟩
  · exact fun j hj => absurd hj List.not_mem_nil
  · exact fun entry hentry => h.bucket_fits h.build hentry

theorem PlainIds.dimensions_stored_iff (h : PlainIds P b) :
    (∀ v ∈ dimensionBounds P b, v.stored D = true) ↔
      ∀ r ∈ b.errors, ∀ d ∈ dimensionValues P.toRenderings r.context,
        DimensionStorable D b.appId (P.bucketId r) d := by
  rw [← dimensionsStorable_iff, dimensionBounds]
  split
  · rename_i hnone
    rw [List.isEmpty_iff] at hnone
    simp [hnone, batchBucketDimensions_eq_nil P b hnone]
  · have hbucket : ∀ d ∈ batchBucketDimensions P b, nulFree d.bucketId = true := by
      intro d hd
      obtain ⟨r, -, hd⟩ := List.mem_flatMap.1 hd
      obtain ⟨kv, -, rfl⟩ := List.mem_map.1 hd
      exact (h.buckets r).nulFree
    have hsame : (∀ d ∈ batchAppDimensions P b, nulFree d.key = true ∧ nulFree d.value = true) →
        ∀ d ∈ batchBucketDimensions P b, nulFree d.key = true ∧ nulFree d.value = true := by
      intro happ d hd
      obtain ⟨r, hr, hd⟩ := List.mem_flatMap.1 hd
      obtain ⟨kv, hkv, rfl⟩ := List.mem_map.1 hd
      exact happ ⟨b.appId, kv.1, kv.2⟩ (List.mem_flatMap.2 ⟨r, hr, List.mem_map_of_mem hkv⟩)
    simp only [List.forall_mem_cons, Bound.stored_iff, List.not_mem_nil, false_imp_iff,
      imp_true_iff, true_and, and_true, h.appId.nulFree, List.forall_mem_flatMap,
      List.forall_mem_map]
    constructor
    · rintro ⟨⟨htexts, happ⟩, -, hfits⟩
      exact ⟨fun d hd => ⟨htexts d hd, happ d hd⟩, hfits⟩
    · rintro ⟨happ, hfits⟩
      have htexts := fun d hd => (happ d hd).1
      exact ⟨⟨htexts, fun d hd => (happ d hd).2⟩,
        fun d hd => ⟨hbucket d hd, hsame htexts d hd⟩, hfits⟩

theorem PlainIds.errors_stored_iff (h : PlainIds P b) :
    (∀ v ∈ errorBounds P b, v.stored D = true) ↔
      ∀ r ∈ b.errors, RecordStorable D P b.appId r := by
  rw [errorBounds, List.forall_mem_append, List.forall_mem_append, List.forall_mem_singleton,
    h.rows_stored_iff, h.dimensions_stored_iff]
  constructor
  · rintro ⟨⟨htexts, hdimensions⟩, -⟩ r hr
    obtain ⟨⟨hsig, hmessage⟩, hpath, hcontext⟩ := htexts r hr
    exact ⟨hsig, hmessage, hpath, hcontext, hdimensions r hr⟩
  · intro hall
    refine ⟨⟨fun r hr => ?_, fun r hr => (hall r hr).dimensions⟩, ?_⟩
    · exact ⟨⟨(hall r hr).sig, (hall r hr).message⟩, (hall r hr).path, (hall r hr).context⟩
    · exact List.forall_mem_cons.2 ⟨h.issues_stored, List.forall_mem_singleton.2 h.windows_stored⟩

end Statements

/-! ## Events that can be stored -/

namespace Protocol

def FindingIdentity.texts (i : FindingIdentity) : List String :=
  [i.oracle, i.invariant, i.kind, i.message, i.frame, i.trigger] ++ i.boundary.toList

def PathStep.texts (s : PathStep) : List String := [s.signature, s.action] ++ s.label.toList

/-- A member of a context that the aggregation does not write over. -/
def keptMember (m : String × Json) : Bool := m.1 ≠ "findingIdentity" && m.1 ≠ "oracle"

/-- The event leaves nothing that cannot be stored: no U+0000, and no edge and no dimension whose
index entry does not fit. -/
def Event.Storable (D : IndexPages) (P : Platform) (app : String) : Event → Prop
  | graphEdge from' label to' =>
    (nulFree from' = true ∧ nulFree label = true ∧ nulFree to' = true) ∧
      D.fits [app, edgeKey from' label to'] = true
  | finding signature message identity path context =>
    (nulFree signature = true ∧ nulFree message = true) ∧
    (∀ s ∈ identity.texts, nulFree s = true) ∧
    (∀ step ∈ path, ∀ s ∈ step.texts, nulFree s = true) ∧
    ∀ m ∈ context.rows, keptMember m = true → (nulFree m.1 = true ∧ m.2.nulFree = true) ∧
      ∀ value, safeCohortKey m.1 = true → cohortValue P.toRenderings m.1 m.2 = some value →
        ∀ r, (finding signature message identity path context).error? = some r →
          DimensionStorable D app (P.bucketId r) (m.1, value)
  | _ => True

section Findings

variable {D : IndexPages} {P : Platform} {app : String}

theorem nulFree_identity {i : FindingIdentity} :
    i.toValue.nulFree = true ↔ ∀ s ∈ i.texts, nulFree s = true := by
  have hnames : nulFree "boundary" = true ∧ nulFree "frame" = true ∧ nulFree "invariant" = true ∧
      nulFree "kind" = true ∧ nulFree "message" = true ∧ nulFree "oracle" = true ∧
      nulFree "trigger" = true := ⟨rfl, rfl, rfl, rfl, rfl, rfl, rfl⟩
  cases hboundary : i.boundary <;>
    simp [FindingIdentity.toValue, FindingIdentity.texts, Json.nulFree, membersNulFree,
      optionValue, hboundary, hnames] <;> tauto

theorem nulFree_step {s : PathStep} :
    (Step.toValue ⟨s.signature, s.action, s.label⟩).nulFree = true ↔
      ∀ text ∈ s.texts, nulFree text = true := by
  have hnames : nulFree "sig" = true ∧ nulFree "action" = true ∧ nulFree "label" = true :=
    ⟨rfl, rfl, rfl⟩
  cases hlabel : s.label <;>
    simp [Step.toValue, PathStep.texts, Json.nulFree, membersNulFree, hlabel, hnames]

theorem nulFree_path {path : List PathStep} :
    (pathValue (path.map fun s => ⟨s.signature, s.action, s.label⟩)).nulFree = true ↔
      ∀ step ∈ path, ∀ s ∈ step.texts, nulFree s = true := by
  rw [pathValue, Json.nulFree, itemsNulFree_iff, List.forall_mem_map, List.forall_mem_map]
  exact forall₂_congr fun s _ => nulFree_step

/-- A member set to a value, whether it was there or not. -/
theorem mem_rows_set {context : Context} {key : String} {value : Json} {m : String × Json} :
    m ∈ (context.upsert key value fun _ => value).rows ↔
      m = (key, value) ∨ (m.1 ≠ key ∧ m ∈ context.rows) := by
  obtain ⟨k, v⟩ := m
  rw [← Table.get?_eq_some_iff, ← Table.get?_eq_some_iff, Table.get?_upsert]
  have hset : (context.get? key).elim value (fun _ => value) = value := by
    cases context.get? key <;> rfl
  by_cases hk : k = key
  · subst hk
    simp [hset, eq_comm]
  · simp [hk]

/-- The members of a stored context. -/
theorem mem_stored_context {context : Context} {i : FindingIdentity} {m : String × Json} :
    m ∈ ((context.upsert "findingIdentity" i.toValue fun _ => i.toValue).upsert "oracle"
        (.string i.oracle) fun _ => .string i.oracle).rows ↔
      m = ("oracle", .string i.oracle) ∨ m = ("findingIdentity", i.toValue) ∨
        (keptMember m = true ∧ m ∈ context.rows) := by
  rw [mem_rows_set, mem_rows_set, keptMember, Bool.and_eq_true, decide_eq_true_eq,
    decide_eq_true_eq]
  constructor
  · rintro (hm | ⟨horacle, hm | ⟨hidentity, hm⟩⟩)
    · exact .inl hm
    · exact .inr (.inl hm)
    · exact .inr (.inr ⟨⟨hidentity, horacle⟩, hm⟩)
  · rintro (hm | hm | ⟨⟨hidentity, horacle⟩, hm⟩)
    · exact .inl hm
    · refine .inr ⟨?_, .inl hm⟩
      rw [hm]
      show ("findingIdentity" : String) ≠ "oracle"
      decide
    · exact .inr ⟨horacle, .inr ⟨hidentity, hm⟩⟩

theorem mem_dimensionValues {R : Renderings} {context : Context} {d : String × String} :
    d ∈ dimensionValues R context ↔
      ∃ v, (d.1, v) ∈ context.rows ∧ safeCohortKey d.1 = true ∧ cohortValue R d.1 v = some d.2 := by
  simp only [dimensionValues, List.mem_filterMap, List.mem_filter, Option.map_eq_some_iff]
  constructor
  · rintro ⟨⟨k, v⟩, ⟨hrow, hsafe⟩, value, hvalue, rfl⟩
    exact ⟨v, hrow, hsafe, hvalue⟩
  · rintro ⟨v, hrow, hsafe, hvalue⟩
    exact ⟨(d.1, v), ⟨hrow, hsafe⟩, d.2, hvalue, rfl⟩

/-- A finding can be stored when the error that it becomes can. -/
theorem recordStorable_iff {signature message : String} {i : FindingIdentity}
    {path : List PathStep} {context : Context} {r : ErrorRec}
    (hr : (Event.finding signature message i path context).error? = some r)
    (happ : Plain app) (hbucket : Plain (P.bucketId r)) (horacle : Plain i.oracle) :
    RecordStorable D P app r ↔
      (Event.finding signature message i path context).Storable D P app := by
  have hdimension : DimensionStorable D app (P.bucketId r) ("oracle", i.oracle) := by
    have hname : Plain "oracle" := ⟨rfl, by decide⟩
    refine ⟨⟨hname.nulFree, horacle.nulFree⟩, ?_, ?_⟩
    · exact fits_of_plain (by simp) (by simp [happ, hname, horacle])
    · exact fits_of_plain (by simp) (by simp [happ, hbucket, hname, horacle])
  have hrecord := Option.some.inj hr
  have hsig : r.sig = signature := by rw [← hrecord]
  have hmessage : r.message = message := by rw [← hrecord]
  have hpath : r.path = path.map fun s => ⟨s.signature, s.action, s.label⟩ := by rw [← hrecord]
  have hrows (m : String × Json) : m ∈ r.context.rows ↔ m = ("oracle", .string i.oracle) ∨
      m = ("findingIdentity", i.toValue) ∨ (keptMember m = true ∧ m ∈ context.rows) := by
    rw [← hrecord]
    exact mem_stored_context
  have hcontext : (Json.object r.context.rows).nulFree = true ↔
      (∀ s ∈ i.texts, nulFree s = true) ∧
        ∀ m ∈ context.rows, keptMember m = true → nulFree m.1 = true ∧ m.2.nulFree = true := by
    rw [Json.nulFree, membersNulFree_iff]
    constructor
    · intro hall
      refine ⟨nulFree_identity.1 (hall _ ((hrows _).2 (.inr (.inl rfl)))).2, fun m hm hkept => ?_⟩
      exact hall m ((hrows m).2 (.inr (.inr ⟨hkept, hm⟩)))
    · rintro ⟨hidentity, hkept⟩ m hm
      rcases (hrows m).1 hm with rfl | rfl | ⟨hk, hin⟩
      · exact ⟨(rfl : nulFree "oracle" = true), horacle.nulFree⟩
      · exact ⟨(rfl : nulFree "findingIdentity" = true), nulFree_identity.2 hidentity⟩
      · exact hkept m hin hk
  have hdimensions : (∀ d ∈ dimensionValues P.toRenderings r.context,
      DimensionStorable D app (P.bucketId r) d) ↔
      ∀ m ∈ context.rows, keptMember m = true → ∀ value, safeCohortKey m.1 = true →
        cohortValue P.toRenderings m.1 m.2 = some value →
        DimensionStorable D app (P.bucketId r) (m.1, value) := by
    constructor
    · intro hall m hm hk value hsafe hvalue
      refine hall (m.1, value) (mem_dimensionValues.2 ⟨m.2, ?_, hsafe, hvalue⟩)
      exact (hrows m).2 (.inr (.inr ⟨hk, hm⟩))
    · rintro hall ⟨key, value⟩ hd
      obtain ⟨v, hrow, hsafe, hvalue⟩ := mem_dimensionValues.1 hd
      rcases (hrows (key, v)).1 hrow with heq | heq | ⟨hk, hin⟩
      · cases heq
        cases hvalue
        exact hdimension
      · -- the identity is an object under another name than `build`
        cases heq
        cases hvalue
      · exact hall (key, v) hin hk value hsafe hvalue
  constructor
  · intro h
    have htexts := hcontext.1 h.context
    refine ⟨⟨hsig ▸ h.sig, hmessage ▸ h.message⟩, htexts.1, nulFree_path.1 (hpath ▸ h.path),
      fun m hm hk => ⟨htexts.2 m hm hk, fun value hsafe hvalue r' hr' => ?_⟩⟩
    rw [hr] at hr'
    cases hr'
    exact hdimensions.1 h.dimensions m hm hk value hsafe hvalue
  · rintro ⟨⟨hs, hm⟩, hidentity, hsteps, hmembers⟩
    refine ⟨hsig ▸ hs, hmessage ▸ hm, hpath ▸ nulFree_path.2 hsteps,
      hcontext.2 ⟨hidentity, fun m hm hk => (hmembers m hm hk).1⟩, hdimensions.2 ?_⟩
    exact fun m hm hk value hsafe hvalue => (hmembers m hm hk).2 value hsafe hvalue r hr

end Findings

/-! ## Batches that can be stored -/

/-- Everything of a batch that is stored can be. -/
structure EventBatch.Storable (D : IndexPages) (P : Platform) (b : EventBatch) : Prop where
  events : ∀ f ∈ b.frames, f.event.Storable D P b.appId
  payloads : ∀ g ∈ b.evidence, ∀ n ∈ g.nodes, n.payload.nulFree = true

section Batches

variable {D : IndexPages} {P : Platform} {A : Artifacts} {b : EventBatch}

theorem DeploymentIdentity.key_plain {d : DeploymentIdentity} (h : d.validate = .ok ())
    {build : String} (hkey : d.key = some build) : Plain build := by
  obtain ⟨-, h⟩ := both_ok_iff.1 h
  obtain ⟨hversion, hcommit⟩ := both_ok_iff.1 h
  rw [DeploymentIdentity.key, Option.or_eq_some_iff] at hkey
  rcases hkey with hkey | ⟨-, hkey⟩
  · exact plain_of_optional hcommit hkey
  · exact plain_of_optional hversion hkey

theorem EventBatch.Accepted.plainIds (h : b.Accepted A) (hbuckets : ∀ r, Plain (P.bucketId r)) :
    PlainIds P b.toIngest where
  appId := plain_of_token h.appId
  batchId := plain_of_token h.batchId
  deployment := by
    intro build hbuild
    obtain ⟨d, hd, hkey⟩ := Option.bind_eq_some_iff.1 hbuild
    exact DeploymentIdentity.key_plain (h.deployment d hd) hkey
  buckets := hbuckets

/-- The edges of a batch are stored when those of its events are. -/
theorem edges_storable_iff :
    (∀ e ∈ b.toIngest.edges, nulFree e.1 = true ∧ D.fits [b.appId, e.1] = true) ↔
      ∀ f ∈ b.frames, ∀ key, f.event.edge? = some key →
        nulFree key = true ∧ D.fits [b.appId, key] = true := by
  have hrow (key : String) := (counts_edges b.frames).exists_row_iff (k := key)
  constructor
  · intro hall f hf key hkey
    obtain ⟨n, hn⟩ := (hrow key).2 (Multiset.mem_coe.2 (List.mem_filterMap.2 ⟨f, hf, hkey⟩))
    exact hall (key, n) hn
  · rintro hall ⟨key, n⟩ he
    have hmem := Multiset.mem_coe.1 ((hrow key).1 ⟨n, he⟩)
    obtain ⟨f, hf, hkey⟩ := List.mem_filterMap.1 hmem
    exact hall f hf key hkey

/-- What the statements of the nodes send can be stored when the payloads can. -/
theorem graphs_stored_iff (h : b.Accepted A) (hplain : PlainIds P b.toIngest)
    (hdigest : ∀ j, validHash (A.digest j) 64 = true) :
    (∀ v ∈ graphBounds b.toIngest, v.stored D = true) ↔
      ∀ g ∈ b.evidence, ∀ n ∈ g.nodes, n.payload.nulFree = true := by
  have hnode : ∀ g ∈ b.evidence, ∀ n ∈ g.nodes,
      Plain n.id ∧ (stringsValue n.parents).nulFree = true := by
    intro g hg n hn
    obtain ⟨-, -, hnodes, -, -⟩ := EvidenceGraph.validate_ok (h.evidence g hg)
    obtain ⟨hid, -⟩ := ArtifactNode.validate_ok (hnodes n hn).1
    obtain ⟨-, hparents, heq⟩ := artifactId_ok hid
    refine ⟨?_, nulFree_stringsValue.2 fun s hs => nulFree_of_validParent (hparents s hs)⟩
    rw [heq]
    exact plain_of_digest (hdigest _)
  have hroot : ∀ g ∈ b.evidence, Plain g.runId ∧ Plain g.root := by
    intro g hg
    obtain ⟨hrun, -, -, -, hin⟩ := EvidenceGraph.validate_ok (h.evidence g hg)
    obtain ⟨n, hn, hid⟩ := List.mem_map.1 hin
    exact ⟨plain_of_token hrun, hid ▸ (hnode g hg n hn).1⟩
  have hkind : ∀ kind : ArtifactKind, nulFree kind.asStr = true := by
    intro kind
    cases kind <;> rfl
  have hnodes : b.toIngest.evidence.flatMap ReproitCloud.EvidenceGraph.nodes =
      (b.evidence.flatMap EvidenceGraph.nodes).map ArtifactNode.stored := by
    simp [EventBatch.toIngest, EvidenceGraph.stored, List.flatMap_map, List.map_flatMap]
  have hstored : ∀ g ∈ b.evidence, ∀ n ∈ g.nodes,
      n ∈ b.evidence.flatMap EvidenceGraph.nodes := fun g hg n hn => List.mem_flatMap.2 ⟨g, hg, hn⟩
  have hin : ∀ n ∈ b.evidence.flatMap EvidenceGraph.nodes,
      Plain n.id ∧ (stringsValue n.parents).nulFree = true := by
    intro n hn
    obtain ⟨g, hg, hn⟩ := List.mem_flatMap.1 hn
    exact hnode g hg n hn
  have happ : Plain b.appId := hplain.appId
  simp only [graphBounds, hnodes]
  split
  · rename_i hnone
    rw [List.isEmpty_iff, List.map_eq_nil_iff] at hnone
    rw [hnone] at hstored
    refine iff_of_true (by simp) fun g hg n hn => absurd (hstored g hg n hn) List.not_mem_nil
  · rw [List.forall_mem_cons, List.forall_mem_singleton, Bound.stored_iff, Bound.stored_iff]
    constructor
    · rintro ⟨⟨-, hvalues, -⟩, -⟩ g hg n hn
      refine hvalues n.payload (List.mem_append_right _ ?_)
      rw [List.map_map]
      exact List.mem_map.2 ⟨n, hstored g hg n hn, rfl⟩
    · intro hpayloads
      have hpayload : ∀ n ∈ b.evidence.flatMap EvidenceGraph.nodes, n.payload.nulFree = true := by
        intro n hn
        obtain ⟨g, hg, hn⟩ := List.mem_flatMap.1 hn
        exact hpayloads g hg n hn
      refine ⟨⟨?_, ?_, ?_⟩, ?_, fun j hj => absurd hj List.not_mem_nil, ?_⟩
      · simp only [List.map_map, List.forall_mem_append, List.forall_mem_cons, List.forall_mem_map,
          List.cons_append]
        exact ⟨happ.nulFree, fun n hn => (hin n hn).1.nulFree, fun n _ => hkind n.kind⟩
      · simp only [List.map_map, List.forall_mem_append, List.forall_mem_map]
        exact ⟨fun n hn => (hin n hn).2, hpayload⟩
      · simp only [List.map_map, List.forall_mem_map]
        refine fun n hn => fits_of_plain (by simp) ?_
        simpa using ⟨happ, (hin n hn).1⟩
      · simp only [EventBatch.toIngest, List.map_map, List.forall_mem_append, List.forall_mem_cons,
          List.forall_mem_map, List.cons_append]
        exact ⟨happ.nulFree, fun g hg => (hroot g hg).1.nulFree, fun g hg => (hroot g hg).2.nulFree⟩
      · simp only [EventBatch.toIngest, List.map_map, List.forall_mem_map]
        refine fun g hg => fits_of_plain (by simp) ?_
        simpa using ⟨happ, hroot g hg⟩

/-- The findings of a batch are stored when the errors that they become are. -/
theorem errors_storable_iff (h : b.Accepted A) (hplain : PlainIds P b.toIngest) :
    (∀ r ∈ b.toIngest.errors, RecordStorable D P b.appId r) ↔
      ∀ f ∈ b.frames, ∀ r, f.event.error? = some r → f.event.Storable D P b.appId := by
  have hmem (r : ErrorRec) : r ∈ b.toIngest.errors ↔ ∃ f ∈ b.frames, f.event.error? = some r :=
    List.mem_filterMap
  have hone : ∀ f ∈ b.frames, ∀ r, f.event.error? = some r →
      (RecordStorable D P b.appId r ↔ f.event.Storable D P b.appId) := by
    intro f hf r hr
    have hvalid := h.frames f hf
    obtain ⟨-, hvalid⟩ := both_ok_iff.1 hvalid
    obtain ⟨-, hvalid⟩ := both_ok_iff.1 hvalid
    obtain ⟨hevent, -⟩ := both_ok_iff.1 hvalid
    generalize f.event = event at hevent hr
    cases event with
    | finding signature message i path context =>
      obtain ⟨-, hevent⟩ := both_ok_iff.1 hevent
      obtain ⟨-, hevent⟩ := both_ok_iff.1 hevent
      obtain ⟨hidentity, -⟩ := both_ok_iff.1 hevent
      obtain ⟨horacle, -⟩ := both_ok_iff.1 hidentity
      obtain ⟨htoken, -⟩ := both_ok_iff.1 horacle
      exact recordStorable_iff hr hplain.appId (hplain.buckets r) (plain_of_token htoken)
    | action actor label => cases hr
    | observation actor state route texts counts signals statuses shapes => cases hr
    | backend evidence => cases hr
    | graphEdge from' label to' => cases hr
    | streamDefect reason => cases hr
  constructor
  · intro hall f hf r hr
    exact (hone f hf r hr).1 (hall r ((hmem r).2 ⟨f, hf, hr⟩))
  · intro hall r hr
    obtain ⟨f, hf, hfr⟩ := (hmem r).1 hr
    exact (hone f hf r hfr).2 (hall f hf r hfr)

/-- What the statements of a new batch send can be stored when its events and its payloads can. -/
theorem batch_stored_iff (h : b.Accepted A) (hplain : PlainIds P b.toIngest)
    (hdigest : ∀ j, validHash (A.digest j) 64 = true) :
    (∀ v ∈ batchBounds P b.toIngest, v.stored D = true) ↔ b.Storable D P := by
  have herrors : (∀ v ∈ (if b.toIngest.errors.isEmpty then [] else errorBounds P b.toIngest),
      v.stored D = true) ↔ ∀ r ∈ b.toIngest.errors, RecordStorable D P b.appId r := by
    split
    · rename_i hnone
      rw [List.isEmpty_iff] at hnone
      simp [hnone]
    · exact hplain.errors_stored_iff
  have hevent : ∀ f ∈ b.frames, f.event.Storable D P b.appId ↔
      (∀ key, f.event.edge? = some key → nulFree key = true ∧ D.fits [b.appId, key] = true) ∧
        ∀ r, f.event.error? = some r → f.event.Storable D P b.appId := by
    intro f _
    generalize f.event = event
    cases event with
    | graphEdge from' label to' =>
      have hkey : nulFree (edgeKey from' label to') = true ↔
          nulFree from' = true ∧ nulFree label = true ∧ nulFree to' = true := nulFree_edgeKey
      simp [Event.Storable, Event.edge?, Event.error?, hkey]
    | finding signature message i path context => simp [Event.edge?, Event.error?]
    | action actor label => simp [Event.Storable, Event.edge?, Event.error?]
    | observation actor state route texts counts signals statuses shapes =>
      simp [Event.Storable, Event.edge?, Event.error?]
    | backend evidence => simp [Event.Storable, Event.edge?, Event.error?]
    | streamDefect reason => simp [Event.Storable, Event.edge?, Event.error?]
  rw [batchBounds, List.forall_mem_append, List.forall_mem_append, List.forall_mem_append,
    hplain.edges_stored_iff, herrors, graphs_stored_iff h hplain hdigest]
  have hedges := edges_storable_iff (D := D) (b := b)
  have hfindings := errors_storable_iff (D := D) h hplain
  constructor
  · rintro ⟨⟨⟨-, he⟩, hr⟩, hg⟩
    exact ⟨fun f hf => (hevent f hf).2 ⟨hedges.1 he f hf, hfindings.1 hr f hf⟩, hg⟩
  · rintro ⟨hall, hg⟩
    exact ⟨⟨⟨hplain.traffic_stored, hedges.2 fun f hf => ((hevent f hf).1 (hall f hf)).1⟩,
      hfindings.2 fun f hf => ((hevent f hf).1 (hall f hf)).2⟩, hg⟩

/-- The nodes that are there after those of a batch are kept once each. -/
theorem has_insertNodes {app : String} {nodes : List ReproitCloud.ArtifactNode}
    {t : Table (String × String) ReproitCloud.ArtifactNode} {key : String × String} :
    (nodes.foldl (fun ns n => ns.insertIgnore (app, n.id) n) t).has key = true ↔
      t.has key = true ∨ ∃ n ∈ nodes, key = (app, n.id) := by
  induction nodes generalizing t with
  | nil => simp
  | cons n nodes ih =>
    have hone : (t.insertIgnore (app, n.id) n).has key = true ↔
        t.has key = true ∨ key = (app, n.id) := by
      rw [Table.has, Table.has, Table.get?_insertIgnore]
      by_cases hkey : key = (app, n.id) <;> simp [hkey]
    rw [List.foldl_cons, ih, hone, or_assoc, List.exists_mem_cons_iff]

/-- The database takes an accepted batch: its edges are aggregated, and its graphs have their
roots. -/
theorem EventBatch.Accepted.admitted (h : b.Accepted A)
    (nodes : Table (String × String) ReproitCloud.ArtifactNode) : b.toIngest.Admitted nodes := by
  refine ⟨edges_nodup b, .inr fun g hg => has_insertNodes.2 (.inr ?_)⟩
  obtain ⟨graph, hgraph, rfl⟩ := List.mem_map.1 hg
  obtain ⟨-, -, -, -, hroot⟩ := EvidenceGraph.validate_ok (h.evidence graph hgraph)
  obtain ⟨n, hn, hid⟩ := List.mem_map.1 hroot
  refine ⟨n.stored, ?_, congrArg (b.appId, ·) hid.symm⟩
  exact List.mem_flatMap.2 ⟨graph.stored, hg, List.mem_map_of_mem hn⟩

/-- A batch without anything to write is storable. -/
theorem storable_of_isEmpty (h : b.Accepted A) (hplain : PlainIds P b.toIngest)
    (hdigest : ∀ j, validHash (A.digest j) 64 = true) (hempty : b.toIngest.isEmpty = true) :
    b.Storable D P := by
  simp only [IngestBatch.isEmpty, Bool.and_eq_true] at hempty
  obtain ⟨⟨hedges, herrors⟩, hevidence⟩ := hempty
  rw [List.isEmpty_iff] at hevidence
  refine (batch_stored_iff h hplain hdigest).1 ?_
  simp only [batchBounds, edgeBounds, graphBounds, hedges, herrors, hevidence]
  simpa using hplain.traffic_stored

end Batches

end Protocol

/-! ## Accepted and storable -/

/-- An accepted batch is stored, or found to be a duplicate, exactly when its id was consumed or
everything of it can be stored. -/
theorem accepted_storable_iff (D : IndexPages) (P : Platform) (A : Artifacts)
    (hbuckets : ∀ r, Plain (P.bucketId r)) (hdigest : ∀ j, validHash (A.digest j) 64 = true)
    (b : EventBatch) (hvalid : b.validate A = .ok ()) (t : TenantStore) (now : Micros) :
    (∃ answer, storeBatch D P t now b.toIngest = .ok answer ∧
      ingestBatch P t now b.toIngest = .ok answer) ↔
      t.processedBatches.has (b.appId, b.batchId) = true ∨ b.Storable D P := by
  have haccepted := EventBatch.validate_ok hvalid
  have hplain := haccepted.plainIds hbuckets
  cases hempty : b.toIngest.isEmpty with
  | true =>
    refine iff_of_true ⟨(false, t), ?_, ?_⟩
      (.inr (storable_of_isEmpty haccepted hplain hdigest hempty))
    · rw [storeBatch, if_pos hempty]
    · rw [ingestBatch_eq, if_pos hempty]
  | false =>
    have hstored := batch_stored_iff (D := D) haccepted hplain hdigest
    have hdone : ∃ answer, ingestBatch P t now b.toIngest = .ok answer := by
      rw [ingestBatch_eq, hempty, if_neg Bool.false_ne_true]
      split
      · exact ⟨_, rfl⟩
      · obtain ⟨u, hu⟩ := (exists_applyBatch_iff P (consumeBatch now b.toIngest t) now
          b.toIngest).2 (haccepted.admitted _)
        rw [hu]
        exact ⟨_, rfl⟩
    constructor
    · rintro ⟨answer, hanswer, -⟩
      exact ((storeBatch_ok_iff hempty).1 hanswer).1.2.imp_right hstored.1
    · intro hcan
      obtain ⟨answer, hanswer⟩ := hdone
      exact ⟨answer, (storeBatch_ok_iff hempty).2
        ⟨⟨hplain.consume_stored, hcan.imp_right hstored.2⟩, hanswer⟩, hanswer⟩

/-- An index that takes the entries up to a length and no other. -/
def uncompressed : IndexPages where
  fits entry := entryBytes entry ≤ 2700
  short := by
    intro entry h
    exact decide_eq_true (h.trans (by decide))

/-- Artifacts of which every hash is the same, for fixed inputs. -/
def oneHash : Artifacts where
  toRenderings := oneBucket.toRenderings
  digest _ := String.ofList (List.replicate 64 '0')
  causalGraph _ := true
  environmentProof _ := true

/-- A batch of one edge. -/
def oneEdge (from' label to' : String) : EventBatch where
  batchId := "batch-1"
  appId := "shop"
  frames := [{ runId := "run-1", sequence := 1, event := .graphEdge from' label to' }]

theorem oneBucket_plain (r : ErrorRec) : Plain (oneBucket.bucketId r) := by
  have hbucket : Plain "bkt_dd250179f692" := ⟨rfl, by decide⟩
  exact hbucket

theorem oneHash_digest (j : Json) : validHash (oneHash.digest j) 64 = true := by
  show validHash (String.ofList (List.replicate 64 '0')) 64 = true
  decide

theorem accepted_storable_iff_tap :
    (oneEdge "home" "tap" "cart").validate oneHash = .ok () ∧
      ∃ answer, storeBatch uncompressed oneBucket .empty 0 (oneEdge "home" "tap" "cart").toIngest =
        .ok answer ∧ ingestBatch oneBucket .empty 0 (oneEdge "home" "tap" "cart").toIngest =
        .ok answer := by
  have hvalid : (oneEdge "home" "tap" "cart").validate oneHash = .ok () := by decide
  refine ⟨hvalid, (accepted_storable_iff uncompressed oneBucket oneHash oneBucket_plain
    oneHash_digest _ hvalid .empty 0).2 (.inr ⟨?_, by simp [oneEdge]⟩)⟩
  intro f hf
  rw [oneEdge, List.mem_singleton] at hf
  subst hf
  exact ⟨⟨rfl, rfl, rfl⟩, by decide⟩

/-- A batch with U+0000 in the name of a state is accepted, and refused by the database however
often it is sent. -/
theorem nul_edge_is_never_stored :
    (oneEdge "home" "tap" "\x00").validate oneHash = .ok () ∧
      ∀ D t now answer, t.processedBatches.has ("shop", "batch-1") = false →
        storeBatch D oneBucket t now (oneEdge "home" "tap" "\x00").toIngest ≠ .ok answer := by
  have hvalid : (oneEdge "home" "tap" "\x00").validate oneHash = .ok () := by decide
  refine ⟨hvalid, fun D t now answer hfresh hanswer => ?_⟩
  have haccepted := EventBatch.validate_ok hvalid
  have hsent := ((storeBatch_ok_iff rfl).1 hanswer).1.2
  have hstored := hsent.resolve_left (Bool.eq_false_iff.1 hfresh)
  have hstorable := (batch_stored_iff haccepted (haccepted.plainIds oneBucket_plain)
    oneHash_digest).1 hstored
  have hedge := hstorable.events _ (List.mem_singleton.2 rfl)
  exact absurd hedge.1.2.2 (by decide)

end ReproitCloud
