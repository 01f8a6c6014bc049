import ReproitCloud.Protocol.Evidence
import ReproitCloud.Lib.CountView
import ReproitCloud.Telemetry.Ingest

/-!
# Event batches

An SDK sends a batch of frames, each with one event, and evidence graphs beside them.
`EventBatch.validate` is what the protocol checks of a batch.  `aggregateEvents` is what the
service makes of the frames: an edge of the usage graph becomes a text with a count, and a
finding becomes an error.  The other events leave nothing behind.
-/

namespace ReproitCloud

open Lib

namespace Protocol

/-! ## Events -/

/-- `DeploymentIdentity`. -/
structure DeploymentIdentity where
  version : Option String := none
  commit : Option String := none
deriving DecidableEq, Repr

/-- `key`: the commit, or the version. -/
def DeploymentIdentity.key (d : DeploymentIdentity) : Option String := d.commit.or d.version

/-- `EvidenceScope`. -/
inductive EvidenceScope where
  | shared
  | backend
  | contract (contractHash : Option String)
deriving DecidableEq, Repr

/-- `FindingIdentity`. -/
structure FindingIdentity where
  oracle : String
  invariant : String
  kind : String
  message : String
  frame : String
  trigger : String
  boundary : Option String := none
deriving DecidableEq, Repr

/-- `PathStep`. -/
structure PathStep where
  signature : String
  action : String
  label : Option String := none
deriving DecidableEq, Repr

/-- `Event`. -/
inductive Event where
  | action (actor : Option String) (label : String)
  | observation (actor state route : Option String) (visibleText : List String)
      (counts : Table String UInt64) (oracleSignals : List String) (networkStatuses : List UInt16)
      (responseShapes : List String)
  | backend (evidence : Json)
  | graphEdge (from' label to' : String)
  | finding (signature message : String) (identity : FindingIdentity) (path : List PathStep)
      (context : Context)
  | streamDefect (reason : ReasonCode)

/-- `EventFrame`. -/
structure EventFrame where
  runId : String
  sequence : UInt64
  scope : EvidenceScope := .shared
  event : Event

/-- `EventBatch`. -/
structure EventBatch where
  version : Nat := protocolVersion
  batchId : String
  appId : String
  deployment : Option DeploymentIdentity := none
  frames : List EventFrame := []
  evidence : List EvidenceGraph := []

/-! ## Their values

`serde_json::to_value`, with the members of an object that comes from a map in the order of
their names. -/

def optionValue : Option String → Json
  | none => .null
  | some s => .string s

def stringsValue (values : List String) : Json := .array (values.map .string)

def FindingIdentity.toValue (i : FindingIdentity) : Json :=
  .object [("boundary", optionValue i.boundary), ("frame", .string i.frame),
    ("invariant", .string i.invariant), ("kind", .string i.kind), ("message", .string i.message),
    ("oracle", .string i.oracle), ("trigger", .string i.trigger)]

def PathStep.toValue (s : PathStep) : Json :=
  .object [("signature", .string s.signature), ("action", .string s.action),
    ("label", optionValue s.label)]

def Event.toValue : Event → Json
  | action actor label =>
    .object [("kind", .string "action"), ("actor", optionValue actor), ("action", .string label)]
  | observation actor state route visibleText counts oracleSignals networkStatuses responseShapes =>
    .object [("kind", .string "observation"), ("actor", optionValue actor),
      ("state", optionValue state), ("route", optionValue route),
      ("visible_text", stringsValue visibleText),
      ("counts", .object (counts.rows.map fun r => (r.1, .number (.int r.2.toNat)))),
      ("oracle_signals", stringsValue oracleSignals),
      ("network_statuses", .array (networkStatuses.map fun n => .number (.int n.toNat))),
      ("response_shapes", stringsValue responseShapes)]
  | backend evidence => .object [("kind", .string "backend"), ("evidence", evidence)]
  | graphEdge from' label to' =>
    .object [("kind", .string "graph-edge"), ("from", .string from'), ("action", .string label),
      ("to", .string to')]
  | finding signature message identity path context =>
    .object [("kind", .string "finding"), ("signature", .string signature),
      ("message", .string message), ("identity", identity.toValue),
      ("path", .array (path.map PathStep.toValue)), ("context", .object context.rows)]
  | streamDefect reason =>
    .object [("kind", .string "stream-defect"), ("reason", .string reason.asStr)]

/-! ## Validation -/

def DeploymentIdentity.validate (d : DeploymentIdentity) : Check := do
  require (d.version.isSome || d.commit.isSome) .invalidEvent
  optional validateToken d.version
  optional validateToken d.commit

def EvidenceScope.validate : EvidenceScope → Check
  | contract (some contractHash) => require (validHash contractHash 16) .invalidScope
  | _ => .ok ()

def FindingIdentity.validate (i : FindingIdentity) : Check := do
  validateLowerToken i.oracle
  each (validateText maxTextBytes) [i.invariant, i.kind, i.message, i.frame, i.trigger]
  optional (validateText maxTextBytes) i.boundary

def PathStep.validate (s : PathStep) : Check := do
  validateText maxTextBytes s.signature
  validateText maxTextBytes s.action
  optional (validateText maxTextBytes) s.label

def Event.validate (R : Renderings) : Event → Check
  | action actor label => do
    optional validateToken actor
    validateText maxTextBytes label
  | observation actor state route visibleText counts oracleSignals _ responseShapes => do
    optional validateToken actor
    optional (validateText maxTextBytes) state
    optional (validateText maxTextBytes) route
    validateStrings visibleText 1024 maxTextBytes
    validateStrings oracleSignals 256 maxTokenBytes
    validateStrings responseShapes 256 maxTextBytes
    require (counts.rows.length ≤ 4096) .invalidEvent
    each (validateText maxTokenBytes) (counts.rows.map Prod.fst)
  | backend evidence => validateValue R maxContextBytes evidence
  | graphEdge from' label to' => do
    validateText maxTextBytes from'
    validateText maxTextBytes label
    validateText maxTextBytes to'
  | finding signature message identity path context => do
    validateText maxTextBytes signature
    validateText maxTextBytes message
    identity.validate
    require (path.length ≤ 256) .invalidEvent
    each PathStep.validate path
    validateValue R maxContextBytes (.object context.rows)
  | streamDefect _ => .ok ()

def EventFrame.validate (R : Renderings) (f : EventFrame) : Check := do
  validateToken f.runId
  f.scope.validate
  f.event.validate R
  require (encodedBytes R f.event.toValue ≤ maxFrameBytes) .frameTooLarge

/-- The loop over the frames, after the one of a sequence number. -/
def validateFrames (R : Renderings) : Option UInt64 → List EventFrame → Check
  | _, [] => .ok ()
  | last, f :: rest => do
    f.validate R
    require (!last.any fun l => f.sequence ≤ l) .invalidSequence
    validateFrames R (some f.sequence) rest

def validateDeployment : Option DeploymentIdentity → Check
  | some deployment => deployment.validate
  | none => .ok ()

/-- `EventBatch::validate`. -/
def EventBatch.validate (A : Artifacts) (b : EventBatch) : Check := do
  require (b.version = protocolVersion) .unsupportedVersion
  validateToken b.batchId
  validateToken b.appId
  validateDeployment b.deployment
  require (b.frames.length ≤ maxBatchFrames) .batchTooLarge
  require (b.evidence.length ≤ maxBatchGraphs) .batchTooLarge
  require (!(b.frames.isEmpty && b.evidence.isEmpty)) .invalidEvent
  validateFrames A.toRenderings none b.frames
  each (EvidenceGraph.validate A) b.evidence

/-- What the check of a batch says of its parts. -/
structure EventBatch.Accepted (A : Artifacts) (b : EventBatch) : Prop where
  batchId : validateToken b.batchId = .ok ()
  appId : validateToken b.appId = .ok ()
  deployment : ∀ d, b.deployment = some d → d.validate = .ok ()
  frames : ∀ f ∈ b.frames, f.validate A.toRenderings = .ok ()
  evidence : ∀ g ∈ b.evidence, g.validate A = .ok ()

section Validated

variable {A : Artifacts} {b : EventBatch}

theorem validateFrames_ok {R : Renderings} {last : Option UInt64} {frames : List EventFrame}
    (h : validateFrames R last frames = .ok ()) : ∀ f ∈ frames, f.validate R = .ok () := by
  induction frames generalizing last with
  | nil => simp
  | cons f frames ih =>
    obtain ⟨hframe, h⟩ := both_ok_iff.1 h
    obtain ⟨-, hrest⟩ := both_ok_iff.1 h
    exact List.forall_mem_cons.2 ⟨hframe, ih hrest⟩

theorem EventBatch.validate_ok (h : b.validate A = .ok ()) : b.Accepted A := by
  simp only [EventBatch.validate] at h
  obtain ⟨-, h⟩ := both_ok_iff.1 h
  obtain ⟨hbatch, h⟩ := both_ok_iff.1 h
  obtain ⟨happ, h⟩ := both_ok_iff.1 h
  obtain ⟨hdeployment, h⟩ := both_ok_iff.1 h
  obtain ⟨-, h⟩ := both_ok_iff.1 h
  obtain ⟨-, h⟩ := both_ok_iff.1 h
  obtain ⟨-, h⟩ := both_ok_iff.1 h
  obtain ⟨hframes, hevidence⟩ := both_ok_iff.1 h
  refine ⟨hbatch, happ, fun d hd => ?_, validateFrames_ok hframes, all_ok_iff.1 hevidence⟩
  rwa [hd] at hdeployment

end Validated

/-! ## Aggregation -/

/-- The key under which an edge is stored. -/
def edgeKey (from' action to' : String) : String :=
  String.ofList (from'.toList ++ '|' :: action.toList ++ '|' :: to'.toList)

/-- The edges of the frames, one for each event. -/
def Event.edge? : Event → Option String
  | graphEdge from' label to' => some (edgeKey from' label to')
  | _ => none

/-- The error that a finding becomes. -/
def Event.error? : Event → Option ErrorRec
  | finding signature message identity path context =>
    let context := context.upsert "findingIdentity" identity.toValue fun _ => identity.toValue
    some {
      sig := signature
      message
      path := path.map fun s => ⟨s.signature, s.action, s.label⟩
      context := context.upsert "oracle" (.string identity.oracle) fun _ => .string identity.oracle }
  | _ => none

/-- `BatchAgg`. -/
structure BatchAgg where
  edgeCounts : Table String Int
  errorRecs : List ErrorRec

/-- `aggregate_events`. -/
def aggregateEvents (frames : List EventFrame) : BatchAgg where
  edgeCounts := (frames.filterMap fun f => f.event.edge?).foldl
    (fun counts key => counts.upsert key 1 (· + 1)) .empty
  errorRecs := frames.filterMap fun f => f.event.error?

/-- A node as it is stored. -/
def ArtifactNode.stored (n : ArtifactNode) : ReproitCloud.ArtifactNode :=
  ⟨n.id, n.kind.asStr, n.parents, n.payload⟩

def EvidenceGraph.stored (g : EvidenceGraph) : ReproitCloud.EvidenceGraph :=
  ⟨g.runId, g.root, g.nodes.map ArtifactNode.stored⟩

/-- What `post_events` hands to `ingest_batch`. -/
def EventBatch.toIngest (b : EventBatch) : IngestBatch where
  appId := b.appId
  edges := (aggregateEvents b.frames).edgeCounts.rows
  errors := (aggregateEvents b.frames).errorRecs
  evidence := b.evidence.map EvidenceGraph.stored
  batchId := b.batchId
  deployment := b.deployment.bind DeploymentIdentity.key

/-! ## What is aggregated -/

section Aggregates

variable {frames : List EventFrame}

/-- Adding one for each key of a list counts the list. -/
theorem counts_foldl {keys : List String} {t : Table String Int} {m : Multiset String}
    (h : Counts t m) :
    Counts (keys.foldl (fun counts key => counts.upsert key 1 (· + 1)) t) (m + ↑keys) := by
  induction keys generalizing t m with
  | nil => simpa using h
  | cons key keys ih =>
    have hone : Counts (t.upsert key 1 (· + 1)) (m + Multiset.replicate 1 key) :=
      h.bump key one_ne_zero
    have hrest := ih hone
    rwa [Multiset.replicate_one, Multiset.add_assoc, Multiset.singleton_add,
      Multiset.cons_coe] at hrest

/-- An edge has as many as there are events of it. -/
theorem counts_edges (frames : List EventFrame) :
    Counts (aggregateEvents frames).edgeCounts ↑(frames.filterMap fun f => f.event.edge?) := by
  have hfold : Counts (aggregateEvents frames).edgeCounts
      (0 + ↑(frames.filterMap fun f => f.event.edge?)) := counts_foldl counts_empty
  rwa [zero_add] at hfold

/-- A batch has edges when a frame has one. -/
theorem edges_eq_nil_iff :
    (aggregateEvents frames).edgeCounts.rows = [] ↔ ∀ f ∈ frames, f.event.edge? = none := by
  have hrow (key : String) := (counts_edges frames).exists_row_iff (k := key)
  rw [← List.filterMap_eq_nil_iff]
  constructor
  · intro hrows
    refine List.eq_nil_iff_forall_not_mem.2 fun key hkey => ?_
    obtain ⟨n, hn⟩ := (hrow key).2 (Multiset.mem_coe.2 hkey)
    rw [hrows] at hn
    cases hn
  · intro hkeys
    refine List.eq_nil_iff_forall_not_mem.2 fun r hr => ?_
    have hmem := (hrow r.1).1 ⟨r.2, hr⟩
    rw [hkeys] at hmem
    exact Multiset.notMem_zero _ hmem

/-- It has errors when a frame has a finding. -/
theorem errors_eq_nil_iff :
    (aggregateEvents frames).errorRecs = [] ↔ ∀ f ∈ frames, f.event.error? = none :=
  List.filterMap_eq_nil_iff

/-- The edges of a batch name each key once. -/
theorem edges_nodup (b : EventBatch) : (b.toIngest.edges.map Prod.fst).Nodup :=
  (aggregateEvents b.frames).edgeCounts.keys_nodup

end Aggregates

end Protocol

end ReproitCloud
