import ReproitCloud.Protocol.Checks

/-!
# Evidence graphs and proof ledgers

Evidence is a graph of nodes.  The id of a node is the hash of its kind, its parents and its
payload, and a parent comes before its children, so a graph that is accepted has no cycle and
no parent outside it.

The payload of a node may be a `ProofLedger`, which says how far a finding has got.  Its
promotion follows from its other fields (`derivePromotion`), and a ledger is accepted only
with the promotion and the blockers that follow.
-/

namespace ReproitCloud

open Lib

namespace Protocol

/-! ## The stages of a proof -/

inductive EvaluationStatus where
  | satisfied
  | violation
  | abstain
deriving DecidableEq, Repr

inductive AuthoritySource where
  | authoredContract
  | runtimeDiagnosis
  | approvedBaseline
  | publishedStandard
deriving DecidableEq, Repr

inductive ConfirmationStatus where
  | notAttempted
  | reproduced
  | notReproduced
  | flaky
  | stale
  | couldNotReplay
deriving DecidableEq, Repr

inductive MinimizationStatus where
  | notAttempted
  | preserved
  | couldNotConfirm
deriving DecidableEq, Repr

inductive PromotionStatus where
  | candidate
  | confirmed
deriving DecidableEq, Repr

inductive PromotionBlocker where
  | missingAuthority
  | noViolation
  | evaluationAbstained
  | replayNotReproduced
  | replayIdentityMismatch
  | minimizationNotPreserved
deriving DecidableEq, Repr

/-! ## Their names

The variants of an enumeration with the names that `rename_all = "kebab-case"` gives them, in
the order of their declaration. -/

def EvaluationStatus.names : List (String × EvaluationStatus) :=
  [("satisfied", satisfied), ("violation", violation), ("abstain", abstain)]

def AuthoritySource.names : List (String × AuthoritySource) :=
  [("authored-contract", authoredContract), ("runtime-diagnosis", runtimeDiagnosis),
    ("approved-baseline", approvedBaseline), ("published-standard", publishedStandard)]

def ConfirmationStatus.names : List (String × ConfirmationStatus) :=
  [("not-attempted", notAttempted), ("reproduced", reproduced), ("not-reproduced", notReproduced),
    ("flaky", flaky), ("stale", stale), ("could-not-replay", couldNotReplay)]

def MinimizationStatus.names : List (String × MinimizationStatus) :=
  [("not-attempted", notAttempted), ("preserved", preserved),
    ("could-not-confirm", couldNotConfirm)]

def PromotionStatus.names : List (String × PromotionStatus) :=
  [("candidate", candidate), ("confirmed", confirmed)]

def PromotionBlocker.names : List (String × PromotionBlocker) :=
  [("missing-authority", missingAuthority), ("no-violation", noViolation),
    ("evaluation-abstained", evaluationAbstained), ("replay-not-reproduced", replayNotReproduced),
    ("replay-identity-mismatch", replayIdentityMismatch),
    ("minimization-not-preserved", minimizationNotPreserved)]

def ReasonCode.names : List (String × ReasonCode) := ReasonCode.all.map fun r => (r.asStr, r)

/-! ## Reading a value

`serde_json::from_value`, as `derive(Deserialize)` has it. -/

/-- The name of a variant without fields: a string, or an object with `null` under the name. -/
def variantName : Json → Option String
  | .string name => some name
  | .object [(name, .null)] => some name
  | _ => none

/-- A variant of an enumeration. -/
def ofNames {α : Type} (names : List (String × α)) (value : Json) : Option α :=
  (variantName value).bind fun name => names.lookup name

/-- A vector. -/
def listOf {α : Type} (item : Json → Option α) : Json → Option (List α)
  | .array items => items.mapM item
  | _ => none

def asBool : Json → Option Bool
  | .bool b => some b
  | _ => none

/-- The fields of a structure with `deny_unknown_fields`: an object that has them and no
other, or an array with one item for each. -/
def structFields (names : List String) : Json → Option (List Json)
  | .object members =>
    if (members.map Prod.fst).Perm names then names.mapM fun name => members.lookup name
    else none
  | .array items => if items.length = names.length then some items else none
  | _ => none

/-! ## Ledgers -/

/-- `ProofLedger`. -/
structure ProofLedger where
  findingIdentities : List String
  authority : List AuthoritySource
  evaluation : EvaluationStatus
  evaluationReasons : List ReasonCode
  confirmation : ConfirmationStatus
  replayIdentityMatched : Bool
  minimization : MinimizationStatus
  promotion : PromotionStatus
  blockers : List PromotionBlocker
deriving DecidableEq, Repr

def ProofLedger.fieldNames : List String :=
  ["findingIdentities", "authority", "evaluation", "evaluationReasons", "confirmation",
    "replayIdentityMatched", "minimization", "promotion", "blockers"]

/-- A ledger from a payload. -/
def ProofLedger.fromValue (value : Json) : Option ProofLedger := do
  match ← structFields fieldNames value with
  | [identities, authority, evaluation, reasons, confirmation, matched, minimization, promotion,
      blockers] =>
    return {
      findingIdentities := ← listOf Json.asStr identities
      authority := ← listOf (ofNames AuthoritySource.names) authority
      evaluation := ← ofNames EvaluationStatus.names evaluation
      evaluationReasons := ← listOf (ofNames ReasonCode.names) reasons
      confirmation := ← ofNames ConfirmationStatus.names confirmation
      replayIdentityMatched := ← asBool matched
      minimization := ← ofNames MinimizationStatus.names minimization
      promotion := ← ofNames PromotionStatus.names promotion
      blockers := ← listOf (ofNames PromotionBlocker.names) blockers }
  | _ => none

/-- `derive_promotion`.  The set of the blockers is in the order of their declaration. -/
def ProofLedger.derivePromotion (authority : List AuthoritySource) (evaluation : EvaluationStatus)
    (confirmation : ConfirmationStatus) (replayIdentityMatched : Bool)
    (minimization : MinimizationStatus) : PromotionStatus × List PromotionBlocker :=
  let blockers :=
    (if authority.isEmpty then [.missingAuthority] else []) ++
    (match evaluation with
      | .violation => []
      | .satisfied => [PromotionBlocker.noViolation]
      | .abstain => [.evaluationAbstained]) ++
    (if confirmation = .reproduced then [] else [.replayNotReproduced]) ++
    (if replayIdentityMatched then [] else [.replayIdentityMismatch]) ++
    (if minimization = .preserved then [] else [.minimizationNotPreserved])
  (if blockers.isEmpty then .confirmed else .candidate, blockers)

/-- `is_strictly_sorted`, for values that are compared by a rank. -/
def isStrictlySorted {α : Type} (less : α → α → Bool) : List α → Bool
  | a :: b :: rest => less a b && isStrictlySorted less (b :: rest)
  | _ => true

/-- The order of an enumeration is that of its declaration. -/
def declaredBefore {α : Type} [DecidableEq α] (names : List (String × α)) (a b : α) : Bool :=
  (names.map Prod.snd).idxOf a < (names.map Prod.snd).idxOf b

/-- `ProofLedger::validate`. -/
def ProofLedger.validate (l : ProofLedger) : Check := do
  require (!l.findingIdentities.isEmpty && l.findingIdentities.length ≤ 256) .invalidArtifact
  each (validateText maxTextBytes) l.findingIdentities
  require (l.authority.length ≤ 8 && l.evaluationReasons.length ≤ 256) .invalidArtifact
  require (!(l.evaluation = .abstain && l.evaluationReasons.isEmpty)) .invalidArtifact
  require (isStrictlySorted (fun a b => a < b) l.findingIdentities &&
      isStrictlySorted (declaredBefore AuthoritySource.names) l.authority &&
      isStrictlySorted (declaredBefore ReasonCode.names) l.evaluationReasons)
    .invalidArtifact
  require ((l.promotion, l.blockers) =
      derivePromotion l.authority l.evaluation l.confirmation l.replayIdentityMatched l.minimization)
    .invalidArtifact

/-! ## Graphs -/

inductive ArtifactKind where
  | rawCapture
  | normalizedTrace
  | evaluation
  | replay
  | minimizedTrace
  | causalGraph
  | environmentEnvelope
  | proofLedger
deriving DecidableEq, Repr

def ArtifactKind.asStr : ArtifactKind → String
  | rawCapture => "raw-capture"
  | normalizedTrace => "normalized-trace"
  | evaluation => "evaluation"
  | replay => "replay"
  | minimizedTrace => "minimized-trace"
  | causalGraph => "causal-graph"
  | environmentEnvelope => "environment-envelope"
  | proofLedger => "proof-ledger"

/-- `ArtifactNode`. -/
structure ArtifactNode where
  id : String
  kind : ArtifactKind
  parents : List String
  payload : Json

/-- `EvidenceGraph`. -/
structure EvidenceGraph where
  runId : String
  root : String
  nodes : List ArtifactNode

/-- What the checks of a graph take from outside the modelled code. -/
structure Artifacts extends Renderings where
  /-- The hexadecimal SHA-256 of the text of a value. -/
  digest : Json → String
  /-- Whether a payload is a `CausalGraph` or an `EnvironmentProof` that is accepted. -/
  causalGraph : Json → Bool
  environmentProof : Json → Bool

/-- What the id of a node is the hash of. -/
def artifactMaterial (kind : ArtifactKind) (parents : List String) (payload : Json) : Json :=
  .array [.string kind.asStr, .array (parents.map .string), payload]

/-- A parent id: `sha256:` and a hash. -/
def validParent (parent : String) : Bool :=
  "sha256:".toList.isPrefixOf parent.toList &&
    validHash (String.ofList (parent.toList.drop 7)) 64

/-- `artifact_id`. -/
def artifactId (A : Artifacts) (kind : ArtifactKind) (parents : List String) (payload : Json) :
    Except ReasonCode String := do
  validateValue A.toRenderings maxFrameBytes payload
  each (fun parent => require (validParent parent) .invalidArtifact) parents
  return String.ofList ("sha256:".toList ++ (A.digest (artifactMaterial kind parents payload)).toList)

/-- The check of a payload, by the kind of its node. -/
def validatePayload (A : Artifacts) (kind : ArtifactKind) (payload : Json) : Check :=
  match kind with
  | .causalGraph => require (A.causalGraph payload) .invalidArtifact
  | .environmentEnvelope => require (A.environmentProof payload) .invalidArtifact
  | .proofLedger =>
    match ProofLedger.fromValue payload with
    | some ledger => ledger.validate
    | none => .error .invalidArtifact
  | _ => .ok ()

/-- `ArtifactNode::validate`. -/
def ArtifactNode.validate (A : Artifacts) (n : ArtifactNode) : Check := do
  let id ← artifactId A n.kind n.parents n.payload
  require (n.id = id) .invalidArtifact
  validatePayload A n.kind n.payload

/-- The loop of `EvidenceGraph::validate`, after the nodes of `prior`. -/
def validateNodes (A : Artifacts) : List String → List ArtifactNode → Check
  | _, [] => .ok ()
  | prior, n :: rest => do
    n.validate A
    require (n.parents.all prior.contains) .invalidArtifact
    require (!prior.contains n.id) .invalidArtifact
    validateNodes A (n.id :: prior) rest

/-- `EvidenceGraph::validate`. -/
def EvidenceGraph.validate (A : Artifacts) (g : EvidenceGraph) : Check := do
  validateToken g.runId
  require (!g.nodes.isEmpty && g.nodes.length ≤ maxArtifactNodes) .invalidArtifact
  validateNodes A [] g.nodes
  require ((g.nodes.map ArtifactNode.id).contains g.root) .invalidArtifact

/-! ## What an accepted graph is -/

section Accepted

variable {A : Artifacts} {n : ArtifactNode} {nodes : List ArtifactNode} {prior : List String}

theorem artifactId_ok {kind : ArtifactKind} {parents : List String} {payload : Json} {id : String}
    (h : artifactId A kind parents payload = .ok id) :
    validateValue A.toRenderings maxFrameBytes payload = .ok () ∧
      (∀ parent ∈ parents, validParent parent = true) ∧
      id = String.ofList ("sha256:".toList ++ (A.digest (artifactMaterial kind parents payload)).toList) := by
  simp only [artifactId, bind, Except.bind] at h
  split at h
  · cases h
  rename_i hpayload
  split at h
  · cases h
  rename_i hparents
  cases h
  exact ⟨hpayload, fun parent hparent => require_ok_iff.1 (all_ok_iff.1 hparents parent hparent), rfl⟩

/-- The id of an accepted node is the hash of the rest. -/
theorem ArtifactNode.validate_ok (h : n.validate A = .ok ()) :
    artifactId A n.kind n.parents n.payload = .ok n.id ∧
      validatePayload A n.kind n.payload = .ok () := by
  simp only [ArtifactNode.validate] at h
  cases hid : artifactId A n.kind n.parents n.payload with
  | error reason =>
    rw [hid] at h
    cases h
  | ok id =>
    rw [hid] at h
    obtain ⟨heq, hpayload⟩ := both_ok_iff.1 h
    have heq : n.id = id := by simpa using heq
    exact ⟨by rw [heq], hpayload⟩

/-- The nodes that are accepted after some others: every one is, their parents are among them
or the others, and no id occurs twice. -/
theorem validateNodes_ok (h : validateNodes A prior nodes = .ok ()) :
    (∀ n ∈ nodes, n.validate A = .ok () ∧
      ∀ parent ∈ n.parents, parent ∈ prior ∨ parent ∈ nodes.map ArtifactNode.id) ∧
      (nodes.map ArtifactNode.id).Nodup ∧ ∀ n ∈ nodes, n.id ∉ prior := by
  induction nodes generalizing prior with
  | nil => simp
  | cons m nodes ih =>
    simp only [validateNodes] at h
    obtain ⟨hnode, h⟩ := both_ok_iff.1 h
    obtain ⟨hparents, h⟩ := both_ok_iff.1 h
    obtain ⟨hfresh, h⟩ := both_ok_iff.1 h
    have hparents : ∀ parent ∈ m.parents, parent ∈ prior := by simpa using hparents
    have hfresh : m.id ∉ prior := by simpa using hfresh
    obtain ⟨hrest, hnodup, hnew⟩ := ih h
    refine ⟨?_, ?_, ?_⟩
    · rintro n (_ | ⟨_, hn⟩)
      · exact ⟨hnode, fun parent hparent => .inl (hparents parent hparent)⟩
      · obtain ⟨hvalid, hin⟩ := hrest n hn
        refine ⟨hvalid, fun parent hparent => ?_⟩
        rcases hin parent hparent with hprior | hlater
        · rcases List.mem_cons.1 hprior with rfl | hprior
          · exact .inr List.mem_cons_self
          · exact .inl hprior
        · exact .inr (List.mem_cons_of_mem _ hlater)
    · rw [List.map_cons, List.nodup_cons]
      refine ⟨fun hmem => ?_, hnodup⟩
      obtain ⟨n, hn, hid⟩ := List.mem_map.1 hmem
      exact hnew n hn (hid ▸ List.mem_cons_self)
    · rintro n (_ | ⟨_, hn⟩)
      · exact hfresh
      · exact fun hmem => hnew n hn (List.mem_cons_of_mem _ hmem)

/-- An accepted graph is closed, and its root is one of its nodes. -/
theorem EvidenceGraph.validate_ok {g : EvidenceGraph} (h : g.validate A = .ok ()) :
    validateToken g.runId = .ok () ∧ g.nodes ≠ [] ∧
      (∀ n ∈ g.nodes, n.validate A = .ok () ∧
        ∀ parent ∈ n.parents, parent ∈ g.nodes.map ArtifactNode.id) ∧
      (g.nodes.map ArtifactNode.id).Nodup ∧ g.root ∈ g.nodes.map ArtifactNode.id := by
  simp only [EvidenceGraph.validate] at h
  obtain ⟨hrun, h⟩ := both_ok_iff.1 h
  obtain ⟨hsize, h⟩ := both_ok_iff.1 h
  obtain ⟨hnodes, hroot⟩ := both_ok_iff.1 h
  obtain ⟨hclosed, hnodup, -⟩ := validateNodes_ok hnodes
  refine ⟨hrun, ?_, fun n hn => ⟨(hclosed n hn).1, fun parent hparent => ?_⟩, hnodup, ?_⟩
  · rintro hempty
    simp [hempty] at hsize
  · exact ((hclosed n hn).2 parent hparent).resolve_left List.not_mem_nil
  · simpa using hroot

end Accepted

/-! ## What a ledger says -/

/-- The conditions that fail, as blockers. -/
theorem mem_derivePromotion {authority : List AuthoritySource} {evaluation : EvaluationStatus}
    {confirmation : ConfirmationStatus} {matched : Bool} {minimization : MinimizationStatus}
    (blocker : PromotionBlocker) :
    blocker ∈ (ProofLedger.derivePromotion authority evaluation confirmation matched
        minimization).2 ↔
      match blocker with
      | .missingAuthority => authority = []
      | .noViolation => evaluation = .satisfied
      | .evaluationAbstained => evaluation = .abstain
      | .replayNotReproduced => confirmation ≠ .reproduced
      | .replayIdentityMismatch => matched = false
      | .minimizationNotPreserved => minimization ≠ .preserved := by
  cases blocker <;> cases authority <;> cases evaluation <;> cases matched <;>
    simp [ProofLedger.derivePromotion]

/-- A finding is confirmed when no stage is missing. -/
theorem derivePromotion_confirmed_iff {authority : List AuthoritySource}
    {evaluation : EvaluationStatus} {confirmation : ConfirmationStatus} {matched : Bool}
    {minimization : MinimizationStatus} :
    (ProofLedger.derivePromotion authority evaluation confirmation matched minimization).1 =
        .confirmed ↔
      authority ≠ [] ∧ evaluation = .violation ∧ confirmation = .reproduced ∧ matched = true ∧
        minimization = .preserved := by
  cases authority <;> cases evaluation <;> cases matched <;> simp [ProofLedger.derivePromotion]

/-- An accepted ledger has the promotion and the blockers that follow from its stages. -/
theorem ProofLedger.validate_ok {l : ProofLedger} (h : l.validate = .ok ()) :
    (l.promotion, l.blockers) = derivePromotion l.authority l.evaluation l.confirmation
      l.replayIdentityMatched l.minimization := by
  simp only [ProofLedger.validate, both_ok_iff, require_ok_iff, decide_eq_true_eq] at h
  exact h.2.2.2.2.2

end Protocol

end ReproitCloud
