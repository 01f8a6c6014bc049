import ReproitCloud.Protocol.Causal

/-!
# Environment proofs

A finding may carry a proof of which parts of its environment matter.  `captured` is the
environment it was seen in.  A trial replays the finding with one dimension changed, and a
dimension is relaxed when the finding is still there.

`EnvironmentEnvelope.validate` walks over the trials and sums their attempts in 32 bits, then
compares the sum with what the envelope says, which has 16 bits.  The limit on the trials comes
first, so the sum never wraps (`attemptsOf_lt`), and what is accepted can be said with whole
numbers (`EnvironmentProof.Sound`, `environment_proof_sound`).
-/

namespace ReproitCloud

open Lib

namespace Protocol

/-! ## Proofs -/

/-- `ENVIRONMENT_ENVELOPE_VERSION`. -/
def environmentEnvelopeVersion : UInt16 := 1

def maxEnvironmentTrials : Nat := 4096

def maxEnvironmentTextBytes : Nat := 16 * 1024

/-- `EnvironmentOutcome`. -/
inductive EnvironmentOutcome where
  | reproduces
  | doesNotReproduce
  | abstain
deriving DecidableEq, Repr

/-- `EnvironmentTrial`. -/
structure EnvironmentTrial where
  dimension : String
  baseline : String
  candidate : Option String := none
  outcome : EnvironmentOutcome
  reason : String
  replayAttempts : UInt16
deriving DecidableEq, Repr

/-- `EnvironmentEnvelope`. -/
structure EnvironmentEnvelope where
  version : UInt16 := environmentEnvelopeVersion
  complete : Bool := false
  replayAttempts : UInt16 := 0
  relaxedDimensions : Finset String := ∅
  trials : List EnvironmentTrial := []
deriving DecidableEq

/-- `EnvironmentProof`. -/
structure EnvironmentProof where
  captured : Table String String
  envelope : EnvironmentEnvelope

/-! ## Validation -/

/-- The lengths of a trial. -/
def EnvironmentTrial.bounded (t : EnvironmentTrial) : Bool :=
  t.dimension.utf8ByteSize ≤ maxEnvironmentTextBytes &&
    t.baseline.utf8ByteSize ≤ maxEnvironmentTextBytes &&
    t.candidate.all (fun value => value.utf8ByteSize ≤ maxEnvironmentTextBytes) &&
    t.reason.utf8ByteSize ≤ maxEnvironmentTextBytes

/-- An outcome that was seen often enough: once for a finding that is there, twice for one that
is not. -/
def EnvironmentTrial.attempted (t : EnvironmentTrial) : Bool :=
  match t.outcome with
  | .reproduces => t.replayAttempts ≠ 0
  | .doesNotReproduce => 2 ≤ t.replayAttempts
  | .abstain => true

/-- The loop over the trials, with the dimensions and the attempts so far. -/
def collectTrials (captured : Table String String) :
    Finset String → UInt32 → List EnvironmentTrial → Except ReasonCode UInt32
  | _, recorded, [] => .ok recorded
  | dimensions, recorded, t :: rest => do
    require (captured.has t.dimension && t.dimension ∉ dimensions && t.bounded &&
      captured.get? t.dimension = some t.baseline) .invalidEvent
    require t.attempted .invalidSequence
    collectTrials captured (insert t.dimension dimensions) (recorded + t.replayAttempts.toUInt32)
      rest

/-- `saturating_add(1)`. -/
def saturatingSucc (n : UInt32) : UInt32 := if n.toNat = 2 ^ 32 - 1 then n else n + 1

/-- The attempts of the trials, and one of the baseline, which an envelope that is not complete
may lack. -/
def EnvironmentEnvelope.validAttempts (e : EnvironmentEnvelope) (recorded : UInt32) : Bool :=
  let attempts := e.replayAttempts.toUInt32
  if e.complete then attempts = saturatingSucc recorded
  else attempts = recorded || attempts = saturatingSucc recorded

/-- The dimension has a trial in which the finding is still there. -/
def EnvironmentEnvelope.reproduced (e : EnvironmentEnvelope) (dimension : String) : Bool :=
  e.trials.any fun t => t.dimension = dimension && t.outcome = .reproduces

/-- `EnvironmentEnvelope::validate`. -/
def EnvironmentEnvelope.validate (e : EnvironmentEnvelope) (captured : Table String String) :
    Check := do
  require (e.version = environmentEnvelopeVersion) .unsupportedVersion
  require (e.trials.length ≤ maxEnvironmentTrials) .batchTooLarge
  require (e.complete || e.relaxedDimensions = ∅) .invalidEvent
  let recorded ← collectTrials captured ∅ 0 e.trials
  require (e.validAttempts recorded) .invalidSequence
  -- the loop over the dimensions: it has one error, so their order does not show
  require (∀ dimension ∈ e.relaxedDimensions, e.reproduced dimension) .invalidEvent

/-- `EnvironmentProof::validate`. -/
def EnvironmentProof.validate (p : EnvironmentProof) : Check := p.envelope.validate p.captured

/-! ## What is accepted -/

/-- The attempts of some trials. -/
def attemptsOf (trials : List EnvironmentTrial) : Nat :=
  (trials.map fun t => t.replayAttempts.toNat).sum

/-- What the loop asks of a trial. -/
def TrialAccepted (captured : Table String String) (t : EnvironmentTrial) : Prop :=
  captured.get? t.dimension = some t.baseline ∧ t.bounded = true ∧ t.attempted = true

/-- The trials are of different dimensions and change what was captured, the attempts add up, and
what is relaxed was tried in full. -/
structure EnvironmentProof.Sound (p : EnvironmentProof) : Prop where
  version : p.envelope.version = environmentEnvelopeVersion
  trials : p.envelope.trials.length ≤ maxEnvironmentTrials
  accepted : ∀ t ∈ p.envelope.trials, TrialAccepted p.captured t
  once : (p.envelope.trials.map EnvironmentTrial.dimension).Nodup
  attempts : p.envelope.replayAttempts.toNat = attemptsOf p.envelope.trials + 1 ∨
    p.envelope.complete = false ∧
      p.envelope.replayAttempts.toNat = attemptsOf p.envelope.trials
  relaxed : ∀ dimension ∈ p.envelope.relaxedDimensions, p.envelope.complete = true ∧
    ∃ t ∈ p.envelope.trials, t.dimension = dimension ∧ t.outcome = .reproduces

section Accepted

variable {captured : Table String String} {dimensions : Finset String} {recorded sum : UInt32}
  {trials : List EnvironmentTrial} {e : EnvironmentEnvelope} {p : EnvironmentProof}

theorem collectTrials_eq_ok_iff :
    collectTrials captured dimensions recorded trials = .ok sum ↔
      (∀ t ∈ trials, TrialAccepted captured t ∧ t.dimension ∉ dimensions) ∧
        (trials.map EnvironmentTrial.dimension).Nodup ∧
        sum = recorded + UInt32.ofNat (attemptsOf trials) := by
  induction trials generalizing dimensions recorded with
  | nil =>
    simp only [collectTrials, attemptsOf]
    simp [eq_comm]
  | cons t trials ih =>
    have hsum : recorded + t.replayAttempts.toUInt32 + UInt32.ofNat (attemptsOf trials) =
        recorded + UInt32.ofNat (attemptsOf (t :: trials)) := by
      refine UInt32.toNat_inj.1 ?_
      simp only [UInt32.toNat_add, UInt16.toNat_toUInt32, UInt32.toNat_ofNat', attemptsOf,
        List.map_cons, List.sum_cons]
      omega
    rw [collectTrials, then_eq_ok_iff, then_eq_ok_iff, require_ok_iff, require_ok_iff, ih, hsum,
      List.forall_mem_cons, List.map_cons, List.nodup_cons,
      forall_fresh_iff EnvironmentTrial.dimension (TrialAccepted captured)]
    have hhas : captured.get? t.dimension = some t.baseline → captured.has t.dimension = true :=
      fun hget => by simp [Table.has, hget]
    simp only [TrialAccepted, Bool.and_eq_true, decide_eq_true_eq]
    tauto

/-- A `UInt32` is big enough for the attempts of the trials. -/
theorem attemptsOf_lt (h : trials.length ≤ maxEnvironmentTrials) :
    attemptsOf trials < 2 ^ 32 - 1 := by
  have hsum : attemptsOf trials ≤ trials.length * (2 ^ 16 - 1) := by
    have hle := List.sum_le_card_nsmul (trials.map fun t => t.replayAttempts.toNat) (2 ^ 16 - 1)
      fun n hn => by
        obtain ⟨t, -, rfl⟩ := List.mem_map.1 hn
        exact Nat.le_sub_one_of_lt t.replayAttempts.toNat_lt
    rwa [List.length_map, smul_eq_mul] at hle
  rw [maxEnvironmentTrials] at h
  omega

theorem validAttempts_iff (h : attemptsOf e.trials < 2 ^ 32 - 1) :
    e.validAttempts (UInt32.ofNat (attemptsOf e.trials)) = true ↔
      e.replayAttempts.toNat = attemptsOf e.trials + 1 ∨
        e.complete = false ∧ e.replayAttempts.toNat = attemptsOf e.trials := by
  have hnat : (UInt32.ofNat (attemptsOf e.trials)).toNat = attemptsOf e.trials := by
    rw [UInt32.toNat_ofNat']
    omega
  have hsucc : (saturatingSucc (UInt32.ofNat (attemptsOf e.trials))).toNat =
      attemptsOf e.trials + 1 := by
    rw [saturatingSucc, hnat, if_neg (by omega), UInt32.toNat_add, hnat]
    simp
    omega
  have heq : ∀ n : UInt32, e.replayAttempts.toUInt32 = n ↔
      e.replayAttempts.toNat = n.toNat := fun n => by
    rw [← UInt32.toNat_inj, UInt16.toNat_toUInt32]
  cases hcomplete : e.complete <;>
    simp [EnvironmentEnvelope.validAttempts, hcomplete, heq, hsucc, hnat, or_comm]

theorem reproduced_iff {dimension : String} : e.reproduced dimension = true ↔
    ∃ t ∈ e.trials, t.dimension = dimension ∧ t.outcome = .reproduces := by
  simp [EnvironmentEnvelope.reproduced]

/-- What `validate` accepts. -/
theorem EnvironmentProof.validate_ok_iff : p.validate = .ok () ↔ p.Sound := by
  rw [EnvironmentProof.validate, EnvironmentEnvelope.validate, both_ok_iff, both_ok_iff,
    both_ok_iff, require_ok_iff, require_ok_iff, require_ok_iff, decide_eq_true_iff,
    decide_eq_true_iff, bind_eq_ok_iff, Bool.or_eq_true, decide_eq_true_iff]
  simp only [both_ok_iff, require_ok_iff, decide_eq_true_eq, reproduced_iff]
  constructor
  · rintro ⟨hversion, htrials, hrelaxed, recorded, hcollect, hattempts, hreproduced⟩
    obtain ⟨haccepted, honce, rfl⟩ := collectTrials_eq_ok_iff.1 hcollect
    rw [zero_add, validAttempts_iff (attemptsOf_lt htrials)] at hattempts
    refine ⟨hversion, htrials, fun t ht => (haccepted t ht).1, honce, hattempts,
      fun dimension hdimension => ⟨?_, hreproduced dimension hdimension⟩⟩
    rcases hrelaxed with hcomplete | hempty
    · exact hcomplete
    · rw [hempty] at hdimension
      exact absurd hdimension (Finset.notMem_empty _)
  · intro h
    refine ⟨h.version, h.trials, ?_, _, collectTrials_eq_ok_iff.2
      ⟨fun t ht => ⟨h.accepted t ht, Finset.notMem_empty _⟩, h.once, rfl⟩, ?_,
      fun dimension hdimension => (h.relaxed dimension hdimension).2⟩
    · rcases Finset.eq_empty_or_nonempty p.envelope.relaxedDimensions with hempty | ⟨d, hd⟩
      · exact .inr hempty
      · exact .inl (h.relaxed d hd).1
    · rw [zero_add, validAttempts_iff (attemptsOf_lt h.trials)]
      exact h.attempts

/-- A dimension that is relaxed has no other trial than one with the finding still there. -/
theorem EnvironmentProof.Sound.kept (h : p.Sound) {t : EnvironmentTrial}
    (ht : t ∈ p.envelope.trials) (hout : t.outcome ≠ .reproduces) :
    t.dimension ∉ p.envelope.relaxedDimensions := by
  intro hrelaxed
  obtain ⟨-, t', ht', hdimension, hreproduces⟩ := h.relaxed t.dimension hrelaxed
  have hsame : t' = t := List.inj_on_of_nodup_map h.once ht' ht hdimension
  rw [hsame] at hreproduces
  exact hout hreproduces

theorem EnvironmentProof.Sound.has_of_relaxed (h : p.Sound) {dimension : String}
    (hrelaxed : dimension ∈ p.envelope.relaxedDimensions) :
    p.captured.has dimension = true := by
  obtain ⟨-, t, ht, rfl, -⟩ := h.relaxed dimension hrelaxed
  simp [Table.has, (h.accepted t ht).1]

end Accepted

/-- An environment proof is accepted if and only if it is sound.  Then its attempts are counted
without a wrap, what is relaxed was captured, and nothing is relaxed that a trial shows to matter
or leaves open. -/
theorem environment_proof_sound (p : EnvironmentProof) :
    (p.validate = .ok () ↔ p.Sound) ∧
      (p.validate = .ok () → attemptsOf p.envelope.trials < 2 ^ 16 ∧
        (∀ dimension ∈ p.envelope.relaxedDimensions, p.captured.has dimension = true) ∧
        ∀ t ∈ p.envelope.trials, t.outcome ≠ .reproduces →
          t.dimension ∉ p.envelope.relaxedDimensions) := by
  refine ⟨EnvironmentProof.validate_ok_iff, fun hok => ?_⟩
  have h := EnvironmentProof.validate_ok_iff.1 hok
  have hlimit := p.envelope.replayAttempts.toNat_lt
  have hattempts := h.attempts
  exact ⟨by omega, fun _ => h.has_of_relaxed, fun _ => h.kept⟩

/-- One dimension with one trial. -/
def modeProof (complete : Bool) (outcome : EnvironmentOutcome) : EnvironmentProof where
  captured := Table.empty.insertIgnore "define:MODE" "debug"
  envelope :=
    { complete
      replayAttempts := 2
      relaxedDimensions := {"define:MODE"}
      trials := [⟨"define:MODE", "debug", none, outcome, "replayed", 1⟩] }

example : (modeProof true .abstain).validate = .error .invalidEvent ∧
    (modeProof true .reproduces).validate = .ok () ∧
    (modeProof false .reproduces).validate = .error .invalidEvent := by decide +kernel

end Protocol

end ReproitCloud
