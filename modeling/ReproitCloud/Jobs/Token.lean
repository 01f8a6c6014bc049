import ReproitCloud.Lib.DecimalText

/-!
# The claim token

A claimed shard is addressed by a text of four parts, the organization, the job,
the seed and the worker id, separated by colons.  The worker gets it with the
claim and sends it back with every heartbeat and with the result.

A job id may have colons.  The organization and the seed are decimal, and a
worker id has lost its colons by `sanitizeWorkerId`, so the four parts can be read
back: `parseShardId_shardId_eq`.
-/

namespace ReproitCloud

open Lib

/-- `sanitize_worker_id`.  The last argument is the id minted for an empty one. -/
def sanitizeWorkerId (id minted : String) : String :=
  let clean := (id.toList.map fun c =>
    if c.isAlphanum || c = '-' || c = '_' || c = '.' then c else '_').take 96
  if clean.isEmpty then minted else String.ofList clean

/-- The worker id of a claim request: the given one or a minted one, sanitized. -/
def claimWorkerId (given : Option String) (minted minted' : String) : String :=
  sanitizeWorkerId (given.getD minted) minted'

/-- `"{org}:{job}:{seed}:{worker}"`. -/
def shardId (org : Int64) (job : String) (seed : UInt32) (worker : String) : String :=
  String.ofList (int64Chars org ++ ':' :: (job.toList ++ ':' :: (uint32Chars seed ++ ':' ::
    worker.toList)))

/-- `parse_shard_id`. -/
def parseShardId (id : String) : Option (Int64 × String × UInt32 × String) :=
  (splitOnce ':' id.toList).bind fun r =>
  (parseInt64 r.1).bind fun org =>
  (rsplitOnce ':' r.2).bind fun r =>
  if r.2.isEmpty then none
  else
    let worker := r.2
    (rsplitOnce ':' r.1).bind fun r =>
    if r.1.isEmpty then none
    else (parseUInt32 r.2).map fun seed => (org, String.ofList r.1, seed, String.ofList worker)

theorem colon_not_mem_toDigits (n : Nat) : ':' ∉ Nat.toDigits 10 n := by
  intro h
  have := isDigit_of_mem_toDigits h
  revert this
  decide

theorem colon_not_mem_int64Chars (x : Int64) : ':' ∉ int64Chars x := by
  unfold int64Chars
  split
  · exact colon_not_mem_toDigits _
  · rw [List.mem_cons, not_or]
    exact ⟨by decide, colon_not_mem_toDigits _⟩

/-- Reading a token back, with the two checks for empty parts. -/
theorem parseShardId_shardId_eq (org : Int64) (job : String) (seed : UInt32) {worker : String}
    (hworker : ':' ∉ worker.toList) :
    parseShardId (shardId org job seed worker) =
      if worker.toList.isEmpty then none
      else if job.toList.isEmpty then none
      else some (org, job, seed, worker) := by
  have hassoc : ∀ xs ys zs : List Char,
      xs ++ ':' :: (ys ++ ':' :: zs) = (xs ++ ':' :: ys) ++ ':' :: zs := by simp
  rw [parseShardId, shardId, String.toList_ofList, splitOnce_append (colon_not_mem_int64Chars org),
    Option.bind_some, parseInt64_chars, Option.bind_some, hassoc, rsplitOnce_append _ hworker,
    Option.bind_some]
  split
  · rfl
  · have hjob : rsplitOnce ':' (job.toList ++ ':' :: uint32Chars seed) =
        some (job.toList, uint32Chars seed) := rsplitOnce_append _ (colon_not_mem_toDigits _)
    simp only [hjob, Option.bind_some, parseUInt32_chars, Option.map_some, String.ofList_toList]

/-- What a token reads back as, if anything, is what it was built from. -/
theorem eq_of_parseShardId {org org' : Int64} {job job' : String} {seed seed' : UInt32}
    {worker worker' : String} (hworker : ':' ∉ worker.toList)
    (h : parseShardId (shardId org job seed worker) = some (org', job', seed', worker')) :
    org' = org ∧ job' = job ∧ seed' = seed ∧ worker' = worker := by
  rw [parseShardId_shardId_eq org job seed hworker] at h
  split at h
  · cases h
  · split at h
    · cases h
    · simp only [Option.some.injEq, Prod.mk.injEq] at h
      obtain ⟨rfl, rfl, rfl, rfl⟩ := h
      exact ⟨rfl, rfl, rfl, rfl⟩

/-- A sanitized worker id has no colon, if the minted one has none. -/
theorem colon_not_mem_sanitizeWorkerId (id : String) {minted : String}
    (hminted : ':' ∉ minted.toList) : ':' ∉ (sanitizeWorkerId id minted).toList := by
  simp only [sanitizeWorkerId]
  split
  · exact hminted
  · rw [String.toList_ofList]
    intro h
    obtain ⟨c, -, hc⟩ := List.mem_map.1 (List.mem_of_mem_take h)
    split at hc
    · rename_i hok
      subst hc
      revert hok
      decide
    · revert hc
      decide

/-- A sanitized worker id is not empty. -/
theorem sanitizeWorkerId_ne_empty (id : String) {minted : String} (hminted : minted ≠ "") :
    (sanitizeWorkerId id minted).toList.isEmpty = false := by
  simp only [sanitizeWorkerId]
  split
  · rw [List.isEmpty_eq_false_iff, ne_eq, String.toList_eq_nil_iff]
    exact hminted
  · rename_i hclean
    rw [String.toList_ofList]
    exact eq_false_of_ne_true hclean

/-- A token reads back as the four parts it was built from, and so two tokens of
different parts differ.  A worker without a usable name gets one from a uuid, whose
text has no colon. -/
theorem shardId_round_trips (org : Int64) {job : String} (hjob : job ≠ "") (seed : UInt32)
    (id : String) {uuid : String} (huuid : ':' ∉ uuid.toList) :
    parseShardId (shardId org job seed (sanitizeWorkerId id ("w-" ++ uuid))) =
      some (org, job, seed, sanitizeWorkerId id ("w-" ++ uuid)) ∧
    ∀ (org' : Int64) (job' : String) (seed' : UInt32) (id' uuid' : String), job' ≠ "" →
      ':' ∉ uuid'.toList →
      shardId org job seed (sanitizeWorkerId id ("w-" ++ uuid)) =
        shardId org' job' seed' (sanitizeWorkerId id' ("w-" ++ uuid')) →
      org = org' ∧ job = job' ∧ seed = seed' ∧
        sanitizeWorkerId id ("w-" ++ uuid) = sanitizeWorkerId id' ("w-" ++ uuid') := by
  have hminted : ∀ {uuid : String}, ':' ∉ uuid.toList → ':' ∉ ("w-" ++ uuid).toList := by
    intro uuid h
    simpa using h
  have hread : ∀ (org : Int64) {job : String}, job ≠ "" → ∀ (seed : UInt32) (id : String)
      {uuid : String}, ':' ∉ uuid.toList →
      parseShardId (shardId org job seed (sanitizeWorkerId id ("w-" ++ uuid))) =
        some (org, job, seed, sanitizeWorkerId id ("w-" ++ uuid)) := by
    intro org job hjob seed id uuid huuid
    have hworker : (sanitizeWorkerId id ("w-" ++ uuid)).toList.isEmpty = false :=
      sanitizeWorkerId_ne_empty id (by simp)
    have hjob' : job.toList.isEmpty = false := by
      rw [List.isEmpty_eq_false_iff, ne_eq, String.toList_eq_nil_iff]
      exact hjob
    rw [parseShardId_shardId_eq org job seed (colon_not_mem_sanitizeWorkerId id (hminted huuid)),
      hworker, hjob']
    rfl
  refine ⟨hread org hjob seed id huuid, ?_⟩
  intro org' job' seed' id' uuid' hjob' huuid' hsame
  have h := hread org hjob seed id huuid
  rw [hsame, hread org' hjob' seed' id' huuid'] at h
  simp only [Option.some.injEq, Prod.mk.injEq] at h
  exact ⟨h.1.symm, h.2.1.symm, h.2.2.1.symm, h.2.2.2.symm⟩

/-- A job id with a separator and a worker id that has to be cleaned. -/
theorem shardId_round_trips_colons :
    parseShardId (shardId 7 "a:b" 3 (sanitizeWorkerId "w:1" ("w-" ++ "0"))) =
      some (7, "a:b", 3, sanitizeWorkerId "w:1" ("w-" ++ "0")) :=
  (shardId_round_trips 7 (by decide) 3 "w:1" (by decide)).1

end ReproitCloud
