import ReproitCloud.Lib.StableSort
import ReproitCloud.Jobs.Scheduler

/-!
# The ranking of the candidates

`claimOrder` sorts the admissible candidates by score, then deadline, then tenant.
`claimKey` is that triple in lexicographic order, and `claimOrder_ranks` says what
the ranking is: the admissible indices, each once, by key and then by index, with
the same keys at every place whatever the order of the candidates.
-/

namespace ReproitCloud

open Lib

/-- What the policy compares: score, deadline, tenant. -/
def claimKey (nowUnix : Int) (c : Candidate) : Int ×ₗ Int ×ₗ String :=
  toLex (claimScore c nowUnix, toLex (c.deadlineUnix, c.tenant))

theorem claimBefore_iff {nowUnix : Int} {a b : Candidate} :
    claimBefore nowUnix a b = true ↔ claimKey nowUnix a ≤ claimKey nowUnix b := by
  simp [claimBefore, claimKey, Prod.Lex.toLex_le_toLex]

/-- The key of the candidate at an index. -/
def keyAt (cands : List Candidate) (nowUnix : Int) (i : Nat) : Option (Int ×ₗ Int ×ₗ String) :=
  cands[i]?.map (claimKey nowUnix)

section Ranking

variable {cands : List Candidate} {nowUnix : Int}

/-- The admissible candidates with their indices, in claim order. -/
def rankedPairs (cands : List Candidate) (nowUnix : Int) : List (Candidate × Nat) :=
  (admissible cands).insertionSort fun a b => claimBefore nowUnix a.1 b.1

theorem mem_rankedPairs {c : Candidate} {i : Nat} :
    (c, i) ∈ rankedPairs cands nowUnix ↔ cands[i]? = some c ∧ mayClaim c = true := by
  rw [rankedPairs, List.mem_insertionSort, admissible, List.mem_filter, List.mk_mem_zipIdx_iff_getElem?]

theorem zipIdx_increasing (l : List Candidate) (n : Nat) :
    (l.zipIdx n).Pairwise fun a b => a.2 < b.2 := by
  have hlt : ((l.zipIdx n).map Prod.snd).Pairwise (· < ·) := by
    rw [List.zipIdx_map_snd]
    exact List.pairwise_lt_range'
  exact List.pairwise_map.1 hlt

theorem admissible_increasing (cands : List Candidate) :
    (admissible cands).Pairwise fun a b => a.2 < b.2 :=
  (zipIdx_increasing cands 0).filter _

/-- The key of a candidate with its index. -/
def pairKey (nowUnix : Int) (r : Candidate × Nat) : Int ×ₗ Int ×ₗ String := claimKey nowUnix r.1

theorem claimBefore_pair (nowUnix : Int) (a b : Candidate × Nat) :
    claimBefore nowUnix a.1 b.1 = true ↔ pairKey nowUnix a ≤ pairKey nowUnix b :=
  claimBefore_iff

theorem rankedPairs_ranked (cands : List Candidate) (nowUnix : Int) :
    (rankedPairs cands nowUnix).Pairwise (Ranked (pairKey nowUnix) fun a b => a.2 < b.2) :=
  insertionSort_ranked (claimBefore_pair nowUnix) (admissible_increasing cands)

theorem keyAt_of_mem {r : Candidate × Nat} (h : r ∈ rankedPairs cands nowUnix) :
    keyAt cands nowUnix r.2 = some (pairKey nowUnix r) := by
  rw [keyAt, (mem_rankedPairs.1 h).1]
  rfl

theorem mem_claimOrder {i : Nat} :
    i ∈ claimOrder cands nowUnix ↔ ∃ c, cands[i]? = some c ∧ mayClaim c = true := by
  show i ∈ (rankedPairs cands nowUnix).map Prod.snd ↔ _
  simp [mem_rankedPairs]

/-- The first place has a least key. -/
theorem claimOrder_head {i : Nat} {rest : List Nat} {a b : Candidate}
    (h : claimOrder cands nowUnix = i :: rest) (ha : cands[i]? = some a) (hb : b ∈ cands)
    (hadmissible : mayClaim b = true) : claimKey nowUnix a ≤ claimKey nowUnix b := by
  obtain ⟨j, hj⟩ := List.mem_iff_getElem?.1 hb
  have hmem : (b, j) ∈ rankedPairs cands nowUnix := mem_rankedPairs.2 ⟨hj, hadmissible⟩
  cases hpairs : rankedPairs cands nowUnix with
  | nil =>
    rw [hpairs] at hmem
    exact absurd hmem List.not_mem_nil
  | cons r pairs =>
    have hr : r ∈ rankedPairs cands nowUnix := by
      rw [hpairs]
      exact List.mem_cons_self
    have hhead : r.2 = i := by
      have h' : (rankedPairs cands nowUnix).map Prod.snd = i :: rest := h
      rw [hpairs, List.map_cons, List.cons.injEq] at h'
      exact h'.1
    have hra : r.1 = a := by
      have hget := (mem_rankedPairs.1 hr).1
      rw [hhead, ha, Option.some.injEq] at hget
      exact hget.symm
    have hranked := rankedPairs_ranked cands nowUnix
    rw [hpairs, List.pairwise_cons] at hranked
    rw [hpairs] at hmem
    rw [← hra]
    rcases List.mem_cons.1 hmem with rfl | hmem
    · exact le_rfl
    · exact (hranked.1 (b, j) hmem).le

/-- The keys along the ranking. -/
theorem map_keyAt_claimOrder :
    (claimOrder cands nowUnix).map (keyAt cands nowUnix) =
      ((rankedPairs cands nowUnix).map (pairKey nowUnix)).map some := by
  show ((rankedPairs cands nowUnix).map Prod.snd).map (keyAt cands nowUnix) = _
  rw [List.map_map, List.map_map]
  exact List.map_congr_left fun r hr => keyAt_of_mem hr

theorem map_pairKey_admissible :
    (admissible cands).map (pairKey nowUnix) = (cands.filter mayClaim).map (claimKey nowUnix) := by
  have hfst : (admissible cands).map Prod.fst = cands.filter mayClaim := by
    have hmap := List.filter_map (p := mayClaim) (f := Prod.fst) (l := cands.zipIdx)
    rw [List.zipIdx_map_fst] at hmap
    exact hmap.symm
  rw [← hfst, List.map_map]
  rfl

end Ranking

/-- The ranking has each admissible index once, by key and among equal keys by
index, and its keys do not depend on the order of the candidates. -/
theorem claimOrder_ranks (cands : List Candidate) (nowUnix : Int) :
    (claimOrder cands nowUnix).Nodup ∧
    (∀ i, i ∈ claimOrder cands nowUnix ↔ ∃ c, cands[i]? = some c ∧ mayClaim c = true) ∧
    (claimOrder cands nowUnix).Pairwise (fun i j => ∀ a b, cands[i]? = some a →
      cands[j]? = some b → claimKey nowUnix a < claimKey nowUnix b ∨
        claimKey nowUnix a = claimKey nowUnix b ∧ i < j) ∧
    (∀ cands' : List Candidate, cands'.Perm cands →
      (claimOrder cands' nowUnix).map (keyAt cands' nowUnix) =
        (claimOrder cands nowUnix).map (keyAt cands nowUnix)) := by
  refine ⟨?_, fun _ => mem_claimOrder, ?_, ?_⟩
  · have hperm : (claimOrder cands nowUnix).Perm ((admissible cands).map Prod.snd) :=
      (List.perm_insertionSort _ _).map _
    refine hperm.nodup_iff.2 (List.pairwise_map.2 ?_)
    exact (admissible_increasing cands).imp fun h => Nat.ne_of_lt h
  · refine List.pairwise_map.2 ((rankedPairs_ranked cands nowUnix).imp_of_mem ?_)
    intro r s hr hs hranked a b ha hb
    rw [(mem_rankedPairs.1 hr).1, Option.some.injEq] at ha
    rw [(mem_rankedPairs.1 hs).1, Option.some.injEq] at hb
    subst ha hb
    exact hranked
  · intro cands' hperm
    have hkeys : ((admissible cands').map (pairKey nowUnix)).Perm
        ((admissible cands).map (pairKey nowUnix)) := by
      rw [map_pairKey_admissible, map_pairKey_admissible]
      exact (hperm.filter _).map _
    rw [map_keyAt_claimOrder, map_keyAt_claimOrder]
    exact congrArg (List.map some) (map_insertionSort_of_perm (claimBefore_pair nowUnix) hkeys)

end ReproitCloud
