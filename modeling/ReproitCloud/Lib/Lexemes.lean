import Mathlib.Data.List.SplitBy
import Mathlib.Data.List.DropRight

/-!
# Maximal runs of a list

A `Grouping` says what kind an element is of, and which kinds stay together.  `runs`
cuts a list into its maximal runs: neighbours of one kind that stays together.  Elements
of another kind are runs of their own.

`rewrite f` replaces every run.  When `f` keeps the kinds of runs, the runs of the result
are the results (`runs_rewrite`), so rewritings compose (`rewrite_rewrite`) and a rewriting
may trim the ends first or last (`rewrite_trimEnds`).
-/

namespace Lib

/-! ## Stripping the ends -/

/-- A list without the elements at its ends that `p` takes. -/
def trimEnds {α : Type} (p : α → Bool) (l : List α) : List α := (l.dropWhile p).rdropWhile p

section Strip

variable {α β : Type} {p : α → Bool} {l : List α}

theorem isPrefix_trimEnds (p : α → Bool) (l : List α) : trimEnds p l <+: l.dropWhile p :=
  List.rdropWhile_prefix p _

theorem isInfix_trimEnds (p : α → Bool) (l : List α) : trimEnds p l <:+: l :=
  (isPrefix_trimEnds p l).isInfix.trans (List.dropWhile_suffix p).isInfix

theorem trimEnds_eq_self (hfirst : ∀ a, l.head? = some a → p a = false)
    (hlast : ∀ a, l.getLast? = some a → p a = false) : trimEnds p l = l := by
  have hdrop : l.dropWhile p = l := by
    cases l with
    | nil => rfl
    | cons a l => rw [List.dropWhile_cons_of_neg (by simp [hfirst a rfl])]
  rw [trimEnds, hdrop, List.rdropWhile_eq_self_iff]
  intro hne
  simp [hlast _ (List.getLast?_eq_some_getLast hne)]

theorem head?_trimEnds {a : α} (h : (trimEnds p l).head? = some a) : p a = false := by
  obtain ⟨rest, hrest⟩ := isPrefix_trimEnds p l
  have hhead : (l.dropWhile p).head? = some a := by
    rw [← hrest, List.head?_append, h]
    rfl
  have hne : l.dropWhile p ≠ [] := by
    rintro hnil
    simp [hnil] at hhead
  rw [List.head?_eq_some_head hne, Option.some.injEq] at hhead
  rw [← hhead]
  exact List.head_dropWhile_not p hne

theorem getLast?_trimEnds {a : α} (h : (trimEnds p l).getLast? = some a) : p a = false := by
  have hne : trimEnds p l ≠ [] := by
    rintro hnil
    simp [hnil] at h
  rw [List.getLast?_eq_some_getLast hne, Option.some.injEq] at h
  rw [← h]
  exact Bool.eq_false_iff.2 (List.rdropWhile_last_not p (l.dropWhile p) hne)

theorem trimEnds_trimEnds (p : α → Bool) (l : List α) : trimEnds p (trimEnds p l) = trimEnds p l :=
  trimEnds_eq_self (fun _ => head?_trimEnds) fun _ => getLast?_trimEnds

theorem trimEnds_map {q : β → Bool} {f : α → β} (h : ∀ a ∈ l, q (f a) = p a) :
    trimEnds q (l.map f) = (trimEnds p l).map f := by
  have hleft : ∀ {l : List α}, (∀ a ∈ l, q (f a) = p a) →
      (l.map f).dropWhile q = (l.dropWhile p).map f := by
    intro l h
    induction l with
    | nil => rfl
    | cons a l ih =>
      rw [List.forall_mem_cons] at h
      rw [List.map_cons, List.dropWhile_cons, List.dropWhile_cons, h.1, ih h.2]
      split <;> rfl
  have hdrop := hleft (l := (l.dropWhile p).reverse) fun a ha =>
    h a ((List.dropWhile_suffix p).subset (List.mem_reverse.1 ha))
  rw [trimEnds, hleft h, List.rdropWhile, ← List.map_reverse, hdrop, ← List.map_reverse]
  rfl

/-- The ends of a concatenation, when `p` takes all of a part or neither of its ends. -/
theorem trimEnds_flatten {ls : List (List α)} (h : ∀ l ∈ ls, l.all p = true ∨
      (∃ a, l.head? = some a ∧ p a = false) ∧ ∃ a, l.getLast? = some a ∧ p a = false) :
    trimEnds p ls.flatten = (trimEnds (fun l => l.all p) ls).flatten := by
  have hleft : ∀ {ls : List (List α)}, (∀ l ∈ ls, l.all p = true ∨
      ∃ a, l.head? = some a ∧ p a = false) →
        ls.flatten.dropWhile p = (ls.dropWhile fun l => l.all p).flatten := by
    intro ls h
    induction ls with
    | nil => rfl
    | cons l ls ih =>
      rw [List.forall_mem_cons] at h
      rcases h.1 with hall | ⟨a, hhead, ha⟩
      · rw [List.flatten_cons, List.dropWhile_append_of_pos (List.all_eq_true.1 hall), ih h.2,
          List.dropWhile_cons, if_pos hall]
      · obtain ⟨l', rfl⟩ := List.head?_eq_some_iff.1 hhead
        rw [List.flatten_cons, List.cons_append, List.dropWhile_cons_of_neg (by simp [ha]),
          List.dropWhile_cons_of_neg (by simp [ha])]
        rfl
  have hright : ∀ {ls : List (List α)}, (∀ l ∈ ls, l.all p = true ∨
      ∃ a, l.getLast? = some a ∧ p a = false) →
        ls.flatten.rdropWhile p = (ls.rdropWhile fun l => l.all p).flatten := by
    intro ls h
    induction ls using List.reverseRecOn with
    | nil => rfl
    | append_singleton ls l ih =>
      have hls := ih fun l hl => h l (List.mem_append_left _ hl)
      rcases h l (List.mem_append_right _ (List.mem_singleton.2 rfl)) with hall | ⟨a, hlast, ha⟩
      · have hreverse : ∀ a ∈ l.reverse, p a = true := fun a ha =>
          List.all_eq_true.1 hall a (List.mem_reverse.1 ha)
        rw [List.rdropWhile_concat, if_pos hall, ← hls, List.flatten_append, List.rdropWhile,
          List.flatten_singleton, List.reverse_append, List.dropWhile_append_of_pos hreverse]
        rfl
      · obtain ⟨l', rfl⟩ := List.getLast?_eq_some_iff.1 hlast
        rw [List.rdropWhile_concat_neg _ _ _ (by simp [ha]), List.flatten_append,
          List.flatten_singleton, ← List.append_assoc,
          List.rdropWhile_concat_neg _ _ _ (by simp [ha])]
  rw [trimEnds, hleft fun l hl => (h l hl).imp_right And.left, hright, trimEnds]
  exact fun l hl => (h l ((List.dropWhile_suffix _).subset hl)).imp_right And.right

end Strip

/-! ## Runs -/

/-- What is kept together. -/
structure Grouping (α κ : Type) where
  kind : α → κ
  joined : κ → Bool

namespace Grouping

variable {α κ : Type}

/-- A list that is a run by itself. -/
structure IsRun (G : Grouping α κ) (k : κ) (r : List α) : Prop where
  ne_nil : r ≠ []
  kind : ∀ a ∈ r, G.kind a = k
  alone : G.joined k = false → r.length = 1

/-- Neighbouring runs do not stay together. -/
def Apart (G : Grouping α κ) (r s : List α) : Prop :=
  ∀ k, G.IsRun k r → G.IsRun k s → G.joined k = false

/-- The runs of some list. -/
structure AreRuns (G : Grouping α κ) (rs : List (List α)) : Prop where
  each : ∀ r ∈ rs, ∃ k, G.IsRun k r
  apart : rs.IsChain G.Apart

/-- A run becomes a run of its kind. -/
def KeepsKinds (G : Grouping α κ) (f : List α → List α) : Prop :=
  ∀ k r, G.IsRun k r → G.IsRun k (f r)

section Parts

variable {G : Grouping α κ} {k k' : κ} {r : List α} {rs : List (List α)}

theorem IsRun.kind_unique (h : G.IsRun k r) (h' : G.IsRun k' r) : k = k' := by
  obtain ⟨a, ha⟩ := List.exists_mem_of_ne_nil r h.ne_nil
  exact (h.kind a ha).symm.trans (h'.kind a ha)

/-- Runs are of one kind, so a set of kinds has all of a run or nothing of it. -/
theorem IsRun.all_iff {p : α → Bool} {q : κ → Bool} (hp : ∀ a, p a = q (G.kind a))
    (h : G.IsRun k r) : r.all p = q k := by
  obtain ⟨a, ha⟩ := List.exists_mem_of_ne_nil r h.ne_nil
  cases hq : q k with
  | true =>
    rw [List.all_eq_true]
    intro b hb
    rw [hp, h.kind b hb, hq]
  | false =>
    rw [List.all_eq_false]
    exact ⟨a, ha, by simp [hp, h.kind a ha, hq]⟩

theorem AreRuns.of_isInfix (h : G.AreRuns rs) {ss : List (List α)} (hin : ss <:+: rs) : G.AreRuns ss :=
  ⟨fun r hr => h.each r (hin.subset hr), List.IsChain.infix h.apart hin⟩

theorem AreRuns.map {f : List α → List α} (hf : G.KeepsKinds f) (h : G.AreRuns rs) :
    G.AreRuns (rs.map f) := by
  constructor
  · intro r hr
    obtain ⟨s, hs, rfl⟩ := List.mem_map.1 hr
    obtain ⟨k, hrun⟩ := h.each s hs
    exact ⟨k, hf k s hrun⟩
  · rw [List.isChain_map]
    refine h.apart.imp_of_mem_imp fun r s hr hs hapart k hrun hrun' => ?_
    obtain ⟨j, hj⟩ := h.each r hr
    obtain ⟨j', hj'⟩ := h.each s hs
    obtain rfl := (hf j r hj).kind_unique hrun
    obtain rfl := (hf j' s hj').kind_unique hrun'
    exact hapart _ hj hj'

/-- Trimming kinds off the ends of a list trims runs. -/
theorem AreRuns.trimEnds_flatten {p : α → Bool} {q : κ → Bool} (hp : ∀ a, p a = q (G.kind a))
    (h : G.AreRuns rs) : trimEnds p rs.flatten = (trimEnds (fun r => r.all p) rs).flatten := by
  refine Lib.trimEnds_flatten fun r hr => ?_
  obtain ⟨k, hrun⟩ := h.each r hr
  cases hq : q k with
  | true => exact .inl ((hrun.all_iff hp).trans hq)
  | false =>
    have hout : ∀ a ∈ r, p a = false := fun a ha => by rw [hp, hrun.kind a ha, hq]
    exact .inr ⟨⟨_, List.head?_eq_some_head hrun.ne_nil, hout _ (List.head_mem _)⟩,
      _, List.getLast?_eq_some_getLast hrun.ne_nil, hout _ (List.getLast_mem _)⟩

/-- No two neighbours are of a kind that is joined, when its runs are single elements. -/
theorem AreRuns.isChain_flatten (h : G.AreRuns rs) (hjoined : G.joined k = true)
    (hsingle : ∀ r ∈ rs, G.IsRun k r → r.length = 1) :
    rs.flatten.IsChain fun a b => ¬ (G.kind a = k ∧ G.kind b = k) := by
  have hne : [] ∉ rs := by
    intro hnil
    obtain ⟨k, hrun⟩ := h.each [] hnil
    exact hrun.ne_nil rfl
  rw [List.isChain_flatten hne]
  constructor
  · intro r hr
    obtain ⟨j, hrun⟩ := h.each r hr
    by_cases hk : j = k
    · subst hk
      obtain ⟨a, rfl⟩ := List.length_eq_one_iff.1 (hsingle r hr hrun)
      exact List.isChain_singleton a
    · refine (List.pairwise_of_forall_mem_list fun a ha b hb hkinds => ?_).isChain
      exact hk ((hrun.kind a ha).symm.trans hkinds.1)
  · refine h.apart.imp_of_mem_imp fun r s hr hs hapart a ha b hb hkinds => ?_
    obtain ⟨j, hrun⟩ := h.each r hr
    obtain ⟨j', hrun'⟩ := h.each s hs
    obtain rfl : j = k := (hrun.kind a (List.mem_of_mem_getLast? ha)).symm.trans hkinds.1
    obtain rfl : j' = j := (hrun'.kind b (List.mem_of_mem_head? hb)).symm.trans hkinds.2
    rw [hapart j' hrun hrun'] at hjoined
    cases hjoined

end Parts

variable [DecidableEq κ]

/-- Neighbours that stay together. -/
def together (G : Grouping α κ) (a b : α) : Bool := G.kind a = G.kind b && G.joined (G.kind a)

/-- The maximal runs. -/
def runs (G : Grouping α κ) (l : List α) : List (List α) := l.splitBy G.together

/-- Replace every run. -/
def rewrite (G : Grouping α κ) (f : List α → List α) (l : List α) : List α := (G.runs l).flatMap f

section Runs

variable {G : Grouping α κ} {k : κ} {r : List α} {rs : List (List α)} {f g : List α → List α}

theorem IsRun.isChain (h : G.IsRun k r) : r.IsChain fun a b => G.together a b = true := by
  cases hjoined : G.joined k with
  | true =>
    refine (List.pairwise_of_forall_mem_list fun a ha b hb => ?_).isChain
    simp [together, h.kind a ha, h.kind b hb, hjoined]
  | false =>
    obtain ⟨a, rfl⟩ := List.length_eq_one_iff.1 (h.alone hjoined)
    exact List.isChain_singleton a

/-- A chain of neighbours that stay together is of one kind. -/
theorem isRun_of_isChain {a : α} {l : List α}
    (h : (a :: l).IsChain fun a b => G.together a b = true) : G.IsRun (G.kind a) (a :: l) := by
  induction l generalizing a with
  | nil =>
    refine ⟨List.cons_ne_nil a [], fun b hb => ?_, fun _ => rfl⟩
    rw [List.mem_singleton.1 hb]
  | cons b l ih =>
    rw [List.isChain_cons_cons] at h
    have htogether : G.kind a = G.kind b ∧ G.joined (G.kind a) = true := by
      simpa [together] using h.1
    have htail := ih h.2
    refine ⟨List.cons_ne_nil a _, fun c hc => ?_, fun hjoined => ?_⟩
    · rcases List.mem_cons.1 hc with rfl | hc
      · rfl
      · rw [htogether.1]
        exact htail.kind c hc
    · rw [htogether.2] at hjoined
      cases hjoined

theorem areRuns_runs (G : Grouping α κ) (l : List α) : G.AreRuns (G.runs l) := by
  refine ⟨fun r hr => ?_, (List.isChain_getLast_head_splitBy G.together l).imp ?_⟩
  · cases r with
    | nil => exact absurd hr (List.nil_notMem_splitBy _ _)
    | cons a r => exact ⟨G.kind a, isRun_of_isChain (List.isChain_of_mem_splitBy hr)⟩
  · rintro r s ⟨hr, hs, hcut⟩ k hrun hrun'
    have hlast := hrun.kind _ (List.getLast_mem hr)
    have hhead := hrun'.kind _ (List.head_mem hs)
    simpa [together, hlast, hhead] using hcut

theorem flatten_runs (G : Grouping α κ) (l : List α) : (G.runs l).flatten = l :=
  List.flatten_splitBy _ _

/-- Runs that are apart are the runs of their concatenation. -/
theorem runs_flatten (h : G.AreRuns rs) : G.runs rs.flatten = rs := by
  refine List.splitBy_flatten ?_ ?_ ?_
  · intro hnil
    obtain ⟨k, hrun⟩ := h.each [] hnil
    exact hrun.ne_nil rfl
  · intro r hr
    obtain ⟨k, hrun⟩ := h.each r hr
    exact hrun.isChain
  · refine h.apart.imp_of_mem_imp fun r s hr hs hapart => ?_
    obtain ⟨k, hrun⟩ := h.each r hr
    obtain ⟨k', hrun'⟩ := h.each s hs
    refine ⟨hrun.ne_nil, hrun'.ne_nil, ?_⟩
    have hlast := hrun.kind _ (List.getLast_mem hrun.ne_nil)
    have hhead := hrun'.kind _ (List.head_mem hrun'.ne_nil)
    by_cases hk : k = k'
    · subst hk
      simp [together, hlast, hhead, hapart k hrun hrun']
    · simp [together, hlast, hhead, hk]

/-- The runs of a rewritten list are the rewritten runs. -/
theorem runs_rewrite (hf : G.KeepsKinds f) (l : List α) :
    G.runs (G.rewrite f l) = (G.runs l).map f := by
  rw [rewrite, List.flatMap_def]
  exact runs_flatten ((areRuns_runs G l).map hf)

theorem rewrite_rewrite (hf : G.KeepsKinds f) (l : List α) :
    G.rewrite g (G.rewrite f l) = G.rewrite (g ∘ f) l := by
  rw [rewrite, runs_rewrite hf, List.flatMap_map]
  rfl

theorem rewrite_congr {l : List α} (h : ∀ k r, G.IsRun k r → f r = g r) :
    G.rewrite f l = G.rewrite g l := by
  refine List.flatMap_congr fun r hr => ?_
  obtain ⟨k, hrun⟩ := (areRuns_runs G l).each r hr
  exact h k r hrun

theorem runs_trimEnds {p : α → Bool} {q : κ → Bool} (hp : ∀ a, p a = q (G.kind a)) (l : List α) :
    G.runs (trimEnds p l) = trimEnds (fun r => r.all p) (G.runs l) := by
  have hruns := areRuns_runs G l
  rw [← runs_flatten (hruns.of_isInfix (isInfix_trimEnds (fun r => r.all p) _)), ← hruns.trimEnds_flatten hp,
    flatten_runs]

/-- A rewriting may trim the ends first or last. -/
theorem rewrite_trimEnds {p : α → Bool} {q : κ → Bool} (hp : ∀ a, p a = q (G.kind a))
    (hf : G.KeepsKinds f) (l : List α) : G.rewrite f (trimEnds p l) = trimEnds p (G.rewrite f l) := by
  have hruns := areRuns_runs G l
  rw [rewrite, runs_trimEnds hp, rewrite, List.flatMap_def, List.flatMap_def,
    (hruns.map hf).trimEnds_flatten hp]
  -- `f` keeps kinds, so the runs that are trimmed are the same.
  rw [trimEnds_map fun r hr => ?_]
  obtain ⟨k, hrun⟩ := hruns.each r hr
  exact ((hf k r hrun).all_iff hp).trans (hrun.all_iff hp).symm

end Runs

end Grouping

end Lib
