import ReproitCloud.Lib.Turns

/-!
# Reading a changing table by pages

A reader takes the rows of a table in pages of a bounded size, in the order of a key.  It
keeps the key of the last row as its cursor, and a page has the first rows behind the
cursor.  The table may change between two pages.

`ReadUpTo` is what holds after every page.  The rows read are in order, none is behind the
cursor, and a row that lasts through all pages has been read once the cursor is past it.
A page moves the cursor (`ReadUpTo.page`), and a page that is not full is the last one that
is needed (`ReadUpTo.short`).
-/

namespace Lib

variable {α : Type}

/-- A page: the first rows behind a cursor. -/
def keysetPage (key : α → Nat) (limit after : Nat) (rows : List α) : List α :=
  firstBy key limit (rows.filter fun a => after < key a)

section Page

variable {key : α → Nat} {limit after : Nat} {rows : List α} {a b : α}

theorem mem_keysetPage (h : a ∈ keysetPage key limit after rows) : a ∈ rows ∧ after < key a := by
  have hmem := List.mem_filter.1 (mem_of_mem_firstBy h)
  exact ⟨hmem.1, of_decide_eq_true hmem.2⟩

/-- A page is in order. -/
theorem pairwise_keysetPage (hnodup : (rows.map key).Nodup) :
    (keysetPage key limit after rows).Pairwise fun a b => key a < key b := by
  have hle : (keysetPage key limit after rows).Pairwise fun a b => key a ≤ key b :=
    (List.pairwise_insertionSort _ _).sublist (firstBy_sublist _ _ _)
  have hne : (keysetPage key limit after rows).Pairwise fun a b => key a ≠ key b := by
    have hkeys : ((rows.filter fun a => after < key a).map key).Nodup :=
      hnodup.sublist (List.filter_sublist.map key)
    exact List.pairwise_map.1 (nodup_map_firstBy key hkeys)
  exact hle.imp₂ (fun _ _ h h' => lt_of_le_of_ne h h') hne

/-- A page has every row behind the cursor that is not behind its last row. -/
theorem mem_keysetPage_of_le (hnodup : (rows.map key).Nodup) (ha : a ∈ rows)
    (hafter : after < key a) (hb : b ∈ keysetPage key limit after rows) (hle : key a ≤ key b) :
    a ∈ keysetPage key limit after rows := by
  have hmem : a ∈ rows.filter fun a => after < key a :=
    List.mem_filter.2 ⟨ha, decide_eq_true hafter⟩
  by_contra hnot
  have hsame : key b = key a := le_antisymm ((firstBy_full hmem hnot).2 b hb) hle
  have heq : b = a := List.inj_on_of_nodup_map hnodup (mem_keysetPage hb).1 ha hsame
  exact hnot (heq ▸ hb)

/-- A page that is not full has every row behind the cursor. -/
theorem mem_keysetPage_of_short (ha : a ∈ rows) (hafter : after < key a)
    (hshort : (keysetPage key limit after rows).length < limit) :
    a ∈ keysetPage key limit after rows := by
  have hmem : a ∈ rows.filter fun a => after < key a :=
    List.mem_filter.2 ⟨ha, decide_eq_true hafter⟩
  by_contra hnot
  exact hshort.ne (firstBy_full hmem hnot).1

end Page

/-- What has been read when the cursor is at a key. -/
structure ReadUpTo (key : α → Nat) (lasts : α → Prop) (after : Nat) (read : List α) : Prop where
  increasing : read.Pairwise fun a b => key a < key b
  upTo : ∀ a ∈ read, key a ≤ after
  all : ∀ a, lasts a → key a ≤ after → a ∈ read

section Cursor

variable {key : α → Nat} {lasts : α → Prop} {limit after : Nat} {read rows : List α}

/-- What is read of a page follows what was read, in order. -/
theorem ReadUpTo.increasing_append (h : ReadUpTo key lasts after read)
    (hnodup : (rows.map key).Nodup) {part : List α}
    (hpart : part.Sublist (keysetPage key limit after rows)) :
    (read ++ part).Pairwise fun a b => key a < key b := by
  refine List.pairwise_append.2 ⟨h.increasing, (pairwise_keysetPage hnodup).sublist hpart, ?_⟩
  intro a ha b hb
  exact Nat.lt_of_le_of_lt (h.upTo a ha) (mem_keysetPage (hpart.subset hb)).2

/-- A page moves the cursor to its last row. -/
theorem ReadUpTo.page (h : ReadUpTo key lasts after read) (hnodup : (rows.map key).Nodup)
    (hlasts : ∀ a, lasts a → a ∈ rows) {last : α}
    (hlast : (keysetPage key limit after rows).getLast? = some last) :
    ReadUpTo key lasts (key last) (read ++ keysetPage key limit after rows) ∧
      after < key last := by
  have hmem := List.mem_of_getLast? hlast
  have hless := (mem_keysetPage hmem).2
  have hpage : ∀ a ∈ keysetPage key limit after rows, key a ≤ key last := by
    intro a ha
    obtain ⟨front, hfront⟩ := List.getLast?_eq_some_iff.1 hlast
    have hsorted : (keysetPage key limit after rows).Pairwise fun a b => key a < key b :=
      pairwise_keysetPage hnodup
    rw [hfront] at hsorted ha
    rcases List.mem_append.1 ha with hbefore | hthis
    · exact ((List.pairwise_append.1 hsorted).2.2 a hbefore last List.mem_cons_self).le
    · rw [List.mem_singleton.1 hthis]
  refine ⟨⟨h.increasing_append hnodup (.refl _), fun a ha => ?_, fun a ha hle => ?_⟩, hless⟩
  · rcases List.mem_append.1 ha with hread | hnew
    · exact le_trans (h.upTo a hread) hless.le
    · exact hpage a hnew
  · rcases le_or_gt (key a) after with hbefore | hafter
    · exact List.mem_append_left _ (h.all a ha hbefore)
    · exact List.mem_append_right _ (mem_keysetPage_of_le hnodup (hlasts a ha) hafter hmem hle)

/-- After a page that is not full, all that lasts has been read. -/
theorem ReadUpTo.short (h : ReadUpTo key lasts after read) (hlasts : ∀ a, lasts a → a ∈ rows)
    (hshort : (keysetPage key limit after rows).length < limit) {a : α} (ha : lasts a) :
    a ∈ read ++ keysetPage key limit after rows := by
  rcases le_or_gt (key a) after with hbefore | hafter
  · exact List.mem_append_left _ (h.all a ha hbefore)
  · exact List.mem_append_right _ (mem_keysetPage_of_short (hlasts a ha) hafter hshort)

end Cursor

end Lib
