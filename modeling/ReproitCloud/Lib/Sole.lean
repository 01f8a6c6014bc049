import ReproitCloud.Lib.Table

/-!
# Tables of one row

An installation routine fills a table once: it looks whether the row is there, and
inserts it when the table is empty.  `Sole` says that a table has one row and no other.
The lemmas say how the first insertion leads to it, and which statements leave a table
of one row as it is.
-/

namespace Lib

namespace Table

variable {κ ν : Type} {t t' : Table κ ν} {k k' : κ} {v v' : ν}

/-- The table has this row and no other. -/
def Sole (t : Table κ ν) (k : κ) (v : ν) : Prop := t.rows = [(k, v)]

theorem Sole.rows_ne (h : t.Sole k v) : t.rows ≠ [] := by
  rw [h]
  exact List.cons_ne_nil _ _

/-- A table has one sole row. -/
theorem Sole.unique (h : t.Sole k v) (h' : t.Sole k' v') : k = k' ∧ v = v' := by
  have heq : [(k, v)] = [(k', v')] := h.symm.trans h'
  simpa using heq

section Keyed

variable [DecidableEq κ]

theorem Sole.get?_eq (h : t.Sole k v) : t.get? k = some v := by
  rw [get?_eq_some_iff, h]
  exact List.mem_singleton_self _

theorem Sole.has_iff (h : t.Sole k v) : t.has k' = true ↔ k' = k := by
  rw [has_iff_mem_keys, h]
  simp

theorem has_of_empty (h : t.rows = []) (k : κ) : t.has k = false := by
  rw [has, get?, h]
  rfl

theorem sole_append (hempty : t.rows = []) (h : t.has k = false) : (t.append k v h).Sole k v := by
  show t.rows ++ [(k, v)] = [(k, v)]
  rw [hempty, List.nil_append]

/-- The first insertion. -/
theorem sole_of_insert? (hempty : t.rows = []) (h : t.insert? k v = some t') : t'.Sole k v := by
  rw [Sole, rows_insert? h, hempty, List.nil_append]

theorem sole_of_insertIgnore (hempty : t.rows = []) : (t.insertIgnore k v).Sole k v := by
  rw [insertIgnore, dif_pos (has_of_empty hempty k)]
  exact sole_append hempty _

theorem sole_of_upsert {f : ν → ν} (hempty : t.rows = []) : (t.upsert k v f).Sole k v := by
  rw [upsert, dif_pos (has_of_empty hempty k)]
  exact sole_append hempty _

/-- Another insertion of the key changes nothing. -/
theorem Sole.insertIgnore_eq (h : t.Sole k v) : t.insertIgnore k v' = t := by
  rw [insertIgnore, dif_neg (by simp [h.has_iff.2 rfl])]

/-- An upsert that keeps the row changes nothing. -/
theorem Sole.upsert_eq {f : ν → ν} (h : t.Sole k v) (hf : f v = v) : t.upsert k v' f = t := by
  rw [upsert, dif_neg (by simp [h.has_iff.2 rfl])]
  apply ext_rows
  show t.rows.map _ = t.rows
  rw [h]
  simp [hf]

/-- An update of the key is one of the only row. -/
theorem Sole.update_key (h : t.Sole k v) (f : κ → ν → ν) :
    (t.update (fun k' _ => k' = k) f).Sole k (f k v) := by
  show t.rows.map _ = _
  rw [h]
  simp

end Keyed

end Table

end Lib
