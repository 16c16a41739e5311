import Mathlib.Data.List.Nodup

/-!
# Lists of keys and values

A list of pairs is read as a table in which the first entry for a key counts. Where every key
has one entry, what is found is what is there, and an entry for a new key goes to the end.
-/

namespace Exemplar

variable {α β : Type} [BEq α] [LawfulBEq α] {l : List (α × β)} {k : α} {v : β}

/-- Where every key has one entry, an entry is found under its key. -/
theorem lookup_of_mem (hl : (l.map (·.1)).Nodup) (h : (k, v) ∈ l) : l.lookup k = some v := by
  induction l with
  | nil => exact absurd h List.not_mem_nil
  | cons e rest ih =>
    rw [List.map_cons, List.nodup_cons] at hl
    rcases List.mem_cons.1 h with rfl | hmem
    · rw [List.lookup_cons_self]
    · have hne : (k == e.1) = false := beq_eq_false_iff_ne.2 fun heq =>
        hl.1 (heq ▸ List.mem_map_of_mem hmem)
      rw [show e = (e.1, e.2) from rfl, List.lookup_cons, hne]
      exact ih hl.2 hmem

/-- Nothing is found under a key without an entry. -/
theorem lookup_of_notMem (h : k ∉ l.map (·.1)) : l.lookup k = none := by
  rw [List.lookup_eq_none_iff]
  rintro e he
  rw [bne_iff_ne]
  rintro rfl
  exact h (List.mem_map_of_mem he)

/-- What is found under a key has an entry. -/
theorem mem_of_lookup (h : l.lookup k = some v) : k ∈ l.map (·.1) := by
  by_contra hn
  rw [lookup_of_notMem hn] at h
  cases h

/-- An entry behind those of other keys is found. -/
theorem lookup_concat (h : k ∉ l.map (·.1)) : (l ++ [(k, v)]).lookup k = some v := by
  rw [List.lookup_append, lookup_of_notMem h, Option.none_or]
  exact List.lookup_cons_self

/-- The list with the first entry for a key replaced in its place, or with a new one at the
end. -/
def setKey (k : α) (v : β) : List (α × β) → List (α × β)
  | [] => [(k, v)]
  | (k', w) :: rest => if k' == k then (k, v) :: rest else (k', w) :: setKey k v rest

/-- A new key goes to the end. -/
theorem setKey_of_notMem (h : k ∉ l.map (·.1)) : setKey k v l = l ++ [(k, v)] := by
  induction l with
  | nil => rfl
  | cons e rest ih =>
    rw [List.map_cons, List.mem_cons, not_or] at h
    have hne : ¬(e.1 == k) = true := fun heq => h.1 (eq_of_beq heq).symm
    rw [show e = (e.1, e.2) from rfl, setKey, if_neg hne, ih h.2]
    rfl

/-- An entry behind those of other keys is replaced. -/
theorem setKey_concat {w : β} (h : k ∉ l.map (·.1)) :
    setKey k w (l ++ [(k, v)]) = l ++ [(k, w)] := by
  induction l with
  | nil => rw [List.nil_append, setKey, if_pos (beq_self_eq_true k)]; rfl
  | cons e rest ih =>
    rw [List.map_cons, List.mem_cons, not_or] at h
    have hne : ¬(e.1 == k) = true := fun heq => h.1 (eq_of_beq heq).symm
    rw [List.cons_append, show e = (e.1, e.2) from rfl, setKey, if_neg hne, ih h.2]
    rfl

omit [LawfulBEq α] in
theorem setKey_ne_nil (k : α) (v : β) (l : List (α × β)) : setKey k v l ≠ [] := by
  cases l with
  | nil => exact List.cons_ne_nil _ _
  | cons e rest =>
    rw [show e = (e.1, e.2) from rfl, setKey]
    split <;> exact List.cons_ne_nil _ _

end Exemplar
