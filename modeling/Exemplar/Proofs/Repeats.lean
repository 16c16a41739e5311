import Mathlib.Data.List.Nodup

/-!
# Lists without their repetitions

Leaving out what has stood before keeps the first place of every item. What is kept stands in
the order of those places, and so each item once.

The names of the placeholders of a template are listed in this way. The order of a filtered list
is that of the list it was filtered from, and this is said for partial maps, of which a filter
is one.
-/

namespace Exemplar

variable {α β : Type} [BEq α] [LawfulBEq α] [BEq β] [LawfulBEq β]

omit [LawfulBEq α] in
/-- Items are left out by filtering what follows a kept one, so induction is on the filtered
rest. -/
theorem eraseDups_induction {motive : List α → Prop} (nil : motive [])
    (cons : ∀ x l, motive (l.filter fun y => !y == x) → motive (x :: l)) (l : List α) :
    motive l := by
  induction hn : l.length using Nat.strongRecOn generalizing l with
  | ind n ih =>
    cases l with
    | nil => exact nil
    | cons x l =>
      refine cons x l (ih _ ?_ _ rfl)
      rw [← hn]
      exact Nat.lt_succ_of_le (List.length_filter_le _ _)

omit [LawfulBEq α] in
/-- What is kept is taken from the list in its order. -/
theorem eraseDups_sublist (l : List α) : l.eraseDups.Sublist l := by
  induction l using eraseDups_induction with
  | nil => exact .slnil
  | cons x l ih =>
    rw [List.eraseDups_cons]
    exact (ih.trans List.filter_sublist).cons_cons x

/-- **First places are kept in order by a partial map**, for items that come from one place
each. An item of the new list stands before another one if the items they come from do. Until
the first of the two is met, both lists go on; an item that is left out, or becomes something
else, moves both by the same. -/
theorem idxOf_lt_of_filterMap {f : α → Option β} {a b : α} {x y : β}
    (ha : ∀ c, f c = some x ↔ c = a)
    (hb : ∀ c, f c = some y ↔ c = b) {l : List α}
    (h : (l.filterMap f).idxOf x < (l.filterMap f).idxOf y) :
    l.idxOf a < l.idxOf b := by
  induction l with
  | nil => exact absurd h (Nat.lt_irrefl _)
  | cons c l ih =>
    by_cases hca : c = a
    · subst hca
      have hfc := (ha c).2 rfl
      rw [List.filterMap_cons_some hfc, List.idxOf_cons_self] at h
      have hcb : c ≠ b := by
        rintro rfl
        obtain rfl : x = y := Option.some.inj (hfc.symm.trans ((hb c).2 rfl))
        exact absurd h (by rw [List.idxOf_cons_self]; exact Nat.lt_irrefl _)
      rw [List.idxOf_cons_self, List.idxOf_cons_ne _ hcb]
      exact Nat.succ_pos _
    · have hcb : c ≠ b := by
        rintro rfl
        rw [List.filterMap_cons_some ((hb c).2 rfl), List.idxOf_cons_self] at h
        exact Nat.not_lt_zero _ h
      rw [List.idxOf_cons_ne _ hca, List.idxOf_cons_ne _ hcb]
      refine Nat.succ_lt_succ (ih ?_)
      cases hfc : f c with
      | none => rwa [List.filterMap_cons_none hfc] at h
      | some z =>
        have hzx : z ≠ x := fun hz => hca ((ha c).1 (hz ▸ hfc))
        have hzy : z ≠ y := fun hz => hcb ((hb c).1 (hz ▸ hfc))
        rw [List.filterMap_cons_some hfc, List.idxOf_cons_ne _ hzx, List.idxOf_cons_ne _ hzy]
          at h
        exact Nat.lt_of_succ_lt_succ h

/-- **What is kept stands in the order of first places.** The first item comes before all
others. The others come from the list without it, in which they stand in the order in which they
stand in the whole. -/
theorem pairwise_idxOf_eraseDups (l : List α) :
    l.eraseDups.Pairwise fun x y => l.idxOf x < l.idxOf y := by
  induction l using eraseDups_induction with
  | nil => exact .nil
  | cons x l ih =>
    have hne : ∀ y ∈ (l.filter fun y => !y == x).eraseDups, y ≠ x := by
      intro y hy
      simpa using (List.mem_filter.1 (List.mem_eraseDups.1 hy)).2
    have hguard : ∀ {y}, y ≠ x → ∀ c, Option.guard (fun y => !y == x) c = some y ↔ c = y := by
      intro y hy c
      rw [Option.guard_eq_some_iff]
      exact ⟨And.left, fun hc => ⟨hc, by simpa [hc] using hy⟩⟩
    rw [List.eraseDups_cons]
    refine .cons (fun y hy => ?_) (ih.imp_of_mem fun {y z} hy hz hlt => ?_)
    · rw [List.idxOf_cons_self, List.idxOf_cons_ne _ (hne y hy).symm]
      exact Nat.succ_pos _
    · rw [List.idxOf_cons_ne _ (hne y hy).symm, List.idxOf_cons_ne _ (hne z hz).symm]
      rw [← List.filterMap_eq_filter] at hlt
      exact Nat.succ_lt_succ (idxOf_lt_of_filterMap (hguard (hne y hy)) (hguard (hne z hz)) hlt)

/-- So each item is kept once: none stands before itself. -/
theorem nodup_eraseDups (l : List α) : l.eraseDups.Nodup := by
  refine List.Pairwise.imp ?_ (pairwise_idxOf_eraseDups l)
  rintro x _ hlt rfl
  exact Nat.lt_irrefl _ hlt

end Exemplar
