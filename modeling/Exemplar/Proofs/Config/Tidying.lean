import Exemplar.Config.Load
import Exemplar.Proofs.Config.Settings
import Exemplar.Proofs.Text.Lowering

/-!
# Trees of settings stay tidy

What is read from a configuration file is a tidy tree, whatever the file holds: its names are
put into lower case, of several that become one only the last is kept, and the leaves are put
back under names without dots. Laying one tidy tree over another leaves a tidy one.

A tree is tidy if its names stand for themselves, each is there once in its table, and no table
is empty. Names stand for themselves if lower case leaves them as they are and they have no dot,
which would make two names of them in a key.

The way from a file to a tree is in two halves. Putting data into lower case gives data that
lower case leaves as it is (`lowered_lowered`), so their leaves have keys in lower case
(`leaf_of_mem_leavesAt`). And a tree that is put together from such leaves is tidy, since each
of them is put under names that are parts of its key, and putting a leaf into a tidy tree leaves
a tidy one (`Tidy.insert`).
-/

namespace Exemplar.Settings

variable {es sub rest more upper lower : Settings} {name key start : String} {d e : Data}
  {path : List String}

/-! ## Names in lower case

A key is cut at its dots into names. If the key is in lower case, so are the names, and no dot
is left in them. -/

/-- A text that lower case leaves as it is. -/
def IsLower (s : String) : Prop := ∀ c ∈ s.toList, Text.lowerChar c = c

/-- The dot between names is no letter. -/
theorem isLower_dot : IsLower "." := fun c hc => by
  rw [List.mem_singleton.1 hc]
  rfl

/-- The empty text is in lower case. -/
theorem isLower_empty : IsLower "" := List.forall_mem_nil _

/-- A text in lower case is left as it is, character by character. -/
theorem isLower_lowerString (s : String) : IsLower (Text.lowerString s) := by
  intro c hc
  rw [Text.lowerString, String.toList_ofList] at hc
  obtain ⟨c', -, rfl⟩ := List.mem_map.1 hc
  exact Text.lowerChar_lowerChar c'

/-- Putting such a text into lower case changes nothing. -/
theorem IsLower.lowerString (h : IsLower name) : Text.lowerString name = name := by
  rw [Text.lowerString, List.map_congr_left h, List.map_id', String.ofList_toList]

/-- Two such texts make one. -/
theorem IsLower.append {s t : String} (hs : IsLower s) (ht : IsLower t) : IsLower (s ++ t) := by
  intro c hc
  rw [String.toList_append, List.mem_append] at hc
  exact hc.elim (hs c) (ht c)

/-- There is at least one part, if only an empty one. -/
theorem splitAt_ne_nil (mark : Char) (s : List Char) : Text.splitAt mark s ≠ [] := by
  cases s with
  | nil => exact List.cons_ne_nil _ _
  | cons c rest =>
    rw [Text.splitAt]
    split
    · exact List.cons_ne_nil _ _
    · split <;> exact List.cons_ne_nil _ _

/-- The parts between marks have no mark, and nothing that is not in the text. -/
theorem mem_of_mem_splitAt {mark : Char} {s p : List Char} (h : p ∈ Text.splitAt mark s) :
    ∀ c ∈ p, c ≠ mark ∧ c ∈ s := by
  induction s generalizing p with
  | nil =>
    rw [Text.splitAt, List.mem_singleton] at h
    subst h
    exact List.forall_mem_nil _
  | cons a rest ih =>
    have hmore : ∀ {q : List Char}, q ∈ Text.splitAt mark rest →
        ∀ c ∈ q, c ≠ mark ∧ c ∈ a :: rest :=
      fun hq c hc => ⟨(ih hq c hc).1, List.mem_cons_of_mem _ (ih hq c hc).2⟩
    rw [Text.splitAt] at h
    split at h
    · -- At a mark an empty part is put in front.
      rcases List.mem_cons.1 h with rfl | h
      · exact List.forall_mem_nil _
      · exact hmore h
    · rename_i ha
      -- Any other character is put in front of the first part.
      have hmark : a ≠ mark := fun heq => ha (beq_iff_eq.2 heq)
      split at h
      · exact absurd ‹_› (splitAt_ne_nil mark rest)
      · rename_i q parts hparts
        rcases List.mem_cons.1 h with rfl | h
        · exact List.forall_mem_cons.2
            ⟨⟨hmark, List.mem_cons_self⟩, hmore (hparts ▸ List.mem_cons_self)⟩
        · exact hmore (hparts ▸ List.mem_cons_of_mem _ h)

/-- Every key has a name. -/
theorem keyNames_ne_nil (key : String) : keyNames key ≠ [] := fun h =>
  splitAt_ne_nil '.' key.toList (List.map_eq_nil_iff.1 h)

/-- The names of a key in lower case stand for themselves. -/
theorem isName_of_mem_keyNames (hkey : IsLower key) (h : name ∈ keyNames key) : IsName name := by
  obtain ⟨p, hp, rfl⟩ := List.mem_map.1 h
  rw [IsName, String.toList_ofList]
  exact fun c hc => ⟨(mem_of_mem_splitAt hp c hc).1, hkey c (mem_of_mem_splitAt hp c hc).2⟩

/-! ## Data in lower case

Of the entries whose names become one in lower case only the last is kept. So lowering may leave
fewer entries, and if it changes nothing, then the names differ. -/

/-- Lowering may leave entries out and adds none. -/
theorem length_loweredEntries_le : ∀ es :
    List (String × Data), (loweredEntries es).length ≤ es.length
  | [] => Nat.le_refl _
  | (name, d) :: rest => by
    have ih := length_loweredEntries_le rest
    rw [loweredEntries]
    split
    · exact Nat.le_succ_of_le ih
    · exact Nat.succ_le_succ ih

mutual

/-- **Data in lower case stays as it is.** Behind the first lowering the names are in lower case
and differ from each other, so the second one drops none. The recursion is that of data, with a
theorem for the entries and one for the items. -/
theorem lowered_lowered : ∀ d : Data, lowered (lowered d) = lowered d
  | .record entries => by rw [lowered, lowered, loweredEntries_loweredEntries]
  | .list items => by rw [lowered, lowered, loweredItems_loweredItems]
  | .null | .bool _ | .int _ | .float _ | .moment _ _ | .text _ => rfl

/-- Entries in lower case stay as they are: a name that is not among those behind it is not
among them after lowering. -/
theorem loweredEntries_loweredEntries :
    ∀ es : List (String × Data), loweredEntries (loweredEntries es) = loweredEntries es
  | [] => rfl
  | (name, d) :: rest => by
    have ih := loweredEntries_loweredEntries rest
    rw [loweredEntries]
    split
    · exact ih
    · rename_i hfresh
      rw [loweredEntries, ih, (isLower_lowerString name).lowerString,
        if_neg hfresh, lowered_lowered d]

/-- Items in lower case stay as they are. -/
theorem loweredItems_loweredItems : ∀ items : List Data,
    loweredItems (loweredItems items) = loweredItems items
  | [] => rfl
  | d :: rest =>
    by rw [loweredItems, loweredItems, lowered_lowered d, loweredItems_loweredItems rest]

end

/-- In entries that are in lower case, so are the first and the others. If the first were
dropped, there would be fewer entries than there are. -/
theorem of_loweredEntries_cons (h : loweredEntries ((name, d) :: rest) = (name, d) :: rest) :
    IsLower name ∧ lowered d = d ∧ loweredEntries rest = rest := by
  rw [loweredEntries] at h
  split at h
  · have hlength := length_loweredEntries_le rest
    rw [h] at hlength
    exact absurd hlength (Nat.not_succ_le_self _)
  · obtain ⟨hhead, hrest⟩ := List.cons.inj h
    obtain ⟨hname, hd⟩ := Prod.mk.inj hhead
    exact ⟨hname ▸ isLower_lowerString name, hd, hrest⟩

mutual

/-- The settings of data in lower case have their keys in lower case and hold leaves. The key of
a leaf is made of the names on the way to it, with dots between them. What is no table is a leaf
and has nothing below it. -/
theorem leaf_of_mem_leavesAt {start key : String} {e : Data} :
    ∀ d : Data, lowered d = d → IsLower start →
    (key, e) ∈ leavesAt start d → IsLower key ∧ IsLeaf e
  | .record entries, hd, hstart, h =>
    leaf_of_mem_leavesIn entries (Data.record.inj hd) (hstart.append isLower_dot) h
  | .null, hd, hstart, h | .bool _, hd, hstart, h |
      .int _, hd, hstart, h | .float _, hd, hstart, h
  | .moment _ _, hd, hstart, h | .text _, hd, hstart, h | .list _, hd, hstart, h => by
    obtain ⟨rfl, rfl⟩ := Prod.mk.inj (List.mem_singleton.1 h)
    exact ⟨hstart, nofun, hd⟩

/-- The same for the entries of a table. -/
theorem leaf_of_mem_leavesIn {start key : String} {e : Data} : ∀ es : List (String × Data),
    loweredEntries es = es → IsLower start →
    (key, e) ∈ leavesIn start es → IsLower key ∧ IsLeaf e
  | (name, d) :: rest, hes, hstart, h => by
    obtain ⟨hname, hd, hrest⟩ := of_loweredEntries_cons hes
    rw [leavesIn, List.mem_append] at h
    exact h.elim (leaf_of_mem_leavesAt d hd (hstart.append hname))
      (leaf_of_mem_leavesIn rest hrest hstart)

end

/-! ## Putting entries into tidy trees

A tidy tree is built entry by entry. Setting an entry replaces the one of that name, or puts it
at the end, so the names stay different. -/

/-- What may stand in a tidy tree: a setting, or a table with something in it. -/
def TidyEntry (d : Data) : Prop := IsLeaf d ∨ ∃ sub, d = .record sub ∧ sub ≠ [] ∧ Tidy sub

/-- Both sorts of entries may be put in front, if the name is new. -/
theorem Tidy.cons (hname : IsName name) (hfresh : name ∉ rest.map (·.1)) (hd : TidyEntry d)
    (hrest : Tidy rest) : Tidy ((name, d) :: rest) := by
  rcases hd with hd | ⟨sub, rfl, hne, hsub⟩
  · exact .leaf hname hfresh hd hrest
  · exact .table hname hfresh hne hsub hrest

/-- What a name stands for in a tidy tree is such an entry. -/
theorem Tidy.entry (h : Tidy es) (hd : es.lookup name = some d) : TidyEntry d := by
  induction h with
  | nil => cases hd
  | leaf _ _ hleaf _ ih =>
    rw [List.lookup_cons] at hd
    split at hd
    · exact .inl (Option.some.inj hd ▸ hleaf)
    · exact ih hd
  | @table _ sub _ _ _ hne hsub _ _ ih =>
    rw [List.lookup_cons] at hd
    split at hd
    · exact .inr ⟨sub, (Option.some.inj hd).symm, hne, hsub⟩
    · exact ih hd

/-- Setting an entry adds no name but its own. -/
theorem mem_names_set {other : String} (h : other ∈ (es.set name d).map (·.1)) :
    other = name ∨ other ∈ es.map (·.1) := by
  by_contra hnot
  rw [not_or] at hnot
  obtain ⟨e, he, rfl⟩ := List.mem_map.1 h
  have hnone : (es.set name d).lookup e.1 = none := by
    rw [lookup_set_of_ne es hnot.1, lookup_of_notMem hnot.2]
  rw [List.lookup_eq_none_iff] at hnone
  exact absurd (hnone e he) (by simp)

/-- **A tidy tree with an entry set is tidy.** -/
theorem Tidy.set (h : Tidy es) (hname : IsName name) (hd : TidyEntry d) :
    Tidy (es.set name d) := by
  -- An entry in front is replaced if it has the name, and kept otherwise.
  have hkeep : ∀ {other : String} {e : Data} {rest : Settings}, IsName other →
      other ∉ rest.map (·.1) →
      TidyEntry e → Tidy rest → Tidy (rest.set name d) →
          Tidy (Settings.set name d ((other, e) :: rest)) := by
    intro other e rest hother hfresh he hrest ih
    rw [Settings.set]
    split
    · rename_i heq
      exact hrest.cons hname (beq_iff_eq.1 heq ▸ hfresh) hd
    · rename_i hne
      refine ih.cons hother (fun hmem => ?_) he
      exact (mem_names_set hmem).elim (fun heq => hne (beq_iff_eq.2 heq)) hfresh
  induction h with
  | nil => exact Tidy.cons hname List.not_mem_nil hd .nil
  | leaf hother hfresh he hrest ih => exact hkeep hother hfresh (.inl he) hrest ih
  | table hother hfresh hne hsub hrest _ ih =>
    exact hkeep hother hfresh (.inr ⟨_, rfl, hne, hsub⟩) hrest ih

/-- The table under a name is tidy. Where there is none, it counts as empty. -/
theorem Tidy.tableAt (h : Tidy es) (name : String) : Tidy (es.tableAt name) := by
  unfold Settings.tableAt
  split
  · exact h.of_lookup ‹_›
  · exact .nil

/-- **A tidy tree with a setting put under the names of a key is tidy.** The tables on the way
are tidy and are put back with one leaf more, so none of them is empty. -/
theorem Tidy.insert (h : Tidy es) (hpath : ∀ n ∈ path, IsName n) (hd : IsLeaf d) :
    Tidy (Settings.insert d path es) := by
  induction path generalizing es with
  | nil => exact h
  | cons name path ih =>
    obtain ⟨hname, hrest⟩ := List.forall_mem_cons.1 hpath
    cases path with
    | nil => exact h.set hname (.inl hd)
    | cons next rest =>
      exact h.set hname
        (.inr ⟨_, rfl, insert_ne_nil (List.cons_ne_nil _ _), ih (h.tableAt name) hrest⟩)

/-- **Settings with keys in lower case make a tidy tree.** They are put in one after the other,
starting with the empty tree. -/
theorem tidy_ofLeaves {l : List (String × Data)} (h : ∀ e ∈ l, IsLower e.1 ∧ IsLeaf e.2) :
    Tidy (ofLeaves l) := by
  have hfold : ∀ {es : Settings}, Tidy es →
      Tidy (l.foldl (fun es e => Settings.insert e.2 (keyNames e.1) es) es) := by
    induction l with
    | nil => exact id
    | cons e l ih =>
      obtain ⟨⟨hkey, hleaf⟩, hrest⟩ := List.forall_mem_cons.1 h
      exact fun hes => ih hrest (hes.insert (fun _ hn => isName_of_mem_keyNames hkey hn) hleaf)
  exact hfold .nil

/-- **What is read from a configuration file is tidy.** Reading lists the leaves of the lowered
file and puts them back. -/
theorem tidy_of_read {disk : Disk} {cwd file : String}
    (h : ConfigFile.read disk cwd file = .ok es) :
    Tidy es := by
  rw [ConfigFile.read] at h
  split at h
  · cases h
  · split at h
    · rename_i entries _
      cases h
      exact tidy_ofLeaves fun e he => leaf_of_mem_leavesIn (loweredEntries entries)
        (loweredEntries_loweredEntries entries) isLower_empty he
    · cases h

/-! ## Laying tidy trees over each other

A leaf and anything else: the upper one is kept, unless a leaf would hide a table. Two tables
are laid over each other entry by entry. -/

/-- A leaf over what may stand in a tidy tree gives something that may. Over a leaf it stays,
and a table below it is kept instead. -/
theorem overlay_of_leaf (hd : IsLeaf d) (he : TidyEntry e) : TidyEntry (overlay d e) := by
  have hkeep : ∀ {e : Data}, IsLeaf e → overlay d e = d := by
    intro e he
    cases e with
    | record sub => exact absurd rfl (he.not_record sub)
    | _ => cases d <;> rfl
  rcases he with he | ⟨sub, rfl, hne, hsub⟩
  · rw [hkeep he]
    exact .inl hd
  · have htable : overlay d (.record sub) = .record sub := by
      cases d with
      | record upper => exact absurd rfl (hd.not_record upper)
      | _ => rfl
    rw [htable]
    exact .inr ⟨sub, rfl, hne, hsub⟩

/-- No entry is lost when others are laid over them. -/
theorem overlayEntries_ne_nil (h : lower ≠ []) : overlayEntries upper lower ≠ [] := by
  induction upper generalizing lower with
  | nil => exact h
  | cons e upper ih =>
    obtain ⟨name, d⟩ := e
    rw [overlayEntries]
    refine ih ?_
    split <;> exact set_eq_setKey name _ lower ▸ setKey_ne_nil _ _ _

/-- **A tidy tree over a tidy tree is tidy.** The induction is on the upper tree, whose entries
are laid over the lower one by one. Where both have a table, the hypothesis about the upper
table says that the two make a tidy one. -/
theorem Tidy.overlay (hupper : Tidy upper) (hlower : Tidy lower) :
    Tidy (overlayEntries upper lower) := by
  -- one entry more is laid over, and it is tidy if what is laid over each entry is
  have hstep : ∀ {name : String} {d : Data} {lower : Settings}, IsName name → TidyEntry d →
      (∀ e, TidyEntry e → TidyEntry (Settings.overlay d e)) → Tidy lower →
      Tidy (overlayEntries [(name, d)] lower) := by
    intro name d lower hname hd hover hlower
    rw [overlayEntries, overlayEntries]
    split
    · exact hlower.set hname hd
    · exact hlower.set hname (hover _ (hlower.entry ‹_›))
  induction hupper generalizing lower with
  | nil => exact hlower
  | leaf hname _ hd _ ih =>
    rw [overlayEntries]
    exact ih (hstep hname (.inl hd) (fun _ => overlay_of_leaf hd) hlower)
  | @table name sub _ hname _ hne hsub _ ihsub ih =>
    rw [overlayEntries]
    have htable : TidyEntry (.record sub) := .inr ⟨sub, rfl, hne, hsub⟩
    refine ih (hstep hname htable (fun e he => ?_) hlower)
    rcases he with he | ⟨inner, rfl, hinner, htidy⟩
    · cases e with
      | record inner => exact absurd rfl (he.not_record inner)
      | _ => exact htable
    · exact .inr ⟨_, rfl, overlayEntries_ne_nil hinner, ihsub htidy⟩

end Exemplar.Settings
