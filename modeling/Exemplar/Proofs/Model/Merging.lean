import Mathlib.Data.List.Sort
import Exemplar.Model.Tables
import Exemplar.Proofs.Lookup
import Exemplar.Proofs.Repeats
import Exemplar.Proofs.Text.Decoding

/-!
# Merged tables

Tables are known by their answers: whether a name is elementary, which values an enumeration
has, and the lists of the names they know. With tables taken for the same if they answer alike
(`SameAnswers`), merging is associative, does nothing to tables merged with themselves, and has
missing tables and empty ones as units.

The lists of names follow from the other answers. They hold what is found, each name once, in
the order of bytes; two names that were read have the same bytes only if they are equal, so the
order is strict and there is one such list.
-/

namespace Exemplar

/-! ## Names in the order of their bytes -/

/-- A text that reading gives. Of the texts with the same bytes there is one. -/
def Text.IsRead (t : Text) : Prop := Text.decode t.encode = t

theorem Text.isRead_decode (bytes : List UInt8) : (Text.decode bytes).IsRead :=
  congrArg Text.decode (Text.encode_decode bytes)

theorem Text.IsRead.eq_of_encode {s t : Text} (hs : s.IsRead) (ht : t.IsRead)
    (h : s.encode = t.encode) :
    s = t := by
  rw [← hs, ← ht, h]

theorem Text.le_iff {s t : Text} : Text.le s t = true ↔ s.encode ≤ t.encode := decide_eq_true_iff

variable {l l' : List Text} {n : Text}

theorem pairwise_le_sortedNames (l : List Text) :
    (sortedNames l).Pairwise fun s t => Text.le s t = true := by
  refine (List.pairwise_mergeSort (fun s t u => ?_) (fun s t => ?_) l).sublist
    (eraseDups_sublist _)
  · simp only [Text.le_iff]
    exact List.le_trans
  · simpa only [Bool.or_eq_true, Text.le_iff] using List.le_total s.encode t.encode

/-- **Names are listed in the strict order of their bytes.** -/
theorem pairwise_lt_sortedNames (hl : ∀ n ∈ l, n.IsRead) :
    (sortedNames l).Pairwise fun s t => s.encode < t.encode := by
  have hdistinct : (sortedNames l).Nodup := nodup_eraseDups _
  refine (hdistinct.and (pairwise_le_sortedNames l)).imp_of_mem fun {s t} hs ht h => ?_
  have hread : ∀ u ∈ sortedNames l, u.IsRead := fun u hu => hl u (mem_sortedNames.1 hu)
  by_contra hlt
  exact h.1 ((hread s hs).eq_of_encode (hread t ht)
    (List.le_antisymm (Text.le_iff.1 h.2) (List.not_lt.1 hlt)))

/-- A list in this order is determined by its members. -/
theorem eq_of_pairwise_encode_lt (hl : l.Pairwise fun s t => s.encode < t.encode)
    (hl' : l'.Pairwise fun s t => s.encode < t.encode) (h : ∀ n, n ∈ l ↔ n ∈ l') : l = l' := by
  have : Std.Irrefl fun s t : Text => s.encode < t.encode := ⟨fun s => List.lt_irrefl s.encode⟩
  have : Std.Antisymm fun s t : Text => s.encode < t.encode :=
    ⟨fun _ _ hst hts => absurd hts (List.lt_asymm hst)⟩
  exact hl.eq_of_mem_iff hl' h

namespace Tables.Optional

variable {a b c : Optional}

/-! ## What is found and what is listed -/

theorem mem_elementaryNames : n ∈ a.elementaryNames ↔ a.isElementary n = true := by
  cases a with
  | none => exact ⟨fun h => absurd h List.not_mem_nil, Bool.noConfusion⟩
  | some t => exact mem_sortedNames.trans List.contains_iff_mem.symm

theorem mem_enumNames : n ∈ a.enumNames ↔ ∃ values, a.enumValues? n = some values := by
  cases a with
  | none => exact ⟨fun h => absurd h List.not_mem_nil, fun ⟨_, h⟩ => nomatch h⟩
  | some t =>
    refine mem_sortedNames.trans ⟨fun h => ?_, fun ⟨_, h⟩ => mem_of_lookup h⟩
    obtain ⟨e, he, rfl⟩ := List.mem_map.1 h
    exact Option.isSome_iff_exists.1 (List.lookup_isSome_iff.2 ⟨e, he, beq_self_eq_true e.1⟩)

/-- Every name of the tables was read, as all names are that are given by bytes
(`areRead_ofBytes`). -/
structure AreRead (t : Optional) : Prop where
  /-- The elementary names. -/
  elementary : ∀ n, t.isElementary n = true → n.IsRead
  /-- The names of enumerations. -/
  enums : ∀ n values, t.enumValues? n = some values → n.IsRead

/-- Tables with names that are given by their bytes. -/
def ofBytes (elementary : List (List UInt8)) (enums : List (List UInt8 × List Text)) :
    Optional :=
  some ⟨elementary.map Text.decode, enums.map fun e => (Text.decode e.1, e.2)⟩

/-- **Whatever the bytes of the names are**, the names were read. -/
theorem areRead_ofBytes (elementary : List (List UInt8))
    (enums : List (List UInt8 × List Text)) :
    AreRead (ofBytes elementary enums) where
  elementary n hn := by
    obtain ⟨bytes, -, rfl⟩ := List.mem_map.1 (List.contains_iff_mem.1 hn)
    exact Text.isRead_decode bytes
  enums n values hn := by
    obtain ⟨_, he, rfl⟩ := List.mem_map.1 (mem_of_lookup hn)
    obtain ⟨e, -, rfl⟩ := List.mem_map.1 he
    exact Text.isRead_decode e.1

/-- **The listing of the names of tables**: the names that are found, in the strict order of
their bytes. -/
structure Listing (t : Optional) : Prop where
  /-- Elementary names are in order. -/
  elementary_lt : t.elementaryNames.Pairwise fun m n => m.encode < n.encode
  /-- The elementary names are those found to be so. -/
  mem_elementary : ∀ n, n ∈ t.elementaryNames ↔ t.isElementary n = true
  /-- The names of enumerations are in order. -/
  enum_lt : t.enumNames.Pairwise fun m n => m.encode < n.encode
  /-- The names of enumerations are those under which values are found. -/
  mem_enum : ∀ n, n ∈ t.enumNames ↔ ∃ values, t.enumValues? n = some values

theorem AreRead.listing (ha : a.AreRead) : a.Listing where
  elementary_lt := by
    cases a with
    | none => exact .nil
    | some t => exact pairwise_lt_sortedNames fun n hn =>
      ha.elementary n (List.contains_iff_mem.2 hn)
  mem_elementary _ := mem_elementaryNames
  enum_lt := by
    cases a with
    | none => exact .nil
    | some t =>
      refine pairwise_lt_sortedNames fun n hn => ?_
      obtain ⟨values, hvalues⟩ := (mem_enumNames (a := some t)).1 (mem_sortedNames.2 hn)
      exact ha.enums n values hvalues
  mem_enum _ := mem_enumNames

/-- Tables that give the same answers. -/
structure SameAnswers (t u : Optional) : Prop where
  /-- The same names are elementary. -/
  isElementary : ∀ n, t.isElementary n = u.isElementary n
  /-- Each enumeration has the same values. -/
  enumValues : ∀ n, t.enumValues? n = u.enumValues? n
  /-- The same elementary names are listed. -/
  elementaryNames : t.elementaryNames = u.elementaryNames
  /-- The same enumerations are listed. -/
  enumNames : t.enumNames = u.enumNames

/-- **The lists follow from the other answers.** -/
theorem Listing.sameAnswers (ha : a.Listing) (hb : b.Listing)
    (helementary : ∀ n, a.isElementary n = b.isElementary n)
    (henum : ∀ n, a.enumValues? n = b.enumValues? n) : SameAnswers a b where
  isElementary := helementary
  enumValues := henum
  elementaryNames := eq_of_pairwise_encode_lt ha.elementary_lt hb.elementary_lt fun n => by
    rw [ha.mem_elementary, hb.mem_elementary, helementary]
  enumNames := eq_of_pairwise_encode_lt ha.enum_lt hb.enum_lt fun n => by
    rw [ha.mem_enum, hb.mem_enum, henum]

/-! ## Merging -/

theorem isElementary_merge (a b : Optional) (n : Text) :
    isElementary (merge a b) n = (a.isElementary n || b.isElementary n) := by
  rw [Bool.eq_iff_iff, Bool.or_eq_true, ← mem_elementaryNames,
    ← mem_elementaryNames, ← mem_elementaryNames]
  exact mem_sortedNames.trans List.mem_append

theorem enumValues?_merge (a b : Optional) (n : Text) :
    enumValues? (merge a b) n = (a.enumValues? n).or (b.enumValues? n) := by
  refine List.lookup_append.trans ?_
  cases a <;> cases b <;> rfl

theorem AreRead.merge (ha : a.AreRead) (hb : b.AreRead) : AreRead (merge a b) where
  elementary n hn := by
    rw [isElementary_merge, Bool.or_eq_true] at hn
    exact hn.elim (ha.elementary n) (hb.elementary n)
  enums n values hn := by
    rw [enumValues?_merge, Option.or_eq_some_iff] at hn
    exact hn.elim (ha.enums n values) fun h => hb.enums n values h.2

/-- Whether tables resolve nothing. -/
def IsBlank (t : Optional) : Prop := ∀ n, t.isElementary n = false ∧ t.enumValues? n = none

theorem isBlank_none : IsBlank none := fun _ => ⟨rfl, rfl⟩

theorem isBlank_empty : IsBlank Tables.empty := fun _ => ⟨rfl, rfl⟩

theorem IsBlank.areRead (ha : a.IsBlank) : a.AreRead where
  elementary n hn := absurd ((ha n).1.symm.trans hn) Bool.false_ne_true
  enums n _ hn := nomatch (ha n).2.symm.trans hn

theorem IsBlank.merge_left (hb : b.IsBlank) (ha : a.AreRead) : SameAnswers (merge b a) a := by
  refine (hb.areRead.merge ha).listing.sameAnswers ha.listing (fun n => ?_) fun n => ?_
  · rw [isElementary_merge, (hb n).1, Bool.false_or]
  · rw [enumValues?_merge, (hb n).2, Option.none_or]

theorem IsBlank.merge_right (hb : b.IsBlank) (ha : a.AreRead) : SameAnswers (merge a b) a := by
  refine (ha.merge hb.areRead).listing.sameAnswers ha.listing (fun n => ?_) fun n => ?_
  · rw [isElementary_merge, (hb n).1, Bool.or_false]
  · rw [enumValues?_merge, (hb n).2, Option.or_none]

theorem AreRead.merge_assoc (ha : a.AreRead) (hb : b.AreRead) (hc : c.AreRead) :
    SameAnswers (Optional.merge (Optional.merge a b) c)
      (Optional.merge a (Optional.merge b c)) := by
  refine ((ha.merge hb).merge hc).listing.sameAnswers (ha.merge (hb.merge hc)).listing
    (fun n => ?_) fun n => ?_
  · simp only [isElementary_merge, Bool.or_assoc]
  · simp only [enumValues?_merge, Option.or_assoc]

theorem AreRead.merge_self (ha : a.AreRead) : SameAnswers (Optional.merge a a) a := by
  refine (ha.merge ha).listing.sameAnswers ha.listing (fun n => ?_) fun n => ?_
  · rw [isElementary_merge, Bool.or_self]
  · rw [enumValues?_merge, Option.or_self]

/-- **The laws of merging**, for three tables. -/
structure MergeLaws (a b c : Optional) : Prop where
  /-- It does not matter which two are merged first. -/
  assoc : SameAnswers (merge (merge a b) c) (merge a (merge b c))
  /-- Missing tables on the right change nothing. -/
  merge_none : SameAnswers (merge a none) a
  /-- Nor do they on the left. -/
  none_merge : SameAnswers (merge none a) a
  /-- Nor do empty tables. -/
  merge_empty : SameAnswers (merge a Tables.empty) a
  /-- Nor do the same tables. -/
  self : SameAnswers (merge a a) a
  /-- An enumeration of the left tables has the values it has there. -/
  enumValues_of_left : ∀ n values, a.enumValues? n = some values →
    enumValues? (merge a b) n = some values
  /-- Any other has those it has in the right ones, if it has any. -/
  enumValues_of_right : ∀ n, a.enumValues? n = none → enumValues? (merge a b) n = b.enumValues? n
  /-- A name is elementary if it is on one of the sides. -/
  isElementary : ∀ n, Optional.isElementary (merge a b) n
    = (a.isElementary n || b.isElementary n)
  /-- The names of tables, and so those of merged ones, are listed in order. -/
  listing : a.Listing ∧ Listing (merge a b)

/-- **Merging is a monoid in which the left tables win**: tables-file, configuration and
discovered enumerations can be merged in any grouping, with any of them missing. -/
theorem mergeLaws_of_read (ha : a.AreRead) (hb : b.AreRead) (hc : c.AreRead) :
    MergeLaws a b c where
  assoc := ha.merge_assoc hb hc
  merge_none := isBlank_none.merge_right ha
  none_merge := isBlank_none.merge_left ha
  merge_empty := isBlank_empty.merge_right ha
  self := ha.merge_self
  enumValues_of_left n values h := by
    rw [enumValues?_merge, h, Option.some_or]
  enumValues_of_right n h := by
    rw [enumValues?_merge, h, Option.none_or]
  isElementary := isElementary_merge a b
  listing := ⟨ha.listing, (ha.merge hb).listing⟩

/-- Tables with a name that stands twice, one of a stray byte, and an enumeration without
values. -/
def coins : Optional := ofBytes [[0x4D], [0x43], [0xC3], [0x4D]] [([0x53], [])]

/-- Tables with two enumerations. -/
def shapes : Optional :=
  ofBytes [[0x43]] [([0x53], [Text.ofString "S.round"]), ([0x45], [Text.ofString "E.one"])]

/-- The enumeration without values wins over the one with values. -/
theorem mergeLaws_coins : coins.AreRead ∧ shapes.AreRead ∧ AreRead none ∧
    MergeLaws coins shapes none ∧
    enumValues? (merge coins shapes) (Text.ofString "S") = some [] := by
  have hcoins : coins.AreRead := areRead_ofBytes _ _
  have hshapes : shapes.AreRead := areRead_ofBytes _ _
  have hlaws : MergeLaws coins shapes none :=
    mergeLaws_of_read hcoins hshapes isBlank_none.areRead
  exact ⟨hcoins, hshapes, isBlank_none.areRead, hlaws, hlaws.enumValues_of_left _ _ (by decide)⟩

end Tables.Optional

end Exemplar
