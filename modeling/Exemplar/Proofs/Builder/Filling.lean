import Exemplar.Builder.Generator
import Exemplar.Proofs.Lookup

/-!
# Filling a template

A template is a sequence of segments: literal text, in which no placeholder opens, and
placeholders. Filling it is one simultaneous substitution (`fill_segments`). What a value
contains plays no part, for the pass goes on behind the placeholder in the template and never
looks at the value.

A name of a placeholder must not contain the closing brace, and neither must a key of the
mapping. Two placeholders then never start at the same place, so the order in which keys are
tried does not matter.

The pass asks at every place of the template whether a placeholder with a value starts there.
Within a literal none does, and neither does one across its end, which takes a look at the first
glyph behind it: a sign at the end of a literal could open a placeholder together with a brace.
Behind a literal there is a placeholder or nothing, and a placeholder starts with the sign.
-/

namespace Exemplar.Template

/-- What opens a placeholder. -/
def opening : Text := Text.ofString "@\x7b"

/-- What closes a placeholder. -/
def closing : Glyph := .char '\x7d'

/-- A placeholder is its name between what opens it and what closes it. -/
theorem placeholder_eq (x : Text) : placeholder x = opening ++ (x ++ [closing]) := by
  rw [placeholder, List.append_assoc]; rfl

/-- A segment of a template. -/
inductive Segment where
  /-- Literal text. -/
  | literal (text : Text)
  /-- A placeholder. -/
  | hole (name : Text)
deriving DecidableEq

/-- A segment as it is written. -/
def Segment.source : Segment → Text
  | .literal text => text
  | .hole name => placeholder name

/-- What a segment is filled with. A placeholder without a value stays as it is. -/
def Segment.filled (mapping : Mapping) : Segment → Text
  | .literal text => text
  | .hole name => (mapping.lookup name).getD (placeholder name)

/-- Whether a placeholder opens in a text. -/
def opens : Text → Bool
  | [] => false
  | g :: rest => opening.isPrefixOf (g :: rest) || opens rest

/-- Whether segments can be told apart: no placeholder opens in a literal or in the name of a
placeholder, no two literals are adjacent, and the name of a placeholder does not close it. -/
def isProper : List Segment → Bool
  | [] => true
  | .hole x :: rest => !x.contains closing && !opens x && isProper rest
  | [.literal s] => !opens s
  | .literal s :: .hole x :: rest => !opens s && isProper (.hole x :: rest)
  | .literal _ :: .literal _ :: _ => false

/-- Whether keys differ and none of them closes a placeholder. -/
def areKeys (keys : List Text) : Bool :=
  decide keys.Nodup && keys.all (fun k => !k.contains closing)

/-! ## One place of the template

The keys are tried one after another, in an order that is not that of the mapping. The first
whose placeholder stands there is taken. -/

variable {m : Mapping} {s u x y v : Text}

/-- Nothing is filled where no placeholder opens. -/
theorem placeholderAt?_eq_none (h : ¬opening <+: s) : placeholderAt? m s = none := by
  rw [placeholderAt?, Option.map_eq_none_iff, List.find?_eq_none]
  intro p _ hp
  refine h (List.IsPrefix.trans ?_ (List.isPrefixOf_iff_prefix.1 hp))
  rw [placeholder_eq]
  exact List.prefix_append _ _

/-- A name that is closed at the beginning of a text is the name that is closed there. -/
theorem eq_of_isPrefix_closed (hx : closing ∉ x) (hy : closing ∉ y)
    (h : x ++ [closing] <+: y ++ [closing] ++ u) : x = y := by
  induction x generalizing y with
  | nil =>
    cases y with
    | nil => rfl
    | cons g y =>
      obtain ⟨hg, -⟩ := List.cons_prefix_cons.1 h
      exact absurd (by rw [hg]; exact .head _) hy
  | cons g x ih =>
    cases y with
    | nil =>
      obtain ⟨hg, -⟩ := List.cons_prefix_cons.1 h
      exact absurd (by rw [hg]; exact .head _) hx
    | cons k y =>
      obtain ⟨rfl, h'⟩ := List.cons_prefix_cons.1 h
      rw [ih (fun hm => hx (.tail _ hm)) (fun hm => hy (.tail _ hm)) h']

/-- At most one placeholder starts at a place. -/
theorem isPrefixOf_placeholder (hx : closing ∉ x) (hy : closing ∉ y) :
    (placeholder x).isPrefixOf (placeholder y ++ u) = true ↔ x = y := by
  rw [List.isPrefixOf_iff_prefix, placeholder_eq, placeholder_eq, List.append_assoc,
    List.prefix_append_right_inj]
  refine ⟨eq_of_isPrefix_closed hx hy, ?_⟩
  rintro rfl
  exact List.prefix_append _ _

/-- **The placeholder at a place is filled with the value of its name**, in whatever order the
keys are tried. -/
theorem placeholderAt?_placeholder {m' : Mapping} (hm : areKeys (m.map Prod.fst) = true)
    (hp : m'.Perm m) (hx : closing ∉ x) :
    placeholderAt? m' (placeholder x ++ u)
      = (m.lookup x).map (fun v => ((placeholder x).length, v)) := by
  rw [areKeys, Bool.and_eq_true, decide_eq_true_eq, List.all_eq_true] at hm
  have hkey :
      ∀ p ∈ m', ((placeholder p.1).isPrefixOf (placeholder x ++ u) = true ↔ p.1 = x) := by
    intro p h
    refine isPrefixOf_placeholder ?_ hx
    simpa using hm.2 p.1 (List.mem_map_of_mem (hp.mem_iff.1 h))
  rw [placeholderAt?]
  cases hf : m'.find? (fun p => (placeholder p.1).isPrefixOf (placeholder x ++ u)) with
  | some p =>
    have hmem := List.mem_of_find?_eq_some hf
    have hfound := List.find?_some hf
    obtain rfl := (hkey p hmem).1 hfound
    rw [lookup_of_mem hm.1 (hp.mem_iff.1 hmem)]; rfl
  | none =>
    have hnone : m.lookup x = none := by
      rw [List.lookup_eq_none_iff]
      intro p hmem
      refine bne_iff_ne.2 fun he => ?_
      exact List.find?_eq_none.1 hf p (hp.mem_iff.2 hmem)
        ((hkey p (hp.mem_iff.2 hmem)).2 he.symm)
    rw [hnone]; rfl

/-! ## The pass

There are three ways to go on: behind a placeholder that was filled, behind a glyph that was
copied, and over the glyphs of a placeholder that were skipped. -/

/-- What is to be skipped is skipped. -/
theorem fillFrom_skip (m : Mapping) (s u : Text) :
    fillFrom m s.length (s ++ u) = fillFrom m 0 u := by
  induction s with
  | nil => rfl
  | cons g s ih => exact ih

/-- The pass goes on behind a placeholder it has filled. -/
theorem fillFrom_placeholder (h : placeholderAt? m (placeholder x ++ u)
    = some ((placeholder x).length, v)) :
    fillFrom m 0 (placeholder x ++ u) = v ++ fillFrom m 0 u := by
  obtain ⟨g, s, hs⟩ : ∃ g s, placeholder x = g :: s := ⟨_, _, rfl⟩
  rw [hs] at h ⊢
  rw [List.cons_append] at h ⊢
  rw [fillFrom, h]
  exact congrArg (v ++ ·) (fillFrom_skip m s u)

/-- The pass copies what no placeholder opens in. -/
theorem fillFrom_copy (h : ∀ r, r <:+ s → r ≠ [] → placeholderAt? m (r ++ u) = none) :
    fillFrom m 0 (s ++ u) = s ++ fillFrom m 0 u := by
  induction s with
  | nil => rfl
  | cons g s ih =>
    have hg := h (g :: s) List.suffix_rfl (List.cons_ne_nil _ _)
    rw [List.cons_append] at hg ⊢
    rw [fillFrom, hg]
    exact congrArg (g :: ·) (ih fun r hr => h r (hr.trans (List.suffix_cons _ _)))

/-- Where no placeholder opens in a text, none opens in what is left of it. -/
theorem not_opening_of_suffix {r : Text} (hs : opens s = false) (hr : r <:+ s) (hne : r ≠ []) :
    ¬opening <+: r := by
  induction s with
  | nil => exact absurd (List.suffix_nil.1 hr) hne
  | cons g s ih =>
    rw [opens, Bool.or_eq_false_iff] at hs
    rcases List.suffix_cons_iff.1 hr with rfl | hr
    · exact fun h => by rw [List.isPrefixOf_iff_prefix.2 h] at hs; cases hs.1
    · exact ih hs.2 hr

/-- Nor does one open across its end, unless it ends in a sign and a brace follows. -/
theorem not_opening_of_append (hs : opens s = false)
    (hu : s.getLast? ≠ some (.char '@') ∨ u.head? ≠ some (.char '\x7b'))
    {r : Text} (hr : r <:+ s)
    (hne : r ≠ []) : ¬opening <+: r ++ u := by
  intro h
  match r, hne with
  | [g], _ =>
    obtain ⟨hg, h'⟩ := List.cons_prefix_cons.1
      (show [Glyph.char '@', .char '\x7b'] <+: g :: u from h)
    rcases hu with hlast | hu
    · obtain ⟨front, rfl⟩ := hr
      exact hlast (by rw [List.getLast?_concat, ← hg])
    · cases u with
      | nil => exact absurd (List.prefix_nil.1 h') (List.cons_ne_nil _ _)
      | cons k u => exact hu (by rw [← (List.cons_prefix_cons.1 h').1]; rfl)
  | g :: k :: r, _ =>
    refine not_opening_of_suffix hs hr (List.cons_ne_nil _ _) ?_
    obtain ⟨rfl, h'⟩ := List.cons_prefix_cons.1
      (show [Glyph.char '@', .char '\x7b'] <+: g :: (k :: r ++ u) from h)
    obtain ⟨rfl, -⟩ := List.cons_prefix_cons.1 h'
    exact List.prefix_append opening r

/-- What closes a placeholder opens none. -/
theorem opens_concat_closing (hx : opens x = false) : opens (x ++ [closing]) = false := by
  induction x with
  | nil => rfl
  | cons g x ih =>
    rw [opens, Bool.or_eq_false_iff] at hx
    rw [List.cons_append, opens, Bool.or_eq_false_iff]
    refine ⟨?_, ih hx.2⟩
    cases x with
    | nil => exact Bool.eq_false_iff.2 fun h => absurd (List.isPrefixOf_iff_prefix.1 h) (by
        rintro ⟨u, hu⟩
        cases hu)
    | cons k x => exact hx.1

/-- Behind the segments ahead no brace follows that would open a placeholder. -/
theorem head?_source {rest : List Segment} (h : rest = [] ∨ ∃ x more, rest = .hole x :: more) :
    (rest.flatMap Segment.source).head? ≠ some (.char '\x7b') := by
  rcases h with rfl | ⟨x, more, rfl⟩
  · nofun
  · rw [List.flatMap_cons, Segment.source, placeholder_eq]
    exact fun h => absurd (Option.some.inj h) (by decide)

/-- A placeholder without a value is copied. -/
theorem fillFrom_unfilled (hx : opens x = false)
    (h : placeholderAt? m (placeholder x ++ u) = none) :
    fillFrom m 0 (placeholder x ++ u) = placeholder x ++ fillFrom m 0 u := by
  refine fillFrom_copy fun r hr hne => ?_
  rw [placeholder_eq] at hr h
  rcases List.suffix_cons_iff.1
      (show r <:+ .char '@' :: (.char '\x7b' :: (x ++ [closing])) from hr) with
    rfl | hr
  · exact h
  -- behind its first glyph nothing opens in the placeholder
  · have hrest : opens (.char '\x7b' :: (x ++ [closing])) = false :=
      Bool.or_eq_false_iff.2 ⟨rfl, opens_concat_closing hx⟩
    refine placeholderAt?_eq_none (not_opening_of_append hrest (.inl ?_) hr hne)
    rw [← List.cons_append, List.getLast?_concat]
    decide

/-- **Filling is one simultaneous substitution**: every literal stays, and every placeholder is
replaced by the value of its name, if there is one.

The induction is on the segments, by the cases in which they are proper. -/
theorem fill_segments {segments : List Segment} (hs : isProper segments = true)
    (hm : areKeys (m.map Prod.fst) = true) :
    fill (segments.flatMap Segment.source) m = segments.flatMap (Segment.filled m) := by
  have hperm := List.mergeSort_perm m (fun p q => Text.le p.1 q.1)
  rw [fill]
  generalize m.mergeSort (fun p q => Text.le p.1 q.1) = m' at hperm
  -- A literal is copied, whatever placeholder stands behind it.
  have hliteral : ∀ {s : Text} {rest : List Segment}, opens s = false →
      (rest = [] ∨ ∃ x more, rest = .hole x :: more) →
      fillFrom m' 0 (s ++ rest.flatMap Segment.source)
        = s ++ fillFrom m' 0 (rest.flatMap Segment.source) := fun h hr =>
    fillFrom_copy fun _ hr' hne =>
      placeholderAt?_eq_none (not_opening_of_append h (.inr (head?_source hr)) hr' hne)
  fun_induction isProper segments with
  | case1 => rfl
  | case2 x rest ih =>
    simp only [Bool.and_eq_true, Bool.not_eq_true', List.contains_eq_mem,
      decide_eq_false_iff_not] at hs
    obtain ⟨⟨hx, hopens⟩, hrest⟩ := hs
    have hat := placeholderAt?_placeholder (u := rest.flatMap Segment.source) hm hperm hx
    rw [List.flatMap_cons, List.flatMap_cons, Segment.source, Segment.filled, ← ih hrest]
    cases hv : m.lookup x with
    | some v => exact fillFrom_placeholder (hat.trans (by rw [hv]; rfl))
    | none => exact fillFrom_unfilled hopens (hat.trans (by rw [hv]; rfl))
  | case3 s => exact hliteral (Bool.not_eq_true' _ ▸ hs) (.inl rfl)
  | case4 s x rest ih =>
    rw [Bool.and_eq_true, Bool.not_eq_true'] at hs
    exact (hliteral hs.1 (.inr ⟨x, rest, rfl⟩)).trans (congrArg (s ++ ·) (ih hs.2))
  | case5 => cases hs

/-- Filling a template whose segments are given. -/
theorem fill_eq {template : Text} {segments : List Segment} (keys : List String)
    (ht : template = segments.flatMap Segment.source)
    (hk : m.map Prod.fst = keys.map Text.ofString) (hs : isProper segments = true)
    (hm : areKeys (keys.map Text.ofString) = true) :
    fill template m = segments.flatMap (Segment.filled m) := by
  rw [ht]
  exact fill_segments hs (by rwa [hk])

end Exemplar.Template

namespace Exemplar.Generator

open Exemplar.Template

/-! ## The texts of a builder

The templates of the generator are given by their segments, so each text that it writes is known
as what stands between the names. -/

/-- The segments of the template of a field's default value. -/
def valuePairSegments : List Segment :=
  [.literal (Text.ofString "    "), .hole (Text.ofString "fieldName"),
   .literal (Text.ofString ": "), .hole (Text.ofString "value"), .literal (Text.ofString ",")]

/-- The segments of the template of a mutator. -/
def mutatorSegments : List Segment :=
  [.literal (Text.ofString "\n  with"), .hole (Text.ofString "upperFieldName"),
   .literal (Text.ofString "("), .hole (Text.ofString "fieldName"),
   .literal (Text.ofString ": "), .hole (Text.ofString "fieldType"),
   .literal (Text.ofString "): this \x7b\n     this."), .hole (Text.ofString "lowerClassName"),
   .literal (Text.ofString "."), .hole (Text.ofString "fieldName"),
   .literal (Text.ofString " = "), .hole (Text.ofString "fieldName"),
   .literal (Text.ofString "\n     return this\n  \x7d")]

/-- The segments of the template of a builder. -/
def builderSegments : List Segment :=
  [.literal (Text.ofString "\nexport class "), .hole (Text.ofString "className"),
   .literal (Text.ofString "Builder \x7b\n  "), .hole (Text.ofString "lowerName"),
   .literal (Text.ofString ": "), .hole (Text.ofString "className"),
   .literal (Text.ofString " = \x7b\n"), .hole (Text.ofString "valuePairs"),
   .literal (Text.ofString "\n  \x7d\n"), .hole (Text.ofString "methods"),
   .literal (Text.ofString "\n  to(): "), .hole (Text.ofString "className"),
   .literal (Text.ofString " \x7b\n     return this."), .hole (Text.ofString "lowerName"),
   .literal (Text.ofString "\n  \x7d\n\x7d\n")]

/-- The template is these segments, and so are the other two. -/
theorem valuePairTemplate_eq : valuePairTemplate = valuePairSegments.flatMap Segment.source := by
  simp only [valuePairSegments, List.flatMap_cons, List.flatMap_nil,
    List.append_nil, Segment.source, placeholder, ← Text.ofString_append, String.reduceAppend]
  rfl

/-- That of a mutator. -/
theorem mutatorTemplate_eq : mutatorTemplate = mutatorSegments.flatMap Segment.source := by
  simp only [mutatorSegments, List.flatMap_cons, List.flatMap_nil,
    List.append_nil, Segment.source, placeholder, ← Text.ofString_append, String.reduceAppend]
  rfl

/-- That of a builder. -/
theorem builderTemplate_eq : builderTemplate = builderSegments.flatMap Segment.source := by
  simp only [builderSegments, List.flatMap_cons, List.flatMap_nil,
    List.append_nil, Segment.source, placeholder, ← Text.ofString_append, String.reduceAppend]
  rfl

/-- **The line of a field in the default instance.** -/
theorem valuePair_eq (f : ValueFactory) (field : Field) :
    valuePair f field = Text.ofString "    " ++ (field.name ++ (Text.ofString ": "
      ++ (field.type.sample f field.name ++ Text.ofString ","))) := by
  rw [valuePair, fill_eq ["fieldName", "value"] valuePairTemplate_eq rfl (by decide) (by decide)]
  simp only [valuePairSegments, List.flatMap_cons, List.flatMap_nil, List.append_nil]
  rfl

/-- **The mutator of a field.** -/
theorem mutator_eq (lowerName : Text) (field : Field) :
    mutator lowerName field = Text.ofString "\n  with" ++ (upperFirst field.name
      ++ (Text.ofString "(" ++ (field.name ++ (Text.ofString ": " ++ (field.type.render
      ++ (Text.ofString "): this \x7b\n     this." ++ (lowerName ++ (Text.ofString "."
      ++ (field.name ++ (Text.ofString " = " ++ (field.name
      ++ Text.ofString "\n     return this\n  \x7d"))))))))))) := by
  rw [mutator,
    fill_eq ["upperFieldName", "fieldName", "fieldType", "lowerClassName"] mutatorTemplate_eq
    rfl (by decide) (by decide)]
  simp only [mutatorSegments, List.flatMap_cons, List.flatMap_nil, List.append_nil]
  rfl

/-- **The source of a builder.** -/
theorem interfaceBuilder_source (g : Generator) (name : Text) (fields : List Field) :
    (g.interfaceBuilder name fields).source = Text.ofString "\nexport class " ++ (name
      ++ (Text.ofString "Builder \x7b\n  " ++ (lowerFirst name ++ (Text.ofString ": " ++ (name
      ++ (Text.ofString " = \x7b\n"
      ++ (Text.join (Text.ofString "\n") (fields.map (valuePair g.factory))
      ++ (Text.ofString "\n  \x7d\n"
      ++ (Text.join (Text.ofString "\n") (fields.map (mutator (lowerFirst name)))
      ++ (Text.ofString "\n  to(): " ++ (name ++ (Text.ofString " \x7b\n     return this."
      ++ (lowerFirst name ++ Text.ofString "\n  \x7d\n\x7d\n"))))))))))))) := by
  rw [interfaceBuilder, fill_eq ["className", "lowerName", "valuePairs", "methods"]
    builderTemplate_eq rfl (by decide) (by decide)]
  simp only [builderSegments, List.flatMap_cons, List.flatMap_nil, List.append_nil]
  rfl

end Exemplar.Generator
