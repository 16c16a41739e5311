import Exemplar.Proofs.Builder.Classes
import Exemplar.Proofs.Builder.Filling
import Exemplar.Proofs.Builder.Samples
import Exemplar.Proofs.Extract.Interfaces

/-!
# Generated source is accepted

The source generated for the declarations of a unit is a unit again. It declares one exported
class for every interface with fields, in their order, and nothing that counts as a declaration,
so that generating from it yields nothing.

The text of a builder is cut into words part by part: the default instance and the bodies of
methods are balanced groups, and what stands around them are names and marks. The words are then
read as the members of a class.

Two things have to be asked of the names, since a builder puts them where the unit does not have
them. The name of the interface is lowered to name the default instance and the name of a field
is raised to name its mutator, and what comes out must be a name again; that it starts with a
letter is enough. And the name of the interface stands as the type of the default instance,
where some words mean something else (`nonTypes`). Nothing is asked of the types of fields but
that `new` is not among their names: they were read from the unit, so what is written out for
them is read again.

The proof has four steps, and each has its section. A body is balanced whatever its names are,
so a member of a class skips it as one group (`cuts_braces`). A member is then a few words
around a group (`spells_property`, `spells_method`). The members of a builder stand on lines of
their own, and each ends where the next one starts, since a name at the beginning of a line goes
on with nothing (`Buildable.spells_builder`). The builders, finally, are one statement each
(`parse_builders`).
-/

namespace Exemplar

open Exemplar.Tree Exemplar.Lexeme Exemplar.Parser

/-! ## Recased names

Only the first character of a name is recased. If it was written as an escape, it stays as it
is, and a name that starts with an escape or with `#` is no name that starts with a letter. -/

/-- Whether a text starts with a letter of an identifier. -/
def startsLetter : Text → Bool
  | [] => false
  | g :: _ => Text.Identifier.isStart g.toChar

/-- An identifier whose recased first letter is one starts with a letter itself. -/
theorem Lexeme.IsName.read_tail {image : Char → Char}
    (himage : image '\\' = '\\' ∧ image '#' = '#')
    {x : Text} (h : IsName False x) (hl : startsLetter (mapFirst image x) = true) :
    ∃ c rest, mapFirst image x = .char c :: rest ∧ Text.Identifier.isStart c = true ∧
      ∃ m, NameMode.plain.read rest = some m ∧ (m.Done ∨ False) := by
  obtain ⟨g, rest, rfl, hs⟩ := h.starts
  have hc : Text.Identifier.isStart (image g.toChar) = true := hl
  have key : Text.Identifier.isStart '\\' = false ∧ Text.Identifier.isStart '#' = false := by
    decide
  refine ⟨image g.toChar, rest, rfl, hc, ?_⟩
  -- A name starts with a letter, an escape or `#`; the last two stay what they are.
  rcases hs with hs | hs | ⟨hs, -⟩
  · exact (isName_cons_iff hs).1 h
  · rw [beq_iff_eq.1 (show (g.toChar == '\\') = true from hs), himage.1, key.1] at hc
    cases hc
  · rw [beq_iff_eq.1 (show (g.toChar == '#') = true from hs), himage.2, key.2] at hc
    cases hc

/-- A lowered name is a name if it starts with a letter. -/
theorem Lexeme.IsName.lowerFirst {x : Text} (h : IsName False x)
    (hl : startsLetter (lowerFirst x) = true) : IsName False (lowerFirst x) := by
  obtain ⟨c, rest, hx, hc, hm⟩ := h.read_tail (by decide) hl
  rw [Exemplar.lowerFirst, hx]
  exact (isName_cons_iff (g := .char c) hc).2 hm

/-- The name of a mutator. -/
def mutatorName (x : Text) : Text := Text.ofString "with" ++ upperFirst x

/-- A mutator has a name if the raised name of its field starts with a letter: what can start a
name can stand behind `with`. -/
theorem Lexeme.IsName.mutatorName {x : Text} (h : IsName False x)
    (hl : startsLetter (upperFirst x) = true) : IsName False (mutatorName x) := by
  obtain ⟨c, rest, hx, hc, m, hm, hd⟩ := h.read_tail (by decide) hl
  rw [Exemplar.mutatorName, upperFirst, hx]
  refine (isName_cons_iff (g := .char 'w') (by decide)).2 ⟨m, ?_, hd⟩
  have hread : ∀ {d : Char}, Text.Identifier.isContinue d = true → ∀ t : Text,
      NameMode.plain.read (.char d :: t) = NameMode.plain.read t := by
    intro d hd t
    rw [NameMode.read_cons, next?_of_isContinue (g := .char d) NameMode.done_plain hd]; rfl
  show NameMode.plain.read (.char 'i' :: .char 't' :: .char 'h' :: .char c :: rest) = some m
  rw [hread (by decide), hread (by decide), hread (by decide),
    hread (Text.Identifier.isContinue_of_isStart hc), hm]

/-! ## Bodies

What stands between the braces of a builder's members is skipped by the reader as a group. So
nothing has to be known of it but that its brackets are balanced and that it can be cut into
words. -/

section Bodies

variable {x y body : Text} {f : Field}

/-- The word `this` is cut as a name. -/
theorem isName_this : IsName False (Text.ofString "this") := .of_isLetters (by decide)

/-- The line of a field in the default instance. The sample value is balanced by what is known
of samples. -/
theorem balanced_valuePair (hx : IsName False f.name)
    (hs : Balanced (f.type.sample defaultFactory f.name)) :
    Balanced (Generator.valuePair defaultFactory f) := by
  rw [Generator.valuePair_eq]
  refine .blank (.blank (.blank (.blank (.name hx (by decide) ?_))))
  exact .solo (by decide) (.blank (hs.append (.solo (by decide) .nil)))

/-- The lines of the default instance. -/
def instanceBody (fields : List Field) : Text :=
  .char '\n' :: (Text.join (Text.ofString "\n") (fields.map (Generator.valuePair defaultFactory))
    ++ Text.ofString "\n  ")

/-- The default instance is balanced if its lines are. -/
theorem balanced_instanceBody {fields : List Field}
    (h : ∀ f ∈ fields, Balanced (Generator.valuePair defaultFactory f)) :
    Balanced (instanceBody fields) := by
  refine .lineEnd (.append (.join (.lineEnd .nil) ?_) (.lineEnd (.blank (.blank .nil))))
  intro t ht
  obtain ⟨f, hf, rfl⟩ := List.mem_map.1 ht
  exact h f hf

/-- The lines of a mutator. -/
def mutatorBody (lowerName fieldName : Text) : Text :=
  Text.ofString "\n     this" ++ (.char '.' :: (lowerName ++ (.char '.' :: (fieldName
    ++ (.char ' ' :: .char '=' :: .char ' ' :: (fieldName
    ++ Text.ofString "\n     return this\n  "))))))

/-- The body of a mutator is balanced. -/
theorem balanced_mutatorBody (hx : IsName False x) (hy : IsName False y) :
    Balanced (mutatorBody x y) := by
  refine .lineEnd (.blank (.blank (.blank (.blank (.blank ?_)))))
  refine .name isName_this (by decide) (.point hx (.name hx (by decide) ?_))
  refine .point hy (.name hy (by decide) (.blank (.equals ?_)))
  refine .name hy (by decide) (.lineEnd (.blank (.blank (.blank (.blank (.blank ?_))))))
  refine .name (x := Text.ofString "return") (.of_isLetters (by decide))
    (by decide) (.blank ?_)
  exact .name isName_this (by decide) (.lineEnd (.blank (.blank .nil)))

/-- The lines of the method that hands the instance out. -/
def resultBody (lowerName : Text) : Text :=
  Text.ofString "\n     return this" ++ (.char '.' :: (lowerName ++ Text.ofString "\n  "))

/-- And so is the body of the method that hands the instance out. -/
theorem balanced_resultBody (hx : IsName False x) : Balanced (resultBody x) := by
  refine .lineEnd (.blank (.blank (.blank (.blank (.blank ?_)))))
  refine .name (x := Text.ofString "return") (.of_isLetters (by decide))
    (by decide) (.blank ?_)
  refine .name isName_this (by decide) (.point hx (.name hx (by decide) ?_))
  exact .lineEnd (.blank (.blank .nil))

/-- A balanced text in braces is a group. The words of the text are nested, and the first and
the last one enclose them. -/
theorem cuts_braces (h : Balanced body) : ∃ ws w,
    (∀ u, Cuts false false (.char '\x7b' :: (body ++ [Glyph.char '\x7d']))
      (.mark "\x7b" :: (ws ++ [w])) u) ∧
    (Word.mark "\x7b").Enclose w ∧ Brackets.Nested (List.map Word.token ws) := by
  obtain ⟨b, ws, hws, hn⟩ := h false
  refine ⟨ws, ⟨.punct, [.char '\x7d'], b⟩, fun u => ?_, ?_, hn⟩
  · exact Cuts.cons_solo (by decide) ((hws _).append (Cuts.solo (by decide)))
  · cases b <;> exact ⟨by decide, by decide, by decide⟩

end Bodies

/-! ## Members

A member is read as one round of the class: its words, up to the name of the next member or the
brace of the class. Whatever stands there must break off a type and a body, which `G` says of
the words that can follow. -/

section Members

variable {x y body : Text} {G : List Word}

/-- The text of a property whose value is a group. -/
def propertyText (x y body : Text) : Text :=
  x ++ (.char ':' :: .char ' ' :: (y ++ (.char ' ' :: .char '=' :: .char ' ' :: .char '\x7b' ::
    (body ++ [.char '\x7d']))))

/-- The text of a method. -/
def methodText (x params y body : Text) : Text :=
  x ++ (.char '(' :: (params ++ (.char ')' :: .char ':' :: .char ' ' ::
    (y ++ (.char ' ' :: .char '\x7b' :: (body ++ [.char '\x7d']))))))

/-- A text at the beginning of a line that is read as a member of a class. -/
def SpellsMember (G : List Word) (m : MemberOutline) (t : Text) (ws : List Word) : Prop :=
  (∀ u, Cuts true false t ws u) ∧ Reads.Round nextClassMember G HasOutline m ws

/-- A member that is read from a name at the beginning of a line is a round, as such a name is
no closing brace. -/
theorem round_of_reads {m : MemberOutline} {ws : List Word} (hx : .line x ∈ G)
    (h : Reads nextClassMember (.line x :: ws) G
      (fun o => ∃ m', o = some (some m') ∧ m'.outline = m)) :
    Reads.Round nextClassMember G HasOutline m (.line x :: ws) := by
  refine ⟨List.cons_ne_nil _ _, forall_heads_cons.2 hx, h.mono (fun w hw => hw) ?_⟩
  rintro _ ⟨m', rfl, hm⟩
  exact ⟨some m', rfl, m', rfl, hm⟩

/-- **The default instance is a property.** The words are the name, the colon, the type, the
sign of equality and the group. The type ends before the sign, and the initializer behind the
group, since the next word stands on a new line. -/
theorem spells_property (hx : IsName False x) (hy : NamesType y) (hb : Balanced body)
    (hl : .line x ∈ G) (hG : ∀ w ∈ G, w.Breaks) :
    ∃ ws, SpellsMember G (.property (some x)) (propertyText x y body) ws := by
  obtain ⟨ws, w, hws, hg, hn⟩ := cuts_braces hb
  refine ⟨.line x :: .mark ":" :: .name y :: .mark "=" ::
    (.mark "\x7b" :: (ws ++ [w])), fun u => ?_,
    round_of_reads hl (reads_property hx hy rfl hg hn hG)⟩
  refine Cuts.append_name hx (by decide) (Cuts.cons_solo (by decide) (Cuts.cons_blank ?_))
  refine Cuts.append_name hy.name (by decide) (Cuts.cons_blank ?_)
  exact Cuts.cons_stopped (by decide) (stopsMark_cons.2 (by decide))
    (fun h => absurd h (by decide)) (Cuts.cons_blank (hws u))

/-- **A method whose parameters are known.** The words are the name, the parameters in
parentheses, the type of the result and the body. The name must not be that of a constructor,
which has no result. -/
theorem spells_method {params : Text} {vs : List Word} {Q : List Parameter → Prop}
    (hx : IsName False x) (hc : x ≠ Text.ofString "constructor")
    (hvs : ∀ u, Cuts false false params vs (.char ')' :: u))
    (hp : Reads (commaList ")" (parameter typeExpr)) vs [.mark ")"] Q) (hy : NamesType y)
    (hb : Balanced body) (hl : .line x ∈ G) :
    ∃ ws, SpellsMember G (.method (some x)) (methodText x params y body) ws := by
  obtain ⟨ws, w, hws, hg, hn⟩ := cuts_braces hb
  refine ⟨.line x :: .mark "(" :: (vs ++ (.mark ")" :: .mark ":" :: .name y ::
    (.mark "\x7b" :: (ws ++ [w])))), fun u => ?_,
    round_of_reads hl (reads_method hx hc hp hy rfl hg hn)⟩
  refine Cuts.append_name hx (by decide) (Cuts.cons_solo (by decide) ?_)
  refine Cuts.append (hvs _) (Cuts.cons_solo (by decide) (Cuts.cons_solo (by decide) ?_))
  refine Cuts.cons_blank (Cuts.append_name hy.name (by decide) ?_)
  exact Cuts.cons_blank (hws u)

/-- The method that hands the instance out. It has no parameters. -/
theorem spells_result (hx : IsName False x) (hy : NamesType y)
    (hl : .line (Text.ofString "to") ∈ G) :
    ∃ ws, SpellsMember G (.method (some (Text.ofString "to")))
      (methodText (Text.ofString "to") [] y (resultBody x)) ws :=
  spells_method (.of_isLetters (by decide)) (by decide) (fun _ => .nil)
    Reads.commaList_nil hy (balanced_resultBody hx) hl

/-- The text of a parameter. -/
def paramText (f : Field) : Text := f.name ++ (.char ':' :: .char ' ' :: f.type.render)

/-- The mutator of a field. Its one parameter has the type of the field, which is read as it was
written out, and its result is `this`. -/
theorem spells_mutator {tables : Tables} {f : Field} {tw : List Word} (hx : IsName False x)
    (hf : IsName False f.name) (hu : startsLetter (upperFirst f.name) = true)
    (ht : Spelled tables (.item (.type .any f.type)) False tw)
    (hl : .line (mutatorName f.name) ∈ G) :
    ∃ ws, SpellsMember G (.method (some (mutatorName f.name)))
      (methodText (mutatorName f.name) (paramText f)
        (Text.ofString "this") (mutatorBody x f.name))
      ws := by
  -- The one parameter, and behind it the parenthesis.
  have hparams : Reads (commaList ")" (parameter typeExpr)) (.name f.name :: .mark ":" :: tw)
      [.mark ")"] (List.Forall₂ (fun p (n : Parameter) => n.toParam tables = p)
        [.mk f.name f.type]) := by
    rw [← List.append_nil (Word.name f.name :: _)]
    have hcomma : (Word.mark ",").token.is "," = true := by decide
    refine Reads.commaList hcomma (by decide)
      (.cons ⟨⟨List.cons_ne_nil _ _, ?_⟩, ?_⟩ .nil)
    · exact (reads_parameter hf (by decide)
        ((reads_typeExpr ht).mono (by decide) fun _ h => h)).mono
        (fun _ hw => hw) (toParam_eq hf)
    · refine forall_heads_cons.2 ?_
      rw [Word.name_is]
      exact beq_false_of_ne (hf.ne_of_startsName (by decide))
  refine spells_method (hf.mutatorName hu) (fun h => ?_) (fun u => ?_) hparams
    ⟨isName_this, by decide⟩
    (balanced_mutatorBody hx hf) hl
  · exact absurd (List.cons.inj h).1 (by decide)
  · refine Cuts.append_name hf (by decide) (Cuts.cons_solo (by decide) (Cuts.cons_blank ?_))
    exact ht.cuts (stopsName_cons.2 (by decide)) False.elim

/-- Members on lines of their own. Each text but the first stands behind a line break, which its
first word remembers. -/
theorem cuts_join_lines {ts : List Text} {wss : List (List Word)} {b : Bool} (hne : ts ≠ [])
    (h : List.Forall₂ (fun t ws => ∀ a u, Cuts a false t ws u) ts wss) (u : Text) :
    Cuts b false (Text.join (Text.ofString "\n") ts) wss.flatten u := by
  induction h generalizing b with
  | nil => exact absurd rfl hne
  | @cons t ws ts wss ht hts ih =>
    rw [List.flatten_cons]
    cases hts with
    | nil =>
      rw [List.flatten_nil, List.append_nil]
      exact ht b u
    | cons hu hus =>
      rw [Text.join, List.append_assoc]
      exact (ht b _).append (Cuts.cons_lineEnd (ih (List.cons_ne_nil _ _)))

end Members

/-! ## Builders

A builder has the default instance, one mutator for each field and the method that hands the
instance out. Each of them is followed by the name of the next one at the beginning of a line,
and the last one by the closing brace. -/

section Builders

variable {tables : Tables} {name : Text} {fields : List Field}

/-- An interface whose builder can be read. -/
structure Buildable (tables : Tables) (name : Text) (fields : List Field) : Prop where
  /-- Its name is a type. -/
  named : NamesType name
  /-- Its lowered name starts with a letter. -/
  lower : startsLetter (lowerFirst name) = true
  /-- The fields have names. -/
  fieldName : ∀ f ∈ fields, IsName False f.name
  /-- The raised names of the fields start with a letter. -/
  upper : ∀ f ∈ fields, startsLetter (upperFirst f.name) = true
  /-- The types of the fields can be read. -/
  fieldType : ∀ f ∈ fields, ∃ ws, Spelled tables (.item (.type .any f.type)) False ws

/-- The outline of the mutator of a field. -/
def mutatorOutline (f : Field) : MemberOutline := .method (some (mutatorName f.name))

/-- The outline of the builder of an interface. -/
def builderOutline (name : Text) (fields : List Field) : ClassOutline :=
  ⟨true, some (name ++ Text.ofString "Builder"), .property (some (lowerFirst name)) ::
    (fields.map mutatorOutline ++ [MemberOutline.method (some (Text.ofString "to"))])⟩

/-- What stands behind a member of a builder: the closing brace, or the name of a member. -/
def memberStarts (name : Text) (fields : List Field) : List Word :=
  closingBrace :: .line (lowerFirst name) :: .line (Text.ofString "to") ::
    fields.map (fun f => .line (mutatorName f.name))

/-- A name at the beginning of a line ends what stands before it. -/
theorem breaks_line {x : Text} (h : IsName False x) : (Word.line x).Breaks :=
  ⟨rfl, (Word.line_is x ";").trans (beq_false_of_ne (h.ne_of_startsName (by decide))), rfl⟩

/-- Whatever stands behind a member of a builder breaks it off. -/
theorem Buildable.breaks (h : Buildable tables name fields) :
    ∀ w ∈ memberStarts name fields, w.Breaks := by
  intro w hw
  simp only [memberStarts, List.mem_cons, List.mem_map] at hw
  rcases hw with rfl | rfl | rfl | ⟨f, hf, rfl⟩
  · exact ⟨rfl, by decide, by decide⟩
  · exact breaks_line (h.named.name.lowerFirst h.lower)
  · exact breaks_line (.of_isLetters (by decide))
  · exact breaks_line ((h.fieldName f hf).mutatorName (h.upper f hf))

/-- A mutator stands on a line of its own. -/
theorem mutator_eq_line (x : Text) (f : Field) :
    Generator.mutator x f = .char '\n' :: .char ' ' :: .char ' ' ::
    methodText (mutatorName f.name)
      (paramText f) (Text.ofString "this") (mutatorBody x f.name) := by
  rw [Generator.mutator_eq]
  simp only [methodText, mutatorName, paramText, mutatorBody,
    List.append_assoc, List.cons_append]
  rfl

/-- The mutators of a builder. By induction on the fields; the words of each mutator depend on
its field alone. -/
theorem Buildable.spells_mutators (h : Buildable tables name fields) {G : List Word}
    (hG : ∀ f ∈ fields, .line (mutatorName f.name) ∈ G) :
    ∃ wss, List.Forall₂ (fun t ws => ∀ a u, Cuts a false t ws u)
        (fields.map (Generator.mutator (lowerFirst name))) wss ∧
      List.Forall₂ (Reads.Round nextClassMember G HasOutline)
      (fields.map mutatorOutline) wss := by
  have hx := h.named.name.lowerFirst h.lower
  have hone : ∀ f ∈ fields, ∃ ws,
      (∀ a u, Cuts a false (Generator.mutator (lowerFirst name) f) ws u) ∧
      Reads.Round nextClassMember G HasOutline (mutatorOutline f) ws := by
    intro f hf
    obtain ⟨tw, ht⟩ := h.fieldType f hf
    obtain ⟨ws, hws, hr⟩ := spells_mutator hx (h.fieldName f hf) (h.upper f hf) ht (hG f hf)
    refine ⟨ws, fun a u => ?_, hr⟩
    rw [mutator_eq_line]
    exact Cuts.cons_lineEnd (Cuts.cons_blank (Cuts.cons_blank (hws u)))
  clear h hx hG
  induction fields with
  | nil => exact ⟨[], .nil, .nil⟩
  | cons f fields ih =>
    obtain ⟨ws, hws, hr⟩ := hone f (.head _)
    obtain ⟨wss, hwss, hrs⟩ := ih fun f' hf' => hone f' (.tail _ hf')
    exact ⟨ws :: wss, .cons hws hwss, .cons hr hrs⟩

/-- The lines between the braces of a builder. -/
def membersText (name : Text) (fields : List Field) : Text :=
  propertyText (lowerFirst name) name (instanceBody fields) ++ (.char '\n' ::
    (Text.join (Text.ofString "\n") (fields.map (Generator.mutator (lowerFirst name))) ++
      (.char '\n' :: .char ' ' :: .char ' ' ::
        (methodText (Text.ofString "to") [] name
          (resultBody (lowerFirst name)) ++ [.char '\n']))))

/-- The parts of the source of a builder. The template is filled once here, and the result is
sorted into the parts that are cut into words one by one. -/
theorem interfaceBuilder_eq_lines (name : Text) (fields : List Field) :
    ((Generator.mk defaultFactory []).interfaceBuilder name fields).source
      = Glyph.char '\n' ::
      (Text.ofString "export" ++ (Glyph.char ' ' :: (Text.ofString "class" ++
        (Glyph.char ' ' ::
          ((name ++ Text.ofString "Builder") ++
            (Glyph.char ' ' :: .char '\x7b' :: .char '\n' :: .char ' ' ::
          .char ' ' :: (membersText name fields ++ [Glyph.char '\x7d', .char '\n']))))))) := by
  rw [Generator.interfaceBuilder_source]
  simp only [membersText, propertyText, methodText, instanceBody, resultBody, List.append_assoc,
    List.cons_append, List.nil_append]
  rfl

/-- What stands behind a builder: the next builder, or the end of the source. -/
def builderStarts : List Word := [.line (Text.ofString "export"), .eof true, .eof false]

/-- **The source of a builder is an exported class.** The parts are cut one behind the other,
and the words are read in the same order: `export`, `class`, the name of the class, and the
members as rounds between braces. A class with such a name has neither a base class nor
interfaces, because the name is followed by a brace; so it is to be excluded that the name
itself is one of the words that introduce them. -/
theorem Buildable.spells_builder (h : Buildable tables name fields) (hne : fields ≠ []) :
    ∃ ws,
    (∀ a u, Cuts a true ((Generator.mk defaultFactory []).interfaceBuilder name fields).source
        ws u) ∧
      Reads.Round nextStatement builderStarts
        (fun o s => ∃ s', s = some s' ∧ s'.outline? = some o)
        (builderOutline name fields) ws := by
  have hx := h.named.name.lowerFirst h.lower
  have hpairs : ∀ f ∈ fields, Balanced (Generator.valuePair defaultFactory f) := by
    intro f hf
    obtain ⟨tw, ht⟩ := h.fieldType f hf
    exact balanced_valuePair (h.fieldName f hf) (ht.sampled not_false f.name)
  -- The parts of the class: its property, a method for each field, and the one that builds.
  obtain ⟨pw, hp, hpr⟩ := spells_property (G := memberStarts name fields) hx h.named
    (balanced_instanceBody hpairs) (.tail _ (.head _)) h.breaks
  obtain ⟨mws, hm, hmr⟩ := h.spells_mutators (G := memberStarts name fields)
    fun f hf => .tail _ (.tail _ (.tail _ (List.mem_map.2 ⟨f, hf, rfl⟩)))
  obtain ⟨tw, ht, htr⟩ := spells_result (G := memberStarts name fields) hx h.named
    (.tail _ (.tail _ (.head _)))
  have hclass : IsName False (name ++ Text.ofString "Builder") :=
    h.named.name.append (by decide)
  -- The name of the class ends with `r`, and neither of the two words does.
  have hother : ∀ w ∈ ["extends", "implements"], name ++
      Text.ofString "Builder" ≠ Text.ofString w := by
    intro w hw he
    have key : ∀ w ∈ ["extends", "implements"],
        some (Glyph.char 'r') ≠ (Text.ofString w).getLast? := by decide
    have hlast := congrArg List.getLast? he
    rw [List.getLast?_append] at hlast
    exact key w hw hlast
  refine ⟨.line (Text.ofString "export") :: classWords (name ++ Text.ofString "Builder")
    (pw :: (mws ++ [tw])), fun a u => ?_, List.cons_ne_nil _ _, forall_heads_cons.2 (.head _),
    (reads_nextStatement_class hother (.head _)
      (.cons hpr (List.rel_append hmr (.cons htr .nil)))).mono (fun w hw => hw) ?_⟩
  · -- The text is cut from left to right, and the words of the parts are put together.
    have hwords : (pw :: (mws ++ [tw])).flatten ++ [closingBrace]
        = (pw ++ (mws.flatten ++ tw)) ++ [closingBrace] := by simp
    have hmutators := fun u => cuts_join_lines (b := true)
      (List.map_eq_nil_iff.not.2 hne) hm u
    have hbody :
        ∀ u, Cuts true true (membersText name fields) (pw ++ (mws.flatten ++ tw)) u := by
      intro u
      refine Cuts.append (hp _) (Cuts.cons_lineEnd (Cuts.append (hmutators _) ?_))
      rw [← List.append_nil tw]
      exact Cuts.cons_lineEnd
        (Cuts.cons_blank (Cuts.cons_blank (Cuts.append (ht _) Cuts.lineEnd)))
    rw [interfaceBuilder_eq_lines, classWords, hwords]
    refine Cuts.cons_lineEnd (Cuts.append_name (.of_isLetters (by decide))
      (by decide) (Cuts.cons_blank ?_))
    refine Cuts.append_name (.of_isLetters (by decide)) (by decide)
      (Cuts.cons_blank ?_)
    refine Cuts.append_name hclass (by decide) (Cuts.cons_blank (Cuts.cons_solo (by decide) ?_))
    refine Cuts.cons_lineEnd (Cuts.cons_blank (Cuts.cons_blank (Cuts.append (hbody _) ?_)))
    exact Cuts.cons_solo (by decide) Cuts.lineEnd
  · rintro _ ⟨s, rfl, hs⟩
    exact ⟨_, rfl, s, rfl, hs⟩

end Builders

/-! ## Units

The unit that was read gives what a builder asks for. The names of interfaces and fields are
identifiers because the lexer cut them out as such, and the types of fields are read again
because they were read. -/

section Units

variable {tables : Tables} {name : Text} {fields : List Field}

/-- The name and the fields of an interface that has fields. -/
def Declaration.fielded? : Declaration → Option (Text × List Field)
  | .ofInterface name _ fields _ => if fields.isEmpty then none else some (name, fields)
  | _ => none

/-- The names in an interface suit a builder. -/
structure SuitsBuilder (name : Text) (fields : List Field) : Prop where
  /-- The name is a type where a brace follows it. -/
  type : ∀ w ∈ nonTypes, name ≠ Text.ofString w
  /-- The lowered name starts with a letter. -/
  lower : startsLetter (lowerFirst name) = true
  /-- The raised names of the fields start with a letter. -/
  upper : ∀ f ∈ fields, startsLetter (upperFirst f.name) = true
  /-- No field has a type that mentions `new`. -/
  newFree : ∀ f ∈ fields, ∀ x ∈ f.type.names,
    x ≠ Text.ofString "new" ∧ ¬Text.ofString "new." <+: x

instance (name : Text) (fields : List Field) : Decidable (SuitsBuilder name fields) :=
  decidable_of_iff
    ((∀ w ∈ nonTypes, name ≠ Text.ofString w) ∧ startsLetter (lowerFirst name) = true ∧
      (∀ f ∈ fields, startsLetter (upperFirst f.name) = true) ∧
      ∀ f ∈ fields, ∀ x ∈ f.type.names, x ≠ Text.ofString "new" ∧ ¬Text.ofString "new." <+: x)
    ⟨fun ⟨ht, hl, hu, hn⟩ => ⟨ht, hl, hu, hn⟩, fun h => ⟨h.type, h.lower, h.upper, h.newFree⟩⟩

/-- The builders of declarations are those of the interfaces with fields. Nothing else leaves a
trace in the source: what is skipped is only reported. -/
theorem build_source (declarations : List Declaration) :
    ((Generator.mk defaultFactory []).build declarations).source
      = (declarations.filterMap Declaration.fielded?).flatMap
        (fun p => ((Generator.mk defaultFactory []).interfaceBuilder p.1 p.2).source) := by
  have hbuilders : declarations.filterMap (Generator.mk defaultFactory []).builder?
      = (declarations.filterMap Declaration.fielded?).map
        (fun p => (Generator.mk defaultFactory []).interfaceBuilder p.1 p.2) := by
    rw [List.map_filterMap]
    congr 1
    funext d
    cases d with
    | ofInterface name generics fields methods =>
      rw [Generator.builder?, Declaration.fielded?]
      split <;> rfl
    | _ => rfl
  rw [Generated.source, Generator.build, hbuilders]
  cases declarations.filterMap Declaration.fielded? with
  | nil => rfl
  | cons p ps =>
    rw [if_neg (by rw [List.map_cons, List.isEmpty_cons]; exact Bool.false_ne_true),
      List.nil_append, List.flatMap_map]

/-- Only an interface declares something with fields. A class gives factories only, and so does
a variable that holds a function. -/
theorem Tree.Statement.eq_interfaceDecl {s : Statement} {d : Declaration}
    (hd : d ∈ s.declarations tables) (hf : d.fielded? = some (name, fields)) :
    ∃ i, s = .interfaceDecl i ∧ name = identifierText (some i.name) ∧
    fields = fieldsOf tables i.members ∧
      fields ≠ [] := by
  cases s with
  | interfaceDecl i =>
    obtain rfl := List.mem_singleton.1 hd
    rw [InterfaceDecl.declaration, Declaration.fielded?] at hf
    split at hf
    · cases hf
    · rename_i hne
      cases hf
      exact ⟨i, rfl, rfl, rfl, fun hnil => hne (by rw [hnil]; rfl)⟩
  | classDecl c =>
    rw [Statement.declarations] at hd
    split at hd
    · obtain ⟨m, -, hm⟩ := List.mem_filterMap.1 hd
      cases m <;> cases hm
      cases hf
    · cases hd
  | «variables» v =>
    rw [Statement.declarations] at hd
    split at hd
    · obtain ⟨x, -, hd⟩ := Option.bind_eq_some_iff.1 (Option.mem_toList.1 hd)
      obtain ⟨e, -, hd⟩ := Option.bind_eq_some_iff.1 hd
      obtain ⟨ps, -, hd⟩ := Option.bind_eq_some_iff.1 hd
      cases hd
      cases hf
    · cases hd
  | _ => cases hd

/-- **An interface that was read can be built**, if its names suit a builder. What is asked of
names is what `SuitsBuilder` says; the rest is known of every interface that was read. -/
theorem buildable_of_parse {file : String} {source : Text} {u : SourceUnit}
    (h : SourceUnit.parse file source = .ok u)
    (hd : (name, fields) ∈ (u.declarations tables).filterMap Declaration.fielded?)
    (hs : SuitsBuilder name fields) : Buildable tables name fields ∧ fields ≠ [] := by
  obtain ⟨d, hd, hf⟩ := List.mem_filterMap.1 hd
  obtain ⟨s, hstatement, hd⟩ := List.mem_flatMap.1 hd
  obtain ⟨i, rfl, rfl, rfl, hne⟩ := Statement.eq_interfaceDecl hd hf
  have hsound : i.Sound tables := SourceUnit.sound_of_parse h tables _ hstatement
  have hname : IsName False (identifierText (some i.name)) := by
    rw [identifierText_of_ne_nil hsound.name.ne_nil]
    exact hsound.name
  exact ⟨⟨⟨hname, hs.type⟩, hs.lower, fun f hf => (hsound.fields f hf).name, hs.upper,
    fun f hf => (hsound.fields f hf).type (.of_forall (hs.newFree f hf))⟩, hne⟩

/-- The builders in their order. A builder starts with a line break and ends with one, so the
next one is cut as if it were alone. -/
theorem spells_builders {ps : List (Text × List Field)}
    (h : ∀ p ∈ ps, Buildable tables p.1 p.2 ∧ p.2 ≠ []) :
    ∃ wss, (∀ a u, ∃ b, Cuts a b (ps.flatMap
        (fun p => ((Generator.mk defaultFactory []).interfaceBuilder p.1 p.2).source))
        wss.flatten u) ∧
      List.Forall₂ (Reads.Round nextStatement builderStarts
        (fun o s => ∃ s', s = some s' ∧ s'.outline? = some o))
        (ps.map (fun p => builderOutline p.1 p.2)) wss := by
  induction ps with
  | nil => exact ⟨[], fun a _ => ⟨a, .nil⟩, .nil⟩
  | cons p ps ih =>
    obtain ⟨hp, hne⟩ := h p (.head _)
    obtain ⟨ws, hws, hr⟩ := hp.spells_builder hne
    obtain ⟨wss, hwss, hrs⟩ := ih fun q hq => h q (.tail _ hq)
    refine ⟨ws :: wss, fun a u => ?_, .cons hr hrs⟩
    obtain ⟨b, hb⟩ := hwss true u
    exact ⟨b, (hws a _).append hb⟩

/-- Statements that were found for outlines have these outlines. -/
theorem outlines_of_forall₂ {outlines : List ClassOutline} {found : List (Option Statement)}
    (h : List.Forall₂ (fun o s => ∃ s', s = some s' ∧ s'.outline? = some o) outlines found) :
    (found.filterMap id).map Statement.outline? = outlines.map some := by
  induction h with
  | nil => rfl
  | cons hs _ ih =>
    obtain ⟨s, rfl, ho⟩ := hs
    rw [List.map_cons, ← ih, ← ho]; rfl

/-- **Builders are read as a unit of classes.** The last word is the end of the source, before
which no statement is left. -/
theorem parse_builders (out : String) {ps : List (Text × List Field)}
    (h : ∀ p ∈ ps, Buildable tables p.1 p.2 ∧ p.2 ≠ []) :
    ∃ v, SourceUnit.parse out (ps.flatMap
        (fun p => ((Generator.mk defaultFactory []).interfaceBuilder p.1 p.2).source)) = .ok v ∧
      v.statements.map Statement.outline? = ps.map (fun p => some (builderOutline p.1 p.2)) := by
  obtain ⟨wss, hcuts, hr⟩ := spells_builders h
  obtain ⟨b, hb⟩ := hcuts false []
  obtain ⟨hclean, hfaces⟩ := faces_startOf hb
  have hend : Reads nextStatement [] [.eof true, .eof false] (· = none) :=
    Reads.sees_bind (Sees.isEof (by decide)) (Reads.ite_pos rfl (Reads.pure rfl))
  have hunit : Reads (sourceUnit out) wss.flatten [.eof true, .eof false] (fun v =>
      v.statements.map Statement.outline?
        = ps.map (fun p => some (builderOutline p.1 p.2))) := by
    unfold sourceUnit
    refine Reads.here_bind fun start => ?_
    rw [← List.append_nil wss.flatten]
    refine Reads.bind (Reads.collect (fun w hw => .tail _ hw) hr hend) (fun found hfound => ?_)
      fun w hw => hw
    refine Reads.spanFrom_bind fun _ => Reads.pure ?_
    show (found.filterMap id).map Statement.outline? = _
    rw [outlines_of_forall₂ hfound, List.map_map]
    rfl
  obtain ⟨v, c', hv, -, -, ho⟩ := hunit _ _ (hfaces (by cases b <;> decide))
  exact ⟨v, run_of_ok hclean.fault hv, ho⟩

/-- A class without constructors declares nothing. A class is the only statement with such an
outline, and it declares its constructors. -/
theorem Tree.Statement.declarations_eq_nil {s : Statement} {o : ClassOutline}
    (h : s.outline? = some o) (hc : MemberOutline.constructor ∉ o.members) (tables : Tables) :
    s.declarations tables = [] := by
  cases s with
  | classDecl c =>
    have hnil : c.declarations tables = [] := by
      refine List.filterMap_eq_nil_iff.2 fun m hm => ?_
      cases m with
      | constructor =>
        obtain rfl := Option.some.inj h
        exact absurd (List.mem_map.2 ⟨_, hm, rfl⟩) hc
      | _ => rfl
    rw [Statement.declarations, hnil, ite_self]
  | _ => cases h

/-- No member of a builder is a constructor. -/
theorem constructor_notMem_builderOutline (name : Text) (fields : List Field) :
    MemberOutline.constructor ∉ (builderOutline name fields).members := by
  simp [builderOutline, mutatorOutline]

/-- **Generated source is accepted.** What is generated for the declarations of a unit is a unit
again: its statements are the builders of the interfaces with fields, in their order, and it
declares nothing.

The builders of the unit are read as a unit of classes. Each of these classes has the outline of
a builder, which has no constructor, so it declares nothing. -/
theorem Tree.SourceUnit.parse_generated (file out : String) (source : Text) (u : SourceUnit)
    (h : SourceUnit.parse file source = .ok u) (tables : Tables)
    (hsuits : ∀ p ∈ (u.declarations tables).filterMap Declaration.fielded?,
      SuitsBuilder p.1 p.2) :
    ∃ v, SourceUnit.parse out
        ((Generator.mk defaultFactory []).build (u.declarations tables)).source = .ok v ∧
      v.statements.map Statement.outline? = ((u.declarations tables).filterMap
        Declaration.fielded?).map (fun p => some (builderOutline p.1 p.2)) ∧
      ∀ tables' : Tables, v.declarations tables' = [] := by
  rw [build_source]
  obtain ⟨v, hv, ho⟩ := parse_builders out fun p hp => buildable_of_parse h hp (hsuits p hp)
  refine ⟨v, hv, ho, fun tables' => List.flatMap_eq_nil_iff.2 fun s hs => ?_⟩
  have hmem : s.outline? ∈ v.statements.map Statement.outline? := List.mem_map.2 ⟨s, hs, rfl⟩
  rw [ho] at hmem
  obtain ⟨p, -, hp⟩ := List.mem_map.1 hmem
  exact s.declarations_eq_nil hp.symm (constructor_notMem_builderOutline p.1 p.2) tables'

/-- The outline of the builder of a pair. -/
def pairOutline : ClassOutline :=
  ⟨true, some (Text.ofString "PairBuilder"),
    [.property (some (Text.ofString "pair")), .method (some (Text.ofString "withLeft")),
     .method (some (Text.ofString "withRight")), .method (some (Text.ofString "to"))]⟩

/-- An interface with two fields gets one builder with two mutators. -/
theorem Tree.SourceUnit.parse_generated_pair :
    ∃ u v, SourceUnit.parse "in"
        (Text.ofString "interface Pair \x7b left: string; right: A[] \x7d") = .ok u ∧
      SourceUnit.parse "out"
        ((Generator.mk defaultFactory []).build (u.declarations .empty)).source = .ok v ∧
      v.statements.map Statement.outline? = [some pairOutline] ∧
      ∀ tables : Tables, v.declarations tables = [] := by
  have hany : (SourceUnit.parse "in"
      (Text.ofString "interface Pair \x7b left: string; right: A[] \x7d")).toOption.any
      (fun u => decide (∀ p ∈ (u.declarations .empty).filterMap Declaration.fielded?,
          SuitsBuilder p.1 p.2) &&
        ((u.declarations .empty).filterMap Declaration.fielded?).map
          (fun p => some (builderOutline p.1 p.2)) == [some pairOutline]) = true := by
    rw [Text.ofString_ofList]
    decide +kernel
  obtain ⟨u, hu, hp⟩ := exists_ok_of_any _ hany
  rw [Bool.and_eq_true, decide_eq_true_eq, beq_iff_eq] at hp
  obtain ⟨v, hv, ho, hn⟩ := parse_generated "in" "out" _ u hu .empty hp.1
  exact ⟨u, v, hu, hv, ho.trans hp.2, hn⟩

end Units

end Exemplar
