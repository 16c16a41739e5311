import Exemplar.Builder.Values
import Exemplar.Proofs.Token.Quoting
import Exemplar.Proofs.Types.RenderedTypes

/-!
# The default values of rendered types

A builder skips the default instance by its brackets, so of a default value only two things
matter: that it is cut into words the same way whatever stands behind it, and that its brackets
pair up (`Balanced`). Balanced texts can be put side by side and into brackets.

The default value of every type that can be spelled is balanced (`Spelled.sampled`). The value
itself is a call on the sampling object, a builder, or a list or function of such; a value that
is left out is the empty text, which is balanced too.

What is cut into words depends on where lines end, since a word knows whether a line ends before
it. So `Balanced` is said for both cases, with a line end before the first word and without, and
it answers whether one is left over behind the last word. Names, numbers and punctuators go on
with what stands behind them, so a text that ends with one is only balanced together with the
mark behind it; that is why the lemmas on names have the text behind the name in them.
-/

namespace Exemplar

open Exemplar.Lexeme

/-- In front of whatever follows, a text spells words whose brackets pair up. -/
def Balanced (s : Text) : Prop :=
  ∀ a, ∃ b ws, (∀ u, Cuts a b s ws u) ∧ Brackets.Nested (ws.map Word.token)

namespace Balanced

variable {s t x : Text}

/-- The empty text has no words. -/
theorem nil : Balanced [] := fun a => ⟨a, [], fun _ => .nil, .nil⟩

/-- Balanced texts can be put side by side. -/
theorem append (hs : Balanced s) (ht : Balanced t) : Balanced (s ++ t) := by
  intro a
  obtain ⟨b, v, hv, hnv⟩ := hs a
  obtain ⟨c, w, hw, hnw⟩ := ht b
  refine ⟨c, v ++ w, fun u => (hv _).append (hw u), ?_⟩
  rw [List.map_append]
  exact hnv.append hnw

/-- A blank in front makes no difference. -/
theorem blank (ht : Balanced t) : Balanced (.char ' ' :: t) :=
  append (s := [.char ' ']) (fun a => ⟨a, [], fun _ => .blank, .nil⟩) ht

/-- Nor does a line end, but for the first word. -/
theorem lineEnd (ht : Balanced t) : Balanced (.char '\n' :: t) :=
  append (s := [.char '\n']) (fun _ => ⟨true, [], fun _ => .lineEnd, .nil⟩) ht

/-- A text that spells one word, and no bracket. -/
theorem word {w : Bool → Word} (h : ∀ a u, Cuts a false s [w a] u)
    (hw : ∀ a, (w a).token.isOpener = false ∧ (w a).token.isCloser = false) : Balanced s :=
  fun a => ⟨false, [w a], h a, .plain (hw a).1 (hw a).2 .nil⟩

/-- A quoted text is one string literal. -/
theorem quoted (t : Text) : Balanced (Text.ofString t.quoted) :=
  word (fun _ u => Cuts.quoted t u) fun _ => ⟨rfl, rfl⟩

/-- A mark that is no bracket. -/
theorem solo {d : Char} (hd : d ∈ [',', ':']) (ht : Balanced t) : Balanced (.char d :: t) := by
  simp only [List.mem_cons, List.not_mem_nil, or_false] at hd
  rcases hd with rfl | rfl
  · exact append (s := [.char ',']) (word (fun _ _ => Cuts.solo (by decide)) (by decide)) ht
  · exact append (s := [.char ':']) (word (fun _ _ => Cuts.solo (by decide)) (by decide)) ht

/-- A name in front of something that does not go on with it. -/
theorem name {g : Glyph} (hx : IsName False x) (hg : continues g = false)
    (ht : Balanced (g :: t)) : Balanced (x ++ g :: t) := by
  intro a
  obtain ⟨b, ws, hws, hn⟩ := ht false
  exact ⟨b, ⟨.ident, x, a⟩ :: ws, fun u => (hws u).append_name hx hg, .plain rfl rfl hn⟩

/-- A point in front of a name. -/
theorem point (hx : IsName False x) (ht : Balanced (x ++ t)) :
    Balanced (.char '.' :: (x ++ t)) := by
  intro a
  obtain ⟨b, ws, hws, hn⟩ := ht false
  refine ⟨b, ⟨.punct, [.char '.'], a⟩ :: ws, fun u => ?_,
    .plain (by cases a <;> decide) (by cases a <;> decide) hn⟩
  have hstops := hx.stopsMark (t ++ u)
  rw [← List.append_assoc] at hstops
  exact (hws u).cons_stopped (by decide) hstops.1 fun _ => hstops.2

/-- An arrow is a punctuator that none goes on from. -/
theorem arrow (ht : Balanced t) : Balanced (Text.ofString "=>" ++ t) :=
  append (word (fun _ _ => Cuts.arrow) fun a => by cases a <;> decide) ht

/-- An equals sign in front of a blank. -/
theorem equals (ht : Balanced t) : Balanced (.char '=' :: .char ' ' :: t) := by
  intro a
  obtain ⟨b, ws, hws, hn⟩ := ht.blank false
  refine ⟨b, ⟨.punct, [.char '='], a⟩ :: ws, fun u => ?_,
    .plain (by cases a <;> decide) (by cases a <;> decide) hn⟩
  exact (hws u).cons_stopped (by decide) (stopsMark_cons.2 (by decide))
    fun h => absurd h (by decide)

/-- The brackets of a group. -/
def brackets : List (Char × Char) := [('(', ')'), ('[', ']'), ('\x7b', '\x7d')]

/-- **A group is balanced**, if what stands in it is in front of the bracket that closes it. -/
theorem group {o c : Char} (hoc : (o, c) ∈ brackets) {b : Bool} {ws : List Word}
    (h : ∀ u, Cuts false b s ws (.char c :: u)) (hn : Brackets.Nested (ws.map Word.token)) :
    Balanced (.char o :: (s ++ [Glyph.char c])) := by
  have key : ∀ p ∈ brackets, p.1 ∈ solos ∧ p.2 ∈ solos ∧ ∀ a b,
      (Word.token ⟨.punct, [.char p.1], a⟩).isOpener = true ∧
      (Word.token ⟨.punct, [.char p.2], b⟩).isCloser = true ∧
      (Word.token ⟨.punct, [.char p.2], b⟩).text
      = (Word.token ⟨.punct, [.char p.1], a⟩).closer := by
    decide
  -- Brackets are words by themselves, and the two of a group match.
  obtain ⟨ho, hc, hgroup⟩ := key _ hoc
  intro a
  obtain ⟨hopen, hclose, hmatch⟩ := hgroup a b
  refine ⟨false, ⟨.punct, [.char o], a⟩ :: (ws ++ [⟨.punct, [.char c], b⟩]), fun u => ?_, ?_⟩
  · exact Cuts.cons_solo ho ((h u).append (Cuts.solo hc))
  · rw [List.map_cons, List.map_append]
    exact .group hopen hclose hmatch hn .nil

/-- A balanced text in brackets is balanced. -/
theorem group_of {o c : Char} (hoc : (o, c) ∈ brackets) (hs : Balanced s) :
    Balanced (.char o :: (s ++ [Glyph.char c])) := by
  obtain ⟨b, ws, hws, hn⟩ := hs false
  exact group hoc (fun _ => hws _) hn

/-- Texts with a separator between them. -/
theorem join {sep : Text} (hsep : Balanced sep) {ts : List Text} (h : ∀ t ∈ ts, Balanced t) :
    Balanced (Text.join sep ts) := by
  fun_induction Text.join sep ts with
  | case1 => exact nil
  | case2 t => exact h t (.head _)
  | case3 t u rest ih =>
    exact append (append (h t (.head _)) hsep) (ih fun v hv => h v (.tail _ hv))

end Balanced

/-! ## Calls

A call is a name, a point, the name of a method, and arguments in parentheses. The parentheses
end both names. -/

/-- A call of a method on the sampling object. -/
theorem balanced_call {m : String} (hm : isLetters (Text.ofString m) = true) {args : Text}
    {b : Bool} {ws : List Word} (h : ∀ u, Cuts false b args ws (.char ')' :: u))
    (hn : Brackets.Nested (ws.map Word.token)) :
    Balanced (Text.ofString "someBuilder" ++ (Glyph.char '.' :: (Text.ofString m
      ++ (Glyph.char '(' :: (args ++ [Glyph.char ')']))))) := by
  refine .name (.of_isLetters (by decide)) (by decide) ?_
  refine .point (.of_isLetters hm) (.name (.of_isLetters hm) (by decide) ?_)
  exact .group (by decide) h hn

/-- A name with dots in front of a closing bracket. -/
theorem NameParts.cuts_closed {first : Text} {more : List Text}
    (h : NameParts False (first :: more)) (u : Text) :
    Cuts false false (dotted first more) (dottedWords first more) (.char ')' :: u) :=
  h.cuts (stopsName_cons.2 (by decide)) False.elim

/-- The last part of a name with dots can be made longer. -/
theorem NameParts.extend {first : Text} {more : List Text} (h : NameParts False (first :: more))
    {y : Text} (hy : y.all (fun g => Text.Identifier.isContinue g.toChar) = true) :
    ∃ first' more', dotted first more ++ y = dotted first' more' ∧
      NameParts False (first' :: more') := by
  induction more generalizing first with
  | nil => exact ⟨first ++ y, [], rfl, (h.1.mono And.left).append hy, trivial⟩
  | cons x more ih =>
    obtain ⟨x', more', hd, hp⟩ := ih h.2
    refine ⟨first, x' :: more', ?_, h.1.mono (fun h' => h'.1.elim), hp⟩
    rw [dotted_eq] at hd ⊢
    rw [dotted_eq] at hd ⊢
    simp only [List.flatMap_cons, List.append_assoc] at hd ⊢
    rw [hd]

/-- A name with dots in front of something that does not go on with it. -/
theorem balanced_dotted {first : Text} {more : List Text} (h : NameParts False (first :: more))
    {g : Glyph} {t : Text} (hg : continues g = false) (ht : Balanced (g :: t)) :
    Balanced (dotted first more ++ g :: t) := by
  rw [dotted_eq]
  induction more generalizing first with
  | nil =>
    rw [List.flatMap_nil, List.append_nil]
    exact .name (h.1.mono And.left) hg ht
  | cons x more ih =>
    rw [List.flatMap_cons]
    have hx := ih h.2
    rw [List.append_assoc] at hx
    simp only [List.append_assoc]
    have hpoint := Balanced.point (h.2.1.mono And.left) hx
    exact Balanced.name (h.1.mono And.left) (by decide) hpoint

/-- An instance made by the builder of a type. -/
theorem balanced_nestedBuilder {first : Text} {more : List Text}
    (h : NameParts False (first :: more)) :
    Balanced (ValueFactory.nestedBuilder (dotted first more)) := by
  obtain ⟨first', more', hd, hp⟩ := h.extend (y := Text.ofString "Builder") (by decide)
  have heq : ValueFactory.nestedBuilder (dotted first more)
      = Text.ofString "new" ++ (Glyph.char ' ' ::
      (dotted first' more' ++
        (Glyph.char '(' :: ([Glyph.char ')'] ++ (Glyph.char '.' :: (Text.ofString "to"
        ++ (Glyph.char '(' :: [Glyph.char ')']))))))) := by
    rw [← hd, ValueFactory.nestedBuilder]
    simp only [List.append_assoc]
    rfl
  have hto : IsName False (Text.ofString "to") := .of_isLetters (by decide)
  rw [heq]
  refine .name (.of_isLetters (by decide)) (by decide) (.blank ?_)
  refine balanced_dotted hp (by decide) ?_
  refine Balanced.append (s := Glyph.char '(' :: ([] ++ [Glyph.char ')']))
    (.group_of (by decide) .nil) ?_
  refine .point hto (.name hto (by decide) ?_)
  exact .group_of (s := []) (by decide) .nil

/-! ## Values

The factory that is used when none is configured samples its values, so each of them is a call
on the sampling object. There is a lemma for each sort of value that a type asks for. -/

/-- The factory used when none is configured. -/
abbrev defaultFactory : ValueFactory := .sampling ""

/-- A string is sampled by a call with the name of the field, quoted. -/
theorem balanced_string (name : Text) : Balanced (defaultFactory.string name) := by
  have heq : defaultFactory.string name = Text.ofString "someBuilder" ++ (Glyph.char '.' ::
      (Text.ofString "string" ++
        (Glyph.char '(' :: (Text.ofString name.quoted ++ [Glyph.char ')'])))) := by
    show Text.ofString "someBuilder" ++ _ ++ _ ++ _ = _
    simp only [List.append_assoc]
    rfl
  obtain ⟨b, ws, hws, hn⟩ := Balanced.quoted name false
  rw [heq]
  exact balanced_call (by decide) (fun u => hws _) hn

/-- A value of an enumeration is sampled by a call with its name. -/
theorem balanced_enum {first : Text} {more : List Text} (h : NameParts False (first :: more))
    (values : List Text) : Balanced (defaultFactory.enum (dotted first more) values) := by
  have heq : defaultFactory.enum (dotted first more) values = Text.ofString "someBuilder" ++
      (Glyph.char '.' :: (Text.ofString "enum" ++
        (Glyph.char '(' :: (dotted first more ++ [Glyph.char ')'])))) := by
    show Text.ofString "someBuilder" ++ _ ++ _ ++ _ = _
    simp only [List.append_assoc]
    rfl
  rw [heq]
  exact balanced_call (by decide) h.cuts_closed (nested_dottedWords _ _)

/-- Numbers, truth values and dates are sampled by calls without arguments. -/
theorem balanced_constants : Balanced defaultFactory.number ∧ Balanced defaultFactory.boolean ∧
    Balanced defaultFactory.date :=
  have h {m : String} (hm : isLetters (Text.ofString m) = true) :=
    @balanced_call m hm [] false [] (fun _ => .nil) .nil
  ⟨h (m := "number") (by decide), h (m := "boolean") (by decide),
    h (m := "date") (by decide)⟩

/-- The value of a type that is known by its name. It is a predefined one, an enumeration, or a
class, and for a class its builder is asked. -/
theorem balanced_sample_ofName {tables : Tables} {first : Text} {more : List Text}
    (h : NameParts False (first :: more)) (name : Text) :
    Balanced ((Ty.ofName tables (dotted first more) []).sample defaultFactory name) := by
  unfold Ty.ofName
  split
  · show Balanced (if _ then _ else _)
    split
    · exact balanced_constants.2.2
    · exact balanced_nestedBuilder h
  · split
    · exact balanced_enum h _
    · exact balanced_nestedBuilder h

/-- What is known of the default values of a phrase: those of its types are balanced. -/
def Phrase.Sampled : Phrase → Prop
  | .item (.type _ t) => ∀ name, Balanced (t.sample defaultFactory name)
  | .item (.param _) => True
  | .list _ items => ∀ l t, .type l t ∈ items → ∀ name, Balanced (t.sample defaultFactory name)

/-- A function value is balanced, if its result is. -/
theorem balanced_arrow {params : List Param} {t : Ty} {b : Bool} {ws : List Word}
    (h : ∀ u, Cuts false b (paramListText params) ws (.char ')' :: u))
    (hn : Brackets.Nested (ws.map Word.token))
    (ht : ∀ name, Balanced (t.sample defaultFactory name)) (name : Text) :
    Balanced ((Ty.arrow params t).sample defaultFactory name) := by
  have heq : (Ty.arrow params t).sample defaultFactory name =
      Glyph.char '(' :: (paramListText params ++ [Glyph.char ')']) ++
      (.char ' ' :: (Text.ofString "=>"
        ++ (.char ' ' :: t.sample defaultFactory
          (name ++ Text.ofString "(" ++ paramNames params ++ Text.ofString ")")))) := by
    show _ ++ _ ++ _ ++ _ = _
    simp only [List.append_assoc, List.cons_append]
    rfl
  rw [heq]
  exact (Balanced.group (by decide) h hn).append (.blank (.arrow (.blank (ht _))))

/-- The value of an array is that of its element in brackets. -/
theorem balanced_arrays {t : Ty} (ht : ∀ name, Balanced (t.sample defaultFactory name)) (n : Nat)
    (name : Text) : Balanced ((t.arrays n).sample defaultFactory name) := by
  induction n with
  | zero => exact ht name
  | succ n ih =>
    exact .group_of (by decide) ih

/-- The value of a predefined type is sampled, or left out where there is nothing to sample. -/
theorem balanced_keyword {w : String} (h : w ∈ renderedKeywords) (name : Text) :
    Balanced ((Ty.ofKeyword (Text.ofString w)).sample defaultFactory name) := by
  have huser : ∀ {s : String}, isLetters (Text.ofString s) = true →
      Balanced (ValueFactory.nestedBuilder (Text.ofString s)) := fun hs =>
    @balanced_nestedBuilder _ [] ⟨.of_isLetters hs, trivial⟩
  simp only [renderedKeywords, List.mem_cons, List.not_mem_nil, or_false] at h
  rcases h with rfl | rfl | rfl | rfl | rfl | rfl | rfl
  · exact balanced_string name
  · exact balanced_constants.1
  · exact balanced_constants.2.1
  · exact .nil
  · exact huser (s := "object") (by decide)
  · exact huser (s := "any") (by decide)
  · exact .nil

/-- **The default value of a type that can be spelled is balanced.** The induction is on how the
type is spelled. A union or an intersection takes the value of its first member; a tuple puts
those of its members into brackets; a function returns that of its result. -/
theorem Spelled.sampled {tables : Tables} {p : Phrase} {e : Prop} {ws : List Word}
    (h : Spelled tables p e ws) (he : ¬e) : p.Sampled := by
  induction h with
  | keyword h => exact balanced_keyword h
  | name h => exact balanced_sample_ofName (h.parts.mono he)
  | @generic e first more types ws h _ hu _ _ =>
    intro name
    rw [hu]
    exact balanced_nestedBuilder h.parts
  | emptyTuple => exact fun name => .group_of (by decide) .nil
  | @tuple e types ws _ ih =>
    intro name
    rw [Ty.sample, sampleAll_eq_map]
    refine .group_of (by decide) (.join (.solo (by decide) (.blank .nil)) ?_)
    intro s hs
    obtain ⟨t, ht, rfl⟩ := List.mem_map.1 hs
    exact ih id .any t (List.mem_map_of_mem ht) name
  | operand _ ih => exact ih he
  | arrays n _ _ ih => exact balanced_arrays (ih id) (n + 1)
  | factor _ ih => exact ih he
  -- Such a list has a member, or there would be nothing to spell.
  | @intersection e types ws hl _ ih =>
    cases types with
    | nil => exact absurd hl (by decide)
    | cons t types => exact ih he .operand t (.head _)
  | alternative _ ih => exact ih he
  | @union e types ws hl _ ih =>
    cases types with
    | nil => exact absurd hl (by decide)
    | cons t types => exact ih he .factor t (.head _)
  | any _ ih => exact ih he
  | thunk _ ih => exact @balanced_arrow [] _ false [] (fun _ => .nil) .nil (ih he)
  | @arrow e params t ws vs hp _ _ ih =>
    -- Between the parentheses stand the parameters as they were spelled.
    refine balanced_arrow (b := false) (fun u => ?_) hp.brackets_nested (ih he)
    rw [paramListText, renderParams_eq_map]
    have hcuts := hp.cuts (u := .char ')' :: u) (stopsName_cons.2 (by decide)) False.elim
    rwa [Phrase.text, List.map_map] at hcuts
  | param => trivial
  | @one e g i ws _ ih =>
    intro l t ht
    rw [← List.mem_singleton.1 ht] at ih
    exact ih he
  | @cons e g i items ws vs _ _ ih ihs =>
    intro l t ht
    rcases List.mem_cons.1 ht with rfl | ht
    · exact ih id
    · exact ihs he l t ht

end Exemplar
