import Exemplar.Extract.Mapping
import Exemplar.Grammar.Types
import Exemplar.Proofs.Token.Words

/-!
# The words of a rendered type

A type is rendered without parentheses, so its text can only be read back if its parts stand in
the order of precedence: no union inside an intersection, no function type inside a union, and
so on. `Spelled` is the grammar of rendered types. It relates a phrase – a type of a given level
of the grammar, a parameter, or a list of these – to the words of its text, and it says of every
name in the phrase what the grammar demands of it.

The predicate is one inductive family over phrases, lists of phrases among them, so that a proof
about all rendered types is one induction. It is also indexed by a proposition `e`: an escape at
the end of the last identifier may be cut off if `e` holds, which is the case only at the end of
a source.

The text of a phrase is cut into its words by the lexer (`Spelled.cuts`). That its words are
parsed back into the phrase is shown elsewhere.

Lists need a word of their own. What stands between items differs from place to place, and so
does what an item is: arguments are types of any form, members of a union are factors. Both are
part of the phrase, so a list of a kind is spelled by one rule.
-/

namespace Exemplar

open Exemplar.Lexeme

/-! ## Dotted names

A name may have several parts with points between them. It is one identifier in a tree, but as
many words in a text. -/

/-- A name with dots, from its parts. -/
def dotted (first : Text) (more : List Text) : Text :=
  more.foldl (fun name part => name ++ Text.ofString "." ++ part) first

/-- The words of a name with dots. -/
def dottedWords (first : Text) (more : List Text) : List Word :=
  .name first :: more.flatMap (fun part => [.mark ".", .name part])

/-- Behind the first part come the others, each with a point in front. -/
theorem dotted_eq (first : Text) (more : List Text) :
    dotted first more = first ++ more.flatMap (Text.ofString "." ++ ·) := by
  induction more generalizing first with
  | nil => simp [dotted]
  | cons part more ih =>
    have h := ih (first ++ Text.ofString "." ++ part)
    simp only [dotted, List.foldl_cons] at h ⊢
    rw [h]
    simp only [List.flatMap_cons, List.append_assoc]

/-- A name is not empty. -/
theorem dotted_ne_nil {first : Text} (h : first ≠ []) (more : List Text) :
    dotted first more ≠ [] := by
  rw [dotted_eq]
  exact List.append_ne_nil_of_left_ne_nil h _

/-- Of an identifier that is there, the text is taken as it is. -/
theorem identifierText_of_ne_nil {i : Tree.Identifier} (h : i.text ≠ []) :
    identifierText (some i) = i.text := by
  rw [identifierText]
  exact if_neg fun he => h (List.isEmpty_iff.1 he)

/-- All parts of a name are identifiers, and only the last of them may be cut off. -/
def NameParts (e : Prop) : List Text → Prop
  | [] => True
  | x :: rest => IsName (e ∧ rest = []) x ∧ NameParts e rest

/-- More may be cut off. -/
theorem NameParts.mono {e e' : Prop} (he : e → e') :
    ∀ {parts : List Text}, NameParts e parts → NameParts e' parts
  | [], _ => trivial
  | _ :: _, h => ⟨h.1.mono fun h' => ⟨he h'.1, h'.2⟩, h.2.mono he⟩

/-- A name with dots that is read as a reference wherever a type may stand. -/
structure Named (e : Prop) (first : Text) (more : List Text) : Prop where
  /-- Its parts are identifiers. -/
  parts : NameParts e (first :: more)
  /-- It does not start with a literal or with `new`. -/
  starts : ∀ w ∈ ["true", "false", "new"], first ≠ Text.ofString w
  /-- It is no predefined type, and not `typeof`. -/
  whole : more = [] → Parser.isPredefined first = false ∧ first ≠ Text.ofString "typeof"

/-- Also of a name that is read as a reference. -/
theorem Named.mono {e e' : Prop} (he : e → e') {first : Text} {more : List Text}
    (h : Named e first more) : Named e' first more :=
  ⟨h.parts.mono he, h.starts, h.whole⟩

/-- A name that is an operator on types where a type follows it. -/
def Bare (ws : List Word) : Prop := ∃ w : Word, ws = [w] ∧ Parser.isTypeOperator w.token = true

/-! ## Phrases -/

/-- The levels of the grammar of types, from the tightest to the loosest. -/
inductive Level where
  | atom
  | operand
  | factor
  | union
  | any
deriving DecidableEq

/-- What a list can be a list of. -/
inductive Item where
  /-- A type of some level. -/
  | type (level : Level) (t : Ty)
  /-- A parameter. -/
  | param (p : Param)

/-- The text of an item. -/
def Item.text : Item → Text
  | .type _ t => t.render
  | .param p => p.render

/-- What stands between the items of a list. -/
inductive Glue where
  /-- A comma and a blank, between arguments and parameters. -/
  | arguments
  /-- A comma, between the elements of a tuple. -/
  | elements
  /-- A bar, between the members of a union. -/
  | alternatives
  /-- An ampersand, between the members of an intersection. -/
  | factors
deriving DecidableEq

/-- The text between two items. -/
def Glue.text : Glue → Text
  | .arguments => Text.ofString ", "
  | .elements => Text.ofString ","
  | .alternatives => Text.ofString " | "
  | .factors => Text.ofString " & "

/-- The punctuator between two items. -/
def Glue.mark : Glue → String
  | .arguments => ","
  | .elements => ","
  | .alternatives => "|"
  | .factors => "&"

/-- A piece of a rendered type. -/
inductive Phrase where
  /-- An item. -/
  | item (i : Item)
  /-- Items with something between them. -/
  | list (g : Glue) (items : List Item)

/-- The text of a phrase. -/
def Phrase.text : Phrase → Text
  | .item i => i.text
  | .list g items => Text.join g.text (items.map Item.text)

/-- The predefined types that a rendered type can be. -/
def renderedKeywords : List String :=
  ["string", "number", "boolean", "void", "object", "any", "unknown"]

/-- So many pairs of brackets. -/
def brackets : Nat → List Word
  | 0 => []
  | n + 1 => .mark "[" :: .mark "]" :: brackets n

/-- A type in so many arrays. -/
def Ty.arrays (t : Ty) : Nat → Ty
  | 0 => t
  | n + 1 => .array (t.arrays n)

/-- **The grammar of rendered types**: the words of a phrase in which everything stands where its
precedence allows it without parentheses. -/
inductive Spelled (tables : Tables) : Phrase → Prop → List Word → Prop
  /-- A predefined type. -/
  | keyword {e : Prop} {w : String} (h : w ∈ renderedKeywords) :
      Spelled tables (.item (.type .atom (.ofKeyword (.ofString w)))) e [.name (.ofString w)]
  /-- A reference without arguments. -/
  | name {e : Prop} {first : Text} {more : List Text} (h : Named e first more) :
      Spelled tables (.item (.type .atom (.ofName tables (dotted first more) []))) e
        (dottedWords first more)
  /-- A reference with arguments, to a type that is not known by its name. -/
  | generic {e : Prop} {first : Text} {more : List Text} {types : List Ty} {ws : List Word}
      (h : Named False first more) (hop : ¬Bare (dottedWords first more))
      (hu : Ty.ofName tables (dotted first more) types
        = .user (dotted first more) (types.map (.mk · [])))
      (ha : Spelled tables (.list .arguments (types.map (.type .any))) False ws) :
      Spelled tables (.item (.type .atom (.ofName tables (dotted first more) types))) e
        (dottedWords first more ++ (Word.mark "<" :: (ws ++ [Word.mark ">"])))
  /-- The empty tuple. -/
  | emptyTuple {e : Prop} :
      Spelled tables (.item (.type .atom (.tuple []))) e [.mark "[", .mark "]"]
  /-- A tuple. -/
  | tuple {e : Prop} {types : List Ty} {ws : List Word}
      (h : Spelled tables (.list .elements (types.map (.type .any))) False ws) :
      Spelled tables (.item (.type .atom (.tuple types))) e
      (.mark "[" :: (ws ++ [Word.mark "]"]))
  /-- An atom is an operand. -/
  | operand {e : Prop} {t : Ty} {ws : List Word}
      (h : Spelled tables (.item (.type .atom t)) e ws) :
      Spelled tables (.item (.type .operand t)) e ws
  /-- Arrays, the innermost of atoms. -/
  | arrays {e : Prop} {t : Ty} {ws : List Word} (n : Nat)
      (h : Spelled tables (.item (.type .atom t)) False ws) (hop : ¬Bare ws) :
      Spelled tables (.item (.type .operand (t.arrays (n + 1)))) e (ws ++ brackets (n + 1))
  /-- An operand is a factor. -/
  | factor {e : Prop} {t : Ty} {ws : List Word}
      (h : Spelled tables (.item (.type .operand t)) e ws) :
      Spelled tables (.item (.type .factor t)) e ws
  /-- An intersection. -/
  | intersection {e : Prop} {types : List Ty} {ws : List Word} (hl : 2 ≤ types.length)
      (h : Spelled tables (.list .factors (types.map (.type .operand))) e ws) :
      Spelled tables (.item (.type .factor (.intersection types))) e ws
  /-- A factor is a union of one. -/
  | alternative {e : Prop} {t : Ty} {ws : List Word}
      (h : Spelled tables (.item (.type .factor t)) e ws) :
      Spelled tables (.item (.type .union t)) e ws
  /-- A union. -/
  | union {e : Prop} {types : List Ty} {ws : List Word} (hl : 2 ≤ types.length)
      (h : Spelled tables (.list .alternatives (types.map (.type .factor))) e ws) :
      Spelled tables (.item (.type .union (.union types))) e ws
  /-- A union is a type. -/
  | any {e : Prop} {t : Ty} {ws : List Word}
      (h : Spelled tables (.item (.type .union t)) e ws) :
      Spelled tables (.item (.type .any t)) e ws
  /-- A function type without parameters. -/
  | thunk {e : Prop} {t : Ty} {ws : List Word}
      (h : Spelled tables (.item (.type .any t)) e ws) :
      Spelled tables (.item (.type .any (.arrow [] t))) e
        (.mark "(" :: .mark ")" :: .mark "=>" :: ws)
  /-- A function type. -/
  | arrow {e : Prop} {params : List Param} {t : Ty} {ws vs : List Word}
      (hp : Spelled tables (.list .arguments (params.map .param)) False ws)
      (h : Spelled tables (.item (.type .any t)) e vs) :
      Spelled tables (.item (.type .any (.arrow params t))) e
        (.mark "(" :: (ws ++ (.mark ")" :: .mark "=>" :: vs)))
  /-- A parameter. -/
  | param {e : Prop} {x : Text} {t : Ty} {ws : List Word} (hx : IsName False x)
      (h : Spelled tables (.item (.type .any t)) e ws) :
      Spelled tables (.item (.param (.mk x t))) e (.name x :: .mark ":" :: ws)
  /-- A list of one item. -/
  | one {e : Prop} {g : Glue} {i : Item} {ws : List Word} (h : Spelled tables (.item i) e ws) :
      Spelled tables (.list g [i]) e ws
  /-- A list of more items, of which only the last may be cut off. -/
  | cons {e : Prop} {g : Glue} {i : Item} {items : List Item} {ws vs : List Word}
      (h : Spelled tables (.item i) False ws) (hs : Spelled tables (.list g items) e vs) :
      Spelled tables (.list g (i :: items)) e (ws ++ (.mark g.mark :: vs))

/-! ## Texts of phrases

Rendering follows the type, and the text of a phrase is put together from the texts of its
items. These are equal for each form of type. -/

/-- Types are rendered one by one. -/
theorem renderAll_eq_map (types : List Ty) : renderAll types = types.map Ty.render := by
  induction types with
  | nil => rfl
  | cons t types ih => exact congrArg (t.render :: ·) ih

/-- So are parameters. -/
theorem renderParams_eq_map (params : List Param) :
    renderParams params = params.map Param.render := by
  induction params with
  | nil => rfl
  | cons p params ih => exact congrArg (p.render :: ·) ih

/-- And arguments that have none of their own. -/
theorem renderArguments_map_mk (types : List Ty) :
    renderArguments (types.map (.mk · [])) = types.map Ty.render := by
  induction types with
  | nil => rfl
  | cons t types ih =>
    rw [List.map_cons, renderArguments, ih, GenericArgument.render, renderArguments, angled]
    simp

/-- A type resolved by its name alone is rendered by it. -/
theorem Ty.render_ofName (tables : Tables) (name : Text) :
    (Ty.ofName tables name []).render = name := by
  unfold Ty.ofName
  split
  · rfl
  · split
    · rfl
    · rw [Ty.render, List.map_nil, renderArguments, angled]
      exact List.append_nil name

/-- Each array puts a pair of brackets behind. -/
theorem Ty.render_arrays (t : Ty) (n : Nat) :
    (t.arrays n).render = t.render ++ (List.replicate n (Text.ofString "[]")).flatten := by
  induction n with
  | zero => simp [Ty.arrays]
  | succ n ih =>
    rw [Ty.arrays, Ty.render, ih, List.append_assoc,
      ← List.flatten_concat, ← List.replicate_succ']

namespace Phrase

/-- A list of more than one item. -/
theorem text_cons (g : Glue) (i j : Item) (items : List Item) :
    text (.list g (i :: j :: items)) = i.text ++ g.text ++ text (.list g (j :: items)) := rfl

/-- The text of a list of types. -/
theorem text_types (g : Glue) (l : Level) (types : List Ty) :
    text (.list g (types.map (.type l))) = Text.join g.text (types.map Ty.render) := by
  rw [text, List.map_map]; rfl

/-- An intersection is the list of its members. -/
theorem text_intersection (l : Level) (types : List Ty) :
    text (.item (.type l (.intersection types)))
      = text (.list .factors (types.map (.type .operand))) := by
  rw [text_types, ← renderAll_eq_map]; rfl

/-- So is a union. -/
theorem text_union (l : Level) (types : List Ty) :
    text (.item (.type l (.union types)))
      = text (.list .alternatives (types.map (.type .factor))) := by
  rw [text_types, ← renderAll_eq_map]; rfl

/-- A tuple is the list of its elements between brackets. -/
theorem text_tuple (l : Level) (types : List Ty) :
    text (.item (.type l (.tuple types)))
      = Text.ofString "[" ++ text (.list .elements (types.map (.type .any)))
        ++ Text.ofString "]" := by
  rw [text_types, ← renderAll_eq_map]; rfl

/-- A function is the list of its parameters in parentheses, an arrow, and its result. -/
theorem text_arrow (l : Level) (params : List Param) (t : Ty) :
    text (.item (.type l (.arrow params t)))
      = Text.ofString "(" ++ text (.list .arguments (params.map .param))
        ++ Text.ofString ") => " ++ t.render := by
  have hparams : (params.map Item.param).map Item.text = renderParams params := by
    rw [List.map_map, renderParams_eq_map]; rfl
  show _ = _ ++ Text.join _ ((params.map Item.param).map Item.text) ++ _ ++ _
  rw [hparams]; rfl

/-- A reference with arguments is its name and the list of them in angle brackets. -/
theorem text_user (l : Level) (name : Text) {types : List Ty} (h : types ≠ []) :
    text (.item (.type l (.user name (types.map (.mk · [])))))
      = name ++ (Text.ofString "<" ++ text (.list .arguments (types.map (.type .any)))
        ++ Text.ofString ">") := by
  have hne : (types.map Ty.render).isEmpty = false := by
    cases types with
    | nil => exact absurd rfl h
    | cons t types => rfl
  rw [text_types, text, Item.text, Ty.render, renderArguments_map_mk, angled, hne]; rfl

end Phrase

/-! ## Cutting the text of a phrase

By induction on how the phrase is spelled. What has to be known of what comes behind is that it
goes on with no identifier, if the phrase ends with one, and that a point is followed by no
digit. -/

theorem cuts_flatMap_parts {e : Prop} {u : Text} (hu : StopsName u) (he : e → u = []) :
    ∀ {parts : List Text}, NameParts e parts →
      Cuts false false (parts.flatMap (Text.ofString "." ++ ·))
        (parts.flatMap (fun part => [.mark ".", .name part])) u := by
  intro parts
  induction parts with
  | nil => exact fun _ => .nil
  | cons x rest ih =>
    intro h
    rw [List.flatMap_cons, List.flatMap_cons]
    refine Cuts.append (v := [.mark ".", .name x]) ?_ (ih h.2)
    have hrest : StopsName (rest.flatMap (Text.ofString "." ++ ·) ++ u) := by
      cases rest with
      | nil => exact hu
      | cons y rest => exact stopsName_cons.2 (by decide)
    have hx : Cuts false false x [.name x] (rest.flatMap (Text.ofString "." ++ ·) ++ u) := by
      refine Cuts.name (h.1.mono fun h' => ?_) hrest
      rw [h'.2, he h'.1]; rfl
    refine Cuts.append (s := Text.ofString ".") (v := [.mark "."]) ?_ hx
    have hd := h.1.stopsMark (rest.flatMap (Text.ofString "." ++ ·) ++ u)
    exact Cuts.stopped (by decide) hd.1 fun _ => hd.2

/-- The text of a name is cut into its parts and the dots between them. -/
theorem NameParts.cuts {e : Prop} {first : Text} {more : List Text}
    (h : NameParts e (first :: more)) {u : Text} (hu : StopsName u) (he : e → u = []) :
    Cuts false false (dotted first more) (dottedWords first more) u := by
  rw [dotted_eq, dottedWords, ← List.singleton_append]
  refine Cuts.append ?_ (cuts_flatMap_parts hu he h.2)
  refine Cuts.name (h.1.mono fun h' => ?_) ?_
  · rw [h'.2, he h'.1]; rfl
  · cases more with
    | nil => exact hu
    | cons x rest => exact stopsName_cons.2 (by decide)

theorem Glue.cuts (g : Glue) (u : Text) : Cuts false false g.text [.mark g.mark] u := by
  have hblank : ∀ v : Text, StopsMark (.char ' ' :: v) := fun v => stopsMark_cons.2 (by decide)
  cases g with
  | arguments => exact Cuts.append (s := [.char ',']) (Cuts.solo (by decide)) Cuts.blank
  | elements => exact Cuts.solo (by decide)
  | alternatives =>
    refine Cuts.append (s := [.char ' ']) (v := []) Cuts.blank ?_
    exact Cuts.append (s := [.char '|']) (Cuts.stopped (by decide) (hblank _)
      fun h => absurd h (by decide)) Cuts.blank
  | factors =>
    refine Cuts.append (s := [.char ' ']) (v := []) Cuts.blank ?_
    exact Cuts.append (s := [.char '&']) (Cuts.stopped (by decide) (hblank _)
      fun h => absurd h (by decide)) Cuts.blank

theorem Glue.stopsName (g : Glue) (u : Text) : StopsName (g.text ++ u) := by
  cases g <;> exact stopsName_cons.2 (by decide)

theorem cuts_brackets (n : Nat) (u : Text) :
    Cuts false false (List.replicate n (Text.ofString "[]")).flatten (brackets n) u := by
  induction n with
  | zero => exact .nil
  | succ n ih =>
    rw [List.replicate_succ, List.flatten_cons]
    refine Cuts.append (s := Text.ofString "[]") (v := [.mark "[", .mark "]"]) ?_ ih
    exact Cuts.append (s := [.char '[']) (v := [.mark "["]) (t := [.char ']'])
      (Cuts.solo (by decide)) (Cuts.solo (by decide))

namespace Spelled

variable {tables : Tables} {p : Phrase} {e : Prop} {ws : List Word}

theorem ne_nil_of_list {g : Glue} {items : List Item} (h : Spelled tables (.list g items) e ws) :
    items ≠ [] := by
  cases h <;> exact List.cons_ne_nil _ _

theorem types_ne_nil {g : Glue} {l : Level} {types : List Ty}
    (h : Spelled tables (.list g (types.map (.type l))) e ws) : types ≠ [] :=
  fun ht => h.ne_nil_of_list (by rw [ht]; rfl)

/-- No punctuator goes on with the text of a phrase. The text begins with a name or with a
bracket, and no punctuator of the grammar has one of these behind its first glyph. -/
theorem stopsMark (h : Spelled tables p e ws) (u : Text) : StopsMark (p.text ++ u) := by
  induction h generalizing u with
  | keyword h =>
    have key : ∀ w ∈ renderedKeywords,
        isLetters (Ty.ofKeyword (Text.ofString w)).render = true := by
      decide
    exact ((IsName.of_isLetters (key _ h) : IsName False _).stopsMark u).1
  | name h =>
    rw [Phrase.text, Item.text, Ty.render_ofName, dotted_eq, List.append_assoc]
    exact (h.parts.1.stopsMark _).1
  | generic h _ hu ha _ =>
    rw [hu, Phrase.text_user _ _ ha.types_ne_nil, dotted_eq,
      List.append_assoc, List.append_assoc]
    exact (h.parts.1.stopsMark _).1
  -- Here it begins with a bracket.
  | emptyTuple => exact stopsMark_cons.2 (by decide)
  | tuple => exact stopsMark_cons.2 (by decide)
  | operand _ ih => exact ih u
  | arrays n _ _ ih =>
    rw [Phrase.text, Item.text, Ty.render_arrays, List.append_assoc]
    exact ih _
  | factor _ ih => exact ih u
  | intersection _ _ ih => rw [Phrase.text_intersection]; exact ih u
  | alternative _ ih => exact ih u
  | union _ _ ih => rw [Phrase.text_union]; exact ih u
  | any _ ih => exact ih u
  | thunk => exact stopsMark_cons.2 (by decide)
  | arrow => exact stopsMark_cons.2 (by decide)
  | param hx =>
    rw [Phrase.text, Item.text, Param.render, List.append_assoc, List.append_assoc]
    exact (hx.stopsMark _).1
  | one _ ih => exact ih u
  | @cons e g i items _ _ _ hs ih _ =>
    cases items with
    | nil => exact ih u
    | cons j items =>
      rw [Phrase.text_cons, List.append_assoc, List.append_assoc]
      exact ih _

/-- **The text of a phrase is cut into its words** in front of whatever goes on with no
identifier. A phrase that is cut off is so only at the end of the source. -/
theorem cuts (h : Spelled tables p e ws) {u : Text} (hu : StopsName u) (he : e → u = []) :
    Cuts false false p.text ws u := by
  -- A closing mark behind a name is no part of it, so names inside brackets end there.
  have hgt : ∀ v : Text, StopsName (Text.ofString ">" ++ v) :=
    fun v => stopsName_cons.2 (by decide)
  have hbracket : ∀ v : Text, StopsName (Text.ofString "]" ++ v) :=
    fun v => stopsName_cons.2 (by decide)
  have harrow : ∀ v :
      Text, Cuts false false (Text.ofString ") => ") [.mark ")", .mark "=>"] v := by
    intro v
    refine Cuts.append (s := [.char ')']) (v := [.mark ")"]) (Cuts.solo (by decide)) ?_
    refine Cuts.append (s := [.char ' ']) (v := []) Cuts.blank ?_
    exact Cuts.append (s := Text.ofString "=>") (v := [.mark "=>"]) Cuts.arrow Cuts.blank
  induction h generalizing u with
  | @keyword e w h =>
    -- There are finitely many keywords, and each is rendered as the word it is.
    have key : ∀ w ∈ renderedKeywords, isLetters (Text.ofString w) = true ∧
        (Ty.ofKeyword (Text.ofString w)).render = Text.ofString w := by
      decide
    rw [Phrase.text, Item.text, (key w h).2]
    exact Cuts.name (IsName.of_isLetters (key w h).1) hu
  -- The only phrase that may be cut off is a name.
  | name h =>
    rw [Phrase.text, Item.text, Ty.render_ofName]
    exact h.parts.cuts hu he
  | generic h _ hn ha ih =>
    rw [hn, Phrase.text_user _ _ ha.types_ne_nil]
    refine Cuts.append (h.parts.cuts (stopsName_cons.2 (by decide)) False.elim) ?_
    rw [List.append_assoc]
    refine Cuts.append (b := false) (s := [.char '<']) (v := [.mark "<"]) ?_ ?_
    · rw [List.append_assoc]
      exact Cuts.stopped (by decide) (ha.stopsMark _) fun h => absurd h (by decide)
    · exact Cuts.append (ih (hgt u) False.elim) (Cuts.solo (by decide))
  | emptyTuple =>
    exact Cuts.append (s := [.char '[']) (v := [.mark "["]) (t := [.char ']'])
      (Cuts.solo (by decide)) (Cuts.solo (by decide))
  | tuple h ih =>
    rw [Phrase.text_tuple, List.append_assoc]
    refine Cuts.append (s := [.char '[']) (v := [.mark "["]) (Cuts.solo (by decide)) ?_
    exact Cuts.append (ih (hbracket u) False.elim) (Cuts.solo (by decide))
  | operand _ ih => exact ih hu he
  | arrays n _ _ ih =>
    rw [Phrase.text, Item.text, Ty.render_arrays]
    refine Cuts.append (ih ?_ False.elim) (cuts_brackets (n + 1) u)
    exact stopsName_cons.2 (by decide)
  | factor _ ih => exact ih hu he
  | intersection _ _ ih => rw [Phrase.text_intersection]; exact ih hu he
  | alternative _ ih => exact ih hu he
  | union _ _ ih => rw [Phrase.text_union]; exact ih hu he
  | any _ ih => exact ih hu he
  | thunk _ ih =>
    rw [Phrase.text_arrow, List.append_assoc, List.append_assoc]
    refine Cuts.append (s := [.char '(']) (v := [.mark "("]) (Cuts.solo (by decide)) ?_
    exact Cuts.append (harrow _) (ih hu he)
  | arrow hp _ ihp ih =>
    rw [Phrase.text_arrow, List.append_assoc, List.append_assoc]
    refine Cuts.append (s := [.char '(']) (v := [.mark "("]) (Cuts.solo (by decide)) ?_
    refine Cuts.append (ihp (stopsName_cons.2 (by decide)) False.elim) ?_
    exact Cuts.append (harrow _) (ih hu he)
  | @param e x t ws hx _ ih =>
    rw [Phrase.text, Item.text, Param.render, List.append_assoc]
    refine Cuts.append (v := [.name x]) (Cuts.name (hx.mono False.elim) ?_) ?_
    · exact stopsName_cons.2 (by decide)
    refine Cuts.append (s := Text.ofString ": ") (v := [.mark ":"]) ?_ (ih hu he)
    exact Cuts.append (s := [.char ':']) (Cuts.solo (by decide)) Cuts.blank
  | one _ ih => exact ih hu he
  | @cons e g i items ws vs _ hs ih ihs =>
    cases items with
    | nil => exact absurd rfl hs.ne_nil_of_list
    | cons j items =>
      rw [Phrase.text_cons, List.append_assoc]
      refine Cuts.append (ih ?_ False.elim) ?_
      · rw [List.append_assoc]; exact g.stopsName _
      · exact Cuts.append (v := [.mark g.mark]) (g.cuts _) (ihs hu he)

end Spelled

end Exemplar
