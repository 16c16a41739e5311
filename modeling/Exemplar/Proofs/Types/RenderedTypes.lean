import Exemplar.Proofs.Grammar.BalancedTokens
import Exemplar.Proofs.Grammar.WordReadings
import Exemplar.Proofs.Types.Spelling

/-!
# Reading rendered types

The rules of the grammar of types read the words of a rendered type, each rule the phrases of
its level, and what they build is mapped back to the type the phrase was made from. A rule may
look at the word behind a phrase, so every level has a list of words that may follow
(`Level.follow`); the looser the level, the shorter the list.

A rule also looks at the words in front of it before it reads any of them, and a type could be
mistaken there for something else: a function for a type in parentheses, a name for a keyword, a
type for the name of an element in a tuple. What keeps it from that is how the words of a type
begin, and this is all that has to be known about a type in order to look at it (`Shape`). So a
reading of a phrase comes in two parts, the shape of its words and the run over them.

The induction over phrases is in `Spelled.read`. Before it come the rules, one by one, each with
what it reads if the rules it calls read theirs. How deep types may nest is counted down by the
rules, and a type of so many words needs no more than that; so the reading is said for every
depth that is at least the number of words.
-/

namespace Exemplar

open Exemplar.Tree Exemplar.Lexeme

/-- A tree that is there and is mapped to a type. -/
def Tree.TypeExpr.MapsTo (tables : Tables) (t : Ty) (n : TypeExpr) : Prop :=
  n.toTy tables = t ∧ n.isAbsent = false

namespace Parser

/-! ## Names

A name is read as a whole, with its points, and the text that is kept is the one that was
rendered. Behind it no point may follow. -/

/-- An identifier is read as its text. -/
theorem reads_identifier {x : Text} {b : Bool} {F : List Word} :
    Reads identifier [⟨.ident, x, b⟩] F (fun i => i.text = x) := by
  unfold identifier
  refine Reads.sees_bind (Sees.isIdent (forall_heads_cons.2 rfl)) (Reads.ite_pos rfl ?_)
  exact Reads.advance_bind fun t ht => Reads.pure (congrArg Word.text ht)

/-- **A name with points is read as that name.** The first part is an identifier, and each round
of the loop reads a point and another one. What may follow is no point, so the loop ends behind
the last part. -/
theorem reads_entityName {first : Text} {more : List Text} {F : List Word}
    (hF : ∀ w ∈ F, w.token.is "." = false) :
    Reads entityName (dottedWords first more) F (fun i => i.text = dotted first more) := by
  unfold entityName
  refine Reads.here_bind fun start => ?_
  rw [dottedWords, ← List.singleton_append]
  refine Reads.bind reads_identifier (fun i hi => ?_) fun w hw => hw
  rw [← List.append_nil (more.flatMap _), List.flatMap_def]
  refine Reads.bind (P := List.Forall₂ (fun x a => a = x) more) ?_
    (fun as has => ?_) fun w hw => hw
  · -- Each part starts with a point, and what follows a part is the next one or the end of the
    -- name.
    refine Reads.collect (G := .mark "." :: F) (fun w hw => List.mem_cons_of_mem _ hw) ?_ ?_
    · rw [List.forall₂_map_right_iff, List.forall₂_same]
      intro x _
      refine ⟨List.cons_ne_nil _ _, fun w hw => List.mem_cons.2 (.inl (by simpa using hw)), ?_⟩
      refine Reads.sees_bind (Sees.ahead (b := true) (fun _ => rfl) (fun _ => rfl) (by simp))
        (Reads.ite_pos rfl ?_)
      refine Reads.advance_bind fun _ _ => Reads.advance_bind fun t ht => ?_
      exact Reads.pure ⟨_, rfl, congrArg Word.text ht⟩
    · exact Reads.sees_bind (Sees.ahead_eq_false (fun _ => rfl) hF)
        (Reads.ite_neg Bool.false_ne_true (Reads.pure rfl))
  · refine Reads.spanFrom_bind fun s => Reads.pure ?_
    -- The parts that were read are those that were rendered.
    have : as = more := by
      induction has with
      | nil => rfl
      | cons ha _ ih => rw [ha, ih]
    rw [this, hi]; rfl

/-- Arguments are expected exactly if an angle bracket stands on the line of the name. -/
theorem sees_argumentsAhead {b : Bool} {ws F : List Word}
    (h : ∀ w ∈ heads ws F, (w.token.is "<" && !w.newlineBefore) = b) :
    Sees argumentsAhead ws F b := by
  intro c more hc
  rw [← h _ hc.current_mem]; rfl

/-! ## References

A reference is mapped to what the tables make of its name. It is rendered with arguments only if
it is resolved to a type of the user, so without them the mapping has to be asked again for the
same name, and it gives the same answer. -/

/-- A name without arguments is read as a reference, if neither a point nor an angle bracket
follows. -/
theorem reads_typeReference {type : Parser TypeExpr} (first : Text)
    (more : List Text) {F : List Word}
    (hF : ∀ w ∈ F, w.token.is "." = false ∧ (w.token.is "<" && !w.newlineBefore) = false) :
    Reads (typeReference type) (dottedWords first more) F
      (fun n => ∃ s i, n = .reference s (some i) none ∧ i.text = dotted first more) := by
  unfold typeReference
  refine Reads.here_bind fun start => ?_
  rw [← List.append_nil (dottedWords first more)]
  refine Reads.bind (reads_entityName fun w hw => (hF w hw).1) (fun i hi => ?_) fun w hw => hw
  have hargs : Sees (typeArguments? type) [] F none :=
    Sees.bind (sees_argumentsAhead fun w hw => (hF w hw).2)
      (Sees.ite_neg Bool.false_ne_true Sees.pure)
  exact Reads.sees_bind hargs (Reads.spanFrom_bind fun s => Reads.pure ⟨s, i, rfl, hi⟩)

/-- Trees that are mapped to types, one by one, are mapped to the list of them; none is absent,
so none is left out. -/
theorem mapTypes_eq_of_forall₂ {tables : Tables} {types : List Ty} {nodes : List TypeExpr}
    (h : List.Forall₂ (TypeExpr.MapsTo tables) types nodes) :
    mapTypes tables nodes = types := by
  induction h with
  | nil => rfl
  | @cons t n types nodes hn _ ih =>
    obtain ⟨rfl, hn⟩ := hn
    cases n with
    | absent => cases hn
    | _ => exact congrArg _ ih

/-- The same for parameters, of which none is ever left out. -/
theorem mapParams_eq_of_forall₂ {tables : Tables} {params : List Param} {nodes : List Parameter}
    (h : List.Forall₂ (fun p (n : Parameter) => n.toParam tables = p) params nodes) :
    mapParams tables nodes = params := by
  induction h with
  | nil => rfl
  | cons hn _ ih => rw [mapParams, hn, ih]

/-- The arguments stand between the angle brackets, of which the second may stand on a line of
its own. -/
theorem reads_typeReference_arguments {type : Parser TypeExpr} (first : Text) (more : List Text)
    {ws F : List Word} {v : Word} {P : List TypeExpr → Prop} (hv : v.token.is ">" = true)
    (ha : Reads (commaList ">" type) ws [v] P) :
    Reads (typeReference type) (dottedWords first more ++ (.mark "<" :: (ws ++ [v]))) F
      (fun n => ∃ s i ns, n = .reference s (some i) (some ns) ∧
        i.text = dotted first more ∧ P ns) := by
  unfold typeReference
  refine Reads.here_bind fun start => ?_
  refine Reads.bind (G := [.mark "<"]) (reads_entityName (by decide)) (fun i hi => ?_)
    fun w hw => hw
  -- The arguments, from one bracket to the other.
  have hargs : Reads (typeArguments? type) (.mark "<" :: (ws ++ [v])) F
      (fun o => ∃ ns, o = some ns ∧ P ns) := by
    refine Reads.sees_bind (sees_argumentsAhead (b := true) (forall_heads_cons.2 (by decide)))
      (Reads.ite_pos rfl ?_)
    rw [← List.append_nil (Word.mark "<" :: _)]
    refine Reads.bind (P := P) ?_ (fun ns hns => Reads.pure ⟨ns, rfl, hns⟩) fun w hw => hw
    refine Reads.expect_bind (by decide) ?_
    refine Reads.bind ha (fun ns hns => ?_) fun w hw => hw
    exact Reads.expect_bind hv (Reads.pure hns)
  rw [← List.append_nil (Word.mark "<" :: _)]
  refine Reads.bind hargs ?_ fun w hw => hw
  rintro _ ⟨ns, rfl, hns⟩
  exact Reads.spanFrom_bind fun s => Reads.pure ⟨s, i, ns, rfl, hi, hns⟩

/-- A reference is mapped to the type of its name and its arguments. A name is not empty, so the
text that is mapped is the one that was read. -/
theorem mapsTo_reference {tables : Tables} {e : Prop} {first : Text}
    {more : List Text} {types : List Ty}
    {n : TypeExpr} {s : Span} {i : Identifier} {as : Option (List TypeExpr)}
    (h : Named e first more) (hn : n = .reference s (some i) as)
    (hi : i.text = dotted first more)
    (has : mapTypes tables (as.getD []) = types) :
    TypeExpr.MapsTo tables (.ofName tables (dotted first more) types) n := by
  subst hn
  refine ⟨?_, rfl⟩
  have hne := identifierText_of_ne_nil (hi ▸ dotted_ne_nil h.parts.1.ne_nil more)
  cases as with
  | none => rw [TypeExpr.toTy, hne, hi, ← has]; rfl
  | some as => rw [TypeExpr.toTy, hne, hi, ← has]; rfl

/-! ## Shapes

Every rule for types first looks at one or two words. What it looks for is a word of the grammar
or a punctuator, and the shapes say which punctuators can come first in a type and what a first
identifier cannot be. -/

/-- The words that may follow a type. -/
def closers : List Word :=
  [.eof false, .eof true, .mark ",", .mark ")", .mark "]", .mark ">", .mark "="]

end Parser

/-- The words that may follow a type of some level. -/
def Level.follow : Level → List Word
  | .atom => .mark "[" :: .mark "&" :: .mark "|" :: Parser.closers
  | .operand => .mark "&" :: .mark "|" :: Parser.closers
  | .factor => .mark "|" :: Parser.closers
  | .union => Parser.closers
  | .any => Parser.closers

/-- The rule for the types of some level. -/
def Level.parser (nested : Parser.Nested) : Level → Parser TypeExpr
  | .atom => Parser.atomType nested.type
  | .operand => Parser.operatorType nested
  | .factor => Parser.intersectionType nested
  | .union => Parser.unionType nested
  | .any => Parser.anyType nested

/-- The words that may stand behind the first word of a type and belong to it, if that word is
an identifier. An identifier in front of any other word ends the type. -/
def joints : List Word := [.mark ".", .mark "<", .mark "[", .mark "&", .mark "|"]

/-- How the words of a type begin: with a bracket, with the parenthesis of a function type, or
with an identifier that the word behind it does not make a keyword. -/
inductive Shape : Level → List Word → Prop
  | tuple {l : Level} (ws : List Word) : Shape l (.mark "[" :: ws)
  | arrow (ws : List Word) : Shape .any (.mark "(" :: ws)
  | name {l : Level} (x : Text) (ws : List Word) (hn : IsName True x)
      (hx : x ≠ Text.ofString "new") (hj : ∀ w ∈ heads ws joints, w ∈ joints) :
      Shape l (.name x :: ws)

namespace Shape

variable {l l' : Level} {ws vs : List Word}

/-- A type has words. -/
theorem ne_nil (h : Shape l ws) : ws ≠ [] := by
  cases h <;> exact List.cons_ne_nil _ _

/-- The shape of a type is that of its first part. -/
theorem append (h : Shape l ws) (hl : l = .any → l' = .any)
    (hv : ∀ w ∈ heads vs joints, w ∈ joints) :
    Shape l' (ws ++ vs) := by
  cases h with
  | tuple ws => exact .tuple _
  | arrow ws => rw [hl rfl]; exact .arrow _
  | name x ws hn hx hj =>
    refine .name x (ws ++ vs) hn hx fun w hw => ?_
    cases ws with
    | nil => exact hv w hw
    | cons v ws => exact hj w hw

/-- A shape at one level is a shape at every level, except that a function is a type of any form
and of no other level. -/
theorem mono (h : Shape l ws) (hl : l = .any → l' = .any) : Shape l' ws := by
  rw [← List.append_nil ws]
  exact h.append hl fun w hw => hw

/-- A type does not start with a punctuator other than its own. An identifier is no punctuator,
and the punctuators with which a type can begin are the square bracket and, for a function, the
parenthesis. -/
theorem is_eq_false (h : Shape l ws) {s : String} (hs : startsName (Text.ofString s) = false)
    (hb : s ≠ "[") (hp : l = .any → s ≠ "(") (F : List Word) :
    ∀ w ∈ heads ws F, w.token.is s = false := by
  cases h with
  | tuple ws => simpa [forall_heads_cons] using hb.symm
  | arrow ws => simpa [forall_heads_cons] using (hp rfl).symm
  | name x ws hn =>
    simpa [forall_heads_cons] using hn.ne_of_startsName hs

/-- What looks at the first two words of a type for a keyword finds none. A test of this kind
asks for a word and then for the word behind it. The first is passed by identifiers only, and
the second by none of the words that can follow an identifier in a type (`hx`). -/
theorem sees_ahead {f g : Token → Bool} {F : List Word} (h : Shape l ws) (hf : Blind f)
    (hg : Blind g) (hb : f (Word.mark "[").token = false) (hp : f (Word.mark "(").token = false)
    (hx : ∀ x, x ≠ Text.ofString "new" → f (Word.name x).token = true →
      ∀ w ∈ joints ++ F, g w.token = false) :
    Parser.Sees (Parser.ahead f g) ws F false := by
  cases h with
  | tuple ws => exact Parser.Sees.ahead_eq_false hf (forall_heads_cons.2 hb)
  | arrow ws => exact Parser.Sees.ahead_eq_false hf (forall_heads_cons.2 hp)
  | name x ws hn hne hj =>
    refine Parser.Sees.ahead hf hg fun w hw => ?_
    cases hfx : f (Word.name x).token with
    | false => rfl
    | true =>
      refine hx x hne hfx w (List.mem_append.2 ?_)
      cases ws with
      | nil => exact .inr hw
      | cons v ws => exact .inl (hj w hw)

end Shape

namespace Parser

variable {tables : Tables} {type : Parser TypeExpr} {t : Ty} {ws vs F : List Word} {l : Level}

/-! ## Tuples

An element of a tuple is a type. Before it is read as one, the rule looks for three dots and for
a name with a colon or a question mark behind it. -/

/-- An element that begins like neither of the others is read as a type, and no question mark
follows it. -/
theorem reads_tupleElement {P : TypeExpr → Prop}
    (hdots : ∀ w ∈ heads ws F, w.token.is "..." = false)
    (hnamed : Sees namedElementAhead ws F false) (hF : ∀ w ∈ F, w.token.is "?" = false)
    (h : Reads type ws F P) : Reads (tupleElement type) ws F P := by
  unfold tupleElement
  refine Reads.here_bind fun start => ?_
  refine Reads.sees_bind (Sees.ahead₃_eq_false (Sees.ahead_eq_false (fun _ => rfl) hdots))
    (Reads.ite_neg Bool.false_ne_true ?_)
  refine Reads.sees_bind (Sees.got hdots) (Reads.ite_neg Bool.false_ne_true ?_)
  refine Reads.sees_bind hnamed (Reads.ite_neg Bool.false_ne_true ?_)
  rw [← List.append_nil ws]
  refine Reads.bind h (fun n hn => ?_) fun w hw => hw
  exact Reads.sees_bind (Sees.got hF) (Reads.ite_neg Bool.false_ne_true (Reads.pure hn))

/-- The words of a type are no named element. -/
theorem sees_namedElementAhead (hs : Shape .any ws) :
    Sees namedElementAhead ws [.mark ",", .mark "]"] false := by
  refine Sees.bind (hs.sees_ahead (fun _ => rfl) (fun _ => rfl) rfl rfl ?_)
    (Sees.ite_neg Bool.false_ne_true (Sees.ahead₃_eq_false
      (hs.sees_ahead (fun _ => rfl) (fun _ => rfl) rfl rfl ?_)))
  · exact fun _ _ _ => by decide
  · exact fun _ _ _ => by decide

/-- A tuple is the list of its elements between square brackets. -/
theorem reads_tupleType {start : Position} {v : Word} {P : List TypeExpr → Prop}
    (hv : v.token.is "]" = true) (h : Reads (commaList "]" (tupleElement type)) ws [v] P) :
    Reads (tupleType type start) (.mark "[" :: (ws ++ [v])) F
      (fun n => ∃ s ns, n = .tuple s ns ∧ P ns) := by
  unfold tupleType
  refine Reads.expect_bind (by decide) ?_
  refine Reads.bind h (fun ns hns => ?_) fun w hw => hw
  exact Reads.expect_bind hv (Reads.spanFrom_bind fun s => Reads.pure ⟨s, ns, rfl, hns⟩)

/-- A tuple is mapped to the tuple of what its elements are mapped to. -/
theorem mapsTo_tuple {types : List Ty} (n : TypeExpr)
    (h : ∃ s ns, n = .tuple s ns ∧ List.Forall₂ (TypeExpr.MapsTo tables) types ns) :
    TypeExpr.MapsTo tables (.tuple types) n := by
  obtain ⟨s, ns, rfl, hns⟩ := h
  exact ⟨by rw [TypeExpr.toTy, mapTypes_eq_of_forall₂ hns], rfl⟩

/-! ## Atoms

The kind of the first token selects the rule: an identifier that for words, a square bracket
that for tuples. -/

/-- What starts with an identifier is read by the rule for words. -/
theorem reads_atomType_of_wordType {x : Text} {P : TypeExpr → Prop}
    (h : ∀ start, Reads (wordType type start) (.name x :: ws) F P) :
    Reads (atomType type) (.name x :: ws) F P := by
  unfold atomType
  refine Reads.here_bind fun start => Reads.current_bind fun t ht => ?_
  have hk : t.kind = .ident := congrArg Word.kind (List.mem_singleton.1 ht)
  rw [hk]
  exact h start

/-- What starts with a square bracket is read as a tuple. The tests before that are for other
punctuators. -/
theorem reads_atomType_of_tupleType {P : TypeExpr → Prop}
    (h : ∀ start, Reads (tupleType type start) (.mark "[" :: ws) F P) :
    Reads (atomType type) (.mark "[" :: ws) F P := by
  unfold atomType
  refine Reads.here_bind fun start => Reads.current_bind fun t ht => ?_
  have hw : t.word = .mark "[" := List.mem_singleton.1 ht
  have hk : t.kind = .punct := congrArg Word.kind hw
  rw [hk]
  unfold markedType
  refine Reads.current_bind fun t ht => ?_
  have hw : t.word = .mark "[" := List.mem_singleton.1 ht
  have hp : t.is "(" = false := (Token.is_eq hw "(").trans (by decide)
  have hb : t.is "[" = true := (Token.is_eq hw "[").trans (by decide)
  refine Reads.sees_bind (Sees.ahead_eq_false (fun _ => rfl) (forall_heads_cons.2 (by decide)))
    (Reads.ite_neg Bool.false_ne_true ?_)
  exact Reads.ite_neg (by rw [hp]; decide) (Reads.ite_pos hb (h start))

/-- **A predefined word is read as the type it stands for**, if no point follows. Only the words
that are rendered are asked for here. -/
theorem reads_wordType_keyword {w : String} {start : Position} (hw : w ∈ renderedKeywords)
    (hF : ∀ w ∈ F, w.token.is "." = false) :
    Reads (wordType type start) [.name (.ofString w)] F
      (TypeExpr.MapsTo tables (.ofKeyword (.ofString w))) := by
  have key : ∀ w ∈ renderedKeywords, isPredefined (Text.ofString w) = true := by decide
  unfold wordType
  refine Reads.current_bind fun t ht => ?_
  have hx : t.text = .ofString w := congrArg Word.text (List.mem_singleton.1 ht)
  have hahead : Sees (ahead (fun t => isPredefined t.text) (fun next => !next.is "."))
      [.name (.ofString w)] F true := by
    refine Sees.ahead (fun _ => rfl) (fun _ => rfl) fun v hv => ?_
    rw [show isPredefined (Word.name (.ofString w)).token.text = true from key w hw, hF v hv];
      rfl
  refine Reads.sees_bind hahead (Reads.ite_pos rfl ?_)
  refine Reads.advance_bind fun _ _ => Reads.spanFrom_bind fun s => Reads.pure ⟨?_, rfl⟩
  rw [TypeExpr.toTy, hx]

/-- A name that is no keyword is read as a reference. A word that could be taken for a keyword
has a point behind it (`hF`), or it is none (`Named.whole`); `true`, `false` and `new` are none
in any case. -/
theorem reads_wordType_reference {e : Prop} {first : Text} {more : List Text} {start : Position}
    {P : TypeExpr → Prop} (hn : Named e first more)
    (hF : more = [] ∨ ∃ us, ws = .mark "." :: us)
    (h : Reads (typeReference type) (.name first :: ws) F P) :
    Reads (wordType type start) (.name first :: ws) F P := by
  -- A test for a keyword with no point behind it fails either way.
  have hdot : ∀ {q : Token → Bool}, Blind q → (more = [] → q (Word.name first).token = false) →
      Sees (ahead q (fun next => !next.is ".")) (.name first :: ws) F false := by
    intro q hq hw
    refine Sees.ahead hq (fun _ => rfl) fun v hv => ?_
    rcases hF with hm | ⟨us, rfl⟩
    · rw [hw hm]; rfl
    · rw [List.mem_singleton.1 hv]
      simp
  unfold wordType
  refine Reads.current_bind fun t ht => ?_
  have hword : t.word = .name first := List.mem_singleton.1 ht
  have his : ∀ s : String, t.is s = (first == Text.ofString s) := fun s =>
    (Token.is_eq hword s).trans (Word.name_is first s)
  refine Reads.sees_bind (hdot (fun _ => rfl) fun hm => (hn.whole hm).1)
    (Reads.ite_neg Bool.false_ne_true ?_)
  refine Reads.ite_neg ?_ ?_
  · rw [his, his, beq_false_of_ne (hn.starts "true" (by decide)),
      beq_false_of_ne (hn.starts "false" (by decide))]
    exact Bool.false_ne_true
  · refine Reads.sees_bind (hdot (fun _ => rfl) fun hm => ?_)
      (Reads.ite_neg Bool.false_ne_true h)
    rw [Word.name_is]
    exact beq_false_of_ne (hn.whole hm).2

/-! ## Operands

Behind an atom stand pairs of brackets, as many as there are arrays, and each pair is a round of
a loop. In front of it stands no operator. -/

/-- One pair of brackets makes an array of what stands before it. -/
theorem reads_bracketed {n : TypeExpr} {P : TypeExpr → Prop} (hn : ∀ s, P (.array s n)) :
    Reads (bracketed? type n) [.mark "[", .mark "]"] F (fun o => ∃ n', o = some n' ∧ P n') := by
  unfold bracketed?
  refine Reads.current_bind fun b hb => ?_
  have hw : b.word = .mark "[" := List.mem_singleton.1 hb
  have hc : (b.is "[" && !b.newlineBefore) =
      ((Word.mark "[").token.is "[" && !(Word.mark "[").newlineBefore) := by rw [← hw]; rfl
  refine Reads.ite_pos (by rw [hc]; decide) ?_
  refine Reads.advance_bind fun _ _ => Reads.got_bind (by decide) (Reads.ite_pos rfl ?_)
  exact Reads.spanFrom_bind fun s => Reads.pure ⟨_, rfl, hn _⟩

/-- An array is mapped to the array of what its elements are mapped to. -/
theorem mapsTo_array {s : Span} {n : TypeExpr} (h : TypeExpr.MapsTo tables t n) :
    TypeExpr.MapsTo tables (.array t) (.array s n) :=
  ⟨by rw [TypeExpr.toTy, h.1], rfl⟩

/-- **An atom and the pairs of brackets behind it.** The loop is run with what it has built so
far: behind `n - k` pairs of brackets that is an array so many times, and `k` pairs are still
ahead. -/
theorem reads_postfixType {P : Nat → TypeExpr → Prop}
    (hP : ∀ k s n, P k n → P (k + 1) (.array s n)) (n : Nat)
    (hF : ∀ w ∈ F, w.token.is "[" = false)
    (h : Reads (atomType type) ws (.mark "[" :: F) (P 0)) :
    Reads (postfixType type) (ws ++ brackets n) F (P n) := by
  -- The brackets are a list of pairs.
  have hb : brackets n = (List.replicate n [Word.mark "[", Word.mark "]"]).flatten := by
    induction n with
    | zero => rfl
    | succ n ih => rw [brackets, ih, List.replicate_succ]; rfl
  unfold postfixType
  rw [hb]
  refine Reads.bind h (fun a ha => ?_) ?_
  · -- behind `n - k` pairs of brackets, `k` of them are still ahead
    refine Reads.mono (Reads.iterate (F := F) (fun wss m => ∃ k ≤ n,
      wss = List.replicate k [.mark "[", .mark "]"] ∧ P (n - k) m)
      ?_ ?_ ?_ ⟨n, Nat.le_refl n, rfl, ?_⟩) (fun w hw => hw) ?_
    · rintro w wss m ⟨k, hk, hwss, hm⟩
      cases k with
      | zero => cases hwss
      | succ k =>
        obtain ⟨rfl, rfl⟩ := List.cons.inj hwss
        refine ⟨List.cons_ne_nil _ _, ?_⟩
        refine Reads.mono (reads_bracketed fun s => hP _ s _ hm) (fun w hw => hw) ?_
        rintro _ ⟨m', rfl, hm'⟩
        refine ⟨m', rfl, k, by omega, rfl, ?_⟩
        rw [show n - k = n - (k + 1) + 1 by omega]
        exact hm'
    · intro m _
      -- Behind the last pair no bracket follows.
      unfold bracketed?
      refine Reads.current_bind fun b hb => Reads.ite_neg ?_ (Reads.pure rfl)
      have : b.is "[" = false := hF _ hb
      rw [this]; exact Bool.false_ne_true
    · intro w hw
      rw [List.eq_of_mem_replicate hw]; exact List.cons_ne_nil _ _
    · rw [Nat.sub_self]; exact ha
    · rintro m ⟨k, -, hk, hm⟩
      have : k = 0 := by
        cases k with
        | zero => rfl
        | succ k => cases hk
      rwa [this] at hm
  · cases n with
    | zero => exact fun w hw => List.mem_cons_of_mem _ hw
    | succ n => exact forall_heads_cons.2 (.head _)

/-- No operator on types starts the words of a type. A word that is an operator stands alone or
before a point, so no type follows it directly. -/
def OpFree (ws : List Word) : Prop :=
  ∀ w vs, ws = w :: vs → isTypeOperator w.token = true → vs = [] ∨ ∃ us, vs = .mark "." :: us

/-- **An operand without an operator in front is read with its brackets.** The rule asks whether
an operator stands there with a type behind it, and whether `infer` does with a name behind it.
If the first word is an operator, what comes behind it is a point or no part of a type. -/
theorem reads_operatorType {nested : Nested} {P : TypeExpr → Prop} (hs : Shape .operand ws)
    (hop : OpFree ws) (h : Reads (postfixType nested.type) ws (Level.follow .operand) P) :
    Reads (operatorType nested) ws (Level.follow .operand) P := by
  -- No operator is found, whatever the first word is.
  have hno : Sees (ahead isTypeOperator startsType) ws (Level.follow .operand) false := by
    obtain ⟨w, vs, rfl⟩ := List.exists_cons_of_ne_nil hs.ne_nil
    refine Sees.ahead (fun _ => rfl) (fun _ => rfl) fun v hv => ?_
    cases hw : isTypeOperator w.token with
    | false => rfl
    | true =>
      rw [Bool.true_and]
      rcases hop w vs rfl hw with rfl | ⟨us, rfl⟩
      · have key : ∀ v ∈ Level.follow .operand, startsType v.token = false := by decide
        exact key v hv
      · rw [List.mem_singleton.1 hv]; decide
  unfold operatorType
  refine Reads.here_bind fun start => Reads.current_bind fun t _ => ?_
  refine Reads.sees_bind hno (Reads.ite_neg Bool.false_ne_true ?_)
  refine Reads.sees_bind (hs.sees_ahead (fun _ => rfl) (fun _ => rfl) (by decide) (by decide) ?_)
    (Reads.ite_neg Bool.false_ne_true h)
  exact fun _ _ _ => by decide

/-! ## Unions and intersections

One rule reads both (`separated`). It takes a mark in front of the first item, then the items;
if there is one item, that is the answer. -/

section Separated

variable {sep : String} {item : Parser TypeExpr} {build : Span → List TypeExpr → TypeExpr}

/-- One item is that item. -/
theorem reads_separated_one {P : TypeExpr → Prop}
    (hsep : ∀ w ∈ heads ws F, w.token.is sep = false)
    (hF : ∀ w ∈ F, w.token.is sep = false) (h : Reads item ws F P) :
    Reads (separated sep item build) ws F P := by
  unfold separated
  refine Reads.here_bind fun start => Reads.sees_bind (Sees.got hsep) ?_
  rw [← List.append_nil ws]
  refine Reads.bind h (fun n hn => ?_) fun w hw => hw
  have hnone : Sees (itemBehind sep item) [] F none :=
    Sees.bind (Sees.got hF) (Sees.ite_neg Bool.false_ne_true Sees.pure)
  exact Reads.sees_bind (Sees.collect_nil hnone) (Reads.pure hn)

/-- Several items are combined. The first item is read, and the loop reads a mark and an item in
each round. There are at least two, so a node is built. -/
theorem reads_separated_many {β : Type} {R : β → TypeExpr → Prop} {xs : List β}
    {wss : List (List Word)}
    {v : Word} (hv : v.token.is sep = true) (hl : 2 ≤ xs.length)
    (hsep : ∀ w ∈ heads ws F, w.token.is sep = false) (hF : ∀ w ∈ F, w.token.is sep = false)
    (h : List.Forall₂ (Reads.Entry v item F R) xs (ws :: wss)) :
    Reads (separated sep item build) (Reads.sepWords v ws wss) F
      (fun n => ∃ s ns, n = build s ns ∧ List.Forall₂ R xs ns) := by
  obtain ⟨x, xs, hx, hxs, rfl⟩ := List.forall₂_cons_right_iff.1 h
  have hsep' : ∀ w ∈ heads (Reads.sepWords v ws wss) F, w.token.is sep = false := by
    intro w hw
    rw [Reads.sepWords, heads_of_ne_nil hx.ne_nil] at hw
    exact hsep w hw
  unfold separated
  refine Reads.here_bind fun start => Reads.sees_bind (Sees.got hsep') ?_
  refine Reads.bind hx.reads (fun n hn => ?_) fun w hw => Reads.heads_separated hw
  rw [← List.append_nil (List.map _ wss).flatten]
  refine Reads.bind (Reads.collect_entries hv hF hxs) (fun ns hns => ?_) fun w hw => hw
  cases ns with
  | nil =>
    have := hns.length_eq
    simp only [List.length_cons, List.length_nil] at hl this
    omega
  | cons m ns => exact Reads.spanFrom_bind fun s => Reads.pure ⟨s, _, rfl, .cons hn hns⟩

end Separated

/-! ## Function types and types of any form

Whether a parenthesis starts a function is told by what stands behind its partner, however far
that is. The words between the two are properly nested, so the count of brackets finds the
partner. -/

/-- A union that no condition follows is that union. -/
theorem reads_conditionalType {nested : Nested} {start : Position} {P : TypeExpr → Prop}
    (hF : ∀ w ∈ F, w.token.is "extends" = false) (h : Reads (unionType nested) ws F P) :
    Reads (conditionalType nested start) ws F P := by
  have hno : Sees extendsAhead [] F false := by
    refine Sees.current_bind fun t ht => ?_
    have : t.is "extends" = false := hF _ ht
    rw [this]; exact Sees.pure
  unfold conditionalType
  rw [← List.append_nil ws]
  refine Reads.bind h (fun n hn => ?_) fun w hw => hw
  exact Reads.sees_bind hno (Reads.ite_neg Bool.false_ne_true (Reads.pure hn))

/-- **What does not begin like a function or a constructor is a union.** The rule looks for an
angle bracket or a parenthesis, then for `new` or for `abstract` with `new` behind it. -/
theorem reads_anyType_of_unionType {nested : Nested} {P : TypeExpr → Prop} (hs : Shape .union ws)
    (h : Reads (unionType nested) ws closers P) : Reads (anyType nested) ws closers P := by
  -- No function starts here.
  have hfun : Sees functionTypeAhead ws closers false := by
    refine Sees.current_bind fun t ht => ?_
    have hlt : t.is "<" = false :=
      hs.is_eq_false (by decide) (by decide) (fun h => by cases h) _ _ ht
    have hparen : t.is "(" = false :=
      hs.is_eq_false (by decide) (by decide) (fun h => by cases h) _ _ ht
    rw [hlt, hparen]; exact Sees.pure
  -- No constructor starts here either.
  have hnew : ∀ w ∈ heads ws closers, w.token.is "new" = false := by
    cases hs with
    | tuple ws => exact forall_heads_cons.2 (by decide)
    | name x ws _ hx =>
      exact forall_heads_cons.2 (by rw [Word.name_is]; exact beq_false_of_ne hx)
  have hcon : Sees constructorTypeAhead ws closers false := by
    refine Sees.bind (Sees.is hnew) (Sees.ite_neg Bool.false_ne_true ?_)
    exact hs.sees_ahead (fun _ => rfl) (fun _ => rfl) (by decide) (by decide)
      fun _ _ _ => by decide
  unfold anyType
  refine Reads.here_bind fun start => ?_
  refine Reads.sees_bind hfun (Reads.ite_neg Bool.false_ne_true ?_)
  exact Reads.sees_bind hcon
    (Reads.ite_neg Bool.false_ne_true (reads_conditionalType (by decide) h))

/-- A result type that does not begin like a predicate is a type. -/
theorem reads_returnType {P : TypeExpr → Prop}
    (hasserts : Sees
      (ahead (·.is "asserts") (fun t => t.isIdent && !t.newlineBefore)) ws F false)
    (his : Sees (ahead (·.isIdent) (fun t => t.is "is" && !t.newlineBefore)) ws F false)
    (h : Reads type ws F P) : Reads (returnType type) ws F P := by
  unfold returnType
  refine Reads.here_bind fun start => ?_
  refine Reads.sees_bind hasserts (Reads.ite_neg Bool.false_ne_true ?_)
  exact Reads.sees_bind his (Reads.ite_neg Bool.false_ne_true h)

/-- A type that is rendered does not begin like a predicate: a name stands before `is` only
there. -/
theorem reads_returnType_of_shape {P : TypeExpr → Prop} (hs : Shape .any ws)
    (h : Reads type ws closers P) :
    Reads (returnType type) ws closers P :=
  reads_returnType
    (hs.sees_ahead (fun _ => rfl) (fun _ => rfl) (by decide) (by decide) fun _ _ _ => by decide)
    (hs.sees_ahead (fun _ => rfl) (fun _ => rfl) (by decide) (by decide) fun _ _ _ => by decide)
    h

/-- **What stands behind a group of parentheses tells whether a function type starts there.**
The count starts at the opening parenthesis and comes back to zero behind the words (`hl`), so
the partner is the closing bracket that stands there. The token behind it is the one that is
looked at, or the end of the source. -/
theorem sees_functionTypeAhead {v : Word} {b : Bool}
    (hl : Brackets.level 0 (ws.map Word.token) = some 0)
    (hv : v.token.isCloser = true) (hb : ∀ w ∈ heads vs F, w.token.is "=>" = b) :
    Sees functionTypeAhead (.mark "(" :: (ws ++ (v :: vs))) F b := by
  intro c more hc
  obtain ⟨toks, hr, hw⟩ := hc.split
  -- The tokens are cut as the words are.
  obtain ⟨o, toks, rfl, ho, hw⟩ := List.map_eq_cons_iff.1 hw
  obtain ⟨inner, toks, rfl, hinner, hw⟩ := List.map_eq_append_iff.1 hw
  obtain ⟨p, toks, rfl, hp, hw⟩ := List.map_eq_cons_iff.1 hw
  have hrest : c.rest = o :: (inner ++ p :: (toks ++ more)) := by rw [hr]; simp
  have hopen : o.isOpener = true := (Blind.eq (fun _ => rfl) ho).trans (by decide)
  have hclose : p.isCloser = true := (Blind.eq (fun _ => rfl) hp).trans hv
  have hmatching : Brackets.matching 0 c.rest = some (inner.length + 1) := by
    rw [hrest]
    exact Brackets.matching_group_of_level hopen hclose
      (by rw [← Brackets.level_words, hinner, hl]) _
  have hnext : ((toks ++ more).head?.getD c.ending.token).word ∈ heads vs F := by
    cases toks with
    | nil => rw [← hw]; exact hc.next
    | cons a toks => rw [← hw]; exact List.mem_singleton.2 rfl
  -- What is looked at is the token behind the partner.
  have hpeek : peek (inner.length + 1 + 1) c
      = .ok ((toks ++ more).head?.getD c.ending.token, c) := by
    rw [peek_run hc.clean.fault, hrest, List.getElem?_cons_succ,
      List.getElem?_append_right (by omega), Nat.add_sub_cancel_left,
      List.getElem?_cons_succ, List.head?_eq_getElem?]
  have hlt : o.is "<" = false := (Token.is_eq ho "<").trans (by decide)
  have hparen : o.is "(" = true := (Token.is_eq ho "(").trans (by decide)
  unfold functionTypeAhead
  rw [current_bind, Cursor.current_of_cons hrest, hlt, hparen,
    if_neg Bool.false_ne_true, if_pos rfl,
    bind_of_ok (closingBracket_run hc.clean.fault), hmatching]
  show (peek (inner.length + 1 + 1) >>= fun t => (return t.is "=>" : Parser Bool)) c = _
  rw [bind_of_ok hpeek, ← hb _ hnext]
  rfl

/-- Nothing to be skipped stands before the words ahead. -/
theorem sees_skipDecorators (h : ∀ w ∈ heads ws F, w.token.is "@" = false) :
    Sees skipDecorators ws F () :=
  Sees.whileDo (Sees.got h)

/-- No modifier stands before the words ahead. -/
theorem sees_modifiersWhile {test : Parser Bool} (h : Sees test ws F false) :
    Sees (modifiersWhile test) ws F [] :=
  Sees.bind
    (Sees.collect_nil (Sees.bind h (Sees.ite_neg Bool.false_ne_true Sees.pure))) Sees.pure

/-- The words that may follow a parameter. -/
def paramFollow : List Word := [.mark ",", .mark ")"]

/-- **A parameter is a name, a colon and a type.** In front of the name stand neither decorators
nor modifiers nor dots, and behind it no question mark. A name might be a modifier, but then the
start of another name would have to follow, and a colon follows. -/
theorem reads_parameter {x : Text} {P : TypeExpr → Prop} (hx : IsName False x)
    (hF : ∀ w ∈ F, w.token.is "=" = false) (h : Reads type ws F P) :
    Reads (parameter type) (.name x :: .mark ":" :: ws) F
      (fun p => ∃ s i n, p = .mk s [] (some i) false false n ∧ i.text = x ∧ P n) := by
  -- No punctuator stands in front of the name.
  have hmark : ∀ {s : String} {us G : List Word}, startsName (Text.ofString s) = false →
      ∀ w ∈ heads (.name x :: us) G, w.token.is s = false := by
    intro s us G hs
    exact forall_heads_cons.2
      (by rw [Word.name_is]; exact beq_false_of_ne (hx.ne_of_startsName hs))
  unfold parameter
  refine Reads.here_bind fun start => ?_
  refine Reads.sees_bind (sees_skipDecorators (hmark (by decide))) ?_
  refine Reads.sees_bind (sees_modifiersWhile (Sees.ahead (fun _ => rfl) (fun _ => rfl)
    (forall_heads_cons.2 ?_))) ?_
  · rw [show startsBinding (Word.mark ":").token = false by decide, Bool.and_false]
  refine Reads.sees_bind (Sees.got (hmark (by decide))) ?_
  -- The name itself.
  have hname : Reads parameterName [.name x] [.mark ":"] (fun o => ∃ i : Identifier,
      o = some i ∧ i.text = x) := by
    refine Reads.current_bind fun t ht => Reads.ite_pos ?_ ?_
    · exact Blind.eq (f := Token.isIdent) (fun _ => rfl) (List.mem_singleton.1 ht)
    · rw [← List.append_nil [Word.name x]]
      exact Reads.bind reads_identifier (fun i hi => Reads.pure ⟨i, rfl, hi⟩) fun w hw => hw
  rw [← List.singleton_append]
  refine Reads.bind hname ?_ fun w hw => hw
  rintro _ ⟨i, rfl, hi⟩
  refine Reads.sees_bind (Sees.got (forall_heads_cons.2 (by decide))) ?_
  rw [← List.append_nil (Word.mark ":" :: ws)]
  refine Reads.bind (P := P) ?_ (fun n hn => ?_) fun w hw => hw
  · exact Reads.got_bind (by decide) (Reads.ite_pos rfl h)
  -- No default value follows.
  have hdefault : Sees skipDefault [] F () :=
    Sees.bind (Sees.got hF) (Sees.ite_neg Bool.false_ne_true Sees.pure)
  exact Reads.sees_bind hdefault (Reads.spanFrom_bind fun s => Reads.pure ⟨s, i, n, rfl, hi, hn⟩)

/-- A parameter with a name is mapped to that name and its type. -/
theorem toParam_eq {x : Text} (hx : IsName False x) (p : Parameter)
    (h : ∃ s i n, p = .mk s [] (some i) false false n ∧ i.text = x ∧
      TypeExpr.MapsTo tables t n) :
    p.toParam tables = .mk x t := by
  obtain ⟨s, i, n, rfl, hi, hn⟩ := h
  have hne : i.text.isEmpty = false := by
    rw [hi]
    cases x with
    | nil => exact absurd rfl hx.ne_nil
    | cons g rest => rfl
  rw [Parameter.toParam, hn.1, identifierText, hne, hi]; rfl

/-- **A function type is read as the function between its parameters and its result.** No type
parameters stand in front. -/
theorem reads_functionType {start : Position} {v : Word}
    {P : List Parameter → Prop} {Q : TypeExpr → Prop}
    (hv : v.token.is ")" = true) (hp : Reads (commaList ")" (parameter type)) ws [v] P)
    (h : Reads (returnType type) vs F Q) :
    Reads (functionType type start) (.mark "(" :: (ws ++ (v :: .mark "=>" :: vs))) F
      (fun n => ∃ s ps r, n = .function s none ps r ∧ P ps ∧ Q r) := by
  unfold functionType
  have hgen :
      Sees (typeParameters? type) (.mark "(" :: (ws ++ (v :: .mark "=>" :: vs))) F none :=
    Sees.bind (Sees.got (forall_heads_cons.2 (by decide)))
      (Sees.ite_neg Bool.false_ne_true Sees.pure)
  refine Reads.sees_bind hgen ?_
  have hparams : Reads (parameters type) (.mark "(" :: (ws ++ [v])) [.mark "=>"] P := by
    refine Reads.expect_bind (by decide) (Reads.bind hp (fun ns hns => ?_) fun w hw => hw)
    exact Reads.expect_bind hv (Reads.pure hns)
  rw [show Word.mark "(" :: (ws ++ (v :: .mark "=>" :: vs))
    = (.mark "(" :: (ws ++ [v])) ++ (.mark "=>" :: vs) by simp]
  refine Reads.bind hparams (fun ns hns => ?_) fun w hw => hw
  refine Reads.expect_bind (by decide) ?_
  rw [← List.append_nil vs]
  refine Reads.bind h (fun n hn => ?_) fun w hw => hw
  exact Reads.spanFrom_bind fun s => Reads.pure ⟨s, ns, n, rfl, hns, hn⟩

/-- A parenthesis with an arrow behind its partner starts a function. -/
theorem reads_anyType_of_functionType {nested : Nested} {v : Word} {P : List Parameter → Prop}
    {Q : TypeExpr → Prop} (hl : Brackets.level 0 (ws.map Word.token) = some 0)
    (hclose : v.token.isCloser = true) (hv : v.token.is ")" = true)
    (hp : Reads (commaList ")" (parameter nested.type)) ws [v] P)
    (h : Reads (returnType nested.type) vs F Q) :
    Reads (anyType nested) (.mark "(" :: (ws ++ (v :: .mark "=>" :: vs))) F
      (fun n => ∃ s ps r, n = .function s none ps r ∧ P ps ∧ Q r) := by
  unfold anyType
  refine Reads.here_bind fun start => ?_
  exact Reads.sees_bind (sees_functionTypeAhead hl hclose (forall_heads_cons.2 (by decide)))
    (Reads.ite_pos rfl (reads_functionType hv hp h))

/-- A function is mapped to the arrow between what its parameters and its result are mapped
to. -/
theorem mapsTo_function {params : List Param} (n : TypeExpr)
    (h : ∃ s ps r, n = .function s none ps r ∧
      List.Forall₂ (fun p (n : Parameter) => n.toParam tables = p) params ps ∧
      TypeExpr.MapsTo tables t r) :
    TypeExpr.MapsTo tables (.arrow params t) n := by
  obtain ⟨s, ps, r, rfl, hps, hr⟩ := h
  exact ⟨by rw [TypeExpr.toTy, mapParams_eq_of_forall₂ hps, hr.1], rfl⟩

end Parser

/-! ## Reading phrases

A phrase is read at its level. What the rules need to know about its words before they read them
is said along with the reading: the shape of a type, and the name that a parameter starts
with. -/

open Exemplar.Parser

/-- The words of an item are read by the rule for it, however deep types may nest beyond what
its words need, and the result is mapped back to the item. -/
def Item.Read (tables : Tables) : Item → List Word → Prop
  | .type l t, ws => Shape l ws ∧ ∀ k, ws.length ≤ k →
      Reads (l.parser (nested k)) ws l.follow (TypeExpr.MapsTo tables t)
  | .param p, ws => (∃ x vs, ws = .name x :: vs ∧ IsName False x) ∧ ∀ k, ws.length ≤ k →
      Reads (parameter (nested k).type) ws paramFollow (fun n => n.toParam tables = p)

/-- The words of a list are those of its items, with separators between them. -/
def Phrase.Read (tables : Tables) : Phrase → List Word → Prop
  | .item i, ws => i.Read tables ws
  | .list g items, ws => ∃ v vs, ws = Reads.sepWords (.mark g.mark) v vs ∧
      List.Forall₂ (Item.Read tables) items (v :: vs)

/-- An item has words. -/
theorem Item.Read.ne_nil {tables : Tables} {i : Item} {ws : List Word} (h : i.Read tables ws) :
    ws ≠ [] := by
  cases i with
  | type l t => exact h.1.ne_nil
  | param p =>
    obtain ⟨⟨x, vs, rfl, -⟩, -⟩ := h
    exact List.cons_ne_nil _ _

/-- Each item of a list has at most as many words as the list. -/
theorem length_le_sepWords {sep : Word} {v w : List Word} {vs : List (List Word)}
    (h : w ∈ v :: vs) : w.length ≤ (Reads.sepWords sep v vs).length := by
  rw [Reads.sepWords, List.length_append]
  rcases List.mem_cons.1 h with rfl | h
  · omega
  · have : (sep :: w).length ≤ ((vs.map (sep :: ·)).flatten).length :=
      (List.sublist_flatten_of_mem (List.mem_map_of_mem h)).length_le
    rw [List.length_cons] at this; omega

/-- There are no brackets in a name. -/
theorem nested_dottedWords (first : Text) (more : List Text) :
    Brackets.Nested ((dottedWords first more).map Word.token) := by
  refine .plain rfl rfl ?_
  induction more with
  | nil => exact .nil
  | cons x more ih => exact .plain (by decide) (by decide) (.plain rfl rfl ih)

namespace Spelled

variable {tables : Tables} {p : Phrase} {e : Prop} {ws : List Word}

/-- The brackets of a phrase pair up. By induction over the spelling: each form puts its own
brackets around parts whose brackets pair up, and no other form has any. Of the parts only that
is used, so it holds of lists as well. -/
theorem brackets_nested (h : Spelled tables p e ws) : Brackets.Nested (ws.map Word.token) := by
  -- Every pair of brackets in a spelling is one around a part.
  have hgroup : ∀ {o c : String} {u v : List Word}, (Word.mark o).token.isOpener = true →
      (Word.mark c).token.isCloser = true →
      (Word.mark c).token.text = (Word.mark o).token.closer →
      Brackets.Nested (u.map Word.token) → Brackets.Nested (v.map Word.token) →
      Brackets.Nested ((.mark o :: (u ++ .mark c :: v) : List Word).map Word.token) := by
    intro o c u v ho hc ht hu hv
    rw [List.map_cons, List.map_append, List.map_cons]
    exact .group ho hc ht hu hv
  induction h with
  | keyword => exact .plain rfl rfl .nil
  | name => exact nested_dottedWords _ _
  | generic _ _ _ _ ih =>
    rw [List.map_append]
    refine (nested_dottedWords _ _).append (.plain (by decide) (by decide) ?_)
    show Brackets.Nested (List.map Word.token (_ ++ [Word.mark ">"]))
    rw [List.map_append]
    exact ih.append (.plain (by decide) (by decide) .nil)
  | emptyTuple => exact hgroup (u := []) (by decide) (by decide) (by decide) .nil .nil
  | tuple _ ih => exact hgroup (by decide) (by decide) (by decide) ih .nil
  | operand _ ih => exact ih
  | arrays n _ _ ih =>
    rw [List.map_append]
    refine ih.append ?_
    induction n + 1 with
    | zero => exact .nil
    | succ m ihm => exact hgroup (u := []) (by decide) (by decide) (by decide) .nil ihm
  | factor _ ih => exact ih
  | intersection _ _ ih => exact ih
  | alternative _ ih => exact ih
  | union _ _ ih => exact ih
  | any _ ih => exact ih
  | thunk _ ih =>
    exact hgroup (u := []) (by decide) (by decide) (by decide) .nil
      (.plain (by decide) (by decide) ih)
  | arrow _ _ ihp ih =>
    exact hgroup (by decide) (by decide) (by decide) ihp (.plain (by decide) (by decide) ih)
  | param _ _ ih => exact .plain rfl rfl (.plain (by decide) (by decide) ih)
  | one _ ih => exact ih
  | @cons e g i items ws vs _ _ ih ihs =>
    rw [List.map_append]
    have hm : (Word.mark g.mark).token.isOpener = false ∧
        (Word.mark g.mark).token.isCloser = false := by
      cases g <;> decide
    exact ih.append (.plain hm.1 hm.2 ihs)

/-- The first word of an atom is an operator only where a point follows it. The words that can
come first in an atom are a predefined word, which stands alone, a name, and a bracket. A name
that is a bare operator has no arguments. -/
theorem opFree {t : Ty} (h : Spelled tables (.item (.type .atom t)) e ws) : OpFree ws := by
  -- Behind the first part of a name a point follows, or nothing.
  have hdotted : ∀ (more : List Text) (vs : List Word), more = [] ∧ vs = [] ∨ more ≠ [] →
      more.flatMap (fun part => [Word.mark ".", .name part]) ++ vs = [] ∨ ∃ us,
        more.flatMap (fun part => [Word.mark ".", .name part]) ++ vs = .mark "." :: us := by
    intro more vs h
    cases more with
    | nil => rcases h with ⟨-, rfl⟩ | h <;> simp_all
    | cons x more => exact .inr ⟨_, rfl⟩
  intro w vs hw hop
  cases h with
  | keyword h => exact .inl (List.cons.inj hw).2.symm
  | @name _ first more h =>
    obtain ⟨rfl, rfl⟩ := List.cons.inj hw
    rw [← List.append_nil (more.flatMap _)]
    refine hdotted more [] ?_
    by_cases hm : more = []
    · exact .inl ⟨hm, rfl⟩
    · exact .inr hm
  | @generic _ first more types ws _ hb _ _ =>
    obtain ⟨rfl, rfl⟩ := List.cons.inj hw
    refine hdotted more _ (.inr ?_)
    rintro rfl
    exact hb ⟨_, rfl, hop⟩
  | emptyTuple => rw [← (List.cons.inj hw).1] at hop; exact absurd hop (by decide)
  | tuple => rw [← (List.cons.inj hw).1] at hop; exact absurd hop (by decide)

/-- An atom that is no operator on its own is none before brackets. -/
theorem opFree_append {t : Ty} (h : Spelled tables (.item (.type .atom t)) e ws) (hb : ¬Bare ws)
    (us : List Word) : OpFree (ws ++ us) := by
  intro w vs hw hop
  cases ws with
  | nil => cases h
  | cons v ws =>
    obtain ⟨rfl, rfl⟩ := List.cons.inj hw
    rcases h.opFree v ws rfl hop with rfl | ⟨us', rfl⟩
    · exact absurd ⟨v, rfl, hop⟩ hb
    · exact .inr ⟨_, rfl⟩

end Spelled

/-! ### Lists

The items of a list are read by the rule for the level with one level of nesting less, and each
of them has at most as many words as the list. -/

section Lists

variable {tables : Tables} {types : List Ty} {params : List Param} {ws v : List Word}
  {vs : List (List Word)} {k : Nat}

/-- The items of a list are read by a rule that takes no more words than the list has. -/
theorem forall₂_of_sepWords {α : Type} {sep : Word} {R : α → List Word → Prop}
    {S : α → List Word → Prop} {xs : List α} (h : List.Forall₂ R xs (v :: vs))
    (hk : (Reads.sepWords sep v vs).length ≤ k)
    (hS : ∀ x ws, ws.length ≤ k → R x ws → S x ws) : List.Forall₂ S xs (v :: vs) := by
  refine List.forall₂_iff_zip.2 ⟨h.length_eq, fun {x ws} hz => ?_⟩
  exact hS x ws (Nat.le_trans (length_le_sepWords (List.of_mem_zip hz).2) hk)
    (List.forall₂_zip h hz)

/-- The arguments of a reference. -/
theorem reads_arguments (h : Phrase.Read tables (.list .arguments (types.map (.type .any))) ws)
    (hk : ws.length ≤ k) :
    Reads (commaList ">" (anyType (nested k))) ws [.mark ">"]
      (List.Forall₂ (TypeExpr.MapsTo tables) types) := by
  obtain ⟨v, vs, rfl, h⟩ := h
  rw [List.forall₂_map_left_iff] at h
  refine Reads.commaList (by decide) (by decide) (forall₂_of_sepWords h hk fun t ws hws ht => ?_)
  refine ⟨⟨ht.1.ne_nil, (ht.2 k hws).mono (by decide) fun _ hn => hn⟩, ?_⟩
  exact ht.1.is_eq_false (by decide) (by decide) (fun _ => by decide) _

/-- The elements of a tuple. -/
theorem reads_elements (h : Phrase.Read tables (.list .elements (types.map (.type .any))) ws)
    (hk : ws.length ≤ k) :
    Reads (commaList "]" (tupleElement (anyType (nested k)))) ws [.mark "]"]
      (List.Forall₂ (TypeExpr.MapsTo tables) types) := by
  obtain ⟨v, vs, rfl, h⟩ := h
  rw [List.forall₂_map_left_iff] at h
  refine Reads.commaList (by decide) (by decide) (forall₂_of_sepWords h hk fun t ws hws ht => ?_)
  have helement := reads_tupleElement
    (ht.1.is_eq_false (by decide) (by decide) (fun _ => by decide) _)
    (sees_namedElementAhead ht.1) (by decide) ((ht.2 k hws).mono (by decide) fun _ hn => hn)
  refine ⟨⟨ht.1.ne_nil, helement⟩, ?_⟩
  exact ht.1.is_eq_false (by decide) (by decide) (fun _ => by decide) _

/-- The parameters of a function type. -/
theorem reads_params (h : Phrase.Read tables (.list .arguments (params.map .param)) ws)
    (hk : ws.length ≤ k) :
    Reads (commaList ")" (parameter (nested k).type)) ws [.mark ")"]
      (List.Forall₂ (fun p (n : Parameter) => n.toParam tables = p) params) := by
  obtain ⟨v, vs, rfl, h⟩ := h
  rw [List.forall₂_map_left_iff] at h
  refine Reads.commaList (by decide) (by decide) (forall₂_of_sepWords h hk fun p ws hws hp => ?_)
  refine ⟨⟨Item.Read.ne_nil hp, (hp.2 k hws).mono (by decide) fun _ hn => hn⟩, ?_⟩
  obtain ⟨⟨x, us, rfl, hx⟩, -⟩ := hp
  exact forall_heads_cons.2 (by
    rw [Word.name_is]; exact beq_false_of_ne (hx.ne_of_startsName (by decide)))

/-- The members of a union or an intersection. -/
theorem reads_members {g : Glue} {l : Level} {F : List Word}
    {build : Span → List TypeExpr → TypeExpr} (hl : 2 ≤ types.length)
    (hg : g.mark ≠ "[" ∧ startsName (Text.ofString g.mark) = false)
    (hl' : l ≠ .any) (hF : ∀ w ∈ F, w.token.is g.mark = false)
    (hf : ∀ w ∈ .mark g.mark :: F, w ∈ l.follow)
    (h : Phrase.Read tables (.list g (types.map (.type l))) ws) (hk : ws.length ≤ k) :
    Reads (separated g.mark (l.parser (nested k)) build) ws F
      (fun n => ∃ s ns, n = build s ns ∧ List.Forall₂ (TypeExpr.MapsTo tables) types ns) := by
  obtain ⟨v, vs, rfl, h⟩ := h
  rw [List.forall₂_map_left_iff] at h
  -- No mark in front of the first item, which is a type of a lower level.
  refine reads_separated_many (by simp) hl ?_ hF (forall₂_of_sepWords h hk fun t ws hws ht => ?_)
  · obtain ⟨t, _, ht, -, -⟩ := List.forall₂_cons_right_iff.1 h
    exact ht.1.is_eq_false hg.2 hg.1 (fun h => absurd h hl') _
  · exact ⟨ht.1.ne_nil, (ht.2 k hws).mono hf fun _ hn => hn⟩

/-- The shape of a list of types is that of its first type. -/
theorem shape_of_read {g : Glue} {l l' : Level} (hl : l = .any → l' = .any)
    (hg : .mark g.mark ∈ joints)
    (h : Phrase.Read tables (.list g (types.map (.type l))) ws) : Shape l' ws := by
  obtain ⟨v, vs, rfl, h⟩ := h
  rw [List.forall₂_map_left_iff] at h
  obtain ⟨t, _, ht, -, -⟩ := List.forall₂_cons_right_iff.1 h
  refine ht.1.append hl ?_
  cases vs with
  | nil => exact fun w hw => hw
  | cons u vs => exact forall_heads_cons.2 hg

end Lists

/-- **Every rendered type is read back**: the rule for the level of a phrase reads its words,
and what it builds is mapped to the type the phrase was made from. By induction over the
spelling. In each case the parts are read by induction, and the rule for the whole is one of
those above. Where the rule goes down to a type of any form, it does so with one level of
nesting less; the brackets or the name around that type are words as well, so what is left is
enough for the words of the part. -/
theorem Spelled.read {tables : Tables} {p : Phrase} {e : Prop} {ws : List Word}
    (h : Spelled tables p e ws) : p.Read tables ws := by
  -- What follows the first part of a name makes no keyword of it.
  have hdots : ∀ (more : List Text) (vs : List Word), (∀ w ∈ heads vs joints, w ∈ joints) →
      ∀ w ∈ heads (more.flatMap (fun part => [Word.mark ".", .name part]) ++ vs) joints,
        w ∈ joints := by
    intro more vs hv
    cases more with
    | nil => exact hv
    | cons x more => exact forall_heads_cons.2 (by decide)
  -- Behind it stands a point, or there are no further parts.
  have hdot : ∀ (more : List Text) (vs : List Word), more = [] ∨ ∃ us,
      more.flatMap (fun part => [Word.mark ".", .name part]) ++ vs = Word.mark "." :: us := by
    intro more vs
    cases more with
    | nil => exact .inl rfl
    | cons x more => exact .inr ⟨_, rfl⟩
  induction h with
  | @keyword e w h =>
    have key : ∀ w ∈ renderedKeywords, isLetters (Text.ofString w) = true ∧
        Text.ofString w ≠ Text.ofString "new" := by
      decide
    refine ⟨.name _ [] (.of_isLetters (key w h).1) (key w h).2 fun w hw => hw, fun k _ => ?_⟩
    exact reads_atomType_of_wordType fun start => reads_wordType_keyword h (by decide)
  | @name e first more h =>
    refine ⟨?_, fun k _ => ?_⟩
    · refine .name first _ (h.parts.1.mono fun _ => trivial) (h.starts "new" (by decide)) ?_
      rw [← List.append_nil (more.flatMap _)]
      exact hdots more [] fun w hw => hw
    · refine reads_atomType_of_wordType fun start => ?_
      refine reads_wordType_reference h ?_
        ((reads_typeReference _ _ (by decide)).mono (fun _ hw => hw) ?_)
      · rw [← List.append_nil (more.flatMap _)]
        exact hdot more []
      · rintro n ⟨s, i, hn, hi⟩
        exact mapsTo_reference h hn hi rfl
  | @generic e first more types ws h _ _ _ ih =>
    refine ⟨?_, fun k hk => ?_⟩
    · exact .name first _ (h.parts.1.mono fun _ => trivial) (h.starts "new" (by decide))
        (hdots more _ (forall_heads_cons.2 (by decide)))
    · obtain ⟨k, rfl, hk'⟩ : ∃ m, k = m + 1 ∧ ws.length ≤ m := by
        simp only [dottedWords, List.length_append, List.length_cons] at hk
        exact ⟨k - 1, by omega, by omega⟩
      refine reads_atomType_of_wordType fun start => reads_wordType_reference h (hdot more _) ?_
      refine (reads_typeReference_arguments _ _ (by decide) (reads_arguments ih hk')).mono
        (fun _ hw => hw) ?_
      rintro n ⟨s, i, ns, hn, hi, hns⟩
      exact mapsTo_reference h hn hi (mapTypes_eq_of_forall₂ hns)
  | emptyTuple =>
    refine ⟨.tuple _, fun k _ => reads_atomType_of_tupleType fun start => ?_⟩
    have hnil : Reads (commaList "]" (tupleElement (nested k).type)) [] [.mark "]"]
        (List.Forall₂ (TypeExpr.MapsTo tables) []) :=
      Reads.commaList_nil.mono (fun w hw => hw) fun _ h => h ▸ .nil
    exact (reads_tupleType (by decide) hnil).mono (fun _ hw => hw) mapsTo_tuple
  | @tuple e types ws _ ih =>
    refine ⟨.tuple _, fun k hk => reads_atomType_of_tupleType fun start => ?_⟩
    obtain ⟨k, rfl, hk'⟩ : ∃ m, k = m + 1 ∧ ws.length ≤ m := by
      simp only [List.length_append, List.length_cons] at hk
      exact ⟨k - 1, by omega, by omega⟩
    exact (reads_tupleType (by decide) (reads_elements ih hk')).mono
      (fun _ hw => hw) mapsTo_tuple
  | @operand e t ws h ih =>
    have hs : Shape .operand ws := ih.1.mono (fun h => by cases h)
    refine ⟨hs, fun k hk => reads_operatorType hs h.opFree ?_⟩
    rw [← List.append_nil ws]
    exact reads_postfixType (P := fun n => TypeExpr.MapsTo tables (t.arrays n))
      (fun k s n => mapsTo_array) 0
      (by decide) (ih.2 k hk)
  | @arrays e t ws n h hop ih =>
    have hs : Shape .operand (ws ++ brackets (n + 1)) :=
      ih.1.append (fun h => by cases h) (forall_heads_cons.2 (by decide))
    refine ⟨hs, fun k hk => reads_operatorType hs (h.opFree_append hop _) ?_⟩
    refine reads_postfixType (P := fun n => TypeExpr.MapsTo tables (t.arrays n))
      (fun k s n => mapsTo_array) (n + 1)
      (by decide) (ih.2 k ?_)
    rw [List.length_append] at hk; omega
  | @factor e t ws _ ih =>
    have hs : Shape .factor ws := ih.1.mono (fun h => by cases h)
    refine ⟨hs, fun k hk => reads_separated_one ?_ (by decide) ?_⟩
    · exact hs.is_eq_false (by decide) (by decide) (fun h => by cases h) _
    · exact (ih.2 k hk).mono (by decide) fun _ h => h
  | @intersection e types ws hl _ ih =>
    refine ⟨shape_of_read (fun h => by cases h) (by decide) ih, fun k hk => ?_⟩
    refine (reads_members hl (by decide) (by decide) (by decide) (by decide) ih hk).mono
      (fun w hw => hw) ?_
    rintro _ ⟨s, ns, rfl, hns⟩
    exact ⟨by rw [TypeExpr.toTy, mapTypes_eq_of_forall₂ hns], rfl⟩
  | @alternative e t ws _ ih =>
    have hs : Shape .union ws := ih.1.mono (fun h => by cases h)
    refine ⟨hs, fun k hk => reads_separated_one ?_ (by decide) ?_⟩
    · exact hs.is_eq_false (by decide) (by decide) (fun h => by cases h) _
    · exact (ih.2 k hk).mono (by decide) fun _ h => h
  | @union e types ws hl _ ih =>
    refine ⟨shape_of_read (fun h => by cases h) (by decide) ih, fun k hk => ?_⟩
    refine (reads_members hl (by decide) (by decide) (by decide) (by decide) ih hk).mono
      (fun w hw => hw) ?_
    rintro _ ⟨s, ns, rfl, hns⟩
    exact ⟨by rw [TypeExpr.toTy, mapTypes_eq_of_forall₂ hns], rfl⟩
  | any _ ih =>
    exact ⟨ih.1.mono (fun _ => rfl), fun k hk => reads_anyType_of_unionType ih.1 (ih.2 k hk)⟩
  | @thunk e t ws _ ih =>
    refine ⟨.arrow _, fun k hk => ?_⟩
    obtain ⟨k, rfl, hk'⟩ : ∃ m, k = m + 1 ∧ ws.length ≤ m := by
      simp only [List.length_cons] at hk
      exact ⟨k - 1, by omega, by omega⟩
    have hnil : Reads (commaList ")" (parameter (nested (k + 1)).type)) [] [.mark ")"]
        (List.Forall₂ (fun p (n : Parameter) => n.toParam tables = p) []) :=
      Reads.commaList_nil.mono (fun w hw => hw) fun _ h => h ▸ .nil
    have hlevel : Brackets.level 0 (List.map Word.token []) = some 0 := rfl
    refine (reads_anyType_of_functionType hlevel (by decide) (by decide) hnil
      (reads_returnType_of_shape ih.1 (ih.2 k hk'))).mono (fun _ hw => hw) mapsTo_function
  | @arrow e params t ws vs hp _ ihp ih =>
    refine ⟨.arrow _, fun k hk => ?_⟩
    obtain ⟨k, rfl, hk', hk''⟩ : ∃ m, k = m + 1 ∧ ws.length ≤ m + 1 ∧ vs.length ≤ m := by
      simp only [List.length_append, List.length_cons] at hk
      exact ⟨k - 1, by omega, by omega, by omega⟩
    refine (reads_anyType_of_functionType (hp.brackets_nested.level_eq 0) (by decide) (by decide)
      (reads_params ihp hk') (reads_returnType_of_shape ih.1 (ih.2 k hk''))).mono
        (fun _ hw => hw) mapsTo_function
  | @param e x t ws hx _ ih =>
    refine ⟨⟨x, _, rfl, hx⟩, fun k hk => ?_⟩
    obtain ⟨k, rfl, hk'⟩ : ∃ m, k = m + 1 ∧ ws.length ≤ m := by
      simp only [List.length_cons] at hk
      exact ⟨k - 1, by omega, by omega⟩
    exact (reads_parameter hx (by decide) ((ih.2 k hk').mono (by decide) fun _ hn => hn)).mono
      (fun _ hw => hw) (toParam_eq hx)
  | @one e g i ws _ ih => exact ⟨ws, [], by simp [Reads.sepWords], .cons ih .nil⟩
  | @cons e g i items ws vs _ _ ih ihs =>
    obtain ⟨v, us, rfl, h⟩ := ihs
    exact ⟨ws, v :: us, by simp [Reads.sepWords], .cons ih h⟩

end Exemplar
