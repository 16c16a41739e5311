import Exemplar.Grammar.Statements
import Exemplar.Proofs.Grammar.GroupReadings
import Exemplar.Proofs.Types.RenderedTypes

/-!
# Reading a builder class

The members of a builder are a property, whose type is a name and whose value is a group, and
methods, whose result type is a name and whose body is a group. Each of them starts on a new
line, so each ends where the next begins.

What is read of a class is stated as its outline: its name, whether it is exported, and what its
members are and are called.

`Reads p ws F P` says that the parser `p` reads the words `ws`, if one of the words `F` or the
end comes behind them, and answers something with the property `P`. A rule is unfolded, and each
of its steps reads some of the words or sees that what it looks for is not there. In the second
case it has to be known which word comes next, which is why names are required to differ from
the words of the grammar: a class of the name `extends` would be read as one without a name, and
a member of the name `constructor` as a constructor.
-/

namespace Exemplar

open Exemplar.Tree Exemplar.Lexeme

/-- What a member of a class is, and its name. -/
inductive Tree.MemberOutline where
  /-- A constructor. -/
  | constructor
  /-- A property. -/
  | property (name : Option Text)
  /-- A method. -/
  | method (name : Option Text)
  /-- Anything else. -/
  | other
deriving DecidableEq

/-- The outline of a member. -/
def Tree.ClassMember.outline : ClassMember → MemberOutline
  | .constructor .. => .constructor
  | .property _ _ name _ => .property (name.map Identifier.text)
  | .method _ _ name _ _ _ => .method (name.map Identifier.text)
  | .other _ => .other

/-- A class without the types and places in it. -/
structure Tree.ClassOutline where
  /-- Whether it is exported. -/
  exported : Bool
  /-- Its name. -/
  name : Option Text
  /-- The outlines of its members. -/
  members : List MemberOutline
deriving DecidableEq

/-- The outline of a class. -/
def Tree.ClassDecl.outline (d : ClassDecl) : ClassOutline :=
  ⟨Modifiers.has d.modifiers .exported, d.name.map Identifier.text,
    d.members.map ClassMember.outline⟩

/-- The outline of a statement, if it is a class. -/
def Tree.Statement.outline? : Statement → Option ClassOutline
  | .classDecl d => some d.outline
  | _ => none

namespace Parser

variable {type : Parser TypeExpr} {x y : Text} {ws vs F G : List Word}

/-! ## Names as types

A result type in a builder is a name, and a brace or an equals sign comes behind it. So of all
that may stand behind a name in a type nothing does. -/

/-- The words that stand behind the type of a member. -/
def typeFollow : List Word := [.mark "=", .mark "\x7b"]

/-- The words that may stand behind a name that is a type of a member. -/
def nameFollow : List Word := .mark "&" :: .mark "|" :: typeFollow

/-- The words that are no type where a brace follows them. -/
def nonTypes : List String := ["new", "typeof", "keyof", "unique", "readonly"]

/-- A name that is read as a type before a brace. -/
structure NamesType (x : Text) : Prop where
  /-- It is an identifier. -/
  name : IsName False x
  /-- It is none of the words that need something behind them. -/
  ne : ∀ w ∈ nonTypes, x ≠ Text.ofString w

/-- At a name an atom is a predefined type, a truth value or a reference, and each of them is
this one word. That it is none of the words that start something else has been assumed. -/
theorem reads_wordType_name (h : NamesType x) {start : Position} :
    Reads (wordType type start) [.name x] nameFollow (fun _ => True) := by
  unfold wordType
  refine Reads.current_bind fun t ht => ?_
  have hword : t.word = .name x := List.mem_singleton.1 ht
  -- No point follows, so the name is not the first part of a longer one.
  have hfollow : ∀ w ∈ nameFollow, w.token.is "." = false := by decide
  refine Reads.sees_bind (a := isPredefined x) (Sees.ahead (fun _ => rfl) (fun _ => rfl)
    fun w hw => ?_) ?_
  · rw [hfollow w hw]
    exact Bool.and_true _
  by_cases hp : isPredefined x = true
  · exact Reads.ite_pos hp (Reads.advance_bind fun _ _ => Reads.spanFrom_bind fun _ =>
      Reads.pure trivial)
  refine Reads.ite_neg hp ?_
  by_cases hb : (t.is "true" || t.is "false") = true
  · exact Reads.ite_pos hb (Reads.advance_bind fun _ _ => Reads.spanFrom_bind fun _ =>
      Reads.pure trivial)
  refine Reads.ite_neg hb ?_
  refine Reads.sees_bind (Sees.ahead_eq_false (fun _ => rfl) (forall_heads_cons.2 ?_))
    (Reads.ite_neg Bool.false_ne_true ?_)
  · rw [Word.name_is]
    exact beq_false_of_ne (h.ne "typeof" (by decide))
  -- What is left is a reference without arguments.
  unfold typeReference
  refine Reads.here_bind fun _ => ?_
  refine Reads.bind (v := [.name x]) (u := []) (G := nameFollow)
    (@reads_entityName x [] nameFollow hfollow) (fun i _ => ?_) fun w hw => hw
  have hargs : Sees (typeArguments? type) [] nameFollow none :=
    Sees.bind (sees_argumentsAhead (b := false) (by decide))
      (Sees.ite_neg Bool.false_ne_true Sees.pure)
  exact Reads.sees_bind hargs (Reads.spanFrom_bind fun _ => Reads.pure trivial)

/-- **A name is read as a type** before a brace or an equals sign. The levels of the grammar are
gone through from the atom up. None of them finds its sign behind the name. -/
theorem reads_anyType_name (h : NamesType x) {nested : Nested} :
    Reads (anyType nested) [.name x] typeFollow (fun _ => True) := by
  -- A name is none of the marks.
  have hmark : ∀ {s : String} {G : List Word}, startsName (Text.ofString s) = false →
      ∀ w ∈ heads [.name x] G, w.token.is s = false := by
    intro s G hs
    exact forall_heads_cons.2
      (by rw [Word.name_is]; exact beq_false_of_ne (h.name.ne_of_startsName hs))
  -- Nor is it one of the words that an operator is told by.
  have hword : ∀ {s : String} {G : List Word}, s ∈ nonTypes →
      ∀ w ∈ heads [.name x] G, w.token.is s = false := by
    intro s G hs
    exact forall_heads_cons.2 (by rw [Word.name_is]; exact beq_false_of_ne (h.ne s hs))
  have hpostfix : Reads (postfixType nested.type) [.name x] nameFollow (fun _ => True) := by
    unfold postfixType
    refine Reads.bind (v := [.name x]) (u := [])
      (reads_atomType_of_wordType fun start => reads_wordType_name h)
      (fun n _ => ?_) fun w hw => hw
    have hbracket : Sees (bracketed? nested.type n) [] nameFollow none := by
      refine Sees.current_bind fun t ht => ?_
      have key : ∀ w ∈ nameFollow, w.token.is "[" = false := by decide
      rw [show t.is "[" = false from key _ ht]
      exact Sees.pure
    exact Reads.of_bind_pure (Reads.sees_bind (Sees.iterate_nil hbracket) (Reads.pure trivial))
  have hoperator : Reads (operatorType nested) [.name x] nameFollow (fun _ => True) := by
    unfold operatorType
    refine Reads.here_bind fun _ => Reads.current_bind fun _ _ => ?_
    refine Reads.sees_bind (Sees.ahead_eq_false (fun _ => rfl) fun w hw => ?_)
      (Reads.ite_neg Bool.false_ne_true ?_)
    · rw [isTypeOperator, hword (s := "keyof") (by decide) w hw,
        hword (s := "unique") (by decide) w hw, hword (s := "readonly") (by decide) w hw]
      rfl
    refine Reads.sees_bind (Sees.ahead (b := false) (fun _ => rfl) (fun _ => rfl) fun w hw => ?_)
      (Reads.ite_neg Bool.false_ne_true hpostfix)
    have key : ∀ w ∈ nameFollow, w.token.isIdent = false := by decide
    rw [key w hw, Bool.and_false]
  have hunion : Reads (unionType nested) [.name x] typeFollow (fun _ => True) := by
    refine reads_separated_one (hmark (by decide)) (by decide) ?_
    exact reads_separated_one (hmark (by decide)) (by decide)
      (hoperator.mono (by decide) fun _ h => h)
  have hfunction : Sees functionTypeAhead [.name x] typeFollow false := by
    refine Sees.current_bind fun t ht => ?_
    rw [show t.is "<" = false from hmark (by decide) _ ht,
      show t.is "(" = false from hmark (by decide) _ ht]
    exact Sees.pure
  have hconstructor : Sees constructorTypeAhead [.name x] typeFollow false := by
    refine Sees.bind (Sees.is (hword (by decide))) (Sees.ite_neg Bool.false_ne_true ?_)
    refine Sees.ahead (fun _ => rfl) (fun _ => rfl) fun w hw => ?_
    have key : ∀ w ∈ typeFollow, w.token.is "new" = false := by decide
    rw [key w hw, Bool.and_false]
  have hextends : Sees extendsAhead [] typeFollow false := by
    refine Sees.current_bind fun t ht => ?_
    have key : ∀ w ∈ typeFollow, w.token.is "extends" = false := by decide
    rw [show t.is "extends" = false from key _ ht]
    exact Sees.pure
  unfold anyType
  refine Reads.here_bind fun _ => ?_
  refine Reads.sees_bind hfunction (Reads.ite_neg Bool.false_ne_true ?_)
  refine Reads.sees_bind hconstructor (Reads.ite_neg Bool.false_ne_true ?_)
  unfold conditionalType
  refine Reads.bind (v := [.name x]) (u := []) hunion (fun n _ => ?_) fun w hw => hw
  exact Reads.sees_bind hextends (Reads.ite_neg Bool.false_ne_true (Reads.pure trivial))

/-- The same for the rule that starts with a new bound on nesting. -/
theorem reads_typeExpr_name (h : NamesType x) :
    Reads typeExpr [.name x] typeFollow (fun _ => True) :=
  fun c more hc =>
    (reads_anyType_name h : Reads (anyType (nested c.rest.length)) _ _ _) c more hc

/-- The type of a rendered phrase. -/
theorem reads_typeExpr {tables : Tables} {t : Ty} {e : Prop}
    (h : Spelled tables (.item (.type .any t)) e ws) :
    Reads typeExpr ws closers (TypeExpr.MapsTo tables t) := by
  intro c more hc
  have hlen : ws.length ≤ c.rest.length := by
    obtain ⟨toks, hr, hw⟩ := hc.split
    rw [hr, ← hw, List.length_map, List.length_append]
    exact Nat.le_add_right _ _
  exact h.read.2 _ hlen c more hc

/-- A result type that is a name. -/
theorem reads_resultType_name (h : NamesType x) :
    Reads (resultType? typeExpr) [.mark ":", .name x] [.mark "\x7b"] (fun _ => True) := by
  unfold resultType?
  refine Reads.got_bind (by decide) (Reads.ite_pos rfl ?_)
  unfold returnType
  refine Reads.here_bind fun _ => ?_
  refine Reads.sees_bind (Sees.ahead (b := false) (fun _ => rfl) (fun _ => rfl) ?_)
    (Reads.ite_neg Bool.false_ne_true ?_)
  · exact fun w hw => by rw [List.mem_singleton.1 hw]; exact Bool.and_false _
  refine Reads.sees_bind (Sees.ahead (b := false) (fun _ => rfl) (fun _ => rfl) ?_)
    (Reads.ite_neg Bool.false_ne_true ?_)
  · exact fun w hw => by rw [List.mem_singleton.1 hw]; exact Bool.and_false _
  exact (reads_typeExpr_name h).mono (by decide) fun _ _ => trivial

/-! ## Members

A member is told by its first words. A name with a colon or a parenthesis behind it is a
property or a method. -/

/-- A member that starts with its name, in front of a colon or a parenthesis. -/
theorem reads_nextClassMember {v : Word} {P : ClassMember → Prop} (hx : IsName False x)
    (hv : v ∈ [Word.mark ":", .mark "("])
    (hc : v = .mark "(" → x ≠ Text.ofString "constructor")
    (h : ∀ start modifiers, Reads (namedClassMember start modifiers) (.line x :: v :: ws) F P) :
    Reads nextClassMember (.line x :: v :: ws) F (fun o => ∃ m, o = some (some m) ∧ P m) := by
  have hmark : ∀ {s : String} {us G : List Word}, startsName (Text.ofString s) = false →
      ∀ w ∈ heads (.line x :: us) G, w.token.is s = false := by
    intro s us G hs
    exact forall_heads_cons.2
      (by rw [Word.line_is]; exact beq_false_of_ne (hx.ne_of_startsName hs))
  -- Behind the name comes one of two marks, so no look at two words sees a modifier.
  have hahead : ∀ {f g : Token → Bool}, Blind f → Blind g → g v.token = false →
      Sees (ahead f g) (.line x :: v :: ws) F false := by
    intro f g hf hg hgv
    exact Sees.ahead hf hg (forall_heads_cons.2 (by rw [hgv, Bool.and_false]))
  have hkey : startsKey v.token = false ∧ v.token.is "\x7b" = false := by
    have key : ∀ v ∈ [Word.mark ":", .mark "("],
        startsKey v.token = false ∧ v.token.is "\x7b" = false := by decide
    exact key v hv
  have hmember : Reads classMember (.line x :: v :: ws) F P := by
    unfold classMember
    refine Reads.here_bind fun start => ?_
    refine Reads.sees_bind (sees_skipDecorators (hmark (by decide))) ?_
    refine Reads.sees_bind (hahead (fun _ => rfl) (fun _ => rfl) hkey.2)
      (Reads.ite_neg Bool.false_ne_true ?_)
    refine Reads.sees_bind (sees_modifiersWhile (hahead (fun _ => rfl) (fun _ => rfl) hkey.1)) ?_
    refine Reads.sees_bind (a := ()) ?_ ?_
    · exact Sees.bind (hahead (fun _ => rfl) (fun _ => rfl) hkey.1)
        (Sees.ite_neg Bool.false_ne_true Sees.pure)
    refine Reads.sees_bind (Sees.got (hmark (by decide))) ?_
    refine Reads.sees_bind (Sees.ahead (b := false) (fun _ => rfl) (fun _ => rfl)
      (forall_heads_cons.2 ?_)) (Reads.ite_neg Bool.false_ne_true ?_)
    · rcases List.mem_cons.1 hv with rfl | hv
      · exact Bool.and_false _
      · rw [Word.line_is, beq_false_of_ne (hc (List.mem_singleton.1 hv))]; rfl
    refine Reads.sees_bind (Sees.ahead₃_eq_false (Sees.ahead_eq_false (fun _ => rfl)
      (hmark (by decide)))) (Reads.ite_neg Bool.false_ne_true ?_)
    exact h start []
  unfold nextClassMember
  refine Reads.sees_bind (Sees.is (hmark (by decide))) (Reads.ite_neg Bool.false_ne_true ?_)
  refine Reads.sees_bind (Sees.isEof (b := false) (forall_heads_cons.2 rfl))
    (Reads.ite_neg Bool.false_ne_true ?_)
  refine Reads.sees_bind (Sees.got (hmark (by decide))) (Reads.ite_neg Bool.false_ne_true ?_)
  rw [← List.append_nil (Word.line x :: v :: ws)]
  exact Reads.bind hmember (fun m hm => Reads.pure ⟨m, rfl, hm⟩) fun w hw => hw

/-- The key of a member that is a name. -/
theorem reads_propertyName : Reads propertyName [.line x] F
    (fun o => o.map Identifier.text = some x) := by
  refine Reads.current_bind fun t ht => Reads.ite_pos ?_ ?_
  · exact Blind.eq (f := Token.isIdent) (fun _ => rfl) (List.mem_singleton.1 ht)
  · rw [← List.append_nil [Word.line x]]
    exact Reads.bind reads_identifier (fun i hi => Reads.pure (by rw [Option.map_some, hi]))
      fun w hw => hw

/-- Neither of two words is there, and none is skipped. -/
theorem sees_skipEither {a b : String} (ha : ∀ w ∈ heads ws F, w.token.is a = false)
    (hb : ∀ w ∈ heads ws F, w.token.is b = false) : Sees (skipEither a b) ws F () :=
  Sees.bind (Sees.got ha) (Sees.ite_neg Bool.false_ne_true (Sees.bind (Sees.got hb) Sees.pure))

variable {o w : Word}

/-- **A property whose type is a name and whose value is a group.** The value is skipped as an
expression, which ends where the next line begins. -/
theorem reads_property (hx : IsName False x) (hy : NamesType y) (ho : o = .mark "\x7b")
    (hg : o.Enclose w) (hn : Brackets.Nested (ws.map Word.token)) (hF : ∀ v ∈ F, v.Breaks) :
    Reads nextClassMember
      (.line x :: .mark ":" :: .name y :: .mark "=" :: (o :: (ws ++ [w]))) F
      (fun m => ∃ m', m = some (some m') ∧ m'.outline = .property (some x)) := by
  subst ho
  refine reads_nextClassMember hx (by decide) (fun h => absurd h (by decide))
    fun start modifiers => ?_
  unfold namedClassMember
  refine Reads.bind (v := [.line x]) reads_propertyName (fun name hname => ?_) fun w hw => hw
  refine Reads.sees_bind (sees_skipEither (forall_heads_cons.2 (by decide))
    (forall_heads_cons.2 (by decide))) ?_
  refine Reads.current_bind fun t ht => ?_
  have hword : t.word = .mark ":" := List.mem_singleton.1 ht
  have hsig : startsSignature t = false :=
    (Blind.eq (f := startsSignature) (fun _ => rfl) hword).trans (by decide)
  refine Reads.ite_neg (by rw [hsig]; decide) ?_
  refine Reads.bind (v := [.mark ":", .name y]) (G := typeFollow) (P := fun _ => True) ?_
    (fun n _ => ?_) (forall_heads_cons.2 (by decide))
  · exact Reads.got_bind (by decide) (Reads.ite_pos rfl (reads_typeExpr_name hy))
  rw [← List.append_nil (Word.mark "=" :: _)]
  refine Reads.bind (G := F) (P := fun _ => True) ?_ (fun _ _ => ?_) fun w hw => hw
  · exact Reads.got_bind (by decide) (Reads.ite_pos rfl (reads_skipExpression_group hg hn hF))
  refine Reads.sees_bind (sees_semicolon hF) (Reads.spanFrom_bind fun _ => Reads.pure ?_)
  rw [ClassMember.outline, hname]

/-- **A method whose result type is a name and whose body is a group.** The parameters are read
as what they are said to be, and the body is skipped as a group. -/
theorem reads_method (hx : IsName False x) (hc : x ≠ Text.ofString "constructor")
    {Q : List Parameter → Prop}
    (hp : Reads (commaList ")" (parameter typeExpr)) vs [.mark ")"] Q) (hy : NamesType y)
    (ho : o = .mark "\x7b") (hg : o.Enclose w) (hn : Brackets.Nested (ws.map Word.token)) :
    Reads nextClassMember
      (.line x :: .mark "(" ::
        (vs ++ (Word.mark ")" :: .mark ":" :: .name y :: (o :: (ws ++ [w]))))) F
      (fun m => ∃ m', m = some (some m') ∧ m'.outline = .method (some x)) := by
  subst ho
  refine reads_nextClassMember hx (by decide) (fun _ => hc) fun start modifiers => ?_
  unfold namedClassMember
  refine Reads.bind (v := [.line x]) reads_propertyName (fun name hname => ?_) fun w hw => hw
  refine Reads.sees_bind (sees_skipEither (forall_heads_cons.2 (by decide))
    (forall_heads_cons.2 (by decide))) ?_
  -- The parenthesis makes it a method.
  refine Reads.current_bind fun t ht => ?_
  have hword : t.word = .mark "(" := List.mem_singleton.1 ht
  have hsig : startsSignature t = true :=
    (Blind.eq (f := startsSignature) (fun _ => rfl) hword).trans (by decide)
  refine Reads.ite_pos hsig ?_
  refine Reads.sees_bind (a := none) ?_ ?_
  · exact Sees.bind (Sees.got (forall_heads_cons.2 (by decide)))
      (Sees.ite_neg Bool.false_ne_true Sees.pure)
  -- First the parameters, then the result, then the body.
  have hsplit : Word.mark "(" :: (vs ++ (Word.mark ")" :: .mark ":" :: .name y ::
      (.mark "\x7b" :: (ws ++ [w])))) = (Word.mark "(" :: (vs ++ [Word.mark ")"])) ++
      ([Word.mark ":", .name y] ++ (.mark "\x7b" :: (ws ++ [w]))) := by simp
  rw [hsplit]
  refine Reads.bind (P := Q) (G := [.mark ":"]) ?_ (fun ps _ => ?_) fun w hw => hw
  · refine Reads.expect_bind (by decide) (Reads.bind hp (fun ps hps => ?_) fun w hw => hw)
    exact Reads.expect_bind (by decide) (Reads.pure hps)
  refine Reads.bind (reads_resultType_name hy) (fun n _ => ?_) fun w hw => hw
  rw [← List.append_nil (Word.mark "\x7b" :: _)]
  refine Reads.bind (G := F) (P := fun _ => True) ?_ (fun _ _ => ?_) fun w hw => hw
  · refine Reads.sees_bind (Sees.is (b := true) (forall_heads_cons.2 (by decide)))
      (Reads.ite_pos rfl (reads_skipGroup hg hn))
  refine Reads.spanFrom_bind fun _ => Reads.pure ?_
  rw [ClassMember.outline, hname]

/-! ## Classes

The members come one after the other, each in a round of its own, and the closing brace is at
the beginning of a line. -/

/-- The brace that closes a class, at the beginning of a line. -/
def closingBrace : Word := ⟨.punct, Text.ofString "\x7d", true⟩

/-- A member that was read has an outline. -/
def HasOutline (m : MemberOutline) (o : Option ClassMember) : Prop :=
  ∃ m', o = some m' ∧ m'.outline = m

/-- The members that were read have the outlines, in this order. -/
theorem map_outline_of_forall₂ {outlines : List MemberOutline}
    {found : List (Option ClassMember)}
    (h : List.Forall₂ HasOutline outlines found) :
    (found.filterMap id).map ClassMember.outline = outlines := by
  induction h with
  | nil => rfl
  | cons hm _ ih =>
    obtain ⟨m', rfl, rfl⟩ := hm
    exact congrArg _ ih

/-- The words of a class. -/
def classWords (name : Text) (wss : List (List Word)) : List Word :=
  .name (Text.ofString "class") :: .name name :: .mark "\x7b" :: (wss.flatten ++ [closingBrace])

/-- **A class without type parameters and bases.** The rounds over the members are given by what
each of them reads. What is left are the name, which is no word of the grammar, and the
braces. -/
theorem reads_classDecl {start : Position} {modifiers : Modifiers}
    {outlines : List MemberOutline}
    {wss : List (List Word)} (hx : ∀ w ∈ ["extends", "implements"], x ≠ Text.ofString w)
    (hG : closingBrace ∈ G)
    (h : List.Forall₂ (Reads.Round nextClassMember G HasOutline) outlines wss) :
    Reads (classDecl start modifiers) (classWords x wss) F
      (fun s => s.outline? = some ⟨Modifiers.has modifiers .exported, some x, outlines⟩) := by
  -- The members up to the closing brace.
  have hmembers : Reads classMembers (.mark "\x7b" :: (wss.flatten ++ [closingBrace])) F
      (fun ms => ms.map ClassMember.outline = outlines) := by
    unfold classMembers
    refine Reads.expect_bind (by decide) ?_
    refine Reads.bind (Reads.collect (F := [closingBrace]) (List.forall_mem_singleton.2 hG) h ?_)
      (fun found hfound => ?_) fun w hw => hw
    · exact Reads.sees_bind (Sees.is (b := true) (by decide))
        (Reads.ite_pos rfl (Reads.pure rfl))
    · exact Reads.expect_bind (by decide) (Reads.pure (map_outline_of_forall₂ hfound))
  unfold classDecl classWords
  refine Reads.expect_bind (by decide) ?_
  rw [← List.singleton_append]
  refine Reads.bind (P := fun o => o.map Identifier.text = some x) (G := [.mark "\x7b"]) ?_
    (fun name hname => ?_) fun w hw => hw
  · refine Reads.current_bind fun t ht => Reads.ite_pos ?_ ?_
    · -- The name is not taken for a missing one.
      have hword : t.word = .name x := List.mem_singleton.1 ht
      have his : ∀ s : String, t.is s = (x == Text.ofString s) := fun s =>
        (Token.is_eq hword s).trans (Word.name_is x s)
      rw [his, his, beq_false_of_ne (hx "extends" (by decide)),
        beq_false_of_ne (hx "implements" (by decide)),
        show t.isIdent = true from Blind.eq (f := Token.isIdent) (fun _ => rfl) hword]
      rfl
    · rw [← List.append_nil [Word.name x]]
      exact Reads.bind reads_identifier (fun i hi => Reads.pure (by rw [Option.map_some, hi]))
        fun w hw => hw
  -- Behind the name a brace stands, so neither type parameters nor bases are found.
  have hbrace : ∀ {s : String} {us G : List Word}, (Word.mark "\x7b").token.is s = false →
      Sees (got s) (.mark "\x7b" :: us) G false := fun hs => Sees.got (forall_heads_cons.2 hs)
  refine Reads.sees_bind (a := none) (Sees.bind (hbrace (by decide))
    (Sees.ite_neg Bool.false_ne_true Sees.pure)) ?_
  refine Reads.sees_bind (a := .absent) (Sees.bind (hbrace (by decide))
    (Sees.ite_neg Bool.false_ne_true Sees.pure)) ?_
  refine Reads.sees_bind (a := []) (Sees.bind (hbrace (by decide))
    (Sees.ite_neg Bool.false_ne_true Sees.pure)) ?_
  rw [← List.append_nil (Word.mark "\x7b" :: _)]
  refine Reads.bind hmembers (fun ms hms => ?_) fun w hw => hw
  refine Reads.spanFrom_bind fun _ => Reads.pure ?_
  rw [Statement.outline?, ClassDecl.outline, hname, hms]

/-- The modifier of an exported class. The word `export` is one round, and before `class` there
is no other modifier. -/
theorem reads_statementModifiers_export :
    Reads statementModifiers [.line (Text.ofString "export")] [.name (Text.ofString "class")]
      (· = [.exported]) := by
  unfold statementModifiers
  refine (Reads.iterate (fun wss s => (wss = [[.line (Text.ofString "export")]] ∧ s = []) ∨
    (wss = [] ∧ s = [.exported])) ?_ ?_
    (show ∀ w ∈ [[Word.line (Text.ofString "export")]], w ≠ [] by decide) (.inl ⟨rfl, rfl⟩)).mono
      (fun w hw => hw) ?_
  · rintro w wss s (⟨hw, rfl⟩ | ⟨hw, -⟩)
    · -- The first round takes `export`, since `class` behind it is no reason not to.
      obtain ⟨rfl, rfl⟩ := List.cons.inj hw
      refine ⟨List.cons_ne_nil _ _, Reads.peek_one_bind fun next hnext => ?_⟩
      refine Reads.current_bind fun t ht => ?_
      have hword : t.word = .line (Text.ofString "export") := List.mem_singleton.1 ht
      have hnext' : next.word = .name (Text.ofString "class") := List.mem_singleton.1 hnext
      have hmod : isStatementModifier [] t next = isStatementModifier []
          (Word.line (Text.ofString "export")).token
          (Word.name (Text.ofString "class")).token := by
        rw [← hword, ← hnext']; rfl
      refine Reads.ite_pos (by rw [hmod]; decide) (Reads.advance_bind fun _ _ => Reads.pure ?_)
      refine ⟨_, rfl, .inr ⟨rfl, ?_⟩⟩
      rw [show t.text = Text.ofString "export" from congrArg Word.text hword]
      decide
    · cases hw
  · rintro s (⟨hw, -⟩ | ⟨-, rfl⟩)
    · cases hw
    · -- The second finds `class`, which is no modifier.
      refine Reads.peek_bind fun next => Reads.current_bind fun t ht => ?_
      have hword : t.word = .name (Text.ofString "class") := List.mem_singleton.1 ht
      have his : ∀ s : String, s ≠ "class" → t.is s = false := by
        intro s hs
        rw [Token.is_eq hword, Word.name_is, beq_eq_false_iff_ne, Ne, Text.ofString_inj]
        exact hs.symm
      have hmod : isStatementModifier [.exported] t next = false := by
        simp [isStatementModifier, his]
      exact Reads.ite_neg (by rw [hmod]; decide) (Reads.pure rfl)
  · rintro s (⟨hw, -⟩ | ⟨-, hs⟩)
    · cases hw
    · exact hs

/-- **An exported class is a statement.** Behind the modifier the first word tells what
statement it is. -/
theorem reads_nextStatement_class {outlines : List MemberOutline} {wss : List (List Word)}
    (hx : ∀ w ∈ ["extends", "implements"], x ≠ Text.ofString w) (hG : closingBrace ∈ G)
    (h : List.Forall₂ (Reads.Round nextClassMember G HasOutline) outlines wss) :
    Reads nextStatement (.line (Text.ofString "export") :: classWords x wss) F
      (fun o => ∃ s, o = some (some s) ∧ s.outline? = some ⟨true, some x, outlines⟩) := by
  -- Behind the modifier the word `class` decides.
  have hfrom : ∀ start first, Reads (statementFrom start first)
      (.line (Text.ofString "export") :: classWords x wss) F
      (fun s => s.outline? = some ⟨true, some x, outlines⟩) := by
    intro start first
    unfold statementFrom
    rw [← List.singleton_append]
    refine Reads.bind reads_statementModifiers_export ?_ fun w hw => hw
    rintro _ rfl
    refine Reads.sees_bind (Sees.ahead_eq_false (fun _ => rfl) (forall_heads_cons.2 (by decide)))
      (Reads.ite_neg Bool.false_ne_true ?_)
    refine Reads.sees_bind (Sees.is (b := true) (forall_heads_cons.2 (by decide)))
      (Reads.ite_pos rfl ?_)
    exact reads_classDecl hx hG h
  unfold nextStatement
  refine Reads.sees_bind (Sees.isEof (b := false) (forall_heads_cons.2 rfl))
    (Reads.ite_neg Bool.false_ne_true ?_)
  rw [← List.append_nil (Word.line (Text.ofString "export") :: _)]
  refine Reads.bind (P := fun o => ∃ s, o = some s ∧
    s.outline? = some ⟨true, some x, outlines⟩) ?_ ?_ fun w hw => hw
  · unfold statement?
    refine Reads.here_bind fun start => ?_
    refine Reads.sees_bind (Sees.got (forall_heads_cons.2 (by decide)))
      (Reads.ite_neg Bool.false_ne_true ?_)
    refine Reads.sees_bind (sees_skipDecorators (forall_heads_cons.2 (by decide))) ?_
    refine Reads.current_bind fun t _ => ?_
    rw [← List.append_nil (Word.line (Text.ofString "export") :: _)]
    exact Reads.bind (hfrom start t.text) (fun s hs => Reads.pure ⟨s, rfl, hs⟩) fun w hw => hw
  · rintro _ ⟨s, rfl, hs⟩
    exact Reads.pure ⟨s, rfl, hs⟩

end Parser

end Exemplar
