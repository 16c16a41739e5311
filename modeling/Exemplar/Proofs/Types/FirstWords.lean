import Exemplar.Proofs.Grammar.Sources
import Exemplar.Proofs.Types.EnclosedTypes
import Exemplar.Proofs.Types.RenderedTypes

/-!
# How a type begins

A larger type looks at the first tokens of a part before it reads the part as a type: a tuple
tells a named element by the colon behind its name, and a list asks for its closing bracket.
None of this fits the beginning of a type. A type starts with a token that opens one, and if
that is an identifier, neither a colon nor a question mark comes next, for a type that starts so
would stop before the mark.

Both are shown for the rules of the grammar, from the atoms up. That a type starts with a token
that opens one is an inversion: a run that answers a type is followed to the first token it
looks at (`OpensType`). That it stops before a mark is a statement about what the rules do on
given tokens: the type is there, and the next token is one of the fences, that is, of the tokens
that come behind a type (`Stops`). If a type began with a name and a colon, the same rule would
have stopped before the colon, and a type whose source ends there would not have been read to
its end.

The two facts are put together in `Begins`, which is said of the words of a text. It is all that
a larger type needs to know of its parts.
-/

namespace Exemplar.Parser

open Exemplar.Tree Exemplar.Lexeme

variable {c d : Cursor} {a : TypeExpr} {nested : Nested} {type : Parser TypeExpr}

/-! ## The first token

An atom is chosen by its first token, and every rule above it reads an operator or starts with a
rule below. -/

/-- The words that can open a type where no atom starts, or an operator that no type follows. -/
def openingWords : List String :=
  ["|", "&", "new", "abstract", "keyof", "unique", "readonly", "infer"]

/-- Whether a type can start with a token. -/
def opensType (t : Token) : Bool := startsType t || openingWords.any t.is

/-- A parser for types that reads nothing from a token that opens none. It is said of a cursor
behind which the source ends cleanly, so that there is a current token or the end. -/
def OpensType (p : Parser TypeExpr) : Prop :=
  ∀ {c d : Cursor} {a : TypeExpr}, c.ending.Clean → p c = .ok (a, d) → opensType c.current = true

namespace OpensType

/-- A token with one of the words opens a type. -/
theorem of_is {t : Token} {w : String} (hw : w ∈ openingWords) (h : t.is w = true) :
    opensType t = true := by
  rw [opensType, List.any_eq_true.2 ⟨w, hw, h⟩, Bool.or_true]

/-- An atom starts with an identifier, a literal, a minus sign or an opening bracket. Any other
token is refused. -/
theorem atomType : OpensType (atomType type) := by
  intro c d a he h
  unfold Parser.atomType at h
  rw [here_bind, current_bind] at h
  rw [opensType, startsType]
  cases hk : c.current.kind with
  | ident | string | number | template => rfl
  | punct =>
    rw [hk] at h
    replace h : markedType type c.current.start c = .ok (a, d) := h
    unfold markedType at h
    rw [current_bind, bind_of_ok (ahead_run he _ _), ite_run] at h
    split at h
    · rename_i hminus
      rw [(Bool.and_eq_true_iff.1 hminus).1]
      simp
    rw [ite_run] at h
    split at h
    · rename_i hopen
      rw [hopen]
      rfl
    rw [ite_run] at h
    split at h
    · rename_i hopen
      rw [hopen]
      simp
    rw [ite_run] at h
    split at h
    · rename_i hopen
      rw [hopen]
      simp
    · cases h
  | regex | eof | illegal => rw [hk] at h; cases h

/-- An operator is a word that opens a type, and so is `infer`. Without either there is a
postfix type, which starts with its atom. -/
theorem operatorType : OpensType (operatorType nested) := by
  intro c d a he h
  unfold Parser.operatorType at h
  rw [here_bind, current_bind, bind_of_ok (ahead_run he _ _), ite_run] at h
  split at h
  · rename_i hop
    have hop := (Bool.and_eq_true_iff.1 hop).1
    rw [isTypeOperator, Bool.or_eq_true, Bool.or_eq_true] at hop
    obtain (h | h) | h := hop
    · exact of_is (w := "keyof") (by decide) h
    · exact of_is (w := "unique") (by decide) h
    · exact of_is (w := "readonly") (by decide) h
  rw [bind_of_ok (ahead_run he _ _), ite_run] at h
  split at h
  · rename_i hinfer
    exact of_is (w := "infer") (by decide) (Bool.and_eq_true_iff.1 hinfer).1
  · -- Brackets behind the atom come later, so the atom is the first thing that is read.
    obtain ⟨x, c₁, h₁, -⟩ := bind_eq_ok.1 h
    exact atomType he h₁

/-- A mark in front of the first item opens a type as well. Without the mark the first item is
the first thing that is read. -/
theorem separated {w : String} (hw : w ∈ openingWords) {item : Parser TypeExpr}
    (hitem : OpensType item)
    {build : Span → List TypeExpr → TypeExpr} : OpensType (separated w item build) := by
  intro c d a he h
  unfold Parser.separated at h
  rw [here_bind] at h
  obtain ⟨b, c₁, h₁, h₂⟩ := bind_eq_ok.1 h
  rcases got_inv he h₁ with ⟨-, rfl, -⟩ | ⟨-, t, ts, hr, ht, -⟩
  · obtain ⟨x, c₂, h₃, -⟩ := bind_eq_ok.1 h₂
    exact hitem he h₃
  · rw [Cursor.current_of_cons hr]
    exact of_is hw ht

/-- **A type starts with a token that opens one.** A function type starts with a bracket or an
angle bracket, a constructor type with the word `new` or `abstract`, and everything else with a
union. -/
theorem anyType : OpensType (anyType nested) := by
  intro c d a he h
  unfold Parser.anyType at h
  rw [here_bind, bind_of_ok (functionTypeAhead_run he.fault), ite_run] at h
  split at h
  · rename_i hfun
    have hstart : c.current.is "<" = true ∨ c.current.is "(" = true := by
      rw [Bool.or_eq_true, Bool.and_eq_true] at hfun
      exact hfun.imp_right And.left
    rw [opensType, startsType]
    have hkind : c.current.kind = .punct ∨ c.current.kind = .ident := by
      rcases hstart with h | h <;>
      · rw [Token.is, Bool.and_eq_true, Bool.or_eq_true, beq_iff_eq, beq_iff_eq] at h
        exact h.1
    rcases hkind with hk | hk
    · rw [hk]
      rcases hstart with h | h <;> simp [h]
    · rw [hk]
      rfl
  unfold constructorTypeAhead at h
  obtain ⟨b, c₁, h₁, h₂⟩ := bind_eq_ok.1 h
  rw [is_bind, ite_run] at h₁
  split at h₁
  · rename_i hnew
    exact of_is (w := "new") (by decide) hnew
  rw [ahead_run he] at h₁
  cases h₁
  rw [ite_run] at h₂
  split at h₂
  · rename_i hnew
    exact of_is (w := "abstract") (by decide) (Bool.and_eq_true_iff.1 hnew).1
  unfold conditionalType at h₂
  obtain ⟨x, c₂, h₃, -⟩ := bind_eq_ok.1 h₂
  exact separated (by decide) (separated (by decide) operatorType) he h₃

end OpensType

/-! ## The second token

A type that starts with an identifier is read from that one token, if a fence comes behind it.
Each rule is asked what it does there: whatever it looks for behind the identifier is no fence,
so it sees nothing and answers what it has read. -/

namespace Stops

variable {w : Word} {ws F : List Word}

/-- An identifier is one token. -/
theorem identifier (hw : w.token.isIdent = true) : Stops identifier [w] F := by
  unfold Parser.identifier
  refine Stops.sees_bind (Sees.isIdent (forall_heads_cons.2 hw))
    (Stops.ite (fun _ => ?_) fun h => absurd rfl h)
  exact Stops.advance_bind fun _ _ => Stops.pure

/-- Where no identifier stands, nothing is read. -/
theorem identifier_nil : Stops Parser.identifier [] fences := by
  unfold Parser.identifier
  have hno : ∀ w ∈ fences, w.token.isIdent = false := by decide
  exact Stops.sees_bind (Sees.isIdent hno)
    (Stops.ite (fun h => absurd h Bool.false_ne_true) fun _ => Stops.fail)

/-- A name goes on with a point, and a point is no fence. -/
theorem entityName (h : Stops Parser.identifier ws fences) : Stops entityName ws fences := by
  unfold Parser.entityName
  refine Stops.here_bind fun _ => ?_
  rw [← List.append_nil ws]
  refine Stops.bind h fun i => ?_
  have hpart : Sees namePart [] fences none :=
    Sees.bind (Sees.ahead_eq_false (f := (·.is ".")) (fun _ => rfl) (by decide))
      (Sees.ite_neg Bool.false_ne_true Sees.pure)
  refine Stops.sees_bind (Sees.collect_nil hpart) ?_
  exact Stops.spanFrom_bind fun _ => Stops.pure

/-- A reference goes on with arguments in angle brackets, and no fence opens them. -/
theorem typeReference (h : Stops Parser.identifier ws fences) :
    Stops (typeReference type) ws fences := by
  unfold Parser.typeReference
  refine Stops.here_bind fun _ => ?_
  rw [← List.append_nil ws]
  refine Stops.bind (entityName h) fun i => ?_
  have hargs : Sees (typeArguments? type) [] fences none :=
    Sees.bind (sees_argumentsAhead (by decide)) (Sees.ite_neg Bool.false_ne_true Sees.pure)
  refine Stops.sees_bind hargs ?_
  exact Stops.spanFrom_bind fun _ => Stops.pure

/-- A literal is one token. -/
theorem literalType (start : Position) : Stops (literalType start) [w] F := by
  unfold Parser.literalType
  refine Stops.advance_bind fun _ _ => ?_
  exact Stops.spanFrom_bind fun _ => Stops.pure

/-- An atom that starts with an identifier is a keyword, a literal, a query or a reference, each
of which stops behind it. A query wants a name behind its word. There is none, so it fails, and
stops nowhere. -/
theorem wordType (hw : w.token.isIdent = true) (start : Position) :
    Stops (wordType type start) [w] fences := by
  unfold Parser.wordType
  refine Stops.current_bind fun t ht => ?_
  have hdot : ∀ {q : Token → Bool}, Blind q →
      Sees (ahead q (fun next => !next.is ".")) [w] fences (q w.token) := fun hq =>
    Sees.ahead hq (fun _ => rfl) fun v hv => by
      have key : ∀ v ∈ fences, v.token.is "." = false := by decide
      rw [key v hv]
      exact Bool.and_true _
  refine Stops.sees_bind (hdot fun _ => rfl) (Stops.ite (fun _ => ?_) fun _ => ?_)
  · refine Stops.advance_bind fun _ _ => ?_
    exact Stops.spanFrom_bind fun _ => Stops.pure
  refine Stops.ite (fun _ => literalType start) fun _ => ?_
  refine Stops.sees_bind (hdot fun _ => rfl) (Stops.ite (fun _ => ?_) fun _ => ?_)
  · unfold typeQuery
    refine Stops.advance_bind fun _ _ => ?_
    rw [← List.append_nil []]
    refine Stops.bind (entityName identifier_nil) fun _ => ?_
    have hargs : Sees (typeArguments? type) [] fences none :=
      Sees.bind (sees_argumentsAhead (by decide)) (Sees.ite_neg Bool.false_ne_true Sees.pure)
    refine Stops.sees_bind hargs ?_
    exact Stops.spanFrom_bind fun _ => Stops.pure
  · exact typeReference (identifier hw)

/-- Behind the atom an opening bracket would go on with the type, and none is a fence. -/
theorem postfixType (hw : w.token.isIdent = true) : Stops (postfixType type) [w] fences := by
  unfold Parser.postfixType
  rw [← List.append_nil [w]]
  refine Stops.bind (v := [w]) (u := []) ?_ fun a => ?_
  · unfold Parser.atomType
    refine Stops.here_bind fun start => Stops.current_bind fun t ht => ?_
    have hk : t.kind = .ident := by
      have hkind : t.kind = w.kind := congrArg Word.kind (List.mem_singleton.1 ht)
      rw [hkind]
      exact beq_iff_eq.1 hw
    rw [hk]
    exact wordType hw start
  · have hbracket : Sees (bracketed? type a) [] fences none := by
      refine Sees.current_bind fun t ht => ?_
      have key : ∀ w ∈ fences, w.token.is "[" = false := by decide
      rw [show t.is "[" = false from key _ ht]
      exact Sees.pure
    exact Stops.of_sees (Sees.iterate_nil hbracket)

/-- The word of an operator is one only in front of a type, and no fence starts one. So here it
is taken for a name. -/
theorem operatorType (hw : w.token.isIdent = true) : Stops (operatorType nested) [w] fences := by
  unfold Parser.operatorType
  refine Stops.here_bind fun _ => Stops.current_bind fun _ _ => ?_
  have hno : Sees (ahead isTypeOperator startsType) [w] fences false :=
    Sees.ahead (fun _ => rfl) (fun _ => rfl) fun v hv => by
      have key : ∀ v ∈ fences, startsType v.token = false := by decide
      rw [key v hv, Bool.and_false]
  have hinfer : Sees (ahead (·.is "infer") (·.isIdent)) [w] fences false :=
    Sees.ahead (fun _ => rfl) (fun _ => rfl) fun v hv => by
      have key : ∀ v ∈ fences, v.token.isIdent = false := by decide
      rw [key v hv, Bool.and_false]
  refine Stops.sees_bind hno (Stops.ite (fun h => absurd h Bool.false_ne_true) fun _ => ?_)
  exact Stops.sees_bind hinfer
    (Stops.ite (fun h => absurd h Bool.false_ne_true) fun _ => postfixType hw)

/-- The separator is neither the identifier nor a fence, so there is one item. -/
theorem separated {sep : String} {item : Parser TypeExpr}
    {build : Span → List TypeExpr → TypeExpr}
    (hw : w.token.is sep = false) (hsep : ∀ v ∈ fences, v.token.is sep = false)
    (h : Stops item [w] fences) : Stops (separated sep item build) [w] fences := by
  unfold Parser.separated
  refine Stops.here_bind fun _ => Stops.sees_bind (Sees.got (forall_heads_cons.2 hw)) ?_
  rw [← List.append_nil [w]]
  refine Stops.bind h fun a => ?_
  have hnone : Sees (itemBehind sep item) [] fences none :=
    Sees.bind (Sees.got hsep) (Sees.ite_neg Bool.false_ne_true Sees.pure)
  exact Stops.sees_bind (Sees.collect_nil hnone) Stops.pure

/-- The word `new` starts a constructor type, and of that there must be more. -/
theorem constructorType (start : Position) : Stops (constructorType type start) [w] fences := by
  have hgen : Sees (typeParameters? type) [] fences none :=
    Sees.bind (Sees.got (by decide)) (Sees.ite_neg Bool.false_ne_true Sees.pure)
  have hparams : Stops (parameters type) [] fences := by
    unfold parameters
    exact Stops.expect_bind_of_is (by decide)
  unfold Parser.constructorType
  refine Stops.got_bind (fun _ => Stops.expect_bind_of_is (by decide)) fun _ =>
    Stops.expect_bind ?_
  refine Stops.sees_bind hgen (Stops.bind (v := []) hparams fun _ => ?_)
  exact Stops.expect_bind_of_is (by decide)

/-- **A type that starts with an identifier stops behind it** where something comes next that
comes behind a type. The alternatives of the rule for types are gone through: no function starts
with an identifier, a constructor would go on with tokens that are no fences, and behind the
union there is no condition. -/
theorem anyType {e : Prop} {x : Text} {b : Bool} (hx : IsName e x) :
    Stops (anyType nested) [⟨.ident, x, b⟩] fences := by
  -- A name is none of the marks that start an alternative.
  have hmark : ∀ {s : String}, startsName (Text.ofString s) = false →
      (Word.token ⟨.ident, x, b⟩).is s = false := fun hs =>
    beq_false_of_ne (hx.ne_of_startsName hs)
  -- So the union is this one token.
  have hunion : Stops (unionType nested) [⟨.ident, x, b⟩] fences :=
    separated (hmark (by decide)) (by decide)
      (separated (hmark (by decide)) (by decide) (operatorType rfl))
  have hfunction : Sees functionTypeAhead [⟨.ident, x, b⟩] fences false := by
    refine Sees.current_bind fun t ht => ?_
    have hw : t.word = ⟨.ident, x, b⟩ := List.mem_singleton.1 ht
    rw [Token.is_eq hw, Token.is_eq hw, hmark (by decide), hmark (by decide)]
    exact Sees.pure
  have hconstructor : Sees constructorTypeAhead [⟨.ident, x, b⟩] fences
      ((Word.token ⟨.ident, x, b⟩).is "new") := by
    refine Sees.bind (Sees.is (forall_heads_cons.2 rfl)) ?_
    cases (Word.token ⟨.ident, x, b⟩).is "new" with
    | true => exact Sees.ite_pos rfl Sees.pure
    | false =>
      refine Sees.ite_neg Bool.false_ne_true
        (Sees.ahead (fun _ => rfl) (fun _ => rfl) fun v hv => ?_)
      have key : ∀ v ∈ fences, v.token.is "new" = false := by decide
      rw [key v hv, Bool.and_false]
  have hextends : Sees extendsAhead [] fences false := by
    refine Sees.current_bind fun t ht => ?_
    have key : ∀ v ∈ fences, v.token.is "extends" = false := by decide
    rw [show t.is "extends" = false from key _ ht]
    exact Sees.pure
  unfold Parser.anyType
  refine Stops.here_bind fun start => Stops.sees_bind hfunction ?_
  refine Stops.ite (fun h => absurd h Bool.false_ne_true) fun _ =>
    Stops.sees_bind hconstructor ?_
  refine Stops.ite (fun _ => constructorType start) fun _ => ?_
  unfold conditionalType
  rw [← List.append_nil [_]]
  refine Stops.bind hunion fun _ => Stops.sees_bind hextends ?_
  exact Stops.ite (fun h => absurd h Bool.false_ne_true) fun _ => Stops.pure

end Stops

/-! ## Both together

What a larger type looks for at the beginning of a part is a mark, or a name with a mark behind
it. -/

/-- The marks that can open a type. -/
def openingMarks : List String := ["(", "[", "\x7b", "-", "<"]

/-- A token that opens a type is an identifier or a literal, or it is one of finitely many marks
and words. So that a certain mark opens no type can be decided. -/
theorem opensType_cases {t : Token} (h : opensType t = true) :
    t.kind ∈ [.ident, .string, .number, .template] ∨
    ∃ w ∈ openingMarks ++ openingWords, t.is w = true := by
  rw [opensType, Bool.or_eq_true, List.any_eq_true] at h
  obtain h | ⟨w, hw, h⟩ := h
  · cases hk : t.kind with
    | ident | string | number | template => exact .inl (by decide)
    | punct =>
      rw [startsType, hk] at h
      simp only [Bool.or_eq_true] at h
      refine .inr ?_
      obtain (((h | h) | h) | h) | h := h <;> exact ⟨_, by decide, h⟩
    | regex | eof | illegal => rw [startsType, hk] at h; cases h
  · exact .inr ⟨w, List.mem_append_right _ hw, h⟩

/-- The words of a type begin like one. -/
structure Begins (ws : List Word) : Prop where
  /-- There is a first word. -/
  ne_nil : ws ≠ []
  /-- It opens a type. -/
  opens : ∀ w ∈ heads ws [], opensType w.token = true
  /-- If it is an identifier, its text is one. -/
  name : ∀ w ∈ heads ws [], w.token.isIdent = true → ∃ e, IsName e w.text
  /-- Behind an identifier stands none of the marks that follow a name. -/
  second : ∀ {w vs}, ws = w :: vs → w.token.isIdent = true →
    ∀ v ∈ heads vs [], v.token.is ":" = false ∧ v.token.is "?" = false

namespace Begins

variable {ws : List Word}

/-- There is a first word, so what comes behind the words does not matter. -/
theorem heads_eq (h : Begins ws) (F : List Word) : heads ws F = heads ws [] := by
  cases ws with
  | nil => exact absurd rfl h.ne_nil
  | cons w ws => rfl

/-- A type does not begin with a mark that opens none. An identifier is not the mark since its
text is a name, a literal since it is of another kind, and any other token since it is another
mark or word. -/
theorem is_eq_false (h : Begins ws) {s : String} (hs : startsName (Text.ofString s) = false)
    (hopen : s ∉ openingMarks ++ openingWords) (F : List Word) :
    ∀ w ∈ heads ws F, w.token.is s = false := by
  intro w hw
  rw [h.heads_eq] at hw
  by_cases hi : w.token.isIdent = true
  · obtain ⟨e, hname⟩ := h.name w hw hi
    rw [Token.is, show w.token.text = w.text from rfl,
      beq_false_of_ne (hname.ne_of_startsName hs), Bool.and_false]
  obtain hk | ⟨v, hv, hv'⟩ := opensType_cases (h.opens w hw)
  · rw [Token.isIdent, beq_iff_eq] at hi
    simp only [List.mem_cons, List.not_mem_nil, or_false] at hk
    obtain hk | hk | hk | hk := hk
    · exact absurd hk hi
    all_goals rw [Token.is, hk]; rfl
  · exact Token.is_eq_false_of_is hv' (fun heq => hopen (heq ▸ hv))

/-- No name of an element stands where a type begins. The look ahead asks for an identifier and
a colon behind it, or a question mark. The second word, if there is one, is neither; if there is
none, what comes behind the type is asked. -/
theorem sees_named (h : Begins ws) {F : List Word}
    (hF : ∀ w ∈ F, w.token.is ":" = false ∧ w.token.is "?" = false) :
    Sees namedElementAhead ws F false := by
  obtain ⟨w, vs, rfl⟩ := List.exists_cons_of_ne_nil h.ne_nil
  have hsecond : w.token.isIdent = true →
      ∀ v ∈ heads vs F, v.token.is ":" = false ∧ v.token.is "?" = false := by
    intro hi v hv
    cases vs with
    | nil => exact hF v hv
    | cons u us => exact h.second rfl hi v hv
  have hsees :
      ∀ {s : String}, (w.token.isIdent = true → ∀ v ∈ heads vs F, v.token.is s = false) →
      Sees (ahead (·.isIdent) (·.is s)) (w :: vs) F false := fun hs =>
    Sees.ahead (fun _ => rfl) (fun _ => rfl) fun v hv => by
      cases hi : w.token.isIdent with
      | false => rfl
      | true => exact hs hi v hv
  refine Sees.bind (hsees fun hi v hv => (hsecond hi v hv).1)
    (Sees.ite_neg Bool.false_ne_true ?_)
  exact Sees.ahead₃_eq_false (hsees fun hi v hv => (hsecond hi v hv).2)

end Begins

/-- **The tokens of a source that is a type begin like a type.** The run tells what the first
token is. For the second, suppose that it is a fence. Then the rule would have stopped in front
of it, but it has read all there is. -/
theorem begins_of_run (hc : c.Regular) (h : anyType nested c = .ok (a, d)) (hd : d.rest = []) :
    Begins (c.rest.map Token.word) := by
  have hopen := OpensType.anyType hc.clean h
  obtain ⟨t, ts, hr⟩ : ∃ t ts, c.rest = t :: ts := by
    refine List.exists_cons_of_ne_nil fun hr => ?_
    have hkind : (Cursor.current c).kind = .eof := by
      rw [Cursor.current_of_nil hr]
      exact hc.clean.kind
    rw [opensType, startsType, hkind] at hopen
    simp [openingWords, Token.is, hkind] at hopen
  rw [Cursor.current_of_cons hr] at hopen
  have hreg := hc.head hr
  rw [hr]
  refine ⟨List.cons_ne_nil _ _, fun w hw => ?_, fun w hw hi => ?_,
    fun {w vs} hcons hi v hv => ?_⟩
  · rw [List.mem_singleton.1 hw]
    exact hopen
  · rw [List.mem_singleton.1 hw] at hi ⊢
    exact ⟨_, hreg.name hi⟩
  · obtain ⟨rfl, rfl⟩ := List.cons.inj hcons
    cases ts with
    | nil => cases hv
    | cons u ts =>
      rw [List.mem_singleton.1 hv]
      have hname := hreg.name hi
      have hkind : t.word = ⟨.ident, t.text, t.newlineBefore⟩ := by
        rw [Token.word, beq_iff_eq.1 (show (t.kind == .ident) = true from hi)]
      -- The rule has not stopped behind the identifier, so no fence comes there.
      have hfence : u.word ∉ fences := by
        intro hu
        have hface : c.Faces [⟨.ident, t.text, t.newlineBefore⟩] fences (u :: ts) := by
          refine ⟨hc.clean, fun v hv => ?_, ⟨[t], hr, by rw [← hkind]; rfl⟩, hu⟩
          obtain ⟨front, more, hsplit⟩ := List.append_of_mem hv
          exact (hc.tokens hsplit).not_eof
        have hstop := (Stops.anyType hname c d (u :: ts) a hface h).1
        rw [hd] at hstop
        cases hstop
      have hmark : ∀ {s : String}, startsName (Text.ofString s) = false →
          (∀ b, ⟨.punct, Text.ofString s, b⟩ ∈ fences) → u.word.token.is s = false := by
        intro s hs hmem
        refine Bool.eq_false_iff.2 fun hu => hfence ?_
        have hu' : u.is s = true := hu
        rw [Token.is, Bool.and_eq_true, Bool.or_eq_true, beq_iff_eq, beq_iff_eq, beq_iff_eq]
          at hu'
        obtain ⟨hk | hk, hx⟩ := hu'
        · rw [Token.word, hk, hx]
          exact hmem _
        · have hu : u.Regular ts := (hc.past hr).head rfl
          exact absurd hx ((hu.name (beq_iff_eq.2 hk)).ne_of_startsName hs)
      exact ⟨hmark (by decide) (by decide), hmark (by decide) (by decide)⟩

end Exemplar.Parser
