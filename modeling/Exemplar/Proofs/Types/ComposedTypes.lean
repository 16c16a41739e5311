import Exemplar.Proofs.Types.TypeTexts

/-!
# Types put together

Types can be put together to larger types without a look at what they are: as elements of a
tuple, as arguments, as parameters and result of a function, in parentheses with brackets behind
them, and as members of unions and intersections. Each part is read as the type it is on its
own, so the tree of the whole is built over the trees of the parts.

What is known of a part is that a reader that was given it alone came to its end. The reader of
the whole comes to the part with other tokens behind it, and there it has to stop of its own
accord. That it does is a matter of what can stand behind a part: a comma or a closing bracket
goes on with no type (`fences`). So a part is read as it is on its own wherever one of these
follows, and this is all that the rules of the grammar for lists and brackets ask of their items
(`Typed`).

What comes before a part matters as well, in two places. A rule may look ahead to decide what
kind of type it has before it; the first word of an atom decides this, unless it is a
parenthesis, which may start a function type, and then the token behind the closing one decides.
And a part that leaves a bracket open could be closed by a bracket of the whole, if a look ahead
runs over its end. So parts with open brackets are left out, but for the result of a function,
behind which there is nothing.

The last section writes the texts. Each part stands at the end of a line, so that a comment at
its end does not swallow what is put behind it.
-/

namespace Exemplar

open Exemplar.Tree Exemplar.Lexeme

/-! ## Parts

A type is read by a rule that is given fuel for the types nested in it; any fuel from the number
of its words on will do, as each level of nesting takes a word. -/

/-- The words of a type that can be a part of a larger one. -/
structure Typed (t : TypeExpr) (ws : List Word) : Prop where
  /-- They begin like a type. -/
  begins : Parser.Begins ws
  /-- They leave no bracket open. -/
  level : Brackets.level 0 (ws.map Word.token) = some 0
  /-- They are read as the type wherever they stand. -/
  reads : ∀ k, ws.length ≤ k →
    Parser.Reads (Parser.anyType (Parser.nested k)) ws fences (SameBare t ·)

/-- A closing bracket or a comma behind a type, at the beginning of a line. -/
def Word.below (s : String) : Word := ⟨.punct, Text.ofString s, true⟩

/-- Lists are the same apart from places if their items are. -/
theorem SameBare.of_forall₂ {α : Type} [HasPlaces α] {l l' : List α}
    (h : List.Forall₂ SameBare l l') : SameBare l l' := by
  induction h with
  | nil => exact inferInstance
  | cons _ _ ih => exact inferInstance

/-- The words that are no reference where a type starts, or not always. -/
def reservedWords : List String :=
  Parser.predefinedTypes ++
    ["true", "false", "typeof", "keyof", "unique", "readonly", "infer", "new", "abstract"]

/-- An identifier that is a reference wherever a type starts. -/
structure Unreserved (x : Text) : Prop where
  /-- It is an identifier. -/
  name : IsName False x
  /-- It is no word with a meaning of its own. -/
  ne : ∀ w ∈ reservedWords, x ≠ Text.ofString w

/-- An unreserved identifier is a name of one part. -/
theorem Unreserved.named {x : Text} (h : Unreserved x) : Named False x [] where
  parts := ⟨h.name.mono False.elim, trivial⟩
  starts w hw := h.ne w (by revert w; decide)
  whole _ := by
    refine ⟨?_, h.ne "typeof" (by decide)⟩
    rw [Parser.isPredefined, List.any_eq_false]
    intro w hw
    rw [beq_iff_eq]
    exact h.ne w (List.mem_append_left _ hw)

namespace Parser

variable {x : Text} {t : TypeExpr} {w : Word} {ws vs F : List Word} {P : TypeExpr → Prop}
  {type : Parser TypeExpr}
  {nested' : Nested} {k : Nat}

/-! ## From an atom to a type

A rule above the atoms finds nothing of its own before or behind an atom if the atom starts with
none of its words and nothing of its own follows. -/

/-- The words by which a type is told from its first word, and the marks that may stand before
it. -/
def leaders : List String :=
  ["<", "|", "&", "keyof", "unique", "readonly", "infer", "new", "abstract"]

/-- A word that announces nothing but an atom. -/
def Quiet (w : Word) : Prop := ∀ s ∈ leaders, w.token.is s = false

instance (w : Word) : Decidable (Quiet w) :=
  inferInstanceAs (Decidable (∀ s ∈ leaders, w.token.is s = false))

/-- An unreserved identifier announces nothing. A word among the leaders is reserved, and the
marks among them are no names. -/
theorem Quiet.of_unreserved (h : Unreserved x) : Quiet (.name x) := by
  intro s hs
  rw [Word.name_is]
  by_cases hname : startsName (Text.ofString s) = true
  · have key : ∀ s ∈ leaders, startsName (Text.ofString s) = true → s ∈ reservedWords := by
      decide
    exact beq_false_of_ne (h.ne s (key s hs hname))
  · exact beq_false_of_ne (h.name.ne_of_startsName (Bool.eq_false_iff.2 hname))

namespace Quiet

/-- The first word of an atom is not one of the leaders. -/
theorem heads (hw : Quiet w) {s : String} (hs : s ∈ leaders) :
    ∀ v ∈ heads (w :: ws) F, v.token.is s = false :=
  forall_heads_cons.2 (hw s hs)

/-- No operator stands before the atom. -/
theorem reads_operatorType (hw : Quiet w) (h : Reads (postfixType nested'.type) (w :: ws) F P) :
    Reads (operatorType nested') (w :: ws) F P := by
  unfold operatorType
  refine Reads.here_bind fun _ => Reads.current_bind fun _ _ => ?_
  refine Reads.sees_bind (Sees.ahead_eq_false (fun _ => rfl) (forall_heads_cons.2 ?_))
    (Reads.ite_neg Bool.false_ne_true ?_)
  · rw [isTypeOperator, hw "keyof" (by decide), hw "unique" (by decide),
      hw "readonly" (by decide)]
    rfl
  · exact Reads.sees_bind (Sees.ahead_eq_false (fun _ => rfl) (hw.heads (by decide)))
      (Reads.ite_neg Bool.false_ne_true h)

/-- No mark of a union or an intersection stands before or behind the operand. -/
theorem reads_unionType (hw : Quiet w)
    (hF : ∀ v ∈ F, v.token.is "|" = false ∧ v.token.is "&" = false)
    (h : Reads (operatorType nested') (w :: ws) F P) : Reads (unionType nested') (w :: ws) F P :=
  reads_separated_one (hw.heads (by decide)) (fun v hv => (hF v hv).1)
    (reads_separated_one (hw.heads (by decide)) (fun v hv => (hF v hv).2) h)

/-- Neither a function type nor a condition is there. -/
theorem reads_anyType (hw : Quiet w) (hfunction : Sees functionTypeAhead (w :: ws) F false)
    (hF : ∀ v ∈ F, v.token.is "extends" = false) (h : Reads (unionType nested') (w :: ws) F P) :
    Reads (anyType nested') (w :: ws) F P := by
  have hconstructor : Sees constructorTypeAhead (w :: ws) F false :=
    Sees.bind (Sees.is (hw.heads (by decide))) (Sees.ite_neg Bool.false_ne_true
      (Sees.ahead_eq_false (fun _ => rfl) (hw.heads (by decide))))
  unfold anyType
  refine Reads.here_bind fun start => ?_
  refine Reads.sees_bind hfunction (Reads.ite_neg Bool.false_ne_true ?_)
  exact Reads.sees_bind hconstructor
    (Reads.ite_neg Bool.false_ne_true (reads_conditionalType hF h))

/-- No function type starts with a word that is no parenthesis. -/
theorem sees_functionTypeAhead (hw : Quiet w) (hp : w.token.is "(" = false) :
    Sees functionTypeAhead (w :: ws) F false := by
  refine Sees.current_bind fun u hu => ?_
  have hu : u.word = w := List.mem_singleton.1 hu
  rw [Token.is_eq hu, Token.is_eq hu, hw "<" (by decide), hp]
  exact Sees.pure

end Quiet

/-- The end of a source. -/
def ends : List Word := [.eof false, .eof true]

/-- An atom with no brackets behind it is an operand. -/
theorem Quiet.reads_operand (hw : Quiet w) (hF : ∀ v ∈ F, v.token.is "[" = false)
    (h : Reads (atomType nested'.type) (w :: ws) (.mark "[" :: F) P) :
    Reads (operatorType nested') (w :: ws) F P := by
  refine hw.reads_operatorType ?_
  rw [← List.append_nil (w :: ws)]
  refine (reads_postfixType (P := fun n a => n = 0 → P a)
    (fun _ _ _ _ h => absurd h (Nat.succ_ne_zero _)) 0 hF
    (h.mono (fun _ hv => hv) fun _ ha _ => ha)).mono (fun _ hv => hv) fun _ ha => ha rfl

/-- **An atom at the end of a source is a type**, and so is an array of such atoms. -/
theorem Quiet.reads_whole (hw : Quiet w) (n : Nat)
    (hfunction : Sees functionTypeAhead (w :: (ws ++ brackets n)) ends false)
    (h : ∀ F, Reads (atomType nested'.type) (w :: ws) F (SameBare t ·)) :
    Reads (anyType nested') (w :: (ws ++ brackets n)) ends
      (SameBare ((TypeExpr.array .unset)^[n] t) ·) := by
  refine hw.reads_anyType hfunction (by decide)
    (hw.reads_unionType (by decide) (hw.reads_operatorType ?_))
  refine reads_postfixType (P := fun n => SameBare ((TypeExpr.array .unset)^[n] t))
    (fun n s a ha => ?_) n
    (by decide) (h _)
  rw [Function.iterate_succ_apply']
  exact inferInstance

/-! ## Types between brackets

A tuple, the arguments of a reference and the parameters of a function are lists with commas,
which are read item by item. Each item is followed by a comma or by the closing bracket. -/

section Brackets

variable {ts : List TypeExpr} {v : List Word} {us : List (List Word)}

/-- Types between brackets are the items of a list with commas. -/
theorem listed_of_typed {closer : String} (h : Typed t ws) (hk : ws.length ≤ k)
    (hname : startsName (Text.ofString closer) = false)
    (hcloser : closer ∉ openingMarks ++ openingWords)
    (hF : ∀ w ∈ Word.below "," :: F, w ∈ fences) :
    Reads.Listed closer (.below ",") (anyType (nested k)) F SameBare t ws :=
  ⟨⟨h.begins.ne_nil, (h.reads k hk).mono hF fun _ h => h⟩, h.begins.is_eq_false hname hcloser _⟩

/-- Types between square brackets are the elements of a tuple. -/
theorem reads_tuple (h : List.Forall₂ Typed ts (v :: us))
    (hk : (Reads.sepWords (.below ",") v us).length ≤ k) :
    Reads (atomType (anyType (nested k)))
      (.mark "[" :: (Reads.sepWords (.below ",") v us ++ [Word.below "]"])) F
      (SameBare (.tuple .unset ts) ·) := by
  have hlist : List.Forall₂
      (Reads.Listed "]" (.below ",") (tupleElement (anyType (nested k))) [.below "]"]
      SameBare) ts (v :: us) :=
    forall₂_of_sepWords h hk fun t ws hws ht =>
      ⟨⟨ht.begins.ne_nil, reads_tupleElement (ht.begins.is_eq_false (by decide) (by decide) _)
        (ht.begins.sees_named (by decide)) (by decide)
        ((ht.reads k hws).mono (by decide) fun _ h => h)⟩,
        ht.begins.is_eq_false (by decide) (by decide) _⟩
  refine reads_atomType_of_tupleType fun start => ?_
  refine (reads_tupleType (by decide) (Reads.commaList (by decide) (by decide) hlist)).mono
    (fun _ hw => hw) ?_
  rintro _ ⟨s, ns, rfl, hns⟩
  have := SameBare.of_forall₂ hns
  exact inferInstance

/-- A name and arguments in angle brackets are a reference. -/
theorem reads_reference (hx : Unreserved x) (h : List.Forall₂ Typed ts (v :: us))
    (hk : (Reads.sepWords (.below ",") v us).length ≤ k) :
    Reads (atomType (anyType (nested k)))
      (.name x :: .mark "<" :: (Reads.sepWords (.below ",") v us ++ [Word.below ">"])) F
      (SameBare (.reference .unset (some ⟨.unset, x⟩) (some ts)) ·) := by
  have hlist :
      List.Forall₂ (Reads.Listed ">" (.below ",") (anyType (nested k)) [.below ">"] SameBare)
      ts (v :: us) :=
    forall₂_of_sepWords h hk fun t ws hws ht =>
      listed_of_typed ht hws (by decide) (by decide) (by decide)
  refine reads_atomType_of_wordType fun start => reads_wordType_reference hx.named (.inl rfl) ?_
  refine (reads_typeReference_arguments x [] (by decide)
    (Reads.commaList (by decide) (by decide) hlist)).mono (fun _ hw => hw) ?_
  rintro _ ⟨s, i, ns, rfl, hi, hns⟩
  have := SameBare.of_forall₂ hns
  have hi : SameBare (Identifier.mk .unset x) i := ⟨congrArg (Identifier.mk .unset) hi.symm⟩
  exact inferInstance

/-- A type in parentheses is an atom. -/
theorem reads_parens (h : Typed t ws) (hk : ws.length ≤ k) :
    Reads (atomType (anyType (nested k))) (.mark "(" :: (ws ++ [Word.below ")"])) F
      (SameBare (.parenthesized .unset t) ·) := by
  unfold atomType
  refine Reads.here_bind fun start => Reads.current_bind fun u hu => ?_
  have hu : u.word = .mark "(" := List.mem_singleton.1 hu
  have hk' : u.kind = .punct := congrArg Word.kind hu
  rw [hk']
  unfold markedType
  refine Reads.current_bind fun u hu => ?_
  have hu : u.word = .mark "(" := List.mem_singleton.1 hu
  refine Reads.sees_bind (Sees.ahead_eq_false (fun _ => rfl) (forall_heads_cons.2 (by decide)))
    (Reads.ite_neg Bool.false_ne_true
      (Reads.ite_pos ((Token.is_eq hu "(").trans (by decide)) ?_))
  unfold parenthesizedType
  refine Reads.advance_bind fun _ _ => Reads.bind (h.reads k hk) (fun n hn => ?_)
    (forall_heads_cons.2 (by decide))
  exact Reads.expect_bind (by decide) (Reads.spanFrom_bind fun s => Reads.pure inferInstance)

/-- A list leaves no bracket open if no item does. The separators neither open nor close any. -/
theorem level_sepWords {β : Type} {xs : List β} {sep : Word} (ho : sep.token.isOpener = false)
    (hc : sep.token.isCloser = false)
    (h : List.Forall₂ (fun _ ws => Brackets.level 0 (ws.map Word.token) = some 0) xs (v :: us)) :
    Brackets.level 0 ((Reads.sepWords sep v us).map Word.token) = some 0 := by
  obtain ⟨x, xs, hv, hus, rfl⟩ := List.forall₂_cons_right_iff.1 h
  rw [Reads.sepWords, List.map_append, Brackets.level_append, hv, Option.bind_some]
  clear h
  induction hus with
  | nil => rfl
  | @cons x ws xs us hws _ ih =>
    rw [List.map_cons, List.flatten_cons, List.cons_append, List.map_cons,
      List.map_append, Brackets.level, ho, hc, if_neg Bool.false_ne_true,
      if_neg Bool.false_ne_true, Brackets.level_append, hws, Option.bind_some]
    exact ih

/-! ## Function types

A parenthesis starts a function type if `=>` stands behind the one that closes it, or if what
stands in it can only be parameters. Here `=>` stands there, since the parameters leave no
bracket open. -/

/-- The words of a parameter with a name and a type. -/
def TypedParam (p : Text × TypeExpr) (ws : List Word) : Prop :=
  IsName False p.1 ∧ ∃ us, Typed p.2 us ∧ ws = .name p.1 :: .mark ":" :: us

/-- The tree of a parameter with a name and a type. -/
def paramTree (p : Text × TypeExpr) : Parameter :=
  .mk .unset [] (some ⟨.unset, p.1⟩) false false p.2

/-- Whether words begin like a predicate: with `asserts` and an identifier, or with an
identifier and `is`, both on one line. -/
def startsPredicate : List Word → Bool
  | w :: v :: _ => !v.newlineBefore
      && ((w.token.is "asserts" && v.token.isIdent) || (w.token.isIdent && v.token.is "is"))
  | _ => false

/-- Words that do not begin like a predicate are a result as they are a type.

A predicate shows in its first two words. If there is only one, the second is a word of what
follows, and this is neither an identifier nor `is`. -/
theorem reads_returnType_of_not_predicate (hne : ws ≠ []) (hp : startsPredicate ws = false)
    (hF : ∀ v ∈ F, v.token.isIdent = false ∧ v.token.is "is" = false) (h : Reads type ws F P) :
    Reads (returnType type) ws F P := by
  obtain ⟨w, vs, rfl⟩ := List.exists_cons_of_ne_nil hne
  have key : ∀ u ∈ Exemplar.heads vs F,
      (w.token.is "asserts" && (u.token.isIdent && !u.newlineBefore)) = false ∧
      (w.token.isIdent && (u.token.is "is" && !u.newlineBefore)) = false := by
    intro u hu
    cases vs with
    | nil =>
      obtain ⟨hi, his⟩ := hF u hu
      rw [hi, his]
      simp
    | cons v vs =>
      obtain rfl := List.mem_singleton.1 hu
      rw [startsPredicate] at hp
      revert hp
      cases u.newlineBefore <;> cases w.token.is "asserts" <;> cases w.token.isIdent <;>
        cases u.token.isIdent <;> cases u.token.is "is" <;> decide
  exact reads_returnType (Sees.ahead (fun _ => rfl) (fun _ => rfl) fun u hu => (key u hu).1)
    (Sees.ahead (fun _ => rfl) (fun _ => rfl) fun u hu => (key u hu).2) h

/-- A parameter leaves no bracket open if its type does not. -/
theorem level_of_typedParam {p : Text × TypeExpr} (h : TypedParam p ws) :
    Brackets.level 0 (ws.map Word.token) = some 0 := by
  obtain ⟨-, us, hus, rfl⟩ := h
  exact hus.level

/-- Parameters with names and types, and a result type. The reader looks ahead over the
parameters to the arrow, then reads them one by one, and then the result as what it is on its
own. -/
theorem reads_function {ps : List (Text × TypeExpr)} (h : List.Forall₂ TypedParam ps (v :: us))
    (hk : (Reads.sepWords (.below ",") v us).length ≤ k)
    (hr : Reads (returnType (anyType (nested k))) vs F (SameBare t ·)) :
    Reads (anyType (nested (k + 1)))
      (.mark "(" :: (Reads.sepWords (.below ",") v us ++ (.below ")" :: .mark "=>" :: vs))) F
      (SameBare (.function .unset none (ps.map paramTree) t) ·) := by
  -- No parameter leaves a bracket open, so the arrow behind them is found.
  have hlevel : Brackets.level 0 ((Reads.sepWords (.below ",") v us).map Word.token) = some 0 :=
    level_sepWords (by decide) (by decide) (h.imp fun _ _ => level_of_typedParam)
  have hlist :
      List.Forall₂ (Reads.Listed ")" (.below ",") (parameter (anyType (nested k))) [.below ")"]
      (fun p n => SameBare (paramTree p) n)) ps (v :: us) := by
    refine forall₂_of_sepWords h hk fun p ws hws hp => ?_
    obtain ⟨hx, us, hus, rfl⟩ := hp
    have hk : us.length ≤ k := by simp only [List.length_cons] at hws; omega
    refine ⟨⟨List.cons_ne_nil _ _, ?_⟩, forall_heads_cons.2 ?_⟩
    · refine (reads_parameter hx (by decide)
        ((hus.reads k hk).mono (by decide) fun _ h => h)).mono
        (fun _ hw => hw) ?_
      rintro _ ⟨s, i, n, rfl, hi, hn⟩
      have hi : SameBare (Identifier.mk .unset p.1) i :=
        ⟨congrArg (Identifier.mk .unset) hi.symm⟩
      rw [paramTree]
      exact inferInstance
    · rw [Word.name_is]
      exact beq_false_of_ne (hx.ne_of_startsName (by decide))
  -- Then they are read one by one.
  have hparams : Reads (commaList ")" (parameter (nested (k + 1)).type))
      (Reads.sepWords (.below ",") v us)
      [.below ")"] (SameBare (ps.map paramTree)) := by
    refine (Reads.commaList (by decide) (by decide) hlist).mono (fun _ hw => hw) fun ns hns => ?_
    exact SameBare.of_forall₂ (List.forall₂_map_left_iff.2 hns)
  have hresult : Reads (returnType (nested (k + 1)).type) vs F (SameBare t ·) := hr
  refine (reads_anyType_of_functionType hlevel (by decide) (by decide) hparams hresult).mono
    (fun _ hw => hw) ?_
  rintro _ ⟨s, ns, r, rfl, hns, hr⟩
  exact inferInstance

/-! ## Unions and intersections

Members are put in parentheses, so each of them is an atom whatever its type is. With a
parenthesis in front, it has to be seen that no function type starts there: behind the closing
one stands the mark of the union or the end. -/

/-- The words of a type in parentheses. -/
def parenWords (ws : List Word) : List Word := .mark "(" :: (ws ++ [Word.below ")"])

/-- The words of a type in parentheses stand for the type. -/
def TypedParens (t : TypeExpr) (ws : List Word) : Prop := ∃ us, Typed t us ∧ ws = parenWords us

/-- A type in parentheses is an operand. -/
theorem reads_operand_parens (h : TypedParens t ws) (hk : ws.length ≤ k + 1)
    (hF : ∀ v ∈ F, v.token.is "[" = false) :
    Reads (operatorType (nested (k + 1))) ws F (SameBare (.parenthesized .unset t) ·) := by
  obtain ⟨us, hus, rfl⟩ := h
  simp only [parenWords, List.length_cons, List.length_append] at hk
  exact Quiet.reads_operand (by decide) hF (reads_parens hus (by omega))

/-- Types in parentheses with a mark between them are no function type. -/
theorem sees_parens (h : TypedParens t v) (us : List (List Word)) {m : String} (hm : m ≠ "=>") :
    Sees functionTypeAhead (Reads.sepWords (.mark m) v us) ends false := by
  obtain ⟨ws, hws, rfl⟩ := h
  have heq : Reads.sepWords (.mark m) (parenWords ws) us =
      .mark "(" :: (ws ++ (.below ")" :: (us.map (.mark m :: ·)).flatten)) := by
    simp [Reads.sepWords, parenWords]
  rw [heq]
  refine sees_functionTypeAhead hws.level (by decide) fun w hw => ?_
  cases us with
  | nil =>
    have key : ∀ w ∈ ends, w.token.is "=>" = false := by decide
    exact key w hw
  | cons u us =>
    obtain rfl := List.mem_singleton.1 hw
    rw [Word.mark_is]
    exact beq_false_of_ne hm

/-- Several types in parentheses with a mark between them are combined. There are two members at
least, since one alone is no union. -/
theorem reads_separated_parens {m : String} {item : Parser TypeExpr}
    {build : Span → List TypeExpr → TypeExpr}
    (h : List.Forall₂ TypedParens ts (v :: us)) (hl : 2 ≤ ts.length)
    (hk : (Reads.sepWords (.mark m) v us).length ≤ k)
    (hm : ∀ w ∈ .mark "(" :: ends, w.token.is m = false)
    (hitem : ∀ t ws, TypedParens t ws → ws.length ≤ k →
      Reads item ws (.mark m :: ends) (SameBare (.parenthesized .unset t) ·)) :
    Reads (separated m item build) (Reads.sepWords (.mark m) v us) ends
      (fun n => ∃ s ns, n = build s ns ∧ SameBare (ts.map (.parenthesized .unset)) ns) := by
  -- Each member starts with a parenthesis, and so with no mark between members.
  have hparen : ∀ {t ws}, TypedParens t ws → ∃ vs, ws = .mark "(" :: vs := by
    rintro t _ ⟨us, -, rfl⟩
    exact ⟨_, rfl⟩
  have hentries : List.Forall₂
      (Reads.Entry (.mark m) item ends fun t n => SameBare (.parenthesized .unset t) n)
      ts (v :: us) := by
    refine forall₂_of_sepWords h hk fun t ws hws ht => ⟨?_, hitem t ws ht hws⟩
    obtain ⟨vs, rfl⟩ := hparen ht
    exact List.cons_ne_nil _ _
  have hfirst : ∀ w ∈ heads v ends, w.token.is m = false := by
    obtain ⟨t, _, ht, -, -⟩ := List.forall₂_cons_right_iff.1 h
    obtain ⟨vs, rfl⟩ := hparen ht
    exact forall_heads_cons.2 (hm _ (.head _))
  refine (reads_separated_many (by simp) hl hfirst (fun w hw => hm w (.tail _ hw)) hentries).mono
    (fun _ hw => hw) ?_
  rintro _ ⟨s, ns, rfl, hns⟩
  exact ⟨s, ns, rfl, SameBare.of_forall₂ (List.forall₂_map_left_iff.2 hns)⟩

/-- A parenthesis is not taken for the beginning of anything but an atom. The type starts with
one, and `=>` is not behind it. -/
theorem reads_anyType_parens {m : String}
    (h : List.Forall₂ TypedParens ts (v :: us)) (hm : m ≠ "=>")
    (hunion : Reads (unionType (nested k)) (Reads.sepWords (.mark m) v us) ends P) :
    Reads (anyType (nested k)) (Reads.sepWords (.mark m) v us) ends P := by
  obtain ⟨t, _, ht, -, -⟩ := List.forall₂_cons_right_iff.1 h
  have hsees := sees_parens ht us hm
  obtain ⟨ws, -, rfl⟩ := ht
  exact Quiet.reads_anyType (by decide) hsees (by decide) hunion

/-- A union of types in parentheses. Each member is an intersection of one operand. -/
theorem reads_union (h : List.Forall₂ TypedParens ts (v :: us)) (hl : 2 ≤ ts.length)
    (hk : (Reads.sepWords (.mark "|") v us).length ≤ k + 1) :
    Reads (anyType (nested (k + 1))) (Reads.sepWords (.mark "|") v us) ends
      (SameBare (.union .unset (ts.map (.parenthesized .unset))) ·) := by
  refine reads_anyType_parens h (by decide) ?_
  refine (reads_separated_parens h hl hk (by decide) fun t ws ht hws => ?_).mono
    (fun _ hw => hw) ?_
  · refine reads_separated_one ?_ (by decide) (reads_operand_parens ht hws (by decide))
    obtain ⟨vs, -, rfl⟩ := ht
    exact forall_heads_cons.2 (by decide)
  · rintro _ ⟨s, ns, rfl, hns⟩
    exact inferInstance

/-- An intersection of types in parentheses is the one member of a union. -/
theorem reads_intersection (h : List.Forall₂ TypedParens ts (v :: us)) (hl : 2 ≤ ts.length)
    (hk : (Reads.sepWords (.mark "&") v us).length ≤ k + 1) :
    Reads (anyType (nested (k + 1))) (Reads.sepWords (.mark "&") v us) ends
      (SameBare (.intersection .unset (ts.map (.parenthesized .unset))) ·) := by
  refine reads_anyType_parens h (by decide) (reads_separated_one ?_ (by decide) ?_)
  · obtain ⟨t, _, ⟨ws, -, rfl⟩, -, -⟩ := List.forall₂_cons_right_iff.1 h
    exact forall_heads_cons.2 (by decide)
  refine (reads_separated_parens h hl hk (by decide) fun t ws ht hws =>
    reads_operand_parens ht hws (by decide)).mono (fun _ hw => hw) ?_
  rintro _ ⟨s, ns, rfl, hns⟩
  exact inferInstance

end Brackets

end Parser

/-! ## Texts -/

/-- What a text is read as, apart from places. -/
def Text.Reads (x : Text) (t : TypeExpr) : Prop :=
  ∃ t', TypeExpr.parse x = .ok t' ∧ SameBare t t'

/-- A text that is a type on its own, has no escapes and leaves no bracket open. -/
structure IsType (x : Text) (t : TypeExpr) : Prop where
  /-- It is the type. -/
  parse : TypeExpr.parse x = .ok t
  /-- It has no backslashes. -/
  plain : ∀ g ∈ x, g.is '\\' = false
  /-- Every bracket in it has its partner. -/
  balanced : Brackets.level 0 x.tokens = some 0

/-- Whether a text is a type on its own that passes a test. -/
def IsType.test (f : TypeExpr → Bool) (x : Text) : Bool :=
  (TypeExpr.parse x).toOption.any f && x.all (!·.is '\\') && Brackets.level 0 x.tokens == some 0

/-- Whether a fixed text is a type can be computed. -/
theorem IsType.exists_of_test {f : TypeExpr → Bool} {x : Text} (h : IsType.test f x = true) :
    ∃ t, IsType x t ∧ f t = true := by
  rw [test, Bool.and_eq_true, Bool.and_eq_true] at h
  obtain ⟨⟨hparse, hplain⟩, hbalanced⟩ := h
  obtain ⟨t, ht, htest⟩ := Parser.exists_ok_of_any f hparse
  exact ⟨t,
    ⟨ht, fun g hg => Bool.not_eq_true' _ ▸ List.all_eq_true.1 hplain g hg, eq_of_beq hbalanced⟩,
    htest⟩

namespace Text

/-- A text with the end of a line behind it. -/
def line (x : Text) : Text := x ++ [Glyph.char '\n']

/-- Texts with commas between them, each at the end of a line. -/
def commas (xs : List Text) : Text := join [.char ',', .char ' '] (xs.map line)

/-- A tuple of types. -/
def tuple (xs : List Text) : Text := .char '[' :: (commas xs ++ [.char ']'])

/-- A name with types as arguments. -/
def applied (x : Text) (xs : List Text) : Text := x ++ .char '<' :: (commas xs ++ [.char '>'])

/-- A type in parentheses. -/
def parens (x : Text) : Text := .char '(' :: (x.line ++ [.char ')'])

/-- An array of a type in parentheses. -/
def array (x : Text) : Text := x.parens ++ [Glyph.char '[', .char ']']

/-- A parameter with its type. -/
def parameter (p : Text × Text) : Text := p.1 ++ .char ':' :: .char ' ' :: p.2

/-- A function of parameters with a result type. -/
def function (ps : List (Text × Text)) (x : Text) : Text :=
  .char '(' ::
    (commas (ps.map parameter) ++
      (.char ')' :: .char ' ' :: (Text.ofString "=>" ++ (.char ' ' :: x.line))))

/-- Types in parentheses with a mark between them. -/
def marked (m : Char) (xs : List Text) : Text :=
  join [.char ' ', .char m, .char ' '] (xs.map parens)

end Text

/-! ### What texts spell

Between the end of a part and what follows, there is a line break. The part is cut into words as
it is on its own, and the first word behind it remembers the line break. -/

section Spelling

variable {x : Text} {t : TypeExpr} {xs : List Text} {ts : List TypeExpr} {u : Text}

/-- **Texts with a separator between them spell their words with a separator between them.** -/
theorem Cuts.join {sep : Text} {s : Word} {b : Bool} {ws : List Word} {wss : List (List Word)}
    (hsep : ∀ u, Cuts b false sep [s] u)
    (h : List.Forall₂ (fun x ws => ∀ u, Cuts false b x ws u) xs (ws :: wss)) (u : Text) :
    Cuts false b (Text.join sep xs) (Parser.Reads.sepWords s ws wss) u := by
  obtain ⟨x, xs, hx, hxs, rfl⟩ := List.forall₂_cons_right_iff.1 h
  clear h
  -- By induction on the texts behind the first one, each with a separator in front of it.
  induction hxs generalizing x ws with
  | nil =>
    rw [Parser.Reads.sepWords, List.map_nil, List.flatten_nil, List.append_nil]
    exact hx u
  | @cons y vs xs wss hy _ ih =>
    have htail := ih y hy
    have heq : Parser.Reads.sepWords s ws (vs :: wss)
        = ws ++ ([s] ++ Parser.Reads.sepWords s vs wss) := by
      simp [Parser.Reads.sepWords]
    rw [heq, Text.join, List.append_assoc]
    exact Cuts.append (hx _) (Cuts.append (hsep _) htail)

/-- An angle bracket spells itself in front of anything but an equals sign. -/
theorem Cuts.angle {a : Bool} (hu : ∀ g ∈ u.head?, g ≠ .char '=') :
    Cuts a false [.char '<'] [⟨.punct, [.char '<'], a⟩] u := by
  have key : ∀ p ∈ punctuators, (Text.ofString p).head? ≠ some (Glyph.char '<') ∧
      Text.ofString p ≠ [] ∨ (Text.ofString p).take 2 = [Glyph.char '<', .char '='] := by decide
  -- No longer mark fits: each of them goes on with an equals sign or another bracket.
  have hnone :
      punctuators.find? (fun p => (Text.ofString p).isPrefixOf (.char '<' :: u)) = none := by
    refine List.find?_eq_none.2 fun p hp hprefix => ?_
    obtain ⟨r, hr⟩ := List.isPrefixOf_iff_prefix.1 hprefix
    obtain ⟨hhead, hne⟩ | htake := key p hp
    · obtain ⟨g, gs, hx⟩ := List.exists_cons_of_ne_nil hne
      rw [hx] at hr hhead
      exact hhead (congrArg some (List.cons.inj hr).1)
    · rw [← List.take_append_drop 2 (Text.ofString p), htake] at hr
      exact hu _ (by rw [← (List.cons.inj hr).2]; rfl) rfl
  have hlength : punctuatorLength (Glyph.char '<' :: [] ++ u) = 1 := by
    show punctuatorLength (.char '<' :: u) = 1
    rw [punctuatorLength, hnone]
  exact Cuts.mark (by decide) (fun h => absurd h (by decide)) hlength

/-- A type at the end of a line is cut into its words. -/
theorem cuts_line (h : TypeExpr.parse x = .ok t)
    (hplain : ∀ g ∈ x, g.is '\\' = false) (u : Text) :
    Cuts false true x.line x.words u := by
  have hcuts := Cuts.piece (b := '\n') (by decide) (Parser.type_eq_ok h).1.clean.fault hplain
    (Parser.noSlashFirst_of_parse h) (.inl rfl) u
  rwa [beq_self_eq_true, Bool.or_true] at hcuts

namespace IsType

/-- A text that is a type can be a part. -/
theorem typed (h : IsType x t) : Typed t x.words where
  begins := Parser.begins_of_parse h.parse
  level := (Brackets.level_words 0 x.tokens).trans h.balanced
  reads _ hk := Parser.reads_of_parse h.parse (fun _ hw => hw) (fun _ => h.balanced) hk

/-- And at the end of a line it is cut into its words. -/
theorem cuts (h : IsType x t) (u : Text) : Cuts false true x.line x.words u :=
  cuts_line h.parse h.plain u

end IsType

/-- Texts with commas between them spell their words with commas between them. -/
theorem cuts_commas {ws : List Word} {wss : List (List Word)}
    (h : List.Forall₂ (fun x ws => ∀ u, Cuts false true (Text.line x) ws u) xs (ws :: wss))
    (u : Text) :
    Cuts false true (Text.commas xs) (Parser.Reads.sepWords (.below ",") ws wss) u :=
  Cuts.join (fun _ => Cuts.cons_solo (by decide) (Cuts.cons_blank .nil))
    (List.forall₂_map_left_iff.2 h) u

end Spelling

/-! ### Composing

Each form is cut into words and then read by its rule. Fuel for the whole is fuel for the parts,
since the whole has more words than each of them. -/

section Composing

open Exemplar.Parser

variable {x : Text} {t : TypeExpr} {xs : List Text} {ts : List TypeExpr}
  {w : Word} {ws : List Word}

/-- A source that is not empty is read with types nested once at least. -/
theorem reads_of_succ {after : Bool} {ws : List Word}
    (hcuts : Cuts false after x ws []) (hne : ws ≠ [])
    (h : ∀ k, ws.length ≤ k + 1 →
      Parser.Reads (anyType (nested (k + 1))) ws ends (SameBare t ·)) : x.Reads t := by
  refine parse_of_reads hcuts fun k hk => ?_
  obtain ⟨m, rfl⟩ := Nat.exists_eq_add_one.2 (Nat.lt_of_lt_of_le (List.length_pos_iff.2 hne) hk)
  have hend : ∀ v ∈ [Word.eof after], v ∈ ends := by
    rw [List.forall_mem_singleton]
    cases after <;> decide
  exact (h m hk).mono hend fun _ ht => ht

/-- An atom that is the whole of a source, or the part of it before brackets, is read. -/
theorem reads_of_atom (n : Nat) (ws : List Word)
    (hcuts : Cuts false false x (w :: (ws ++ brackets n)) []) (hw : Quiet w)
    (hfunction : Sees functionTypeAhead (w :: (ws ++ brackets n)) ends false)
    (h : ∀ k F, ws.length ≤ k →
      Parser.Reads (atomType (anyType (nested k))) (w :: ws) F (SameBare t ·)) :
    x.Reads ((TypeExpr.array .unset)^[n] t) := by
  refine reads_of_succ hcuts (List.cons_ne_nil _ _) fun k hk =>
    hw.reads_whole n hfunction fun F => h k F ?_
  simp only [List.length_cons, List.length_append] at hk
  omega

/-- The words of types can be parts. -/
theorem typed_words (h : List.Forall₂ IsType xs ts) :
    List.Forall₂ Typed ts (xs.map Text.words) := by
  rw [List.forall₂_map_right_iff]
  exact (h.imp fun _ _ => IsType.typed).flip

/-- Types at the ends of lines are cut into their words. -/
theorem cuts_words (h : List.Forall₂ IsType xs ts) :
    List.Forall₂ (fun x ws => ∀ u, Cuts false true (Text.line x) ws u) xs
      (xs.map Text.words) := by
  induction h with
  | nil => exact .nil
  | cons hx _ ih => exact .cons hx.cuts ih

/-- **A tuple of types.** The comma behind an element stands at the beginning of the next
line. -/
theorem reads_tuple_text (h : List.Forall₂ IsType (x :: xs) ts) :
    (Text.tuple (x :: xs)).Reads (.tuple .unset ts) := by
  have hcuts : Cuts false false (Text.tuple (x :: xs))
      (.mark "[" ::
        ((Reads.sepWords (.below ",") x.words (xs.map Text.words) ++ [Word.below "]"]) ++
        brackets 0)) [] := by
    rw [brackets, List.append_nil]
    exact Cuts.cons_solo (by decide)
      (Cuts.append (cuts_commas (cuts_words h) _) (Cuts.cons_solo (by decide) .nil))
  refine reads_of_atom 0 _ hcuts (by decide)
    (Quiet.sees_functionTypeAhead (by decide) (by decide)) fun k F hk => ?_
  exact reads_tuple (typed_words h) (Nat.le_trans (by simp) hk)

/-- **A type in parentheses.** It spells the parentheses around its words. -/
theorem cuts_parens (h : IsType x t) (u : Text) :
    Cuts false false x.parens (parenWords x.words) u :=
  Cuts.cons_solo (by decide) (Cuts.append (h.cuts _) (Cuts.cons_solo (by decide) .nil))

/-- A type in parentheses starts no function type, as a bracket or the end stands behind it. -/
theorem sees_brackets (h : Typed t ws) (n : Nat) :
    Sees functionTypeAhead
      (.mark "(" :: ((ws ++ [Word.below ")"]) ++ brackets n)) ends false := by
  rw [List.append_assoc, List.singleton_append]
  refine sees_functionTypeAhead h.level (by decide) fun w hw => ?_
  have key : ∀ w ∈ .mark "[" :: ends, w.token.is "=>" = false := by decide
  cases n with
  | zero => exact key w (.tail _ hw)
  | succ n => exact key w (List.mem_singleton.1 hw ▸ .head _)

/-- A type in parentheses is read as such. -/
theorem reads_parens_text (h : IsType x t) : x.parens.Reads (.parenthesized .unset t) := by
  refine reads_of_atom 0 (x.words ++ [Word.below ")"]) ?_ (by decide) (sees_brackets h.typed 0)
    fun k F hk => reads_parens h.typed (Nat.le_trans (by simp) hk)
  rw [brackets, List.append_nil]
  exact cuts_parens h []

/-- **An array of a type in parentheses.** -/
theorem reads_array_text (h : IsType x t) :
    x.array.Reads (.array .unset (.parenthesized .unset t)) := by
  refine reads_of_atom 1 (x.words ++ [Word.below ")"]) ?_ (by decide) (sees_brackets h.typed 1)
    fun k F hk => reads_parens h.typed (Nat.le_trans (by simp) hk)
  exact Cuts.append (cuts_parens h _)
    (Cuts.cons_solo (by decide) (Cuts.cons_solo (by decide) .nil))

/-- The words of types in parentheses. -/
theorem typed_parens (h : List.Forall₂ IsType xs ts) :
    List.Forall₂ TypedParens ts (xs.map fun x => parenWords x.words) := by
  rw [List.forall₂_map_right_iff]
  exact (h.imp fun x t hx =>
    (⟨x.words, hx.typed, rfl⟩ : TypedParens t (parenWords x.words))).flip

/-- Types in parentheses with a mark between them spell their words with the mark between
them. -/
theorem cuts_marked {m : Char} (hm : Lexeme.isMark m = true) (hdot : m ≠ '.')
    (h : List.Forall₂ IsType (x :: xs) ts) :
    Cuts false false (Text.marked m (x :: xs))
      (Reads.sepWords ⟨.punct, [.char m], false⟩ (parenWords x.words)
        (xs.map fun x => parenWords x.words)) [] := by
  have hparens : ∀ {xs ts}, List.Forall₂ IsType xs ts →
      List.Forall₂ (fun x ws => ∀ u, Cuts false false (Text.parens x) ws u) xs
        (xs.map fun x => parenWords x.words) := by
    intro xs ts h
    induction h with
    | nil => exact .nil
    | cons hx _ ih => exact .cons (cuts_parens hx) ih
  refine Cuts.join (fun u => ?_) (List.forall₂_map_left_iff.2 (hparens h)) []
  refine Cuts.cons_blank
    (Cuts.cons_stopped hm ?_ (fun h => absurd h hdot) (Cuts.cons_blank .nil))
  exact stopsMark_cons.2 (by decide)

/-- **A union of types in parentheses.** -/
theorem reads_union_text (h : List.Forall₂ IsType (x :: xs) ts) (hl : 2 ≤ ts.length) :
    (Text.marked '|' (x :: xs)).Reads (.union .unset (ts.map (.parenthesized .unset))) :=
  reads_of_succ (cuts_marked (by decide) (by decide) h) (List.cons_ne_nil _ _)
    fun _ hk => reads_union (typed_parens h) hl hk

/-- **An intersection of types in parentheses.** -/
theorem reads_intersection_text (h : List.Forall₂ IsType (x :: xs) ts) (hl : 2 ≤ ts.length) :
    (Text.marked '&' (x :: xs)).Reads (.intersection .unset (ts.map (.parenthesized .unset))) :=
  reads_of_succ (cuts_marked (by decide) (by decide) h) (List.cons_ne_nil _ _)
    fun _ hk => reads_intersection (typed_parens h) hl hk

/-- **A name with types as arguments.** The angle bracket is cut by itself if no equals sign
follows, and no type begins with one. -/
theorem reads_applied_text {y : Text} (hy : Unreserved y)
    (h : List.Forall₂ IsType (x :: xs) ts) :
    (Text.applied y (x :: xs)).Reads (.reference .unset (some ⟨.unset, y⟩) (some ts)) := by
  have hhead : ∀ g ∈ (Text.commas (x :: xs) ++ [Glyph.char '>'] : Text).head?, g
      ≠ .char '=' := by
    obtain ⟨t, ts, hx, -, rfl⟩ := List.forall₂_cons_left_iff.1 h
    obtain ⟨r, hr⟩ : ∃ r, Text.commas (x :: xs) = x ++ Glyph.char '\n' :: r := by
      cases xs with
      | nil => exact ⟨[], rfl⟩
      | cons y xs =>
        exact ⟨_,
          by
            simp only [Text.commas, List.map_cons, Text.join, Text.line, List.append_assoc]; rfl⟩
    rw [hr]
    cases x with
    | nil => rintro _ ⟨rfl⟩; decide
    | cons g x => rintro _ ⟨rfl⟩; exact head_of_parse hx.parse g rfl
  -- The words of the whole: the name, and the types between angle brackets.
  have hcuts : Cuts false false (Text.applied y (x :: xs))
      (.name y :: ((Word.mark "<" :: (Reads.sepWords (.below ",") x.words (xs.map Text.words) ++
        [Word.below ">"])) ++ brackets 0)) [] := by
    rw [brackets, List.append_nil]
    refine Cuts.append_name hy.name (by decide)
      (Cuts.append (s := [.char '<']) (v := [.mark "<"])
      (Cuts.angle (by rw [List.append_nil]; exact hhead)) ?_)
    exact Cuts.append (cuts_commas (cuts_words h) _) (Cuts.cons_solo (by decide) .nil)
  refine reads_of_atom 0 _ hcuts (.of_unreserved hy)
    (Quiet.sees_functionTypeAhead (.of_unreserved hy) ?_) fun k F hk => ?_
  · rw [Word.name_is]
    exact beq_false_of_ne (hy.name.ne_of_startsName (by decide))
  · simp only [List.length_cons, List.length_append] at hk
    exact reads_reference hy (typed_words h) (by omega)

/-- A parameter as it is written, and as it is read. -/
def IsParam (p : Text × Text) (q : Text × TypeExpr) : Prop :=
  IsName False p.1 ∧ q.1 = p.1 ∧ IsType p.2 q.2

/-- The words of a parameter. -/
def paramWords (p : Text × Text) : List Word := .name p.1 :: .mark ":" :: p.2.words

/-- Parameters at the ends of lines are cut into their words. -/
theorem cuts_params {ps : List (Text × Text)} {qs : List (Text × TypeExpr)}
    (h : List.Forall₂ IsParam ps qs) :
    List.Forall₂ (fun x ws => ∀ u, Cuts false true (Text.line x) ws u) (ps.map Text.parameter)
      (ps.map paramWords) := by
  induction h with
  | nil => exact .nil
  | @cons p q ps qs hp _ ih =>
    refine .cons (fun u => ?_) ih
    have heq : (Text.parameter p).line = p.1 ++ .char ':' :: .char ' ' :: p.2.line := by
      simp [Text.parameter, Text.line]
    rw [heq]
    exact Cuts.append_name hp.1 (by decide)
      (Cuts.cons_solo (by decide) (Cuts.cons_blank (hp.2.2.cuts u)))

/-- The words of parameters can be parts of a function type. -/
theorem typed_params {ps : List (Text × Text)} {qs : List (Text × TypeExpr)}
    (h : List.Forall₂ IsParam ps qs) :
    List.Forall₂ TypedParam qs (ps.map paramWords) := by
  rw [List.forall₂_map_right_iff]
  refine (h.imp fun p q hp => ?_).flip
  exact ⟨hp.2.1 ▸ hp.1, _, hp.2.2.typed, by rw [hp.2.1]; rfl⟩

/-- **A function type with named parameters.** The result is the end of the type, so it may
leave brackets open. -/
theorem reads_function_text {p : Text × Text} {ps : List (Text × Text)}
    {qs : List (Text × TypeExpr)}
    (h : List.Forall₂ IsParam (p :: ps) qs) (hx : TypeExpr.parse x = .ok t)
    (hplain : ∀ g ∈ x, g.is '\\' = false) (hpred : startsPredicate x.words = false) :
    (Text.function (p :: ps) x).Reads (.function .unset none (qs.map paramTree) t) := by
  have hcuts : Cuts false true (Text.function (p :: ps) x)
      (.mark "(" :: (Reads.sepWords (.below ",") (paramWords p) (ps.map paramWords) ++
        (.below ")" :: .mark "=>" :: x.words))) [] := by
    refine Cuts.cons_solo (by decide) (Cuts.append (cuts_commas (cuts_params h) _) ?_)
    refine Cuts.cons_solo (by decide)
      (Cuts.cons_blank (Cuts.append (v := [.mark "=>"]) Cuts.arrow ?_))
    exact Cuts.cons_blank (cuts_line hx hplain [])
  refine reads_of_succ hcuts (List.cons_ne_nil _ _) fun k hk => ?_
  simp only [List.length_cons, List.length_append] at hk
  have hends : ∀ w ∈ ends, w ∈ fences := by decide
  have heof : ¬∃ w ∈ ends, w.token.isEof = false := by decide
  refine reads_function (typed_params h) (by omega) ?_
  exact reads_returnType_of_not_predicate (begins_of_parse hx).ne_nil hpred (by decide)
    (reads_of_parse hx hends (fun h => absurd h heof) (by omega))

/-- Names and types give parameters, one for each. -/
theorem isParam_zip {ss ps : List Text} (h : List.Forall₂ IsType ss ts)
    (hlen : ps.length = ss.length)
    (hp : ∀ p ∈ ps, IsName False p) : List.Forall₂ IsParam (ps.zip ss) (ps.zip ts) := by
  induction h generalizing ps with
  | nil => simp
  | cons hx _ ih =>
    obtain ⟨p, ps, rfl⟩ := List.exists_cons_of_length_eq_add_one hlen
    rw [List.zip_cons_cons, List.zip_cons_cons]
    exact .cons ⟨hp p (.head _), rfl, hx⟩ (ih (Nat.succ.inj hlen) fun p hq => hp p (.tail _ hq))

/-- **Types compose.** Texts that are types on their own, each at the end of a line, are read as
the elements of a tuple, as arguments, as the parameters and the result of a function, in
parentheses and with brackets behind them, and as the members of unions and intersections, and
each is read as the type it is on its own. The parts must not leave brackets open, and a result
must not begin like a predicate. -/
theorem types_compose {ss ps : List Text} {ts : List TypeExpr} {s n : Text}
    (h : List.Forall₂ IsType ss ts)
    (hne : ss ≠ []) (hs : TypeExpr.parse s = .ok t) (hplain : ∀ g ∈ s, g.is '\\' = false)
    (hpred : startsPredicate s.words = false) (hn : Unreserved n) (hp : ∀ p ∈ ps, IsName False p)
    (hlen : ps.length = ss.length) :
    (Text.tuple ss).Reads (.tuple .unset ts) ∧
    (Text.applied n ss).Reads (.reference .unset (some ⟨.unset, n⟩) (some ts)) ∧
    (Text.function (ps.zip ss) s).Reads (.function .unset none ((ps.zip ts).map paramTree) t) ∧
    List.Forall₂ (fun x t => x.parens.Reads (.parenthesized .unset t) ∧
      x.array.Reads (.array .unset (.parenthesized .unset t))) ss ts ∧
    (2 ≤ ss.length →
      (Text.marked '|' ss).Reads (.union .unset (ts.map (.parenthesized .unset))) ∧
      (Text.marked '&' ss).Reads (.intersection .unset (ts.map (.parenthesized .unset)))) := by
  have hps := isParam_zip h hlen hp
  obtain ⟨x, ss, rfl⟩ := List.exists_cons_of_ne_nil hne
  obtain ⟨p, ps, rfl⟩ := List.exists_cons_of_length_eq_add_one hlen
  refine ⟨reads_tuple_text h, reads_applied_text hn h, reads_function_text hps hs hplain hpred,
    h.imp fun _ _ hx => ⟨reads_parens_text hx, reads_array_text hx⟩, fun hl => ?_⟩
  rw [h.length_eq] at hl
  exact ⟨reads_union_text h hl, reads_intersection_text h hl⟩

/-- A tuple, a reference, a function and so on over an object type and an array. -/
theorem types_compose_two :
    ∃ t₁ t₂ t, TypeExpr.parse (Text.ofString "\x7b a: () => b \x7d") = .ok t₁ ∧
    TypeExpr.parse (Text.ofString "c[]") = .ok t₂ ∧
    TypeExpr.parse (Text.ofString "keyof d") = .ok t ∧
    (Text.function [(Text.ofString "p", Text.ofString "\x7b a: () => b \x7d"),
      (Text.ofString "q", Text.ofString "c[]")]
      (Text.ofString "keyof d")).Reads
        (.function .unset none
          [paramTree (Text.ofString "p", t₁), paramTree (Text.ofString "q", t₂)] t) := by
  obtain ⟨htest₁, htest₂, htest, hpred⟩ :
      IsType.test (fun _ => true) (Text.ofString "\x7b a: () => b \x7d") = true ∧
      IsType.test (fun _ => true) (Text.ofString "c[]") = true ∧
      IsType.test (fun _ => true) (Text.ofString "keyof d") = true ∧
      startsPredicate (Text.ofString "keyof d").words = false := by
    decide +kernel
  obtain ⟨t₁, h₁, -⟩ := IsType.exists_of_test htest₁
  obtain ⟨t₂, h₂, -⟩ := IsType.exists_of_test htest₂
  obtain ⟨t, h, -⟩ := IsType.exists_of_test htest
  have hparts :
      List.Forall₂ IsType [Text.ofString "\x7b a: () => b \x7d", Text.ofString "c[]"] [t₁, t₂] :=
    .cons h₁ (.cons h₂ .nil)
  have hname : Unreserved (Text.ofString "N") := ⟨.of_isLetters (by decide), by decide⟩
  have hparams : ∀ p ∈ [Text.ofString "p", Text.ofString "q"], IsName False p := by
    simp only [List.forall_mem_cons, List.not_mem_nil, false_implies, forall_true_iff, and_true]
    exact ⟨.of_isLetters (by decide), .of_isLetters (by decide)⟩
  obtain ⟨-, -, hfunction, -⟩ :=
    types_compose hparts (List.cons_ne_nil _ _) h.parse h.plain hpred hname
    hparams rfl
  exact ⟨t₁, t₂, t, h₁.parse, h₂.parse, h.parse, hfunction⟩

/-- A result type that begins like a predicate is read as one, and here it is none. -/
theorem not_types_compose :
    ¬∀ (p x y : Text) (t r : TypeExpr), IsName False p → TypeExpr.parse x = .ok t →
    (∀ g ∈ x, g.is '\\' = false) →
      TypeExpr.parse y = .ok r → (∀ g ∈ y, g.is '\\' = false) →
      (Text.function [(p, x)] y).Reads (.function .unset none [paramTree (p, t)] r) := by
  intro hall
  obtain ⟨htest, htest', hfails⟩ :
      IsType.test (fun _ => true) (Text.ofString "a") = true ∧
      IsType.test (fun _ => true) (Text.ofString "keyof is") = true ∧
      (TypeExpr.parse (Text.function [(Text.ofString "p", Text.ofString "a")]
        (Text.ofString "keyof is"))).isOk = false := by
    decide +kernel
  obtain ⟨t, ht, -⟩ := IsType.exists_of_test htest
  obtain ⟨r, hr, -⟩ := IsType.exists_of_test htest'
  obtain ⟨n, hn, -⟩ := hall (Text.ofString "p") _ _ t r
    (.of_isLetters (by decide)) ht.parse ht.plain hr.parse hr.plain
  rw [hn] at hfails
  cases hfails

end Composing

end Exemplar
