import Exemplar.Proofs.Types.ComposedTypes

/-!
# Conditional types put together

A condition on a name is read for every bound that is no function, constructor or conditional
type itself, and for every outcome: the bound is read as far as the question mark and the first
outcome as far as the colon, whatever they are. The place behind `extends` takes a union, or a
type of a lower level. So a function or a constructor type cannot stand there unless it is put
in parentheses, although it can stand in every other place of a type.

A type that was read on its own was read by the rule for types of any form. That the rule for
unions reads it as well, from the same place to the same place, is because the other rules build
nothing but functions, constructors and conditions: if none of these came out, none of them was
taken, and what is left is the union (`unionType_of_anyType`). From there the bound goes on like
any part of a type.

Behind the bound there is a blank and no end of a line, so the parts may not hold comments: one
that reaches to the end of a line would swallow the rest.
-/

namespace Exemplar

open Exemplar.Tree Exemplar.Parser

namespace Tree.TypeExpr

/-- A function or a constructor type. -/
def isArrow : TypeExpr → Bool
  | .function .. => true
  | .constructor .. => true
  | _ => false

/-- A conditional type. -/
def isConditional : TypeExpr → Bool
  | .conditional .. => true
  | _ => false

/-- A type that is no union and nothing that could be a member of one: only the rule for types
of any form reads it. -/
def isLoose (t : TypeExpr) : Bool := t.isArrow || t.isConditional

end Tree.TypeExpr

/-- No comment stands in a text. -/
def Text.Uncommented (x : Text) : Prop :=
  ∀ gap ∈ TokenStream.gaps x.encode 0 (TokenStream.lex x).all, 47 ∉ gap

instance (x : Text) : Decidable x.Uncommented :=
  inferInstanceAs
    (Decidable (∀ gap ∈ TokenStream.gaps x.encode 0 (TokenStream.lex x).all, 47 ∉ gap))

/-- A condition on a name, with its bound and its two outcomes. -/
def Text.condition (name bound whenTrue whenFalse : Text) : Text :=
  name ++ .char ' ' ::
    (Text.ofString "extends" ++ .char ' ' :: (bound ++ .char ' ' :: .char '?' :: .char ' ' ::
    (whenTrue ++ .char ' ' :: .char ':' :: .char ' ' :: whenFalse)))

namespace Parser

variable {nested' : Nested} {type : Parser TypeExpr} {c d : Cursor}
  {x y : Text} {a t t' r : TypeExpr}
  {v vs us F : List Word} {b b' : Bool} {k : Nat}

/-! ## What a union is

The rule for types of any form asks first whether a function or a constructor type stands there,
and reads a condition behind a union if `extends` follows. Each of these answers a loose
type. -/

section Loose

variable {s : Span} {check bound whenTrue whenFalse result : TypeExpr} {ps : List Parameter}
  {gs : Option (List TypeParameter)}

instance : Fact (TypeExpr.isLoose (.function s gs ps result) = true) := ⟨rfl⟩

instance : Fact (TypeExpr.isLoose (.constructor s ps result) = true) := ⟨rfl⟩

instance : Fact (TypeExpr.isLoose (.conditional s check bound whenTrue whenFalse) = true) :=
  ⟨rfl⟩

end Loose

/-- **A type that is not loose is read as a union.** -/
theorem unionType_of_anyType (h : anyType nested' c = .ok (a, d)) (ha : a.isLoose = false) :
    unionType nested' c = .ok (a, d) := by
  -- a rule that builds nothing but loose types has not answered this one
  have habsurd : ∀ {p : Parser TypeExpr} {c' : Cursor} [Builds (·.isLoose = true) p],
      p c' ≠ .ok (a, d) := by
    intro p c' hp h
    rw [hp.answers h] at ha
    cases ha
  unfold anyType at h
  rw [here_bind] at h
  -- No function type was read.
  obtain ⟨isFunction, c₁, h₁, h₂⟩ := bind_eq_ok.1 h
  obtain rfl := Still.eq_of_ok h₁
  rw [ite_run] at h₂
  split at h₂
  · exact absurd h₂ habsurd
  -- No constructor type was read either.
  obtain ⟨isConstructor, c₂, h₃, h₄⟩ := bind_eq_ok.1 h₂
  obtain rfl := Still.eq_of_ok h₃
  rw [ite_run] at h₄
  split at h₄
  · exact absurd h₄ habsurd
  unfold conditionalType at h₄
  obtain ⟨t, c₃, h₅, h₆⟩ := bind_eq_ok.1 h₄
  -- And no condition, so the union was the whole.
  obtain ⟨isCondition, c₄, h₇, h₈⟩ := bind_eq_ok.1 h₆
  obtain rfl := Still.eq_of_ok h₇
  rw [ite_run] at h₈
  split at h₈
  · exact absurd h₈ habsurd
  · obtain ⟨rfl, rfl⟩ := pure_eq_ok.1 h₈
    exact h₅

/-- **A text that is a type and not loose is read as a union wherever it stands**, if it leaves
no bracket open. -/
theorem reads_unionType_of_parse (h : TypeExpr.parse x = .ok t) (ht : t.isLoose = false)
    (hF : ∀ w ∈ F, w ∈ fences)
    (hbalanced : Brackets.level 0 x.tokens = some 0) (hk : x.words.length ≤ k) :
    Reads (unionType (nested k)) x.words F (SameBare t ·) := by
  obtain ⟨hx, d, hrun, hd⟩ := type_eq_ok h
  have hdepth : (startOf x).rest.length + 1 ≤ k + 1 := by
    rw [Text.words, List.length_map] at hk
    exact Nat.succ_le_succ hk
  -- With something behind it, the rule for unions does what it does alone.
  have hpersists (more : List Token) : Persists more .anywhere
      (nested ((startOf x).rest.length + 1)).union (unionType (nested k)) :=
    (Simulates.nested hdepth).union
  have hrun' : (nested ((startOf x).rest.length + 1)).type (startOf x) = .ok (t, d) := hrun
  have hunion : (nested ((startOf x).rest.length + 1)).union (startOf x) = .ok (t, d) :=
    unionType_of_anyType hrun' ht
  exact reads_of_run hx hunion hd hF fun _ => hbalanced

/-! ## The words of a condition

The name that is checked announces nothing but a reference. The word `extends` must stand on the
line of the name, the marks may stand anywhere. -/

/-- A name in front of `extends` is a reference to it. -/
theorem reads_checked (hx : Unreserved x) :
    Reads (unionType nested') [.name x] [.name (Text.ofString "extends")]
      (SameBare (.reference .unset (some ⟨.unset, x⟩) none) ·) := by
  have hquiet : Quiet (.name x) := .of_unreserved hx
  refine hquiet.reads_unionType (by decide) (hquiet.reads_operand (by decide) ?_)
  refine reads_atomType_of_wordType fun start => reads_wordType_reference hx.named (.inl rfl) ?_
  refine (reads_typeReference x [] (by decide)).mono (fun _ hw => hw) ?_
  rintro _ ⟨s, i, rfl, hi⟩
  have hi : SameBare (Identifier.mk .unset x) i := ⟨congrArg (Identifier.mk .unset) hi.symm⟩
  exact inferInstance

/-- The words of a condition. The marks of the outcomes may stand at the beginning of a line. -/
def conditionWords (x : Text) (vs us ws : List Word) (b b' : Bool) : List Word :=
  .name x :: .name (Text.ofString "extends") :: (vs ++ ⟨.punct, Text.ofString "?", b⟩ ::
    (us ++ ⟨.punct, Text.ofString ":", b'⟩ :: ws))

/-- The marks of the outcomes go on with no type. -/
theorem mark_mem_fences {s : String} (hs : s ∈ ["?", ":"]) (b : Bool) :
    ⟨.punct, Text.ofString s, b⟩ ∈ fences := by
  have key : ∀ s ∈ ["?", ":"], ∀ b : Bool, (⟨.punct, Text.ofString s, b⟩ : Word) ∈ fences := by
    decide
  exact key s hs b

/-- A condition is read, its parts as they are read alone.

The reader sees no function type, because the name is no parenthesis, and no constructor. It
reads the name as a union, finds `extends`, and reads the bound and the outcomes up to the marks
behind them. -/
theorem reads_condition {ws : List Word} (hx : Unreserved x)
    (hbound : Reads (unionType nested') vs [⟨.punct, Text.ofString "?", b⟩] (SameBare t ·))
    (htrue : Reads nested'.type us [⟨.punct, Text.ofString ":", b'⟩] (SameBare t' ·))
    (hfalse : Reads nested'.type ws F (SameBare r ·)) :
    Reads (anyType nested') (conditionWords x vs us ws b b') F
      (SameBare (.conditional .unset (.reference .unset (some ⟨.unset, x⟩) none) t t' r) ·) := by
  have hquiet : Quiet (.name x) := .of_unreserved hx
  have hfunction : Sees functionTypeAhead (conditionWords x vs us ws b b') F false := by
    refine hquiet.sees_functionTypeAhead ?_
    rw [Word.name_is]
    exact beq_false_of_ne (hx.name.ne_of_startsName (by decide))
  have hconstructor : Sees constructorTypeAhead (conditionWords x vs us ws b b') F false :=
    Sees.bind (Sees.is (hquiet.heads (by decide))) (Sees.ite_neg Bool.false_ne_true
      (Sees.ahead_eq_false (fun _ => rfl) (hquiet.heads (by decide))))
  have hextends : Sees extendsAhead
      (.name (Text.ofString "extends") :: (vs ++ ⟨.punct, Text.ofString "?", b⟩ ::
      (us ++ ⟨.punct, Text.ofString ":", b'⟩ :: ws))) F true := by
    refine Sees.current_bind fun u hu => ?_
    have hu : u.word = .name (Text.ofString "extends") := List.mem_singleton.1 hu
    have hline : u.newlineBefore = false := congrArg Word.newlineBefore hu
    rw [Token.is_eq hu, hline]
    exact Sees.pure
  unfold anyType
  refine Reads.here_bind fun start => ?_
  refine Reads.sees_bind hfunction (Reads.ite_neg Bool.false_ne_true ?_)
  refine Reads.sees_bind hconstructor (Reads.ite_neg Bool.false_ne_true ?_)
  unfold conditionalType
  refine Reads.bind (v := [.name x]) (reads_checked hx) (fun n hn => ?_)
    (forall_heads_cons.2 (.head _))
  refine Reads.sees_bind hextends (Reads.ite_pos rfl ?_)
  refine Reads.advance_bind fun _ _ =>
    Reads.bind hbound (fun m hm => ?_) (forall_heads_cons.2 (.head _))
  refine Reads.expect_bind (by cases b <;> decide) ?_
  refine Reads.bind htrue (fun o ho => ?_) (forall_heads_cons.2 (.head _))
  refine Reads.expect_bind (by cases b' <;> decide) ?_
  rw [← List.append_nil ws]
  refine Reads.bind hfalse (fun q hq => ?_) fun w hw => hw
  exact Reads.spanFrom_bind fun s => Reads.pure inferInstance

end Parser

/-! ## The text of a condition

Each part is cut into words as it is on its own, with a blank behind it or the end of the
source. -/

section Conditions

variable {n e x y : Text} {t t' r : TypeExpr}

/-- A type in front of a space spells what it spells alone, if no comment stands in it. -/
theorem IsType.cuts_space (h : IsType x t) (hx : x.Uncommented) (u : Text) :
    Cuts false (TokenStream.lex x).ending.token.newlineBefore
      (x ++ [Glyph.char ' ']) x.words u := by
  have hcuts := Cuts.piece (b := ' ') (by decide) (type_eq_ok h.parse).1.clean.fault h.plain
    (noSlashFirst_of_parse h.parse) (.inr hx) u
  rwa [show ((' ' : Char) == '\n') = false from rfl, Bool.or_false] at hcuts

/-- What a condition spells. Whether the marks stand at the beginning of a line depends on what
ends the parts in front of them. -/
theorem cuts_condition (hn : Unreserved n) (he : IsType e t)
    (he' : e.Uncommented) (hx : IsType x t')
    (hx' : x.Uncommented) (hy : TypeExpr.parse y = .ok r) :
    ∃ b b', Cuts false (TokenStream.lex y).ending.token.newlineBefore (Text.condition n e x y)
      (conditionWords n e.words x.words y.words b b') [] := by
  refine ⟨(TokenStream.lex e).ending.token.newlineBefore,
    (TokenStream.lex x).ending.token.newlineBefore, ?_⟩
  have hlast : Cuts false (TokenStream.lex y).ending.token.newlineBefore y y.words [] :=
    Cuts.last_piece (type_eq_ok hy).1.clean.fault (noSlashFirst_of_parse hy)
  have heq : Text.condition n e x y
      = n ++ Glyph.char ' ' :: (Text.ofString "extends" ++ Glyph.char ' ' ::
      ((e ++ [Glyph.char ' ']) ++ Glyph.char '?' :: .char ' ' ::
        ((x ++ [Glyph.char ' ']) ++ Glyph.char ':' :: .char ' ' :: y))) := by
    simp [Text.condition]
  rw [heq]
  refine Cuts.append_name hn.name (by decide) (Cuts.cons_blank ?_)
  refine Cuts.append_name (.of_isLetters (by decide)) (by decide) (Cuts.cons_blank ?_)
  refine Cuts.append (he.cuts_space he' _)
    (Cuts.cons_stopped (by decide) (Lexeme.stopsMark_cons.2 (by decide))
    (fun h => absurd h (by decide)) (Cuts.cons_blank ?_))
  exact Cuts.append (hx.cuts_space hx' _) (Cuts.cons_solo (by decide) (Cuts.cons_blank hlast))

/-- **A condition on a name is read, its parts as they are read alone**, if the bound is no
function, constructor or conditional type. The bound and the outcome in the middle must not
leave brackets open. -/
theorem condition_composes (hn : Unreserved n) (he : IsType e t) (he' : e.Uncommented)
    (ht : t.isLoose = false)
    (hx : IsType x t') (hx' : x.Uncommented) (hy : TypeExpr.parse y = .ok r) :
    (Text.condition n e x y).Reads
      (.conditional .unset (.reference .unset (some ⟨.unset, n⟩) none) t t' r) := by
  obtain ⟨b, b', hcuts⟩ := cuts_condition hn he he' hx hx' hy
  refine reads_of_succ hcuts (List.cons_ne_nil _ _) fun k hk => ?_
  simp only [conditionWords, List.length_cons, List.length_append] at hk
  have hends : ∀ w ∈ ends, w ∈ fences := by decide
  have heof : ¬∃ w ∈ ends, w.token.isEof = false := by decide
  refine reads_condition hn ?_ ?_ ?_
  · exact reads_unionType_of_parse he.parse ht
      (List.forall_mem_singleton.2 (mark_mem_fences (by decide) b)) he.balanced
      (by omega)
  · exact reads_of_parse hx.parse
      (List.forall_mem_singleton.2 (mark_mem_fences (by decide) b')) (fun _ => hx.balanced)
      (by omega)
  · exact reads_of_parse hy hends (fun h => absurd h heof) (by omega)

/-- A condition with a union as its bound, a condition as one outcome and a function as the
other. -/
theorem condition_composes_union :
    ∃ t t' r, TypeExpr.parse (Text.ofString "(a[] | infer b)[]") = .ok t ∧
    TypeExpr.parse (Text.ofString "d extends e ? f : g") = .ok t' ∧
    TypeExpr.parse (Text.ofString "(h) => i") = .ok r ∧
    (Text.condition (Text.ofString "C") (Text.ofString "(a[] | infer b)[]")
      (Text.ofString "d extends e ? f : g")
      (Text.ofString "(h) => i")).Reads
        (.conditional .unset
          (.reference .unset (some ⟨.unset, Text.ofString "C"⟩) none) t t' r) := by
  obtain ⟨⟨htest, hbound⟩, ⟨htest', hmiddle⟩, htest''⟩ :
      (IsType.test (!·.isLoose) (Text.ofString "(a[] | infer b)[]") = true ∧
        (Text.ofString "(a[] | infer b)[]").Uncommented) ∧
      (IsType.test (fun _ => true) (Text.ofString "d extends e ? f : g") = true ∧
        (Text.ofString "d extends e ? f : g").Uncommented) ∧
      (TypeExpr.parse (Text.ofString "(h) => i")).toOption.any (fun _ => true) = true := by
    rw [Text.ofString_ofList, Text.ofString_ofList, Text.ofString_ofList]
    decide +kernel
  obtain ⟨t, ht, hloose⟩ := IsType.exists_of_test htest
  obtain ⟨t', ht', -⟩ := IsType.exists_of_test htest'
  obtain ⟨r, hr, -⟩ := exists_ok_of_any _ htest''
  exact ⟨t, t', r, ht.parse, ht'.parse, hr,
    condition_composes ⟨.of_isLetters (by decide), by decide⟩
    ht hbound (by simpa using hloose) ht' hmiddle hr⟩

/-- A function type is a type, but not one that is read behind `extends`. -/
theorem not_condition_composes :
    ¬∀ (n e x y : Text) (t t' r : TypeExpr), Unreserved n → TypeExpr.parse e = .ok t →
    (∀ g ∈ e, g.is '\\' = false) →
      e.Uncommented → TypeExpr.parse x = .ok t' → (∀ g ∈ x, g.is '\\' = false) → x.Uncommented →
      TypeExpr.parse y = .ok r → (∀ g ∈ y, g.is '\\' = false) → y.Uncommented →
      t.isConditional = false →
      (Text.condition n e x y).Reads
        (.conditional .unset (.reference .unset (some ⟨.unset, n⟩) none) t t' r) := by
  intro hall
  obtain ⟨⟨htest, hbound⟩, ⟨htest', hmiddle⟩, ⟨htest'', hlast⟩, hfails⟩ :
      (IsType.test (!·.isConditional) (Text.ofString "(a: A) => infer R") = true ∧
        (Text.ofString "(a: A) => infer R").Uncommented) ∧
      (IsType.test (fun _ => true) (Text.ofString "T") = true ∧ (Text.ofString "T").Uncommented)
      ∧
      (IsType.test (fun _ => true) (Text.ofString "F") = true ∧ (Text.ofString "F").Uncommented)
      ∧ (TypeExpr.parse (Text.condition (Text.ofString "C") (Text.ofString "(a: A) => infer R")
        (Text.ofString "T") (Text.ofString "F"))).isOk = false := by
    rw [Text.ofString_ofList]
    decide +kernel
  obtain ⟨t, ht, hloose⟩ := IsType.exists_of_test htest
  obtain ⟨t', ht', -⟩ := IsType.exists_of_test htest'
  obtain ⟨r, hr, -⟩ := IsType.exists_of_test htest''
  obtain ⟨n, hn, -⟩ :=
    hall (Text.ofString "C") _ _ _ t t' r ⟨.of_isLetters (by decide), by decide⟩ ht.parse
    ht.plain hbound ht'.parse ht'.plain hmiddle hr.parse hr.plain hlast (by simpa using hloose)
  rw [hn] at hfails
  cases hfails

end Conditions

end Exemplar
