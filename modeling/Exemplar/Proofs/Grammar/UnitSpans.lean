import Exemplar.Proofs.Grammar.Sources
import Exemplar.Proofs.Types.TypeSpans

/-!
# The spans of a unit

A unit is read as a tree of nodes that is well nested. The rules for statements are like those
for types. What is new is the initial value of a variable, the only thing that may be read
without consuming a token: then nothing stands between its sign and the token behind it, and its
node is vacant.

Some statements are closed wherever they stop, whatever token they started with. They have a
token because a statement is only read where the source goes on.

The root is closed like any other node, behind the last token of the source. A source without
tokens is the one case in which it reaches over none, and then there is nothing under it.
-/

namespace Exemplar

open Exemplar.Tree Exemplar.Parser

namespace Parser

-- The search for an instance is as deep as the rule is long.
set_option synthInstance.maxSize 100000

/-! ## What is under a node

As for types: the nodes of the parts, in the order in which they are written. -/

namespace Closes

variable {s : Span} {acc : List (List Node)} {ms : Modifiers} {n : Option Identifier}
  {i : Identifier} {gs : Option (List TypeParameter)} {ps : List Parameter} {t : TypeExpr}
  {types : List TypeExpr} {x y : Text}

instance [h : Part (nodes gs ++ nodes ps ++ nodes t) acc] :
    Closes s acc (Expression.arrow s ms gs ps t) := ⟨_, rfl, h.sublist⟩

instance [h : Part (nodes n ++ nodes gs ++ nodes ps ++ nodes t) acc] :
    Closes s acc (Expression.function s ms n gs ps t) := ⟨_, rfl, h.sublist⟩

instance {e : Option Expression} [h : Part (nodes n ++ nodes t ++ nodes e) acc] :
    Closes s acc (Declarator.mk s n t e) := ⟨_, rfl, h.sublist⟩

instance : Closes s acc (EnumMember.mk s x y) := ⟨[], rfl, List.nil_sublist _⟩

instance [h : Part (nodes ps) acc] : Closes s acc (ClassMember.constructor s ms ps) :=
  ⟨_, rfl, h.sublist⟩

instance [h : Part (nodes n ++ nodes t) acc] : Closes s acc (ClassMember.property s ms n t) :=
  ⟨_, rfl, h.sublist⟩

instance [h : Part (nodes n ++ nodes gs ++ nodes ps ++ nodes t) acc] :
    Closes s acc (ClassMember.method s ms n gs ps t) := ⟨_, rfl, h.sublist⟩

instance : Closes s acc (ClassMember.other s) := ⟨[], rfl, List.nil_sublist _⟩

instance {l : List Member} [h : Part (nodes i ++ nodes gs ++ nodes types ++ nodes l) acc] :
    Closes s acc (Statement.interfaceDecl ⟨s, ms, i, gs, types, l⟩) := ⟨_, rfl, h.sublist⟩

instance {l : List ClassMember}
    [h : Part (nodes n ++ nodes gs ++ nodes t ++ nodes types ++ nodes l) acc] :
    Closes s acc (Statement.classDecl ⟨s, ms, n, gs, t, types, l⟩) := ⟨_, rfl, h.sublist⟩

instance {l : List Declarator} [h : Part (nodes l) acc] :
    Closes s acc (Statement.variables ⟨s, ms, x, l⟩) := ⟨_, rfl, h.sublist⟩

instance {l : List EnumMember} [h : Part (nodes i ++ nodes l) acc] :
    Closes s acc (Statement.enumDecl ⟨s, ms, i, l⟩) := ⟨_, rfl, h.sublist⟩

instance [h : Part (nodes n ++ nodes gs ++ nodes ps ++ nodes t) acc] :
    Closes s acc (Statement.functionDecl ⟨s, ms, n, gs, ps, t⟩) := ⟨_, rfl, h.sublist⟩

instance [h : Part (nodes i ++ nodes gs ++ nodes t) acc] :
    Closes s acc (Statement.typeAlias ⟨s, ms, i, gs, t⟩) := ⟨_, rfl, h.sublist⟩

instance : Closes s acc (Statement.other s x) := ⟨[], rfl, List.nil_sublist _⟩

end Closes

namespace Spanned

variable {start : Position} {k : Stage} {acc : List (List Node)}

/-! ## Initial values

A value that is read is a function, and its node is like others. A value that is skipped has no
nodes under it, so its own node is all that has to fit. -/

instance : Spanned bareParameter := by
  unfold bareParameter
  exact .of_here fun s => inferInstance

instance : Spanned arrowSignature := by
  unfold arrowSignature
  exact .of_extends fun s => inferInstance

/-- The three parts before an arrow are put under the node one by one. -/
instance (ms : Modifiers) : Extends start k acc (arrowFunction start ms) := by
  unfold arrowFunction
  refine Extends.of_anywhere (Extends.next fun signature => ?_)
  obtain ⟨generics, params, result⟩ := signature
  have hpart : Part (nodes generics ++ nodes params ++ nodes result)
      [nodes (generics, params, result)] :=
    ⟨by rw [collected_singleton, List.append_assoc]; exact List.Sublist.refl _⟩
  infer_instance

instance : Spanned identifier? := by
  unfold identifier?
  exact .of_extends fun s => inferInstance

instance (ms : Modifiers) : Extends start k acc (functionExpression start ms) := by
  unfold functionExpression
  exact Extends.of_anywhere inferInstance

/-- **An initial value has tokens, or it is missing** and nothing is consumed. The look ahead
decides which of three rules reads the value. The two for functions consume tokens. What is
skipped may be nothing, if the next token already ends the expression, and then the cursor has
not moved. -/
theorem fits_initializer {c d : Cursor} {e : Expression} (hc : c.Visited)
    (h : initializer c = .ok (e, d)) :
    d.Fits c.current.start (nodes e) ∨
      (d = c ∧ nodes e = [.mk true ⟨c.current.start, c.lastStop⟩ []]) := by
  unfold initializer at h
  have hreach : c.Reaches d := Moves.reaches_of_ok (p := initializer) h
  rw [here_bind] at h
  obtain ⟨ms, c₁, h₁, h⟩ := bind_eq_ok.1 h
  have hc₁ := hc.of_ok h₁
  have hsince := (Cursor.Since.refl hc).trans (Moves.reaches_of_ok h₁)
  rw [is_bind, ite_run] at h
  split at h
  · have hrule : Extends c.current.start .anywhere [] (functionExpression c.current.start ms) :=
      inferInstance
    exact .inl (hrule.fits_of_ok hc₁ hsince .nil h)
  obtain ⟨b, c₂, h₂, h⟩ := bind_eq_ok.1 h
  rw [ite_run] at h
  split at h
  · have hrule : Extends c.current.start .anywhere [] (arrowFunction c.current.start ms) :=
      inferInstance
    exact .inl (hrule.fits_of_ok (hc₁.of_ok h₂) (hsince.trans (Moves.reaches_of_ok h₂)) .nil h)
  obtain ⟨_, c₃, h₃, h⟩ := bind_eq_ok.1 h
  rw [spanFrom_bind] at h
  obtain ⟨rfl, rfl⟩ := pure_eq_ok.1 h
  -- The value has been skipped. Either a token was consumed, or none was.
  by_cases hlt : c₃.rest.length < c.rest.length
  · exact .inl (Cursor.Fits.nil.node ((Cursor.Since.refl hc).behind_of_lt hreach hlt) true)
  · obtain rfl := hreach.eq_of_length_le (Nat.le_of_not_lt hlt)
    exact .inr ⟨rfl, rfl⟩

/-- The sign in front is consumed, so even a value that is missing stands behind a token. -/
instance : Spanned initializer? where
  fits_of_ok {c d o} hc h := by
    unfold initializer? at h
    obtain ⟨b, c₁, h₁, hrest⟩ := bind_eq_ok.1 h
    obtain ⟨hb, ⟨rfl, rfl⟩ | ⟨rfl, t, ht⟩⟩ := got_eq_ok h₁
    · cases hrest
      exact .nil
    obtain ⟨e, d, h₂, h₃⟩ := bind_eq_ok.1 hrest
    obtain ⟨rfl, rfl⟩ := pure_eq_ok.1 h₃
    have hc₁ := hc.of_ok h₁
    have hle := ((Cursor.Since.refl hc).trans (Moves.reaches_of_ok h₁)).le_current
    obtain hfits | ⟨rfl, hnodes⟩ := fits_initializer hc₁ h₂
    · exact hfits.of_le hle
    · -- Nothing is consumed behind the sign.
      obtain ⟨more, hr, rfl⟩ := advance_inv (hc.rest_ne_nil (Token.isEof_of_is hb.symm)) ht
      rw [Cursor.current_of_cons hr] at hb
      show Cursor.Fits _ _ (nodes e)
      rw [hnodes]
      exact .vacant ⟨rfl, t, _, hc.pair_infix hr, hb.symm, rfl⟩

/-! ## Variables

A declarator has a name, and so a token, before it comes to its type and its value. -/

instance : Consumes bindingName := by unfold bindingName; infer_instance

instance : Spanned bindingName := by
  unfold bindingName
  exact .of_extends fun s => inferInstance

instance : Spanned declarator := by
  unfold declarator
  exact .of_here fun s => inferInstance

instance : Spanned declarator? := by
  unfold declarator?
  exact .of_extends fun s => inferInstance

instance : Spanned nextDeclarator := by
  unfold nextDeclarator
  exact .of_extends fun s => inferInstance

instance : Spanned declarators := by
  unfold declarators
  exact .of_extends fun s => Extends.bind_option inferInstance fun first => inferInstance

/-! ## Classes and enumerations

What a class extends may be an expression of any sort, of which only a reference becomes a node;
the rest is skipped. -/

instance (ms : Modifiers) : Extends start k acc (constructorMember start ms) := by
  unfold constructorMember
  exact Extends.of_anywhere inferInstance

instance : Extends start k acc (staticBlock start) := by
  unfold staticBlock
  exact Extends.of_anywhere inferInstance

/-- The signature starts where the member does. -/
instance : Extends start k acc (indexMember start) := by
  unfold indexMember
  have hconsumes : Consumes (indexSignature typeExpr start) := by
    unfold indexSignature; infer_instance
  exact Extends.bind_rule (fun hc hsince h =>
    hsince.behind_of_lt (Moves.reaches_of_ok h) (Consumes.lt_of_ok hc h)) inferInstance
    fun _ => inferInstance

instance (ms : Modifiers) : Extends start k acc (namedClassMember start ms) := by
  unfold namedClassMember
  exact Extends.of_anywhere inferInstance

instance : Spanned classMember := by
  unfold classMember
  exact .of_here fun s => inferInstance

instance : Spanned nextClassMember := by
  unfold nextClassMember
  exact .of_extends fun s => inferInstance

instance : Spanned classMembers := by
  unfold classMembers
  exact .of_extends fun s => inferInstance

instance : Spanned plainBase := by
  unfold plainBase
  exact .of_extends fun s => inferInstance

instance : Spanned baseClass := by
  unfold baseClass
  exact .of_extends fun s => Extends.bind_option inferInstance fun ref => inferInstance

instance : Spanned className := by
  unfold className
  exact .of_extends fun s => inferInstance

instance : Spanned extendsClause := by
  unfold extendsClause
  exact .of_extends fun s => inferInstance

instance (w : String) : Spanned (referencesBehind w) := by
  unfold referencesBehind
  exact .of_extends fun s => inferInstance

instance : Spanned enumMember := by
  unfold enumMember
  exact .of_here fun s => inferInstance

/-! ## Statements

A statement may start with modifiers, so its node starts before the word that tells what it is.
It is chosen by that word, and some of the rules consume it without having asked for it. -/

instance (ms : Modifiers) : Extends start k acc (classDecl start ms) := by
  unfold classDecl
  exact Extends.of_anywhere inferInstance

instance (ms : Modifiers) : Extends start k acc (interfaceDecl start ms) := by
  unfold interfaceDecl
  exact Extends.of_anywhere inferInstance

instance (ms : Modifiers) : Extends start k acc (enumDecl start ms) := by
  unfold enumDecl
  exact Extends.of_anywhere inferInstance

instance (ms : Modifiers) : Extends start .ahead acc (variableDecl start ms) := by
  unfold variableDecl
  exact Extends.of_nil inferInstance

instance (ms : Modifiers) : Extends start k acc (functionDecl start ms) := by
  unfold functionDecl
  exact Extends.of_anywhere inferInstance

instance (ms : Modifiers) : Extends start k acc (typeAlias start ms) := by
  unfold typeAlias
  exact Extends.of_anywhere inferInstance

instance (x : Text) : Extends start .ahead acc (otherStatement start x) := by
  unfold otherStatement
  exact Extends.of_nil inferInstance

instance (x : Text) : Extends start .ahead acc (statementFrom start x) := by
  unfold statementFrom
  exact Extends.of_nil inferInstance

/-- A statement that starts with a token has one. A semicolon in front of a statement is one by
itself and makes no node. -/
theorem fits_statement? {c d : Cursor} {o : Option Statement} (hc : c.Visited) (hr : c.rest ≠ [])
    (h : statement? c = .ok (o, d)) : d.Fits c.current.start (nodes o) := by
  unfold statement? at h
  rw [here_bind] at h
  have hrest : Extends c.current.start .ahead [[]] (do
      skipDecorators
      let first ← current
      return some (← statementFrom c.current.start first.text)) :=
    Extends.next fun _ => Extends.next fun _ => Extends.bind_rule
      (fun _ hsince h => hsince.trans (Moves.reaches_of_ok h)) inferInstance fun _ =>
        inferInstance
  have hrule := Extends.next (s := c.current.start) (k := .ahead) (p := got ";") fun b =>
    @Extends.ite _ _ _ _ _ (b = true) _ (pure none) _ inferInstance hrest
  exact hrule.fits_of_ok hc (.refl_ahead hc hr) .nil h

/-- At the end of the source the round is over, so there is a token where a statement is
read. -/
instance : Spanned nextStatement where
  fits_of_ok {c d o} hc h := by
    unfold nextStatement at h
    rw [isEof_bind, ite_run] at h
    split at h
    · cases h
      exact .nil
    · rename_i heof
      obtain ⟨o, c₁, h₁, h₂⟩ := bind_eq_ok.1 h
      obtain ⟨rfl, rfl⟩ := pure_eq_ok.1 h₂
      exact fits_statement? hc (hc.rest_ne_nil (Bool.eq_false_iff.2 heof)) h₁

end Spanned

/-- Without tokens there are no statements. A round would have to consume one. -/
theorem statements_eq_nil {c d : Cursor} {found : List (Option Statement)} (hc : c.Visited)
    (hr : c.rest = []) (h : collect nextStatement c = .ok (found, d)) : found = [] := by
  rw [collect_run] at h
  obtain ⟨-, -, ⟨hnil, -⟩ | ⟨o, os, c₁, -, h₁, -⟩⟩ := collectUpTo_eq_ok h
  · exact hnil
  · have hlt := Progress.lt_of_some hc h₁
    rw [hr] at hlt
    exact absurd hlt (Nat.not_lt_zero _)

end Parser

/-- **A unit with tokens is a well nested tree**: the span of every node reaches over tokens,
the nodes under a node lie inside it, and they stand one behind the other, except for initial
values that are missing. A unit without tokens has no node but its root. With tokens, reading
has come to the end and so has passed some. What was collected fits between the start and the
end of the source, and the root is closed over it. -/
theorem wellNested_unit {name : String} {source : Text} {u : SourceUnit}
    (h : SourceUnit.parse name source = .ok u) :
    ((TokenStream.lex source).tokens = [] → u.statements = []) ∧
      ((TokenStream.lex source).tokens ≠ [] → u.node.WellNested (TokenStream.lex source)) := by
  obtain ⟨hnil, -, found, c, hfound, hrest, rfl⟩ := unit_eq h
  have hc : (startOf source).Visited := ⟨.refl _, hnil⟩
  refine ⟨fun htokens => ?_, fun htokens => ?_⟩
  · exact congrArg (List.filterMap id) (statements_eq_nil hc htokens hfound)
  · have hreach : (startOf source).Reaches c := Moves.reaches_of_ok hfound
    have hlt : c.rest.length < (startOf source).rest.length := by
      rw [hrest]
      exact List.length_pos_iff.2 htokens
    have hstatements : Part (nodes (found.filterMap id)) [nodes found] := inferInstance
    have hfits := (Spanned.fits_of_ok hc hfound).sublist (collected_singleton (nodes found) ▸
      hstatements.sublist)
    have hnode := hfits.node ((Cursor.Since.refl hc).behind_of_lt hreach hlt) false
    have hnested := hnode.wellNested _ (List.mem_singleton_self _)
    rwa [hreach.source] at hnested

/-- The second of the three variables has an initial value that is missing. -/
theorem wellNested_unit_vacant :
    ∃ u, SourceUnit.parse "a" (Text.ofString "const a = (b: B[]) => 1, c = , d = a(c)") = .ok u ∧
      u.node.WellNested
        (TokenStream.lex (Text.ofString "const a = (b: B[]) => 1, c = , d = a(c)")) := by
  let source := Text.ofString "const a = (b: B[]) => 1, c = , d = a(c)"
  have hsource : source = _ := Text.ofString_ofList _
  obtain ⟨hok, htokens⟩ : (SourceUnit.parse "a" source).toOption.any
      (fun u => u.statements.length == 1) = true ∧ (TokenStream.lex source).tokens ≠ [] := by
    rw [hsource]
    decide +kernel
  obtain ⟨u, hu, -⟩ := exists_ok_of_any _ hok
  exact ⟨u, hu, (wellNested_unit hu).2 htokens⟩

end Exemplar
