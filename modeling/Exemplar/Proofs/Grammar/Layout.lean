import Exemplar.Proofs.Grammar.Breakdown
import Exemplar.Proofs.Grammar.TokenPlaces
import Exemplar.Proofs.Text.Splicing
import Exemplar.Proofs.Types.SameTokenTypes

/-!
# The layout of a source does not matter

What a parser makes of a source depends on its tokens alone: on the kind and the text of each,
and on whether a line ends before it. Comments, blanks and the length of lines cannot change
which declarations are found, nor which complaint is made.

The rules of the grammar of units are shown to end alike on the same tokens. Two of them take a
piece of the source as it stands there, the computed key and the value of a member of an
enumeration, and a piece has gaps in it. That such a key is computed can still be told from the
piece, for it starts with the bracket that opens it.

A rule agrees with itself if its parts do, and that is found by the search for instances; only
the parts that look at more than tokens need a proof. What the two runs build is compared
without places, so that the spans in the trees do not matter. In the rules, spans come in as
parameters, which may therefore differ on the two sides, and the same holds for what was read
before and is handed on.

Runs that break down are left out on purpose. Whether there is a piece to be cut out depends on
offsets, and an empty value stands at a place where in one layout a piece may be empty and in
the other may not be there at all.

The main statement is `parse_same_tokens`.
-/

namespace Exemplar

open Exemplar.Tree
open Exemplar.Cursor (Abreast)

namespace Parser.Agrees

-- The search for an instance is as deep as the rule is long.
set_option synthInstance.maxSize 100000

/-! ## Initial values

What an initial value is, is decided by looking ahead, and what it is not is skipped. Both are
questions about tokens. -/

instance : Agrees statementMayEnd statementMayEnd := by unfold statementMayEnd; infer_instance

instance : Agrees semicolon semicolon := by unfold semicolon; infer_instance

instance : Agrees functionBody functionBody := by unfold functionBody; infer_instance

instance : Agrees arrowAhead arrowAhead := by
  unfold arrowAhead
  exact bind_option inferInstance fun _ => inferInstance

instance : Agrees genericArrowAhead genericArrowAhead := by
  unfold genericArrowAhead
  exact bind_option inferInstance fun _ => inferInstance

instance : Agrees bareParameter bareParameter := by unfold bareParameter; infer_instance

instance : Agrees arrowSignature arrowSignature := by unfold arrowSignature; infer_instance

instance : Agrees arrowBody arrowBody := by unfold arrowBody; infer_instance

section Initializers

variable {start start' : Position} {ms ms' : Modifiers} [SameBare ms ms']

instance : Agrees (arrowFunction start ms) (arrowFunction start' ms') := by
  unfold arrowFunction; infer_instance

instance : Agrees identifier? identifier? := by unfold identifier?; infer_instance

instance : Agrees skipBlock skipBlock := by unfold skipBlock; infer_instance

instance : Agrees (functionExpression start ms) (functionExpression start' ms') := by
  unfold functionExpression; infer_instance

instance : Agrees asyncAhead asyncAhead := by unfold asyncAhead; infer_instance

instance : Agrees asyncModifier asyncModifier := by unfold asyncModifier; infer_instance

instance : Agrees arrowFunctionAhead arrowFunctionAhead := by
  unfold arrowFunctionAhead; infer_instance

end Initializers

instance : Agrees initializer initializer := by unfold initializer; infer_instance

/-! ## Classes

A class has no piece of the source in it: computed keys of its members are skipped. -/

instance {t u : Token} [h : SameBare t u] : SameBare (continuesBase t) (continuesBase u) :=
  ⟨h.congr (f := continuesBase) fun _ => rfl⟩

section Classes

variable {start start' : Position} {ms ms' : Modifiers} [SameBare ms ms']

instance : Agrees skipAccessorWord skipAccessorWord := by unfold skipAccessorWord; infer_instance

instance : Agrees (constructorMember start ms) (constructorMember start' ms') := by
  unfold constructorMember; infer_instance

instance : Agrees (staticBlock start) (staticBlock start') := by
  unfold staticBlock; infer_instance

instance : Agrees (indexMember start) (indexMember start') := by
  unfold indexMember; infer_instance

instance : Agrees (namedClassMember start ms) (namedClassMember start' ms') := by
  unfold namedClassMember; infer_instance

instance : Agrees classMember classMember := by unfold classMember; infer_instance

instance : Agrees nextClassMember nextClassMember := by unfold nextClassMember; infer_instance

instance : Agrees classMembers classMembers := by unfold classMembers; infer_instance

instance : Agrees plainBase plainBase := by unfold plainBase; infer_instance

instance : Agrees skipItem skipItem := by unfold skipItem; infer_instance

instance : Agrees baseClass baseClass := by
  unfold baseClass
  exact bind_option inferInstance fun _ => inferInstance

instance : Agrees className className := by unfold className; infer_instance

instance : Agrees extendsClause extendsClause := by unfold extendsClause; infer_instance

instance (w : String) : Agrees (referencesBehind w) (referencesBehind w) := by
  unfold referencesBehind; infer_instance

instance : Agrees (classDecl start ms) (classDecl start' ms') := by
  unfold classDecl; infer_instance

end Classes

/-! ## Enumerations

The pieces are compared as far as they are kept. Which part of a key is kept is fixed by how
texts are compared here, so the rules are first followed for any such comparison, and what it
has to respect is an assumption. -/

section Enumerations

variable {c c' : Cursor} {start start' : Position}

-- What is kept of the pieces taken out of the source is left open here.
variable [b : HasPlaces Text]

/-- Pieces of the source are there on both sides, or one of the runs breaks down. What they have
in common is assumed. -/
theorem sourceFrom (hc : Abreast c c')
    (h : SameBare (c.source.slice start.offset c.lastStop.offset)
      (c'.source.slice start'.offset c'.lastStop.offset)) :
    EndAlike (sourceFrom start c) (sourceFrom start' c') := by
  rw [sourceFrom_run, sourceFrom_run]
  split
  · exact .left
  split
  · exact .right
  · exact .ok h hc

/-- Values end alike if nothing of them is kept. -/
theorem enumMemberValue (h : ∀ x y : Text, SameBare x y) :
    Agrees enumMemberValue enumMemberValue := by
  unfold Parser.enumMemberValue
  have hpiece (start start' : Position) :
      Agrees (Parser.sourceFrom start) (Parser.sourceFrom start') :=
    ⟨fun hc => sourceFrom hc (h _ _)⟩
  infer_instance

/-- Keys end alike if nothing of computed keys is kept. -/
theorem enumMemberName
    (h : ∀ x y, isComputedKey x = true → isComputedKey y = true → SameBare x y) :
    Agrees enumMemberName enumMemberName where
  agrees {c c'} hc := by
    have hsame := hc.current
    have htext (r : BarePair Token) : SameBare r.left.text r.right.text :=
      ⟨congrArg bare (r.same.congr (f := Token.text) fun _ => rfl)⟩
    have hword : (c.current.isIdent || c.current.kind == .string || c.current.kind == .number) =
        (c'.current.isIdent || c'.current.kind == .string || c'.current.kind == .number) :=
      hsame.congr (f := fun t => t.isIdent || t.kind == .string || t.kind == .number) fun _ =>
        rfl
    have hbracket : c.current.is "[" = c'.current.is "[" :=
      hsame.congr (f := (·.is "[")) fun _ => rfl
    -- the group in brackets is the same, and what is cut out is a computed key on both sides
    have hcomputed (hb : c.current.is "[" = true) :
        EndAlike ((do skipGroup; Parser.sourceFrom c.current.start) c)
          ((do skipGroup; Parser.sourceFrom c'.current.start) c') :=
      EndAlike.bind (Agrees.agrees hc) fun hg hg' _ hd =>
        sourceFrom hd (h _ _ (isComputedKey_slice hc.visited hb hg)
          (isComputedKey_slice hc.visited' (hbracket ▸ hb) hg'))
    unfold Parser.enumMemberName
    rw [here_bind, here_bind, current_bind, current_bind, ite_run, ite_run,
      ite_run, ite_run, ← hword, ← hbracket]
    split
    · exact Agrees.agrees hc
    split
    · exact hcomputed (by assumption)
    · exact Agrees.agrees hc

end Enumerations

instance : Agrees enumMember enumMember := by
  unfold enumMember
  refine bind_of inferInstance fun start start' _ => ?_
  -- of the keys only those that are not computed are kept, and nothing of the values
  refine bind_of (b := ⟨bareKey⟩)
    (enumMemberName (b := ⟨bareKey⟩) fun x y hx hy => ?_) fun x y hkey => ?_
  · exact @SameBare.mk _ ⟨bareKey⟩ _ _ ((if_pos hx).trans (if_pos hy).symm)
  refine bind_of (b := ⟨fun _ => []⟩) (enumMemberValue (b := ⟨fun _ => []⟩) fun x y => ?_)
    fun value value' _ => ?_
  · exact @SameBare.mk _ ⟨fun _ => []⟩ _ _ rfl
  have hmember (s s' : Span) : SameBare (EnumMember.mk s x value) ⟨s', y, value'⟩ :=
    ⟨congrArg (EnumMember.mk .unset · []) hkey.eq⟩
  infer_instance

/-! ## Declarations and statements

Modifiers are told by tests on two tokens, and these are the same on both sides. -/

instance {before before' : Modifiers} {t u t' u' : Token} [hb : SameBare before before']
    [h : SameBare t u] [h' : SameBare t' u'] :
    SameBare (isStatementModifier before t t') (isStatementModifier before' u u') := by
  obtain rfl : before = before' := hb.eq
  unfold isStatementModifier
  have htext : SameBare (t'.text != Text.ofString "as") (u'.text != Text.ofString "as") :=
    ⟨h'.congr (f := fun t : Token => t.text != Text.ofString "as") fun _ => rfl⟩
  infer_instance

instance {before before' : Modifiers} {x y : Text} [hb : SameBare before before']
    [h : SameBare x y] : SameBare (before ++ (Modifier.ofWord? x).toList : Modifiers)
      (before' ++ (Modifier.ofWord? y).toList) := by
  obtain rfl : before = before' := hb.eq
  exact ⟨congrArg (fun x => before ++ (Modifier.ofWord? x).toList) h.eq⟩

section Declarations

variable {start start' : Position} {ms ms' : Modifiers} [SameBare ms ms']

instance : Agrees (interfaceDecl start ms) (interfaceDecl start' ms') := by
  unfold interfaceDecl; infer_instance

instance : Agrees (enumDecl start ms) (enumDecl start' ms') := by unfold enumDecl; infer_instance

instance : Agrees bindingName bindingName := by unfold bindingName; infer_instance

instance : Agrees initializer? initializer? := by unfold initializer?; infer_instance

instance : Agrees declarator declarator := by unfold declarator; infer_instance

instance : Agrees declarator? declarator? := by unfold declarator?; infer_instance

instance : Agrees nextDeclarator nextDeclarator := by unfold nextDeclarator; infer_instance

instance : Agrees declarators declarators := by
  unfold declarators
  exact bind_option inferInstance fun _ => inferInstance

instance : Agrees variablesEnd variablesEnd := by unfold variablesEnd; infer_instance

instance : Agrees (variableDecl start ms) (variableDecl start' ms') := by
  unfold variableDecl; infer_instance

instance : Agrees (functionDecl start ms) (functionDecl start' ms') := by
  unfold functionDecl; infer_instance

instance : Agrees (typeAlias start ms) (typeAlias start' ms') := by
  unfold typeAlias; infer_instance

instance : Agrees (modifierRound ms) (modifierRound ms') := by
  unfold modifierRound; infer_instance

end Declarations

instance : Agrees statementModifiers statementModifiers := by
  unfold statementModifiers; infer_instance

section Statements

variable {start start' : Position} {x y : Text} [SameBare x y]

instance : Agrees (otherStatement start x) (otherStatement start' y) := by
  unfold otherStatement; infer_instance

instance : Agrees (statementFrom start x) (statementFrom start' y) := by
  unfold statementFrom; infer_instance

end Statements

instance : Agrees statement? statement? := by unfold statement?; infer_instance

instance : Agrees nextStatement nextStatement := by unfold nextStatement; infer_instance

instance (name : String) : Agrees (sourceUnit name) (sourceUnit name) := by
  unfold sourceUnit; infer_instance

end Parser.Agrees

/-! ## Whole sources

Now the comparison is filled in for a source from its first token on. If something is left open
in a source that has no tokens, that is reported at once; any other run starts at its first
token. -/

/-- Two streams of tokens that are the same apart from places: token by token they have the same
kinds and texts and the same line breaks, and if something is left open behind them, the same is
said about it. -/
structure TokenStream.Alike (s s' : TokenStream) : Prop where
  /-- The tokens are the same, with the one that ends them. -/
  tokens : List.Forall₂
    (fun t u => t.kind = u.kind ∧ t.text = u.text ∧
      t.newlineBefore = u.newlineBefore) s.all s'.all
  /-- The same is said about what is left open. -/
  message : s.ending.fault.map LexicalFault.message = s'.ending.fault.map LexicalFault.message

/-- Two outcomes of reading a source are the same: the trees are the same without their places,
or the diagnostics are, apart from the place they point at. -/
inductive SameOutcome {α : Type} [HasPlaces α] (file : String) :
    Except Halt α → Except Halt α → Prop
  /-- Both sources are accepted. -/
  | accepted {a a' : α} (h : bare a = bare a') : SameOutcome file (.ok a) (.ok a')
  /-- Neither is, for the same reason. -/
  | rejected {e e' : Halt} {d d' : Diagnostic} (he : e.diagnostic? file = some d)
    (he' : e'.diagnostic? file = some d') (hkind : d.kind = d'.kind)
    (hmessage : d.message = d'.message)
    (hfound : d.found = d'.found) : SameOutcome file (.error e) (.error e')

/-- Messages tell faults apart. So whoever sees the same message has the same fault. -/
theorem LexicalFault.message_injective : Function.Injective LexicalFault.message := by
  intro f g h
  cases f <;> cases g <;> first | rfl | exact absurd h (by decide)

/-- Streams that are alike are the same without places. -/
theorem TokenStream.Alike.sameBare {s s' : TokenStream} (h : s.Alike s') : SameBare s s' := by
  -- Only places are left out of a token.
  have htokens : s.all.map bare = s'.all.map bare := by
    refine List.forall₂_eq_eq_eq ▸ List.forall₂_map_left_iff.2 (List.forall₂_map_right_iff.2 ?_)
    refine h.tokens.imp fun t u ⟨hkind, htext, hnewline⟩ => ?_
    show Token.mk t.kind t.text .unset t.newlineBefore
      = Token.mk u.kind u.text .unset u.newlineBefore
    rw [hkind, htext, hnewline]
  rw [all, all, List.map_append, List.map_append] at htokens
  obtain ⟨hfront, hlast⟩ := List.append_inj' htokens rfl
  have hfault : s.ending.fault = s'.ending.fault :=
    Option.map_injective LexicalFault.message_injective h.message
  have hending : bare s.ending = bare s'.ending :=
    congrArg₂ Ending.mk (List.singleton_inj.1 hlast) hfault
  exact ⟨congrArg₂ TokenStream.mk hfront hending⟩

namespace Parser

variable {α : Type} {x y : Text}

/-- A run on a source without tokens in which something is left open stops there. -/
theorem run_of_fault (p : Parser α) {fault : LexicalFault} (hr : (startOf x).rest = [])
    (hf : (startOf x).ending.fault = some fault) :
    run p x = .error (.lexical fault (startOf x).ending.range?) := by
  show ((if (startOf x).rest.isEmpty = true then (do reachEnd; p) else p : Parser α)
    (startOf x) >>=
    fun r => (pure r.1 : Except Halt α)) = _
  rw [hr, if_pos List.isEmpty_nil, bind_of_error (reachEnd_of_fault hf)]
  rfl

/-- Any other run is a run from the first place. -/
theorem run_of_visited (p : Parser α) (h : (startOf x).Visited) :
    run p x = (p (startOf x)).map Prod.fst := by
  have hstart : (if (startOf x).rest.isEmpty = true then (do reachEnd; p) else p : Parser α)
      (startOf x) = p (startOf x) := by
    rw [ite_run]
    split
    · rename_i hr
      rw [bind_of_ok (reachEnd_run (h.fault_of_nil (List.isEmpty_iff.1 hr)))]
    · rfl
  show ((if (startOf x).rest.isEmpty = true then (do reachEnd; p) else p : Parser α)
    (startOf x) >>=
    fun r => (pure r.1 : Except Halt α)) = _
  rw [hstart]
  cases p (startOf x) <;> rfl

/-- **Runs on the same tokens end alike**, unless one of them breaks down.

Whether one has to report what is left open before it starts is the same on both sides, and
otherwise the two runs are those from the first places, which are abreast. -/
theorem run_same_tokens [HasPlaces α] (p : Parser α) [Agrees p p]
    (h : SameBare (TokenStream.lex x) (TokenStream.lex y)) :
    (∃ a a', run p x = .ok a ∧ run p y = .ok a' ∧ SameBare a a') ∨
      (∃ e e', run p x = .error e ∧ run p y = .error e' ∧ SameBare e e') ∨
      run p x = .error (.crash .noSuchSlice) ∨ run p y = .error (.crash .noSuchSlice) := by
  have hrest : SameBare (startOf x).rest (startOf y).rest := ⟨(TokenStream.mk.inj h.eq).1⟩
  have hending : SameBare (startOf x).ending (startOf y).ending := ⟨(TokenStream.mk.inj h.eq).2⟩
  by_cases hopen : (startOf x).rest = [] ∧ (startOf x).ending.fault ≠ none
  · obtain ⟨hr, hf⟩ := hopen
    obtain ⟨fault, hf⟩ := Option.ne_none_iff_exists'.1 hf
    have hr' : (startOf y).rest = [] := by
      rw [← List.length_eq_zero_iff, ← hrest.length_eq, hr, List.length_nil]
    exact .inr (.inl ⟨_, _, run_of_fault p hr hf, run_of_fault p hr' (hending.fault_eq ▸ hf),
      hending.lexical fault⟩)
  · have hx : (startOf x).Visited := visited_startOf fun hr => by
      by_contra hf
      exact hopen ⟨hr, hf⟩
    have hy : (startOf y).Visited := visited_startOf fun hr => by
      rw [← hending.fault_eq]
      refine hx.fault_of_nil ?_
      rw [← List.length_eq_zero_iff, hrest.length_eq, hr, List.length_nil]
    have key : EndAlike (p (startOf x)) (p (startOf y)) :=
      Agrees.agrees ⟨hx, hy, hrest, hending, ⟨rfl⟩⟩
    rw [run_of_visited p hx, run_of_visited p hy]
    revert key
    generalize p (startOf x) = r, p (startOf y) = r'
    rintro (⟨ha, -⟩ | ⟨he⟩ | _ | _)
    · exact .inl ⟨_, _, rfl, rfl, ha⟩
    · exact .inr (.inl ⟨_, _, rfl, rfl, he⟩)
    · exact .inr (.inr (.inl rfl))
    · exact .inr (.inr (.inr rfl))

/-- Reports that are the same without places have the same diagnostic, apart from the place it
points at. -/
theorem sameOutcome_of_isReport [HasPlaces α] {e e' : Halt} (file : String) (h : SameBare e e')
    (he : e.IsReport) : SameOutcome file (.error e : Except Halt α) (.error e') := by
  cases e with
  | lexical fault range =>
    cases e' with
    | lexical fault' range' =>
      obtain rfl : fault = fault' := (Halt.lexical.inj h.eq).1
      exact .rejected rfl rfl rfl rfl rfl
    | unexpected => cases h.eq
    | crash => cases h.eq
    | exhausted => cases h.eq
  | unexpected complaint found =>
    cases e' with
    | unexpected complaint' found' =>
      obtain ⟨hcomplaint, hfound⟩ := Halt.unexpected.inj h.eq
      obtain rfl : complaint = complaint' := hcomplaint
      have hdescribe : found.describe = found'.describe :=
        SameBare.congr ⟨hfound⟩ (f := Token.describe) fun _ => rfl
      exact .rejected rfl rfl rfl rfl hdescribe
    | lexical => cases h.eq
    | crash => cases h.eq
    | exhausted => cases h.eq
  | crash => exact he.elim
  | exhausted => exact he.elim

/-- A parser whose runs on two sources with the same tokens stop only with reports has the same
outcome on both. -/
theorem sameOutcome_run [HasPlaces α] (p : Parser α) [Agrees p p] (file : String)
    (h : SameBare (TokenStream.lex x) (TokenStream.lex y))
    (hx : ∀ e, run p x = .error e → e.IsReport) (hy : ∀ e, run p y = .error e → e.IsReport) :
    SameOutcome file (run p x) (run p y) := by
  obtain ⟨a, a', hr, hr', ha⟩ | ⟨e, e', hr, hr', he⟩ | hcrash | hcrash := run_same_tokens p h
  · rw [hr, hr']
    exact .accepted ha.eq
  · rw [hr, hr']
    exact sameOutcome_of_isReport file he (hx e hr)
  · exact (hx _ hcrash).elim
  · exact (hy _ hcrash).elim

end Parser

open Exemplar.Parser in
/-- **A parser depends on a source only through its tokens.** Take two sources, whatever their
bytes are, whose tokens have the same kinds, texts and line breaks one by one, and at whose ends
the same is said about what is left open; their gaps and hence all places may differ. Reading a
type has the same outcome on both: the same type but for places, or diagnostics of one kind with
one message about one token. So does reading a unit, if it breaks down on neither; of the
members of enumerations the values and the computed keys are not compared, as they are pieces of
the sources.

Rules for types cut nothing out of the source, so runs of them never break down. -/
theorem parse_same_tokens (bytes bytes' : List UInt8) (file name : String)
    (h : (TokenStream.lex (Text.decode bytes)).Alike (TokenStream.lex (Text.decode bytes'))) :
    SameOutcome file (TypeExpr.parse (Text.decode bytes)) (TypeExpr.parse (Text.decode bytes')) ∧
      ((∀ k, SourceUnit.parse name (Text.decode bytes) ≠ .error (.crash k)) →
        (∀ k, SourceUnit.parse name (Text.decode bytes') ≠ .error (.crash k)) →
        SameOutcome file (SourceUnit.parse name (Text.decode bytes))
          (SourceUnit.parse name (Text.decode bytes'))) := by
  constructor
  · have hreport {x : Text} (e : Halt) (he : run wholeType x = .error e) : e.IsReport :=
      (tolerated_of_run (X := fun _ => False) he).resolve_right fun ⟨_, _, _, hfalse⟩ => hfalse
    exact sameOutcome_run wholeType file h.sameBare hreport hreport
  · intro hx hy
    have hreport {x : Text}
        (hcrash : ∀ k, run (sourceUnit name) x ≠ .error (.crash k)) (e : Halt)
        (he : run (sourceUnit name) x = .error e) : e.IsReport :=
      (tolerated_of_run (X := Cursor.BreaksDown) he).resolve_right
        fun ⟨hslice, _⟩ => hcrash .noSuchSlice (hslice ▸ he)
    exact sameOutcome_run (sourceUnit name) file h.sameBare (hreport hx) (hreport hy)

/-- Comments in an enumeration, also inside a value and a computed key, change nothing. -/
theorem parse_same_tokens_enum :
    let plain := (Text.ofString "enum E \x7b A = 1 + 2, [B] = 3 \x7d").encode
    let commented := (Text.ofString "enum/**/E\x7bA=1 /* one */+2,[ B ]=3\x7d").encode
    (TokenStream.lex (Text.decode plain)).Alike (TokenStream.lex (Text.decode commented)) ∧
      SameOutcome "e.ts" (SourceUnit.parse "e" (Text.decode plain))
        (SourceUnit.parse "e" (Text.decode commented)) := by
  intro plain commented
  obtain ⟨htokens, hmessage, hplain, hcommented⟩ :
      List.Forall₂
      (fun t u : Token => t.kind = u.kind ∧ t.text = u.text ∧ t.newlineBefore = u.newlineBefore)
        (TokenStream.lex (Text.decode plain)).all (TokenStream.lex (Text.decode commented)).all ∧
      (TokenStream.lex (Text.decode plain)).ending.fault.map LexicalFault.message =
        (TokenStream.lex (Text.decode commented)).ending.fault.map LexicalFault.message ∧
      (SourceUnit.parse "e" (Text.decode plain)).isOk = true ∧
      (SourceUnit.parse "e" (Text.decode commented)).isOk = true := by
    rw [Text.decode_encode_ofString, Text.decode_encode_ofString, Text.ofString_ofList,
      Text.ofString_ofList]
    decide +kernel
  have halike : (TokenStream.lex (Text.decode plain)).Alike
      (TokenStream.lex (Text.decode commented)) := ⟨htokens, hmessage⟩
  refine ⟨halike, (parse_same_tokens plain commented "e.ts" "e" halike).2 (fun k h => ?_)
    fun k h => ?_⟩
  · rw [h] at hplain
    cases hplain
  · rw [h] at hcommented
    cases hcommented

end Exemplar
