import Exemplar.Proofs.Grammar.TokenPlaces
import Exemplar.Proofs.Types.PartTypes

/-!
# Statements in a part of a source

Initial values, variables, classes and enumerations are followed from a part of a source into
the whole. These are the rules that stop at the same place on both sides; those that may come to
the end of the part and consume the semicolon behind it are left to `StatementEnds`.

Before `export` it matters what the part ends with. A rule that stands behind a word or a sign
from which an expression goes on would take `export` for what it expects there. But a part that
ends like this is not one that `export` may come behind, so such a rule starts at a token
(`Unfinished`), and a rule that may or may not consume something in front of another one still
leaves a token (`Keeps`).

The key and the value of a member of an enumeration are pieces of the source. They are cut out
by their offsets, and the whole has the same bytes at its own offsets; but nothing is made of
them as long as the piece can be cut out at all, and a computed key is told from the bracket it
starts with.

For each rule it is said where it is followed: anywhere, at a token, inside of the part, or
anywhere but at its end before `export` (`Scope`). Which of these it is depends on what the rule
does at the end of the part. There the whole goes on with a semicolon or with `export`, and a
question about the current token has the answer that the end of the source would give only if
neither of the two is asked for. These questions are the instances of `Inert`.
-/

namespace Exemplar.Parser

open Exemplar.Tree Exemplar.Brackets
open Exemplar.Cursor (Placed Alongside)

variable {α β : Type} [HasPlaces α] [HasPlaces β] {e : Placement} {k : Scope} {c c' d : Cursor}

-- The search for an instance is as deep as the rule is long.
set_option synthInstance.maxSize 100000

/-! ## Behind a word that ends nothing

A statement that `export` comes behind ends with a token that can end an expression. The words
and signs below cannot, so behind them the part goes on. -/

/-- A word or punctuator that is no closing bracket. -/
class Unfinished (w : String) : Prop where
  not_closer : [")", "]", "\x7d"].all (fun x => Text.ofString w != Text.ofString x) = true := by
    decide

/-- Such a token is no name, no literal and no closing bracket. -/
theorem Unfinished.not_isFinal {w : String} [Unfinished w] {t : Token} (h : t.is w = true) :
    ¬t.IsFinal := by
  have hw := not_closer (w := w)
  simp only [Token.is, Bool.and_eq_true, Bool.or_eq_true, beq_iff_eq] at h
  simp only [List.all_cons, List.all_nil, Bool.and_true, Bool.and_eq_true, bne_iff_ne] at hw
  rintro (hk | hcloser)
  · simp only [List.mem_cons, List.not_mem_nil, or_false] at hk
    rcases h.1 with h | h <;> rw [h] at hk <;> simp at hk
  · simp only [Token.isCloser, Bool.and_eq_true, Bool.or_eq_true, beq_iff_eq, h.2] at hcloser
    rcases hcloser.2 with (h | h) | h
    · exact hw.1 h
    · exact hw.2.1 h
    · exact hw.2.2 h

instance : Unfinished "=" := {}

instance : Unfinished "," := {}

instance : Unfinished "=>" := {}

/-- Behind such a word a part does not end before `export`. Else it would be the last token, and
the last token of the part is one that a statement can end with. -/
theorem rest_ne_nil_of_past {t : Token} {more : List Token} (hc : Placed e c c')
    (hr : c.rest = t :: more) (ht : ¬t.IsFinal) (hx : e.Exports) : more ≠ [] := by
  rintro rfl
  exact ht (hc.head_isFinal hx hr)

/-- A parser that does not come to the end of a part before `export`. If there is a token before
it, there is one behind it. -/
class Keeps (e : Placement) (p : Parser α) : Prop where
  rest_ne_nil : ∀ {c c' d : Cursor} {a : α}, Placed e c c' → (e.Exports → c.rest ≠ []) →
    p c = .ok (a, d) → e.Exports → d.rest ≠ []

namespace Follows

/-- What comes behind a parser that leaves a token is at a token, whenever that matters. -/
instance bind_keeps {p p' : Parser α} {f f' : α → Parser β} [Keeps e p]
    [hp : Follows e (.free e) p p']
    [hf : ∀ r : BarePair α, Follows e (.free e) (f r.left) (f' r.right)] :
    Follows e (.free e) (p >>= f) (p' >>= f') where
  endsLike hc h hd := EndsLike.bind h (fun h₁ _ => hp.endsLike hc h₁ hd)
    fun ha hc₁ h₁ h₂ => (hf ⟨_, _, ha⟩).endsLike hc₁ h₂ (Keeps.rest_ne_nil hc hd h₁)

/-- What comes behind a word or a sign that ends nothing is at a token, whenever that
matters. -/
instance expect_bind (w : String) [Unfinished w] {f f' : Unit → Parser β}
    [hf : ∀ r : BarePair Unit, Follows e (.free e) (f r.left) (f' r.right)] :
    Follows e .anywhere (expect w >>= f) (expect w >>= f') where
  endsLike {c c' d a} hc h _ := by
    refine EndsLike.bind (R := Placed e) h
      (fun h₁ _ => Simulates.again .anywhere hc h₁ trivial) fun hu hc₁ h₁ h₂ => ?_
    obtain ⟨t, more, hr, ht, rfl⟩ := expect_inv hc.clean h₁
    exact (hf ⟨_, _, hu⟩).endsLike hc₁ h₂
      (rest_ne_nil_of_past hc hr (Unfinished.not_isFinal ht))

/-- The same if the word may be missing. If it is, the other branch is taken on both sides, at
the same cursors. -/
instance got_bind (w : String) [Unfinished w] [Inert Placement.words (·.is w)]
    {p p' q q' : Parser β} [hp : Follows e (.free e) p p'] [hq : Follows e .anywhere q q'] :
    Follows e .anywhere (got w >>= fun b => if b = true then p else q)
      (got w >>= fun b => if b = true then p' else q') where
  endsLike {c c' d a} hc h _ := by
    refine EndsLike.bind (R := Placed e) h
      (fun h₁ _ => Simulates.again .anywhere hc h₁ trivial) ?_
    rintro b b' c₁ c₁' ⟨hb⟩ hc₁ h₁ h₂
    obtain rfl : b = b' := hb
    rcases got_inv hc.clean h₁ with ⟨rfl, rfl, -⟩ | ⟨rfl, t, more, hr, ht, rfl⟩
    · exact hq.endsLike hc₁ h₂ trivial
    · exact hp.endsLike hc₁ h₂ (rest_ne_nil_of_past hc hr (Unfinished.not_isFinal ht))

/-! ## Initial values

An initial value is read only if it is a function, and skipped otherwise. Whether it is one is
found by looking ahead as far as its closing bracket, which may be anywhere in the source. -/

instance : Inert Placement.words (·.is "\x7b") := {}

instance : Inert Placement.words (·.is "*") := {}

instance : Inert Placement.words (·.is "function") := {}

instance : Inert Placement.words (fun t => t.is "=>" || t.is ":") := {}

instance : LooksAhead (·.is "async") (fun t =>
    !t.newlineBefore && (t.is "function" || t.is "(" || t.is "<")) := {}

instance : LooksAhead (·.is "async") (fun t => !t.newlineBefore && t.isIdent) := {}

instance : Inert Placement.words (·.is "async") := {}

instance : LooksAhead (·.isIdent) (fun next => next.is "=>" && !next.newlineBefore) := {}

/-- The look ahead, as a function of the tokens that are left: the closing bracket is found, and
behind it an arrow or a colon. -/
theorem arrowAhead_run (hf : c.ending.fault = none) : arrowAhead c
    = .ok ((matching 0 c.rest).any
        (fun i => (c.look (i + 1)).is "=>" || (c.look (i + 1)).is ":"), c) := by
  unfold arrowAhead
  rw [bind_of_ok (closingBracket_run hf)]
  exact any_look_run hf _ fun next => next.is "=>" || next.is ":"

/-- The same for a list of type parameters in front, behind which a bracket opens. -/
theorem genericArrowAhead_run (hf : c.ending.fault = none) : genericArrowAhead c
    = .ok ((matchingAngle 0 0 c.rest).found?.any (fun i => (c.look (i + 1)).is "("), c) := by
  unfold genericArrowAhead
  rw [bind_of_ok (closingAngle_run hf)]
  exact any_look_run hf _ _

/-- At the end of a part before no `export` no function starts on either side; elsewhere both
sides find the same closing bracket, and see the same behind it. -/
instance : Follows e (.free e) arrowFunctionAhead arrowFunctionAhead :=
  have : Follows e .token arrowFunctionAhead arrowFunctionAhead := ⟨fun {c c' d b} hc h hr => by
    obtain ⟨s, hs⟩ := (Alongside.current hc hr).exists_span
    unfold arrowFunctionAhead at h ⊢
    rw [current_bind] at h
    rw [EndsLike, current_bind, hs]
    refine EndsLike.ite h (fun ho h => ?_) fun _ h =>
      EndsLike.ite h (fun hl h => ?_) fun _ h => ?_
    · rw [arrowAhead_run hc.clean.fault] at h
      cases h
      refine ⟨_, c', arrowAhead_run hc.clean'.fault, ⟨?_⟩, hc⟩
      exact Simulates.behindBracket_eq (fun t => t.is "=>" || t.is ":") hc (hc.matching_eq ho)
    · rw [genericArrowAhead_run hc.clean.fault] at h
      cases h
      refine ⟨_, c', genericArrowAhead_run hc.clean'.fault, ⟨?_⟩, hc⟩
      exact Simulates.behindAngle_eq (·.is "(") hc (hc.matchingAngle_eq hl)
    · exact Simulates.again .token hc h hr⟩
  Simulates.of_token_of_nil fun {c c' _ _} hc hr hx h => by
    -- At the end of the part none of the tokens is there that a function can start with.
    have key : ∀ {c : Cursor}, c.ending.Clean → c.current.is "(" = false →
        c.current.is "<" = false → c.current.isIdent = false →
        arrowFunctionAhead c = .ok (false, c) := by
      intro c hclean ho hl hi
      unfold arrowFunctionAhead
      rw [current_bind, ho, hl, if_neg Bool.false_ne_true, if_neg Bool.false_ne_true,
        ahead_run hclean, hi]
      rfl
    have ho := Alongside.inert_of_nil hc hr (·.is "(")
    have hl := Alongside.inert_of_nil hc hr (·.is "<")
    have hi := inert_of_nil hc hr (fun he => hx he hr) (·.isIdent)
    rw [key hc.clean ho.1 hl.1 hi.1] at h
    cases h
    exact ⟨false, c', key hc.clean' ho.2 hl.2 hi.2, inferInstance, hc⟩

/-- A question that holds of no end of a source holds of none together with another. -/
instance onTokens_and_right (f g : Token → Bool) [OnTokens g] :
    OnTokens (fun t => f t && g t) where
  isEof_eq_false h := OnTokens.isEof_eq_false (f := g) (Bool.and_eq_true_iff.1 h).2

instance : Follows e .anywhere asyncAhead asyncAhead := by
  unfold asyncAhead; infer_instance

instance still_asyncAhead : Still asyncAhead := by unfold asyncAhead; infer_instance

/-- The word `async` stands before another token. What it is asked for is a function behind it,
so there is a token to ask. -/
theorem two_of_asyncAhead (he : c.ending.Clean) (h : asyncAhead c = .ok (true, d)) :
    ∃ t u more, c.rest = t :: u :: more := by
  -- A question about the second token that holds of no end finds a token there.
  have key : ∀ {g : Token → Bool} [OnTokens g], c.current.is "async" = true →
      g c.second = true → ∃ t u more, c.rest = t :: u :: more := by
    intro g _ hf hg
    obtain ⟨t, more, hr, -⟩ := Cursor.exists_of_is he hf
    exact Cursor.two_of_second he (by rw [hr]; exact List.cons_ne_nil _ _) hg
  unfold asyncAhead at h
  rw [bind_of_ok (ahead_run he _ _), ite_run] at h
  split at h
  · rename_i hfg
    obtain ⟨hf, hg⟩ := Bool.and_eq_true_iff.1 hfg
    exact key (g := fun t => !t.newlineBefore && (t.is "function" || t.is "(" || t.is "<")) hf hg
  · rw [Simulates.ahead₃_run he] at h
    have hfg := (Bool.and_eq_true_iff.1 (Prod.mk.inj (Except.ok.inj h)).1).1
    obtain ⟨hf, hg⟩ := Bool.and_eq_true_iff.1 hfg
    exact key (g := fun t => !t.newlineBefore && t.isIdent) hf hg

/-- And it is not passed at the end of a source. -/
instance definite_asyncAhead : Definite asyncAhead where
  of_true {c c'} hc h := by
    obtain rfl := Still.eq_of_ok h
    refine .inl fun hr => ?_
    obtain ⟨t, u, more, hcons⟩ := two_of_asyncAhead (hc.clean hr) h
    rw [hr] at hcons
    cases hcons

instance : Follows e .anywhere asyncModifier asyncModifier := by
  unfold asyncModifier; infer_instance

/-- The word is consumed only in front of another token. -/
instance keeps_asyncModifier : Keeps e asyncModifier where
  rest_ne_nil {c c' d a} hc hx h he := by
    unfold asyncModifier at h
    obtain ⟨b, c₁, h₁, h₂⟩ := bind_eq_ok.1 h
    obtain rfl := Still.eq_of_ok h₁
    cases b with
    | false =>
      obtain ⟨-, rfl⟩ := pure_eq_ok.1 h₂
      exact hx he
    | true =>
      obtain ⟨t, u, more, hr⟩ := two_of_asyncAhead hc.clean h₁
      obtain ⟨v, c₂, h₃, h₄⟩ := bind_eq_ok.1 h₂
      obtain ⟨-, rfl⟩ := pure_eq_ok.1 h₄
      obtain ⟨more', hr', rfl⟩ := advance_inv (hx he) h₃
      rw [hr] at hr'
      cases hr'
      exact List.cons_ne_nil _ _

instance : Follows e .anywhere skipBlock skipBlock := by
  unfold skipBlock; infer_instance

instance : Follows e .token identifier? identifier? := by
  unfold identifier?; infer_instance

section Functions

variable (start start' : Position) {ms ms' : Modifiers} [SameBare ms ms']

instance :
    Follows e .anywhere (functionExpression start ms) (functionExpression start' ms') := by
  unfold functionExpression; infer_instance

instance : Follows e .inside bareParameter bareParameter := by
  unfold bareParameter; infer_instance

instance : Follows e .inside arrowSignature arrowSignature := by
  unfold arrowSignature; infer_instance

instance : Follows e (.free e) arrowBody arrowBody := by
  unfold arrowBody; infer_instance

instance : Follows e .anywhere (arrowFunction start ms) (arrowFunction start' ms') := by
  unfold arrowFunction; infer_instance

end Functions

/-- It is decided by looking ahead alone. -/
instance still_arrowFunctionAhead : Still arrowFunctionAhead := by
  have : Still arrowAhead := by
    unfold arrowAhead
    refine @Still.bind _ _ _ _ inferInstance fun o => ?_
    cases o <;> infer_instance
  have : Still genericArrowAhead := by
    unfold genericArrowAhead
    refine @Still.bind _ _ _ _ inferInstance fun o => ?_
    cases o <;> infer_instance
  unfold arrowFunctionAhead; infer_instance

instance : Follows e (.free e) initializer initializer := by
  unfold initializer; infer_instance

instance : Follows e .anywhere initializer? initializer? := by
  unfold initializer?; infer_instance

/-! ## Variables

Whether there is another declarator is asked behind a comma. A comma ends nothing, so before
`export` there is a token. -/

instance : Inert Placement.words (·.is "!") := {}

instance : Inert Placement.words (·.is ",") := {}

/-- The name of a variable is a token or a pattern in brackets. -/
instance : Follows e .anywhere bindingName bindingName :=
  have : Follows e .token bindingName bindingName := by unfold bindingName; infer_instance
  have : Needs bindingName := by unfold bindingName; infer_instance
  Simulates.of_needs

instance : Follows e .anywhere declarator declarator := by
  unfold declarator; infer_instance

instance : Inert Placement.ends startsBinding := {}

/-- A declarator is there on both sides or on neither: what comes behind a part starts no
binding. -/
instance : Follows e (.free e) declarator? declarator? :=
  have : Follows e .token declarator? declarator? := by unfold declarator?; infer_instance
  Simulates.of_token_of_nil fun {c c' _ _} hc hr hx h => by
    have hs := inert_of_nil hc hr (fun he => hx he hr) startsBinding
    unfold declarator? at h ⊢
    rw [current_bind, hs.1] at h
    obtain ⟨rfl, rfl⟩ := pure_eq_ok.1 h
    refine ⟨none, c', ?_, inferInstance, hc⟩
    rw [current_bind, hs.2]
    rfl

instance : Follows e .anywhere nextDeclarator nextDeclarator := by
  unfold nextDeclarator; infer_instance

instance : Follows e (.free e) declarators declarators := by
  unfold declarators
  exact Simulates.bind_option (j := .anywhere) (fun _ => inferInstance) inferInstance
    fun _ => inferInstance

/-! ## Classes and interfaces

A class or an interface is read up to its closing brace, and this lies in the part. So what is
in the braces is followed inside of the part. -/

instance : LooksAhead (·.is "static") (·.is "\x7b") := {}

instance : LooksAhead (isWordOf memberModifiers) startsKey := {}

instance : Inert Placement.words (isWordOf memberModifiers) := {}

instance : LooksAhead (·.is "constructor") (·.is "(") := {}

instance : Inert Placement.words (·.is "implements") := {}

instance : Follows e .inside semicolon semicolon := by
  unfold semicolon statementMayEnd; infer_instance

instance : Follows e .inside functionBody functionBody := by
  unfold functionBody; infer_instance

instance : Follows e .inside skipAccessorWord skipAccessorWord := by
  unfold skipAccessorWord; infer_instance

/-- Whether what a class extends goes on is asked of the current token. -/
instance : Follows e .token (do return continuesBase (← current))
    (do return continuesBase (← current)) :=
  Simulates.test_token (f := continuesBase) (fun _ => rfl) fun _ => rfl

section ClassMembers

variable (start start' : Position) {ms ms' : Modifiers} [SameBare ms ms']

instance : Follows e .inside (constructorMember start ms) (constructorMember start' ms') := by
  unfold constructorMember; infer_instance

instance : Follows e .inside (staticBlock start) (staticBlock start') := by
  unfold staticBlock; infer_instance

instance : Follows e .inside (indexMember start) (indexMember start') := by
  unfold indexMember; infer_instance

instance : Follows e .inside (namedClassMember start ms) (namedClassMember start' ms') := by
  unfold namedClassMember; infer_instance

instance : Follows e .inside classMember classMember := by
  unfold classMember; infer_instance

instance : Follows e .inside nextClassMember nextClassMember := by
  unfold nextClassMember; infer_instance

instance : Follows e .anywhere classMembers classMembers := by
  unfold classMembers; infer_instance

instance : Follows e .inside plainBase plainBase := by
  unfold plainBase; infer_instance

instance : Follows e .inside skipItem skipItem := by
  unfold skipItem; infer_instance

instance : Follows e .inside className className := by
  unfold className; infer_instance

/-- What a class extends is a reference, or an expression that is skipped up to the brace. -/
instance : Follows e .inside baseClass baseClass := by
  unfold baseClass
  have moves : ∀ o : Option TypeExpr, Moves
      (match o with
        | some ref => pure ref
        | none => do
          whileDo (do return continuesBase (← current)) skipItem
          return .absent) := fun o => by cases o <;> infer_instance
  exact Simulates.bind_option (j := .inside) (fun _ => inferInstance) inferInstance
    fun _ => inferInstance

instance : Follows e .inside extendsClause extendsClause := by
  unfold extendsClause; infer_instance

instance (w : String) [Inert Placement.words (·.is w)] :
    Follows e .anywhere (referencesBehind w) (referencesBehind w) := by
  unfold referencesBehind; infer_instance

instance needs_classMembers : Needs classMembers := by unfold classMembers; infer_instance

instance : Follows e .anywhere (classDecl start ms) (classDecl start' ms') := by
  unfold classDecl; infer_instance

instance : Follows e .anywhere (interfaceDecl start ms) (interfaceDecl start' ms') := by
  unfold interfaceDecl; infer_instance

end ClassMembers

/-! ## Enumerations

Names and values are cut out of the source, from the place where the first of their tokens
starts to the place where the token consumed last stops. -/

/-- A piece of the source that can be cut out of the part can be cut out of the whole, for the
offsets there are greater by the same number, and the whole is long enough. -/
theorem sourceFrom_placed {start start' : Position} {x : Text} (hc : Placed e c c')
    (hs : start'.offset = start.offset + e.shift) (h : sourceFrom start c = .ok (x, d)) :
    d = c ∧ x = c.source.slice start.offset c.lastStop.offset ∧
      sourceFrom start' c' = .ok (c'.source.slice start'.offset c'.lastStop.offset, c') := by
  have hstop := hc.lastStop
  have hroom := hc.room
  rw [sourceFrom_run] at h
  split at h
  · cases h
  · rename_i hle
    cases h
    simp only [Bool.or_eq_true, decide_eq_true_eq, not_or, Nat.not_lt] at hle
    refine ⟨rfl, rfl, ?_⟩
    rw [sourceFrom_run, if_neg]
    simp only [Bool.or_eq_true, decide_eq_true_eq]
    omega

/-- The current token starts at a place that is moved by the shift of the part. -/
theorem start_placed (hc : Placed e c c') (hr : c.rest ≠ []) :
    c'.current.start.offset = c.current.start.offset + e.shift := by
  obtain ⟨t, more, hcons⟩ := List.exists_cons_of_ne_nil hr
  obtain ⟨t', more', hcons', ht, -⟩ := hc.past hcons
  rw [Cursor.current_of_cons hcons, Cursor.current_of_cons hcons']
  exact ht.start

/-- The key of a member is the text of a token, or a piece in brackets on both sides. Nothing is
kept of a piece in brackets, and both pieces are, since each of them starts with its bracket. -/
theorem enumMemberName_placed {x : Text} (hc : Placed e c c')
    (h : enumMemberName c = .ok (x, d)) :
    ∃ x' d', enumMemberName c' = .ok (x', d') ∧ bareKey x = bareKey x' ∧ Placed e d d' := by
  have hr : c.rest ≠ [] := Needs.rest_ne_nil hc.visited h
  obtain ⟨s, hs⟩ := (Alongside.current hc hr).exists_span
  have hstart := start_placed hc hr
  unfold enumMemberName at h ⊢
  rw [here_bind, current_bind] at h ⊢
  rw [hs]
  by_cases hname :
      (c.current.isIdent || c.current.kind == .string || c.current.kind == .number) = true
  · rw [if_pos hname] at h
    obtain ⟨x', d', h', ⟨hx⟩, hd⟩ :=
      Simulates.again (R := Placed e) (S := Placed e) .token hc h hr
    exact ⟨x', d', (congrFun (if_pos hname) c').trans h', congrArg bareKey hx, hd⟩
  rw [if_neg hname] at h
  by_cases hopen : c.current.is "[" = true
  · rw [if_pos hopen] at h
    obtain ⟨_, c₁, h₁, h₂⟩ := bind_eq_ok.1 h
    obtain ⟨_, c₁', h₁', -, hc₁⟩ :=
      Simulates.again (R := Placed e) (S := Placed e) .anywhere hc h₁ trivial
    obtain ⟨rfl, rfl, h₂'⟩ := sourceFrom_placed hc₁ hstart h₂
    have hopen' : c'.current.is "[" = true := by rw [hs]; exact hopen
    -- On each side the piece starts with the opening bracket, so it counts as computed.
    have hkey := isComputedKey_slice hc.visited hopen h₁
    have hkey' := isComputedKey_slice hc.visited' hopen' h₁'
    refine ⟨_, c₁', ?_, (if_pos hkey).trans (if_pos hkey').symm, hc₁⟩
    refine (congrFun ((if_neg hname).trans (if_pos hopen)) c').trans ?_
    rw [hs] at h₂' ⊢
    exact (bind_of_ok h₁' _).trans h₂'
  · rw [if_neg hopen] at h
    cases h

/-- The value of a member is skipped and cut out. Nothing is kept of it, so it is enough that
the whole can cut out its piece as well. There is a token behind the value, for the closing
brace is in the part. -/
theorem enumMemberValue_placed {x : Text} (hc : Placed e c c')
    (h : enumMemberValue c = .ok (x, d)) (hd : d.rest ≠ []) :
    ∃ x' d', enumMemberValue c' = .ok (x', d') ∧ Placed e d d' := by
  unfold enumMemberValue at h ⊢
  obtain ⟨b, c₁, h₁, h₂⟩ := bind_eq_ok.1 h
  obtain ⟨b', c₁', h₁', ⟨hb⟩, hc₁⟩ :=
    Simulates.again (R := Placed e) (S := Placed e) .anywhere hc h₁ trivial
  obtain rfl : b = b' := hb
  cases b with
  | false =>
    obtain ⟨rfl, rfl⟩ := pure_eq_ok.1 h₂
    exact ⟨[], c₁', by rw [bind_of_ok h₁']; rfl, hc₁⟩
  | true =>
    rw [if_pos rfl, here_bind] at h₂
    obtain ⟨_, c₂, h₃, h₄⟩ := bind_eq_ok.1 h₂
    have hr₁ : c₁.rest ≠ [] :=
      ((Moves.reaches_of_ok h₃).trans (Moves.reaches_of_ok h₄)).rest_ne_nil hd
    obtain ⟨_, c₂', h₃', -, hc₂⟩ :=
      Simulates.again (R := Placed e) (S := Placed e) (.free e) hc₁ h₃ fun _ => hr₁
    obtain ⟨rfl, -, h₄'⟩ := sourceFrom_placed hc₂ (start_placed hc₁ hr₁) h₄
    exact ⟨_, c₂', by rw [bind_of_ok h₁', if_pos rfl, here_bind, bind_of_ok h₃', h₄'], hc₂⟩

/-- A member is its key, its value if it has one, and a comma or the closing brace. The two
parts that are cut out are followed as shown above; the rest is like any other rule. -/
instance : Follows e .inside enumMember enumMember where
  endsLike {c c' d m} hc h hd := by
    unfold enumMember at h ⊢
    rw [here_bind] at h
    rw [EndsLike, here_bind]
    obtain ⟨x, c₁, h₁, h⟩ := bind_eq_ok.1 h
    obtain ⟨y, c₂, h₂, h⟩ := bind_eq_ok.1 h
    rw [spanFrom_bind] at h
    obtain ⟨rfl, rfl⟩ := pure_eq_ok.1 h
    obtain ⟨x', c₁', h₁', hx, hc₁⟩ := enumMemberName_placed hc h₁
    obtain ⟨y', c₂', h₂', hc₂⟩ := enumMemberValue_placed hc₁ h₂ hd
    refine ⟨⟨⟨c'.current.start, c₂'.lastStop⟩, x', y'⟩, c₂', ?_,
      ⟨congrArg (EnumMember.mk .unset · []) hx⟩, hc₂⟩
    rw [bind_of_ok h₁', bind_of_ok h₂', spanFrom_bind]
    rfl

instance (start start' : Position) {ms ms' : Modifiers} [SameBare ms ms'] :
    Follows e .anywhere (enumDecl start ms) (enumDecl start' ms') := by
  unfold enumDecl; infer_instance

end Follows

end Exemplar.Parser
