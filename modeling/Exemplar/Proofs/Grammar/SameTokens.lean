import Exemplar.Proofs.Grammar.VisitedPlaces
import Exemplar.Proofs.Tree.Bare

/-!
# Runs on the same tokens

Two sources may have the same tokens and still differ, in the gaps between their tokens and
hence in the places of all of them. A parser that runs on both cannot tell them apart, as long
as it does not cut a piece out of the source: it takes the same branches, and it ends with the
same tree or the same complaint, apart from the places.

`Cursor.Abreast` relates two cursors that have the same ahead of them, and `Agrees` says of two
parsers that they end alike when they run from such cursors. The way parsers are put together
keeps this, so it is said once of what parsers are made of, and found by instances for the rest.

Failures count here, so `Agrees` says more than that a run that succeeds is followed by one that
does: it also says that both stop with the same complaint about the same token, or with the same
thing left open at the end. The one way to break down that is left open is a slice that does not
exist, since whether it does depends on the places.

A parser may have been given values that differ in their places, such as the place where its
node starts, so the two parsers need not be one. For a sequence this means that the second parts
are compared for all answers of the first ones that are the same apart from places.
-/

namespace Exemplar

open Exemplar.Brackets

instance : HasPlaces Complaint := .whole Complaint

instance : HasPlaces Halt where
  bare
    | .lexical fault range => .lexical fault (bare range)
    | .unexpected complaint found => .unexpected complaint (bare found)
    | .crash cause => .crash cause
    | .exhausted => .exhausted

instance {x x' : Complaint} {t t' : Token} [h : SameBare x x'] [ht : SameBare t t'] :
    SameBare (Halt.unexpected x t) (.unexpected x' t') :=
  ⟨congrArg₂ Halt.unexpected h.eq ht.eq⟩

instance {x x' : Text} [h : SameBare x x'] :
    SameBare (Complaint.unbalanced x) (.unbalanced x') :=
  ⟨congrArg Complaint.unbalanced h.eq⟩

section Endings

variable {e e' : Ending}

/-- What is left open at the end is the same. -/
theorem SameBare.fault_eq (h : SameBare e e') : e.fault = e'.fault := (Ending.mk.inj h.eq).2

/-- The tokens that stand for the end are the same. -/
theorem SameBare.token (h : SameBare e e') : SameBare e.token e'.token :=
  ⟨(Ending.mk.inj h.eq).1⟩

/-- What is left open at the end is told alike. Whether a range is given depends on the kind of
the token at the end. -/
theorem SameBare.lexical (h : SameBare e e') (fault : LexicalFault) :
    SameBare (Halt.lexical fault e.range?) (.lexical fault e'.range?) := by
  have hkind : (e.token.kind == .illegal) = (e'.token.kind == .illegal) :=
    h.token.congr (f := (·.kind == .illegal)) fun _ => rfl
  have hrange : SameBare e.range? e'.range? := by
    unfold Ending.range?
    rw [hkind]
    split <;> infer_instance
  exact ⟨congrArg (Halt.lexical fault) hrange.eq⟩

end Endings

namespace Cursor

/-- Two places with the same ahead of them and the same behind them. -/
structure Abreast (c c' : Cursor) : Prop where
  visited : c.Visited
  visited' : c'.Visited
  /-- The tokens still to come are the same. -/
  rest : SameBare c.rest c'.rest
  /-- They end alike. -/
  ending : SameBare c.ending c'.ending
  /-- The tokens consumed last are the same. -/
  last : SameBare c.last c'.last

namespace Abreast

variable {c c' : Cursor}

/-- There are as many tokens still to come. -/
theorem length_eq (h : Abreast c c') : c.rest.length = c'.rest.length := h.rest.length_eq

/-- Looked at from places abreast, the same is seen. -/
theorem getElem? (h : Abreast c c') (n : Nat) : SameBare c.rest[n]? c'.rest[n]? := by
  refine ⟨?_⟩
  show Option.map bare c.rest[n]? = Option.map bare c'.rest[n]?
  rw [← List.getElem?_map, ← List.getElem?_map]
  exact congrArg (·[n]?) h.rest.eq

/-- The current tokens are the same, be they the next ones or those that stand for the end. -/
theorem current (h : Abreast c c') : SameBare c.current c'.current := by
  obtain ⟨hr, hr'⟩ | ⟨t, t', more, more', hr, hr', ht, -⟩ := h.rest.nil_or_cons
  · rw [current_of_nil hr, current_of_nil hr']
    exact h.ending.token
  · rw [current_of_cons hr, current_of_cons hr']
    exact ht

/-- Behind tokens that are the same, places are abreast if runs come to them. -/
theorem past {t t' : Token} {more more' : List Token} (hc : Abreast c c') (ht : SameBare t t')
    (hmore : SameBare more more') (h : Parser.advance c = .ok (t, c.past t more))
    (h' : Parser.advance c' = .ok (t', c'.past t' more')) :
    Abreast (c.past t more) (c'.past t' more') :=
  ⟨hc.visited.of_ok h, hc.visited'.of_ok h', hmore, hc.ending, ⟨congrArg some ht.eq⟩⟩

end Abreast

end Cursor

/-! ## Scans

A scan looks at the kinds and the texts of tokens. -/

namespace Brackets

/-! What a scan finds is a number of tokens, and it asks nothing of a token but its kind and its
text. So for each scan it is shown that it finds the same in tokens without places. -/

/-- The closing parenthesis is the same. -/
theorem matching_bare (depth : Nat) (l : List Token) :
    matching depth (bare l) = matching depth l := by
  induction l generalizing depth with
  | nil => rfl
  | cons t l ih =>
    -- what is asked of a token is asked of its kind and its text
    show matching depth (bare t :: bare l) = _
    rw [matching, matching, ih, ih, ih]
    rfl

/-- The closing angle bracket is the same. -/
theorem matchingAngle_bare (angles groups : Nat) (l : List Token) :
    matchingAngle angles groups (bare l) = matchingAngle angles groups l := by
  induction l generalizing angles groups with
  | nil => rfl
  | cons t l ih =>
    show matchingAngle angles groups (bare t :: bare l) = _
    cases groups <;> simp only [matchingAngle, ih] <;> rfl

/-- The end of a group is the same. -/
theorem scan_bare (top : Text) (outer : List Text) (l : List Token) :
    scan top outer (bare l) = scan top outer l := by
  induction l generalizing top outer with
  | nil => rfl
  | cons t l ih =>
    show scan top outer (bare t :: bare l) = _
    cases outer <;> simp only [scan, ih] <;> rfl

/-- And so is the end of the group that starts with a token. -/
theorem scanGroup?_bare (l : List Token) : scanGroup? (bare l) = scanGroup? l := by
  cases l with
  | nil => rfl
  | cons t l =>
    show scanGroup? (bare t :: bare l) = _
    rw [scanGroup?, scanGroup?, scan_bare]
    rfl

/-- Whether an expression goes on in the next line is asked of the kinds and texts of two
tokens. -/
theorem continuesAcross_bare (o : Option Token) (t : Token) :
    continuesAcross (bare o) (bare t) = continuesAcross o t := by
  cases o <;> rfl
end Brackets

namespace Parser

open Cursor (Abreast)

variable {α β σ : Type}

section Ends

variable [HasPlaces α] [HasPlaces β] {c c' : Cursor}

/-- Two ends of a run that are the same apart from places, unless one of them breaks down where
it cuts a piece out of the source. -/
inductive EndAlike : Except Halt (α × Cursor) → Except Halt (α × Cursor) → Prop
  /-- Both succeed. -/
  | ok {a a' : α} {d d' : Cursor} (h : SameBare a a') (hd : Abreast d d') :
    EndAlike (.ok (a, d)) (.ok (a', d'))
  /-- Both stop. -/
  | error {e e' : Halt} (h : SameBare e e') : EndAlike (.error e) (.error e')
  /-- The first breaks down. -/
  | left {r : Except Halt (α × Cursor)} : EndAlike (.error (.crash .noSuchSlice)) r
  /-- The second breaks down. -/
  | right {r : Except Halt (α × Cursor)} : EndAlike r (.error (.crash .noSuchSlice))

/-- Parsers that end alike when they run on the same tokens. -/
class Agrees (p p' : Parser α) : Prop where
  agrees : ∀ {c c' : Cursor}, Abreast c c' → EndAlike (p c) (p' c')

/-- Sequences end alike if what comes behind alike ends of their first parts does. -/
theorem EndAlike.bind {p p' : Parser α} {f f' : α → Parser β} (h : EndAlike (p c) (p' c'))
    (hf : ∀ {a a' d d'}, p c = .ok (a, d) → p' c' = .ok (a', d') → SameBare a a' → Abreast d d' →
      EndAlike (f a d) (f' a' d')) :
    EndAlike ((p >>= f) c) ((p' >>= f') c') := by
  -- The first parts have ended alike. If both have succeeded, the second parts run from places
  -- abreast.
  cases hr : p c with
  | ok x =>
    cases hr' : p' c' with
    | ok x' =>
      rw [hr, hr'] at h
      cases h with
      | ok ha hd =>
        rw [bind_of_ok hr, bind_of_ok hr']
        exact hf hr hr' ha hd
    | error e' =>
      rw [hr, hr'] at h
      rw [bind_of_error hr']
      cases h
      exact .right
  | error e =>
    rw [bind_of_error hr]
    cases hr' : p' c' with
    | ok x' =>
      rw [hr, hr'] at h
      cases h
      exact .left
    | error e' =>
      rw [hr, hr'] at h
      rw [bind_of_error hr']
      cases h with
      | error h => exact .error h
      | left => exact .left
      | right => exact .right

end Ends

namespace Agrees

-- The search for an instance is as deep as the rule is long.
set_option synthInstance.maxSize 100000

/-! ## Sequences and branches

A test has the same outcome on both sides, so the same branch is taken. -/

/-- A sequence whose first part may keep anything of its answer. -/
theorem bind_of {b : HasPlaces α} {d : HasPlaces β} {p p' : Parser α} {f f' : α → Parser β}
    (hp : Agrees p p') (hf : ∀ a a', SameBare a a' → Agrees (f a) (f' a')) :
    Agrees (p >>= f) (p' >>= f') where
  agrees hc := (hp.agrees hc).bind fun _ _ ha hd => (hf _ _ ha).agrees hd

variable [HasPlaces α] [HasPlaces β] [HasPlaces σ]

instance (a a' : α) [h : SameBare a a'] : Agrees (pure a) (pure a') := ⟨fun hc => .ok h hc⟩

instance (e e' : Halt) [h : SameBare e e'] : Agrees (throw e : Parser α) (throw e') :=
  ⟨fun _ => .error h⟩

instance bind {p p' : Parser α} {f f' : α → Parser β} [hp : Agrees p p']
    [hf : ∀ r : BarePair α, Agrees (f r.left) (f' r.right)] : Agrees (p >>= f) (p' >>= f') where
  agrees := (bind_of hp fun _ _ ha => hf ⟨_, _, ha⟩).agrees

instance ite {b b' : Bool} [h : SameBare b b'] (p p' q q' : Parser α)
    [Agrees p p'] [Agrees q q'] :
    Agrees (if b = true then p else q) (if b' = true then p' else q') := by
  obtain rfl : b = b' := h.eq
  split <;> assumption

/-- What comes behind an answer that may be missing. -/
theorem bind_option {p p' : Parser (Option α)} {f f' : Option α → Parser β} [Agrees p p']
    (hnone : Agrees (f none) (f' none))
    (hsome : ∀ r : BarePair α, Agrees (f (some r.left)) (f' (some r.right))) :
    Agrees (p >>= f) (p' >>= f') := by
  refine @bind _ _ _ _ _ _ _ _ inferInstance fun r => ?_
  obtain ⟨h, h'⟩ | ⟨a, a', h, h', ha⟩ := r.same.none_or_some
  · rwa [h, h']
  · rw [h, h']
    exact hsome ⟨a, a', ha⟩

/-- A parser that looks at its place agrees with itself if it does at places abreast. -/
theorem bind_get {f f' : Cursor → Parser β}
    (h : ∀ {c c'}, Abreast c c' → Agrees (f c) (f' c')) :
    Agrees ((get : Parser Cursor) >>= f) ((get : Parser Cursor) >>= f') where
  agrees hc := by
    rw [get_bind, get_bind]
    exact (h hc).agrees hc

/-! ## Looking and consuming

What is looked at is the same on both sides, and so is what is consumed. At the end of the
source both find the same thing left open, or nothing. -/

instance : Agrees current current := ⟨fun hc => .ok hc.current hc⟩

instance : Agrees reachEnd reachEnd where
  agrees {c c'} hc := by
    cases hf : c.ending.fault with
    | none =>
      rw [reachEnd_run hf, reachEnd_run (hc.ending.fault_eq ▸ hf)]
      exact .ok inferInstance hc
    | some fault =>
      rw [reachEnd_of_fault hf, reachEnd_of_fault (hc.ending.fault_eq ▸ hf)]
      exact .error (hc.ending.lexical fault)

instance peek {n n' : Nat} [h : SameBare n n'] : Agrees (peek n) (peek n') := by
  obtain rfl : n = n' := h.eq
  cases n with
  | zero => exact inferInstanceAs (Agrees (throw _) (throw _))
  | succ n =>
    unfold Parser.peek
    refine bind_get fun {c c'} hc => ?_
    have htoken := hc.ending.token
    obtain ⟨h, h'⟩ | ⟨t, t', h, h', ht⟩ := (hc.getElem? (n + 1)).none_or_some
    · rw [h, h']
      infer_instance
    · rw [h, h']
      infer_instance

instance : Agrees advance advance where
  agrees {c c'} hc := by
    obtain ⟨hr, hr'⟩ | ⟨t, t', more, more', hr, hr', ht, hmore⟩ := hc.rest.nil_or_cons
    · rw [advance_of_nil hr, advance_of_nil hr']
      exact .ok hc.ending.token hc
    obtain ⟨rfl, rfl⟩ | ⟨_, _, _, _, rfl, rfl, _, _⟩ := hmore.nil_or_cons
    · -- the last token is consumed only if nothing is left open behind it
      cases hf : c.ending.fault with
      | none =>
        have h := advance_run_cons hr hf
        have h' := advance_run_cons hr' (hc.ending.fault_eq ▸ hf)
        rw [h, h']
        exact .ok ht (hc.past ht hmore h h')
      | some fault =>
        have hf' : c'.ending.fault = some fault := hc.ending.fault_eq ▸ hf
        rw [advance_of_cons hr, advance_of_cons hr', if_pos List.isEmpty_nil,
          if_pos List.isEmpty_nil, bind_of_error (reachEnd_of_fault (c := c.past t []) hf),
          bind_of_error (reachEnd_of_fault (c := c'.past t' []) hf')]
        exact .error (hc.ending.lexical fault)
    · have h := (advance_of_cons hr).trans (if_neg Bool.false_ne_true)
      have h' := (advance_of_cons hr').trans (if_neg Bool.false_ne_true)
      rw [h, h']
      exact .ok ht (hc.past ht hmore h h')

instance {n n' : Nat} [h : SameBare n n'] : Agrees (advanceBy n) (advanceBy n') := by
  obtain rfl : n = n' := h.eq
  clear h
  induction n with
  | zero => exact inferInstanceAs (Agrees (pure ()) (pure ()))
  | succ n ih => unfold advanceBy; infer_instance

instance {x x' : Complaint} [SameBare x x'] : Agrees (fail x : Parser α) (fail x') := by
  unfold fail; infer_instance

instance (w : String) : Agrees (is w) (is w) := by unfold Parser.is; infer_instance

instance : Agrees isIdent isIdent := by unfold isIdent; infer_instance

instance : Agrees isEof isEof := by unfold isEof; infer_instance

instance (w : String) : Agrees (got w) (got w) := by unfold got; infer_instance

instance (w : String) : Agrees (expect w) (expect w) := by unfold expect; infer_instance

instance : Agrees here here := by unfold here; infer_instance

instance (s s' : Position) : Agrees (spanFrom s) (spanFrom s') := by
  unfold spanFrom
  exact bind_get fun _ => inferInstance

section Tests

variable {f g h f' g' h' : Token → Bool} [∀ r : BarePair Token, SameBare (f r.left) (f' r.right)]
  [∀ r : BarePair Token, SameBare (g r.left) (g' r.right)]
  [∀ r : BarePair Token, SameBare (h r.left) (h' r.right)]

instance : Agrees (ahead f g) (ahead f' g') := by unfold ahead; infer_instance

instance : Agrees (ahead₃ f g h) (ahead₃ f' g' h') := by unfold ahead₃; infer_instance

end Tests

/-! ## Loops

Places abreast have as many tokens ahead, so loops on both sides have as many rounds. -/

section Loops

variable {next next' : Parser (Option α)} {item item' : Parser α} {test test' : Parser Bool}
  {body body' : Parser Unit} {step step' : σ → Parser (Option σ)} {s s' : σ}

instance collectUpTo [Agrees next next'] (n : Nat) :
    Agrees (collectUpTo next n) (collectUpTo next' n) := by
  induction n with
  | zero => exact inferInstanceAs (Agrees (throw _) (throw _))
  | succ n ih =>
    unfold Parser.collectUpTo
    exact bind_option inferInstance fun _ => inferInstance

instance [Agrees next next'] : Agrees (collect next) (collect next') := by
  unfold collect
  refine bind_get fun hc => ?_
  rw [hc.length_eq]
  infer_instance

/-- The same for a loop that hands a value from round to round. -/
theorem iterateUpTo (h : ∀ r : BarePair σ, Agrees (step r.left) (step' r.right)) (n : Nat)
    (hs : SameBare s s') : Agrees (iterateUpTo step n s) (iterateUpTo step' n s') := by
  induction n generalizing s s' with
  | zero => exact inferInstanceAs (Agrees (throw _) (throw _))
  | succ n ih =>
    unfold Parser.iterateUpTo
    have hstep := h ⟨s, s', hs⟩
    exact bind_option inferInstance fun r => ih r.same

instance iterate [h : ∀ r : BarePair σ, Agrees (step r.left) (step' r.right)]
    [hs : SameBare s s'] :
    Agrees (iterate step s) (iterate step' s') := by
  unfold Parser.iterate
  refine bind_get fun hc => ?_
  rw [hc.length_eq]
  exact iterateUpTo h _ hs

instance [Agrees test test'] [Agrees body body'] :
    Agrees (onceMore test body) (onceMore test' body') := by
  unfold onceMore; infer_instance

instance [Agrees test test'] [Agrees body body'] :
    Agrees (whileDo test body) (whileDo test' body') := by
  unfold whileDo; infer_instance

variable [Agrees item item']

instance (w : String) : Agrees (itemBehind w item) (itemBehind w item') := by
  unfold itemBehind; infer_instance

instance (w : String) : Agrees (itemBefore w item) (itemBefore w item') := by
  unfold itemBefore; infer_instance

instance : Agrees (commaList₁ item) (commaList₁ item') := by unfold commaList₁; infer_instance

instance (w : String) : Agrees (commaList w item) (commaList w item') := by
  unfold commaList; infer_instance

end Loops

/-! ## Skipping

Here parsers look at all the tokens ahead of them at once, and a scan tells them how many to
consume. -/

instance : Agrees closingBracket closingBracket := by
  unfold closingBracket
  refine bind_get fun hc => ?_
  rw [hc.rest.congr (matching_bare 0)]
  split <;> infer_instance

instance : Agrees closingAngle closingAngle := by
  unfold closingAngle
  refine bind_get fun hc => ?_
  rw [hc.rest.congr (matchingAngle_bare 0 0)]
  split <;> infer_instance

instance : Agrees skipGroup skipGroup := by
  unfold skipGroup
  refine bind_get fun hc => ?_
  rw [hc.rest.congr scanGroup?_bare]
  split
  · infer_instance
  · infer_instance
  · infer_instance
  · refine bind_get fun hc => ?_
    rw [hc.length_eq]
    infer_instance

instance : Agrees skipTypeArguments skipTypeArguments := by
  unfold skipTypeArguments
  exact bind_option inferInstance fun _ => inferInstance

instance : Agrees atBreak atBreak := by
  unfold atBreak
  refine bind_get fun {c c'} hc => ?_
  have hcurrent := hc.current
  have hpair : SameBare (c.last, c.current) (c'.last, c'.current) :=
    have := hc.last
    inferInstance
  -- Whether the line end counts is asked of the token in front of it and the one behind it.
  have hacross : continuesAcross c.last c.current = continuesAcross c'.last c'.current :=
    hpair.congr (f := fun p => continuesAcross p.1 p.2) fun p => continuesAcross_bare p.1 p.2
  rw [hacross]
  infer_instance

instance {first first' : Bool} [SameBare first first'] :
    Agrees (statementRound first) (statementRound first') := by
  unfold statementRound; infer_instance

instance : Agrees skipStatement skipStatement := by unfold skipStatement; infer_instance

instance {first first' : Bool} [SameBare first first'] :
    Agrees (expressionRound first) (expressionRound first') := by
  unfold expressionRound; infer_instance

instance : Agrees skipExpression skipExpression := by unfold skipExpression; infer_instance

end Agrees

end Parser

end Exemplar
