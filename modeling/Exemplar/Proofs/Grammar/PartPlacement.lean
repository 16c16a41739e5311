import Exemplar.Proofs.Grammar.CommonTokens

/-!
# A source inside a larger one

A source can be part of a larger one. Its tokens then stand at other places, and other tokens
come behind them: nothing at all, or a semicolon, or the word `export` on a new line. A parser
that runs on the tokens of the part cannot tell the difference, unless it comes to the end of
the part, or looks beyond it.

`Cursor.Placed` relates a place in the part to the same place in the whole. It is a relation
between places with the same tokens ahead (`Cursor.Alongside`), so a run on the part is
simulated by one on the whole (`Follows`) as far as the rules for all such relations go. What is
special here is the word `export`. A rule may ask for a name, and what comes behind the part is
one. So beside the scopes of all simulations there is a scope for this relation, `Scope.free`: a
run from anywhere but the end of a part before `export`.

Two things are asked of the part. Each bracket that it opens has to be closed in it, or looking
for the closing one would go on in what comes behind. And if a word comes behind it, its last
token has to be one that no expression goes on from; that also keeps a rule from taking the word
for the second of two tokens that it looks at.
-/

namespace Exemplar

open Exemplar.Brackets

/-! ## What comes behind a part -/

namespace Token

/-- A semicolon on a new line. -/
structure IsSemicolon (t : Token) : Prop where
  kind : t.kind = .punct
  text : t.text = Text.ofString ";"
  newline : t.newlineBefore = true

/-- The word `export` on a new line. -/
structure IsExport (t : Token) : Prop where
  kind : t.kind = .ident
  text : t.text = Text.ofString "export"
  newline : t.newlineBefore = true

theorem IsSemicolon.word_eq {t : Token} (h : t.IsSemicolon) :
    t.word = ⟨.punct, Text.ofString ";", true⟩ := by
  rw [word, h.kind, h.text, h.newline]

theorem IsExport.word_eq {t : Token} (h : t.IsExport) :
    t.word = ⟨.ident, Text.ofString "export", true⟩ := by
  rw [word, h.kind, h.text, h.newline]

/-- A token that ends an expression: a literal or a closing bracket. -/
def IsFinal (t : Token) : Prop :=
  t.kind ∈ [.string, .number, .template, .regex] ∨ t.isCloser = true

instance (t : Token) : Decidable t.IsFinal := inferInstanceAs (Decidable (_ ∨ _))

/-- A token as it stands in a larger source, where so many bytes come before. -/
structure Moved (n : Nat) (t u : Token) : Prop where
  same : SameBare t u
  start : u.start.offset = t.start.offset + n
  stop : u.stop.offset = t.stop.offset + n

end Token

theorem sameBare_of_moved {n : Nat} {l l' : List Token} (h : List.Forall₂ (Token.Moved n) l l') :
    SameBare l l' := by
  induction h with
  | nil => exact inferInstance
  | cons ht _ ih =>
    have := ht.same
    exact inferInstance

/-- Where a part stands in a larger source. -/
structure Placement where
  /-- The number of bytes before it. -/
  shift : Nat
  /-- The tokens behind it. -/
  tail : List Token

namespace Placement

/-- The word `export` comes behind the part. -/
def Exports (e : Placement) : Prop := ∃ s more, e.tail = s :: more ∧ s.IsExport

/-- What a part has to be like for what comes behind it. -/
structure Fits (e : Placement) (tokens : List Token) : Prop where
  /-- Nothing comes behind it, or a semicolon, or `export`. -/
  next : e.tail = [] ∨ ∃ s more, e.tail = s :: more ∧ (s.IsSemicolon ∨ s.IsExport)
  /-- No parenthesis that it leaves open is closed behind it. -/
  closed : ∀ {t : Token} {more : List Token}, t :: more <:+ tokens → t.is "(" = true →
    matching 0 (t :: more) = none → matching 0 (t :: more ++ e.tail) = none
  /-- No angle bracket that it leaves open is closed behind it. -/
  angles : ∀ {t : Token} {more : List Token}, t :: more <:+ tokens → t.is "<" = true →
    matchingAngle 0 0 (t :: more) = .ranOut →
      ∀ i, matchingAngle 0 0 (t :: more ++ e.tail) ≠ .found i
  /-- Its last token ends an expression. -/
  final : e.Exports → ∃ t, tokens.getLast? = some t ∧ t.IsFinal

/-- What is seen at the end of the part: the end of the source, or what comes behind. -/
inductive Behind (e : Placement) : Token → Prop
  /-- The end of the source. -/
  | nothing {t : Token} (ht : e.tail = []) (hk : t.kind = .eof) (hx : t.text = []) : Behind e t
  /-- A semicolon. -/
  | semicolon {t : Token} {more : List Token} (ht : e.tail = t :: more) (h : t.IsSemicolon) :
    Behind e t
  /-- The word `export`. -/
  | exported {t : Token} {more : List Token} (ht : e.tail = t :: more)
      (h : t.IsExport) : Behind e t

/-- The words that are seen at the end of a part that `export` does not come behind. -/
def ends : List Word := [.eof false, .eof true, ⟨.punct, Text.ofString ";", true⟩]

/-- The words that are seen at the end of a part. -/
def words : List Word := ⟨.ident, Text.ofString "export", true⟩ :: ends

theorem eof_mem_ends (b : Bool) : .eof b ∈ ends := by cases b <;> decide

variable {e : Placement} {t : Token}

theorem Behind.word_mem_ends (h : e.Behind t) (hx : ¬e.Exports) : t.word ∈ ends := by
  cases h with
  | nothing _ hk ht =>
    rw [Token.word, hk, ht]
    exact eof_mem_ends _
  | semicolon _ h => rw [h.word_eq]; decide
  | exported ht h => exact absurd ⟨_, _, ht, h⟩ hx

theorem Behind.word_mem (h : e.Behind t) : t.word ∈ words := by
  by_cases hx : e.Exports
  · cases h with
    | nothing ht => obtain ⟨_, _, hcons, -⟩ := hx; rw [ht] at hcons; cases hcons
    | semicolon ht h =>
      obtain ⟨_, _, hcons, hs⟩ := hx
      rw [ht] at hcons
      obtain ⟨rfl, -⟩ := List.cons.inj hcons
      cases h.kind.symm.trans hs.kind
    | exported _ h => rw [h.word_eq]; decide
  · exact List.mem_cons_of_mem _ (h.word_mem_ends hx)

end Placement

/-! ## Places in the part and in the whole -/

namespace Cursor

variable {e : Placement} {c c' d : Cursor}

/-- `c'` stands in the whole where `c` stands in the part. -/
structure Placed (e : Placement) (c c' : Cursor) : Prop where
  visited : c.Visited
  visited' : c'.Visited
  fits : e.Fits (TokenStream.lex c.source).tokens
  /-- Nothing is left open in the part. -/
  clean : c.ending.Clean
  /-- Nothing is left open in the whole. -/
  clean' : c'.ending.Clean
  /-- The tokens ahead are those of the part, and what comes behind. -/
  rest : ∃ front, c'.rest = front ++ e.tail ∧ List.Forall₂ (Token.Moved e.shift) c.rest front
  /-- The tokens consumed last are of the same kind and text. -/
  last : c'.last.map (fun t => (t.kind, t.text)) = c.last.map (fun t => (t.kind, t.text))
  lastStop : c'.lastStop.offset = c.lastStop.offset + e.shift
  /-- The whole has room for the part. -/
  room : c.source.byteSize + e.shift ≤ c'.source.byteSize

/-- The last token is consumed last, or still ahead. -/
theorem Reaches.getLast? (h : c.Reaches c') :
    (c'.last.toList ++ c'.rest).getLast? = (c.last.toList ++ c.rest).getLast? := by
  induction h with
  | refl => rfl
  | @past c _ t more hr _ ih =>
    rw [ih, hr]
    show (t :: more).getLast? = _
    rw [List.getLast?_append]
    cases h : (t :: more).getLast? with
    | none => exact absurd (List.getLast?_eq_none_iff.1 h) (List.cons_ne_nil _ _)
    | some u => rfl

theorem Visited.getLast? (hc : c.Visited) :
    (c.last.toList ++ c.rest).getLast? = (TokenStream.lex c.source).tokens.getLast? :=
  hc.reaches.getLast?

namespace Placed

/-- **Both consume a token.** -/
theorem past (h : Placed e c c') {t : Token} {more : List Token} (hr : c.rest = t :: more) :
    ∃ t' more', c'.rest = t' :: more' ∧ t.Moved e.shift t' ∧
      Placed e (c.past t more) (c'.past t' more') := by
  obtain ⟨front, hr', hfront⟩ := h.rest
  rw [hr] at hfront
  cases hfront with
  | @cons _ t' _ front ht hmore =>
    refine ⟨t', front ++ e.tail, hr', ht, ⟨h.visited.past h.clean hr,
      h.visited'.past h.clean' hr', h.fits, h.clean, h.clean',
      ⟨front, rfl, hmore⟩, ?_, ht.stop, h.room⟩⟩
    · obtain ⟨s, hs⟩ := ht.same.exists_span
      rw [hs]; rfl

/-- At the end of the part, what comes behind is left. -/
theorem rest_of_nil (h : Placed e c c') (hr : c.rest = []) : c'.rest = e.tail := by
  obtain ⟨front, hr', hfront⟩ := h.rest
  rw [hr] at hfront
  cases hfront
  exact hr'

/-- At the end of the part, the other sees what comes behind. -/
theorem current_of_nil (h : Placed e c c') (hr : c.rest = []) : e.Behind c'.current := by
  have hr' := h.rest_of_nil hr
  rcases h.fits.next with ht | ⟨s, more, ht, hs | hs⟩
  · rw [ht] at hr'
    rw [Cursor.current_of_nil hr']
    exact .nothing ht h.clean'.kind h.clean'.text
  · rw [ht] at hr'
    rw [current_of_cons hr']
    exact .semicolon ht hs
  · rw [ht] at hr'
    rw [current_of_cons hr']
    exact .exported ht hs

/-- Where `export` comes next, the token consumed last ends an expression. -/
theorem last_isFinal (h : Placed e c c') (hx : e.Exports) (hr : c.rest = []) :
    ∃ t, c.last = some t ∧ t.IsFinal := by
  obtain ⟨t, ht, hfinal⟩ := h.fits.final hx
  rw [← h.visited.getLast?, hr, List.append_nil] at ht
  cases hl : c.last with
  | none => rw [hl] at ht; cases ht
  | some u => rw [hl] at ht; cases ht; exact ⟨u, rfl, hfinal⟩

/-- Where only one token is left before `export`, it ends an expression. -/
theorem head_isFinal (h : Placed e c c') (hx : e.Exports) {t : Token} (hr : c.rest = [t]) :
    t.IsFinal := by
  obtain ⟨u, hu, hfinal⟩ := h.fits.final hx
  rw [← h.visited.getLast?, hr] at hu
  rw [List.getLast?_concat] at hu
  cases hu
  exact hfinal

end Placed

/-- **A part and the whole have the same tokens ahead**, and what comes behind the part starts
with one of the words named above. -/
instance : Alongside Placement.words (Placed e) where
  eof b := List.mem_cons_of_mem _ (Placement.eof_mem_ends b)
  visited h := h.visited
  clean h := h.clean
  clean' h := h.clean'
  past h hr := by
    obtain ⟨t', more', hr', ht, hpast⟩ := h.past hr
    exact ⟨t', more', hr', ht.same, hpast⟩
  word_mem h hr := (h.current_of_nil hr).word_mem

namespace Placed

/-- The tokens ahead are those of the part, and what comes behind, apart from places. -/
theorem sameBare_rest (h : Placed e c c') : SameBare (c.rest ++ e.tail) c'.rest := by
  obtain ⟨front, hr, hfront⟩ := h.rest
  rw [hr]
  exact (sameBare_of_moved hfront).append inferInstance

/-- **A closing bracket is found at the same place**, or on neither side. If it is in the part,
the scan finds it before it comes to the end; and if it is not, the part asks that it is not
behind the part either. -/
theorem matching_eq (h : Placed e c c') (ho : c.current.is "(" = true) :
    matching 0 c'.rest = matching 0 c.rest := by
  rw [← h.sameBare_rest.congr (matching_bare 0)]
  cases hm : matching 0 c.rest with
  | some i => exact matching_append_of_some hm
  | none =>
    obtain ⟨t, more, hcons, ht⟩ := Cursor.exists_of_is h.clean ho
    rw [hcons] at hm ⊢
    exact h.fits.closed (hcons ▸ h.visited.suffix) ht hm

/-- **A closing angle bracket is found at the same place**, or on neither side. -/
theorem matchingAngle_eq (h : Placed e c c') (hl : c.current.is "<" = true) :
    (matchingAngle 0 0 c'.rest).found? = (matchingAngle 0 0 c.rest).found? := by
  rw [← h.sameBare_rest.congr (matchingAngle_bare 0 0)]
  by_cases hm : matchingAngle 0 0 c.rest = .ranOut
  · obtain ⟨t, more, hcons, ht⟩ := Cursor.exists_of_is h.clean hl
    rw [hcons] at hm ⊢
    have hnot := h.fits.angles (hcons ▸ h.visited.suffix) ht hm
    rw [hm]
    cases hbehind : matchingAngle 0 0 (t :: more ++ e.tail) with
    | found i => exact absurd hbehind (hnot i)
    | blocked => rfl
    | ranOut => rfl
  · rw [matchingAngle_append hm]

end Placed

end Cursor

/-! ## Following a run -/

namespace Parser

open Cursor (Placed)

variable {α : Type} [HasPlaces α] {e : Placement} {c c' d : Cursor}

/-- **A run on a part is followed by one on the whole**, if it is in the scope: both stop at the
same place, with the same answer apart from places. -/
abbrev Follows (e : Placement) (k : Scope) (p p' : Parser α) : Prop :=
  Simulates (Placed e) (Placed e) k p p'

/-- A run from anywhere but the end of a part before `export`. -/
def Scope.free (e : Placement) : Scope := fun c _ => e.Exports → c.rest ≠ []

instance : Scope.Starts (.free e) := ⟨id⟩

namespace Follows

variable {S : Cursor → Cursor → Prop}

instance (priority := low) free_of_anywhere (p p' : Parser α)
    [h : Simulates (Placed e) S .anywhere p p'] : Simulates (Placed e) S (.free e) p p' where
  endsLike hc hp _ := h.endsLike hc hp trivial

instance (priority := low) token_of_free (p p' : Parser α)
    [h : Simulates (Placed e) S (.free e) p p'] : Simulates (Placed e) S .token p p' where
  endsLike hc hp hr := h.endsLike hc hp fun _ => hr

/-- At the end of a part that `export` does not come behind, neither side passes a test that
fails at the end of a source and on a semicolon. -/
theorem inert_of_nil (hc : Placed e c c') (hr : c.rest = []) (hx : ¬e.Exports) (f : Token → Bool)
    [hf : Inert Placement.ends f] : f c.current = false ∧ f c'.current = false := by
  constructor
  · rw [Cursor.current_of_nil hr, hf.blind c.ending.token, hc.clean.word_eq]
    exact hf.eq_false _ (Placement.eof_mem_ends _)
  · rw [hf.blind c'.current]
    exact hf.eq_false _ ((hc.current_of_nil hr).word_mem_ends hx)

instance : Inert Placement.ends (·.isIdent) := {}

end Follows

/-! ### Two tests in a row -/

/-- A pair of tests, of which the second can be asked beyond a part: the first fails at the end
of a source, on a semicolon, and on a token that ends an expression, and the second does not
tell a semicolon from the end. Before `export` the last token of the part ends an expression, so
the first test has failed before the second one comes to the word. -/
class LooksAhead (f g : Token → Bool) : Prop where
  first : Inert Placement.ends f := by exact {}
  literal : ∀ t, t.kind ∈ [Token.Kind.string, .number, .template, .regex] → f t = false := by
    rintro ⟨_, _, _, _⟩ h
    simp only [List.mem_cons, List.not_mem_nil, or_false] at h
    rcases h with rfl | rfl | rfl | rfl <;> rfl
  closer : ∀ w ∈ [")", "]", "\x7d"], ∀ s n, f ⟨.punct, Text.ofString w, s, n⟩ = false := by
    intro w h
    simp only [List.mem_cons, List.not_mem_nil, or_false] at h
    rcases h with rfl | rfl | rfl <;> intros <;> rfl
  second : Blunt Placement.ends g := by exact {}

theorem LooksAhead.of_isFinal {f : Token → Bool} (g : Token → Bool) [LooksAhead f g] {t : Token}
    (h : t.IsFinal) : f t = false := by
  rcases h with h | h
  · exact literal g t h
  · obtain ⟨kind, text, s, n⟩ := t
    simp only [Token.isCloser, Bool.and_eq_true, beq_iff_eq, Bool.or_eq_true] at h
    obtain ⟨rfl, (rfl | rfl) | rfl⟩ := h <;> exact closer g _ (by decide) s n

namespace Follows

/-- What the second of two tests sees when the first is passed. -/
theorem second_of_ahead (hc : Placed e c c') (f g : Token → Bool)
    [h : LooksAhead f g] {t : Token}
    {more : List Token} (hr : c.rest = t :: more) (hf : f t = true) :
    g c.second = g c'.second := by
  obtain ⟨t', more', hr', -, hpast⟩ := hc.past hr
  rw [Cursor.second_of_cons hr, Cursor.second_of_cons hr']
  have hg := h.second
  by_cases hmore : more = []
  · subst hmore
    have hx : ¬e.Exports := fun hx => by
      rw [LooksAhead.of_isFinal (f := f) g (hc.head_isFinal hx hr)] at hf
      cases hf
    rw [Cursor.current_of_nil (c := c.past t []) rfl, Cursor.past_ending,
      hg.blind c.ending.token, hg.blind (c'.past t' more').current, hc.clean.word_eq]
    exact hg.alike _ (Placement.eof_mem_ends _) _ ((hpast.current_of_nil rfl).word_mem_ends hx)
  · exact hg.blind.congr (Cursor.Alongside.current hpast hmore)

/-- Two tests on the current token and the one behind it are passed on both sides or on
neither. -/
theorem ahead_eq (hc : Placed e c c') (hfree : e.Exports → c.rest ≠ []) (f g : Token → Bool)
    [h : LooksAhead f g] : (f c.current && g c.second) = (f c'.current && g c'.second) := by
  have hf := h.first
  by_cases hr : c.rest = []
  · have hnone := inert_of_nil hc hr (fun hx => hfree hx hr) f
    rw [hnone.1, hnone.2, Bool.false_and, Bool.false_and]
  · obtain ⟨t, more, hcons⟩ := List.exists_cons_of_ne_nil hr
    rw [← hf.blind.congr (Cursor.Alongside.current hc hr)]
    cases hpass : f c.current with
    | false => rfl
    | true =>
      rw [Cursor.current_of_cons hcons] at hpass
      rw [second_of_ahead hc f g hcons hpass]

instance ahead_free (f g : Token → Bool) [LooksAhead f g] :
    Follows e (.free e) (ahead f g) (ahead f g) where
  endsLike {c c' d b} hc h hfree := by
    rw [ahead_run hc.clean] at h
    cases h
    exact ⟨_, c', ahead_run hc.clean' f g, ⟨ahead_eq hc hfree f g⟩, hc⟩

instance (f g h : Token → Bool) [LooksAhead f g] [OnTokens g] [Inert Placement.words h] :
    Follows e .token (ahead₃ f g h) (ahead₃ f g h) where
  endsLike {c c' d b} hc hp hr := by
    refine Simulates.ahead₃_of hc
      (Simulates.ahead₃_eq f g h (ahead_eq hc (fun _ => hr) f g) ?_) hp
    intro _ hg
    obtain ⟨t, u, more, hcons⟩ := Cursor.two_of_second hc.clean hr hg
    exact Cursor.Alongside.look_eq hc h (i := 2) (by rw [hcons]; simp)

end Follows

end Parser

end Exemplar
