import Exemplar.Proofs.Grammar.StatementEnds

/-!
# Where a statement starts

A statement does not ask what comes before it: neither which token that is, nor whether a line
ends there. So the first statement of a source is read alike where the source is the last part
of a larger one, although its first token may be on a line of its own there and in the source
alone it is not.

Three relations between places say how much is known. At the beginning the two see the same
tokens, but for the line before the first one (`Cursor.Fresh`). Once a token is consumed they
are at the same place of the last part (`Cursor.Last`). In between, behind decorators or
modifiers that may have been left out, it is one of the two (`Cursor.Near`). A rule for a
statement leads from the first relation to the second (`Opens`): what it asks before it consumes
a token is which token that is and what comes next, and both are the same on the two sides. From
the second relation everything is followed as in any part, and no token behind the part can get
in the way.
-/

namespace Exemplar

open Exemplar.Tree Exemplar.Brackets

/-- A part that nothing comes behind is like any source. -/
theorem Placement.fits_of_tail_eq_nil {e : Placement} (h : e.tail = []) (tokens : List Token) :
    e.Fits tokens where
  next := .inl h
  closed _ _ hnone := by rw [h, List.append_nil]; exact hnone
  angles _ _ hran i := by rw [h, List.append_nil, hran]; nofun
  final := fun ⟨_, _, hs, _⟩ => by rw [h] at hs; cases hs

/-- Nothing is exported behind such a part. -/
theorem Placement.not_exports {e : Placement} (h : e.tail = []) : ¬e.Exports :=
  fun ⟨_, _, hs, _⟩ => by rw [h] at hs; cases hs

namespace Cursor

variable {e : Placement} {c c' d d' : Cursor}

/-- `c'` stands in the whole where `c` stands in the part, before a token of which may differ
whether a line ends before it. The part is the last one. -/
structure Fresh (e : Placement) (c c' : Cursor) : Prop where
  visited : c.Visited
  visited' : c'.Visited
  tail : e.tail = []
  clean : c.ending.Clean
  clean' : c'.ending.Clean
  rest : ∃ t more newline t' more', c.rest = t :: more ∧ c'.rest = t' :: more' ∧
    Token.Moved e.shift { t with newlineBefore := newline } t' ∧
    List.Forall₂ (Token.Moved e.shift) more more'
  room : c.source.byteSize + e.shift ≤ c'.source.byteSize

/-- The same place of the last part. -/
structure Last (e : Placement) (c c' : Cursor) : Prop where
  tail : e.tail = []
  placed : Placed e c c'

/-- Before the first token, or behind it. -/
def Near (e : Placement) (c c' : Cursor) : Prop := Fresh e c c' ∨ Last e c c'

/-- Nothing is behind the last part, so no semicolon is. -/
theorem Left.last (h : Left e d d') (ht : e.tail = []) : Last e d d' := by
  rcases h with h | ⟨-, s, -, hs⟩
  · exact ⟨ht, h⟩
  · rw [ht] at hs
    cases hs

namespace Fresh

/-- **Once the first token is consumed, both are at the same place.** -/
theorem past (h : Fresh e c c') : ∃ t more t' more', c.rest = t :: more ∧ c'.rest = t' :: more' ∧
    (∃ span newline, t' = { t with span := span, newlineBefore := newline }) ∧
      Last e (c.past t more) (c'.past t' more') := by
  obtain ⟨t, more, newline, t', more', hr, hr', ht, hmore⟩ := h.rest
  obtain ⟨span, hs⟩ := ht.same.exists_span
  refine ⟨t, more, t', more', hr, hr', ⟨span, newline, hs⟩, h.tail, ?_⟩
  refine ⟨h.visited.past h.clean hr, h.visited'.past h.clean' hr',
    Placement.fits_of_tail_eq_nil h.tail _, h.clean, h.clean',
    ⟨more', by rw [h.tail, List.append_nil]; rfl, hmore⟩, ?_, ht.stop, h.room⟩
  rw [hs]
  rfl

/-- There is a first token. -/
theorem rest_ne_nil (h : Fresh e c c') : c.rest ≠ [] := by
  obtain ⟨t, more, -, -, -, hr, -⟩ := h.rest
  rw [hr]
  exact List.cons_ne_nil _ _

/-- What does not ask for the line is the same on both sides. -/
theorem current (h : Fresh e c c') {β : Type} (f : Token → β)
    (hf : ∀ t span newline, f { t with span := span, newlineBefore := newline } = f t) :
    f c.current = f c'.current := by
  obtain ⟨t, more, t', more', hr, hr', ⟨span, newline, rfl⟩, -⟩ := h.past
  rw [current_of_cons hr, current_of_cons hr']
  exact (hf t span newline).symm

/-- Its word is the same on both sides. -/
theorem is_eq (h : Fresh e c c') (w : String) : c.current.is w = c'.current.is w :=
  h.current (·.is w) fun _ _ _ => rfl

/-- And it is not the end. -/
theorem isEof_eq_false (h : Fresh e c c') : c.current.isEof = false := by
  rw [h.visited.current_isEof]
  exact List.isEmpty_eq_false_iff.2 h.rest_ne_nil

end Fresh

/-- In either case the place was reached by consuming tokens. -/
theorem Near.visited (h : Near e c c') : c.Visited := h.elim (·.visited) (·.placed.visited)

/-- The whole has as many tokens ahead at least. -/
theorem Near.length_le (h : Near e c c') : c.rest.length ≤ c'.rest.length := by
  rcases h with h | h
  · obtain ⟨t, more, t', more', hr, hr', -, hpast⟩ := h.past
    rw [hr, hr', List.length_cons, List.length_cons]
    exact Nat.succ_le_succ (Alongside.length_le hpast.placed)
  · exact Alongside.length_le h.placed

/-- The text of the next token is the same; at the end of both sources it is empty. -/
theorem Near.text_eq (h : Near e c c') : c.current.text = c'.current.text := by
  rcases h with h | h
  · exact h.current (·.text) fun _ _ _ => rfl
  · by_cases hr : c.rest = []
    · have hr' := h.placed.rest_of_nil hr
      rw [h.tail] at hr'
      rw [current_of_nil hr, current_of_nil hr', h.placed.clean.text, h.placed.clean'.text]
    · exact (Alongside.current h.placed hr).congr (f := Token.text) fun _ => rfl

end Cursor

namespace Parser

open Cursor (Placed Left Fresh Last Near)

variable {α β : Type} [HasPlaces α] [HasPlaces β] {S : Cursor → Cursor → Prop} {e : Placement}
  {k : Scope} {c c' d : Cursor}

-- The search for an instance is as deep as the rule is long.
set_option synthInstance.maxSize 100000

/-- **A run of a statement from where it starts is followed in the whole.** -/
abbrev Opens (e : Placement) (p p' : Parser α) : Prop :=
  Simulates (Fresh e) (Last e) .anywhere p p'

/-- A decorator behind its sign. -/
def decorator : Parser Unit := do
  let _ ← entityName
  if ← is "(" then skipGroup

theorem skipDecorators_eq : skipDecorators = whileDo (got "@") decorator := rfl

/-- A statement that starts at a place, behind its decorators. -/
def adorned (start : Position) : Parser (Option Statement) := do
  let first ← current
  return some (← statementFrom start first.text)

namespace Opens

/-! ## Behind the first token

The rules for the relations are instances, so a statement is taken apart by its structure: as
long as nothing is consumed the places are fresh, and from the first token on all is known from
`Ends`, whose two outcomes are one here. -/

/-- In the last part everything is followed, for nothing comes behind it. -/
instance (priority := low) last_of_ends (p p' : Parser α) [h : Ends e (.free e) p p'] :
    Simulates (Last e) (Last e) k p p' where
  endsLike hc hp _ := by
    obtain ⟨a', d', h', ha, hd⟩ :=
      h.endsLike hc.placed hp fun hx => absurd hx (e.not_exports hc.tail)
    exact ⟨a', d', h', ha, hd.last hc.tail⟩

/-- What stops at the same place stops near it. -/
instance (priority := low) near_of_last (p p' : Parser α)
    [h : Simulates (Last e) (Last e) k p p'] :
    Simulates (Last e) (Near e) k p p' where
  endsLike hc hp hd := by
    obtain ⟨a', d', h', ha, hlast⟩ := h.endsLike hc hp hd
    exact ⟨a', d', h', ha, .inr hlast⟩

/-- And so does what consumes nothing. -/
instance (priority := low) near_of_fresh (p p' : Parser α)
    [h : Simulates (Fresh e) (Fresh e) k p p'] : Simulates (Fresh e) (Near e) k p p' where
  endsLike hc hp hd := by
    obtain ⟨a', d', h', ha, hfresh⟩ := h.endsLike hc hp hd
    exact ⟨a', d', h', ha, .inl hfresh⟩

/-- What is followed before the first token and behind it is followed in between. -/
instance of_near (p p' : Parser α) [hfresh : Simulates (Fresh e) S k p p']
    [hlast : Simulates (Last e) S k p p'] : Simulates (Near e) S k p p' where
  endsLike hc hp hd := hc.elim (fun hc => hfresh.endsLike hc hp hd) fun hc =>
    hlast.endsLike hc hp hd

/-! ## Looking at the first token

What is asked of it is asked of its kind and text, and of the token behind it. -/

instance (w : String) : Simulates (Fresh e) (Fresh e) k (is w) (is w) where
  endsLike {c c' d b} hc h _ := by
    cases h
    exact ⟨_, c', rfl, ⟨hc.is_eq w⟩, hc⟩

/-- The second token is the same on both sides, and so is the end in its place. -/
theorem second_eq (hc : Fresh e c c') (g : Token → Bool) [hg : Blunt Placement.ends g] :
    g c.second = g c'.second := by
  obtain ⟨t, more, t', more', hr, hr', -, hlast⟩ := hc.past
  rw [Cursor.second_of_cons hr, Cursor.second_of_cons hr']
  -- If there is no second token, the end stands in its place on both sides, which may differ in
  -- the line only.
  by_cases hmore : more = []
  · subst hmore
    have hmem := (hlast.placed.current_of_nil rfl).word_mem_ends (e.not_exports hc.tail)
    rw [Cursor.current_of_nil (c := c.past t []) rfl, Cursor.past_ending,
      hg.blind c.ending.token, hg.blind (c'.past t' more').current, hc.clean.word_eq]
    exact hg.alike _ (Placement.eof_mem_ends _) _ hmem
  · exact hg.blind.congr (Cursor.Alongside.current hlast.placed hmore)

/-- Two tests on the first token and the one behind it are passed on both sides or on neither. -/
theorem ahead_eq (hc : Fresh e c c') (w : String) (g : Token → Bool)
    [h : LooksAhead (·.is w) g] :
    (c.current.is w && g c.second) = (c'.current.is w && g c'.second) := by
  have hg := h.second
  rw [hc.is_eq w, second_eq hc g]

instance (w : String) (g : Token → Bool) [LooksAhead (·.is w) g] :
    Simulates (Fresh e) (Fresh e) k (ahead (·.is w) g) (ahead (·.is w) g) where
  endsLike {c c' d b} hc h _ := by
    rw [ahead_run hc.clean] at h
    cases h
    exact ⟨_, c', ahead_run hc.clean' _ g, ⟨ahead_eq hc w g⟩, hc⟩

/-! ## Consuming the first token

A rule that starts by consuming a token is followed before the token as soon as its rest is
followed behind it. -/

/-- Both consume the first token, and the texts are the same. -/
theorem advance_fresh {t : Token} (hc : Fresh e c c') (h : advance c = .ok (t, d)) :
    ∃ t' d', advance c' = .ok (t', d') ∧ SameBare t.text t'.text ∧ Last e d d' := by
  obtain ⟨t₀, more, t', more', hr, hr', ⟨span, newline, ht⟩, hlast⟩ := hc.past
  obtain ⟨more₁, hr₁, rfl⟩ := advance_inv hc.rest_ne_nil h
  rw [hr] at hr₁
  cases hr₁
  exact ⟨t', _, advance_run_cons hr' hc.clean'.fault, by rw [ht]; infer_instance, hlast⟩

instance (w : String) : Opens e (expect w) (expect w) where
  endsLike {c c' d u} hc h _ := by
    obtain ⟨hw, t, ht⟩ := expect_eq_ok h
    obtain ⟨t', d', ht', -, hd⟩ := advance_fresh hc ht
    refine ⟨(), d', ?_, inferInstance, hd⟩
    rw [expect_run, ← hc.is_eq w, if_pos hw, bind_of_ok ht']
    rfl

section Sequences

variable {p p' q q' : Parser β} {f f' : α → Parser β}

/-- What comes behind the first token is followed as in any part. -/
instance bind_last {p p' : Parser α} [hp : Opens e p p']
    [hf : ∀ r : BarePair α, Simulates (Last e) S .anywhere (f r.left) (f' r.right)] :
    Simulates (Fresh e) S .anywhere (p >>= f) (p' >>= f') where
  endsLike hc h _ := EndsLike.bind h (fun h₁ _ => hp.endsLike hc h₁ trivial)
    fun ha hc₁ _ h₂ => (hf ⟨_, _, ha⟩).endsLike hc₁ h₂ trivial

/-- What is consumed first is of no interest. -/
instance advance_bind [hp : Simulates (Last e) S .anywhere p p'] :
    Simulates (Fresh e) S .anywhere (advance >>= fun _ => p) (advance >>= fun _ => p') where
  endsLike {c c' d a} hc h _ := by
    obtain ⟨t, c₁, h₁, h₂⟩ := bind_eq_ok.1 h
    obtain ⟨t', c₁', h₁', -, hc₁⟩ := advance_fresh hc h₁
    rw [EndsLike, bind_of_ok h₁']
    exact hp.endsLike hc₁ h₂ trivial

/-- Where a word may come first, both consume it, or neither does. -/
instance got_bind (w : String) [hp : Simulates (Last e) S .anywhere p p']
    [hq : Simulates (Fresh e) S .anywhere q q'] :
    Simulates (Fresh e) S .anywhere (got w >>= fun b => if b = true then p else q)
      (got w >>= fun b => if b = true then p' else q') where
  endsLike {c c' d a} hc h _ := by
    obtain ⟨b, c₁, h₁, h₂⟩ := bind_eq_ok.1 h
    obtain ⟨hb, ⟨rfl, rfl⟩ | ⟨rfl, t, ht⟩⟩ := got_eq_ok h₁
    · have h₁' : got w c' = .ok (false, c') := by rw [got_run, ← hc.is_eq w, ← hb]; rfl
      rw [EndsLike, bind_of_ok h₁']
      exact hq.endsLike hc h₂ trivial
    · obtain ⟨t', c₁', ht', -, hc₁⟩ := advance_fresh hc ht
      have h₁' : got w c' = .ok (true, c₁') := by
        rw [got_run, ← hc.is_eq w, ← hb, if_pos rfl, bind_of_ok ht']
        rfl
      rw [EndsLike, bind_of_ok h₁']
      exact hp.endsLike hc₁ h₂ trivial

end Sequences

/-! ## Declarations -/

section Declarations

variable {start start' : Position} {ms ms' : Modifiers} [SameBare ms ms']

instance : Opens e (interfaceDecl start ms) (interfaceDecl start' ms') := by
  unfold interfaceDecl; infer_instance

instance : Opens e (classDecl start ms) (classDecl start' ms') := by
  unfold classDecl; infer_instance

instance : Opens e (enumDecl start ms) (enumDecl start' ms') := by
  unfold enumDecl; infer_instance

instance : Opens e (functionDecl start ms) (functionDecl start' ms') := by
  unfold functionDecl; infer_instance

instance : Opens e (typeAlias start ms) (typeAlias start' ms') := by
  unfold typeAlias; infer_instance

instance : Opens e (variableDecl start ms) (variableDecl start' ms') where
  endsLike {c c' d s} hc h _ := by
    unfold variableDecl at h ⊢
    obtain ⟨t, c₁, h₁, h₂⟩ := bind_eq_ok.1 h
    obtain ⟨t', c₁', h₁', ht, hc₁⟩ := advance_fresh hc h₁
    rw [EndsLike, bind_of_ok h₁']
    exact Simulates.endsLike (R := Last e) (k := .anywhere) hc₁ h₂ trivial

end Declarations

/-! ## Skipped statements -/

/-- **A group that the first token opens is skipped on both sides.** Whether a line ends before
that token makes no difference to where the group ends, and nothing comes behind the part. -/
instance : Opens e skipGroup skipGroup where
  endsLike {c c' d u} hc h _ := by
    obtain ⟨t, more, t', more', hr, hr', ⟨span, newline, ht⟩, hlast⟩ := hc.past
    have hmore : SameBare more more' := by
      have hsame := hlast.placed.sameBare_rest
      rwa [hlast.tail, List.append_nil] at hsame
    -- The scan sees the words alone, so it finds the same end.
    have hscan : scanGroup? c'.rest = scanGroup? c.rest := by
      rw [hr, hr', ht, scanGroup?, scanGroup?, hmore.congr (scan_bare t.closer [])]
      rfl
    have hlt := Consumes.lt_of_ok hc.visited h
    unfold skipGroup at h ⊢
    rw [get_bind] at h
    rw [EndsLike, get_bind, hscan]
    -- A run that succeeds has found the bracket that closes the group.
    cases hfound : scanGroup? c.rest with
    | none => rw [hfound] at h; cases h
    | some found =>
      rw [hfound] at h
      cases found with
      | closed n =>
        cases n with
        | zero =>
          cases h
          exact absurd hlt (Nat.lt_irrefl _)
        | succ n =>
          obtain ⟨t₁, c₁, h₁, h₂⟩ := bind_eq_ok.1 h
          obtain ⟨t₁', c₁', h₁', -, hc₁⟩ := advance_fresh hc h₁
          obtain ⟨more₁, hr₁, rfl⟩ := advance_inv hc.rest_ne_nil h₁
          have hn : n + 1 ≤ c.rest.length :=
            (scanGroup?_append_of_closed (b := []) hfound).2
          rw [hr₁, List.length_cons] at hn
          obtain ⟨u', d', h₂', hu, hd⟩ :=
            Simulates.advanceBy_of hc₁.placed (Nat.le_of_succ_le_succ hn) h₂
          exact ⟨u', d', (bind_of_ok h₁' _).trans h₂', hu, hc.tail, hd⟩
      | mismatch n =>
        obtain ⟨_, _, -, h₂⟩ := bind_eq_ok.1 h
        cases h₂
      | unclosed w =>
        obtain ⟨_, _, -, h₂⟩ := bind_eq_ok.1 h
        obtain ⟨_, _, -, h₃⟩ := bind_eq_ok.1 h₂
        cases h₃

/-- The first round of a statement does not ask whether a line ends before it. -/
theorem statementRound_true (heof : c.current.isEof = false) :
    statementRound true c =
      (if c.current.is ";" then do
        let _ ← advance
        return none
      else if c.current.isOpener then do
        skipGroup
        return some false
      else do
        let _ ← advance
        return some false : Parser (Option Bool)) c := by
  obtain ⟨b, hb⟩ : ∃ b, atBreak c = .ok (b, c) := ⟨_, rfl⟩
  unfold statementRound
  rw [current_bind, heof, if_neg Bool.false_ne_true, bind_of_ok hb]
  simp only [Bool.not_true, Bool.false_and, Bool.and_false, Bool.false_eq_true, if_false]

/-- The first round consumes a token or a group, and both begin with the first token. -/
instance : Opens e (statementRound true) (statementRound true) where
  endsLike {c c' d o} hc h hd := by
    have heof := hc.isEof_eq_false
    have heof' : c'.current.isEof = false :=
      (hc.current (·.isEof) fun _ _ _ => rfl).symm.trans heof
    have hopener : c.current.isOpener = c'.current.isOpener :=
      hc.current (·.isOpener) fun _ _ _ => rfl
    rw [statementRound_true heof] at h
    rw [EndsLike, statementRound_true heof', ← hc.is_eq ";", ← hopener]
    exact EndsLike.ite h (fun _ h => Simulates.again .anywhere hc h hd) fun _ h =>
      EndsLike.ite h (fun _ h => Simulates.again .anywhere hc h hd) fun _ h =>
        Simulates.again .anywhere hc h hd

/-- The first round is followed because it consumes a token, and those behind it as in any
part. -/
instance : Opens e skipStatement skipStatement where
  endsLike {c c' d u} hc h _ := by
    unfold skipStatement at h ⊢
    refine EndsLike.bind (R := Last e) h (fun {b c₁} h₁ _ => ?_)
      fun _ hc₁ _ h => Simulates.again (p := pure ()) .anywhere hc₁ h trivial
    have hlen := Near.length_le (.inl hc)
    rw [iterate_run] at h₁
    rw [EndsLike, iterate_run]
    -- Either the first round was the only one, or others follow it.
    obtain ⟨n, hn, ⟨rfl, h₂⟩ | ⟨b₁, c₂, h₂, h₃⟩⟩ := iterateUpTo_eq_ok h₁
    · obtain ⟨o', d', h₂', ho, hd⟩ :=
        Simulates.again (R := Fresh e) (S := Last e) .anywhere hc h₂ trivial
      obtain ⟨-, rfl⟩ | ⟨_, _, ho, -⟩ := ho.none_or_some
      · exact ⟨true, d', iterateUpTo_of_none h₂' _, inferInstance, hd⟩
      · cases ho
    · cases hn
      obtain ⟨o', c₂', h₂', ho, hc₂⟩ :=
        Simulates.again (R := Fresh e) (S := Last e) .anywhere hc h₂ trivial
      obtain ⟨hnone, -⟩ | ⟨b₂, b', hsome, rfl, hb⟩ := ho.none_or_some
      · cases hnone
      obtain rfl : b₁ = b₂ := Option.some.inj hsome
      obtain rfl : b₁ = b' := hb.eq
      obtain rfl := Later.eq_false h₂
      obtain ⟨b'', d', h₃', hb, hd⟩ := Ends.statementRounds_placed hlen hc₂.placed
        (fun hfirst => absurd hfirst Bool.false_ne_true) h₃
      exact ⟨b'', d', (iterateUpTo_of_some h₂' _).trans h₃', hb, hd.last hc.tail⟩

instance (start start' : Position) {x y : Text} [SameBare x y] :
    Opens e (otherStatement start x) (otherStatement start' y) := by
  unfold otherStatement; infer_instance

/-! ## Statements

A statement starts with decorators and modifiers, if any. As long as there are none the places
are fresh, so what follows them is followed from the one relation and from the other. -/

instance (start start' : Position) {x y : Text} [SameBare x y] (ms : Modifiers) :
    Opens e (Ends.statementBody start x ms) (Ends.statementBody start' y ms) := by
  unfold Ends.statementBody; infer_instance

/-- The first modifier, if there is one, is the first token. -/
instance (ms : Modifiers) :
    Simulates (Fresh e) (Near e) .anywhere (modifierRound ms) (modifierRound ms) where
  endsLike {c c' d o} hc h _ := by
    have heq := Ends.isStatementModifier_congr ms fun w g _ => ahead_eq hc w g
    rw [Ends.modifierRound_run hc.clean.fault] at h
    rw [EndsLike, Ends.modifierRound_run hc.clean'.fault, ← heq, ← Near.text_eq (.inl hc)]
    exact EndsLike.ite h (fun _ h => Simulates.again .anywhere hc h trivial) fun _ h =>
      Simulates.again .anywhere hc h trivial

/-- Behind the modifiers the places are near, since there may be none. -/
instance : Simulates (Near e) (Near e) .anywhere statementModifiers statementModifiers where
  endsLike {c c' d ms} hc h _ := by
    refine Simulates.iterateUpTo_of (fun _ _ => True) ?_ (Nat.succ_le_succ hc.length_le)
      (SameBare.refl []) hc trivial h
    intro s s' o c c' c₁ hs hc _ h _
    obtain rfl : s = s' := hs.eq
    obtain ⟨o', c₁', h', ho, hc₁⟩ : EndsLike (Near e) (modifierRound s c') o c₁ := by
      rcases hc with hc | hc
      · exact Simulates.again .anywhere hc h trivial
      · obtain ⟨c₁', h', hc₁, -⟩ := Ends.modifierRound_placed hc.placed
          (fun hx => absurd hx (e.not_exports hc.tail)) h
        exact ⟨o, c₁', h', inferInstance, .inr ⟨hc.tail, hc₁⟩⟩
    exact ⟨o', c₁', h', ho, fun _ => hc₁, fun _ _ => ⟨hc₁, trivial⟩⟩

/-- **A statement behind its decorators is read alike**, be there any or not. -/
instance (start start' : Position) {x y : Text} [SameBare x y] :
    Simulates (Near e) (Last e) .anywhere (statementFrom start x) (statementFrom start' y) where
  endsLike {c c' d s} hc h _ := by
    rw [Ends.statementFrom_eq] at h
    rw [EndsLike, Ends.statementFrom_eq]
    refine EndsLike.bind (R := Near e) h (fun h₁ _ => Simulates.again .anywhere hc h₁ trivial) ?_
    rintro ms ms' c₁ c₁' ⟨hms⟩ hc₁ - h₂
    obtain rfl : ms = ms' := hms
    exact Simulates.endsLike (k := .anywhere) hc₁ h₂ trivial

instance : Moves decorator := by unfold decorator; infer_instance

instance : Follows e .anywhere decorator decorator := by unfold decorator; infer_instance

instance : Simulates (Near e) (Near e) .anywhere (onceMore (got "@") decorator)
    (onceMore (got "@") decorator) := by
  unfold onceMore; infer_instance

instance : Simulates (Near e) (Near e) .anywhere skipDecorators skipDecorators where
  endsLike {c c' d u} hc h _ := by
    rw [skipDecorators_eq, whileDo] at h
    rw [EndsLike, skipDecorators_eq, whileDo]
    refine EndsLike.bind (R := Near e) h (fun h₁ _ => ?_) fun _ hc₁ _ h => ?_
    · have hcollect : Simulates (Near e) (Near e) .anywhere
          (collectUpTo (onceMore (got "@") decorator) (c.rest.length + 1))
          (collectUpTo (onceMore (got "@") decorator) (c'.rest.length + 1)) :=
        Simulates.collectUpTo Near.visited (Nat.succ_le_succ hc.length_le)
      exact hcollect.endsLike hc h₁ trivial
    · exact Simulates.again (p := pure ()) .anywhere hc₁ h trivial

/-- Of the token that a statement starts with only the text is kept. -/
instance (start start' : Position) :
    Simulates (Near e) (Last e) .anywhere (adorned start) (adorned start') where
  endsLike {c c' d o} hc h _ := by
    unfold adorned at h ⊢
    rw [current_bind] at h
    rw [EndsLike, current_bind, ← hc.text_eq]
    refine EndsLike.bind (R := Last e) h (fun h₁ _ => ?_) fun hs hc₁ _ h₂ => ?_
    · exact Simulates.endsLike (k := .anywhere) hc h₁ trivial
    · obtain ⟨rfl, rfl⟩ := pure_eq_ok.1 h₂
      exact ⟨_, _, rfl, inferInstance, hc₁⟩

/-- **A statement is read alike wherever it starts.** -/
instance : Opens e statement? statement? where
  endsLike {c c' d o} hc h _ := by
    have hbehind : Simulates (Fresh e) (Last e) .anywhere
        (do skipDecorators; adorned c.current.start)
          (do skipDecorators; adorned c'.current.start) :=
      { endsLike := fun hc h _ => EndsLike.bind (R := Near e) h
          (fun h₁ _ => Simulates.again (R := Near e) .anywhere (Or.inl hc) h₁ trivial)
          fun _ hc₁ _ h₂ => Simulates.endsLike (k := .anywhere) hc₁ h₂ trivial }
    have hstatement : Opens e
        (got ";" >>= fun b => if b = true then pure none
          else do skipDecorators; adorned c.current.start)
        (got ";" >>= fun b => if b = true then pure none
          else do skipDecorators; adorned c'.current.start) := inferInstance
    exact hstatement.endsLike hc h trivial

instance : Opens e nextStatement nextStatement where
  endsLike {c c' d o} hc h _ := by
    have heof := hc.isEof_eq_false
    have heof' : c'.current.isEof = false :=
      (hc.current (·.isEof) fun _ _ _ => rfl).symm.trans heof
    have hstatement : Opens e (do return some (← statement?)) (do return some (← statement?)) :=
      inferInstance
    unfold nextStatement at h ⊢
    rw [isEof_bind, heof] at h
    rw [EndsLike, isEof_bind, heof']
    exact hstatement.endsLike hc h trivial

end Opens

end Parser

end Exemplar
