import Exemplar.Proofs.Extract.Placeless
import Exemplar.Proofs.Grammar.Sources
import Exemplar.Proofs.Grammar.StatementStarts
import Exemplar.Proofs.Grammar.TwoParts
import Exemplar.Proofs.Text.Splicing

/-!
# The statements of a part and those behind it

The statements of a source that is put together from two parts are those of the first part and
then those of the second. Reading them is a run of steps, one for each statement, so a run on
the first part is followed step by step, and a run on the second one goes on where that stops:
behind the semicolon between the two, or before the word `export` that the second one starts
with.

Decorators at the end of the first part make a statement there. Before `export` they belong to
the statement behind them, and nothing comes of them either way.

What is compared are the declarations. A statement that is no declaration may be read otherwise
in the whole, where its first word may be the semicolon, or another token if its place in the
part was the end. But nothing is kept of it, and it is enough that it is skipped on both sides.

The rules for single statements are those of `StatementEnds` and `StatementStarts`; here they
are put into the loop. A loop is first turned into an inductive run of rounds (`Collects`), for
the bound on the rounds of the whole is not that of the parts. Runs can be appended to one
another, and a run that comes to an end is one of the loop, since each of its rounds consumes a
token.
-/

namespace Exemplar

open Exemplar.Tree Exemplar.Brackets

/-! ## Runs of a loop

A run is said without a bound and without what ends it. -/

namespace Parser

variable {α : Type} {c d d' : Cursor} {as bs : List α}

/-- Rounds that go on, with their answers. -/
inductive Collects (next : Parser (Option α)) : Cursor → List α → Cursor → Prop
  /-- No round. -/
  | nil {c : Cursor} : Collects next c [] c
  /-- One more round. -/
  | cons {c c₁ d : Cursor} {a : α} {as : List α} (h : next c = .ok (some a, c₁))
    (hmore : Collects next c₁ as d) : Collects next c (a :: as) d

namespace Collects

variable {next : Parser (Option α)}

/-- A run goes on with a run from where it stops. -/
theorem append (h : Collects next c as d) (h' : Collects next d bs d') :
    Collects next c (as ++ bs) d' := by
  induction h with
  | nil => exact h'
  | cons hnext _ ih => exact .cons hnext (ih h')

/-- A loop makes rounds up to one that answers nothing. -/
theorem of_collectUpTo {n : Nat} (h : collectUpTo next n c = .ok (as, d)) :
    ∃ c₁, Collects next c as c₁ ∧ next c₁ = .ok (none, d) := by
  induction n generalizing c as with
  | zero => cases h
  | succ n ih =>
    obtain ⟨m, hm, ⟨rfl, h₁⟩ | ⟨a, as', c₁, rfl, h₁, h₂⟩⟩ := collectUpTo_eq_ok h
    · exact ⟨c, .nil, h₁⟩
    · cases hm
      obtain ⟨c₂, hrun, hlast⟩ := ih h₂
      exact ⟨c₂, .cons h₁ hrun, hlast⟩

/-- The rounds of a run, and one that answers nothing, are those of the loop if its bound allows
for them. -/
theorem collectUpTo_eq (h : Collects next c as d) (hlast : next d = .ok (none, d')) {n : Nat}
    (hn : as.length < n) : collectUpTo next n c = .ok (as, d') := by
  induction h generalizing n with
  | nil =>
    obtain ⟨m, rfl⟩ := Nat.exists_eq_add_one.2 hn
    rw [collectUpTo, bind_of_ok hlast]
    rfl
  | @cons c c₁ d a as hnext hmore ih =>
    obtain ⟨m, rfl⟩ := Nat.exists_eq_add_one.2 (Nat.lt_of_le_of_lt (Nat.zero_le _) hn)
    rw [collectUpTo, bind_of_ok hnext]
    show (collectUpTo next m >>= fun l => pure (a :: l)) c₁ = _
    rw [bind_of_ok (ih hlast (Nat.lt_of_succ_lt_succ hn))]
    rfl

variable [Moves next]

/-- A run comes to places that runs come to. -/
theorem visited (h : Collects next c as d) (hc : c.Visited) : d.Visited := by
  induction h with
  | nil => exact hc
  | cons hnext _ ih => exact ih (hc.of_ok hnext)

/-- A run goes forward in its source. -/
theorem reaches (h : Collects next c as d) : c.Reaches d := by
  induction h with
  | nil => exact .refl _
  | cons hnext _ ih => exact (Moves.reaches_of_ok hnext).trans ih

/-- Each round that goes on consumes a token. -/
theorem length_le [Progress next] (h : Collects next c as d) (hc : c.Visited) :
    as.length + d.rest.length ≤ c.rest.length := by
  induction h with
  | nil => exact Nat.le_of_eq (Nat.zero_add _)
  | cons hnext _ ih =>
    have hlt := Progress.lt_of_some hc hnext
    have hle := ih (hc.of_ok hnext)
    rw [List.length_cons]
    omega

/-- **Rounds that come to an end are those of the loop.** -/
theorem collect_eq [Progress next] (h : Collects next c as d) (hc : c.Visited)
    (hlast : next d = .ok (none, d')) : collect next c = .ok (as, d') := by
  rw [collect_run]
  have hle := h.length_le hc
  exact h.collectUpTo_eq hlast (by omega)

end Collects

end Parser

/-! ## Following the statements of a part

A statement of the part is followed by the whole to where it stops, or one token further: then
it has consumed the semicolon behind the part, and the part is at its end (`Left`). -/

/-- The declarations of statements, some of which may be missing. -/
def declared (tables : Tables) (found : List (Option Statement)) : List Declaration :=
  (found.filterMap id).flatMap (Statement.declarations tables)

/-- The declarations of one list and then those of the other. -/
theorem declared_append (tables : Tables) (l l' : List (Option Statement)) :
    declared tables (l ++ l') = declared tables l ++ declared tables l' := by
  rw [declared, List.filterMap_append, List.flatMap_append]
  rfl

/-- The declarations of the first statement come first. -/
theorem declared_cons (tables : Tables) (o : Option Statement) (l : List (Option Statement)) :
    declared tables (o :: l) = declared tables [o] ++ declared tables l :=
  declared_append tables [o] l

/-- Declarations do not depend on places. -/
theorem SameBare.declared_eq {o o' : Option Statement} (h : SameBare o o') (tables : Tables) :
    declared tables [o] = declared tables [o'] := by
  obtain ⟨rfl, rfl⟩ | ⟨s, s', rfl, rfl, hs⟩ := h.none_or_some
  · rfl
  · show s.declarations tables ++ [] = s'.declarations tables ++ []
    rw [hs.declarations_eq tables]

namespace Parser

open Cursor (Placed Passed Left Fresh Last Near Alongside)

variable {e : Placement} {c c' d d' : Cursor} {o : Option Statement}
  {found : List (Option Statement)}

/-- Where the source goes on, a round reads a statement. -/
theorem nextStatement_of_not_eof (h : c.current.isEof = false) :
    nextStatement c = (do return some (← statement?) : Parser _) c := by
  unfold nextStatement
  rw [isEof_bind, h]
  rfl

/-- Where it ends, the round is the last. -/
theorem nextStatement_of_nil (hclean : c.ending.Clean) (hr : c.rest = []) :
    nextStatement c = .ok (none, c) := by
  have heof : c.current.isEof = true := by
    rw [Cursor.current_of_nil hr, Token.isEof, hclean.kind]
    rfl
  unfold nextStatement
  rw [isEof_bind, heof]
  rfl

/-- A round that goes on reads a statement. -/
theorem nextStatement_some (h : nextStatement c = .ok (some o, d)) :
    c.current.isEof = false ∧ statement? c = .ok (o, d) := by
  have heof := Progress.of_isEof (f := fun _ => do return some (← statement?)) h
  rw [nextStatement_of_not_eof heof] at h
  obtain ⟨o', c₁, h₁, h₂⟩ := bind_eq_ok.1 h
  obtain ⟨ho, rfl⟩ := pure_eq_ok.1 h₂
  cases ho
  exact ⟨heof, h₁⟩

/-- Without a token there is no statement. A round would have to consume a token. -/
theorem Collects.eq_nil (h : Collects nextStatement c found d)
    (hc : c.Visited) (hr : c.rest = []) :
    found = [] ∧ d = c := by
  cases h with
  | nil => exact ⟨rfl, rfl⟩
  | cons hnext _ =>
    have hlt := Progress.lt_of_some hc hnext
    rw [hr] at hlt
    exact absurd hlt (Nat.not_lt_zero _)

/-- What starts with no word that the grammar knows is a skipped statement. A semicolon is
excepted: it is asked for before the rule for statements is called, and none of the tests for a
first word is passed by it. -/
theorem statementFrom_eq_other {start : Position} {x : Text} (hclean : c.ending.Clean)
    (hword : ∀ w, w ≠ ";" → c.current.is w = false) :
    statementFrom start x c = otherStatement start x c := by
  have hmod : isStatementModifier [] c.current c.second = false := by
    simp [isStatementModifier, hword]
  have hms : statementModifiers c = .ok ([], c) := by
    refine iterateUpTo_of_none ?_ _
    rw [Ends.modifierRound_run hclean.fault, hmod]
    rfl
  have hahead (w : String) (g : Token → Bool) (hw : w ≠ ";") :
      ahead (·.is w) g c = .ok (false, c) := by
    rw [ahead_run hclean, hword w hw]
    rfl
  -- None of the tests for a first word is passed.
  rw [Ends.statementFrom_eq, bind_of_ok hms, Ends.statementBody,
    bind_of_ok (hahead _ _ (by decide)), if_neg Bool.false_ne_true,
    is_bind, hword _ (by decide), if_neg Bool.false_ne_true,
    bind_of_ok (hahead _ _ (by decide)), if_neg Bool.false_ne_true,
    is_bind, is_bind, hword _ (by decide), hword _ (by decide), if_neg (by decide),
    bind_of_ok (hahead _ _ (by decide)), if_neg Bool.false_ne_true,
    is_bind, hword _ (by decide), if_neg Bool.false_ne_true,
    bind_of_ok (hahead _ _ (by decide)), if_neg Bool.false_ne_true]

/-- So is what starts at the end of the source. -/
theorem statementFrom_of_nil {start : Position} {x : Text} (hclean : c.ending.Clean)
    (hr : c.rest = []) : statementFrom start x c = otherStatement start x c :=
  statementFrom_eq_other hclean fun w _ => by
    rw [Cursor.current_of_nil hr]
    exact hclean.is_eq_false w

/-- Nothing is kept of a skipped statement but where it is and its first word. -/
theorem otherStatement_eq_ok {start : Position} {x : Text} {s : Statement}
    (h : otherStatement start x c = .ok (s, d)) :
    skipStatement c = .ok ((), d) ∧ s = .other ⟨start, d.lastStop⟩ x := by
  obtain ⟨⟨⟩, c₁, h₁, h₂⟩ := bind_eq_ok.1 h
  rw [spanFrom_bind] at h₂
  obtain ⟨rfl, rfl⟩ := pure_eq_ok.1 h₂
  exact ⟨h₁, rfl⟩

/-- What is skipped makes such a statement. -/
theorem otherStatement_of_ok {start : Position} {x : Text} (h : skipStatement c = .ok ((), d)) :
    otherStatement start x c = .ok (.other ⟨start, d.lastStop⟩ x, d) := by
  rw [otherStatement, bind_of_ok h, spanFrom_bind]
  rfl

/-- `d'` stands before decorators at the end of the part, and the statement they belong to comes
behind it. -/
def Adorned (e : Placement) (d d' : Cursor) : Prop :=
  e.Exports ∧ d'.current.isEof = false ∧
    ∃ start c₁', d'.Reaches c₁' ∧ Placed e d c₁' ∧ statement? d' = adorned start c₁'

/-- At the end of the part no word comes first, and a statement there is a skipped one. In the
whole a semicolon comes first, or nothing, and the statement is skipped there too. That a
statement starts there at all is because of decorators in front of it, which the end of the part
leaves alone. -/
theorem statementFrom_placed_of_nil {start start' : Position} {x x' : Text} {s : Statement}
    (hc : Placed e c c') (hr : c.rest = []) (hx : ¬e.Exports)
    (h : statementFrom start x c = .ok (s, d)) :
    ∃ s' d', statementFrom start' x' c' = .ok (s', d') ∧
      (∀ tables, declared tables [some s] = declared tables [some s']) ∧ Left e d d' := by
  have hword' : ∀ w, w ≠ ";" → c'.current.is w = false := by
    intro w hw
    cases hc.current_of_nil hr with
    | nothing _ hk _ => rw [Token.is, hk]; rfl
    | semicolon _ hs =>
      have hsemicolon : c'.current.is ";" = true := by rw [Token.is_eq hs.word_eq]; rfl
      exact Token.is_eq_false_of_is hsemicolon hw.symm
    | exported ht hs => exact absurd ⟨_, _, ht, hs⟩ hx
  rw [statementFrom_of_nil hc.clean hr] at h
  obtain ⟨hskip, rfl⟩ := otherStatement_eq_ok h
  obtain ⟨⟨⟩, d', hskip', -, hd⟩ :=
    Simulates.again (R := Placed e) (S := Left e) (.free e) hc hskip
    fun he => absurd he hx
  rw [statementFrom_eq_other hc.clean' hword', otherStatement_of_ok hskip']
  exact ⟨_, d', rfl, fun _ => rfl, hd⟩

/-- **A statement of a part is followed**, unless it is nothing but decorators before `export`.
An empty statement is a semicolon on both sides. Else decorators are skipped, and then it
depends on whether the part has a token left. If it has, the rule for statements is followed. If
it has none, the part has nothing but decorators here: before a semicolon the statement is
skipped on both sides, and before `export` they go over to the next statement. -/
theorem statement?_placed (hc : Placed e c c') (hr : c.rest ≠ [])
    (heof : c'.current.isEof = false) (h : statement? c = .ok (o, d)) :
    (∃ o' d', statement? c' = .ok (o', d') ∧
        (∀ tables, declared tables [o] = declared tables [o']) ∧ Left e d d') ∨
      (d.rest = [] ∧ (∀ tables, declared tables [o] = []) ∧ Adorned e d c') := by
  unfold statement? at h
  rw [here_bind] at h
  obtain ⟨b, c₁, h₁, h₂⟩ := bind_eq_ok.1 h
  obtain ⟨b', c₁', h₁', hb, hc₁⟩ :=
    Simulates.again (R := Placed e) (S := Placed e) .token hc h₁ hr
  obtain rfl : b = b' := hb.eq
  cases b with
  | true =>
    obtain ⟨rfl, rfl⟩ := pure_eq_ok.1 h₂
    refine .inl ⟨none, c₁', ?_, fun _ => rfl, .inl hc₁⟩
    rw [statement?, here_bind, bind_of_ok h₁']
    rfl
  | false =>
    rw [if_neg Bool.false_ne_true] at h₂
    obtain ⟨u, c₂, h₃, h₄⟩ := bind_eq_ok.1 h₂
    obtain ⟨u', c₂', h₃', -, hc₂⟩ :=
      Simulates.again (R := Placed e) (S := Placed e) .anywhere hc₁ h₃ trivial
    -- In the whole the rule goes on behind the same decorators.
    have hwhole : statement? c' = adorned c'.current.start c₂' := by
      rw [statement?, here_bind, bind_of_ok h₁', if_neg Bool.false_ne_true, bind_of_ok h₃']
      rfl
    rw [current_bind] at h₄
    obtain ⟨s, c₃, h₅, h₆⟩ := bind_eq_ok.1 h₄
    obtain ⟨rfl, rfl⟩ := pure_eq_ok.1 h₆
    have hfollowed (s' : Statement) (d' : Cursor)
        (h₅' : statementFrom c'.current.start c₂'.current.text c₂' = .ok (s', d')) :
        statement? c' = .ok (some s', d') := by
      rw [hwhole, adorned, current_bind, bind_of_ok h₅']
      rfl
    -- Is there a token behind the decorators?
    by_cases hnil : c₂.rest = []
    · by_cases hx : e.Exports
      · -- Nothing but decorators, and they belong to what is exported.
        obtain rfl : c₃ = c₂ :=
          (Moves.reaches_of_ok h₅).eq_of_length_le (by rw [hnil]; exact Nat.zero_le _)
        rw [statementFrom_of_nil hc₂.clean hnil] at h₅
        obtain ⟨-, rfl⟩ := otherStatement_eq_ok h₅
        have hreach := (Moves.reaches_of_ok h₁').trans (Moves.reaches_of_ok h₃')
        exact .inr ⟨hnil, fun _ => rfl, hx, heof, _, c₂', hreach, hc₂, hwhole⟩
      · obtain ⟨s', d', h₅', hs, hd⟩ := statementFrom_placed_of_nil hc₂ hnil hx h₅
        exact .inl ⟨some s', d', hfollowed s' d' h₅', hs, hd⟩
    · have htext : c₂.current.text = c₂'.current.text :=
        (Alongside.current hc₂ hnil).congr (f := Token.text) fun _ => rfl
      rw [htext] at h₅
      have hends : Ends e (.free e) (statementFrom c.current.start c₂'.current.text)
          (statementFrom c'.current.start c₂'.current.text) := inferInstance
      obtain ⟨s', d', h₅', hs, hd⟩ := hends.endsLike hc₂ h₅ fun _ => hnil
      have hsome : SameBare (some s) (some s') := inferInstance
      exact .inl ⟨some s', d', hfollowed s' d' h₅', hsome.declared_eq, hd⟩

/-- **The statements of a part are followed to its end.** The induction is on the run in the
part. A round that stops at the same place in both goes on with the induction hypothesis. One
that has consumed the semicolon behind the part, or nothing but decorators before `export`, is
the last, since the part has no tokens left. -/
theorem Collects.placed (h : Collects nextStatement c found d) (hd : d.rest = [])
    (hc : Placed e c c') :
    ∃ found' d', Collects nextStatement c' found' d' ∧
      (∀ tables, declared tables found' = declared tables found) ∧
      (Left e d d' ∨ Adorned e d d') := by
  induction h generalizing c' with
  | nil => exact ⟨[], c', .nil, fun _ => rfl, .inl (.inl hc)⟩
  | @cons c c₁ d o found hnext hmore ih =>
    obtain ⟨heof, hstatement⟩ := nextStatement_some hnext
    have hr := hc.visited.rest_ne_nil heof
    have heof' : c'.current.isEof = false := by
      obtain ⟨s, hs⟩ := (Alongside.current hc hr).exists_span
      rw [hs]
      exact heof
    have hvisited := hc.visited.of_ok hnext
    obtain ⟨o', c₁', hstatement', ho, hleft⟩ | ⟨hnil, hnone, hadorned⟩ :=
      statement?_placed hc hr heof' hstatement
    · have hnext' : nextStatement c' = .ok (some o', c₁') := by
        rw [nextStatement_of_not_eof heof', bind_of_ok hstatement']
        rfl
      rcases hleft with hc₁ | hpassed
      · obtain ⟨found', d', hmore', hdecls, hend⟩ := ih hd hc₁
        refine ⟨o' :: found', d', .cons hnext' hmore', fun tables => ?_, hend⟩
        rw [declared_cons, declared_cons tables o, hdecls, ho]
      · -- The semicolon behind the part is consumed, so the part has been read.
        obtain ⟨rfl, rfl⟩ := hmore.eq_nil hvisited hpassed.rest
        exact ⟨[o'], c₁', .cons hnext' .nil, fun tables => (ho tables).symm,
          .inl (.inr hpassed)⟩
    · obtain ⟨rfl, rfl⟩ := hmore.eq_nil hvisited hnil
      exact ⟨[], c', .nil, fun tables => (hnone tables).symm, .inr hadorned⟩

/-! ## The last part

The second part ends where the whole does, but it starts behind a line end that is not in its
source. So its first statement is compared by itself (`StatementStarts`), and what comes behind
it is followed as in the first part, with nothing behind it. -/

/-- The statements from `c` to the end of its source have the declarations of `found`. -/
def Finishes (c : Cursor) (found : List (Option Statement)) : Prop :=
  ∃ found' d, Collects nextStatement c found' d ∧
    (∀ tables, declared tables found' = declared tables found) ∧ d.rest = []

/-- The statements of the last part are followed to its end if the first one is. Behind the
first statement, both sides are at the same place of the second part. -/
theorem Collects.of_first (h : Collects nextStatement c found d) (hd : d.rest = [])
    (hr : c.rest ≠ [])
    (hfirst : ∀ {o c₁}, nextStatement c = .ok (some o, c₁) →
      ∃ o' c₁', nextStatement c' = .ok (some o', c₁') ∧ SameBare o o' ∧ Last e c₁ c₁') :
    Finishes c' found := by
  cases h with
  | nil => exact absurd hd hr
  | @cons _ c₁ _ o found hnext hmore =>
    obtain ⟨o', c₁', hnext', ho, hc₁⟩ := hfirst hnext
    obtain ⟨found', d', hmore', hdecls, hend⟩ := hmore.placed hd hc₁.placed
    have hlast : Last e d d' := by
      rcases hend with hleft | hadorned
      · exact hleft.last hc₁.tail
      · exact absurd hadorned.1 (e.not_exports hc₁.tail)
    refine ⟨o' :: found', d', .cons hnext' hmore', fun tables => ?_, ?_⟩
    · rw [declared_cons, declared_cons tables o, hdecls, ho.declared_eq]
    · rw [hlast.placed.rest_of_nil hd, hlast.tail]

/-- The statements of the last part are followed from where it starts in the whole. -/
theorem Collects.fresh (h : Collects nextStatement c found d)
    (hd : d.rest = []) (hc : Fresh e c c') :
    Finishes c' found := by
  refine h.of_first (e := e) hd hc.rest_ne_nil fun {o c₁} hnext => ?_
  obtain ⟨x, c₁', hnext', hx, hc₁⟩ :=
    Simulates.again (R := Fresh e) (S := Last e) .anywhere hc hnext trivial
  obtain ⟨ho, -⟩ | ⟨o₁, o', ho, rfl, hsame⟩ := hx.none_or_some
  · cases ho
  · cases ho
    exact ⟨o', c₁', hnext', hsame, hc₁⟩

/-- A statement that starts with `export` has no decorators, and is no empty one. It is read
right away by the rule behind decorators. -/
theorem statement?_of_export (h : c.current.is "export" = true) :
    statement? c = adorned c.current.start c := by
  have hgot : ∀ {w : String}, "export" ≠ w → got w c = .ok (false, c) := by
    intro w hw
    rw [got_run, Token.is_eq_false_of_is h hw]
    rfl
  have hskip : skipDecorators c = .ok ((), c) := by
    have hround : onceMore (got "@") decorator c = .ok (none, c) := by
      rw [onceMore, bind_of_ok (hgot (by decide))]
      rfl
    have hloop : collect (onceMore (got "@") decorator) c = .ok ([], c) := by
      rw [collect_run, collectUpTo, bind_of_ok hround]
      rfl
    rw [skipDecorators_eq, whileDo, bind_of_ok hloop]
    rfl
  rw [statement?, here_bind, bind_of_ok (hgot (by decide)), if_neg Bool.false_ne_true,
    bind_of_ok hskip]
  rfl

/-- Decorators at the end of the part before make no difference to what comes behind them. The
statement in the whole starts earlier than in the part, and nothing else differs. -/
theorem Collects.adorned {start : Position} {c₁' : Cursor} (h : Collects nextStatement c found d)
    (hd : d.rest = []) (hc : Fresh e c c₁') (hexport : c.current.is "export" = true)
    (heof : c'.current.isEof = false) (hc' : statement? c' = adorned start c₁') :
    Finishes c' found := by
  refine h.of_first (e := e) hd hc.rest_ne_nil fun {o c₁} hnext => ?_
  obtain ⟨-, hstatement⟩ := nextStatement_some hnext
  rw [statement?_of_export hexport, Parser.adorned, current_bind] at hstatement
  obtain ⟨s, c₂, h₁, h₂⟩ := bind_eq_ok.1 hstatement
  obtain ⟨rfl, rfl⟩ := pure_eq_ok.1 h₂
  have htext := hc.current (·.text) fun _ _ _ => rfl
  rw [htext] at h₁
  have hsame : Simulates (Near e) (Last e) .anywhere
      (statementFrom c.current.start c₁'.current.text)
      (statementFrom start c₁'.current.text) := inferInstance
  obtain ⟨s', c₁, h₁', hs, hc₁⟩ := hsame.endsLike (.inl hc) h₁ trivial
  refine ⟨some s', c₁, ?_, inferInstance, hc₁⟩
  have hstatement' : statement? c' = .ok (some s', c₁) := by
    rw [hc', Parser.adorned, current_bind, bind_of_ok h₁']
    rfl
  rw [nextStatement_of_not_eof heof, bind_of_ok hstatement']
  rfl

/-! ## Two parts

A unit that is accepted is a run on its tokens, so two units give two runs, and the whole is
accepted if the two can be put one behind the other. -/

/-- A unit is a run on its source, up to its end. -/
theorem exists_collects {name : String} {source : Text} {u : SourceUnit}
    (h : SourceUnit.parse name source = .ok u) :
    (startOf source).ending.Clean ∧ ∃ found d, Collects nextStatement (startOf source) found d ∧
      d.rest = [] ∧ ∀ tables, u.declarations tables = declared tables found := by
  obtain ⟨-, hreg, found, d, hrun, hrest, rfl⟩ := unit_eq h
  rw [collect_run] at hrun
  obtain ⟨c, hcollects, hlast⟩ := Collects.of_collectUpTo hrun
  obtain ⟨rfl, -⟩ := nextStatement_none hlast
  exact ⟨hreg.clean, found, d, hcollects, hrest, fun _ => rfl⟩

/-- A run on a source up to its end makes a unit. -/
theorem exists_unit {source : Text} (hf : (TokenStream.lex source).ending.fault = none)
    (h : Collects nextStatement (startOf source) found d) (hd : d.rest = []) (name : String) :
    ∃ u, SourceUnit.parse name source = .ok u ∧
      ∀ tables, u.declarations tables = declared tables found := by
  have hvisited : (startOf source).Visited := ⟨.refl _, fun _ => hf⟩
  have hclean : d.ending.Clean := by
    rw [h.reaches.ending]
    exact hvisited.ending_clean hf
  have hrun := h.collect_eq hvisited (nextStatement_of_nil hclean hd)
  have hunit : sourceUnit name (startOf source)
      = .ok (⟨⟨(startOf source).current.start, d.lastStop⟩, name, found.filterMap id⟩, d) := by
    rw [sourceUnit, here_bind, bind_of_ok hrun, spanFrom_bind]
    rfl
  exact ⟨_, run_of_ok hf hunit, fun _ => rfl⟩

/-- A source without a fault ends cleanly. -/
theorem clean_startOf {source : Text} (hf : (TokenStream.lex source).ending.fault = none) :
    (startOf source).ending.Clean :=
  Cursor.Visited.ending_clean (c := startOf source) ⟨.refl _, fun _ => hf⟩ hf

/-- The first part starts where the whole does. Nothing has been read on either side, the first
tokens are the same, and so are their places. -/
theorem placed_startOf {x whole : Text} {tail : List Token} (hx : (startOf x).ending.Clean)
    (hwhole : (startOf whole).ending.Clean)
    (hfits : Placement.Fits ⟨0, tail⟩ (TokenStream.lex x).tokens)
    (htokens : (TokenStream.lex whole).tokens = (TokenStream.lex x).tokens ++ tail)
    (hroom : x.byteSize ≤ whole.byteSize) : Placed ⟨0, tail⟩ (startOf x) (startOf whole) where
  visited := ⟨.refl _, fun _ => hx.fault⟩
  visited' := ⟨.refl _, fun _ => hwhole.fault⟩
  fits := hfits
  clean := hx
  clean' := hwhole
  rest := ⟨_, htokens, List.forall₂_same.2 fun _ _ => ⟨inferInstance, rfl, rfl⟩⟩
  last := rfl
  lastStop := rfl
  room := hroom

/-- Before the tokens of the last part it starts anew. In the whole a line ends before the first
of them, and they are moved by the length of what is in front. -/
theorem fresh_startOf {y : Text} {n : Nat} (hy : (startOf y).ending.Clean)
    (hc' : c'.ending.Clean) (hvisited : c'.Visited) (htokens : (TokenStream.lex y).tokens ≠ [])
    (hback : List.Forall₂ (Token.Moved n) ((TokenStream.lex y).mark true).tokens c'.rest)
    (hroom : y.byteSize + n ≤ c'.source.byteSize) : Fresh ⟨n, []⟩ (startOf y) c' where
  visited := ⟨.refl _, fun _ => hy.fault⟩
  visited' := hvisited
  tail := rfl
  clean := hy
  clean' := hc'
  rest := by
    obtain ⟨t, more, ht⟩ := List.exists_cons_of_ne_nil htokens
    rw [TokenStream.mark, ht] at hback
    obtain ⟨t', more', hmoved, hmore, hr⟩ := List.forall₂_cons_left_iff.1 hback
    exact ⟨t, more, _, t', more', ht, hr, hmoved, hmore⟩
  room := hroom

/-- The statements of the last part are read from where its tokens start. If it has no tokens,
it has no statements. -/
theorem Collects.startOf {y : Text} {n : Nat} (h : Collects nextStatement (startOf y) found d)
    (hd : d.rest = []) (hy : (startOf y).ending.Clean) (hc' : c'.ending.Clean)
    (hvisited : c'.Visited)
    (hback : List.Forall₂ (Token.Moved n) ((TokenStream.lex y).mark true).tokens c'.rest)
    (hroom : y.byteSize + n ≤ c'.source.byteSize) : Finishes c' found := by
  by_cases htokens : (TokenStream.lex y).tokens = []
  · obtain ⟨rfl, -⟩ := h.eq_nil ⟨.refl _, fun _ => hy.fault⟩ htokens
    rw [TokenStream.mark, htokens] at hback
    exact ⟨[], c', .nil, fun _ => rfl, List.forall₂_nil_left_iff.1 hback⟩
  · exact h.fresh hd (fresh_startOf hy hc' hvisited htokens hback hroom)

/-- The semicolon behind the first part is consumed, if it has not been. It is a statement by
itself, and an empty one. -/
theorem Collects.semicolon {s : Token} {back : List Token} (hs : s.IsSemicolon)
    (hclean : d'.ending.Clean) (hd : d.rest = []) (h : Left ⟨0, s :: back⟩ d d') :
    ∃ found d₁, Collects nextStatement d' found d₁ ∧ (∀ tables, declared tables found = []) ∧
      d₁.rest = back := by
  -- The first part stops before the semicolon, or its last statement has taken it.
  rcases h with hplaced | ⟨-, t, -, ht⟩
  · have hr : d'.rest = s :: back := hplaced.rest_of_nil hd
    have hword : s.is ";" = true := by rw [Token.is_eq hs.word_eq]; rfl
    have hsemicolon : got ";" d' = .ok (true, d'.past s back) := by
      rw [got_run, Cursor.current_of_cons hr, if_pos hword,
        bind_of_ok (advance_run_cons hr hclean.fault)]
      rfl
    have hstatement : statement? d' = .ok (none, d'.past s back) := by
      rw [statement?, here_bind, bind_of_ok hsemicolon]
      rfl
    have hnext : nextStatement d' = .ok (some none, d'.past s back) := by
      rw [nextStatement_of_not_eof
        (by rw [Cursor.current_of_cons hr]; exact Token.isEof_of_is hword),
        bind_of_ok hstatement]
      rfl
    exact ⟨[none], d'.past s back, .cons hnext .nil, fun _ => rfl, rfl⟩
  · exact ⟨[], d', .nil, fun _ => rfl, (List.cons.inj ht).2.symm⟩

end Parser

open Exemplar.Parser Exemplar.Cursor

variable {name : String} {x y : Text} {a b : SourceUnit}

/-- **Two sources with a semicolon on a line between them** have the declarations of the first
and then those of the second. The runs on the two parts give two runs in the whole, with that
for the semicolon between them. Adorned statements are not left over, for behind the first part
comes a semicolon and no `export`. -/
theorem declarations_behind_semicolon (ha : SourceUnit.parse name x = .ok a)
    (hb : SourceUnit.parse name y = .ok b) (hcut : (TokenStream.lex x).NotCut)
    (hopen : ¬ParenthesisAcross (TokenStream.lex x).tokens (TokenStream.lex y).tokens) :
    ∃ u, SourceUnit.parse name (x ++ Text.behindLine (.char ';' :: y.behindLine)) = .ok u ∧
      ∀ tables, u.declarations tables = a.declarations tables ++ b.declarations tables := by
  obtain ⟨hx, found₁, c₁, hrun₁, hend₁, hdecls₁⟩ := exists_collects ha
  obtain ⟨hy, found₂, c₂, hrun₂, hend₂, hdecls₂⟩ := exists_collects hb
  -- The tokens of the whole: those of the first part, the semicolon, and those of the second.
  obtain ⟨s, back, htokens, hs, hback, hfault⟩ :=
    TokenStream.lex_behind_semicolon hx.fault hcut hy.fault
  have hsize : (x ++ Text.behindLine (.char ';' :: y.behindLine)).byteSize
      = x.byteSize + (1 + (1 + (1 + y.byteSize))) := by
    rw [Text.byteSize_append, Text.byteSize_cons, Text.byteSize_cons, Text.byteSize_cons]
    rfl
  generalize x ++ Text.behindLine (.char ';' :: y.behindLine) = whole at htokens hfault hsize ⊢
  have hwhole := clean_startOf hfault
  obtain ⟨found₁', d₁, hrun₁', hdecls₁', hend⟩ := hrun₁.placed hend₁ (placed_startOf hx hwhole
    (Placement.fits_semicolon hs hback hopen) htokens (by omega))
  have hleft := hend.resolve_right fun hadorned => Placement.not_exports_semicolon hs hadorned.1
  obtain ⟨found, d, hrun, hnone, hrest⟩ :=
    Collects.semicolon hs (hrun₁'.reaches.ending ▸ hwhole) hend₁ hleft
  -- Behind the semicolon the whole has come to where the second part starts.
  have hreach := (hrun₁'.append hrun).reaches
  have hvisited := (hrun₁'.append hrun).visited ⟨.refl _, fun _ => hfault⟩
  have hroom : y.byteSize + (x.byteSize + 3) ≤ d.source.byteSize := by
    rw [hreach.source]
    show _ ≤ whole.byteSize
    omega
  obtain ⟨found₂', d₂, hrun₂', hdecls₂', hend₂'⟩ := hrun₂.startOf hend₂ hy
    (hreach.ending ▸ hwhole) hvisited (hrest ▸ hback) hroom
  obtain ⟨u, hu, hdecls⟩ := exists_unit hfault ((hrun₁'.append hrun).append hrun₂') hend₂' name
  refine ⟨u, hu, fun tables => ?_⟩
  rw [hdecls, declared_append, declared_append, hdecls₁', hnone, hdecls₂', hdecls₁, hdecls₂,
    List.append_nil]

/-- **Two sources with a line end between them** have the declarations of the first and then
those of the second, if the first ends with a token that ends an expression and the second
starts with `export`. The first run stops before `export`, since it has no semicolon to consume.
It may have left decorators over, which then stand in front of the first statement of the second
part. -/
theorem declarations_before_export (ha : SourceUnit.parse name x = .ok a)
    (hb : SourceUnit.parse name y = .ok b)
    (hfinal : ∃ t ∈ (TokenStream.lex x).tokens.getLast?, t.IsFinal)
    (hexport : ∃ t ∈ (TokenStream.lex y).tokens.head?, t.kind = .ident ∧
      t.text = Text.ofString "export")
    (hopen : ¬ParenthesisAcross (TokenStream.lex x).tokens (TokenStream.lex y).tokens)
    (hangle : ¬AngleAcross (TokenStream.lex x).tokens (TokenStream.lex y).tokens) :
    ∃ u, SourceUnit.parse name (x ++ y.behindLine) = .ok u ∧
      ∀ tables, u.declarations tables = a.declarations tables ++ b.declarations tables := by
  obtain ⟨hx, found₁, c₁, hrun₁, hend₁, hdecls₁⟩ := exists_collects ha
  obtain ⟨hy, found₂, c₂, hrun₂, hend₂, hdecls₂⟩ := exists_collects hb
  obtain ⟨t, hhead, hkind, htext⟩ := hexport
  obtain ⟨more, ht⟩ := List.head?_eq_some_iff.1 hhead
  -- The tokens of the whole are those of the two parts, with a line end before the second.
  obtain ⟨back, htokens, hback, hfault⟩ :=
    TokenStream.lex_behind_line hx.fault (.of_isFinal hfinal) hy.fault ht hkind
  have hsize : (x ++ y.behindLine).byteSize = x.byteSize + (1 + y.byteSize) := by
    rw [Text.byteSize_append, Text.byteSize_cons]
    rfl
  generalize x ++ y.behindLine = whole at htokens hfault hsize ⊢
  have hwhole := clean_startOf hfault
  obtain ⟨t', back, rfl, hexport⟩ := exists_export ht hkind htext hback
  obtain ⟨found₁', d₁, hrun₁', hdecls₁', hend⟩ := hrun₁.placed hend₁ (placed_startOf hx hwhole
    (Placement.fits_export hexport hback hopen hangle hfinal) htokens (by omega))
  -- What is left of the whole, at the end of the first part, is the second part.
  have hfresh : ∀ {c'}, d₁.Reaches c' → Placed ⟨0, t' :: back⟩ c₁ c' →
      Fresh ⟨x.byteSize + 1, []⟩ (startOf y) c' := by
    intro c' hreach hplaced
    refine fresh_startOf hy hplaced.clean' hplaced.visited'
      (by rw [ht]; exact List.cons_ne_nil _ _) ?_ ?_
    · rw [hplaced.rest_of_nil hend₁]
      exact hback
    · rw [hreach.source, hrun₁'.reaches.source]
      show _ ≤ whole.byteSize
      omega
  obtain ⟨found₂', d₂, hrun₂', hdecls₂', hend₂'⟩ : Finishes d₁ found₂ := by
    rcases hend with (hplaced | hpassed) | ⟨-, heof, start, c', hreach, hplaced, hadorned⟩
    · exact hrun₂.fresh hend₂ (hfresh (.refl _) hplaced)
    · exact absurd hpassed.tail (Placement.not_semicolon_export hexport)
    · refine hrun₂.adorned hend₂ (hfresh hreach hplaced) ?_ heof hadorned
      rw [Cursor.current_of_cons (c := startOf y) ht, Token.is, hkind, htext]
      rfl
  obtain ⟨u, hu, hdecls⟩ := exists_unit hfault (hrun₁'.append hrun₂') hend₂' name
  refine ⟨u, hu, fun tables => ?_⟩
  rw [hdecls, declared_append, hdecls₁', hdecls₂', hdecls₁, hdecls₂]

/-! ## Two files

What is put together are the bytes of two files. A line feed is no part of an encoding, so the
whole is read as the two texts with a line feed in between, or two and a semicolon. -/

/-- The line feeds and the semicolon are read as what they are, and so are the two files. -/
theorem decode_semicolon (first second : List UInt8) :
    Text.decode (first ++ (Text.ofString "\n;\n").encode ++ second)
      = Text.decode first ++ Text.behindLine (.char ';' :: (Text.decode second).behindLine) := by
  show Text.decode ((first ++ [0x0A, 0x3B, 0x0A]) ++ second) = _
  rw [List.append_assoc, List.cons_append, Text.decode_append (by decide)]
  show _ ++ _ :: Text.decode ([] ++ 0x3B :: 0x0A :: second) = _
  rw [Text.decode_append (by decide)]
  show _ ++ _ :: ([] ++ _ :: Text.decode ([] ++ 0x0A :: second)) = _
  rw [Text.decode_append (by decide)]
  rfl

/-- A line feed is read as what it is between two files. -/
theorem decode_line (first second : List UInt8) :
    Text.decode (first ++ (Text.ofString "\n").encode ++ second)
      = Text.decode first ++ (Text.decode second).behindLine := by
  show Text.decode ((first ++ [0x0A]) ++ second) = _
  rw [List.append_assoc, List.cons_append, Text.decode_append (by decide)]
  rfl

/-- **Two files with a semicolon on a line between them are one file with the declarations of
both**, unless a parenthesis that the first leaves open is closed in the second. -/
theorem declarations_joined_by_semicolon (first second : List UInt8) (name : String)
    (ha : SourceUnit.parse name (Text.decode first) = .ok a)
    (hb : SourceUnit.parse name (Text.decode second) = .ok b)
    (hcut : (TokenStream.lex (Text.decode first)).NotCut)
    (hopen : ¬ParenthesisAcross (TokenStream.lex (Text.decode first)).tokens
      (TokenStream.lex (Text.decode second)).tokens) :
    ∃ u, SourceUnit.parse name (Text.decode (first ++ (Text.ofString "\n;\n").encode ++ second))
        = .ok u ∧
      ∀ tables, u.declarations tables = a.declarations tables ++ b.declarations tables := by
  rw [decode_semicolon]
  exact declarations_behind_semicolon ha hb hcut hopen

/-- A slash at the beginning of the second file starts a regular expression in both. -/
theorem declarations_joined_by_semicolon_regex :
    let first := (Text.ofString "export interface A \x7b\x7d\nf(1)").encode
    let second := (Text.ofString "/(/.test(x)\nexport interface B \x7b\x7d").encode
    ∃ a b u, SourceUnit.parse "e" (Text.decode first) = .ok a ∧
      SourceUnit.parse "e" (Text.decode second) = .ok b ∧
      SourceUnit.parse "e" (Text.decode (first ++ (Text.ofString "\n;\n").encode ++ second))
      = .ok u ∧
      (a.declarations .empty).length = 1 ∧ (b.declarations .empty).length = 1 ∧
      ∀ tables, u.declarations tables = a.declarations tables ++ b.declarations tables := by
  intro first second
  obtain ⟨hfirst, hsecond, hcut, hopen⟩ :
      (SourceUnit.parse "e" (Text.decode first)).toOption.any
        (fun u => (u.declarations .empty).length == 1) = true ∧
      (SourceUnit.parse "e" (Text.decode second)).toOption.any
        (fun u => (u.declarations .empty).length == 1) = true ∧
      (TokenStream.lex (Text.decode first)).NotCut ∧
      ¬ParenthesisAcross (TokenStream.lex (Text.decode first)).tokens
        (TokenStream.lex (Text.decode second)).tokens := by
    rw [Text.decode_encode_ofString, Text.decode_encode_ofString, Text.ofString_ofList,
      Text.ofString_ofList]
    decide +kernel
  obtain ⟨a, ha, hone⟩ := exists_ok_of_any _ hfirst
  obtain ⟨b, hb, hone'⟩ := exists_ok_of_any _ hsecond
  obtain ⟨u, hu, hdecls⟩ := declarations_joined_by_semicolon first second "e" ha hb hcut hopen
  exact ⟨a, b, u, ha, hb, hu, beq_iff_eq.1 hone, beq_iff_eq.1 hone', hdecls⟩

/-- Without the condition this is not so: the first of these files is accepted because the type
arguments `<(>` of a call are skipped, and the parenthesis in them is not closed. -/
theorem not_declarations_joined_by_semicolon :
    ¬∀ (first second : List UInt8) (name : String) (a b : SourceUnit),
      SourceUnit.parse name (Text.decode first) = .ok a →
      SourceUnit.parse name (Text.decode second) = .ok b →
      (TokenStream.lex (Text.decode first)).NotCut →
      ∃ u, SourceUnit.parse name
      (Text.decode (first ++ (Text.ofString "\n;\n").encode ++ second))
          = .ok u ∧
        ∀ tables, u.declarations tables = a.declarations tables ++ b.declarations tables := by
  intro hall
  let first := (Text.ofString "type X = (\x7b m(a = f<(>(b)): string \x7d)").encode
  let second := (Text.ofString ") => y").encode
  obtain ⟨hfirst, hsecond, hcut, hfails⟩ :
      (SourceUnit.parse "e" (Text.decode first)).toOption.any (fun _ => true) = true ∧
      (SourceUnit.parse "e" (Text.decode second)).toOption.any (fun _ => true) = true ∧
      (TokenStream.lex (Text.decode first)).NotCut ∧
      (SourceUnit.parse "e"
        (Text.decode (first ++ (Text.ofString "\n;\n").encode ++ second))).isOk = false := by
    rw [decode_semicolon, Text.decode_encode_ofString, Text.decode_encode_ofString,
      Text.ofString_ofList, Text.ofString_ofList]
    decide +kernel
  obtain ⟨a, ha, -⟩ := exists_ok_of_any _ hfirst
  obtain ⟨b, hb, -⟩ := exists_ok_of_any _ hsecond
  obtain ⟨u, hu, -⟩ := hall first second "e" a b ha hb hcut
  rw [hu] at hfails
  cases hfails

/-- **Two files with a line end between them are one file with the declarations of both** if the
first ends with a literal or a closing bracket and the second starts with `export`, unless a
parenthesis or an angle bracket that the first leaves open is closed in the second. -/
theorem declarations_joined_before_export (first second : List UInt8) (name : String)
    (ha : SourceUnit.parse name (Text.decode first) = .ok a)
    (hb : SourceUnit.parse name (Text.decode second) = .ok b)
    (hfinal : ∃ t ∈ (TokenStream.lex (Text.decode first)).tokens.getLast?, t.IsFinal)
    (hexport : ∃ t ∈ (TokenStream.lex (Text.decode second)).tokens.head?,
      t.kind = .ident ∧ t.text = Text.ofString "export")
    (hopen : ¬ParenthesisAcross (TokenStream.lex (Text.decode first)).tokens
      (TokenStream.lex (Text.decode second)).tokens)
    (hangle : ¬AngleAcross (TokenStream.lex (Text.decode first)).tokens
      (TokenStream.lex (Text.decode second)).tokens) :
    ∃ u, SourceUnit.parse name (Text.decode (first ++ (Text.ofString "\n").encode ++ second))
        = .ok u ∧
      ∀ tables, u.declarations tables = a.declarations tables ++ b.declarations tables := by
  rw [decode_line]
  exact declarations_before_export ha hb hfinal hexport hopen hangle

/-- An angle bracket that is left open is no reason to go on, if none is closed behind it. -/
theorem declarations_joined_before_export_string :
    let first := (Text.ofString "export interface A \x7b\x7d\nlet x = a < 's'").encode
    let second := (Text.ofString "export interface B \x7b\x7d").encode
    ∃ a b u, SourceUnit.parse "e" (Text.decode first) = .ok a ∧
      SourceUnit.parse "e" (Text.decode second) = .ok b ∧
      SourceUnit.parse "e" (Text.decode (first ++ (Text.ofString "\n").encode ++ second)) = .ok u
      ∧ (a.declarations .empty).length = 1 ∧ (b.declarations .empty).length = 1 ∧
      ∀ tables, u.declarations tables = a.declarations tables ++ b.declarations tables := by
  intro first second
  obtain ⟨hfirst, hsecond, hfinal, hexport, hopen, hangle⟩ :
      (SourceUnit.parse "e" (Text.decode first)).toOption.any
        (fun u => (u.declarations .empty).length == 1) = true ∧
      (SourceUnit.parse "e" (Text.decode second)).toOption.any
        (fun u => (u.declarations .empty).length == 1) = true ∧
      (∃ t ∈ (TokenStream.lex (Text.decode first)).tokens.getLast?, t.IsFinal) ∧
      (∃ t ∈ (TokenStream.lex (Text.decode second)).tokens.head?,
        t.kind = .ident ∧ t.text = Text.ofString "export") ∧
      ¬ParenthesisAcross (TokenStream.lex (Text.decode first)).tokens
        (TokenStream.lex (Text.decode second)).tokens ∧
      ¬AngleAcross (TokenStream.lex (Text.decode first)).tokens
        (TokenStream.lex (Text.decode second)).tokens := by
    rw [Text.decode_encode_ofString, Text.decode_encode_ofString, Text.ofString_ofList,
      Text.ofString_ofList]
    decide +kernel
  obtain ⟨a, ha, hone⟩ := exists_ok_of_any _ hfirst
  obtain ⟨b, hb, hone'⟩ := exists_ok_of_any _ hsecond
  obtain ⟨u, hu, hdecls⟩ :=
    declarations_joined_before_export first second "e" ha hb hfinal hexport
    hopen hangle
  exact ⟨a, b, u, ha, hb, hu, beq_iff_eq.1 hone, beq_iff_eq.1 hone', hdecls⟩

/-- A source that loses the one declaration of its second part. It is told from the numbers of
declarations: one in the second file, and none in the whole. -/
theorem exists_lost (first second : List UInt8)
    (hfirst : (SourceUnit.parse "e" (Text.decode first)).isOk = true)
    (hsecond : (SourceUnit.parse "e" (Text.decode second)).toOption.any
      (fun u => (u.declarations .empty).length == 1) = true)
    (hwhole : (SourceUnit.parse "e"
        (Text.decode (first ++ (Text.ofString "\n").encode ++ second))).toOption.any
      (fun u => (u.declarations .empty).length == 0) = true) :
    ∃ a b, SourceUnit.parse "e" (Text.decode first) = .ok a ∧
      SourceUnit.parse "e" (Text.decode second) = .ok b ∧
      ¬∃ u, SourceUnit.parse "e" (Text.decode (first ++ (Text.ofString "\n").encode ++ second))
          = .ok u ∧
        ∀ tables, u.declarations tables = a.declarations tables ++ b.declarations tables := by
  obtain ⟨b, hb, hone⟩ := exists_ok_of_any _ hsecond
  obtain ⟨u, hu, hnone⟩ := exists_ok_of_any _ hwhole
  cases ha : SourceUnit.parse "e" (Text.decode first) with
  | error e => rw [ha] at hfirst; cases hfirst
  | ok a =>
    refine ⟨a, b, rfl, hb, ?_⟩
    rintro ⟨u', hu', hdecls⟩
    rw [hu] at hu'
    cases hu'
    have hlen := congrArg List.length (hdecls .empty)
    rw [List.length_append, beq_iff_eq.1 hone, beq_iff_eq.1 hnone] at hlen
    omega

/-- Behind `++` the line end does not end the statement, and the declaration is lost. Nor can
the condition on angle brackets be left out: `a < f(0)` is taken for the beginning of type
arguments that reach over a whole declaration. -/
theorem not_declarations_joined_before_export :
    (¬∀ (first second : List UInt8) (name : String) (a b : SourceUnit),
      SourceUnit.parse name (Text.decode first) = .ok a →
      SourceUnit.parse name (Text.decode second) = .ok b →
      (∃ t ∈ (TokenStream.lex (Text.decode first)).tokens.getLast?, t.is "++" = true) →
      (∃ t ∈ (TokenStream.lex (Text.decode second)).tokens.head?,
        t.kind = .ident ∧ t.text = Text.ofString "export") →
      ∃ u, SourceUnit.parse name (Text.decode (first ++ (Text.ofString "\n").encode ++ second))
          = .ok u ∧
        ∀ tables, u.declarations tables = a.declarations tables ++ b.declarations tables) ∧
    ¬∀ (first second : List UInt8) (name : String) (a b : SourceUnit),
      SourceUnit.parse name (Text.decode first) = .ok a →
      SourceUnit.parse name (Text.decode second) = .ok b →
      (∃ t ∈ (TokenStream.lex (Text.decode first)).tokens.getLast?, t.IsFinal) →
      (∃ t ∈ (TokenStream.lex (Text.decode second)).tokens.head?,
        t.kind = .ident ∧ t.text = Text.ofString "export") →
      ∃ u, SourceUnit.parse name (Text.decode (first ++ (Text.ofString "\n").encode ++ second))
          = .ok u ∧
        ∀ tables, u.declarations tables = a.declarations tables ++ b.declarations tables := by
  constructor
  · intro hall
    let first := (Text.ofString "x++").encode
    let second := (Text.ofString "export interface A \x7b a: string \x7d").encode
    obtain ⟨hfirst, hsecond, hwhole, hlast, hexport⟩ :
        (SourceUnit.parse "e" (Text.decode first)).isOk = true ∧
        (SourceUnit.parse "e" (Text.decode second)).toOption.any
          (fun u => (u.declarations .empty).length == 1) = true ∧
        (SourceUnit.parse "e"
            (Text.decode (first ++ (Text.ofString "\n").encode ++ second))).toOption.any
          (fun u => (u.declarations .empty).length == 0) = true ∧
        (∃ t ∈ (TokenStream.lex (Text.decode first)).tokens.getLast?, t.is "++" = true) ∧
        ∃ t ∈ (TokenStream.lex (Text.decode second)).tokens.head?,
          t.kind = .ident ∧ t.text = Text.ofString "export" := by
      rw [decode_line, Text.decode_encode_ofString, Text.decode_encode_ofString,
        Text.ofString_ofList, Text.ofString_ofList]
      decide +kernel
    obtain ⟨a, b, ha, hb, hlost⟩ := exists_lost first second hfirst hsecond hwhole
    exact hlost (hall first second "e" a b ha hb hlast hexport)
  · intro hall
    let first := (Text.ofString "const x = a < f(0)").encode
    let second :=
      (Text.ofString "export interface A \x7b a: string \x7d\nexport const y = b > (c)").encode
    obtain ⟨hfirst, hsecond, hwhole, hfinal, hexport⟩ :
        (SourceUnit.parse "e" (Text.decode first)).isOk = true ∧
        (SourceUnit.parse "e" (Text.decode second)).toOption.any
          (fun u => (u.declarations .empty).length == 1) = true ∧
        (SourceUnit.parse "e"
            (Text.decode (first ++ (Text.ofString "\n").encode ++ second))).toOption.any
          (fun u => (u.declarations .empty).length == 0) = true ∧
        (∃ t ∈ (TokenStream.lex (Text.decode first)).tokens.getLast?, t.IsFinal) ∧
        ∃ t ∈ (TokenStream.lex (Text.decode second)).tokens.head?,
          t.kind = .ident ∧ t.text = Text.ofString "export" := by
      rw [decode_line, Text.decode_encode_ofString, Text.decode_encode_ofString,
        Text.ofString_ofList, Text.ofString_ofList]
      decide +kernel
    obtain ⟨a, b, ha, hb, hlost⟩ := exists_lost first second hfirst hsecond hwhole
    exact hlost (hall first second "e" a b ha hb hfinal hexport)

end Exemplar
