import Exemplar.Proofs.Grammar.TextPieces
import Exemplar.Proofs.Types.FirstWords

/-!
# A type as a part of a larger one

A text that is a type on its own is read in the same way as a part of a larger type, whatever
that is, if something comes behind it that may come behind a type. What is asked of the text is
that every bracket in it has its partner: one that is left open would be closed by what comes
behind.

The run that read the text alone is followed by a run on the larger source (`Persists`), which
stops where the text ends. To make a reading of this, its words are forgotten to be those of a
source: all that counts is which words were ahead, and where they stand plays no part. The fuel
of the run alone is not that of the larger one, but more fuel makes no difference.
-/

namespace Exemplar

open Exemplar.Tree Exemplar.Brackets

/-- The tokens of a text. -/
def Text.tokens (x : Text) : List Token := (TokenStream.lex x).tokens

/-- The words of a text. -/
def Text.words (x : Text) : List Word := x.tokens.map Token.word

namespace Parser

variable {x : Text} {t : TypeExpr} {d : Cursor} {F : List Word}

/-- **A run over a whole source is a reading of its words wherever they stand.** If a bracket is
left open in the source, it must be at the end. -/
theorem reads_of_run {p p' : Parser TypeExpr} [Moves p'] [∀ more, Persists more .anywhere p p']
    (hx : (startOf x).Regular) (h : p (startOf x) = .ok (t, d)) (hd : d.rest = [])
    (hF : ∀ w ∈ F, w ∈ fences)
    (hbalanced : (∃ w ∈ F, w.token.isEof = false) → level 0 x.tokens = some 0) :
    Reads p' x.words F (SameBare t ·) := by
  intro c more hc
  obtain ⟨toks, hr, hw⟩ := hc.split
  have hbalanced' : more ≠ [] → level 0 x.tokens = some 0 := fun hm => by
    refine hbalanced (by_contra fun hno => hm (hc.eq_nil fun w hw => ?_))
    exact Bool.not_eq_false _ ▸ fun h => hno ⟨w, hw, h⟩
  -- The text stands between the place and what comes behind.
  have henclosed : Cursor.Enclosed more (startOf x) c :=
    ⟨⟨.refl _, fun _ => hx.clean.fault⟩, hbalanced', hx.clean, hc.clean,
      ⟨toks, hr, sameBare_of_words hw.symm⟩, hF _ hc.next, fun h => absurd rfl h⟩
  have hpersists : Persists more .anywhere p p' := inferInstance
  obtain ⟨t', d', hp', ht, hend⟩ := hpersists.endsLike henclosed h trivial
  exact ⟨t', d', hp', hend.rest_of_nil hd, Moves.ending_of_ok hp', ht⟩

/-- **A text that is a type is read as that type wherever it stands**, as long as types may nest
as deep as it has words. -/
theorem reads_of_parse (h : TypeExpr.parse x = .ok t) (hF : ∀ w ∈ F, w ∈ fences)
    (hbalanced : (∃ w ∈ F, w.token.isEof = false) → level 0 x.tokens = some 0) {k : Nat}
    (hk : x.words.length ≤ k) :
    Reads (anyType (nested k)) x.words F (SameBare t ·) := by
  obtain ⟨hx, d, hrun, hd⟩ := type_eq_ok h
  have hdepth : (startOf x).rest.length + 1 ≤ k + 1 := by
    rw [Text.words, List.length_map] at hk
    exact Nat.succ_le_succ hk
  have hpersists (more : List Token) : Persists more .anywhere
      (nested ((startOf x).rest.length + 1)).type (anyType (nested k)) :=
    (Simulates.nested hdepth).type
  have hrun' : (nested ((startOf x).rest.length + 1)).type (startOf x) = .ok (t, d) := hrun
  exact reads_of_run hx hrun' hd hF hbalanced

/-- The words of a type begin like a type. -/
theorem begins_of_parse (h : TypeExpr.parse x = .ok t) : Begins x.words := by
  obtain ⟨hx, d, hrun, hd⟩ := type_eq_ok h
  exact begins_of_run hx hrun hd

/-- The first token of a text that is a type is no regular expression, and if it is a
punctuator, it is one that opens a type. -/
theorem first_of_parse (h : TypeExpr.parse x = .ok t) : ∀ u ∈ x.tokens.head?, u.kind ≠ .regex ∧
    (u.kind = .punct → ∃ w ∈ openingMarks ++ openingWords, u.text = Text.ofString w) := by
  intro u hu
  obtain ⟨us, hus⟩ := List.head?_eq_some_iff.1 hu
  have hopen : opensType u = true := by
    have hmem : u.word ∈ heads x.words [] := by
      rw [Text.words, hus]
      exact List.mem_singleton.2 rfl
    exact (begins_of_parse h).opens _ hmem
  obtain hk | ⟨w, hw, hu⟩ := opensType_cases hopen
  · simp only [List.mem_cons, List.not_mem_nil, or_false] at hk
    obtain hk | hk | hk | hk := hk <;> rw [hk] <;> exact ⟨by decide, fun h => by cases h⟩
  · rw [Token.is, Bool.and_eq_true, Bool.or_eq_true, beq_iff_eq, beq_iff_eq, beq_iff_eq] at hu
    refine ⟨fun hr => ?_, fun _ => ⟨w, hw, hu.2⟩⟩
    rw [hr] at hu
    obtain ⟨hk | hk, -⟩ := hu <;> cases hk

/-- So no type starts with a slash. -/
theorem noSlashFirst_of_parse (h : TypeExpr.parse x = .ok t) :
    (TokenStream.lex x).NoSlashFirst := by
  have key : ∀ w ∈ openingMarks ++ openingWords, ∀ g
      ∈ (Text.ofString w).head?, g.is '/' = false := by decide
  refine TokenStream.noSlashFirst_of_head (type_eq_ok h).1.clean.fault fun u hu => ?_
  obtain ⟨hregex, hpunct⟩ := first_of_parse h u hu
  refine ⟨hregex, fun hk => ?_⟩
  obtain ⟨w, hw, hx⟩ := hpunct hk
  rw [hx]
  exact key w hw

/-- A text that is a type does not start with an equals sign. -/
theorem head_of_parse (h : TypeExpr.parse x = .ok t) : ∀ g ∈ x.head?, g ≠ .char '=' := by
  rintro g hg rfl
  obtain ⟨more, rfl⟩ := List.head?_eq_some_iff.1 hg
  have key : ∀ w ∈ openingMarks ++ openingWords, ∀ g ∈ (Text.ofString w).head?, g
      ≠ .char '=' := by decide
  have hgap : Gap.before (.char '=' :: more) = .none :=
    Gap.before_eq_none (by decide) (by decide)
  have hfirst : Lexeme.first none (.char '=') more
      = .whole .punct (Lexeme.punctuatorLength (.char '=' :: more)) :=
    Lexeme.first_of_isMark (by decide) fun h => by cases h
  have hl : (Lexeme.first none (.char '=') more).fault = none := by rw [hfirst]; rfl
  have hlex : TokenStream.lex (.char '=' :: more) = _ := TokenStream.lexFrom_of_token
    (x := .char '=' :: more) (by rw [hgap]; rfl) (by rw [hgap]; rfl) hl
  have hhead := first_of_parse h
  rw [Text.tokens, hlex] at hhead
  obtain ⟨w, hw, hx⟩ := (hhead _ rfl).2 (by rw [TokenStream.tokenAt, hfirst]; rfl)
  obtain ⟨k, hk⟩ := Nat.exists_eq_add_one.2 (Lexeme.first_length_pos none (.char '=') more)
  rw [TokenStream.tokenAt, hk] at hx
  exact key w hw _ (by rw [← hx]; rfl) rfl

end Parser

end Exemplar
