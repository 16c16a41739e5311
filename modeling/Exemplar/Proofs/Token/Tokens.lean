import Exemplar.Proofs.Token.Words

/-!
# The tokens of a source

What is true of every token of a source and of the end behind them, whatever the source is. A
token is never the end of the source and never a literal left open, for those stand behind the
tokens; the text of an identifier is one, and only that of the last token of a source can be cut
off in the middle of an escape.

That an identifier may be cut off comes from escapes. An escape with a brace goes on up to the
closing one, so a source that ends before it ends within an identifier, and the lexer takes what
is there for one all the same. Behind such a token nothing follows, so `Token.Regular` is told
of a token together with those behind it.
-/

namespace Exemplar

open Exemplar.Lexeme Exemplar.Text.Identifier

/-- The tokens end with the source, and nothing is left open. -/
structure Ending.Clean (e : Ending) : Prop where
  /-- The last token is the end of the source. -/
  kind : e.token.kind = .eof
  /-- It has no text. -/
  text : e.token.text = []
  /-- Nothing is left open. -/
  fault : e.fault = none

/-- The end of a source is no word. -/
theorem Ending.Clean.is_eq_false {e : Ending} (h : e.Clean) (w : String) :
    e.token.is w = false := by
  simp [Token.is, h.kind]

/-- What is true of a token before the tokens `more`. -/
structure Token.Regular (t : Token) (more : List Token) : Prop where
  /-- It is not the end. -/
  not_eof : t.isEof = false
  /-- If it is an identifier, its text is one. -/
  name : t.isIdent = true → IsName (more = []) t.text

/-- What is true of the tokens of a source. -/
structure TokenStream.Regular (s : TokenStream) : Prop where
  /-- Each token is regular before those behind it. -/
  tokens : ∀ {front : List Token} {t : Token} {more : List Token},
    s.tokens = front ++ t :: more → t.Regular more
  /-- Unless something is left open, the tokens end with the source. -/
  ending : s.ending.fault = none → s.ending.Clean

namespace Lexeme

/-- A literal that is closed has its own kind. -/
theorem delimited_kind {kind : Token.Kind} (x : Extent) (h : (delimited kind x).fault = none) :
    (delimited kind x).kind = kind := by
  cases x with
  | closed n => rfl
  | broken n f => cases h

/-- A lexeme that ends is no end of the source. -/
theorem first_kind_ne_eof (prev : Option Token) (g : Glyph) (rest : Text)
    (h : (first prev g rest).fault = none) : (first prev g rest).kind ≠ .eof := by
  revert h
  unfold first
  -- By what the first glyph starts; each of the cases gives a kind that is not the end.
  split
  · exact fun _ => nofun
  split
  · exact fun _ => nofun
  split
  · exact fun _ => nofun
  split
  · exact fun h => by rw [delimited_kind _ h]; nofun
  split
  · exact fun h => by rw [delimited_kind _ h]; nofun
  split
  · exact fun h => by rw [delimited_kind _ h]; nofun
  · exact fun _ => nofun

/-- What the scan of an identifier went through is one, cut off only where the source ends. -/
theorem scanned_take (t : Text) :
    ∃ m, NameMode.plain.read (t.take (nameLength .plain t)) = some m ∧
      (m.Done ∨ t.drop (nameLength .plain t) = []) := by
  obtain ⟨m, hm, hz⟩ := read_take_nameLength .plain t
  refine ⟨m, hm, ?_⟩
  cases hd : t.drop (nameLength .plain t) with
  | nil => exact .inr rfl
  | cons h u => rw [hd] at hz; exact .inl (done_of_nameLength_eq_zero hz).1

/-- **The lexeme of an identifier is one**, cut off only where the source ends. -/
theorem isName_of_first {prev : Option Token} {g : Glyph} {rest : Text}
    (hk : (first prev g rest).kind = .ident) (hf : (first prev g rest).fault = none) :
    IsName (rest.drop ((first prev g rest).length - 1) = [])
      ((g :: rest).take (first prev g rest).length) := by
  revert hk hf
  unfold first
  -- Only two cases give an identifier: one that starts with a letter or an escape, and one
  -- behind `#`.
  split
  · rename_i hs
    intro _ _
    have hg : isStart g.toChar = true ∨ g.is '\\' = true := by simpa using hs
    have hhash : g.is '#' = false := by
      rcases hg with hg | hg
      · exact is_eq_false_of_isStart hg (by decide)
      · simp only [Glyph.is, beq_iff_eq] at hg
        simp [Glyph.is, hg]
    obtain ⟨m, hm, hd⟩ := scanned_take (g :: rest)
    obtain ⟨n, hn⟩ : ∃ n, nameLength .plain (g :: rest) = n + 1 := by
      have hstep : NameMode.next? .plain g ≠ none := by
        rw [Ne, NameMode.next?_eq_none (.inl rfl)]
        rcases hg with hg | hg <;> simp [hg, isContinue_of_isStart]
      obtain ⟨m', hm'⟩ := Option.ne_none_iff_exists'.1 hstep
      exact ⟨nameLength m' rest, by rw [nameLength_cons, hm', Nat.add_comm]⟩
    simp only [whole, hn, List.take_succ_cons, List.drop_succ_cons, Nat.add_sub_cancel]
      at hm hd ⊢
    refine ⟨⟨g, _, rfl, hg.imp id .inl⟩, m, ?_, hd⟩
    rw [nameBody, hhash]
    exact hm
  split
  · rename_i hs
    intro _ _
    rw [Bool.and_eq_true] at hs
    obtain ⟨hhash, hh⟩ := hs
    obtain ⟨h, u, rfl, hstart⟩ : ∃ h u, rest = h :: u ∧ isStart h.toChar = true := by
      cases rest with
      | nil => cases hh
      | cons h u => exact ⟨h, u, rfl, by simpa using hh⟩
    obtain ⟨m, hm, hd⟩ := scanned_take (h :: u)
    obtain ⟨n, hn⟩ : ∃ n, nameLength .plain (h :: u) = n + 1 := by
      refine ⟨nameLength .plain u, ?_⟩
      have hb : h.is '\\' = false := is_eq_false_of_isStart hstart (by decide)
      simp [nameLength, hb, isContinue_of_isStart hstart, Nat.add_comm]
    simp only [whole, Nat.add_comm 1, List.take_succ_cons, Nat.add_sub_cancel]
    rw [hn] at hm hd ⊢
    refine ⟨⟨g, _, rfl, .inr (.inr ⟨hhash, h, u.take n, by rw [List.take_succ_cons], hstart⟩)⟩,
      m, ?_, hd⟩
    rw [nameBody, hhash]
    exact hm
  split
  · intro hk; cases hk
  split
  · intro hk hf; rw [delimited_kind _ hf] at hk; cases hk
  split
  · intro hk hf; rw [delimited_kind _ hf] at hk; cases hk
  split
  · intro hk hf; rw [delimited_kind _ hf] at hk; cases hk
  · intro hk; cases hk

end Lexeme

namespace TokenStream

/-- Where no token is left there is nothing to show. -/
theorem regular_atEnd (here : Position) (newline : Bool) (fault : Option LexicalFault) :
    (atEnd here newline fault).Regular where
  tokens h := by
    have := congrArg List.length h
    simp [atEnd] at this
  ending h := ⟨rfl, rfl, h⟩

/-- A regular token in front of regular ones. -/
theorem Regular.cons {t : Token} {s : TokenStream} (ht : t.Regular s.tokens) (hs : s.Regular) :
    (TokenStream.cons t s).Regular where
  tokens {front u more} h := by
    cases front with
    | nil =>
      obtain ⟨rfl, rfl⟩ := List.cons.inj h
      exact ht
    | cons v front => exact hs.tokens (List.cons.inj h).2
  ending := hs.ending

/-- No token is left in an empty text. -/
theorem lexFrom_nil (prev : Option Token) (here : Position) :
    (lexFrom prev here []).tokens = [] := by
  rw [lexFrom_eq]; rfl

/-- **The tokens of a source are regular.** By induction on the length of what is left. What
follows a token is shorter, and if it is empty, there are no tokens behind it. -/
theorem regular_lexFrom (prev : Option Token) (here : Position) (rest : Text) :
    (lexFrom prev here rest).Regular := by
  induction hn : rest.length using Nat.strongRecOn generalizing prev here rest with
  | ind n ih =>
    subst hn
    rw [lexFrom_eq]
    dsimp only
    split
    · cases hd : rest.drop (Gap.before rest).length with
      | nil => exact regular_atEnd _ _ _
      | cons g more =>
        dsimp only
        cases hf : (Lexeme.first prev g more).fault with
        | some fault =>
          exact ⟨fun h => by
            have := congrArg List.length h
            simp at this, fun h => by cases h⟩
        | none =>
          refine Regular.cons ⟨?_, fun hi => ?_⟩ (ih _ (length_drop_lt hd _) _ _ _ rfl)
          · exact beq_eq_false_iff_ne.2 (Lexeme.first_kind_ne_eof prev g more hf)
          · have hk : (Lexeme.first prev g more).kind = .ident := beq_iff_eq.1 hi
            refine (Lexeme.isName_of_first hk hf).mono fun hnil => ?_
            rw [hnil]
            exact lexFrom_nil _ _
    · exact regular_atEnd _ _ _

end TokenStream

end Exemplar
