import Exemplar.Builder.Values
import Exemplar.Proofs.Text.Splicing
import Exemplar.Proofs.Text.Unquoting
import Exemplar.Proofs.Token.Quoting

/-!
# Names as string literals

A default value of a text is named after where it stands, and the name is written as a literal.
Names come from files and may hold anything: quotes, backslashes, line feeds, bytes that are no
characters. The literal is one token all the same, and it tells the name: two names with the
same literal are the same name, byte for byte.
-/

namespace Exemplar

open Text (decode ofString)

/-- **A quoted text is a token**, wherever it stands and whatever comes behind it. -/
theorem TokenStream.lexFrom_quoted (prev : Option Token) (here : Position) (t u : Text) :
    lexFrom prev here (ofString t.quoted ++ u) =
      cons ⟨.string, ofString t.quoted, ⟨here, here.after (ofString t.quoted)⟩, false⟩
        (lexFrom
          (some ⟨.string, ofString t.quoted, ⟨here, here.after (ofString t.quoted)⟩, false⟩)
          (here.after (ofString t.quoted)) u) := by
  rw [ofString_quoted]
  exact lexFrom_word (by decide) (by decide) (Lexeme.first_quoted prev t u)

/-- A factory that writes something around a quoted name tells names apart. -/
theorem injective_of_quoted {write : Text → Text} (front back : Text)
    (h : ∀ name, write name = front ++ ofString name.quoted ++ back) :
    Function.Injective fun name : List UInt8 => write (decode name) := by
  intro a b hab
  have hab' : front ++ ofString (decode a).quoted ++ back
      = front ++ ofString (decode b).quoted ++ back := by
    rw [← h, ← h]
    exact hab
  exact Text.quoted_decode_injective
    (Text.ofString_inj.1 (List.append_cancel_left (List.append_cancel_right hab')))

/-- **Names survive as string literals.** A name of any bytes, quoted and in front of any bytes,
is lexed to one string literal first, whose text is the quoted name. Different names have
different quoted forms, and so the texts that the factories write for them differ as well. -/
theorem names_survive_quoting :
    (∀ name rest : List UInt8, ∃ t : Token,
      (TokenStream.lex (decode ((ofString (decode name).quoted).encode ++ rest))).tokens.head?
      = some t ∧
        t.kind = .string ∧ t.text = ofString (decode name).quoted ∧ t.start = .start ∧
        t.newlineBefore = false) ∧
    (Function.Injective fun name : List UInt8 => (decode name).quoted) ∧
    (∀ receiver : String,
      Function.Injective fun name : List UInt8 =>
      (ValueFactory.sampling receiver).string (decode name)) ∧
    Function.Injective fun name : List UInt8 => ValueFactory.literal.string (decode name) := by
  refine ⟨fun name rest => ?_, Text.quoted_decode_injective, fun receiver => ?_, ?_⟩
  · rw [Text.decode_ofString_append, TokenStream.lex, TokenStream.lexFrom_quoted]
    exact ⟨_, rfl, rfl, rfl, rfl, rfl⟩
  · exact injective_of_quoted _ (ofString ")") fun _ => rfl
  · exact injective_of_quoted [] [] fun _ => (List.append_nil _).symm

/-- A name with a quote, a line feed and a byte that is no character. -/
example : (decode [0x61, 0x22, 0x0a, 0xff]).quoted = "\"a\\\"\\n\\xff\"" := by decide +kernel

end Exemplar
