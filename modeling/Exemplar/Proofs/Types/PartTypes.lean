import Exemplar.Proofs.Grammar.PartExpressions
import Exemplar.Proofs.Types.TypeSimulation

/-!
# Types in a part of a source

A type that is read in a part of a source is read in the whole as well. The walk over the
grammar of types is the one of all simulations; what is shown here is that a part can be told
from the whole by none of its questions.

Most questions are pairs of tests. What comes behind a part is a semicolon, `export` or nothing,
so the second test of a pair may be asked of it. It does not tell a semicolon from nothing; and
where `export` comes behind, the last token of the part is a literal or a closing bracket, which
the first test fails. So each pair is listed as one that may look ahead (`LooksAhead`).
-/

namespace Exemplar.Parser

open Exemplar.Tree Exemplar.Brackets
open Exemplar.Cursor (Placed Alongside)

variable {e : Placement} {c c' d : Cursor}

-- The search for an instance is as deep as the rule is long.
set_option synthInstance.maxSize 100000

instance : TypeSigns Placement.words := {}

/-! ## Pairs of tests -/

namespace LooksAhead

/-! The tests are those that the rules ask together, in the order in which the grammar of types
comes to them. That a pair may look ahead is checked for the few words that can stand behind a
part. -/

instance : LooksAhead (·.is ".") (·.isIdent) := {}

instance : LooksAhead (isWordOf parameterModifiers) startsBinding := {}

instance : LooksAhead (fun t => t.is "const" || t.is "in" || t.is "out") (·.isIdent) := {}

instance : LooksAhead (·.is "asserts") (fun t => t.isIdent && !t.newlineBefore) := {}

instance : LooksAhead (·.isIdent) (fun t => t.is "is" && !t.newlineBefore) := {}

instance : LooksAhead (·.is "new") startsSignature := {}

instance : LooksAhead (·.is "readonly") startsKey := {}

instance : LooksAhead (fun t => t.is "get" || t.is "set") startsKey := {}

instance : LooksAhead (·.is "typeof") (fun next => !next.is ".") := {}

instance : LooksAhead (fun t => t.isIdent && isPredefined t.text) (fun next => !next.is ".") :=
  {}

instance : LooksAhead (·.is "-") (·.kind == .number) := {}

instance : LooksAhead isTypeOperator startsType := {}

instance : LooksAhead (·.is "infer") (·.isIdent) := {}

instance : LooksAhead (·.is "[") (·.isIdent) := {}

instance : LooksAhead (·.is "...") (·.isIdent) := {}

instance : LooksAhead (·.isIdent) (·.is ":") := {}

instance : LooksAhead (·.isIdent) (·.is "?") := {}

end LooksAhead

/-! The single marks that rules ask for where a part may have ended. None of them is a semicolon
or `export`. -/

instance : Inert Placement.words (·.is ":") := {}

instance : Inert Placement.words (·.is "+") := {}

instance : Inert Placement.words (·.is "readonly") := {}

instance : Inert Placement.words (·.is "in") := {}

instance : Inert Placement.words (·.is "=>") := {}

namespace Follows

/-! ## Longer questions

Some questions look further than one token behind the current one. Each of them is a chain of
pairs: where a token passes the first test of a pair, the next token is seen alike in the part
and in the whole. -/

/-- What the second of two tests sees further on. -/
theorem second_look (hc : Placed e c c') (f g : Token → Bool) [LooksAhead f g] {i : Nat}
    (hi : i < c.rest.length) (hf : f (c.look i) = true) :
    g (c.look (i + 1)) = g (c'.look (i + 1)) := by
  induction i generalizing c c' with
  | zero =>
    obtain ⟨t, more, hr⟩ := List.exists_cons_of_length_pos hi
    rw [Cursor.look_zero, Cursor.current_of_cons hr] at hf
    exact second_of_ahead hc f g hr hf
  | succ i ih =>
    obtain ⟨t, more, hr⟩ :=
      List.exists_cons_of_length_pos (Nat.lt_of_le_of_lt (Nat.zero_le _) hi)
    obtain ⟨t', more', hr', -, hpast⟩ := hc.past hr
    rw [hr, List.length_cons] at hi
    rw [Cursor.look_succ hr] at hf ⊢
    rw [Cursor.look_succ hr']
    exact ih hpast (Nat.lt_of_succ_lt_succ hi) hf

instance : Follows e .token mappedTypeAhead mappedTypeAhead where
  endsLike hc h hr := Simulates.mappedTypeAhead_of hc hr
    (fun _ => second_look hc (·.is "[") (·.isIdent)) h

/-- A parenthesis that is not closed in the part is not closed behind it either. -/
instance : Follows e .token functionTypeAhead functionTypeAhead where
  endsLike hc h hr := Simulates.functionTypeAhead_of hc hr hc.matching_eq h

instance : Follows e .token indexSignatureAhead indexSignatureAhead := by
  unfold indexSignatureAhead; infer_instance

instance : Follows e .token namedElementAhead namedElementAhead := by
  unfold namedElementAhead; infer_instance

instance : TypeTests (Placed e) where
  index := inferInstance
  mapped := inferInstance
  function := inferInstance

/-! ## Rules that are close to the end

A parameter, a signature or an element of a tuple stands in brackets that are closed in the
part. So a token is left where such a rule ends, and it is followed as long as that is so. -/

instance : Follows e .inside skipDefault skipDefault := by unfold skipDefault; infer_instance

section Nested

variable {type type' : Parser TypeExpr} [Moves type] [Follows e .anywhere type type']
  (start start' : Position)

instance : Follows e .inside (parameter type) (parameter type') := by
  unfold parameter; infer_instance

theorem parameters : Follows e .anywhere (parameters type) (parameters type') := by
  unfold Parser.parameters; infer_instance

theorem indexSignature :
    Follows e .inside (indexSignature type start) (indexSignature type' start') := by
  unfold Parser.indexSignature; infer_instance

theorem tupleElement : Follows e .inside (tupleElement type) (tupleElement type') := by
  unfold Parser.tupleElement; infer_instance

end Nested

/-- **Types are followed**: the part supplies what the walk over their grammar asks for. -/
instance : TypeRules (Placed e) where
  parameters := parameters
  indexSignature := indexSignature
  tupleElement := tupleElement

end Follows

end Exemplar.Parser
