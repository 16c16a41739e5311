import Exemplar.Proofs.Grammar.Breakdown

/-!
# Parsing comes to an end

The loops of the grammar are given one round more than there are tokens ahead, and nested types
one level more. Here it is shown that neither bound is ever used up, so the bounds are no part
of what the grammar says: a parser that stops without a result has something else to say.

That is so for two reasons. A round that goes on consumes a token, whatever the loop; `Round`
lists the loops there are. And a rule reads a nested type only behind a token it has consumed,
or hands on to the next rule in a fixed order.
-/

namespace Exemplar

open Exemplar.Tree

namespace Parser

variable {α : Type} {c c' : Cursor}

/-- The parsers that read the types in a rule: those for nested types, or that for types in
units. -/
inductive ReadsType : Parser TypeExpr → Prop
  /-- A type nested in a type, with some depth left. -/
  | nested (n : Nat) : ReadsType (nested n).type
  /-- A type in a unit. -/
  | outer : ReadsType typeExpr

theorem ReadsType.moves {type : Parser TypeExpr} (h : ReadsType type) : Moves type := by
  cases h <;> infer_instance

/-- The rounds of the loops of the grammar. -/
inductive Round : {α : Type} → Parser (Option α) → Prop
  /-- The statements of a unit. -/
  | statement : Round nextStatement
  /-- The modifiers of a statement. -/
  | statementModifier (before : Modifiers) : Round (modifierRound before)
  /-- The members of a class. -/
  | classMember : Round nextClassMember
  /-- The modifiers of a member of a class. -/
  | memberModifier : Round (modifierWord (ahead (isWordOf memberModifiers) startsKey))
  /-- The pieces of the expression a class extends. -/
  | base : Round (onceMore (do return continuesBase (← current)) skipItem)
  /-- The references a class or interface names as its bases. -/
  | heritage : Round (itemBehind "," (typeReference typeExpr))
  /-- The members of an enumeration. -/
  | enumMember : Round (itemBefore "\x7d" enumMember)
  /-- The variables of a statement. -/
  | declarator : Round nextDeclarator
  /-- The members of an interface or an object type. -/
  | typeMember {type : Parser TypeExpr} (h : ReadsType type) :
    Round (nextMember type)
  /-- The parameters of a signature, or of an index signature. -/
  | parameter (closer : String) {type : Parser TypeExpr} (h : ReadsType type) :
    Round (itemBefore closer (parameter type))
  /-- The modifiers of a parameter. -/
  | parameterModifier : Round (modifierWord (ahead (isWordOf parameterModifiers) startsBinding))
  /-- The decorators of a class, a member or a parameter. -/
  | decorator : Round (onceMore (got "@") do
      let _ ← entityName
      if ← is "(" then skipGroup)
  /-- Type parameters. -/
  | typeParameter {type : Parser TypeExpr} (h : ReadsType type) :
    Round (itemBefore ">" (typeParameter type))
  /-- The modifiers of a type parameter. -/
  | typeParameterModifier : Round (onceMore
      (ahead (fun t => t.is "const" || t.is "in" || t.is "out") (·.isIdent))
      (do let _ ← advance))
  /-- Type arguments. -/
  | typeArgument {type : Parser TypeExpr} (h : ReadsType type) :
    Round (itemBefore ">" type)
  /-- The elements of a tuple type. -/
  | tupleElement {type : Parser TypeExpr} (h : ReadsType type) :
    Round (itemBefore "]" (tupleElement type))
  /-- The brackets behind a type. -/
  | brackets (n : Nat) (t : TypeExpr) : Round (bracketed? (nested n).type t)
  /-- The parts of an intersection. -/
  | intersection (n : Nat) : Round (itemBehind "&" (operatorType (nested n)))
  /-- The parts of a union. -/
  | union (n : Nat) : Round (itemBehind "|" (intersectionType (nested n)))
  /-- The parts of a name with dots. -/
  | namePart : Round namePart
  /-- The pieces of a statement that is skipped. -/
  | skippedStatement (first : Bool) : Round (statementRound first)
  /-- The pieces of an expression that is skipped. -/
  | skippedExpression (first : Bool) : Round (expressionRound first)

/-- **A round that goes on has consumed a token.** -/
theorem Round.progress {next : Parser (Option α)} (h : Round next) : Progress next := by
  cases h <;> (try have := ReadsType.moves ‹_›) <;> infer_instance

theorem Round.moves {next : Parser (Option α)} (h : Round next) : Moves next := by
  cases h <;> (try have := ReadsType.moves ‹_›) <;> infer_instance

/-- A loop whose rounds make progress goes on at most as often as it consumes a token. -/
theorem length_add_le_of_collectUpTo {next : Parser (Option α)} [Moves next] [Progress next]
    {m : Nat} {found : List α} (hc : c.Visited) (h : collectUpTo next m c = .ok (found, c')) :
    found.length + c'.rest.length ≤ c.rest.length := by
  induction m generalizing c found with
  | zero => cases h
  | succ m ih =>
    obtain ⟨k, hk, ⟨rfl, hlast⟩ | ⟨a, as, c₁, rfl, hround, hmore⟩⟩ := collectUpTo_eq_ok h
    · rw [List.length_nil, Nat.zero_add]
      exact Moves.length_le hlast
    · cases hk
      have hlt := Progress.lt_of_some hc hround
      have := ih (hc.of_ok hround) hmore
      rw [List.length_cons]
      omega

/-! ## Giving up -/

/-- Giving up in a loop is never forgiven. -/
theorem not_tolerated_exhausted (X : Cursor → Prop) : ¬Halt.exhausted.Tolerated X c := by
  rintro (h | ⟨h, -⟩)
  · exact h
  · cases h

/-- **With more levels than tokens ahead, nested types are read to their end.** -/
theorem nested_ne_exhausted {m : Nat} (hc : c.Visited) (hm : c.rest.length < m) :
    (nested m).type c ≠ .error .exhausted ∧ (nested m).union c ≠ .error .exhausted ∧
      (nested m).operator c ≠ .error .exhausted := by
  have hsafe : Safe.NestedSafe (fun _ => False) m (nested m) := inferInstance
  have key : ∀ {p : Parser TypeExpr}, Safe (fun _ => False) m true 0 p →
      p c ≠ .error .exhausted :=
    fun h he => not_tolerated_exhausted _ (h.safeAt hc hm (Nat.zero_le _) _ he)
  exact ⟨key hsafe.type, key hsafe.union, key hsafe.operator⟩

end Parser

/-! ## Looking far ahead -/

namespace Brackets

theorem matching_lt {depth i : Nat} {ts : List Token} (h : matching depth ts = some i) :
    i < ts.length := by
  induction ts generalizing depth i with
  | nil => cases h
  | cons t rest ih =>
    rw [List.length_cons]
    rw [matching] at h
    split at h
    · obtain ⟨j, hj, rfl⟩ := Option.map_eq_some_iff.1 h
      exact Nat.succ_lt_succ (ih hj)
    split at h
    · split at h
      · cases h; exact Nat.succ_pos _
      · obtain ⟨j, hj, rfl⟩ := Option.map_eq_some_iff.1 h
        exact Nat.succ_lt_succ (ih hj)
    · obtain ⟨j, hj, rfl⟩ := Option.map_eq_some_iff.1 h
      exact Nat.succ_lt_succ (ih hj)

theorem AngleScan.next_eq_found {x : AngleScan} {i : Nat} (h : x.next = .found i) :
    ∃ j, x = .found j ∧ i = j + 1 := by
  cases x <;> cases h
  exact ⟨_, rfl, rfl⟩

theorem matchingAngle_lt {angles groups i : Nat} {ts : List Token}
    (h : matchingAngle angles groups ts = .found i) : i < ts.length := by
  induction ts generalizing angles groups i with
  | nil => cases h
  | cons t rest ih =>
    -- every branch that goes on does so on the rest, with other counts
    have hgo : ∀ {a g : Nat}, (matchingAngle a g rest).next = .found i →
        i < (t :: rest).length := by
      intro a g hn
      obtain ⟨j, hj, rfl⟩ := AngleScan.next_eq_found hn
      exact Nat.succ_lt_succ (ih hj)
    rw [matchingAngle.eq_def] at h
    dsimp only at h
    split at h
    · cases h
    split at h
    · exact hgo h
    split at h
    · split at h
      · cases h
      · exact hgo h
    split at h
    · exact hgo h
    split at h
    · split at h
      · cases h; exact Nat.succ_pos _
      · exact hgo h
    · exact hgo h

end Brackets

open Exemplar.Parser in
/-- **Parsing comes to an end.** Whatever the bytes of a source are, no loop uses up its rounds
and no type its levels. At every place a run can come to, a round of a loop that goes on
consumes a token, so a loop finds at most as many items as it consumes tokens; nested types are
read to their end with more levels than tokens ahead; and looking for a closing bracket stays
among the tokens ahead. -/
theorem parse_terminates (bytes : List UInt8) (name : String) :
    TypeExpr.parse (Text.decode bytes) ≠ .error .exhausted ∧
    SourceUnit.parse name (Text.decode bytes) ≠ .error .exhausted ∧
    ∀ c : Cursor, c.Visited →
      (∀ {α : Type} {next : Parser (Option α)} {a : α} {c' : Cursor}, Round next →
        next c = .ok (some a, c') → c'.rest.length < c.rest.length) ∧
      (∀ {α : Type} {next : Parser (Option α)} {found : List α} {c' : Cursor}, Round next →
        collect next c = .ok (found, c') → found.length + c'.rest.length ≤ c.rest.length) ∧
      (∀ m, c.rest.length < m → (nested m).type c ≠ .error .exhausted ∧
        (nested m).union c ≠ .error .exhausted ∧ (nested m).operator c ≠ .error .exhausted) ∧
      (∀ i, Brackets.matching 0 c.rest = some i → i < c.rest.length) ∧
      (∀ i, Brackets.matchingAngle 0 0 c.rest = .found i → i < c.rest.length) := by
  refine ⟨fun h => ?_, fun h => ?_, fun c hc => ⟨fun hround hnext => ?_, fun hround hloop => ?_,
    fun m hm => nested_ne_exhausted hc hm, fun i h => Brackets.matching_lt h,
    fun i h => Brackets.matchingAngle_lt h⟩⟩
  · exact not_tolerated_exhausted _ (tolerated_of_run (X := fun _ => False) h)
  · exact not_tolerated_exhausted _ (tolerated_of_run (X := Cursor.BreaksDown) h)
  · exact hround.progress.lt_of_some hc hnext
  · have := hround.moves
    have := hround.progress
    rw [collect_run] at hloop
    exact length_add_le_of_collectUpTo hc hloop

end Exemplar
