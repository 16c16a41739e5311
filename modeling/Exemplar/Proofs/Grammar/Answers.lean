import Exemplar.Proofs.Grammar.Running
import Mathlib.Data.List.Basic

/-!
# What parsers answer

Some facts about what a parser answers do not depend on where it runs. They are read off the way
the parser is put together: what is known of the answer of a part is handed on to the next, a
loop lists answers of its rounds or keeps what they keep, and so do the lists of items that are
loops.

There are two degrees of this. A rule may have to be followed step by step, with the answers of
the parts in hand (`Answers`). Where only the form of the tree counts that it builds in the end,
no step before that matters, and the fact is found by the search for instances (`Builds`).
-/

namespace Exemplar.Parser

open Exemplar.Tree

variable {α β σ : Type} {p : Parser α} {P : α → Prop} {c c' : Cursor}

/-- `P` holds of what is there, if anything is. -/
inductive IfAny (P : α → Prop) : Option α → Prop
  /-- Nothing is there. -/
  | none : IfAny P none
  /-- Something is. -/
  | some {a : α} (h : P a) : IfAny P (some a)

/-- What is there satisfies what is asked of it. -/
theorem forall_filterMap_id {found : List (Option α)} (h : found.Forall (IfAny P)) :
    (found.filterMap id).Forall P := by
  rw [List.forall_iff_forall_mem] at h ⊢
  intro a ha
  obtain ⟨o, ho, rfl⟩ := List.mem_filterMap.1 ha
  obtain - | hP := h _ ho
  exact hP

/-- What is known of the answer of the first part of a sequence helps with the second. -/
theorem Answers.seq {f : α → Parser β} {R : β → Prop} (hp : Answers p P)
    (hf : ∀ a, P a → Answers (f a) R) :
    Answers (p >>= f) R := fun h => by
  obtain ⟨a, c₁, h₁, h₂⟩ := bind_eq_ok.1 h
  exact hf a (hp h₁) h₂

/-- A parser that stops answers nothing. -/
theorem Answers.throw {e : Halt} : Answers (throw e) P := nofun

/-- Nor does one that complains. -/
theorem Answers.fail {complaint : Complaint} : Answers (fail complaint) P := nofun

/-! ## What is built in the end

Often it is enough to know what a rule makes of its parts in the end, whatever the parts are. A
mapped type is a mapped type; nothing need be known of its parameter. -/

/-- **Whatever the parser answers is built with the property.** This is read off the values that
the parser is written to answer in the end; what is asked of each of them is found as a `Fact`,
and nothing is asked of what comes before. -/
class Builds (P : α → Prop) (p : Parser α) : Prop where
  answers : Answers p P

namespace Builds

instance (priority := low) bind (p : Parser β) (f : β → Parser α) [h : ∀ b, Builds P (f b)] :
    Builds P (p >>= f) :=
  ⟨Answers.bind fun b => (h b).answers⟩

instance ite (C : Prop) [Decidable C] (p q : Parser α) [hp : Builds P p] [hq : Builds P q] :
    Builds P (if C then p else q) :=
  ⟨Answers.ite hp.answers hq.answers⟩

instance pure (a : α) [h : Fact (P a)] : Builds P (Pure.pure a : Parser α) :=
  ⟨Answers.pure h.out⟩

instance (complaint : Complaint) : Builds P (fail complaint : Parser α) := ⟨Answers.fail⟩

end Builds

/-! ### Rules that build one form

These rules build a tree of one form each, so a property that all trees of the form have is a
property of whatever they answer. -/

-- The search for an instance is as deep as the rule is long.
set_option synthInstance.maxSize 100000

namespace Builds

section Types

variable {Q : TypeExpr → Prop} (type : Parser TypeExpr) (start : Position)

instance literalType [∀ s x, Fact (Q (.literal s x))] : Builds Q (literalType start) := by
  unfold Parser.literalType; infer_instance

instance negativeType [∀ s x, Fact (Q (.literal s x))] : Builds Q (negativeType start) := by
  unfold Parser.negativeType; infer_instance

instance typeQuery [∀ s i, Fact (Q (.query s i))] : Builds Q (typeQuery type start) := by
  unfold Parser.typeQuery; infer_instance

instance typeReference [∀ s i as, Fact (Q (.reference s i as))] :
    Builds Q (typeReference type) := by
  unfold Parser.typeReference; infer_instance

instance tupleType [∀ s ts, Fact (Q (.tuple s ts))] : Builds Q (tupleType type start) := by
  unfold Parser.tupleType; infer_instance

instance parenthesizedType [∀ s t, Fact (Q (.parenthesized s t))] :
    Builds Q (parenthesizedType type start) := by
  unfold Parser.parenthesizedType; infer_instance

instance mappedType [∀ s p t, Fact (Q (.mapped s p t))] : Builds Q (mappedType type start) := by
  unfold Parser.mappedType; infer_instance

instance bracedType [∀ s p t, Fact (Q (.mapped s p t))] [∀ s ms, Fact (Q (.object s ms))] :
    Builds Q (bracedType type start) := by
  unfold Parser.bracedType; infer_instance

instance functionType [∀ s gs ps t, Fact (Q (.function s gs ps t))] :
    Builds Q (functionType type start) := by
  unfold Parser.functionType; infer_instance

instance constructorType [∀ s ps t, Fact (Q (.constructor s ps t))] :
    Builds Q (constructorType type start) := by
  unfold Parser.constructorType; infer_instance

end Types

section Members

variable {Q : Member → Prop} (type : Parser TypeExpr) (start : Position)

instance callSignature [∀ s b gs ps t, Fact (Q (.call s b gs ps t))] (construct : Bool) :
    Builds Q (callSignature type start construct) := by
  unfold Parser.callSignature; infer_instance

instance accessorSignature [∀ s b n ps t, Fact (Q (.accessor s b n ps t))] :
    Builds Q (accessorSignature type start) := by
  unfold Parser.accessorSignature; infer_instance

instance indexSignature [∀ s ps t, Fact (Q (.index s ps t))] :
    Builds Q (indexSignature type start) := by
  unfold Parser.indexSignature; infer_instance

end Members

section Statements

variable {Q : Statement → Prop} (start : Position) (modifiers : Modifiers)

instance interfaceDecl [∀ d, Fact (Q (.interfaceDecl d))] :
    Builds Q (interfaceDecl start modifiers) := by
  unfold Parser.interfaceDecl; infer_instance

instance classDecl [∀ d, Fact (Q (.classDecl d))] : Builds Q (classDecl start modifiers) := by
  unfold Parser.classDecl; infer_instance

instance variableDecl [∀ d, Fact (Q (.variables d))] :
    Builds Q (variableDecl start modifiers) := by
  unfold Parser.variableDecl; infer_instance

instance enumDecl [∀ d, Fact (Q (.enumDecl d))] : Builds Q (enumDecl start modifiers) := by
  unfold Parser.enumDecl; infer_instance

instance functionDecl [∀ d, Fact (Q (.functionDecl d))] :
    Builds Q (functionDecl start modifiers) := by
  unfold Parser.functionDecl; infer_instance

instance typeAlias [∀ d, Fact (Q (.typeAlias d))] : Builds Q (typeAlias start modifiers) := by
  unfold Parser.typeAlias; infer_instance

instance otherStatement [∀ s x, Fact (Q (.other s x))] (first : Text) :
    Builds Q (otherStatement start first) := by
  unfold Parser.otherStatement; infer_instance

end Statements

end Builds

/-! ## Loops

The rounds of a loop are taken apart one by one, whatever their number. -/

/-- By induction on the number of rounds there may be. -/
theorem forall_collectUpTo {next : Parser (Option α)}
    (h : Answers next (IfAny P)) (n : Nat) {as : List α}
    (hloop : collectUpTo next n c = .ok (as, c')) : as.Forall P := by
  induction n generalizing c as with
  | zero => cases hloop
  | succ n ih =>
    obtain ⟨m, hm, ⟨rfl, -⟩ | ⟨a, as', c₁, rfl, h₁, h₂⟩⟩ := collectUpTo_eq_ok hloop
    · trivial
    · cases hm
      obtain - | ha := h h₁
      exact (List.forall_cons _ _ _).2 ⟨ha, ih h₂⟩

/-- **A loop lists answers of its rounds.** -/
theorem Answers.collect {next : Parser (Option α)} (h : Answers next (IfAny P)) :
    Answers (collect next) (List.Forall P) :=
  fun hloop => forall_collectUpTo h _ hloop

/-- The same for a state that is handed from round to round. -/
theorem iterateUpTo_keeps {step : σ → Parser (Option σ)} {S : σ → Prop}
    (h : ∀ s, S s → Answers (step s) (IfAny S)) (n : Nat) {s s' : σ} (hs : S s)
    (hloop : iterateUpTo step n s c = .ok (s', c')) : S s' := by
  induction n generalizing c s with
  | zero => cases hloop
  | succ n ih =>
    obtain ⟨m, hm, ⟨rfl, -⟩ | ⟨s₁, c₁, h₁, h₂⟩⟩ := iterateUpTo_eq_ok hloop
    · exact hs
    · cases hm
      obtain - | hs₁ := h s hs h₁
      exact ih hs₁ h₂

/-- **A loop over a state keeps what its rounds keep.** -/
theorem Answers.iterate {step : σ → Parser (Option σ)} {S : σ → Prop}
    (h : ∀ s, S s → Answers (step s) (IfAny S))
    {s : σ} (hs : S s) : Answers (iterate step s) S :=
  fun hloop => iterateUpTo_keeps h _ hs hloop

/-! ## Items

Rules for lists are loops over items with something between them, so what is known of items is
known of lists. -/

/-- An item behind a separator, if the separator is there. -/
theorem Answers.itemBehind {separator : String} (h : Answers p P) :
    Answers (itemBehind separator p) (IfAny P) := by
  refine Answers.bind fun separated => ?_
  refine Answers.ite ?_ (Answers.pure .none)
  exact Answers.seq h fun item hitem => Answers.pure (.some hitem)

/-- An item behind a comma, unless the list is closed there. -/
theorem Answers.itemBefore {closer : String} (h : Answers p P) :
    Answers (itemBefore closer p) (IfAny P) := by
  refine Answers.bind fun separated => ?_
  refine Answers.ite ?_ (Answers.pure .none)
  refine Answers.bind fun closed => ?_
  refine Answers.ite (Answers.pure .none) ?_
  exact Answers.seq h fun item hitem => Answers.pure (.some hitem)

/-- **Items between commas** are answers of the parser for one. -/
theorem Answers.commaList {closer : String} (h : Answers p P) :
    Answers (commaList closer p) (List.Forall P) := by
  refine Answers.bind fun closed => ?_
  refine Answers.ite (Answers.pure trivial) ?_
  refine Answers.seq h fun first hfirst => ?_
  refine Answers.seq (Answers.collect (Answers.itemBefore h)) fun more hmore => ?_
  exact Answers.pure ((List.forall_cons _ _ _).2 ⟨hfirst, hmore⟩)

end Exemplar.Parser
