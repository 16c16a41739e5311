import Exemplar.Proofs.Types.ReadTypes
import Exemplar.Proofs.Types.RenderedTypes

/-!
# Rendering is a canonical form of types

The text of a type that was read can be read again, and what is read then is the same type. The
two halves are in the modules before: what was read is spelled, and what is spelled is read
back. What is left is to run the parser on a source from its first token to its end.
-/

namespace Exemplar

open Exemplar.Tree

open Exemplar.Parser

/-- What was read as a type is spelled. -/
theorem Tree.TypeExpr.spelled_of_parse {tables : Tables} {source : Text} {n : TypeExpr}
    (h : TypeExpr.parse source = .ok n) (hn : NewFree (n.toTy tables).names) :
    ∃ ws, Spelled tables (.item (.type .any (n.toTy tables))) True ws := by
  obtain ⟨hreg, c', h', hrest⟩ := type_eq_ok h
  have hm : TypeEnded tables .any n c' :=
    yields_nested ((startOf source).rest.length + 1) hreg h'
  have hdot : c'.current.is "." = false := by
    rw [Cursor.current_of_nil hrest]
    exact hm.2.1.clean.is_eq_false "."
  obtain ⟨ws, hws⟩ := hm.2.2 hn hdot (.inl trivial)
  exact ⟨ws, hws.mono fun _ => trivial⟩

/-- What is spelled is read as a type. -/
theorem Tree.TypeExpr.parse_of_spelled {tables : Tables} {t : Ty} {ws : List Word}
    (h : Spelled tables (.item (.type .any t)) True ws) :
    ∃ n, TypeExpr.parse t.render = .ok n ∧ n.toTy tables = t := by
  have hcuts : Cuts false false t.render ws [] := h.cuts Lexeme.stopsName_nil fun _ => rfl
  obtain ⟨n, hn, hmaps⟩ := parse_of_reads hcuts fun k hk =>
    (h.read.2 k hk).mono (by decide) fun _ hn => hn
  exact ⟨n, hn, hmaps.1⟩

/-- **Rendering is a faithful canonical form of every type that can be read.** The text of a type
that was read is read again, and what is read then is mapped to the same type. Only a type named
`new` can be read where its text cannot. -/
theorem Tree.TypeExpr.parse_render_toTy (tables : Tables) (source : Text) (n : TypeExpr)
    (h : TypeExpr.parse source = .ok n)
    (hnew : ∀ name ∈ (n.toTy tables).names,
      name ≠ Text.ofString "new" ∧ ¬Text.ofString "new." <+: name) :
    ∃ n', TypeExpr.parse (n.toTy tables).render = .ok n' ∧ n'.toTy tables = n.toTy tables := by
  obtain ⟨ws, hws⟩ := TypeExpr.spelled_of_parse h (.of_forall hnew)
  exact TypeExpr.parse_of_spelled hws

/-- The law at work on `string | number[]`. -/
theorem Tree.TypeExpr.parse_render_toTy_union :
    ∃ n n', TypeExpr.parse (Text.ofString "string | number[]") = .ok n ∧
      n.toTy .empty = .union [.string, .array .number] ∧
      TypeExpr.parse (n.toTy .empty).render = .ok n' ∧ n'.toTy .empty = n.toTy .empty := by
  have hstring : Spelled .empty (.item (.type .factor .string)) False _ :=
    .factor (.operand (.keyword (w := "string") (by decide)))
  have hnumber : Spelled .empty (.item (.type .factor (.array .number))) True _ :=
    .factor (.arrays 0 (.keyword (w := "number") (by decide)) (by
      rintro ⟨w, hw, hop⟩
      obtain ⟨rfl, -⟩ := List.cons.inj hw
      exact absurd hop (by decide)))
  have hunion : Spelled .empty (.item (.type .any (.union [.string, .array .number]))) True _ :=
    .any (.union (by decide) (.cons hstring (.one hnumber)))
  obtain ⟨n, hn, ht⟩ := TypeExpr.parse_of_spelled hunion
  have hnew : ∀ name ∈ (n.toTy .empty).names,
      name ≠ Text.ofString "new" ∧ ¬Text.ofString "new." <+: name := by
    rw [ht]
    exact fun name hname => by cases hname
  obtain ⟨n', hn', ht'⟩ := parse_render_toTy .empty _ n hn hnew
  exact ⟨n, n', hn, ht, hn', ht'⟩

end Exemplar
