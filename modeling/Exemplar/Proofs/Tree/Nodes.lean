import Exemplar.Grammar.Cursor
import Exemplar.Proofs.Token.Partition
import Exemplar.Tree.Statement

/-!
# Trees as spans under spans

Every piece of a tree remembers where it was read. Seen that way all trees are alike: a node is
a span with nodes under it, in the order in which they are written down. `nodes` reads a tree of
any sort as such nodes; what is left out of a tree, and words and marks, have none.

`Node.WellNested` says what is expected of them. A span reaches over tokens, from the first of
them to the last; the nodes under a node lie inside it, one behind the other. The one exception
is an initial value that is announced but missing: it has a place, but no tokens.
-/

namespace Exemplar

namespace Tree

/-- A node of a tree: its span and the nodes under it. -/
inductive Node where
  /-- A node, of which is told whether it is an expression that was skipped. -/
  | mk (skipped : Bool) (span : Span) (children : List Node)

namespace Node

/-- Whether a node is an expression that was skipped. -/
def skipped : Node → Bool
  | .mk skipped _ _ => skipped

/-- The span of a node. -/
def span : Node → Span
  | .mk _ span _ => span

end Node

end Tree

/-- A span that reaches over tokens, from where the first of them starts to where the last
stops. -/
structure Span.Covers (s : Span) (tokens : List Token) : Prop where
  /-- The tokens come one behind the other. -/
  run : ∃ t u : Token, ∃ run : List Token, run <:+: tokens ∧ run.head? = some t ∧
    run.getLast? = some u ∧ s.start = t.start ∧ s.stop = u.stop
  /-- They are not empty. -/
  lt : s.start.offset < s.stop.offset

namespace Tree.Node

variable {stream : TokenStream}

/-- An initial value that is missing: the sign before it has no token behind it that belongs to
the value. Its span starts at the next token and stops where the sign does. -/
def Vacant (stream : TokenStream) (n : Node) : Prop :=
  n.skipped = true ∧ ∃ t u : Token, [t, u] <:+: stream.all ∧ t.is "=" = true ∧
    n.span = ⟨u.start, t.stop⟩

/-- One node stands before another, unless one of them is missing. -/
def Before (stream : TokenStream) (n m : Node) : Prop :=
  n.Vacant stream ∨ m.Vacant stream ∨ n.span.stop.offset ≤ m.span.start.offset

/-- A node lies inside a span, unless it is missing. -/
def Inside (stream : TokenStream) (s : Span) (n : Node) : Prop :=
  n.Vacant stream ∨ (s.start.offset ≤ n.span.start.offset ∧ n.span.stop.offset ≤ s.stop.offset)

/-- A node reaches over tokens, and so does every node under it unless it is missing; those
under a node lie inside it, one behind the other. -/
inductive WellNested (stream : TokenStream) : Node → Prop
  /-- A node that is missing. -/
  | vacant {n : Node} (h : n.Vacant stream) : WellNested stream n
  /-- A node with its tokens. -/
  | node {skipped : Bool} {span : Span} {children : List Node}
      (hspan : span.Covers stream.tokens)
    (hinside : ∀ n ∈ children, n.Inside stream span)
    (hordered : children.Pairwise (Before stream))
    (h : ∀ n ∈ children, WellNested stream n) : WellNested stream (.mk skipped span children)

end Tree.Node

/-! ## Reading trees as nodes -/

open Exemplar.Tree

/-- Values that are read as nodes. -/
class HasNodes (α : Type) where
  /-- The nodes at the top of a value, in their order. -/
  nodes : α → List Node

export HasNodes (nodes)

/-- Values that have no nodes. -/
class Nodeless (α : Type) extends HasNodes α where
  nodes_eq_nil : ∀ a : α, nodes a = []

/-- Nothing is read of such values. -/
abbrev Nodeless.none (α : Type) : Nodeless α :=
  { nodes := fun _ => [], nodes_eq_nil := fun _ => rfl }

instance : Nodeless Bool := .none Bool

instance : Nodeless Unit := .none Unit

instance : Nodeless Token := .none Token

instance (priority := high) : Nodeless Text := .none Text

instance (priority := high) : Nodeless Modifiers := .none Modifiers

section Plain

variable {α β : Type} [HasNodes α] [HasNodes β]

instance : HasNodes (Option α) where
  nodes
    | none => []
    | some a => nodes a

instance : HasNodes (List α) := ⟨List.flatMap nodes⟩

instance : HasNodes (α × β) := ⟨fun p => nodes p.1 ++ nodes p.2⟩

instance : HasNodes Identifier := ⟨fun i => [.mk false i.span []]⟩

end Plain

namespace Tree

mutual

/-- The node of a type, if there is a type. -/
def TypeExpr.nodes : TypeExpr → List Node
  | .absent => []
  | .keyword s _ | .literal s _ => [.mk false s []]
  | .reference s name arguments =>
    [.mk false s (HasNodes.nodes name ++ (match arguments with
      | none => []
      | some types => typesNodes types))]
  | .function s generics parameters result =>
    [.mk false s (genericsNodes generics ++ parametersNodes parameters ++ result.nodes)]
  | .constructor s parameters result =>
    [.mk false s (parametersNodes parameters ++ result.nodes)]
  | .union s types | .intersection s types | .tuple s types => [.mk false s (typesNodes types)]
  | .namedElement s name _ _ type => [.mk false s (HasNodes.nodes name ++ type.nodes)]
  | .array s type | .optional s type | .rest s type | .parenthesized s type | .operator s _ type
  | .predicate s _ type => [.mk false s type.nodes]
  | .object s members => [.mk false s (membersNodes members)]
  | .mapped s parameter type => [.mk false s (parameter.nodes ++ type.nodes)]
  | .conditional s check bound whenTrue whenFalse =>
    [.mk false s (check.nodes ++ bound.nodes ++ whenTrue.nodes ++ whenFalse.nodes)]
  | .indexed s object index => [.mk false s (object.nodes ++ index.nodes)]
  | .query s name => [.mk false s (HasNodes.nodes name)]
  | .infer s parameter => [.mk false s parameter.nodes]

/-- The node of a parameter. -/
def Parameter.nodes : Parameter → List Node
  | .mk s _ name _ _ type => [.mk false s (HasNodes.nodes name ++ type.nodes)]

/-- The node of a type parameter. -/
def TypeParameter.nodes : TypeParameter → List Node
  | .mk s name bound fallback =>
    [.mk false s (HasNodes.nodes name ++ bound.nodes ++ fallback.nodes)]

/-- The node of a member of an interface or an object type. -/
def Member.nodes : Member → List Node
  | .property s _ name _ type => [.mk false s (HasNodes.nodes name ++ type.nodes)]
  | .method s name _ generics parameters type =>
    [.mk false s (HasNodes.nodes name ++ genericsNodes generics ++ parametersNodes parameters
      ++ type.nodes)]
  | .call s _ generics parameters type =>
    [.mk false s (genericsNodes generics ++ parametersNodes parameters ++ type.nodes)]
  | .index s parameters type => [.mk false s (parametersNodes parameters ++ type.nodes)]
  | .accessor s _ name parameters type =>
    [.mk false s (HasNodes.nodes name ++ parametersNodes parameters ++ type.nodes)]

/-- The nodes of types. -/
def typesNodes : List TypeExpr → List Node
  | [] => []
  | t :: rest => t.nodes ++ typesNodes rest

/-- The nodes of parameters. -/
def parametersNodes : List Parameter → List Node
  | [] => []
  | p :: rest => p.nodes ++ parametersNodes rest

/-- The nodes of type parameters. -/
def typeParametersNodes : List TypeParameter → List Node
  | [] => []
  | p :: rest => p.nodes ++ typeParametersNodes rest

/-- The nodes of a list of type parameters that may be missing. -/
def genericsNodes : Option (List TypeParameter) → List Node
  | none => []
  | some l => typeParametersNodes l

/-- The nodes of members. -/
def membersNodes : List Member → List Node
  | [] => []
  | m :: rest => m.nodes ++ membersNodes rest

end

end Tree

instance : HasNodes TypeExpr := ⟨TypeExpr.nodes⟩

instance : HasNodes Parameter := ⟨Parameter.nodes⟩

instance : HasNodes TypeParameter := ⟨TypeParameter.nodes⟩

instance : HasNodes Member := ⟨Member.nodes⟩

instance : HasNodes EnumMember := ⟨fun m => [.mk false m.span []]⟩

instance : HasNodes Expression where
  nodes
    | .arrow s _ generics parameters type =>
      [.mk false s (nodes generics ++ nodes parameters ++ nodes type)]
    | .function s _ name generics parameters type =>
      [.mk false s (nodes name ++ nodes generics ++ nodes parameters ++ nodes type)]
    | .other s => [.mk true s []]

instance : HasNodes Declarator where
  nodes d := [.mk false d.span (nodes d.name ++ nodes d.type ++ nodes d.initializer)]

instance : HasNodes ClassMember where
  nodes
    | .constructor s _ parameters => [.mk false s (nodes parameters)]
    | .property s _ name type => [.mk false s (nodes name ++ nodes type)]
    | .method s _ name generics parameters type =>
      [.mk false s (nodes name ++ nodes generics ++ nodes parameters ++ nodes type)]
    | .other s => [.mk false s []]

instance : HasNodes Statement where
  nodes
    | .interfaceDecl d =>
      [.mk false d.span (nodes d.name ++ nodes d.generics ++ nodes d.bases ++ nodes d.members)]
    | .classDecl d =>
      [.mk false d.span (nodes d.name ++ nodes d.generics ++ nodes d.base ++ nodes d.interfaces
        ++ nodes d.members)]
    | .variables d => [.mk false d.span (nodes d.declarators)]
    | .enumDecl d => [.mk false d.span (nodes d.name ++ nodes d.members)]
    | .functionDecl d =>
      [.mk false d.span (nodes d.name ++ nodes d.generics ++ nodes d.parameters ++ nodes d.type)]
    | .typeAlias d => [.mk false d.span (nodes d.name ++ nodes d.generics ++ nodes d.type)]
    | .other s _ => [.mk false s []]

/-- The node at the root of a unit. -/
def Tree.SourceUnit.node (u : SourceUnit) : Node := .mk false u.span (nodes u.statements)

section Lists

theorem typesNodes_eq (l : List TypeExpr) : typesNodes l = nodes l := by
  induction l with
  | nil => rfl
  | cons t rest ih => exact congrArg (t.nodes ++ ·) ih

theorem parametersNodes_eq (l : List Parameter) : parametersNodes l = nodes l := by
  induction l with
  | nil => rfl
  | cons p rest ih => exact congrArg (p.nodes ++ ·) ih

theorem typeParametersNodes_eq (l : List TypeParameter) : typeParametersNodes l = nodes l := by
  induction l with
  | nil => rfl
  | cons p rest ih => exact congrArg (p.nodes ++ ·) ih

theorem genericsNodes_eq (o : Option (List TypeParameter)) : genericsNodes o = nodes o := by
  cases o with
  | none => rfl
  | some l => exact typeParametersNodes_eq l

theorem membersNodes_eq (l : List Member) : membersNodes l = nodes l := by
  induction l with
  | nil => rfl
  | cons m rest ih => exact congrArg (m.nodes ++ ·) ih

end Lists

end Exemplar
