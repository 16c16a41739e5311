import Exemplar.Grammar.Cursor
import Exemplar.Tree.Statement
import Mathlib.Data.List.Forall2

/-!
# Trees without places

A tree says what was read and where. `bare` keeps what was read: it drops every place and span,
and with them the two pieces of a tree that are cut out of the source as they stand there, gaps
and comments included: the initial values of the members of enumerations, and their computed
keys.

`SameBare` is the statement that two values are the same without their places. It is a class, so
that the instances below put trees together from parts that are the same. Wherever two runs of a
parser are compared, one argues about the parts that they read, and that the nodes built from
these parts are the same is found by the search for instances. There is one instance for each
constructor of the trees. It says that `bare` reaches the parts of the node and nothing else in
it, so two nodes are the same if they have the same form, the same flags and words, and parts
that are the same.

Types, parameters and members contain one another and lists of each other, so `bare` is defined
for them by one mutual recursion with functions of its own for the lists. These agree with the
general `bare` of lists (`bareTypes_eq` and those behind it), and that is the first thing the
instances use.
-/

namespace Exemplar

open Exemplar.Tree

/-- Values that have places in them, or may have. -/
class HasPlaces (α : Type) where
  /-- A value without its places. -/
  bare : α → α

export HasPlaces (bare)

/-- Two values are the same without their places. -/
class SameBare {α : Type} [HasPlaces α] (a b : α) : Prop where
  eq : bare a = bare b

/-- Two values that are the same without their places. It binds the two answers of a step at
once, so that the search for instances finds out that they are the same. -/
structure BarePair (α : Type) [HasPlaces α] where
  /-- The first of them. -/
  left : α
  /-- The second of them. -/
  right : α
  /-- They are the same. -/
  same : SameBare left right

/-! ## Values without places

Truth values, numbers and texts have no places. A place or a span is nothing but that, so any
two of them are the same. For what is put together of parts, `bare` goes to the parts. -/

/-- Values that have no places. -/
abbrev HasPlaces.whole (α : Type) : HasPlaces α := ⟨id⟩

instance : HasPlaces Bool := .whole Bool

instance : HasPlaces Nat := .whole Nat

instance : HasPlaces Unit := .whole Unit

instance (priority := high) : HasPlaces Text := .whole Text

instance (priority := high) : HasPlaces Modifiers := .whole Modifiers

instance : HasPlaces String := .whole String

instance : HasPlaces Position := ⟨fun _ => .unset⟩

instance : HasPlaces Span := ⟨fun _ => .unset⟩

section Plain

variable {α β : Type} [HasPlaces α] [HasPlaces β]

instance : HasPlaces (Option α) := ⟨Option.map bare⟩

instance : HasPlaces (List α) := ⟨List.map bare⟩

instance : HasPlaces (α × β) := ⟨Prod.map bare bare⟩

instance (r : BarePair α) : SameBare r.left r.right := r.same

instance (priority := low) SameBare.refl (a : α) : SameBare a a := ⟨rfl⟩

instance (p q : Position) : SameBare p q := ⟨rfl⟩

instance (s t : Span) : SameBare s t := ⟨rfl⟩

variable {a a' : α} {b b' : β} {l l' : List α} {o o' : Option α}

instance [h : SameBare a a'] : SameBare (some a) (some a') := ⟨congrArg some h.eq⟩

instance [h : SameBare a a'] [hl : SameBare l l'] : SameBare (a :: l) (a' :: l') :=
  ⟨congrArg₂ List.cons h.eq hl.eq⟩

instance [h : SameBare a a'] [hb : SameBare b b'] : SameBare (a, b) (a', b') :=
  ⟨congrArg₂ Prod.mk h.eq hb.eq⟩

instance {p p' : α × β} [h : SameBare p p'] : SameBare p.1 p'.1 := ⟨(Prod.mk.inj h.eq).1⟩

instance {p p' : α × β} [h : SameBare p p'] : SameBare p.2 p'.2 := ⟨(Prod.mk.inj h.eq).2⟩

instance {x y : Bool} [h : SameBare x y] : SameBare (!x) (!y) := ⟨congrArg not h.eq⟩

instance {x y x' y' : Bool} [h : SameBare x y] [h' : SameBare x' y'] :
    SameBare (x && x') (y && y') := ⟨congrArg₂ and h.eq h'.eq⟩

instance {x y x' y' : Bool} [h : SameBare x y] [h' : SameBare x' y'] :
    SameBare (x || x') (y || y') := ⟨congrArg₂ or h.eq h'.eq⟩

instance {x y : Nat} [h : SameBare x y] (n : Nat) : SameBare (x + n) (y + n) :=
  ⟨congrArg (· + n) h.eq⟩

instance {x y : Bool} [h : SameBare x y] [ha : SameBare a a'] {d d' : α} [hd : SameBare d d'] :
    SameBare (if x = true then a else d) (if y = true then a' else d') := by
  obtain rfl : x = y := h.eq
  split <;> assumption

/-- What does not look at places does not tell values apart that are the same without them. This
is how a function of a node is shown to be a function of what was read. -/
theorem SameBare.congr {γ : Type} {f : α → γ} (h : SameBare a a') (hf : ∀ a, f (bare a) = f a) :
    f a = f a' := by
  rw [← hf a, h.eq, hf a']

/-- What is not there is not the same as something that is there. So either something was read
on both sides, or on neither. -/
theorem SameBare.none_or_some (h : SameBare o o') :
    (o = none ∧ o' = none) ∨ ∃ a a', o = some a ∧ o' = some a' ∧ SameBare a a' := by
  have heq : o.map bare = o'.map bare := h.eq
  cases o with
  | none => exact .inl ⟨rfl, Option.map_eq_none_iff.1 heq.symm⟩
  | some a =>
    obtain ⟨a', rfl, ha⟩ := Option.map_eq_some_iff.1 heq.symm
    exact .inr ⟨a, a', rfl, rfl, ⟨ha.symm⟩⟩

/-- Only an empty list is the same as an empty list. -/
theorem SameBare.nil_or_cons (h : SameBare l l') :
    (l = [] ∧ l' = []) ∨
      ∃ a a' r r', l = a :: r ∧ l' = a' :: r' ∧ SameBare a a' ∧ SameBare r r' := by
  have heq : l.map bare = l'.map bare := h.eq
  cases l with
  | nil => exact .inl ⟨rfl, List.map_eq_nil_iff.1 heq.symm⟩
  | cons a r =>
    obtain ⟨a', r', rfl, ha, hr⟩ := List.map_eq_cons_iff.1 heq.symm
    exact .inr ⟨a, a', r, r', rfl, rfl, ⟨ha.symm⟩, ⟨hr.symm⟩⟩

/-- Lists that are the same have as many entries. -/
theorem SameBare.length_eq (h : SameBare l l') : l.length = l'.length := by
  have := congrArg List.length h.eq
  rwa [show bare l = l.map bare from rfl, show bare l' = l'.map bare from rfl, List.length_map,
    List.length_map] at this

/-- Lists that are put together of lists that are the same are the same. -/
theorem SameBare.append {m m' : List α} (h : SameBare l l') (hm : SameBare m m') :
    SameBare (l ++ m) (l' ++ m') := by
  refine ⟨?_⟩
  show (l ++ m).map bare = (l' ++ m').map bare
  rw [List.map_append, List.map_append]
  exact congrArg₂ (· ++ ·) h.eq hm.eq

/-- Leaving out what was not read does not depend on places either. -/
instance {l l' : List (Option α)} [h : SameBare l l'] :
    SameBare (l.filterMap id) (l'.filterMap id) := by
  have key : ∀ l : List (Option α), (l.filterMap id).map bare = (l.map bare).filterMap id := by
    intro l
    rw [List.map_filterMap, List.filterMap_map]
    rfl
  refine ⟨?_⟩
  show (l.filterMap id).map bare = (l'.filterMap id).map bare
  rw [key, key]
  exact congrArg _ h.eq

end Plain

/-! ## Tokens and names

A token keeps its kind, its text and whether a line ends before it, and the rules of the grammar
ask about nothing else. So each question that a rule asks of a token has the same answer for two
tokens that are the same. -/

instance : HasPlaces Token := ⟨fun t => { t with span := .unset }⟩

instance : HasPlaces Identifier := ⟨fun i => ⟨.unset, i.text⟩⟩

instance : HasPlaces Ending := ⟨fun e => ⟨bare e.token, e.fault⟩⟩

instance : HasPlaces TokenStream := ⟨fun s => ⟨bare s.tokens, bare s.ending⟩⟩

section Token

variable {t u : Token} {i j : Identifier}

instance [h : SameBare t u] : SameBare t.text u.text := ⟨h.congr (f := Token.text) fun _ => rfl⟩

instance [h : SameBare t u] (w : String) : SameBare (t.is w) (u.is w) :=
  ⟨h.congr (f := (·.is w)) fun _ => rfl⟩

instance [h : SameBare t u] : SameBare t.isIdent u.isIdent :=
  ⟨h.congr (f := Token.isIdent) fun _ => rfl⟩

instance [h : SameBare t u] : SameBare t.isEof u.isEof :=
  ⟨h.congr (f := Token.isEof) fun _ => rfl⟩

instance [h : SameBare t u] : SameBare t.isOpener u.isOpener :=
  ⟨h.congr (f := Token.isOpener) fun _ => rfl⟩

instance [h : SameBare t u] : SameBare t.isCloser u.isCloser :=
  ⟨h.congr (f := Token.isCloser) fun _ => rfl⟩

instance [h : SameBare t u] : SameBare t.newlineBefore u.newlineBefore :=
  ⟨h.congr (f := Token.newlineBefore) fun _ => rfl⟩

instance [h : SameBare t u] (k : Token.Kind) : SameBare (t.kind == k) (u.kind == k) :=
  ⟨h.congr (f := (·.kind == k)) fun _ => rfl⟩

instance {s s' : Span} {x y : Text} [h : SameBare x y] : SameBare (Identifier.mk s x) ⟨s', y⟩ :=
  ⟨congrArg (Identifier.mk .unset) h.eq⟩

instance [h : SameBare i j] : SameBare i.text j.text := ⟨(Identifier.mk.inj h.eq).2⟩

end Token

/-! ## Trees -/

namespace Tree

mutual

/-- A type without its places. A case for each form: its span is unset, its flags and words
stay, and its parts are without their places. -/
def TypeExpr.bare : TypeExpr → TypeExpr
  | .absent => .absent
  | .keyword _ word => .keyword .unset word
  | .reference _ name arguments =>
    .reference .unset (HasPlaces.bare name) (match arguments with
      | none => none
      | some types => some (bareTypes types))
  | .function _ generics parameters result =>
    .function .unset (bareGenerics generics) (bareParameters parameters) result.bare
  | .constructor _ parameters result =>
    .constructor .unset (bareParameters parameters) result.bare
  | .union _ types => .union .unset (bareTypes types)
  | .intersection _ types => .intersection .unset (bareTypes types)
  | .array _ element => .array .unset element.bare
  | .tuple _ elements => .tuple .unset (bareTypes elements)
  | .namedElement _ name optional rest type =>
    .namedElement .unset (HasPlaces.bare name) optional rest type.bare
  | .optional _ type => .optional .unset type.bare
  | .rest _ type => .rest .unset type.bare
  | .parenthesized _ type => .parenthesized .unset type.bare
  | .literal _ text => .literal .unset text
  | .object _ members => .object .unset (bareMembers members)
  | .mapped _ parameter type => .mapped .unset parameter.bare type.bare
  | .conditional _ check bound whenTrue whenFalse =>
    .conditional .unset check.bare bound.bare whenTrue.bare whenFalse.bare
  | .operator _ word type => .operator .unset word type.bare
  | .indexed _ object index => .indexed .unset object.bare index.bare
  | .query _ name => .query .unset (HasPlaces.bare name)
  | .infer _ parameter => .infer .unset parameter.bare
  | .predicate _ parameter type => .predicate .unset parameter type.bare

/-- A parameter without its places. -/
def Parameter.bare : Parameter → Parameter
  | .mk _ modifiers name rest optional type =>
    .mk .unset modifiers (HasPlaces.bare name) rest optional type.bare

/-- A type parameter without its places. -/
def TypeParameter.bare : TypeParameter → TypeParameter
  | .mk _ name bound fallback => .mk .unset (HasPlaces.bare name) bound.bare fallback.bare

/-- A member without its places. -/
def Member.bare : Member → Member
  | .property _ modifiers name optional type =>
    .property .unset modifiers (HasPlaces.bare name) optional type.bare
  | .method _ name optional generics parameters type =>
    .method .unset (HasPlaces.bare name) optional (bareGenerics generics)
      (bareParameters parameters)
      type.bare
  | .call _ construct generics parameters type =>
    .call .unset construct (bareGenerics generics) (bareParameters parameters) type.bare
  | .index _ parameters type => .index .unset (bareParameters parameters) type.bare
  | .accessor _ setter name parameters type =>
    .accessor .unset setter (HasPlaces.bare name) (bareParameters parameters) type.bare

/-- Types without their places. -/
def bareTypes : List TypeExpr → List TypeExpr
  | [] => []
  | t :: rest => t.bare :: bareTypes rest

/-- Parameters without their places. -/
def bareParameters : List Parameter → List Parameter
  | [] => []
  | p :: rest => p.bare :: bareParameters rest

/-- Type parameters without their places. -/
def bareTypeParameters : List TypeParameter → List TypeParameter
  | [] => []
  | p :: rest => p.bare :: bareTypeParameters rest

/-- A list of type parameters that may be left out, without its places. -/
def bareGenerics : Option (List TypeParameter) → Option (List TypeParameter)
  | none => none
  | some ps => some (bareTypeParameters ps)

/-- Members without their places. -/
def bareMembers : List Member → List Member
  | [] => []
  | m :: rest => m.bare :: bareMembers rest

end

/-- Whether the key of a member of an enumeration is computed: it is written in brackets. -/
def isComputedKey (x : Text) : Bool := x.head?.any (·.is '[')

/-- The key of a member of an enumeration, of which nothing is kept if it is computed. -/
def bareKey (x : Text) : Text := if isComputedKey x then [] else x

/-- A member of an enumeration without its place, without a computed key, and without its
value. -/
def EnumMember.bare (m : EnumMember) : EnumMember := ⟨.unset, bareKey m.name, []⟩

end Tree

instance : HasPlaces TypeExpr := ⟨TypeExpr.bare⟩

instance : HasPlaces Parameter := ⟨Parameter.bare⟩

instance : HasPlaces TypeParameter := ⟨TypeParameter.bare⟩

instance : HasPlaces Member := ⟨Member.bare⟩

instance : HasPlaces EnumMember := ⟨EnumMember.bare⟩

/-- An expression that is no function has been skipped, so nothing of it is left but that it was
there. -/
instance : HasPlaces Expression where
  bare
    | .arrow _ modifiers generics parameters type =>
      .arrow .unset modifiers (bare generics) (bare parameters) (bare type)
    | .function _ modifiers name generics parameters type =>
      .function .unset modifiers (bare name) (bare generics) (bare parameters) (bare type)
    | .other _ => .other .unset

instance : HasPlaces ClassMember where
  bare
    | .constructor _ modifiers parameters => .constructor .unset modifiers (bare parameters)
    | .property _ modifiers name type => .property .unset modifiers (bare name) (bare type)
    | .method _ modifiers name generics parameters type =>
      .method .unset modifiers (bare name) (bare generics) (bare parameters) (bare type)
    | .other _ => .other .unset

instance : HasPlaces Declarator where
  bare d := ⟨.unset, bare d.name, bare d.type, bare d.initializer⟩

/-- A statement of another sort has been skipped and keeps its keyword. -/
instance : HasPlaces Statement where
  bare
    | .interfaceDecl d =>
      .interfaceDecl
        ⟨.unset, d.modifiers, bare d.name, bare d.generics, bare d.bases, bare d.members⟩
    | .classDecl d => .classDecl
      ⟨.unset, d.modifiers, bare d.name, bare d.generics, bare d.base, bare d.interfaces,
        bare d.members⟩
    | .variables d => .variables ⟨.unset, d.modifiers, d.keyword, bare d.declarators⟩
    | .enumDecl d => .enumDecl ⟨.unset, d.modifiers, bare d.name, bare d.members⟩
    | .functionDecl d => .functionDecl
      ⟨.unset, d.modifiers, bare d.name, bare d.generics, bare d.parameters, bare d.type⟩
    | .typeAlias d => .typeAlias ⟨.unset, d.modifiers, bare d.name, bare d.generics, bare d.type⟩
    | .other _ keyword => .other .unset keyword

instance : HasPlaces SourceUnit := ⟨fun u => ⟨.unset, u.name, bare u.statements⟩⟩

/-! ## Trees from parts that are the same

First the lists, whose own functions are the general one. -/

section Lists

/-- Types in a list are without their places if each of them is. -/
theorem bareTypes_eq (l : List TypeExpr) : bareTypes l = bare l := by
  induction l with
  | nil => rfl
  | cons t rest ih => exact congrArg (t.bare :: ·) ih

/-- Parameters in a list are without their places if each of them is. -/
theorem bareParameters_eq (l : List Parameter) : bareParameters l = bare l := by
  induction l with
  | nil => rfl
  | cons p rest ih => exact congrArg (p.bare :: ·) ih

/-- Type parameters in a list are without their places if each of them is. -/
theorem bareTypeParameters_eq (l : List TypeParameter) : bareTypeParameters l = bare l := by
  induction l with
  | nil => rfl
  | cons p rest ih => exact congrArg (p.bare :: ·) ih

/-- A list that may be left out is so on both sides or on neither. -/
theorem bareGenerics_eq (o : Option (List TypeParameter)) : bareGenerics o = bare o := by
  cases o with
  | none => rfl
  | some l => exact congrArg some (bareTypeParameters_eq l)

/-- Members in a list are without their places if each of them is. -/
theorem bareMembers_eq (l : List Member) : bareMembers l = bare l := by
  induction l with
  | nil => rfl
  | cons m rest ih => exact congrArg (m.bare :: ·) ih

end Lists

section Types

variable {s s' : Span} {t u : TypeExpr} {types types' : List TypeExpr} {ps qs : List Parameter}
  {n m : Option Identifier} {i j : Identifier}
  {gs gs' : Option (List TypeParameter)} {x y : Text}
  {p q : TypeParameter} {o r o' r' : Bool} {ms ms' : Modifiers}

/-! Now the forms of types, and of what is in them. Where a part is a list, `show` names the
function of the recursion, and the lemma about it turns it into the general one. A flag has no
place, so two flags that are the same are equal and are replaced by one. -/

instance [h : SameBare x y] : SameBare (TypeExpr.keyword s x) (.keyword s' y) :=
  ⟨congrArg (TypeExpr.keyword .unset) h.eq⟩

instance {as bs : Option (List TypeExpr)} [h : SameBare n m] [ha : SameBare as bs] :
    SameBare (TypeExpr.reference s n as) (.reference s' m bs) := by
  -- The list of arguments is matched on inside the definition, so there is a case for it.
  have key : ∀ (s : Span) (n : Option Identifier) (as : Option (List TypeExpr)),
      (TypeExpr.reference s n as).bare = .reference .unset (bare n) (bare as) := by
    intro s n as
    cases as with
    | none => rfl
    | some l => exact congrArg (TypeExpr.reference .unset (bare n) <| some ·) (bareTypes_eq l)
  exact ⟨(key s n as).trans ((congrArg₂ _ h.eq ha.eq).trans (key s' m bs).symm)⟩

instance [hg : SameBare gs gs'] [hp : SameBare ps qs] [ht : SameBare t u] :
    SameBare (TypeExpr.function s gs ps t) (.function s' gs' qs u) := by
  refine ⟨?_⟩
  show TypeExpr.function _ (bareGenerics gs) (bareParameters ps) (bare t)
    = TypeExpr.function _ (bareGenerics gs') (bareParameters qs) (bare u)
  rw [bareGenerics_eq, bareGenerics_eq, bareParameters_eq,
    bareParameters_eq, hg.eq, hp.eq, ht.eq]

instance [hp : SameBare ps qs] [ht : SameBare t u] :
    SameBare (TypeExpr.constructor s ps t) (.constructor s' qs u) := by
  refine ⟨?_⟩
  show TypeExpr.constructor _ (bareParameters ps) (bare t)
    = TypeExpr.constructor _ (bareParameters qs) (bare u)
  rw [bareParameters_eq, bareParameters_eq, hp.eq, ht.eq]

instance [h : SameBare types types'] : SameBare (TypeExpr.union s types) (.union s' types') := by
  refine ⟨congrArg (TypeExpr.union .unset) ?_⟩
  rw [bareTypes_eq, bareTypes_eq, h.eq]

instance [h : SameBare types types'] :
    SameBare (TypeExpr.intersection s types) (.intersection s' types') := by
  refine ⟨congrArg (TypeExpr.intersection .unset) ?_⟩
  rw [bareTypes_eq, bareTypes_eq, h.eq]

instance [h : SameBare types types'] : SameBare (TypeExpr.tuple s types) (.tuple s' types') := by
  refine ⟨congrArg (TypeExpr.tuple .unset) ?_⟩
  rw [bareTypes_eq, bareTypes_eq, h.eq]

instance [h : SameBare t u] : SameBare (TypeExpr.array s t) (.array s' u) :=
  ⟨congrArg (TypeExpr.array .unset) h.eq⟩

instance [hi : SameBare i j] [ho : SameBare o o'] [hr : SameBare r r'] [ht : SameBare t u] :
    SameBare (TypeExpr.namedElement s i o r t) (.namedElement s' j o' r' u) := by
  obtain rfl : o = o' := ho.eq
  obtain rfl : r = r' := hr.eq
  exact ⟨congrArg₂ (TypeExpr.namedElement .unset · o r ·) hi.eq ht.eq⟩

instance [h : SameBare t u] : SameBare (TypeExpr.optional s t) (.optional s' u) :=
  ⟨congrArg (TypeExpr.optional .unset) h.eq⟩

instance [h : SameBare t u] : SameBare (TypeExpr.rest s t) (.rest s' u) :=
  ⟨congrArg (TypeExpr.rest .unset) h.eq⟩

instance [h : SameBare t u] : SameBare (TypeExpr.parenthesized s t) (.parenthesized s' u) :=
  ⟨congrArg (TypeExpr.parenthesized .unset) h.eq⟩

instance [h : SameBare x y] : SameBare (TypeExpr.literal s x) (.literal s' y) :=
  ⟨congrArg (TypeExpr.literal .unset) h.eq⟩

instance {l l' : List Member} [h : SameBare l l'] :
    SameBare (TypeExpr.object s l) (.object s' l') := by
  refine ⟨congrArg (TypeExpr.object .unset) ?_⟩
  rw [bareMembers_eq, bareMembers_eq, h.eq]

instance [hp : SameBare p q] [ht : SameBare t u] :
    SameBare (TypeExpr.mapped s p t) (.mapped s' q u) :=
  ⟨congrArg₂ (TypeExpr.mapped .unset) hp.eq ht.eq⟩

instance {a b c a' b' c' : TypeExpr} [ht : SameBare t u]
    [ha : SameBare a a'] [hb : SameBare b b']
    [hc : SameBare c c'] :
    SameBare (TypeExpr.conditional s t a b c) (.conditional s' u a' b' c') := by
  refine ⟨?_⟩
  show TypeExpr.conditional _ (bare t) (bare a) (bare b) (bare c)
    = TypeExpr.conditional _ (bare u) (bare a') (bare b') (bare c')
  rw [ht.eq, ha.eq, hb.eq, hc.eq]

instance [hx : SameBare x y] [ht : SameBare t u] :
    SameBare (TypeExpr.operator s x t) (.operator s' y u) :=
  ⟨congrArg₂ (TypeExpr.operator .unset) hx.eq ht.eq⟩

instance {a b : TypeExpr} [ht : SameBare t u] [ha : SameBare a b] :
    SameBare (TypeExpr.indexed s t a) (.indexed s' u b) :=
  ⟨congrArg₂ (TypeExpr.indexed .unset) ht.eq ha.eq⟩

instance [h : SameBare i j] : SameBare (TypeExpr.query s i) (.query s' j) :=
  ⟨congrArg (TypeExpr.query .unset) h.eq⟩

instance [h : SameBare p q] : SameBare (TypeExpr.infer s p) (.infer s' q) :=
  ⟨congrArg (TypeExpr.infer .unset) h.eq⟩

instance [hx : SameBare x y] [ht : SameBare t u] :
    SameBare (TypeExpr.predicate s x t) (.predicate s' y u) :=
  ⟨congrArg₂ (TypeExpr.predicate .unset) hx.eq ht.eq⟩

instance [hm : SameBare ms ms'] [hn : SameBare n m] [hr : SameBare r r'] [ho : SameBare o o']
    [ht : SameBare t u] : SameBare (Parameter.mk s ms n r o t) (.mk s' ms' m r' o' u) := by
  obtain rfl : ms = ms' := hm.eq
  obtain rfl : r = r' := hr.eq
  obtain rfl : o = o' := ho.eq
  exact ⟨congrArg₂ (Parameter.mk .unset ms · r o ·) hn.eq ht.eq⟩

instance {a b a' b' : TypeExpr} [hi : SameBare i j] [ha : SameBare a a'] [hb : SameBare b b'] :
    SameBare (TypeParameter.mk s i a b) (.mk s' j a' b') := by
  refine ⟨?_⟩
  show TypeParameter.mk _ (bare i) (bare a) (bare b)
    = TypeParameter.mk _ (bare j) (bare a') (bare b')
  rw [hi.eq, ha.eq, hb.eq]

instance [hm : SameBare ms ms'] [hn : SameBare n m] [ho : SameBare o o'] [ht : SameBare t u] :
    SameBare (Member.property s ms n o t) (.property s' ms' m o' u) := by
  obtain rfl : ms = ms' := hm.eq
  obtain rfl : o = o' := ho.eq
  exact ⟨congrArg₂ (Member.property .unset ms · o ·) hn.eq ht.eq⟩

instance [hn : SameBare n m] [ho : SameBare o o'] [hg : SameBare gs gs'] [hp : SameBare ps qs]
    [ht : SameBare t u] : SameBare (Member.method s n o gs ps t) (.method s' m o' gs' qs u) := by
  obtain rfl : o = o' := ho.eq
  refine ⟨?_⟩
  show Member.method _ (bare n) o (bareGenerics gs) (bareParameters ps) (bare t)
    = Member.method _ (bare m) o (bareGenerics gs') (bareParameters qs) (bare u)
  rw [bareGenerics_eq, bareGenerics_eq, bareParameters_eq,
    bareParameters_eq, hn.eq, hg.eq, hp.eq, ht.eq]

instance [ho : SameBare o o'] [hg : SameBare gs gs'] [hp : SameBare ps qs] [ht : SameBare t u] :
    SameBare (Member.call s o gs ps t) (.call s' o' gs' qs u) := by
  obtain rfl : o = o' := ho.eq
  refine ⟨?_⟩
  show Member.call _ o (bareGenerics gs) (bareParameters ps) (bare t)
    = Member.call _ o (bareGenerics gs') (bareParameters qs) (bare u)
  rw [bareGenerics_eq, bareGenerics_eq, bareParameters_eq,
    bareParameters_eq, hg.eq, hp.eq, ht.eq]

instance [hp : SameBare ps qs] [ht : SameBare t u] :
    SameBare (Member.index s ps t) (.index s' qs u) := by
  refine ⟨?_⟩
  show Member.index _ (bareParameters ps) (bare t) = Member.index _ (bareParameters qs) (bare u)
  rw [bareParameters_eq, bareParameters_eq, hp.eq, ht.eq]

instance [ho : SameBare o o'] [hn : SameBare n m] [hp : SameBare ps qs] [ht : SameBare t u] :
    SameBare (Member.accessor s o n ps t) (.accessor s' o' m qs u) := by
  obtain rfl : o = o' := ho.eq
  refine ⟨?_⟩
  show Member.accessor _ o (bare n) (bareParameters ps) (bare t)
    = Member.accessor _ o (bare m) (bareParameters qs) (bare u)
  rw [bareParameters_eq, bareParameters_eq, hn.eq, hp.eq, ht.eq]

end Types

section Statements

variable {s s' : Span} {t u : TypeExpr} {types types' : List TypeExpr} {ps qs : List Parameter}
  {n m : Option Identifier} {i j : Identifier}
  {gs gs' : Option (List TypeParameter)} {x y : Text}
  {ms ms' : Modifiers}

/-! Expressions and declarations are no part of the recursion, so `bare` of their parts is the
general one from the start. -/

instance [hm : SameBare ms ms'] [hg : SameBare gs gs']
    [hp : SameBare ps qs] [ht : SameBare t u] :
    SameBare (Expression.arrow s ms gs ps t) (.arrow s' ms' gs' qs u) := by
  obtain rfl : ms = ms' := hm.eq
  refine ⟨?_⟩
  show Expression.arrow _ ms (bare gs) (bare ps) (bare t)
    = Expression.arrow _ ms (bare gs') (bare qs) (bare u)
  rw [hg.eq, hp.eq, ht.eq]

instance [hm : SameBare ms ms'] [hn : SameBare n m] [hg : SameBare gs gs'] [hp : SameBare ps qs]
    [ht : SameBare t u] :
    SameBare (Expression.function s ms n gs ps t) (.function s' ms' m gs' qs u) := by
  obtain rfl : ms = ms' := hm.eq
  refine ⟨?_⟩
  show Expression.function _ ms (bare n) (bare gs) (bare ps) (bare t)
    = Expression.function _ ms (bare m) (bare gs') (bare qs) (bare u)
  rw [hn.eq, hg.eq, hp.eq, ht.eq]

instance : SameBare (Expression.other s) (.other s') := ⟨rfl⟩

instance {v w : Option Expression} [hn : SameBare n m] [ht : SameBare t u] [hv : SameBare v w] :
    SameBare (Declarator.mk s n t v) ⟨s', m, u, w⟩ := by
  refine ⟨?_⟩
  show Declarator.mk _ (bare n) (bare t) (bare v) = Declarator.mk _ (bare m) (bare u) (bare w)
  rw [hn.eq, ht.eq, hv.eq]

instance [hm : SameBare ms ms'] [hp : SameBare ps qs] :
    SameBare (ClassMember.constructor s ms ps) (.constructor s' ms' qs) :=
  ⟨congrArg₂ (ClassMember.constructor .unset) hm.eq hp.eq⟩

instance [hm : SameBare ms ms'] [hn : SameBare n m] [ht : SameBare t u] :
    SameBare (ClassMember.property s ms n t) (.property s' ms' m u) := by
  obtain rfl : ms = ms' := hm.eq
  exact ⟨congrArg₂ (ClassMember.property .unset ms) hn.eq ht.eq⟩

instance [hm : SameBare ms ms'] [hn : SameBare n m] [hg : SameBare gs gs'] [hp : SameBare ps qs]
    [ht : SameBare t u] :
    SameBare (ClassMember.method s ms n gs ps t) (.method s' ms' m gs' qs u) := by
  obtain rfl : ms = ms' := hm.eq
  refine ⟨?_⟩
  show ClassMember.method _ ms (bare n) (bare gs) (bare ps) (bare t)
    = ClassMember.method _ ms (bare m) (bare gs') (bare qs) (bare u)
  rw [hn.eq, hg.eq, hp.eq, ht.eq]

instance : SameBare (ClassMember.other s) (.other s') := ⟨rfl⟩

instance {l l' : List Member} [hm : SameBare ms ms'] [hi : SameBare i j] [hg : SameBare gs gs']
    [ht : SameBare types types'] [hl : SameBare l l'] :
    SameBare (Statement.interfaceDecl ⟨s, ms, i, gs, types, l⟩)
      (.interfaceDecl ⟨s', ms', j, gs', types', l'⟩) := by
  obtain rfl : ms = ms' := hm.eq
  refine ⟨?_⟩
  show Statement.interfaceDecl ⟨_, ms, bare i, bare gs, bare types, bare l⟩
    = .interfaceDecl ⟨_, ms, bare j, bare gs', bare types', bare l'⟩
  rw [hi.eq, hg.eq, ht.eq, hl.eq]

instance {l l' : List ClassMember} [hm : SameBare ms ms']
    [hn : SameBare n m] [hg : SameBare gs gs']
    [hb : SameBare t u] [ht : SameBare types types'] [hl : SameBare l l'] :
    SameBare (Statement.classDecl ⟨s, ms, n, gs, t, types, l⟩)
      (.classDecl ⟨s', ms', m, gs', u, types', l'⟩) := by
  obtain rfl : ms = ms' := hm.eq
  refine ⟨?_⟩
  show Statement.classDecl ⟨_, ms, bare n, bare gs, bare t, bare types, bare l⟩
    = .classDecl ⟨_, ms, bare m, bare gs', bare u, bare types', bare l'⟩
  rw [hn.eq, hg.eq, hb.eq, ht.eq, hl.eq]

instance {ds es : List Declarator} [hm : SameBare ms ms']
    [hx : SameBare x y] [hd : SameBare ds es] :
    SameBare (Statement.variables ⟨s, ms, x, ds⟩) (.variables ⟨s', ms', y, es⟩) := by
  obtain rfl : ms = ms' := hm.eq
  obtain rfl : x = y := hx.eq
  exact ⟨congrArg (fun l => Statement.variables ⟨_, ms, x, l⟩) hd.eq⟩

instance {l l' : List EnumMember} [hm : SameBare ms ms']
    [hi : SameBare i j] [hl : SameBare l l'] :
    SameBare (Statement.enumDecl ⟨s, ms, i, l⟩) (.enumDecl ⟨s', ms', j, l'⟩) := by
  obtain rfl : ms = ms' := hm.eq
  refine ⟨?_⟩
  show Statement.enumDecl ⟨_, ms, bare i, bare l⟩ = .enumDecl ⟨_, ms, bare j, bare l'⟩
  rw [hi.eq, hl.eq]

instance [hm : SameBare ms ms'] [hn : SameBare n m] [hg : SameBare gs gs'] [hp : SameBare ps qs]
    [ht : SameBare t u] : SameBare (Statement.functionDecl ⟨s, ms, n, gs, ps, t⟩)
      (.functionDecl ⟨s', ms', m, gs', qs, u⟩) := by
  obtain rfl : ms = ms' := hm.eq
  refine ⟨?_⟩
  show Statement.functionDecl ⟨_, ms, bare n, bare gs, bare ps, bare t⟩
    = .functionDecl ⟨_, ms, bare m, bare gs', bare qs, bare u⟩
  rw [hn.eq, hg.eq, hp.eq, ht.eq]

instance [hm : SameBare ms ms'] [hi : SameBare i j] [hg : SameBare gs gs'] [ht : SameBare t u] :
    SameBare (Statement.typeAlias ⟨s, ms, i, gs, t⟩) (.typeAlias ⟨s', ms', j, gs', u⟩) := by
  obtain rfl : ms = ms' := hm.eq
  refine ⟨?_⟩
  show Statement.typeAlias ⟨_, ms, bare i, bare gs, bare t⟩
    = .typeAlias ⟨_, ms, bare j, bare gs', bare u⟩
  rw [hi.eq, hg.eq, ht.eq]

instance [h : SameBare x y] : SameBare (Statement.other s x) (.other s' y) :=
  ⟨congrArg (Statement.other .unset) h.eq⟩

instance {name name' : String} {l l' : List Statement} [hn : SameBare name name']
    [h : SameBare l l'] : SameBare (SourceUnit.mk s name l) ⟨s', name', l'⟩ :=
  ⟨congrArg₂ (SourceUnit.mk .unset) hn.eq h.eq⟩

end Statements

end Exemplar
