import Exemplar.Model.Declaration
import Exemplar.Proofs.Lookup
import Exemplar.Proofs.Token.Words

/-!
# Declarations from their dumps

A dump shows a declaration as a tree of plain data. The order in which the entries of a record
stand is left to whoever writes the tree down, so two trees are taken for the same
(`Data.SameTree`) if their records agree entry by entry, by name, and their lists item by item,
in order.

Nothing is lost on the way. Every form of type has a name of its own under `kind`, and every
kind of declaration one under `type`; once that is read, the entries of the record are known,
and each holds one part of what was described. So types, and then declarations, with the same
tree are equal.

The recursion follows the descriptions: types are described by their parts, among which there
are parameters and arguments, and lists of them, and each has its own case. That a text can be
told from every other is what the leaves come down to. The names under which parts are found
need not be told apart, since both records have the same ones as soon as the forms agree.
-/

namespace Exemplar

namespace Data

/-- Two trees are the same, where the order of items counts and that of entries does not. -/
inductive SameTree : Data → Data → Prop
  /-- A tree is the same as itself. -/
  | refl (d : Data) : SameTree d d
  /-- Lists with the same items in the same order. -/
  | list {l l' : List Data} (hlength : l.length = l'.length)
    (hitem : ∀ (i : Nat) (d d' : Data), l[i]? = some d → l'[i]? = some d' → SameTree d d') :
    SameTree (.list l) (.list l')
  /-- Records with the same names and the same entry for each. -/
  | record {es es' : List (String × Data)}
    (hnames : ∀ name, (es.lookup name).isSome = (es'.lookup name).isSome)
    (hentry : ∀ (name : String) (d d' : Data),
      es.lookup name = some d → es'.lookup name = some d' →
      SameTree d d') :
    SameTree (.record es) (.record es')

namespace SameTree

variable {a b : Text} {s t : String} {d d' : Data} {l l' : List Data}
  {es es' : List (String × Data)}

/-- A text is its own tree. -/
theorem text_inj (h : SameTree (.text a) (.text b)) : a = b := by
  cases h
  rfl

/-- And so is a string. -/
theorem string_inj (h : SameTree (.string s) (.string t)) : s = t :=
  Text.ofString_inj.1 (text_inj h)

/-- The same records have the same entry for a name. -/
theorem entry (h : SameTree (.record es) (.record es')) (name : String)
    (hd : es.lookup name = some d)
    (hd' : es'.lookup name = some d') : SameTree d d' := by
  cases h with
  | refl =>
    obtain rfl : d = d' := Option.some.inj (hd.symm.trans hd')
    exact .refl d
  | record _ hentry => exact hentry name d d' hd hd'

/-- The same lists have the same items. -/
theorem items (h : SameTree (.list l) (.list l')) : List.Forall₂ SameTree l l' := by
  cases h with
  | refl => exact List.forall₂_same.2 fun d _ => .refl d
  | list hlength hitem =>
    refine List.forall₂_iff_get.2 ⟨hlength, fun i h h' => ?_⟩
    exact hitem i _ _ (List.getElem?_eq_getElem h) (List.getElem?_eq_getElem h')

end SameTree

end Data

open Exemplar.Data

/-- Lists are equal if their items can be recovered. -/
theorem eq_of_sameTree_map {α : Type} {f : α → Data} (hf : ∀ a b, SameTree (f a) (f b) → a = b)
    {l l' : List α} (h : SameTree (.list (l.map f)) (.list (l'.map f))) : l = l' := by
  have hitems : List.Forall₂ (fun a b => SameTree (f a) (f b)) l l' := by
    simpa only [List.forall₂_map_left_iff, List.forall₂_map_right_iff] using h.items
  exact List.forall₂_eq_eq_eq ▸ hitems.imp hf

/-- Lists of texts are equal if they have the same tree. -/
theorem texts_eq_of_sameTree {l l' : List Text} (h : SameTree (.texts l) (.texts l')) : l = l' :=
  eq_of_sameTree_map (fun _ _ => SameTree.text_inj) h

/-! ## Types

The form is read first, and it excludes all cases but one for the other type. -/

namespace Ty

theorem Kind.mem_all (k : Kind) : k ∈ Kind.all := by
  cases k <;> decide

/-- Every form has a name of its own. -/
theorem Kind.name_injective : Function.Injective Kind.name := fun k k' h =>
  List.inj_on_of_nodup_map (by decide : (Kind.all.map Kind.name).Nodup) k.mem_all k'.mem_all h

/-- The dump of a type is a record that has its form under `kind`. -/
theorem describe_eq_record (t : Ty) :
    ∃ es, t.describe = .record es ∧ es.lookup "kind" = some (.string t.kind.name) := by
  cases t with
  | generic argument => obtain ⟨type, generics⟩ := argument; exact ⟨_, rfl, rfl⟩
  | _ => exact ⟨_, rfl, rfl⟩

/-- **The form of a type is read off its dump.** -/
theorem kind_eq_of_sameTree {t t' : Ty} (h : SameTree t.describe t'.describe) :
    t.kind = t'.kind := by
  obtain ⟨es, hes, hkind⟩ := t.describe_eq_record
  obtain ⟨es', hes', hkind'⟩ := t'.describe_eq_record
  rw [hes, hes'] at h
  exact Kind.name_injective (h.entry "kind" hkind hkind').string_inj

end Ty

-- The parts of a type are found under the same name on both sides once the forms are known to
-- agree, and the recursion is on the parts of the first type.
mutual

/-- **A type can be recovered from its dump.** -/
theorem Ty.eq_of_sameTree : ∀ {t t' : Ty}, SameTree t.describe t'.describe → t = t'
  | .string, t', h | .number, t', h | .boolean, t', h | .void, t', h | .unknown, t', h => by
    have hkind := Ty.kind_eq_of_sameTree h
    cases t' <;> first | rfl | cases hkind
  -- The same kind of type first. Then each entry of the dump gives one argument of the type.
  | .enum name values, t', h => by
    have hkind := Ty.kind_eq_of_sameTree h
    cases t' with
    | enum name' values' =>
      rw [(h.entry "enumName" rfl rfl).text_inj,
        texts_eq_of_sameTree (h.entry "resolvedValueNames" rfl rfl)]
    | _ => cases hkind
  | .builtIn name, t', h => by
    have hkind := Ty.kind_eq_of_sameTree h
    cases t' with
    | builtIn name' => rw [(h.entry "typeName" rfl rfl).text_inj]
    | _ => cases hkind
  | .user name generics, t', h => by
    have hkind := Ty.kind_eq_of_sameTree h
    cases t' with
    | user name' generics' =>
      have hgenerics := h.entry "generics" rfl rfl
      rw [(h.entry "name" rfl rfl).text_inj, eq_of_sameTree_arguments hgenerics.items]
    | _ => cases hkind
  -- The dump of a generic argument used as a type is that of the argument.
  | .generic argument, t', h => by
    have hkind := Ty.kind_eq_of_sameTree h
    cases t' with
    | generic argument' =>
      have hargument : argument = argument' := GenericArgument.eq_of_sameTree h
      rw [hargument]
    | _ => cases hkind
  | .array element, t', h => by
    have hkind := Ty.kind_eq_of_sameTree h
    cases t' with
    | array element' => rw [Ty.eq_of_sameTree (h.entry "elementType" rfl rfl)]
    | _ => cases hkind
  | .tuple elements, t', h => by
    have hkind := Ty.kind_eq_of_sameTree h
    cases t' with
    | tuple elements' => rw [eq_of_sameTree_types (h.entry "elements" rfl rfl).items]
    | _ => cases hkind
  | .union elements, t', h => by
    have hkind := Ty.kind_eq_of_sameTree h
    cases t' with
    | union elements' => rw [eq_of_sameTree_types (h.entry "elements" rfl rfl).items]
    | _ => cases hkind
  | .intersection elements, t', h => by
    have hkind := Ty.kind_eq_of_sameTree h
    cases t' with
    | intersection elements' => rw [eq_of_sameTree_types (h.entry "elements" rfl rfl).items]
    | _ => cases hkind
  | .arrow parameters result, t', h => by
    have hkind := Ty.kind_eq_of_sameTree h
    cases t' with
    | arrow parameters' result' =>
      rw [eq_of_sameTree_params (h.entry "parameters" rfl rfl).items,
        Ty.eq_of_sameTree (h.entry "resultType" rfl rfl)]
    | _ => cases hkind

/-- An argument has a type and arguments of its own. -/
theorem GenericArgument.eq_of_sameTree :
    ∀ {t t' : GenericArgument}, SameTree t.describe t'.describe → t = t'
  | .mk type generics, .mk type' generics', h => by
    have hgenerics := h.entry "generics" rfl rfl
    rw [Ty.eq_of_sameTree (h.entry "type" rfl rfl), eq_of_sameTree_arguments hgenerics.items]

/-- A parameter has a name and a type. -/
theorem Param.eq_of_sameTree : ∀ {p p' : Param}, SameTree p.describe p'.describe → p = p'
  | .mk name type, .mk name' type', h => by
    rw [(h.entry "name" rfl rfl).text_inj, Ty.eq_of_sameTree (h.entry "type" rfl rfl)]

/-- A list of types is recovered item by item, and the lists below likewise. -/
theorem eq_of_sameTree_types :
    ∀ {l l' : List Ty}, List.Forall₂ SameTree (describeTypes l) (describeTypes l') → l = l'
  | [], [], _ => rfl
  | t :: l, t' :: l', .cons ht hl => by rw [Ty.eq_of_sameTree ht, eq_of_sameTree_types hl]

theorem eq_of_sameTree_arguments : ∀ {l l' : List GenericArgument},
    List.Forall₂ SameTree (describeArguments l) (describeArguments l') → l = l'
  | [], [], _ => rfl
  | a :: l, a' :: l', .cons ha hl => by
    rw [GenericArgument.eq_of_sameTree ha, eq_of_sameTree_arguments hl]

theorem eq_of_sameTree_params :
    ∀ {l l' : List Param}, List.Forall₂ SameTree (describeParams l) (describeParams l') → l = l'
  | [], [], _ => rfl
  | p :: l, p' :: l', .cons hp hl => by rw [Param.eq_of_sameTree hp, eq_of_sameTree_params hl]

end

/-! ## Declarations

Fields, methods and parameters are described like types, and they are recovered with them. -/

namespace Declaration

theorem Kind.mem_all (k : Kind) : k ∈ Kind.all := by
  cases k <;> decide

/-- Every kind has a name of its own. -/
theorem Kind.name_injective : Function.Injective Kind.name := fun k k' h =>
  List.inj_on_of_nodup_map (by decide : (Kind.all.map Kind.name).Nodup) k.mem_all k'.mem_all h

/-- The dump of a declaration is a record that has its kind under `type`. -/
theorem describe_eq_record (d : Declaration) :
    ∃ es, d.describe = .record es ∧ es.lookup "type" = some (.string d.kind.name) := by
  cases d <;> exact ⟨_, rfl, rfl⟩

/-- **The kind of a declaration is read off its dump.** -/
theorem kind_eq_of_sameTree {d d' : Declaration} (h : SameTree d.describe d'.describe) :
    d.kind = d'.kind := by
  obtain ⟨es, hes, hkind⟩ := d.describe_eq_record
  obtain ⟨es', hes', hkind'⟩ := d'.describe_eq_record
  rw [hes, hes'] at h
  exact Kind.name_injective (h.entry "type" hkind hkind').string_inj

/-- Type parameters are texts. -/
theorem generics_eq_of_sameTree {l l' : List Text}
    (h : SameTree (describeGenerics l) (describeGenerics l')) : l = l' :=
  eq_of_sameTree_map (fun _ _ h => (h.entry "name" rfl rfl).text_inj) h

/-- A field is recovered from its name and its type. -/
theorem field_eq_of_sameTree (f f' : Field) (h : SameTree (describeField f) (describeField f')) :
    f = f' := by
  have hname : f.name = f'.name := (h.entry "name" rfl rfl).text_inj
  have htype : f.type = f'.type := Ty.eq_of_sameTree (h.entry "resultType" rfl rfl)
  cases f
  cases f'
  exact Field.mk.injEq .. ▸ ⟨hname, htype⟩

/-- And a method from its name, its type parameters, its parameters and its result. -/
theorem method_eq_of_sameTree (m m' : Method)
    (h : SameTree (describeMethod m) (describeMethod m')) :
    m = m' := by
  have hname : m.name = m'.name := (h.entry "name" rfl rfl).text_inj
  have hgenerics := generics_eq_of_sameTree (h.entry "genericParameters" rfl rfl)
  have hparameters := eq_of_sameTree_params (h.entry "parameters" rfl rfl).items
  have hresult := Ty.eq_of_sameTree (h.entry "resultType" rfl rfl)
  cases m
  cases m'
  exact Method.mk.injEq .. ▸ ⟨hname, hgenerics, hparameters, hresult⟩

/-- **A declaration can be recovered from its dump.** The kind tells which sort it is, and each
entry gives one of its parts. -/
theorem eq_of_sameTree {d d' : Declaration} (h : SameTree d.describe d'.describe) : d = d' := by
  have hkind := kind_eq_of_sameTree h
  cases d with
  | ofClass name generics parameters =>
    cases d' with
    | ofClass name' generics' parameters' =>
      have hparameters := h.entry "parameters" rfl rfl
      rw [(h.entry "name" rfl rfl).text_inj,
        generics_eq_of_sameTree (h.entry "genericParameters" rfl rfl),
        eq_of_sameTree_params hparameters.items]
    | _ => cases hkind
  | ofInterface name generics fields methods =>
    cases d' with
    | ofInterface name' generics' fields' methods' =>
      rw [(h.entry "name" rfl rfl).text_inj,
        generics_eq_of_sameTree (h.entry "genericParameters" rfl rfl),
        eq_of_sameTree_map field_eq_of_sameTree (h.entry "fields" rfl rfl),
        eq_of_sameTree_map method_eq_of_sameTree (h.entry "methods" rfl rfl)]
    | _ => cases hkind
  | ofFunction name parameters result =>
    cases d' with
    | ofFunction name' parameters' result' =>
      have hparameters := h.entry "parameters" rfl rfl
      rw [(h.entry "name" rfl rfl).text_inj, eq_of_sameTree_params hparameters.items,
        Ty.eq_of_sameTree (h.entry "resultType" rfl rfl)]
    | _ => cases hkind

end Declaration

/-- **A dump loses nothing.** Two types have the same dump, as a tree whose records are read by
name, only if they are equal, and so have two declarations. The other direction is that a tree
is the same as itself. -/
theorem sameTree_describe_iff :
    (∀ t t' : Ty, SameTree t.describe t'.describe ↔ t = t') ∧
      ∀ d d' : Declaration, SameTree d.describe d'.describe ↔ d = d' :=
  ⟨fun _ _ => ⟨Ty.eq_of_sameTree, fun h => h ▸ .refl _⟩,
    fun _ _ => ⟨Declaration.eq_of_sameTree, fun h => h ▸ .refl _⟩⟩

end Exemplar
