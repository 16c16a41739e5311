import Exemplar.Proofs.Grammar.Sources
import Exemplar.Proofs.Types.Spelling

/-!
# Which types are read

Every type that the grammar reads and the mapping decomposes is spelled: its parts stand in the
order of precedence, and its names are what the grammar demands of names. What the mapping does
not decompose is `Ty.unknown`, which is spelled anyway, so nothing has to be known about the
forms that are not decomposed.

One word is an exception. A type named `new`, or with `new` before its first point, can be read
inside a union but not at the beginning of a type, so it is excluded by what a type mentions
(`Ty.names`).

The proof goes along the grammar, rule by rule, and what is said of a rule says where it stopped
(`TypeEnded`, `AtomEnded`, `OperandEnded`). The place is needed for three reasons, and each of
them is a way in which a type could be read that is not rendered in the same words. The last
part of a name may be an identifier that is cut off in the middle of an escape by the end of the
source, so whether the tokens have run out is a part of what is said. A point behind a name
would make it longer, so it is asked that no point stands there. And a name like `keyof` is an
operator if a type follows, so where a name is nothing but such a word it is kept in mind that
no bracket follows (`Bare`).

From what is known of the parts at the places where they stopped, the spelling of the whole is
put together. Where a separator or a closing bracket stands, something is left and it is no
point (`at_separator`), so the conditions on a part that is followed by another are met by
themselves, and only the last part of a type hands them on.
-/

namespace Exemplar

open Exemplar.Tree Exemplar.Lexeme Exemplar.Parser

/-! ## The names a type mentions

A type is excluded by the names in it and not by its words, because it is the name that decides
whether a reference may stand at the beginning. The functions follow the constructors of types,
and the lists of types, arguments and parameters in them. -/

mutual

/-- The names of the named types a type mentions. -/
def Ty.names : Ty → List Text
  | .enum name _ => [name]
  | .builtIn name => [name]
  | .user name generics => name :: argumentsNames generics
  | .generic argument => argument.names
  | .array element => element.names
  | .tuple elements => typesNames elements
  | .union elements => typesNames elements
  | .intersection elements => typesNames elements
  | .arrow parameters result => paramsNames parameters ++ result.names
  | _ => []

/-- The names of the named types a type argument mentions. -/
def GenericArgument.names : GenericArgument → List Text
  | .mk type generics => type.names ++ argumentsNames generics

/-- The names of the named types a parameter mentions. -/
def Param.names : Param → List Text
  | .mk _ type => type.names

/-- The names of the named types several types mention. -/
def typesNames : List Ty → List Text
  | [] => []
  | t :: rest => t.names ++ typesNames rest

/-- The names of the named types several type arguments mention. -/
def argumentsNames : List GenericArgument → List Text
  | [] => []
  | a :: rest => a.names ++ argumentsNames rest

/-- The names of the named types several parameters mention. -/
def paramsNames : List Param → List Text
  | [] => []
  | p :: rest => p.names ++ paramsNames rest

end

/-- Whether a name is `new`, or starts with `new` and a point. -/
def isNewName (name : Text) : Bool :=
  name == Text.ofString "new" || (Text.ofString "new.").isPrefixOf name

/-- The names an item mentions. -/
def Item.names : Item → List Text
  | .type _ t => t.names
  | .param p => p.names

/-- No named type is `new`, neither alone nor before a point. -/
def NewFree (names : List Text) : Prop := ∀ x ∈ names, isNewName x = false

/-- The condition as it is said of a type from outside: of each name, and with prefixes of
texts. -/
theorem NewFree.of_forall {names : List Text}
    (h : ∀ x ∈ names, x ≠ Text.ofString "new" ∧ ¬Text.ofString "new." <+: x) :
    NewFree names := by
  intro x hx
  obtain ⟨hne, hpre⟩ := h x hx
  rw [isNewName, beq_false_of_ne hne, Bool.false_or, Bool.eq_false_iff]
  exact fun hp => hpre (List.isPrefixOf_iff_prefix.1 hp)

theorem NewFree.append {a b : List Text} : NewFree (a ++ b) ↔ NewFree a ∧ NewFree b := by
  simp only [NewFree, List.mem_append, or_imp, forall_and]

theorem typesNames_eq (types : List Ty) : typesNames types = types.flatMap Ty.names := by
  induction types with
  | nil => rfl
  | cons t types ih => rw [typesNames, ih, List.flatMap_cons]

theorem paramsNames_eq (params : List Param) :
    paramsNames params = params.flatMap Param.names := by
  induction params with
  | nil => rfl
  | cons p params ih => rw [paramsNames, ih, List.flatMap_cons]

theorem argumentsNames_map_mk (types : List Ty) :
    argumentsNames (types.map (.mk · [])) = types.flatMap Ty.names := by
  induction types with
  | nil => rfl
  | cons t types ih =>
    rw [List.map_cons, argumentsNames, ih, GenericArgument.names,
      argumentsNames, List.append_nil, List.flatMap_cons]

/-- A type resolved by its name mentions it, whatever it is resolved to: an enumeration, a type
that is built in, or one of the user. So what is known of the names in a type is known of the
name it was read from. -/
theorem Ty.mem_names_ofName (tables : Tables) (name : Text) (types : List Ty) :
    name ∈ (Ty.ofName tables name types).names := by
  unfold Ty.ofName
  split
  · exact List.mem_singleton.2 rfl
  · split
    · exact List.mem_singleton.2 rfl
    · exact List.mem_cons_self

/-- Arguments matter only for a type that is not known by its name. So the arguments of a
reference have to be spelled only if the reference is resolved to a type of the user. -/
theorem Ty.ofName_cases (tables : Tables) (name : Text) (types : List Ty) :
    Ty.ofName tables name types = Ty.ofName tables name [] ∨
      Ty.ofName tables name types = .user name (types.map (.mk · [])) := by
  unfold Ty.ofName
  split
  · exact .inl rfl
  · split
    · exact .inl rfl
    · exact .inr rfl

/-- A name that is not `new` does not start with the part `new`. A part that is `new` could
stand at the beginning in two ways, alone or before a point, and both make the whole a new
name. -/
theorem ne_new_of_dotted {first : Text} {more : List Text}
    (h : isNewName (dotted first more) = false) : first ≠ Text.ofString "new" := by
  rintro rfl
  rw [isNewName, Bool.or_eq_false_iff] at h
  cases more with
  | nil => exact absurd h.1 (by decide)
  | cons x more =>
    rw [dotted_eq, List.flatMap_cons, List.append_assoc, ← List.append_assoc,
      ← Text.ofString_append] at h
    have : (Text.ofString "new.").isPrefixOf (Text.ofString ("new" ++ ".") ++
        (x ++ List.flatMap (fun part => Text.ofString "." ++ part) more)) = true :=
      List.isPrefixOf_iff_prefix.2 (List.prefix_append _ _)
    rw [this] at h
    cases h.2

/-! ## Spelling what is not decomposed

A phrase is spelled under a condition `e` on the place: whether the words may end with a name
that is cut off. The condition can be weakened, and it is where a part is followed by another,
because there `e` is false. -/

namespace Spelled

variable {tables : Tables} {p : Phrase} {e e' : Prop} {ws : List Word}

/-- What is spelled without a cut is spelled all the more where a cut is allowed. The induction
is over the spelling. A phrase hands the condition to its last part, and the parts before that
are spelled as they were, so most cases hand the induction hypothesis on and the rest ignore
it. -/
theorem mono (h : Spelled tables p e ws) (he : e → e') : Spelled tables p e' ws := by
  induction h generalizing e' with
  | keyword h => exact .keyword h
  | name h => exact .name (h.mono he)
  | generic h hop hu ha _ => exact .generic h hop hu ha
  | emptyTuple => exact .emptyTuple
  | tuple h _ => exact .tuple h
  | operand _ ih => exact .operand (ih he)
  | arrays n h hop _ => exact .arrays n h hop
  | factor _ ih => exact .factor (ih he)
  | intersection hl _ ih => exact .intersection hl (ih he)
  | alternative _ ih => exact .alternative (ih he)
  | union hl _ ih => exact .union hl (ih he)
  | any _ ih => exact .any (ih he)
  | thunk _ ih => exact .thunk (ih he)
  | arrow hp _ _ ih => exact .arrow hp (ih he)
  | param hx _ ih => exact .param hx (ih he)
  | one _ ih => exact .one (ih he)
  | cons h _ _ ihs => exact .cons h (ihs he)

/-- An atom is a type of every level: it is spelled with the same words, and each level takes
what the level below it spells. -/
theorem of_atom {t : Ty} (h : Spelled tables (.item (.type .atom t)) e ws) (l : Level) :
    Spelled tables (.item (.type l t)) e ws := by
  cases l with
  | atom => exact h
  | operand => exact .operand h
  | factor => exact .factor (.operand h)
  | union => exact .alternative (.factor (.operand h))
  | any => exact .any (.alternative (.factor (.operand h)))

/-- What is not decomposed is mapped to `Ty.unknown`, which is rendered as a predefined word. So
it is spelled at every level, in whatever form it was read. -/
theorem unknown (l : Level) :
    Spelled tables (.item (.type l .unknown)) e [.name (Text.ofString "unknown")] :=
  of_atom (.keyword (w := "unknown") (by decide)) l

end Spelled

/-! ## Runs on regular tokens

A run is looked at on tokens as lexing makes them (`Cursor.Regular`), because there the kind of
a token says what its text looks like: an identifier is a name. What is known of an answer and
of the place where the run stopped is a relation between the two. -/

namespace Parser

variable {α β : Type}

/-- On regular tokens, whatever a parser answers, `Y` holds of it and of the place it stops
at. -/
def Yields (p : Parser α) (Y : α → Cursor → Prop) : Prop :=
  ∀ {c c' : Cursor} {a : α}, c.Regular → p c = .ok (a, c') → Y a c'

/-- Items read one after the other with a separator between them, the last of them ending at a
place or before another separator. The relation `Y` holds of each item and the place where that
item ends; in between, the place is before a separator. A list may also end with a separator
behind its last item, and then nothing is known of the place where the list ends. -/
inductive Chain (sep : String) (Y : α → Cursor → Prop) : List α → Cursor → Prop
  /-- The last item. -/
  | last {a : α} {c : Cursor} (h : Y a c) : Chain sep Y [a] c
  /-- The last item, with a separator behind it. -/
  | stop {a : α} {c c' : Cursor} (h : Y a c) (hs : c.current.is sep = true) : Chain sep Y [a] c'
  /-- An item before others. -/
  | cons {a : α} {as : List α} {c c' : Cursor} (h : Y a c) (hs : c.current.is sep = true)
      (ht : Chain sep Y as c') : Chain sep Y (a :: as) c'

namespace Chain

variable {sep : String} {Y : α → Cursor → Prop} {as : List α} {c : Cursor}

/-- Of each item something is known at some place, which is enough where only the item
matters. -/
theorem exists_of_mem (h : Chain sep Y as c) : ∀ a ∈ as, ∃ c', Y a c' := by
  induction h with
  | last h => exact List.forall_mem_singleton.2 ⟨_, h⟩
  | stop h _ => exact List.forall_mem_singleton.2 ⟨_, h⟩
  | cons h _ _ ih => exact List.forall_mem_cons.2 ⟨⟨_, h⟩, ih⟩

theorem map {Z : β → Cursor → Prop} (f : α → β) (hf : ∀ a c, Y a c → Z (f a) c)
    (h : Chain sep Y as c) : Chain sep Z (as.map f) c := by
  induction h with
  | last h => exact .last (hf _ _ h)
  | stop h hs => exact .stop (hf _ _ h) hs
  | cons h hs _ ih => exact .cons (hf _ _ h) hs ih

/-- **A loop whose every round starts with a separator reads a chain.** The induction is on the
rounds. A round that answers nothing ends the loop, and it may have consumed a separator before
it found that nothing follows (`hnone`); a round that answers an item has consumed a separator
and then read the item from the place behind it (`hsome`). So behind each item there is a
separator, or the end of the list. -/
theorem of_collectUpTo {next : Parser (Option α)} [Moves next] {item : Parser α}
    (hitem : Yields item Y)
    (hnone : ∀ {c c' : Cursor}, c.Regular → next c = .ok (none, c') →
      c' = c ∨ c.current.is sep = true)
    (hsome : ∀ {c c' : Cursor} {a : α}, c.Regular → next c = .ok (some a, c') →
      c.current.is sep = true ∧ ∃ c₁ : Cursor, c₁.Regular ∧ item c₁ = .ok (a, c'))
    (n : Nat) : ∀ {c c' : Cursor} {a : α} {as : List α}, c.Regular → Y a c →
      collectUpTo next n c = .ok (as, c') → Chain sep Y (a :: as) c' := by
  induction n with
  | zero => intro c c' a as _ _ h; cases h
  | succ n ih =>
    intro c c' a as hc ha h
    obtain ⟨m, hm, ⟨rfl, h₁⟩ | ⟨b, bs, c₁, rfl, h₁, h₂⟩⟩ := collectUpTo_eq_ok h
    · rcases hnone hc h₁ with rfl | hs
      · exact .last ha
      · exact .stop ha hs
    · cases hm
      obtain ⟨hs, c₂, hc₂, hb⟩ := hsome hc h₁
      exact .cons ha hs (ih (hc.of_ok h₁) (hitem hc₂ hb) h₂)

end Chain

/-- The loop over the items of a list with separators ends where no separator stands. -/
theorem entries_none {sep : String} {item : Parser α} {c c' : Cursor} (hc : c.Regular)
    (h : (do if ← got sep then return some (← item) else return none) c = .ok (none, c')) :
    c' = c := by
  obtain ⟨b, c₁, h₁, h₂⟩ := bind_eq_ok.1 h
  obtain ⟨rfl, rfl, -⟩ | ⟨rfl, t, more, -, -, rfl⟩ := got_inv hc.clean h₁
  · exact (pure_eq_ok.1 h₂).2.symm
  · obtain ⟨x, c₂, -, h₄⟩ := bind_eq_ok.1 h₂
    cases (pure_eq_ok.1 h₄).1

/-- The loop over the items of a union or an intersection reads a chain. A round asks for the
separator first and reads an item exactly if it is there, so no separator is left behind the
last item. -/
theorem yields_entries {sep : String} {item : Parser α} [Moves item] {Y : α → Cursor → Prop}
    (hitem : Yields item Y) {c c' : Cursor} {a : α} {as : List α} (hc : c.Regular) (ha : Y a c)
    (h : collect (do if ← got sep then return some (← item) else return none) c = .ok (as, c')) :
    Chain sep Y (a :: as) c' := by
  refine Chain.of_collectUpTo hitem (fun hc h => .inl (entries_none hc h)) ?_ _ hc ha h
  · intro c c' a hc h
    obtain ⟨b, c₁, h₁, h₂⟩ := bind_eq_ok.1 h
    obtain ⟨rfl, rfl, -⟩ | ⟨rfl, t, more, hr, ht, rfl⟩ := got_inv hc.clean h₁
    · cases (pure_eq_ok.1 h₂).1
    · obtain ⟨x, c₂, h₃, h₄⟩ := bind_eq_ok.1 h₂
      obtain ⟨hx, rfl⟩ := pure_eq_ok.1 h₄
      cases hx
      exact ⟨by rwa [Cursor.current_of_cons hr], _, hc.past hr, h₃⟩

/-- A list with commas is empty or a chain. Here a comma may stand behind the last item: the
loop consumes it, finds the closing bracket and stops. -/
theorem yields_commaList {closer : String} {item : Parser α} [Moves item]
    {Y : α → Cursor → Prop} (hitem : Yields item Y) :
    Yields (commaList closer item) (fun as c => as = [] ∨ Chain "," Y as c) := by
  intro c c' as hc h
  obtain ⟨b, c₁, h₁, h₂⟩ := bind_eq_ok.1 h
  obtain rfl : c₁ = c := by cases h₁; rfl
  rw [ite_run] at h₂
  split at h₂
  · exact .inl (pure_eq_ok.1 h₂).1.symm
  · obtain ⟨a, c₂, h₃, h₄⟩ := bind_eq_ok.1 h₂
    obtain ⟨bs, c₃, h₅, h₆⟩ := bind_eq_ok.1 h₄
    obtain ⟨rfl, rfl⟩ := pure_eq_ok.1 h₆
    refine .inr (Chain.of_collectUpTo hitem ?_ ?_ _ (hc.of_ok h₃) (hitem hc h₃) h₅)
    · intro c c' hc h
      obtain ⟨b, c₁, h₁, h₂⟩ := bind_eq_ok.1 h
      obtain ⟨rfl, rfl, -⟩ | ⟨rfl, t, more, hr, ht, rfl⟩ := got_inv hc.clean h₁
      · obtain ⟨-, rfl⟩ := pure_eq_ok.1 h₂
        exact .inl rfl
      · exact .inr (by rwa [Cursor.current_of_cons hr])
    · intro c c' a hc h
      obtain ⟨c₁, hcomma, hread⟩ := itemBefore_eq_some h
      obtain ⟨hfalse, -⟩ | ⟨-, t, more, hr, ht, rfl⟩ := got_inv hc.clean hcomma
      · cases hfalse
      · exact ⟨by rwa [Cursor.current_of_cons hr], c.past t more, hc.past hr, hread⟩

end Parser

/-! ## Spelling what was read

What is said of a tree at the place where its reading stopped: if the names in it and what
stands at the place allow it, the type it is mapped to is spelled, with a cut at most where the
tokens have run out. -/

section Ended

variable (tables : Tables)

/-- An item that stops at a place is spelled, if what it mentions and what stands there allow it.
Where a parameter stops there must be something left, or its name might be cut off. -/
def Ended (whole : Prop) (i : Item) (c : Cursor) : Prop :=
  c.Regular ∧ (NewFree i.names → c.current.is "." = false → (whole ∨ c.rest ≠ []) →
    ∃ ws, Spelled tables (.item i) (c.rest = []) ws)

/-- A type of some level that stops at a place. -/
def TypeEnded (l : Level) (n : TypeExpr) (c : Cursor) : Prop :=
  n.isAbsent = false ∧ Ended tables True (.type l (n.toTy tables)) c

/-- A parameter that stops at a place. -/
def ParamEnded (p : Parameter) (c : Cursor) : Prop :=
  Ended tables False (.param (p.toParam tables)) c

/-- A tree that is there and not decomposed. -/
def Undivided (n : TypeExpr) : Prop := n.toTy tables = .unknown ∧ n.isAbsent = false

variable {tables}

/-- What is not decomposed is spelled as `unknown`, wherever it stops. -/
theorem TypeEnded.of_undivided {n : TypeExpr} {c : Cursor}
    (h : Undivided tables n) (hc : c.Regular)
    (l : Level) : TypeEnded tables l n c := by
  refine ⟨h.2, hc, fun _ _ _ => ?_⟩
  rw [h.1]
  exact ⟨_, .unknown l⟩

/-- A rule that only builds trees of forms that are not decomposed. That a rule builds nothing
else is settled by the instances for `Builds`, so the run itself need not be looked at. -/
theorem TypeEnded.of_builds {p : Parser TypeExpr} {n : TypeExpr} {c c' : Cursor}
    [hp : Builds (Undivided tables) p] (h : p c = .ok (n, c')) (hc' : c'.Regular) (l : Level) :
    TypeEnded tables l n c' :=
  .of_undivided (hp.answers h) hc' l

/-- At a separator something is left, and it is no point. So what is asked of the place where an
item stops is granted where a separator or a closing bracket comes behind it. -/
theorem at_separator {c : Cursor} (hc : c.Regular) {sep : String} (hs : c.current.is sep = true)
    (hsep : sep ≠ ".") : c.rest ≠ [] ∧ c.current.is "." = false := by
  obtain ⟨t, more, hr, -⟩ := Cursor.exists_of_is hc.clean hs
  refine ⟨by rw [hr]; exact List.cons_ne_nil _ _, ?_⟩
  exact Token.is_eq_false_of_is hs hsep

/-- **A chain of spelled items is a spelled list.** The words of a list are those of its items
with the separators between them. Each item but the last stops at a separator, so it is spelled
without a cut, and the conditions on the place concern the last item alone. Where a separator
stands behind the last item as well, it drops out of the spelling. -/
theorem Parser.Chain.spelled {whole : Prop} {g : Glue} {items : List Item} {c : Cursor}
    (h : Chain g.mark (Ended tables whole) items c) (hn : NewFree (items.flatMap Item.names))
    (hd : c.current.is "." = false) (hw : whole ∨ c.rest ≠ []) :
    ∃ ws, Spelled tables (.list g items) (c.rest = []) ws := by
  have hsep : g.mark ≠ "." := by cases g <;> decide
  induction h with
  | last h =>
    rw [List.flatMap_singleton] at hn
    obtain ⟨ws, hs⟩ := h.2 hn hd hw
    exact ⟨ws, .one hs⟩
  | stop h hs =>
    rw [List.flatMap_singleton] at hn
    obtain ⟨hr, hd'⟩ := at_separator h.1 hs hsep
    obtain ⟨ws, hs⟩ := h.2 hn hd' (.inr hr)
    exact ⟨ws, .one (hs.mono fun h => absurd h hr)⟩
  | cons h hs _ ih =>
    rw [List.flatMap_cons, NewFree.append] at hn
    obtain ⟨hr, hd'⟩ := at_separator h.1 hs hsep
    obtain ⟨ws, hws⟩ := h.2 hn.1 hd' (.inr hr)
    obtain ⟨vs, hvs⟩ := ih hn.2 hd hw
    exact ⟨_, .cons (hws.mono fun h => absurd h hr) hvs⟩

/-- The mapping leaves out the types that are absent. Where every type is there, it maps them
one by one. -/
theorem mapTypes_eq_map {nodes : List TypeExpr} (h : ∀ n ∈ nodes, n.isAbsent = false) :
    mapTypes tables nodes = nodes.map (·.toTy tables) := by
  induction nodes with
  | nil => rfl
  | cons n nodes ih =>
    have ih' := ih fun m hm => h m (.tail _ hm)
    cases n with
    | absent => exact absurd (h _ (.head _)) (by decide)
    | _ => exact congrArg _ ih'

theorem mapParams_eq_map (nodes : List Parameter) :
    mapParams tables nodes = nodes.map (·.toParam tables) := by
  induction nodes with
  | nil => rfl
  | cons n nodes ih => rw [mapParams, ih]; rfl

/-- A rule never answers that a type is absent, so every member of a chain is mapped. -/
theorem Parser.Chain.mapTypes_eq {sep : String} {l : Level} {nodes : List TypeExpr} {c : Cursor}
    (h : Chain sep (TypeEnded tables l) nodes c) :
    mapTypes tables nodes = nodes.map (·.toTy tables) := by
  refine mapTypes_eq_map fun n hn => ?_
  obtain ⟨c', h'⟩ := h.exists_of_mem n hn
  exact h'.1

/-- A chain of types is mapped to a spelled list of types. -/
theorem Parser.Chain.types_spelled {g : Glue} {l : Level} {nodes : List TypeExpr} {c : Cursor}
    (h : Chain g.mark (TypeEnded tables l) nodes c)
    (hn : NewFree ((mapTypes tables nodes).flatMap Ty.names)) (hd : c.current.is "." = false) :
    ∃ ws, Spelled tables (.list g ((mapTypes tables nodes).map (.type l))) (c.rest = []) ws := by
  rw [h.mapTypes_eq] at hn ⊢
  -- The chain of trees is one of the items they are mapped to.
  have hc := h.map (fun n => Item.type l (n.toTy tables)) fun n c hnc => hnc.2
  rw [List.map_map]
  refine hc.spelled ?_ hd (.inl trivial)
  rw [List.flatMap_map] at hn ⊢
  exact hn

theorem Parser.Chain.length_mapTypes {sep : String} {l : Level}
    {nodes : List TypeExpr} {c : Cursor}
    (h : Chain sep (TypeEnded tables l) nodes c) :
    (mapTypes tables nodes).length = nodes.length := by
  rw [h.mapTypes_eq, List.length_map]

/-- A chain of parameters is mapped to a spelled list of parameters, if it does not reach the
end. -/
theorem Parser.Chain.params_spelled {nodes : List Parameter} {c : Cursor}
    (h : Chain "," (ParamEnded tables) nodes c)
    (hn : NewFree ((mapParams tables nodes).flatMap Param.names)) (hd : c.current.is "." = false)
    (hr : c.rest ≠ []) :
    ∃ ws, Spelled tables (.list .arguments ((mapParams tables nodes).map .param)) False ws := by
  rw [mapParams_eq_map] at hn ⊢
  have hc : Chain Glue.arguments.mark (Ended tables False)
      (nodes.map fun n => Item.param (Parameter.toParam tables n)) c :=
    h.map _ fun n c hnc => hnc
  rw [List.map_map]
  obtain ⟨ws, hs⟩ := hc.spelled (by rw [List.flatMap_map] at hn ⊢; exact hn) hd (.inr hr)
  exact ⟨ws, hs.mono fun h => absurd h hr⟩

end Ended

namespace Parser

variable {tables : Tables} {type : Parser TypeExpr} {c c' : Cursor} {start : Position}

/-! ## Forms that are not decomposed

One fact for each constructor that the mapping does not look into. The instances for `Builds`
use them at the end of a rule, where the node is built. -/

section Forms

variable {s : Span} {t u : TypeExpr}

instance {x : Text} : Fact (Undivided tables (.literal s x)) := ⟨⟨rfl, rfl⟩⟩

instance {i : Identifier} : Fact (Undivided tables (.query s i)) := ⟨⟨rfl, rfl⟩⟩

instance : Fact (Undivided tables (.parenthesized s t)) := ⟨⟨rfl, rfl⟩⟩

instance {p : TypeParameter} : Fact (Undivided tables (.mapped s p t)) := ⟨⟨rfl, rfl⟩⟩

instance {ms : List Member} : Fact (Undivided tables (.object s ms)) := ⟨⟨rfl, rfl⟩⟩

instance {ps : List Parameter} : Fact (Undivided tables (.constructor s ps t)) := ⟨⟨rfl, rfl⟩⟩

instance {i : Identifier} {optional rest : Bool} :
    Fact (Undivided tables (.namedElement s i optional rest t)) := ⟨⟨rfl, rfl⟩⟩

instance : Fact (Undivided tables (.optional s t)) := ⟨⟨rfl, rfl⟩⟩

instance : Fact (Undivided tables (.rest s t)) := ⟨⟨rfl, rfl⟩⟩

instance {x : Text} : Fact (Undivided tables (.operator s x t)) := ⟨⟨rfl, rfl⟩⟩

instance {p : TypeParameter} : Fact (Undivided tables (.infer s p)) := ⟨⟨rfl, rfl⟩⟩

instance {x : Text} : Fact (Undivided tables (.predicate s x t)) := ⟨⟨rfl, rfl⟩⟩

instance {check bound : TypeExpr} : Fact (Undivided tables (.conditional s check bound t u)) :=
  ⟨⟨rfl, rfl⟩⟩

end Forms

/-! ## Names

A name is read from identifiers with points between them. The loop looks two tokens ahead: only
if a point and an identifier follow each other, it goes on. So behind a name there may still be
a point, and the rules above ask for the case that there is none. -/

/-- An identifier is one token, and its text is kept. -/
theorem identifier_inv (hc : c.Regular) {i : Identifier} (h : identifier c = .ok (i, c')) :
    ∃ t more, c.rest = t :: more ∧ t.isIdent = true ∧ i.text = t.text ∧ c' = c.past t more := by
  have h' : (if c.current.isIdent = true then (do let t ← advance; return ⟨t.span, t.text⟩)
      else fail .identifierExpected : Parser Identifier) c = .ok (i, c') := h
  rw [ite_run] at h'
  split at h'
  · rename_i hi
    obtain ⟨t, more, hr, ht⟩ := Cursor.exists_of_isIdent hc.clean hi
    obtain ⟨u, c₁, h₁, h₂⟩ := bind_eq_ok.1 h'
    obtain ⟨rfl, rfl⟩ := pure_eq_ok.1 h₂
    obtain ⟨more', hr', rfl⟩ := advance_inv (by rw [hr]; exact List.cons_ne_nil _ _) h₁
    rw [hr] at hr'
    obtain ⟨rfl, rfl⟩ := List.cons.inj hr'
    exact ⟨t, more, hr, ht, rfl, rfl⟩
  · cases h'

/-- The loop that reads the parts of a name behind the first. The parts are names, and only the
last of them may be cut off at the end of the source. If there is none, the loop has not moved,
and at the end there is none. The induction is on the rounds: a round consumes a point and an
identifier, and the part it adds is the last one exactly if no further part follows. -/
theorem parts_of_collectUpTo (n : Nat) : ∀ {c c' : Cursor} {parts : List Text}, c.Regular →
    collectUpTo (do
      if ← ahead (·.is ".") (·.isIdent) then
        let _ ← advance
        return some (← advance).text
      else return none) n c = .ok (parts, c') →
    NameParts (c'.rest = []) parts ∧ (parts = [] → c' = c) ∧ (c.rest = [] → parts = []) := by
  induction n with
  | zero => intro c c' parts _ h; cases h
  | succ n ih =>
    intro c c' parts hc h
    obtain ⟨m, hm, ⟨rfl, h₁⟩ | ⟨x, parts, c₁, rfl, h₁, h₂⟩⟩ := collectUpTo_eq_ok h
    · rw [bind_of_ok (ahead_run hc.clean _ _), ite_run] at h₁
      split at h₁
      · obtain ⟨_, _, -, h₃⟩ := bind_eq_ok.1 h₁
        obtain ⟨_, _, -, h₅⟩ := bind_eq_ok.1 h₃
        cases (pure_eq_ok.1 h₅).1
      · -- No point with an identifier behind it: the name ends here.
        obtain ⟨-, rfl⟩ := pure_eq_ok.1 h₁
        exact ⟨trivial, fun _ => rfl, fun _ => rfl⟩
    · cases hm
      rw [bind_of_ok (ahead_run hc.clean _ _), ite_run] at h₁
      split at h₁
      · rename_i hb
        rw [Bool.and_eq_true] at hb
        obtain ⟨dot, more, hr, -⟩ := Cursor.exists_of_is hc.clean hb.1
        rw [bind_of_ok (advance_run_cons hr hc.clean.fault)] at h₁
        have hi := hb.2
        rw [Cursor.second_of_cons hr] at hi
        have hc₁ := hc.past hr
        obtain ⟨t, more, hr', ht⟩ := Cursor.exists_of_isIdent hc₁.clean hi
        rw [bind_of_ok (advance_run_cons hr' hc₁.clean.fault)] at h₁
        obtain ⟨hx, rfl⟩ := pure_eq_ok.1 h₁
        cases hx
        -- A part, and those behind it by induction.
        obtain ⟨hp, hnil, hend⟩ := ih (hc₁.past hr') h₂
        refine ⟨⟨?_, hp⟩, fun h => absurd h (List.cons_ne_nil _ _), fun h => ?_⟩
        · refine ((hc₁.head hr').name ht).mono fun hm => ?_
          have hparts := hend hm
          exact ⟨by rw [hnil hparts]; exact hm, hparts⟩
        · rw [hr] at h; cases h
      · cases (pure_eq_ok.1 h₁).1

/-- A name with points is its first identifier and the parts behind it. The text that is kept
joins them with points, and if there are no further parts, the rule stops behind the first
identifier. -/
theorem entityName_inv (hc : c.Regular) {i : Identifier} (h : entityName c = .ok (i, c')) :
    ∃ t more parts, c.rest = t :: more ∧ t.isIdent = true ∧ i.text = dotted t.text parts ∧
      NameParts (c'.rest = []) (t.text :: parts) ∧ (parts = [] → c' = c.past t more) := by
  obtain ⟨start, c₁, h₁, h₂⟩ := bind_eq_ok.1 h
  obtain rfl : c₁ = c := by cases h₁; rfl
  obtain ⟨i₁, c₂, h₃, h₄⟩ := bind_eq_ok.1 h₂
  obtain ⟨t, more, hr, ht, hi, rfl⟩ := identifier_inv hc h₃
  obtain ⟨parts, c₃, h₅, h₆⟩ := bind_eq_ok.1 h₄
  obtain ⟨s, c₄, h₇, h₈⟩ := bind_eq_ok.1 h₆
  obtain rfl : c₄ = c₃ := by cases h₇; rfl
  obtain ⟨rfl, rfl⟩ := pure_eq_ok.1 h₈
  obtain ⟨hp, hnil, hend⟩ := parts_of_collectUpTo _ (hc.past hr) h₅
  refine ⟨t, more, parts, hr, ht, ?_, ⟨?_, hp⟩, hnil⟩
  · show parts.foldl _ i₁.text = _
    rw [hi]; rfl
  · refine ((hc.head hr).name ht).mono fun hm => ?_
    have hparts := hend hm
    exact ⟨by rw [hnil hparts]; exact hm, hparts⟩

/-! ## Atoms

An atom starts with a token of its own, and the kind of that token decides what it is. The
interesting ones start with an identifier: a predefined type, a literal, a query or a reference.
A reference is read only where the others have been ruled out, and this is what makes its name
one that can be spelled. -/

/-- An atom that stops at a place. If it is a bare operator, no bracket stands there. -/
def AtomEnded (tables : Tables) (n : TypeExpr) (c : Cursor) : Prop :=
  n.isAbsent = false ∧ c.Regular ∧ (NewFree (n.toTy tables).names → c.current.is "." = false →
    ∃ ws, Spelled tables (.item (.type .atom (n.toTy tables))) (c.rest = []) ws ∧
      (Bare ws → c.current.is "[" = false))

/-- An operator on types does not act as one, for no type follows it. The rule for operators has
looked for one already where an atom is read, so at that place an operator can only be a
name. -/
def Plain (c : Cursor) : Prop := isTypeOperator c.current = true → startsType c.second = false

/-- The word `unknown` is no operator. -/
theorem not_bare_unknown : ¬Bare [.name (Text.ofString "unknown")] := by
  rintro ⟨w, hw, hop⟩
  obtain ⟨rfl, -⟩ := List.cons.inj hw
  exact absurd hop (by decide)

theorem AtomEnded.of_undivided {n : TypeExpr} (h : Undivided tables n) (hc : c.Regular) :
    AtomEnded tables n c := by
  refine ⟨h.2, hc, fun _ _ => ?_⟩
  rw [h.1]
  exact ⟨_, .unknown .atom, fun hb => absurd hb not_bare_unknown⟩

theorem AtomEnded.of_builds {p : Parser TypeExpr} {n : TypeExpr} {c c' : Cursor}
    [hp : Builds (Undivided tables) p] (h : p c = .ok (n, c')) (hc' : c'.Regular) :
    AtomEnded tables n c' :=
  .of_undivided (hp.answers h) hc'

/-- Whether a word is predefined is a matter of its text. -/
theorem exists_of_isPredefined {x : Text} (h : isPredefined x = true) :
    ∃ w ∈ predefinedTypes, x = Text.ofString w := by
  simpa [isPredefined] using h

/-- The predefined types that are mapped to something known. -/
def mappedKeywords : List String :=
  ["string", "number", "boolean", "void", "symbol", "object", "any"]

/-- Every other predefined type is mapped to `Ty.unknown`. -/
theorem ofKeyword_eq_unknown {w : String} (h : w ∉ mappedKeywords) :
    Ty.ofKeyword (.ofString w) = .unknown := by
  simp only [mappedKeywords, List.mem_cons, List.not_mem_nil, or_false, not_or] at h
  simp only [Ty.ofKeyword, beq_iff_eq, Bool.or_eq_true, Text.ofString_inj, h, or_self, if_false]

/-- What a predefined type is mapped to is spelled. Three cases: a word that the mapping keeps
is rendered as itself; `symbol` is mapped to the type with the name `Symbol`, which is spelled
as a reference; and whatever is mapped to nothing known is rendered as `unknown`. None of these
words is an operator. -/
theorem spelled_ofKeyword {w : String} (hw : w ∈ predefinedTypes) (e : Prop) :
    ∃ ws, Spelled tables (.item (.type .atom (.ofKeyword (.ofString w)))) e ws ∧ ¬Bare ws := by
  have hrendered : ∀ {v : String}, v ∈ renderedKeywords →
      Ty.ofKeyword (.ofString w) = Ty.ofKeyword (.ofString v) →
      ∃ ws, Spelled tables (.item (.type .atom (.ofKeyword (.ofString w)))) e ws ∧ ¬Bare ws := by
    intro v hv he
    have key : ∀ v ∈ renderedKeywords,
        isTypeOperator (Word.name (Text.ofString v)).token = false := by
      decide
    rw [he]
    refine ⟨_, .keyword hv, ?_⟩
    rintro ⟨u, hu, hop⟩
    obtain ⟨rfl, -⟩ := List.cons.inj hu
    rw [key v hv] at hop; cases hop
  -- The word `symbol` is the only one that is rendered as a name.
  by_cases hs : w = "symbol"
  · subst hs
    have hsym : Ty.ofKeyword (.ofString "symbol")
        = Ty.ofName tables (dotted (Text.ofString "Symbol") []) [] := by
      have hbuiltIn : isBuiltIn (dotted (Text.ofString "Symbol") []) = true :=
        List.any_eq_true.2 ⟨"Symbol", by decide, beq_self_eq_true _⟩
      rw [Ty.ofName, hbuiltIn, Bool.true_or, if_pos rfl]
      rfl
    have hn : Named e (Text.ofString "Symbol") [] :=
      ⟨⟨.of_isLetters (by decide), trivial⟩, by decide, fun _ => by decide⟩
    rw [hsym]
    refine ⟨_, .name hn, ?_⟩
    rintro ⟨u, hu, hop⟩
    obtain ⟨rfl, -⟩ := List.cons.inj hu
    exact absurd hop (by decide)
  · have hall : ∀ w ∈ predefinedTypes, w ≠ "symbol" → ∃ v ∈ renderedKeywords,
        Ty.ofKeyword (.ofString w) = Ty.ofKeyword (.ofString v) := by
      intro w hw hne
      by_cases hr : w ∈ renderedKeywords
      · exact ⟨w, hr, rfl⟩
      · have hmapped : ∀ v ∈ mappedKeywords, v = "symbol" ∨ v ∈ renderedKeywords := by decide
        have hkeyword : w ∉ mappedKeywords := fun h => (hmapped w h).elim hne hr
        exact ⟨"unknown", by decide, (ofKeyword_eq_unknown hkeyword).trans
          (ofKeyword_eq_unknown (by decide)).symm⟩
    -- Every other word is mapped as a word that is rendered.
    obtain ⟨v, hv, he⟩ := hall w hw hs
    exact hrendered hv he

/-- A reference is a name and perhaps arguments. The run between the two is kept (`c₁`), since
what stands behind the name decides whether it is spelled. -/
theorem typeReference_inv (hc : c.Regular) {n : TypeExpr}
    (h : typeReference type c = .ok (n, c')) :
    ∃ s i args c₁, entityName c = .ok (i, c₁) ∧ typeArguments? type c₁ = .ok (args, c') ∧
      n = .reference s (some i) args := by
  obtain ⟨start, c₁, h₁, h₂⟩ := bind_eq_ok.1 h
  obtain rfl : c₁ = c := by cases h₁; rfl
  obtain ⟨i, c₂, h₃, h₄⟩ := bind_eq_ok.1 h₂
  obtain ⟨args, c₃, h₅, h₆⟩ := bind_eq_ok.1 h₄
  obtain ⟨s, c₄, h₇, h₈⟩ := bind_eq_ok.1 h₆
  obtain rfl : c₄ = c₃ := by cases h₇; rfl
  obtain ⟨rfl, rfl⟩ := pure_eq_ok.1 h₈
  exact ⟨s, i, args, c₂, h₃, h₅, rfl⟩

/-- There are no arguments, or they are a list between angle brackets. The bracket has to be on
the line of the name, which does not matter here. -/
theorem typeArguments?_inv (hc : c.Regular) {args : Option (List TypeExpr)} [Moves type]
    (htype : Yields type (TypeEnded tables .any)) (h : typeArguments? type c = .ok (args, c')) :
    (args = none ∧ c' = c) ∨ (c.current.is "<" = true ∧ ∃ ns c₁, args = some ns ∧
      c₁.current.is ">" = true ∧ c₁.Regular ∧
      (ns = [] ∨ Chain Glue.arguments.mark (TypeEnded tables .any) ns c₁)) := by
  have h' : (if (c.current.is "<" && !c.current.newlineBefore) = true
      then (do return some (← typeArguments type)) else return none :
        Parser (Option (List TypeExpr)))
      c = .ok (args, c') := h
  rw [ite_run] at h'
  split at h'
  · rename_i hb
    rw [Bool.and_eq_true] at hb
    obtain ⟨ns, c₁, h₁, h₂⟩ := bind_eq_ok.1 h'
    obtain ⟨rfl, rfl⟩ := pure_eq_ok.1 h₂
    obtain ⟨_, c₂, h₃, h₄⟩ := bind_eq_ok.1 h₁
    obtain ⟨ns', c₃, h₅, h₆⟩ := bind_eq_ok.1 h₄
    obtain ⟨_, c₄, h₇, h₈⟩ := bind_eq_ok.1 h₆
    obtain ⟨rfl, rfl⟩ := pure_eq_ok.1 h₈
    have hc₂ := hc.of_ok h₃
    have hc₃ := hc₂.of_ok h₅
    exact .inr ⟨hb.1, ns', c₃, rfl, (expect_eq_ok h₇).1, hc₃, yields_commaList htype hc₂ h₅⟩
  · obtain ⟨rfl, rfl⟩ := pure_eq_ok.1 h'
    exact .inl ⟨rfl, rfl⟩

/-- A square bracket and an angle bracket start a type, so neither follows a name that only
looks like an operator. -/
theorem startsType_of_is {t : Token} {s : String} (hs : s ∈ ["[", "<"]) (h : t.is s = true) :
    startsType t = true := by
  have h' := h
  rw [Token.is, Bool.and_eq_true, Bool.or_eq_true, beq_iff_eq, beq_iff_eq] at h'
  simp only [List.mem_cons, List.not_mem_nil, or_false] at hs
  rcases h'.1 with hk | hk
  · rcases hs with rfl | rfl <;> simp [startsType, hk, h]
  · simp [startsType, hk]

/-- A name that is a bare operator is a single part, and no type follows it. If a type followed,
the rule for operators would have taken the word for one. -/
theorem second_of_bare (hplain : Plain c) {t : Token} {more : List Token} {parts : List Text}
    (hr : c.rest = t :: more) (ht : t.isIdent = true) (hb : Bare (dottedWords t.text parts)) :
    parts = [] ∧ startsType (c.past t more).current = false := by
  obtain ⟨w, hw, hop⟩ := hb
  obtain ⟨rfl, hnil⟩ := List.cons.inj hw
  have hparts : parts = [] := by
    cases parts with
    | nil => rfl
    | cons x parts => cases hnil
  refine ⟨hparts, ?_⟩
  rw [← Cursor.second_of_cons hr]
  refine hplain ?_
  rw [Cursor.current_of_cons hr]
  have hk : t.kind = .ident := beq_iff_eq.1 ht
  have his : ∀ s : String, t.is s = (Word.name t.text).token.is s := by
    intro s
    simp only [Token.is, hk]; rfl
  rw [isTypeOperator, his, his, his]
  exact hop

/-- **A reference is spelled**, where the words that are no names have been ruled out. The
hypotheses are what the rule for words has found out before: the current token is no literal
(`hlit`), and unless a point follows it is neither a predefined type nor `typeof` (`hkey`).
Without arguments the name is all there is to spell. With arguments it depends on what the name
is resolved to: they are spelled behind the name, or they are dropped with it. -/
theorem atomEnded_typeReference [Moves type] (hc : c.Regular)
    (htype : Yields type (TypeEnded tables .any)) (hplain : Plain c)
    (hlit : c.current.is "true" = false ∧ c.current.is "false" = false)
    (hkey : c.second.is "." = false →
      isPredefined c.current.text = false ∧ c.current.is "typeof" = false)
    {n : TypeExpr} (h : typeReference type c = .ok (n, c')) : AtomEnded tables n c' := by
  have hc' := hc.of_ok h
  obtain ⟨s, i, args, c₁, he, ha, rfl⟩ := typeReference_inv hc h
  obtain ⟨t, more, parts, hr, ht, hi, hp, hnil⟩ := entityName_inv hc he
  have hc₁ := hc.of_ok he
  rw [Cursor.current_of_cons hr] at hlit hkey
  have hk : t.kind = .ident := beq_iff_eq.1 ht
  have hne : ∀ {w : String}, t.is w = false → t.text ≠ Text.ofString w := by
    intro w hw heq
    rw [Token.is, hk, heq] at hw
    simp at hw
  -- The name that is mapped is the text that was read.
  have hname : identifierText (some i) = dotted t.text parts := by
    rw [identifierText_of_ne_nil (hi ▸ dotted_ne_nil hp.1.ne_nil parts), hi]
  -- What was ruled out makes it a name that can be spelled.
  have hnamed : ∀ {e : Prop}, NameParts e (t.text :: parts) →
      isNewName (dotted t.text parts) = false → c₁.current.is "." = false →
      Named e t.text parts := by
    intro e hparts hnew hdot
    refine ⟨hparts, ?_, fun hm => ?_⟩
    · intro w hw
      simp only [List.mem_cons, List.not_mem_nil, or_false] at hw
      rcases hw with rfl | rfl | rfl
      · exact hne hlit.1
      · exact hne hlit.2
      · exact ne_new_of_dotted hnew
    · rw [hnil hm, ← Cursor.second_of_cons hr] at hdot
      exact ⟨(hkey hdot).1, hne (hkey hdot).2⟩
  refine ⟨rfl, hc', fun hnew hdot => ?_⟩
  -- Without arguments, and with them.
  obtain ⟨rfl, rfl⟩ | ⟨hlt, ns, c₂, rfl, hgt, hc₂, hns⟩ := typeArguments?_inv hc₁ htype ha
  · rw [TypeExpr.toTy, hname] at hnew ⊢
    refine ⟨_, .name (hnamed hp (hnew _ (Ty.mem_names_ofName _ _ _)) hdot), fun hb => ?_⟩
    obtain ⟨hparts, hst⟩ := second_of_bare hplain hr ht hb
    rw [hnil hparts]
    cases hbr : (c.past t more).current.is "[" with
    | false => rfl
    | true => rw [startsType_of_is (by decide) hbr] at hst; cases hst
  · rw [TypeExpr.toTy, hname] at hnew ⊢
    have hrest := at_separator hc₁ hlt (by decide)
    have hp' : NameParts False (t.text :: parts) := hp.mono fun h => hrest.1 h
    have hn := hnamed hp' (hnew _ (Ty.mem_names_ofName _ _ _)) hrest.2
    have hbare : ¬Bare (dottedWords t.text parts) := by
      intro hb
      obtain ⟨hparts, hst⟩ := second_of_bare hplain hr ht hb
      rw [← hnil hparts, startsType_of_is (by decide) hlt] at hst
      cases hst
    -- If the type is known by its name, the arguments are dropped.
    rcases Ty.ofName_cases tables (dotted t.text parts) (mapTypes tables ns) with heq | hu
    · rw [heq]
      exact ⟨_, .name (hn.mono False.elim), fun hb => absurd hb hbare⟩
    -- An empty list of arguments is rendered as none.
    rcases hns with rfl | hchain
    · exact ⟨_, .name (hn.mono False.elim), fun hb => absurd hb hbare⟩
    have hend := at_separator hc₂ hgt (by decide)
    rw [hu, Ty.names, argumentsNames_map_mk] at hnew
    obtain ⟨ws, hws⟩ := hchain.types_spelled (fun x hx => hnew x (.tail _ hx)) hend.2
    refine ⟨_, .generic hn hbare hu (hws.mono fun h => hend.1 h), ?_⟩
    rintro ⟨w, hw, -⟩
    have := congrArg List.length hw
    simp [dottedWords] at this

/-! ## Operands -/

/-- What starts with an identifier is a predefined type, a literal, a query or a reference. The
tests are made in this order, and each one that fails is a fact about the reference that is read
in the end. A predefined type is one only if no point follows, since `string.x` is a name. -/
theorem atomEnded_wordType [Moves type] (hc : c.Regular)
    (htype : Yields type (TypeEnded tables .any)) (hplain : Plain c)
    (hident : c.current.isIdent = true) {n : TypeExpr}
    (h : wordType type start c = .ok (n, c')) : AtomEnded tables n c' := by
  have hc' := hc.of_ok h
  obtain ⟨t, more, hr, ht⟩ := Cursor.exists_of_isIdent hc.clean hident
  have h₁ : ((ahead (fun t => isPredefined t.text) (fun next => !next.is ".")) >>= fun b =>
      if b = true then (do let _ ← advance; return .keyword (← spanFrom start) c.current.text)
      else if c.current.is "true" || c.current.is "false" then literalType start
      else (ahead (·.is "typeof") (fun next => !next.is ".")) >>= fun b =>
        if b = true then typeQuery type start else typeReference type : Parser TypeExpr) c
      = .ok (n, c') := h
  rw [bind_of_ok (ahead_run hc.clean _ _), ite_run] at h₁
  split at h₁
  · rename_i hb
    rw [Bool.and_eq_true] at hb
    obtain ⟨_, c₁, -, h₂⟩ := bind_eq_ok.1 h₁
    obtain ⟨_, c₂, -, h₃⟩ := bind_eq_ok.1 h₂
    obtain ⟨rfl, rfl⟩ := pure_eq_ok.1 h₃
    obtain ⟨w, hw, hx⟩ := exists_of_isPredefined hb.1
    refine ⟨rfl, hc', fun _ _ => ?_⟩
    rw [TypeExpr.toTy, hx]
    obtain ⟨ws, hws, hbare⟩ := spelled_ofKeyword hw _
    exact ⟨ws, hws, fun h => absurd h hbare⟩
  -- Not a predefined type; so a literal, a query, or a reference.
  rename_i hpre
  rw [ite_run] at h₁
  split at h₁
  · exact .of_builds h₁ hc'
  rename_i hlit
  rw [bind_of_ok (ahead_run hc.clean _ _), ite_run] at h₁
  split at h₁
  · exact .of_builds h₁ hc'
  rename_i htypeof
  refine atomEnded_typeReference hc htype hplain ?_ (fun hdot => ?_) h₁
  · simpa using hlit
  · simp only [hdot, Bool.not_false, Bool.and_true, Bool.not_eq_true] at hpre htypeof
    exact ⟨hpre, htypeof⟩

/-- An element of a tuple is a type. With a name in front, with `...` in front or with a
question mark behind it, it is a node of its own that is not decomposed. -/
theorem yields_tupleElement [Moves type] (htype : Yields type (TypeEnded tables .any)) :
    Yields (tupleElement type) (TypeEnded tables .any) := by
  intro c c' n hc h
  have hc' := hc.of_ok h
  obtain ⟨start, c₁, h₁, h₂⟩ := bind_eq_ok.1 h
  obtain rfl : c₁ = c := by cases h₁; rfl
  obtain ⟨b, c₂, h₃, h₄⟩ := bind_eq_ok.1 h₂
  have hc₂ := hc.of_ok h₃
  rw [ite_run] at h₄
  split at h₄
  · exact .of_builds h₄ hc' _
  obtain ⟨b, c₃, h₅, h₆⟩ := bind_eq_ok.1 h₄
  have hc₃ := hc₂.of_ok h₅
  rw [ite_run] at h₆
  split at h₆
  · exact .of_builds h₆ hc' _
  obtain ⟨b, c₄, h₇, h₈⟩ := bind_eq_ok.1 h₆
  have hc₄ := hc₃.of_ok h₇
  rw [ite_run] at h₈
  split at h₈
  · exact .of_builds h₈ hc' _
  -- Neither a name nor dots stand in front, so this is a type.
  obtain ⟨m, c₅, h₉, h₁₀⟩ := bind_eq_ok.1 h₈
  have hm := htype hc₄ h₉
  obtain ⟨b, c₆, h₁₁, h₁₂⟩ := bind_eq_ok.1 h₁₀
  obtain ⟨rfl, rfl, -⟩ | ⟨rfl, -⟩ := got_inv (hc₄.of_ok h₉).clean h₁₁
  · obtain ⟨rfl, rfl⟩ := pure_eq_ok.1 h₁₂
    exact hm
  · rw [if_pos rfl] at h₁₂
    exact .of_builds h₁₂ hc' _

/-- A tuple is the list of its elements between square brackets, so it is spelled if they are.
The closing bracket is left behind each of them, or a comma. -/
theorem atomEnded_tupleType [Moves type] (hc : c.Regular)
    (htype : Yields type (TypeEnded tables .any)) {n : TypeExpr}
    (h : tupleType type start c = .ok (n, c')) : AtomEnded tables n c' := by
  have hc' := hc.of_ok h
  obtain ⟨_, c₁, h₁, h₂⟩ := bind_eq_ok.1 h
  have hc₁ := hc.of_ok h₁
  obtain ⟨ns, c₂, h₃, h₄⟩ := bind_eq_ok.1 h₂
  have hc₂ := hc₁.of_ok h₃
  obtain ⟨_, c₃, h₅, h₆⟩ := bind_eq_ok.1 h₄
  obtain ⟨s, c₄, -, h₈⟩ := bind_eq_ok.1 h₆
  obtain ⟨rfl, rfl⟩ := pure_eq_ok.1 h₈
  have hend := at_separator hc₂ (expect_eq_ok h₅).1 (by decide)
  refine ⟨rfl, hc', fun hnew _ => ?_⟩
  rw [TypeExpr.toTy] at hnew ⊢
  rcases yields_commaList (yields_tupleElement htype) hc₁ h₃ with rfl | hchain
  · refine ⟨_, .emptyTuple, ?_⟩
    rintro ⟨w, hw, -⟩
    cases hw
  · rw [Ty.names, typesNames_eq] at hnew
    have hchain' : Chain Glue.elements.mark (TypeEnded tables .any) ns c₂ := hchain
    obtain ⟨ws, hws⟩ := hchain'.types_spelled hnew hend.2
    refine ⟨_, .tuple (hws.mono fun h => hend.1 h), ?_⟩
    rintro ⟨w, hw, -⟩
    have := congrArg List.length hw
    simp at this

/-- **An atom is spelled.** Of the forms that start with a punctuator only tuples are
decomposed; an object, a mapped type, a type in parentheses and a literal are not, whatever
stands in them. -/
theorem atomEnded_atomType [Moves type] (hc : c.Regular)
    (htype : Yields type (TypeEnded tables .any)) (hplain : Plain c) {n : TypeExpr}
    (h : atomType type c = .ok (n, c')) : AtomEnded tables n c' := by
  have hc' := hc.of_ok h
  have h' := h
  unfold atomType at h'
  rw [here_bind, current_bind] at h'
  have hform : literalType c.current.start c = .ok (n, c') → AtomEnded tables n c' :=
    fun h => .of_builds h hc'
  cases hk : c.current.kind with
  | ident => rw [hk] at h'; exact atomEnded_wordType hc htype hplain (beq_iff_eq.2 hk) h'
  | string => rw [hk] at h'; exact hform h'
  | number => rw [hk] at h'; exact hform h'
  | template => rw [hk] at h'; exact hform h'
  -- No type starts with one of these.
  | eof => rw [hk] at h'; cases h'
  | regex => rw [hk] at h'; cases h'
  | illegal => rw [hk] at h'; cases h'
  | punct =>
    rw [hk] at h'
    have h₁ : ((ahead (·.is "-") (·.kind == .number)) >>= fun b =>
        if b = true then negativeType c.current.start
        else if c.current.is "(" then parenthesizedType type c.current.start
        else if c.current.is "[" then tupleType type c.current.start
        else if c.current.is "\x7b" then bracedType type c.current.start
        else fail .typeExpected : Parser TypeExpr) c = .ok (n, c') := h'
    rw [bind_of_ok (ahead_run hc.clean _ _)] at h₁
    simp only [ite_run] at h₁
    split at h₁
    · exact .of_builds h₁ hc'
    split at h₁
    · exact .of_builds h₁ hc'
    split at h₁
    · exact atomEnded_tupleType hc htype h₁
    split at h₁
    · exact .of_builds h₁ hc'
    · cases h₁

/-- A type behind which the loop for brackets stands: an atom in so many arrays. What is kept is
the atom and the number of arrays around it, because an array of arrays is rendered with all
brackets at its end. If the atom is a bare operator, there are no arrays, and no bracket
follows. -/
def OperandEnded (tables : Tables) (n : TypeExpr) (c : Cursor) : Prop :=
  n.isAbsent = false ∧ c.Regular ∧ (NewFree (n.toTy tables).names → c.current.is "." = false →
    ∃ t k ws, n.toTy tables = t.arrays k ∧
      Spelled tables (.item (.type .atom t)) (k = 0 ∧ c.rest = []) ws ∧
      (Bare ws → k = 0 ∧ c.current.is "[" = false))

/-- What stands behind a type is no bracket, or the brackets of an array or of an indexed
access. -/
theorem bracketed?_inv {n : TypeExpr} {o : Option TypeExpr}
    (h : bracketed? type n c = .ok (o, c')) :
    (o = none ∧ c' = c) ∨ (c.current.is "[" = true ∧
      ((∃ s, o = some (.array s n)) ∨ ∃ s i, o = some (.indexed s n i))) := by
  have h₁ : (if (c.current.is "[" && !c.current.newlineBefore) = true then (do
      let _ ← advance
      if ← got "]" then return some (.array (← spanFrom n.span.start) n)
      else
        let index ← type
        expect "]"
        return some (.indexed (← spanFrom n.span.start) n index))
      else return none : Parser (Option TypeExpr)) c = .ok (o, c') := h
  rw [ite_run] at h₁
  split at h₁
  · rename_i hb
    refine .inr ⟨(Bool.and_eq_true _ _ ▸ hb).1, ?_⟩
    obtain ⟨_, c₁, -, h₃⟩ := bind_eq_ok.1 h₁
    obtain ⟨b, c₂, -, h₅⟩ := bind_eq_ok.1 h₃
    rw [ite_run] at h₅
    split at h₅
    · obtain ⟨s, c₃, -, h₇⟩ := bind_eq_ok.1 h₅
      exact .inl ⟨s, (pure_eq_ok.1 h₇).1.symm⟩
    · obtain ⟨i, c₃, -, h₇⟩ := bind_eq_ok.1 h₅
      obtain ⟨_, c₄, -, h₉⟩ := bind_eq_ok.1 h₇
      obtain ⟨s, c₅, -, h₁₁⟩ := bind_eq_ok.1 h₉
      exact .inr ⟨s, i, (pure_eq_ok.1 h₁₁).1.symm⟩
  · obtain ⟨rfl, rfl⟩ := pure_eq_ok.1 h₁
    exact .inl ⟨rfl, rfl⟩

/-- A round of the loop adds an array, or it makes an indexed access, which is not decomposed
and can be an element of further arrays. -/
theorem operandEnded_bracketed [Moves type] {n m : TypeExpr} (hn : OperandEnded tables n c)
    (h : bracketed? type n c = .ok (some m, c')) : OperandEnded tables m c' := by
  have hc := hn.2.1
  have hc' := hc.of_ok h
  obtain ⟨ho, -⟩ | ⟨hb, ⟨s, ho⟩ | ⟨s, i, ho⟩⟩ := bracketed?_inv h
  · cases ho
  · cases ho
    refine ⟨rfl, hc', fun hnew _ => ?_⟩
    rw [TypeExpr.toTy] at hnew ⊢
    have hend := at_separator hc hb (by decide)
    obtain ⟨t, k, ws, ht, hs, hbare⟩ := hn.2.2 hnew hend.2
    refine ⟨t, k + 1, ws, by rw [ht]; rfl, hs.mono fun h => absurd h.2 hend.1, fun h => ?_⟩
    rw [(hbare h).2] at hb
    cases hb
  · cases ho
    refine ⟨rfl, hc', fun _ _ => ⟨.unknown, 0, _, rfl, .unknown .atom, fun hb => ?_⟩⟩
    exact absurd hb not_bare_unknown

/-- The loop adds one array after the other, by induction on its rounds. -/
theorem operandEnded_iterateUpTo [Moves type] (k : Nat) :
    ∀ {c c' : Cursor} {n m : TypeExpr}, OperandEnded tables n c →
      iterateUpTo (bracketed? type) k n c = .ok (m, c') → OperandEnded tables m c' := by
  induction k with
  | zero => intro c c' n m _ h; cases h
  | succ k ih =>
    intro c c' n m hn h
    obtain ⟨_, hk, ⟨rfl, h₁⟩ | ⟨m₁, c₁, h₁, h₂⟩⟩ := iterateUpTo_eq_ok h
    · obtain ⟨-, rfl⟩ | ⟨-, ⟨s, ho⟩ | ⟨s, i, ho⟩⟩ := bracketed?_inv h₁
      · exact hn
      · cases ho
      · cases ho
    · cases hk
      exact ih (operandEnded_bracketed hn h₁) h₂

/-- An atom with brackets behind it is a type at the level of operands: the atom itself, or an
array of it. -/
theorem typeEnded_postfixType [Moves type] (hc : c.Regular)
    (htype : Yields type (TypeEnded tables .any)) (hplain : Plain c) {n : TypeExpr}
    (h : postfixType type c = .ok (n, c')) : TypeEnded tables .operand n c' := by
  obtain ⟨a, c₁, h₁, h₂⟩ := bind_eq_ok.1 h
  obtain ⟨habs, hc₁, hspell⟩ := atomEnded_atomType hc htype hplain h₁
  -- Before the loop there are no brackets.
  have ha : OperandEnded tables a c₁ := by
    refine ⟨habs, hc₁, fun hnew hdot => ?_⟩
    obtain ⟨ws, hws, hb⟩ := hspell hnew hdot
    exact ⟨_, 0, ws, rfl, hws.mono fun h => ⟨rfl, h⟩, fun h => ⟨rfl, hb h⟩⟩
  obtain ⟨habs', hc', hspell'⟩ := operandEnded_iterateUpTo _ ha h₂
  refine ⟨habs', hc', fun hnew hdot _ => ?_⟩
  obtain ⟨t, k, ws, ht, hs, hb⟩ := hspell' hnew hdot
  rw [ht]
  cases k with
  | zero => exact ⟨ws, .operand (hs.mono fun h => h.2)⟩
  | succ k =>
    refine ⟨_, .arrays k (hs.mono fun h => absurd h.1 (Nat.succ_ne_zero k)) fun h => ?_⟩
    exact absurd (hb h).1 (Nat.succ_ne_zero k)

/-- With an operator in front a type is not decomposed. Without one, what stands there is not
taken for an operator, which the rules below rely on (`Plain`). -/
theorem yields_operatorType {nested : Nested} [Moves.NestedMoves nested]
    (htype : Yields nested.type (TypeEnded tables .any)) :
    Yields (operatorType nested) (TypeEnded tables .operand) := by
  intro c c' n hc h
  have hc' := hc.of_ok h
  have h₁ : ((ahead isTypeOperator startsType) >>= fun b =>
      if b = true then (do
        let _ ← advance
        let inner ← nested.operator
        return .operator (← spanFrom c.current.start) c.current.text inner)
      else (ahead (·.is "infer") (·.isIdent)) >>= fun b =>
        if b = true then (do
          let _ ← advance
          let name ← identifier
          let bound ← inferBound nested.union
          let span ← spanFrom c.current.start
          return .infer span (.mk span name bound .absent))
        else postfixType nested.type : Parser TypeExpr) c = .ok (n, c') := h
  rw [bind_of_ok (ahead_run hc.clean _ _), ite_run] at h₁
  split at h₁
  · exact .of_builds h₁ hc' _
  -- Neither an operator nor `infer` stands here.
  rename_i hop
  rw [bind_of_ok (ahead_run hc.clean _ _), ite_run] at h₁
  split at h₁
  · exact .of_builds h₁ hc' _
  refine typeEnded_postfixType hc htype (fun hc => ?_) h₁
  rw [hc, Bool.true_and] at hop
  exact Bool.not_eq_true _ ▸ hop

/-! ## Unions and intersections

Both levels are one rule with another mark (`separated`). If there is one item, the rule answers
that item, so it is of the level below; else it builds a node over at least two. -/

/-- **Items with marks between them are one item or a chain of at least two.** A mark may stand
before the first, which makes no difference to what is built. -/
theorem yields_separated {g : Glue} {l : Level} {item : Parser TypeExpr} [Moves item]
    {build : Span → List TypeExpr → TypeExpr} (hitem : Yields item (TypeEnded tables l)) :
    Yields (separated g.mark item build) (fun n c => TypeEnded tables l n c ∨
      ∃ s ns, n = build s ns ∧ 2 ≤ ns.length ∧ Chain g.mark (TypeEnded tables l) ns c) := by
  intro c c' n hc h
  obtain ⟨start, c₁, h₁, h₂⟩ := bind_eq_ok.1 h
  obtain rfl : c₁ = c := by cases h₁; rfl
  obtain ⟨b, c₂, h₃, h₄⟩ := bind_eq_ok.1 h₂
  have hc₂ := hc.of_ok h₃
  obtain ⟨m, c₃, h₅, h₆⟩ := bind_eq_ok.1 h₄
  have hm := hitem hc₂ h₅
  obtain ⟨ms, c₄, h₇, h₈⟩ := bind_eq_ok.1 h₆
  have hchain := yields_entries hitem (hc₂.of_ok h₅) hm h₇
  cases ms with
  | nil =>
    obtain ⟨rfl, rfl⟩ := pure_eq_ok.1 h₈
    obtain ⟨_, -, ⟨-, h₉⟩ | ⟨_, _, _, hnil, -⟩⟩ := collectUpTo_eq_ok h₇
    · rw [entries_none (hc₂.of_ok h₅) h₉]
      exact .inl hm
    · cases hnil
  | cons m' ms =>
    obtain ⟨s, c₅, h₉, h₁₀⟩ := bind_eq_ok.1 h₈
    obtain rfl : c₅ = c₄ := by cases h₉; rfl
    obtain ⟨rfl, rfl⟩ := pure_eq_ok.1 h₁₀
    exact .inr ⟨s, _, rfl, by simp, hchain⟩

/-- An intersection of two or more operands is spelled with the sign between them; a single
operand is a factor as it is. -/
theorem yields_intersectionType {nested : Nested} [Moves.NestedMoves nested]
    (htype : Yields nested.type (TypeEnded tables .any)) :
    Yields (intersectionType nested) (TypeEnded tables .factor) := by
  intro c c' n hc h
  have hc' := hc.of_ok h
  rcases yields_separated (g := .factors) (yields_operatorType htype) hc h with
    hn | ⟨s, ns, rfl, hl, hchain⟩
  · refine ⟨hn.1, hc', fun hnew hdot hw => ?_⟩
    obtain ⟨ws, hws⟩ := hn.2.2 hnew hdot hw
    exact ⟨ws, .factor hws⟩
  · refine ⟨rfl, hc', fun hnew hdot _ => ?_⟩
    rw [Item.names, TypeExpr.toTy, Ty.names, typesNames_eq] at hnew
    obtain ⟨ws, hws⟩ := hchain.types_spelled hnew hdot
    refine ⟨ws, .intersection ?_ hws⟩
    rwa [hchain.length_mapTypes]

/-- The same, one level up: the items are intersections. -/
theorem yields_unionType {nested : Nested} [Moves.NestedMoves nested]
    (htype : Yields nested.type (TypeEnded tables .any)) :
    Yields (unionType nested) (TypeEnded tables .union) := by
  intro c c' n hc h
  have hc' := hc.of_ok h
  rcases yields_separated (g := .alternatives) (yields_intersectionType htype) hc h with
    hn | ⟨s, ns, rfl, hl, hchain⟩
  · refine ⟨hn.1, hc', fun hnew hdot hw => ?_⟩
    obtain ⟨ws, hws⟩ := hn.2.2 hnew hdot hw
    exact ⟨ws, .alternative hws⟩
  · refine ⟨rfl, hc', fun hnew hdot _ => ?_⟩
    rw [Item.names, TypeExpr.toTy, Ty.names, typesNames_eq] at hnew
    obtain ⟨ws, hws⟩ := hchain.types_spelled hnew hdot
    refine ⟨ws, .union ?_ hws⟩
    rwa [hchain.length_mapTypes]

/-! ## Function types and types of any form

A function is an arrow between parameters and a result. The parameters stand in parentheses, so
behind each of them something is left, and its name cannot be cut off. -/

/-- No name was read at a place, or the identifier that stands there. -/
def NameRead (c : Cursor) (o : Option Identifier) (c' : Cursor) : Prop :=
  o = none ∨ ∃ i t more, o = some i ∧ c.rest = t :: more ∧ t.isIdent = true ∧ i.text = t.text ∧
    c' = c.past t more

/-- What follows a name keeps it from being cut off. -/
theorem NameRead.isName {o : Option Identifier} (h : NameRead c o c') (hc : c.Regular)
    (hr : c'.rest ≠ []) : IsName False (identifierText o) := by
  rcases h with rfl | ⟨i, t, more, rfl, ht, hi, hx, rfl⟩
  · exact .of_isLetters (by decide)
  · have hn := (hc.head ht).name hi
    rw [identifierText_of_ne_nil (hx ▸ hn.ne_nil), hx]
    exact hn.mono hr

/-- A parameter may be a pattern in braces or brackets, which is skipped; then it has no
name. -/
theorem parameterName_inv (hc : c.Regular) {o : Option Identifier}
    (h : parameterName c = .ok (o, c')) : NameRead c o c' := by
  have h' : (if c.current.isIdent = true then (do return some (← identifier))
      else if c.current.is "\x7b" || c.current.is "[" then (do skipGroup; return none)
      else fail .parameterNameExpected : Parser (Option Identifier)) c = .ok (o, c') := h
  simp only [ite_run] at h'
  split at h'
  · obtain ⟨i, c₁, h₁, h₂⟩ := bind_eq_ok.1 h'
    obtain ⟨rfl, rfl⟩ := pure_eq_ok.1 h₂
    obtain ⟨t, more, hr, ht, hi, rfl⟩ := identifier_inv hc h₁
    exact .inr ⟨i, t, more, rfl, hr, ht, hi, rfl⟩
  split at h'
  · obtain ⟨_, c₁, -, h₂⟩ := bind_eq_ok.1 h'
    exact .inl (pure_eq_ok.1 h₂).1.symm
  · cases h'

/-- **A parameter is spelled** if something is left where it stops: its name, and its type if it
has one. A default value behind the type is skipped, and so is a question mark behind the name;
neither is rendered. -/
theorem yields_parameter [Moves type] (htype : Yields type (TypeEnded tables .any)) :
    Yields (parameter type) (ParamEnded tables) := by
  intro c c' p hc h
  have hc' := hc.of_ok h
  obtain ⟨start, c₁, h₁, h⟩ := bind_eq_ok.1 h
  have hc₁ := hc.of_ok h₁
  obtain ⟨_, c₂, h₂, h⟩ := bind_eq_ok.1 h
  have hc₂ := hc₁.of_ok h₂
  obtain ⟨modifiers, c₃, h₃, h⟩ := bind_eq_ok.1 h
  have hc₃ := hc₂.of_ok h₃
  obtain ⟨rest, c₄, h₄, h⟩ := bind_eq_ok.1 h
  have hc₄ := hc₃.of_ok h₄
  obtain ⟨name, c₅, h₅, h⟩ := bind_eq_ok.1 h
  have hc₅ := hc₄.of_ok h₅
  obtain ⟨optional, c₆, h₆, h⟩ := bind_eq_ok.1 h
  have hc₆ := hc₅.of_ok h₆
  obtain ⟨n, c₇, h₇, h⟩ := bind_eq_ok.1 h
  have hc₇ := hc₆.of_ok h₇
  obtain ⟨_, c₈, h₈, h⟩ := bind_eq_ok.1 h
  obtain ⟨s, c₉, h₉, h⟩ := bind_eq_ok.1 h
  obtain rfl : c₉ = c₈ := by cases h₉; rfl
  obtain ⟨rfl, rfl⟩ := pure_eq_ok.1 h
  refine ⟨hc', fun hnew hdot hw => ?_⟩
  have hs₇ : c₉.rest <:+ c₇.rest := Moves.suffix_of_ok h₈
  have hs₅ : c₉.rest <:+ c₅.rest :=
    hs₇.trans ((Moves.suffix_of_ok h₇).trans (Moves.suffix_of_ok h₆))
  have hleft : ∀ {l : List Token}, c₉.rest <:+ l → l ≠ [] := by
    rintro l hl rfl
    exact hw.resolve_left id (List.suffix_nil.1 hl)
  rw [Parameter.toParam] at hnew ⊢
  -- something follows the name of a parameter, so it is not cut off
  have hname : IsName False (identifierText name) :=
    (parameterName_inv hc₄ h₅).isName hc₄ (hleft hs₅)
  -- A default value starts with an equals sign, which is no point.
  have hdot₇ : c₇.current.is "." = false := by
    obtain ⟨b, c, h₁, h₂⟩ := bind_eq_ok.1 h₈
    obtain ⟨rfl, rfl, -⟩ | ⟨rfl, t, more, hr, ht, rfl⟩ := got_inv hc₇.clean h₁
    · obtain ⟨-, rfl⟩ := pure_eq_ok.1 h₂
      exact hdot
    · rw [Cursor.current_of_cons hr]
      exact Token.is_eq_false_of_is ht (by decide)
  -- Without a type, the parameter is of the type `unknown`.
  have hspell : ∃ ws, Spelled tables (.item (.type .any (n.toTy tables))) (c₉.rest = []) ws := by
    obtain ⟨b, c, h₁, h₂⟩ := bind_eq_ok.1 h₇
    rw [ite_run] at h₂
    split at h₂
    · obtain ⟨-, -, hsp⟩ := htype (hc₆.of_ok h₁) h₂
      obtain ⟨ws, hws⟩ := hsp hnew hdot₇ (.inl trivial)
      exact ⟨ws, hws.mono fun h => absurd h (hleft hs₇)⟩
    · rw [← (pure_eq_ok.1 h₂).1]
      exact ⟨_, .unknown .any⟩
  obtain ⟨ws, hws⟩ := hspell
  exact ⟨_, .param hname hws⟩

/-- The result of a function is a type, or a predicate, which is not decomposed. -/
theorem typeEnded_returnType [Moves type] (hc : c.Regular)
    (htype : Yields type (TypeEnded tables .any)) {n : TypeExpr}
    (h : returnType type c = .ok (n, c')) : TypeEnded tables .any n c' := by
  have hc' := hc.of_ok h
  have h₁ : ((ahead (·.is "asserts") (fun t => t.isIdent && !t.newlineBefore)) >>= fun b =>
      if b = true then (do
        let _ ← advance
        let name ← advance
        let subject ← typeBehind "is" type
        return .predicate (← spanFrom c.current.start) name.text subject)
      else (ahead (·.isIdent) (fun t => t.is "is" && !t.newlineBefore)) >>= fun b =>
        if b = true then (do
          let name ← advance
          let _ ← advance
          let subject ← type
          return .predicate (← spanFrom c.current.start) name.text subject)
        else type : Parser TypeExpr) c = .ok (n, c') := h
  rw [bind_of_ok (ahead_run hc.clean _ _), ite_run] at h₁
  split at h₁
  · exact .of_builds h₁ hc' _
  rw [bind_of_ok (ahead_run hc.clean _ _), ite_run] at h₁
  split at h₁
  · exact .of_builds h₁ hc' _
  · exact htype hc h₁

/-- A function is spelled from its parameters and its result. Type parameters in front are
dropped. -/
theorem typeEnded_functionType [Moves type] (hc : c.Regular)
    (htype : Yields type (TypeEnded tables .any)) {n : TypeExpr}
    (h : functionType type start c = .ok (n, c')) : TypeEnded tables .any n c' := by
  have hc' := hc.of_ok h
  obtain ⟨generics, c₁, h₁, h⟩ := bind_eq_ok.1 h
  have hc₁ := hc.of_ok h₁
  obtain ⟨params, c₂, h₂, h⟩ := bind_eq_ok.1 h
  have hc₂ := hc₁.of_ok h₂
  obtain ⟨_, c₃, h₃, h⟩ := bind_eq_ok.1 h
  have hc₃ := hc₂.of_ok h₃
  obtain ⟨result, c₄, h₄, h⟩ := bind_eq_ok.1 h
  obtain ⟨s, c₅, h₅, h⟩ := bind_eq_ok.1 h
  obtain rfl : c₅ = c₄ := by cases h₅; rfl
  obtain ⟨rfl, rfl⟩ := pure_eq_ok.1 h
  have hresult := typeEnded_returnType hc₃ htype h₄
  refine ⟨rfl, hc', fun hnew hdot hw => ?_⟩
  rw [TypeExpr.toTy] at hnew ⊢
  rw [Item.names, Ty.names, paramsNames_eq, NewFree.append] at hnew
  obtain ⟨vs, hvs⟩ := hresult.2.2 hnew.2 hdot hw
  obtain ⟨_, c₆, h₆, h₇⟩ := bind_eq_ok.1 h₂
  have hc₆ := hc₁.of_ok h₆
  obtain ⟨ps, c₇, h₈, h₉⟩ := bind_eq_ok.1 h₇
  obtain ⟨_, c₈, h₁₀, h₁₁⟩ := bind_eq_ok.1 h₉
  obtain ⟨rfl, rfl⟩ := pure_eq_ok.1 h₁₁
  -- The closing parenthesis is left behind the parameters.
  have hend := at_separator (hc₆.of_ok h₈) (expect_eq_ok h₁₀).1 (by decide)
  rcases yields_commaList (yields_parameter htype) hc₆ h₈ with rfl | hchain
  · exact ⟨_, .thunk hvs⟩
  · obtain ⟨ws, hws⟩ := hchain.params_spelled hnew.1 hend.2 hend.1
    exact ⟨_, .arrow hws hvs⟩

/-- A conditional type is not decomposed; without `extends` behind it, a union is all there
is. -/
theorem typeEnded_conditionalType {nested : Nested} [Moves.NestedMoves nested] (hc : c.Regular)
    (htype : Yields nested.type (TypeEnded tables .any)) {n : TypeExpr}
    (h : conditionalType nested start c = .ok (n, c')) : TypeEnded tables .any n c' := by
  have hc' := hc.of_ok h
  obtain ⟨m, c₁, h₁, h₂⟩ := bind_eq_ok.1 h
  have hm := yields_unionType htype hc h₁
  obtain ⟨b, c₂, h₃, h₄⟩ := bind_eq_ok.1 h₂
  obtain rfl : c₂ = c₁ := by cases h₃; rfl
  rw [ite_run] at h₄
  split at h₄
  · exact .of_builds h₄ hc' _
  · obtain ⟨rfl, rfl⟩ := pure_eq_ok.1 h₄
    refine ⟨hm.1, hc', fun hnew hdot hw => ?_⟩
    obtain ⟨ws, hws⟩ := hm.2.2 hnew hdot hw
    exact ⟨ws, .any hws⟩

/-- A type of any form is a function, a constructor, which is not decomposed, or what may be a
conditional type. The induction hypothesis `htype` is about the types in it. -/
theorem yields_anyType {nested : Nested} [Moves.NestedMoves nested]
    (htype : Yields nested.type (TypeEnded tables .any)) :
    Yields (anyType nested) (TypeEnded tables .any) := by
  intro c c' n hc h
  have hc' := hc.of_ok h
  obtain ⟨start, c₁, h₁, h⟩ := bind_eq_ok.1 h
  have hc₁ := hc.of_ok h₁
  obtain ⟨b, c₂, h₂, h⟩ := bind_eq_ok.1 h
  have hc₂ := hc₁.of_ok h₂
  rw [ite_run] at h
  split at h
  · exact typeEnded_functionType hc₂ htype h
  obtain ⟨b, c₃, h₃, h⟩ := bind_eq_ok.1 h
  have hc₃ := hc₂.of_ok h₃
  rw [ite_run] at h
  split at h
  · exact .of_builds h hc' _
  · exact typeEnded_conditionalType hc₃ htype h

/-- **Every type that is read is spelled**, at whatever depth it is read. The induction is on
the depth to which types may nest: each level reads the types in its type with one level
less. -/
theorem yields_nested (k : Nat) : Yields (nested k).type (TypeEnded tables .any) := by
  induction k with
  | zero => intro c c' n _ h; cases h
  | succ k ih => exact yields_anyType ih

end Parser

end Exemplar
