import Exemplar.Builder.Values

/-!
# What a default value is made of

The default value of a type is text that is the same for every factory, with answers of the
factory in between (`Ty.pieces`). Which answers these are is said by places in the type. A place
is given by the steps that lead to it, and steps go to the element of an array, to each member
of a tuple, to the result of a function, and to the first member only of a union or an
intersection (`Ty.Leads`). The factory is asked once at every place that such steps lead to and
that calls for a value, from left to right; a text is named by the field and the functions
passed on the way.

So a member of a union or an intersection behind the first has no part in the value, wherever in
the type the union or intersection stands, parameters of functions apart, whose types are
written out (`Ty.Replaced`).
-/

namespace Exemplar

/-- What a factory is asked for. -/
inductive Request where
  /-- A text with the given name. -/
  | string (name : Text)
  /-- A number. -/
  | number
  /-- A truth value. -/
  | boolean
  /-- A date. -/
  | date
  /-- A value of an enumeration. -/
  | enum (name : Text) (values : List Text)
  /-- An instance of the named type. -/
  | builder (typeName : Text)
deriving DecidableEq

/-- What a factory answers. -/
def ValueFactory.answer (f : ValueFactory) : Request → Text
  | .string name => f.string name
  | .number => f.number
  | .boolean => f.boolean
  | .date => f.date
  | .enum name values => f.enum name values
  | .builder typeName => f.builder typeName

namespace Ty

/-! ## Places in a type -/

/-- A step from a type to a part of it. -/
inductive Step where
  /-- To the element of an array. -/
  | element
  /-- To a member of a tuple. -/
  | member (index : Nat)
  /-- To the first member of a union or of an intersection. -/
  | first
  /-- To the result of a function. -/
  | result (parameters : List Param)

/-- A place in a type: the steps to it, outermost first. -/
abbrev Place := List Step

/-- A step leads from a type to a part of it. -/
inductive Part : Ty → Step → Ty → Prop
  | element (t : Ty) : Part (.array t) .element t
  | member {ts : List Ty} {i : Nat} {t : Ty} (h : ts[i]? = some t) :
      Part (.tuple ts) (.member i) t
  | ofUnion (t : Ty) (later : List Ty) : Part (.union (t :: later)) .first t
  | ofIntersection (t : Ty) (later : List Ty) : Part (.intersection (t :: later)) .first t
  | result (parameters : List Param) (t : Ty) : Part (.arrow parameters t) (.result parameters) t

/-- The steps of a place lead from a type to the type at that place. -/
inductive Leads : Ty → Place → Ty → Prop
  | here (t : Ty) : Leads t [] t
  | step {t u v : Ty} {s : Step} {p : Place} (hs : Part t s u) (hp : Leads u p v) :
      Leads t (s :: p) v

/-- One place stands to the left of another: both are in the same tuple, in members one before
the other. -/
inductive Place.Before : Place → Place → Prop
  | member {i j : Nat} (h : i < j) (p q : Place) : Before (.member i :: p) (.member j :: q)
  | step (s : Step) {p q : Place} (h : Before p q) : Before (s :: p) (s :: q)

/-- What a step adds to the name of a text: the call, if it goes to the result of a function. -/
def Step.call : Step → Text
  | .result parameters => "(" ++ (Text.join ", " (parameters.map Param.name) ++ ")")
  | _ => []

@[simp] theorem Step.call_element : Step.element.call = [] := rfl

@[simp] theorem Step.call_member (i : Nat) : (Step.member i).call = [] := rfl

@[simp] theorem Step.call_first : Step.first.call = [] := rfl

/-- What the factory is asked for at a type itself. -/
def request? (name : Text) : Ty → Option Request
  | .string => some (.string name)
  | .number => some .number
  | .boolean => some .boolean
  | .enum enumName values => some (.enum enumName values)
  | .builtIn typeName =>
    some (if typeName == Text.ofString "Date" then .date else .builder typeName)
  | .user typeName _ => some (.builder typeName)
  | _ => none

/-! ## Pieces -/

/-- A piece of a default value. -/
inductive Piece where
  /-- Text that is there with every factory. -/
  | fixed (text : Text)
  /-- What the factory answers, and the place it is asked for. -/
  | asked (place : Place) (request : Request)

namespace Piece

/-- A piece as a factory writes it. -/
def text (f : ValueFactory) : Piece → Text
  | .fixed text => text
  | .asked _ request => f.answer request

/-- The place the factory is asked for, if it is. -/
def place? : Piece → Option Place
  | .fixed _ => none
  | .asked place _ => some place

/-- A piece of a part, as a piece of the whole. -/
def behind (s : Step) : Piece → Piece
  | .fixed text => .fixed text
  | .asked place request => .asked (s :: place) request

/-- Pieces of several values with a separator between them. -/
def join (sep : Text) : List (List Piece) → List Piece
  | [] => []
  | [ps] => ps
  | ps :: qs :: rest => ps ++ .fixed sep :: join sep (qs :: rest)

end Piece

end Ty

mutual

/-- The pieces of the default value of a type. -/
def Ty.pieces (name : Text) : Ty → List Ty.Piece
  | .array element =>
    .fixed "[" :: ((element.pieces name).map (.behind .element) ++ [.fixed "]"])
  | .tuple elements =>
    .fixed "[" :: (Ty.Piece.join ", " (piecesFrom name 0 elements) ++ [.fixed "]"])
  | .union (first :: _) => (first.pieces name).map (.behind .first)
  | .intersection (first :: _) => (first.pieces name).map (.behind .first)
  | .arrow parameters result =>
    .fixed ("(" ++ (paramListText parameters ++ ") => "))
      :: (result.pieces (name ++ (Ty.Step.result parameters).call)).map
      (.behind (.result parameters))
  | t => ((t.request? name).map (.asked [])).toList

/-- The pieces of the default values of the members of a tuple, the first of which has the given
index. -/
def piecesFrom (name : Text) (index : Nat) : List Ty → List (List Ty.Piece)
  | [] => []
  | t :: rest =>
    (t.pieces name).map (.behind (.member index)) :: piecesFrom name (index + 1) rest

end

namespace Ty

namespace Piece

variable {f : ValueFactory} {s : Step} {p : Place} {r : Request} {ps : List Piece} {sep : Text}

/-! ## What is kept when pieces are put together -/

theorem flatMap_text_behind (f : ValueFactory) (s : Step) (ps : List Piece) :
    (ps.map (behind s)).flatMap (text f) = ps.flatMap (text f) := by
  rw [List.flatMap_map]
  refine congrArg (ps.flatMap ·) (funext fun piece => ?_)
  cases piece <;> rfl

theorem flatMap_text_join (f : ValueFactory) (sep : Text) (pss : List (List Piece)) :
    (join sep pss).flatMap (text f) = Text.join sep (pss.map (·.flatMap (text f))) := by
  fun_induction join sep pss with
  | case1 => rfl
  | case2 ps => rfl
  | case3 ps qs rest ih =>
    rw [List.flatMap_append, List.flatMap_cons, ih, ← List.append_assoc]
    rfl

theorem asked_mem_behind :
    .asked p r ∈ ps.map (behind s) ↔ ∃ q, p = s :: q ∧ .asked q r ∈ ps := by
  rw [List.mem_map]
  constructor
  · rintro ⟨piece, hpiece, heq⟩
    cases piece with
    | fixed t => cases heq
    | asked q r' => cases heq; exact ⟨q, rfl, hpiece⟩
  · rintro ⟨q, rfl, hq⟩
    exact ⟨.asked q r, hq, rfl⟩

theorem asked_mem_enclosed {a b : Text} :
    .asked p r ∈ fixed a :: (ps ++ [fixed b]) ↔ .asked p r ∈ ps := by
  simp

theorem asked_mem_join {pss : List (List Piece)} :
    .asked p r ∈ join sep pss ↔ ∃ ps ∈ pss, .asked p r ∈ ps := by
  fun_induction join sep pss with
  | case1 => simp
  | case2 ps => simp
  | case3 ps qs rest ih =>
    rw [List.mem_append, List.mem_cons, ih]
    simp

/-- The places the factory is asked for. -/
def places (ps : List Piece) : List Place := ps.filterMap place?

theorem places_behind (s : Step) (ps : List Piece) :
    places (ps.map (behind s)) = (places ps).map (s :: ·) := by
  rw [places, places, List.filterMap_map, List.map_filterMap]
  refine congrArg (ps.filterMap ·) (funext fun piece => ?_)
  cases piece <;> rfl

theorem places_enclosed (a b : Text) (ps : List Piece) :
    places (.fixed a :: (ps ++ [Piece.fixed b])) = places ps := by
  rw [places, List.filterMap_cons_none rfl, List.filterMap_append]
  exact List.append_nil _

theorem places_join (sep : Text) (pss : List (List Piece)) :
    places (join sep pss) = pss.flatMap places := by
  fun_induction join sep pss with
  | case1 => rfl
  | case2 ps => exact (List.flatMap_singleton _ _).symm
  | case3 ps qs rest ih =>
    rw [places, List.filterMap_append, List.filterMap_cons_none rfl, List.flatMap_cons]
    exact congrArg (places ps ++ ·) ih

end Piece

variable {f : ValueFactory} {name : Text} {t u : Ty} {p : Place} {r : Request}

/-- A type of which no part is looked at. -/
structure IsWhole (t : Ty) : Prop where
  not_array : ∀ element, t ≠ .array element
  not_tuple : ∀ elements, t ≠ .tuple elements
  not_union : ∀ first later, t ≠ .union (first :: later)
  not_intersection : ∀ first later, t ≠ .intersection (first :: later)
  not_arrow : ∀ parameters result, t ≠ .arrow parameters result

theorem IsWhole.pieces_eq (h : t.IsWhole) (name : Text) :
    t.pieces name = ((t.request? name).map (.asked [])).toList := by
  rw [pieces]
  · exact h.not_array
  · exact h.not_tuple
  · exact h.not_union
  · exact h.not_intersection
  · exact h.not_arrow

/-- The value of such a type is what the factory answers, or nothing. -/
theorem IsWhole.sample_eq (h : t.IsWhole) (f : ValueFactory) (name : Text) :
    t.sample f name = ((t.request? name).map f.answer).getD [] := by
  cases t with
  | array element => exact absurd rfl (h.not_array element)
  | tuple elements => exact absurd rfl (h.not_tuple elements)
  | union elements =>
    cases elements with
    | nil => rfl
    | cons first later => exact absurd rfl (h.not_union first later)
  | intersection elements =>
    cases elements with
    | nil => rfl
    | cons first later => exact absurd rfl (h.not_intersection first later)
  | arrow parameters result => exact absurd rfl (h.not_arrow parameters result)
  | builtIn typeName =>
    rw [sample, request?, Option.map_some, Option.getD_some, apply_ite f.answer]
    rfl
  | _ => rfl

/-- **The default value is made of its pieces**, with every factory. -/
theorem sample_eq_flatMap (f : ValueFactory) (name : Text) (t : Ty) :
    t.sample f name = (t.pieces name).flatMap (Piece.text f) := by
  induction name, t using Ty.pieces.induct
    (motive_2 := fun name i ts => sampleAll f name ts
      = (piecesFrom name i ts).map (·.flatMap (Piece.text f)))
    with
  | case1 name element ih =>
    rw [sample, pieces, List.flatMap_cons, List.flatMap_append, Piece.flatMap_text_behind, ih,
      List.append_assoc]
    rfl
  | case2 name elements ih =>
    rw [sample, pieces, List.flatMap_cons, List.flatMap_append, Piece.flatMap_text_join, ih,
      List.append_assoc]
    rfl
  | case3 name first later ih | case4 name first later ih =>
    rw [sample, pieces, Piece.flatMap_text_behind, ih]
  | case5 name parameters result ih =>
    -- The call of a function is what the step to its result puts behind a name.
    have hcall : name ++ "(" ++ paramNames parameters ++ ")"
        = name ++ (Step.result parameters).call := by
      rw [List.append_assoc, List.append_assoc]
      rfl
    rw [sample, pieces, List.flatMap_cons, Piece.flatMap_text_behind, ← ih, hcall]
    exact congrArg (· ++ _) (List.append_assoc _ _ _)
  | case6 name t harray htuple hunion hintersection harrow =>
    have hwhole : t.IsWhole := ⟨harray, htuple, hunion, hintersection, harrow⟩
    rw [hwhole.sample_eq, hwhole.pieces_eq]
    cases t.request? name with
    | none => rfl
    | some r => exact (List.append_nil _).symm
  | case7 => rfl
  | case8 name i t rest iht ihrest =>
    rw [sampleAll, piecesFrom, List.map_cons, Piece.flatMap_text_behind, iht, ihrest]

/-! ## What the factory is asked for -/

/-- At a place in a type, the factory is asked for something: steps lead there that go to first
members only, and the type there calls for it, under the name of the field and the calls on the
way. -/
def Asks (t : Ty) (name : Text) (p : Place) (r : Request) : Prop :=
  ∃ u, Leads t p u ∧ u.request? (name ++ p.flatMap Step.call) = some r

theorem asks_nil : t.Asks name [] r ↔ t.request? name = some r := by
  constructor
  · rintro ⟨_, ⟨⟩, hr⟩
    rwa [List.flatMap_nil, List.append_nil] at hr
  · exact fun hr => ⟨t, .here t, by rwa [List.flatMap_nil, List.append_nil]⟩

theorem asks_cons {s : Step} :
    t.Asks name (s :: p) r ↔ ∃ u, Part t s u ∧ u.Asks (name ++ s.call) p r := by
  constructor
  · rintro ⟨v, ⟨⟩ | ⟨hs, hp⟩, hr⟩
    rw [List.flatMap_cons, ← List.append_assoc] at hr
    exact ⟨_, hs, v, hp, hr⟩
  · rintro ⟨u, hs, v, hp, hr⟩
    rw [List.append_assoc, ← List.flatMap_cons] at hr
    exact ⟨v, .step hs hp, hr⟩

/-- A type that calls for nothing itself and has one part is asked for what the part is asked
for. -/
theorem asks_iff_of_part {s : Step} (hnone : t.request? name = none)
    (hpart : ∀ s' v, Part t s' v ↔ s' = s ∧ v = u) :
    t.Asks name p r ↔ ∃ q, p = s :: q ∧ u.Asks (name ++ s.call) q r := by
  cases p with
  | nil =>
    rw [asks_nil, hnone]
    exact ⟨nofun, nofun⟩
  | cons s' p =>
    rw [asks_cons]
    constructor
    · rintro ⟨v, hs, hv⟩
      obtain ⟨rfl, rfl⟩ := (hpart s' v).1 hs
      exact ⟨p, rfl, hv⟩
    · rintro ⟨q, ⟨⟩, hq⟩
      exact ⟨u, (hpart s u).2 ⟨rfl, rfl⟩, hq⟩

/-- A tuple is asked for what its members are asked for. -/
theorem asks_tuple {ts : List Ty} :
    (Ty.tuple ts).Asks name p r ↔ ∃ i t q, ts[i]? = some t ∧
    p = .member i :: q ∧ t.Asks name q r := by
  cases p with
  | nil =>
    rw [asks_nil]
    exact ⟨nofun, nofun⟩
  | cons s p =>
    rw [asks_cons]
    constructor
    · rintro ⟨t, ⟨⟩, ht⟩
      rename_i i hi
      exact ⟨i, t, p, hi, rfl, by simpa using ht⟩
    · rintro ⟨i, t, q, hi, ⟨⟩, hq⟩
      exact ⟨t, .member hi, by simpa using hq⟩

/-- A type of which no part is looked at is asked for what it calls for itself. -/
theorem IsWhole.asks_iff (h : t.IsWhole) :
    t.Asks name p r ↔ p = [] ∧ t.request? name = some r := by
  cases p with
  | nil => exact asks_nil.trans (and_iff_right rfl).symm
  | cons s p =>
    rw [asks_cons]
    refine ⟨fun ⟨u, hs, _⟩ => ?_, nofun⟩
    cases hs with
    | element => exact absurd rfl (h.not_array _)
    | member => exact absurd rfl (h.not_tuple _)
    | ofUnion => exact absurd rfl (h.not_union _ _)
    | ofIntersection => exact absurd rfl (h.not_intersection _ _)
    | result => exact absurd rfl (h.not_arrow _ _)

/-- **The factory is asked for just what the places of a type call for.** The induction is that
of the pieces. A type with parts in its value calls for what these call for, behind the step to
them. A type without them is asked for as a whole. For the list of members it has to be said
which number the first one has. -/
theorem asked_mem_pieces (name : Text) (t : Ty) (p : Place) (r : Request) :
    .asked p r ∈ t.pieces name ↔ t.Asks name p r := by
  induction name, t using Ty.pieces.induct
    (motive_2 := fun name i ts => ∀ p, (∃ ps ∈ piecesFrom name i ts, .asked p r ∈ ps) ↔
      ∃ j t q, ts[j]? = some t ∧ p = .member (i + j) :: q ∧ t.Asks name q r) generalizing p with
  | case1 name element ih =>
    have hpart : ∀ s v, Part (.array element) s v ↔ s = .element ∧ v = element := fun s v =>
      ⟨fun | .element _ => ⟨rfl, rfl⟩, fun ⟨hs, hv⟩ => hs ▸ hv ▸ .element v⟩
    rw [asks_iff_of_part rfl hpart, pieces, Piece.asked_mem_enclosed, Piece.asked_mem_behind]
    simp only [ih, Step.call_element, List.append_nil]
  | case2 name elements ih =>
    rw [asks_tuple, pieces, Piece.asked_mem_enclosed, Piece.asked_mem_join, ih]
    simp only [Nat.zero_add]
  | case3 name first later ih =>
    have hpart : ∀ s v, Part (.union (first :: later)) s v ↔ s = .first ∧ v = first := fun s v =>
      ⟨fun | .ofUnion _ _ => ⟨rfl, rfl⟩, fun ⟨hs, hv⟩ => hs ▸ hv ▸ .ofUnion v later⟩
    rw [asks_iff_of_part rfl hpart, pieces, Piece.asked_mem_behind]
    simp only [ih, Step.call_first, List.append_nil]
  | case4 name first later ih =>
    have hpart : ∀ s v, Part (.intersection (first :: later)) s v ↔ s = .first ∧ v = first :=
      fun s v =>
      ⟨fun | .ofIntersection _ _ => ⟨rfl, rfl⟩,
        fun ⟨hs, hv⟩ => hs ▸ hv ▸ .ofIntersection v later⟩
    rw [asks_iff_of_part rfl hpart, pieces, Piece.asked_mem_behind]
    simp only [ih, Step.call_first, List.append_nil]
  | case5 name parameters result ih =>
    have hpart : ∀ s v, Part (.arrow parameters result) s v ↔
        s = .result parameters ∧ v = result :=
      fun s v =>
        ⟨fun | .result _ _ => ⟨rfl, rfl⟩, fun ⟨hs, hv⟩ => hs ▸ hv ▸ .result parameters v⟩
    rw [asks_iff_of_part rfl hpart, pieces, List.mem_cons,
      or_iff_right nofun, Piece.asked_mem_behind]
    simp only [ih]
  | case6 name t harray htuple hunion hintersection harrow =>
    -- No part: the request is for the type itself.
    have hwhole : t.IsWhole := ⟨harray, htuple, hunion, hintersection, harrow⟩
    rw [hwhole.pieces_eq, hwhole.asks_iff, Option.mem_toList, Option.map_eq_some_iff]
    constructor
    · rintro ⟨_, hr, ⟨⟩⟩
      exact ⟨rfl, hr⟩
    · rintro ⟨rfl, hr⟩
      exact ⟨r, hr, rfl⟩
  | case7 => exact ⟨nofun, nofun⟩
  | case8 name i t rest iht ihrest =>
    simp only [piecesFrom, List.mem_cons, exists_eq_or_imp, Piece.asked_mem_behind, ihrest, iht]
    constructor
    · rintro (⟨q, rfl, hq⟩ | ⟨j, u, q, hj, rfl, hq⟩)
      · exact ⟨0, t, q, rfl, rfl, hq⟩
      · exact ⟨j + 1, u, q, hj, by rw [Nat.add_right_comm, Nat.add_assoc], hq⟩
    · rintro ⟨_ | j, u, q, hj, rfl, hq⟩
      · cases hj
        exact .inl ⟨q, rfl, hq⟩
      · exact .inr ⟨j, u, q, hj, by rw [Nat.add_right_comm, Nat.add_assoc], hq⟩

/-! ## From left to right -/

theorem Place.Before.ne {p q : Place} (h : p.Before q) : p ≠ q := by
  induction h with
  | member h p q =>
    rintro ⟨⟩
    exact Nat.lt_irrefl _ h
  | step s _ ih =>
    rintro ⟨⟩
    exact ih rfl

theorem pairwise_places_behind {ps : List Piece} (s : Step)
    (h : (Piece.places ps).Pairwise Place.Before) :
    (Piece.places (ps.map (.behind s))).Pairwise Place.Before := by
  rw [Piece.places_behind, List.pairwise_map]
  exact h.imp (.step s)

/-- **The factory is asked from left to right.** For the members of a tuple it is needed as well
that none of the places is below the number of the first, since the places of each member stand
before those of the members behind it. -/
theorem pairwise_places (name : Text) (t : Ty) :
    (Piece.places (t.pieces name)).Pairwise Place.Before := by
  induction name, t using Ty.pieces.induct
    (motive_2 := fun name i ts =>
      ((piecesFrom name i ts).flatMap Piece.places).Pairwise Place.Before ∧
      ∀ p ∈ (piecesFrom name i ts).flatMap Piece.places, ∃ j q, i ≤ j ∧ p = .member j :: q) with
  | case1 name element ih =>
    rw [pieces, Piece.places_enclosed]
    exact pairwise_places_behind _ ih
  | case2 name elements ih =>
    rw [pieces, Piece.places_enclosed, Piece.places_join]
    exact ih.1
  | case3 name first later ih | case4 name first later ih =>
    rw [pieces]
    exact pairwise_places_behind _ ih
  | case5 name parameters result ih =>
    rw [pieces, Piece.places, List.filterMap_cons_none rfl]
    exact pairwise_places_behind _ ih
  | case6 name t harray htuple hunion hintersection harrow =>
    rw [IsWhole.pieces_eq ⟨harray, htuple, hunion, hintersection, harrow⟩]
    cases t.request? name with
    | none => exact .nil
    | some r => exact List.pairwise_singleton _ _
  | case7 => exact ⟨.nil, nofun⟩
  | case8 name i t rest iht ihrest =>
    -- All places in the first member have its number.
    have hhead : ∀ p ∈ Piece.places ((t.pieces name).map (.behind (.member i))), ∃ q,
        p = .member i :: q := by
      intro p hp
      rw [Piece.places_behind, List.mem_map] at hp
      obtain ⟨q, -, rfl⟩ := hp
      exact ⟨q, rfl⟩
    rw [piecesFrom, List.flatMap_cons]
    refine ⟨List.pairwise_append.2 ⟨pairwise_places_behind _ iht, ihrest.1, fun p hp q hq => ?_⟩,
      fun p hp => ?_⟩
    · obtain ⟨p, rfl⟩ := hhead p hp
      obtain ⟨j, q, hj, rfl⟩ := ihrest.2 q hq
      exact .member hj p q
    · rcases List.mem_append.1 hp with hp | hp
      · obtain ⟨q, rfl⟩ := hhead p hp
        exact ⟨i, q, Nat.le_refl i, rfl⟩
      · obtain ⟨j, q, hj, rfl⟩ := ihrest.2 p hp
        exact ⟨j, q, Nat.le_of_succ_le hj, rfl⟩

end Ty

/-! ## Members that have no part in the value -/

mutual

/-- One member of a union or of an intersection behind the first is replaced, anywhere in a type
but in the parameters of a function. -/
inductive Ty.Replaced : Ty → Ty → Prop
  /-- The member of a union. -/
  | ofUnion (first : Ty) (before after : List Ty) (x y : Ty) :
    Ty.Replaced (.union (first :: (before ++ x :: after)))
    (.union (first :: (before ++ y :: after)))
  /-- The member of an intersection. -/
  | ofIntersection (first : Ty) (before after : List Ty) (x y : Ty) :
    Ty.Replaced (.intersection (first :: (before ++ x :: after)))
      (.intersection (first :: (before ++ y :: after)))
  /-- In a member of a union. -/
  | inUnion {x y : Ty} (before after : List Ty) (h : Ty.Replaced x y) :
    Ty.Replaced (.union (before ++ x :: after)) (.union (before ++ y :: after))
  /-- In a member of an intersection. -/
  | inIntersection {x y : Ty} (before after : List Ty) (h : Ty.Replaced x y) :
    Ty.Replaced (.intersection (before ++ x :: after)) (.intersection (before ++ y :: after))
  /-- In the element of an array. -/
  | inArray {x y : Ty} (h : Ty.Replaced x y) : Ty.Replaced (.array x) (.array y)
  /-- In a member of a tuple. -/
  | inTuple {x y : Ty} (before after : List Ty) (h : Ty.Replaced x y) :
    Ty.Replaced (.tuple (before ++ x :: after)) (.tuple (before ++ y :: after))
  /-- In the result of a function. -/
  | inResult {x y : Ty} (parameters : List Param) (h : Ty.Replaced x y) :
    Ty.Replaced (.arrow parameters x) (.arrow parameters y)
  /-- In an argument of a class. -/
  | inArguments {a b : GenericArgument} (name : Text) (before after : List GenericArgument)
    (h : GenericArgument.Replaced a b) :
    Ty.Replaced (.user name (before ++ a :: after)) (.user name (before ++ b :: after))
  /-- In an argument that stands for itself. -/
  | inArgument {a b : GenericArgument} (h : GenericArgument.Replaced a b) :
    Ty.Replaced (.generic a) (.generic b)

/-- The same in a type argument. -/
inductive GenericArgument.Replaced : GenericArgument → GenericArgument → Prop
  /-- In its type. -/
  | inType {x y : Ty} (generics : List GenericArgument) (h : Ty.Replaced x y) :
    GenericArgument.Replaced (.mk x generics) (.mk y generics)
  /-- In an argument of its own. -/
  | inArguments {a b : GenericArgument} (type : Ty) (before after : List GenericArgument)
    (h : GenericArgument.Replaced a b) :
    GenericArgument.Replaced (.mk type (before ++ a :: after)) (.mk type (before ++ b :: after))

end

/-- **A member behind the first has no part in the value.** -/
theorem Ty.Replaced.sample_eq (f : ValueFactory) :
    ∀ {t t' : Ty}, t.Replaced t' → ∀ name, t'.sample f name = t.sample f name
  | _, _, .ofUnion .., _ | _, _, .ofIntersection .., _ => rfl
  | _, _, .inUnion (_ :: _) _ _, _ | _, _, .inIntersection (_ :: _) _ _, _ => rfl
  | _, _, .inUnion [] _ h, name => h.sample_eq f name
  | _, _, .inIntersection [] _ h, name => h.sample_eq f name
  | _, _, .inArray h, name => by rw [Ty.sample, Ty.sample, h.sample_eq f name]
  | _, _, .inTuple before after h, name => by
    rw [Ty.sample, Ty.sample, sampleAll_eq_map, sampleAll_eq_map]
    simp only [List.map_append, List.map_cons, h.sample_eq f name]
  | _, _, .inResult parameters h, name => by rw [Ty.sample, Ty.sample, h.sample_eq f]
  | _, _, .inArguments .., _ | _, _, .inArgument _, _ => rfl

/-- **Default values follow the first members, and texts are named by their way.** With every
factory, the value is made of the same fixed texts and of what the factory answers. The factory
is asked at exactly the places that call for a value and that steps to elements, members of
tuples, results, and first members of unions and intersections lead to: at each once, in the
order from left to right, and for a text by the name of the field and the calls on the way.
Whatever stands behind a first member has no part in the value. -/
theorem Ty.sample_follows_first (t : Ty) (name : Text) :
    (∀ f : ValueFactory, t.sample f name = (t.pieces name).flatMap (Piece.text f)) ∧
    (∀ p r, .asked p r ∈ t.pieces name ↔ t.Asks name p r) ∧
    (Piece.places (t.pieces name)).Pairwise Place.Before ∧ (Piece.places (t.pieces name)).Nodup ∧
    ∀ t', t.Replaced t' → ∀ f, t'.sample f name = t.sample f name :=
  ⟨fun f => sample_eq_flatMap f name t, asked_mem_pieces name t, pairwise_places name t,
    (pairwise_places name t).imp Place.Before.ne, fun _ h f => h.sample_eq f name⟩

/-- A number beside a function that yields functions, whose results are the given types. -/
def numberAndCalls (results : List Ty) : Ty :=
  .tuple
    [.number, .arrow [.mk "a" .number, .mk "b" .void] (.arrow [.mk "c" .void] (.union results))]

/-- The text behind two calls is named by both, and what stands behind it can be replaced. -/
theorem Ty.sample_follows_first_calls :
    (numberAndCalls [.string, .number]).Replaced (numberAndCalls [.string, .boolean]) ∧
    (∀ f, (numberAndCalls [.string, .boolean]).sample f "x" =
      (numberAndCalls [.string, .number]).sample f "x") ∧
    .asked [.member 1, .result [.mk "a" .number, .mk "b" .void], .result [.mk "c" .void], .first]
      (.string "x(a, b)(c)") ∈ (numberAndCalls [.string, .number]).pieces "x" := by
  have hreplaced :
      (numberAndCalls [.string, .number]).Replaced (numberAndCalls [.string, .boolean]) :=
    .inTuple [.number] [] (.inResult _ (.inResult _ (.ofUnion .string [] [] .number .boolean)))
  obtain ⟨-, hasked, -, -, hsame⟩ := (numberAndCalls [.string, .number]).sample_follows_first "x"
  refine ⟨hreplaced, hsame _ hreplaced, (hasked _ _).2 ⟨.string, ?_, by decide⟩⟩
  exact .step (.member rfl)
    (.step (.result ..) (.step (.result ..) (.step (.ofUnion ..) (.here _))))

end Exemplar
