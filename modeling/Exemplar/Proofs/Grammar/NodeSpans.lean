import Exemplar.Proofs.Grammar.Progress
import Exemplar.Proofs.Grammar.TokenPlaces
import Exemplar.Proofs.Tree.Nodes

/-!
# Building nodes while reading

A rule takes the place where it starts, reads its parts, and closes its node with the place
where the token consumed last stops. So the nodes of the parts lie between the two, in the order
in which the parts were read, and the span of the node reaches over tokens if at least one was
consumed.

`Cursor.Fits` says that nodes lie between a place and the cursor in this way. `Spanned` is said
of a parser whose answer fits between where it starts and where it stops. Inside a rule more is
known: the rule started at a place `s`, and the nodes `acc` of the parts read so far fit between
`s` and the cursor. `Extends` says of the rest of the rule that its answer then does so as well.
Its instances follow the way rules are put together, and a rule that closes a node has to keep
under it nothing but parts it has read.
-/

namespace Exemplar

open Exemplar.Tree

/-- What is known of the token at the place where a node starts. -/
inductive Stage where
  /-- Nothing. -/
  | anywhere
  /-- There is one. -/
  | ahead
  /-- It has been consumed. -/
  | behind
deriving DecidableEq

namespace Cursor

variable {c c' d : Cursor} {s : Position} {k : Stage}

/-- The token consumed last is the last one before those that are left. -/
theorem Reaches.exists_last (h : c.Reaches d) (hlt : d.rest.length < c.rest.length) :
    ∃ front u, c.rest = front ++ u :: d.rest ∧ d.lastStop = u.stop := by
  induction h with
  | refl => exact absurd hlt (Nat.lt_irrefl _)
  | @past c d t more hr h ih =>
    by_cases hmore : d.rest.length < more.length
    · obtain ⟨front, u, hfront, hu⟩ := ih hmore
      exact ⟨t :: front, u, by rw [hr, List.cons_append, ← hfront, past_rest], hu⟩
    · obtain rfl := h.eq_of_length_le (Nat.le_of_not_lt hmore)
      exact ⟨[], t, hr, rfl⟩

/-- Reading has come to the cursor from a place that starts at `s`. -/
def Since (s : Position) (k : Stage) (c : Cursor) : Prop :=
  ∃ c₀ : Cursor, c₀.Visited ∧ c₀.Reaches c ∧ c₀.current.start = s ∧
    (k = .ahead → c₀.rest ≠ []) ∧ (k = .behind → c.rest.length < c₀.rest.length)

namespace Since

theorem refl (hc : c.Visited) : c.Since c.current.start .anywhere :=
  ⟨c, hc, .refl _, rfl, nofun, nofun⟩

theorem refl_ahead (hc : c.Visited) (hr : c.rest ≠ []) : c.Since c.current.start .ahead :=
  ⟨c, hc, .refl _, rfl, fun _ => hr, nofun⟩

theorem trans (h : c.Since s k) (hd : c.Reaches d) : d.Since s k := by
  obtain ⟨c₀, hc₀, hreach, hs, hahead, hbehind⟩ := h
  exact ⟨c₀, hc₀, hreach.trans hd, hs, hahead,
    fun hk => Nat.lt_of_le_of_lt hd.length_le (hbehind hk)⟩

/-- What consumes a token leaves the place behind. -/
theorem behind_of_lt (h : c.Since s k) (hd : c.Reaches d) (hlt : d.rest.length < c.rest.length) :
    d.Since s .behind := by
  obtain ⟨c₀, hc₀, hreach, hs, -, -⟩ := h
  exact ⟨c₀, hc₀, hreach.trans hd, hs, nofun, fun _ => Nat.lt_of_lt_of_le hlt hreach.length_le⟩

/-- If there was a token at the place, it is still there or has been consumed. -/
theorem behind_or_rest_ne_nil (h : c.Since s .ahead) : c.Since s .behind ∨ c.rest ≠ [] := by
  obtain ⟨c₀, hc₀, hreach, hs, hahead, -⟩ := h
  by_cases hlt : c.rest.length < c₀.rest.length
  · exact .inl ⟨c₀, hc₀, hreach, hs, nofun, fun _ => hlt⟩
  · obtain rfl := hreach.eq_of_length_le (Nat.le_of_not_lt hlt)
    exact .inr (hahead rfl)

/-- The current token does not stand before the place. -/
theorem le_current (h : c.Since s k) : s.offset ≤ c.current.start.offset := by
  obtain ⟨c₀, hc₀, hreach, rfl, -, -⟩ := h
  by_cases hlt : c.rest.length < c₀.rest.length
  · have hc := (hreach.ordered hc₀.ordered).1
    have hne : c₀.rest ≠ [] := fun hnil => by
      rw [hnil] at hlt; exact absurd hlt (Nat.not_lt_zero _)
    obtain ⟨t, more, hr⟩ := List.exists_cons_of_ne_nil hne
    have hstop := hc₀.stop_le_lastStop hreach hlt
    have hstart := hc₀.start_lt_stop (hr ▸ List.mem_cons_self : t ∈ c₀.rest)
    have hcurrent := hc.lastStop_le_current
    rw [current_of_cons hr] at hstop ⊢
    omega
  · obtain rfl := hreach.eq_of_length_le (Nat.le_of_not_lt hlt)
    exact Nat.le_refl _

/-- **Once a token is consumed, the span from the place on reaches over tokens.** -/
theorem covers (h : c.Since s .behind) :
    Span.Covers ⟨s, c.lastStop⟩ (TokenStream.lex c.source).tokens := by
  obtain ⟨c₀, hc₀, hreach, rfl, -, hlt⟩ := h
  replace hlt := hlt rfl
  obtain ⟨front, u, hfront, hu⟩ := hreach.exists_last hlt
  have hne : front ++ [u] ≠ [] := List.append_ne_nil_of_right_ne_nil _ (List.cons_ne_nil _ _)
  obtain ⟨t, run, hrun⟩ := List.exists_cons_of_ne_nil hne
  have hr : c₀.rest = t :: (run ++ c.rest) := by
    rw [hfront, ← List.cons_append, ← hrun, List.append_assoc, List.singleton_append]
  have hsource : c.source = c₀.source := hreach.source
  rw [hsource, current_of_cons hr]
  refine ⟨⟨t, u, front ++ [u], ?_, ?_, List.getLast?_concat, rfl, hu⟩, ?_⟩
  · refine List.IsInfix.trans ?_ hc₀.suffix.isInfix
    exact List.IsPrefix.isInfix
      ⟨c.rest, by rw [hfront, List.append_assoc, List.singleton_append]⟩
  · rw [hrun, List.head?_cons]
  · have hstop := hc₀.stop_le_lastStop hreach hlt
    rw [current_of_cons hr] at hstop
    exact Nat.lt_of_lt_of_le (hc₀.start_lt_stop (hr ▸ List.mem_cons_self)) hstop

end Since

/-! ## Nodes between a place and the cursor -/

/-- Nodes that lie between a place and the cursor, one behind the other, and were read since. -/
structure Fits (s : Position) (c : Cursor) (l : List Node) : Prop where
  wellNested : ∀ n ∈ l, n.WellNested (TokenStream.lex c.source)
  inside : ∀ n ∈ l, n.Vacant (TokenStream.lex c.source) ∨
    (s.offset ≤ n.span.start.offset ∧ n.span.stop.offset ≤ c.lastStop.offset ∧
      c.Since n.span.start .behind)
  ordered : l.Pairwise (Node.Before (TokenStream.lex c.source))

namespace Fits

variable {l l' : List Node}

/-- Nothing fits anywhere. -/
theorem nil : c.Fits s [] := ⟨nofun, nofun, .nil⟩

/-- Fewer nodes fit where more do. -/
theorem sublist (h : c.Fits s l) (hl : l'.Sublist l) : c.Fits s l' :=
  ⟨fun n hn => h.wellNested n (hl.subset hn), fun n hn => h.inside n (hl.subset hn),
    h.ordered.sublist hl⟩

/-- What fits fits later as well. -/
theorem trans (h : c.Fits s l) (hc : c.Visited) (hd : c.Reaches d) : d.Fits s l := by
  have hsource := hd.source
  refine ⟨hsource ▸ h.wellNested, fun n hn => ?_, hsource ▸ h.ordered⟩
  rw [hsource]
  refine (h.inside n hn).imp id fun ⟨hstart, hle, hsince⟩ => ?_
  exact ⟨hstart, Nat.le_trans hle (hd.ordered hc.ordered).2, hsince.trans hd⟩

/-- What fits fits from an earlier place on as well. -/
theorem of_le {s' : Position} (h : c.Fits s l) (hs : s'.offset ≤ s.offset) : c.Fits s' l :=
  ⟨h.wellNested, fun n hn => (h.inside n hn).imp id fun ⟨hstart, hle⟩ =>
    ⟨Nat.le_trans hs hstart, hle⟩, h.ordered⟩

/-- **What is read from the cursor on comes behind what was read before.** -/
theorem append (h : c.Fits s l) (hc : c.Visited) (hsince : c.Since s k) (hd : c.Reaches d)
    (h' : d.Fits c.current.start l') : d.Fits s (l ++ l') := by
  have hl := h.trans hc hd
  have hl' := h'.of_le hsince.le_current
  refine ⟨fun n hn => ?_, fun n hn => ?_, List.pairwise_append.2 ⟨hl.ordered, hl'.ordered, ?_⟩⟩
  · exact (List.mem_append.1 hn).elim (hl.wellNested n) (hl'.wellNested n)
  · exact (List.mem_append.1 hn).elim (hl.inside n) (hl'.inside n)
  · intro n hn m hm
    have hcurrent := hc.ordered.lastStop_le_current
    have hsource := hd.source
    rcases h.inside n hn with hvacant | ⟨-, hstop, -⟩
    · exact .inl (hsource ▸ hvacant)
    rcases h'.inside m hm with hvacant | ⟨hstart, -, -⟩
    · exact .inr (.inl hvacant)
    · exact .inr (.inr (Nat.le_trans hstop (Nat.le_trans hcurrent hstart)))

/-- **A node that is closed at the cursor fits**, if what is kept under it does. -/
theorem node (h : c.Fits s l) (hsince : c.Since s .behind) (skipped : Bool) :
    c.Fits s [.mk skipped ⟨s, c.lastStop⟩ l] := by
  refine ⟨fun n hn => ?_, fun n hn => ?_, List.pairwise_singleton _ _⟩
  · rw [List.mem_singleton.1 hn]
    exact .node hsince.covers
      (fun m hm => (h.inside m hm).imp id fun ⟨hstart, hstop, _⟩ => ⟨hstart, hstop⟩) h.ordered
      h.wellNested
  · rw [List.mem_singleton.1 hn]
    exact .inr ⟨Nat.le_refl _, Nat.le_refl _, hsince⟩

/-- What is missing fits anywhere. -/
theorem vacant {n : Node} (h : n.Vacant (TokenStream.lex c.source)) : c.Fits s [n] := by
  refine ⟨fun m hm => ?_, fun m hm => ?_, List.pairwise_singleton _ _⟩
  · exact .vacant (List.mem_singleton.1 hm ▸ h)
  · exact .inl (List.mem_singleton.1 hm ▸ h)

end Fits

end Cursor

namespace Parser

variable {α β σ : Type} [HasNodes α] [HasNodes β] {c d : Cursor} {s : Position} {k : Stage}
  {acc : List (List Node)}

/-- What a parser answers fits between where it starts and where it stops. -/
class Spanned (p : Parser α) : Prop where
  fits_of_ok : ∀ {c d : Cursor} {a : α}, c.Visited → p c = .ok (a, d) →
    d.Fits c.current.start (nodes a)

/-- The nodes of the parts read so far, the last of them being the first in the list. -/
def collected (acc : List (List Node)) : List Node := acc.reverse.flatten

/-- The rest of a rule that started at `s` and has read the parts `acc`: its answer fits between
`s` and where it stops. -/
class Extends (s : Position) (k : Stage) (acc : List (List Node)) (p : Parser α) : Prop where
  fits_of_ok : ∀ {c d : Cursor} {a : α}, c.Visited → c.Since s k → c.Fits s (collected acc) →
    p c = .ok (a, d) → d.Fits s (nodes a)

/-- Nodes that are among those collected, in the same order. -/
class Part (l : List Node) (acc : List (List Node)) : Prop where
  sublist : l.Sublist (collected acc)

/-- A value that is read as one node with a given span, with nothing but collected parts under
it. -/
class Closes (span : Span) (acc : List (List Node)) (a : α) : Prop where
  eq_node : ∃ l, nodes a = [.mk false span l] ∧ l.Sublist (collected acc)

/-! ## Choosing among the parts

What a rule builds of its parts may leave some out, and puts them into pairs, lists and options.
That the nodes of the result are among those collected, and in order, is found by following how
it is put together. -/

/-- The part read last comes last. -/
theorem collected_cons (x : List Node) : collected (x :: acc) = collected acc ++ x := by
  simp [collected]

/-- One part is all there is. -/
theorem collected_singleton (x : List Node) : collected [x] = x := List.append_nil x

namespace Part

variable {x l : List Node}

instance (priority := low) skip [h : Part l acc] : Part l (x :: acc) :=
  ⟨by rw [collected_cons]; exact h.sublist.trans (List.sublist_append_left _ _)⟩

instance last : Part x (x :: acc) :=
  ⟨by rw [collected_cons]; exact List.sublist_append_right _ _⟩

instance append [h : Part l acc] : Part (l ++ x) (x :: acc) :=
  ⟨by rw [collected_cons]; exact h.sublist.append (List.Sublist.refl _)⟩

instance none : Part (nodes (none : Option α)) acc := ⟨List.nil_sublist _⟩

instance some {a : α} [h : Part (nodes a) acc] : Part (nodes (some a)) acc := ⟨h.sublist⟩

instance absent : Part (nodes TypeExpr.absent) acc := ⟨List.nil_sublist _⟩

instance append_absent [h : Part l acc] : Part (l ++ nodes TypeExpr.absent) acc :=
  ⟨(List.append_nil l).symm ▸ h.sublist⟩

instance list_nil : Part (nodes ([] : List α)) acc := ⟨List.nil_sublist _⟩

instance list_cons {a : α} {as : List α} [h : Part (nodes a ++ nodes as) acc] :
    Part (nodes (a :: as)) acc := ⟨h.sublist⟩

instance pair {a : α} {b : β} [h : Part (nodes a ++ nodes b) acc] : Part (nodes (a, b)) acc :=
  ⟨h.sublist⟩

instance append_list_nil [h : Part l acc] : Part (l ++ nodes ([] : List α)) acc :=
  ⟨(List.append_nil l).symm ▸ h.sublist⟩

instance append_list_cons {a : α} {as : List α} [h : Part (l ++ nodes a ++ nodes as) acc] :
    Part (l ++ nodes (a :: as)) acc := ⟨List.append_assoc l _ _ ▸ h.sublist⟩

instance append_pair {a : α} {b : β} [h : Part (l ++ nodes a ++ nodes b) acc] :
    Part (l ++ nodes (a, b)) acc := ⟨List.append_assoc l _ _ ▸ h.sublist⟩

/-- What is missing in a list has no nodes. -/
instance filterMap {as : List (Option α)} [h : Part (nodes as) acc] :
    Part (nodes (as.filterMap id)) acc := by
  have key : nodes (as.filterMap id) = nodes as := by
    induction as with
    | nil => rfl
    | cons a as ih =>
      cases a with
      | none => exact ih
      | some a => exact congrArg (nodes a ++ ·) ih
  rw [key]
  exact h

end Part

instance {γ : Type} [Nodeless γ] : Nodeless (Option γ) where
  nodes_eq_nil
    | none => rfl
    | some a => Nodeless.nodes_eq_nil a

/-! ## Sequences and branches

A rule is followed from its start to where its node is closed. What is known on the way is how
far it has come (`Stage`) and which parts it has read. -/

namespace Extends

/-- A parser that takes no part in the rule it is the end of. -/
instance (priority := low) of_spanned (p : Parser α) [h : Spanned p] : Extends s k acc p where
  fits_of_ok hc hsince _ hp := (h.fits_of_ok hc hp).of_le hsince.le_current

instance pure {a : α} [h : Part (nodes a) acc] : Extends s k acc (pure a) where
  fits_of_ok _ _ hfits hp := by
    cases hp
    exact hfits.sublist h.sublist

instance throw (e : Halt) : Extends s k acc (throw e : Parser α) where
  fits_of_ok _ _ _ hp := by cases hp

instance fail (x : Complaint) : Extends s k acc (fail x : Parser α) where
  fits_of_ok _ _ _ hp := by cases hp

instance ite (P : Prop) [Decidable P] (p q : Parser α) [Extends s k acc p] [Extends s k acc q] :
    Extends s k acc (if P then p else q) := by
  split <;> assumption

/-- What one part answers is collected for the rest. -/
theorem bind_of {k' : Stage} {p : Parser α} {f : α → Parser β} [Moves p] [Spanned p]
    (hk : ∀ {c d a}, c.Visited → c.Since s k → p c = .ok (a, d) → d.Since s k')
    (hf : ∀ a, Extends s k' (nodes a :: acc) (f a)) : Extends s k acc (p >>= f) where
  fits_of_ok hc hsince hfits h := by
    obtain ⟨a, c₁, h₁, h₂⟩ := bind_eq_ok.1 h
    refine (hf a).fits_of_ok (hc.of_ok h₁) (hk hc hsince h₁) ?_ h₂
    rw [collected_cons]
    exact hfits.append hc hsince (Moves.reaches_of_ok h₁) (Spanned.fits_of_ok hc h₁)

/-- A part that may consume nothing leaves the stage as it was. -/
theorem next {p : Parser α} {f : α → Parser β} [Moves p] [Spanned p]
    (hf : ∀ a, Extends s k (nodes a :: acc) (f a)) : Extends s k acc (p >>= f) :=
  bind_of (fun _ hsince h => hsince.trans (Moves.reaches_of_ok h)) hf

/-- Behind a part that consumes a token the place is behind. -/
theorem next_of_consumes {p : Parser α} {f : α → Parser β} [Moves p] [Spanned p] [Consumes p]
    (hf : ∀ a, Extends s .behind (nodes a :: acc) (f a)) : Extends s k acc (p >>= f) :=
  bind_of (fun hc hsince h =>
    hsince.behind_of_lt (Moves.reaches_of_ok h) (Consumes.lt_of_ok hc h)) hf

instance (priority := low) bind {p : Parser α} {f : α → Parser β} [Moves p] [Spanned p]
    [hf : ∀ a, Extends s k (nodes a :: acc) (f a)] : Extends s k acc (p >>= f) :=
  next hf

instance (priority := mid) bind_of_consumes {p : Parser α} {f : α → Parser β} [Moves p]
    [Spanned p] [Consumes p] [hf : ∀ a, Extends s .behind (nodes a :: acc) (f a)] :
    Extends s .anywhere acc (p >>= f) :=
  next_of_consumes hf

instance (priority := mid) bind_of_consumesAhead {p : Parser α} {f : α → Parser β} [Moves p]
    [Spanned p] [ConsumesAhead p] [hf : ∀ a, Extends s .behind (nodes a :: acc) (f a)] :
    Extends s .ahead acc (p >>= f) := by
  refine bind_of (fun hc hsince h => ?_) hf
  have hreach := Moves.reaches_of_ok h
  rcases hsince.behind_or_rest_ne_nil with hbehind | hr
  · exact hbehind.trans hreach
  · exact hsince.behind_of_lt hreach (ConsumesAhead.lt_of_ok hc hr h)

/-- A node may be closed before the rule ends, if nothing is added to it. -/
theorem close_of {f : Span → α} {g : Span → Parser α} [∀ span, Moves (g span)]
    (hg : ∀ span, Answers (g span) (Eq (f span))) (h : ∀ span, Closes span acc (f span)) :
    Extends s .behind acc (spanFrom s >>= g) where
  fits_of_ok {c d a} hc hsince hfits hp := by
    rw [spanFrom_bind] at hp
    obtain rfl := hg _ hp
    obtain ⟨l, hl, hsub⟩ := (h ⟨s, c.lastStop⟩).eq_node
    rw [hl]
    exact ((hfits.sublist hsub).node hsince false).trans hc (Moves.reaches_of_ok hp)

/-- A node is closed behind the token it starts with. -/
instance close {f : Span → α} [h : ∀ span, Closes span acc (f span)] :
    Extends s .behind acc (spanFrom s >>= fun span => Pure.pure (f span)) :=
  close_of (fun _ => Answers.pure rfl) h

/-- A node may be closed together with the one node under it. -/
theorem close_both {f : Span → α} {g : Span → β} (hf : ∀ span, Closes span acc (f span))
    (hg : ∀ span, nodes (g span) = [.mk false span (nodes (f span))]) :
    Extends s .behind acc (spanFrom s >>= fun span => Pure.pure (g span)) where
  fits_of_ok {c d a} hc hsince hfits hp := by
    rw [spanFrom_bind] at hp
    obtain ⟨rfl, rfl⟩ := pure_eq_ok.1 hp
    obtain ⟨l, hl, hsub⟩ := (hf ⟨s, c.lastStop⟩).eq_node
    rw [hg, hl]
    exact ((hfits.sublist hsub).node hsince false).node hsince false

/-- A rule for a part may start where the whole rule started. -/
theorem bind_rule {k' : Stage} {p : Parser α} {f : α → Parser β} [Moves p]
    (hk : ∀ {c d a}, c.Visited → c.Since s k → p c = .ok (a, d) → d.Since s k')
    (hp : Extends s k [] p) (hf : ∀ a, Extends s k' [nodes a] (f a)) :
    Extends s k acc (p >>= f) where
  fits_of_ok hc hsince _ h := by
    obtain ⟨a, c₁, h₁, h₂⟩ := bind_eq_ok.1 h
    refine (hf a).fits_of_ok (hc.of_ok h₁) (hk hc hsince h₁) ?_ h₂
    rw [collected_singleton]
    exact hp.fits_of_ok hc hsince .nil h₁

/-- A rule for which nothing has to be known can be the rest of any rule. -/
theorem of_anywhere {p : Parser α} (h : Extends s .anywhere [] p) : Extends s k acc p where
  fits_of_ok hc hsince _ hp := by
    obtain ⟨c₀, hc₀, hreach, hs, -, -⟩ := hsince
    exact h.fits_of_ok hc ⟨c₀, hc₀, hreach, hs, nofun, nofun⟩ .nil hp

/-- The rest of a rule may forget what was read before. -/
theorem of_nil {p : Parser α} (h : Extends s k [] p) : Extends s k acc p where
  fits_of_ok hc hsince _ hp := h.fits_of_ok hc hsince .nil hp

/-- What comes behind an answer that may be missing. -/
theorem bind_option {p : Parser (Option α)} {f : Option α → Parser β} [Moves p] [Spanned p]
    (hnone : Extends s k ([] :: acc) (f none))
    (hsome : ∀ a, Extends s k (nodes a :: acc) (f (some a))) : Extends s k acc (p >>= f) :=
  next fun o => by
    cases o with
    | none => exact hnone
    | some a => exact hsome a

end Extends

namespace Spanned

/-- A rule of which nothing is known yet starts with its own place. -/
theorem of_extends {p : Parser α} (h : ∀ s, Extends s .anywhere [] p) : Spanned p where
  fits_of_ok hc hp := (h _).fits_of_ok hc (.refl hc) .nil hp

/-- A rule that takes the place where it starts. -/
theorem of_here {f : Position → Parser α} (h : ∀ s, Extends s .anywhere [] (f s)) :
    Spanned (here >>= f) where
  fits_of_ok {c _ _} hc hp := by
    rw [here_bind] at hp
    exact (h _).fits_of_ok hc (.refl hc) .nil hp

/-- A rule that takes the place where it starts and cannot start at the end of the source. -/
theorem of_here_consumes {f : Position → Parser α} [Consumes (here >>= f)]
    (h : ∀ s, Extends s .ahead [] (f s)) : Spanned (here >>= f) where
  fits_of_ok {c _ _} hc hp := by
    have hlt := Consumes.lt_of_ok hc hp
    have hr : c.rest ≠ [] := fun hnil => by
      rw [hnil] at hlt; exact absurd hlt (Nat.not_lt_zero _)
    rw [here_bind] at hp
    exact (h _).fits_of_ok hc (.refl_ahead hc hr) .nil hp

instance (priority := low) of_nodeless {γ : Type} [Nodeless γ] (p : Parser γ) : Spanned p where
  fits_of_ok _ _ := by
    rw [Nodeless.nodes_eq_nil]
    exact .nil

end Spanned

/-! ## Loops

A list of parts is read from the front, and each item comes behind those before it. -/

section Loops

variable {next : Parser (Option α)} {item : Parser α} [Moves next] [Spanned next] [Moves item]
  [Spanned item]

instance Spanned.collectUpTo (n : Nat) : Spanned (collectUpTo next n) := by
  induction n with
  | zero => exact .of_extends fun s => inferInstanceAs (Extends s .anywhere [] (throw _))
  | succ n ih =>
    unfold Parser.collectUpTo
    exact .of_extends fun s => Extends.bind_option inferInstance fun a => inferInstance

instance Spanned.collect : Spanned (collect next) where
  fits_of_ok hc h := by
    rw [collect_run] at h
    exact Spanned.fits_of_ok hc h

instance Spanned.itemBehind (w : String) : Spanned (itemBehind w item) := by
  unfold Parser.itemBehind
  exact .of_extends fun s => inferInstance

instance Spanned.itemBefore (w : String) : Spanned (itemBefore w item) := by
  unfold Parser.itemBefore
  exact .of_extends fun s => inferInstance

instance Spanned.commaList₁ : Spanned (commaList₁ item) := by
  unfold Parser.commaList₁
  exact .of_extends fun s => inferInstance

instance Spanned.commaList (w : String) : Spanned (commaList w item) := by
  unfold Parser.commaList
  exact .of_extends fun s => inferInstance

end Loops

/-! ## Names -/

instance Closes.identifier {span : Span} {x : Text} : Closes span acc (Identifier.mk span x) :=
  ⟨[], rfl, List.nil_sublist _⟩

instance Closes.some {span : Span} {a : α} [h : Closes span acc a] : Closes span acc (some a) :=
  ⟨h.eq_node⟩

/-- An identifier is one token. -/
instance : Spanned identifier where
  fits_of_ok {c d i} hc h := by
    have hbehind := (Cursor.Since.refl hc).behind_of_lt (Moves.reaches_of_ok h)
      (Consumes.lt_of_ok hc h)
    rw [identifier, isIdent_bind, ite_run] at h
    split at h
    · rename_i hident
      obtain ⟨t, c₁, h₁, h₂⟩ := bind_eq_ok.1 h
      cases h₂
      obtain ⟨more, hr, rfl⟩ := advance_inv (hc.rest_ne_nil (Token.isEof_of_isIdent hident)) h₁
      rw [Cursor.current_of_cons hr] at hbehind ⊢
      exact Cursor.Fits.nil.node hbehind false
    · cases h

instance : Spanned entityName := by
  unfold entityName
  exact .of_here fun s => inferInstance

end Parser

end Exemplar
