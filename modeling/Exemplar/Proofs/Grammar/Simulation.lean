import Exemplar.Proofs.Grammar.Safety
import Exemplar.Proofs.Tree.Bare

/-!
# One run simulates another

Several facts about the grammar compare two runs. A parser reads a part of a source and then the
whole of it; a type as a text of its own and then as a piece of a larger type; a statement at
the beginning of a source and then behind another one. Each time the first run is known to
succeed, and the second has to succeed as well, with the same answer and at the same place of
the tokens.

What differs from case to case is how the places of the two runs are related, and how far the
first one may go: a parser that looks beyond the end of a part sees what comes behind it. So the
judgment has both as parameters. `Simulates R S k p p'` says that a run of `p` from a place that
`R` relates to one of `p'`, if it is a run that the scope `k` admits, is simulated there: `p'`
succeeds with an answer that is the same without its places (`SameBare`), and `S` relates the
places where the two stop. The relation `S` is `R` again where nothing happens at the end, and a
looser one where something may.

How parsers are put together does not depend on the relation. The rules for answering, failing,
branching and sequencing are therefore proved once, here, for all relations; that goes for loops
too. What a rule needs is always one of three things: that the scope is decided where a run
starts, that it is handed on from a run to its parts, or that a part complains at the end of a
source and so cannot have come to it. The rules are instances, so the judgment for a rule of the
grammar is found by unfolding it once.
-/

namespace Exemplar

/-- What a run leaves is left before it. -/
theorem Cursor.Reaches.rest_ne_nil {c d : Cursor} (h : c.Reaches d) (hd : d.rest ≠ []) :
    c.rest ≠ [] := by
  intro hnil
  have hsuffix := h.suffix
  rw [hnil, List.suffix_nil] at hsuffix
  exact hd hsuffix

namespace Parser

variable {α β σ : Type} {c c' d : Cursor}

-- The search for an instance is as deep as the rule is long.
set_option synthInstance.maxSize 100000

/-! ## Which runs are simulated -/

/-- Which runs are simulated, told by where a run starts and where it stops. -/
abbrev Scope := Cursor → Cursor → Prop

namespace Scope

/-- A run from anywhere to anywhere. -/
def anywhere : Scope := fun _ _ => True

/-- A run that starts where a token is left. -/
def token : Scope := fun c _ => c.rest ≠ []

/-- A run that stops where a token is left. -/
def inside : Scope := fun _ d => d.rest ≠ []

/-- Whether a run is in the scope is decided where it starts, so the first part of a sequence is
in the scope if the whole is. -/
class Starts (k : Scope) : Prop where
  admits : ∀ {c d d' : Cursor}, k c d → k c d'

instance : Starts anywhere := ⟨id⟩

instance : Starts token := ⟨id⟩

/-- A run is in the scope if it is the first part of one that is. -/
class Splits (k : Scope) : Prop where
  left : ∀ {c c₁ d : Cursor}, c₁.Reaches d → k c d → k c c₁

instance : Splits anywhere := ⟨fun _ _ => trivial⟩

instance : Splits inside := ⟨fun h hd => h.rest_ne_nil hd⟩

end Scope

/-- Behind a run of the parser, what is left of a run in the scope is in the scope. -/
class Upholds (k : Scope) (p : Parser α) : Prop where
  admits : ∀ {c c₁ d : Cursor} {a : α}, c.Visited → p c = .ok (a, c₁) → k c d → k c₁ d

namespace Upholds

instance (p : Parser α) : Upholds .anywhere p := ⟨fun _ _ _ => trivial⟩

instance (p : Parser α) : Upholds .inside p := ⟨fun _ _ => id⟩

end Upholds

/-! ## Parsers that need a token -/

/-- A parser that stops with a complaint at the end of a source. Where it succeeds, a token was
left, so it need only be simulated from there; and a parser in front of it has stopped there. -/
class Needs (p : Parser α) : Prop where
  rest_ne_nil : ∀ {c d : Cursor} {a : α}, c.Visited → p c = .ok (a, d) → c.rest ≠ []

namespace Needs

instance (priority := low) of_consumes (p : Parser α) [Consumes p] : Needs p where
  rest_ne_nil hc h hr := by
    have := Consumes.lt_of_ok hc h
    rw [hr] at this
    exact absurd this (Nat.not_lt_zero _)

instance (priority := low) bind_left (p : Parser α) (f : α → Parser β) [Needs p] :
    Needs (p >>= f) where
  rest_ne_nil hc h := by
    obtain ⟨a, c₁, h₁, -⟩ := bind_eq_ok.1 h
    exact Needs.rest_ne_nil hc h₁

instance (priority := low) bind_right (p : Parser α) (f : α → Parser β) [Moves p]
    [∀ a, Needs (f a)] : Needs (p >>= f) where
  rest_ne_nil hc h := by
    obtain ⟨a, c₁, h₁, h₂⟩ := bind_eq_ok.1 h
    exact (Moves.reaches_of_ok h₁).rest_ne_nil (Needs.rest_ne_nil (hc.of_ok h₁) h₂)

/-- Behind a test that the end of the source does not pass nothing more is needed. -/
instance (priority := low) bind_definite {test : Parser Bool} {p q : Parser β} [Moves test]
    [Definite test] [Needs q] : Needs (test >>= fun b => if b = true then p else q) where
  rest_ne_nil {c d a} hc h hr := by
    obtain ⟨b, c₁, h₁, h₂⟩ := bind_eq_ok.1 h
    have hsuffix := Moves.suffix_of_ok h₁
    rw [hr, List.suffix_nil] at hsuffix
    cases b with
    | false => exact Needs.rest_ne_nil (p := q) (hc.of_ok h₁) h₂ hsuffix
    | true =>
      obtain hne | hlt := Definite.of_true hc h₁
      · exact hne hsuffix
      · rw [hr] at hlt
        exact absurd hlt (Nat.not_lt_zero _)

end Needs

/-! ## The judgment -/

variable [HasPlaces α] [HasPlaces β] [HasPlaces σ] {R S : Cursor → Cursor → Prop} {k : Scope}

/-- A run ends as another one did that answered `a` and stopped at `d`: it succeeds with the same
answer apart from places, and it stops at a place that `S` relates to `d`. -/
def EndsLike (S : Cursor → Cursor → Prop) (r : Except Halt (α × Cursor)) (a : α) (d : Cursor) :
    Prop :=
  ∃ a' d', r = .ok (a', d') ∧ SameBare a a' ∧ S d d'

/-- **A run of `p` is simulated by one of `p'`** if it is in the scope `k`: from places related
by `R` the second ends like the first, at places related by `S`. -/
class Simulates (R S : Cursor → Cursor → Prop) (k : Scope) (p p' : Parser α) : Prop where
  endsLike : ∀ {c c' d : Cursor} {a : α}, R c c' → p c = .ok (a, d) → k c d →
    EndsLike S (p' c') a d

/-- The same parser runs on both sides. -/
theorem Simulates.again {p : Parser α} {a : α} (k : Scope)
    [h : Simulates R S k p p] (hc : R c c')
    (hp : p c = .ok (a, d)) (hd : k c d) : EndsLike S (p c') a d :=
  h.endsLike hc hp hd

/-- **A run of a sequence is simulated part by part.** The second part starts where the first one
stopped, so its run is known as well; the relation `R` between the parts need not be the one that
the sequence starts from, nor the one it ends with. -/
theorem EndsLike.bind {p p' : Parser α} {f f' : α → Parser β} {b : β}
    (h : (p >>= f) c = .ok (b, d))
    (hp : ∀ {a c₁}, p c = .ok (a, c₁) → f a c₁ = .ok (b, d) → EndsLike R (p' c') a c₁)
    (hf : ∀ {a a' c₁ c₁'}, SameBare a a' → R c₁ c₁' → p c = .ok (a, c₁) → f a c₁ = .ok (b, d) →
      EndsLike S (f' a' c₁') b d) :
    EndsLike S ((p' >>= f') c') b d := by
  obtain ⟨a, c₁, h₁, h₂⟩ := bind_eq_ok.1 h
  obtain ⟨a', c₁', h₁', ha, hc₁⟩ := hp h₁ h₂
  obtain ⟨b', d', h₂', hb⟩ := hf ha hc₁ h₁ h₂
  exact ⟨b', d', by rw [bind_of_ok h₁', h₂'], hb⟩

/-- A branch that both sides take alike. -/
theorem EndsLike.ite {P : Prop} [Decidable P] {p p' q q' : Parser α} {a : α}
    (h : (if P then p else q) c = .ok (a, d))
    (hp : P → p c = .ok (a, d) → EndsLike S (p' c') a d)
    (hq : ¬P → q c = .ok (a, d) → EndsLike S (q' c') a d) :
    EndsLike S ((if P then p' else q') c') a d := by
  split
  · rename_i hP
    rw [if_pos hP] at h
    exact hp hP h
  · rename_i hP
    rw [if_neg hP] at h
    exact hq hP h

namespace Simulates

/-! ### Larger and smaller scopes

A parser that is simulated from anywhere is simulated from a token, and one that is simulated
from a token is simulated where it stops before one, for a run leaves no more than it found. -/

instance (priority := low) of_anywhere (p p' : Parser α) [h : Simulates R S .anywhere p p'] :
    Simulates R S .token p p' where
  endsLike hc hp _ := h.endsLike hc hp trivial

instance (priority := low) of_token (p p' : Parser α) [Moves p] [h : Simulates R S .token p p'] :
    Simulates R S .inside p p' where
  endsLike hc hp hd := h.endsLike hc hp ((Moves.reaches_of_ok hp).rest_ne_nil hd)

/-- What is simulated from a token and from the end is simulated wherever it starts. -/
theorem of_token_of_nil {p p' : Parser α} [h : Simulates R S .token p p']
    (hnil : ∀ {c c' d a}, R c c' → c.rest = [] → k c d → p c = .ok (a, d) →
      EndsLike S (p' c') a d) : Simulates R S k p p' where
  endsLike {c c' d a} hc hp hd := by
    by_cases hr : c.rest = []
    · exact hnil hc hr hd hp
    · exact h.endsLike hc hp hr

/-! ### Answers, complaints and branches -/

instance (a a' : α) [h : SameBare a a'] : Simulates R R k (pure a) (pure a') where
  endsLike {c c' d b} hc hp _ := by
    obtain ⟨rfl, rfl⟩ := pure_eq_ok.1 hp
    exact ⟨a', c', rfl, h, hc⟩

-- A run that does not succeed is simulated by anything.

instance (x : Complaint) (q : Parser α) : Simulates R S k (fail x) q where
  endsLike _ h _ := by cases h

instance ite {b b' : Bool} [h : SameBare b b'] (p p' q q' : Parser α) [Simulates R S k p p']
    [Simulates R S k q q'] :
    Simulates R S k (if b = true then p else q) (if b' = true then p' else q') := by
  obtain rfl : b = b' := h.eq
  split <;> assumption

-- Places differ, and nothing is asked of them.

instance : Simulates R R k here here where
  endsLike {c c' d s} hc h _ := by
    cases h
    exact ⟨_, c', rfl, inferInstance, hc⟩

instance (s s' : Position) : Simulates R R k (spanFrom s) (spanFrom s') where
  endsLike {c c' d t} hc h _ := by
    cases h
    exact ⟨_, c', rfl, inferInstance, hc⟩

/-! ### Sequences

In each of these rules the first part stops at places that `R` relates again, so that the second
one can start there. They differ in what is known of the scope of the second part. -/

section Sequences

variable {p p' : Parser α} {f f' : α → Parser β}

/-- The scope of a sequence is handed on to both of its parts. -/
theorem bind_splits [k.Splits] [∀ a, Moves (f a)] [Upholds k p] [hp : Simulates R R k p p']
    [hf : ∀ r : BarePair α, Simulates R S k (f r.left) (f' r.right)]
    (hvisited : ∀ {c c'}, R c c' → c.Visited) : Simulates R S k (p >>= f) (p' >>= f') where
  endsLike hc h hd := EndsLike.bind h
    (fun h₁ h₂ => hp.endsLike hc h₁ (Scope.Splits.left (Moves.reaches_of_ok h₂) hd))
    (fun ha hc₁ h₁ h₂ =>
      (hf ⟨_, _, ha⟩).endsLike hc₁ h₂ (Upholds.admits (hvisited hc) h₁ hd))

/-- A sequence that stops inside does so in both of its parts. -/
instance bind_inside [∀ a, Moves (f a)] [hp : Simulates R R .inside p p']
    [hf : ∀ r : BarePair α, Simulates R S .inside (f r.left) (f' r.right)] :
    Simulates R S .inside (p >>= f) (p' >>= f') where
  endsLike hc h hd := EndsLike.bind h
    (fun h₁ h₂ => hp.endsLike hc h₁ ((Moves.reaches_of_ok h₂).rest_ne_nil hd))
    (fun ha hc₁ _ h₂ => (hf ⟨_, _, ha⟩).endsLike hc₁ h₂ hd)

/-- Nothing is known of where the first part stops, so the second is simulated from anywhere. -/
instance bind [k.Starts] [hp : Simulates R R k p p']
    [hf : ∀ r : BarePair α, Simulates R S .anywhere (f r.left) (f' r.right)] :
    Simulates R S k (p >>= f) (p' >>= f') where
  endsLike hc h hd := EndsLike.bind h
    (fun h₁ _ => hp.endsLike hc h₁ (Scope.Starts.admits hd))
    (fun ha hc₁ _ h₂ => (hf ⟨_, _, ha⟩).endsLike hc₁ h₂ trivial)

/-- Behind a parser that only looks, the second part starts where the sequence does. -/
instance (priority := high) bind_still [k.Starts] [Still p] [hp : Simulates R R k p p']
    [hf : ∀ r : BarePair α, Simulates R S k (f r.left) (f' r.right)] :
    Simulates R S k (p >>= f) (p' >>= f') where
  endsLike hc h hd := EndsLike.bind h
    (fun h₁ _ => hp.endsLike hc h₁ (Scope.Starts.admits hd))
    (fun ha hc₁ h₁ h₂ =>
      (hf ⟨_, _, ha⟩).endsLike hc₁ h₂ (by rw [Still.eq_of_ok h₁]; exact hd))

/-- What comes behind an answer that may be missing is simulated in both cases. -/
theorem bind_option {p p' : Parser (Option α)} {f f' : Option α → Parser β} {j : Scope}
    (hbind : (∀ r : BarePair (Option α), Simulates R S j (f r.left) (f' r.right)) →
      Simulates R S k (p >>= f) (p' >>= f'))
    (hnone : Simulates R S j (f none) (f' none))
    (hsome : ∀ r : BarePair α, Simulates R S j (f (some r.left)) (f' (some r.right))) :
    Simulates R S k (p >>= f) (p' >>= f') := by
  refine hbind fun r => ?_
  obtain ⟨h, h'⟩ | ⟨a, a', h, h', ha⟩ := r.same.none_or_some
  · rwa [h, h']
  · rw [h, h']
    exact hsome ⟨a, a', ha⟩

end Sequences

/-! ### Loops

A loop has so many rounds as there are tokens ahead, and one more. The second run may have more
tokens ahead than the first, so its loop has rounds to spare; it stops in the same round as the
first, because a round that answers nothing is simulated by one that answers nothing. -/

section Loops

/-- A loop in one run is followed by a loop in the other that has as much fuel. The induction is
on that fuel. What is kept from round to round is that the two places belong together and that
the rounds to come stay in scope. -/
theorem collectUpTo [k.Splits] {next next' : Parser (Option α)} [Moves next] [Upholds k next]
    [hnext : Simulates R R k next next'] (hvisited : ∀ {c c'}, R c c' → c.Visited) {n m : Nat}
    (hnm : n ≤ m) : Simulates R R k (collectUpTo next n) (collectUpTo next' m) where
  endsLike {c c' d as} hc h hd := by
    induction n generalizing m c c' as with
    | zero => cases h
    | succ n ih =>
      obtain ⟨m, rfl⟩ := Nat.exists_eq_add_one.2 (Nat.lt_of_lt_of_le (Nat.succ_pos n) hnm)
      obtain ⟨n', hn', ⟨rfl, h₁⟩ | ⟨a, as', c₁, rfl, h₁, h₂⟩⟩ := collectUpTo_eq_ok h
      · -- The last round.
        obtain ⟨o', d', h₁', ho, hd'⟩ := hnext.endsLike hc h₁ hd
        obtain ⟨-, rfl⟩ | ⟨_, _, h, -⟩ := ho.none_or_some
        · exact ⟨[], d', by rw [Parser.collectUpTo, bind_of_ok h₁']; rfl, inferInstance, hd'⟩
        · cases h
      · -- A round that goes on, and the rounds behind it.
        cases hn'
        obtain ⟨o', c₁', h₁', ho, hc₁⟩ :=
          hnext.endsLike hc h₁ (Scope.Splits.left (Moves.reaches_of_ok h₂) hd)
        obtain ⟨h, -⟩ | ⟨_, a', h, rfl, ha⟩ := ho.none_or_some
        · cases h
        cases h
        have hd₁ := Upholds.admits (hvisited hc) h₁ hd
        obtain ⟨l', d', h₂', hl, hd'⟩ := ih (Nat.le_of_succ_le_succ hnm) hc₁ h₂ hd₁
        refine ⟨a' :: l', d', ?_, inferInstance, hd'⟩
        rw [Parser.collectUpTo, bind_of_ok h₁']
        show (Parser.collectUpTo next' m >>= fun l => pure (a' :: l)) c₁' = _
        rw [bind_of_ok h₂']
        rfl

/-- **A loop over a state is simulated round by round.** `J` says from which states and places a
round can be simulated, and each round that goes on has to stop at such a place; `S` is what is
known of where the last round stops. That the run goes on to `d` from where a round stops may be
used to see that the round is in scope. -/
theorem iterateUpTo_of {step step' : σ → Parser (Option σ)} [∀ s, Moves (step s)]
    (J : σ → Cursor → Prop)
    (hround : ∀ {s s' : σ} {o : Option σ} {c c' c₁ : Cursor}, SameBare s s' → R c c' → J s c →
      step s c = .ok (o, c₁) → c₁.Reaches d → ∃ o' c₁', step' s' c' = .ok (o', c₁') ∧
        SameBare o o' ∧ (o = none → S c₁ c₁') ∧ ∀ s₁, o = some s₁ → R c₁ c₁' ∧ J s₁ c₁)
    {n m : Nat} (hnm : n ≤ m) {s s' a : σ} (hs : SameBare s s') (hc : R c c') (hJ : J s c)
    (h : iterateUpTo step n s c = .ok (a, d)) : EndsLike S (iterateUpTo step' m s' c') a d := by
  induction n generalizing m c c' s s' with
  | zero => cases h
  | succ n ih =>
    obtain ⟨m, rfl⟩ := Nat.exists_eq_add_one.2 (Nat.lt_of_lt_of_le (Nat.succ_pos n) hnm)
    obtain ⟨n', hn', ⟨rfl, h₁⟩ | ⟨s₁, c₁, h₁, h₂⟩⟩ := iterateUpTo_eq_ok h
    · obtain ⟨o', d', h₁', ho, hlast, -⟩ := hround hs hc hJ h₁ (.refl _)
      obtain ⟨-, rfl⟩ | ⟨_, _, h, -⟩ := ho.none_or_some
      · exact ⟨s', d', iterateUpTo_of_none h₁' m, hs, hlast rfl⟩
      · cases h
    · cases hn'
      have hmoves : Moves (iterateUpTo step n s₁) := inferInstance
      obtain ⟨o', c₁', h₁', ho, -, hgo⟩ := hround hs hc hJ h₁ (hmoves.reaches_of_ok h₂)
      obtain ⟨h, -⟩ | ⟨_, s₁', h, rfl, hs₁⟩ := ho.none_or_some
      · cases h
      cases h
      obtain ⟨hc₁, hJ₁⟩ := hgo _ rfl
      rw [EndsLike, iterateUpTo_of_some h₁']
      exact ih (Nat.le_of_succ_le_succ hnm) hs₁ hc₁ hJ₁ h₂

end Loops

end Simulates

end Parser

end Exemplar
