import Exemplar.Proofs.Grammar.SkippedExpressions

/-!
# The brackets a rule closes

A rule of the grammar of types closes the brackets that it opens and no others, so a bracket
that is open where the rule starts is still open where it stops. Inside of a bracket, the scan
for the end of an angle bracket never comes to the end of the tokens: it is blocked where the
bracket is closed, at the latest.

`Cursor.Shuts` counts how many of the brackets that are open at a cursor are closed on the way
to another. `Shuts` says of a parser that a run of it closes at most a number of them: none if
it is a rule, and one if it is what is left of a rule behind an opening bracket. A rule also
consumes tokens that it does not ask for by their words but has looked at before. So the class
has a test as an argument, which the current token is known to pass.

What this is for: a type in brackets is to be read in a larger type as it is read alone. The
scan for the end of type arguments looks as far ahead as it has to, so it might see what comes
behind the type. Inside of a bracket it does not: it stops at the bracket that closes. So it has
to be known at each place of the type that a bracket is open there, and this is an invariant of
runs (`Cursor.Inside`).
-/

namespace Exemplar

open Exemplar.Brackets

namespace Brackets

variable {l u : List Token} {a d g : Nat}

/-- What is left of balanced tokens closes what is open in front of it. -/
theorem exists_level_of_suffix (h : level 0 l = some 0) (hs : u <:+ l) :
    ∃ n, level n u = some 0 := by
  obtain ⟨front, rfl⟩ := hs
  rw [level_append] at h
  obtain ⟨n, -, hn⟩ := Option.bind_eq_some_iff.1 h
  exact ⟨n, hn⟩

/-- A scan that stops behind the first token stops. -/
theorem AngleScan.next_ne_ranOut {x : AngleScan} (h : x ≠ .ranOut) : x.next ≠ .ranOut := by
  cases x with
  | ranOut => exact absurd rfl h
  | found | blocked => exact fun h => by cases h

/-- **Inside of a bracket, the scan for the end of an angle bracket does not come to the end of
the tokens.** The scan knows of fewer open brackets than there are, so a bracket is closed of
which it does not know, and there it is blocked. -/
theorem matchingAngle_ne_ranOut (hg : g < d) (h : level d l = some 0) :
    matchingAngle a g l ≠ .ranOut := by
  induction l generalizing a d g with
  | nil =>
    obtain rfl := Option.some.inj h
    exact absurd hg (Nat.not_lt_zero g)
  | cons t l ih =>
    obtain hblocked | ⟨-, hfound⟩ | ⟨a', g', hlevel, hnext⟩ := matchingAngle_level a g t
    · rw [hblocked]; exact fun h => by cases h
    · rw [hfound]; exact fun h => by cases h
    · have hstep := level_add hlevel (d - g)
      rw [Nat.add_sub_cancel' hg.le] at hstep
      rw [← List.singleton_append, level_append, hstep, Option.bind_some] at h
      rw [hnext]
      exact AngleScan.next_ne_ranOut (ih (by omega) h)

end Brackets

namespace Cursor

variable {c d e : Cursor} {t : Token} {more : List Token} {m n : Nat}

/-- What reads like an opening bracket is one: no identifier does. The text of an identifier is
a name, and no bracket is one. -/
theorem Visited.isOpener_of_is (hc : c.Visited) {w : String} (hw : w ∈ ["(", "[", "\x7b"])
    (h : c.current.is w = true) : c.current.isOpener = true := by
  have hopener : ∀ w ∈ ["(", "[", "\x7b"], Lexeme.startsName (Text.ofString w) = false ∧
      (Word.mark w).token.isOpener = true := by decide
  obtain ⟨hname, hopen⟩ := hopener w hw
  obtain ⟨t, ts, hr⟩ := List.exists_cons_of_ne_nil (hc.rest_ne_nil (Token.isEof_of_is h))
  obtain ⟨front, hfront⟩ := hc.suffix
  rw [hr] at hfront
  have hreg := (TokenStream.regular_lexFrom none .start c.source).tokens hfront.symm
  rw [current_of_cons hr] at h ⊢
  rw [Token.is, Bool.and_eq_true, Bool.or_eq_true, beq_iff_eq, beq_iff_eq, beq_iff_eq] at h
  obtain ⟨hk | hk, hx⟩ := h
  · rw [Token.isOpener, hk, hx]
    exact hopen
  · exact absurd hx ((hreg.name (beq_iff_eq.2 hk)).ne_of_startsName hname)

/-- At most `n` of the brackets that are open at `c` are closed up to `d`. -/
def Shuts (n : Nat) (c d : Cursor) : Prop :=
  ∃ front, c.rest = front ++ d.rest ∧ ∃ k, level n front = some k

namespace Shuts

/-- Standing still closes nothing. -/
theorem refl (n : Nat) (c : Cursor) : c.Shuts n c := ⟨[], rfl, n, rfl⟩

/-- A bound may be larger. -/
theorem succ (h : c.Shuts n d) : c.Shuts (n + 1) d := by
  obtain ⟨front, hr, k, hk⟩ := h
  exact ⟨front, hr, k + 1, level_add hk 1⟩

/-- What is closed on the way and what is closed from there on. -/
theorem trans (h : c.Shuts m d) (h' : d.Shuts n e) : c.Shuts (m + n) e := by
  obtain ⟨front, hr, k, hk⟩ := h
  obtain ⟨front', hr', k', hk'⟩ := h'
  refine ⟨front ++ front', by rw [hr, hr', List.append_assoc], k' + k, ?_⟩
  rw [level_append, level_add hk n, Option.bind_some, Nat.add_comm, level_add hk' k]

/-- A token closes one bracket at most, -/
theorem past (hr : c.rest = t :: more) : c.Shuts 1 (c.past t more) := by
  refine ⟨[t], hr, ?_⟩
  rw [level, level, level]
  split
  · exact ⟨_, rfl⟩
  split
  · exact ⟨_, rfl⟩
  · exact ⟨_, rfl⟩

/-- and none if it is no closing bracket. -/
theorem past_plain (hr : c.rest = t :: more) (ht : t.isCloser = false) :
    c.Shuts 0 (c.past t more) := by
  refine ⟨[t], hr, ?_⟩
  rw [level, level, level, ht, if_neg Bool.false_ne_true]
  split
  · exact ⟨_, rfl⟩
  · exact ⟨_, rfl⟩

/-- Behind an opening bracket one more may be closed. -/
theorem of_opener (hr : c.rest = t :: more) (ht : t.isOpener = true)
    (h : (c.past t more).Shuts 1 d) :
    c.Shuts 0 d := by
  obtain ⟨front, hr', k, hk⟩ := h
  refine ⟨t :: front, by rw [hr, show more = front ++ d.rest from hr']; rfl, k, ?_⟩
  rw [level, if_pos ht]
  exact hk

/-- **What is open stays open.** -/
theorem exists_level (h : c.Shuts 0 d) (hn : level n c.rest = some 0) :
    ∃ k, level (n + k) d.rest = some 0 := by
  obtain ⟨front, hr, k, hk⟩ := h
  have hfront := level_add hk n
  rw [Nat.zero_add] at hfront
  rw [hr, level_append, hfront, Option.bind_some, Nat.add_comm] at hn
  exact ⟨k, hn⟩

end Shuts

/-- A bracket is open at a place of a balanced source. -/
def Inside (c : Cursor) : Prop :=
  level 0 (TokenStream.lex c.source).tokens = some 0 → ∃ n, level (n + 1) c.rest = some 0

namespace Inside

/-- Behind an opening bracket one is open. -/
theorem past (hc : c.Visited) (hr : c.rest = t :: more) (ho : t.isOpener = true) :
    (c.past t more).Inside := by
  intro hl
  obtain ⟨n, hn⟩ := exists_level_of_suffix hl hc.suffix
  rw [hr, level, if_pos ho] at hn
  exact ⟨n, hn⟩

/-- It is open as long as no bracket is closed that was open before. -/
theorem of_shuts (hi : c.Inside) (hr : c.Reaches d) (h : c.Shuts 0 d) : d.Inside := by
  intro hl
  rw [hr.source] at hl
  obtain ⟨n, hn⟩ := hi hl
  obtain ⟨k, hk⟩ := h.exists_level hn
  exact ⟨n + k, by rwa [Nat.add_right_comm] at hk⟩

end Inside

end Cursor

namespace Parser

variable {α β σ : Type} {n : Nat} {f g : Token → Bool} {c d : Cursor}

-- The search for an instance is as deep as the rule is long.
set_option synthInstance.maxSize 100000

/-- A run from a token that passes `f` closes at most `n` of the brackets that are open there. -/
class Shuts (n : Nat) (f : Token → Bool) (p : Parser α) : Prop where
  shuts : ∀ {c d : Cursor} {a : α}, c.Visited → f c.current = true →
    p c = .ok (a, d) → c.Shuts n d

/-! ## Tests on tokens

What a token that has passed a test can be. Of the tests that rules make behind one another, the
first is kept. -/

/-- A test that no closing bracket passes. -/
class NotCloser (f : Token → Bool) : Prop where
  isCloser_eq_false : ∀ {t : Token}, f t = true → t.isCloser = false

/-- A test that only opening brackets pass. -/
class OpensBracket (f : Token → Bool) : Prop where
  is : ∃ w ∈ ["(", "[", "\x7b"], ∀ {t : Token}, f t = true → t.is w = true

/-- A test that is passed only where the current token passes `f`. -/
class Tells (test : Parser Bool) (f : outParam (Token → Bool)) : Prop where
  of_true : ∀ {c d : Cursor}, test c = .ok (true, d) → f c.current = true

/-- Where the test is passed, a run closes at most `n` brackets. -/
class ShutsBehind (n : Nat) (test : Parser Bool) (p : Parser α) : Prop where
  shuts : ∀ {c d : Cursor} {a : α}, c.Visited → test c = .ok (true, c) →
    p c = .ok (a, d) → c.Shuts n d

namespace NotCloser

/-- The words that a test asks for are no closing brackets. -/
theorem of_word {w : String} (hw : (Word.mark w).token.isCloser = false) :
    NotCloser (·.is w) where
  isCloser_eq_false {t} h := by
    rw [Token.is, Bool.and_eq_true, beq_iff_eq] at h
    rw [Token.isCloser, h.2]
    rw [Token.isCloser] at hw
    exact Bool.and_eq_false_iff.2
      (.inr ((Bool.and_eq_false_iff.1 hw).resolve_left fun h => by cases h))

/-- A bracket is a punctuator. -/
theorem of_kind (h : ∀ {t : Token}, f t = true → t.kind ≠ .punct) : NotCloser f where
  isCloser_eq_false {t} ht := by rw [Token.isCloser, beq_false_of_ne (h ht), Bool.false_and]

instance : NotCloser (·.is ",") := of_word (by decide)

instance : NotCloser (·.isIdent) :=
  of_kind fun h => by rw [beq_iff_eq.1 h]; exact nofun

instance (priority := low) and_left [NotCloser f] : NotCloser (fun t => f t && g t) where
  isCloser_eq_false h := isCloser_eq_false (Bool.and_eq_true_iff.1 h).1

instance (priority := low) or [NotCloser f] [NotCloser g] : NotCloser (fun t => f t || g t) where
  isCloser_eq_false h := (Bool.or_eq_true_iff.1 h).elim isCloser_eq_false isCloser_eq_false

end NotCloser

namespace Tells

instance : Tells isIdent (·.isIdent) := ⟨fun h => (Prod.mk.inj (Except.ok.inj h)).1⟩

instance (w : String) : Tells (is w) (·.is w) := ⟨fun h => (Prod.mk.inj (Except.ok.inj h)).1⟩

instance (f g : Token → Bool) : Tells (ahead f g) f := ⟨fun h => (ahead_eq_true h).1⟩

instance (f g k : Token → Bool) : Tells (ahead₃ f g k) f where
  of_true h := by
    unfold ahead₃ at h
    obtain ⟨b, c₁, h₁, h₂⟩ := bind_eq_ok.1 h
    cases b with
    | true => exact of_true h₁
    | false => cases h₂

instance (f : Token → Bool) : Tells (do return f (← current)) f :=
  ⟨fun h => (Prod.mk.inj (Except.ok.inj h)).1⟩

end Tells

namespace Shuts

/-! ## The way parsers are put together

In a sequence, one of the parts may close a bracket and the others none. Which part it is
depends on the rule; the instances are for the first and for the last. -/

instance (a : α) : Shuts n f (pure a) where
  shuts _ _ h := by
    obtain ⟨-, rfl⟩ := pure_eq_ok.1 h
    exact .refl n _

instance (x : Complaint) : Shuts n f (fail x : Parser α) := ⟨fun _ _ h => by cases h⟩

instance (x : Halt) : Shuts n f (throw x : Parser α) := ⟨fun _ _ h => by cases h⟩

instance (priority := low) of_still (p : Parser α) [Still p] : Shuts n f p where
  shuts _ _ h := Still.eq_of_ok h ▸ .refl n _

instance (s : Position) : Shuts n f (spanFrom s) where
  shuts _ _ h := by
    cases h
    exact .refl n _

instance (priority := low) succ (p : Parser α) [Shuts 0 f p] : Shuts 1 f p where
  shuts hc hf h := (shuts (n := 0) hc hf h).succ

instance ite (P : Prop) [Decidable P] (p q : Parser α) [Shuts n f p] [Shuts n f q] :
    Shuts n f (if P then p else q) := by
  split <;> assumption

section Sequences

variable {p : Parser α} {k : α → Parser β}

instance bind [Moves p] [Shuts 0 f p] [hk : ∀ a g, Shuts n g (k a)] : Shuts n f (p >>= k) where
  shuts hc hf h := by
    obtain ⟨a, c₁, h₁, h₂⟩ := bind_eq_ok.1 h
    rw [← Nat.zero_add n]
    exact (shuts hc hf h₁).trans ((hk a fun _ => true).shuts (hc.of_ok h₁) rfl h₂)

/-- What closes a bracket may come first. -/
instance (priority := low) bind_one [Moves p] [Shuts 1 f p] [hk : ∀ a g, Shuts 0 g (k a)] :
    Shuts 1 f (p >>= k) where
  shuts hc hf h := by
    obtain ⟨a, c₁, h₁, h₂⟩ := bind_eq_ok.1 h
    exact (shuts hc hf h₁).trans ((hk a fun _ => true).shuts (hc.of_ok h₁) rfl h₂)

instance (priority := high) bind_still [Still p] [hk : ∀ a, Shuts n f (k a)] :
    Shuts n f (p >>= k) where
  shuts hc hf h := by
    obtain ⟨a, c₁, h₁, h₂⟩ := bind_eq_ok.1 h
    obtain rfl := Still.eq_of_ok h₁
    exact (hk a).shuts hc hf h₂

end Sequences

/-! ## Behind a test

Where a test is passed, the token that has been looked at is consumed next, so what is known of
the token is handed over to the parser behind the test. That parser need not start with it: the
place where a node starts may be asked for in between. -/

section Tests

variable {test : Parser Bool} {p q : Parser β} {p' q' : Token → Parser β}

instance behind_tells [Tells test g] [Shuts n g p] : ShutsBehind n test p where
  shuts hc ht h := shuts hc (Tells.of_true ht) h

/-- The two tokens that have been looked at are consumed. -/
instance behind_ahead {k : Token → Parser β} [NotCloser f] [hk : ∀ t, Shuts n g (k t)] :
    ShutsBehind n (ahead f g) (advance >>= k) where
  shuts {c d a} hc ht h := by
    obtain ⟨hf, u, hpeek, hg⟩ := ahead_eq_true ht
    obtain ⟨-, hu⟩ := peek_eq_ok.1 hpeek
    obtain ⟨t, c₁, h₁, h₂⟩ := bind_eq_ok.1 h
    have hc₁ := hc.of_ok h₁
    obtain ⟨hr, rfl, -⟩ | ⟨more, hr, rfl⟩ := advance_eq_ok h₁
    · rw [hr] at hu
      obtain hu | ⟨-, -, rfl⟩ := hu
      · cases hu
      rw [← Cursor.current_of_nil hr] at hg
      exact (hk t).shuts hc₁ hg h₂
    · have hcurrent : (c.past t more).current = u := by
        rw [hr, List.getElem?_cons_succ, ← List.head?_eq_getElem?] at hu
        rw [Cursor.current, Cursor.past_rest]
        obtain hu | ⟨hu, -, rfl⟩ := hu
        · rw [hu, Option.getD_some]
        · rw [hu, Option.getD_none, Cursor.past_ending]
      rw [Cursor.current_of_cons hr] at hf
      rw [← Nat.zero_add n]
      exact (Cursor.Shuts.past_plain hr (NotCloser.isCloser_eq_false hf)).trans
        ((hk t).shuts hc₁ (hcurrent ▸ hg) h₂)

instance (priority := high) bind_test [Still test] [ShutsBehind n test p] [Shuts n f q] :
    Shuts n f (test >>= fun b => if b = true then p else q) where
  shuts hc hf h := by
    obtain ⟨b, c₁, h₁, h₂⟩ := bind_eq_ok.1 h
    obtain rfl := Still.eq_of_ok h₁
    cases b with
    | true => exact ShutsBehind.shuts (p := p) hc h₁ h₂
    | false => exact shuts (p := q) hc hf h₂

instance (priority := high) current_test [Still test] [hp : ∀ t, ShutsBehind n test (p' t)]
    [hq : Shuts n f (current >>= q')] :
    Shuts n f (current >>= fun t => test >>= fun b => if b = true then p' t else q' t) where
  shuts {c d a} hc hf h := by
    rw [current_bind] at h
    obtain ⟨b, c₁, h₁, h₂⟩ := bind_eq_ok.1 h
    obtain rfl := Still.eq_of_ok h₁
    cases b with
    | true => exact (hp _).shuts hc h₁ h₂
    | false => exact hq.shuts hc hf h₂

instance (priority := high) current_ite [hp : ∀ t, Shuts n g (p' t)]
    [hq : Shuts n f (current >>= q')] :
    Shuts n f (current >>= fun t => if g t = true then p' t else q' t) where
  shuts {c d a} hc hf h := by
    rw [current_bind, ite_run] at h
    split at h
    · exact (hp _).shuts hc (by assumption) h
    · exact hq.shuts hc hf h

end Tests

/-! ## Words and brackets

A word that is no closing bracket closes nothing, and any other word may close one. An opening
bracket allows for one bracket more to be closed behind it. -/

instance advance_plain [NotCloser f] : Shuts 0 f advance where
  shuts hc hf h := by
    obtain ⟨-, rfl, -⟩ | ⟨more, hr, rfl⟩ := advance_eq_ok h
    · exact .refl 0 _
    · rw [Cursor.current_of_cons hr] at hf
      exact .past_plain hr (NotCloser.isCloser_eq_false hf)

/-- Whatever token is consumed, one bracket at most is closed. -/
theorem shuts_advance {t : Token} (h : advance c = .ok (t, d)) : c.Shuts 1 d := by
  obtain ⟨-, rfl, -⟩ | ⟨more, hr, rfl⟩ := advance_eq_ok h
  · exact .refl 1 _
  · exact .past hr

instance expect_plain (w : String) [NotCloser (·.is w)] : Shuts 0 f (expect w) where
  shuts hc _ h := by
    obtain ⟨hw, t, h⟩ := expect_eq_ok h
    exact shuts (f := (·.is w)) hc hw h

instance (priority := low) expect_one (w : String) : Shuts 1 f (expect w) where
  shuts hc _ h := by
    obtain ⟨-, t, h⟩ := expect_eq_ok h
    exact shuts_advance h

instance got_plain (w : String) [NotCloser (·.is w)] : Shuts 0 f (got w) where
  shuts hc _ h := by
    obtain ⟨hw, ⟨-, rfl⟩ | ⟨rfl, t, h⟩⟩ := got_eq_ok h
    · exact .refl 0 _
    · exact shuts (f := (·.is w)) hc hw.symm h

/-- Behind a bracket that is closed, nothing more may be. -/
instance got_ite {p q : Parser β} (w : String) [hp : ∀ g, Shuts 0 g p] [Shuts 1 f q] :
    Shuts 1 f (got w >>= fun b => if b = true then p else q) where
  shuts hc hf h := by
    obtain ⟨b, c₁, h₁, h₂⟩ := bind_eq_ok.1 h
    have hc₁ := hc.of_ok h₁
    obtain ⟨-, ⟨rfl, rfl⟩ | ⟨rfl, t, h₁⟩⟩ := got_eq_ok h₁
    · exact shuts hc hf h₂
    · exact (shuts_advance h₁).trans ((hp fun _ => true).shuts hc₁ rfl h₂)

/-- Behind an opening bracket that is consumed, one bracket more may be closed. -/
theorem of_opener {k : Token → Parser β} {w : String} {a : β} (hw : w ∈ ["(", "[", "\x7b"])
    [hk : ∀ t g, Shuts 1 g (k t)] (hc : c.Visited) (hb : c.current.is w = true)
    (h : (advance >>= k) c = .ok (a, d)) : c.Shuts 0 d := by
  have ho := hc.isOpener_of_is hw hb
  obtain ⟨t, c₁, h₁, h₂⟩ := bind_eq_ok.1 h
  have hc₁ := hc.of_ok h₁
  obtain ⟨more, hr, rfl⟩ := advance_inv (hc.rest_ne_nil (Token.isEof_of_is hb)) h₁
  rw [Cursor.current_of_cons hr] at ho
  exact .of_opener hr ho ((hk t fun _ => true).shuts hc₁ rfl h₂)

instance advance_open {k : Token → Parser β} [OpensBracket f] [hk : ∀ t g, Shuts 1 g (k t)] :
    Shuts 0 f (advance >>= k) where
  shuts hc hf h := by
    obtain ⟨w, hw, his⟩ := OpensBracket.is (f := f)
    exact of_opener hw hc (his hf) h

/-- A bracket that is expected opens what stands behind it. -/
theorem expect_open {k : Unit → Parser β} {w : String} (hw : w ∈ ["(", "[", "\x7b"])
    [hk : ∀ g, Shuts 1 g (k ())] : Shuts 0 f (expect w >>= k) where
  shuts hc _ h := by
    obtain ⟨u, c₁, h₁, h₂⟩ := bind_eq_ok.1 h
    obtain ⟨hb, t, h₃⟩ := expect_eq_ok h₁
    have hrun : (advance >>= fun _ => k ()) _ = .ok (_, _) := (bind_of_ok h₃ _).trans h₂
    exact of_opener hw hc hb hrun

instance expect_parenthesis {k : Unit → Parser β} [∀ g, Shuts 1 g (k ())] :
    Shuts 0 f (expect "(" >>= k) :=
  expect_open (by decide)

instance expect_bracket {k : Unit → Parser β} [∀ g, Shuts 1 g (k ())] :
    Shuts 0 f (expect "[" >>= k) :=
  expect_open (by decide)

instance expect_brace {k : Unit → Parser β} [∀ g, Shuts 1 g (k ())] :
    Shuts 0 f (expect "\x7b" >>= k) :=
  expect_open (by decide)

/-! ## Loops -/

section Loops

/-- Each round closes nothing, and so the loop does not. -/
theorem collectUpTo {next : Parser (Option α)} [Moves next]
    [hnext : ∀ g, Shuts 0 g next] (m : Nat) :
    Shuts 0 f (collectUpTo next m) where
  shuts {c d as} hc hf h := by
    clear hf
    induction m generalizing c as with
    | zero => cases h
    | succ m ih =>
      obtain ⟨m', hm, ⟨-, h₁⟩ | ⟨a, as', c₁, -, h₁, h₂⟩⟩ := collectUpTo_eq_ok h
      · exact (hnext fun _ => true).shuts hc rfl h₁
      · cases hm
        exact ((hnext fun _ => true).shuts hc rfl h₁).trans (ih (hc.of_ok h₁) h₂)

instance collect {next : Parser (Option α)} [Moves next] [∀ g, Shuts 0 g next] :
    Shuts 0 f (collect next) where
  shuts hc hf h := (collectUpTo _).shuts hc hf h

/-- The same for a loop that hands a value from round to round. -/
theorem iterateUpTo {step : σ → Parser (Option σ)} [∀ s, Moves (step s)]
    [hstep : ∀ s g, Shuts 0 g (step s)]
    (m : Nat) (s : σ) : Shuts 0 f (iterateUpTo step m s) where
  shuts {c d a} hc hf h := by
    clear hf
    induction m generalizing c s with
    | zero => cases h
    | succ m ih =>
      obtain ⟨m', hm, ⟨-, h₁⟩ | ⟨s', c₁, h₁, h₂⟩⟩ := iterateUpTo_eq_ok h
      · exact (hstep s fun _ => true).shuts hc rfl h₁
      · cases hm
        exact ((hstep s fun _ => true).shuts hc rfl h₁).trans (ih s' (hc.of_ok h₁) h₂)

instance iterate {step : σ → Parser (Option σ)} [∀ s, Moves (step s)]
    [∀ s g, Shuts 0 g (step s)] (s : σ) :
    Shuts 0 f (iterate step s) where
  shuts hc hf h := (iterateUpTo _ s).shuts hc hf h

instance (test : Parser Bool) (body : Parser Unit) [Moves test]
    [Shuts 0 f
      (test >>= fun b => if b = true then (body >>= fun _ => pure (some ())) else pure none)] :
    Shuts 0 f (onceMore test body) := by
  unfold onceMore; infer_instance

end Loops

/-! ## Lists -/

section Lists

variable {item : Parser α} [Moves item] [∀ g, Shuts 0 g item]

instance (w : String) [NotCloser (·.is w)] : Shuts 0 f (itemBehind w item) := by
  unfold itemBehind; infer_instance

instance (w : String) : Shuts 0 f (itemBefore w item) := by unfold itemBefore; infer_instance

instance (w : String) : Shuts 0 f (commaList w item) := by unfold commaList; infer_instance

end Lists

/-! ## Groups and expressions

What is skipped are pieces, and a piece closes no bracket that it has not opened. -/

/-- Pieces side by side close nothing in front of them. -/
theorem of_pieces {ps : List (List Token)} (hps : ∀ p ∈ ps, Piece p)
    (h : c.rest = ps.flatten ++ d.rest) :
    c.Shuts 0 d :=
  ⟨ps.flatten, h, exists_level_flatten hps⟩

/-- A group is a piece, and so is a token that is taken for one. -/
instance : Shuts 0 f skipGroup where
  shuts {c d a} _ _ h := by
    by_cases ho : c.current.isOpener = true
    · obtain ⟨p, hp, hr⟩ := exists_piece_of_skipGroup ho h
      exact of_pieces (List.forall_mem_singleton.2 hp) (by rw [hr, List.flatten_singleton])
    unfold skipGroup at h
    rw [get_bind] at h
    cases hr : c.rest with
    | nil => rw [hr] at h; cases h
    | cons t l =>
      rw [Cursor.current_of_cons hr] at ho
      rw [hr, scanGroup?, if_neg ho] at h
      by_cases hclose : t.isCloser = true
      · rw [if_pos hclose] at h
        obtain ⟨_, _, -, h₂⟩ := bind_eq_ok.1 h
        cases h₂
      · rw [if_neg hclose] at h
        have hplain : ∀ u ∈ c.rest.head?, u.isOpener = false ∧ u.isCloser = false := by
          rw [hr]
          rintro _ ⟨⟩
          exact ⟨Bool.eq_false_iff.2 ho, Bool.eq_false_iff.2 hclose⟩
        obtain ⟨ps, hps, hrest⟩ := exists_pieces_of_advance h hplain
        exact of_pieces hps hrest

/-- A round of an expression consumes pieces, if it consumes anything. -/
instance (first : Bool) : Shuts 0 f (expressionRound first) where
  shuts _ _ h := by
    obtain ⟨-, rfl, -⟩ | ⟨-, ps, hps, hr⟩ := expressionRound_cases h
    · exact .refl 0 _
    · exact of_pieces hps hr

instance : Shuts 0 f skipExpression := by unfold skipExpression; infer_instance

end Shuts

end Parser

end Exemplar
