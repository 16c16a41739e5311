import Exemplar.Grammar.Statements
import Exemplar.Proofs.Token.Tokens

/-!
# Running parsers

A parser is a function on cursors that answers with a value and a later cursor, or stops. This
module says what the primitive parsers do to a cursor, one equation each, and how to take a run
apart: a run of `p >>= f` that succeeds is a run of `p` that succeeds, and a run of `f` on its
answer.

The second half is about the one thing all parsers have in common. A parser only ever drops
tokens from the front of what is left, and never touches how the tokens end (`Moves`). Whether a
parser moves is decided by its form alone, so the fact is a class, and its instances follow the
way parsers are put together.

The end of the tokens needs some care. A source may end within a literal or a comment, and then
there is a fault behind its last token. The fault is not reported where the tokens end but when
a parser wants to consume the last one, or looks beyond it. So whoever has come to the end has
made sure that there is no fault (`Passes`), unless he started there. And whatever stops a run,
it is either the fault or a token that was the current one at some place on the way, which is
why errors can be located in the source (`Halt.StopsFrom`).
-/

namespace Exemplar

/-- The cursor behind its first token. -/
def Cursor.past (c : Cursor) (t : Token) (more : List Token) : Cursor :=
  { c with rest := more, last := some t, lastStop := t.stop }

/-- The token behind the current one. -/
def Cursor.second (c : Cursor) : Token := c.rest[1]?.getD c.ending.token

namespace Cursor

variable (c : Cursor) (t : Token) (more : List Token)

@[simp] theorem past_rest : (c.past t more).rest = more := rfl

@[simp] theorem past_ending : (c.past t more).ending = c.ending := rfl

@[simp] theorem past_last : (c.past t more).last = some t := rfl

variable {c t more}

/-- The current token is the first of those that are left. -/
theorem current_of_cons (h : c.rest = t :: more) : c.current = t := by
  simp [current, h]

/-- If none is left, it is the one that ends the source. -/
theorem current_of_nil (h : c.rest = []) : c.current = c.ending.token := by
  simp [current, h]

/-- The second token is the current one once the first is consumed. -/
theorem second_of_cons (h : c.rest = t :: more) : c.second = (c.past t more).current := by
  rw [second, h]
  cases more <;> rfl

/-- A word can only be the current token if a token is left. -/
theorem exists_of_is (he : c.ending.Clean) {w : String} (h : c.current.is w = true) :
    ∃ t more, c.rest = t :: more ∧ t.is w = true := by
  cases hr : c.rest with
  | nil => rw [current_of_nil hr, he.is_eq_false] at h; cases h
  | cons t more => exact ⟨t, more, rfl, by rwa [current_of_cons hr] at h⟩

/-- An identifier can only be the current token if a token is left. -/
theorem exists_of_isIdent (he : c.ending.Clean) (h : c.current.isIdent = true) :
    ∃ t more, c.rest = t :: more ∧ t.isIdent = true := by
  cases hr : c.rest with
  | nil => rw [current_of_nil hr, Token.isIdent, he.kind] at h; cases h
  | cons t more => exact ⟨t, more, rfl, by rwa [current_of_cons hr] at h⟩

/-! ## Consuming tokens one after the other

Of two places it is said that one is reached from the other, without a parser that goes there.
So the relation can be followed through the parts of a parser and forgotten about them. -/

/-- A cursor comes to another place by consuming tokens. -/
inductive Reaches : Cursor → Cursor → Prop
  /-- It is there already. -/
  | refl (c : Cursor) : Reaches c c
  /-- It consumes a token and goes on. -/
  | past {c c' : Cursor} {t : Token} {more : List Token} (hr : c.rest = t :: more)
    (h : Reaches (c.past t more) c') : Reaches c c'

namespace Reaches

variable {c c' c'' : Cursor}

/-- Going on from where one has come to. -/
theorem trans (h : c.Reaches c') (h' : c'.Reaches c'') : c.Reaches c'' := by
  induction h with
  | refl => exact h'
  | past hr _ ih => exact .past hr (ih h')

/-- What is left at a place is the end of what was left before. -/
theorem suffix (h : c.Reaches c') : c'.rest <:+ c.rest := by
  induction h with
  | refl => exact List.suffix_refl _
  | past hr _ ih => rw [hr]; exact ih.trans (List.suffix_cons _ _)

/-- The end stays what it is. -/
theorem ending (h : c.Reaches c') : c'.ending = c.ending := by
  induction h with
  | refl => rfl
  | past _ _ ih => exact ih

end Reaches

/-- A cursor comes to another place, and to the end only if nothing is left open there. -/
structure Passes (c c' : Cursor) : Prop where
  /-- The tokens between are consumed. -/
  reaches : c.Reaches c'
  /-- Who comes to the end has made sure that nothing is left open. -/
  fault_of_nil : c'.rest = [] → c.rest = [] ∨ c.ending.fault = none

/-- The second run has made sure of what is behind the end, or has started there already. -/
theorem Passes.trans {c c' c'' : Cursor} (h : c.Passes c') (h' : c'.Passes c'') :
    c.Passes c'' where
  reaches := h.reaches.trans h'.reaches
  fault_of_nil hr := (h'.fault_of_nil hr).elim h.fault_of_nil fun hf =>
    .inr (h.reaches.ending ▸ hf)

end Cursor

/-! ## Why a run stops -/

namespace Halt

/-- What stopped a run from the place `c` is read off the source: the fault at the end of the
tokens, or the current token of a place the run has come to. A place at the end is come to only
if nothing is left open there. -/
def StopsFrom (c : Cursor) : Halt → Prop
  | .lexical fault range => c.ending.fault = some fault ∧ range = c.ending.range?
  | .unexpected _ t => ∃ c', c.Reaches c' ∧ c'.current = t ∧
      (c'.rest = [] → c.rest = [] ∨ c.ending.fault = none)
  | .crash _ | .exhausted => True

/-- What stops a run from a later place stops it from an earlier one. -/
theorem StopsFrom.of_reaches {e : Halt} {c c₁ : Cursor} (h : c.Reaches c₁)
    (hnil : c₁.rest = [] → c.rest = [] ∨ c.ending.fault = none) (he : e.StopsFrom c₁) :
    e.StopsFrom c := by
  cases e with
  | lexical fault range =>
    rw [StopsFrom, h.ending] at he
    exact he
  | unexpected complaint t =>
    obtain ⟨c', hreach, hcurrent, hend⟩ := he
    refine ⟨c', h.trans hreach, hcurrent, fun hr => ?_⟩
    rcases hend hr with hr₁ | hf
    · exact hnil hr₁
    · exact .inr (h.ending ▸ hf)
  | crash => trivial
  | exhausted => trivial

end Halt

namespace Parser

variable {α β σ : Type} {c c' : Cursor}

/-! ## Sequences and branches

A sequence is taken apart into its steps, forwards if it is known how each runs, and backwards
if it is known how the whole ran. -/

/-- Answering changes nothing. -/
theorem pure_run (a : α) (c : Cursor) : (pure a : Parser α) c = .ok (a, c) := rfl

/-- **A run of a sequence is a run of its parts.** -/
theorem bind_eq_ok {p : Parser α} {f : α → Parser β} {b : β} :
    (p >>= f) c = .ok (b, c') ↔ ∃ a c₁, p c = .ok (a, c₁) ∧ f a c₁ = .ok (b, c') := by
  show (p c >>= fun r => f r.1 r.2) = _ ↔ _
  cases hp : p c with
  | error e => simp [bind, Except.bind]
  | ok r =>
    refine ⟨fun h => ⟨r.1, r.2, rfl, h⟩, ?_⟩
    rintro ⟨a, c₁, h, h'⟩
    cases h
    exact h'

/-- A sequence runs on from where its first part stops. -/
theorem bind_of_ok {p : Parser α} {a : α} (h : p c = .ok (a, c')) (f : α → Parser β) :
    (p >>= f) c = f a c' := by
  show (p c >>= fun r => f r.1 r.2) = _
  rw [h]; rfl

/-- A sequence stops where its first part stops. -/
theorem bind_of_error {p : Parser α} {e : Halt} (h : p c = .error e) (f : α → Parser β) :
    (p >>= f) c = .error e := by
  show (p c >>= fun r => f r.1 r.2) = _
  rw [h]; rfl

/-- A sequence stops in its first part, or in the second where the first has succeeded. -/
theorem bind_eq_error {p : Parser α} {f : α → Parser β} {e : Halt} (h : (p >>= f) c = .error e) :
    p c = .error e ∨ ∃ a c₁, p c = .ok (a, c₁) ∧ f a c₁ = .error e := by
  cases hp : p c with
  | error e' =>
    rw [bind_of_error hp] at h
    cases h
    exact .inl rfl
  | ok r =>
    rw [bind_of_ok (show p c = .ok (r.1, r.2) from hp)] at h
    exact .inr ⟨r.1, r.2, rfl, h⟩

/-- So the answer is the one given, and the place is the same. -/
theorem pure_eq_ok {a b : α} : (pure a : Parser α) c = .ok (b, c') ↔ a = b ∧ c = c' := by
  simp [pure_run]

/-- A branch is chosen before it runs. -/
theorem ite_run (P : Prop) [Decidable P] (p q : Parser α) (c : Cursor) :
    (if P then p else q) c = if P then p c else q c := by
  split <;> rfl

/-! ## Looking

What only looks leaves the cursor alone, so a sequence that starts with it runs on at once. -/

theorem current_bind (f : Token → Parser β) : (current >>= f) c = f c.current c := rfl

theorem is_bind (w : String) (f : Bool → Parser β) : (is w >>= f) c = f (c.current.is w) c := rfl

theorem isIdent_bind (f : Bool → Parser β) : (isIdent >>= f) c = f c.current.isIdent c := rfl

theorem isEof_bind (f : Bool → Parser β) : (isEof >>= f) c = f c.current.isEof c := rfl

theorem here_bind (f : Position → Parser β) : (here >>= f) c = f c.current.start c := rfl

theorem spanFrom_bind (s : Position) (f : Span → Parser β) :
    (spanFrom s >>= f) c = f ⟨s, c.lastStop⟩ c := rfl

theorem get_bind (f : Cursor → Parser β) : ((get : Parser Cursor) >>= f) c = f c c := rfl

/-- A fault at the end is reported by whoever reaches it. -/
theorem reachEnd_of_fault {fault : LexicalFault} (hf : c.ending.fault = some fault) :
    reachEnd c = .error (.lexical fault c.ending.range?) := by
  unfold reachEnd
  rw [get_bind, hf]; rfl

/-- Where there is none, the end is passed. -/
theorem reachEnd_run (hf : c.ending.fault = none) : reachEnd c = .ok ((), c) := by
  unfold reachEnd
  rw [get_bind, hf]; rfl

/-- The end can only be passed where nothing is left open. -/
theorem reachEnd_eq_ok {u : Unit} (h : reachEnd c = .ok (u, c')) :
    c.ending.fault = none ∧ c' = c := by
  cases hf : c.ending.fault with
  | none => rw [reachEnd_run hf] at h; cases h; exact ⟨rfl, rfl⟩
  | some fault => rw [reachEnd_of_fault hf] at h; cases h

/-- Looking ahead answers a token and moves nothing. -/
theorem peek_eq_ok {n : Nat} {t : Token} :
    peek (n + 1) c = .ok (t, c') ↔
      c = c' ∧ (c.rest[n + 1]? = some t ∨
        (c.rest[n + 1]? = none ∧ c.ending.fault = none ∧ c.ending.token = t)) := by
  rw [peek, get_bind]
  cases h : c.rest[n + 1]? with
  | some u => simp [pure_run, and_comm]
  | none =>
    cases hf : c.ending.fault with
    | none => simp [bind_of_ok (reachEnd_run hf), pure_run, and_comm]
    | some fault => simp [bind_of_error (reachEnd_of_fault hf)]

/-- Looking ahead where nothing is left open. -/
theorem peek_run (hf : c.ending.fault = none) (n : Nat) :
    peek (n + 1) c = .ok ((c.rest[n + 1]?).getD c.ending.token, c) := by
  rw [peek_eq_ok]
  cases h : c.rest[n + 1]? with
  | some t => simp
  | none => simp [hf]

/-! ## Consuming

The current token is dropped. If it was the last one, the end is reached, and a fault that is
there stops the run. -/

/-- At the end nothing is left to consume. -/
theorem advance_of_nil (hr : c.rest = []) : advance c = .ok (c.ending.token, c) := by
  unfold advance
  rw [get_bind, hr]; rfl

/-- Before the end the first token is dropped. -/
theorem advance_of_cons {t : Token} {more : List Token} (hr : c.rest = t :: more) :
    advance c = if more.isEmpty = true
    then (do reachEnd; return t : Parser Token) (c.past t more)
      else .ok (t, c.past t more) := by
  unfold advance
  rw [get_bind, hr]
  show ((if more.isEmpty = true then (do reachEnd; pure t) else pure t) : Parser Token)
    (c.past t more) = _
  rw [ite_run]; rfl

/-- Where nothing is left open that always succeeds. -/
theorem advance_run_cons {t : Token} {more : List Token} (hr : c.rest = t :: more)
    (hf : c.ending.fault = none) : advance c = .ok (t, c.past t more) := by
  rw [advance_of_cons hr]
  split
  · rw [bind_of_ok (reachEnd_run (c := c.past t more) hf)]; rfl
  · rfl

/-- Consuming succeeds by dropping the first token, or by staying at the end. -/
theorem advance_eq_ok {t : Token} (h : advance c = .ok (t, c')) :
    (c.rest = [] ∧ c' = c ∧ t = c.ending.token) ∨
      ∃ more, c.rest = t :: more ∧ c' = c.past t more := by
  cases hr : c.rest with
  | nil =>
    rw [advance_of_nil hr] at h
    cases h
    exact .inl ⟨rfl, rfl, rfl⟩
  | cons u more =>
    rw [advance_of_cons hr] at h
    right
    split at h
    · obtain ⟨_, c₁, h₁, h₂⟩ := bind_eq_ok.1 h
      obtain ⟨rfl, rfl⟩ := pure_eq_ok.1 h₂
      exact ⟨more, rfl, (reachEnd_eq_ok h₁).2⟩
    · cases h
      exact ⟨more, rfl, rfl⟩

/-- Consuming the last token makes sure that nothing is left open behind it. -/
theorem fault_of_advance {t : Token} (h : advance c = .ok (t, c')) (hr : c'.rest = []) :
    c.rest = [] ∨ c.ending.fault = none := by
  rcases advance_eq_ok h with ⟨hr', -, -⟩ | ⟨more, hr', rfl⟩
  · exact .inl hr'
  · have hm : more = [] := hr
    subst hm
    cases hf : c.ending.fault with
    | none => exact .inr rfl
    | some fault =>
      rw [advance_of_cons hr', if_pos List.isEmpty_nil,
        bind_of_error (reachEnd_of_fault (c := c.past t []) hf)] at h
      cases h

/-- A word is consumed if it is the current token. -/
theorem got_run (w : String) : got w c =
    if c.current.is w = true then (do let _ ← advance; return true : Parser Bool) c
    else .ok (false, c) := by
  show (if c.current.is w = true then (do let _ ← advance; return true : Parser Bool)
    else (return false)) c = _
  rw [ite_run]; rfl

/-- If it is expected, its absence is an error. -/
theorem expect_run (w : String) : expect w c =
    if c.current.is w = true then (do let _ ← advance; return () : Parser Unit) c
    else .error (.unexpected (.expected w) c.current) := by
  show (if c.current.is w = true then (do let _ ← advance; return () : Parser Unit)
    else fail (.expected w)) c = _
  rw [ite_run]; rfl

/-- A word that was consumed was the current token, and one that was not was not. -/
theorem got_eq_ok {w : String} {b : Bool} (h : got w c = .ok (b, c')) :
    b = c.current.is w ∧ ((b = false ∧ c' = c) ∨ (b = true ∧ ∃ t, advance c = .ok (t, c'))) := by
  rw [got_run] at h
  split at h
  · obtain ⟨t, c₁, h₁, h₂⟩ := bind_eq_ok.1 h
    obtain ⟨rfl, rfl⟩ := pure_eq_ok.1 h₂
    exact ⟨by simp_all, .inr ⟨rfl, t, h₁⟩⟩
  · cases h
    exact ⟨by simp_all, .inl ⟨rfl, rfl⟩⟩

/-- A word that was expected was the current token. -/
theorem expect_eq_ok {w : String} {u : Unit} (h : expect w c = .ok (u, c')) :
    c.current.is w = true ∧ ∃ t, advance c = .ok (t, c') := by
  rw [expect_run] at h
  split at h
  · obtain ⟨t, c₁, h₁, h₂⟩ := bind_eq_ok.1 h
    obtain ⟨-, rfl⟩ := pure_eq_ok.1 h₂
    exact ⟨by assumption, t, h₁⟩
  · cases h

/-- Two tokens that pass their tests. -/
theorem ahead_eq_true {f g : Token → Bool} (h : ahead f g c = .ok (true, c')) :
    f c.current = true ∧ ∃ t, peek 1 c = .ok (t, c') ∧ g t = true := by
  rw [ahead, current_bind, ite_run] at h
  split at h
  · obtain ⟨t, c₁, h₁, h₂⟩ := bind_eq_ok.1 h
    obtain ⟨ht, rfl⟩ := pure_eq_ok.1 h₂
    exact ⟨by assumption, t, h₁, ht⟩
  · cases h

/-! ## Runs up to a proper end

Where the tokens end with the source, a parser that asks for a word can only have found it among
the tokens. -/

/-- Before the end, a run that consumes drops a token. -/
theorem advance_inv {t : Token} (hne : c.rest ≠ []) (h : advance c = .ok (t, c')) :
    ∃ more, c.rest = t :: more ∧ c' = c.past t more := by
  rcases advance_eq_ok h with ⟨hr, -, -⟩ | h'
  · exact absurd hr hne
  · exact h'

section Clean

variable (he : c.ending.Clean)
include he

/-- A word that was consumed is dropped, and one that was not is not there. -/
theorem got_inv {w : String} {b : Bool} (h : got w c = .ok (b, c')) :
    (b = false ∧ c' = c ∧ c.current.is w = false) ∨
      (b = true ∧ ∃ t more, c.rest = t :: more ∧ t.is w = true ∧ c' = c.past t more) := by
  obtain ⟨hb, ⟨rfl, rfl⟩ | ⟨rfl, t, ht⟩⟩ := got_eq_ok h
  · exact .inl ⟨rfl, rfl, hb.symm⟩
  · obtain ⟨u, more, hr, hu⟩ := Cursor.exists_of_is he hb.symm
    obtain ⟨more', hr', rfl⟩ := advance_inv (by rw [hr]; exact List.cons_ne_nil _ _) ht
    rw [hr] at hr'
    obtain ⟨rfl, rfl⟩ := List.cons.inj hr'
    exact .inr ⟨rfl, u, more, hr, hu, rfl⟩

/-- A run that goes on with whether a word was consumed. -/
theorem got_bind_inv {w : String} {k : Bool → Parser α} {a : α}
    (h : (got w >>= k) c = .ok (a, c')) :
    (c.current.is w = false ∧ k false c = .ok (a, c')) ∨
      (c.current.is w = true ∧ ∃ t more,
        c.rest = t :: more ∧ k true (c.past t more) = .ok (a, c')) := by
  obtain ⟨b, c₁, h₁, h₂⟩ := bind_eq_ok.1 h
  rcases got_inv he h₁ with ⟨rfl, rfl, hw⟩ | ⟨rfl, t, more, hr, ht, rfl⟩
  · exact .inl ⟨hw, h₂⟩
  · exact .inr ⟨by rwa [Cursor.current_of_cons hr], t, more, hr, h₂⟩

/-- A word that was expected is dropped. -/
theorem expect_inv {w : String} {u : Unit} (h : expect w c = .ok (u, c')) :
    ∃ t more, c.rest = t :: more ∧ t.is w = true ∧ c' = c.past t more := by
  obtain ⟨hw, t, ht⟩ := expect_eq_ok h
  obtain ⟨v, more, hr, hv⟩ := Cursor.exists_of_is he hw
  obtain ⟨more', hr', rfl⟩ := advance_inv (by rw [hr]; exact List.cons_ne_nil _ _) ht
  rw [hr] at hr'
  obtain ⟨rfl, rfl⟩ := List.cons.inj hr'
  exact ⟨v, more, hr, hv, rfl⟩

/-- Looking at two tokens. -/
theorem ahead_run (f g : Token → Bool) :
    ahead f g c = .ok (f c.current && g c.second, c) := by
  show (if f c.current = true then (do return g (← peek 1)) else return false : Parser Bool) c
    = _
  rw [ite_run]
  split
  · rename_i hf
    rw [bind_of_ok (peek_run he.fault 0), hf]; rfl
  · rename_i hf
    rw [Bool.eq_false_iff.2 hf]; rfl

/-- Looking at three tokens moves nothing, and finds the first two before the third. -/
theorem ahead₃_eq_ok {f g k : Token → Bool} {b : Bool} (h : ahead₃ f g k c = .ok (b, c')) :
    c' = c ∧ (b = true → f c.current = true ∧ g c.second = true) := by
  unfold ahead₃ at h
  rw [bind_of_ok (ahead_run he f g), ite_run] at h
  split at h
  · rename_i hfg
    rw [bind_of_ok (peek_run he.fault 1)] at h
    obtain ⟨-, rfl⟩ := pure_eq_ok.1 h
    exact ⟨rfl, fun _ => Bool.and_eq_true_iff.1 hfg⟩
  · obtain ⟨rfl, rfl⟩ := pure_eq_ok.1 h
    exact ⟨rfl, nofun⟩

end Clean

/-- An item is read behind the comma before it. -/
theorem itemBefore_eq_some {closer : String} {item : Parser α} {a : α}
    (h : itemBefore closer item c = .ok (some a, c')) :
    ∃ c₁, got "," c = .ok (true, c₁) ∧ item c₁ = .ok (a, c') := by
  obtain ⟨comma, c₁, hcomma, h⟩ := bind_eq_ok.1 h
  cases comma with
  | false => cases h
  | true =>
    rw [if_pos rfl, is_bind, ite_run] at h
    split at h
    · cases h
    · obtain ⟨b, c₂, hitem, h⟩ := bind_eq_ok.1 h
      cases h
      exact ⟨c₁, hcomma, hitem⟩

/-- A loop has a round for each token that is left, and one more for the end. -/
theorem collect_run (next : Parser (Option α)) (c : Cursor) :
    collect next c = collectUpTo next (c.rest.length + 1) c := rfl

/-- The same for a loop over a state. -/
theorem iterate_run (step : σ → Parser (Option σ)) (s : σ) (c : Cursor) :
    iterate step s c = iterateUpTo step (c.rest.length + 1) s c := rfl

/-- One round of a loop that lists its answers. -/
theorem collectUpTo_eq_ok {next : Parser (Option α)} {n : Nat} {as : List α}
    (h : collectUpTo next n c = .ok (as, c')) :
    ∃ m, n = m + 1 ∧ ((as = [] ∧ next c = .ok (none, c')) ∨
      ∃ a as' c₁, as = a :: as' ∧ next c = .ok (some a, c₁) ∧
        collectUpTo next m c₁ = .ok (as', c')) := by
  cases n with
  | zero => cases h
  | succ m =>
    obtain ⟨o, c₁, h₁, h₂⟩ := bind_eq_ok.1 h
    refine ⟨m, rfl, ?_⟩
    cases o with
    | none =>
      obtain ⟨rfl, rfl⟩ := pure_eq_ok.1 h₂
      exact .inl ⟨rfl, h₁⟩
    | some a =>
      obtain ⟨as', c₂, h₃, h₄⟩ := bind_eq_ok.1 h₂
      obtain ⟨rfl, rfl⟩ := pure_eq_ok.1 h₄
      exact .inr ⟨a, as', c₁, rfl, h₁, h₃⟩

/-- The last round of a loop ends it. -/
theorem last_of_collectUpTo {next : Parser (Option α)} (n : Nat) : ∀ {c : Cursor} {as : List α},
    collectUpTo next n c = .ok (as, c') → ∃ c₁, next c₁ = .ok (none, c') := by
  induction n with
  | zero => intro c as h; cases h
  | succ n ih =>
    intro c as h
    obtain ⟨m, hm, ⟨-, h₁⟩ | ⟨a, as, c₁, -, -, h₂⟩⟩ := collectUpTo_eq_ok h
    · exact ⟨c, h₁⟩
    · cases hm
      exact ih h₂

/-- One round of a loop over a state. -/
theorem iterateUpTo_eq_ok {step : σ → Parser (Option σ)} {n : Nat} {s s' : σ}
    (h : iterateUpTo step n s c = .ok (s', c')) :
    ∃ m, n = m + 1 ∧ ((s' = s ∧ step s c = .ok (none, c')) ∨
      ∃ s₁ c₁, step s c = .ok (some s₁, c₁) ∧ iterateUpTo step m s₁ c₁ = .ok (s', c')) := by
  cases n with
  | zero => cases h
  | succ m =>
    obtain ⟨o, c₁, h₁, h₂⟩ := bind_eq_ok.1 h
    refine ⟨m, rfl, ?_⟩
    cases o with
    | none =>
      obtain ⟨rfl, rfl⟩ := pure_eq_ok.1 h₂
      exact .inl ⟨rfl, h₁⟩
    | some s₁ => exact .inr ⟨s₁, c₁, h₁, h₂⟩

/-- A round that ends a loop over a state. -/
theorem iterateUpTo_of_none {step : σ → Parser (Option σ)} {s : σ}
    (h : step s c = .ok (none, c'))
    (n : Nat) : iterateUpTo step (n + 1) s c = .ok (s, c') := by
  rw [iterateUpTo, bind_of_ok h]; rfl

/-- A round that goes on with a loop over a state. -/
theorem iterateUpTo_of_some {step : σ → Parser (Option σ)} {s s' : σ}
    (h : step s c = .ok (some s', c')) (n : Nat) :
    iterateUpTo step (n + 1) s c = iterateUpTo step n s' c' := by
  rw [iterateUpTo, bind_of_ok h]

/-! ## Running on a source

A source without tokens is at its end at once, so a fault is reported before anything else. -/

/-- The place before the first token of a source. -/
def startOf (source : Text) : Cursor :=
  ⟨source, (TokenStream.lex source).tokens, (TokenStream.lex source).ending, none, .unset⟩

/-- A run on a source stops because something is left open in a source without tokens, or it
stops on the way from the first token. -/
theorem run_eq_error {p : Parser α} {source : Text} {e : Halt} (h : run p source = .error e) :
    (∃ fault, (startOf source).ending.fault = some fault ∧
        e = .lexical fault (startOf source).ending.range?) ∨
      (((startOf source).rest = [] → (startOf source).ending.fault = none) ∧
        p (startOf source) = .error e) := by
  have h' : ((if (TokenStream.lex source).tokens.isEmpty = true then (do reachEnd; p) else p :
      Parser α) (startOf source) >>= fun r => (pure r.1 : Except Halt α)) = .error e := h
  -- Only the place where the run ends is dropped.
  have key : ∀ {q : Parser α} {c : Cursor},
      (q c >>= fun r => (pure r.1 : Except Halt α)) = .error e → q c = .error e := by
    intro q c hq
    cases hr : q c with
    | error e' => rw [hr] at hq; cases hq; rfl
    | ok r => rw [hr] at hq; cases hq
  replace h' := key h'
  rw [ite_run] at h'
  split at h'
  · cases hf : (startOf source).ending.fault with
    | some fault =>
      rw [bind_of_error (reachEnd_of_fault hf)] at h'
      cases h'
      exact .inl ⟨fault, rfl, rfl⟩
    | none =>
      rw [bind_of_ok (reachEnd_run hf)] at h'
      exact .inr ⟨fun _ => rfl, h'⟩
  · rename_i hne
    exact .inr ⟨fun hr => absurd (List.isEmpty_iff.2 hr) hne, h'⟩

/-! ## Answers

What a parser answers often has a form that depends on its last step alone, whatever was read
before. So a property of answers goes through a sequence to its end and through a branch to both
sides. -/

/-- Whatever a parser answers, `P` holds of it. -/
def Answers (p : Parser α) (P : α → Prop) : Prop :=
  ∀ {c c' : Cursor} {a : α}, p c = .ok (a, c') → P a

/-- An answer that is given. -/
theorem Answers.pure {a : α} {P : α → Prop} (h : P a) : Answers (Pure.pure a : Parser α) P :=
  fun hp => (pure_eq_ok.1 hp).1 ▸ h

/-- A sequence answers what its last part answers. -/
theorem Answers.bind {p : Parser α} {f : α → Parser β} {P : β → Prop}
    (h : ∀ a, Answers (f a) P) : Answers (p >>= f) P := fun hp => by
  obtain ⟨a, c₁, -, h₂⟩ := bind_eq_ok.1 hp
  exact h a h₂

/-- A branch answers what one of its sides answers. -/
theorem Answers.ite {C : Prop} [Decidable C] {p q : Parser α} {P : α → Prop} (hp : Answers p P)
    (hq : Answers q P) : Answers (if C then p else q) P := fun h => by
  rw [ite_run] at h
  split at h
  · exact hp h
  · exact hq h

/-! ## Parsers only move forward

Three facts are needed of every parser: its run goes to a later place, it comes to the end only
where nothing is left open, and what stops it is on its way. They belong together, since a
sequence needs all of them of its first part to have the third. -/

/-- A parser only consumes tokens, one after the other, and leaves the end alone. -/
class Moves (p : Parser α) : Prop where
  /-- A run ends at a place that is reached by consuming tokens. -/
  reaches_of_ok : ∀ {c c' : Cursor} {a : α}, p c = .ok (a, c') → c.Reaches c'
  /-- A run that comes to the end has made sure that nothing is left open there. -/
  fault_of_ok : ∀ {c c' : Cursor} {a : α}, p c = .ok (a, c') → c'.rest = [] →
    c.rest = [] ∨ c.ending.fault = none
  /-- A run that stops has a reason for it on its way. -/
  stopsFrom_of_error : ∀ {c : Cursor} {e : Halt}, p c = .error e → e.StopsFrom c

namespace Moves

/-- What is left after a run is the end of what was left before. -/
theorem suffix_of_ok {p : Parser α} [Moves p] {a : α} (h : p c = .ok (a, c')) :
    c'.rest <:+ c.rest :=
  (reaches_of_ok h).suffix

/-- The end is the same after a run. -/
theorem ending_of_ok {p : Parser α} [Moves p] {a : α} (h : p c = .ok (a, c')) :
    c'.ending = c.ending :=
  (reaches_of_ok h).ending

/-- The first two in one. -/
theorem passes_of_ok {p : Parser α} [Moves p] {a : α} (h : p c = .ok (a, c')) : c.Passes c' :=
  ⟨reaches_of_ok h, fault_of_ok h⟩

instance (a : α) : Moves (pure a : Parser α) where
  reaches_of_ok h := by cases h; exact .refl _
  fault_of_ok h hr := by cases h; exact .inl hr
  stopsFrom_of_error h := by cases h

/-- A parser that stops at once moves, if it has a reason. -/
theorem of_throw {e : Halt} (he : ∀ c, e.StopsFrom c) : Moves (throw e : Parser α) where
  reaches_of_ok h := by cases h
  fault_of_ok h := by cases h
  stopsFrom_of_error h := by cases h; exact he _

instance (cause : Crash) : Moves (throw (.crash cause) : Parser α) := of_throw fun _ => trivial

instance : Moves (throw .exhausted : Parser α) := of_throw fun _ => trivial

instance bind (p : Parser α) (f : α → Parser β) [Moves p] [∀ a, Moves (f a)] :
    Moves (p >>= f) where
  reaches_of_ok h := by
    obtain ⟨a, c₁, h₁, h₂⟩ := bind_eq_ok.1 h
    exact (reaches_of_ok h₁).trans (reaches_of_ok h₂)
  fault_of_ok h hr := by
    obtain ⟨a, c₁, h₁, h₂⟩ := bind_eq_ok.1 h
    exact ((passes_of_ok h₁).trans (passes_of_ok h₂)).fault_of_nil hr
  stopsFrom_of_error h := by
    rcases bind_eq_error h with h₁ | ⟨a, c₁, h₁, h₂⟩
    · exact stopsFrom_of_error h₁
    · exact (stopsFrom_of_error h₂).of_reaches (reaches_of_ok h₁) (fault_of_ok h₁)

instance ite (P : Prop) [Decidable P] (p q : Parser α) [Moves p] [Moves q] :
    Moves (if P then p else q) := by
  split <;> assumption

/-- A parser that answers without changing its cursor moves, if it stops only at what is left
open at the end. -/
theorem of_still {p : Parser α} (h : ∀ {c c' : Cursor} {a : α}, p c = .ok (a, c') → c' = c)
    (he : ∀ {c : Cursor} {e : Halt}, p c = .error e → e.StopsFrom c) : Moves p where
  reaches_of_ok hp := h hp ▸ .refl _
  fault_of_ok hp hr := .inl (by rwa [← h hp])
  stopsFrom_of_error hp := he hp

instance : Moves (get : Parser Cursor) := of_still (fun h => by cases h; rfl) nofun

instance : Moves current := of_still (fun h => by cases h; rfl) nofun

instance (w : String) : Moves (is w) := of_still (fun h => by cases h; rfl) nofun

instance : Moves isIdent := of_still (fun h => by cases h; rfl) nofun

instance : Moves isEof := of_still (fun h => by cases h; rfl) nofun

instance : Moves here := of_still (fun h => by cases h; rfl) nofun

instance (s : Position) : Moves (spanFrom s) := of_still (fun h => by cases h; rfl) nofun

/-- The end stops a parser with what is left open there. -/
theorem stopsFrom_of_reachEnd {e : Halt} (h : reachEnd c = .error e) : e.StopsFrom c := by
  cases hf : c.ending.fault with
  | none => rw [reachEnd_run hf] at h; cases h
  | some fault => rw [reachEnd_of_fault hf] at h; cases h; exact ⟨hf, rfl⟩

instance : Moves reachEnd := of_still (fun h => (reachEnd_eq_ok h).2) stopsFrom_of_reachEnd

instance (n : Nat) : Moves (peek n) := of_still
  (fun h => by
    cases n with
    | zero => cases h
    | succ n => exact (peek_eq_ok.1 h).1.symm)
  (fun {c e} h => by
    cases n with
    | zero => cases h; trivial
    | succ n =>
      rw [peek, get_bind] at h
      cases ht : c.rest[n + 1]? with
      | some t => rw [ht] at h; cases h
      | none =>
        rw [ht] at h
        rcases bind_eq_error h with h₁ | ⟨_, c₁, -, h₂⟩
        · exact stopsFrom_of_reachEnd h₁
        · cases h₂)

instance (x : Complaint) : Moves (fail x : Parser α) where
  reaches_of_ok h := by cases h
  fault_of_ok h := by cases h
  stopsFrom_of_error h := by cases h; exact ⟨_, .refl _, rfl, .inl⟩

instance : Moves advance where
  reaches_of_ok h := by
    rcases advance_eq_ok h with ⟨-, rfl, -⟩ | ⟨more, hr, rfl⟩
    · exact .refl _
    · exact .past hr (.refl _)
  fault_of_ok h hr := fault_of_advance h hr
  stopsFrom_of_error {c e} h := by
    cases hr : c.rest with
    | nil => rw [advance_of_nil hr] at h; cases h
    | cons t more =>
      rw [advance_of_cons hr] at h
      split at h
      · -- what is left open behind a token is left open in front of it
        rcases bind_eq_error h with h₁ | ⟨_, c₁, -, h₂⟩
        · cases hf : c.ending.fault with
          | none => rw [reachEnd_run (c := c.past t more) hf] at h₁; cases h₁
          | some fault =>
            rw [reachEnd_of_fault (c := c.past t more) hf] at h₁
            cases h₁
            exact ⟨hf, rfl⟩
        · cases h₂
      · cases h

instance advanceBy (n : Nat) : Moves (advanceBy n) := by
  induction n with
  | zero => exact inferInstanceAs (Moves (pure ()))
  | succ n ih => unfold Parser.advanceBy; infer_instance

instance (w : String) : Moves (got w) := by unfold got; infer_instance

instance (w : String) : Moves (expect w) := by unfold expect; infer_instance

instance (f g : Token → Bool) : Moves (ahead f g) := by unfold ahead; infer_instance

instance (f g h : Token → Bool) : Moves (ahead₃ f g h) := by unfold ahead₃; infer_instance

end Moves

end Parser

end Exemplar
