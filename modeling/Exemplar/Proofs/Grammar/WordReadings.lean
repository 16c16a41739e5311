import Exemplar.Proofs.Grammar.Running
import Exemplar.Proofs.Token.Words
import Mathlib.Data.List.Forall2

/-!
# What a parser reads

`Reads p ws F Q` says that on tokens with the words `ws`, followed by a word of `F`, the parser
`p` succeeds, consumes exactly those tokens, and answers with something of which `Q` holds.
`Sees` is the same for parsers that only look. The end of the source counts as a word, so `F`
says whether a reading may end there.

Neither asks where a token stands, only what it is, for no rule of the grammar decides anything
by the place of a token. A reading of a sequence is put together from readings of its parts, and
the condition on what may follow a part is a condition on the words of the next.

There is one rule for each way of putting parsers together, and it is named after that: to show
what a rule of the grammar reads, one follows its text from the top and applies the rule for
each step. What has been read up to a step is no longer mentioned behind it, since the words
that are left and the property of the answer say all.

Loops are read by induction on their rounds (`Reads.collect`, `Reads.iterate`). A loop is given
one round for each token ahead, so it has to be seen that this is enough, which it is if each
round consumes something.

For one purpose it is needed to know where a parser stops without knowing that it succeeds: then
it is said by `Stops`, at the end.
-/

namespace Exemplar

/-- The end of a source as a word. -/
def Word.eof (newline : Bool) : Word := ⟨.eof, [], newline⟩

/-- An identifier at the beginning of a line. -/
def Word.line (x : Text) : Word := ⟨.ident, x, true⟩

/-- A word at the beginning of a line is what it says. -/
@[simp] theorem Word.line_is (x : Text) (s : String) :
    (Word.line x).token.is s = (x == Text.ofString s) := by
  simp [Word.line, Word.token, Token.is]

/-- A mark is itself and no other. -/
@[simp] theorem Word.mark_is (s t : String) : (Word.mark s).token.is t = (s == t) := by
  have : (Text.ofString s == Text.ofString t) = (s == t) := by
    rw [Bool.eq_iff_iff, beq_iff_eq, beq_iff_eq, Text.ofString_inj]
  rw [← this]; rfl

/-- A name is what it says. -/
@[simp] theorem Word.name_is (x : Text) (s : String) :
    (Word.name x).token.is s = (x == Text.ofString s) := by
  simp [Word.name, Word.token, Token.is]

/-- And it is an identifier. -/
@[simp] theorem Word.name_isIdent (x : Text) : (Word.name x).token.isIdent = true := rfl

/-- The words that can come next, where the words ahead are `ws` and one of `F` follows them. -/
def heads (ws F : List Word) : List Word :=
  match ws with
  | [] => F
  | w :: _ => [w]

/-- If no words are left, what follows is next. -/
@[simp] theorem heads_nil (F : List Word) : heads [] F = F := rfl

/-- Otherwise the first of them is. -/
@[simp] theorem heads_cons (w : Word) (ws F : List Word) : heads (w :: ws) F = [w] := rfl

/-- Something holds of all words that can come next if it holds of the first. -/
theorem forall_heads_cons {P : Word → Prop} {v : Word} {ws F : List Word} :
    (∀ w ∈ heads (v :: ws) F, P w) ↔ P v := by
  rw [heads_cons, List.forall_mem_singleton]

/-- Further words do not change the first. -/
theorem heads_of_ne_nil {ws : List Word} (h : ws ≠ []) (vs F : List Word) :
    heads (ws ++ vs) F = heads ws F := by
  cases ws with
  | nil => exact absurd rfl h
  | cons w ws => rfl

/-- A test that looks at the word of a token and not at its place. -/
def Blind (f : Token → Bool) : Prop := ∀ t : Token, f t = f t.word.token

/-- Such a test can be made on the word. -/
theorem Blind.eq {f : Token → Bool} (hf : Blind f) {t : Token} {w : Word} (h : t.word = w) :
    f t = f w.token := by
  rw [hf, h]

/-- What a token is, is a matter of its word. -/
theorem Token.is_eq {t : Token} {w : Word} (h : t.word = w) (s : String) :
    t.is s = w.token.is s :=
  Blind.eq (f := (·.is s)) (fun _ => rfl) h

/-- The tokens ahead have the words `ws`, the tokens `more` follow them, and the next word there
is one of `F`. -/
structure Cursor.Faces (c : Cursor) (ws F : List Word) (more : List Token) : Prop where
  /-- Nothing is left open. -/
  clean : c.ending.Clean
  /-- No token ahead is the end. -/
  tokens : ∀ t ∈ c.rest, t.isEof = false
  /-- The words ahead. -/
  split : ∃ toks, c.rest = toks ++ more ∧ toks.map Token.word = ws
  /-- What follows them. -/
  next : (more.head?.getD c.ending.token).word ∈ F

namespace Cursor.Faces

variable {c c' : Cursor} {w : Word} {ws vs F G : List Word} {more : List Token}

/-- More may be allowed to follow. -/
theorem mono (h : c.Faces ws F more) (hF : ∀ w ∈ F, w ∈ G) : c.Faces ws G more :=
  ⟨h.clean, h.tokens, h.split, hF _ h.next⟩

/-- Where only the end may come next, nothing does. -/
theorem eq_nil (h : c.Faces ws F more) (hF : ∀ w ∈ F, w.token.isEof = true) : more = [] := by
  cases hm : more with
  | nil => rfl
  | cons t more =>
    obtain ⟨toks, hr, -⟩ := h.split
    have htoken := h.tokens t (by rw [hr, hm]; exact List.mem_append_right _ (.head _))
    have hnext : t.word ∈ F := by
      have hnext := h.next
      rwa [hm] at hnext
    rw [show t.isEof = true from hF _ hnext] at htoken
    cases htoken

/-- If no words are ahead, what follows them is. -/
theorem rest_eq (h : c.Faces [] F more) : c.rest = more := by
  obtain ⟨toks, hr, hw⟩ := h.split
  rw [hr, List.map_eq_nil_iff.1 hw, List.nil_append]

/-- The current token is the first of the words ahead, or what follows them. -/
theorem current_mem (h : c.Faces ws F more) : c.current.word ∈ heads ws F := by
  obtain ⟨toks, hr, hw⟩ := h.split
  cases toks with
  | nil =>
    rw [← hw, Cursor.current, hr]
    exact h.next
  | cons t toks =>
    rw [← hw, current_of_cons hr]
    exact List.mem_singleton.2 rfl

/-- The first of the words ahead is a token, and the others are ahead behind it. -/
theorem cons (h : c.Faces (w :: ws) F more) :
    ∃ t mid, c.rest = t :: mid ∧ t.word = w ∧ (c.past t mid).Faces ws F more := by
  obtain ⟨toks, hr, hw⟩ := h.split
  cases toks with
  | nil => cases hw
  | cons t toks =>
    obtain ⟨rfl, rfl⟩ := List.cons.inj hw
    have htokens : ∀ u ∈ toks ++ more, u.isEof = false :=
      fun u hu => h.tokens u (hr ▸ .tail _ hu)
    exact ⟨t, toks ++ more, hr, rfl, h.clean, htokens, ⟨toks, rfl, rfl⟩, h.next⟩

/-- Words ahead can be taken one part after the other. -/
theorem append (h : c.Faces (ws ++ vs) F more) :
    ∃ mid, c.Faces ws (heads vs F) mid ∧
      ∀ c' : Cursor, c'.rest = mid → c'.ending = c.ending → c'.Faces vs F more := by
  obtain ⟨toks, hr, hw⟩ := h.split
  obtain ⟨front, back, rfl, rfl, rfl⟩ := List.map_eq_append_iff.1 hw
  refine ⟨back ++ more, ⟨h.clean, h.tokens, ⟨front, by rw [hr, List.append_assoc], rfl⟩, ?_⟩, ?_⟩
  · cases back with
    | nil => exact h.next
    | cons t back => exact List.mem_singleton.2 rfl
  · intro c' hr' he
    have htokens : ∀ t ∈ back ++ more, t.isEof = false := fun t ht =>
      h.tokens t (by rw [hr, List.append_assoc]; exact List.mem_append_right _ ht)
    exact ⟨he ▸ h.clean, hr' ▸ htokens, ⟨back, hr', rfl⟩, by rw [he]; exact h.next⟩

/-- The token behind the first of the words ahead. -/
theorem peek_one (h : c.Faces (w :: ws) F more) :
    ∃ t, Parser.peek 1 c = .ok (t, c) ∧ t.word ∈ heads ws F := by
  obtain ⟨t, mid, hr, -, h'⟩ := h.cons
  refine ⟨(c.past t mid).current, ?_, h'.current_mem⟩
  rw [Parser.peek_run h.clean.fault, hr]
  cases mid <;> rfl

end Cursor.Faces

namespace Parser

variable {α β σ : Type}

/-- On the words `ws`, followed by one of `F`, a parser consumes them and answers with something
of which `Q` holds. -/
def Reads (p : Parser α) (ws F : List Word) (Q : α → Prop) : Prop :=
  ∀ (c : Cursor) (more : List Token), c.Faces ws F more →
    ∃ a c', p c = .ok (a, c') ∧ c'.rest = more ∧ c'.ending = c.ending ∧ Q a

/-- On the words `ws`, followed by one of `F`, a parser answers `a` and consumes nothing. -/
def Sees (p : Parser α) (ws F : List Word) (a : α) : Prop :=
  ∀ (c : Cursor) (more : List Token), c.Faces ws F more → p c = .ok (a, c)

/-! ## Looking

Looking answers for all tokens with the given words, so its answer is known in advance. -/

namespace Sees

variable {f g : Token → Bool} {w : Word} {ws F : List Word} {b : Bool}

/-- A given answer is seen everywhere. -/
theorem pure {a : α} : Sees (Pure.pure a : Parser α) ws F a := fun _ _ _ => rfl

/-- Looking twice. -/
theorem bind {p : Parser α} {f : α → Parser β} {a : α} {b : β} (hp : Sees p ws F a)
    (hf : Sees (f a) ws F b) : Sees (p >>= f) ws F b :=
  fun c more hc => (bind_of_ok (hp c more hc) f).trans (hf c more hc)

/-- Looking at the current token, which has one of the words that can come next. -/
theorem current_bind {k : Token → Parser α} {a : α}
    (h : ∀ t : Token, t.word ∈ heads ws F → Sees (k t) ws F a) : Sees (current >>= k) ws F a :=
  fun c more hc => h c.current hc.current_mem c more hc

theorem ite_pos {C : Prop} [Decidable C] {p q : Parser α} {a : α} (hC : C) (h : Sees p ws F a) :
    Sees (if C then p else q) ws F a := by
  rwa [if_pos hC]

theorem ite_neg {C : Prop} [Decidable C] {p q : Parser α} {a : α} (hC : ¬C) (h : Sees q ws F a) :
    Sees (if C then p else q) ws F a := by
  rwa [if_neg hC]

/-- Asking for a word. -/
theorem is {s : String} (h : ∀ w ∈ heads ws F, w.token.is s = b) :
    Sees (Parser.is s) ws F b := by
  intro c more hc
  rw [← h _ hc.current_mem]; rfl

/-- Asking for an identifier. -/
theorem isIdent (h : ∀ w ∈ heads ws F, w.token.isIdent = b) : Sees Parser.isIdent ws F b := by
  intro c more hc
  rw [← h _ hc.current_mem]; rfl

/-- Asking for the end. -/
theorem isEof (h : ∀ w ∈ heads ws F, w.token.isEof = b) : Sees Parser.isEof ws F b := by
  intro c more hc
  rw [← h _ hc.current_mem]; rfl

/-- A word that does not stand there is not consumed. -/
theorem got {s : String} (h : ∀ w ∈ heads ws F, w.token.is s = false) :
    Sees (Parser.got s) ws F false := by
  intro c more hc
  have hw : c.current.is s = false := h _ hc.current_mem
  rw [got_run, hw]; rfl

/-- Looking at two tokens of which the first is known. -/
theorem ahead (hf : Blind f) (hg : Blind g)
    (h : ∀ v ∈ heads ws F, (f w.token && g v.token) = b) : Sees (ahead f g) (w :: ws) F b := by
  intro c more hc
  obtain ⟨t, mid, hr, rfl, h'⟩ := hc.cons
  obtain ⟨u, hu, hm⟩ := hc.peek_one
  have hb := h _ hm
  rw [← hf, ← hg] at hb
  show (if f c.current = true then (do return g (← peek 1)) else return false : Parser Bool) c
    = _
  rw [Cursor.current_of_cons hr, ite_run]
  split
  · rename_i ht
    rw [bind_of_ok hu, ← hb, ht]; rfl
  · rename_i ht
    rw [← hb, Bool.eq_false_iff.2 ht]; rfl

/-- Looking at two tokens of which the first does not pass its test. -/
theorem ahead_eq_false (hf : Blind f) (h : ∀ v ∈ heads ws F, f v.token = false) :
    Sees (Parser.ahead f g) ws F false := by
  intro c more hc
  have hb := h _ hc.current_mem
  rw [← hf] at hb
  show (if f c.current = true then (do return g (← peek 1)) else return false : Parser Bool) c
    = _
  rw [hb]; rfl

/-- Looking at three tokens of which the first two do not pass their tests. -/
theorem ahead₃_eq_false {h : Token → Bool} (hs : Sees (Parser.ahead f g) ws F false) :
    Sees (ahead₃ f g h) ws F false :=
  bind hs (ite_neg Bool.false_ne_true pure)

/-- A loop that ends in its first round lists nothing. -/
theorem collect_nil {next : Parser (Option α)} (h : Sees next ws F none) :
    Sees (collect next) ws F [] := by
  intro c more hc
  show collectUpTo next (c.rest.length + 1) c = _
  rw [Parser.collectUpTo, bind_of_ok (h c more hc)]; rfl

/-- A loop over a state that ends in its first round answers the state it started with. -/
theorem iterate_nil {step : σ → Parser (Option σ)} {s : σ} (h : Sees (step s) ws F none) :
    Sees (iterate step s) ws F s :=
  fun c more hc => iterateUpTo_of_none (h c more hc) c.rest.length

/-- A loop whose test fails at once is over. -/
theorem whileDo {test : Parser Bool} {body : Parser Unit} (h : Sees test ws F false) :
    Sees (whileDo test body) ws F () :=
  bind (collect_nil (bind h (ite_neg Bool.false_ne_true pure))) pure

end Sees

/-! ## Reading

A sequence divides its words. In a proof the division is found step by step: a step that looks
takes none, one that consumes takes the first, and a rule of the grammar takes as many as it
reads. -/

namespace Reads

variable {p : Parser α} {f : α → Parser β} {w : Word} {ws vs F G : List Word} {P : α → Prop}
  {Q : β → Prop}

/-- Less may be allowed to follow, and less may be said of the answer. -/
theorem mono {R : α → Prop} (h : Reads p ws G P) (hF : ∀ w ∈ F, w ∈ G) (hR : ∀ a, P a → R a) :
    Reads p ws F R := by
  intro c more hc
  obtain ⟨a, c', hp, hr, he, ha⟩ := h c more (hc.mono hF)
  exact ⟨a, c', hp, hr, he, hR a ha⟩

/-- A given answer takes no words. -/
theorem pure {a : α} (h : P a) : Reads (Pure.pure a : Parser α) [] F P :=
  fun c _ hc => ⟨a, c, rfl, hc.rest_eq, rfl, h⟩

/-- **A sequence reads what its parts read**, if the second starts with what may follow the
first. -/
theorem bind {v u : List Word} (hp : Reads p v G P) (hf : ∀ a, P a → Reads (f a) u F Q)
    (hG : ∀ w ∈ heads u F, w ∈ G) : Reads (p >>= f) (v ++ u) F Q := by
  intro c more hc
  obtain ⟨mid, hc₁, hc₂⟩ := hc.append
  obtain ⟨a, c₁, hp₁, hr, he, ha⟩ := hp c mid (hc₁.mono hG)
  obtain ⟨b, c₂, hf₂, hr₂, he₂, hb⟩ := hf a ha c₁ more (hc₂ c₁ hr he)
  exact ⟨b, c₂, (bind_of_ok hp₁ f).trans hf₂, hr₂, he₂.trans he, hb⟩

/-- A sequence that looks first reads what the rest of it reads. -/
theorem sees_bind {a : α} (hp : Sees p ws F a) (hf : Reads (f a) ws F Q) :
    Reads (p >>= f) ws F Q := by
  intro c more hc
  obtain ⟨b, c', h, h'⟩ := hf c more hc
  exact ⟨b, c', (bind_of_ok (hp c more hc) f).trans h, h'⟩

theorem ite_pos {C : Prop} [Decidable C] {q : Parser α} (hC : C) (h : Reads p ws F P) :
    Reads (if C then p else q) ws F P := by
  rwa [if_pos hC]

theorem ite_neg {C : Prop} [Decidable C] {q : Parser α} (hC : ¬C) (h : Reads q ws F P) :
    Reads (if C then p else q) ws F P := by
  rwa [if_neg hC]

theorem current_bind {k : Token → Parser β}
    (h : ∀ t : Token, t.word ∈ heads ws F → Reads (k t) ws F Q) :
    Reads (current >>= k) ws F Q :=
  fun c more hc => h c.current hc.current_mem c more hc

/-- Looking ahead finds some token, whatever it is. -/
theorem peek_bind {n : Nat} {k : Token → Parser β} (h : ∀ t : Token, Reads (k t) ws F Q) :
    Reads (peek (n + 1) >>= k) ws F Q := by
  intro c more hc
  rw [bind_of_ok (peek_run hc.clean.fault n)]
  exact h _ c more hc

/-- The token behind the first of the words ahead. -/
theorem peek_one_bind {k : Token → Parser β}
    (h : ∀ t : Token, t.word ∈ heads ws F → Reads (k t) (w :: ws) F Q) :
    Reads (peek 1 >>= k) (w :: ws) F Q := by
  intro c more hc
  obtain ⟨t, ht, hm⟩ := hc.peek_one
  rw [bind_of_ok ht]
  exact h t hm c more hc

theorem here_bind {k : Position → Parser β} (h : ∀ s, Reads (k s) ws F Q) :
    Reads (here >>= k) ws F Q :=
  fun c more hc => h c.current.start c more hc

theorem spanFrom_bind {s : Position} {k : Span → Parser β} (h : ∀ s, Reads (k s) ws F Q) :
    Reads (spanFrom s >>= k) ws F Q :=
  fun c more hc => h ⟨s, c.lastStop⟩ c more hc

theorem advance_bind {k : Token → Parser β}
    (h : ∀ t : Token, t.word = w → Reads (k t) ws F Q) :
    Reads (advance >>= k) (w :: ws) F Q := by
  intro c more hc
  obtain ⟨t, mid, hr, hw, h'⟩ := hc.cons
  obtain ⟨b, c', hk, hr', he, hb⟩ := h t hw _ more h'
  exact ⟨b, c', (bind_of_ok (advance_run_cons hr hc.clean.fault) k).trans hk, hr', he, hb⟩

theorem got_bind {s : String} {k : Bool → Parser β} (hw : w.token.is s = true)
    (h : Reads (k true) ws F Q) : Reads (got s >>= k) (w :: ws) F Q := by
  intro c more hc
  obtain ⟨t, mid, hr, rfl, h'⟩ := hc.cons
  obtain ⟨b, c', hk, hr', he, hb⟩ := h _ more h'
  have hg : got s c = .ok (true, c.past t mid) := by
    rw [got_run, Cursor.current_of_cons hr, if_pos (show t.is s = true from hw),
      bind_of_ok (advance_run_cons hr hc.clean.fault)]
    rfl
  exact ⟨b, c', (bind_of_ok hg k).trans hk, hr', he, hb⟩

theorem expect_bind {s : String} {k : Unit → Parser β} (hw : w.token.is s = true)
    (h : Reads (k ()) ws F Q) : Reads (expect s >>= k) (w :: ws) F Q := by
  intro c more hc
  obtain ⟨t, mid, hr, rfl, h'⟩ := hc.cons
  obtain ⟨b, c', hk, hr', he, hb⟩ := h _ more h'
  have hg : expect s c = .ok ((), c.past t mid) := by
    rw [expect_run, Cursor.current_of_cons hr, if_pos (show t.is s = true from hw),
      bind_of_ok (advance_run_cons hr hc.clean.fault)]
    rfl
  exact ⟨b, c', (bind_of_ok hg k).trans hk, hr', he, hb⟩

/-- A parser on its own is a sequence with nothing behind it. -/
theorem of_bind_pure (h : Reads (p >>= fun a => Pure.pure a) ws F P) : Reads p ws F P := by
  intro c more hc
  obtain ⟨a, c', hp, h'⟩ := h c more hc
  obtain ⟨a₁, c₁, h₁, h₂⟩ := bind_eq_ok.1 hp
  obtain ⟨rfl, rfl⟩ := pure_eq_ok.1 h₂
  exact ⟨a₁, c₁, h₁, h'⟩

/-! ## Loops

What is read by a loop is a list of items, each with its words. A round may be followed by
another one or by what ends the loop. -/

/-- Rounds that consume something are at most as many as the words they consume. -/
theorem length_le_flatten {wss : List (List Word)} (h : ∀ w ∈ wss, w ≠ []) :
    wss.length ≤ wss.flatten.length := by
  induction wss with
  | nil => exact Nat.zero_le _
  | cons w wss ih =>
    have := ih fun v hv => h v (.tail _ hv)
    have := List.length_pos_iff.2 (h w (.head _))
    rw [List.flatten_cons, List.length_append, List.length_cons]; omega

/-- One round of a loop that lists what it reads. On the words `ws` of the item `x` it answers
with something related to `x`, before whatever may follow a round. -/
structure Round (next : Parser (Option α)) (G : List Word) (R : β → α → Prop) (x : β)
    (ws : List Word) : Prop where
  /-- The round consumes something. -/
  ne_nil : ws ≠ []
  /-- It may follow another round. -/
  follows : ∀ w ∈ heads ws [], w ∈ G
  /-- It reads its words. -/
  reads : Reads next ws G (fun o => ∃ a, o = some a ∧ R x a)

variable {next : Parser (Option α)} {R : β → α → Prop} {xs : List β} {wss : List (List Word)}

/-- A loop with rounds enough reads its items. By induction on the items: the words of a round
are followed by those of the next one, or by what follows the loop. -/
theorem collectUpTo (hF : ∀ w ∈ F, w ∈ G) (h : List.Forall₂ (Round next G R) xs wss)
    (hend : Reads next [] F (· = none)) (n : Nat) (hn : xs.length < n) :
    Reads (collectUpTo next n) wss.flatten F (List.Forall₂ R xs) := by
  induction h generalizing n with
  | nil =>
    obtain ⟨n, rfl⟩ : ∃ m, n = m + 1 := ⟨n - 1, by omega⟩
    refine (bind hend ?_ fun w hw => hw : Reads _ ([] ++ []) F _)
    rintro _ rfl
    exact pure .nil
  | @cons x ws xs wss hx hxs ih =>
    obtain ⟨n, rfl⟩ : ∃ m, n = m + 1 := ⟨n - 1, by omega⟩
    have ih' := ih n (by simpa using hn)
    rw [List.flatten_cons]
    refine bind hx.reads ?_ ?_
    · rintro _ ⟨a, rfl, ha⟩
      rw [← List.append_nil wss.flatten]
      exact bind ih' (fun as has => pure (.cons ha has)) fun w hw => hw
    · intro w hw
      -- The next word is the first of the next round, or one that follows the loop.
      cases hxs with
      | nil => exact hF w hw
      | @cons y vs ys vss hy _ =>
        refine hy.follows w ?_
        rw [List.flatten_cons, heads_of_ne_nil hy.ne_nil] at hw
        cases vs with
        | nil => exact absurd rfl hy.ne_nil
        | cons v vs => exact hw

/-- **A loop reads its items one after the other**, if what follows the last of them ends it. -/
theorem collect (hF : ∀ w ∈ F, w ∈ G) (h : List.Forall₂ (Round next G R) xs wss)
    (hend : Reads next [] F (· = none)) :
    Reads (collect next) wss.flatten F (List.Forall₂ R xs) := by
  intro c more hc
  obtain ⟨toks, hr, hw⟩ := hc.split
  have hne : ∀ {xs wss}, List.Forall₂ (Round next G R) xs wss → ∀ w ∈ wss, w ≠ [] := by
    intro xs wss h
    induction h with
    | nil => exact fun w hw => absurd hw List.not_mem_nil
    | cons hx _ ih => exact List.forall_mem_cons.2 ⟨hx.ne_nil, ih⟩
  have hlen := length_le_flatten (hne h)
  rw [← hw, List.length_map, ← h.length_eq] at hlen
  refine collectUpTo hF h hend (c.rest.length + 1) ?_ c more hc
  rw [hr, List.length_append]; omega

/-- A loop over a state with rounds enough reads its rounds. -/
theorem iterateUpTo {step : σ → Parser (Option σ)} {F : List Word}
    (I : List (List Word) → σ → Prop)
    (hstep : ∀ w wss s, I (w :: wss) s →
      w ≠ [] ∧ Reads (step s) w (heads wss.flatten F) (fun o => ∃ s', o = some s' ∧ I wss s'))
    (hend : ∀ s, I [] s → Reads (step s) [] F (· = none)) (wss : List (List Word)) (s : σ)
    (hI : I wss s) (n : Nat) (hn : wss.length < n) :
    Reads (iterateUpTo step n s) wss.flatten F (I []) := by
  induction wss generalizing s n with
  | nil =>
    obtain ⟨n, rfl⟩ : ∃ m, n = m + 1 := ⟨n - 1, by omega⟩
    refine (bind (hend s hI) ?_ fun w hw => hw : Reads _ ([] ++ []) F _)
    rintro _ rfl
    exact pure hI
  | cons w wss ih =>
    obtain ⟨n, rfl⟩ : ∃ m, n = m + 1 := ⟨n - 1, by omega⟩
    refine bind (hstep w wss s hI).2 ?_ fun w hw => hw
    rintro _ ⟨s', rfl, hs'⟩
    exact ih s' hs' n (by simpa using hn)

/-- **A loop over a state reads its rounds one after the other.** The invariant is indexed by the
words of the rounds still to come. -/
theorem iterate {step : σ → Parser (Option σ)} {F : List Word} (I : List (List Word) → σ → Prop)
    (hstep : ∀ w wss s, I (w :: wss) s →
      w ≠ [] ∧ Reads (step s) w (heads wss.flatten F) (fun o => ∃ s', o = some s' ∧ I wss s'))
    (hend : ∀ s, I [] s → Reads (step s) [] F (· = none)) {wss : List (List Word)}
    (hne : ∀ w ∈ wss, w ≠ []) {s : σ} (hI : I wss s) :
    Reads (iterate step s) wss.flatten F (I []) := by
  intro c more hc
  obtain ⟨toks, hr, hw⟩ := hc.split
  have hlen := length_le_flatten hne
  rw [← hw, List.length_map] at hlen
  refine iterateUpTo I hstep hend wss s hI (c.rest.length + 1) ?_ c more hc
  rw [hr, List.length_append]; omega

/-- The words of a list, each item but the first behind a separator. -/
def sepWords (sep : Word) (ws : List Word) (wss : List (List Word)) : List Word :=
  ws ++ (wss.map (sep :: ·)).flatten

/-- An item that can stand in a list with a separator, before a word of `F` or another item. -/
structure Entry (sep : Word) (item : Parser α) (F : List Word) (R : β → α → Prop) (x : β)
    (ws : List Word) : Prop where
  /-- The item has words. -/
  ne_nil : ws ≠ []
  /-- It reads them. -/
  reads : Reads item ws (sep :: F) (R x)

section Separated

variable {sep : Word} {s : String} {item : Parser α}

/-- An item behind its separator is a round of the loop that reads the list. -/
theorem Entry.round {x : β} (h : Entry sep item F R x ws) (hs : sep.token.is s = true) :
    Round (do if ← got s then return some (← item) else return none)
      (sep :: F) R x (sep :: ws) := by
  refine ⟨List.cons_ne_nil _ _, fun w hw => List.mem_cons.2 (.inl (by simpa using hw)), ?_⟩
  refine got_bind hs (ite_pos rfl ?_)
  rw [← List.append_nil ws]
  exact bind h.reads (fun a ha => pure ⟨a, rfl, ha⟩) fun w hw => hw

/-- The loop behind the first item of a list with separators. -/
theorem collect_entries (hs : sep.token.is s = true) (hF : ∀ w ∈ F, w.token.is s = false)
    (h : List.Forall₂ (Entry sep item F R) xs wss) :
    Reads (Parser.collect (do if ← got s then return some (← item) else return none))
      (wss.map (sep :: ·)).flatten F (List.Forall₂ R xs) := by
  refine collect (G := sep :: F) (fun w hw => List.mem_cons_of_mem _ hw) ?_ ?_
  · rw [List.forall₂_map_right_iff]
    exact h.imp fun x ws hx => hx.round hs
  · exact sees_bind (Sees.got hF) (ite_neg Bool.false_ne_true (pure rfl))

/-- What follows an item of a list with separators may follow the item. -/
theorem heads_separated {w : Word} (hw : w ∈ heads (wss.map (sep :: ·)).flatten F) :
    w ∈ sep :: F := by
  cases wss with
  | nil => exact List.mem_cons_of_mem _ hw
  | cons vs wss => exact List.mem_cons.2 (.inl (by simpa using hw))

end Separated

/-- An item of a list with commas, which does not start with what closes the list. -/
structure Listed (closer : String) (comma : Word) (item : Parser α) (F : List Word)
    (R : β → α → Prop) (x : β)
    (ws : List Word) : Prop extends Entry comma item F R x ws where
  /-- The list is not closed where the item starts. -/
  opens : ∀ w ∈ heads ws [], w.token.is closer = false

/-- The list is not closed before an item. -/
theorem Listed.sees_closer {closer : String} {comma : Word} {item : Parser α} {x : β}
    (h : Listed closer comma item F R x ws) (us G : List Word) :
    Sees (is closer) (ws ++ us) G false := by
  refine Sees.is fun w hw => h.opens w ?_
  cases ws with
  | nil => exact absurd rfl h.ne_nil
  | cons v ws => exact hw

/-- **A list with commas reads its items.** The first is read on its own, and the others behind
commas, as many as there are. -/
theorem commaList {closer : String} {comma : Word} {item : Parser α}
    (hc : comma.token.is "," = true)
    (hF : ∀ w ∈ F, w.token.is "," = false)
    (h : List.Forall₂ (Listed closer comma item F R) xs (vs :: wss)) :
    Reads (commaList closer item) (sepWords comma vs wss) F (List.Forall₂ R xs) := by
  obtain ⟨x, xs, hx, hxs, rfl⟩ := List.forall₂_cons_right_iff.1 h
  unfold Parser.commaList
  refine sees_bind (hx.sees_closer _ _) (ite_neg Bool.false_ne_true ?_)
  refine bind hx.reads (fun a ha => ?_) fun w hw => heads_separated hw
  rw [← List.append_nil (List.map _ wss).flatten]
  refine bind (P := List.Forall₂ R xs) ?_ (fun as has => pure (.cons ha has)) fun w hw => hw
  refine collect (G := comma :: F) (fun w hw => List.mem_cons_of_mem _ hw) ?_ ?_
  · rw [List.forall₂_map_right_iff]
    refine hxs.imp fun y ws hy => ⟨List.cons_ne_nil _ _,
      fun w hw => List.mem_cons.2 (.inl (by simpa using hw)), ?_⟩
    refine got_bind hc (ite_pos rfl ?_)
    rw [← List.append_nil ws]
    refine sees_bind (hy.sees_closer _ _) (ite_neg Bool.false_ne_true ?_)
    exact bind hy.reads (fun a ha => pure ⟨a, rfl, ha⟩) fun w hw => hw
  · exact sees_bind (Sees.got hF) (ite_neg Bool.false_ne_true (pure rfl))

/-- A list without items. -/
theorem commaList_nil {closer : String} {item : Parser α} :
    Reads (Parser.commaList closer item) [] [.mark closer] (· = []) := by
  unfold Parser.commaList
  exact sees_bind (Sees.is (b := true) (by simp)) (ite_pos rfl (pure rfl))

end Reads

/-! ## Stopping

Where a parser stops if it succeeds can be told without knowing what it answers, and without
knowing whether it succeeds. -/

/-- On the words `ws`, followed by one of `F`, a parser consumes them if it succeeds. -/
def Stops (p : Parser α) (ws F : List Word) : Prop :=
  ∀ (c d : Cursor) (more : List Token) (a : α), c.Faces ws F more → p c = .ok (a, d) →
    d.rest = more ∧ d.ending = c.ending

namespace Stops

variable {p q : Parser α} {f : α → Parser β} {w : Word} {ws F : List Word}

/-- A given answer consumes nothing. -/
theorem pure {a : α} : Stops (Pure.pure a : Parser α) [] F := fun _ _ _ _ hc h => by
  obtain ⟨-, rfl⟩ := pure_eq_ok.1 h
  exact ⟨hc.rest_eq, rfl⟩

/-- What only looks consumes nothing. -/
theorem of_sees {a : α} (h : Sees p [] F a) : Stops p [] F := fun c d more b hc hp => by
  rw [h c more hc] at hp
  cases hp
  exact ⟨hc.rest_eq, rfl⟩

/-- What fails does not stop anywhere. -/
theorem fail {x : Complaint} : Stops (Parser.fail x : Parser α) ws F :=
  fun _ _ _ _ _ h => by cases h

/-- The second part goes on where the first stops. -/
theorem bind {v u : List Word} (hp : Stops p v (heads u F)) (hf : ∀ a, Stops (f a) u F) :
    Stops (p >>= f) (v ++ u) F := fun c d more b hc h => by
  obtain ⟨a, c₁, h₁, h₂⟩ := bind_eq_ok.1 h
  obtain ⟨mid, hc₁, hc₂⟩ := hc.append
  obtain ⟨hr, he⟩ := hp c c₁ mid a hc₁ h₁
  obtain ⟨hr', he'⟩ := hf a c₁ d more b (hc₂ c₁ hr he) h₂
  exact ⟨hr', he'.trans he⟩

theorem sees_bind {a : α} (hp : Sees p ws F a) (hf : Stops (f a) ws F) : Stops (p >>= f) ws F :=
  fun c d more b hc h => hf c d more b hc ((bind_of_ok (hp _ _ hc) f).symm.trans h)

/-- Whatever a test answers, both ways of going on stop where they should. -/
theorem ite {C : Prop} [Decidable C] (hp : C → Stops p ws F) (hq : ¬C → Stops q ws F) :
    Stops (if C then p else q) ws F := by
  split
  · exact hp ‹_›
  · exact hq ‹_›

theorem current_bind {k : Token → Parser β}
    (h : ∀ t : Token, t.word ∈ heads ws F → Stops (k t) ws F) :
    Stops (current >>= k) ws F := fun c d more b hc h' => h _ hc.current_mem c d more b hc h'

theorem here_bind {k : Position → Parser β} (h : ∀ s, Stops (k s) ws F) :
    Stops (here >>= k) ws F :=
  fun c d more b hc h' => h _ c d more b hc h'

theorem spanFrom_bind {s : Position} {k : Span → Parser β} (h : ∀ s, Stops (k s) ws F) :
    Stops (spanFrom s >>= k) ws F := fun c d more b hc h' => h _ c d more b hc h'

theorem advance_bind {k : Token → Parser β} (h : ∀ t : Token, t.word = w → Stops (k t) ws F) :
    Stops (advance >>= k) (w :: ws) F := fun c d more b hc h' => by
  obtain ⟨t, mid, hr, hw, hc₁⟩ := hc.cons
  rw [bind_of_ok (advance_run_cons hr hc.clean.fault)] at h'
  exact h t hw (c.past t mid) d more b hc₁ h'

theorem got_bind {s : String} {k : Bool → Parser β}
    (h : w.token.is s = true → Stops (k true) ws F)
    (h' : w.token.is s = false → Stops (k false) (w :: ws) F) :
    Stops (got s >>= k) (w :: ws) F :=
  fun c d more b hc hk => by
    obtain ⟨t, mid, hr, rfl, hc₁⟩ := hc.cons
    have hs : c.current.is s = t.word.token.is s := by rw [Cursor.current_of_cons hr]; rfl
    cases his : t.word.token.is s with
    | true =>
      have hgot : got s c = .ok (true, c.past t mid) := by
        rw [got_run, if_pos (hs.trans his), bind_of_ok (advance_run_cons hr hc.clean.fault)]; rfl
      rw [bind_of_ok hgot] at hk
      exact h his (c.past t mid) d more b hc₁ hk
    | false =>
      have hgot : got s c = .ok (false, c) := by
        rw [got_run, if_neg (by rw [hs, his]; exact Bool.false_ne_true)]
      rw [bind_of_ok hgot] at hk
      exact h' his c d more b hc hk

/-- What is expected and stands there is consumed. -/
theorem expect_bind {s : String} {k : Unit → Parser β} (h : Stops (k ()) ws F) :
    Stops (expect s >>= k) (w :: ws) F := fun c d more b hc h' => by
  obtain ⟨t, mid, hr, -, hc₁⟩ := hc.cons
  obtain ⟨a, c₁, h₁, h₂⟩ := bind_eq_ok.1 h'
  obtain ⟨-, u, hu⟩ := expect_eq_ok h₁
  rw [advance_run_cons hr hc.clean.fault] at hu
  cases hu
  exact h (c.past t mid) d more b hc₁ h₂

/-- Where what is expected does not stand, nothing succeeds. -/
theorem expect_bind_of_is {s : String} {k : Unit → Parser β}
    (h : ∀ w ∈ heads ws F, w.token.is s = false) : Stops (expect s >>= k) ws F :=
  fun c d more b hc h' => by
  obtain ⟨a, c₁, h₁, -⟩ := bind_eq_ok.1 h'
  obtain ⟨hs, -⟩ := expect_eq_ok h₁
  have hw : c.current.is s = false := h _ hc.current_mem
  rw [hw] at hs
  cases hs

end Stops

end Parser

end Exemplar
