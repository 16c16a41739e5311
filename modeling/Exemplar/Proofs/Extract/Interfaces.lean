import Exemplar.Extract.Declarations
import Exemplar.Proofs.Types.ReadTypes

/-!
# The fields of extracted interfaces

What the interfaces of a unit that was read are known to be: the name of an interface and the
names of its fields are identifiers, and the type of a field is one that can be spelled
(`SourceUnit.sound_of_parse`).

A member of an interface ends where its type ends, and what stands there is looked at by the
next round of the loop over the members. That round succeeds only if the place is neither the
end of the source nor a point, which is what the types before it rely on.

The reason is how a type ends. A name at the end of a type may be an identifier that ends in the
middle of an escape, if the source ends there; and a name goes on behind a point. So of a type
that was read it is only known that it can be spelled if the source goes on behind it, and not
with a point. A place at which no member can start is called barren, and the two are among these
places. Every round but the last fails there; the last is the one that finds the closing brace,
and a brace is not barren either. So each member is followed by a round that shows that its end
is not barren.
-/

namespace Exemplar

open Exemplar.Tree Exemplar.Lexeme Exemplar.Parser

/-- A field whose name is an identifier and whose type can be spelled. -/
structure Field.Sound (tables : Tables) (f : Field) : Prop where
  /-- Its name is an identifier. -/
  name : IsName False f.name
  /-- Its type can be spelled, if it does not mention `new`. -/
  type : NewFree f.type.names → ∃ ws, Spelled tables (.item (.type .any f.type)) False ws

/-- An interface whose name is an identifier and whose fields are sound. -/
structure Tree.InterfaceDecl.Sound (tables : Tables) (d : InterfaceDecl) : Prop where
  /-- Its name is an identifier. -/
  name : IsName False d.name.text
  /-- Its fields are sound. -/
  fields : ∀ f ∈ fieldsOf tables d.members, f.Sound tables

/-- A statement that is sound if it is an interface. -/
def Tree.Statement.Sound (tables : Tables) : Statement → Prop
  | .interfaceDecl d => d.Sound tables
  | _ => True

/-- A member that is sound if it is a property. -/
def Tree.Member.Sound (tables : Tables) : Member → Prop
  | .property _ _ name _ type => Field.Sound tables ⟨identifierText name, type.toTy tables⟩
  | _ => True

namespace Parser

section Members

variable {tables : Tables} {s : Span} {b : Bool} {name : Option Identifier}
  {generics : Option (List TypeParameter)} {parameters : List Parameter} {result : TypeExpr}

instance : Fact (Member.Sound tables (.method s name b generics parameters result)) := ⟨trivial⟩

instance : Fact (Member.Sound tables (.call s b generics parameters result)) := ⟨trivial⟩

instance : Fact (Member.Sound tables (.accessor s b name parameters result)) := ⟨trivial⟩

instance : Fact (Member.Sound tables (.index s parameters result)) := ⟨trivial⟩

end Members

variable {α : Type} {tables : Tables} {c c' : Cursor} {start : Position}

/-! ## Loops

The rounds of a loop, each together with the one behind it. -/

/-- What a loop lists, its rounds have answered, each followed by another round. There is always
another round, for the loop is ended by one that answers nothing. -/
theorem forall_of_collectUpTo {next : Parser (Option α)} [Moves next] {P : α → Prop}
    (hnext : ∀ {c c₁ c₂ : Cursor} {a : α} {o : Option α}, c.Regular →
      next c = .ok (some a, c₁) → next c₁ = .ok (o, c₂) → P a) (n : Nat) :
    ∀ {c c' : Cursor} {as : List α}, c.Regular → collectUpTo next n c = .ok (as, c') →
      ∀ a ∈ as, P a := by
  induction n with
  | zero => intro c c' as _ h; cases h
  | succ n ih =>
    intro c c' as hc h
    obtain ⟨m, hm, ⟨rfl, h₁⟩ | ⟨a, as, c₁, rfl, h₁, h₂⟩⟩ := collectUpTo_eq_ok h
    · exact fun a ha => absurd ha List.not_mem_nil
    · cases hm
      refine List.forall_mem_cons.2 ⟨?_, ih (hc.of_ok h₁) h₂⟩
      obtain ⟨m, -, ⟨-, h₃⟩ | ⟨b, bs, c₂, -, h₃, -⟩⟩ := collectUpTo_eq_ok h₂
      · exact hnext hc h₁ h₃
      · exact hnext hc h₁ h₃

/-! ## Members

The rule for a member is inverted twice: it does not start at a barren place, and what it
answers is sound if it does not end at one. -/

/-- No member starts at a place: the source ends there, or a point stands there. -/
structure Barren (c : Cursor) : Prop where
  /-- No identifier stands there. -/
  isIdent : c.current.isIdent = false
  /-- No literal stands there. -/
  kind : c.current.kind ≠ .string ∧ c.current.kind ≠ .number
  /-- No punctuator but a point stands there. -/
  is : ∀ w : String, w ≠ "." → c.current.is w = false

/-- At the end of the source no member starts. -/
theorem barren_of_nil (hc : c.Regular) (h : c.rest = []) : Barren c := by
  have hcur := Cursor.current_of_nil h
  refine ⟨?_, ?_, fun w _ => ?_⟩
  · rw [hcur, Token.isIdent, hc.clean.kind]; rfl
  · rw [hcur, hc.clean.kind]; decide
  · rw [hcur]; exact hc.clean.is_eq_false w

/-- At a point no member starts: it is a punctuator and no name, and no member is told by it. -/
theorem barren_of_point (hc : c.Regular) (h : c.current.is "." = true) : Barren c := by
  obtain ⟨t, more, hr, ht⟩ := Cursor.exists_of_is hc.clean h
  have hcur := Cursor.current_of_cons hr
  have hi : t.isIdent = false := by
    cases hi : t.isIdent with
    | false => rfl
    | true =>
      have hx : t.text = Text.ofString "." := by
        rw [Token.is, Bool.and_eq_true, beq_iff_eq] at ht
        exact ht.2
      exact absurd hx (((hc.head hr).name hi).ne_of_startsName (by decide))
  have hk : t.kind = .punct := by
    rw [Token.is, Bool.and_eq_true, Bool.or_eq_true, beq_iff_eq] at ht
    exact ht.1.resolve_right fun h => by rw [Token.isIdent, h] at hi; cases hi
  rw [← hcur] at hi hk
  exact ⟨hi, by rw [hk]; decide, fun w hw => Token.is_eq_false_of_is h hw.symm⟩

/-- Where another word or mark stands, the place is not barren. -/
theorem not_barren_of_is {w : String} (hw : c.current.is w = true) (hne : w ≠ ".") :
    ¬Barren c := by
  intro hb
  rw [hb.is w hne] at hw
  cases hw

/-- A name is an identifier, a literal, or a group in square brackets, and so does not stand at
a barren place. Only an identifier is kept. -/
theorem propertyName_inv (hc : c.Regular) {o : Option Identifier}
    (h : propertyName c = .ok (o, c')) : ¬Barren c ∧ NameRead c o c' := by
  have h' : (if c.current.isIdent = true then (do return some (← identifier))
      else if c.current.kind == .string || c.current.kind == .number then (do
        let _ ← advance
        return none)
      else if c.current.is "[" then (do skipGroup; return none)
      else fail .propertyNameExpected : Parser (Option Identifier)) c = .ok (o, c') := h
  simp only [ite_run] at h'
  split at h'
  · rename_i hi
    obtain ⟨i, c₁, h₁, h₂⟩ := bind_eq_ok.1 h'
    obtain ⟨rfl, rfl⟩ := pure_eq_ok.1 h₂
    obtain ⟨t, more, hr, ht, hx, rfl⟩ := identifier_inv hc h₁
    -- An identifier is none of the tokens at a barren place.
    refine ⟨fun hb => ?_, .inr ⟨i, t, more, rfl, hr, ht, hx, rfl⟩⟩
    rw [hb.isIdent] at hi
    cases hi
  split at h'
  · rename_i hk
    obtain ⟨_, c₁, -, h₂⟩ := bind_eq_ok.1 h'
    refine ⟨fun hb => ?_, .inl (pure_eq_ok.1 h₂).1.symm⟩
    simp [hb.kind.1, hb.kind.2] at hk
  split at h'
  · rename_i hb
    obtain ⟨_, c₁, -, h₂⟩ := bind_eq_ok.1 h'
    exact ⟨not_barren_of_is hb (by decide), .inl (pure_eq_ok.1 h₂).1.symm⟩
  · cases h'

/-- What is known of every type that was read. -/
theorem yields_typeExpr : Yields typeExpr (TypeEnded tables .any) :=
  fun {c _ _} hc h => yields_nested (c.rest.length + 1) hc h

/-- **A property ends sound**, if something follows it that is no point. Behind the name there
may be a question mark. Then a parenthesis or an angle bracket makes the member a method, of
which nothing is asked, and otherwise it is a property with the type behind its colon. -/
theorem namedMember_inv (hc : c.Regular) {modifiers : Modifiers} {m : Member}
    (h : namedMember typeExpr start modifiers c = .ok (m, c')) :
    ¬Barren c ∧ (¬Barren c' → m.Sound tables) := by
  have hc' := hc.of_ok h
  obtain ⟨name, c₁, h₁, h⟩ := bind_eq_ok.1 h
  obtain ⟨hbarren, hname⟩ := propertyName_inv hc h₁
  refine ⟨hbarren, fun hend => ?_⟩
  -- The source goes on behind the member, and not with a point.
  have hrest : c'.rest ≠ [] := fun hr => hend (barren_of_nil hc' hr)
  have hdot : c'.current.is "." = false :=
    Bool.eq_false_iff.2 fun hd => hend (barren_of_point hc' hd)
  have hc₁ := hc.of_ok h₁
  have hs₁ : c'.rest <:+ c₁.rest := Moves.suffix_of_ok h
  obtain ⟨optional, c₂, h₂, h⟩ := bind_eq_ok.1 h
  have hc₂ := hc₁.of_ok h₂
  rw [current_bind, ite_run] at h
  split at h
  · have hmethod : Builds (Member.Sound tables) (do
        let generics ← typeParameters? typeExpr
        let params ← parameters typeExpr
        let result ← resultType? typeExpr
        return Member.method (← spanFrom start) name optional generics params result) :=
          inferInstance
    exact hmethod.answers h
  obtain ⟨n, c₃, h₃, h⟩ := bind_eq_ok.1 h
  obtain ⟨s, c₄, h₄, h⟩ := bind_eq_ok.1 h
  obtain rfl : c₄ = c₃ := by cases h₄; rfl
  obtain ⟨rfl, rfl⟩ := pure_eq_ok.1 h
  refine ⟨?_, fun hnew => ?_⟩
  · refine hname.isName hc fun hnil => hrest ?_
    rw [hnil] at hs₁
    exact List.suffix_nil.1 hs₁
  · obtain ⟨b, c₅, h₅, h₆⟩ := bind_eq_ok.1 h₃
    rw [ite_run] at h₆
    split at h₆
    · obtain ⟨ws, hws⟩ := (yields_typeExpr (hc₂.of_ok h₅) h₆).2.2 hnew hdot (.inl trivial)
      exact ⟨ws, hws.mono hrest⟩
    · rw [← (pure_eq_ok.1 h₆).1]
      exact ⟨_, .unknown .any⟩

/-- A member starts with a bracket, an angle bracket, a word or its name; none of these stands
at a barren place. -/
theorem member_inv (hc : c.Regular) {m : Member} (h : member typeExpr c = .ok (m, c')) :
    ¬Barren c ∧ (¬Barren c' → m.Sound tables) := by
  unfold member at h
  rw [here_bind, current_bind, ite_run] at h
  split at h
  · rename_i hs
    refine ⟨fun hb => ?_, fun _ => Builds.answers h⟩
    rw [startsSignature, hb.is "(" (by decide), hb.is "<" (by decide)] at hs
    cases hs
  rw [bind_of_ok (ahead_run hc.clean _ _), ite_run] at h
  split at h
  · rename_i hn
    obtain ⟨_, c₂, -, h⟩ := bind_eq_ok.1 h
    exact ⟨not_barren_of_is (Bool.and_eq_true_iff.1 hn).1 (by decide), fun _ => Builds.answers h⟩
  obtain ⟨modifiers, c₂, h₂, h⟩ := bind_eq_ok.1 h
  have hc₂ := hc.of_ok h₂
  -- where no member starts, no modifier stands either
  have hstill : Barren c → c₂ = c := by
    intro hb
    unfold readonlyModifier at h₂
    rw [bind_of_ok (ahead_run hc.clean _ _), hb.is "readonly" (by decide)] at h₂
    exact (pure_eq_ok.1 h₂).2.symm
  unfold accessorAhead at h
  rw [bind_of_ok (ahead_run hc₂.clean _ _), ite_run] at h
  split at h
  · rename_i ha
    refine ⟨fun hb => ?_, fun _ => Builds.answers h⟩
    rw [hstill hb, hb.is "get" (by decide), hb.is "set" (by decide)] at ha
    cases ha
  obtain ⟨b, c₃, h₃, h₄⟩ := bind_eq_ok.1 h
  obtain ⟨rfl, hi⟩ := ahead₃_eq_ok hc₂.clean h₃
  rw [ite_run] at h₄
  split at h₄
  · rename_i hb
    refine ⟨fun hb' => ?_, fun _ => Builds.answers h₄⟩
    have hbracket := (hi hb).1
    rw [hstill hb', hb'.is "[" (by decide)] at hbracket
    cases hbracket
  · obtain ⟨hbarren, hsound⟩ := namedMember_inv hc₂ h₄
    exact ⟨fun hb => hbarren (hstill hb ▸ hb), hsound⟩

/-- What separates a member from the next is a semicolon, a comma or a new line. The first two
stand where the member ends, so this place is not barren; a new line consumes nothing. -/
theorem memberEnd_inv (hc : c.Regular) {u : Unit} (h : memberEnd c = .ok (u, c')) :
    ¬Barren c ∨ c' = c := by
  rcases got_bind_inv hc.clean h with ⟨-, h⟩ | ⟨hw, -⟩
  · rcases got_bind_inv hc.clean h with ⟨-, h⟩ | ⟨hw, -⟩
    · have h' :
          (if c.current.is "\x7d" || c.current.newlineBefore || c.current.isEof then return ()
          else fail (.expected ";") : Parser Unit) c = .ok (u, c') := h
      rw [ite_run] at h'
      split at h'
      · exact .inr (pure_eq_ok.1 h').2.symm
      · cases h'
    · exact .inl (not_barren_of_is hw (by decide))
  · exact .inl (not_barren_of_is hw (by decide))

/-- Where a round of the loop over members succeeds, neither the source ends nor a point stands,
and what it answers is sound if the next round succeeds. The rounds that end the loop or skip a
separator find a mark there, and one that reads a member starts with it. -/
theorem nextMember_inv (tables : Tables) (hc : c.Regular) {o : Option (Option Member)}
    (h : nextMember typeExpr c = .ok (o, c')) :
    ¬Barren c ∧ ∀ m, o = some (some m) → ¬Barren c' → m.Sound tables := by
  -- Where no member is answered, nothing has to be known of one.
  have hnone : ∀ {x : Option (Option Member)} {c : Cursor}, (pure x : Parser _) c = .ok (o, c') →
      (∀ m, x ≠ some (some m)) → ∀ m, o = some (some m) → ¬Barren c' → m.Sound tables := by
    intro x c h hx m hm
    rw [← (pure_eq_ok.1 h).1] at hm
    exact absurd hm (hx m)
  unfold nextMember at h
  rw [is_bind, ite_run] at h
  split at h
  · rename_i hw
    exact ⟨not_barren_of_is hw (by decide), hnone h nofun⟩
  rw [isEof_bind, ite_run] at h
  split at h
  · cases h
  rcases got_bind_inv hc.clean h with ⟨-, h⟩ | ⟨hw, t, more, -, h⟩
  · rcases got_bind_inv hc.clean h with ⟨-, h⟩ | ⟨hw, t, more, -, h⟩
    · obtain ⟨m, c₁, h₁, h₂⟩ := bind_eq_ok.1 h
      obtain ⟨_, c₂, h₃, h₄⟩ := bind_eq_ok.1 h₂
      obtain ⟨rfl, rfl⟩ := pure_eq_ok.1 h₄
      -- A member is read, and then its end, which moves on or stays.
      obtain ⟨hb, hsound⟩ : ¬Barren c ∧ (¬Barren c₁ → m.Sound tables) := member_inv hc h₁
      refine ⟨hb, fun n hn hend => ?_⟩
      cases hn
      rcases memberEnd_inv (hc.of_ok h₁) h₃ with hb' | rfl
      · exact hsound hb'
      · exact hsound hend
    · exact ⟨not_barren_of_is hw (by decide), hnone h nofun⟩
  · exact ⟨not_barren_of_is hw (by decide), hnone h nofun⟩

/-! ## Interfaces

The members of an interface are those that the loop has collected, and its fields are the
properties among them. -/

/-- The members stand in braces, and each that was collected is followed by another round. -/
theorem members_inv (tables : Tables) (hc : c.Regular) {ms : List Member}
    (h : members typeExpr c = .ok (ms, c')) : c.rest ≠ [] ∧ ∀ m ∈ ms, m.Sound tables := by
  obtain ⟨_, c₁, h₁, h⟩ := bind_eq_ok.1 h
  obtain ⟨t, more, hr, -, rfl⟩ := expect_inv hc.clean h₁
  obtain ⟨found, c₂, h₂, h⟩ := bind_eq_ok.1 h
  obtain ⟨_, c₃, -, h⟩ := bind_eq_ok.1 h
  obtain ⟨rfl, rfl⟩ := pure_eq_ok.1 h
  refine ⟨by rw [hr]; exact List.cons_ne_nil _ _, ?_⟩
  have hall := forall_of_collectUpTo (P := fun o => ∀ m, o = some m → m.Sound tables)
    (fun {c c₁ _ o _} hc h₁ h₂ m hm => ?_) _ (hc.past hr) h₂
  · intro m hm
    obtain ⟨o, ho, rfl⟩ := List.mem_filterMap.1 hm
    exact hall _ ho m rfl
  · subst hm
    exact (nextMember_inv tables hc h₁).2 m rfl (nextMember_inv tables (hc.of_ok h₁) h₂).1

/-- Behind its name an interface has at least its opening brace, so the name is not at the end
of the source and is an identifier. -/
theorem interfaceDecl_inv (hc : c.Regular) {modifiers : Modifiers} {s : Statement}
    (h : interfaceDecl start modifiers c = .ok (s, c')) : s.Sound tables := by
  obtain ⟨_, c₁, h₁, h⟩ := bind_eq_ok.1 h
  have hc₁ := hc.of_ok h₁
  obtain ⟨name, c₂, h₂, h⟩ := bind_eq_ok.1 h
  obtain ⟨t, more, hr, ht, hx, rfl⟩ := identifier_inv hc₁ h₂
  have hc₂ := hc₁.past hr
  obtain ⟨generics, c₃, h₃, h⟩ := bind_eq_ok.1 h
  have hc₃ := hc₂.of_ok h₃
  obtain ⟨bases, c₄, h₄, h⟩ := bind_eq_ok.1 h
  have hc₄ := hc₃.of_ok h₄
  obtain ⟨found, c₅, h₅, h⟩ := bind_eq_ok.1 h
  obtain ⟨span, c₆, h₆, h⟩ := bind_eq_ok.1 h
  obtain ⟨rfl, -⟩ := pure_eq_ok.1 h
  obtain ⟨hrest, hmembers⟩ := members_inv tables hc₄ h₅
  refine ⟨?_, fun f hf => ?_⟩
  · show IsName False name.text
    rw [hx]
    refine ((hc₁.head hr).name ht).mono fun hm => hrest ?_
    -- Between the name and the members nothing goes back, so the name is not the last token.
    have hs : c₄.rest <:+ more := (Moves.suffix_of_ok h₄).trans (Moves.suffix_of_ok h₃)
    rw [hm] at hs
    exact List.suffix_nil.1 hs
  · obtain ⟨m, hm, hf⟩ := List.mem_filterMap.1 hf
    have hsound := hmembers m hm
    cases m with
    | property _ _ name _ type =>
      cases hf
      exact hsound
    | _ => cases hf

/-- Only an interface has to be sound. -/
theorem statementFrom_inv (hc : c.Regular) {first : Text} {s : Statement}
    (h : statementFrom start first c = .ok (s, c')) : s.Sound tables := by
  obtain ⟨modifiers, d, hpass, h⟩ := formParser_of_statementFrom h
  cases s with
  | interfaceDecl i => exact interfaceDecl_inv (hc.of_passes hpass) h
  | _ => trivial

/-- A statement that a round answers comes from the rule behind modifiers. -/
theorem nextStatement_inv (hc : c.Regular) {o : Option (Option Statement)}
    (h : nextStatement c = .ok (o, c')) {s : Statement} (hs : o = some (some s)) :
    s.Sound tables := by
  subst hs
  obtain ⟨_, c₁, c₂, h₁, h₂, h₃⟩ := statementFrom_of_nextStatement h
  exact statementFrom_inv ((hc.of_ok h₁).of_ok h₂) h₃

end Parser

/-- **The interfaces of a unit that was read are sound.** The statements of a unit are those
that the rounds have answered. -/
theorem Tree.SourceUnit.sound_of_parse {name : String} {source : Text} {u : SourceUnit}
    (h : SourceUnit.parse name source = .ok u) (tables : Tables) :
    ∀ s ∈ u.statements, s.Sound tables := by
  obtain ⟨hreg, found, c', h', -, hu⟩ := unit_eq_ok h
  intro s hs
  rw [hu] at hs
  obtain ⟨o, ho, rfl⟩ := List.mem_filterMap.1 hs
  refine forall_of_collectUpTo
    (P := fun o => ∀ s, o = some s → s.Sound tables) ?_ _ hreg h' _ ho s rfl
  exact fun hc h₁ _ s hs => nextStatement_inv hc h₁ (congrArg some hs)

end Exemplar
