import Exemplar.Token.Lexeme

/-!
# The scan of an identifier

An identifier may contain escapes, and an escape takes the glyphs behind it whatever they are,
so how far an identifier reaches is not a matter of its alphabet alone. `NameMode.next?` is one
step of the scan and `NameMode.read` is the scan of a whole text. What a scan has consumed can
be scanned again in front of another text, and it then reaches at least as far
(`nameLength_append`); it reaches no further if no escape is left open (`NameMode.Done`) and the
next glyph does not belong to an identifier.

`IsName` collects what is known about the text of an identifier: how it starts, and that the
scan goes through it. Only at the end of a source can an escape be cut off, so the predicate is
indexed by a proposition that allows for it.

The proposition is `False` wherever an identifier is known to be followed by something, and for
the last token of a source it says that nothing follows. So one predicate serves for both, and
an identifier without a cut is one with it (`IsName.mono`).
-/

namespace Exemplar.Lexeme

open Exemplar.Text.Identifier

namespace NameMode

/-- Where the scan stands behind one more glyph, if the glyph belongs to the identifier. -/
def next? : NameMode → Glyph → Option NameMode
  | .escaped, _ => some .opened
  | .opened, g => if g.is '\x7b' then some .braced else some (.digits 3)
  | .digits (k + 1), _ => some (.digits k)
  | .braced, g => if g.is '\x7d' then some .plain else some .braced
  | _, g =>
    if g.is '\\' then some .escaped else if isContinue g.toChar then some .plain else none

/-- Where the scan stands behind a text, if all of it belongs to the identifier. -/
def read (m : NameMode) : Text → Option NameMode
  | [] => some m
  | g :: rest => (m.next? g).bind (·.read rest)

/-- No escape is open. -/
def Done (m : NameMode) : Prop := m = .plain ∨ m = .digits 0

/-- No escape has been opened. -/
@[simp] theorem done_plain : Done .plain := .inl rfl

/-- Nothing is left to scan. -/
@[simp] theorem read_nil (m : NameMode) : m.read [] = some m := rfl

/-- One glyph, and the rest from where that leads. -/
@[simp] theorem read_cons (m : NameMode) (g : Glyph) (rest : Text) :
    m.read (g :: rest) = (m.next? g).bind (·.read rest) := rfl

/-- Two texts are scanned one after the other. -/
theorem read_append (m : NameMode) (s t : Text) :
    m.read (s ++ t) = (m.read s).bind (·.read t) := by
  induction s generalizing m with
  | nil => rfl
  | cons g rest ih => cases h : m.next? g <;> simp [h, ih]

/-- Outside an escape, the glyphs that belong to the identifier are those that go on with one. -/
theorem next?_eq_none {m : NameMode} (hm : m.Done) (g : Glyph) :
    m.next? g = none ↔ (g.is '\\' || isContinue g.toChar) = false := by
  have h : m.next? g =
      if g.is '\\' then some .escaped else if isContinue g.toChar
          then some .plain else none := by
    rcases hm with rfl | rfl <;> rfl
  rw [h]
  by_cases hb : g.is '\\' = true
  · simp [hb]
  · by_cases hc : isContinue g.toChar = true <;> simp [hb, hc]

end NameMode

/-- The length of an identifier, step by step. -/
theorem nameLength_cons (m : NameMode) (g : Glyph) (rest : Text) :
    nameLength m (g :: rest) =
      match m.next? g with
      | some m' => 1 + nameLength m' rest
      | none => 0 := by
  cases m with
  | plain =>
    by_cases hb : g.is '\\' = true
    · simp [nameLength, NameMode.next?, hb]
    · by_cases hc : isContinue g.toChar = true <;> simp [nameLength, NameMode.next?, hb, hc]
  | escaped => rfl
  | opened => simp only [nameLength, NameMode.next?]; split <;> rfl
  | digits k =>
    cases k with
    | zero =>
      by_cases hb : g.is '\\' = true
      · simp [nameLength, NameMode.next?, hb]
      · by_cases hc : isContinue g.toChar = true <;> simp [nameLength, NameMode.next?, hb, hc]
    | succ k => rfl
  | braced => simp only [nameLength, NameMode.next?]; split <;> rfl

/-- What was scanned is scanned again in front of any text. By induction on what was scanned. -/
theorem nameLength_append {m m' : NameMode} {x : Text} (h : m.read x = some m') (u : Text) :
    nameLength m (x ++ u) = x.length + nameLength m' u := by
  induction x generalizing m with
  | nil => cases h; simp
  | cons g rest ih =>
    cases hn : m.next? g with
    | none => simp [hn] at h
    | some m₁ =>
      simp only [NameMode.read_cons, hn, Option.bind_some] at h
      rw [List.cons_append, nameLength_cons, hn, List.length_cons]
      show 1 + nameLength m₁ (rest ++ u) = _
      rw [ih h]; omega

/-- The scan goes through what belongs to the identifier, and not beyond. -/
theorem read_take_nameLength (m : NameMode) (t : Text) :
    ∃ m', m.read (t.take (nameLength m t)) = some m' ∧
      nameLength m' (t.drop (nameLength m t)) = 0 := by
  induction t generalizing m with
  | nil => exact ⟨m, by simp, by cases m <;> simp [nameLength]⟩
  | cons g rest ih =>
    rw [nameLength_cons]
    cases hn : m.next? g with
    | none => exact ⟨m, by simp, by simp [nameLength_cons, hn]⟩
    | some m₁ =>
      obtain ⟨m', h, h'⟩ := ih m₁
      refine ⟨m', ?_, ?_⟩
      · simp only [Nat.add_comm 1, List.take_succ_cons, NameMode.read_cons,
          hn, Option.bind_some, h]
      · simpa only [Nat.add_comm 1, List.drop_succ_cons] using h'

/-- Whether a glyph goes on with an identifier in which no escape is open. -/
def continues (g : Glyph) : Bool := g.is '\\' || isContinue g.toChar

/-- No identifier goes on with a text. -/
def StopsName (u : Text) : Prop := ∀ g ∈ u.head?, continues g = false

/-- At the end nothing goes on. -/
@[simp] theorem stopsName_nil : StopsName [] := fun _ h => by cases h

/-- What comes next is asked of its first glyph. -/
@[simp] theorem stopsName_cons {g : Glyph} {u : Text} :
    StopsName (g :: u) ↔ continues g = false := by
  simp [StopsName]

/-- **A finished identifier ends where no identifier goes on.** -/
theorem nameLength_eq_zero {m : NameMode} (hm : m.Done) {u : Text} (hu : StopsName u) :
    nameLength m u = 0 := by
  cases u with
  | nil => cases m <;> simp [nameLength]
  | cons g rest =>
    rw [stopsName_cons, continues, Bool.or_eq_false_iff] at hu
    rcases hm with rfl | rfl <;> simp [nameLength, hu.1, hu.2]

/-- A scan that stops before a glyph has no escape open. -/
theorem done_of_nameLength_eq_zero {m : NameMode} {g : Glyph} {u : Text}
    (h : nameLength m (g :: u) = 0) : m.Done ∧ continues g = false := by
  rw [nameLength_cons] at h
  cases hn : m.next? g with
  | some m' => rw [hn] at h; simp at h
  | none =>
    cases m with
    | plain => exact ⟨.inl rfl, (NameMode.next?_eq_none (.inl rfl) g).1 hn⟩
    | escaped => simp [NameMode.next?] at hn
    | opened => simp only [NameMode.next?] at hn; split at hn <;> cases hn
    | digits k =>
      cases k with
      | zero => exact ⟨.inr rfl, (NameMode.next?_eq_none (.inr rfl) g).1 hn⟩
      | succ k => simp [NameMode.next?] at hn
    | braced => simp only [NameMode.next?] at hn; split at hn <;> cases hn

/-- The glyphs of an identifier that its scan goes through: all but a leading `#`. -/
def nameBody : Text → Text
  | [] => []
  | g :: rest => if g.is '#' then rest else g :: rest

/-- The text of an identifier. An escape in it may be cut off if `cut` holds. -/
structure IsName (cut : Prop) (x : Text) : Prop where
  /-- It starts as an identifier does. -/
  starts : ∃ g rest, x = g :: rest ∧ (isStart g.toChar = true ∨ g.is '\\' = true ∨
    (g.is '#' = true ∧ ∃ h more, rest = h :: more ∧ isStart h.toChar = true))
  /-- The scan goes through it. -/
  scanned : ∃ m, NameMode.plain.read (nameBody x) = some m ∧ (m.Done ∨ cut)

/-- More may be cut off. -/
theorem IsName.mono {p q : Prop} {x : Text} (h : IsName p x) (hpq : p → q) : IsName q x :=
  ⟨h.starts, h.scanned.imp fun _ hm => ⟨hm.1, hm.2.imp id hpq⟩⟩

/-- An identifier is not empty. -/
theorem IsName.ne_nil {p : Prop} {x : Text} (h : IsName p x) : x ≠ [] := by
  obtain ⟨g, rest, rfl, -⟩ := h.starts
  exact List.cons_ne_nil _ _

/-- Whether a text starts as identifiers do. -/
def startsName : Text → Bool
  | [] => false
  | g :: _ => isStart g.toChar || g.is '\\' || g.is '#'

/-- An identifier is no text that starts otherwise. -/
theorem IsName.ne_of_startsName {p : Prop} {x y : Text} (h : IsName p x)
    (hy : startsName y = false) : x ≠ y := by
  rintro rfl
  obtain ⟨g, rest, rfl, hs⟩ := h.starts
  simp only [startsName, Bool.or_eq_false_iff] at hy
  rcases hs with hs | hs | ⟨hs, -⟩
  · rw [hy.1.1] at hs; cases hs
  · rw [hy.1.2] at hs; cases hs
  · rw [hy.2] at hs; cases hs

/-- What is read as a given character is not read as another. -/
theorem is_eq_false {g : Glyph} {c d : Char} (h : g.is c = true) (hne : c ≠ d) :
    g.is d = false := by
  rw [Glyph.is, beq_iff_eq] at h
  rw [Glyph.is, h]
  exact beq_false_of_ne hne

/-- A glyph that starts an identifier is none of the given characters that do not. -/
theorem is_eq_false_of_isStart {g : Glyph} {c : Char} (hg : isStart g.toChar = true)
    (hc : isStart c = false) : g.is c = false := by
  rw [Glyph.is, beq_eq_false_iff_ne]
  rintro rfl
  rw [hg] at hc; cases hc

/-- A glyph that starts an identifier is no digit. -/
theorem isDigit_of_isStart {c : Char} (h : isStart c = true) : c.isDigit = false := by
  have key : ∀ n < 10, isStart (Char.ofNat (48 + n)) = false := by decide
  cases hd : c.isDigit with
  | false => rfl
  | true =>
    simp only [Char.isDigit, Bool.and_eq_true, decide_eq_true_eq] at hd
    have hl : 48 ≤ c.toNat := hd.1
    have hu : c.toNat ≤ 57 := hd.2
    have := key (c.toNat - 48) (by omega)
    rw [show 48 + (c.toNat - 48) = c.toNat by omega, Char.ofNat_toNat, h] at this
    cases this

/-- A glyph that continues an identifier outside an escape does so without one. -/
theorem next?_of_isContinue {m : NameMode} (hm : m.Done) {g : Glyph}
    (h : isContinue g.toChar = true) : m.next? g = some .plain := by
  have hb : g.is '\\' = false := by
    rw [Glyph.is, beq_eq_false_iff_ne]
    intro hc
    rw [hc] at h
    exact absurd h (by decide)
  rcases hm with rfl | rfl <;> simp [NameMode.next?, hb, h]

/-- The scan goes through what continues an identifier without an escape. -/
theorem read_of_all {m : NameMode} (hm : m.Done) {x : Text}
    (h : x.all (fun g => isContinue g.toChar) = true) : ∃ m', m.read x = some m' ∧ m'.Done := by
  induction x generalizing m with
  | nil => exact ⟨m, rfl, hm⟩
  | cons g x ih =>
    rw [List.all_cons, Bool.and_eq_true] at h
    rw [NameMode.read_cons, next?_of_isContinue hm h.1]
    exact ih NameMode.done_plain h.2

/-- Whether a text is an identifier without escapes. -/
def isLetters : Text → Bool
  | [] => false
  | g :: rest => isStart g.toChar && rest.all (fun h => isContinue h.toChar)

/-- An identifier without escapes is one. -/
theorem IsName.of_isLetters {cut : Prop} {x : Text} (h : isLetters x = true) : IsName cut x := by
  cases x with
  | nil => cases h
  | cons g rest =>
    rw [isLetters, Bool.and_eq_true] at h
    have hash : g.is '#' = false := is_eq_false_of_isStart h.1 (by decide)
    have hb : nameBody (g :: rest) = g :: rest := by simp [nameBody, hash]
    have hall : (g :: rest).all (fun h => isContinue h.toChar) = true := by
      rw [List.all_cons, isContinue_of_isStart h.1, h.2]; rfl
    obtain ⟨m, hm, hd⟩ := read_of_all NameMode.done_plain hall
    exact ⟨⟨g, rest, rfl, .inl h.1⟩, m, by rwa [hb], .inl hd⟩

/-- An identifier that starts without an escape is its first glyph and what the scan goes
through. -/
theorem isName_cons_iff {cut : Prop} {g : Glyph} {rest : Text} (hg : isStart g.toChar = true) :
    IsName cut (g :: rest) ↔ ∃ m, NameMode.plain.read rest = some m ∧ (m.Done ∨ cut) := by
  have hash : g.is '#' = false := is_eq_false_of_isStart hg (by decide)
  have hb : NameMode.plain.read (nameBody (g :: rest)) = NameMode.plain.read rest := by
    rw [nameBody, hash]
    exact (NameMode.read_cons _ _ _).trans
      (by rw [next?_of_isContinue NameMode.done_plain (isContinue_of_isStart hg)]; rfl)
  refine ⟨fun h => by rw [← hb]; exact h.scanned, fun h => ⟨⟨g, rest, rfl, .inl hg⟩, ?_⟩⟩
  rw [hb]; exact h

/-- **An identifier goes on with what continues identifiers.** -/
theorem IsName.append {cut : Prop} {x y : Text} (h : IsName False x)
    (hy : y.all (fun g => isContinue g.toChar) = true) : IsName cut (x ++ y) := by
  obtain ⟨g, rest, rfl, hs⟩ := h.starts
  obtain ⟨m, hm, hd⟩ := h.scanned
  refine ⟨⟨g, rest ++ y, rfl, hs.imp id (Or.imp id ?_)⟩, ?_⟩
  · rintro ⟨hg, k, more, rfl, hk⟩
    exact ⟨hg, k, more ++ y, rfl, hk⟩
  · obtain ⟨m', hm', hd'⟩ := read_of_all (hd.resolve_right id) hy
    refine ⟨m', ?_, .inl hd'⟩
    have hb : nameBody (g :: rest ++ y) = nameBody (g :: rest) ++ y := by
      rw [List.cons_append, nameBody, nameBody]
      split <;> rfl
    rw [hb, NameMode.read_append, hm]
    exact hm'

end Exemplar.Lexeme
