import Exemplar.Token.Lexeme
import Mathlib.Logic.Basic
import Mathlib.Tactic.SplitIfs

/-!
# The scan of a template literal, step by step

The scan of a template literal keeps a stack of what is open. `Open.step` is one step of it: the
glyphs it takes, and what is open behind them. Only the innermost of what is open has a say in a
step, so a scan goes on with what stands below on the stack once that is closed
(`templateExtent_append`). A string inside a substitution is scanned as one outside.

The scan itself recurses on the text with a case for each thing that can be open, and each proof
about it would go through all of them. Everything else is therefore said of a step, for which
the cases are split once, and then by induction of the scan, which has only two: a step that
takes something and one that stops (`templateExtent_step`). How far a step looks is among the
facts that are needed, since texts are to be put behind each other.
-/

namespace Exemplar

/-- The number of glyphs that are read to know an extent. -/
def Extent.length : Extent → Nat
  | .closed n => n
  | .broken n _ => n

/-- More glyphs in front. -/
@[simp] theorem Extent.length_extend (n : Nat) (e : Extent) :
    (e.extend n).length = n + e.length := by
  cases e <;> rfl

/-- An extent with what comes behind it, unless it is left open. -/
def Extent.andThen (e : Extent) (f : Nat → Extent) : Extent :=
  match e with
  | .closed n => (f n).extend n
  | .broken n fault => .broken n fault

/-- And still more. -/
theorem Extent.extend_extend (e : Extent) (m n : Nat) :
    (e.extend n).extend m = e.extend (m + n) := by
  cases e <;> simp only [extend, Nat.add_assoc]

namespace Lexeme

/-- The number of glyphs of a delimited lexeme. -/
theorem delimited_length (kind : Token.Kind) (e : Extent) :
    (delimited kind e).length = e.length + 1 := by
  cases e <;> exact Nat.add_comm 1 _

/-- Whether something open is a string. -/
def Open.isString : Open → Bool
  | .string _ => true
  | _ => false

/-- What a step of the scan does. -/
inductive Step where
  /-- It takes a glyph and so many more, and leaves the given things open. -/
  | take (more : Nat) (open' : List Open)
  /-- It finds behind so many glyphs that something is left open. -/
  | stop (length : Nat) (fault : LexicalFault)

/-- What is left open at the end of the source. -/
def Open.fault : Open → LexicalFault
  | .template => .template
  | .substitution _ => .substitution
  | .string _ => .string

/-- **One step of the scan**, at the glyph `g` in front of `rest`, inside `o` and what is open
outside of it. -/
def Open.step (o : Open) (outer : List Open) (g : Glyph) (rest : Text) : Step :=
  match o with
  | .template =>
    if g.is '\x60' then .take 0 outer
    else if g.is '\\' then if rest.isEmpty then .stop 1 .template else .take 1 (o :: outer)
    else if g.is '$' then
      if rest.isEmpty then .stop 1 .template
      else if rest.head?.any (·.is '\x7b') then .take 1 (.substitution 0 :: o :: outer)
      else .take 0 (o :: outer)
    else .take 0 (o :: outer)
  | .substitution braces =>
    if g.is '\x7b' then .take 0 (.substitution (braces + 1) :: outer)
    else if g.is '\x7d' then
      if braces = 0 then .take 0 outer else .take 0 (.substitution (braces - 1) :: outer)
    else if g.is '"' then .take 0 (.string '"' :: o :: outer)
    else if g.is '\'' then .take 0 (.string '\'' :: o :: outer)
    else if g.is '\x60' then .take 0 (.template :: o :: outer)
    else .take 0 (o :: outer)
  | .string quote =>
    if g.is quote then .take 0 outer
    else if g.is '\n' then .stop 0 .string
    else if g.is '\\' then if rest.isEmpty then .stop 1 .string else .take 1 (o :: outer)
    else .take 0 (o :: outer)

/-- The extent of what is left to scan behind a step. -/
def Step.extent (rest : Text) : Step → Extent
  | .take more l => (templateExtent l (rest.drop more)).extend (1 + more)
  | .stop n fault => .broken n fault

/-- A step with more open further out. -/
def Step.below (below : List Open) : Step → Step
  | .take more l => .take more (l ++ below)
  | .stop n fault => .stop n fault

/-- **The scan is made of its steps.** -/
theorem templateExtent_step (o : Open) (outer : List Open) (g : Glyph) (rest : Text) :
    templateExtent (o :: outer) (g :: rest) = (o.step outer g rest).extent rest := by
  cases o with
  | template =>
    rw [templateExtent.eq_def]
    cases rest with
    | nil => simp only [Open.step, List.isEmpty_nil, if_true, apply_ite (Step.extent [])]; rfl
    | cons h rest =>
      simp only [Open.step, List.isEmpty_cons, Bool.false_eq_true, if_false,
        apply_ite (Step.extent (h :: rest))]
      rfl
  | substitution braces =>
    rw [templateExtent.eq_def]
    cases braces <;> simp only [Open.step, Nat.add_one_ne_zero, if_false, if_true,
      apply_ite (Step.extent rest)] <;> rfl
  | string quote =>
    rw [templateExtent.eq_def]
    cases rest with
    | nil => simp only [Open.step, List.isEmpty_nil, if_true, apply_ite (Step.extent [])]; rfl
    | cons h rest =>
      simp only [Open.step, List.isEmpty_cons, Bool.false_eq_true, if_false,
        apply_ite (Step.extent (h :: rest))]
      rfl

/-- At the end of the text something is left open, and the innermost of it is reported. -/
theorem templateExtent_nil (o : Open) (outer : List Open) :
    templateExtent (o :: outer) [] = .broken 0 o.fault := by
  cases o <;> rfl

section Inversion

variable {o : Open} {outer l : List Open} {g : Glyph} {rest : Text}
  {more n : Nat} {fault : LexicalFault}

/-- **What a step takes.** It takes one glyph, or an escape in a template or a string, or what
begins a substitution. -/
theorem Open.take_of_step (hs : o.step outer g rest = .take more l) :
    more = 0 ∨ more = 1 ∧ ∃ h u, rest = h :: u ∧
      (l = o :: outer ∧ (o = .template ∨ o.isString = true) ∨ h.is '\x7b' = true) := by
  have hcons (h : ¬rest.isEmpty = true) : ∃ h u, rest = h :: u :=
    List.exists_cons_of_ne_nil (mt List.isEmpty_iff.2 h)
  -- Each branch that takes two glyphs has asked whether there are two.
  cases o with
  | template =>
    simp only [step] at hs
    split_ifs at hs with _ _ hne _ hne hbrace <;> cases hs <;> try exact .inl rfl
    · obtain ⟨h, u, rfl⟩ := hcons hne
      exact .inr ⟨rfl, h, u, rfl, .inl ⟨rfl, .inl rfl⟩⟩
    · obtain ⟨h, u, rfl⟩ := hcons hne
      exact .inr ⟨rfl, h, u, rfl, .inr hbrace⟩
  | substitution braces =>
    simp only [step] at hs
    split_ifs at hs <;> cases hs <;> exact .inl rfl
  | string quote =>
    simp only [step] at hs
    split_ifs at hs with _ _ _ hne <;> cases hs <;> try exact .inl rfl
    obtain ⟨h, u, rfl⟩ := hcons hne
    exact .inr ⟨rfl, h, u, rfl, .inl ⟨rfl, .inr rfl⟩⟩

/-- A step finds something left open where it stands, or at the end of the source. -/
theorem Open.stop_of_step (hs : o.step outer g rest = .stop n fault) :
    n = 0 ∨ n = 1 ∧ rest = [] := by
  cases o <;> simp only [step] at hs <;> split_ifs at hs <;> cases hs <;>
    first | exact .inl rfl | exact .inr ⟨rfl, List.isEmpty_iff.1 (by assumption)⟩

/-- The glyphs that mean something to the scan. -/
def marks : List Char := ['\x60', '\\', '$', '\x7b', '\x7d', '"', '\'']

/-- **A glyph that means nothing is taken**, outside of strings. -/
theorem Open.step_plain (ho : o.isString = false)
    (hg : ∀ c ∈ marks, g.is c = false) (outer : List Open)
    (rest : Text) : o.step outer g rest = .take 0 (o :: outer) := by
  simp only [marks, List.mem_cons, List.not_mem_nil, or_false, forall_eq_or_imp, forall_eq] at hg
  cases o with
  | template => simp [step, hg]
  | substitution braces => simp [step, hg]
  | string quote => cases ho

/-- The quotes of strings are quotes. -/
theorem Open.quote_of_step (hs : o.step outer g rest = .take more l)
    (hl : ∀ q, Open.string q ∈ o :: outer → q = '"' ∨ q = '\'') :
    ∀ q, Open.string q ∈ l → q = '"' ∨ q = '\'' := by
  cases o <;> simp only [step] at hs <;> split_ifs at hs <;> cases hs <;> simp_all

/-- A step looks at most one glyph ahead. -/
theorem Open.step_head (o : Open) (outer : List Open) (g h : Glyph) (u v : Text) :
    o.step outer g (h :: u) = o.step outer g (h :: v) := by
  cases o <;> rfl

/-- A step that takes one glyph does not look at the next, unless this is behind a dollar
sign. -/
theorem Open.step_of_take_zero (hs : o.step outer g rest = .take 0 l) (u : Text) :
    o.step outer g u = .take 0 l ∨ l = .template :: outer := by
  cases o <;> simp only [step] at hs ⊢ <;> split_ifs at hs ⊢ <;> cases hs <;> simp_all

end Inversion

/-- A step does not depend on what is open further out. -/
theorem Open.step_append (o : Open) (outer below : List Open) (g : Glyph) (rest : Text) :
    o.step (outer ++ below) g rest = (o.step outer g rest).below below := by
  cases o <;> simp only [step, apply_ite (Step.below below)] <;> rfl

/-- What is in front can be counted first or last. -/
theorem andThen_extend (e : Extent) (n : Nat) (f : Nat → Extent) :
    (e.extend n).andThen f = (e.andThen fun k => f (n + k)).extend n := by
  cases e with
  | closed k =>
    show (f (n + k)).extend (n + k) = ((f (n + k)).extend k).extend n
    cases f (n + k) <;> simp only [Extent.extend, Nat.add_assoc]
  | broken k fault => rfl

/-- **The scan goes on with what is open further out** behind where the rest of it is closed. By
induction on the length of the text. A step is the same whatever is open further out, and a step
that closes the last thing above it leaves just that. -/
theorem templateExtent_append (l below : List Open) (x : Text) :
    templateExtent (l ++ below) x = (templateExtent l x).andThen fun k =>
    templateExtent below (x.drop k) := by
  induction hn : x.length using Nat.strongRecOn generalizing l x with
  | _ n ih =>
    cases l with
    | nil =>
      rw [templateExtent]
      show _ = (templateExtent below x).extend 0
      cases h :
        templateExtent below x <;> simp only [List.nil_append, h, Extent.extend, Nat.zero_add]
    | cons o outer =>
      cases x with
      | nil => rw [List.cons_append, templateExtent_nil, templateExtent_nil]; rfl
      | cons g rest =>
        rw [List.cons_append, templateExtent_step, templateExtent_step, Open.step_append]
        cases o.step outer g rest with
        | stop k fault => rfl
        | take more l =>
          -- The step has taken a glyph at least.
          have hlt : (rest.drop more).length < n := by
            rw [List.length_cons] at hn
            rw [List.length_drop]
            omega
          show (templateExtent (l ++ below) (rest.drop more)).extend (1 + more) = _
          rw [ih _ hlt l _ rfl, Step.extent, andThen_extend]
          simp only [List.drop_drop, Nat.add_comm 1, Nat.add_right_comm, List.drop_succ_cons]

/-- **A string in a substitution is scanned as one outside.** -/
theorem templateExtent_string (quote : Char) (x : Text) :
    templateExtent [.string quote] x = stringExtent quote x := by
  fun_induction stringExtent quote x with
  | case1 => rfl
  | case2 g x hg =>
    rw [templateExtent_step, Open.step, if_pos hg, Step.extent, templateExtent]
    rfl
  | case3 g x hg hn => rw [templateExtent_step, Open.step, if_neg hg, if_pos hn]; rfl
  | case4 g hg hn hb k x ih =>
    rw [templateExtent_step, Open.step, if_neg hg, if_neg hn, if_pos hb, ← ih]
    rfl
  | case5 g hg hn hb => rw [templateExtent_step, Open.step, if_neg hg, if_neg hn, if_pos hb]; rfl
  | case6 g x hg hn hb ih =>
    rw [templateExtent_step, Open.step, if_neg hg, if_neg hn, if_neg hb, ← ih]
    rfl

end Lexeme

end Exemplar
