import Exemplar.Proofs.Builder.Filling
import Exemplar.Proofs.Repeats
import Exemplar.Proofs.Token.Gaps

/-!
# The placeholders of a template

Two scans go over a template: one fills it, the other lists the names of its placeholders. They
are written differently, the first by trying keys at every place and the second by looking for
an opening and the next closing brace. On a template that is a sequence of segments both find
exactly its placeholders.
-/

namespace Exemplar.Template

variable {s u x y : Text} {segments rest : List Segment}

/-- The name of a placeholder. -/
def Segment.name? : Segment → Option Text
  | .literal _ => none
  | .hole name => some name

theorem Segment.name?_eq_some {p : Segment} : p.name? = some x ↔ p = .hole x := by
  cases p with
  | literal s => exact ⟨nofun, nofun⟩
  | hole y => exact ⟨fun h => congrArg _ (Option.some.inj h), fun h => by cases h; rfl⟩

/-! ## The scan for names -/

/-- The scan passes over a place at which no placeholder opens. -/
theorem namesFrom_cons {g : Glyph} (h : ¬opening <+: g :: u) :
    namesFrom none (g :: u) = namesFrom none u := by
  by_cases hg : g.is '@' = true
  · cases u with
    | nil => simp [namesFrom, hg]
    | cons k u =>
      have hk : ¬k.is '\x7b' = true := fun hk => h (by
        rw [Glyph.eq_char_of_is hg (by decide), Glyph.eq_char_of_is hk (by decide)]
        exact List.prefix_append opening u)
      simp [namesFrom, hg, hk]
  · cases u <;> simp [namesFrom, hg]

/-- The scan passes over a literal. -/
theorem namesFrom_literal (hs : opens s = false) (hu : u.head? ≠ some (.char '\x7b')) :
    namesFrom none (s ++ u) = namesFrom none u := by
  have hplaces : ∀ r, r <:+ s → r ≠ [] → ¬opening <+: r ++ u := fun _ =>
    not_opening_of_append hs (.inr hu)
  induction s with
  | nil => rfl
  | cons g s ih =>
    rw [opens, Bool.or_eq_false_iff] at hs
    have hplace : ¬opening <+: g :: (s ++ u) :=
      hplaces (g :: s) List.suffix_rfl (List.cons_ne_nil _ _)
    rw [List.cons_append, namesFrom_cons hplace]
    exact ih hs.2 fun r hr => hplaces r (hr.trans (List.suffix_cons _ _))

/-- The scan reads a name up to the brace that closes it. -/
theorem namesFrom_name (hx : closing ∉ x) (y u : Text) :
    namesFrom (some y) (x ++ closing :: u) = (y ++ x) :: namesFrom none u := by
  induction x generalizing y with
  | nil => rw [List.append_nil]; rfl
  | cons g x ih =>
    have hg : g.is '\x7d' = false := Bool.eq_false_iff.2 fun hg =>
      hx (Glyph.eq_char_of_is hg (by decide) ▸ List.mem_cons_self)
    rw [List.cons_append, namesFrom, hg, if_neg Bool.false_ne_true,
      ih (fun hmem => hx (List.mem_cons_of_mem _ hmem)),
      List.append_assoc, List.singleton_append]

theorem namesFrom_placeholder (hx : closing ∉ x) :
    namesFrom none (placeholder x ++ u) = x :: namesFrom none u := by
  rw [placeholder_eq, List.append_assoc, List.append_assoc]
  exact namesFrom_name hx [] u

/-- **The scan finds the names of the placeholders**, in their order. -/
theorem namesFrom_segments (hs : isProper segments = true) :
    namesFrom none (segments.flatMap Segment.source) = segments.filterMap Segment.name? := by
  fun_induction isProper segments with
  | case1 => rfl
  | case2 x rest ih =>
    simp only [Bool.and_eq_true, Bool.not_eq_true', List.contains_eq_mem,
      decide_eq_false_iff_not] at hs
    obtain ⟨⟨hx, -⟩, hrest⟩ := hs
    rw [List.flatMap_cons, Segment.source, namesFrom_placeholder hx, ih hrest]
    rfl
  | case3 s => exact namesFrom_literal (Bool.not_eq_true' _ ▸ hs) (head?_source (.inl rfl))
  | case4 s x rest ih =>
    rw [Bool.and_eq_true, Bool.not_eq_true'] at hs
    exact (namesFrom_literal hs.1 (head?_source (.inr ⟨x, rest, rfl⟩))).trans (ih hs.2)
  | case5 => cases hs

/-! ## What both scans find -/

/-- **Filling and listing see the same placeholders.** A template of literals, in which no
placeholder opens and of which no two are adjacent, and of placeholders with names that neither
open nor close one is filled by one simultaneous substitution, whatever the values contain:
literals stay, and each placeholder is replaced by the value of its name or, where the name has
none, stays as well. The names listed for it are those of its placeholders, each once, in the
order in which they appear first. -/
theorem fill_and_names_segments {m : Mapping} (hs : isProper segments = true)
    (hm : areKeys (m.map Prod.fst) = true) :
    fill (segments.flatMap Segment.source) m = segments.flatMap (Segment.filled m) ∧
    (∀ x, x ∈ names (segments.flatMap Segment.source) ↔ .hole x ∈ segments) ∧
    (names (segments.flatMap Segment.source)).Pairwise
      (fun x y => segments.idxOf (.hole x) < segments.idxOf (.hole y)) := by
  have hnames : names (segments.flatMap Segment.source) =
      (segments.filterMap Segment.name?).eraseDups := by
    rw [names, namesFrom_segments hs]
  refine ⟨fill_segments hs hm, fun x => ?_, ?_⟩
  · rw [hnames, List.mem_eraseDups, List.mem_filterMap]
    exact ⟨fun ⟨p, hp, hx⟩ => Segment.name?_eq_some.1 hx ▸ hp, fun hp => ⟨_, hp, rfl⟩⟩
  · rw [hnames]
    exact (pairwise_idxOf_eraseDups _).imp fun hlt =>
      idxOf_lt_of_filterMap (fun _ => Segment.name?_eq_some) (fun _ => Segment.name?_eq_some) hlt

/-- A template with a literal that ends in a sign, a name that is the start of another, one
without a value, and one that stands twice. -/
def awkward : List Segment :=
  [.literal (Text.ofString "\x7d@"), .hole (Text.ofString "ab"), .hole (Text.ofString "a"),
   .literal (Text.ofString "\x7b"), .hole (Text.ofString "c@"), .hole (Text.ofString "ab")]

/-- Values of which one looks like a placeholder. -/
def lookalike : Mapping :=
  [(Text.ofString "a", Text.ofString "@\x7bab\x7d"), (Text.ofString "ab", Text.ofString "@")]

/-- Nothing is read across the border of two segments, and no value is filled again. -/
theorem fill_and_names_awkward :
    isProper awkward = true ∧ areKeys (lookalike.map Prod.fst) = true ∧
    fill (Text.ofString "\x7d@@\x7bab\x7d@\x7ba\x7d\x7b@\x7bc@\x7d@\x7bab\x7d") lookalike =
      Text.ofString "\x7d@@@\x7bab\x7d\x7b@\x7bc@\x7d@" ∧
    ∀ x, x ∈ names (awkward.flatMap Segment.source) ↔ .hole x ∈ awkward := by
  have hs : isProper awkward = true := by decide
  have hm : areKeys (lookalike.map Prod.fst) = true := by decide
  obtain ⟨hfill, hmem, -⟩ := fill_and_names_segments hs hm
  exact ⟨hs, hm, hfill.trans (by decide), hmem⟩

end Exemplar.Template
