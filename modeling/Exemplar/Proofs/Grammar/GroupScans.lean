import Exemplar.Proofs.Grammar.SkippedExpressions
import Exemplar.Proofs.Grammar.GroupReadings

/-!
# Groups and where they break

Two scans look for the end of a group. The one that skips it keeps the closing brackets it waits
for on a stack; the one that looks ahead only counts open brackets and does not ask of which
kind they are. A group that is nested properly has one end, and both find it there.

Where no group starts, skipping stops at the first bracket that shows it. `Leaves` says what is
open behind some tokens. A round of the scan keeps it (`scan_round`), so when the scan comes to
a bracket that does not close the innermost group, or to the end of the tokens, it is known what
was waited for.

The scan that skips measures the group before anything is consumed, and then consumes that many
tokens. It can be stopped in the second step as well, at a fault behind the last token; and an
error is reported at the place it has come to, which is why the tokens before a wrong bracket
are consumed although nothing becomes of them.
-/

namespace Exemplar

open Exemplar.Brackets

namespace Brackets

variable {l u front inner : List Token} {t : Token} {n : Nat}
  {w top : Text} {outer ws : List Text}

/-- A group: an opening bracket, a nested sequence, and the bracket that closes the first. -/
inductive IsGroup : List Token → Prop
  | mk {o c : Token} {inner : List Token} (ho : o.isOpener = true) (hc : c.isCloser = true)
    (ht : c.text = o.closer) (hi : Nested inner) : IsGroup (o :: (inner ++ [c]))

/-- **What tokens leave open.** Behind them, groups are open that need the given closing
brackets, the innermost first; all other brackets pair up. -/
inductive Leaves : List Text → List Token → Prop
  /-- A nested sequence leaves nothing open. -/
  | nested {l : List Token} (h : Nested l) : Leaves [] l
  /-- The innermost group that is open has a nested sequence in it. -/
  | opened {l inner : List Token} {o : Token} {ws : List Text} (h : Leaves ws l)
      (ho : o.isOpener = true)
    (hi : Nested inner) : Leaves (o.closer :: ws) (l ++ o :: inner)

/-! ## What is open

Behind each token one more group is open, or one less, or the same ones. Nothing else can be
open behind some tokens than what the stack of the scan says. -/

/-- A nested sequence does not change what is open. -/
theorem Leaves.append (h : Leaves ws l) (hu : Nested u) : Leaves ws (l ++ u) := by
  cases h with
  | nested h => exact .nested (h.append hu)
  | opened h ho hi =>
    rw [List.append_assoc]
    exact .opened h ho (hi.append hu)

/-- An opening bracket opens one more group. -/
theorem Leaves.concat_opener (h : Leaves ws l) (ho : t.isOpener = true) :
    Leaves (t.closer :: ws) (l ++ [t]) :=
  .opened h ho .nil

/-- The bracket that is waited for closes the innermost group. -/
theorem Leaves.concat_closer (h : Leaves (w :: ws) l)
    (hc : t.isCloser = true) (ht : t.text = w) :
    Leaves ws (l ++ [t]) := by
  cases h with
  | opened h ho hi =>
    rw [List.append_assoc]
    exact h.append (.group ho hc ht hi .nil)

/-- **One round of the scan.** It goes on behind the token with what is open there, or it has
come to the end of the outermost group, or to a bracket that closes no group. -/
theorem scan_round (h : Leaves (top :: outer) front) (t : Token) :
    (∃ top' outer', Leaves (top' :: outer') (front ++ [t]) ∧
      ∀ rest, scan top outer (t :: rest) = (scan top' outer' rest).next) ∨
    (∀ rest, scan top outer (t :: rest) = .closed 1) ∨
    t.isCloser = true ∧ t.text ≠ top ∧ ∀ rest, scan top outer (t :: rest) = .mismatch 0 := by
  by_cases ho : t.isOpener = true
  · exact .inl ⟨t.closer, top :: outer, h.concat_opener ho,
      fun rest => by cases outer <;> simp only [scan, ho, if_true]⟩
  by_cases hc : t.isCloser = true
  · by_cases ht : t.text = top
    · cases outer with
      | nil =>
        refine .inr (.inl fun rest => ?_)
        simp only [scan, ho, hc, ht, beq_self_eq_true, if_true, Bool.false_eq_true, if_false]
      | cons top' outer' =>
        refine .inl ⟨top', outer', h.concat_closer hc ht, fun rest => ?_⟩
        simp only [scan, ho, hc, ht, beq_self_eq_true, if_true, Bool.false_eq_true, if_false]
    · refine .inr (.inr ⟨hc, ht, fun rest => ?_⟩)
      cases outer <;> simp only [scan, ho, hc, beq_false_of_ne ht, if_true,
        Bool.false_eq_true, if_false]
  · refine .inl ⟨top, outer,
      h.append (.plain (Bool.not_eq_true _ ▸ ho) (Bool.not_eq_true _ ▸ hc) .nil), fun rest => ?_⟩
    cases outer <;> simp only [scan, ho, hc, Bool.false_eq_true, if_false]

/-- **A scan that meets a bracket of the wrong kind** has gone over tokens that leave another
one open. By induction on the tokens that are left, with those scanned so far in front. -/
theorem exists_leaves_of_mismatch (h : Leaves (top :: outer) front)
    (hs : scan top outer l = .mismatch n) :
    ∃ (mid : List Token) (t : Token) (rest : List Token) (w : Text) (ws : List Text), l
      = mid ++ t :: rest ∧
      n = mid.length ∧ Leaves (w :: ws) (front ++ mid) ∧ t.isCloser = true ∧ t.text ≠ w := by
  induction l generalizing top outer front n with
  | nil => cases outer <;> cases hs
  | cons t l ih =>
    obtain ⟨top', outer', hleaves, hnext⟩ | hclosed | ⟨hc, ht, hmismatch⟩ := scan_round h t
    · rw [hnext] at hs
      cases hscan : scan top' outer' l with
      | closed m => rw [hscan] at hs; cases hs
      | unclosed w => rw [hscan] at hs; cases hs
      | mismatch m =>
        rw [hscan] at hs
        obtain rfl := Scan.mismatch.inj hs
        obtain ⟨mid, u, rest, w, ws, rfl, rfl, hw, hu⟩ := ih hleaves hscan
        exact ⟨t :: mid, u, rest, w, ws, rfl, rfl, by rwa [List.append_cons], hu⟩
    · rw [hclosed] at hs
      cases hs
    · rw [hmismatch] at hs
      obtain rfl := Scan.mismatch.inj hs
      exact ⟨[], t, l, top, outer, rfl, rfl, by rwa [List.append_nil], hc, ht⟩

/-- **A scan that comes to the end of the tokens** waits for the bracket that closes the
innermost group. -/
theorem exists_leaves_of_unclosed (h : Leaves (top :: outer) front)
    (hs : scan top outer l = .unclosed w) :
    ∃ ws, Leaves (w :: ws) (front ++ l) := by
  induction l generalizing top outer front with
  | nil =>
    obtain rfl : top = w := by cases outer <;> exact Scan.unclosed.inj hs
    exact ⟨outer, by rwa [List.append_nil]⟩
  | cons t l ih =>
    obtain ⟨top', outer', hleaves, hnext⟩ | hclosed | ⟨-, -, hmismatch⟩ := scan_round h t
    · rw [hnext] at hs
      cases hscan : scan top' outer' l with
      | closed m => rw [hscan] at hs; cases hs
      | mismatch m => rw [hscan] at hs; cases hs
      | unclosed w' =>
        rw [hscan] at hs
        obtain rfl := Scan.unclosed.inj hs
        rw [List.append_cons]
        exact ih hleaves hscan
    · rw [hclosed] at hs
      cases hs
    · rw [hmismatch] at hs
      cases hs

/-! ## Groups

That a group ends at one place only is known from the scan, which finds one end: two groups at
the beginning of the same tokens have the same length. -/

/-- A scan from the opening bracket of a group ends behind the group. -/
theorem IsGroup.scanGroup?_eq (h : IsGroup l) (u : List Token) :
    scanGroup? (l ++ u) = some (.closed l.length) := by
  cases h with
  | mk ho hc ht hi =>
    rw [List.cons_append, List.append_assoc, List.singleton_append, scanGroup?_group ho hc ht hi]
    simp

/-- **The count of open brackets finds the end of a group**, too. -/
theorem IsGroup.matching_eq (h : IsGroup l) (u : List Token) :
    matching 0 (l ++ u) = some (l.length - 1) := by
  cases h with
  | mk ho hc _ hi =>
    rw [List.cons_append, List.append_assoc, List.singleton_append,
      matching_group_of_level ho hc (hi.level_eq 0)]
    simp

/-- Tokens start with one group at most. -/
theorem IsGroup.eq_of_prefix (h : IsGroup l) (hu : IsGroup u) {r : List Token} (hl : l <+: r)
    (hr : u <+: r) : l = u := by
  obtain ⟨v, rfl⟩ := hl
  obtain ⟨v', hv⟩ := hr
  have hlength := (h.scanGroup?_eq v).symm.trans (hv ▸ hu.scanGroup?_eq v')
  exact (List.append_inj hv.symm (Scan.closed.inj (Option.some.inj hlength))).1

/-- What a scan finds to be closed is a group. -/
theorem exists_group_of_scan (ho : t.isOpener = true) (h : scan t.closer [] l = .closed n) :
    ∃ g rest, t :: l = g ++ rest ∧ IsGroup g := by
  obtain ⟨inner, c, rest, rfl, hi, hc, ht, ⟨-, rfl⟩ | ⟨_, _, _, hcons, -⟩⟩ :=
    exists_nested_of_scan h
  · exact ⟨t :: (inner ++ [c]), rest, by simp, .mk ho hc ht hi⟩
  · cases hcons

end Brackets

/-- What stops a parser that comes to the end of the tokens when it waits for the bracket `w`:
what the source leaves open, or the complaint that the bracket is missing. -/
def Cursor.runsOut (c : Cursor) (w : Text) : Halt :=
  match c.ending.fault with
  | some fault => .lexical fault c.ending.range?
  | none => .unexpected (.unclosed w) c.ending.token

namespace Parser

variable {c d : Cursor} {g front rest : List Token} {t : Token}

/-! ## Skipping a group

What the scan finds decides what skipping does. There are three outcomes, and in each it is
known which tokens have been consumed. -/

/-- Tokens are consumed if others come behind them, or nothing is left open at the end. -/
theorem exists_advanceBy (hr : c.rest = front ++ rest) (hf : rest = [] → c.ending.fault = none) :
    ∃ d, advanceBy front.length c = .ok ((), d) ∧ d.rest = rest ∧ d.ending = c.ending := by
  rcases front.eq_nil_or_concat' with rfl | ⟨front, t, rfl⟩
  · exact ⟨c, rfl, hr, rfl⟩
  · rw [List.append_assoc] at hr
    rw [List.length_append, List.length_singleton]
    exact ⟨c.past t rest, advanceBy_run hr hf, rfl, rfl⟩

/-- Consuming the last token stops at what the source leaves open. -/
theorem advanceBy_of_fault {fault : LexicalFault} (hr : c.rest = front ++ [t])
    (hf : c.ending.fault = some fault) :
    advanceBy (front.length + 1) c = .error (.lexical fault c.ending.range?) := by
  induction front generalizing c with
  | nil =>
    have hadvance : advance c = .error (.lexical fault c.ending.range?) := by
      rw [advance_of_cons hr, if_pos List.isEmpty_nil,
        bind_of_error (reachEnd_of_fault (c := c.past t []) hf)]
      rfl
    exact bind_of_error hadvance _
  | cons u front ih =>
    show (advance >>= fun _ => advanceBy (front.length + 1)) c = _
    rw [bind_of_ok (advance_run_of hr fun hnil => absurd hnil (by simp))]
    exact ih (c := c.past u (front ++ [t])) rfl hf

/-- **A group is skipped**, if something comes behind it or nothing is left open at the end. -/
theorem skipGroup_of_group (hr : c.rest = g ++ rest) (hg : IsGroup g)
    (hf : rest = [] → c.ending.fault = none) :
    ∃ p, g.getLast? = some p ∧ skipGroup c = .ok ((), c.past p rest) := by
  cases hg with
  | @mk o p inner ho hc ht hi =>
    rw [List.cons_append, List.append_assoc, List.singleton_append] at hr
    refine ⟨p, ?_, skipGroup_run hr hf ho hc ht hi⟩
    rw [← List.cons_append, List.getLast?_concat]

/-- A group that ends where the source leaves something open is not skipped. -/
theorem skipGroup_of_fault {fault : LexicalFault} (hg : IsGroup c.rest)
    (hf : c.ending.fault = some fault) :
    skipGroup c = .error (.lexical fault c.ending.range?) := by
  have hscan : scanGroup? c.rest = some (.closed c.rest.length) := by
    simpa using hg.scanGroup?_eq []
  unfold skipGroup
  rw [get_bind, hscan]
  generalize hrest : c.rest = l at hg
  cases hg with
  | @mk o p inner ho hc ht hi =>
    rw [← List.cons_append] at hrest ⊢
    rw [List.length_append, List.length_singleton]
    exact advanceBy_of_fault hrest hf

/-- **The first bracket that does not close the innermost group** is complained about. -/
theorem exists_mismatch_of_skipGroup {n : Nat} (ho : t.isOpener = true) (hr : c.rest = t :: rest)
    (hs : scan t.closer [] rest = .mismatch n) :
    ∃ front u more w ws, c.rest = front ++ u :: more ∧ Leaves (w :: ws) front ∧
    u.isCloser = true ∧ u.text ≠ w ∧
      skipGroup c = .error (.unexpected (.unbalanced u.text) u) := by
  have hopen : Leaves [t.closer] [t] := .opened (.nested .nil) ho .nil
  obtain ⟨mid, u, more, w, ws, rfl, rfl, hleaves, hu⟩ := exists_leaves_of_mismatch hopen hs
  refine ⟨[t] ++ mid, u, more, w, ws, hr, hleaves, hu.1, hu.2, ?_⟩
  -- everything in front of the bracket is consumed, so it is the current token
  obtain ⟨d, hd, hrest, -⟩ := exists_advanceBy (show c.rest = t :: mid ++ u :: more from hr)
    fun hnil => absurd hnil (List.cons_ne_nil _ _)
  unfold skipGroup
  rw [get_bind, hr, scanGroup?, if_pos ho, hs]
  show (advanceBy (t :: mid).length >>= fun _ => current >>= fun v => fail (.unbalanced v.text))
    c = _
  rw [bind_of_ok hd, current_bind, Cursor.current_of_cons hrest, fail, current_bind,
    Cursor.current_of_cons hrest]
  rfl

/-- **At the end of the tokens the bracket is named** that closes the innermost group. -/
theorem exists_unclosed_of_skipGroup {w : Text} (ho : t.isOpener = true)
    (hr : c.rest = t :: rest)
    (hs : scan t.closer [] rest = .unclosed w) :
    ∃ ws, Leaves (w :: ws) c.rest ∧ skipGroup c = .error (c.runsOut w) := by
  have hopen : Leaves [t.closer] [t] := .opened (.nested .nil) ho .nil
  obtain ⟨ws, hleaves⟩ := exists_leaves_of_unclosed hopen hs
  refine ⟨ws, hr ▸ hleaves, ?_⟩
  have hgroup : skipGroup c = (advanceBy c.rest.length >>= fun _ => fail (.unclosed w)) c := by
    unfold skipGroup
    rw [get_bind]
    nth_rewrite 1 [hr]
    rw [scanGroup?, if_pos ho, hs]
    rfl
  rw [hgroup, Cursor.runsOut]
  -- All tokens are consumed, unless the source leaves something open behind the last one.
  cases hf : c.ending.fault with
  | none =>
    obtain ⟨d, hd, hnil, hending⟩ :=
      exists_advanceBy (show c.rest = c.rest ++ [] by simp) fun _ => hf
    rw [bind_of_ok hd, fail, current_bind, Cursor.current_of_nil hnil, hending]
    rfl
  | some fault =>
    obtain hnil | ⟨front, u, hu⟩ := c.rest.eq_nil_or_concat'
    · rw [hr] at hnil
      cases hnil
    · rw [hu, List.length_append, List.length_singleton]
      exact bind_of_error (advanceBy_of_fault hu hf) _

/-- Where a group is skipped that nothing comes behind, nothing is left open at the end of the
source. -/
theorem fault_of_skipGroup (hr : c.rest = g ++ rest) (hg : IsGroup g)
    (h : skipGroup c = .ok ((), d))
    (hnil : rest = []) : c.ending.fault = none := by
  subst hnil
  rw [List.append_nil] at hr
  cases hf : c.ending.fault with
  | none => rfl
  | some fault =>
    rw [skipGroup_of_fault (hr ▸ hg) hf] at h
    cases h

/-- **Where skipping succeeds at an opening bracket, a group stands**, and its last token is
consumed last. -/
theorem exists_group_of_skipGroup (hr : c.rest = t :: rest) (ho : t.isOpener = true)
    (h : skipGroup c = .ok ((), d)) :
    ∃ g more p, c.rest = g ++ more ∧ IsGroup g ∧ g.getLast? = some p ∧ d = c.past p more := by
  -- Only if the scan has found an end can skipping succeed.
  cases hs : scan t.closer [] rest with
  | closed n =>
    obtain ⟨g, more, hg, hgroup⟩ := exists_group_of_scan ho hs
    have hrest : c.rest = g ++ more := hr.trans hg
    obtain ⟨p, hp, hd⟩ := skipGroup_of_group hrest hgroup (fault_of_skipGroup hrest hgroup h)
    rw [hd] at h
    cases h
    exact ⟨g, more, p, hrest, hgroup, hp, rfl⟩
  | mismatch n =>
    obtain ⟨_, _, _, _, _, -, -, -, -, herror⟩ := exists_mismatch_of_skipGroup ho hr hs
    rw [herror] at h
    cases h
  | unclosed w =>
    obtain ⟨_, -, herror⟩ := exists_unclosed_of_skipGroup ho hr hs
    rw [herror] at h
    cases h

/-- **Skipping recognises groups, and looking ahead agrees with it.** At an opening bracket of
tokens that come to a proper end, skipping succeeds exactly if the tokens ahead start with a
group. It consumes the group and nothing else, and the scan that looks ahead answers with the
place of its last token; there is no second group to choose from. If no group starts there,
skipping stops at the first bracket that does not close the innermost group, or runs out of
tokens and names the bracket that does. Tokens may also break off at a literal or comment left
open in the source. Then a group in front of it is recognised if a token comes behind it, and a
run that comes to the last token stops with what is left open. -/
theorem skipGroup_eq_ok_iff (hr : c.rest = t :: rest) (ho : t.isOpener = true) :
    ((∃ d, skipGroup c = .ok ((), d)) ↔
      ∃ g more, c.rest = g ++ more ∧ IsGroup g ∧ (more = [] → c.ending.fault = none)) ∧
    (∀ g more, c.rest = g ++ more → IsGroup g →
      closingBracket c = .ok (some (g.length - 1), c) ∧
      (∀ d, skipGroup c = .ok ((), d) → ∃ p, g.getLast? = some p ∧ d = c.past p more) ∧
      (∀ fault, more = [] → c.ending.fault = some fault →
        skipGroup c = .error (.lexical fault c.ending.range?)) ∧
      ∀ g', g' <+: c.rest → IsGroup g' → g' = g) ∧
    ((∀ g, g <+: c.rest → ¬IsGroup g) →
      (∃ front u more w ws, c.rest = front ++ u :: more ∧ Leaves (w :: ws) front ∧
        u.isCloser = true ∧ u.text ≠ w ∧
        skipGroup c = .error (.unexpected (.unbalanced u.text) u)) ∨
      ∃ w ws, Leaves (w :: ws) c.rest ∧ skipGroup c = .error (c.runsOut w)) := by
  refine ⟨⟨?_, ?_⟩, fun g more hg hgroup =>
    ⟨?_, fun d hd => ?_, fun fault hnil hf => ?_, fun g' hg' hgroup' => ?_⟩,
    fun hnone => ?_⟩
  · rintro ⟨d, hd⟩
    obtain ⟨g, more, p, hg, hgroup, -⟩ := exists_group_of_skipGroup hr ho hd
    exact ⟨g, more, hg, hgroup, fault_of_skipGroup hg hgroup hd⟩
  · rintro ⟨g, more, hg, hgroup, hf⟩
    obtain ⟨p, -, hd⟩ := skipGroup_of_group hg hgroup hf
    exact ⟨_, hd⟩
  · unfold closingBracket
    rw [get_bind, hg, hgroup.matching_eq]
    rfl
  · obtain ⟨p, hp, hd'⟩ := skipGroup_of_group hg hgroup (fault_of_skipGroup hg hgroup hd)
    rw [hd'] at hd
    cases hd
    exact ⟨p, hp, rfl⟩
  · subst hnil
    rw [List.append_nil] at hg
    exact skipGroup_of_fault (hg ▸ hgroup) hf
  · exact hgroup'.eq_of_prefix hgroup hg' (hg ▸ List.prefix_append g more)
  · cases hs : scan t.closer [] rest with
    | closed n =>
      obtain ⟨g, more, hg, hgroup⟩ := exists_group_of_scan ho hs
      exact absurd hgroup (hnone g (hr.trans hg ▸ List.prefix_append g more))
    | mismatch n => exact .inl (exists_mismatch_of_skipGroup ho hr hs)
    | unclosed w => exact .inr ⟨w, exists_unclosed_of_skipGroup ho hr hs⟩

/-- A group with another one in it, in front of a semicolon. -/
theorem skipGroup_eq_ok_iff_call :
    ∃ t rest, (startOf (Text.ofString "(a[b], c);")).rest = t :: rest ∧ t.isOpener = true ∧
      ∃ g more, (startOf (Text.ofString "(a[b], c);")).rest = g ++ more ∧
      IsGroup g ∧ more.length = 1 ∧
        (closingBracket (startOf (Text.ofString "(a[b], c);"))).map (·.1)
        = .ok (some (g.length - 1)) := by
  obtain ⟨⟨_, d⟩, hd, hone⟩ := exists_ok_of_any (fun r : Unit × Cursor => r.2.rest.length == 1)
    (by decide +kernel : (skipGroup (startOf (Text.ofString "(a[b], c);"))).toOption.any _
      = true)
  have hopen : (startOf (Text.ofString "(a[b], c);")).rest.head?.any (·.isOpener) = true := by
    decide +kernel
  obtain ⟨t, hhead, ht⟩ := (Option.any_eq_true _ _).1 hopen
  obtain ⟨rest, hr⟩ := List.head?_eq_some_iff.1 hhead
  obtain ⟨hsucceeds, hgroup, -⟩ := skipGroup_eq_ok_iff hr ht
  obtain ⟨g, more, hg, hisGroup, -⟩ := hsucceeds.1 ⟨d, hd⟩
  obtain ⟨hmatching, hconsumed, -⟩ := hgroup g more hg hisGroup
  obtain ⟨p, -, rfl⟩ := hconsumed d hd
  exact ⟨t, rest, hr, ht, g, more, hg, hisGroup, beq_iff_eq.1 hone, by rw [hmatching]; rfl⟩

end Parser

end Exemplar
