import Exemplar.Proofs.Path.Joining
import Mathlib.Data.List.TakeWhile

/-!
# Clean paths

Cleaning keeps a stack of names, and a stack that came out of it is one it would build again:
below a name there may be anything, but a step upwards has only steps upwards below it. So
cutting the last name off a clean path leaves a clean path, which is why the directory of an
output file is followed name by name like the output file itself.

A stack of this kind is called neat. Following a name keeps a stack neat (`Neat.follow`), so
what cleaning builds is neat. Conversely, the names of a neat stack are followed one by one
without anything being taken off again (`Neat.foldl_reverse`), so cleaning the path that is made
of them gives the path itself. What is said about clean paths below is said of stacks first, and
then read off the path by cutting it at its slashes.
-/

namespace Exemplar.Path

variable {rooted : Bool} {stack : List (List Char)} {p : List Char}

/-! ## Stacks that cleaning builds -/

/-- A stack of names, innermost first, from which cleaning has nothing to take. -/
def Neat (rooted : Bool) : List (List Char) → Prop
  | [] => True
  | top :: rest =>
    (IsName top ∨ rooted = false ∧ top = above ∧ ∀ s ∈ rest, s = above) ∧ Neat rooted rest

/-- The step upwards is no name. -/
theorem isName_above_false : ¬ IsName above := fun h => h.ne_above rfl

/-- Following a name keeps a stack neat. An empty name and the one for the same directory change
nothing. A step upwards takes a name off the stack, is dropped at the root, or is put on the
stack if there are only steps upwards. Any other name goes on top. -/
theorem Neat.follow {name : List Char} (h : Neat rooted stack) (hn : '/' ∉ name) :
    Neat rooted (follow rooted stack name) := by
  unfold Path.follow
  split
  · exact h
  rename_i hskip
  split
  · rename_i habove
    cases stack with
    -- Nothing is left to take off.
    | nil =>
      cases rooted with
      | true => exact trivial
      | false => exact ⟨.inr ⟨rfl, rfl, fun _ hs => absurd hs List.not_mem_nil⟩, trivial⟩
    | cons top rest =>
      obtain ⟨htop, hrest⟩ := h
      dsimp only
      split
      · rename_i heq
        obtain rfl := beq_iff_eq.1 heq
        -- One more step upwards, on top of steps upwards.
        obtain ⟨hrooted, -, hall⟩ := htop.resolve_left isName_above_false
        exact ⟨.inr ⟨hrooted, rfl, List.forall_mem_cons.2 ⟨rfl, hall⟩⟩,
          .inr ⟨hrooted, rfl, hall⟩, hrest⟩
      · exact hrest
  · rename_i habove
    rw [Bool.or_eq_true, not_or, List.isEmpty_iff, beq_iff_eq] at hskip
    exact ⟨.inl ⟨hskip.1, hn, hskip.2, fun h => habove (beq_iff_eq.2 h)⟩, h⟩

/-- The stack stays neat along all names of a path. -/
theorem neat_foldl {ns : List (List Char)} (h : Neat rooted stack) (hn : ∀ s ∈ ns, '/' ∉ s) :
    Neat rooted (ns.foldl (follow rooted) stack) := by
  induction ns generalizing stack with
  | nil => exact h
  | cons name rest ih =>
    exact ih (h.follow (hn name List.mem_cons_self)) fun s hs => hn s (List.mem_cons_of_mem _ hs)

/-- **A neat stack is built again from its names.** A name is put on top. A step upwards is put
there as well, since the path is not rooted and only steps upwards are below. -/
theorem Neat.foldl_reverse (h : Neat rooted stack) :
    stack.reverse.foldl (Path.follow rooted) [] = stack := by
  induction stack with
  | nil => rfl
  | cons top rest ih =>
    obtain ⟨htop, hrest⟩ := h
    rw [List.reverse_cons, List.foldl_append, ih hrest, List.foldl_cons, List.foldl_nil]
    rcases htop with hname | ⟨rfl, rfl, hall⟩
    · exact follow_of_isName hname rooted rest
    · cases rest with
      | nil => rfl
      | cons t more =>
        obtain rfl := hall t List.mem_cons_self
        rfl

/-- There is no slash in any name on a neat stack. -/
theorem Neat.slash_notMem (h : Neat rooted stack) : ∀ s ∈ stack, '/' ∉ s := by
  induction stack with
  | nil => exact fun s hs => absurd hs List.not_mem_nil
  | cons top rest ih =>
    refine List.forall_mem_cons.2 ⟨?_, ih h.2⟩
    rcases h.1 with hname | ⟨-, rfl, -⟩
    · exact hname.slash
    · decide

/-- No name on a neat stack is empty. -/
theorem Neat.ne_nil (h : Neat rooted stack) : ∀ s ∈ stack, s ≠ [] := by
  induction stack with
  | nil => exact fun s hs => absurd hs List.not_mem_nil
  | cons top rest ih =>
    refine List.forall_mem_cons.2 ⟨?_, ih h.2⟩
    rcases h.1 with hname | ⟨-, rfl, -⟩
    · exact hname.ne_nil
    · decide

/-- **A neat stack goes up before it goes down.** -/
theorem Neat.exists_split (h : Neat rooted stack) :
    ∃ ups downs, stack.reverse = ups ++ downs ∧ (∀ s ∈ ups, s = above) ∧
    ∀ s ∈ downs, IsName s := by
  induction stack with
  | nil => exact ⟨[], [], rfl, fun _ hs => absurd hs List.not_mem_nil,
      fun _ hs => absurd hs List.not_mem_nil⟩
  | cons top rest ih =>
    rcases h.1 with hname | ⟨-, rfl, hall⟩
    · obtain ⟨ups, downs, hsplit, hups, hdowns⟩ := ih h.2
      refine ⟨ups, downs ++ [top],
        by rw [List.reverse_cons, hsplit, List.append_assoc], hups, ?_⟩
      exact List.forall_mem_append.2 ⟨hdowns, List.forall_mem_singleton.2 hname⟩
    · refine ⟨(above :: rest).reverse, [], (List.append_nil _).symm, fun s hs => ?_,
        fun _ hs => absurd hs List.not_mem_nil⟩
      rcases List.mem_cons.1 (List.mem_reverse.1 hs) with rfl | hs
      · rfl
      · exact hall s hs

/-! ## The names of a clean path

A path is cut at its slashes into names. A rooted path starts with a slash, so the first of its
names is empty. -/

/-- A path starts at the root exactly if its first name is empty and not the only one. -/
theorem isRooted_iff : isRooted p = true ↔ ∃ more, more ≠ [] ∧ segments p = [] :: more := by
  cases p with
  | nil =>
    exact ⟨fun h => absurd h Bool.false_ne_true,
      fun ⟨_, hne, h⟩ => absurd (List.cons.inj h).2.symm hne⟩
  | cons c rest =>
    by_cases hc : c = '/'
    · subst hc
      exact ⟨fun _ => ⟨segments rest, segments_ne_nil rest, rfl⟩, fun _ => rfl⟩
    · obtain ⟨s, more, -, hcons⟩ := segments_cons_of_ne hc rest
      rw [hcons]
      refine ⟨fun h => absurd ?_ hc, fun ⟨more, _, h⟩ => ?_⟩
      · simpa [isRooted] using h
      · exact absurd (List.cons.inj h).1 (List.cons_ne_nil _ _)

/-- The path made of a stack of names. -/
def ofStack (rooted : Bool) (stack : List (List Char)) : List Char :=
  if rooted then '/' :: joinNames stack.reverse
  else if stack.isEmpty then here else joinNames stack.reverse

/-- Cleaning follows the names of the path and makes a path of the stack. -/
theorem cleanChars_eq_ofStack (p : List Char) :
    cleanChars p = ofStack (isRooted p) ((segments p).foldl (follow (isRooted p)) []) := by
  unfold cleanChars ofStack
  dsimp only
  rw [List.isEmpty_reverse]

/-- Every clean path is made of a neat stack. -/
theorem exists_neat_of_clean (p : List Char) :
    ∃ stack, Neat (isRooted p) stack ∧ cleanChars p = ofStack (isRooted p) stack :=
  ⟨_, neat_foldl (show Neat (isRooted p) [] from trivial) fun _ => slash_notMem_segments,
    cleanChars_eq_ofStack p⟩

/-- The root has two empty names, one on either side of its slash, and the empty stack of a path
that is not rooted is the directory itself. -/
theorem segments_ofStack_nil (rooted : Bool) :
    segments (ofStack rooted []) = if rooted then [[], []] else [here] := by
  cases rooted <;> rfl

/-- The names of a path made of a stack are those of the stack. -/
theorem Neat.segments_ofStack (h : Neat rooted stack) (hne : stack ≠ []) :
    segments (ofStack rooted stack) = (if rooted then [[]] else []) ++ stack.reverse := by
  have hjoin : segments (joinNames stack.reverse) = stack.reverse :=
    segments_joinNames (by simpa using hne) fun s hs => h.slash_notMem s (List.mem_reverse.1 hs)
  cases rooted with
  | true => exact congrArg ([] :: ·) hjoin
  | false =>
    rw [ofStack, if_neg Bool.false_ne_true, if_neg (by simpa using hne), hjoin]
    rfl

/-- A path made of a neat stack is rooted if the stack was: none of its names is empty, so the
first one is not. -/
theorem Neat.isRooted_ofStack (h : Neat rooted stack) :
    isRooted (ofStack rooted stack) = rooted := by
  cases rooted with
  | true => rfl
  | false =>
    by_cases hne : stack = []
    · subst hne; rfl
    · rw [Bool.eq_false_iff]
      intro hrooted
      obtain ⟨more, -, hmore⟩ := isRooted_iff.1 hrooted
      rw [h.segments_ofStack hne] at hmore
      replace hmore : stack.reverse = [] :: more := hmore
      exact h.ne_nil [] (List.mem_reverse.1 (hmore ▸ List.mem_cons_self)) rfl

/-- **Cleaning keeps whether a path starts at the root.** -/
theorem isRooted_cleanChars (p : List Char) : isRooted (cleanChars p) = isRooted p := by
  obtain ⟨stack, hneat, heq⟩ := exists_neat_of_clean p
  rw [heq, hneat.isRooted_ofStack]

/-! ## The directory of a clean path

The directory of a path is what stands up to its last slash, cleaned. -/

/-- Up to the last slash, a path has its names but for the last, which is empty. -/
theorem segments_upToSlash (p : List Char) :
    ∃ front n, segments p = front ++ [n] ∧ segments (upToSlash p) = front ++ [[]] := by
  let n := (p.reverse.takeWhile (· != '/')).reverse
  have hn : '/' ∉ n := fun h => by
    simpa using List.mem_takeWhile_imp (List.mem_reverse.1 h)
  have hp : p = upToSlash p ++ n := by
    rw [upToSlash, ← List.reverse_append, List.takeWhile_append_dropWhile, List.reverse_reverse]
  -- Is there a slash at all?
  cases hdrop : p.reverse.dropWhile (· != '/') with
  | nil =>
    have hup : upToSlash p = [] := by rw [upToSlash, hdrop]; rfl
    rw [hup, List.nil_append] at hp
    exact ⟨[], n, by rw [hp, segments_of_notMem hn]; rfl, by rw [hup]; rfl⟩
  | cons c rest =>
    obtain rfl : c = '/' := by
      have hhead := List.head_dropWhile_not (· != '/') (l := p.reverse)
        (by rw [hdrop]; exact List.cons_ne_nil _ _)
      simpa [hdrop] using hhead
    have hup : upToSlash p = rest.reverse ++ '/' :: [] := by
      rw [upToSlash, hdrop, List.reverse_cons]
    refine ⟨segments rest.reverse, n, ?_, ?_⟩
    · rw [hup, List.append_assoc, List.singleton_append] at hp
      rw [hp, segments_append, segments_of_notMem hn]
    · rw [hup, segments_append]; rfl

/-- **The directory of a path made of a stack is made of the rest of the stack.** Up to the last
slash the path has the names of the stack but for the topmost, and behind the slash an empty
one, which is followed to nowhere. -/
theorem Neat.cleanChars_upToSlash (h : Neat rooted stack) :
    cleanChars (upToSlash (ofStack rooted stack)) = ofStack rooted stack.tail := by
  obtain ⟨front, n, hsegments, hup⟩ := segments_upToSlash (ofStack rooted stack)
  cases stack with
  | nil => cases rooted <;> rfl
  | cons top rest =>
    rw [h.segments_ofStack (List.cons_ne_nil _ _), List.reverse_cons, ← List.append_assoc]
      at hsegments
    obtain ⟨rfl, -⟩ := List.append_inj' hsegments rfl
    -- the names in front are those of a neat stack again
    have hrooted : isRooted (upToSlash (ofStack rooted (top :: rest))) = rooted := by
      cases rooted with
      | true => exact isRooted_iff.2 ⟨rest.reverse ++ [[]], by simp, by rw [hup]; rfl⟩
      | false =>
        rw [Bool.eq_false_iff]
        intro hrooted
        obtain ⟨more, hne, hmore⟩ := isRooted_iff.1 hrooted
        rw [hup] at hmore
        cases hr : rest.reverse with
        | nil =>
          rw [hr] at hmore
          exact hne (List.cons.inj hmore).2.symm
        | cons s names =>
          rw [hr] at hmore
          exact h.2.ne_nil s
            (List.mem_reverse.1 (hr ▸ List.mem_cons_self)) (List.cons.inj hmore).1
    have hfold :
        ((if rooted then [[]] else []) ++ rest.reverse ++ [[]]).foldl (Path.follow rooted) []
        = rest := by
      rw [List.foldl_append, List.foldl_append, List.foldl_cons, List.foldl_nil]
      cases rooted with
      | true => exact h.2.foldl_reverse
      | false => exact h.2.foldl_reverse
    rw [cleanChars_eq_ofStack, hrooted, hup, hfold]
    rfl

end Exemplar.Path
