import Exemplar.Config.Load
import Exemplar.Proofs.Path.Cleaning
import Mathlib.Logic.Function.Iterate

/-!
# The nearest project file

The search for a project file goes from a directory to the one it lies in, until it finds a file
or comes to a directory that lies in itself. That it comes to one is not plain from a single
step: the empty path lies in `.`, which is longer, and `..` lies in `.`, too. But a step that
does not shorten the path leads to `.` or to `/`, and both lie in themselves
(`length_dir_lt_or`). So the directories from a path outwards are a finite list, no longer than
the path with two more (`exists_outermost`), and the search goes along it.
-/

namespace Exemplar.Path

variable {rooted : Bool}

/-! ## Lengths

Cleaning never makes a path longer, but for the paths that it cannot leave empty. To see this, a
path is measured by its names, each with the slash behind it. -/

/-- The number of characters of names, with one more for each name. -/
def extent : List (List Char) → Nat
  | [] => 0
  | n :: rest => n.length + 1 + extent rest

/-- The measure is additive. -/
theorem extent_append (l u : List (List Char)) : extent (l ++ u) = extent l + extent u := by
  induction l with
  | nil => simp [extent]
  | cons n l ih => simp [extent, ih, Nat.add_assoc]

/-- And the order does not matter. -/
theorem extent_reverse (l : List (List Char)) : extent l.reverse = extent l := by
  induction l with
  | nil => rfl
  | cons n l ih => simp [extent, extent_append, ih, Nat.add_comm]

/-- There is one slash less than there are names. -/
theorem length_joinNames (l : List (List Char)) : (joinNames l).length = extent l - 1 := by
  induction l with
  | nil => rfl
  | cons n l ih =>
    cases l with
    | nil => simp [joinNames, extent]
    | cons m l =>
      rw [joinNames, List.length_append, List.length_cons, ih]
      simp only [extent]
      omega

/-- The names of a path are as long as the path, with a slash behind each. -/
theorem extent_segments (p : List Char) : extent (segments p) = p.length + 1 := by
  induction p with
  | nil => rfl
  | cons c rest ih =>
    by_cases hc : c = '/'
    · subst hc
      show 0 + 1 + extent (segments rest) = rest.length + 1 + 1
      omega
    · obtain ⟨s, more, hs, hcons⟩ := segments_cons_of_ne hc rest
      rw [hs] at ih
      rw [hcons]
      simp only [extent, List.length_cons] at ih ⊢
      omega

/-- Following a name adds no more than the name. -/
theorem extent_follow_le (rooted : Bool) (stack : List (List Char)) (name : List Char) :
    extent (follow rooted stack name) ≤ extent stack + (name.length + 1) := by
  unfold follow
  split
  · exact Nat.le_add_right _ _
  split
  · rename_i habove
    have hlength : name.length = above.length := congrArg List.length (beq_iff_eq.1 habove)
    cases stack with
    | nil => cases rooted <;> simp [extent, hlength]
    | cons top rest =>
      dsimp only
      split <;> simp only [extent] <;> omega
  · simp only [extent]
    omega

/-- So following names adds no more than they are long. -/
theorem extent_foldl_le (rooted : Bool) (ns stack : List (List Char)) :
    extent (ns.foldl (follow rooted) stack) ≤ extent stack + extent ns := by
  induction ns generalizing stack with
  | nil => exact Nat.le_refl _
  | cons name rest ih =>
    have hstep := extent_follow_le rooted stack name
    have hrest := ih (follow rooted stack name)
    simp only [List.foldl_cons, extent]
    omega

/-- A path made of a stack of names is as long as they are, with a slash between each two and in
front. -/
theorem length_ofStack {stack : List (List Char)} (hne : stack ≠ []) :
    (ofStack rooted stack).length = extent stack - 1 + rooted.toNat := by
  unfold ofStack
  cases rooted with
  | true => simp [length_joinNames, extent_reverse]
  | false => simp [length_joinNames, extent_reverse, hne]

/-! ## Going outwards

The directory of a path is made of the names before the last one, cleaned. These are shorter
than the path, so the directory is as well, unless nothing is left of them. -/

/-- **The directory of a path is shorter than the path**, unless it is the outermost one. -/
theorem length_dir_lt_or (p : String) :
    (dir p).length < p.length ∨ dir p = "." ∨ dir p = "/" := by
  obtain ⟨front, n, hp, hup⟩ := segments_upToSlash p.toList
  have hfront : extent front ≤ p.length := by
    have h := extent_segments p.toList
    rw [hp, extent_append, String.length_toList] at h
    simp only [extent] at h
    omega
  have hdir : dir p = String.ofList (ofStack (isRooted (upToSlash p.toList))
      (front.foldl (follow (isRooted (upToSlash p.toList))) [])) := by
    rw [dir, cleanChars_eq_ofStack, hup, List.foldl_append]
    rfl
  rw [hdir]
  -- Whether it is absolute decides what an empty stack is written as.
  cases hrooted : isRooted (upToSlash p.toList) with
  | true =>
    -- the name in front of the first slash is empty, and it is not kept
    obtain ⟨more, hne, hmore⟩ := isRooted_iff.1 hrooted
    rw [hup] at hmore
    cases front with
    | nil => exact absurd (List.cons.inj hmore).2.symm hne
    | cons s rest =>
      obtain rfl : s = [] := (List.cons.inj hmore).1
      have hle := extent_foldl_le true rest []
      rw [show ([] :: rest).foldl (follow true) [] = rest.foldl (follow true) [] from rfl]
      cases hstack : rest.foldl (follow true) [] with
      | nil => exact .inr (.inr rfl)
      | cons top stack =>
        left
        rw [String.length_ofList, length_ofStack (List.cons_ne_nil _ _), Bool.toNat_true]
        rw [hstack] at hle
        simp only [extent, List.length_nil] at hle hfront ⊢
        omega
  | false =>
    have hle := extent_foldl_le false front []
    cases hstack : front.foldl (follow false) [] with
    | nil => exact .inr (.inl rfl)
    | cons top stack =>
      left
      rw [String.length_ofList, length_ofStack (List.cons_ne_nil _ _), Bool.toNat_false]
      rw [hstack] at hle
      simp only [extent] at hle ⊢
      omega

/-- **Going outwards comes to a directory that lies in itself**, after no more steps than the
path is long and one more. By induction on the length: the directory is shorter, or it is
outermost. -/
theorem exists_outermost (p : String) :
    ∃ top ≤ p.length + 1, dir (dir^[top] p) = dir^[top] p ∧
    ∀ k < top, dir (dir^[k] p) ≠ dir^[k] p := by
  induction hn : p.length using Nat.strongRecOn generalizing p with
  | _ n ih =>
    by_cases hfix : dir p = p
    · exact ⟨0, Nat.zero_le _, hfix, fun k hk => absurd hk (Nat.not_lt_zero k)⟩
    -- the chain of the directory, with the path itself in front
    have hcons : ∀ {top : Nat}, top ≤ n → dir (dir^[top] (dir p)) = dir^[top] (dir p) →
        (∀ k < top, dir (dir^[k] (dir p)) ≠ dir^[k] (dir p)) →
        ∃ top ≤ n + 1, dir (dir^[top] p) = dir^[top] p ∧
            ∀ k < top, dir (dir^[k] p) ≠ dir^[k] p := by
      intro top hle htop hbelow
      refine ⟨top + 1, Nat.succ_le_succ hle, htop, fun k hk => ?_⟩
      cases k with
      | zero => exact hfix
      | succ k => exact hbelow k (Nat.lt_of_succ_lt_succ hk)
    obtain hlt | hout := length_dir_lt_or p
    · obtain ⟨top, hle, htop, hbelow⟩ := ih (dir p).length (hn ▸ hlt) (dir p) rfl
      exact hcons (by omega) htop hbelow
    · have hself : dir (dir p) = dir p := by
        obtain h | h := hout <;> rw [h] <;> decide
      exact hcons (Nat.zero_le _) hself fun k hk => absurd hk (Nat.not_lt_zero k)

end Exemplar.Path

namespace Exemplar.ConfigFile

variable {d : Disk} {cwd dir path : String} {n top fuel : Nat}

/-! ## The search

The search is a loop with fuel, and as such says nothing about when it ends. It is compared with
a relation that has no fuel (`Search`) and with the list of the directories outwards. -/

/-- **How the search for a project file runs**: from a directory it ends with a path after so
many rounds. A round looks for the file in the directory and goes outwards if it is not
there. -/
inductive Search (d : Disk) (cwd : String) : String → String → Nat → Prop
  /-- The file is there. -/
  | found {dir : String} (h : d.holds cwd (Path.join dir projectName) = true) :
    Search d cwd dir (Path.join dir projectName) 1
  /-- It is not there, and the directory is the outermost one. -/
  | outermost {dir : String} (h : d.holds cwd (Path.join dir projectName) = false)
    (hfix : Path.dir dir = dir) : Search d cwd dir "" 1
  /-- It is not there, and the search goes on in the directory around it. -/
  | onwards {dir path : String} {n : Nat} (h : d.holds cwd (Path.join dir projectName) = false)
    (hne : Path.dir dir ≠ dir) (hrest : Search d cwd (Path.dir dir) path n) :
    Search d cwd dir path (n + 1)

/-- **The search runs along the list of the directories**, if the list is long enough for the
outermost one. -/
theorem search_outwards (hfix : Path.dir (Path.dir^[top] dir) = Path.dir^[top] dir)
    (hbelow : ∀ k < top, Path.dir (Path.dir^[k] dir) ≠ Path.dir^[k] dir) (hfuel : top < fuel) :
    ∃ n ≤ top + 1, Search d cwd dir
      ((((outwards fuel dir).map (Path.join · projectName)).find? (d.holds cwd ·)).getD "")
      n := by
  induction top generalizing dir fuel with
  | zero =>
    obtain ⟨fuel, rfl⟩ := Nat.exists_eq_succ_of_ne_zero (Nat.ne_of_gt hfuel)
    replace hfix : Path.dir dir = dir := hfix
    rw [outwards, if_pos (beq_iff_eq.2 hfix)]
    cases hholds : d.holds cwd (Path.join dir projectName) with
    | true => exact ⟨1, Nat.le_refl _, by simpa [hholds] using Search.found hholds⟩
    | false => exact ⟨1, Nat.le_refl _, by simpa [hholds] using Search.outermost hholds hfix⟩
  | succ top ih =>
    obtain ⟨fuel, rfl⟩ := Nat.exists_eq_succ_of_ne_zero (Nat.ne_zero_of_lt hfuel)
    have hne : Path.dir dir ≠ dir := hbelow 0 (Nat.succ_pos top)
    rw [outwards, if_neg (by simpa using hne), List.map_cons]
    cases hholds : d.holds cwd (Path.join dir projectName) with
    | true => exact ⟨1, by omega, by simpa [hholds] using Search.found hholds⟩
    | false =>
      have hup : Path.dir (Path.dir^[top] (Path.dir dir)) = Path.dir^[top] (Path.dir dir) := hfix
      obtain ⟨n, hn, hsearch⟩ := ih hup
        (fun k hk => hbelow (k + 1) (Nat.succ_lt_succ hk)) (Nat.lt_of_succ_lt_succ hfuel)
      rw [List.find?_cons_of_neg (by simp [hholds])]
      exact ⟨n + 1, Nat.succ_le_succ hn, .onwards hholds hne hsearch⟩

/-- **What a search ends with** is the first file on the way, or nothing if there is none. By
induction on the rounds. Behind the outermost directory there is only that directory again. -/
theorem Search.outcome (h : Search d cwd dir path n) :
    (∃ k < n, path = Path.join (Path.dir^[k] dir) projectName ∧ d.holds cwd path = true ∧
      ∀ j < k, d.holds cwd (Path.join (Path.dir^[j] dir) projectName) = false) ∨
    (path = "" ∧ ∀ k, d.holds cwd (Path.join (Path.dir^[k] dir) projectName) = false) := by
  induction h with
  | found h => exact .inl ⟨0, Nat.one_pos, rfl, h, fun j hj => absurd hj (Nat.not_lt_zero j)⟩
  | outermost h hfix => exact .inr ⟨rfl, fun k => by rwa [Function.iterate_fixed hfix]⟩
  | onwards h _ _ ih =>
    obtain ⟨k, hk, hpath, hholds, hbelow⟩ | ⟨hpath, hnone⟩ := ih
    · refine .inl ⟨k + 1, Nat.succ_lt_succ hk, hpath, hholds, fun j hj => ?_⟩
      cases j with
      | zero => exact h
      | succ j => exact hbelow j (Nat.lt_of_succ_lt_succ hj)
    · refine .inr ⟨hpath, fun k => ?_⟩
      cases k with
      | zero => exact h
      | succ k => exact hnone k

/-- **The nearest project file is found.** From every directory, whatever its path looks like
and whatever the file system holds, the directories outwards come to a first one that lies in
itself. The search ends with a round in it at the latest, it gives the file in the first of the
directories that has one, and nothing exactly if none has.

The fuel is one more than the steps there can be, so it is never used up, and the search runs
along the directories up to the outermost one. -/
theorem findProject_nearest (d : Disk) (cwd dir : String) :
    ∃ top ≤ dir.length + 1,
      Path.dir (Path.dir^[top] dir) = Path.dir^[top] dir ∧
      (∀ k < top, Path.dir (Path.dir^[k] dir) ≠ Path.dir^[k] dir) ∧
      (∃ n ≤ top + 1, Search d cwd dir (findProject d cwd dir) n) ∧
      (∀ k ≤ top, d.holds cwd (Path.join (Path.dir^[k] dir) projectName) = true →
        (∀ j < k, d.holds cwd (Path.join (Path.dir^[j] dir) projectName) = false) →
        findProject d cwd dir = Path.join (Path.dir^[k] dir) projectName) ∧
      (findProject d cwd dir = "" ↔
        ∀ k ≤ top, d.holds cwd (Path.join (Path.dir^[k] dir) projectName) = false) := by
  obtain ⟨top, hle, hfix, hbelow⟩ := Path.exists_outermost dir
  have hfuel : top < dir.length + 2 := by omega
  obtain ⟨n, hn, hsearch⟩ : ∃ n ≤ top + 1, Search d cwd dir (findProject d cwd dir) n := by
    simp only [findProject]
    exact search_outwards hfix hbelow hfuel
  refine ⟨top, hle, hfix, hbelow, ⟨n, hn, hsearch⟩, ?_⟩
  obtain ⟨k, hk, hpath, hholds, hfirst⟩ | ⟨hpath, hnone⟩ := hsearch.outcome
  · refine ⟨fun i _ hi hfirst' => ?_, fun hempty => ?_, fun hnone => ?_⟩
    · -- both are the first that has the file
      have hik : i = k := by
        obtain hlt | heq | hlt := Nat.lt_trichotomy i k
        · exact absurd hi (by rw [hfirst i hlt]; exact Bool.false_ne_true)
        · exact heq
        · rw [hpath, hfirst' k hlt] at hholds
          cases hholds
      rw [hpath, hik]
    · rw [hempty] at hholds
      cases hholds
    · rw [hpath, hnone k (by omega)] at hholds
      cases hholds
  · refine ⟨fun i _ hi _ => ?_, fun _ i _ => hnone i, fun _ => hpath⟩
    rw [hnone i] at hi
    cases hi

/-- Outwards from a path that climbs, the directory itself is the last one. -/
example : outwards 7 "../a/" = ["../a/", "../a", "..", "."] := by decide +kernel

end Exemplar.ConfigFile
