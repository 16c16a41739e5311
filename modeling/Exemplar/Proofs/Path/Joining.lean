import Exemplar.Path

/-!
# A name behind a path

Joining a directory and a name gives a path that ends with the name, whatever the directory is:
what `clean` takes away is taken away in front of it. This is so for names that lead from a
directory to something in it, which leaves out the two that lead to the directory itself or to
the one above.

A path is a text, and its names are what stands between its slashes. So first it is said how
cutting at slashes goes with putting texts together, and then how cleaning treats the last name:
it is put on top of the stack of names, where nothing comes any more that could take it off.
-/

namespace Exemplar.Path

/-- A name that leads from a directory to something in it. -/
structure IsName (n : List Char) : Prop where
  /-- It is not empty. -/
  ne_nil : n ≠ []
  /-- It is a single name. -/
  slash : '/' ∉ n
  /-- It is not the name of the directory itself. -/
  ne_here : n ≠ here
  /-- It is not the name of the directory above. -/
  ne_above : n ≠ above

/-! ## Names and slashes

Cutting a text at its slashes gives a name more than there are slashes, and some of the names
may be empty. -/

/-- There is at least one name. -/
theorem segments_ne_nil (p : List Char) : segments p ≠ [] := by
  cases p with
  | nil => exact List.cons_ne_nil _ _
  | cons c rest =>
    rw [segments]
    split
    · exact List.cons_ne_nil _ _
    · split <;> exact List.cons_ne_nil _ _

/-- A character in front belongs to the first name, if it is no slash. -/
theorem segments_cons_of_ne {c : Char} (hc : c ≠ '/') (rest : List Char) :
    ∃ s more, segments rest = s :: more ∧ segments (c :: rest) = (c :: s) :: more := by
  obtain ⟨s, more, hs⟩ := List.exists_cons_of_ne_nil (segments_ne_nil rest)
  exact ⟨s, more, hs, by rw [segments, if_neg (by simpa using hc), hs]⟩

/-- No slash is left in a name. -/
theorem slash_notMem_segments {p s : List Char} (h : s ∈ segments p) : '/' ∉ s := by
  induction p generalizing s with
  | nil =>
    obtain rfl := List.mem_singleton.1 h
    exact List.not_mem_nil
  | cons c rest ih =>
    by_cases hc : c = '/'
    · subst hc
      rcases List.mem_cons.1 h with rfl | h
      · exact List.not_mem_nil
      · exact ih h
    · obtain ⟨u, more, hu, hcons⟩ := segments_cons_of_ne hc rest
      rw [hcons] at h
      rcases List.mem_cons.1 h with rfl | h
      · rw [List.mem_cons, not_or]
        exact ⟨fun h => hc h.symm, ih (hu ▸ List.mem_cons_self)⟩
      · exact ih (hu ▸ List.mem_cons_of_mem _ h)

/-- A path without a slash is one name. -/
theorem segments_of_notMem {n : List Char} (h : '/' ∉ n) : segments n = [n] := by
  induction n with
  | nil => rfl
  | cons c rest ih =>
    rw [List.mem_cons, not_or] at h
    rw [segments, if_neg (by simpa using fun hc : c = '/' => h.1 hc.symm), ih h.2]

/-- The names of two paths with a slash between them are those of both. -/
theorem segments_append (p q : List Char) :
    segments (p ++ '/' :: q) = segments p ++ segments q := by
  induction p with
  | nil => rfl
  | cons c rest ih =>
    by_cases hc : c = '/'
    · subst hc
      show [] :: segments (rest ++ '/' :: q) = _
      rw [ih]; rfl
    · obtain ⟨s, more, hs, hcons⟩ := segments_cons_of_ne hc rest
      obtain ⟨s', more', hs', hcons'⟩ := segments_cons_of_ne hc (rest ++ '/' :: q)
      rw [ih, hs, List.cons_append] at hs'
      obtain ⟨rfl, rfl⟩ := List.cons.inj hs'
      rw [List.cons_append, hcons', hcons]; rfl

/-- A text without a slash behind a path belongs to its last name. The induction is on the path.
A slash ends a name, and any other character is put in front of the first one, which may be the
last one at the same time. -/
theorem segments_append_of_notMem {p s n : List Char} {front : List (List Char)} (hs : '/' ∉ s)
    (hp : segments p = front ++ [n]) : segments (p ++ s) = front ++ [n ++ s] := by
  induction p generalizing front n with
  | nil =>
    obtain ⟨rfl, hn⟩ := (List.append_eq_singleton_iff.1 hp.symm).resolve_right
      fun h => absurd h.2 (List.cons_ne_nil _ _)
    obtain rfl := (List.cons.inj hn).1
    exact segments_of_notMem hs
  | cons c rest ih =>
    by_cases hc : c = '/'
    · subst hc
      replace hp : [] :: segments rest = front ++ [n] := hp
      obtain ⟨-, hrest⟩ | ⟨front', rfl, hrest⟩ := List.cons_eq_append_iff.1 hp
      · exact absurd (List.cons.inj hrest).2.symm (segments_ne_nil rest)
      · exact congrArg ([] :: ·) (ih hrest)
    · obtain ⟨s₁, more, hs₁, hcons⟩ := segments_cons_of_ne hc rest
      obtain ⟨s₂, more', hs₂, hcons'⟩ := segments_cons_of_ne hc (rest ++ s)
      rw [hcons] at hp
      rw [List.cons_append, hcons']
      obtain ⟨rfl, hlast⟩ | ⟨front', rfl, hmore⟩ := List.cons_eq_append_iff.1 hp
      · obtain ⟨rfl, rfl⟩ := List.cons.inj hlast
        have hrest : segments (rest ++ s) = [] ++ [s₁ ++ s] := ih hs₁
        rw [hrest] at hs₂
        obtain ⟨rfl, rfl⟩ := List.cons.inj hs₂
        rfl
      · have hrest : segments (rest ++ s) = (s₁ :: front') ++ [n ++ s] :=
          ih (by rw [hs₁, hmore]; rfl)
        rw [hrest] at hs₂
        obtain ⟨rfl, rfl⟩ := List.cons.inj hs₂
        rfl

/-- Names are found again between the slashes they were joined with. -/
theorem segments_joinNames {ns : List (List Char)} (hne : ns ≠ []) (h : ∀ s ∈ ns, '/' ∉ s) :
    segments (joinNames ns) = ns := by
  induction ns with
  | nil => exact absurd rfl hne
  | cons s rest ih =>
    cases rest with
    | nil => exact segments_of_notMem (h s List.mem_cons_self)
    | cons t more =>
      rw [joinNames, segments_append, segments_of_notMem (h s List.mem_cons_self),
        ih (List.cons_ne_nil _ _) fun u hu => h u (List.mem_cons_of_mem _ hu)]
      rfl

/-! ## Cleaning

Names are followed one by one, with a stack of those that are in force. -/

/-- A name goes on top of the stack. -/
theorem follow_of_isName {n : List Char} (h : IsName n) (rooted : Bool)
    (stack : List (List Char)) :
    follow rooted stack n = n :: stack := by
  rw [follow.eq_def, if_neg, if_neg]
  · simpa using h.ne_above
  · simpa using ⟨h.ne_nil, h.ne_here⟩

/-- Following a name without a slash leaves names without slashes. -/
theorem slash_notMem_follow {rooted : Bool} {stack : List (List Char)} {name : List Char}
    (hs : ∀ s ∈ stack, '/' ∉ s) (hn : '/' ∉ name) : ∀ s ∈ follow rooted stack name, '/' ∉ s := by
  unfold follow
  split
  · exact hs
  split
  · cases stack with
    | nil => cases rooted <;> simp [above]
    | cons top rest =>
      have hrest : ∀ s ∈ rest, '/' ∉ s := fun s h => hs s (List.mem_cons_of_mem _ h)
      dsimp only
      split
      · intro s h
        rcases List.mem_cons.1 h with rfl | h
        · decide
        · exact hs s h
      · exact hrest
  · intro s h
    rcases List.mem_cons.1 h with rfl | h
    · exact hn
    · exact hs s h

/-- The same for many names. -/
theorem slash_notMem_foldl {rooted : Bool} {ns : List (List Char)} {stack : List (List Char)}
    (hs : ∀ s ∈ stack, '/' ∉ s) (hn : ∀ s ∈ ns, '/' ∉ s) :
    ∀ s ∈ ns.foldl (follow rooted) stack, '/' ∉ s := by
  induction ns generalizing stack with
  | nil => exact hs
  | cons name rest ih =>
    exact ih (slash_notMem_follow hs (hn name List.mem_cons_self))
      fun s h => hn s (List.mem_cons_of_mem _ h)

/-- **A clean path ends with the name it ended with.** The last name stands on top of the stack,
and the path is made of the stack from below. -/
theorem segments_cleanChars {p n : List Char} (front : List (List Char)) (hn : IsName n)
    (hp : segments p = front ++ [n]) : ∃ front', segments (cleanChars p) = front' ++ [n] := by
  have hfront : ∀ s ∈ front, '/' ∉ s := fun s h =>
    slash_notMem_segments (p := p) (by rw [hp]; exact List.mem_append_left _ h)
  let stack := front.foldl (follow (isRooted p)) []
  have hkept : ((segments p).foldl (follow (isRooted p)) []).reverse = stack.reverse ++ [n] := by
    rw [hp, List.foldl_append, List.foldl_cons, List.foldl_nil, follow_of_isName hn,
      List.reverse_cons]
  have hslash : ∀ s ∈ stack.reverse ++ [n], '/' ∉ s := by
    intro s h
    rcases List.mem_append.1 h with h | h
    · exact slash_notMem_foldl
        (fun _ h => absurd h List.not_mem_nil) hfront s (List.mem_reverse.1 h)
    · rw [List.mem_singleton.1 h]; exact hn.slash
  have hjoin : segments (joinNames (stack.reverse ++ [n])) = stack.reverse ++ [n] :=
    segments_joinNames (by simp) hslash
  rw [cleanChars, hkept]
  split
  · exact ⟨[] :: stack.reverse, by rw [segments, if_pos (by rfl), hjoin]; rfl⟩
  · rw [if_neg (by simp)]
    exact ⟨stack.reverse, hjoin⟩

/-- **A name joined to a directory is the last name of the path.** Between the two a slash is
put, unless the directory is empty, and the result is cleaned. -/
theorem segments_join {n : String} (hn : IsName n.toList) (dir : String) :
    ∃ front, segments (join dir n).toList = front ++ [n.toList] := by
  have hclean : ∀ p : String, (clean p).toList = cleanChars p.toList := fun p => by
    rw [clean, String.toList_ofList]
  have hone := segments_of_notMem hn.slash
  have hne : n.isEmpty = false := by
    cases h : n.isEmpty with
    | false => rfl
    | true => exact absurd (by rw [String.isEmpty_iff.1 h]; rfl) hn.ne_nil
  rw [join]
  split
  · rw [hne, if_neg Bool.false_ne_true, hclean]
    exact segments_cleanChars [] hn hone
  · rw [hclean]
    refine segments_cleanChars (segments dir.toList) hn ?_
    rw [String.toList_append, String.toList_append,
      show dir.toList ++ "/".toList ++ n.toList = dir.toList ++ '/' :: n.toList by simp,
      segments_append, hone]

end Exemplar.Path
