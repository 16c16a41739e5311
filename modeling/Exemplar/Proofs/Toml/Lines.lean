import Exemplar.Proofs.Toml.Values

/-!
# Written lines are read back

A document is written line by line, and each line is blank or a statement of its own. So it is
enough to know of every line that it is read back, whatever lines follow: then a text of such
lines is read as the statements of its lines, in their order.

The reader knows much more than the writer makes use of. A key may be quoted and have blanks
around its dots, a comment may follow a statement, and a value may reach over several lines. For
the lines that are written all of these possibilities have to be excluded, and it is always the
first character behind what has been read that does so: a name goes on with a blank, a dot or a
bracket, and a value with the end of the line.

There are three forms of lines: the entry of a name, the heading of a table, and the heading of
an element of a list of tables. A name is written without quotes here (`IsBareName`), as all
names of settings are.
-/

namespace Exemplar.Toml

variable {c : Char} {s rest : List Char} {d : Dialect} {fuel : Nat} {name : String} {v : Value}

/-! ## Names

A bare name is a run of letters, digits and a few other characters. The reader takes it off the
front of a line up to the first character that cannot be in one. -/

/-- A name that is written without quotes. -/
def IsBareName (name : String) : Prop := name.toList ≠ [] ∧ ∀ c ∈ name.toList, isBare c = true

instance (name : String) : Decidable (IsBareName name) :=
  decidable_of_iff (name.toList ≠ [] ∧ name.toList.all isBare = true)
    (by rw [IsBareName, List.all_eq_true])

/-- Such a name is written as it is. -/
theorem keyText_of_isBareName (h : IsBareName name) : keyText name = name := by
  rw [keyText, if_pos]
  rw [Bool.and_eq_true, Bool.not_eq_true', List.all_eq_true]
  refine ⟨?_, h.2⟩
  rw [Bool.eq_false_iff, ne_eq, String.isEmpty_iff]
  rintro rfl
  exact h.1 rfl

/-- A name without quotes starts with a character that starts nothing else. -/
theorem IsBareName.exists_cons (h : IsBareName name) :
    ∃ c more, name.toList = c :: more ∧ isBare c = true := by
  obtain ⟨c, more, hname⟩ := List.exists_cons_of_ne_nil h.1
  exact ⟨c, more, hname, h.2 c (hname ▸ List.mem_cons_self)⟩

/-- A character that may be in a bare name differs from one that may not. -/
theorem ne_of_isBare (hc : isBare c = true) {e : Char} (he : isBare e = false) : c ≠ e := by
  rintro rfl
  rw [he] at hc
  cases hc

/-- Where no blank stands, none is skipped. -/
theorem skipBlanks_cons {e : Char} (he : e ≠ ' ') (he' : e ≠ '\t') (s : List Char) :
    skipBlanks (e :: s) = e :: s := by
  refine List.dropWhile_cons_of_neg ?_
  rw [Bool.or_eq_true, beq_iff_eq, beq_iff_eq, not_or]
  exact ⟨he, he'⟩

/-- No blank stands in front of a name. -/
theorem IsBareName.skipBlanks (h : IsBareName name) (rest : List Char) :
    skipBlanks (name.toList ++ rest) = name.toList ++ rest := by
  obtain ⟨c, more, hname, hc⟩ := h.exists_cons
  rw [hname]
  exact skipBlanks_cons (ne_of_isBare hc (by decide)) (ne_of_isBare hc (by decide)) _

/-- The name is taken whole, up to a character that may not be in it. It does not start with a
quote, so it is not read as a quoted one. -/
theorem name?_of_isBareName (h : IsBareName name) (hc : isBare c = false) :
    name? d (name.toList ++ c :: rest) = some (name, c :: rest) := by
  have hspan : (name.toList ++ c :: rest).span isBare = (name.toList, c :: rest) := by
    rw [List.span_eq_takeWhile_dropWhile, List.takeWhile_append_of_pos h.2,
      List.dropWhile_append_of_pos h.2, List.takeWhile_cons_of_neg (Bool.eq_false_iff.1 hc),
      List.dropWhile_cons_of_neg (Bool.eq_false_iff.1 hc), List.append_nil]
  obtain ⟨e, more, hname, he⟩ := h.exists_cons
  have hempty : ¬name.toList.isEmpty = true := mt List.isEmpty_iff.1 h.1
  rw [name?]
  · rw [hspan]
    dsimp only
    rw [if_neg hempty, String.ofList_toList]
  · intro u heq
    rw [hname] at heq
    exact ne_of_isBare he (by decide) (List.cons.inj heq).1
  · intro u heq
    rw [hname] at heq
    exact ne_of_isBare he (by decide) (List.cons.inj heq).1

/-- A key of one name. -/
theorem key?_of_isBareName (h : IsBareName name) (hc : isBare c = false) {r : List Char}
    (hr : skipBlanks (c :: rest) = r) (hdot : ∀ u, r ≠ '.' :: u) :
    key? d (fuel + 1) (name.toList ++ c :: rest) = some ([name], r) := by
  rw [key?, name?_of_isBareName h hc]
  -- what is behind the name does not start with a dot, so the key ends there
  simp only [Option.bind_eq_bind, Option.bind_some, hr]

/-- A key of several names. -/
theorem key?_dot (h : IsBareName name) :
    key? d (fuel + 1) (name.toList ++ '.' :: rest) =
      (key? d fuel (skipBlanks rest)).map fun r => (name :: r.1, r.2) := by
  rw [key?, name?_of_isBareName h (by decide)]
  show (key? d fuel (skipBlanks rest)).bind (fun r => some (name :: r.1, r.2)) = _
  rw [Option.map_eq_bind]
  rfl

/-! ## Values in lines

Each sort of value is read back in a line. The reader is given more steps than the text of the
value has characters. -/

/-- Data whose text is read back as a value, whatever follows it in a line. -/
structure ReadsValue (data : Data) (v : Value) : Prop where
  /-- The text is read whole. -/
  value? : ∀ (fuel : Nat) (rest : List Char), (valueText data).toList.length < fuel →
  Follows rest →
    value? strict fuel ((valueText data).toList ++ rest) = some (v, rest)
  /-- It does not start with a blank. -/
  skipBlanks : ∀ rest, skipBlanks ((valueText data).toList ++ rest)
    = (valueText data).toList ++ rest

/-- A string starts with a quote, and so not with a blank. -/
theorem readsValue_string (s : String) : ReadsValue (.string s) (.scalar (.string s)) where
  value? fuel rest hfuel hrest := by
    obtain ⟨fuel, rfl⟩ := Nat.exists_eq_succ_of_ne_zero (Nat.ne_of_gt (Nat.zero_lt_of_lt hfuel))
    exact value?_string s hrest fuel
  skipBlanks rest := by
    obtain ⟨q, w, hs, hq⟩ := exists_cons_valueText_string s
    rw [hs]
    rcases hq with rfl | rfl <;> exact skipBlanks_cons (by decide) (by decide) _

/-- A truth value is a word. -/
theorem readsValue_bool (b : Bool) : ReadsValue (.bool b) (.scalar (.bool b)) where
  value? fuel rest hfuel hrest := by
    obtain ⟨fuel, rfl⟩ := Nat.exists_eq_succ_of_ne_zero (Nat.ne_of_gt (Nat.zero_lt_of_lt hfuel))
    exact value?_bool b hrest fuel
  skipBlanks rest := by cases b <;> exact skipBlanks_cons (by decide) (by decide) _

/-- A whole number starts with a digit or a minus sign. -/
theorem readsValue_int {n : Int} (hn : Fits n) : ReadsValue (.int n) (.scalar (.int n)) where
  value? fuel rest hfuel hrest := by
    obtain ⟨fuel, rfl⟩ := Nat.exists_eq_succ_of_ne_zero (Nat.ne_of_gt (Nat.zero_lt_of_lt hfuel))
    exact value?_int hn hrest fuel
  skipBlanks rest := by
    obtain ⟨c, more, htext, hc, -⟩ := exists_valueText_int n
    have hne : ∀ e, e.isDigit = false → e ≠ '-' → c ≠ e := by
      rintro e hdigit hminus rfl
      rcases hc with hc | hc
      · exact hminus hc
      · rw [hdigit] at hc
        cases hc
    rw [htext]
    exact skipBlanks_cons (hne _ (by decide) (by decide)) (hne _ (by decide) (by decide)) _

/-- The text of a list of strings is longer than the list. Each string has a quote at least, so
the length of the text bounds the number of steps that the items take. -/
theorem length_lt_valueText_strings (l : List String) :
    l.length + 1 < (valueText (Data.strings l)).toList.length := by
  have hitems : ∀ l : List String, l.length ≤ (itemsText (l.map Data.string)).toList.length := by
    intro l
    induction l with
    | nil => exact Nat.zero_le _
    | cons s more ih =>
      obtain ⟨q, w, hs, -⟩ := exists_cons_valueText_string s
      cases more with
      | nil =>
        rw [List.map_cons, List.map_nil, itemsText, hs]
        exact Nat.succ_le_succ (Nat.zero_le _)
      | cons s' more =>
        rw [List.map_cons, List.map_cons, itemsText, String.toList_append, String.toList_append,
          List.length_append, List.length_append, hs]
        · rw [List.map_cons] at ih
          simp only [List.length_cons] at ih ⊢
          omega
        · exact List.cons_ne_nil _ _
  have := hitems l
  rw [Data.strings, valueText, String.toList_append, String.toList_append, List.length_append,
    List.length_append]
  show l.length + 1 < 1 + _ + 1
  omega

/-- A list of strings starts with a bracket. -/
theorem readsValue_strings (l : List String) :
    ReadsValue (Data.strings l) (.array (l.map fun s => .scalar (.string s))) where
  value? fuel rest hfuel _ :=
    value?_strings l rest (Nat.lt_trans (length_lt_valueText_strings l) hfuel)
  skipBlanks rest := by
    rw [Data.strings, valueText, String.toList_append, String.toList_append]
    exact skipBlanks_cons (by decide) (by decide) _

/-! ## Lines

How the reader comes to a line is left open: what is said is that the line is taken off the
front of a text, and that it starts with a character by which it is told from a blank line and a
comment. -/

/-- A line that is read back as a statement, whatever lines follow. -/
structure ReadsLine (line : String) (statement : Statement) : Prop where
  /-- The line is read to its end. -/
  statement? : ∀ (fuel : Nat) (rest : List Char), line.toList.length < fuel →
    statement? strict fuel (line.toList ++ '\n' :: rest) = some (statement, '\n' :: rest)
  /-- It starts with a name or with a bracket. -/
  starts : ∃ c more, line.toList = c :: more ∧ (isBare c = true ∨ c = '[')

/-- **The line of an entry is read back** if its value is. The name is read as a key of one
name, for behind it comes a blank and then an equals sign. The value is read up to the end of
the line. -/
theorem readsLine_entry (hname : IsBareName name) {data : Data} (hv : ReadsValue data v) :
    ReadsLine (keyText name ++ " = " ++ valueText data) (.entry [name] v) where
  statement? fuel rest hfuel := by
    rw [keyText_of_isBareName hname] at hfuel ⊢
    rw [String.toList_append, String.toList_append, List.length_append, List.length_append]
      at hfuel
    obtain ⟨fuel, rfl⟩ := Nat.exists_eq_succ_of_ne_zero (Nat.ne_of_gt (Nat.zero_lt_of_lt hfuel))
    have htext : (name ++ " = " ++ valueText data).toList ++ '\n' :: rest =
        name.toList ++ ' ' :: ('=' :: ' ' :: ((valueText data).toList ++ '\n' :: rest)) := by
      rw [String.toList_append, String.toList_append, List.append_assoc, List.append_assoc]
      rfl
    -- The key ends at the equals sign, which is no dot.
    have hkey : key? strict (fuel + 1)
          (name.toList ++ ' ' :: ('=' :: ' ' :: ((valueText data).toList ++ '\n' :: rest))) =
        some ([name], '=' :: ' ' :: ((valueText data).toList ++ '\n' :: rest)) :=
      key?_of_isBareName hname (by decide) rfl fun u h => by cases h
    have hread := hv.value? (fuel + 1) ('\n' :: rest) (by omega) (.lineEnd rest)
    obtain ⟨c, more, hcons, hc⟩ := hname.exists_cons
    rw [htext, hcons, List.cons_append]
    rw [hcons, List.cons_append] at hkey
    rw [statement?, hkey]
    · show (value? strict (fuel + 1) (Toml.skipBlanks (' ' :: _))).bind _ = _
      rw [show Toml.skipBlanks (' ' :: ((valueText data).toList ++ '\n' :: rest)) =
        Toml.skipBlanks ((valueText data).toList ++ '\n' :: rest) from rfl, hv.skipBlanks, hread]
      rfl
    · intro u h
      exact ne_of_isBare hc (by decide) (List.cons.inj h).1
    · intro u h
      exact ne_of_isBare hc (by decide) (List.cons.inj h).1
  starts := by
    obtain ⟨c, more, hcons, hc⟩ := hname.exists_cons
    refine ⟨c, more ++ (" = ".toList ++ (valueText data).toList), ?_, .inl hc⟩
    rw [keyText_of_isBareName hname, String.toList_append, String.toList_append,
      hcons, List.append_assoc]
    rfl

/-- **The heading of a table is read back.** Behind the bracket the name is read as a key, and
the closing bracket ends it. -/
theorem readsLine_table (hname : IsBareName name) :
    ReadsLine ("[" ++ pathText [name] ++ "]") (.table [name]) := by
  have htext : ("[" ++ pathText [name] ++ "]").toList = '[' :: (name.toList ++ [']']) := by
    rw [show pathText [name] = keyText name from rfl,
      keyText_of_isBareName hname, String.toList_append, String.toList_append]
    rfl
  have hkey : ∀ fuel rest, key? strict (fuel + 1) (skipBlanks (name.toList ++ ']' :: rest)) =
      some ([name], ']' :: rest) := fun fuel rest => by
    rw [hname.skipBlanks]
    exact key?_of_isBareName hname (by decide) rfl fun u h => by cases h
  refine ⟨fun fuel rest hfuel => ?_, ⟨'[', _, htext, .inr rfl⟩⟩
  obtain ⟨fuel, rfl⟩ := Nat.exists_eq_succ_of_ne_zero (Nat.ne_of_gt (Nat.zero_lt_of_lt hfuel))
  have hread := hkey fuel ('\n' :: rest)
  rw [htext, List.cons_append, List.append_assoc, List.singleton_append]
  rw [statement?]
  · rw [hread]
    rfl
  · intro u h
    obtain ⟨c, more, hcons, hc⟩ := hname.exists_cons
    rw [hcons] at h
    exact ne_of_isBare hc (by decide) (List.cons.inj h).1

/-- **The heading of an element of a list of tables is read back.** With two brackets on either
side, and a dot between the names. -/
theorem readsLine_element {name' : String} (hname : IsBareName name)
    (hname' : IsBareName name') :
    ReadsLine ("[[" ++ pathText [name, name'] ++ "]]") (.element [name, name']) := by
  have htext : ("[[" ++ pathText [name, name'] ++ "]]").toList =
      '[' :: '[' :: (name.toList ++ '.' :: (name'.toList ++ [']', ']'])) := by
    rw [show pathText [name, name'] = keyText name ++ "." ++ keyText name' from rfl,
      keyText_of_isBareName hname, keyText_of_isBareName hname', String.toList_append,
      String.toList_append, String.toList_append, String.toList_append, List.append_assoc,
      List.append_assoc, List.append_assoc]
    rfl
  have hkey : ∀ fuel rest, key? strict (fuel + 2)
      (skipBlanks (name.toList ++ '.' :: (name'.toList ++ ']' :: rest))) =
        some ([name, name'], ']' :: rest) := fun fuel rest => by
    rw [hname.skipBlanks, key?_dot hname, hname'.skipBlanks,
      key?_of_isBareName hname' (by decide) rfl fun u h => by cases h]
    rfl
  refine ⟨fun fuel rest hfuel => ?_, ⟨'[', _, htext, .inr rfl⟩⟩
  rw [htext, List.length_cons, List.length_cons] at hfuel
  obtain ⟨fuel, rfl⟩ := Nat.exists_eq_add_of_le' (show 2 ≤ fuel by omega)
  have hread := hkey fuel (']' :: '\n' :: rest)
  rw [htext, List.cons_append, List.cons_append, List.append_assoc,
    List.cons_append, List.append_assoc]
  rw [statement?]
  exact congrArg (Option.bind · _) hread

/-! ## Documents

The lines of a document are joined with line feeds, one behind each of them. Reading goes on
behind the line feed. -/

/-- Lines that are read back as statements, one after the other. Blank lines say nothing. -/
inductive ReadsLines : List String → List Statement → Prop
  /-- There are no lines. -/
  | nil : ReadsLines [] []
  /-- A blank line comes first. -/
  | blank {lines : List String} {statements : List Statement} (h : ReadsLines lines statements) :
    ReadsLines ("" :: lines) statements
  /-- A statement comes first. -/
  | cons {line : String} {statement : Statement} {lines : List String}
      {statements : List Statement}
    (hline : ReadsLine line statement) (h : ReadsLines lines statements) :
    ReadsLines (line :: lines) (statement :: statements)

/-- The lines of one part and those of the next. -/
theorem ReadsLines.append {lines lines' : List String} {statements statements' : List Statement}
    (h : ReadsLines lines statements) (h' : ReadsLines lines' statements') :
    ReadsLines (lines ++ lines') (statements ++ statements') := by
  induction h with
  | nil => exact h'
  | blank _ ih => exact .blank ih
  | cons hline _ ih => exact .cons hline ih

/-- The text of lines is the first line, a line feed, and the text of the others. -/
theorem toList_joinLines_cons (line : String) (lines : List String) :
    (Text.joinLines (line :: lines)).toList
      = line.toList ++ '\n' :: (Text.joinLines lines).toList := by
  rw [Text.joinLines, List.map_cons, String.join_cons,
    String.toList_append, String.toList_append, List.append_assoc]
  rfl

/-- A line that is read back is not blank, so it is read as its statement, and reading goes on
behind it. -/
theorem ReadsLine.statements? {line : String} {statement : Statement}
    (h : ReadsLine line statement)
    (hfuel : line.toList.length < fuel) (bound : Nat) (rest : List Char) :
    statements? strict fuel (bound + 1) (line.toList ++ '\n' :: rest) =
      (statements? strict fuel bound rest).map (statement :: ·) := by
  have hread := h.statement? fuel rest hfuel
  obtain ⟨c, more, hcons, hc⟩ := h.starts
  have hne : ∀ e, isBare e = false → e ≠ '[' → c ≠ e := by
    rintro e he hbracket rfl
    rcases hc with hc | hc
    · rw [he] at hc
      cases hc
    · exact hbracket hc
  rw [hcons, List.cons_append] at hread ⊢
  have hblanks :=
    skipBlanks_cons (hne ' ' (by decide) (by decide)) (hne '\t' (by decide) (by decide))
    (more ++ '\n' :: rest)
  -- The line does not start with a line feed, so it is not blank.
  have hline : afterLine? (c :: (more ++ '\n' :: rest)) = none := by
    rw [afterLine?, hblanks]
    split
    · rename_i heq
      cases heq
    · rename_i heq
      exact absurd (List.cons.inj heq).1 (hne '#' (by decide) (by decide))
    · rw [afterBreak?]
      · intro u h
        exact hne '\n' (by decide) (by decide) (List.cons.inj h).1
      · intro u h
        exact hne '\r' (by decide) (by decide) (List.cons.inj h).1
  -- Nor is it a comment.
  have hhash : ¬(c == '#') = true := by
    rw [beq_iff_eq]
    exact hne '#' (by decide) (by decide)
  rw [Toml.statements?, hblanks]
  dsimp only
  rw [hline]
  dsimp only
  rw [if_neg hhash, hread]
  show (Toml.statements? strict fuel bound rest).bind (fun m => some (statement :: m)) = _
  rw [Option.map_eq_bind]
  rfl

/-- **Lines that are read back are read as their statements.** The reader takes a step for each
line, so its bound has to be greater than the number of lines. -/
theorem ReadsLines.statements? {lines : List String} {statements : List Statement} {bound : Nat}
    (h : ReadsLines lines statements) (hfuel : (Text.joinLines lines).toList.length < fuel)
    (hbound : lines.length < bound) :
    statements? strict fuel bound (Text.joinLines lines).toList = some statements := by
  induction h generalizing bound with
  | nil =>
    obtain ⟨bound, rfl⟩ := Nat.exists_eq_succ_of_ne_zero (Nat.ne_of_gt hbound)
    rfl
  | blank h ih =>
    obtain ⟨bound, rfl⟩ :=
      Nat.exists_eq_succ_of_ne_zero (Nat.ne_of_gt (Nat.zero_lt_of_lt hbound))
    rw [toList_joinLines_cons] at hfuel ⊢
    rw [← ih (Nat.lt_of_succ_lt hfuel) (Nat.lt_of_succ_lt_succ hbound)]
    rfl
  | cons hline h ih =>
    obtain ⟨bound, rfl⟩ :=
      Nat.exists_eq_succ_of_ne_zero (Nat.ne_of_gt (Nat.zero_lt_of_lt hbound))
    rw [toList_joinLines_cons] at hfuel ⊢
    rw [List.length_append, List.length_cons] at hfuel
    rw [hline.statements? (by omega), ih (by omega) (Nat.lt_of_succ_lt_succ hbound)]
    rfl

/-- Each line has its line feed, so there are no more lines than characters. -/
theorem length_le_joinLines (lines : List String) :
    lines.length ≤ (Text.joinLines lines).toList.length := by
  induction lines with
  | nil => exact Nat.zero_le _
  | cons line lines ih =>
    rw [toList_joinLines_cons, List.length_append, List.length_cons, List.length_cons]
    omega

/-- A file that holds the bytes of a string is read as the string. -/
theorem characters?_ofString (s : String) : characters? (Text.ofString s) = some s.toList := by
  rw [Text.ofString]
  induction s.toList with
  | nil => rfl
  | cons c rest ih => rw [List.map_cons, characters?, ih]; rfl

/-- **A file of such lines is read as its statements.** The bounds of the reader are taken from
the length of the text, and they are enough. -/
theorem ReadsLines.parseText? {lines : List String} {statements : List Statement}
    (h : ReadsLines lines statements) :
    parseText? strict (Text.ofString (Text.joinLines lines)) = some statements := by
  have hmark : ∀ s, withoutMark strict s = s := fun s => by cases s <;> rfl
  rw [Toml.parseText?, characters?_ofString, Option.bind_some, parse?, hmark]
  have hle := length_le_joinLines lines
  exact h.statements? (by omega) (by omega)

end Exemplar.Toml
