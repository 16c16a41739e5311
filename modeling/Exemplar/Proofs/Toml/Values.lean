import Exemplar.Toml.Document
import Exemplar.Toml.Writer
import Mathlib.Data.List.TakeDrop

/-!
# Written values are read back

A reader takes a written value off the front of a text, whatever follows, as long as the value
cannot go on there. For strings there are two cases, as there are two ways to write them: what
stands in single quotes stands for itself, and in double quotes every character has a form of
its own, whatever the characters next to it are. A number is a run of characters, and its digits
are those of the decimal representation, without a needless zero.

What is written has nothing else in it: a truth value, a whole number, a string, or a list of
strings. So what the reader makes of other forms, of floating-point numbers, dates, inline
tables and strings over several lines, does not matter here, except that none of the written
values is taken for one of them. That is why most proofs look at the first characters of the
text, on which the reader decides.

The reader takes a step for each item of a list, so for lists the bound on its steps has to be
large enough; for a single value one step will do.
-/

namespace Exemplar.Toml

open Text (digitValue numeral)

variable {c : Char} {s rest t : List Char} {d : Dialect} {fuel : Nat}

/-- A text that can follow a written value: it starts with a comma, the end of a list or the end
of a line. -/
inductive Follows : List Char → Prop
  /-- Another value comes. -/
  | comma (rest : List Char) : Follows (',' :: rest)
  /-- The list ends. -/
  | bracket (rest : List Char) : Follows (']' :: rest)
  /-- The line ends. -/
  | lineEnd (rest : List Char) : Follows ('\n' :: rest)

/-! ## Strings

In double quotes three kinds of characters have an escape: the quote and the backslash, the
control characters that have a letter for it, and the other control characters, which are
written with four hexadecimal digits. Each is shown to be read back, and so is a character that
stands for itself. -/

/-- **What stands in single quotes is read as it is.** -/
theorem literalString?_append (h : isLiteral s = true) (rest : List Char) :
    literalString? (s ++ '\'' :: rest) = some (s, rest) := by
  induction s with
  | nil => rfl
  | cons c s ih =>
    rw [isLiteral, List.all_cons, Bool.and_eq_true, Bool.and_eq_true,
      bne_iff_ne, Bool.not_eq_true'] at h
    -- A character in single quotes is neither the quote nor a control character.
    obtain ⟨⟨hquote, hcontrol⟩, hs⟩ := h
    rw [List.cons_append, literalString?]
    · rw [if_neg (Bool.eq_false_iff.1 hcontrol), ih hs]
      rfl
    · exact hquote

/-- The escape of a control character stands for it. The first two of the digits are zeros.
There are few control characters, so the rest is a computation. -/
theorem character?_upperHexDigits (h : isControl c = true) :
    character? ('0' :: '0' :: Text.upperHexDigits 2 c.toNat) = some c := by
  have key : ∀ n < 128, character? ('0' :: '0' :: Text.upperHexDigits 2 n)
      = some (Char.ofNat n) := by
    decide +kernel
  have hlt : c.toNat < 128 := by
    simp only [isControl, Bool.or_eq_true, Bool.and_eq_true, decide_eq_true_eq] at h
    omega
  rw [key _ hlt, Char.ofNat_toNat]

/-- A character that has no escape stands for itself in double quotes. -/
theorem basicString?_plain (hquote : c ≠ '"') (hescape : c ≠ '\\') (h : isControl c = false) :
    basicString? strict (c :: t) = (basicString? strict t).map (consTo c) := by
  rw [basicString?, if_neg (Bool.eq_false_iff.1 h)]
  · exact hquote
  all_goals intros; exact hescape (by assumption)

/-- **A character in double quotes is read back**, whatever follows. -/
theorem basicString?_escapeChar (c : Char) (t : List Char) :
    basicString? strict (escapeChar (Text.upperHexDigits 2) c ++ t) =
      (basicString? strict t).map (consTo c) := by
  rw [escapeChar]
  split
  · rename_i hquoted
    rw [Bool.or_eq_true, beq_iff_eq, beq_iff_eq] at hquoted
    rcases hquoted with rfl | rfl <;> rfl
  rename_i hquoted
  rw [Bool.or_eq_true, beq_iff_eq, beq_iff_eq, not_or] at hquoted
  -- the characters that have a letter for their escape
  iterate 5
    split
    · rename_i hletter
      rw [beq_iff_eq] at hletter
      subst hletter
      rfl
  split
  · rename_i hcontrol
    have hread := character?_upperHexDigits hcontrol
    exact congrArg (Option.bind · fun x => (basicString? strict t).map (consTo x)) hread
  · rename_i hcontrol
    exact basicString?_plain hquoted.2 hquoted.1 (Bool.eq_false_iff.2 hcontrol)

/-- The characters are read back one after the other, and the closing quote ends the string. -/
theorem basicString?_flatMap (s rest : List Char) :
    basicString? strict (s.flatMap (escapeChar (Text.upperHexDigits 2)) ++ '"' :: rest) =
      some (s, rest) := by
  induction s with
  | nil => rfl
  | cons c s ih =>
    rw [List.flatMap_cons, List.append_assoc, basicString?_escapeChar, ih]
    rfl

/-- No escape starts with a double quote. So a string in double quotes that is not empty does
not start with two quotes, as a string over several lines would. -/
theorem exists_cons_escapeChar (c : Char) :
    ∃ e more, escapeChar (Text.upperHexDigits 2) c = e :: more ∧ e ≠ '"' := by
  rw [escapeChar]
  split
  · exact ⟨'\\', _, rfl, by decide⟩
  rename_i hquoted
  rw [Bool.or_eq_true, beq_iff_eq, beq_iff_eq, not_or] at hquoted
  iterate 6
    split
    · exact ⟨'\\', _, rfl, by decide⟩
  exact ⟨c, [], rfl, hquoted.2⟩

/-- **A string is read back**, whichever way it is written. With three quotes in front it would
be read as a string over several lines. An empty string has two, and what follows it is no
quote; of any other string the second character is none. -/
theorem string?_stringChars (s : List Char) (hrest : Follows rest) :
    string? strict (stringChars s ++ rest) = some (s, rest) := by
  rw [stringChars]
  split
  · rename_i hliteral
    have hread := literalString?_append hliteral rest
    rw [List.cons_append, List.cons_append, List.append_assoc]
    cases s with
    | nil => cases hrest <;> rfl
    | cons c s =>
      have hquote : c ≠ '\'' := by
        rintro rfl
        cases hliteral
      rw [List.cons_append, string?]
      · exact hread
      · rintro u h
        exact hquote (List.cons.inj h).1
  · rename_i hliteral
    have hread := basicString?_flatMap s rest
    rw [List.cons_append, List.cons_append, List.append_assoc]
    cases s with
    | nil => exact absurd rfl hliteral
    | cons c s =>
      obtain ⟨e, more, he, hquote⟩ := exists_cons_escapeChar c
      rw [List.flatMap_cons, he, List.cons_append, List.cons_append] at hread ⊢
      rw [string?]
      · exact hread
      · rintro u h
        exact hquote (List.cons.inj h).1

/-- A string is a value: the quote in front tells the reader what it is. -/
theorem value?_stringChars (s : List Char) (hrest : Follows rest) (fuel : Nat) :
    value? strict (fuel + 1) (stringChars s ++ rest) =
      some (.scalar (.string (String.ofList s)), rest) := by
  have hread :=
    congrArg (Option.bind · fun r => some (Value.scalar (.string (String.ofList r.1)), r.2))
    (string?_stringChars s hrest)
  rw [stringChars] at hread ⊢
  by_cases hliteral : isLiteral s = true
  · rw [if_pos hliteral] at hread ⊢
    exact hread
  · rw [if_neg hliteral] at hread ⊢
    exact hread

/-! ## Numbers and truth values

Both are runs of characters, which the reader takes as a whole before it asks what they stand
for. -/

/-- Something comes behind the value, and it neither goes on with a run nor is it a blank,
behind which the time of day might follow a date. -/
theorem Follows.exists_cons (h : Follows rest) :
    ∃ c more, rest = c :: more ∧ isRunChar c = false ∧ c ≠ ' ' := by
  cases h with
  | comma rest => exact ⟨',', rest, rfl, by decide, by decide⟩
  | bracket rest => exact ⟨']', rest, rfl, by decide, by decide⟩
  | lineEnd rest => exact ⟨'\n', rest, rfl, by decide, by decide⟩

/-- **A run of characters is taken whole.** What follows is no character of a run, and no blank
in front of a time of day. -/
theorem run_append (hs : ∀ c ∈ s, isRunChar c = true) (hrest : Follows rest) :
    run (s ++ rest) = (s, rest) := by
  obtain ⟨c, more, rfl, hc, hblank⟩ := hrest.exists_cons
  have hspan : (s ++ c :: more).span isRunChar = (s, c :: more) := by
    rw [List.span_eq_takeWhile_dropWhile, List.takeWhile_append_of_pos hs,
      List.dropWhile_append_of_pos hs, List.takeWhile_cons_of_neg (Bool.eq_false_iff.1 hc),
      List.dropWhile_cons_of_neg (Bool.eq_false_iff.1 hc), List.append_nil]
  rw [run, hspan]
  dsimp only
  split
  · rename_i heq
    exact absurd (List.cons.inj heq).1 hblank
  · rfl

/-- A value that is written as a run is read as what the run stands for. It is no quote and no
bracket, so nothing else is tried. -/
theorem value?_run (hne : s ≠ []) (hs : ∀ c ∈ s, isRunChar c = true)
    (hrest : Follows rest) {v : Data}
    (hv : scalar? d s = some v) (fuel : Nat) :
    value? d (fuel + 1) (s ++ rest) = some (.scalar v, rest) := by
  have hrun := run_append hs hrest
  obtain ⟨c, s, rfl⟩ := List.exists_cons_of_ne_nil hne
  have hc := hs c List.mem_cons_self
  have hneq : ∀ e, isRunChar e = false → c ≠ e := fun e he heq => by
    rw [heq, he] at hc
    cases hc
  rw [List.cons_append] at hrun ⊢
  rw [value?]
  · rw [hrun]
    dsimp only
    rw [if_neg, hv]
    · rfl
    · rw [Bool.or_eq_true, beq_iff_eq, beq_iff_eq, not_or]
      exact ⟨hneq _ (by decide), hneq _ (by decide)⟩
  · exact hneq _ (by decide)
  · exact hneq _ (by decide)

/-- A truth value is read back. -/
theorem value?_bool (b : Bool) (hrest : Follows rest) (fuel : Nat) :
    value? strict (fuel + 1) ((valueText (.bool b)).toList ++ rest)
      = some (.scalar (.bool b), rest) := by
  cases b
  · exact value?_run (by decide) (List.all_eq_true.1 (by decide)) hrest rfl fuel
  · exact value?_run (by decide) (List.all_eq_true.1 (by decide)) hrest rfl fuel

/-- The value of a decimal digit is less than ten, and it is told from the code of the digit. -/
theorem digitValue_lt (h : c.isDigit = true) :
    digitValue c < 10 ∧ digitValue c = c.toNat - '0'.toNat := by
  rw [digitValue, if_pos h]
  rw [Char.isDigit, Bool.and_eq_true, decide_eq_true_eq, decide_eq_true_eq] at h
  have hle : c.toNat ≤ 57 := UInt32.le_iff_toNat_le.1 h.2
  exact ⟨by show c.toNat - 48 < 10; omega, rfl⟩

/-- Decimal digits are read whole, with no underscore among them. -/
theorem digits?_of_isDigit (hs : ∀ c ∈ s, c.isDigit = true) (inside : Bool)
    (hne : s ≠ [] ∨ inside = true) : digits? 10 inside s = some s := by
  induction s generalizing inside with
  | nil =>
    rw [digits?, if_pos (hne.resolve_left fun h => h rfl)]
  | cons c s ih =>
    have hc := hs c List.mem_cons_self
    -- An underscore is no digit.
    have hline : ¬(c == '_') = true := fun h => by
      rw [beq_iff_eq] at h
      rw [h] at hc
      cases hc
    rw [digits?, if_neg hline, if_pos (digitValue_lt hc).1,
      ih (fun e he => hs e (List.mem_cons_of_mem _ he)) true (.inr rfl)]
    rfl

/-- The digits of a number stand for it. Reading the digits from the left is multiplying by ten
and adding, which is how the number of given digits is defined. -/
theorem numeral_toDigits (n : Nat) : numeral 10 (Nat.toDigits 10 n) = n := by
  have hfold : ∀ (ds : List Char) (m : Nat), (∀ c ∈ ds, c.isDigit = true) →
      ds.foldl (fun n c => n * 10 + digitValue c) m = Nat.ofDigitChars 10 ds m := by
    intro ds
    induction ds with
    | nil => intros; rfl
    | cons c ds ih =>
      intro m hds
      rw [List.foldl_cons, Nat.ofDigitChars_cons,
        ih _ fun e he => hds e (List.mem_cons_of_mem _ he),
        (digitValue_lt (hds c List.mem_cons_self)).2, Nat.mul_comm]
  rw [numeral, hfold _ _ fun c hc => Nat.isDigit_of_mem_toDigits (by decide) (by decide) hc]
  exact Nat.ofDigitChars_toDigits (by decide) (by decide)

/-- The digits of a number other than zero do not start with a zero. By strong induction: the
digits of a number behind the last one are those of a tenth of it, which is not zero either
unless the number has one digit. -/
theorem head_toDigits {n : Nat} (hn : 0 < n) :
    ∃ c more, Nat.toDigits 10 n = c :: more ∧ c ≠ '0' := by
  induction n using Nat.strongRecOn with
  | ind n ih =>
    by_cases hlt : n < 10
    · have key : ∀ n < 10, 0 < n → n.digitChar ≠ '0' := by decide
      exact ⟨n.digitChar, [], Nat.toDigits_of_lt_base hlt, key n hlt hn⟩
    · have hle : 10 ≤ n := Nat.le_of_not_lt hlt
      obtain ⟨c, more, hdigits, hc⟩ := ih (n / 10) (by omega) (by omega)
      exact ⟨c, more ++ [(n % 10).digitChar],
        by rw [Nat.toDigits_of_base_le (by decide) hle, hdigits]; rfl, hc⟩

/-- So the decimal representation has no needless zero: zero itself is one digit. -/
theorem isTidy_toDigits (n : Nat) : isTidy (Nat.toDigits 10 n) = true := by
  rcases Nat.eq_zero_or_pos n with rfl | hn
  · rfl
  · obtain ⟨c, more, hdigits, hc⟩ := head_toDigits hn
    rw [hdigits, isTidy]
    rintro e rest heq
    exact absurd (List.cons.inj heq).1 hc

/-- The digits of a number are digits. -/
theorem isDigit_of_mem {n : Nat} : ∀ c ∈ Nat.toDigits 10 n, c.isDigit = true := fun _ hc =>
  Nat.isDigit_of_mem_toDigits (by decide) (by decide) hc

/-- The digits of a number are read as one that fits if it does. -/
theorem digits?_bind_fitting? (n : Nat) (negative : Bool) :
    ((digits? 10 false (Nat.toDigits 10 n)).bind fun ds =>
      if isTidy ds then fitting? negative (numeral 10 ds) else none) = fitting? negative n := by
  rw [digits?_of_isDigit isDigit_of_mem false (.inl Nat.toDigits_ne_nil), Option.bind_some,
    if_pos (isTidy_toDigits n), numeral_toDigits]

/-- The digits of a number are read as the number if it fits. None of them is a sign, and none a
letter behind a zero that would stand for another base. -/
theorem integer?_toDigits (n : Nat) : integer? (Nat.toDigits 10 n) = fitting? false n := by
  have hletter : ∀ e, e.isDigit = false → ∀ c rest, Nat.toDigits 10 n ≠ c :: e :: rest := by
    intro e he c rest heq
    have := isDigit_of_mem e (heq ▸ List.mem_cons_of_mem _ List.mem_cons_self)
    rw [he] at this
    cases this
  have hsign : splitSign (Nat.toDigits 10 n) = (false, Nat.toDigits 10 n) := by
    have hne : ∀ e, e.isDigit = false → ∀ rest, Nat.toDigits 10 n ≠ e :: rest := by
      intro e he rest heq
      have := isDigit_of_mem e (heq ▸ List.mem_cons_self)
      rw [he] at this
      cases this
    rw [splitSign]
    · exact hne '-' (by decide)
    · exact hne '+' (by decide)
  rw [integer?, hsign]
  · exact digits?_bind_fitting? n false
  · exact hletter 'x' (by decide) '0'
  · exact hletter 'o' (by decide) '0'
  · exact hletter 'b' (by decide) '0'

/-- With a minus sign in front they are read as the negative number. -/
theorem integer?_neg_toDigits (n : Nat) :
    integer? ('-' :: Nat.toDigits 10 n) = fitting? true n :=
  digits?_bind_fitting? n true

/-- A whole number that fits into 64 bits. -/
def Fits (n : Int) : Prop := -(Text.signLimit : Int) ≤ n ∧ n < Text.signLimit

/-- The text of a whole number is read as the number. The smallest number has a greater absolute
value than the largest, so the two signs have different bounds. -/
theorem integer?_valueText {n : Int} (hn : Fits n) :
    integer? (valueText (.int n)).toList = some n := by
  rw [valueText, Int.toString_eq_repr, Int.repr_eq_if]
  obtain ⟨hlow, hhigh⟩ := hn
  split
  · rename_i hpos
    have hlt : n.toNat < Text.signLimit := by omega
    rw [Nat.toList_repr, integer?_toDigits, fitting?, if_neg Bool.false_ne_true, if_pos hlt,
      Int.toNat_of_nonneg hpos]
  · rename_i hneg
    have hle : (-n).toNat ≤ Text.signLimit := by omega
    have hread := integer?_neg_toDigits (-n).toNat
    rw [fitting?, if_pos rfl, if_pos hle, Int.toNat_of_nonneg (by omega), Int.neg_neg] at hread
    rw [String.toList_append, Nat.toList_repr]
    exact hread

/-- The text of a whole number is a run of digits, with a sign in front of them if it is
negative. -/
theorem exists_valueText_int (n : Int) : ∃ c more, (valueText (.int n)).toList = c :: more ∧
    (c = '-' ∨ c.isDigit = true) ∧ ∀ e ∈ more, e.isDigit = true := by
  rw [valueText, Int.toString_eq_repr, Int.repr_eq_if]
  split
  · obtain ⟨c, more, hdigits⟩ :=
      List.exists_cons_of_ne_nil (Nat.toDigits_ne_nil (n := n.toNat) (b := 10))
    have hall := isDigit_of_mem (n := n.toNat)
    rw [hdigits] at hall
    refine ⟨c, more, by rw [Nat.toList_repr, hdigits],
      .inr (hall c List.mem_cons_self), fun e he => ?_⟩
    exact hall e (List.mem_cons_of_mem _ he)
  · refine ⟨'-', Nat.toDigits 10 (-n).toNat, ?_, .inl rfl, isDigit_of_mem⟩
    rw [String.toList_append, Nat.toList_repr]
    rfl

/-- A whole number that fits is read back. It does not look like a date or a time, and it is a
run that is read as the number. -/
theorem value?_int {n : Int} (hn : Fits n) (hrest : Follows rest) (fuel : Nat) :
    value? strict (fuel + 1) ((valueText (.int n)).toList ++ rest)
      = some (.scalar (.int n), rest) := by
  have hread := integer?_valueText hn
  obtain ⟨c, more, htext, hc, hmore⟩ := exists_valueText_int n
  rw [htext] at hread ⊢
  have hdigit : ∀ e : Char, e.isDigit = true → isRunChar e = true := fun e he => by
    simp only [isRunChar, Char.isAlphanum, he, Bool.or_true, Bool.true_or]
  have hrun : ∀ e ∈ c :: more, isRunChar e = true := by
    refine List.forall_mem_cons.2 ⟨?_, fun e he => hdigit e (hmore e he)⟩
    rcases hc with rfl | hc
    · rfl
    · exact hdigit c hc
  refine value?_run (List.cons_ne_nil _ _) hrun hrest ?_ fuel
  have hhead : ∀ e rest, e ≠ '-' → e.isDigit = false → ¬(c :: more == e :: rest) = true := by
    intro e rest hminus hfalse heq
    rw [beq_iff_eq] at heq
    obtain rfl := (List.cons.inj heq).1
    rcases hc with hc | hc
    · exact hminus hc
    · rw [hfalse] at hc
      cases hc
  rw [scalar?, if_neg (hhead _ _ (by decide) (by decide)),
    if_neg (hhead _ _ (by decide) (by decide)), hread]
  rfl

/-! ## Lists of strings

The items stand between brackets, with a comma and a blank between each two. The reader skips
the blank and reads the next item. -/

/-- A string as data is written like the string. -/
theorem toString_ofString (s : String) : (Text.ofString s).toString = s := by
  rw [Text.toString, Text.ofString, List.map_map]
  exact (congrArg String.ofList (List.map_id _)).trans String.ofList_toList

/-- The text of a string is its written form. -/
theorem toList_valueText_string (s : String) :
    (valueText (.string s)).toList = stringChars s.toList := by
  rw [Data.string, valueText, toString_ofString, string, String.toList_ofList]

/-- A string as data is read back. -/
theorem value?_string (s : String) (hrest : Follows rest) (fuel : Nat) :
    value? strict (fuel + 1) ((valueText (.string s)).toList ++ rest) =
      some (.scalar (.string s), rest) := by
  rw [toList_valueText_string, value?_stringChars _ hrest, String.ofList_toList]

/-- A string starts with a quote. -/
theorem exists_cons_valueText_string (s : String) :
    ∃ q more, (valueText (.string s)).toList = q :: more ∧ (q = '\'' ∨ q = '"') := by
  rw [toList_valueText_string, stringChars]
  split
  · exact ⟨'\'', _, rfl, .inl rfl⟩
  · exact ⟨'"', _, rfl, .inr rfl⟩

section Items

variable {q : Char} {v : Value} {vs : List Value} {w : List Char}

/-- No space is skipped in front of a quote. So an item that starts with one is read right away,
and what comes behind it decides how the list goes on. -/
theorem items?_quote (hq : q = '\'' ∨ q = '"')
    (hv : value? d fuel (q :: w) = some (v, c :: rest))
    (hc : skipSpace? false (c :: rest) = some (c :: rest)) :
    items? d (fuel + 1) (q :: w) =
      match c :: rest with
      | ']' :: rest => some ([v], rest)
      | ',' :: rest => (items? d fuel rest).bind fun r => some (v :: r.1, r.2)
      | _ => none := by
  have hskip : skipSpace? false (q :: w) = some (q :: w) := by rcases hq with rfl | rfl <;> rfl
  rw [items?, hskip]
  rcases hq with rfl | rfl
  · show (value? d fuel ('\'' :: w)).bind _ = _
    rw [hv, Option.bind_some]
    dsimp only
    rw [hc]
    rfl
  · show (value? d fuel ('"' :: w)).bind _ = _
    rw [hv, Option.bind_some]
    dsimp only
    rw [hc]
    rfl

/-- A blank in front of the items does not matter. -/
theorem items?_blank (d : Dialect) (fuel : Nat) (s : List Char) :
    items? d fuel (' ' :: s) = items? d fuel s := by
  cases fuel with
  | zero => rw [items?, items?]
  | succ fuel => rw [items?, items?]; rfl

end Items

/-- **A list of strings is read back**, given a step for each of them and one for the end.
Behind the last item the bracket comes, and behind each other one a comma, a blank and the next
item. -/
theorem items?_strings (l : List String) (rest : List Char) (hfuel : l.length < fuel) :
    items? strict fuel ((itemsText (l.map Data.string)).toList ++ ']' :: rest) =
      some (l.map fun s => .scalar (.string s), rest) := by
  induction l generalizing fuel with
  | nil =>
    obtain ⟨fuel, rfl⟩ := Nat.exists_eq_succ_of_ne_zero (Nat.ne_of_gt hfuel)
    rfl
  | cons s more ih =>
    obtain ⟨fuel, rfl⟩ := Nat.exists_eq_succ_of_ne_zero (Nat.ne_of_gt (Nat.zero_lt_of_lt hfuel))
    -- One step of fuel is for this item, and there is one more for what comes behind it.
    have hmore : more.length < fuel := Nat.lt_of_succ_lt_succ hfuel
    obtain ⟨fuel, rfl⟩ := Nat.exists_eq_succ_of_ne_zero (Nat.ne_of_gt (Nat.zero_lt_of_lt hmore))
    obtain ⟨q, w, hs, hq⟩ := exists_cons_valueText_string s
    cases more with
    | nil =>
      have hv := value?_string s (.bracket rest) fuel
      rw [List.map_cons, List.map_nil, itemsText, hs]
      rw [hs] at hv
      rw [List.cons_append] at hv ⊢
      rw [items?_quote hq hv rfl]
      rfl
    | cons s' more =>
      have hv := value?_string s
        (.comma (' ' :: (itemsText ((s' :: more).map Data.string)).toList ++ ']' :: rest)) fuel
      -- The text of the first item, a comma, a blank, and the text of the others.
      have htext : (itemsText ((s :: s' :: more).map Data.string)).toList ++ ']' :: rest =
          (valueText (.string s)).toList ++
            ',' ::
                (' ' :: (itemsText ((s' :: more).map Data.string)).toList ++ ']' :: rest) := by
        rw [List.map_cons, List.map_cons, itemsText, String.toList_append, String.toList_append,
          List.append_assoc, List.append_assoc]
        · rfl
        · exact List.cons_ne_nil _ _
      rw [htext, hs, List.cons_append]
      rw [hs, List.cons_append] at hv
      rw [items?_quote hq hv rfl]
      exact congrArg (Option.bind · fun r => some (Value.scalar (.string s) :: r.1, r.2))
        ((items?_blank _ _ _).trans (ih hmore))

/-- A list of strings is read back. The opening bracket takes one step more. -/
theorem value?_strings (l : List String) (rest : List Char) (hfuel : l.length + 1 < fuel) :
    value? strict fuel ((valueText (Data.strings l)).toList ++ rest) =
      some (.array (l.map fun s => .scalar (.string s)), rest) := by
  obtain ⟨fuel, rfl⟩ := Nat.exists_eq_succ_of_ne_zero (Nat.ne_of_gt (Nat.zero_lt_of_lt hfuel))
  have htext : (valueText (Data.strings l)).toList ++ rest =
      '[' :: ((itemsText (l.map Data.string)).toList ++ ']' :: rest) := by
    rw [Data.strings, valueText, String.toList_append, String.toList_append, List.append_assoc,
      List.append_assoc]
    rfl
  rw [htext, value?, items?_strings l rest (Nat.lt_of_succ_lt_succ hfuel)]
  rfl

end Exemplar.Toml
