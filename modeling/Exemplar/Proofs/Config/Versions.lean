import Exemplar.Config.Save
import Exemplar.Proofs.Disk.Renaming

/-!
# Versions of a file

A file and its three backups are four versions of it, side by side in one directory: they are
reached on the same way, their names differ, and nothing is at or below two of them. Each step
of a save is described by what it does to the places of the versions.

The path of a backup is that of the file with a suffix behind it, so what is said about places
has to be read off texts. If the file is there as one, the path ends with a name, and the suffix
makes another name of it in the same directory. That is not so for a path that ends with a slash
or with a step upwards; but such a path leads to a directory, and the file is none
(`exists_beside`).

From there on only places matter. A save drops the oldest backup, moves each of the others by
one, copies the file to the newest one, and writes the file. Dropping and moving do not report
all failures, so what they do is described under the condition that nothing was reported, which
is what a save that succeeds quietly gives.
-/

namespace Exemplar.Config

open Exemplar.Disk

variable {d d' : Disk} {cwd path : String} {c : Config} {age : Nat}

/-! ## Versions of a file

The file counts as the version of age 0. -/

/-- What the path of a version has behind the path of the file: nothing for the file itself. -/
def versionSuffix : Nat → String
  | 0 => ""
  | age + 1 => ".back" ++ toString (age + 1)

/-- The path of a version of a file: the file itself, or the backup of the given age. -/
def versionPath (path : String) (age : Nat) : String := path ++ versionSuffix age

/-- The place of a version of a file. -/
def versionPlace (cwd path : String) (age : Nat) : Place :=
  destination cwd (versionPath path age)

/-- The file itself has no suffix. -/
theorem versionPath_zero (path : String) : versionPath path 0 = path := String.append_empty

/-- Its place is where its path leads. -/
theorem versionPlace_zero (cwd path : String) :
    versionPlace cwd path 0 = destination cwd path := by
  rw [versionPlace, versionPath_zero]

/-- The paths of backups are those of the older versions. -/
theorem backupPath_eq (path : String) (age : Nat) :
    backupPath path (age + 1) = versionPath path (age + 1) :=
  String.append_assoc

/-- A path leads somewhere: the places on its way are directories. -/
def Leads (d : Disk) (cwd path : String) : Prop :=
  ∀ q ∈ passed cwd path, d.get? q = some .directory

/-- **The versions of a file lie side by side.** They are reached on the same way and are told
apart by their names. -/
structure Beside (cwd path : String) (parent : Place) (name : Nat → String) : Prop where
  /-- The directory they lie in is on the way. -/
  mem : parent ∈ passed cwd path
  /-- It is where the directory of the path leads. -/
  dir : destination cwd (Path.dir path) = parent
  /-- All versions are reached on the same way. -/
  way : ∀ age ≤ 3, passed cwd (versionPath path age) = passed cwd path
  /-- A version has its name in the directory. -/
  place : ∀ age ≤ 3, versionPlace cwd path age = name age :: parent
  /-- No two versions have one name. -/
  injective : ∀ i ≤ 3, ∀ j ≤ 3, name i = name j → i = j

/-- The versions of a path that leads somewhere, and not to a directory, lie side by side. Its
last name is none of those that lead elsewhere: the empty one and the one for the same directory
would stay at a directory, and the step upwards would lead to one. With a suffix behind it, a
name is longer than any of these. -/
theorem exists_beside (hpath : Leads d cwd path)
    (hfile : d.get? (destination cwd path) ≠ some .directory) :
    ∃ parent name, Beside cwd path parent name := by
  obtain ⟨parent, n, hmem, hdir, hlast⟩ := exists_lastName cwd path
  have hslash : ∀ age ≤ 3, '/' ∉ (versionSuffix age).toList := by decide +kernel
  -- A name with a suffix is no step upwards.
  have hlong : ∀ age ≤ 3, age ≠ 0 → 3 ≤ (versionSuffix age).length := by decide +kernel
  have hdistinct : ∀ i ≤ 3, ∀ j ≤ 3, versionSuffix i = versionSuffix j → i = j := by
    decide +kernel
  refine ⟨parent, fun age => n ++ versionSuffix age, hmem, hdir,
    fun age hage => (hlast _ (hslash age hage)).1, fun age hage => ?_, fun i hi j hj h => ?_⟩
  · rw [versionPlace, versionPath, (hlast _ (hslash age hage)).2]
    by_cases hzero : age = 0
    · -- the last name of the path leads to something in the directory, for there is no directory
      subst hzero
      have hend := (hlast _ (hslash 0 hage)).2
      have hn : n ++ versionSuffix 0 = n := String.append_empty
      rw [show path ++ versionSuffix 0 = path from String.append_empty, hn] at hend
      rw [hn]
      rw [hend, step] at hfile
      unfold step
      split
      · rename_i hstay
        rw [if_pos hstay] at hfile
        exact absurd (hpath _ hmem) hfile
      · rename_i hstay
        rw [if_neg hstay] at hfile
        split
        · rename_i habove
          rw [if_pos habove] at hfile
          exact absurd (hpath _ (tail_mem_passed hmem)) hfile
        · rfl
    · have hlength := hlong age hage hzero
      have hne : ∀ w : String, w.length < 3 → ¬(n ++ versionSuffix age == w) = true := by
        intro w hw h
        rw [beq_iff_eq] at h
        rw [← h, String.length_append] at hw
        omega
      rw [step, if_neg, if_neg (hne ".." (by decide))]
      rw [Bool.or_eq_true, not_or]
      exact ⟨hne "" (by decide), hne "." (by decide)⟩
  · refine hdistinct i hi j hj (String.toList_inj.1 ?_)
    have := congrArg String.toList h
    rwa [String.toList_append, String.toList_append, List.append_cancel_left_eq] at this

namespace Beside

variable {parent : Place} {name : Nat → String}

/-- No version is the root. -/
theorem ne_nil (h : Beside cwd path parent name) (hage : age ≤ 3) :
    versionPlace cwd path age ≠ [] := by
  rw [h.place age hage]
  exact List.cons_ne_nil _ _

/-- Each version lies in the directory. -/
theorem tail (h : Beside cwd path parent name) (hage : age ≤ 3) :
    (versionPlace cwd path age).tail = parent := by
  rw [h.place age hage]
  rfl

/-- Nothing is at or below two versions. Two places in one directory with different names have
nothing in common below them. -/
theorem apart (h : Beside cwd path parent name) {i j : Nat} (hij : i ≤ 3 ∧ j ≤ 3 ∧ i ≠ j)
    (below : List String) : ¬versionPlace cwd path i <:+ below ++ versionPlace cwd path j := by
  obtain ⟨hi, hj, hij⟩ := hij
  rw [h.place i hi, h.place j hj]
  intro hsuffix
  have hsame :=
    List.suffix_of_suffix_length_le hsuffix (List.suffix_append below (name j :: parent))
    (Nat.le_refl _)
  obtain ⟨hname, -⟩ := List.cons.inj (hsame.eq_of_length rfl)
  exact hij (h.injective i hi j hj hname)

/-- So what is below one of them is none of the others. -/
theorem ne (h : Beside cwd path parent name) {i j : Nat} (hij : i ≤ 3 ∧ j ≤ 3 ∧ i ≠ j)
    (below : List String) : below ++ versionPlace cwd path j ≠ versionPlace cwd path i :=
  fun heq =>
  h.apart hij below (heq ▸ List.suffix_rfl)

/-- The paths of all versions lead somewhere, or none does. -/
theorem leads_iff (h : Beside cwd path parent name) (hage : age ≤ 3) :
    Leads d cwd (versionPath path age) ↔ Leads d cwd path := by
  rw [Leads, Leads, h.way age hage]

/-- What a version's path leads to is what its place holds. -/
theorem stat_version (h : Beside cwd path parent name)
    (hpath : path ≠ "") (hl : Leads d cwd path)
    (hage : age ≤ 3) : d.stat cwd (versionPath path age) =
      (d.get? (versionPlace cwd path age)).elim (.error .missing) .ok := by
  refine stat_of_passed (fun hempty => hpath ?_) ((h.leads_iff hage).2 hl)
  rw [versionPath, String.append_eq_empty_iff] at hempty
  exact hempty.1

end Beside

/-- To hold something is to lead to something. -/
theorem holds_iff : d.holds cwd path = true ↔ ∃ e, d.stat cwd path = .ok e := by
  rw [holds]
  cases d.stat cwd path with
  | error r => exact ⟨nofun, nofun⟩
  | ok e => exact ⟨fun _ => ⟨e, rfl⟩, fun _ => rfl⟩

/-! ## The steps of a save

Each step succeeds with a file system that differs at the places of versions only. -/

/-- The oldest backup is dropped and nothing is said. It is removed, or there was none; any
other outcome would have been reported. -/
theorem cleared_dropOldest {parent : Place} {name : Nat → String}
    (hb : Beside cwd path parent name)
    (ht : d.IsTree) (hquiet : dropEntries d cwd path = [])
    (hl : Leads (dropOldest d cwd path) cwd path) :
    Leads d cwd path ∧ (dropOldest d cwd path).IsTree ∧
      (dropOldest d cwd path).get? (versionPlace cwd path 3) = none ∧
      ∀ x, ¬versionPlace cwd path 3 <:+ x → (dropOldest d cwd path).get? x = d.get? x := by
  have hpath : backupPath path 3 = versionPath path 3 := backupPath_eq path 2
  rw [dropEntries] at hquiet
  rw [dropOldest] at hl ⊢
  rw [hpath] at hquiet hl ⊢
  -- What came of removing it?
  cases hremove : d.remove cwd (versionPath path 3) with
  | ok next =>
    have hremoved := removed_of_remove hremove
    have hne := hb.ne_nil (Nat.le_refl 3)
    refine ⟨(hb.leads_iff (Nat.le_refl 3)).1 hremoved.directory,
      hremoved.isTree ht, ?_, fun x hx => ?_⟩
    · rw [hremoved.erased]
      exact get?_erase_self d hne
    · refine hremoved.kept fun heq => hx ?_
      rw [heq]
      exact List.suffix_rfl
  | error r =>
    rw [hremove] at hquiet hl
    cases r with
    | missing =>
      -- the path leads somewhere, so its place is free
      refine ⟨hl, ht, ?_, fun _ _ => rfl⟩
      have hstat := remove_eq_missing_iff.1 hremove
      have hne : versionPath path 3 ≠ "" := fun hempty => by
        rw [versionPath, String.append_eq_empty_iff] at hempty
        exact absurd hempty.2 (by decide +kernel)
      rw [stat_of_passed hne ((hb.leads_iff (Nat.le_refl 3)).2 hl)] at hstat
      rw [versionPlace]
      cases hget : d.get? (destination cwd (versionPath path 3)) with
      | none => rfl
      | some e => rw [hget] at hstat; cases hstat
    | notDirectory | isDirectory | taken | notEmpty => cases hquiet

/-- A version is moved to the next older one, whose place is free. If there is none, nothing is
moved, and both places are free. -/
theorem moved_rotate {parent : Place} {name : Nat → String} (hb : Beside cwd path parent name)
    (ht : d.IsTree) (hl : Leads d cwd path) (hpath : path ≠ "") (hage : age + 1 < 3)
    (hfree : d.get? (versionPlace cwd path (age + 2)) = none)
    (h : rotate d cwd path (age + 1) = .ok d') :
    d'.IsTree ∧ Moved d d' (versionPlace cwd path (age + 1))
      (versionPlace cwd path (age + 2)) := by
  have hsource : age + 1 ≤ 3 := Nat.le_of_lt hage
  have htarget : age + 2 ≤ 3 := hage
  rw [rotate, backupPath_eq, backupPath_eq] at h
  split at h
  · -- There is a version, and it is renamed to the next older place.
    have hmove :
        d' = d.moveTree (versionPlace cwd path (age + 1)) (versionPlace cwd path (age + 2)) := by
      split at h
      · rename_i hrename
        cases h
        exact moveTree_of_rename hrename
      · cases h
    have hmoved :
        Moved d d' (versionPlace cwd path (age + 1)) (versionPlace cwd path (age + 2)) := by
      rw [hmove]
      exact moved_moveTree d (hb.ne_nil hsource) (hb.ne_nil htarget)
        (hb.apart ⟨htarget, hsource, by omega⟩)
    refine ⟨hmoved.isTree ht (hb.ne_nil htarget) ?_
      (hb.apart ⟨hsource, htarget, by omega⟩ []), hmoved⟩
    rw [hb.tail htarget]
    exact hl _ hb.mem
  · -- there is nothing to move
    rename_i hholds
    cases h
    have hnone : d.get? (versionPlace cwd path (age + 1)) = none := by
      rw [holds_iff, hb.stat_version hpath hl hsource] at hholds
      cases hget : d.get? (versionPlace cwd path (age + 1)) with
      | none => rfl
      | some e => rw [hget] at hholds; exact absurd ⟨e, rfl⟩ hholds
    exact ⟨ht, fun below => (ht.free_below hfree below).trans (ht.free_below hnone below).symm,
      ht.free_below hnone, fun _ _ _ => rfl⟩

/-- Where the path leads nowhere, nothing is moved. -/
theorem rotate_of_not_leads {parent : Place} {name : Nat → String}
    (hb : Beside cwd path parent name)
    (hage : age + 1 ≤ 3) (hl : ¬Leads d cwd path)
    (h : rotate d cwd path (age + 1) = .ok d') : d' = d := by
  rw [rotate, backupPath_eq] at h
  rw [if_neg fun hholds => ?_] at h
  · cases h
    rfl
  · obtain ⟨e, he⟩ := holds_iff.1 hholds
    exact hl ((hb.leads_iff hage).1 (stat_eq_ok_iff_passed.1 he).2.1)

/-- The file is copied to the newest backup. -/
theorem copyToNewest_eq_ok (h : copyToNewest d cwd path = .ok d') :
    ∃ content, Leads d cwd path ∧ d.get? (destination cwd path) = some (.file content) ∧
      d.get? (versionPlace cwd path 1) ≠ some .directory ∧
      d' = d.set (versionPlace cwd path 1) (.file content) := by
  rw [copyToNewest, backupPath_eq path 0] at h
  cases hread : d.read cwd path with
  | error r => rw [hread] at h; cases h
  | ok content =>
    rw [hread] at h
    dsimp only at h
    obtain ⟨-, hway, hget⟩ := read_eq_ok_iff.1 hread
    cases hwrite : d.write cwd (versionPath path 1) content with
    | error r => rw [hwrite] at h; cases h
    | ok next =>
      rw [hwrite] at h
      cases h
      obtain ⟨p, hlocate, -, hfree, rfl⟩ := write_eq_ok hwrite
      have hne : versionPath path 1 ≠ "" := by
        intro hempty
        rw [hempty] at hlocate
        cases hlocate
      obtain ⟨rfl, -⟩ := (locate_eq_ok_iff hne).1 hlocate
      exact ⟨content, hway, hget, hfree, rfl⟩

/-- The configuration is written to the file. -/
theorem writeFile_eq_ok (h : c.writeFile cwd path d = .ok d') :
    path ≠ "" ∧ Leads d cwd path ∧ d.get? (destination cwd path) ≠ some .directory ∧
      d' = d.set (destination cwd path) (.file (Text.ofString (c.encode .toml))) := by
  rw [writeFile] at h
  cases hwrite : d.write cwd path (Text.ofString (c.encode .toml)) with
  | error r => rw [hwrite] at h; cases h
  | ok next =>
    rw [hwrite] at h
    cases h
    obtain ⟨p, hlocate, -, hfree, rfl⟩ := write_eq_ok hwrite
    have hpath : path ≠ "" := by
      rintro rfl
      cases hlocate
    obtain ⟨rfl, hway⟩ := (locate_eq_ok_iff hpath).1 hlocate
    exact ⟨hpath, hway, hfree, rfl⟩

/-- Steps that succeed one after the other: the first one does, and then the rest. -/
theorem inTurn_cons_eq_ok {step : Disk → Except Failure Disk}
    {rest : List (Disk → Except Failure Disk)}
    (h : inTurn (step :: rest) d = (.ok (), d')) :
    ∃ next, step d = .ok next ∧ inTurn rest next = (.ok (), d') := by
  rw [inTurn] at h
  cases hstep : step d with
  | error f => rw [hstep] at h; cases h
  | ok next => rw [hstep] at h; exact ⟨next, rfl, h⟩

end Exemplar.Config
