import Exemplar.Proofs.Config.Versions

/-!
# Backups are a shift register

A save that is not refused anything puts the new content into the youngest version of a file; if
there was a file, every other version takes over what the next younger one held, and what the
oldest held is lost. So after a row of saves the versions hold the last four of what was saved.

That no version is lost on the way rests on the order of the steps: a version is moved only when
the place of the next older one has been cleared.

Each step is a question of places, and the steps are put together at that level (`Turned`): what
holds at the place of a version, and below it, in case someone has put a directory there. For
this, the places of the versions must differ, and none may be on the way to another. They do
because they lie side by side in one directory, with names that differ in what is put behind the
name of the file.

Then the same is said of paths (`Shifted`). A path leads to its place only through directories,
and these may have been made by the save itself; before that, the path led to nothing, and so
did the paths of all versions. A row of saves is then a matter of one step, since each save says
all about the versions that the next one needs to know (`HoldsLast.save`).
-/

namespace Exemplar.Config

open Exemplar.Disk

variable {d d' made d₁ d₂ d₃ : Disk} {cwd path : String} {c : Config}
  {age : Nat} {parent : Place}
  {name : Nat → String} {before content : Text}

/-! ## A save, place by place

The steps are done in turn: the oldest version is dropped, the second moves to its place and the
first to the place of the second, the file is copied to the first, and the new content is
written. -/

/-- The places of a path's versions after a save that had a file to keep: every version stands
where the next older one stood, and the new content where the file stood. -/
structure Turned (d d' : Disk) (cwd path : String) (content : Text) : Prop where
  /-- There was a file. -/
  previous : ∃ before, d.get? (versionPlace cwd path 0) = some (.file before)
  /-- The file holds the new content. -/
  saved : d'.get? (versionPlace cwd path 0) = some (.file content)
  /-- What stood at a version and below it stands at the next older one. -/
  shifted : ∀ age < 3, ∀ below,
    d'.get? (below ++ versionPlace cwd path (age + 1))
    = d.get? (below ++ versionPlace cwd path age)
  /-- No place but those of the versions and below the backups has changed. -/
  kept : ∀ q, q ≠ versionPlace cwd path 0 →
    (∀ age, 1 ≤ age → age ≤ 3 → ¬versionPlace cwd path age <:+ q) → d'.get? q = d.get? q

/-- **The steps make a shift register**: the oldest version is dropped, two versions are moved
to the next older one, the file is copied to the youngest backup and then written. -/
theorem turned_of_steps (hb : Beside cwd path parent name) (ht : d.IsTree)
    (hfile : d₃.get? (versionPlace cwd path 0) = some (.file before))
    (hdropped : ∀ x, ¬versionPlace cwd path 3 <:+ x → d₁.get? x = d.get? x)
    (hsecond : Moved d₁ d₂ (versionPlace cwd path 2) (versionPlace cwd path 3))
    (hfirst : Moved d₂ d₃ (versionPlace cwd path 1) (versionPlace cwd path 2)) :
    Turned d ((d₃.set (versionPlace cwd path 1) (.file before)).set (versionPlace cwd path 0)
      (.file content)) cwd path content := by
  have hset : ∀ x, x ≠ versionPlace cwd path 0 → x ≠ versionPlace cwd path 1 →
      ((d₃.set (versionPlace cwd path 1) (.file before)).set (versionPlace cwd path 0)
        (.file content)).get? x = d₃.get? x := fun x h₀ h₁ => by
    rw [get?_set_of_ne _ h₀, get?_set_of_ne _ h₁]
  -- the file itself is in nobody's way
  have hkeep : ∀ x, ¬versionPlace cwd path 1 <:+ x → ¬versionPlace cwd path 2 <:+ x →
      ¬versionPlace cwd path 3 <:+ x → d₃.get? x = d.get? x := fun x h₁ h₂ h₃ => by
    rw [hfirst.kept x h₁ h₂, hsecond.kept x h₂ h₃, hdropped x h₃]
  have hprevious : d.get? (versionPlace cwd path 0) = some (.file before) :=
    (hkeep _ (hb.apart (by decide) []) (hb.apart (by decide) [])
      (hb.apart (by decide) [])).symm.trans hfile
  refine ⟨⟨before, hprevious⟩, get?_set_self _ (hb.ne_nil (by decide)) _,
    fun age hage below => ?_, fun q h₀ hbackups => ?_⟩
  · match age, hage with
    | 0, _ =>
      cases below with
      | nil =>
        have hne : versionPlace cwd path 1 ≠ versionPlace cwd path 0 := hb.ne (by decide) []
        exact (get?_set_of_ne _ hne _).trans
          ((get?_set_self _ (hb.ne_nil (by decide)) _).trans hprevious.symm)
      | cons n rest =>
        -- nothing is below a file, and below the youngest backup nothing is left
        have hne : n :: rest ++ versionPlace cwd path 1 ≠ versionPlace cwd path 1 := fun h => by
          have := congrArg List.length h
          rw [List.length_append, List.length_cons] at this
          omega
        rw [hset _ (hb.ne (by decide) _) hne, hfirst.source, ht.free_below_file hprevious]
    | 1, _ =>
      rw [hset _ (hb.ne (by decide) _) (hb.ne (by decide) _),
        hfirst.target, hsecond.kept _ (hb.apart (by decide) below) (hb.apart (by decide) below),
        hdropped _ (hb.apart (by decide) below)]
    | 2, _ =>
      rw [hset _ (hb.ne (by decide) _) (hb.ne (by decide) _),
        hfirst.kept _ (hb.apart (by decide) below) (hb.apart (by decide) below), hsecond.target,
        hdropped _ (hb.apart (by decide) below)]
  · have h₁ := hbackups 1 (by decide) (by decide)
    rw [hset q h₀ fun heq => h₁ (heq ▸ List.suffix_rfl)]
    exact hkeep q h₁ (hbackups 2 (by decide) (by decide)) (hbackups 3 (by decide) (by decide))

/-- What a path leads through stays when a file is written that is not on the way. -/
theorem leads_set (hl : Leads d cwd path) {p : Place}
    (hp : d.get? p ≠ some .directory) (e : Entry) :
    Leads (d.set p e) cwd path := fun q hq => by
  have hne : q ≠ p := by
    rintro rfl
    exact hp (hl q hq)
  rw [get?_set_of_ne d hne, hl q hq]

/-- Writing the file where a path leads keeps a tree. -/
theorem isTree_set_version (hb : Beside cwd path parent name)
    (ht : d.IsTree) (hl : Leads d cwd path)
    (hage : age ≤ 3) (hfile : d.get? (versionPlace cwd path age) ≠ some .directory) (e : Entry) :
    (d.set (versionPlace cwd path age) e).IsTree :=
  ht.set (by rw [hb.tail hage]; exact hl _ hb.mem) hfile

/-- **With a file to keep, a save makes a shift register**, and the path leads somewhere all the
time. -/
theorem turned_of_inTurn (ht : d.IsTree) (hprevious : hasPrevious d cwd path = true)
    (hquiet : dropEntries d cwd path = [])
    (h : inTurn (backupSteps d cwd path ++ [c.writeFile cwd path]) d = (.ok (), d')) :
    path ≠ "" ∧ d'.IsTree ∧ Leads d cwd path ∧ Leads d' cwd path ∧
      (∃ parent name, Beside cwd path parent name) ∧
      Turned d d' cwd path (Text.ofString (c.encode .toml)) := by
  rw [backupSteps, if_pos hprevious] at h
  obtain ⟨d₁, hdrop, h⟩ := inTurn_cons_eq_ok h
  obtain ⟨d₂, hsecond, h⟩ := inTurn_cons_eq_ok h
  obtain ⟨d₃, hfirst, h⟩ := inTurn_cons_eq_ok h
  obtain ⟨d₄, hcopy, h⟩ := inTurn_cons_eq_ok h
  obtain ⟨d₅, hwrite, h⟩ := inTurn_cons_eq_ok h
  cases h
  cases hdrop
  obtain ⟨before, hl₃, hfile, hfree₁, rfl⟩ := copyToNewest_eq_ok hcopy
  obtain ⟨hpath, hl₄, hfree₀, rfl⟩ := writeFile_eq_ok hwrite
  obtain ⟨parent, name, hb⟩ := exists_beside hl₄ hfree₀
  -- in the end the path leads to a file, so before it was moved it led somewhere, too
  have hl₂ : Leads d₂ cwd path := by
    by_contra hn
    exact hn (rotate_of_not_leads hb (by decide) hn hfirst ▸ hl₃)
  have hl₁ : Leads (dropOldest d cwd path) cwd path := by
    by_contra hn
    exact hn (rotate_of_not_leads hb (by decide) hn hsecond ▸ hl₂)
  obtain ⟨hl, ht₁, hcleared, hdropped⟩ := cleared_dropOldest hb ht hquiet hl₁
  obtain ⟨ht₂, hmoved₂⟩ := moved_rotate hb ht₁ hl₁ hpath (by decide) hcleared hsecond
  obtain ⟨ht₃, hmoved₁⟩ := moved_rotate hb ht₂ hl₂ hpath (by decide) (hmoved₂.source []) hfirst
  rw [← versionPlace_zero] at hfile hfree₀ ⊢
  have ht₄ := isTree_set_version hb ht₃ hl₃ (by decide) hfree₁ (.file before)
  exact ⟨hpath, isTree_set_version hb ht₄ hl₄ (by decide) hfree₀ _, hl, leads_set hl₄ hfree₀ _,
    ⟨parent, name, hb⟩, turned_of_steps hb ht hfile hdropped hmoved₂ hmoved₁⟩

/-- **Without a file to keep, a save only writes the file.** -/
theorem set_of_inTurn (ht : d.IsTree) (hnone : hasPrevious d cwd path = false)
    (h : inTurn (backupSteps d cwd path ++ [c.writeFile cwd path]) d = (.ok (), d')) :
    path ≠ "" ∧ d'.IsTree ∧ Leads d cwd path ∧ Leads d' cwd path ∧
      (∃ parent name, Beside cwd path parent name) ∧ d.get? (versionPlace cwd path 0) = none ∧
      d' = d.set (versionPlace cwd path 0) (.file (Text.ofString (c.encode .toml))) := by
  rw [backupSteps, if_neg (by rw [hnone]; exact Bool.false_ne_true)] at h
  obtain ⟨d₁, hwrite, h⟩ := inTurn_cons_eq_ok h
  cases h
  obtain ⟨hpath, hl, hfree, rfl⟩ := writeFile_eq_ok hwrite
  obtain ⟨parent, name, hb⟩ := exists_beside hl hfree
  rw [← versionPlace_zero] at hfree ⊢
  refine ⟨hpath, isTree_set_version hb ht hl (by decide) hfree _, hl, leads_set hl hfree _,
    ⟨parent, name, hb⟩, ?_, rfl⟩
  rw [hasPrevious, stat_of_passed hpath hl, ← versionPlace_zero] at hnone
  cases hget : d.get? (versionPlace cwd path 0) with
  | none => rfl
  | some e => rw [hget] at hnone; cases hnone

/-! ## A save, path by path

Before the steps, the directory of the file is made if it was not there. That changes nothing
for the versions: if there were any, so was their directory. -/

/-- The directories made for a save are on the way to the versions, where nothing was. -/
theorem get?_of_makeDirs_dir (hb : Beside cwd path parent name) (ht : d.IsTree)
    (h : d.makeDirs cwd (Path.dir path) = .ok made) (q : Place) :
    made.get? q = d.get? q ∨
    (q <:+ parent ∧ d.get? q = none ∧ made.get? q = some .directory) := by
  rw [← hb.dir]
  exact ht.get?_of_makeDirs ⟨Path.upToSlash path.toList, String.toList_ofList⟩ h q

/-- The directories made for a save are no versions and not below one. -/
theorem get?_version_of_makeDirs (hb : Beside cwd path parent name) (ht : d.IsTree)
    (h : d.makeDirs cwd (Path.dir path) = .ok made) (hage : age ≤ 3) (below : List String) :
    made.get? (below ++ versionPlace cwd path age)
      = d.get? (below ++ versionPlace cwd path age) := by
  refine (get?_of_makeDirs_dir hb ht h _).resolve_right fun hmade => ?_
  have := hmade.1.length_le
  rw [hb.place age hage, List.length_append, List.length_cons] at this
  omega

/-- Where there is a file, no directory has to be made for a save. -/
theorem get?_of_makeDirs_of_file (hb : Beside cwd path parent name) (ht : d.IsTree)
    (h : d.makeDirs cwd (Path.dir path) = .ok made)
    (hfile : d.get? (versionPlace cwd path 0) = some (.file before)) (q : Place) :
    made.get? q = d.get? q := by
  refine (get?_of_makeDirs_dir hb ht h q).resolve_right ?_
  rintro ⟨hq, hfree, -⟩
  rw [hb.place 0 (by decide)] at hfile
  rw [ht.directory_above (hfile ▸ Option.some_ne_none _) hq] at hfree
  cases hfree

/-- Making directories does not change what the paths of the versions lead to. -/
theorem stat_of_makeDirs (hb : Beside cwd path parent name) (ht : d.IsTree) (hpath : path ≠ "")
    (h : d.makeDirs cwd (Path.dir path) = .ok made) (hl : Leads made cwd path) (hage : age ≤ 3) :
    d.stat cwd (versionPath path age) = made.stat cwd (versionPath path age) := by
  rw [hb.stat_version hpath hl hage]
  have hplace := get?_version_of_makeDirs hb ht h hage []
  rw [List.nil_append] at hplace
  by_cases hld : Leads d cwd path
  · rw [hb.stat_version hpath hld hage, hplace]
  · -- a directory on the way was missing, and with it everything in it
    obtain ⟨q, hq⟩ := Classical.not_forall.1 hld
    obtain ⟨hmem, hne⟩ := Classical.not_imp.1 hq
    obtain ⟨hsuffix, hfree, -⟩ :=
      (get?_of_makeDirs_dir hb ht h q).resolve_left fun hsame => hne (hsame ▸ hl q hmem)
    have hnone : d.get? (versionPlace cwd path age) = none := by
      obtain ⟨below, hbelow⟩ :=
        hsuffix.trans (hb.place age hage ▸ List.suffix_cons (name age) parent)
      rw [← hbelow]
      exact ht.free_below hfree below
    rw [hplace, hnone]
    -- And what is now on the way was a directory before, or nothing.
    refine stat_of_clear (fun q' hq' content hfile => ?_) hnone
    rw [hb.way age hage] at hq'
    rcases get?_of_makeDirs_dir hb ht h q' with hsame | ⟨-, hfree', -⟩
    · rw [← hsame, hl q' hq'] at hfile
      cases hfile
    · rw [hfree'] at hfile
      cases hfile

/-- **A turn of the shift register.** -/
structure Shifted (d d' : Disk) (cwd path : String) (content : Text) : Prop where
  /-- The file holds the new content. -/
  saved : d'.stat cwd path = .ok (.file content)
  /-- If there was a file, every version is what the next younger one was, with all that is
  below it. -/
  shifted : d.holds cwd path = true → ∀ age < 3,
    d'.stat cwd (versionPath path (age + 1)) = d.stat cwd (versionPath path age) ∧
      ∀ below, d'.get? (below ++ versionPlace cwd path (age + 1)) =
        d.get? (below ++ versionPlace cwd path age)
  /-- If there was none, the backups are what they were. -/
  unmoved : d.holds cwd path = false → ∀ age, 1 ≤ age → age ≤ 3 →
    d'.stat cwd (versionPath path age) = d.stat cwd (versionPath path age) ∧
      ∀ below, d'.get? (below ++ versionPlace cwd path age) =
        d.get? (below ++ versionPlace cwd path age)
  /-- Nothing else has changed, but for directories where nothing was. -/
  kept : ∀ q, q ≠ versionPlace cwd path 0 →
    (∀ age, 1 ≤ age → age ≤ 3 → ¬versionPlace cwd path age <:+ q) →
      d'.get? q = d.get? q ∨ (d.get? q = none ∧ d'.get? q = some .directory)

/-- Whether there is a file to keep is told before directories are made. -/
theorem holds_eq_of_makeDirs (hb : Beside cwd path parent name)
    (ht : d.IsTree) (hpath : path ≠ "")
    (h : d.makeDirs cwd (Path.dir path) = .ok made) (hl : Leads made cwd path) :
    d.holds cwd path = (made.get? (versionPlace cwd path 0)).isSome := by
  have hstat := stat_of_makeDirs hb ht hpath h hl (show 0 ≤ 3 by decide)
  rw [hb.stat_version hpath hl (by decide), versionPath_zero] at hstat
  rw [holds, hstat]
  cases made.get? (versionPlace cwd path 0) <;> rfl

/-- With a file to keep no directory had to be made, so what is said of places can be said of
paths. -/
theorem Turned.shifted_of_makeDirs (hturned : Turned made d' cwd path content)
    (hb : Beside cwd path parent name) (ht : d.IsTree) (hpath : path ≠ "")
    (h : d.makeDirs cwd (Path.dir path) = .ok made) (hl : Leads made cwd path)
    (hl' : Leads d' cwd path) :
    Shifted d d' cwd path content where
  saved := by rw [stat_of_passed hpath hl', ← versionPlace_zero, hturned.saved]; rfl
  shifted _ age hage := by
    have hplace := hturned.shifted age hage
    have hlater : age ≤ 3 := Nat.le_of_lt hage
    refine ⟨?_,
      fun below => (hplace below).trans (get?_version_of_makeDirs hb ht h hlater below)⟩
    rw [hb.stat_version hpath hl' hage, stat_of_makeDirs hb ht hpath h hl hlater,
      hb.stat_version hpath hl hlater]
    exact congrArg (Option.elim · _ _) (hplace [])
  unmoved hnone := by
    obtain ⟨before, hfile⟩ := hturned.previous
    rw [holds_eq_of_makeDirs hb ht hpath h hl, hfile] at hnone
    cases hnone
  kept q h₀ hbackups := by
    obtain ⟨before, hfile⟩ := hturned.previous
    have hfile' := (get?_version_of_makeDirs hb ht h (by decide) []).symm.trans hfile
    exact .inl ((hturned.kept q h₀ hbackups).trans (get?_of_makeDirs_of_file hb ht h hfile' q))

/-- Without one, the file is the only thing that is new. -/
theorem shifted_of_set (hb : Beside cwd path parent name) (ht : d.IsTree) (hpath : path ≠ "")
    (h : d.makeDirs cwd (Path.dir path) = .ok made) (hl : Leads made cwd path)
    (hfree : made.get? (versionPlace cwd path 0) = none)
    (hl' : Leads (made.set (versionPlace cwd path 0) (.file content)) cwd path) :
    Shifted d (made.set (versionPlace cwd path 0) (.file content)) cwd path content where
  saved := by
    rw [stat_of_passed hpath hl', ← versionPlace_zero, get?_set_self _ (hb.ne_nil (by decide))]
    rfl
  shifted hholds := by
    rw [holds_eq_of_makeDirs hb ht hpath h hl, hfree] at hholds
    cases hholds
  unmoved _ age hpos hage := by
    have hplace : ∀ below, (made.set (versionPlace cwd path 0) (.file content)).get?
        (below ++ versionPlace cwd path age) = made.get? (below ++ versionPlace cwd path age) :=
        fun below =>
      get?_set_of_ne _ (hb.ne ⟨by decide, hage, by omega⟩ below) _
    refine ⟨?_, fun below => (hplace below).trans (get?_version_of_makeDirs hb ht h hage below)⟩
    rw [hb.stat_version hpath hl' hage, stat_of_makeDirs hb ht hpath h hl hage,
      hb.stat_version hpath hl hage]
    exact congrArg (Option.elim · _ _) (hplace [])
  kept q h₀ _ := by
    rw [get?_set_of_ne _ h₀]
    exact (get?_of_makeDirs_dir hb ht h q).imp_right And.right

/-- A save that is refused nothing and has nothing to warn of. -/
structure SavesQuietly (c : Config) (d d' : Disk) (cwd path : String) : Prop where
  /-- It ends well. -/
  ok : c.save d cwd path = (.ok (), d')
  /-- Nothing is said meanwhile. -/
  quiet : saveEntries d cwd path = []

/-- A quiet save is a turn of the shift register. -/
theorem SavesQuietly.shifted (h : SavesQuietly c d d' cwd path) (ht : d.IsTree) :
    d'.IsTree ∧ Shifted d d' cwd path (Text.ofString (c.encode .toml)) := by
  obtain ⟨h, hquiet⟩ := h
  rw [save] at h
  rw [saveEntries] at hquiet
  cases hmake : d.makeDirs cwd (Path.dir path) with
  | error r => rw [hmake] at h; cases h
  | ok made =>
    rw [hmake] at h hquiet
    dsimp only at h hquiet
    cases hprevious : hasPrevious made cwd path with
    | true =>
      rw [if_pos hprevious] at hquiet
      obtain ⟨hpath, ht', hl, hl', ⟨parent, name, hb⟩, hturned⟩ :=
        turned_of_inTurn (ht.makeDirs hmake) hprevious hquiet h
      exact ⟨ht', hturned.shifted_of_makeDirs hb ht hpath hmake hl hl'⟩
    | false =>
      obtain ⟨hpath, ht', hl, hl', ⟨parent, name, hb⟩, hfree, rfl⟩ :=
        set_of_inTurn (ht.makeDirs hmake) hprevious h
      exact ⟨ht', shifted_of_set hb ht hpath hmake hl hfree hl'⟩

/-! ## Rows of saves

A row is given by what was saved, the last in front, so that the age of a version is its place
in the row. -/

/-- A row of quiet saves to one path, with the configuration that was saved last in front. -/
inductive Saves (cwd path : String) (d₀ : Disk) : List Config → Disk → Prop
  /-- Nothing has been saved yet. -/
  | start : Saves cwd path d₀ [] d₀
  /-- One more is saved. -/
  | save {next : Config} {cs : List Config} {mid last : Disk} :
    Saves cwd path d₀ cs mid → SavesQuietly next mid last cwd path →
    Saves cwd path d₀ (next :: cs) last

/-- The disk stays a tree. -/
theorem Saves.isTree {d₀ : Disk} {cs : List Config} (ht : d₀.IsTree)
    (h : Saves cwd path d₀ cs d) :
    d.IsTree := by
  induction h with
  | start => exact ht
  | save _ hsave ih => exact (hsave.shifted ih).1

/-- The versions of a file are the configurations that were saved last, and there are no more. -/
structure HoldsLast (cwd path : String) (cs : List Config) (d : Disk) : Prop where
  /-- A version holds the configuration saved as many saves ago as it is old. -/
  present : ∀ age ≤ 3, ∀ c, cs[age]? = some c →
    d.stat cwd (versionPath path age) = .ok (.file (Text.ofString (c.encode .toml)))
  /-- Older versions than there were saves are not there. -/
  absent : ∀ age ≤ 3, cs.length ≤ age → d.holds cwd (versionPath path age) = false

/-- **One more save** moves the saved configurations on by one. -/
theorem HoldsLast.save {cs : List Config} (h : HoldsLast cwd path cs d)
    (hs : Shifted d d' cwd path (Text.ofString (c.encode .toml))) :
    HoldsLast cwd path (c :: cs) d' := by
  -- Whether something was saved before decides if there was a file to keep.
  cases cs with
  | nil =>
    -- there was no file, so the backups stay away
    have hnone : d.holds cwd path = false := by
      have := h.absent 0 (by decide) (Nat.le_refl _)
      rwa [versionPath_zero] at this
    refine ⟨fun age hage c' hc' => ?_, fun age hage hlength => ?_⟩
    · cases age with
      | zero =>
        cases hc'
        rw [versionPath_zero, hs.saved]
      | succ age =>
        rw [List.getElem?_cons_succ, List.getElem?_nil] at hc'
        cases hc'
    · rw [holds, (hs.unmoved hnone age hlength hage).1]
      exact h.absent age hage (Nat.zero_le _)
  | cons latest rest =>
    have hholds : d.holds cwd path = true := by
      have := h.present 0 (by decide) latest rfl
      rw [versionPath_zero] at this
      rw [holds, this]
      rfl
    refine ⟨fun age hage c' hc' => ?_, fun age hage hlength => ?_⟩
    · cases age with
      | zero =>
        cases hc'
        rw [versionPath_zero, hs.saved]
      | succ age =>
        rw [(hs.shifted hholds age hage).1]
        exact h.present age (Nat.le_of_lt hage) c' hc'
    · cases age with
      | zero => cases hlength
      | succ age =>
        rw [holds, (hs.shifted hholds age hage).1]
        exact h.absent age (Nat.le_of_lt hage) (Nat.le_of_succ_le_succ hlength)

/-- **The backups of a file are a shift register.** Whatever the file system was, every save of
a row puts its configuration into the file, moves every other version on by one if there was a
file, and otherwise leaves the backups alone; nothing else changes. So if none of the versions
was there, they hold the last four configurations that were saved, and as many as there were. -/
theorem holdsLast_of_saves {d₀ : Disk} {cs : List Config} (ht : d₀.IsTree)
    (h : Saves cwd path d₀ cs d) :
    (∀ c d', SavesQuietly c d d' cwd path →
      Shifted d d' cwd path (Text.ofString (c.encode .toml))) ∧
    ((∀ age ≤ 3, d₀.holds cwd (versionPath path age) = false) → HoldsLast cwd path cs d) := by
  refine ⟨fun c d' hsave => (hsave.shifted (h.isTree ht)).2, fun hnone => ?_⟩
  induction h with
  | start =>
    refine ⟨fun age _ c hc => ?_, fun age hage _ => hnone age hage⟩
    rw [List.getElem?_nil] at hc
    cases hc
  | save hrun hsave ih => exact ih.save (hsave.shifted (hrun.isTree ht)).2

/-! ## A run

Whether saves are quiet can be computed, and so a fixed row of them can be followed. -/

/-- The configuration with a number of units at once, and everything else built in. -/
def withParallelism (n : Int) : Config :=
  { default with generate := { default.generate with parallelism := n } }

/-- A file system with a working directory and nothing in it. -/
def workplace : Disk := ⟨[(["w"], .directory)]⟩

/-- The file system after a row of saves, the last of which is in front. -/
def afterSaves (cwd path : String) (d : Disk) : List Config → Disk
  | [] => d
  | c :: cs => (c.save (afterSaves cwd path d cs) cwd path).2

/-- Whether nothing is refused in a row of saves and there is nothing to warn of. -/
def quietly (cwd path : String) (d : Disk) : List Config → Bool
  | [] => true
  | c :: cs => quietly cwd path d cs && (c.save (afterSaves cwd path d cs) cwd path).1.isOk &&
    (saveEntries (afterSaves cwd path d cs) cwd path).isEmpty

/-- A save that ends well. -/
theorem save_eq_of_isOk (h : (c.save d cwd path).1.isOk = true) :
    c.save d cwd path = (.ok (), (c.save d cwd path).2) := by
  generalize c.save d cwd path = result at h
  obtain ⟨outcome | outcome, last⟩ := result
  · cases h
  · rfl

/-- A row of quiet saves. -/
theorem saves_of_quietly {d₀ : Disk} {cs : List Config} (h : quietly cwd path d₀ cs = true) :
    Saves cwd path d₀ cs (afterSaves cwd path d₀ cs) := by
  induction cs with
  | nil => exact .start
  | cons c cs ih =>
    rw [quietly, Bool.and_eq_true, Bool.and_eq_true] at h
    obtain ⟨⟨hrun, hok⟩, hquiet⟩ := h
    exact (ih hrun).save ⟨save_eq_of_isOk hok, List.isEmpty_iff.1 hquiet⟩

/-- Five configurations, the last of which is in front. -/
def fiveSaved : List Config := [5, 4, 3, 2, 1].map withParallelism

/-- Five saves leave the fifth in the file and the three before it in the backups. -/
theorem holdsLast_five :
    workplace.IsTree ∧
      Saves "/w" "c/e.toml" workplace fiveSaved
      (afterSaves "/w" "c/e.toml" workplace fiveSaved) ∧
      HoldsLast "/w" "c/e.toml" fiveSaved (afterSaves "/w" "c/e.toml" workplace fiveSaved) := by
  have ht : workplace.IsTree := isTree_of_entries (by decide +kernel)
  have hrun : Saves "/w" "c/e.toml" workplace fiveSaved
      (afterSaves "/w" "c/e.toml" workplace fiveSaved) := saves_of_quietly (by decide +kernel)
  exact ⟨ht, hrun, (holdsLast_of_saves ht hrun).2 (by decide +kernel)⟩

end Exemplar.Config
