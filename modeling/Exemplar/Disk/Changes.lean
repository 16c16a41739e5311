import Exemplar.Disk.Basic

/-!
# Changes of a file system

What has to be done to a file system to turn it into another: removals from the inside out, then
new directories from the outside in, then files.
-/

namespace Exemplar.Disk

/-- Something to be done to a file system. -/
inductive Change where
  /-- A file is to go. -/
  | removeFile (path : String)
  /-- A directory is to go. -/
  | removeDir (path : String)
  /-- A directory is to be made. -/
  | makeDir (path : String)
  /-- A file is to have a content. -/
  | write (path : String) (content : Text)
deriving DecidableEq

/-- The removal of what a place holds, if it is not to hold anything. -/
def removal? (after : Disk) (e : Place × Entry) : Option Change :=
  match after.get? e.1, e.2 with
  | some _, _ => none
  | none, .file _ => some (.removeFile (pathOf e.1))
  | none, .directory => some (.removeDir (pathOf e.1))

/-- The making of what a place is to hold, if it does not hold it. -/
def making? (before : Disk) (e : Place × Entry) : Option Change :=
  if before.get? e.1 == some e.2 then none
  else match e.2 with
    | .directory => some (.makeDir (pathOf e.1))
    | .file content => some (.write (pathOf e.1) content)

/-- The entries of a file system, the outermost places first. -/
def outermostFirst (d : Disk) : List (Place × Entry) :=
  d.entries.mergeSort (fun a b => a.1.length ≤ b.1.length)

/-- What turns one file system into another. -/
def changes (before after : Disk) : List Change :=
  before.outermostFirst.reverse.filterMap (removal? after)
    ++ after.outermostFirst.filterMap (making? before)

end Exemplar.Disk
