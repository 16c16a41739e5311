import Exemplar.Disk.Basic

/-!
# Operations on the file system

Each operation follows a path from a working directory. Where it is refused, the reason names
what was tried, the path as it was given, and why.
-/

namespace Exemplar.Disk

/-- A reason: what was tried on which path, and why it was refused. -/
def reason (operation path : String) (r : Refusal) : String :=
  operation ++ " " ++ path ++ ": " ++ r.text

/-- The content of a file. -/
def read (d : Disk) (cwd path : String) : Except String Text :=
  match d.stat cwd path with
  | .ok (.file content) => .ok content
  | .ok .directory => .error (reason "read" path .isDirectory)
  | .error r => .error (reason "open" path r)

/-- Writes a file, in place of the one that was there. -/
def write (d : Disk) (cwd path : String) (content : Text) : Except String Disk :=
  match d.locate cwd path with
  | .error r => .error (reason "open" path r)
  | .ok p =>
    match d.get? p with
    | some .directory => .error (reason "open" path .isDirectory)
    | _ => .ok (d.set p (.file content))

/-- Removes a file or an empty directory. -/
def remove (d : Disk) (cwd path : String) : Except Refusal Disk :=
  match d.locate cwd path with
  | .error r => .error r
  | .ok p =>
    match d.get? p with
    | none => .error .missing
    | some (.file _) => .ok (d.erase p)
    | some .directory => if d.hasChildren p then .error .notEmpty else .ok (d.erase p)

/-- Removes whatever a path leads to, with everything in it. -/
def removeAll (d : Disk) (cwd path : String) : Disk :=
  match d.locate cwd path with
  | .error _ => d
  | .ok p => ⟨d.entries.filter (fun e => !isWithin e.1 p)⟩

/-- The paths on the way to a path, the outermost first and the path itself last. -/
def ways (path : String) : List String :=
  let ns := Path.segments path.toList
  (List.range ns.length).map (fun i => String.ofList (Path.joinNames (ns.take (i + 1))))

/-- Makes sure that each of the given paths is a directory. -/
def makeEach (d : Disk) (cwd : String) : List String → Except String Disk
  | [] => .ok d
  | path :: rest =>
    match d.stat cwd path with
    | .ok .directory => makeEach d cwd rest
    | .ok (.file _) => .error (reason "mkdir" path .notDirectory)
    | .error _ =>
      match d.locate cwd path with
      | .ok p => makeEach (d.set p .directory) cwd rest
      | .error r => .error (reason "mkdir" path r)

/-- Makes a directory, with the ones it lies in. -/
def makeDirs (d : Disk) (cwd path : String) : Except String Disk :=
  makeEach d cwd ((ways path).filter (fun p => !p.isEmpty))

/-- Moves everything at and below one place to another. -/
def moveTree (d : Disk) (source target : Place) : Disk :=
  let kept := d.entries.filter (fun e => !isWithin e.1 source && !isWithin e.1 target)
  let moved := (d.entries.filter (fun e => isWithin e.1 source)).map
    (fun e => (e.1.take (e.1.length - source.length) ++ target, e.2))
  ⟨moved ++ kept⟩

/-- Renames a file or a directory. A file in the way is replaced, a directory is not. -/
def rename (d : Disk) (cwd source target : String) : Except String Disk :=
  let fail (r : Refusal) : Except String Disk :=
    .error ("rename " ++ source ++ " " ++ target ++ ": " ++ r.text)
  match d.stat cwd source, d.stat cwd target with
  | .error r, _ => fail r
  | .ok _, .ok .directory => fail .taken
  | .ok .directory, .ok (.file _) => fail .notDirectory
  | .ok _, _ =>
    match d.locate cwd source, d.locate cwd target with
    | .ok p, .ok q => .ok (d.moveTree p q)
    | .error r, _ => fail r
    | _, .error r => fail r

end Exemplar.Disk
