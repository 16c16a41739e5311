import Exemplar.Text.Basic

/-!
# Resolution tables

A named type is resolved by a fixed list of built-in classes and by tables the user provides:
names of classes to treat as elementary, and enumerations with the names of their values. Tables
are read through lookups only. Two tables with the same answers are the same for every purpose,
and `Tables.merge` is described by its answers: the left table wins where both know an
enumeration.
-/

namespace Exemplar

/-- The built-in classes, known by name only. -/
def builtInClasses : List String :=
  ["Array", "ArrayBuffer", "AsynchFunction", "Atomics", "BigInt", "BigInt64Array",
   "BigUint64Array", "Boolean", "DataView", "Date", "Error", "EvalError", "FinalizationRegistry",
   "Float32Array", "Float64Array", "Function", "Generator", "GeneratorFunction", "InternalError",
   "Intl", "JSON", "Map", "Math", "NaN", "Number", "Object", "Promise", "Proxy", "RangeError",
   "ReferenceError", "Reflect", "RegExp", "Set", "SharedArrayBuffer", "String", "Symbol",
   "TypeError", "TypedArray", "UInt16Array", "UInt32Array", "UInt8Array", "UInt8ClampedArray",
   "UriError", "WeakMap", "WeakSet", "WebAssembly"]

/-- Whether a name is that of a built-in class. -/
def isBuiltIn (name : Text) : Bool := builtInClasses.any (fun c => name == Text.ofString c)

/-- Names in the order of their bytes, each once. -/
def sortedNames (names : List Text) : List Text :=
  (names.mergeSort Text.le).eraseDups

@[simp] theorem mem_sortedNames {names : List Text} {name : Text} :
    name ∈ sortedNames names ↔ name ∈ names := by
  rw [sortedNames, List.mem_eraseDups, List.mem_mergeSort]

/-- Tables for the resolution of names. -/
structure Tables where
  /-- The names to treat as elementary classes. -/
  elementary : List Text
  /-- The enumerations with the names of their values. Of two entries for one name the first
  counts. -/
  enums : List (Text × List Text)
deriving Inhabited

namespace Tables

/-- Tables that resolve nothing. -/
def empty : Tables := ⟨[], []⟩

/-- Whether a name is to be treated as an elementary class. -/
def isElementary (t : Tables) (name : Text) : Bool := t.elementary.contains name

/-- The value names of an enumeration. -/
def enumValues? (t : Tables) (name : Text) : Option (List Text) := t.enums.lookup name

/-- The elementary classes in the order of their bytes. -/
def elementaryNames (t : Tables) : List Text := sortedNames t.elementary

/-- The enumerations in the order of their bytes. -/
def enumNames (t : Tables) : List Text := sortedNames (t.enums.map (·.1))

/-- The entries in the order of their names: each enumeration with the values it resolves to. -/
def enumEntries (t : Tables) : List (Text × List Text) :=
  t.enumNames.map (fun n => (n, (t.enumValues? n).getD []))

/-! ## Tables that may be missing -/

/-- Tables, where there may be none. Tables that are missing resolve nothing. -/
abbrev Optional := Option Tables

namespace Optional

/-- Whether a name is to be treated as an elementary class. -/
def isElementary (t : Optional) (name : Text) : Bool := t.elim false (Tables.isElementary · name)

/-- The value names of an enumeration. -/
def enumValues? (t : Optional) (name : Text) : Option (List Text) :=
  t.bind (Tables.enumValues? · name)

/-- The elementary classes in the order of their bytes. -/
def elementaryNames (t : Optional) : List Text := t.elim [] Tables.elementaryNames

/-- The enumerations in the order of their bytes. -/
def enumNames (t : Optional) : List Text := t.elim [] Tables.enumNames

/-- Both tables in one. An enumeration that both know has the values of the first. -/
def merge (t other : Optional) : Tables :=
  ⟨t.elementaryNames ++ other.elementaryNames,
    t.elim [] Tables.enums ++ other.elim [] Tables.enums⟩

end Optional

/-- Both tables in one. -/
def merge (t other : Tables) : Tables := Optional.merge (some t) (some other)

/-- Tables from entries of which the last one for a name counts. -/
def ofLastEntries (elementary : List Text) (enums : List (Text × List Text)) : Tables :=
  ⟨elementary, enums.reverse⟩

@[simp] theorem isElementary_merge (t other : Tables) (name : Text) :
    (t.merge other).isElementary name = (t.isElementary name || other.isElementary name) := by
  simp [merge, Optional.merge, Optional.elementaryNames, elementaryNames, isElementary]

/-- **The left table wins.** -/
@[simp] theorem enumValues?_merge (t other : Tables) (name : Text) :
    (t.merge other).enumValues? name = (t.enumValues? name).or (other.enumValues? name) := by
  simp [merge, Optional.merge, enumValues?, List.lookup_append]

end Tables

end Exemplar
