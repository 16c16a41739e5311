import Exemplar.Config.Basic
import Exemplar.Failure
import Exemplar.Json.Writer
import Exemplar.Toml.Writer
import Exemplar.Yaml.Writer

/-!
# Output formats

The formats in which a configuration, its settings and declarations can be shown.
-/

namespace Exemplar

/-- A format for data. -/
inductive Format where
  | toml
  | json
  | yaml
deriving DecidableEq

namespace Format

/-- The name of a format. -/
def name : Format → String
  | .toml => "toml"
  | .json => "json"
  | .yaml => "yaml"

/-- The format of a given name, which must be known; no name is that of the first. -/
def find (name : String) : Except Failure Format :=
  if name == "toml" || name.isEmpty then .ok .toml
  else if name == "json" then .ok .json
  else if name == "yaml" then .ok .yaml
  else .error (.unknownFormat name)

/-- Data in a format. -/
def write : Format → Data → String
  | .toml => Toml.write
  | .json => Json.write
  | .yaml => Yaml.write

/-- What stands for a list nobody mentioned: only one of the formats has a word for nothing. -/
def unset : Format → Data
  | .json => .null
  | .toml | .yaml => .list []

end Format

/-- A configuration in a format. -/
def Config.encode (c : Config) (f : Format) : String := f.write (c.toData f.unset)

end Exemplar
