import Exemplar.Config.Load

/-!
# Loading once

The layers of settings and the configuration they amount to are kept once they were loaded, so
later changes of the files go unnoticed until the cache is cleared. A failure is not kept. The
environment is no part of the layers: it counts whenever a value is asked for, but only at the
first time for the configuration.
-/

namespace Exemplar

/-- What was loaded before. -/
structure ConfigCache where
  /-- The layers. -/
  layers : Option Layers
  /-- The configuration. -/
  config : Option Config

namespace ConfigCache

/-- Nothing was loaded. -/
def empty : ConfigCache := ⟨none, none⟩

/-- The layers, loaded if they have not been. -/
def loadLayers (c : ConfigCache) (d : Disk) (cwd : String) (env : Environment) :
    Except Failure Layers × ConfigCache :=
  match c.layers with
  | some l => (.ok l, c)
  | none =>
    match Layers.load d cwd env with
    | .ok l => (.ok l, { c with layers := some l })
    | .error f => (.error f, c)

/-- The configuration, loaded if it has not been. Layers whose values do not fit are kept. -/
def loadConfig (c : ConfigCache) (d : Disk) (cwd : String) (env : Environment) :
    Except Failure Config × ConfigCache :=
  match c.config with
  | some config => (.ok config, c)
  | none =>
    match c.loadLayers d cwd env with
    | (.error f, next) => (.error f, next)
    | (.ok l, next) =>
      match l.config env with
      | .ok config => (.ok config, { next with config := some config })
      | .error f => (.error f, next)

end ConfigCache

end Exemplar
