import Exemplar.Text.Basic

/-!
# Build information

What a build knows about itself: its version, the commit it was made from, and when.
-/

namespace Exemplar

/-- What a build knows about itself. -/
structure BuildInfo where
  /-- The commit it was made from. -/
  commit : String
  /-- When it was made. -/
  built : String
  /-- Its version. -/
  version : String
deriving DecidableEq

namespace BuildInfo

/-- A build that was told nothing. -/
def unknown : BuildInfo := ⟨"dev", "unknown", "dev"⟩

/-- The version with everything else in parentheses. -/
def describe (b : BuildInfo) : String :=
  "fixturegen " ++ b.version ++ " (commit " ++ b.commit ++ ", built " ++ b.built ++ ")"

/-- The first seven bytes of the commit. -/
def short (b : BuildInfo) : Text :=
  Text.decode ((Text.ofString b.commit).encode.take 7)

end BuildInfo

end Exemplar
