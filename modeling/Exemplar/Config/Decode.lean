import Exemplar.Config.Basic
import Exemplar.Decimal.Shortest
import Exemplar.Text.Lines
import Exemplar.Text.Numeral

/-!
# Configurations from data

Values are taken as what they are needed for wherever that makes sense: a number where a text is
expected is its decimal text, a text where a number is expected is read as one, a single value
where a list is expected is a list of one, and a text there is split at its commas. What is not
mentioned is empty.
-/

namespace Exemplar.Config

/-- Data taken as a text. -/
def asText? : Data → Option String
  | .text t => some t.toString
  | .bool b => some (if b then "1" else "0")
  | .int n => some (toString n)
  | .float bits => some (Decimal.renderBits Decimal.plainLayout Decimal.binary64 bits.toNat)
  | _ => none

/-- A floating-point number without its fraction. What does not fit into 64 bits becomes the
least number that does. -/
def truncated (bits : UInt64) : Int :=
  match Decimal.binary64.decode bits.toNat with
  | .finite negative mantissa exponent _ =>
    let n := mantissa * Nat.pow 2 exponent.toNat / Nat.pow 2 (-exponent).toNat
    if n < Text.signLimit then if negative then -(n : Int) else n else -(Text.signLimit : Int)
  | _ => -(Text.signLimit : Int)

/-- Data taken as a whole number. -/
def asInt? : Data → Option Int
  | .int n => some n
  | .bool b => some (if b then 1 else 0)
  | .float bits => some (truncated bits)
  | .text [] => some 0
  | .text t => (Text.wholeNumber t.toString).toOption
  | _ => none

/-- Data taken as a truth value. -/
def asBool? : Data → Option Bool
  | .bool b => some b
  | .int n => some (n ≠ 0)
  | .float bits =>
    match Decimal.binary64.decode bits.toNat with
    | .finite _ mantissa _ _ => some (mantissa ≠ 0)
    | _ => some true
  | .text [] => some false
  | .text t => Text.truth? t.toString
  | _ => none

/-- Data taken as a list. -/
def asList? {α : Type} (item? : Data → Option α) : Data → Option (List α)
  | .list items => items.mapM item?
  | .text [] => some []
  | .text t => (Text.splitString ',' t.toString).mapM (fun s => item? (.string s))
  | .record [] => some []
  | d => (item? d).map (fun a => [a])

/-- The entry of a name taken as something, or what stands for it when it is not mentioned. -/
def entryOr {α : Type} (as? : Data → Option α) (unset : α) (entries : List (String × Data))
    (name : String) : Option α :=
  match entries.lookup name with
  | none => some unset
  | some d => as? d

/-- Data taken as a record. -/
def asRecord? : Data → Option (List (String × Data))
  | .record entries => some entries
  | _ => none

/-- Data taken as an enumeration. -/
def asEnum? (d : Data) : Option EnumConfig := do
  let es ← asRecord? d
  return { name := ← entryOr asText? "" es "name"
           values := ← entryOr (fun d => (asList? asText? d).map some) none es "values" }

/-- Data taken as the settings for builders. -/
def asGenerate? (d : Data) : Option GenerateConfig := do
  let es ← asRecord? d
  return { builderName := ← entryOr asText? "" es "builder_name"
           factory := ← entryOr asText? "" es "factory"
           header := ← entryOr asText? "" es "header"
           outputDir := ← entryOr asText? "" es "output_dir"
           suffix := ← entryOr asText? "" es "suffix"
           parallelism := ← entryOr asInt? 0 es "parallelism" }

/-- Data taken as the names to resolve types with. -/
def asTypes? (d : Data) : Option TypesConfig := do
  let es ← asRecord? d
  return { elementary := ← entryOr (fun d => (asList? asText? d).map some) none es "elementary"
           enums := ← entryOr (fun d => (asList? asEnum? d).map some) none es "enums" }

/-- Data taken as the settings for the log. -/
def asLog? (d : Data) : Option LogConfig := do
  let es ← asRecord? d
  return { json := ← entryOr asBool? false es "json" }

/-- Data taken as a configuration. -/
def decode? (d : Data) : Option Config := do
  let es ← asRecord? d
  return { generate := ← entryOr asGenerate? ⟨"", "", "", "", "", 0⟩ es "generate"
           types := ← entryOr asTypes? ⟨none, none⟩ es "types"
           log := ← entryOr asLog? ⟨false⟩ es "log"
           requires := ← entryOr asText? "" es "requires" }

end Exemplar.Config
