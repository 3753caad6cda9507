import EquationNetwork.Network.Resolution
import EquationNetwork.Decimal.Places
import EquationNetwork.Report.Csv
import EquationNetwork.Report.Table

/-!
# Reports of results

* `resolutionTable` shows answers with six decimal places.
* `networkTable` shows the quantities of a network with their numbers and equations.
* `resolutionFile` holds answers as comma separated values, with all digits.
-/

namespace EquationNetwork.Report

/-- The decimal places of numbers in a table of answers. -/
def tablePlaces : Nat := 6

/-- The row of an answer. -/
def resolutionRow (name : String) : Resolution → List String
  | .resolved x => [name, Decimal.placesText tablePlaces x, "resolved"]
  | .unresolved => [name, "-", "unresolved"]

/-- The table of answers. -/
def resolutionTable (resolutions : Resolutions) : String :=
  Table.draw (["quantity", "value", "status"] :: resolutions.map fun r => resolutionRow r.1 r.2)

/-- The row of a quantity; an unknown number is shown as `?`. -/
def quantityRow (net : Network) (name : String) : List String :=
  let equations := ((net.quantityId? name).map net.linkNames).getD []
  [name, ((net.value? name).map Decimal.shortestText).getD "?", String.intercalate ", " equations]

/-- The table of a network's quantities. -/
def networkTable (net : Network) : String :=
  Table.draw (["quantity", "value", "equations"] :: net.quantityNames.map (quantityRow net))

/-- The record of an answer; without a number the value is empty. -/
def resolutionRecord (name : String) : Resolution → List String
  | .resolved x => [name, Decimal.shortestText x]
  | .unresolved => [name, ""]

/-- The answers as comma separated values under a header. -/
def resolutionFile (resolutions : Resolutions) : String :=
  Csv.file (["quantity", "value"] :: resolutions.map fun r => resolutionRecord r.1 r.2)

end EquationNetwork.Report
