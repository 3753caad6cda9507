/-!
# Comma separated values

A record is a line of fields with commas between them. A field that holds a comma, a quote or a line
break is put in quotes, and a quote inside it is written twice.
-/

namespace EquationNetwork.Report.Csv

/-- Does a field with this character need quotes? -/
def needsQuotes (c : Char) : Bool := c == ',' || c == '"' || c == '\r' || c == '\n'

/-- The characters of a field with every quote written twice. -/
def doubleQuotes (cs : List Char) : List Char :=
  cs.flatMap fun c => if c = '"' then ['"', '"'] else [c]

/-- A field as it stands in a record. -/
def field (text : String) : List Char :=
  let cs := text.toList
  if cs.any needsQuotes then '"' :: (doubleQuotes cs ++ ['"']) else cs

/-- A record with the end of its line. -/
def record (fields : List String) : List Char :=
  List.intercalate [','] (fields.map field) ++ ['\n']

/-- A file of records. -/
def file (records : List (List String)) : String := String.ofList (records.flatMap record)

end EquationNetwork.Report.Csv
