import UsageReport.Report.Page
import UsageReport.Report.Shape

/-!
The formats that a report is printed in.
-/

namespace UsageReport

inductive Format where
  | text
  | json
deriving DecidableEq

namespace Format

def ofName? (name : String) : Option Format :=
  if name = "text" then some .text
  else if name = "json" then some .json
  else none

def name : Format → String
  | .text => "Text"
  | .json => "Json"

/-- The message about a text that names no format. -/
def unknownMessage (name : String) : String := "Output error: unknown format: " ++ name

end Format

def Report.render (report : Report) : Format → String
  | .text => report.page
  | .json => Report.shape.encode .indented report

end UsageReport
