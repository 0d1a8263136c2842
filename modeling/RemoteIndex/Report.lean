import RemoteIndex.Build
import RemoteIndex.Json.Printer

/-!
# Printed reports

The index of a report can be printed in three formats. The two formats for people count lines and
columns from one and show files as seen from the project's root; the document for programs counts
from zero and shows files in full.
-/

namespace RemoteIndex

/-- How an index is printed. -/
inductive OutputFormat where
  /-- A line per module and a line per reference below it. -/
  | compact
  /-- A row per reference. -/
  | table
  /-- A document. -/
  | json
deriving DecidableEq, Repr, Inhabited

namespace OutputFormat

/-- The name of the format. -/
def name : OutputFormat → String
  | .compact => "compact"
  | .table => "table"
  | .json => "json"

/-- The format with the given name. -/
def ofName? (name : String) : Option OutputFormat :=
  [compact, table, json].find? (·.name == name)

end OutputFormat

namespace Report

/-- The file of a reference, as seen from the root. -/
def fileText (root : Path) (e : Edge) : String := (e.file.relativeTo root).display

/-- Lines, each with its end. -/
def lines (ls : List String) : String := String.join (ls.map (· ++ "\n"))

/-! ## Compact -/

/-- The line of a reference. -/
def edgeLine (root : Path) (e : Edge) : String :=
  "  " ++ fileText root e ++ ":" ++ e.span.display

/-- The last line. -/
def summaryLine (i : DependencyIndex) : String :=
  toString i.size ++ " remote modules, " ++ toString i.edgeCount ++ " references"

/-- The lines of the compact format. -/
def compactLines (root : Path) (i : DependencyIndex) : List String :=
  (i.toList.flatMap fun (url, edges) => url :: edges.map (edgeLine root)) ++ [summaryLine i]

/-! ## Table -/

/-- The text with blanks behind it, to the given number of characters. -/
def pad (width : Nat) (s : String) : String :=
  s ++ String.ofList (List.replicate (width - s.length) ' ')

/-- The widths of the two first columns. -/
structure Widths where
  url : Nat
  file : Nat
deriving DecidableEq, Repr

/-- Columns are as wide as the longest cell in them is in bytes. -/
def widths (root : Path) (i : DependencyIndex) : Widths where
  url := (i.toList.map fun row => row.1.utf8ByteSize).foldl max 3
  file := (i.toList.flatMap fun row => row.2.map fun e => (fileText root e).utf8ByteSize).foldl max 4

/-- A row of four cells. -/
def row (w : Widths) (url file position form : String) : String :=
  pad w.url url ++ "  " ++ pad w.file file ++ "  " ++ pad 10 position ++ "  " ++ form

/-- The row of a reference. -/
def edgeRow (w : Widths) (root : Path) (url : String) (e : Edge) : String :=
  row w url (fileText root e) e.span.display e.form.label

/-- The lines of the table: a head, a rule, and a row per reference. -/
def tableLines (root : Path) (i : DependencyIndex) : List String :=
  let w := widths root i
  row w "URL" "FILE" "LINE:COL" "KIND"
    :: String.ofList (List.replicate (w.url + w.file + 25) '-')
    :: i.toList.flatMap fun (url, edges) => edges.map (edgeRow w root url)

/-! ## Document -/

/-- A position in the document. -/
def positionJson (p : Position) : Json :=
  .object [("line", .ofNat p.line), ("character", .ofNat p.column)]

/-- A reference in the document. -/
def edgeJson (e : Edge) : Json :=
  .object [("filepath", .text e.file.display),
    ("location", .object [("start", positionJson e.span.start), ("end", positionJson e.span.stop)])]

/-- The index as a value: an object with a list of references for every module. -/
def indexJson (i : DependencyIndex) : Json :=
  .object (i.toList.map fun (url, edges) => (url, .list (edges.map edgeJson)))

/-! ## Reports -/

/-- The index of a report in one of the formats. -/
def output (format : OutputFormat) (root : Path) (i : DependencyIndex) : String :=
  match format with
  | .compact => lines (compactLines root i)
  | .table => lines (tableLines root i)
  | .json => lines [(indexJson i).print]

/-- What is said about the problems of a build, if there are any. -/
def diagnosticLines (r : BuildReport) : List String :=
  if r.diagnostics.isEmpty then []
  else
    (toString r.filesScanned ++ " files scanned, " ++ toString r.filesSkipped ++ " skipped, "
        ++ toString r.diagnostics.length ++ " diagnostics:")
      :: r.diagnostics.map fun d => "  " ++ d.display

end Report

end RemoteIndex
