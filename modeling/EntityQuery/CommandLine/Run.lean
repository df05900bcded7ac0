import EntityQuery.CommandLine.Options
import EntityQuery.Execution.Backend
import EntityQuery.Request.Draft
import EntityQuery.Sample

/-!
# The program

Runs a query over sample cars and shows the rows, as text or as JSON. What a run writes is worked
out as a whole, so that nothing but the writing is left to do.
-/

namespace EntityQuery.CommandLine

/-- What a run leaves: its exit code and what it wrote. -/
structure Outcome where
  exitCode : UInt8
  stdout : String
  stderr : String

def helpText : String :=
  "Compile an RSQL query against the sample car catalog and run it in memory\n\n" ++
  "Usage: rsql-query [OPTIONS]\n\n" ++
  "Options:\n" ++
  "  -e, --entity <ENTITY>            Root entity type [default: Car]\n" ++
  "  -f, --filter <FILTER>            " ++
    "RSQL filter, e.g. \"engine.screws.name=con='name';id=gt=3\"\n" ++
  "  -s, --select <SELECT>            Top-level fields to project, e.g. \"(name,description)\"\n" ++
  "      --sort <SORT>                Ordering, e.g. \"(id.desc)\"\n" ++
  "  -p, --page <PAGE>                Zero-based page as \"(pageNumber,pageSize)\"\n" ++
  "  -l, --limit <LIMIT>              Window as \"(offset,size)\"\n" ++
  "      --date-format <DATE_FORMAT>  chrono format used to parse date literals\n" ++
  "  -n, --rows <ROWS>                Number of sample cars to generate [default: 50]\n" ++
  "      --seed <SEED>                Seed for the sample data generator [default: 42]\n" ++
  "      --explain                    Print the compiled query before running it\n" ++
  "      --json                       Print rows as JSON\n" ++
  "  -d, --debug                      Enable debug logging\n" ++
  "  -h, --help                       Print help\n" ++
  "  -V, --version                    Print version\n"

def versionText : String := "rsql-query 0.1.0\n"

/-- A message whose further lines are indented. -/
def indentLines (indent message : String) : String :=
  String.ofList (message.toList.flatMap fun c => if c = '\n' then '\n' :: indent.toList else [c])

/-- The causes of a failure, numbered from zero on. -/
def numberedCauses (n : Nat) : List String → String
  | [] => ""
  | cause :: causes =>
    "    " ++ Numeral.padded 1 n ++ ": " ++ indentLines "       " cause ++ "\n" ++
      numberedCauses (n + 1) causes

/-- The report of a failure: what failed, and beneath it the causes. A single cause has no
number. -/
def failureText : List String → String
  | [] => ""
  | [top] => "Error: " ++ top ++ "\n"
  | [top, cause] =>
    "Error: " ++ top ++ "\n\nCaused by:\n    " ++ indentLines "    " cause ++ "\n"
  | top :: causes => "Error: " ++ top ++ "\n\nCaused by:\n" ++ numberedCauses 0 causes

def Options.draft (o : Options) : Draft :=
  let d :=
    (Draft.of o.entity ((o.select.map Selection.columns).getD .root)).filter (o.filter.getD "")
  let d := (o.sort.map d.sortBy).getD d
  let d := (o.page.map d.pageText).getD d
  (o.limit.map d.limitText).getD d

def rowLine : Row → String
  | .record r => r.display
  | .tuple values => " | ".intercalate (values.map Value.display)

/-- The names of the columns as a line, above rows of columns. -/
def headerLine (columns : List String) : List Row → String
  | .tuple _ :: _ => " | ".intercalate columns ++ "\n"
  | _ => ""

def rowsText (columns : List String) (rows : List Row) : String :=
  headerLine columns rows ++ String.join (rows.map fun row => rowLine row ++ "\n") ++
    "(" ++ Numeral.padded 1 rows.length ++ " rows)\n"

def showRequest (backend : Backend) (json : Bool) (r : Request) :
    Except ExecutionError String := do
  let rows ← backend.fetch r
  if json then return (rowsJson rows).indented 0 ++ "\n"
  else
    let columns ← backend.columns r
    return rowsText columns rows

def runQuery (o : Options) : Outcome :=
  let config := { Config.standard Sample.catalog with datePattern := o.dateFormat }
  match o.draft.build config with
  | .error e => ⟨1, "", failureText ["Failed to compile query", e.message, e.cause.message]⟩
  | .ok request =>
    let explained := if o.explain then request.text ++ "\n" else ""
    let backend : Backend := ⟨Sample.catalog, .ofRecords (Sample.cars o.rows.toNat o.seed)⟩
    match showRequest backend o.json request with
    | .ok shown => ⟨0, explained ++ shown, ""⟩
    | .error e => ⟨1, explained, failureText e.chain⟩

/-- Runs the program with its arguments. -/
def run (arguments : List String) : Outcome :=
  match Options.read arguments with
  | .ok o => runQuery o
  | .error .help => ⟨0, helpText, ""⟩
  | .error .version => ⟨0, versionText, ""⟩
  | .error (.usage e) => ⟨2, "", "error: " ++ e.message ++ "\n"⟩

end EntityQuery.CommandLine
