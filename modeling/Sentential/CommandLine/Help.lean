/-!
# Help

The pages that explain how the program and its commands are called.

## Main definitions

* `Help.entry` — one thing that can be typed, with its explanation
* `Help.program`, `Help.analyze`, `Help.prove`, `Help.karnaugh` — the pages, as lines
-/

namespace Sentential.CommandLine.Help

/-- A text with blanks behind it, up to a width. -/
def padRight (width : Nat) (s : String) : String :=
  s ++ String.ofList (List.replicate (width - s.length) ' ')

/-- What can be typed, and the lines that explain it, which stand in a column of their own. They
begin on the line of what can be typed, if two blanks stay between them. -/
def entry (column : Nat) (typed : String) (explained : List String) : List String :=
  let below (s : String) : String := padRight column "" ++ s
  match explained with
  | [] => [typed]
  | first :: rest =>
    if typed.length + 2 ≤ column then (padRight column typed ++ first) :: rest.map below
    else typed :: explained.map below

/-- The entry for help itself. -/
def helpEntry (column : Nat) : List String :=
  entry column "  -h, --help" ["show this help message and exit"]

/-- The page of a command, from its usage and the entries of its own options. -/
def commandPage (usage : List String) (column : Nat) (own : List String) : List String :=
  usage ++ ["", "positional arguments:"] ++
    entry column "  formula" ["Formula, e.g. 'P -> Q' or '(A & B) | ~C'."] ++
    ["", "options:"] ++ helpEntry column ++
    entry column "  --vars VARS" ["Comma-separated declared variables, in bit order."] ++
    entry column "  --json" ["Emit JSON instead of text."] ++
    entry column "  --settings SETTINGS" ["YAML settings file (default: $LOGICFLOW_SETTINGS)."] ++
    entry column "  -v, --verbose" ["Enable debug logging."] ++ own

/-- The page of the command that analyses. -/
def analyze : List String :=
  commandPage
    ["usage: logicflow analyze [-h] [--vars VARS] [--json] [--settings SETTINGS]",
      "                         [-v] [--format \x7bcsv,markdown,latex\x7d] [--prove PROVE]",
      "                         [--history HISTORY]",
      "                         formula"]
    24
    (entry 24 "  --format \x7bcsv,markdown,latex\x7d" ["Table format."] ++
      entry 24 "  --prove PROVE" ["Also run a tableau proof of this type."] ++
      entry 24 "  --history HISTORY" ["Append the analysis to this JSONL history."])

/-- The page of the command that proves. -/
def prove : List String :=
  commandPage
    ["usage: logicflow prove [-h] [--vars VARS] [--json] [--settings SETTINGS] [-v]",
      "                       [--target TARGET]",
      "                       formula"]
    23
    (entry 23 "  --target TARGET"
      ["tautology | contradiction | implication | equivalence |", "contingency"])

/-- The page of the command that draws a Karnaugh map. -/
def karnaugh : List String :=
  commandPage
    ["usage: logicflow kmap [-h] [--vars VARS] [--json] [--settings SETTINGS] [-v]",
      "                      formula"]
    23 []

/-- The page of the program. -/
def program : List String :=
  ["usage: logicflow [-h] \x7banalyze,prove,kmap\x7d ...", "",
    "Propositional logic evaluation engine.", "", "positional arguments:",
    "  \x7banalyze,prove,kmap\x7d"] ++
  entry 24 "    analyze" ["Build the truth table and classify the formula."] ++
  entry 24 "    prove" ["Run a tableau proof attempt."] ++
  entry 24 "    kmap" ["Show the Karnaugh map."] ++
  ["", "options:"] ++ helpEntry 24

end Sentential.CommandLine.Help
