import Sentential.CommandLine.Output
import Sentential.CommandLine.Request
import Sentential.History
import Sentential.Settings.File
import Sentential.Text.PathName

/-!
# Running the program

A run as a function: from the arguments and what the program can see of the world to what it prints,
what it adds to a history, and how it ends.

## Main definitions

* `World` — what a run can see
* `Outcome` — what a run does
* `Breakdown` — why a run cannot go on
* `run` — the run on some arguments
-/

namespace Sentential.CommandLine

/-- What a run can see of the world. -/
structure World where
  /-- The text of a file, if it exists. -/
  read : String → Option String
  /-- Whether a name is that of a directory. -/
  isDirectory : String → Bool
  /-- Where the settings usually are. -/
  usualSettings : String
  /-- The time, in seconds. -/
  time : Float
  /-- An identifier that is not in use. -/
  freshId : String
  /-- How much nesting the machine can cope with. -/
  limits : Limits := .usual

/-- Why a run cannot go on. -/
inductive Breakdown where
  /-- The settings are to be read from a file without a name. -/
  | noSettingsName
  /-- A table is to be written in no format. -/
  | noFormat
  /-- A directory is to be read or written like a file. -/
  | directory
  /-- The settings hold an escape that does not even fit into a signed word of 32 bits. -/
  | wideEscape
deriving DecidableEq, Repr

/-- What a run does. -/
structure Outcome where
  /-- The status with which it ends: 0 after success, 1 after a fault of the user's input or when it
  cannot go on, 2 if it was not called properly or has no answer. -/
  status : Nat
  /-- The lines that it prints. -/
  lines : List String := []
  /-- The entry that it adds to a history, with the path of that history. -/
  recorded : Option (String × History.Entry) := none
  /-- The warnings, in order. -/
  warnings : List String := []
  /-- Why it could not go on, if it broke off. -/
  breakdown : Option Breakdown := none

/-- The outcome of a run that breaks off. -/
def Outcome.broken (b : Breakdown) : Outcome := { status := 1, breakdown := some b }

/-- Why a request is not answered. -/
inductive Failure where
  | analysis (e : AnalysisError)
  | settings (f : Settings.Fault)
  | unknownTarget (given : Given)

/-- The wording of a failure. -/
def Failure.message : Failure → String
  | analysis (.diagnostic d) => d.code ++ ": " ++ d.message
  | analysis (.searchLimit _) => "ProofSearchError: " ++ Report.limitMessage
  | settings f => f.message
  | unknownTarget (.text s) => Target.unknownMessage (Text.quoted s)
  | unknownTarget .nothing => Target.unknownMessage (Datum.list []).shown

/-- The warnings that preceded a failure. -/
def Failure.warnings : Failure → List String
  | analysis (.searchLimit warning) => warning.toList
  | _ => []

/-- The parts of a text between commas. -/
def splitCommas : List Char → List (List Char)
  | [] => [[]]
  | ',' :: rest => [] :: splitCommas rest
  | c :: rest =>
    match splitCommas rest with
    | [] => [[c]]
    | part :: others => (c :: part) :: others

/-- The names in a list between commas, blanks and empty ones dropped. -/
def namesIn (s : String) : List String :=
  ((splitCommas (s.toList.filter (· != ' '))).filter (fun cs => !cs.isEmpty)).map String.ofList

namespace Request

/-- The declared variables: those given, or else those that the formula names. -/
def declared (r : Request) : List String :=
  match r.vars with
  | some s => if s = "" then Token.variablesIn r.formula else namesIn s
  | none => Token.variablesIn r.formula

/-- The target that a text names. -/
def target (given : Given) : Except Failure Target :=
  match given.text?.bind Target.ofText? with
  | some t => .ok t
  | none => .error (.unknownTarget given)

/-- The target of an optional proof; an empty text asks for none. -/
def optionalTarget (text : Option String) : Except Failure (Option Target) :=
  match text with
  | none => .ok none
  | some "" => .ok none
  | some t => some <$> target (.text t)

/-- Carries out a request under some settings. -/
def carryOut (w : World) (r : Request) (settings : Settings) : Except Failure Outcome := do
  match r.task with
  | .analyze format text history =>
    -- The target is read first: a bad one is reported whatever the formula is.
    let target ← optionalTarget text
    let a ← (Analysis.run (some r.formula) r.declared settings target w.limits).mapError .analysis
    let warnings := (a.report.bind Report.warning).toList
    let entry := History.Entry.record r.formula a.vars (some a.table.classification.name)
      w.time w.freshId
    let history := history.map Text.pathName
    if history.any w.isDirectory then return { Outcome.broken .directory with warnings }
    let recorded := history.map (fun path => (path, entry))
    if r.json then
      return {
        status := 0, lines := [Json.render .indented (Output.analysisDatum a)], recorded, warnings }
    else
      match format with
      | some format =>
        return {
          status := 0, lines := Output.analysisLines a format settings.truth, recorded, warnings }
      | none =>
        return {
          Outcome.broken .noFormat with lines := [Output.expressionLine a], recorded, warnings }
  | .prove given =>
    let target ← target given
    let report ← (Analysis.prove (some r.formula) r.declared target w.limits).mapError .analysis
    return {
      status := 0
      lines :=
        if r.json then [Json.render .indented (Output.reportDatum report)]
        else Output.reportLines report
      warnings := report.warning.toList }
  | .karnaugh =>
    let a ← (Analysis.run (some r.formula) r.declared settings none w.limits).mapError .analysis
    match a.karnaugh with
    | some m => return { status := 0, lines := Output.karnaughLines m settings.truth }
    | none =>
      return {
        status := 2
        lines := ["[WARN] K-Maps need 2 to 4 variables, got " ++ toString a.vars.length] }

/-- Answers a request: a failure is printed, after the warnings about settings. -/
def answer (w : World) (r : Request) : Outcome :=
  let failed (f : Failure) (warnings : List String) : Outcome :=
    { status := 1, lines := ["[ERROR] " ++ f.message], warnings := warnings ++ f.warnings }
  let asked := (r.settings.bind Given.text?).map Text.pathName
  if r.settings = some .nothing then .broken .noSettingsName
  else if asked.any w.isDirectory then .broken .directory
  else
    match Settings.resolve w.read (Text.pathName w.usualSettings) asked with
    | .error (.datum .wideEscape) => .broken .wideEscape
    | .error f => failed (.settings f) []
    | .ok resolved =>
      match r.carryOut w resolved.settings with
      | .ok o => { o with warnings := resolved.warnings ++ o.warnings }
      | .error f => failed f resolved.warnings

end Request

/-- The run on some arguments. -/
def run (w : World) (arguments : List String) : Outcome :=
  match Request.ofArguments false arguments with
  | .ok r => r.answer w
  | .error .usage => { status := 2 }
  | .error (.help page) => { status := 0, lines := page }

/-- What a run prints, every line with its end. -/
def Outcome.output (o : Outcome) : String := String.join (o.lines.map (· ++ "\n"))

end Sentential.CommandLine
