import Sentential.CommandLine.Help
import Sentential.CommandLine.Options
import Sentential.TruthTable.Export

/-!
# Requests

The commands of the program and what each of them can be asked for.

## Main definitions

* `Task`, `Request` — what is to be done with a formula
* `Command` — what can be typed after the name of a command
* `NoRequest` — what arguments say that are no request
* `Request.ofArguments` — the request that the arguments of the program spell
-/

namespace Sentential.CommandLine

/-- What is to be done with a formula. -/
inductive Task where
  /-- A table with everything that follows from it, and perhaps a proof and a line in a history. The
  format can be left empty. -/
  | analyze (format : Option TableFormat) (target history : Option String)
  /-- A proof. -/
  | prove (target : Given)
  /-- A Karnaugh map. -/
  | karnaugh
deriving DecidableEq, Repr

/-- What the program is asked for. -/
structure Request where
  /-- The formula text. -/
  formula : String
  /-- The declared variables, as given. -/
  vars : Option String
  /-- Whether the answer is to be written as JSON. -/
  json : Bool
  /-- The settings file. -/
  settings : Option Given
  /-- What is to be done. -/
  task : Task
deriving DecidableEq, Repr

/-- A command of the program. -/
structure Command where
  /-- Its options. -/
  options : List OptionSpec
  /-- The page that explains it. -/
  help : List String
  /-- The task that its arguments name. -/
  task : Arguments → Task

/-- Why there is nothing to be done with a formula. -/
inductive NoRequest where
  /-- The program was not called properly. -/
  | usage
  /-- A page of help was asked for. -/
  | help (page : List String)
deriving DecidableEq, Repr

namespace Request

/-- The option that asks for help. -/
def helpOption : OptionSpec := ⟨"--help", some 'h', .help⟩

/-- The options of every command. -/
def commonOptions : List OptionSpec := [
  helpOption, ⟨"--vars", none, .value⟩, ⟨"--json", none, .flag⟩, ⟨"--settings", none, .value⟩,
  ⟨"--verbose", some 'v', .flag⟩]

/-- The options of the command that analyses. -/
def analyzeOptions : List OptionSpec := commonOptions ++ [
  ⟨"--format", none, .choice (TableFormat.all.map TableFormat.name)⟩,
  ⟨"--prove", none, .value⟩, ⟨"--history", none, .value⟩]

/-- The options of the command that proves. -/
def proveOptions : List OptionSpec := commonOptions ++ [⟨"--target", none, .value⟩]

/-- The request for a task, from the arguments of its command. -/
def ofCommand (a : Arguments) (task : Task) : Request :=
  { formula := a.operand.getD ""
    vars := a.value? "--vars"
    json := a.has "--json"
    settings := a.given? "--settings"
    task }

/-- The command with a name. -/
def command? : String → Option Command
  | "analyze" =>
    some {
      options := analyzeOptions
      help := Help.analyze
      task := fun a =>
        let format := (a.given? "--format").getD (.text TableFormat.markdown.name)
        .analyze (format.text?.bind TableFormat.ofName?) (a.value? "--prove")
          (a.value? "--history") }
  | "prove" =>
    some {
      options := proveOptions
      help := Help.prove
      task := fun a => .prove ((a.given? "--target").getD (.text "tautology")) }
  | "kmap" => some { options := commonOptions, help := Help.karnaugh, task := fun _ => .karnaugh }
  | _ => none

/-- The request that the arguments of a command spell. With `excess` there was an argument too many
in front of the command. -/
def ofCommandArguments (command : Command) (excess : Bool) (arguments : List String) :
    Except NoRequest Request :=
  match Arguments.read command.options arguments with
  | .error .usage => .error .usage
  | .error .help => .error (.help command.help)
  | .ok a => if excess then .error .usage else .ok (ofCommand a (command.task a))

/-- The request that arguments spell: the first operand is the command, and what follows it belongs
to the command. Before it only the option for help is known. -/
def ofArguments (excess : Bool) : List String → Except NoRequest Request
  | [] => .error .usage
  | text :: rest =>
    if text = "--" then .error .usage
    else
      match Argument.classify [helpOption] text with
      | .error _ => .error .usage
      | .ok (.operand name) =>
        match command? name with
        | none => .error .usage
        | some command => ofCommandArguments command excess rest
      -- Only the option for help can be named here.
      | .ok (.named _ none) => .error (.help Help.program)
      | .ok (.named _ (some _)) => .error .usage
      | .ok (.letters cs) => .error (if cs.all (· == 'h') then .help Help.program else .usage)
      | .ok _ => ofArguments true rest

end Request

end Sentential.CommandLine
