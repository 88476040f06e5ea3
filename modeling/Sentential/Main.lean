import Sentential.CommandLine.Run
import Std.Time.DateTime.Timestamp

/-!
# The program

Gathers what a run needs to see of the world, and carries out what the run decides.
-/

namespace Sentential.Program

/-- What stands under a name. -/
inductive Content where
  | absent
  | directory
  | text (content : String)

/-- What stands under a name; a file that cannot be read counts as absent. -/
def content (path : String) : IO Content := do
  try
    return .text (← IO.FS.readFile path)
  catch
    | .inappropriateType .. => return .directory
    | _ => return .absent

/-- The name of the directory that holds a file, if its name has one. -/
def directoryOf (path : String) : Option String :=
  match path.toList.reverse.dropWhile (· != '/') with
  | [] | ['/'] => none
  | _ :: rest => some (String.ofList rest.reverse)

/-- Adds a text to a file, which is created with its directory if necessary. -/
def appendText (path text : String) : IO Unit := do
  if let some directory := directoryOf path then IO.FS.createDirAll directory
  let file ← IO.FS.Handle.mk path .append
  file.putStr text

/-- The time, in seconds. -/
def now : IO Float := do
  let t ← Std.Time.Timestamp.now
  return Float.ofInt t.toNanosecondsSinceUnixEpoch.val / 1.0e9

/-- A random identifier of thirty-two hexadecimal digits. -/
def randomId : IO String := do
  let bytes ← IO.getRandomBytes 16
  return String.join (bytes.toList.map (fun b => Text.hex 2 b.toNat))

/-- What stands under each of some names. -/
def contents (paths : List String) : IO (String → Content) := do
  let found ← paths.mapM (fun p => return (p, ← content p))
  return fun p => (found.lookup p).getD .absent

/-- The names of files that a request holds. -/
def fileNames (r : CommandLine.Request) : List String :=
  (r.settings.bind CommandLine.Given.text?).toList ++
    match r.task with
    | .analyze _ _ history => history.toList
    | _ => []

/-- The text of a content, if it is one. -/
def Content.text? : Content → Option String
  | text s => some s
  | _ => none

/-- Whether a content is a directory. -/
def Content.isDirectory : Content → Bool
  | directory => true
  | _ => false

/-- What is said when a run cannot go on. -/
def breakdownMessage : CommandLine.Breakdown → String
  | .noSettingsName => "The settings file has no name."
  | .noFormat => "The table has no format."
  | .directory => "A directory is no file."
  | .wideEscape => "The settings hold an escape that is no code point."

/-- Runs the program on some arguments, and answers with its status. -/
def start (arguments : List String) : IO UInt32 := do
  let usual := (← IO.getEnv "LOGICFLOW_SETTINGS").getD "config/logicflow.yaml"
  let asked :=
    match CommandLine.Request.ofArguments false arguments with
    | .ok r => fileNames r
    | .error _ => []
  let found ← contents ((usual :: asked).map Text.pathName)
  let world : CommandLine.World :=
    { read := fun p => (found p).text?
      isDirectory := fun p => (found p).isDirectory
      usualSettings := usual
      time := ← now
      freshId := ← randomId }
  let outcome := CommandLine.run world arguments
  for w in outcome.warnings do
    IO.eprintln w
  if let some (path, entry) := outcome.recorded then appendText path entry.line
  IO.print outcome.output
  if let some b := outcome.breakdown then IO.eprintln (breakdownMessage b)
  return outcome.status.toUInt32

end Sentential.Program

/-- The program. -/
def main (arguments : List String) : IO UInt32 := Sentential.Program.start arguments
