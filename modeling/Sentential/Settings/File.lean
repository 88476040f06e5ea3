import Sentential.Settings.Basic
import Sentential.Yaml.Document

/-!
# Settings files

Settings from the text of a file. A file that was asked for must exist and be valid; one that is
only looked up in its usual place may be absent, and is ignored with a warning if it is not valid. A
value that cannot even be taken from its written form is reported wherever the file stands.

## Main definitions

* `Settings.ofFile` — the settings of a file that was asked for
* `Settings.ofUsualFile` — the settings of a file in its usual place
* `Settings.resolve` — the settings of the one or the other
-/

namespace Sentential

/-- Settings, and the warnings that arose on the way. -/
structure Settings.Resolved where
  /-- The settings. -/
  settings : Settings
  /-- The warnings, in order. -/
  warnings : List String

namespace Settings

/-- The settings of a file that was asked for, given its text if it exists. -/
def ofFile (path : String) (text : Option String) : Except Fault Settings :=
  match text with
  | none => .error (.missing path)
  | some s =>
    match Yaml.parse s with
    | .error .malformed => .error (.malformed path)
    | .error (.value fault) => .error (.datum fault)
    | .ok d => ofDatum d

/-- The warning about a file that is ignored. -/
def ignoredWarning (path : String) (fault : Fault) : String :=
  "Ignoring settings file " ++ path ++ ": " ++ fault.message

/-- The settings of a file in its usual place: the defaults stand in for an absent or invalid one.
-/
def ofUsualFile (path : String) (text : Option String) : Except Fault Resolved :=
  match text with
  | none => .ok ⟨{}, []⟩
  | some s =>
    match ofFile path (some s) with
    | .ok settings => .ok ⟨settings, []⟩
    | .error (.datum fault) => .error (.datum fault)
    | .error fault => .ok ⟨{}, [ignoredWarning path fault]⟩

/-- The settings of the file that was asked for, or else of the file at `usual`. -/
def resolve (read : String → Option String) (usual : String) (asked : Option String) :
    Except Fault Resolved :=
  match asked with
  | some path =>
    match ofFile path (read path) with
    | .ok settings => .ok ⟨settings, []⟩
    | .error fault => .error fault
  | none => ofUsualFile usual (read usual)

end Settings

end Sentential
