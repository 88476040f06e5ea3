/-!
# Path names

The usual form of the name of a file: one slash between two parts, and no part that stays where it
is.

## Main definitions

* `Text.pathName` — a name in its usual form
-/

namespace Sentential.Text

/-- The parts of a text between slashes. -/
def splitSlashes : List Char → List (List Char)
  | [] => [[]]
  | '/' :: rest => [] :: splitSlashes rest
  | c :: rest =>
    match splitSlashes rest with
    | [] => [[c]]
    | part :: others => (c :: part) :: others

/-- The slashes with which a name begins: two stay, more count as one. -/
def rootSlashes (cs : List Char) : String :=
  match (cs.takeWhile (· == '/')).length with
  | 0 => ""
  | 2 => "//"
  | _ => "/"

/-- A name in its usual form. -/
def pathName (s : String) : String :=
  let parts := (splitSlashes s.toList).filter (fun p => p != [] && p != ['.'])
  let name := rootSlashes s.toList ++ "/".intercalate (parts.map String.ofList)
  if name = "" then "." else name

end Sentential.Text
