import Sentential.Text.Lines
import Sentential.Yaml.Node

/-!
# YAML documents

The datum of a text that holds one document.
-/

namespace Sentential.Yaml

/-- The datum of a text, whose line ends may follow every convention. -/
def parse (s : String) : Except Datum.ReadFault Datum := do
  let tokens ← Token.scan (Text.unifyLineEnds s.toList)
  let n ← Node.ofTokens tokens
  match n.fault? with
  | some f => throw f
  | none => return n.datum

end Sentential.Yaml
