/-!
# Lines

Texts as lines. Line ends of every convention become line feeds when a file is read.

## Main definitions

* `Text.unifyLineEnds` — carriage returns, alone or before a line feed, as line feeds
* `Text.lines` — the lines of a text
-/

namespace Sentential.Text

/-- Every carriage return, alone or before a line feed, becomes a line feed. -/
def unifyLineEnds : List Char → List Char
  | [] => []
  | '\r' :: '\n' :: rest => '\n' :: unifyLineEnds rest
  | c :: rest => (if c = '\r' then '\n' else c) :: unifyLineEnds rest

/-- The lines of a text, without their line feeds; a text that ends with one has no empty line after
it. -/
def lines : List Char → List (List Char)
  | [] => []
  | c :: rest =>
    if c = '\n' then [] :: lines rest
    else
      match lines rest with
      | [] => [[c]]
      | line :: others => (c :: line) :: others

end Sentential.Text
