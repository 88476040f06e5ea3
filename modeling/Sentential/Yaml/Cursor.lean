/-!
# Places in a YAML text

Where a reader of YAML stands: what follows, and the line and column of the place. Structure depends
on columns, and a key depends on staying in its line, so both are kept while the text is read.

## Main definitions

* `Yaml.Place`, `Yaml.Cursor` — a place, and a place with the text from there on
* `Yaml.Cursor.skip` — the place after blanks, comments and line ends
* `Yaml.Cursor.gap?` — the gap between two parts of a scalar
-/

namespace Sentential.Yaml

/-- Whether a character ends a line. -/
def isBreak (c : Char) : Bool := c == '\n' || c == '\x85' || c == '\u2028' || c == '\u2029'

/-- What a line end stands for inside a scalar: the two separators stand for themselves. -/
def lineEnd (c : Char) : Char := if c = '\x85' then '\n' else c

/-- Whether a character separates an indicator from what follows. -/
def isGap (c : Char) : Bool := c == ' ' || c == '\t' || isBreak c

/-- Whether nothing or a gap is at the front of a text. -/
def atGap : List Char → Bool
  | [] => true
  | c :: _ => isGap c

/-- Whether a character may stand in a document. -/
def isAllowed (c : Char) : Bool :=
  let n := c.toNat
  n == 0x09 || n == 0x0A || n == 0x0D || (0x20 ≤ n && n ≤ 0x7E) || n == 0x85 ||
    (0xA0 ≤ n && n ≤ 0xD7FF) || (0xE000 ≤ n && n ≤ 0xFFFD) || 0x10000 ≤ n

/-- Whether a mark of three equal characters is at the front of a text. -/
def isMark (mark : Char) (cs : List Char) : Bool :=
  cs.take 3 == [mark, mark, mark] && atGap (cs.drop 3)

/-- A place in a text. -/
structure Place where
  /-- The number of characters before it. -/
  index : Nat
  /-- The number of line ends before it. -/
  line : Nat
  /-- The number of characters before it in its line. -/
  column : Nat
deriving DecidableEq, Repr

/-- The place behind a character. A byte order mark takes no room in its line. -/
def Place.after (p : Place) (c : Char) : Place :=
  if isBreak c then ⟨p.index + 1, p.line + 1, 0⟩
  else ⟨p.index + 1, p.line, if c = '\ufeff' then p.column else p.column + 1⟩

/-- A place in a text, and what follows it. -/
structure Cursor where
  /-- The text from the place on. -/
  rest : List Char
  /-- The place. -/
  place : Place

namespace Cursor

/-- The start of a text; a byte order mark at its front does not belong to it. -/
def start : List Char → Cursor
  | '\ufeff' :: rest => ⟨rest, ⟨1, 0, 0⟩⟩
  | cs => ⟨cs, ⟨0, 0, 0⟩⟩

/-- The place after some characters. -/
def advance : Nat → Cursor → Cursor
  | 0, c => c
  | _ + 1, ⟨[], p⟩ => ⟨[], p⟩
  | n + 1, ⟨x :: rest, p⟩ => advance n ⟨rest, p.after x⟩

/-- Whether a document mark of three equal characters stands here. -/
def atMark (c : Cursor) (mark : Char) : Bool := c.place.column == 0 && isMark mark c.rest

/-- The place after blanks, comments and line ends, and whether a line end was among them. -/
def skipFrom (p : Place) (crossed comment : Bool) : List Char → Cursor × Bool
  | [] => (⟨[], p⟩, crossed)
  | c :: rest =>
    if isBreak c then skipFrom (p.after c) true false rest
    else if comment || c == '#' then skipFrom (p.after c) crossed true rest
    else if c == ' ' then skipFrom (p.after c) crossed false rest
    else (⟨c :: rest, p⟩, crossed)

/-- The place after blanks, comments and line ends, and whether a line end was among them. -/
def skip (c : Cursor) : Cursor × Bool := skipFrom c.place false false c.rest

/-- The line ends from the start of a line on, with the blanks around them, and the place after
them. There is nothing if a document mark begins one of the lines. -/
def moreLines? (isBlank : Char → Bool) (p : Place) : List Char → Option (List Char × Cursor)
  | [] => some ([], ⟨[], p⟩)
  | c :: rest =>
    if p.column == 0 && (isMark '-' (c :: rest) || isMark '.' (c :: rest)) then none
    else if isBreak c then
      (moreLines? isBlank (p.after c) rest).map (fun r => (lineEnd c :: r.1, r.2))
    else if isBlank c then moreLines? isBlank (p.after c) rest
    else some ([], ⟨c :: rest, p⟩)

/-- The gap between two parts of a scalar: what it stands for, the place after it, and whether it
crosses a line. A line feed alone stands for a blank; if others follow, only they count. There is
nothing if the gap leads to a document mark. -/
def gap? (isBlank : Char → Bool) (c : Cursor) : Option (List Char × Cursor × Bool) :=
  let blanks := c.rest.takeWhile isBlank
  let next := c.advance blanks.length
  match next.rest with
  | x :: rest =>
    if isBreak x then
      (moreLines? isBlank (next.place.after x) rest).map (fun r =>
        let text :=
          if lineEnd x ≠ '\n' then lineEnd x :: r.1
          else if r.1.isEmpty then [' ']
          else r.1
        (text, r.2, true))
    else some (blanks, next, false)
  | [] => some (blanks, next, false)

end Cursor

end Sentential.Yaml
