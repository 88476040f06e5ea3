import Sentential.Datum.Fault
import Sentential.Text.Digit
import Sentential.Yaml.Cursor

/-!
# The texts of scalars

How the text of a scalar is read, plain or in quotes. Both kinds may run over several lines; a line
end between two parts of a scalar becomes a blank, and of several line ends all but the first stay.

## Main definitions

* `Yaml.plain` — a plain scalar
* `Yaml.quoted` — a scalar in quotes
-/

namespace Sentential.Yaml

open Datum (ReadFault)

/-! ### Plain scalars -/

/-- The characters that cannot stand in a plain scalar inside a flow collection. -/
def isFlowIndicator (c : Char) : Bool := ",?[]\x7b\x7d".toList.contains c

/-- The characters with which no plain scalar begins, unless a gap does not follow some of them. -/
def isIndicator (c : Char) : Bool := "-?:,[]\x7b\x7d#&*!|>\x27\"%@\x60".toList.contains c

/-- Whether a plain scalar begins here. -/
def startsPlain (flow : Bool) : List Char → Bool
  | [] => false
  | c :: rest =>
    !isGap c && (!isIndicator c ||
      (!atGap rest && (c == '-' || (!flow && (c == '?' || c == ':')))))

/-- A part of a plain scalar without gaps. -/
def plainPart (flow : Bool) : List Char → List Char
  | [] => []
  | c :: rest =>
    let ends := isGap c || (flow && isFlowIndicator c) ||
      (c == ':' &&
        (atGap rest || (flow && rest.head?.any (fun x => ",[]\x7b\x7d".toList.contains x))))
    if ends then [] else c :: plainPart flow rest

/-- A plain scalar: its text, the place after it and the gap that follows, and whether that gap
crosses a line. In a block, a part on a later line belongs to it if it stands at `minColumn` or to
the right. -/
def plain (flow : Bool) (minColumn : Nat) : Nat → Cursor → List Char × Cursor × Bool
  | 0, c => ([], c, false)
  | fuel + 1, c =>
    let part := plainPart flow c.rest
    let here := c.advance part.length
    match here.gap? (· == ' ') with
    -- A document mark ends the scalar.
    | none => (part, here, false)
    | some (gap, next, crossed) =>
      let more := !gap.isEmpty && next.rest.head? != some '#' &&
        (flow || minColumn ≤ next.place.column) && !(plainPart flow next.rest).isEmpty
      if more then
        let (text, after) := plain flow minColumn fuel next
        (part ++ gap ++ text, after)
      else (part, next, crossed)

/-! ### Scalars in quotes -/

/-- The number that hexadecimal digits denote. -/
def hex? (cs : List Char) : Option Nat :=
  cs.foldlM (fun n c => (Text.digitIn? 16 c).map (16 * n + ·)) 0

/-- The code point that a one-letter escape denotes. -/
def escape? : Char → Option Nat
  | '0' => some 0x00
  | 'a' => some 0x07
  | 'b' => some 0x08
  | 't' => some 0x09
  | '\t' => some 0x09
  | 'n' => some 0x0A
  | 'v' => some 0x0B
  | 'f' => some 0x0C
  | 'r' => some 0x0D
  | 'e' => some 0x1B
  | ' ' => some 0x20
  | '"' => some 0x22
  | '\\' => some 0x5C
  | '/' => some 0x2F
  | 'N' => some 0x85
  | '_' => some 0xA0
  | 'L' => some 0x2028
  | 'P' => some 0x2029
  | _ => none

/-- The number of digits of a numeric escape. -/
def escapeWidth? : Char → Option Nat
  | 'x' => some 2
  | 'u' => some 4
  | 'U' => some 8
  | _ => none

/-- The blanks that may stand around a line end inside quotes. -/
def isQuotedBlank (c : Char) : Bool := c == ' ' || c == '\t'

/-- What an escape denotes, from the character after the backslash on, and the place after it. A
line end is skipped with the blanks around it, but those that follow it stay. -/
def escape (c : Cursor) : Except ReadFault (List Nat × Cursor) :=
  match c.rest with
  | [] => .error .malformed
  | x :: rest =>
    match escape? x, escapeWidth? x with
    | some n, _ => .ok ([n], c.advance 1)
    | none, some width =>
      match hex? (rest.take width) with
      | none => .error .malformed
      | some n =>
        if rest.length < width then .error .malformed
        else if 0x80000000 ≤ n then .error (.value .wideEscape)
        else if 0x110000 ≤ n then .error (.value .noCharacter)
        else .ok ([n], c.advance (width + 1))
    | none, none =>
      if isBreak x then
        match Cursor.moreLines? isQuotedBlank (c.place.after x) rest with
        | none => .error .malformed
        | some (text, next) => .ok (text.map Char.toNat, next)
      else .error .malformed

/-- A scalar in quotes, after its opening quote: its code points, and the place after it. -/
def quoted (mark : Char) : Nat → Cursor → Except ReadFault (List Nat × Cursor)
  | 0, _ => .error .malformed
  | fuel + 1, c =>
    let more (text : List Nat) (next : Cursor) : Except ReadFault (List Nat × Cursor) :=
      (quoted mark fuel next).map (fun r => (text ++ r.1, r.2))
    match c.rest with
    | [] => .error .malformed
    | x :: rest =>
      if x = mark then
        -- Inside single quotes a quote is written twice.
        if mark = '\x27' ∧ rest.head? = some '\x27' then more [0x27] (c.advance 2)
        else .ok ([], c.advance 1)
      else if x = '\\' ∧ mark = '"' then
        match escape (c.advance 1) with
        | .error f => .error f
        | .ok (text, next) => more text next
      else if isGap x then
        match c.gap? isQuotedBlank with
        -- A document cannot end inside quotes.
        | none => .error .malformed
        | some (gap, next, _) => more (gap.map Char.toNat) next
      else more [x.toNat] (c.advance 1)

end Sentential.Yaml
