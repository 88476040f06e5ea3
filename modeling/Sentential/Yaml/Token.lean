import Sentential.Yaml.Lexeme

/-!
# YAML tokens

The part of YAML 1.1 in which settings are written, as tokens: block and flow collections, plain and
quoted scalars, comments, and the document marks. Structure follows indentation: a block collection
is open as long as no token stands to the left of its column. A tab cannot indent. Tags, anchors,
directives and block scalars are not part of it and count as malformed.

A key is known as one only by the colon behind it. So wherever a key may begin, the place is kept as
a `KeyStart`, and the colon puts the token for the key in front of what began there. A key that is
written without a question mark stays in its line and takes at most 1024 characters.

A scalar that cannot be taken ends the tokens. What may still turn out to be a key is not settled
then, so no token from there on is passed on, and the fault is met only behind those that are.

## Main definitions

* `Yaml.Token` — the tokens
* `Yaml.Scan` — what has been read of a text
* `Yaml.Token.scan` — the tokens of a text
-/

namespace Sentential.Yaml

open Datum (ReadFault)

/-- A token. -/
inductive Token where
  /-- The mark that begins a document. -/
  | documentStart
  /-- The mark that ends a document. -/
  | documentEnd
  /-- A block sequence begins. -/
  | blockSequence
  /-- A block map begins. -/
  | blockMap
  /-- A block collection ends. -/
  | blockEnd
  /-- The dash of a member of a block sequence. -/
  | dash
  /-- A key follows. -/
  | key
  /-- The value of a key follows. -/
  | value
  /-- The separator of the members of a flow collection. -/
  | comma
  /-- A flow sequence begins. -/
  | openBracket
  /-- A flow sequence ends. -/
  | closeBracket
  /-- A flow map begins. -/
  | openBrace
  /-- A flow map ends. -/
  | closeBrace
  /-- A plain scalar. -/
  | plain (text : String)
  /-- A scalar in quotes, as code points. -/
  | quoted (points : List Nat)
  /-- A scalar in quotes that cannot be taken. -/
  | broken (fault : Datum.Fault)
deriving DecidableEq, Repr

/-- A place where a key may have begun. -/
structure KeyStart where
  /-- The number of tokens before it. -/
  tokens : Nat
  /-- The place. -/
  place : Place
  /-- Whether a key must begin there, because a block map has its keys in this column. -/
  required : Bool
deriving DecidableEq, Repr

/-- What has been read of a text. -/
structure Scan where
  /-- What has not been read. -/
  cursor : Cursor
  /-- The tokens, latest first. -/
  tokens : List Token := []
  /-- The columns of the open block collections, innermost first. -/
  columns : List Nat := []
  /-- For every open flow collection, innermost first, and for the block around them, where a key
  may have begun. -/
  keyStarts : List (Option KeyStart) := [none]
  /-- Whether a key may begin here. -/
  keyAllowed : Bool := true

/-- The greatest number of characters of a key without a question mark. -/
def keyLimit : Nat := 1024

namespace Scan

/-- Whether a flow collection is open. -/
def inFlow (s : Scan) : Bool := 1 < s.keyStarts.length

/-- Adds a token. -/
def push (s : Scan) (t : Token) : Scan := { s with tokens := t :: s.tokens }

/-- Adds a token that takes some characters. -/
def take (s : Scan) (count : Nat) (t : Token) : Scan :=
  { s.push t with cursor := s.cursor.advance count }

/-- Adds a token behind the first `place` tokens. -/
def insert (s : Scan) (place : Nat) (t : Token) : Scan :=
  { s with tokens := s.tokens.insertIdx (s.tokens.length - place) t }

/-- Ends the block collections whose column satisfies a condition, from the innermost on. -/
def closeWhile (far : Nat → Bool) : List Nat → List Token → List Nat × List Token
  | [], tokens => ([], tokens)
  | column :: columns, tokens =>
    if far column then closeWhile far columns (.blockEnd :: tokens) else (column :: columns, tokens)

/-- Ends the block collections whose column satisfies a condition; a flow collection keeps all of
them open. -/
def close (s : Scan) (far : Nat → Bool) : Scan :=
  if s.inFlow then s
  else
    let (columns, tokens) := closeWhile far s.columns s.tokens
    { s with columns, tokens }

/-- Whether a block collection in a column would be a new one. -/
def isDeeper (s : Scan) (column : Nat) : Bool := s.columns.head?.all (· < column)

/-- Begins a block collection in the column of the place, if it is a new one. -/
def openBlock (s : Scan) (t : Token) : Scan :=
  let column := s.cursor.place.column
  if s.isDeeper column then { s.push t with columns := column :: s.columns } else s

/-- Gives up the place where a key may have begun, unless a key must begin there. -/
def dropKey (s : Scan) : Except ReadFault Scan :=
  match s.keyStarts with
  | some start :: outer =>
    if start.required then .error .malformed else .ok { s with keyStarts := none :: outer }
  | _ => .ok s

/-- Keeps the place as one where a key may begin, if one may. -/
def startKey (s : Scan) : Except ReadFault Scan :=
  if !s.keyAllowed then .ok s
  else do
    let place := s.cursor.place
    let required := !s.inFlow && s.columns.head? == some place.column
    let s ← s.dropKey
    return { s with
      keyStarts := some ⟨s.tokens.length, place, required⟩ :: s.keyStarts.drop 1 }

/-- Whether a key that may have begun at a place can still end at another one. -/
def isFresh (start : KeyStart) (place : Place) : Bool :=
  start.place.line == place.line && place.index ≤ start.place.index + keyLimit

/-- Gives up the places where a key may have begun that cannot end here any more. -/
def dropStale (s : Scan) : Except ReadFault Scan :=
  let stale (start : KeyStart) : Bool := !isFresh start s.cursor.place
  if s.keyStarts.any (fun start => start.any (fun k => k.required && stale k)) then
    .error .malformed
  else .ok { s with keyStarts := s.keyStarts.map (fun start => start.filter (fun k => !stale k)) }

/-- Begins a flow collection. -/
def openFlow (s : Scan) (t : Token) : Except ReadFault Scan := do
  let s ← s.startKey
  return { s.take 1 t with keyStarts := none :: s.keyStarts, keyAllowed := true }

/-- Ends a flow collection. -/
def closeFlow (s : Scan) (t : Token) : Except ReadFault Scan :=
  match s.keyStarts with
  | _ :: start :: outer => .ok { s.take 1 t with keyStarts := start :: outer, keyAllowed := false }
  | _ => .error .malformed

/-- Adds the dash of a member, the question mark of a key, or the colon of an empty key, each of
which can begin a block collection. -/
def indicator (s : Scan) (opening t : Token) (keyAllowed : Bool) : Except ReadFault Scan :=
  if !s.inFlow && !s.keyAllowed then .error .malformed
  else do
    let s ← (if s.inFlow then s else s.openBlock opening).dropKey
    return { s.take 1 t with keyAllowed }

/-- Adds a colon: what began where a key may have begun is a key. -/
def colon (s : Scan) : Except ReadFault Scan :=
  match s.keyStarts with
  | some start :: outer =>
    let s := s.insert start.tokens .key
    let column := start.place.column
    let s :=
      if !s.inFlow && s.isDeeper column then
        { s.insert start.tokens .blockMap with columns := column :: s.columns }
      else s
    .ok { s.take 1 .value with keyStarts := none :: outer, keyAllowed := false }
  | _ => s.indicator .blockMap .value (!s.inFlow)

/-- Adds a document mark. -/
def documentMark (s : Scan) (t : Token) : Except ReadFault Scan := do
  let s ← (s.close (fun _ => true)).dropKey
  return { s.take 3 t with keyAllowed := false }

/-- Adds a scalar in quotes. -/
def quotedScalar (s : Scan) (mark : Char) : Except ReadFault Scan := do
  let s ← s.startKey
  let start := s.cursor.advance 1
  let (points, next) ← quoted mark (start.rest.length + 1) start
  return { s.push (.quoted points) with cursor := next, keyAllowed := false }

/-- Adds a plain scalar. -/
def plainScalar (s : Scan) : Except ReadFault Scan := do
  let minColumn := (s.columns.head?.map (· + 1)).getD 0
  let s ← s.startKey
  let (text, next, crossed) := plain s.inFlow minColumn (s.cursor.rest.length + 1) s.cursor
  return { s.push (.plain (String.ofList text)) with cursor := next, keyAllowed := crossed }

/-- Adds the token that stands here. -/
def token (s : Scan) : Except ReadFault Scan :=
  match s.cursor.rest with
  | [] => .error .malformed
  | c :: rest =>
    if s.cursor.atMark '-' then s.documentMark .documentStart
    else if s.cursor.atMark '.' then s.documentMark .documentEnd
    else if c = '[' then s.openFlow .openBracket
    else if c = '\x7b' then s.openFlow .openBrace
    else if c = ']' then s.closeFlow .closeBracket
    else if c = '\x7d' then s.closeFlow .closeBrace
    else if c = ',' then (s.take 1 .comma).dropKey.map (fun s => { s with keyAllowed := true })
    else if c = '-' ∧ atGap rest then s.indicator .blockSequence .dash true
    else if c = '?' ∧ (s.inFlow ∨ atGap rest) then s.indicator .blockMap .key (!s.inFlow)
    else if c = ':' ∧ (s.inFlow ∨ atGap rest) then s.colon
    else if c = '\x27' ∨ c = '"' then s.quotedScalar c
    else if startsPlain s.inFlow s.cursor.rest then s.plainScalar
    else .error .malformed

/-- The tokens before every place where a key may have begun that can still end. -/
def settled (s : Scan) : List Token :=
  let starts := s.keyStarts.filterMap (fun start => start.filter (isFresh · s.cursor.place))
  s.tokens.reverse.take ((starts.map KeyStart.tokens).foldl min s.tokens.length)

/-- Adds all tokens up to the end of the text or to a scalar that cannot be taken. -/
def tokensFrom : Nat → Scan → Except ReadFault (List Token)
  | 0, _ => .error .malformed
  | fuel + 1, s => do
    let (cursor, crossed) := s.cursor.skip
    let next := { s with cursor, keyAllowed := s.keyAllowed || (crossed && !s.inFlow) }
    let next ← next.dropStale
    if cursor.rest.isEmpty then
      if next.inFlow then throw .malformed
      let next ← (next.close (fun _ => true)).dropKey
      return next.tokens.reverse
    else
      match (next.close (cursor.place.column < ·)).token with
      | .ok next => tokensFrom fuel next
      | .error .malformed => throw .malformed
      | .error (.value f) => return s.settled ++ [.broken f]

end Scan

/-- The tokens of a text, up to a scalar that cannot be taken. -/
def Token.scan (cs : List Char) : Except ReadFault (List Token) :=
  if cs.all isAllowed then Scan.tokensFrom (cs.length + 1) { cursor := .start cs }
  else .error .malformed

end Sentential.Yaml
