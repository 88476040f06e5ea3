import Sentential.Yaml.Scalar
import Sentential.Yaml.Token

/-!
# YAML nodes

The tree of scalars, sequences and maps that tokens spell, and the datum of such a tree. A key is a
scalar. The key `<<` takes over the entries of a map, or of several, where the map itself has none
for the same key. The plain scalars `<<` and `=` stand for no value, but `=` may be a key.

A tree is taken level by level: of the faults in it, the one that is least deep is reported.

## Main definitions

* `Yaml.Node` — the nodes
* `Yaml.Node.ofTokens` — the node that tokens spell
* `Yaml.Node.fault?` — why a node has no datum
* `Yaml.Node.datum` — the datum of a node without faults
-/

namespace Sentential.Yaml

open Datum (ReadFault)

/-- A node. -/
inductive Node where
  /-- A plain scalar. -/
  | plain (text : String)
  /-- A scalar in quotes, as code points. -/
  | quoted (points : List Nat)
  | sequence (items : List Node)
  | map (entries : List (Node × Node))
deriving Inhabited

namespace Node

/-- The node that stands where nothing is written. -/
def empty : Node := plain ""

/-- Whether nothing is written before the next token. -/
def isLeftOut (stops : List Token) : List Token → Bool
  | [] => true
  | t :: _ => stops.contains t

/-- Why a token does not fit here: one that cannot be taken has a fault of its own. -/
def refusal : List Token → ReadFault
  | .broken f :: _ => .value f
  | _ => .malformed

/-- The tokens behind the end of a block collection. -/
def afterBlock : List Token → Except ReadFault (List Token)
  | .blockEnd :: rest => .ok rest
  | ts => .error (refusal ts)

mutual

/-- The node that begins here, and the tokens after it. Behind a key of a block map, the members of
a sequence may stand in the column of the map itself. -/
def read (inMap : Bool) : Nat → List Token → Except ReadFault (Node × List Token)
  | 0, _ => .error .malformed
  | fuel + 1, ts => do
    match ts with
    | .plain s :: rest => return (plain s, rest)
    | .quoted points :: rest => return (quoted points, rest)
    | .openBracket :: rest =>
      let (items, rest) ← readFlowItems true fuel rest
      return (sequence items, rest)
    | .openBrace :: rest =>
      let (entries, rest) ← readFlowEntries true fuel rest
      return (map entries, rest)
    | .dash :: _ =>
      if !inMap then throw .malformed
      let (items, rest) ← readItems true fuel ts
      return (sequence items, rest)
    | .blockSequence :: rest =>
      let (items, rest) ← readItems false fuel rest
      return (sequence items, ← afterBlock rest)
    | .blockMap :: rest =>
      let (entries, rest) ← readEntries fuel rest
      return (map entries, ← afterBlock rest)
    | ts => throw (refusal ts)

/-- The node that begins here, or the empty one before a token that cannot begin one. -/
def readOrEmpty (inMap : Bool) (stops : List Token) :
    Nat → List Token → Except ReadFault (Node × List Token)
  | 0, _ => .error .malformed
  | fuel + 1, ts => if isLeftOut stops ts then .ok (empty, ts) else read inMap fuel ts

/-- The members of a block sequence. -/
def readItems (inMap : Bool) : Nat → List Token → Except ReadFault (List Node × List Token)
  | 0, _ => .error .malformed
  | fuel + 1, .dash :: rest => do
    let stops : List Token := if inMap then [.dash, .key, .value, .blockEnd] else [.dash, .blockEnd]
    let (item, rest) ← readOrEmpty false stops fuel rest
    let (items, rest) ← readItems inMap fuel rest
    return (item :: items, rest)
  | _ + 1, ts => .ok ([], ts)

/-- The entries of a block map. -/
def readEntries : Nat → List Token → Except ReadFault (List (Node × Node) × List Token)
  | 0, _ => .error .malformed
  | fuel + 1, .key :: rest => do
    let stops : List Token := [.key, .value, .blockEnd]
    let (entry, rest) ← readPair true stops stops fuel rest
    let (entries, rest) ← readEntries fuel rest
    return (entry :: entries, rest)
  | _ + 1, ts => .ok ([], ts)

/-- A key and its value. -/
def readPair (inMap : Bool) (keyStops valueStops : List Token) :
    Nat → List Token → Except ReadFault ((Node × Node) × List Token)
  | 0, _ => .error .malformed
  | fuel + 1, ts => do
    match ← readOrEmpty inMap keyStops fuel ts with
    | (key, .value :: rest) =>
      let (value, rest) ← readOrEmpty inMap valueStops fuel rest
      return ((key, value), rest)
    | (key, rest) => return ((key, empty), rest)

/-- The members of a flow sequence up to its closing bracket; each after the first needs a comma. -/
def readFlowItems (first : Bool) : Nat → List Token → Except ReadFault (List Node × List Token)
  | 0, _ => .error .malformed
  | fuel + 1, ts => do
    match first, ts with
    | _, .closeBracket :: rest => return ([], rest)
    | false, .comma :: rest => readFlowItems true fuel rest
    | false, ts => throw (refusal ts)
    | true, .key :: rest =>
      let (entry, rest) ← readPair false [.value, .comma, .closeBracket] [.comma, .closeBracket]
        fuel rest
      let (items, rest) ← readFlowItems false fuel rest
      return (map [entry] :: items, rest)
    | true, ts =>
      let (item, rest) ← read false fuel ts
      let (items, rest) ← readFlowItems false fuel rest
      return (item :: items, rest)

/-- The entries of a flow map up to its closing brace; each after the first needs a comma. -/
def readFlowEntries (first : Bool) :
    Nat → List Token → Except ReadFault (List (Node × Node) × List Token)
  | 0, _ => .error .malformed
  | fuel + 1, ts => do
    match first, ts with
    | _, .closeBrace :: rest => return ([], rest)
    | false, .comma :: rest => readFlowEntries true fuel rest
    | false, ts => throw (refusal ts)
    | true, .key :: rest =>
      let (entry, rest) ← readPair false [.value, .comma, .closeBrace] [.comma, .closeBrace]
        fuel rest
      let (entries, rest) ← readFlowEntries false fuel rest
      return (entry :: entries, rest)
    | true, ts =>
      let (key, rest) ← read false fuel ts
      let (entries, rest) ← readFlowEntries false fuel rest
      return ((key, empty) :: entries, rest)

end

/-- The node of the one document that tokens spell. -/
def ofTokens (ts : List Token) : Except ReadFault Node := do
  let fuel := 3 * ts.length + 3
  let (n, rest) ←
    match ts with
    | [] => .ok (empty, [])
    | .documentStart :: rest => readOrEmpty false [.documentStart, .documentEnd] fuel rest
    | ts => read false fuel ts
  -- Marks may follow that end the document, but nothing that begins another one.
  match rest.dropWhile (· == .documentEnd) with
  | [] => return n
  | ts => throw (refusal ts)

/-! ### Data -/

mutual

/-- The datum of a node. Faults do not show in it. -/
def datum : Node → Datum
  | plain s => (scalar s).toOption.getD .null
  | quoted points => .ofCodes points
  | sequence items => .list (data items)
  | map entries =>
    let r := pairs entries
    .map ((r.1 ++ r.2).foldl (fun done e => Datum.put e.1 e.2 done) [])

/-- The data of the members of a sequence. -/
def data : List Node → List Datum
  | [] => []
  | n :: rest => datum n :: data rest

/-- The entries that a map takes over, and its own ones. -/
def pairs : List (Node × Node) → List (Datum × Datum) × List (Datum × Datum)
  | [] => ([], [])
  | (k, v) :: rest =>
    let r := pairs rest
    match k with
    | plain "<<" => (inherited v ++ r.1, r.2)
    | plain "=" => (r.1, (.text "=", datum v) :: r.2)
    | k => (r.1, (datum k, datum v) :: r.2)

/-- The entries that a map takes over from a map, or from several, of which the first ones count
most. -/
def inherited : Node → List (Datum × Datum)
  | map entries =>
    let r := pairs entries
    r.1 ++ r.2
  | sequence items => inheritedFromAll items
  | _ => []

/-- The entries that a map takes over from several, the last of them first. -/
def inheritedFromAll : List Node → List (Datum × Datum)
  | [] => []
  | n :: rest => inheritedFromAll rest ++ inherited n

end

/-! ### Faults -/

/-- The fault of a plain scalar as a value. -/
def scalarFault? (s : String) : Option ReadFault :=
  if s = "<<" ∨ s = "=" then some .malformed
  else
    match scalar s with
    | .ok _ => none
    | .error f => some (.value f)

/-- The fault of a key: it is a scalar, and `=` stands for itself. -/
def keyFault? : Node → Option ReadFault
  | plain s => if s = "=" then none else scalarFault? s
  | quoted _ => none
  | _ => some .malformed

mutual

/-- Whether there are entries to be taken over wherever a key asks for it. -/
def takesOver : List (Node × Node) → Bool
  | [] => true
  | (plain "<<", v) :: rest => isSource v && takesOver rest
  | _ :: rest => takesOver rest

/-- Whether a map can take over entries from a node: from a map, or from several. -/
def isSource : Node → Bool
  | map entries => takesOver entries
  | sequence items => areMaps items
  | _ => false

/-- Whether all nodes are maps that can be taken over. -/
def areMaps : List Node → Bool
  | [] => true
  | map entries :: rest => takesOver entries && areMaps rest
  | _ :: _ => false

end

mutual

/-- The faults of a node at a depth, each with its own depth. What is taken over by a map is found
out before anything in the map is looked at. -/
def faults (depth : Nat) : Node → List (Nat × ReadFault)
  | plain s => (scalarFault? s).toList.map (depth, ·)
  | quoted _ => []
  | sequence items => itemFaults (depth + 1) items
  | map entries =>
    let r := entryFaults (depth + 1) entries
    (if takesOver entries then [] else [(depth + 1, .malformed)]) ++ r.1 ++ r.2

/-- The faults of the members of a sequence. -/
def itemFaults (depth : Nat) : List Node → List (Nat × ReadFault)
  | [] => []
  | n :: rest => faults depth n ++ itemFaults depth rest

/-- The faults of the entries that a map takes over, and of its own ones. -/
def entryFaults (depth : Nat) :
    List (Node × Node) → List (Nat × ReadFault) × List (Nat × ReadFault)
  | [] => ([], [])
  | (k, v) :: rest =>
    let r := entryFaults depth rest
    match k with
    | plain "<<" => (inheritedFaults depth v ++ r.1, r.2)
    | k => (r.1, (keyFault? k).toList.map (depth, ·) ++ faults depth v ++ r.2)

/-- The faults of the entries that a map takes over from a node. -/
def inheritedFaults (depth : Nat) : Node → List (Nat × ReadFault)
  | map entries =>
    let r := entryFaults depth entries
    r.1 ++ r.2
  | sequence items => inheritedItemFaults depth items
  | _ => []

/-- The faults of what a map takes over from several, the last of them first. -/
def inheritedItemFaults (depth : Nat) : List Node → List (Nat × ReadFault)
  | [] => []
  | n :: rest => inheritedItemFaults depth rest ++ inheritedFaults depth n

end

/-- Why a node has no datum: of its faults the one that is least deep, and of those the first. -/
def fault? (n : Node) : Option ReadFault :=
  let least (best : Option (Nat × ReadFault)) (f : Nat × ReadFault) : Option (Nat × ReadFault) :=
    match best with
    | none => some f
    | some b => if f.1 < b.1 then some f else some b
  ((n.faults 0).foldl least none).map Prod.snd

end Node

end Sentential.Yaml
