import Sentential.Datum.Fault
import Sentential.Decimal.Whole

/-!
# Data

The values that a settings document or a history line can hold. What is in them is checked by
whoever reads them; here they are only taken apart.

## Main definitions

* `Datum` — the values
* `Datum.holds` — whether a value counts as true where a yes or no is wanted
* `Datum.get?`, `Datum.put` — reading and writing an entry of a map
* `Datum.isTooLong` — whether a number in a value has more digits than are shown
-/

namespace Sentential

/-- A value of a document. -/
inductive Datum where
  | null
  | bool (value : Bool)
  | int (value : Int)
  | float (value : Float)
  | text (value : String)
  /-- A text in which some code points stand for no character. -/
  | codes (points : List Nat)
  | list (items : List Datum)
  | map (entries : List (Datum × Datum))
deriving Inhabited

namespace Datum

/-- Whether a value counts as true: nothing, zero and what is empty do not. -/
def holds : Datum → Bool
  | null => false
  | bool b => b
  | int i => i != 0
  | float x => x != 0.0
  | text s => s != ""
  | codes points => !points.isEmpty
  | list items => !items.isEmpty
  | map entries => !entries.isEmpty

/-- The number that a value stands for when it serves as a key: a truth value counts as 0 or 1. -/
def keyNumber? : Datum → Option (Sum Int Float)
  | bool b => some (.inl (if b then 1 else 0))
  | int i => some (.inl i)
  | float x => some (.inr x)
  | _ => none

/-- Whether two scalar values are one key. Numbers of different kinds are if they are exactly equal.
-/
def sameKey (a b : Datum) : Bool :=
  match a, b with
  | null, null => true
  | text s, text t => s == t
  | codes l, codes m => l == m
  | a, b =>
    match keyNumber? a, keyNumber? b with
    | some (.inl i), some (.inl j) => i == j
    | some (.inr x), some (.inr y) => x == y
    | some (.inl i), some (.inr y) => Decimal.whole? y == some i
    | some (.inr x), some (.inl j) => Decimal.whole? x == some j
    | _, _ => false

/-- The entries of a map with one more written: an old key keeps its place. -/
def put (key value : Datum) : List (Datum × Datum) → List (Datum × Datum)
  | [] => [(key, value)]
  | (k, v) :: rest => if sameKey k key then (k, value) :: rest else (k, v) :: put key value rest

/-- The value that the entries of a map hold under a name. -/
def entry? (name : String) : List (Datum × Datum) → Option Datum
  | [] => none
  | (text k, v) :: rest => if k = name then some v else entry? name rest
  | _ :: rest => entry? name rest

/-- The value under a name, if the datum is a map that has it. -/
def get? (name : String) : Datum → Option Datum
  | map entries => entry? name entries
  | _ => none

/-- The text with the given code points. -/
def ofCodes (points : List Nat) : Datum :=
  if points.all Nat.isValidChar then text (String.ofList (points.map Char.ofNat)) else codes points

mutual

/-- Whether a number in a value has more digits than are shown. -/
def isTooLong : Datum → Bool
  | int i => Nat.pow 10 digitLimit ≤ i.natAbs
  | list items => anyTooLong items
  | map entries => anyEntryTooLong entries
  | _ => false

/-- Whether a member of a list holds a number with more digits than are shown. -/
def anyTooLong : List Datum → Bool
  | [] => false
  | d :: rest => isTooLong d || anyTooLong rest

/-- Whether an entry of a map holds a number with more digits than are shown. -/
def anyEntryTooLong : List (Datum × Datum) → Bool
  | [] => false
  | (k, v) :: rest => isTooLong k || isTooLong v || anyEntryTooLong rest

end

/-- A map whose keys are names. -/
def object (fields : List (String × Datum)) : Datum :=
  map (fields.map (fun f => (text f.1, f.2)))

/-- A list of texts. -/
def texts (l : List String) : Datum := list (l.map text)

/-- The given value, or nothing. -/
def ofOption {α : Type} (f : α → Datum) : Option α → Datum
  | some a => f a
  | none => null

end Datum

end Sentential
