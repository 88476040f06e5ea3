import Sentential.TruthTable.Basic

/-!
# Karnaugh maps

The rows of a table over two to four variables laid out on a grid whose rows and columns are
numbered in Gray code, so that neighbours differ in one variable, also across the edges. The true
cells are covered by rectangles with sides one, two or four that may wrap around the edges; larger
rectangles are tried first, and one is taken when all its cells are true and not all are covered
yet. The cover need not be minimal.

## Main definitions

* `Karnaugh.Grid` — a rectangular arrangement
* `Karnaugh.Rectangle`, `Karnaugh.rectangles` — the rectangles of a grid, in the order of the search
* `Karnaugh.cover` — the rectangles that the search takes
* `Karnaugh.term` — the product term of some minterms
* `Karnaugh.Map`, `Karnaugh.map?` — the map of a table
-/

namespace Sentential.Karnaugh

/-- Values arranged in rows and columns. -/
structure Grid (α : Type) where
  /-- The number of rows. -/
  height : Nat
  /-- The number of columns. -/
  width : Nat
  /-- The value in a row and a column. -/
  cell : Nat → Nat → α

namespace Grid

/-- The grid whose rows are the given lists. A place without a value holds `default`. -/
def ofRows {α : Type} (default : α) (rows : List (List α)) : Grid α where
  height := rows.length
  width := (rows.head?.getD []).length
  cell r c := (rows.getD r []).getD c default

/-- The values, row by row. -/
def toRows {α : Type} (g : Grid α) : List (List α) :=
  (List.range g.height).map (fun r => (List.range g.width).map (g.cell r))

end Grid

/-- A place on a grid: its row and its column. -/
abbrev Place := Nat × Nat

/-- A rectangle on a grid whose edges are joined, as the rows and the columns that it meets. -/
structure Rectangle where
  /-- The rows, from the top of the rectangle down. -/
  rows : List Nat
  /-- The columns, from the left of the rectangle to the right. -/
  columns : List Nat
deriving DecidableEq, Repr

/-- The places of a rectangle, row by row. -/
def Rectangle.places (q : Rectangle) : List Place :=
  q.rows.flatMap (fun r => q.columns.map (fun c => (r, c)))

/-- The sides of the rectangles that are tried, in the order of the search: by falling area, and of
one area the tall before the wide. -/
def sides : List (Nat × Nat) :=
  [(4, 4), (4, 2), (2, 4), (4, 1), (2, 2), (1, 4), (2, 1), (1, 2), (1, 1)]

/-- Where an interval of `length` can start on a circle of `n`: anywhere, unless it is the whole
circle. -/
def starts (n length : Nat) : List Nat := if length = n then [0] else List.range n

/-- The interval of `length` from `start` on a circle of `n`. -/
def arc (n start length : Nat) : List Nat := (List.range length).map (fun i => (start + i) % n)

/-- The rectangles with given sides. -/
def rectanglesOf (height width : Nat) (side : Nat × Nat) : List Rectangle :=
  if side.1 ≤ height ∧ side.2 ≤ width then
    (starts height side.1).flatMap (fun r =>
      (starts width side.2).map (fun c => ⟨arc height r side.1, arc width c side.2⟩))
  else []

/-- The rectangles of a grid, in the order of the search. -/
def rectangles (height width : Nat) : List Rectangle :=
  sides.flatMap (rectanglesOf height width)

/-- The rectangles that the search takes when some places are covered already: those with true cells
only that cover one place more. -/
def coverFrom (values : Grid Bool) (covered : List Place) : List Rectangle → List Rectangle
  | [] => []
  | q :: rest =>
    -- A rectangle whose places are all covered adds nothing and is passed over.
    if q.places.all (fun p => values.cell p.1 p.2) && !q.places.all (fun p => decide (p ∈ covered))
    then q :: coverFrom values (covered ++ q.places) rest
    else coverFrom values covered rest

/-- The rectangles that the search takes. -/
def cover (values : Grid Bool) : List Rectangle :=
  coverFrom values [] (rectangles values.height values.width)

/-- The value that all of some minterms have at a place, if they agree. -/
def commonBit? (minterms : List Int) (place : Nat) : Option Bool :=
  match minterms with
  | [] => none
  | m :: rest =>
    if rest.all (fun n => Row.bit n place == Row.bit m place) then some (Row.bit m place) else none

/-- The literals on which some minterms agree: variables with the sign that they all have. -/
def literals (minterms : List Int) : List String → List (String × Bool)
  | [] => []
  | v :: rest =>
    match commonBit? minterms rest.length with
    -- The place of a variable is the number of variables after it.
    | some b => (v, b) :: literals minterms rest
    | none => literals minterms rest

/-- The text of a literal. -/
def literalText (l : String × Bool) : String := if l.2 then l.1 else negationSymbol ++ l.1

/-- The text of the conjunction of some literals: `1` if there are none. -/
def product (literals : List (String × Bool)) : String :=
  match literals with
  | [] => "1"
  | l => Connective.and.symbol.intercalate (l.map literalText)

/-- The product term of some minterms: the conjunction of the literals on which they agree. -/
def term (minterms : List Int) (vars : List String) : String := product (literals minterms vars)

/-- A group of true cells. -/
structure Group where
  /-- The places of the cells. -/
  places : List Place
  /-- The minterms on those places. -/
  minterms : List Int
  /-- The product term that is true on exactly those minterms. -/
  term : String
deriving DecidableEq, Repr

/-- The group of a rectangle. -/
def groupOf (minterms : Grid Int) (vars : List String) (q : Rectangle) : Group :=
  let ms := q.places.map (fun p => minterms.cell p.1 p.2)
  ⟨q.places, ms, term ms vars⟩

/-- The groups of the true cells, in the order in which they are found. -/
def groups (values : Grid Bool) (minterms : Grid Int) (vars : List String) : List Group :=
  (cover values).map (groupOf minterms vars)

/-- The Gray code of one or two digits, as labels; other lengths have none. -/
def grayCode? : Int → Option (List String)
  | 1 => some ["0", "1"]
  | 2 => some ["00", "01", "11", "10"]
  | _ => none

/-- The message about a length without a Gray code, given as it is shown. -/
def noGrayCodeMessage (bits : String) : String :=
  "Gray code labels are defined for 1 or 2 bits, got " ++ bits

/-- The number that a label of binary digits denotes. -/
def labelValue (label : String) : Nat :=
  label.toList.foldl (fun n c => 2 * n + if c = '1' then 1 else 0) 0

/-- The variables of the rows and those of the columns: the first of two or three, else the first
two. -/
def split (vars : List String) : List String × List String :=
  if vars.length = 2 ∨ vars.length = 3 then (vars.take 1, vars.drop 1)
  else (vars.take 2, vars.drop 2)

/-- A Karnaugh map. -/
structure Map where
  /-- The minterm of every place. -/
  minterms : Grid Int
  /-- The value of every place. -/
  values : Grid Bool
  /-- The labels of the rows. -/
  rowLabels : List String
  /-- The labels of the columns. -/
  columnLabels : List String
  /-- The variables that number the rows. -/
  rowVariables : List String
  /-- The variables that number the columns. -/
  columnVariables : List String
  /-- All variables. -/
  vars : List String
  /-- The groups of true cells. -/
  groups : List Group
  /-- The disjunction of the terms of the groups. -/
  minimized : String

/-- The disjunction of the terms of some groups. -/
def sumOf (groups : List Group) : String :=
  match groups with
  | [] => "0"
  | _ => (" " ++ Connective.or.symbol ++ " ").intercalate (groups.map Group.term)

/-- The value that the last row with a number has under a key; without such a row it is false. -/
def valueAt (rows : List Row) (key : String) (minterm : Int) : Bool :=
  ((rows.reverse.find? (fun r => r.index == minterm)).map (fun r => r.truth key)).getD false

/-- The map over variables whose Gray codes are given. -/
def mapOf (vars : List String) (rows : List Row) (key : String)
    (rowLabels columnLabels : List String) : Map :=
  let minterms : Grid Int := Grid.ofRows 0
    (rowLabels.map (fun r => columnLabels.map (fun c => ((labelValue (r ++ c) : Nat) : Int))))
  let values : Grid Bool :=
    ⟨minterms.height, minterms.width, fun r c => valueAt rows key (minterms.cell r c)⟩
  let found := groups values minterms vars
  { minterms, values, rowLabels, columnLabels
    rowVariables := (split vars).1
    columnVariables := (split vars).2
    vars
    groups := found
    minimized := sumOf found }

/-- The Karnaugh map of the values under a key, for two to four variables. -/
def map? (vars : List String) (rows : List Row) (key : String) : Option Map :=
  if 2 ≤ vars.length ∧ vars.length ≤ 4 then
    match grayCode? (split vars).1.length, grayCode? (split vars).2.length with
    | some rowLabels, some columnLabels => some (mapOf vars rows key rowLabels columnLabels)
    | _, _ => none
  else none

namespace Map

/-- The minterms of the true cells, in rising order, each once. -/
def onSet (m : Map) : List Int :=
  let cells := (m.minterms.toRows.flatten.zip m.values.toRows.flatten).filter Prod.snd
  (distinct (cells.map Prod.fst)).mergeSort (fun a b => decide (a ≤ b))

/-- The minterms of the groups, in rising order, each once. -/
def coveredSet (m : Map) : List Int :=
  (distinct (m.groups.flatMap Group.minterms)).mergeSort (fun a b => decide (a ≤ b))

end Map

end Sentential.Karnaugh
