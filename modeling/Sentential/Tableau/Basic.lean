import Sentential.Expr.Basic
import Sentential.OrderedMap

/-!
# Semantic tableaux

A branch collects the truth values that some obligations force on formulas. Obligations are taken
first in, first out. A connective whose value leaves one choice for its operands adds obligations to
the branch; one that leaves two splits the branch, and each child goes on with its own copy of the
assignments. A branch is closed when a formula would have to take both values. Assignments belong to
formulas, so every occurrence of a formula shares its value.

## Main definitions

* `Obligation` — an expression and the value that it must take
* `Consequences`, `Obligation.consequences` — what an obligation requires of the operands
* `Step`, `Branch` — the log of a branch and the proof tree
* `Branch.solve` — the proof tree for some obligations
* `Branch.solveWithin` — the same, unless splits nest too deeply
* `Branch.isClosed`, `Branch.openLeaf?`, `Branch.leaves` — readings of a proof tree
-/

namespace Sentential

/-- A truth value in words. -/
def truthWord (b : Bool) : String := if b then "True" else "False"

/-- A truth value in one letter. -/
def truthLetter (b : Bool) : String := if b then "T" else "F"

/-- An expression and the value that it must take. -/
structure Obligation where
  /-- The expression. -/
  expr : Expr
  /-- The value. -/
  value : Bool
deriving DecidableEq, Repr

/-- What an obligation requires of the operands. -/
inductive Consequences where
  /-- All of some obligations. -/
  | all (obligations : List Obligation)
  /-- All of one list or all of the other. -/
  | either (first second : List Obligation)
deriving DecidableEq, Repr

namespace Obligation

/-- Two obligations together. -/
def both (l : Expr) (a : Bool) (r : Expr) (b : Bool) : List Obligation := [⟨l, a⟩, ⟨r, b⟩]

/-- What an obligation requires of the operands. -/
def consequences (ob : Obligation) : Consequences :=
  match ob.expr, ob.value with
  | .var .., _ | .const .., _ => .all []
  | .not _ e, b => .all [⟨e, !b⟩]
  | .binary _ .and l r, true => .all (both l true r true)
  | .binary _ .and l r, false => .either [⟨l, false⟩] [⟨r, false⟩]
  | .binary _ .or l r, false => .all (both l false r false)
  | .binary _ .or l r, true => .either [⟨l, true⟩] [⟨r, true⟩]
  | .binary _ .implies l r, false => .all (both l true r false)
  | .binary _ .implies l r, true => .either [⟨l, false⟩] [⟨r, true⟩]
  | .binary _ .iff l r, true => .either (both l true r true) (both l false r false)
  | .binary _ .iff l r, false => .either (both l true r false) (both l false r true)
  | .binary _ .xor l r, true => .either (both l true r false) (both l false r true)
  | .binary _ .xor l r, false => .either (both l true r true) (both l false r false)

/-- The number of nodes of the expression. -/
def size (ob : Obligation) : Nat := ob.expr.shape.size

/-- An obligation in short form. -/
def caseText (ob : Obligation) : String := ob.expr.text ++ "=" ++ truthLetter ob.value

/-- The number of nodes of some obligations. -/
def totalSize : List Obligation → Nat
  | [] => 0
  | ob :: obs => ob.size + totalSize obs

theorem size_pos (ob : Obligation) : 0 < ob.size := Formula.size_pos _

theorem totalSize_cons (ob : Obligation) (obs : List Obligation) :
    totalSize (ob :: obs) = ob.size + totalSize obs := rfl

theorem totalSize_append (a b : List Obligation) :
    totalSize (a ++ b) = totalSize a + totalSize b := by
  induction a with
  | nil => simp [totalSize]
  | cons ob a ih => simp only [List.cons_append, totalSize_cons, ih, Nat.add_assoc]

theorem totalSize_lt_of_all {ob : Obligation} {obs : List Obligation}
    (h : ob.consequences = .all obs) : totalSize obs < ob.size := by
  obtain ⟨e, b⟩ := ob
  cases e with
  | var | const => simp only [consequences, Consequences.all.injEq] at h; subst h; simp [totalSize,
      size, Expr.shape, Formula.size]
  | not m e =>
    simp only [consequences, Consequences.all.injEq] at h
    subst h
    simp [totalSize, size, Expr.shape, Formula.size]
  | binary m op l r =>
    cases op <;> cases b <;> simp only [consequences, Consequences.all.injEq, reduceCtorEq] at h <;>
      subst h <;> simp [totalSize, size, both, Expr.shape, Formula.size]

theorem totalSize_lt_of_either {ob : Obligation} {first second : List Obligation}
    (h : ob.consequences = .either first second) :
    totalSize first < ob.size ∧ totalSize second < ob.size := by
  obtain ⟨e, b⟩ := ob
  cases e with
  | var | const => simp [consequences] at h
  | not m e => simp [consequences] at h
  | binary m op l r =>
    have hl := Formula.size_pos l.shape
    have hr := Formula.size_pos r.shape
    cases op <;> cases b <;>
      simp only [consequences, Consequences.either.injEq, reduceCtorEq] at h <;>
      obtain ⟨rfl, rfl⟩ := h <;>
      simp only [totalSize, size, both, Expr.shape, Formula.size] <;> omega

end Obligation

/-- An entry of the log of a branch. -/
inductive Step where
  /-- The cases of an equivalence are about to be tried. -/
  | assumption (e : Expr)
  /-- The branch is a case of its parent. -/
  | subcase (label : String)
  /-- An obligation is met by an assignment. -/
  | forced (ob : Obligation)
  /-- An obligation splits the branch. -/
  | split (ob : Obligation)
  /-- An obligation contradicts the value held already. -/
  | conflict (ob : Obligation) (previous : Bool)
deriving DecidableEq, Repr

namespace Step

/-- The wording of a step. -/
def description : Step → String
  | assumption _ => "To disprove Equivalence, we test both cases where sides differ."
  | subcase label => "Subcase: " ++ label
  | forced ob => "Force " ++ ob.expr.text ++ " = " ++ truthWord ob.value
  | split ob => "Branching required for " ++ ob.expr.text ++ " = " ++ truthWord ob.value
  | conflict ob previous =>
    "Contradiction! " ++ ob.expr.text ++ " was " ++ truthWord previous ++ ", but now forced to " ++
      truthWord ob.value ++ "."

/-- The text of what a step is about. -/
def target : Step → String
  | assumption e => e.text
  | subcase _ => "Branch"
  | forced ob | split ob | conflict ob _ => ob.expr.text

/-- The value that a step is about. -/
def value : Step → Option Bool
  | assumption _ => some false
  | subcase _ => none
  | forced ob | split ob | conflict ob _ => some ob.value

/-- The name of the reason for a step. -/
def reason : Step → String
  | assumption _ => "Assumption"
  | subcase _ | split _ => "Branch"
  | forced _ => "Forced"
  | conflict .. => "Conflict"

end Step

/-- How far a branch has come. -/
inductive Branch.Status where
  /-- It is being worked on. -/
  | unfinished
  /-- Every way to go on leads to a conflict. -/
  | closed
  /-- All obligations are met, here or below. -/
  | complete
deriving DecidableEq, Repr, Inhabited

namespace Branch.Status

/-- The states. -/
def all : List Status := [unfinished, closed, complete]

/-- The name of a state. -/
def name : Status → String
  | unfinished => "Open"
  | closed => "Closed"
  | complete => "Complete"

/-- The state with a name. -/
def ofName? (s : String) : Option Status := all.find? (fun t => t.name == s)

end Branch.Status

/-- Two values for one formula. -/
structure Contradiction where
  /-- The obligation that cannot be met. -/
  obligation : Obligation
  /-- The value that its formula holds already. -/
  previous : Bool
deriving DecidableEq, Repr

/-- A branch of a proof tree with everything below it. -/
structure Branch where
  /-- The case that the branch is about; the root has none. -/
  label : String := ""
  /-- The values of formulas, in the order in which they were forced. -/
  assignments : OrderedMap Formula Bool := .empty
  /-- The log. -/
  steps : List Step := []
  /-- How far the branch has come. -/
  status : Branch.Status := .unfinished
  /-- Why the branch is closed, if it closed by itself. -/
  contradiction : Option Contradiction := none
  /-- The cases into which the branch was split. -/
  children : List Branch := []

namespace Branch

instance : Inhabited Branch := ⟨{}⟩

/-- The value that a formula holds on a branch: the assigned one, or the own one of a constant. -/
def held? (b : Branch) (f : Formula) : Option Bool :=
  match b.assignments.get? f with
  | some value => some value
  | none =>
    match f with
    | .const value => some value
    | _ => none

/-- The label of a case. -/
def caseLabel (obs : List Obligation) : String := ", ".intercalate (obs.map Obligation.caseText)

/-- The branch after meeting an obligation by an assignment. -/
def force (b : Branch) (ob : Obligation) : Branch :=
  { b with
    assignments := b.assignments.insert ob.expr.shape ob.value
    steps := b.steps ++ [.forced ob] }

/-- The branch closed by an obligation whose formula holds the other value. -/
def close (b : Branch) (ob : Obligation) (previous : Bool) : Branch :=
  { b with
    status := .closed
    contradiction := some ⟨ob, previous⟩
    steps := b.steps ++ [.conflict ob previous] }

/-- A new child with a label, which starts from the assignments of its parent. -/
def child (b : Branch) (label : String) : Branch :=
  { label, assignments := b.assignments, steps := [.subcase label] }

/-- The branch with its children, closed if all of them are. -/
def join (b : Branch) (children : List Branch) : Branch :=
  { b with
    children
    status := if children.all (fun c => c.status == .closed) then .closed else .complete }

/-- The branch before it is split by an obligation. -/
def markSplit (b : Branch) (ob : Obligation) : Branch := { b with steps := b.steps ++ [.split ob] }

/-- Works off the pending obligations on a branch. -/
def solve (b : Branch) (pending : List Obligation) : Branch :=
  match pending with
  | [] => { b with status := .complete }
  | ob :: rest =>
    match b.held? ob.expr.shape with
    -- The value may come from another occurrence of the same formula.
    | some previous => if previous = ob.value then solve b rest else b.close ob previous
    | none =>
      match _h : ob.consequences with
      | .all obs => solve (b.force ob) (rest ++ obs)
      | .either first second =>
        let b := (b.force ob).markSplit ob
        -- Both cases take over everything that is still pending.
        b.join
          [solve (b.child (caseLabel first)) (rest ++ first),
            solve (b.child (caseLabel second)) (rest ++ second)]
termination_by Obligation.totalSize pending
decreasing_by
  · have := Obligation.size_pos ob
    rw [Obligation.totalSize_cons]
    omega
  · have := Obligation.totalSize_lt_of_all _h
    rw [Obligation.totalSize_cons, Obligation.totalSize_append]
    omega
  · have := (Obligation.totalSize_lt_of_either _h).1
    rw [Obligation.totalSize_cons, Obligation.totalSize_append]
    omega
  · have := (Obligation.totalSize_lt_of_either _h).2
    rw [Obligation.totalSize_cons, Obligation.totalSize_append]
    omega

/-- Works off the pending obligations on a branch, unless more than `limit` splits nest. The first
child is solved first, so a search that nests too deeply there ends at once. -/
def solveWithin (limit : Nat) (b : Branch) (pending : List Obligation) : Option Branch :=
  match pending with
  | [] => some { b with status := .complete }
  | ob :: rest =>
    match b.held? ob.expr.shape with
    | some previous =>
      if previous = ob.value then solveWithin limit b rest else some (b.close ob previous)
    | none =>
      match _h : ob.consequences with
      | .all obs => solveWithin limit (b.force ob) (rest ++ obs)
      | .either first second =>
        match limit with
        | 0 => none
        | limit + 1 =>
          let b := (b.force ob).markSplit ob
          match solveWithin limit (b.child (caseLabel first)) (rest ++ first) with
          | none => none
          | some x =>
            match solveWithin limit (b.child (caseLabel second)) (rest ++ second) with
            | none => none
            | some y => some (b.join [x, y])
termination_by Obligation.totalSize pending
decreasing_by
  · have := Obligation.size_pos ob
    rw [Obligation.totalSize_cons]
    omega
  · have := Obligation.totalSize_lt_of_all _h
    rw [Obligation.totalSize_cons, Obligation.totalSize_append]
    omega
  · have := (Obligation.totalSize_lt_of_either _h).1
    rw [Obligation.totalSize_cons, Obligation.totalSize_append]
    omega
  · have := (Obligation.totalSize_lt_of_either _h).2
    rw [Obligation.totalSize_cons, Obligation.totalSize_append]
    omega

/-! ### Readings of a proof tree -/

/-- The values of the variables, in the order in which they were forced. -/
def variableValues (b : Branch) : List (String × Bool) :=
  b.assignments.entries.filterMap (fun e =>
    match e.1 with
    | .var name => some (name, e.2)
    | _ => none)

mutual

/-- The branches without children, from left to right. -/
def leaves (b : Branch) : List Branch :=
  match b with
  | ⟨label, assignments, steps, status, contradiction, children⟩ =>
    if children.isEmpty then [⟨label, assignments, steps, status, contradiction, children⟩]
    else leavesOf children

/-- The leaves of some branches. -/
def leavesOf : List Branch → List Branch
  | [] => []
  | c :: rest => leaves c ++ leavesOf rest

end

mutual

/-- Whether a branch is closed: marked so, or split into closed branches only. -/
def isClosed (b : Branch) : Bool :=
  match b with
  | ⟨_, _, _, status, _, children⟩ =>
    match status with
    | .closed => true
    | _ => !children.isEmpty && allClosed children

/-- Whether all of some branches are closed. -/
def allClosed : List Branch → Bool
  | [] => true
  | c :: rest => isClosed c && allClosed rest

end

mutual

/-- The first leaf that is complete: its assignments meet all obligations. -/
def openLeaf? (b : Branch) : Option Branch :=
  match b with
  | ⟨label, assignments, steps, status, contradiction, children⟩ =>
    -- Only a leaf can be the answer: a complete branch with children has it below.
    if children.isEmpty then
      if status = .complete then some ⟨label, assignments, steps, status, contradiction, children⟩
      else none
    else openLeafOf? children

/-- The first complete leaf of some branches. -/
def openLeafOf? : List Branch → Option Branch
  | [] => none
  | c :: rest =>
    match openLeaf? c with
    | some leaf => some leaf
    | none => openLeafOf? rest

end

end Branch

end Sentential
