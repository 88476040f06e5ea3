import Mathlib.Data.List.Chain
import Sentential.Proofs.Tableau.Search

/-!
# The log of a proof tree

Every assignment is logged when it is made, and a child goes on with a copy of the assignments of
its parent. So the assignments of a branch can be replayed: they are those of the parent, and behind
them what the branch itself forced, in the order of its log. Nothing is forced that holds a value
already, so along a path from the root no formula is assigned twice, and no constant at all. A leaf
that closes logs the conflict last; the formula of the conflict holds the other value.

## Main definitions

* `Branch.forced` — the assignments in the log of a branch
* `Branch.IsParent` — the relation of a branch to its children
* `Branch.Replays` — what the log of a branch tells, given the assignments that it began with
* `Branch.ReplaysBelow` — the same for all branches of a tree and along its paths

## Main results

* `Branch.Working.throughout` — solving a branch makes a tree whose logs can be replayed
* `Branch.log_replays` — the same, from any assignments and for any obligations
-/

namespace Sentential

open Relation

/-- The assignment that a step tells of. -/
def Step.forced? : Step → Option (Formula × Bool)
  | forced ob => some (ob.expr.shape, ob.value)
  | assumption _ | subcase _ | split _ | conflict .. => none

namespace Branch

variable {b c x y root : Branch} {start initial : OrderedMap Formula Bool} {ob : Obligation}
  {f : Formula} {pending : List Obligation} {previous : Bool} {children : List Branch}

/-- The assignments in the log of a branch, in order. -/
def forced (b : Branch) : List (Formula × Bool) := b.steps.filterMap Step.forced?

/-- The relation of a branch to its children. -/
def IsParent (b c : Branch) : Prop := c ∈ b.children

/-- The log of a branch tells how it came from the assignments that it began with to its own, and
that of a leaf tells by its last step whether and why it is closed. -/
structure Replays (start : OrderedMap Formula Bool) (b : Branch) : Prop where
  /-- The assignments are those of the start, and then the logged ones. -/
  entries_eq : b.assignments.entries = start.entries ++ b.forced
  /-- No constant is assigned. -/
  const_free : ∀ ob, .forced ob ∈ b.steps → ∀ x, ob.expr.shape ≠ .const x
  closed_iff : b.children = [] →
    (b.status = .closed ↔ ∃ ob previous, b.steps.getLast? = some (.conflict ob previous))
  /-- The formula of a conflict holds the other value. -/
  conflict : b.children = [] → ∀ ob previous, b.steps.getLast? = some (.conflict ob previous) →
    b.contradiction = some ⟨ob, previous⟩ ∧ b.held? ob.expr.shape = some previous ∧
      previous ≠ ob.value

/-! ### One branch -/

/-- What holds of a branch while it is worked on. -/
structure Working (start : OrderedMap Formula Bool) (b : Branch) : Prop where
  entries_eq : b.assignments.entries = start.entries ++ b.forced
  const_free : ∀ ob, .forced ob ∈ b.steps → ∀ x, ob.expr.shape ≠ .const x
  unclosed : ∀ ob previous, .conflict ob previous ∉ b.steps
  childless : b.children = []

/-- What holds no value is neither assigned nor a constant. -/
theorem free_of_held? (free : b.held? f = none) :
    f ∉ b.assignments.keys ∧ ∀ x, f ≠ .const x := by
  rw [OrderedMap.mem_keys_iff]
  unfold held? at free
  cases assigned : b.assignments.get? f with
  | some x => simp [assigned] at free
  | none =>
    refine ⟨by simp, ?_⟩
    rintro x rfl
    simp [assigned] at free

theorem working_start (initial : OrderedMap Formula Bool) :
    Working initial { assignments := initial } where
  entries_eq := (List.append_nil _).symm
  const_free _ mem := by cases mem
  unclosed _ _ mem := by cases mem
  childless := rfl

theorem working_child (b : Branch) (label : String) :
    Working b.assignments (b.child label) where
  entries_eq := (List.append_nil _).symm
  const_free _ mem := by simp [child] at mem
  unclosed _ _ mem := by simp [child] at mem
  childless := rfl

theorem Working.force (working : b.Working start) (free : b.held? ob.expr.shape = none) :
    (b.force ob).Working start := by
  obtain ⟨absent, notConst⟩ := free_of_held? free
  refine ⟨?_, fun ob' mem => ?_, fun ob' previous mem => ?_, working.childless⟩
  · have logged : (b.force ob).forced = b.forced ++ [(ob.expr.shape, ob.value)] := by
      simp [forced, Branch.force, Step.forced?]
    rw [logged, ← List.append_assoc, ← working.entries_eq]
    exact OrderedMap.entries_insert_of_notMem _ _ absent
  · rcases List.mem_append.mp mem with old | new
    · exact working.const_free ob' old
    · cases List.mem_singleton.mp new
      exact notConst
  · refine working.unclosed ob' previous ((List.mem_append.mp mem).resolve_right fun new => ?_)
    cases List.mem_singleton.mp new

theorem Working.markSplit (working : b.Working start) (ob : Obligation) :
    (b.markSplit ob).Working start := by
  refine ⟨?_, fun ob' mem => ?_, fun ob' previous mem => ?_, working.childless⟩
  · have logged : (b.markSplit ob).forced = b.forced := by
      simp [forced, Branch.markSplit, Step.forced?]
    rw [logged]
    exact working.entries_eq
  · refine working.const_free ob' ((List.mem_append.mp mem).resolve_right fun new => ?_)
    cases List.mem_singleton.mp new
  · refine working.unclosed ob' previous ((List.mem_append.mp mem).resolve_right fun new => ?_)
    cases List.mem_singleton.mp new

/-- A branch that has met everything did not log a conflict. -/
theorem Working.complete (working : b.Working start) :
    Replays start { b with status := .complete } where
  entries_eq := working.entries_eq
  const_free := working.const_free
  closed_iff _ := by
    refine iff_of_false (fun closed => by cases closed) ?_
    rintro ⟨ob, previous, last⟩
    exact working.unclosed ob previous (List.mem_of_getLast? last)
  conflict _ ob previous last :=
    absurd (List.mem_of_getLast? last) (working.unclosed ob previous)

theorem Working.close (working : b.Working start) (held : b.held? ob.expr.shape = some previous)
    (differ : previous ≠ ob.value) : Replays start (b.close ob previous) where
  entries_eq := by
    have logged : (b.close ob previous).forced = b.forced := by
      simp [forced, Branch.close, Step.forced?]
    rw [logged]
    exact working.entries_eq
  const_free ob' mem := by
    refine working.const_free ob' ((List.mem_append.mp mem).resolve_right fun new => ?_)
    cases List.mem_singleton.mp new
  closed_iff _ := iff_of_true rfl ⟨ob, previous, List.getLast?_concat⟩
  conflict _ ob' previous' last := by
    have same : Step.conflict ob previous = .conflict ob' previous' :=
      Option.some.inj (List.getLast?_concat.symm.trans last)
    cases same
    exact ⟨rfl, held, differ⟩

/-- A branch that was split is no leaf. -/
theorem Working.join (working : b.Working start) (split : children ≠ []) :
    Replays start (b.join children) where
  entries_eq := working.entries_eq
  const_free := working.const_free
  closed_iff leaf := absurd leaf split
  conflict leaf := absurd leaf split

/-! ### Trees and paths -/

/-- A property of branches and of the assignments that they began with holds of all branches of a
tree: the root began with the given ones, and a child with those of its parent. -/
def Throughout (P : OrderedMap Formula Bool → Branch → Prop) (start : OrderedMap Formula Bool)
    (root : Branch) : Prop :=
  P start root ∧ ∀ b c, ReflTransGen IsParent root b → b.IsParent c → P b.assignments c

variable {P : OrderedMap Formula Bool → Branch → Prop}

theorem throughout_of_leaf (here : P start root) (leaf : root.children = []) :
    root.Throughout P start := by
  refine ⟨here, fun b c below child => ?_⟩
  rcases below.cases_head with rfl | ⟨d, first, -⟩
  · simp [IsParent, leaf] at child
  · simp [IsParent, leaf] at first

theorem throughout_join (here : P start (b.join children))
    (below : ∀ c ∈ children, c.Throughout P b.assignments) :
    (b.join children).Throughout P start := by
  refine ⟨here, fun d c reached child => ?_⟩
  -- A branch of the tree is the root itself or lies in the tree of one child.
  rcases reached.cases_head with rfl | ⟨d', first, reached⟩
  · exact (below c child).1
  · exact (below d' first).2 d c reached child

/-- Solving a branch makes a tree whose logs can be replayed. -/
theorem Working.throughout (working : b.Working start) :
    (b.solve pending).Throughout Replays start := by
  -- What the branch has logged is kept until it ends; a child begins a log of its own.
  fun_induction solve b pending generalizing start with
  | case1 b => exact throughout_of_leaf working.complete working.childless
  | case2 b ob rest held ih => exact ih working
  | case3 b ob rest previous held differ =>
    exact throughout_of_leaf (working.close held differ) working.childless
  | case4 b ob rest free obs all ih => exact ih (working.force free)
  | case5 b ob rest free first second either parent ihFirst =>
    rename_i ihSecond
    refine throughout_join (((working.force free).markSplit ob).join (List.cons_ne_nil _ _)) ?_
    simp only [List.mem_cons, List.not_mem_nil, or_false, forall_eq_or_imp, forall_eq]
    exact ⟨ihFirst (working_child _ _), ihSecond (working_child _ _)⟩

/-- Along a path the logs add up. -/
theorem Throughout.entries_getLast (replays : root.Throughout Replays start) {rest : List Branch}
    (path : List.IsChain IsParent (root :: rest)) :
    ((root :: rest).getLast (List.cons_ne_nil _ _)).assignments.entries =
      start.entries ++ (root :: rest).flatMap forced := by
  induction rest generalizing root start with
  | nil => simpa using replays.1.entries_eq
  | cons c rest ih =>
    -- The rest of the path lies in the tree of the child, which began where its parent ended.
    rw [List.isChain_cons_cons] at path
    have below : c.Throughout Replays root.assignments :=
      ⟨replays.2 root c .refl path.1, fun b d reached => replays.2 b d (.head path.1 reached)⟩
    rw [List.getLast_cons (List.cons_ne_nil _ _), ih below path.2, replays.1.entries_eq,
      List.append_assoc]
    rfl

/-- The logs of a tree can be replayed, from the root down to every branch. -/
structure ReplaysBelow (initial : OrderedMap Formula Bool) (root : Branch) : Prop where
  rootReplays : root.Replays initial
  childReplays : ∀ b c, ReflTransGen IsParent root b → b.IsParent c → c.Replays b.assignments
  /-- A child holds what its parent holds. -/
  kept : ∀ b c, ReflTransGen IsParent root b → b.IsParent c →
    ∀ f x, b.assignments.get? f = some x → c.assignments.get? f = some x
  /-- The logs along a path give the assignments at its end. -/
  entries_getLast : ∀ rest, List.IsChain IsParent (root :: rest) →
    ((root :: rest).getLast (List.cons_ne_nil _ _)).assignments.entries =
      initial.entries ++ (root :: rest).flatMap forced
  /-- Nothing is assigned twice along a path. -/
  nodup : ∀ rest, List.IsChain IsParent (root :: rest) →
    (initial.keys ++ ((root :: rest).flatMap forced).map Prod.fst).Nodup

theorem Throughout.replaysBelow (replays : root.Throughout Replays initial) :
    root.ReplaysBelow initial where
  rootReplays := replays.1
  childReplays := replays.2
  kept b c reached child f x held := by
    rw [OrderedMap.get?_eq_some_iff] at held ⊢
    rw [(replays.2 b c reached child).entries_eq]
    exact List.mem_append_left _ held
  entries_getLast rest path := replays.entries_getLast path
  nodup rest path := by
    -- The keys at the end of the path are distinct, as those of any map are.
    have distinct := ((root :: rest).getLast (List.cons_ne_nil _ _)).assignments.nodup
    rwa [replays.entries_getLast path, List.map_append] at distinct

/-- **The log of a proof tree replays to its assignments.** Let a tree be solved from any
assignments for any obligations. Every branch has the assignments of its parent, the root those of
the start, and behind them the ones that its own log tells of; along a path none is made twice, and
none is of a constant. A leaf is closed exactly if the last step of its log is a conflict, and then
the formula of the conflict holds the value that the contradiction names, other than the one that it
had to take. -/
theorem log_replays (initial : OrderedMap Formula Bool) (pending : List Obligation) :
    (({ assignments := initial } : Branch).solve pending).ReplaysBelow initial :=
  (working_start initial).throughout.replaysBelow

end Branch

end Sentential
