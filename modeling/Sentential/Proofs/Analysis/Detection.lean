import Sentential.Proofs.Analysis.Diagnostics
import Sentential.Proofs.Parse.Arena

/-!
# Variables that are detected

A parse keeps every token, so the variables of the expression that a text spells are the names in
the text. These names are upper-case letters with digits, which a declaration leaves as they are.
Declaring the names in a text is therefore enough: none of its variables is missing.

## Main results

* `Analysis.mem_declaredNames_of_spellsName` — a declared letter with digits is itself declared
* `Analysis.no_token_is_lost` — what a parse records, and that detected variables suffice
-/

namespace Sentential.Analysis

open Token (lint sortedNames spellsName tokenize variablesIn)

variable {α : Type} {s name : String} {names missing : List String} {e : Expr}
variable {limits : Limits}

/-- A letter with digits stays when it is declared. -/
theorem mem_declaredNames_of_spellsName (spelled : spellsName name = true)
    (mem : name ∈ names) : name ∈ declaredNames names := by
  have trimmed : Text.trim name = name := by
    have continues := Token.continuesName_of_spellsName spelled
    rw [Text.trim, Token.trimChars_eq_self fun c mem =>
      Token.isBlank_of_continuesName (continues c mem), String.ofList_toList]
  have raised : Text.upper name = name := by
    rw [Text.upper, Text.upperChars_eq_self (Token.upperChar_of_spellsName spelled),
      String.ofList_toList]
  have nonempty : name ≠ "" := by
    rintro rfl
    cases spelled
  rw [declaredNames, mem_distinct, List.mem_filter, List.mem_map]
  exact ⟨⟨name, mem, by rw [trimmed, raised]⟩, decide_eq_true nonempty⟩

/-- The variables of an expression that is read are among the detected ones. -/
theorem undeclared_variablesIn (read : readExpr (some s) limits = .ok e) :
    TruthTable.undeclared e.shape (declaredNames (variablesIn s)) = [] := by
  refine TruthTable.undeclared_eq_nil_iff.mpr fun x occurs => ?_
  refine mem_declaredNames_of_spellsName (spellsName_of_readExpr read x occurs) ?_
  rw [variablesIn, Token.mem_sortedNames, ← (readExpr_eq_ok_iff.mp read).1.vars_eq]
  exact occurs

/-- Reading complains of no undeclared variables. -/
theorem readExpr_ne_undeclared : readExpr (some s) limits ≠ .error (.undeclared missing) := by
  intro refused
  have reads := readsTo_readExpr limits (some s)
  rw [refused] at reads
  -- Every other check has messages of its own.
  cases reads with
  | fault _ _ _ syntactic => cases syntactic

/-- Behind the checks nothing is undeclared if the detected variables are declared. -/
theorem Gated.ne_undeclared {k : Expr → Except AnalysisError α}
    (gated : Gated limits (declaredNames (variablesIn s)) k) :
    (diagnose (readExpr (some s) limits) >>= k) ≠ .error (.diagnostic (.undeclared missing)) := by
  cases read : readExpr (some s) limits with
  | error d =>
    rintro ⟨⟩
    exact readExpr_ne_undeclared read
  | ok e =>
    intro refused
    exact ((gated.eq_error_iff e).mp refused).1 (undeclared_variablesIn read)

/-- A text that passes the linter names the variables of the expression that it spells. -/
theorem exists_ofText_eq (passed : lint (tokenize s) = none) :
    ∃ e, Expr.ofText s = .ok e ∧ variablesIn s = sortedNames e.shape.vars := by
  obtain ⟨p, parsed⟩ := exists_parse_of_lint_eq_none passed
  refine ⟨p.root, ?_, by rw [vars_of_parse parsed, variablesIn]⟩
  rw [Expr.ofText, Expr.parseText, parseLinted_eq_ok_iff.mpr ⟨passed, parsed⟩]

/-- **No token is lost.** A parse records the nodes of its tree in post-order, each at the place of
its number, and has a node for each operand and operator, a count for each pair of brackets and the
operands for its leaves. So the names in a text are the variables of its expression, and an analysis
or a proof attempt with these declared finds none that is not. -/
theorem no_token_is_lost :
    (∀ {body : List Token} {stop : Token} {p : Expr.Parse}, (∀ t ∈ body, t.isStop = false) →
      stop.isStop = true → Expr.parse (body ++ [stop]) = .ok p → p.AccountsFor body) ∧
    (∀ {s : String}, lint (tokenize s) = none →
      ∃ e, Expr.ofText s = .ok e ∧ variablesIn s = sortedNames e.shape.vars) ∧
    ∀ (limits : Limits) (s : String) (settings : Settings) (target : Option Target)
      (goal : Target) (missing : List String),
      run (some s) (variablesIn s) settings target limits ≠
        .error (.diagnostic (.undeclared missing)) ∧
      prove (some s) (variablesIn s) goal limits ≠
        .error (.diagnostic (.undeclared missing)) := by
  refine ⟨Expr.accountsFor_of_parse, exists_ofText_eq,
    fun limits s settings target goal missing => ⟨?_, ?_⟩⟩
  · exact (gated_ofExpr limits _ settings target).ne_undeclared
  · exact (gated_prove limits _ goal).ne_undeclared

/-- The tokens of `([~P])&1`, and a text of which the linter finds nothing wrong. -/
theorem no_token_is_lost_twiceBracketed :
    (∃ p, Expr.parse ([⟨.opening .paren, "(", 0⟩, ⟨.opening .square, "[", 1⟩, ⟨.negation, "~", 2⟩,
        ⟨.name, "P", 3⟩, ⟨.closing .square, "]", 4⟩, ⟨.closing .paren, ")", 5⟩,
        ⟨.binary .and, "&", 6⟩, ⟨.constant true, "1", 7⟩] ++ [⟨.stop, "", 8⟩]) = .ok p ∧
      p.AccountsFor [⟨.opening .paren, "(", 0⟩, ⟨.opening .square, "[", 1⟩, ⟨.negation, "~", 2⟩,
        ⟨.name, "P", 3⟩, ⟨.closing .square, "]", 4⟩, ⟨.closing .paren, ")", 5⟩,
        ⟨.binary .and, "&", 6⟩, ⟨.constant true, "1", 7⟩]) ∧
    ∃ e, Expr.ofText "q1 -> ([p] & q1)" = .ok e ∧
      variablesIn "q1 -> ([p] & q1)" = sortedNames e.shape.vars := by
  have marked : Token.isStop ⟨.stop, "", 8⟩ = true := rfl
  exact ⟨⟨_, rfl, no_token_is_lost.1 (by decide) marked rfl⟩,
    no_token_is_lost.2.1 (by decide +kernel)⟩

end Sentential.Analysis
