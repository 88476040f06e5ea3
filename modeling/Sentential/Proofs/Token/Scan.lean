import Sentential.Token.Scan

/-!
# The tokens of a text

A text is cut into tokens of which only the last one is an end mark. The linter and the parser are
only ever asked about such lists.

## Main results

* `Token.exists_tokenize_eq` — the end mark is the last token, and the only one
* `Token.pairwise_sortedNames` — sorted names ascend strictly
-/

namespace Sentential.Token

variable {c : Char} {rest cs : List Char} {kind : Kind} {n : Nat}

/-! ### Pieces -/

theorem operator?_ne_stop {spelling : List Char × Kind} (found : operator? cs = some spelling) :
    spelling.2 ≠ .stop := by
  have listed : ∀ s ∈ spellings, s.2 ≠ .stop := by decide
  exact listed spelling (List.mem_of_find?_eq_some found)

theorem bracket?_eq_some (found : bracket? c = some kind) :
    ∃ bracket, kind = .opening bracket ∨ kind = .closing bracket := by
  simp only [bracket?, Option.orElse_eq_orElse, Option.orElse_eq_or, Option.or_eq_some_iff,
    Option.map_eq_some_iff] at found
  rcases found with ⟨bracket, -, rfl⟩ | ⟨-, bracket, -, rfl⟩
  · exact ⟨bracket, Or.inl rfl⟩
  · exact ⟨bracket, Or.inr rfl⟩

theorem constant?_eq_some (found : constant? c = some kind) : ∃ value, kind = .constant value := by
  unfold constant? at found
  repeat' split at found
  all_goals cases found
  all_goals exact ⟨_, rfl⟩

/-- A bracket or a constant is no end mark, no name and no operator. -/
theorem kind_of_single (found : (bracket? c <|> constant? c) = some kind) :
    kind ≠ .stop ∧ kind ≠ .name ∧ kind.isOperator = false := by
  rw [Option.orElse_eq_orElse, Option.orElse_eq_or, Option.or_eq_some_iff] at found
  rcases found with found | ⟨-, found⟩
  · obtain ⟨bracket, rfl | rfl⟩ := bracket?_eq_some found <;> simp [Kind.isOperator]
  · obtain ⟨value, rfl⟩ := constant?_eq_some found
    simp [Kind.isOperator]

/-- No piece of a text is an end mark. -/
theorem piece_ne_stop : (piece c rest).1 ≠ .token .stop := by
  unfold piece
  split
  · simp
  · split
    · rename_i spelling found
      have named := operator?_ne_stop found
      simpa using named
    · split
      · rename_i kind found
        have named := (kind_of_single found).1
        simpa using named
      · split <;> simp

theorem piece_of_blank (front : piece c rest = (.blank, n)) : Text.isBlank c = true ∧ n = 0 := by
  unfold piece at front
  split at front
  · next blank =>
    cases front
    exact ⟨blank, rfl⟩
  · repeat' split at front
    all_goals cases front

theorem piece_of_unknown (front : piece c rest = (.unknown, n)) :
    Text.isBlank c = false ∧ n = 0 := by
  unfold piece at front
  split at front
  · cases front
  · next visible =>
    repeat' split at front
    all_goals cases front
    exact ⟨Bool.eq_false_iff.mpr visible, rfl⟩

/-- A piece of a text ends inside the text. -/
theorem le_length_of_piece (front : piece c rest = (.token kind, n)) : n ≤ rest.length := by
  unfold piece at front
  split at front
  · cases front
  · split at front
    · next spelling found =>
      cases front
      have isPrefix := List.find?_some found
      have fits := (List.isPrefixOf_iff_prefix.mp isPrefix).length_le
      rw [List.length_cons] at fits
      omega
    · repeat' split at front
      all_goals cases front
      · exact Nat.zero_le _
      · exact (List.takeWhile_sublist _).length_le

/-! ### Scans -/

theorem scanFrom_nil (pos : Nat) : scanFrom pos [] = ⟨[⟨.stop, "", pos⟩], []⟩ := by
  rw [scanFrom]

theorem scanFrom_of_token (pos : Nat) (front : piece c rest = (.token kind, n)) :
    scanFrom pos (c :: rest) =
      ⟨⟨kind, String.ofList (c :: rest.take n), pos⟩ ::
          (scanFrom (pos + (n + 1)) (rest.drop n)).tokens,
        (scanFrom (pos + (n + 1)) (rest.drop n)).skipped⟩ := by
  rw [scanFrom, front]

theorem add_length_drop (pos : Nat) (c : Char) (fits : n ≤ rest.length) :
    pos + (n + 1) + (rest.drop n).length = pos + (c :: rest).length := by
  rw [List.length_drop, List.length_cons]
  omega

/-- The end mark stands behind the last character. -/
theorem exists_scanFrom_eq (pos : Nat) (cs : List Char) :
    ∃ body, (scanFrom pos cs).tokens = body ++ [⟨.stop, "", pos + cs.length⟩] ∧
      ∀ t ∈ body, t.isStop = false := by
  fun_induction scanFrom pos cs with
  | case1 pos => exact ⟨[], rfl, by simp⟩
  | case2 pos c rest p after blank ih =>
    have single := (piece_of_blank (n := p.2) (Prod.ext blank rfl)).2
    rwa [add_length_drop pos c (by omega)] at ih
  | case3 pos c rest p after kind found ih =>
    rw [add_length_drop pos c (le_length_of_piece (Prod.ext found rfl))] at ih
    obtain ⟨body, cut, unmarked⟩ := ih
    refine ⟨_ :: body, congrArg _ cut, List.forall_mem_cons.mpr ⟨decide_eq_false ?_, unmarked⟩⟩
    rintro rfl
    exact piece_ne_stop found
  | case4 pos c rest p after unknown ih =>
    have single := (piece_of_unknown (n := p.2) (Prod.ext unknown rfl)).2
    rwa [add_length_drop pos c (by omega)] at ih

theorem pairwise_sortedNames (l : List String) : (sortedNames l).Pairwise (· < ·) := by
  have sorted : (sortedNames l).Pairwise fun a b => decide (a ≤ b) = true := by
    apply List.pairwise_mergeSort
    · intro a b c ab bc
      exact decide_eq_true (String.le_trans (of_decide_eq_true ab) (of_decide_eq_true bc))
    · intro a b
      simpa using String.le_total a b
  have nodup : (sortedNames l).Nodup := (List.mergeSort_perm _ _).nodup_iff.mpr (nodup_distinct l)
  refine (sorted.and nodup).imp fun {a b} order => ?_
  exact Std.lt_of_le_of_ne (of_decide_eq_true order.1) order.2

/-- The last token of a text is an end mark, and the only one. -/
theorem exists_tokenize_eq (s : String) : ∃ body stop, tokenize s = body ++ [stop] ∧
    stop.isStop = true ∧ ∀ t ∈ body, t.isStop = false := by
  obtain ⟨body, cut, unmarked⟩ := exists_scanFrom_eq 0 (normalize s).toList
  exact ⟨body, _, cut, rfl, unmarked⟩

end Sentential.Token
