import Sentential.Proofs.Token.Scan

/-!
# What the tokens of a text cover

A token covers the characters that it was read from. The scan notes exactly the characters that are
no blanks and that no token covers, from left to right. Putting a text into upper case and trimming
it leaves something to read, unless the text is blank.

## Main definitions

* `Token.Covers` — an offset inside a token
* `Token.Stray`, `Token.FirstStray` — a character of a text that belongs to no token

## Main results

* `Text.exists_visible_normalize` — a text that is not blank still has a visible character
* `Token.mem_skipped_iff` — the characters that a scan notes
* `Token.skipped_eq_nil_iff`, `Token.head?_skipped_iff` — whether there is one, and which is first
-/

namespace Sentential

/-! ### Visible characters -/

namespace Text

variable {c : Char} {cs : List Char} {s : String}

theorem isBlank_iff :
    isBlank c = true ↔ ∃ r ∈ blankRanges, r.1 ≤ c.toNat ∧ c.toNat ≤ r.2 := by
  simp only [isBlank, List.any_eq_true, Bool.and_eq_true, decide_eq_true_eq]

theorem blankRanges_pos : ∀ r ∈ blankRanges, 0 < r.1 := by decide

/-- A code point is that of its character, or it has none. -/
theorem toNat_ofNat (n : Nat) : (Char.ofNat n).toNat = n ∨ (Char.ofNat n).toNat = 0 := by
  by_cases valid : n.isValidChar
  · rw [Char.ofNat, dif_pos valid]
    exact Or.inl rfl
  · rw [Char.ofNat, dif_neg valid]
    exact Or.inr rfl

theorem isBlank_ofNat (n : Nat) (visible : ∀ r ∈ blankRanges, n < r.1 ∨ r.2 < n) :
    isBlank (Char.ofNat n) = false := by
  rw [Bool.eq_false_iff]
  intro blank
  obtain ⟨r, mem, low, high⟩ := isBlank_iff.mp blank
  have outside := visible r mem
  have first := blankRanges_pos r mem
  rcases toNat_ofNat n with same | zero <;> omega

/-- No run of the table leads to a blank. -/
theorem caseRuns_visible : ∀ run ∈ caseRuns, ∀ r ∈ blankRanges,
    run.last + run.offset < r.1 ∨ r.2 < run.first + run.offset := by decide +kernel

theorem caseExpansions_visible : ∀ e ∈ caseExpansions, ∃ code ∈ e.2,
    isBlank (Char.ofNat code) = false := by decide +kernel

theorem exists_visible_upperWide (visible : isBlank c = false) :
    ∃ c' ∈ upperWide c, isBlank c' = false := by
  unfold upperWide
  split
  · next codes found =>
    obtain ⟨before, after, listed, -⟩ := List.lookup_eq_some_iff.mp found
    have mem : (c.toNat, codes) ∈ caseExpansions := by simp [listed]
    obtain ⟨code, mem, visible⟩ := caseExpansions_visible _ mem
    exact ⟨_, List.mem_map_of_mem mem, visible⟩
  · split
    · next run found =>
      -- The run moves its characters by one offset, past no range of blanks.
      have within := List.find?_some found
      simp only [Bool.and_eq_true, decide_eq_true_eq] at within
      refine ⟨_, List.mem_singleton_self _, isBlank_ofNat _ fun r mem => ?_⟩
      have outside := caseRuns_visible run (List.mem_of_find?_eq_some found) r mem
      have first := blankRanges_pos r mem
      omega
    · exact ⟨c, List.mem_singleton_self c, visible⟩

theorem isBlank_upperAscii (visible : isBlank c = false) : isBlank (upperAscii c) = false := by
  unfold upperAscii
  split
  · next letter =>
    have range : 97 ≤ c.toNat ∧ c.toNat ≤ 122 := letter
    refine isBlank_ofNat _ fun r mem => ?_
    have apart : ∀ r ∈ blankRanges, r.2 < 65 ∨ 90 < r.1 := by decide
    have outside := apart r mem
    omega
  · exact visible

theorem exists_visible_upperChar (visible : isBlank c = false) :
    ∃ c' ∈ upperChar c, isBlank c' = false := by
  unfold upperChar
  split
  · exact ⟨_, List.mem_singleton_self _, isBlank_upperAscii visible⟩
  · exact exists_visible_upperWide visible

/-- Trimming drops blanks only. -/
theorem mem_trimStart (mem : c ∈ cs) (visible : isBlank c = false) : c ∈ trimStart cs := by
  unfold trimStart
  induction cs with
  | nil => exact mem
  | cons d cs ih =>
    rw [List.dropWhile_cons]
    split
    · next blank =>
      rcases List.mem_cons.mp mem with rfl | later
      · rw [visible] at blank
        cases blank
      · exact ih later
    · exact mem

theorem mem_trimChars (mem : c ∈ cs) (visible : isBlank c = false) : c ∈ trimChars cs := by
  have front := mem_trimStart mem visible
  have reversed : c ∈ trimStart (trimStart cs).reverse :=
    mem_trimStart (List.mem_reverse.mpr front) visible
  exact List.mem_reverse.mpr reversed

/-- What is scanned has a visible character if the text has one. -/
theorem exists_visible_normalize (visible : isAllBlank s = false) :
    ∃ c ∈ (Token.normalize s).toList, isBlank c = false := by
  obtain ⟨c, mem, visible⟩ := List.all_eq_false.mp visible
  obtain ⟨c', mem', visible'⟩ := exists_visible_upperChar (Bool.eq_false_iff.mpr visible)
  refine ⟨c', ?_, visible'⟩
  rw [Token.normalize, trim, upper, String.toList_ofList, String.toList_ofList]
  exact mem_trimChars (List.mem_flatMap.mpr ⟨c, mem, mem'⟩) visible'

end Text

namespace Token

variable {c : Char} {rest cs : List Char} {kind : Kind} {n pos p : Nat} {s : String}

/-! ### Spans -/

/-- The offset lies inside the token. -/
def Covers (t : Token) (p : Nat) : Prop := t.pos ≤ p ∧ p < t.pos + t.text.length

/-- At an offset of the scanned text stands a character that belongs to no token and is no blank. -/
def Stray (s : String) (p : Nat) (c : Char) : Prop :=
  (normalize s).toList[p]? = some c ∧ Text.isBlank c = false ∧ ∀ t ∈ tokenize s, ¬ t.Covers p

/-- The first character of a text that belongs to no token. -/
def FirstStray (s : String) (p : Nat) (c : Char) : Prop :=
  Stray s p c ∧ ∀ p' c', Stray s p' c' → p ≤ p'

/-- The scan of what follows starts behind. -/
theorem le_pos_of_mem_tokens (pos : Nat) (cs : List Char) :
    ∀ t ∈ (scanFrom pos cs).tokens, pos ≤ t.pos := by
  fun_induction scanFrom pos cs with
  | case1 pos => simp
  | case2 pos c rest p after blank ih =>
    intro t mem
    have behind := ih t mem
    omega
  | case3 pos c rest p after kind found ih =>
    intro t mem
    rcases List.mem_cons.mp mem with rfl | later
    · exact Nat.le_refl pos
    · have behind := ih t later
      omega
  | case4 pos c rest p after unknown ih =>
    intro t mem
    have behind := ih t mem
    omega

theorem pairwise_skipped (pos : Nat) (cs : List Char) :
    (∀ e ∈ (scanFrom pos cs).skipped, pos ≤ e.1) ∧
      (scanFrom pos cs).skipped.Pairwise fun e e' => e.1 < e'.1 := by
  fun_induction scanFrom pos cs with
  | case1 pos => simp
  | case2 pos c rest p after blank ih =>
    refine ⟨fun e mem => ?_, ih.2⟩
    have behind := ih.1 e mem
    omega
  | case3 pos c rest p after kind found ih =>
    refine ⟨fun e mem => ?_, ih.2⟩
    have behind := ih.1 e mem
    omega
  | case4 pos c rest p after unknown ih =>
    constructor
    · intro e mem
      rcases List.mem_cons.mp mem with rfl | later
      · exact Nat.le_refl pos
      · have behind := ih.1 e later
        omega
    · refine List.pairwise_cons.mpr ⟨fun e mem => ?_, ih.2⟩
      have behind := ih.1 e mem
      omega

/-- The scan of what follows says nothing about what lies before. -/
theorem not_covers_of_lt {q : Nat} (before : q < pos) (cs : List Char) (c : Char) :
    (∀ t ∈ (scanFrom pos cs).tokens, ¬ t.Covers q) ∧ (q, c) ∉ (scanFrom pos cs).skipped := by
  constructor
  · intro t mem covers
    have behind := le_pos_of_mem_tokens pos cs t mem
    have start := covers.1
    omega
  · intro mem
    have behind := (pairwise_skipped pos cs).1 _ mem
    omega

theorem getElem?_cons_drop (d : Char) (rest : List Char) (n j : Nat) :
    (d :: rest)[n + 1 + j]? = (rest.drop n)[j]? := by
  have shifted : n + 1 + j = n + j + 1 := by omega
  rw [shifted, List.getElem?_cons_succ, List.getElem?_drop]

/-- The scan notes exactly the visible characters outside the tokens. -/
theorem mem_skipped_scanFrom (pos : Nat) (cs : List Char) (i : Nat) (c : Char) :
    (pos + i, c) ∈ (scanFrom pos cs).skipped ↔ cs[i]? = some c ∧ Text.isBlank c = false ∧
      ∀ t ∈ (scanFrom pos cs).tokens, ¬ t.Covers (pos + i) := by
  fun_induction scanFrom pos cs generalizing i with
  | case1 pos => simp
  | case2 pos d rest p after blank ih =>
    obtain ⟨isBlank, single⟩ := piece_of_blank (n := p.2) (Prod.ext blank rfl)
    by_cases here : i < p.2 + 1
    · -- The blank itself is not noted.
      obtain rfl : i = 0 := by omega
      have outside := not_covers_of_lt (Nat.add_lt_add_left here pos) (rest.drop p.2) c
      refine ⟨fun noted => absurd noted outside.2, ?_⟩
      rintro ⟨found, visible, -⟩
      obtain rfl : d = c := by simpa using found
      rw [isBlank] at visible
      cases visible
    · obtain ⟨j, rfl⟩ := Nat.exists_eq_add_of_le (Nat.le_of_not_lt here)
      rw [getElem?_cons_drop, ← Nat.add_assoc]
      exact ih j
  | case3 pos d rest p after kind found ih =>
    have fits : p.2 ≤ rest.length := le_length_of_piece (Prod.ext found rfl)
    have length : (String.ofList (d :: rest.take p.2)).length = p.2 + 1 := by
      rw [String.length_ofList, List.length_cons, List.length_take, Nat.min_eq_left fits]
    by_cases here : i < p.2 + 1
    · -- The new token covers the offset.
      have outside := not_covers_of_lt (Nat.add_lt_add_left here pos) (rest.drop p.2) c
      refine ⟨fun noted => absurd noted outside.2, ?_⟩
      rintro ⟨-, -, uncovered⟩
      refine absurd ?_ (uncovered _ List.mem_cons_self)
      rw [Covers, length]
      exact ⟨Nat.le_add_right pos i, Nat.add_lt_add_left here pos⟩
    · obtain ⟨j, rfl⟩ := Nat.exists_eq_add_of_le (Nat.le_of_not_lt here)
      have behind : ¬ Covers ⟨kind, String.ofList (d :: rest.take p.2), pos⟩
          (pos + (p.2 + 1) + j) := by
        rintro ⟨-, inside⟩
        simp only [length] at inside
        omega
      rw [getElem?_cons_drop, ← Nat.add_assoc, List.forall_mem_cons]
      simp only [behind, not_false_eq_true, true_and]
      exact ih j
  | case4 pos d rest p after unknown ih =>
    obtain ⟨isVisible, single⟩ := piece_of_unknown (n := p.2) (Prod.ext unknown rfl)
    by_cases here : i < p.2 + 1
    · -- The unknown character itself is noted.
      obtain rfl : i = 0 := by omega
      have outside := not_covers_of_lt (Nat.add_lt_add_left here pos) (rest.drop p.2) c
      constructor
      · intro noted
        rcases List.mem_cons.mp noted with same | later
        · obtain rfl : c = d := congrArg Prod.snd same
          exact ⟨rfl, isVisible, outside.1⟩
        · exact absurd later outside.2
      · rintro ⟨found, -, -⟩
        obtain rfl : d = c := by simpa using found
        exact List.mem_cons_self
    · obtain ⟨j, rfl⟩ := Nat.exists_eq_add_of_le (Nat.le_of_not_lt here)
      rw [getElem?_cons_drop, ← Nat.add_assoc, List.mem_cons]
      have apart : (pos + (p.2 + 1) + j, c) ≠ (pos, d) := by
        intro same
        have offset := congrArg Prod.fst same
        simp only at offset
        omega
      simp only [apart, false_or]
      exact ih j

theorem mem_skipped_iff : (p, c) ∈ (scan s).skipped ↔ Stray s p c := by
  have noted := mem_skipped_scanFrom 0 (normalize s).toList p c
  rwa [Nat.zero_add] at noted

theorem skipped_eq_nil_iff : (scan s).skipped = [] ↔ ∀ p c, ¬ Stray s p c := by
  rw [List.eq_nil_iff_forall_not_mem]
  constructor
  · intro none p c stray
    exact none _ (mem_skipped_iff.mpr stray)
  · intro none e mem
    exact none e.1 e.2 (mem_skipped_iff.mp mem)

/-- The first character that a scan notes is the first stray one. -/
theorem head?_skipped_iff :
    (scan s).skipped.head? = some (p, c) ↔ FirstStray s p c := by
  have ascending : (scan s).skipped.Pairwise fun e e' => e.1 < e'.1 :=
    (pairwise_skipped 0 (normalize s).toList).2
  simp only [FirstStray, ← mem_skipped_iff]
  cases noted : (scan s).skipped with
  | nil => simp
  | cons first later =>
    rw [noted, List.pairwise_cons] at ascending
    rw [List.head?_cons, Option.some.injEq]
    constructor
    · rintro rfl
      refine ⟨List.mem_cons_self, fun p' c' mem => ?_⟩
      rcases List.mem_cons.mp mem with same | behind
      · exact Nat.le_of_eq (congrArg Prod.fst same).symm
      · exact Nat.le_of_lt (ascending.1 _ behind)
    · rintro ⟨mem, least⟩
      rcases List.mem_cons.mp mem with same | behind
      · exact same.symm
      · have before := ascending.1 _ behind
        have after := least first.1 first.2 List.mem_cons_self
        simp only at before
        omega

theorem text_of_isStop (pos : Nat) (cs : List Char) :
    ∀ t ∈ (scanFrom pos cs).tokens, t.isStop = true → t.text = "" := by
  fun_induction scanFrom pos cs with
  | case1 pos => simp
  | case2 pos c rest p after blank ih => exact ih
  | case3 pos c rest p after kind found ih =>
    refine List.forall_mem_cons.mpr ⟨fun isStop => ?_, ih⟩
    obtain rfl : kind = .stop := of_decide_eq_true isStop
    exact absurd found piece_ne_stop
  | case4 pos c rest p after unknown ih => exact ih

/-- If nothing is noted, a text that is not blank has a token before the end mark. -/
theorem exists_token_of_visible (visible : Text.isAllBlank s = false)
    (clean : (scan s).skipped = []) : ∃ t ∈ tokenize s, t.isStop = false := by
  obtain ⟨c, mem, visible⟩ := Text.exists_visible_normalize visible
  obtain ⟨i, found⟩ := List.getElem?_of_mem mem
  apply Classical.byContradiction
  intro none
  refine skipped_eq_nil_iff.mp clean i c ⟨found, visible, fun t listed covers => ?_⟩
  refine none ⟨t, listed, Bool.eq_false_iff.mpr fun isStop => ?_⟩
  -- An end mark has no characters, so it covers nothing.
  have text := text_of_isStop 0 (normalize s).toList t listed isStop
  obtain ⟨start, inside⟩ := covers
  rw [text, String.length_empty] at inside
  omega

end Token

end Sentential
