import Mathlib.Data.List.Find
import Sentential.Proofs.Analysis.Diagnostics
import Sentential.Proofs.Parse.Families

/-!
# Spelling does not matter

A formula can be typed in many ways: an operator has several spellings, letters may be of either
case, brackets of any family, and between the words stand any blanks. As long as a blank stands
behind every operator and every name, a text is scanned as the tokens that it was typed for: no
spelling contains a blank, so none is found across one, and each is found whole, since the longest
spelling wins. Families are told apart by the linter only, and it passes what the parser parses.

## Main definitions

* `Token.Respells` — a text is another spelling of some tokens

## Main results

* `Token.operator?_append` — an operator in front of a blank is found by its own spelling
* `Token.Respells.exists_scan_eq` — a respelled text is scanned as its tokens
* `Analysis.respelling_irrelevant` — a respelled text is read as the same expression
-/

namespace Sentential

open Text (isBlank isAllBlank upperAscii upperChar upperChars trimStart trimEnd)

/-! ### Upper case -/

namespace Text

variable {c : Char} {cs word : List Char}

/-- All blanks. -/
def blanks : List Char :=
  blankRanges.flatMap fun r => (List.range' r.1 (r.2 + 1 - r.1)).map Char.ofNat

theorem mem_blanks (blank : isBlank c = true) : c ∈ blanks := by
  obtain ⟨r, mem, low, high⟩ := isBlank_iff.mp blank
  refine List.mem_flatMap.mpr ⟨r, mem, List.mem_map.mpr ⟨c.toNat, ?_, Char.ofNat_toNat c⟩⟩
  rw [List.mem_range'_1]
  omega

theorem upperChar_of_blank (blank : isBlank c = true) : upperChar c = [c] := by
  have kept : blanks.all (fun c => upperChar c == [c]) = true := by decide +kernel
  exact beq_iff_eq.mp (List.all_eq_true.mp kept c (mem_blanks blank))

/-- A word in upper case may be typed with its ASCII letters in either case. -/
theorem upperChars_of_map_upperAscii (kept : ∀ c ∈ word, upperChar c = [c])
    (same : cs.map upperAscii = word) : upperChars cs = word := by
  induction cs generalizing word with
  | nil => exact same
  | cons c cs ih =>
    subst same
    rw [List.map_cons, List.forall_mem_cons] at kept
    have front : upperChar c = [upperAscii c] := by
      by_cases ascii : c.toNat < 128
      · rw [upperChar, if_pos ascii]
      · -- Outside ASCII the character is the one of the word.
        have plain : ¬ ('a' ≤ c ∧ c ≤ 'z') := by
          intro range
          have below : c.toNat ≤ 122 := range.2
          omega
        have same : upperAscii c = c := if_neg plain
        rw [same] at kept ⊢
        exact kept.1
    rw [upperChars, List.flatMap_cons, front]
    exact congrArg (upperAscii c :: ·) (ih kept.2 rfl)

end Text

namespace Token

variable {c : Char} {rest cs word u : List Char} {kind : Kind} {opened : List Bracket}
variable {t t' : Token} {ts : List Token} {s : String}

/-- The word spells the token: an operator in one of its spellings, or a name. -/
def IsSpelling (t : Token) (word : List Char) : Prop :=
  (word, t.kind) ∈ spellings ∨ t.kind = .name ∧ word = t.text.toList

/-- Nothing but a blank stands in front. -/
def BeforeBlank (cs : List Char) : Prop := ∀ c ∈ cs.head?, isBlank c = true

/-- The characters are another spelling of the tokens: words as `read` reads them, with a blank
behind, and each pair of brackets in a family of its own. The families given are those of the pairs
that are open at the start, the innermost first; all of them are closed in the end. -/
inductive Respells (read : List Char → List Char) :
    List Bracket → List Token → List Char → Prop
  | nil : Respells read [] [] []
  | blank {opened : List Bracket} {ts : List Token} {c : Char} {cs : List Char}
      (isBlank : isBlank c = true) (respells : Respells read opened ts cs) :
      Respells read opened ts (c :: cs)
  | word {opened : List Bracket} {t : Token} {ts : List Token} {word cs : List Char}
      (spelling : t.IsSpelling (read word)) (before : BeforeBlank cs)
      (respells : Respells read opened ts cs) : Respells read opened (t :: ts) (word ++ cs)
  | constant {opened : List Bracket} {t : Token} {ts : List Token} {c : Char} {cs : List Char}
      {value : Bool} (hkind : t.kind = .constant value) (signed : t.kind.sign? = some c)
      (respells : Respells read opened ts cs) : Respells read opened (t :: ts) (c :: cs)
  | opening {opened : List Bracket} {t : Token} {ts : List Token} {cs : List Char}
      {bracket family : Bracket} {c : Char} (hkind : t.kind = .opening bracket)
      (signed : (Kind.opening family).sign? = some c)
      (respells : Respells read (family :: opened) ts cs) : Respells read opened (t :: ts) (c :: cs)
  | closing {opened : List Bracket} {t : Token} {ts : List Token} {cs : List Char}
      {bracket family : Bracket} {c : Char} (hkind : t.kind = .closing bracket)
      (signed : (Kind.closing family).sign? = some c)
      (respells : Respells read opened ts cs) : Respells read (family :: opened) (t :: ts) (c :: cs)

theorem beforeBlank_cons (blank : isBlank c = true) : BeforeBlank (c :: rest) := by
  simpa [BeforeBlank]

theorem BeforeBlank.upperChars (before : BeforeBlank cs) : BeforeBlank (upperChars cs) := by
  cases cs with
  | nil => exact before
  | cons c rest =>
    rw [Text.upperChars_cons_of_eq (Text.upperChar_of_blank (before c rfl))]
    exact before

/-- What is a respelling up to case is one in upper case. -/
theorem Respells.upperChars (respells : Respells upperChars opened ts cs) :
    Respells id opened ts (upperChars cs) := by
  induction respells with
  | nil => exact .nil
  | blank isBlank _ ih =>
    rw [Text.upperChars_cons_of_eq (Text.upperChar_of_blank isBlank)]
    exact .blank isBlank ih
  | word spelling before _ ih =>
    rw [Text.upperChars_append]
    exact .word spelling before.upperChars ih
  | constant hkind signed _ ih =>
    rw [Text.upperChars_cons_of_eq (upperChar_of_sign signed)]
    exact .constant hkind signed ih
  | opening hkind signed _ ih =>
    rw [Text.upperChars_cons_of_eq (upperChar_of_sign signed)]
    exact .opening hkind signed ih
  | closing hkind signed _ ih =>
    rw [Text.upperChars_cons_of_eq (upperChar_of_sign signed)]
    exact .closing hkind signed ih

/-! ### Words -/

theorem upperChar_spellings : ∀ s ∈ spellings, ∀ c ∈ s.1, upperChar c = [c] := by
  have each : spellings.all (fun s => s.1.all fun c => upperChar c == [c]) = true := by
    decide +kernel
  simpa only [List.all_eq_true, beq_iff_eq] using each

theorem isOperator_spellings : ∀ s ∈ spellings, s.2.isOperator = true := by decide

/-- A spelling without blanks does not end behind a blank. -/
theorem isPrefixOf_append (visible : ∀ c ∈ u, isBlank c = false) (before : BeforeBlank cs)
    (word : List Char) : u.isPrefixOf (word ++ cs) = u.isPrefixOf word := by
  induction u generalizing word with
  | nil => rfl
  | cons c u ih =>
    rw [List.forall_mem_cons] at visible
    cases word with
    | cons d word => rw [List.cons_append, List.isPrefixOf, List.isPrefixOf, ih visible.2]
    | nil =>
      cases cs with
      | nil => rfl
      | cons d cs =>
        have apart : c ≠ d := by
          rintro rfl
          rw [before c rfl] at visible
          cases visible.1
        simp [List.isPrefixOf, apart]

/-- In front of a blank, the longest spelling is the one that ends there. -/
theorem operator?_append (listed : (word, kind) ∈ spellings) (before : BeforeBlank cs) :
    operator? (word ++ cs) = some (word, kind) := by
  have alone : ∀ s ∈ spellings, operator? s.1 = some s := by decide
  rw [← alone _ listed, operator?, operator?]
  exact List.find?_congr fun s mem => isPrefixOf_append (visible_spellings s mem).2 before word

theorem BeforeBlank.apart (before : BeforeBlank cs) : Apart cs := by
  intro c mem
  refine Bool.eq_false_iff.mpr fun continues => ?_
  have visible := isBlank_of_continuesName continues
  rw [before c mem] at visible
  cases visible

theorem IsSpelling.visible (spelling : t.IsSpelling word)
    (named : t.isName = true → spellsName t.text = true) :
    word ≠ [] ∧ ∀ c ∈ word, isBlank c = false := by
  rcases spelling with listed | ⟨hkind, rfl⟩
  · exact visible_spellings _ listed
  · have spelled := named (decide_eq_true hkind)
    obtain ⟨letter, digits, cut, -, -⟩ := spellsName_iff.mp spelled
    refine ⟨by simp [cut], fun c mem => ?_⟩
    exact isBlank_of_continuesName (continuesName_of_spellsName spelled c mem)

/-- ASCII letters of either case spell the same word. -/
theorem IsSpelling.of_map_upperAscii (spelling : t.IsSpelling (cs.map upperAscii))
    (named : t.isName = true → spellsName t.text = true) :
    t.IsSpelling (Text.upperChars cs) := by
  rw [Text.upperChars_of_map_upperAscii ?_ rfl]
  · exact spelling
  · rcases spelling with listed | ⟨hkind, cut⟩
    · exact upperChar_spellings _ listed
    · rw [cut]
      exact upperChar_of_spellsName (named (decide_eq_true hkind))

/-- A word in front of a blank is scanned as its token. -/
theorem IsSpelling.piece_eq (spelling : t.IsSpelling (c :: word))
    (named : t.isName = true → spellsName t.text = true) (before : BeforeBlank cs) :
    piece c (word ++ cs) = (.token t.kind, word.length) := by
  rcases spelling with listed | ⟨hkind, cut⟩
  · have visible := (visible_spellings _ listed).2 c List.mem_cons_self
    have found := operator?_append listed before
    rw [List.cons_append] at found
    simp only [piece, visible, found]
    rfl
  · obtain ⟨letter, digits, cut', isLetter, areDigits⟩ :=
      spellsName_iff.mp (named (decide_eq_true hkind))
    obtain ⟨rfl, rfl⟩ := List.cons.inj (cut.trans cut')
    rw [hkind]
    exact piece_of_name isLetter areDigits before.apart

theorem word_eq_of_kind_eq (unnamed : t.kind ≠ .name) (same : t'.kind = t.kind) :
    t'.word = t.word :=
  ((word_eq_iff unnamed).mpr same).trans ((word_eq_iff unnamed).mpr rfl).symm

theorem IsSpelling.word_eq (spelling : t.IsSpelling word) (pos : Nat) :
    Token.word ⟨t.kind, String.ofList word, pos⟩ = t.word := by
  rcases spelling with listed | ⟨hkind, rfl⟩
  · have operator := isOperator_spellings _ listed
    refine word_eq_of_kind_eq (fun hkind => ?_) rfl
    rw [hkind] at operator
    cases operator
  · rw [String.ofList_toList, word, word, isName, isName, hkind]

theorem IsSpelling.unbracketed (spelling : t.IsSpelling word) :
    t.kind.isOpening = false ∧ t.kind.isClosing = false := by
  rcases spelling with listed | ⟨hkind, -⟩
  · have operator := isOperator_spellings _ listed
    cases hkind : t.kind with
    | negation | binary => exact ⟨rfl, rfl⟩
    | name | constant | opening | closing | stop =>
      rw [hkind] at operator
      cases operator
  · rw [hkind]
    exact ⟨rfl, rfl⟩

/-! ### Scanning -/

/-- A text in upper case that respells some tokens is scanned as their words, from any offset. -/
theorem Respells.exists_scanFrom_eq (respells : Respells id opened ts cs)
    (named : ∀ t ∈ ts, t.isName = true → spellsName t.text = true) (pos : Nat) :
    ∃ body stop, scanFrom pos cs = ⟨body ++ [stop], []⟩ ∧ stop.isStop = true ∧
      Rebracketed opened ts body := by
  -- A sign is one character, which is a token of its own.
  have scan_sign : ∀ {c : Char} {cs : List Char} {kind : Kind} {pos : Nat} {body : List Token}
      {stop : Token}, kind.sign? = some c → scanFrom (pos + 1) cs = ⟨body ++ [stop], []⟩ →
      scanFrom pos (c :: cs) = ⟨(⟨kind, String.ofList [c], pos⟩ :: body) ++ [stop], []⟩ := by
    intro c cs kind pos body stop signed scanned
    rw [scanFrom_of_token pos (piece_of_sign signed cs), List.drop_zero, scanned]
    rfl
  induction respells generalizing pos with
  | nil => exact ⟨[], ⟨.stop, "", pos⟩, scanFrom_nil pos, rfl, .nil⟩
  | @blank _ _ c cs isBlank _ ih =>
    have front : piece c cs = (.blank, 0) := if_pos isBlank
    obtain ⟨body, stop, scanned, marked, rebracketed⟩ := ih named (pos + 1)
    exact ⟨body, stop, by rw [scanFrom, front]; exact scanned, marked, rebracketed⟩
  | @word _ t _ word cs spelling before _ ih =>
    rw [List.forall_mem_cons] at named
    obtain ⟨c, rest, rfl⟩ := List.exists_cons_of_ne_nil (spelling.visible named.1).1
    obtain ⟨body, stop, scanned, marked, rebracketed⟩ := ih named.2 (pos + (rest.length + 1))
    refine ⟨⟨t.kind, String.ofList (c :: rest), pos⟩ :: body, stop, ?_, marked,
      .plain spelling.unbracketed.1 spelling.unbracketed.2 (spelling.word_eq pos) rebracketed⟩
    rw [List.cons_append, scanFrom_of_token pos (spelling.piece_eq named.1 before),
      List.drop_left, scanned, List.take_left]
    rfl
  | @constant _ t _ c _ _ hkind signed _ ih =>
    obtain ⟨body, stop, scanned, marked, rebracketed⟩ :=
      ih (List.forall_mem_cons.mp named).2 (pos + 1)
    refine ⟨⟨t.kind, String.ofList [c], pos⟩ :: body, stop, scan_sign signed scanned, marked,
      .plain ?_ ?_ (word_eq_of_kind_eq ?_ rfl) rebracketed⟩ <;> simp [hkind, Kind.isOpening,
        Kind.isClosing]
  | opening hkind signed _ ih =>
    obtain ⟨body, stop, scanned, marked, rebracketed⟩ :=
      ih (List.forall_mem_cons.mp named).2 (pos + 1)
    exact ⟨_ :: body, stop, scan_sign signed scanned, marked, .opening hkind rfl rebracketed⟩
  | closing hkind signed _ ih =>
    obtain ⟨body, stop, scanned, marked, rebracketed⟩ :=
      ih (List.forall_mem_cons.mp named).2 (pos + 1)
    exact ⟨_ :: body, stop, scan_sign signed scanned, marked, .closing hkind rfl rebracketed⟩

theorem Respells.trimStart (respells : Respells id opened ts cs)
    (named : ∀ t ∈ ts, t.isName = true → spellsName t.text = true) :
    Respells id opened ts (trimStart cs) := by
  induction respells with
  | nil => exact .nil
  | blank isBlank _ ih =>
    rw [Text.trimStart, List.dropWhile_cons_of_pos isBlank]
    exact ih named
  | word spelling before respells _ =>
    have visible := spelling.visible (List.forall_mem_cons.mp named).1
    obtain ⟨c, rest, rfl⟩ := List.exists_cons_of_ne_nil visible.1
    rw [List.cons_append, trimStart_cons_of_visible (visible.2 c List.mem_cons_self),
      ← List.cons_append]
    exact .word spelling before respells
  | constant hkind signed respells _ =>
    rw [trimStart_cons_of_visible (isBlank_of_sign signed)]
    exact .constant hkind signed respells
  | opening hkind signed respells _ =>
    rw [trimStart_cons_of_visible (isBlank_of_sign signed)]
    exact .opening hkind signed respells
  | closing hkind signed respells _ =>
    rw [trimStart_cons_of_visible (isBlank_of_sign signed)]
    exact .closing hkind signed respells

theorem Respells.trimEnd (respells : Respells id opened ts cs)
    (named : ∀ t ∈ ts, t.isName = true → spellsName t.text = true) :
    Respells id opened ts (trimEnd cs) := by
  induction respells with
  | nil => exact .nil
  | blank isBlank _ ih =>
    rw [trimEnd_cons]
    split
    · rename_i blanks
      exact blanks.1 ▸ ih named
    · exact .blank isBlank (ih named)
  | @word _ _ _ word _ spelling before _ ih =>
    rw [List.forall_mem_cons] at named
    have visible : ∀ c ∈ word, isBlank c = false := (spelling.visible named.1).2
    rw [trimEnd_append_of_visible visible]
    exact .word spelling (fun c mem => before c (mem_head?_of_trimEnd mem)) (ih named.2)
  | constant hkind signed _ ih =>
    rw [trimEnd_cons_of_visible (isBlank_of_sign signed)]
    exact .constant hkind signed (ih (List.forall_mem_cons.mp named).2)
  | opening hkind signed _ ih =>
    rw [trimEnd_cons_of_visible (isBlank_of_sign signed)]
    exact .opening hkind signed (ih (List.forall_mem_cons.mp named).2)
  | closing hkind signed _ ih =>
    rw [trimEnd_cons_of_visible (isBlank_of_sign signed)]
    exact .closing hkind signed (ih (List.forall_mem_cons.mp named).2)

/-- A text that respells some tokens is scanned as their words, and nothing in it is skipped. -/
theorem Respells.exists_scan_eq (respells : Respells Text.upperChars opened ts s.toList)
    (named : ∀ t ∈ ts, t.isName = true → spellsName t.text = true) :
    ∃ body stop, scan s = ⟨body ++ [stop], []⟩ ∧ stop.isStop = true ∧
      Rebracketed opened ts body := by
  have normal := (respells.upperChars.trimStart named).trimEnd named
  rw [scan, normalize, Text.trim, Text.upper, String.toList_ofList, String.toList_ofList]
  exact normal.exists_scanFrom_eq named 0

/-- Every token has a visible character. -/
theorem Respells.exists_visible (respells : Respells id opened ts cs)
    (named : ∀ t ∈ ts, t.isName = true → spellsName t.text = true) (nonempty : ts ≠ []) :
    ∃ c ∈ cs, isBlank c = false := by
  induction respells with
  | nil => exact absurd rfl nonempty
  | blank _ _ ih =>
    obtain ⟨c, mem, visible⟩ := ih named nonempty
    exact ⟨c, List.mem_cons_of_mem _ mem, visible⟩
  | word spelling _ _ _ =>
    have visible := spelling.visible (List.forall_mem_cons.mp named).1
    obtain ⟨c, mem⟩ := List.exists_mem_of_ne_nil _ visible.1
    exact ⟨c, List.mem_append_left _ mem, visible.2 c mem⟩
  | constant _ signed _ _ | opening _ signed _ _ | closing _ signed _ _ =>
    exact ⟨_, List.mem_cons_self, isBlank_of_sign signed⟩

theorem Respells.isAllBlank_eq_false (respells : Respells Text.upperChars opened ts s.toList)
    (named : ∀ t ∈ ts, t.isName = true → spellsName t.text = true) (nonempty : ts ≠ []) :
    isAllBlank s = false := by
  refine Bool.eq_false_iff.mpr fun blank => ?_
  obtain ⟨c, mem, visible⟩ := respells.upperChars.exists_visible named nonempty
  obtain ⟨d, listed, mem⟩ := List.mem_flatMap.mp mem
  have isBlank := List.all_eq_true.mp blank d listed
  rw [Text.upperChar_of_blank isBlank, List.mem_singleton] at mem
  rw [mem, isBlank] at visible
  cases visible

end Token

namespace Analysis

open Token (Kind Respells tokenize)

/-- **Spelling does not matter.** Whatever the limits, type the tokens of a text that is read in any
other way: operators by any of their spellings, names by themselves, both in any case, pairs of
brackets in any family, with blanks between all of them and at the ends. The new text is read as the
same expression, with the same number and the same brackets on every node. -/
theorem respelling_irrelevant (limits : Limits) (s s' : String) (e : Expr)
    (read : readExpr (some s) limits = .ok e)
    (respells : Respells upperChars [] (tokenize s).dropLast s'.toList) :
    readExpr (some s') limits = .ok e := by
  obtain ⟨spells, admitted⟩ := readExpr_eq_ok_iff.mp read
  obtain ⟨-, -, p, parsed, root⟩ := spells_some_iff.mp spells
  obtain ⟨body, stop, cut, marked, unmarked⟩ := Token.exists_tokenize_eq s
  have named : ∀ t ∈ body, t.isName = true → Token.spellsName t.text = true := fun t mem =>
    Token.spellsName_of_mem_scanFrom 0 (Token.normalize s).toList t
      (by rw [← Token.scan, ← tokenize, cut]; exact List.mem_append_left _ mem)
  rw [cut] at parsed
  rw [cut, List.dropLast_concat] at respells
  obtain ⟨-, parsed⟩ := parseLinted_eq_ok_iff.mp parsed
  have nonempty : body ≠ [] := by
    rintro rfl
    obtain ⟨_, ⟨⟩, settled, -⟩ := (Expr.parse_append_eq_ok_iff unmarked marked).mp parsed
    cases settled
  obtain ⟨body', stop', scanned, marked', rebracketed⟩ := respells.exists_scan_eq named
  obtain ⟨unmarked', parsed'⟩ :=
    Expr.parse_of_rebracketed rebracketed unmarked marked marked' parsed
  refine readExpr_eq_ok_iff.mpr ⟨spells_some_iff.mpr
    ⟨respells.isAllBlank_eq_false named nonempty, by rw [scanned], p, ?_, root⟩, admitted⟩
  rw [tokenize, scanned]
  exact parseLinted_eq_ok_iff.mpr ⟨(Expr.lint_eq_none_iff unmarked' marked').mpr ⟨p, parsed'⟩,
    parsed'⟩

theorem respelling_irrelevant_wideBlanks :
    let e : Expr := .binary ⟨5, 0⟩ .implies (.binary ⟨3, 1⟩ .or (.not ⟨1, 0⟩ (.var ⟨0, 0⟩ "A2"))
      (.var ⟨2, 0⟩ "B")) (.const ⟨4, 0⟩ true)
    readExpr (some "[~A2 | b] -> 1") = .ok e ∧
      readExpr (some "\u2003( NoT a2\u3000oR B )\tIMPLIES\u00a01") = .ok e := by
  intro e
  have read : readExpr (some "[~A2 | b] -> 1") = .ok e := by decide +kernel
  have tokens : (tokenize "[~A2 | b] -> 1").dropLast =
      [⟨.opening .square, "[", 0⟩, ⟨.negation, "~", 1⟩, ⟨.name, "A2", 2⟩, ⟨.binary .or, "|", 5⟩,
        ⟨.name, "B", 7⟩, ⟨.closing .square, "]", 8⟩, ⟨.binary .implies, "->", 10⟩,
        ⟨.constant true, "1", 13⟩] := by decide +kernel
  have letters : "\u2003( NoT a2\u3000oR B )\tIMPLIES\u00a01".toList =
      ['\u2003', '(', ' ', 'N', 'o', 'T', ' ', 'a', '2', '\u3000', 'o', 'R', ' ', 'B', ' ', ')',
        '\t', 'I', 'M', 'P', 'L', 'I', 'E', 'S', '\u00a0', '1'] := by decide
  refine ⟨read, respelling_irrelevant .usual _ _ e read ?_⟩
  rw [tokens, letters]
  -- Every word is given with its letters, so that the rest can be read off the text.
  refine .blank (by decide) <| .opening rfl (rfl : (Kind.opening .paren).sign? = some '(') <|
    .blank (by decide) <| @Respells.word _ _ _ _ ['N', 'o', 'T'] _
      (Token.IsSpelling.of_map_upperAscii (Or.inl (by decide)) (by decide))
      (Token.beforeBlank_cons (by decide)) <|
    .blank (by decide) <| @Respells.word _ _ _ _ ['a', '2'] _
      (Token.IsSpelling.of_map_upperAscii (Or.inr (by decide)) (by decide))
      (Token.beforeBlank_cons (by decide)) <|
    .blank (by decide) <| @Respells.word _ _ _ _ ['o', 'R'] _ (Or.inl (by decide))
      (Token.beforeBlank_cons (by decide)) <|
    .blank (by decide) <| @Respells.word _ _ _ _ ['B'] _ (Or.inr (by decide))
      (Token.beforeBlank_cons (by decide)) <|
    .blank (by decide) <| .closing rfl (rfl : (Kind.closing .paren).sign? = some ')') <|
    .blank (by decide) <| @Respells.word _ _ _ _ ['I', 'M', 'P', 'L', 'I', 'E', 'S'] _
      (Or.inl (by decide)) (Token.beforeBlank_cons (by decide)) <|
    .blank (by decide) <| .constant rfl rfl .nil

end Analysis

end Sentential
