import Sentential.Proofs.Parse.Flatten
import Sentential.Proofs.Token.Scan

/-!
# Writing words

A list of words can be written in many ways; here each operator, bracket and constant is written
with its own sign, a name with its own characters, and spaces may stand between words. Scanning such
a text gives the words back and skips nothing. What must not happen is that two words run together:
only a name can be continued by what follows it, so behind a name there may be no letter and no
digit.

Neither upper case nor trimming changes what is written, so the same holds of whole formula texts.

## Main definitions

* `Token.spellsName` — a letter and the digits that follow it
* `Token.Kind.sign?` — the character that writes a word other than a name
* `Token.Written` — some characters write some words

## Main results

* `Token.Written.append` — texts of words can be joined where no name is continued
* `Token.Written.exists_scan_eq` — a written text is scanned as its words
-/

namespace Sentential

/-! ### Characters -/

namespace Text

variable {c : Char}

theorem isAsciiDigit_iff : isAsciiDigit c = true ↔ 48 ≤ c.toNat ∧ c.toNat ≤ 57 := by
  simp only [isAsciiDigit, Bool.and_eq_true, decide_eq_true_eq]
  exact Iff.rfl

theorem upperChar_of_lt (low : c.toNat < 97) : upperChar c = [c] := by
  have plain : ¬ ('a' ≤ c ∧ c ≤ 'z') := by
    intro range
    have above : 97 ≤ c.toNat := range.1
    omega
  rw [upperChar, if_pos (by omega), upperAscii, if_neg plain]

theorem upperChars_append (cs cs' : List Char) :
    upperChars (cs ++ cs') = upperChars cs ++ upperChars cs' :=
  List.flatMap_append

/-- A character that stays in upper case. -/
theorem upperChars_cons_of_eq (kept : upperChar c = [c]) (cs : List Char) :
    upperChars (c :: cs) = c :: upperChars cs := by
  rw [upperChars, List.flatMap_cons, kept]
  rfl

theorem upperChars_eq_self {cs : List Char} (kept : ∀ c ∈ cs, upperChar c = [c]) :
    upperChars cs = cs := by
  induction cs with
  | nil => rfl
  | cons c cs ih =>
    rw [List.forall_mem_cons] at kept
    rw [upperChars_cons_of_eq kept.1, ih kept.2]

end Text

namespace Token

open Text (isBlank isAsciiDigit upperChar upperChars trimStart trimEnd trimChars)

variable {c letter : Char} {rest cs cs' digits : List Char} {ws ws' : List Word} {kind : Kind}
variable {name s : String}

theorem isLetter_iff : isLetter c = true ↔ 65 ≤ c.toNat ∧ c.toNat ≤ 90 := by
  simp only [isLetter, Bool.and_eq_true, decide_eq_true_eq]
  exact Iff.rfl

/-- The text of a name: one letter and any number of digits. -/
def spellsName (s : String) : Bool :=
  match s.toList with
  | [] => false
  | c :: digits => isLetter c && digits.all isAsciiDigit

theorem spellsName_iff : spellsName name = true ↔
    ∃ letter digits, name.toList = letter :: digits ∧ isLetter letter = true ∧
      ∀ d ∈ digits, isAsciiDigit d = true := by
  unfold spellsName
  split
  · rename_i empty
    simp [empty]
  · rename_i letter digits cut
    rw [Bool.and_eq_true, List.all_eq_true]
    constructor
    · intro spelled
      exact ⟨letter, digits, cut, spelled⟩
    · rintro ⟨letter', digits', cut', spelled⟩
      rw [cut] at cut'
      cases cut'
      exact spelled

/-- A letter or a digit, which would continue a name. -/
def continuesName (c : Char) : Bool := isLetter c || isAsciiDigit c

/-- Nothing that continues a name stands in front. -/
def Apart (cs : List Char) : Prop := ∀ c ∈ cs.head?, continuesName c = false

theorem apart_nil : Apart [] := by simp [Apart]

theorem apart_cons (ends : continuesName c = false) : Apart (c :: rest) := by simpa [Apart]

theorem Apart.append (apart : Apart cs) (apart' : Apart cs') : Apart (cs ++ cs') := by
  cases cs with
  | nil => exact apart'
  | cons c rest => exact apart

theorem continuesName_of_spellsName (spelled : spellsName name = true) :
    ∀ c ∈ name.toList, continuesName c = true := by
  obtain ⟨letter, digits, cut, isLetter, areDigits⟩ := spellsName_iff.mp spelled
  intro c mem
  rw [cut, List.mem_cons] at mem
  rcases mem with rfl | mem
  · simp [continuesName, isLetter]
  · simp [continuesName, areDigits c mem]

theorem upperChar_of_spellsName (spelled : spellsName name = true) :
    ∀ c ∈ name.toList, upperChar c = [c] := by
  intro c mem
  have continues := continuesName_of_spellsName spelled c mem
  rw [continuesName, Bool.or_eq_true, isLetter_iff, Text.isAsciiDigit_iff] at continues
  exact Text.upperChar_of_lt (by omega)

theorem isBlank_of_continuesName (continues : continuesName c = true) : isBlank c = false := by
  have range : 48 ≤ c.toNat ∧ c.toNat ≤ 90 := by
    rw [continuesName, Bool.or_eq_true, isLetter_iff, Text.isAsciiDigit_iff] at continues
    omega
  simp only [isBlank, Text.blankRanges, List.any_cons, List.any_nil, Bool.or_false,
    Bool.or_eq_false_iff, Bool.and_eq_false_iff, decide_eq_false_iff_not]
  omega

theorem isBlank_of_letter (hletter : isLetter c = true) : isBlank c = false :=
  isBlank_of_continuesName (by simp [continuesName, hletter])

/-! ### Signs -/

/-- The character that writes a word, unless it is a name. -/
def Kind.sign? : Kind → Option Char
  | .name | .stop => none
  | .constant value => some (if value then '1' else '0')
  | .negation => some negationSign
  | .binary op => some op.sign
  | .opening bracket => some bracket.opener
  | .closing bracket => some bracket.closer

/-- The characters that write words other than names, with their words. -/
def signs : List (Char × Kind) :=
  [('0', .constant false), ('1', .constant true), (negationSign, .negation)] ++
    Connective.all.map (fun op => (op.sign, .binary op)) ++
    Bracket.all.map (fun b => (b.opener, .opening b)) ++
    Bracket.all.map (fun b => (b.closer, .closing b))

theorem mem_signs (signed : kind.sign? = some c) : (c, kind) ∈ signs := by
  cases kind with
  | name | stop => cases signed
  | constant value => cases value <;> cases signed <;> decide
  | negation => cases signed; decide
  | binary op => cases op <;> cases signed <;> decide
  | opening bracket => cases bracket <;> cases signed <;> decide
  | closing bracket => cases bracket <;> cases signed <;> decide

/-- A sign is scanned as its word, whatever follows. -/
theorem piece_of_sign (signed : kind.sign? = some c) (rest : List Char) :
    piece c rest = (.token kind, 0) := by
  have scanned : ∀ s ∈ signs, piece s.1 rest = (.token s.2, 0) := by
    simp only [signs, Connective.all, Bracket.all, List.map_cons, List.map_nil, List.cons_append,
      List.nil_append, List.forall_mem_cons, List.not_mem_nil, false_imp_iff, implies_true,
      and_true]
    refine ⟨?_, ?_, ?_, ?_, ?_, ?_, ?_, ?_, ?_, ?_, ?_, ?_, ?_, ?_⟩ <;> rfl
  exact scanned _ (mem_signs signed)

theorem upperChar_of_sign (signed : kind.sign? = some c) : upperChar c = [c] := by
  have kept : ∀ s ∈ signs, upperChar s.1 = [s.1] := by decide +kernel
  exact kept _ (mem_signs signed)

theorem isBlank_of_sign (signed : kind.sign? = some c) : isBlank c = false := by
  have visible : ∀ s ∈ signs, isBlank s.1 = false := by decide
  exact visible _ (mem_signs signed)

/-! ### Spellings -/

theorem visible_spellings : ∀ s ∈ spellings, s.1 ≠ [] ∧ ∀ c ∈ s.1, isBlank c = false := by
  have each : spellings.all (fun s => !s.1.isEmpty && s.1.all fun c => !isBlank c) = true := by
    decide
  simpa only [List.all_eq_true, Bool.and_eq_true, Bool.not_eq_true', List.isEmpty_eq_false_iff]
    using each

/-! ### Names -/

/-- Every spelling of an operator that begins with a letter goes on with a letter. -/
theorem spellings_two_letters : ∀ s ∈ spellings, s.1.head?.any isLetter = true →
    s.1.tail.head?.any isLetter = true := by decide

theorem operator?_of_letter (hletter : isLetter letter = true)
    (apart : ∀ c ∈ rest.head?, isLetter c = false) : operator? (letter :: rest) = none := by
  refine List.find?_eq_none.mpr fun s mem isPrefix => ?_
  obtain ⟨more, cut⟩ := List.isPrefixOf_iff_prefix.mp isPrefix
  -- The spelling begins with the letter, so its second letter would be the head of the rest.
  have two := spellings_two_letters s mem
  rcases hs : s.1 with _ | ⟨first, _ | ⟨second, tail⟩⟩ <;> rw [hs] at two cut
  · exact (visible_spellings s mem).1 hs
  · rw [List.cons_append, List.cons.injEq] at cut
    cases two (cut.1 ▸ hletter)
  · simp only [List.cons_append, List.cons.injEq] at cut
    have more : isLetter second = true := two (cut.1 ▸ hletter)
    rw [apart second (by rw [← cut.2]; rfl)] at more
    cases more

theorem bracket?_of_letter (hletter : isLetter letter = true) : bracket? letter = none := by
  have range := isLetter_iff.mp hletter
  have other : ∀ b : Bracket, (b.opener == letter) = false ∧ (b.closer == letter) = false := by
    intro b
    constructor <;> refine beq_eq_false_iff_ne.mpr ?_ <;> rintro rfl <;> cases b <;>
      exact absurd hletter (by decide)
  simp [bracket?, Bracket.all, other]

theorem constant?_of_letter (hletter : isLetter letter = true) : constant? letter = none := by
  have notZero : letter ≠ '0' := by rintro rfl; exact absurd hletter (by decide)
  have notOne : letter ≠ '1' := by rintro rfl; exact absurd hletter (by decide)
  rw [constant?, if_neg notZero, if_neg notOne]

/-- A letter and digits are scanned as one name, if nothing continues it. -/
theorem piece_of_name (hletter : isLetter letter = true)
    (areDigits : ∀ d ∈ digits, isAsciiDigit d = true) (apart : Apart rest) :
    piece letter (digits ++ rest) = (.token .name, digits.length) := by
  have visible := isBlank_of_letter hletter
  have unlettered : ∀ c ∈ (digits ++ rest).head?, isLetter c = false := by
    intro c mem
    cases digits with
    | nil =>
      have ends := apart c mem
      simp only [continuesName, Bool.or_eq_false_iff] at ends
      exact ends.1
    | cons d digits =>
      obtain rfl : d = c := by simpa using mem
      have digit := Text.isAsciiDigit_iff.mp (areDigits d List.mem_cons_self)
      rw [Bool.eq_false_iff, ne_eq, isLetter_iff]
      omega
  have taken : (digits ++ rest).takeWhile isAsciiDigit = digits := by
    rw [List.takeWhile_append_of_pos areDigits]
    cases rest with
    | nil => simp
    | cons c rest =>
      have ends := apart c rfl
      simp only [continuesName, Bool.or_eq_false_iff] at ends
      rw [List.takeWhile_cons_of_neg (by simp [ends.2]), List.append_nil]
  simp only [piece, visible, operator?_of_letter hletter unlettered, bracket?_of_letter hletter,
    constant?_of_letter hletter, hletter, taken]
  rfl

/-- What is scanned as a name is a letter with digits. -/
theorem spellsName_of_piece {n : Nat} (front : piece c rest = (.token .name, n)) :
    spellsName (String.ofList (c :: rest.take n)) = true := by
  have unnamed : ∀ s ∈ spellings, s.2 ≠ .name := by decide
  unfold piece at front
  split at front
  · cases front
  split at front
  · rename_i spelling found
    have named : spelling.2 = .name := by injection front with word; injection word
    exact absurd named (unnamed spelling (List.mem_of_find?_eq_some found))
  split at front
  · rename_i kind found
    obtain rfl : kind = .name := by injection front with word; injection word
    exact absurd rfl (kind_of_single found).2.1
  split at front
  · rename_i letter
    cases front
    refine spellsName_iff.mpr ⟨c, _, String.toList_ofList, letter, fun d mem => ?_⟩
    have digits := List.takeWhile_prefix (p := isAsciiDigit) (l := rest)
    rw [← List.prefix_iff_eq_take.mp digits] at mem
    exact List.all_eq_true.mp List.all_takeWhile d mem
  · cases front

theorem spellsName_of_mem_scanFrom (pos : Nat) (cs : List Char) :
    ∀ t ∈ (scanFrom pos cs).tokens, t.isName = true → spellsName t.text = true := by
  fun_induction scanFrom pos cs with
  | case1 pos => exact List.forall_mem_singleton.mpr fun isName => by cases isName
  | case2 pos c rest p after blank ih => exact ih
  | case3 pos c rest p after kind found ih =>
    refine List.forall_mem_cons.mpr ⟨fun isName => ?_, ih⟩
    obtain rfl : kind = .name := of_decide_eq_true isName
    exact spellsName_of_piece (Prod.ext found rfl)
  | case4 pos c rest p after unknown ih => exact ih

/-- The names in a text are letters with digits. -/
theorem spellsName_of_mem_names (s : String) :
    ∀ x ∈ names (tokenize s), spellsName x = true := by
  refine List.forall_mem_map.mpr fun t mem => ?_
  obtain ⟨listed, isName⟩ := List.mem_filter.mp mem
  exact spellsName_of_mem_scanFrom 0 (normalize s).toList t listed isName

/-! ### Texts of words -/

/-- The characters write the words, each with its own sign or name. -/
inductive Written : List Char → List Word → Prop
  | nil : Written [] []
  | space {cs : List Char} {ws : List Word} (written : Written cs ws) : Written (' ' :: cs) ws
  | sign {c : Char} {kind : Kind} {cs : List Char} {ws : List Word} (signed : kind.sign? = some c)
      (written : Written cs ws) : Written (c :: cs) (⟨kind, ""⟩ :: ws)
  | name {name : String} {cs : List Char} {ws : List Word} (spelled : spellsName name = true)
      (apart : Apart cs) (written : Written cs ws) :
      Written (name.toList ++ cs) (⟨.name, name⟩ :: ws)

/-- Two texts can be joined if the second does not continue a name. -/
theorem Written.append (written : Written cs ws) (written' : Written cs' ws') (apart : Apart cs') :
    Written (cs ++ cs') (ws ++ ws') := by
  induction written with
  | nil => exact written'
  | space _ ih => exact .space ih
  | sign signed _ ih => exact .sign signed ih
  | name spelled apartInside _ ih =>
    rw [List.append_assoc]
    exact .name spelled (apartInside.append apart) ih

theorem written_name (spelled : spellsName name = true) :
    Written name.toList [⟨.name, name⟩] := by
  simpa using Written.name spelled apart_nil .nil

theorem written_sign (signed : kind.sign? = some c) : Written [c] [⟨kind, ""⟩] :=
  .sign signed .nil

/-- A written text is scanned as its words, from any offset. -/
theorem Written.exists_scanFrom_eq (written : Written cs ws) (pos : Nat) :
    ∃ body stop, scanFrom pos cs = ⟨body ++ [stop], []⟩ ∧ stop.isStop = true ∧
      body.map word = ws := by
  induction written generalizing pos with
  | nil => exact ⟨[], ⟨.stop, "", pos⟩, scanFrom_nil pos, rfl, rfl⟩
  | @space cs ws _ ih =>
    have blank : piece ' ' cs = (.blank, 0) := rfl
    obtain ⟨body, stop, scanned, marked, words⟩ := ih (pos + 1)
    exact ⟨body, stop, by rw [scanFrom, blank]; exact scanned, marked, words⟩
  | @sign c kind cs ws signed _ ih =>
    obtain ⟨body, stop, scanned, marked, words⟩ := ih (pos + 1)
    have unnamed : kind ≠ .name := by rintro rfl; cases signed
    refine ⟨⟨kind, String.ofList [c], pos⟩ :: body, stop, ?_, marked, ?_⟩
    · rw [scanFrom_of_token pos (piece_of_sign signed cs), List.drop_zero, scanned]
      rfl
    · rw [List.map_cons, words, (word_eq_iff unnamed).mpr rfl]
  | @name name cs ws spelled apart _ ih =>
    obtain ⟨letter, digits, cut, hletter, areDigits⟩ := spellsName_iff.mp spelled
    obtain ⟨body, stop, scanned, marked, words⟩ := ih (pos + (digits.length + 1))
    have front := piece_of_name hletter areDigits apart
    refine ⟨⟨.name, name, pos⟩ :: body, stop, ?_, marked, ?_⟩
    · rw [cut, List.cons_append, scanFrom_of_token pos front, List.drop_left, scanned,
        List.take_left, ← cut, String.ofList_toList]
      rfl
    · rw [List.map_cons, words, word_eq_name_iff.mpr ⟨rfl, rfl⟩]

/-! ### Normalization -/

theorem Written.upperChars_eq (written : Written cs ws) : upperChars cs = cs := by
  induction written with
  | nil => rfl
  | space _ ih => rw [Text.upperChars_cons_of_eq (by decide), ih]
  | sign signed _ ih => rw [Text.upperChars_cons_of_eq (upperChar_of_sign signed), ih]
  | name spelled _ _ ih =>
    rw [Text.upperChars_append, Text.upperChars_eq_self (upperChar_of_spellsName spelled), ih]

/-- A character is trimmed from the end if it is blank and nothing is left behind it. -/
theorem trimStart_cons_of_visible (visible : isBlank c = false) :
    trimStart (c :: cs) = c :: cs := by
  rw [trimStart, List.dropWhile_cons_of_neg (by simp [visible])]

theorem trimEnd_cons (c : Char) (cs : List Char) :
    trimEnd (c :: cs) = if trimEnd cs = [] ∧ isBlank c = true then [] else c :: trimEnd cs := by
  rw [trimEnd, List.reverse_cons, List.dropWhile_append]
  by_cases empty : cs.reverse.dropWhile isBlank = []
  · cases blank : isBlank c <;> simp [trimEnd, empty, blank]
  · simp [trimEnd, empty]

theorem trimEnd_cons_of_visible (visible : isBlank c = false) :
    trimEnd (c :: cs) = c :: trimEnd cs := by
  simp [trimEnd_cons, visible]

theorem trimEnd_append_of_visible (visible : ∀ c ∈ cs, isBlank c = false) :
    trimEnd (cs ++ cs') = cs ++ trimEnd cs' := by
  induction cs with
  | nil => rfl
  | cons c cs ih =>
    rw [List.forall_mem_cons] at visible
    rw [List.cons_append, trimEnd_cons_of_visible visible.1, ih visible.2, List.cons_append]

/-- A text without blanks stays when it is trimmed. -/
theorem trimChars_eq_self (visible : ∀ c ∈ cs, isBlank c = false) : trimChars cs = cs := by
  have front : trimStart cs = cs := by
    cases cs with
    | nil => rfl
    | cons c rest => exact trimStart_cons_of_visible (visible c List.mem_cons_self)
  have back : trimEnd (cs ++ []) = cs ++ trimEnd [] := trimEnd_append_of_visible visible
  have empty : trimEnd [] = [] := rfl
  rw [List.append_nil, empty, List.append_nil] at back
  rw [trimChars, front, back]

/-- Trimming the end changes no first character. -/
theorem mem_head?_of_trimEnd (mem : c ∈ (trimEnd cs).head?) : c ∈ cs.head? := by
  cases cs with
  | nil => exact mem
  | cons d rest =>
    rw [trimEnd_cons] at mem
    split at mem
    · cases mem
    · exact mem

theorem Apart.trimEnd (apart : Apart cs) : Apart (trimEnd cs) :=
  fun c mem => apart c (mem_head?_of_trimEnd mem)

theorem Written.trimStart (written : Written cs ws) : Written (trimStart cs) ws := by
  induction written with
  | nil => exact .nil
  | space _ ih => exact ih
  | sign signed written _ =>
    rw [trimStart_cons_of_visible (isBlank_of_sign signed)]
    exact .sign signed written
  | @name name cs ws spelled apart written _ =>
    obtain ⟨letter, digits, cut, hletter, areDigits⟩ := spellsName_iff.mp spelled
    have kept : Text.trimStart (name.toList ++ cs) = name.toList ++ cs := by
      rw [cut, List.cons_append, trimStart_cons_of_visible (isBlank_of_letter hletter)]
    rw [kept]
    exact .name spelled apart written

theorem Written.trimEnd (written : Written cs ws) : Written (trimEnd cs) ws := by
  induction written with
  | nil => exact .nil
  | @space cs ws _ ih =>
    rw [trimEnd_cons]
    split
    · rename_i blanks
      exact blanks.1 ▸ ih
    · exact .space ih
  | sign signed _ ih =>
    rw [trimEnd_cons_of_visible (isBlank_of_sign signed)]
    exact .sign signed ih
  | name spelled apart _ ih =>
    have visible := fun c mem =>
      isBlank_of_continuesName (continuesName_of_spellsName spelled c mem)
    rw [trimEnd_append_of_visible visible]
    exact .name spelled apart.trimEnd ih

theorem Written.normalize (written : Written s.toList ws) : Written (normalize s).toList ws := by
  have trimmed := written.trimStart.trimEnd
  rwa [Token.normalize, Text.trim, Text.upper, String.toList_ofList, String.toList_ofList,
    written.upperChars_eq]

/-- A written text is scanned as its words, and nothing in it is skipped. -/
theorem Written.exists_scan_eq (written : Written s.toList ws) :
    ∃ body stop, scan s = ⟨body ++ [stop], []⟩ ∧ stop.isStop = true ∧ body.map word = ws :=
  written.normalize.exists_scanFrom_eq 0

end Token

end Sentential
