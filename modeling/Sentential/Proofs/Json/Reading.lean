import Mathlib.Data.List.Forall2
import Sentential.Json.Parser
import Sentential.Json.Printer
import Sentential.Proofs.Decimal.Numeral

/-!
# Compact JSON is read back

Compact JSON text, in front of whatever may end a value, is read as the value that was written: a
text comes back exactly, a double as some double, a list member by member, an object with distinct
names entry by entry. All control characters are escaped, so the text stands on one line.

## Main definitions

* `Json.Ends` — what may stand behind a value
* `Json.Printable` — a text without control characters
* `Json.Denotes` — such a text that is read as a datum
* `Json.ReadsAs` — the compact form of a datum is read as another one

## Main results

* `Json.readString_escaped` — an escaped text is read back
* `Json.readNumber_numeral`, `Json.exists_readsAs_float` — every double is read as a double
* `Json.readsAs_list`, `Json.readsAs_object` — lists and objects are read by their parts
* `Json.ReadsAs.parse_render` — the whole text
-/

namespace Sentential.Json

open Decimal (AreDigits IsWhole Numeral)

variable {c : Char} {cs ds rest : List Char} {d d' : Datum} {s : String}

/-! ### Strings -/

theorem hexUnit?_control :
    ∀ n < 0x20, hexUnit? '0' '0' (hexDigit (n / 16)) (hexDigit (n % 16)) = some n := by
  decide

theorem readUnits_plain (rest : List Char) (quote : c ≠ '"') (backslash : c ≠ '\\')
    (visible : ¬ c.toNat < 0x20) :
    readUnits (c :: rest) = (readUnits rest).map fun r => (c.toNat :: r.1, r.2) := by
  rw [readUnits.eq_def]
  split
  · contradiction
  · rename_i same
    exact absurd (List.cons.inj same).1 quote
  · rename_i same
    exact absurd (List.cons.inj same).1 backslash
  · rename_i same
    exact absurd (List.cons.inj same).1 backslash
  · rename_i same
    obtain ⟨rfl, rfl⟩ := List.cons.inj same
    rw [if_neg (by simp [backslash, visible])]

/-- An escaped character is read as its code point. -/
theorem readUnits_escapeChar (c : Char) (rest : List Char) :
    readUnits (escapeChar c ++ rest) = (readUnits rest).map fun r => (c.toNat :: r.1, r.2) := by
  unfold escapeChar
  -- Seven characters have escapes of their own.
  iterate 7
    split
    · rename_i same
      subst same
      rfl
  split
  · rename_i control
    simp only [List.cons_append, List.nil_append]
    rw [readUnits, hexUnit?_control _ control]
  · rename_i quote backslash _ _ _ _ _ visible
    exact readUnits_plain rest quote backslash visible

theorem readUnits_escaped (cs rest : List Char) :
    readUnits (cs.flatMap escapeChar ++ '"' :: rest) = some (cs.map Char.toNat, rest) := by
  induction cs with
  | nil => rfl
  | cons c cs ih =>
    rw [List.flatMap_cons, List.append_assoc, readUnits_escapeChar, ih]
    rfl

/-- No character is half a pair of units. -/
theorem isHighUnit_toNat (c : Char) : isHighUnit c.toNat = false := by
  have valid : c.toNat < 0xD800 ∨ 0xDFFF < c.toNat ∧ c.toNat < 0x110000 := c.valid
  simp only [isHighUnit, Bool.and_eq_false_iff, decide_eq_false_iff_not]
  omega

theorem joinUnits_map_toNat (cs : List Char) :
    joinUnits (cs.map Char.toNat) = cs.map Char.toNat := by
  induction cs with
  | nil => rfl
  | cons c cs ih =>
    cases cs with
    | nil => rfl
    | cons c' cs =>
      -- The first of two units is no half of a pair, so they stay apart.
      rw [List.map_cons, List.map_cons, joinUnits, isHighUnit_toNat, Bool.false_and]
      exact congrArg (c.toNat :: ·) ih

theorem ofCodes_map_toNat (cs : List Char) :
    Datum.ofCodes (cs.map Char.toNat) = .text (String.ofList cs) := by
  have valid : (cs.map Char.toNat).all Nat.isValidChar = true := by
    rw [List.all_map, List.all_eq_true]
    exact fun c _ => decide_eq_true c.valid
  rw [Datum.ofCodes, if_pos valid, List.map_map]
  congr
  exact List.map_id'' (fun c => Char.ofNat_toNat c) cs

/-- An escaped text is read back up to the closing quote. -/
theorem readString_escaped (s : String) (rest : List Char) :
    readString (s.toList.flatMap escapeChar ++ '"' :: rest) = some (.text s, rest) := by
  rw [readString, readUnits_escaped, Option.map_some, joinUnits_map_toNat, ofCodes_map_toNat,
    String.ofList_toList]

/-- No character is a control character. -/
def Printable (cs : List Char) : Prop := ∀ c ∈ cs, 0x20 ≤ c.toNat

instance : Decidable (Printable cs) := List.decidableBAll _ _

@[simp] theorem printable_cons : Printable (c :: cs) ↔ 0x20 ≤ c.toNat ∧ Printable cs :=
  List.forall_mem_cons

@[simp] theorem printable_append : Printable (cs ++ ds) ↔ Printable cs ∧ Printable ds :=
  List.forall_mem_append

theorem printable_escapeChar (c : Char) : Printable (escapeChar c) := by
  have hex : ∀ n < 16, 0x20 ≤ (hexDigit n).toNat := by decide
  have short : ∀ l ∈ [['\\', '"'], ['\\', '\\'], ['\\', 'n'], ['\\', 'r'], ['\\', 't'], ['\\', 'b'],
      ['\\', 'f']], Printable l := by decide
  unfold escapeChar
  iterate 7
    split
    · exact short _ (by simp)
  split
  · simp only [printable_cons]
    exact ⟨by decide, by decide, by decide, by decide, hex _ (by omega), hex _ (by omega),
      by decide⟩
  · rename_i visible
    exact printable_cons.mpr ⟨Nat.le_of_not_lt visible, by decide⟩

theorem printable_stringChars (s : String) : Printable (stringChars s) := by
  rw [stringChars, printable_cons, printable_append]
  refine ⟨by decide, fun c mem => ?_, by decide⟩
  obtain ⟨c', -, mem⟩ := List.mem_flatMap.mp mem
  exact printable_escapeChar c' c mem

/-! ### Numbers -/

/-- The value of a decimal digit. -/
def digitOf (c : Char) : Nat := c.toNat - '0'.toNat

/-- No digit comes first. -/
def Undigited (rest : List Char) : Prop := ∀ c ∈ rest.head?, Text.asciiDigit? c = none

theorem asciiDigit?_of_isDigit (digit : c.isDigit = true) :
    Text.asciiDigit? c = some (digitOf c) := by
  have range := Char.isDigit_iff_toNat.mp digit
  exact if_pos range

theorem ne_of_isDigit {c' : Char} (digit : c.isDigit = true) (other : c'.isDigit = false) :
    c ≠ c' := by
  rintro rfl
  rw [other] at digit
  cases digit

theorem spanDigits_append (digits : ∀ c ∈ ds, c.isDigit = true) (stops : Undigited rest) :
    spanDigits (ds ++ rest) = (ds.map digitOf, rest) := by
  induction ds with
  | nil =>
    cases rest with
    | nil => rfl
    | cons c rest => rw [List.nil_append, spanDigits, stops c rfl]; rfl
  | cons c ds ih =>
    rw [List.forall_mem_cons] at digits
    rw [List.cons_append, spanDigits, asciiDigit?_of_isDigit digits.1, ih digits.2]
    rfl

theorem eq_zero_of_digitOf_eq_zero (digit : c.isDigit = true) (zero : digitOf c = 0) : c = '0' := by
  have range := Char.isDigit_iff_toNat.mp digit
  exact Char.toNat_inj.mp (Nat.le_antisymm (Nat.sub_eq_zero_iff_le.mp zero) range.1)

theorem readWhole_append (isWhole : IsWhole cs) (stops : Undigited rest) :
    readWhole (cs ++ rest) = some (cs.map digitOf, rest) := by
  rw [readWhole, spanDigits_append isWhole.1.2 stops]
  cases cs with
  | nil => exact absurd rfl isWhole.1.1
  | cons c cs =>
    rw [List.map_cons]
    split
    · rename_i none
      cases (Prod.mk.inj none).1
    · -- A zero in front is the only digit.
      rename_i zero
      obtain ⟨zero, -⟩ := List.cons.inj (Prod.mk.inj zero).1
      obtain rfl := eq_zero_of_digitOf_eq_zero (isWhole.1.2 c List.mem_cons_self) zero
      obtain rfl := isWhole.2 cs rfl
      rfl
    · rename_i same
      exact congrArg some same.symm

theorem undigited_cons (other : Text.asciiDigit? c = none) (rest : List Char) :
    Undigited (c :: rest) := by
  rintro c' same
  cases Option.some.inj same
  exact other

theorem map_digitOf_ne_nil (areDigits : AreDigits cs) : cs.map digitOf ≠ [] := by
  rw [ne_eq, List.map_eq_nil_iff]
  exact areDigits.1

theorem readFraction_append (areDigits : AreDigits cs) (stops : Undigited rest) :
    readFraction ('.' :: (cs ++ rest)) = some (cs.map digitOf, rest) := by
  rw [readFraction, spanDigits_append areDigits.2 stops]
  split
  · rename_i none
    exact absurd (Prod.mk.inj none).1 (map_digitOf_ne_nil areDigits)
  · rfl

theorem readFraction_of_head?_ne (other : rest.head? ≠ some '.') : readFraction rest = none := by
  rw [readFraction.eq_def]
  split
  · exact absurd rfl other
  · rfl

theorem exists_readExponent_append {sign : Char} (isSign : sign = '-' ∨ sign = '+')
    (areDigits : AreDigits cs) :
    ∃ e, ∀ rest, Undigited rest → readExponent ('e' :: sign :: (cs ++ rest)) = some (e, rest) := by
  have signed : ∃ negative, ∀ rest, Decimal.readSign (sign :: rest) = (negative, rest) := by
    rcases isSign with rfl | rfl
    · exact ⟨true, fun _ => rfl⟩
    · exact ⟨false, fun _ => rfl⟩
  obtain ⟨negative, signed⟩ := signed
  let n : Int := Decimal.digitsValue (cs.map digitOf)
  refine ⟨if negative then -n else n, fun rest stops => ?_⟩
  rw [readExponent, if_pos (Or.inl rfl), signed]
  dsimp only
  rw [spanDigits_append areDigits.2 stops]
  split
  · rename_i none
    exact absurd (Prod.mk.inj none).1 (map_digitOf_ne_nil areDigits)
  · rename_i same
    obtain ⟨rfl, rfl⟩ := Prod.mk.inj same
    rfl

theorem readExponent_of_head?_ne (small : rest.head? ≠ some 'e') (capital : rest.head? ≠ some 'E') :
    readExponent rest = none := by
  rw [readExponent.eq_def]
  split
  · rename_i c rest
    refine if_neg ?_
    rintro (rfl | rfl)
    · exact small rfl
    · exact capital rfl
  · rfl

/-- What may stand behind a value: nothing, or the end of a member, of a list or of an object. -/
def Ends (rest : List Char) : Prop := ∀ c ∈ rest.head?, c = ',' ∨ c = ']' ∨ c = '\x7d'

theorem Ends.undigited (ends : Ends rest) : Undigited rest := by
  intro c first
  rcases ends c first with rfl | rfl | rfl <;> rfl

theorem Ends.head?_ne (ends : Ends rest) (other : c ≠ ',' ∧ c ≠ ']' ∧ c ≠ '\x7d') :
    rest.head? ≠ some c := by
  intro first
  rcases ends c first with rfl | rfl | rfl <;> simp at other

/-- A numeral is read as a double, and nothing behind it is. -/
theorem exists_readNumber_numeral (negative : Bool) (numeral : Numeral cs) :
    ∃ x, ∀ rest, Ends rest → readNumber negative (cs ++ rest) = .ok (.float x, rest) := by
  cases numeral with
  | @fraction whole digits isWhole areDigits =>
    refine ⟨Decimal.ofParts negative (Decimal.digitsValue (whole.map digitOf ++ digits.map digitOf))
      (-(digits.map digitOf).length), fun rest ends => ?_⟩
    have noExponent : readExponent rest = none :=
      readExponent_of_head?_ne (ends.head?_ne (by decide)) (ends.head?_ne (by decide))
    rw [List.append_assoc, List.cons_append, readNumber,
      readWhole_append isWhole (undigited_cons rfl _)]
    dsimp only
    rw [readFraction_append areDigits ends.undigited]
    dsimp only [Option.elim]
    rw [noExponent]
  | @exponent whole digits sign isWhole isSign areDigits =>
    obtain ⟨e, exponent⟩ := exists_readExponent_append isSign areDigits
    refine ⟨Decimal.ofParts negative (Decimal.digitsValue (whole.map digitOf)) e,
      fun rest ends => ?_⟩
    rw [List.append_assoc, List.cons_append, List.cons_append, readNumber,
      readWhole_append isWhole (undigited_cons rfl _)]
    dsimp only
    rw [readFraction_of_head?_ne (by simp)]
    dsimp only [Option.elim]
    rw [exponent rest ends.undigited]
  | @both whole fraction digits sign isWhole areFraction isSign areDigits =>
    obtain ⟨e, exponent⟩ := exists_readExponent_append isSign areDigits
    refine ⟨Decimal.ofParts negative
      (Decimal.digitsValue (whole.map digitOf ++ fraction.map digitOf))
      (e - (fraction.map digitOf).length), fun rest ends => ?_⟩
    rw [List.append_assoc, List.cons_append, List.append_assoc, List.cons_append, List.cons_append,
      readNumber, readWhole_append isWhole (undigited_cons rfl _)]
    dsimp only
    rw [readFraction_append areFraction (undigited_cons rfl _)]
    dsimp only [Option.elim]
    rw [exponent rest ends.undigited]

/-- No word begins with a digit, or with a digit behind a minus. -/
theorem find?_words_of_isDigit (digit : c.isDigit = true) (rest : List Char) :
    words.find? (fun w => w.1.isPrefixOf (c :: rest)) = none ∧
      words.find? (fun w => w.1.isPrefixOf ('-' :: c :: rest)) = none := by
  have other {c' : Char} (letter : c'.isDigit = false) : (c' == c) = false :=
    beq_false_of_ne (ne_of_isDigit digit letter).symm
  have spelled : words = [
      (['n', 'u', 'l', 'l'], .null), (['t', 'r', 'u', 'e'], .bool true),
      (['f', 'a', 'l', 's', 'e'], .bool false), (['N', 'a', 'N'], .float (0.0 / 0.0)),
      (['I', 'n', 'f', 'i', 'n', 'i', 't', 'y'], .float (1.0 / 0.0)),
      (['-', 'I', 'n', 'f', 'i', 'n', 'i', 't', 'y'], .float (-(1.0 / 0.0)))] := rfl
  rw [spelled]
  simp [List.isPrefixOf, other]

/-- A numeral with an optional sign is read as a double. -/
theorem exists_readScalar_numeral {sign : List Char} (isSign : sign = [] ∨ sign = ['-'])
    (numeral : Numeral cs) :
    ∃ x, ∀ rest, Ends rest → readScalar (sign ++ cs ++ rest) = .ok (.float x, rest) := by
  obtain ⟨c, cs, rfl, digit⟩ := numeral.exists_cons
  rcases isSign with rfl | rfl
  · obtain ⟨x, reads⟩ := exists_readNumber_numeral false numeral
    refine ⟨x, fun rest ends => ?_⟩
    rw [← reads rest ends]
    rw [List.nil_append, List.cons_append, readScalar,
      (find?_words_of_isDigit digit (cs ++ rest)).1]
    exact fun _ same => ne_of_isDigit digit rfl (List.cons.inj same).1
  · obtain ⟨x, reads⟩ := exists_readNumber_numeral true numeral
    refine ⟨x, fun rest ends => ?_⟩
    rw [← reads rest ends]
    rw [List.cons_append, List.cons_append, List.nil_append, List.cons_append, readScalar,
      (find?_words_of_isDigit digit (cs ++ rest)).2]

/-! ### Values -/

/-- A text without control characters that is read as a datum wherever a value may stand. -/
structure Denotes (cs : List Char) (d : Datum) : Prop where
  /-- No white space and no closing bracket stands in front. -/
  starts : ∃ c rest, cs = c :: rest ∧ isSpace c = false ∧ c ≠ ']'
  /-- No character is a control character. -/
  printable : Printable cs
  /-- It is read up to its end. -/
  reads : ∀ fuel rest, cs.length ≤ fuel → Ends rest → readValue fuel (cs ++ rest) = .ok (d, rest)

/-- The compact form of a datum is read as another datum. -/
def ReadsAs (d d' : Datum) : Prop := ∀ level, Denotes (chars .compact level d) d'

theorem Denotes.skipSpace_append (denotes : Denotes cs d) (rest : List Char) :
    skipSpace (cs ++ rest) = cs ++ rest := by
  obtain ⟨c, cs, rfl, visible, -⟩ := denotes.starts
  exact List.dropWhile_cons_of_neg (by rw [visible]; decide)

/-- What a word or a number can begin with, as far as other values are concerned. -/
def BeginsScalar (c : Char) : Prop :=
  c ≠ '"' ∧ c ≠ '[' ∧ c ≠ '\x7b' ∧ isSpace c = false ∧ c ≠ ']'

instance : Decidable (BeginsScalar c) :=
  inferInstanceAs (Decidable (c ≠ '"' ∧ c ≠ '[' ∧ c ≠ '\x7b' ∧ isSpace c = false ∧ c ≠ ']'))

theorem beginsScalar_of_isDigit (digit : c.isDigit = true) : BeginsScalar c := by
  have other {c' : Char} : c'.isDigit = false → c ≠ c' := ne_of_isDigit digit
  refine ⟨other rfl, other rfl, other rfl, ?_, other rfl⟩
  simp only [isSpace, Bool.or_eq_false_iff, beq_eq_false_iff_ne]
  exact ⟨⟨⟨other rfl, other rfl⟩, other rfl⟩, other rfl⟩

/-- What is neither a string nor has members is read as a scalar. -/
theorem readValue_succ_of_beginsScalar (begins : BeginsScalar c) (fuel : Nat) (rest : List Char) :
    readValue (fuel + 1) (c :: rest) = readScalar (c :: rest) := by
  obtain ⟨quote, bracket, brace, -⟩ := begins
  rw [readValue]
  · exact fun _ same => quote (List.cons.inj same).1
  · exact fun _ same => bracket (List.cons.inj same).1
  · exact fun _ same => brace (List.cons.inj same).1

theorem denotes_of_readScalar (begins : BeginsScalar c) (printable : Printable (c :: cs))
    (reads : ∀ rest, Ends rest → readScalar (c :: cs ++ rest) = .ok (d, rest)) :
    Denotes (c :: cs) d where
  starts := ⟨c, cs, rfl, begins.2.2.2⟩
  printable := printable
  reads := by
    intro fuel rest enough ends
    obtain ⟨fuel, rfl⟩ := Nat.exists_eq_add_of_le' (Nat.one_le_of_lt enough)
    rw [List.cons_append, readValue_succ_of_beginsScalar begins]
    exact reads rest ends

theorem readsAs_null : ReadsAs .null .null := fun _ =>
  denotes_of_readScalar (by decide) (by decide) fun _ _ => rfl

/-- A text is read back. -/
theorem readsAs_text (s : String) : ReadsAs (.text s) (.text s) := fun _ => {
  starts := ⟨'"', _, rfl, by decide⟩
  printable := printable_stringChars s
  reads := by
    intro fuel rest enough _
    obtain ⟨fuel, rfl⟩ := Nat.exists_eq_add_of_le' (Nat.one_le_of_lt enough)
    rw [chars, stringChars, List.cons_append, List.append_assoc, readValue]
    dsimp only [List.cons_append, List.nil_append]
    rw [readString_escaped]
    rfl }

theorem printable_numeral (numeral : Numeral cs) : Printable cs := by
  have marks : Printable ['.', 'e', '-', '+'] := by decide
  intro c mem
  rcases numeral.isDigit_or_mem c mem with digit | mark
  · have range := Char.isDigit_iff_toNat.mp digit
    exact Nat.le_trans (by decide) range.1
  · exact marks c mark

/-- A numeral with an optional sign denotes a double. -/
theorem exists_denotes_numeral {sign : List Char} (isSign : sign = [] ∨ sign = ['-'])
    (numeral : Numeral cs) : ∃ x, Denotes (sign ++ cs) (.float x) := by
  obtain ⟨x, reads⟩ := exists_readScalar_numeral isSign numeral
  have printable := printable_numeral numeral
  refine ⟨x, ?_⟩
  rcases isSign with rfl | rfl
  · obtain ⟨c, rest, rfl, digit⟩ := numeral.exists_cons
    exact denotes_of_readScalar (beginsScalar_of_isDigit digit) printable reads
  · exact denotes_of_readScalar (by decide) (printable_cons.mpr ⟨by decide, printable⟩) reads

/-- A double is read as some double. -/
theorem exists_readsAs_float (x : Float) : ∃ y, ReadsAs (.float x) (.float y) := by
  suffices denoted : ∃ y, Denotes (Decimal.Layout.document.render x).toList (.float y) by
    obtain ⟨y, denotes⟩ := denoted
    exact ⟨y, fun _ => denotes⟩
  rcases Decimal.Layout.toList_ofBits .document x.toBits.toNat with
    nan | ⟨sign, rfl | rfl, infinite | ⟨cs, numeral, form⟩⟩
  · rw [Decimal.Layout.render, nan]
    exact ⟨0.0 / 0.0, denotes_of_readScalar (by decide) (by decide) fun _ _ => rfl⟩
  · rw [Decimal.Layout.render, infinite]
    exact ⟨1.0 / 0.0, denotes_of_readScalar (by decide) (by decide) fun _ _ => rfl⟩
  · rw [Decimal.Layout.render, form, String.toList_append, String.toList_ofList (l := cs)]
    exact exists_denotes_numeral (Or.inl rfl) numeral
  · rw [Decimal.Layout.render, infinite]
    exact ⟨-(1.0 / 0.0), denotes_of_readScalar (by decide) (by decide) fun _ _ => rfl⟩
  · rw [Decimal.Layout.render, form, String.toList_append, String.toList_ofList (l := cs)]
    exact exists_denotes_numeral (Or.inr rfl) numeral

/-! ### Lists -/

theorem Ends.cons (isEnd : c = ',' ∨ c = ']' ∨ c = '\x7d') (rest : List Char) :
    Ends (c :: rest) := by
  rintro c' same
  cases Option.some.inj same
  exact isEnd

theorem newline_compact (level : Nat) : Style.newline .compact level = [] := rfl

theorem itemsChars_compact_cons (level : Nat) (d : Datum) (ds : List Datum) :
    itemsChars .compact level (d :: ds) =
      ',' :: (chars .compact level d ++ itemsChars .compact level ds) := rfl

variable {fuel : Nat}

theorem readItems_last (item : readValue fuel cs = .ok (d, ']' :: rest)) :
    readItems (fuel + 1) cs = .ok ([d], rest) := by
  rw [readItems, item]
  rfl

theorem readItems_next {items : List Datum} {behind : List Char}
    (item : readValue fuel cs = .ok (d, ',' :: rest))
    (others : readItems fuel (skipSpace rest) = .ok (items, behind)) :
    readItems (fuel + 1) cs = .ok (d :: items, behind) := by
  rw [readItems, item]
  change (readItems fuel (skipSpace rest)).map _ = _
  rw [others]
  rfl

/-- The members of a list are read one by one up to its closing bracket. -/
theorem readItems_of_forall₂ {ds read : List Datum} (member : ReadsAs d d')
    (others : List.Forall₂ ReadsAs ds read) (level : Nat) (rest : List Char) : ∀ fuel,
    (chars .compact level d ++ itemsChars .compact level ds).length < fuel →
    readItems fuel (chars .compact level d ++ (itemsChars .compact level ds ++ ']' :: rest)) =
      .ok (d' :: read, rest) := by
  -- A comma pays for the fuel that the member before it takes.
  induction others generalizing d d' with
  | nil =>
    intro fuel enough
    obtain ⟨fuel, rfl⟩ := Nat.exists_eq_add_of_le' (Nat.one_le_of_lt enough)
    rw [itemsChars, List.append_nil] at enough
    exact readItems_last ((member level).reads _ _ (by omega) (Ends.cons (Or.inr (Or.inl rfl)) _))
  | @cons next next' ds read nextReads _ ih =>
    intro fuel enough
    obtain ⟨fuel, rfl⟩ := Nat.exists_eq_add_of_le' (Nat.one_le_of_lt enough)
    rw [itemsChars_compact_cons] at enough ⊢
    rw [List.length_append, List.length_cons] at enough
    rw [List.cons_append, List.append_assoc]
    refine readItems_next ((member level).reads fuel _ (by omega) (Ends.cons (Or.inl rfl) _)) ?_
    rw [(nextReads level).skipSpace_append]
    exact ih nextReads fuel (by omega)

theorem printable_itemsChars {ds read : List Datum} (members : List.Forall₂ ReadsAs ds read)
    (level : Nat) : Printable (itemsChars .compact level ds) := by
  induction members with
  | nil => exact fun _ mem => absurd mem List.not_mem_nil
  | cons member _ ih =>
    rw [itemsChars_compact_cons, printable_cons, printable_append]
    exact ⟨by decide, (member level).printable, ih⟩

theorem readValue_bracket {items : List Datum} {behind : List Char}
    (inside : skipSpace cs = c :: rest) (other : c ≠ ']')
    (members : readItems fuel (c :: rest) = .ok (items, behind)) :
    readValue (fuel + 1) ('[' :: cs) = .ok (.list items, behind) := by
  rw [readValue, inside]
  split
  · rename_i same
    exact absurd (List.cons.inj same).1 other
  · rw [members]
    rfl

/-- A list is read by its members. -/
theorem readsAs_list {ds read : List Datum} (members : List.Forall₂ ReadsAs ds read) :
    ReadsAs (.list ds) (.list read) := by
  intro level
  cases members with
  | nil =>
    exact {
      starts := ⟨'[', [']'], rfl, by decide⟩
      printable := show Printable ['[', ']'] by decide
      reads := by
        intro fuel rest enough _
        obtain ⟨fuel, rfl⟩ := Nat.exists_eq_add_of_le' (Nat.one_le_of_lt enough)
        rfl }
  | @cons d d' ds read member others =>
    have layout : chars .compact level (.list (d :: ds)) =
        '[' :: (chars .compact (level + 1) d ++ itemsChars .compact (level + 1) ds ++ [']']) := by
      rw [chars, newline_compact, newline_compact, List.nil_append, List.append_nil]
    rw [layout]
    exact {
      starts := ⟨'[', _, rfl, by decide⟩
      printable := by
        rw [printable_cons, printable_append, printable_append]
        exact ⟨by decide, ⟨(member _).printable, printable_itemsChars others _⟩, by decide⟩
      reads := by
        intro fuel rest enough _
        obtain ⟨fuel, rfl⟩ := Nat.exists_eq_add_of_le' (Nat.one_le_of_lt enough)
        rw [List.length_cons, List.length_append, List.length_singleton] at enough
        obtain ⟨c, inside, head, _, other⟩ := (member (level + 1)).starts
        have items := readItems_of_forall₂ member others (level + 1) rest fuel (by omega)
        have skipped := (member (level + 1)).skipSpace_append
          (itemsChars .compact (level + 1) ds ++ ']' :: rest)
        rw [List.cons_append, List.append_assoc, List.append_assoc, List.singleton_append]
        rw [head, List.cons_append] at items skipped ⊢
        exact readValue_bracket skipped other items }

/-! ### Objects -/

/-- The entries of an object with these names and values. -/
def entriesOf (fields : List (String × Datum)) : List (Datum × Datum) :=
  fields.map fun f => (.text f.1, f.2)

/-- A named value is read under its name. -/
structure FieldReadsAs (f g : String × Datum) : Prop where
  /-- The name stays. -/
  name_eq : g.1 = f.1
  /-- The value is read. -/
  value : ReadsAs f.2 g.2

variable {f g : String × Datum} {fields read done : List (String × Datum)}

theorem put_entriesOf (fresh : g.1 ∉ done.map Prod.fst) :
    Datum.put (.text g.1) g.2 (entriesOf done) = entriesOf (done ++ [g]) := by
  induction done with
  | nil => rfl
  | cons f done ih =>
    rw [List.map_cons, List.mem_cons, not_or] at fresh
    have other : Datum.sameKey (.text f.1) (.text g.1) = false := beq_false_of_ne (Ne.symm fresh.1)
    rw [entriesOf, List.map_cons, Datum.put, other, if_neg (by decide)]
    exact congrArg _ (ih fresh.2)

theorem entriesChars_compact_cons (level : Nat) (f : String × Datum)
    (fields : List (String × Datum)) :
    entriesChars .compact level (entriesOf (f :: fields)) =
      ',' :: (stringChars f.1 ++ ':' :: (chars .compact level f.2 ++
        entriesChars .compact level (entriesOf fields))) := by
  rw [entriesOf, List.map_cons, entriesChars, newline_compact]
  simp [Style.compact, nameText, entriesOf]

theorem readEntries_last {entries : List (Datum × Datum)} (name : String)
    (value : readValue fuel (skipSpace cs) = .ok (d, '\x7d' :: rest)) :
    readEntries (fuel + 1) entries (stringChars name ++ ':' :: cs) =
      .ok (Datum.put (.text name) d entries, rest) := by
  have colon : skipSpace (':' :: cs) = ':' :: cs := rfl
  have brace : skipSpace ('\x7d' :: rest) = '\x7d' :: rest := rfl
  rw [stringChars, List.cons_append, List.append_assoc, List.singleton_append, readEntries,
    readString_escaped]
  simp only [colon, value, brace]

theorem readEntries_next {entries : List (Datum × Datum)} (name : String)
    (value : readValue fuel (skipSpace cs) = .ok (d, ',' :: rest)) :
    readEntries (fuel + 1) entries (stringChars name ++ ':' :: cs) =
      readEntries fuel (Datum.put (.text name) d entries) (skipSpace rest) := by
  have colon : skipSpace (':' :: cs) = ':' :: cs := rfl
  have comma : skipSpace (',' :: rest) = ',' :: rest := rfl
  rw [stringChars, List.cons_append, List.append_assoc, List.singleton_append, readEntries,
    readString_escaped]
  simp only [colon, value, comma]

theorem FieldReadsAs.reads (field : FieldReadsAs f g) (level : Nat)
    (enough : (chars .compact level f.2).length ≤ fuel) (ends : Ends rest) :
    readValue fuel (skipSpace (chars .compact level f.2 ++ rest)) = .ok (g.2, rest) := by
  rw [(field.value level).skipSpace_append]
  exact (field.value level).reads fuel rest enough ends

/-- A new name is put behind the names that were read before. -/
theorem FieldReadsAs.put_eq (field : FieldReadsAs f g)
    (distinct : ((done ++ g :: read).map Prod.fst).Nodup) :
    Datum.put (.text f.1) g.2 (entriesOf done) = entriesOf (done ++ [g]) := by
  rw [List.map_append, List.map_cons] at distinct
  rw [← field.name_eq]
  exact put_entriesOf fun mem => (List.nodup_append.mp distinct).2.2 _ mem _ List.mem_cons_self rfl

/-- The entries of an object are read one by one up to its closing brace. -/
theorem readEntries_of_forall₂ (field : FieldReadsAs f g)
    (others : List.Forall₂ FieldReadsAs fields read)
    (distinct : ((done ++ g :: read).map Prod.fst).Nodup) (level : Nat) (rest : List Char) : ∀ fuel,
    (chars .compact level f.2 ++ entriesChars .compact level (entriesOf fields)).length < fuel →
    readEntries fuel (entriesOf done) (stringChars f.1 ++ ':' :: (chars .compact level f.2 ++
      (entriesChars .compact level (entriesOf fields) ++ '\x7d' :: rest))) =
      .ok (entriesOf (done ++ g :: read), rest) := by
  -- The induction is on the entries that are left; what was read before them grows by one.
  induction others generalizing f g done with
  | nil =>
    intro fuel enough
    obtain ⟨fuel, rfl⟩ := Nat.exists_eq_add_of_le' (Nat.one_le_of_lt enough)
    rw [List.length_append] at enough
    rw [← field.put_eq distinct]
    exact readEntries_last f.1 (field.reads level (by omega) (Ends.cons (Or.inr (Or.inr rfl)) _))
  | @cons next next' fields read nextReads _ ih =>
    intro fuel enough
    obtain ⟨fuel, rfl⟩ := Nat.exists_eq_add_of_le' (Nat.one_le_of_lt enough)
    rw [entriesChars_compact_cons] at enough ⊢
    simp only [List.length_append, List.length_cons] at enough
    simp only [List.cons_append, List.append_assoc]
    rw [readEntries_next f.1 (field.reads level (by omega) (Ends.cons (Or.inl rfl) _)),
      field.put_eq distinct]
    have split : done ++ g :: next' :: read = done ++ [g] ++ next' :: read := by simp
    rw [split] at distinct ⊢
    exact ih nextReads distinct fuel (by rw [List.length_append]; omega)

theorem printable_entriesChars (members : List.Forall₂ FieldReadsAs fields read)
    (level : Nat) : Printable (entriesChars .compact level (entriesOf fields)) := by
  induction members with
  | nil => exact fun _ mem => absurd mem List.not_mem_nil
  | cons member _ ih =>
    rw [entriesChars_compact_cons, printable_cons, printable_append, printable_cons,
      printable_append]
    exact ⟨by decide, printable_stringChars _, by decide, (member.value level).printable, ih⟩

/-- An object with distinct names is read by its entries. -/
theorem readsAs_object (members : List.Forall₂ FieldReadsAs fields read)
    (distinct : (read.map Prod.fst).Nodup) : ReadsAs (.object fields) (.object read) := by
  intro level
  cases members with
  | nil =>
    exact {
      starts := ⟨'\x7b', ['\x7d'], rfl, by decide⟩
      printable := show Printable ['\x7b', '\x7d'] by decide
      reads := by
        intro fuel rest enough _
        obtain ⟨fuel, rfl⟩ := Nat.exists_eq_add_of_le' (Nat.one_le_of_lt enough)
        rfl }
  | @cons f g fields read member others =>
    have layout : chars .compact level (.object (f :: fields)) =
        '\x7b' :: (stringChars f.1 ++ ':' :: (chars .compact (level + 1) f.2 ++
          (entriesChars .compact (level + 1) (entriesOf fields) ++ ['\x7d']))) := by
      rw [Datum.object, List.map_cons, chars, newline_compact, newline_compact]
      simp [Style.compact, nameText, entriesOf]
    rw [layout]
    exact {
      starts := ⟨'\x7b', _, rfl, by decide⟩
      printable := by
        simp only [printable_cons, printable_append]
        exact ⟨by decide, printable_stringChars _, by decide, (member.value _).printable,
          printable_entriesChars others _, by decide, by decide⟩
      reads := by
        intro fuel rest enough _
        obtain ⟨fuel, rfl⟩ := Nat.exists_eq_add_of_le' (Nat.one_le_of_lt enough)
        simp only [List.length_cons, List.length_append, List.length_nil] at enough
        have entries : readEntries fuel (entriesOf []) _ = .ok (entriesOf (g :: read), rest) :=
          readEntries_of_forall₂ member others distinct (level + 1) rest fuel
            (by rw [List.length_append]; omega)
        simp only [List.cons_append, List.append_assoc, List.nil_append]
        exact congrArg (Except.map _) entries }

/-! ### The whole text -/

/-- The compact text of a datum is read as a whole. -/
theorem ReadsAs.parse_render (reads : ReadsAs d d') : parse (render .compact d) = .ok d' := by
  have denotes := reads 0
  have whole := denotes.reads (2 * (chars .compact 0 d).length + 2) [] (by omega) (by simp [Ends])
  have front := denotes.skipSpace_append []
  rw [List.append_nil] at whole front
  rw [parse, render, String.toList_ofList, front, whole]
  rfl

end Sentential.Json
