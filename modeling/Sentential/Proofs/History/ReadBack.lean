import Mathlib.Data.List.Forall2
import Sentential.History
import Sentential.Proofs.Json.Reading

/-!
# The log is read back

Whatever is written to a log is read from it again, in the same order, however often its file is
closed and opened in between. The text of an entry holds no control character, so the line feed
behind it is the only one, and it begins and ends with a brace, so nothing of it is taken for blanks
around a line; a separator of lines that is no control character stays inside its string.

## Main definitions

* `History.Entry.IsTextual` — an entry whose variables and classification are texts
* `History.SameRecord` — entries that differ in nothing but their time

## Main results

* `History.Entry.exists_ofLine_eq` — one entry is read back from its line
* `History.Writer.chars_run` — a run writes the lines of its entries behind the text of the log
* `History.log_reads_back` — **everything written is read back**
-/

namespace Sentential

namespace Text

variable {cs rest : List Char} {first last : Char}

/-! ### Lines -/

theorem unifyLineEnds_eq_self (free : '\r' ∉ cs) : unifyLineEnds cs = cs := by
  induction cs with
  | nil => rfl
  | cons c cs ih =>
    rw [List.mem_cons, not_or] at free
    rw [unifyLineEnds, if_neg (Ne.symm free.1), ih free.2]
    rintro _ rfl
    exact absurd rfl free.1

theorem lines_append_feed (free : '\n' ∉ cs) : lines (cs ++ '\n' :: rest) = cs :: lines rest := by
  induction cs with
  | nil => rfl
  | cons c cs ih =>
    rw [List.mem_cons, not_or] at free
    rw [List.cons_append, lines, if_neg (Ne.symm free.1), ih free.2]

/-- What begins and ends with a visible character has no blanks around it. -/
theorem trimChars_of_visible_ends (visible : isBlank first = false ∧ isBlank last = false) :
    trimChars (first :: (cs ++ [last])) = first :: (cs ++ [last]) := by
  have front : trimStart (first :: (cs ++ [last])) = first :: (cs ++ [last]) :=
    List.dropWhile_cons_of_neg (by rw [visible.1]; decide)
  rw [trimChars, front, trimEnd, ← List.cons_append, List.reverse_append, List.reverse_singleton,
    List.singleton_append, List.dropWhile_cons_of_neg (by rw [visible.2]; decide),
    List.reverse_cons, List.reverse_reverse]

end Text

namespace History

open Json (ReadsAs Printable)

/-! ### One entry -/

/-- An entry whose variables and classification are texts, as an analysis makes it. -/
structure Entry.IsTextual (e : Entry) : Prop where
  /-- The variables are texts. -/
  vars : ∃ names : List String, e.vars = names.map .text
  /-- The classification is a text, if there is one. -/
  classification : ∃ c : Option String, e.classification = .ofOption .text c

/-- The second entry is the first one, up to its time. -/
structure SameRecord (e e' : Entry) : Prop where
  /-- The formula is the same. -/
  expression : e'.expression = e.expression
  /-- The variables are the same. -/
  vars : e'.vars = e.vars
  /-- The classification is the same. -/
  classification : e'.classification = e.classification
  /-- The identifier is the same. -/
  id : e'.id = e.id

namespace Entry

variable {e : Entry}

theorem ofDatum_toDatum (e : Entry) : ofDatum e.toDatum = .ok e := rfl

theorem isTextual_record (expression : String) (vars : List String) (classification : Option String)
    (timestamp : Float) (id : String) :
    (record expression vars classification timestamp id).IsTextual :=
  ⟨⟨vars, rfl⟩, classification, rfl⟩

/-- The object of an entry is read as the object of an entry. -/
theorem IsTextual.exists_readsAs (textual : e.IsTextual) :
    ∃ e', ReadsAs e.toDatum e'.toDatum ∧ SameRecord e e' := by
  obtain ⟨⟨names, vars⟩, classification, classified⟩ := textual
  obtain ⟨timestamp, time⟩ := Json.exists_readsAs_float e.timestamp
  have varsRead : List.Forall₂ ReadsAs e.vars e.vars := by
    refine List.forall₂_same.mpr fun d mem => ?_
    rw [vars] at mem
    obtain ⟨name, -, rfl⟩ := List.mem_map.mp mem
    exact Json.readsAs_text name
  have classRead : ReadsAs e.classification e.classification := by
    rw [classified]
    cases classification with
    | none => exact Json.readsAs_null
    | some c => exact Json.readsAs_text c
  -- The time is read as a double, whichever it is; the names of the fields differ.
  refine ⟨{ e with timestamp }, Json.readsAs_object ?_ ?_, rfl, rfl, rfl, rfl⟩
  · exact .cons ⟨rfl, Json.readsAs_text _⟩ (.cons ⟨rfl, Json.readsAs_list varsRead⟩
      (.cons ⟨rfl, classRead⟩ (.cons ⟨rfl, time⟩ (.cons ⟨rfl, Json.readsAs_text _⟩ .nil))))
  · change ["expression", "variables", "classification", "timestamp", "id"].Nodup
    decide

/-- The text of an entry on its line. -/
def body (e : Entry) : List Char := Json.chars .compact 0 e.toDatum

theorem toList_line (e : Entry) : e.line.toList = e.body ++ ['\n'] := by
  rw [line, String.toList_append, Json.render, String.toList_ofList]
  rfl

theorem exists_body_eq (e : Entry) : ∃ cs, e.body = '\x7b' :: (cs ++ ['\x7d']) := by
  rw [body, toDatum, Datum.object, List.map_cons, Json.chars]
  exact ⟨_, rfl⟩

theorem trimChars_body (e : Entry) : Text.trimChars e.body = e.body := by
  obtain ⟨cs, cut⟩ := e.exists_body_eq
  rw [cut]
  exact Text.trimChars_of_visible_ends (by decide)

theorem IsTextual.notMem_body (textual : e.IsTextual) {c : Char} (control : c.toNat < 0x20) :
    c ∉ e.body := by
  obtain ⟨e', reads, -⟩ := textual.exists_readsAs
  exact fun mem => Nat.not_le.mpr control ((reads 0).printable c mem)

/-- **One line.** An entry is read back from its text. -/
theorem IsTextual.exists_ofLine_eq (textual : e.IsTextual) :
    ∃ e', ofLine (String.ofList e.body) = .ok e' ∧ SameRecord e e' := by
  obtain ⟨e', reads, same⟩ := textual.exists_readsAs
  refine ⟨e', ?_, same⟩
  have parsed : Json.parse (String.ofList e.body) = .ok e'.toDatum := reads.parse_render
  rw [ofLine, parsed]
  exact e'.ofDatum_toDatum

end Entry

/-! ### Writing -/

/-- The characters of a log. -/
def Log.chars (l : Log) : List Char := (l.text.getD "").toList

theorem Log.chars_write (l : Log) (s : String) : (l.write s).chars = l.chars ++ s.toList :=
  String.toList_append

/-- The text that entries make. -/
def linesOf (entries : List Entry) : List Char := entries.flatMap fun e => e.body ++ ['\n']

theorem linesOf_cons (e : Entry) (entries : List Entry) :
    linesOf (e :: entries) = e.body ++ '\n' :: linesOf entries := by
  rw [linesOf, List.flatMap_cons, List.append_assoc]
  rfl

namespace Writer

theorem chars_opened (w : Writer) : w.opened.log.chars = w.log.chars := by
  rw [opened]
  split
  · rfl
  · exact (Log.chars_write _ _).trans (List.append_nil _)

theorem chars_append (w : Writer) (e : Entry) :
    (w.append e).log.chars = w.log.chars ++ (e.body ++ ['\n']) := by
  rw [append, Log.append, Log.chars_write, chars_opened, Entry.toList_line]

/-- An action writes the line of its entry, if it has one. -/
theorem chars_after (w : Writer) (a : Action) :
    (w.after a).log.chars = w.log.chars ++ linesOf a.entry?.toList := by
  rw [after]
  cases a.entry? with
  | none => exact (List.append_nil _).symm
  | some e => rw [Option.toList_some, linesOf, List.flatMap_singleton]; exact chars_append w e

/-- A run writes the lines of its entries. -/
theorem chars_run (w : Writer) (actions : List Action) :
    (actions.foldl after w).log.chars =
      w.log.chars ++ linesOf (actions.filterMap Action.entry?) := by
  -- Each action leaves a longer text, so the writer is general.
  induction actions generalizing w with
  | nil => exact (List.append_nil _).symm
  | cons a actions ih =>
    rw [List.foldl_cons, ih, chars_after, List.append_assoc, List.filterMap_cons]
    cases a.entry? with
    | none => rfl
    | some e => rw [linesOf_cons]; simp [linesOf]

end Writer

/-! ### Reading -/

variable {entries : List Entry}

theorem notMem_linesOf (textual : ∀ e ∈ entries, e.IsTextual) : '\r' ∉ linesOf entries := by
  induction entries with
  | nil => exact List.not_mem_nil
  | cons e entries ih =>
    rw [List.forall_mem_cons] at textual
    rw [linesOf_cons, List.mem_append, List.mem_cons, not_or, not_or]
    exact ⟨textual.1.notMem_body (by decide), by decide, ih textual.2⟩

theorem count_linesOf (textual : ∀ e ∈ entries, e.IsTextual) :
    (linesOf entries).count '\n' = entries.length := by
  induction entries with
  | nil => rfl
  | cons e entries ih =>
    rw [List.forall_mem_cons] at textual
    rw [linesOf_cons, List.count_append, List.count_cons_self, ih textual.2,
      List.count_eq_zero.mpr (textual.1.notMem_body (by decide)), List.length_cons, Nat.zero_add]

theorem lines_linesOf (textual : ∀ e ∈ entries, e.IsTextual) :
    Text.lines (linesOf entries) = entries.map Entry.body := by
  induction entries with
  | nil => rfl
  | cons e entries ih =>
    rw [List.forall_mem_cons] at textual
    rw [linesOf_cons, Text.lines_append_feed (textual.1.notMem_body (by decide)), ih textual.2,
      List.map_cons]

/-- The lines with content are those of the entries. -/
theorem contentLines_linesOf (textual : ∀ e ∈ entries, e.IsTextual) :
    Log.contentLines (String.ofList (linesOf entries)) =
      entries.map fun e => String.ofList e.body := by
  -- No body is empty, so no line is skipped.
  have filled (e : Entry) : e.body.isEmpty = false := by
    obtain ⟨cs, cut⟩ := e.exists_body_eq
    rw [cut]
    rfl
  rw [Log.contentLines, String.toList_ofList, Text.unifyLineEnds_eq_self (notMem_linesOf textual),
    lines_linesOf textual, List.map_map, List.filterMap_map, ← List.filterMap_eq_map]
  refine List.filterMap_congr fun e _ => ?_
  simp only [Function.comp_apply, Entry.trimChars_body, filled]
  rfl

theorem exists_mapM_ofLine_eq (textual : ∀ e ∈ entries, e.IsTextual) :
    ∃ read, (entries.map fun e => String.ofList e.body).mapM Entry.ofLine = .ok read ∧
      List.Forall₂ SameRecord entries read := by
  induction entries with
  | nil => exact ⟨[], rfl, .nil⟩
  | cons e entries ih =>
    rw [List.forall_mem_cons] at textual
    obtain ⟨e', line, same⟩ := textual.1.exists_ofLine_eq
    obtain ⟨read, others, sameOthers⟩ := ih textual.2
    refine ⟨e' :: read, ?_, .cons same sameOthers⟩
    rw [List.map_cons, List.mapM_cons, line, others]
    rfl

theorem isTextual_of_mem {actions : List Action}
    (textual : ∀ e, Action.append e ∈ actions → e.IsTextual) :
    ∀ e ∈ actions.filterMap Action.entry?, e.IsTextual := by
  intro e mem
  obtain ⟨a, mem, entry⟩ := List.mem_filterMap.mp mem
  cases a with
  | append e =>
    cases Option.some.inj entry
    exact textual e mem
  | record expression vars classification timestamp id =>
    cases Option.some.inj entry
    exact Entry.isTextual_record ..
  | close => cases entry
  | reopen => cases entry

/-- **Everything written is read back.** A log that was missing or empty at first has one line feed
for each entry that was appended or recorded, however often its file was closed or taken over by a
new object in between, and reading it gives these entries in this order. -/
theorem log_reads_back (w : Writer) (fresh : w.log.text = none ∨ w.log.text = some "")
    (actions : List Action) (textual : ∀ e, Action.append e ∈ actions → e.IsTextual) :
    ((actions.foldl Writer.after w).log.text.getD "").toList.count '\n' =
        (actions.filterMap Action.entry?).length ∧
      ∃ read, (actions.foldl Writer.after w).log.read = .ok read ∧
        List.Forall₂ SameRecord (actions.filterMap Action.entry?) read := by
  have textual := isTextual_of_mem textual
  have empty : w.log.chars = [] := by
    rcases fresh with missing | empty
    · rw [Log.chars, missing]
      rfl
    · rw [Log.chars, empty]
      rfl
  have written := w.chars_run actions
  rw [empty, List.nil_append, Log.chars] at written
  refine ⟨by rw [written, count_linesOf textual], ?_⟩
  obtain ⟨read, eq, same⟩ := exists_mapM_ofLine_eq textual
  refine ⟨read, ?_, same⟩
  rw [Log.read, ← String.ofList_toList (s := (actions.foldl Writer.after w).log.text.getD ""),
    written, contentLines_linesOf textual, eq]

/-- Texts with quotes, backslashes and every separator of lines, written by three objects. -/
theorem log_reads_back_separators :
    let e : Entry := ⟨"\"p\" \\ q\r\n", [.text "p\n", .text "\u0085 \u2028"], .null, 0.5, "\r"⟩
    let actions : List Action := [.append e, .close,
      .record "\u2028¬p\x1e" ["p"] (some "contingency") 1.5 "", .reopen, .close, .append e]
    (Log.empty.text = none ∨ Log.empty.text = some "") ∧
    (∀ e, Action.append e ∈ actions → e.IsTextual) ∧
    ((actions.foldl Writer.after ⟨.empty, false⟩).log.text.getD "").toList.count '\n' = 3 ∧
    ∃ read, (actions.foldl Writer.after ⟨.empty, false⟩).log.read = .ok read ∧
      List.Forall₂ SameRecord
        [e, .record "\u2028¬p\x1e" ["p"] (some "contingency") 1.5 "", e] read := by
  intro e actions
  have missing : Log.empty.text = none ∨ Log.empty.text = some "" := Or.inl rfl
  have textual : ∀ e, Action.append e ∈ actions → e.IsTextual := by
    intro e' mem
    have same : e' = e := by simpa [actions] using mem
    exact same ▸ ⟨⟨["p\n", "\u0085 \u2028"], rfl⟩, none, rfl⟩
  exact ⟨missing, textual, log_reads_back ⟨.empty, false⟩ missing actions textual⟩

end History

end Sentential
