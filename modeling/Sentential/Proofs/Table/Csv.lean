import Mathlib.Data.List.DropRight
import Mathlib.Data.List.Induction
import Sentential.TruthTable.Export

/-!
# Comma-separated values are read back

A record is a line of fields with commas between them. A field that holds a comma, a quote, a line
feed or a carriage return stands in quotes, where each quote of its own is written twice; so a line
feed ends a record only outside of quotes. Behind the last record a line feed may stand or not.

A written table is read back as its header and its cells, whatever these are. The line feed behind
the last record is all that the writer drops: no line is empty and none ends with a line feed, since
a field that does stands in quotes.

## Main definitions

* `Csv.scan`, `Csv.read` — the reader, which refuses quotes where none can stand

## Main results

* `TruthTable.csv_eq` — the written text has its records as lines, without a final line feed
* `TruthTable.read_csv` — it is read as the header and the cells
-/

namespace Sentential

namespace Csv

/-- Where a reader stands in a field. -/
inductive Mode where
  /-- Nothing of the field was read. -/
  | opening
  /-- The field has no quotes around it. -/
  | bare
  /-- The field is inside its quotes. -/
  | quoted
  /-- A quote was read inside the quotes: the last one, or the first of two. -/
  | closing
deriving DecidableEq

/-- Puts characters in front of the first field of the first record. -/
def prepend (cs : List Char) (records : List (List (List Char))) : List (List (List Char)) :=
  records.modifyHead fun fields => fields.modifyHead (cs ++ ·)

/-- The records that follow, the first of them being the rest of one that was begun. -/
def scan : Mode → List Char → Option (List (List (List Char)))
  | .quoted, [] => none
  | _, [] => some [[[]]]
  | .quoted, c :: rest =>
    if c = '"' then scan .closing rest else (scan .quoted rest).map (prepend [c])
  | mode, c :: rest =>
    if c = '"' then
      match mode with
      | .opening => scan .quoted rest
      | .closing => (scan .quoted rest).map (prepend ['"'])
      | _ => none
    else if c = ',' then (scan .opening rest).map (List.modifyHead ([] :: ·))
    -- A line feed at the end begins no further record.
    else if c = '\n' then if rest = [] then some [[[]]] else (scan .opening rest).map ([[]] :: ·)
    else if mode = .closing then none
    else (scan .bare rest).map (prepend [c])

/-- The records of a text of comma-separated values. -/
def read (s : String) : Option (List (List String)) :=
  (scan .opening s.toList).map fun records => records.map fun fields => fields.map String.ofList

variable {cs rest : List Char} {records : List (List (List Char))} {mode : Mode} {c : Char}

theorem prepend_nil : prepend [] = id := by
  funext records
  rcases records with - | ⟨- | ⟨field, fields⟩, records⟩ <;> rfl

theorem prepend_comp (cs ds : List Char) : prepend cs ∘ prepend ds = prepend (cs ++ ds) := by
  funext records
  rcases records with - | ⟨- | ⟨field, fields⟩, records⟩ <;> simp [prepend]

/-- Nothing more of a field follows. -/
def Ended (cs : List Char) : Prop := ∀ c ∈ cs.head?, c = ',' ∨ c = '\n'

/-- Where a field has ended, it makes no difference how it began. -/
theorem scan_of_ended (ended : Ended rest) (outside : mode ≠ .quoted) :
    scan mode rest = scan .bare rest := by
  cases rest with
  | nil => cases mode <;> first | rfl | contradiction
  | cons c rest =>
    rcases ended c rfl with rfl | rfl <;> cases mode <;> first | rfl | contradiction

/-! ### Fields -/

/-- No character needs quotes. -/
def Unquoted (cs : List Char) : Prop := ∀ c ∈ cs, c ≠ ',' ∧ c ≠ '"' ∧ c ≠ '\n' ∧ c ≠ '\r'

theorem scan_plain (plain : c ≠ ',' ∧ c ≠ '"' ∧ c ≠ '\n' ∧ c ≠ '\r')
    (begun : mode = .opening ∨ mode = .bare) (rest : List Char) :
    scan mode (c :: rest) = (scan .bare rest).map (prepend [c]) := by
  obtain ⟨comma, quote, feed, -⟩ := plain
  rcases begun with rfl | rfl <;>
    simp only [scan, if_neg comma, if_neg quote, if_neg feed, reduceCtorEq, if_false]

/-- Characters that need no quotes are taken as they are. -/
theorem scan_bare (unquoted : Unquoted cs) (rest : List Char) :
    scan .bare (cs ++ rest) = (scan .bare rest).map (prepend cs) := by
  induction cs with
  | nil => rw [List.nil_append, prepend_nil, Option.map_id_apply]
  | cons c cs ih =>
    obtain ⟨first, others⟩ := List.forall_mem_cons.mp unquoted
    rw [List.cons_append, scan_plain first (.inr rfl), ih others, Option.map_map, prepend_comp,
      List.singleton_append]

theorem scan_opening (unquoted : Unquoted cs) (ended : Ended rest) :
    scan .opening (cs ++ rest) = scan .bare (cs ++ rest) := by
  cases cs with
  | nil => exact scan_of_ended ended (by decide)
  | cons c cs =>
    obtain ⟨first, -⟩ := List.forall_mem_cons.mp unquoted
    rw [List.cons_append, scan_plain first (.inl rfl), scan_plain first (.inr rfl)]

/-- Inside of quotes, doubled quotes are read as single ones. -/
theorem scan_quoted (cs rest : List Char) :
    scan .quoted (TruthTable.doubleQuotes cs ++ '"' :: rest) =
      (scan .closing rest).map (prepend cs) := by
  induction cs with
  | nil =>
    rw [TruthTable.doubleQuotes, List.nil_append, scan, if_pos rfl, prepend_nil,
      Option.map_id_apply]
  | cons c cs ih =>
    have joined : prepend [c] ∘ prepend cs = prepend (c :: cs) := prepend_comp [c] cs
    rw [TruthTable.doubleQuotes]
    split
    · rename_i quote
      subst quote
      simp [scan, ih, joined]
    · rename_i other
      simp [scan, other, ih, joined]

/-- A field stands in quotes, or as it is when it has no character that needs them. -/
theorem toList_csvField (s : String) :
    (TruthTable.csvField s).toList = '"' :: (TruthTable.doubleQuotes s.toList ++ ['"']) ∨
      (TruthTable.csvField s).toList = s.toList ∧ Unquoted s.toList := by
  rw [TruthTable.csvField]
  split
  · exact .inl String.toList_ofList
  · rename_i plain
    exact .inr ⟨rfl, by simpa [Unquoted, TruthTable.needsQuotes, not_or, and_assoc] using plain⟩

/-- A written field is read as its text. -/
theorem scan_csvField (s : String) (ended : Ended rest) :
    scan .opening ((TruthTable.csvField s).toList ++ rest) =
      (scan .bare rest).map (prepend s.toList) := by
  rcases toList_csvField s with quoted | ⟨same, unquoted⟩
  · have opened : (TruthTable.csvField s).toList ++ rest =
        '"' :: (TruthTable.doubleQuotes s.toList ++ '"' :: rest) := by simp [quoted]
    -- The quotes are closed by the last one, because what follows is no further quote.
    have closed : scan .closing rest = scan .bare rest := scan_of_ended ended (by decide)
    rw [opened, scan, if_pos rfl, ← closed]
    exact scan_quoted s.toList rest
  · rw [same, scan_opening unquoted ended, scan_bare unquoted]

/-! ### Lines -/

variable {fields : List String}

/-- The characters of a line, unless it would be empty. -/
theorem toList_csvLine (visible : fields ≠ [""]) : (TruthTable.csvLine fields).toList =
    [','].intercalate (fields.map fun s => (TruthTable.csvField s).toList) := by
  have line : TruthTable.csvLine fields = ",".intercalate (fields.map TruthTable.csvField) := by
    unfold TruthTable.csvLine
    split
    · contradiction
    · rfl
  rw [line, String.toList_intercalate, List.map_map]
  rfl

theorem scan_fields (filled : fields ≠ []) (ended : Ended rest)
    (finished : scan .bare rest = some ([[]] :: records)) :
    scan .opening
        ([','].intercalate (fields.map fun s => (TruthTable.csvField s).toList) ++ rest) =
      some (fields.map String.toList :: records) := by
  induction fields, filled using List.recNeNil with
  | singleton s =>
    rw [List.map_singleton, List.intercalate_singleton, scan_csvField s ended, finished]
    simp [prepend]
  | cons s others more ih =>
    -- The comma ends the field, so it makes no difference how the field was written.
    have separated (cs : List Char) : Ended (',' :: cs) := by simp [Ended]
    rw [List.map_cons, List.intercalate_cons_of_ne_nil (by simpa using more), List.append_assoc,
      List.append_assoc, List.singleton_append, scan_csvField s (separated _)]
    simp only [scan, ih]
    simp [prepend]

/-- A written line is read as its fields, where the text ends behind it or a line feed stands. -/
theorem scan_csvLine (filled : fields ≠ []) (ended : Ended rest)
    (finished : scan .bare rest = some ([[]] :: records)) :
    scan .opening ((TruthTable.csvLine fields).toList ++ rest) =
      some (fields.map String.toList :: records) := by
  by_cases hidden : fields = [""]
  · subst hidden
    have closed : scan .closing rest = scan .bare rest := scan_of_ended ended (by decide)
    exact closed.trans finished
  · rw [toList_csvLine hidden, scan_fields filled ended finished]

/-- No line is empty: read as one, it would have a single empty field. -/
theorem csvLine_ne_nil (filled : fields ≠ []) : (TruthTable.csvLine fields).toList ≠ [] := by
  -- An empty text is one empty field, but alone that is written as two quotes.
  intro empty
  have alone : scan .opening ((TruthTable.csvLine fields).toList ++ []) =
      some [fields.map String.toList] := scan_csvLine filled (by simp [Ended]) rfl
  have blank : fields.map String.toList = [[]] := by simpa [empty, scan] using alone.symm
  obtain ⟨s, rfl⟩ := List.length_eq_one_iff.mp (by simpa using congrArg List.length blank)
  obtain rfl : s = "" := by simpa using blank
  exact absurd empty (by decide)

/-- No line feed stands at the end. -/
def Unfed (cs : List Char) : Prop := ∀ c ∈ cs.getLast?, c ≠ '\n'

theorem Unfed.append {ds : List Char} (first : Unfed cs) (second : Unfed ds) :
    Unfed (cs ++ ds) := by
  intro c last
  rw [List.getLast?_append, Option.mem_def, Option.or_eq_some_iff] at last
  rcases last with last | ⟨-, last⟩
  · exact second c last
  · exact first c last

theorem unfed_csvField (s : String) : Unfed (TruthTable.csvField s).toList := by
  rcases toList_csvField s with quoted | ⟨same, unquoted⟩
  · simp [quoted, Unfed, List.getLast?_cons]
  · rw [same]
    exact fun c last => (unquoted c (List.mem_of_getLast? last)).2.2.1

theorem unfed_csvLine (filled : fields ≠ []) : Unfed (TruthTable.csvLine fields).toList := by
  by_cases hidden : fields = [""]
  · subst hidden
    simp [TruthTable.csvLine, Unfed]
  · rw [toList_csvLine hidden]
    clear hidden
    induction fields, filled using List.recNeNil with
    | singleton s => simpa using unfed_csvField s
    | cons s others more ih =>
      rw [List.map_cons, List.intercalate_cons_of_ne_nil (by simpa using more)]
      exact ((unfed_csvField s).append (by simp [Unfed])).append ih

/-! ### Texts -/

variable {lines : List (List Char)}

theorem flatMap_feed (filled : lines ≠ []) :
    lines.flatMap (· ++ ['\n']) = ['\n'].intercalate lines ++ ['\n'] := by
  induction lines, filled using List.recNeNil with
  | singleton line => simp
  | cons line lines more ih =>
    rw [List.flatMap_cons, ih, List.intercalate_cons_of_ne_nil more]
    simp

theorem intercalate_ne_nil (filled : lines ≠ []) (visible : ∀ line ∈ lines, line ≠ []) :
    ['\n'].intercalate lines ≠ [] := by
  cases lines, filled using List.recNeNil with
  | singleton line => simpa using visible
  | cons line lines more => simp [List.intercalate_cons_of_ne_nil more]

theorem unfed_intercalate (filled : lines ≠ []) (visible : ∀ line ∈ lines, line ≠ [])
    (unfed : ∀ line ∈ lines, Unfed line) : Unfed (['\n'].intercalate lines) := by
  induction lines, filled using List.recNeNil with
  | singleton line => simpa using unfed
  | cons line lines more ih =>
    obtain ⟨-, visible⟩ := List.forall_mem_cons.mp visible
    obtain ⟨-, unfed⟩ := List.forall_mem_cons.mp unfed
    rw [List.intercalate_cons_of_ne_nil more, Unfed,
      List.getLast?_append_of_ne_nil _ (intercalate_ne_nil more visible)]
    exact ih visible unfed

/-- The lines of a text are read one by one; behind each but the last a line feed stands. -/
theorem scan_intercalate {records : List (List String)} (filled : records ≠ [])
    (fields : ∀ record ∈ records, record ≠ []) :
    scan .opening
        (['\n'].intercalate (records.map fun record => (TruthTable.csvLine record).toList)) =
      some (records.map fun record => record.map String.toList) := by
  induction records, filled using List.recNeNil with
  | singleton record =>
    rw [List.map_singleton, List.intercalate_singleton,
      ← List.append_nil (TruthTable.csvLine record).toList]
    exact scan_csvLine (fields record (List.mem_singleton_self record)) (by simp [Ended]) rfl
  | cons record records more ih =>
    obtain ⟨first, others⟩ := List.forall_mem_cons.mp fields
    have further := ih others
    have lines : records.map (fun record => (TruthTable.csvLine record).toList) ≠ [] := by
      simpa using more
    -- The line feed is no final one: a line follows, and it is not empty.
    have visible := intercalate_ne_nil lines (List.forall_mem_map.mpr fun record listed =>
      csvLine_ne_nil (others record listed))
    rw [List.map_cons, List.intercalate_cons_of_ne_nil lines, List.append_assoc,
      List.singleton_append]
    refine scan_csvLine first (by simp [Ended]) ?_
    simp only [scan, further, if_neg visible]
    simp

end Csv

namespace TruthTable

variable {header : List String} {cells : List (List String)}

/-- The text of a table has its records as lines: of the line feeds, only the last is dropped. -/
theorem csv_eq (filled : header ≠ []) (rows : ∀ fields ∈ cells, fields ≠ []) :
    csv header cells = "\n".intercalate ((header :: cells).map csvLine) := by
  have all : ∀ fields ∈ header :: cells, fields ≠ [] := List.forall_mem_cons.mpr ⟨filled, rows⟩
  let lines := (header :: cells).map fun fields => (csvLine fields).toList
  have fed : (String.join ((header :: cells).map fun l => csvLine l ++ "\n")).toList =
      ['\n'].intercalate lines ++ ['\n'] := by
    rw [← Csv.flatMap_feed (by simp [lines]), String.toList_join]
    simp [lines, List.flatMap_map]
  have visible : ∀ line ∈ lines, line ≠ [] := by
    simpa only [lines, List.forall_mem_map] using fun fields listed =>
      Csv.csvLine_ne_nil (all fields listed)
  have unfed : ∀ line ∈ lines, Csv.Unfed line := by
    simpa only [lines, List.forall_mem_map] using fun fields listed =>
      Csv.unfed_csvLine (all fields listed)
  have kept := Csv.unfed_intercalate (by simp [lines]) visible unfed
  have dropped : (['\n'].intercalate lines ++ ['\n']).rdropWhile (· == '\n') =
      ['\n'].intercalate lines := by
    rw [List.rdropWhile_concat_pos _ _ _ (by simp), List.rdropWhile_eq_self_iff]
    simpa using fun more => kept _ (List.getLast_mem_getLast? more)
  rw [csv, dropFinalNewlines, fed]
  refine String.toList_injective ?_
  rw [String.toList_ofList, String.toList_intercalate, List.map_map]
  exact dropped

/-- Read back, the text of a table gives its header and its cells. -/
theorem read_csv (filled : header ≠ []) (rows : ∀ fields ∈ cells, fields ≠ []) :
    Csv.read (csv header cells) = some (header :: cells) := by
  have all : ∀ fields ∈ header :: cells, fields ≠ [] := List.forall_mem_cons.mpr ⟨filled, rows⟩
  have scanned := Csv.scan_intercalate (List.cons_ne_nil header cells) all
  have text : (csv header cells).toList =
      ['\n'].intercalate ((header :: cells).map fun fields => (csvLine fields).toList) := by
    rw [csv_eq filled rows, String.toList_intercalate, List.map_map]
    rfl
  rw [Csv.read, text, scanned]
  simp [Function.comp_def]

-- Lines of one empty field, and a field that ends with a line feed, stay at the end of a text.
example : csv [""] [["\n"], [""]] = "\"\"\n\"\n\"\n\"\"" := rfl

end TruthTable

end Sentential
