import Mathlib.Data.List.Basic

/-!
# The CSV reader

A table is written with a comma between the fields of a row and a line end after
every row, and a field may stand in quotes.  The reader gives the table back
unless the text ends in a row with a single empty field, or a CR and the LF of
an empty row behind it read as one line end.
-/

namespace VortarisECS

/-! ## Reading -/

/-- The variables of `parse_simple_csv`. -/
structure CsvReader where
  rows : List (List String) := []
  row : List String := []
  field : List Char := []
  inQuotes : Bool := false

namespace CsvReader

/-- Append a character to the field. -/
def append (reader : CsvReader) (c : Char) : CsvReader :=
  { reader with field := reader.field ++ [c] }

/-- The field is complete. -/
def endField (reader : CsvReader) : CsvReader :=
  { reader with
    row := reader.row ++ [String.ofList reader.field]
    field := [] }

/-- The row is complete, with its last field. -/
def endRow (reader : CsvReader) : CsvReader :=
  { reader with
    rows := reader.rows ++ [reader.row ++ [String.ofList reader.field]]
    row := []
    field := [] }

/-- The loop over the text. -/
def read (reader : CsvReader) : List Char → CsvReader
  | [] => reader
  | c :: rest =>
      if reader.inQuotes then
        if c = '"' then
          match rest with
          | '"' :: rest => (reader.append '"').read rest
          | rest => { reader with inQuotes := false }.read rest
        else (reader.append c).read rest
      else if c = '"' then { reader with inQuotes := true }.read rest
      else if c = ',' then reader.endField.read rest
      else if c = '\r' then
        match rest with
        | '\n' :: rest => reader.endRow.read rest
        | rest => reader.endRow.read rest
      else if c = '\n' then reader.endRow.read rest
      else (reader.append c).read rest

/-- The rows when the text is over. -/
def finish (reader : CsvReader) : List (List String) :=
  if reader.field ≠ [] ∨ reader.row ≠ [] then reader.endRow.rows
  else reader.rows

end CsvReader

/-- The rows of a text. -/
def parseSimpleCsv (text : String) : List (List String) :=
  (({} : CsvReader).read text.toList).finish

/-! ## Writing -/

/-- The character cannot stand outside quotes. -/
def needsQuotes (c : Char) : Bool :=
  c == ',' || c == '"' || c == '\r' || c == '\n'

/-- A field of a written table. -/
structure CsvField where
  text : String
  quoted : Bool
  legal : text.toList.any needsQuotes = true → quoted = true

/-- The ends of a line. -/
inductive LineEnd
  | lf
  | crlf
  | cr
  deriving DecidableEq, Repr

/-- The characters of an end of line. -/
def LineEnd.render : LineEnd → List Char
  | .lf => ['\n']
  | .crlf => ['\r', '\n']
  | .cr => ['\r']

/-- Quotes inside quotes are doubled. -/
def doubleQuotes (text : List Char) : List Char :=
  text.flatMap fun c => if c = '"' then ['"', '"'] else [c]

/-- The characters of a field, in quotes if it is quoted. -/
def CsvField.render (field : CsvField) : List Char :=
  if field.quoted then '"' :: (doubleQuotes field.text.toList ++ ['"'])
  else field.text.toList

/-- A row with at least one field, and what stands after it. -/
structure CsvRow where
  first : CsvField
  others : List CsvField
  lineEnd : LineEnd

namespace CsvRow

/-- The texts of the fields of a row. -/
def texts (row : CsvRow) : List String :=
  row.first.text :: row.others.map CsvField.text

/-- The row without its line end. -/
def render (row : CsvRow) : List Char :=
  row.first.render ++ row.others.flatMap fun field => ',' :: field.render

/-- The row is a single empty field, in quotes or not. -/
def Vacant (row : CsvRow) : Prop := row.texts = [""]

/-- Nothing is written for the row but its line end. -/
def Blank (row : CsvRow) : Prop := row.render = []

instance (row : CsvRow) : Decidable row.Vacant :=
  inferInstanceAs (Decidable (_ = _))

instance (row : CsvRow) : Decidable row.Blank :=
  inferInstanceAs (Decidable (_ = _))

end CsvRow

/-- Every row with its line end. -/
def renderRows (rows : List CsvRow) : List Char :=
  rows.flatMap fun row => row.render ++ row.lineEnd.render

/-- The table as a text, its last row without a line end if it is open. -/
def renderCsv (rows : List CsvRow) (lastRow : Option CsvRow) : String :=
  String.ofList (renderRows rows ++ (lastRow.map CsvRow.render).getD [])

/-- The reader gives the table back. -/
def ReadsBack (rows : List CsvRow) (lastRow : Option CsvRow) : Prop :=
  parseSimpleCsv (renderCsv rows lastRow) =
    (rows ++ lastRow.toList).map CsvRow.texts

/-- No CR stands before the LF of an empty row. -/
def LineEndsApart (rows : List CsvRow) : Prop :=
  rows.IsChain fun row next =>
    ¬(row.lineEnd = .cr ∧ next.Blank ∧ next.lineEnd = .lf)

/-! ## Reading what was written -/

namespace CsvReader

/-- The reader between two rows. -/
def between (rows : List (List String)) : CsvReader := { rows := rows }

/-- Behind the last field of a row, outside quotes. -/
structure Holds (reader : CsvReader) (rows : List (List String))
    (texts : List String) : Prop where
  closed : reader.inQuotes = false
  rows_eq : reader.rows = rows
  row_eq : reader.row ++ [String.ofList reader.field] = texts

/-- A quote opens a field. -/
theorem read_quote (reader : CsvReader) (closed : reader.inQuotes = false)
    (rest : List Char) :
    reader.read ('"' :: rest) = { reader with inQuotes := true }.read rest := by
  rw [read.eq_def]
  dsimp only
  rw [closed]
  rfl

/-- A comma ends a field. -/
theorem read_comma (reader : CsvReader) (closed : reader.inQuotes = false)
    (rest : List Char) :
    reader.read (',' :: rest) = reader.endField.read rest := by
  rw [read.eq_def]
  dsimp only
  rw [closed]
  rfl

/-- A line feed ends a row. -/
theorem read_lf (reader : CsvReader) (closed : reader.inQuotes = false)
    (rest : List Char) :
    reader.read ('\n' :: rest) = reader.endRow.read rest := by
  rw [read.eq_def]
  dsimp only
  rw [closed]
  rfl

/-- So do a carriage return and a line feed, once. -/
theorem read_crlf (reader : CsvReader) (closed : reader.inQuotes = false)
    (rest : List Char) :
    reader.read ('\r' :: '\n' :: rest) = reader.endRow.read rest := by
  rw [read.eq_def]
  dsimp only
  rw [closed]
  rfl

/-- So does a carriage return alone. -/
theorem read_cr (reader : CsvReader) (closed : reader.inQuotes = false)
    {rest : List Char} (alone : rest.head? ≠ some '\n') :
    reader.read ('\r' :: rest) = reader.endRow.read rest := by
  rw [read.eq_def]
  dsimp only
  rw [closed, if_neg Bool.false_ne_true, if_neg (by decide),
    if_neg (by decide), if_pos rfl]
  split
  · exact absurd rfl alone
  · rfl

/-- Any other character belongs to the field. -/
theorem read_plain_char (reader : CsvReader) (closed : reader.inQuotes = false)
    {c : Char} (plain : needsQuotes c = false) (rest : List Char) :
    reader.read (c :: rest) = (reader.append c).read rest := by
  unfold needsQuotes at plain
  simp only [Bool.or_eq_false_iff, beq_eq_false_iff_ne] at plain
  obtain ⟨⟨⟨comma, quote⟩, cr⟩, lf⟩ := plain
  rw [read.eq_def]
  dsimp only
  rw [closed, if_neg Bool.false_ne_true, if_neg quote, if_neg comma,
    if_neg cr, if_neg lf]

/-- So does a text without special characters. -/
theorem read_plain (reader : CsvReader) (closed : reader.inQuotes = false)
    {text : List Char} (plain : text.any needsQuotes = false)
    (rest : List Char) :
    reader.read (text ++ rest) =
      { reader with field := reader.field ++ text }.read rest := by
  induction text generalizing reader with
  | nil => simp
  | cons c text inductionHypothesis =>
      rw [List.any_cons, Bool.or_eq_false_iff] at plain
      rw [List.cons_append, read_plain_char reader closed plain.1,
        inductionHypothesis (reader.append c) closed plain.2]
      simp [append]

/-- Inside quotes everything is read as it is, up to a quote that stands
alone. -/
theorem read_doubleQuotes (reader : CsvReader) (opened : reader.inQuotes = true)
    (text : List Char) {rest : List Char} (alone : rest.head? ≠ some '"') :
    reader.read (doubleQuotes text ++ '"' :: rest) =
      { reader with field := reader.field ++ text, inQuotes := false }.read
        rest := by
  induction text generalizing reader with
  | nil =>
      rw [doubleQuotes, List.flatMap_nil, List.nil_append, read.eq_def]
      dsimp only
      rw [opened, if_pos rfl, if_pos rfl, List.append_nil]
      split
      · exact absurd rfl alone
      · rfl
  | cons c text inductionHypothesis =>
      have step : reader.read (doubleQuotes (c :: text) ++ '"' :: rest) =
          (reader.append c).read (doubleQuotes text ++ '"' :: rest) := by
        unfold doubleQuotes
        rw [List.flatMap_cons]
        by_cases quote : c = '"'
        · rw [if_pos quote, quote, List.cons_append, List.cons_append,
            read.eq_def]
          dsimp only
          rw [opened, if_pos rfl, if_pos rfl]
          rfl
        · rw [if_neg quote, List.cons_append, List.cons_append, read.eq_def]
          dsimp only
          rw [opened, if_pos rfl, if_neg quote]
          rfl
      rw [step, inductionHypothesis (reader.append c) opened]
      simp [append]

/-- A written field is read whole, whatever comes after it but a quote. -/
theorem read_field (reader : CsvReader) (closed : reader.inQuotes = false)
    (field : CsvField) {rest : List Char} (alone : rest.head? ≠ some '"') :
    reader.read (field.render ++ rest) =
      { reader with field := reader.field ++ field.text.toList }.read rest := by
  unfold CsvField.render
  cases quoted : field.quoted with
  | true =>
      rw [if_pos rfl, List.cons_append, List.append_assoc,
        read_quote reader closed]
      exact (read_doubleQuotes _ rfl _ alone).trans (by rw [closed])
  | false =>
      have plain : field.text.toList.any needsQuotes = false := by
        rw [← Bool.not_eq_true]
        intro needs
        rw [field.legal needs] at quoted
        exact absurd quoted (by simp)
      rw [if_neg Bool.false_ne_true]
      exact read_plain reader closed plain rest

/-! ## Rows -/

variable {reader : CsvReader} {rows : List (List String)} {texts : List String}

/-- The end of a row keeps what was read. -/
theorem Holds.endRow_eq (holds : reader.Holds rows texts) :
    reader.endRow = between (rows ++ [texts]) := by
  unfold endRow between
  rw [holds.row_eq, holds.rows_eq, holds.closed]

/-- A last row without any text is dropped. -/
theorem Holds.finish_eq (holds : reader.Holds rows texts) :
    reader.finish = rows ++ if texts = [""] then [] else [texts] := by
  have vacant : texts = [""] ↔ reader.field = [] ∧ reader.row = [] := by
    rw [← holds.row_eq]
    constructor
    · intro single
      have noRow : reader.row = [] := by
        have length := congrArg List.length single
        rw [List.length_append] at length
        exact List.eq_nil_of_length_eq_zero (by simpa using length)
      rw [noRow, List.nil_append, List.singleton_inj] at single
      exact ⟨by rw [← String.toList_ofList (l := reader.field), single]; rfl,
        noRow⟩
    · rintro ⟨noField, noRow⟩
      rw [noField, noRow]
      rfl
  unfold finish
  by_cases single : texts = [""]
  · obtain ⟨noField, noRow⟩ := vacant.mp single
    rw [if_pos single, if_neg (by simp [noField, noRow]), holds.rows_eq,
      List.append_nil]
  · rw [if_neg single, if_pos (by
      rw [← not_and_or]
      exact fun both => single (vacant.mpr both)), holds.endRow_eq]
    rfl

/-- What follows a field is no quote. -/
theorem head?_others_ne
    (others : List CsvField) {rest : List Char} (alone : rest.head? ≠ some '"') :
    ((others.flatMap fun field => ',' :: field.render) ++ rest).head? ≠
      some '"' := by
  cases others with
  | nil => exact alone
  | cons next others =>
      rw [List.flatMap_cons, List.cons_append, List.cons_append,
        List.head?_cons]
      decide

/-- The fields behind the first are read back. -/
theorem read_others (holds : reader.Holds rows texts) (others : List CsvField)
    {rest : List Char} (alone : rest.head? ≠ some '"') :
    ∃ last : CsvReader, last.Holds rows (texts ++ others.map CsvField.text) ∧
      reader.read ((others.flatMap fun field => ',' :: field.render) ++ rest) =
        last.read rest := by
  induction others generalizing reader texts with
  | nil => exact ⟨reader, by simpa using holds, rfl⟩
  | cons field others inductionHypothesis =>
      have afterField := head?_others_ne others alone
      have read : reader.read (((field :: others).flatMap
          fun field : CsvField => ',' :: field.render) ++ rest) =
          { reader.endField with field := field.text.toList }.read
            ((others.flatMap fun field : CsvField => ',' :: field.render) ++
              rest) := by
        rw [List.flatMap_cons, List.cons_append, List.cons_append,
          read_comma reader holds.closed, List.append_assoc,
          read_field reader.endField holds.closed field afterField]
        rfl
      have next : Holds { reader.endField with field := field.text.toList }
          rows (texts ++ [field.text]) := by
        refine ⟨holds.closed, holds.rows_eq, ?_⟩
        dsimp only [endField]
        rw [holds.row_eq, String.ofList_toList]
      obtain ⟨last, held, readOthers⟩ := inductionHypothesis next
      refine ⟨last, ?_, read.trans readOthers⟩
      rwa [List.append_assoc] at held

/-- A written row is read up to its line end. -/
theorem read_row (rows : List (List String)) (row : CsvRow) {rest : List Char}
    (alone : rest.head? ≠ some '"') :
    ∃ last : CsvReader, last.Holds rows row.texts ∧
      (between rows).read (row.render ++ rest) = last.read rest := by
  have first : Holds { rows := rows, field := row.first.text.toList } rows
      [row.first.text] := by
    refine ⟨rfl, rfl, ?_⟩
    dsimp only
    rw [String.ofList_toList]
    rfl
  obtain ⟨last, held, readOthers⟩ := read_others first row.others alone
  have afterFirst := head?_others_ne row.others alone
  refine ⟨last, held, ?_⟩
  unfold CsvRow.render
  rw [List.append_assoc, read_field (between rows) rfl row.first afterFirst]
  exact readOthers

end CsvReader

/-! ## Tables -/

/-- The rows that are read: the LF of an empty row belongs to a CR before it. -/
def mergedRows : List CsvRow → List CsvRow
  | [] => []
  | [row] => [row]
  | row :: next :: rows =>
      if row.lineEnd = .cr ∧ next.Blank ∧ next.lineEnd = .lf then
        row :: mergedRows rows
      else row :: mergedRows (next :: rows)

/-- Merging line ends merges rows at most. -/
theorem length_mergedRows_le (rows : List CsvRow) :
    (mergedRows rows).length ≤ rows.length := by
  induction rows using mergedRows.induct with
  | case1 => exact Nat.le_refl _
  | case2 row => exact Nat.le_refl _
  | case3 row next rows swallowed inductionHypothesis =>
      rw [mergedRows, if_pos swallowed, List.length_cons, List.length_cons,
        List.length_cons]
      omega
  | case4 row next rows apart inductionHypothesis =>
      rw [mergedRows, if_neg apart, List.length_cons, List.length_cons]
      omega

/-- No row is lost exactly if the line ends stay apart. -/
theorem length_mergedRows_iff (rows : List CsvRow) :
    (mergedRows rows).length = rows.length ↔ LineEndsApart rows := by
  unfold LineEndsApart
  induction rows using mergedRows.induct with
  | case1 => simp [mergedRows]
  | case2 row => simp [mergedRows]
  | case3 row next rows swallowed inductionHypothesis =>
      have shorter := length_mergedRows_le rows
      rw [mergedRows, if_pos swallowed, List.isChain_cons_cons, List.length_cons,
        List.length_cons, List.length_cons]
      constructor
      · intro same
        omega
      · exact fun chain => absurd swallowed chain.1
  | case4 row next rows apart inductionHypothesis =>
      rw [mergedRows, if_neg apart, List.isChain_cons_cons, List.length_cons,
        List.length_cons (a := row), Nat.add_right_cancel_iff, inductionHypothesis,
        and_iff_right apart]

/-- Line ends that stay apart merge no rows. -/
theorem mergedRows_of_apart {rows : List CsvRow} (apart : LineEndsApart rows) :
    mergedRows rows = rows := by
  induction rows using mergedRows.induct with
  | case1 => rfl
  | case2 row => rfl
  | case3 row next rows swallowed inductionHypothesis =>
      exact absurd swallowed (List.isChain_cons_cons.mp apart).1
  | case4 row next rows _ inductionHypothesis =>
      rw [mergedRows, if_neg (by assumption),
        inductionHypothesis (List.isChain_cons_cons.mp apart).2]

/-- No written row starts with a line end. -/
theorem CsvRow.head?_render (row : CsvRow) : row.render.head? ≠ some '\n' := by
  unfold CsvRow.render CsvField.render
  cases quoted : row.first.quoted with
  | true =>
      rw [if_pos rfl, List.cons_append, List.head?_cons]
      decide
  | false =>
      rw [if_neg Bool.false_ne_true]
      cases textEq : row.first.text.toList with
      | nil =>
          cases row.others with
          | nil => exact nofun
          | cons next others =>
              rw [List.nil_append, List.flatMap_cons, List.cons_append,
                List.head?_cons]
              decide
      | cons c text =>
          rw [List.cons_append, List.head?_cons]
          rintro isLf
          have needs : row.first.text.toList.any needsQuotes = true := by
            rw [textEq, Option.some.inj isLf]
            rfl
          rw [row.first.legal needs] at quoted
          exact absurd quoted (by simp)

/-- A line end begins with no quote. -/
theorem LineEnd.render_ne_quote (lineEnd : LineEnd) (rest : List Char) :
    (lineEnd.render ++ rest).head? ≠ some '"' := by
  cases lineEnd <;> exact fun quote => absurd (Option.some.inj quote) (by decide)

namespace CsvReader

/-- A row is over at its line end, and the next one begins behind it. -/
theorem read_lineEnd
    {reader : CsvReader} {rows : List (List String)} {texts : List String}
    (holds : reader.Holds rows texts) (lineEnd : LineEnd) {rest : List Char}
    (apart : lineEnd = .cr → rest.head? ≠ some '\n') :
    reader.read (lineEnd.render ++ rest) =
      (between (rows ++ [texts])).read rest := by
  rw [← holds.endRow_eq]
  cases lineEnd with
  | lf => exact read_lf reader holds.closed rest
  | crlf => exact read_crlf reader holds.closed rest
  | cr => exact read_cr reader holds.closed (apart rfl)

/-- A row with its line end. -/
theorem read_rowEnd
    (rows : List (List String)) (row : CsvRow) {rest : List Char}
    (apart : row.lineEnd = .cr → rest.head? ≠ some '\n') :
    (between rows).read (row.render ++ row.lineEnd.render ++ rest) =
      (between (rows ++ [row.texts])).read rest := by
  obtain ⟨last, holds, read⟩ := read_row rows row
    (row.lineEnd.render_ne_quote rest)
  rw [List.append_assoc, read, read_lineEnd holds row.lineEnd apart]

/-- A CR takes the LF of an empty row behind it along. -/
theorem read_swallowed
    (rows : List (List String)) {row next : CsvRow}
    (swallowed : row.lineEnd = .cr ∧ next.Blank ∧ next.lineEnd = .lf)
    (rest : List Char) :
    (between rows).read (row.render ++ row.lineEnd.render ++
        (next.render ++ next.lineEnd.render ++ rest)) =
      (between (rows ++ [row.texts])).read rest := by
  obtain ⟨isCr, blank, isLf⟩ := swallowed
  obtain ⟨last, holds, read⟩ := read_row rows row
    (LineEnd.crlf.render_ne_quote rest)
  rw [isCr, blank, isLf, List.append_assoc, ← holds.endRow_eq]
  exact read.trans (read_crlf last holds.closed rest)

/-- Rows are read back, merged where line ends are. -/
theorem read_rows
    (rows : List CsvRow) (before : List (List String)) {rest : List Char}
    (apart : rest.head? ≠ some '\n') :
    (between before).read (renderRows rows ++ rest) =
      (between (before ++ (mergedRows rows).map CsvRow.texts)).read rest := by
  unfold renderRows
  induction rows using mergedRows.induct generalizing before with
  | case1 => simp [mergedRows]
  | case2 row =>
      rw [List.flatMap_singleton]
      exact read_rowEnd before row fun _ => apart
  | case3 row next rows swallowed inductionHypothesis =>
      rw [List.flatMap_cons, List.flatMap_cons, List.append_assoc,
        List.append_assoc (next.render ++ next.lineEnd.render),
        read_swallowed before swallowed, inductionHypothesis, mergedRows,
        if_pos swallowed, List.map_cons, List.append_assoc]
      rfl
  | case4 row next rows distinct inductionHypothesis =>
      rw [List.flatMap_cons, List.append_assoc, read_rowEnd before row,
        inductionHypothesis, mergedRows, if_neg distinct, List.map_cons,
        List.append_assoc]
      · rfl
      · intro isCr isLf
        rw [List.flatMap_cons, List.append_assoc, List.append_assoc] at isLf
        apply distinct
        cases written : next.render with
        | nil =>
            refine ⟨isCr, written, ?_⟩
            rw [written, List.nil_append] at isLf
            cases lineEnd : next.lineEnd with
            | lf => rfl
            | crlf =>
                rw [lineEnd] at isLf
                exact absurd (Option.some.inj isLf) (by decide)
            | cr =>
                rw [lineEnd] at isLf
                exact absurd (Option.some.inj isLf) (by decide)
        | cons c text =>
            refine absurd ?_ next.head?_render
            rw [written] at isLf ⊢
            exact isLf

end CsvReader

/-- What is read of a table. -/
theorem parseSimpleCsv_renderCsv
    (rows : List CsvRow) (lastRow : Option CsvRow) :
    parseSimpleCsv (renderCsv rows lastRow) =
      ((mergedRows rows) ++ lastRow.toList.filter (¬·.Vacant)).map
        CsvRow.texts := by
  unfold parseSimpleCsv renderCsv
  rw [String.toList_ofList]
  cases lastRow with
  | none =>
      have ended : ([] : List Char).head? ≠ some '\n' := nofun
      have read := CsvReader.read_rows rows [] ended
      exact (congrArg CsvReader.finish read).trans (by
        simp [CsvReader.read, CsvReader.finish, CsvReader.between])
  | some row =>
      have read := CsvReader.read_rows rows [] row.head?_render
      have ended : ([] : List Char).head? ≠ some '"' := nofun
      obtain ⟨last, holds, readRow⟩ := CsvReader.read_row
        ((mergedRows rows).map CsvRow.texts) row ended
      rw [List.append_nil] at readRow
      refine (congrArg CsvReader.finish (read.trans readRow)).trans ?_
      have finished := holds.finish_eq
      rw [CsvReader.read, finished, List.map_append]
      congr 1
      unfold CsvRow.Vacant
      by_cases vacant : row.texts = [""] <;> simp [vacant]

/-- The reader inverts the writing exactly if the line ends stay apart and a
last row without line end is not a single empty field. -/
theorem readsBack_iff (rows : List CsvRow) (lastRow : Option CsvRow) :
    ReadsBack rows lastRow ↔
      LineEndsApart rows ∧ ∀ row ∈ lastRow, ¬row.Vacant := by
  unfold ReadsBack
  rw [parseSimpleCsv_renderCsv]
  constructor
  · intro same
    have lengths := congrArg List.length same
    rw [List.length_map, List.length_map, List.length_append,
      List.length_append] at lengths
    have merged := length_mergedRows_le rows
    have filtered := List.length_filter_le (¬·.Vacant) lastRow.toList
    refine ⟨(length_mergedRows_iff rows).mp (by omega), fun row isLast => ?_⟩
    have kept : lastRow.toList.filter (¬·.Vacant) = lastRow.toList :=
      List.filter_sublist.eq_of_length (by omega)
    have inKept : row ∈ lastRow.toList.filter (¬·.Vacant) := by
      rw [kept, Option.mem_toList]
      exact isLast
    exact of_decide_eq_true (List.mem_filter.mp inKept).2
  · rintro ⟨apart, occupied⟩
    have kept : lastRow.toList.filter (¬·.Vacant) = lastRow.toList := by
      rw [List.filter_eq_self]
      exact fun row member => decide_eq_true
        (occupied row (Option.mem_toList.mp member))
    rw [mergedRows_of_apart apart, kept]

/-- A quoted empty field at the end of the text is not read. -/
theorem not_readsBack_quoted :
    let row : CsvRow := ⟨⟨"", true, fun _ => rfl⟩, [], .lf⟩
    ¬row.Blank ∧ ¬ReadsBack [] (some row) := by
  unfold ReadsBack
  decide

end VortarisECS
