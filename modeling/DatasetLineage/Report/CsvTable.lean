/-
Module: DatasetLineage.Report.CsvTable
Purpose: Tables in CSV. Fields are parted by commas, records end with a line feed, and a field is
  put in quotation marks, with those inside doubled, only if it holds a comma, a quotation mark, a
  carriage return or a line feed.
Main exports: csvField, csvRecord, csvTable, WritesCsv, writesCsv_csvTable
-/

namespace DatasetLineage

/-- Whether a character can stand in a field only inside quotation marks. -/
def needsCsvQuotes (c : Char) : Bool := c == ',' || c == '\x22' || c == '\r' || c == '\n'

/-- A field of a record. -/
def csvField (content : String) : List Char :=
  let chars := content.toList
  if chars.any needsCsvQuotes then
    '\x22' :: chars.flatMap (fun c => if c = '\x22' then ['\x22', '\x22'] else [c]) ++ ['\x22']
  else chars

/-- The fields of a record, with commas between them. -/
def csvFields : List String → List Char
  | [] => []
  | [last] => csvField last
  | field :: rest => csvField field ++ ',' :: csvFields rest

/-- A record with its line end. -/
def csvRecord (fields : List String) : List Char := csvFields fields ++ ['\n']

/-- A table, record after record. -/
def csvTable (records : List (List String)) : String :=
  String.ofList (records.flatMap csvRecord)

/-- What is taken for granted about the writing of tables.
    - `plain`: a field stands as it is if no character of it needs quotation marks.
    - `quoted`: any other field stands between quotation marks, and those in it are doubled.
    - `lines`: a table is its records, each with commas between its fields and a line feed behind
      them. Nothing is said about records of less than two fields. -/
structure WritesCsv (field : String → List Char) (table : List (List String) → String) : Prop where
  plain : ∀ content : String, (∀ c ∈ content.toList, needsCsvQuotes c = false) →
    field content = content.toList
  quoted : ∀ content : String, ¬ (∀ c ∈ content.toList, needsCsvQuotes c = false) →
    field content =
      '\x22' :: content.toList.flatMap (fun c => if c = '\x22' then [c, c] else [c]) ++ ['\x22']
  lines : ∀ records : List (List String), (∀ record ∈ records, 2 ≤ record.length) →
    (table records).toList =
      records.flatMap fun record => [','].intercalate (record.map field) ++ ['\n']

theorem csvFields_eq_intercalate (fields : List String) :
    csvFields fields = [','].intercalate (fields.map csvField) := by
  induction fields with
  | nil =>
      rfl
  | cons first rest ih =>
      cases rest with
      | nil =>
          exact (List.append_nil _).symm
      | cons second rest =>
          rw [csvFields, ih, List.map_cons, List.map_cons, List.map_cons,
            List.intercalate_cons_cons, List.append_assoc, List.singleton_append]
          exact fun empty => List.cons_ne_nil _ _ empty

theorem writesCsv_csvTable : WritesCsv csvField csvTable where
  plain content plain := by
    have none : content.toList.any needsCsvQuotes = false := by simpa using plain
    simp [csvField, none]
  quoted content notPlain := by
    have some : content.toList.any needsCsvQuotes = true := by simpa using notPlain
    have twice (c : Char) : (if c = '\x22' then ['\x22', '\x22'] else [c]) =
        if c = '\x22' then [c, c] else [c] := by
      split <;> simp_all
    simp [csvField, some, twice]
  lines records _ := by
    have record : csvRecord = fun fields => [','].intercalate (fields.map csvField) ++ ['\n'] := by
      funext fields
      rw [csvRecord, csvFields_eq_intercalate]
    rw [csvTable, String.toList_ofList, record]

end DatasetLineage
