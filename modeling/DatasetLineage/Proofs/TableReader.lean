/-
Module: DatasetLineage.Proofs.TableReader
Purpose: A reader for CSV, and what it makes of a table. Commas end fields and line breaks end
  records; between quotation marks both are characters of the field, and a doubled quotation mark
  stands for one. A table with at least two fields in each record is read as its records, whatever
  is in them. A dataset of a program always has a name, so an empty field tells what is missing in
  an edge, and the rows of a table of edges give back the edges.
Main exports: CsvPlace, CsvScan, readCsv?, WritesCsv.readCsv?_table, Edge.ofRow?, ReadsAsEdges,
  Edge.IsNamed, readsAsEdges_of_isNamed, Extraction.isNamed_of_mem_edges,
  Extraction.readsAsEdges_edgeTable
-/
import DatasetLineage.Proofs.PrintedNames

namespace DatasetLineage

open Text

/-! ### The reader -/

section Reader

/-- Whether a character breaks lines. -/
def isLineBreak (c : Char) : Bool := c == '\r' || c == '\n'

/-- Where a reader stands between two characters, with what it has read of a field latest first.
    - `recordStart`: in front of a record; line breaks are passed over.
    - `fieldStart`: behind a comma.
    - `plain`: in a field without quotation marks.
    - `quoted`: between quotation marks.
    - `quoteSeen`: behind a quotation mark that ends the field, unless another one follows.
    - `broken`: behind a character that cannot stand where it stands. -/
inductive CsvPlace where
  | recordStart
  | fieldStart
  | plain (field : List Char)
  | quoted (field : List Char)
  | quoteSeen (field : List Char)
  | broken
deriving DecidableEq, Repr

/-- A reader between two characters: the records that are complete and the fields of the next one
    that are, latest first, and its place. -/
structure CsvScan where
  records : List (List String)
  fields : List String
  place : CsvPlace
deriving DecidableEq, Repr

namespace CsvScan

/-- A reader that has read nothing. -/
def start : CsvScan := ⟨[], [], .recordStart⟩

/-- The reader behind the comma that ends a field. -/
def endField (scan : CsvScan) (field : List Char) : CsvScan :=
  ⟨scan.records, String.ofList field.reverse :: scan.fields, .fieldStart⟩

/-- The reader behind the line break that ends a field and its record. -/
def endRecord (scan : CsvScan) (field : List Char) : CsvScan :=
  ⟨(String.ofList field.reverse :: scan.fields).reverse :: scan.records, [], .recordStart⟩

/-- The reader behind a character outside of quotation marks, which ends the field or leads on to a
    place. -/
def leaveOr (scan : CsvScan) (field : List Char) (c : Char) (place : CsvPlace) : CsvScan :=
  if c = ',' then scan.endField field
  else if isLineBreak c then scan.endRecord field
  else { scan with place }

/-- The reader behind the first character of a field, or behind the end of an empty one. -/
def begin (scan : CsvScan) (c : Char) : CsvScan :=
  if c = '\x22' then { scan with place := .quoted [] } else scan.leaveOr [] c (.plain [c])

/-- The reader behind one more character. -/
def step (scan : CsvScan) (c : Char) : CsvScan :=
  match scan.place with
  | .recordStart => if isLineBreak c then scan else scan.begin c
  | .fieldStart => scan.begin c
  | .plain field => scan.leaveOr field c (if c = '\x22' then .broken else .plain (c :: field))
  | .quoted field =>
    { scan with place := if c = '\x22' then .quoteSeen field else .quoted (c :: field) }
  | .quoteSeen field =>
    scan.leaveOr field c (if c = '\x22' then .quoted (c :: field) else .broken)
  | .broken => scan

/-- The reader behind a stretch of text. -/
def read (scan : CsvScan) (text : List Char) : CsvScan := text.foldl step scan

end CsvScan

/-- The records of a text, unless it ends between quotation marks or is broken. The last record
    needs no line break. -/
def readCsv? (text : List Char) : Option (List (List String)) :=
  let scan := CsvScan.start.read text
  match scan.place with
  | .recordStart => some scan.records.reverse
  | .fieldStart => some (scan.endRecord []).records.reverse
  | .plain field | .quoteSeen field => some (scan.endRecord field).records.reverse
  | .quoted _ | .broken => none

end Reader

/-! ### What is read of a table -/

section Tables

variable {scan : CsvScan} {field : List Char} {c : Char}
variable {written : String → List Char} {table : List (List String) → String}

theorem needsCsvQuotes_eq_false :
    needsCsvQuotes c = false ↔ c ≠ ',' ∧ c ≠ '\x22' ∧ isLineBreak c = false := by
  simp [needsCsvQuotes, isLineBreak, and_assoc]

theorem intercalate_map_cons_cons (written : String → List Char) (first second : String)
    (rest : List String) :
    [','].intercalate ((first :: second :: rest).map written) =
      written first ++ ',' :: [','].intercalate ((second :: rest).map written) := by
  simp [List.intercalate_cons_cons]

/-- Whether a field has been read at a place, so that it ends there if its end follows. -/
def CsvPlace.HasRead (place : CsvPlace) (field : List Char) : Prop :=
  place = .plain field ∨ place = .quoteSeen field ∨ place = .fieldStart ∧ field = []

namespace CsvScan

theorem read_append (scan : CsvScan) (front back : List Char) :
    scan.read (front ++ back) = (scan.read front).read back := List.foldl_append

theorem step_comma (hasRead : scan.place.HasRead field) : scan.step ',' = scan.endField field := by
  rcases hasRead with here | here | ⟨here, rfl⟩ <;> simp [step, begin, leaveOr, here]

theorem step_lineFeed (hasRead : scan.place.HasRead field) :
    scan.step '\n' = scan.endRecord field := by
  rcases hasRead with here | here | ⟨here, rfl⟩ <;>
    simp [step, begin, leaveOr, here, isLineBreak]

/-- Characters that need no quotation marks are read as they are. -/
theorem read_plain (records : List (List String)) (fields : List String) (acc : List Char)
    {text : List Char} (plain : ∀ c ∈ text, needsCsvQuotes c = false) :
    (mk records fields (.plain acc)).read text =
      ⟨records, fields, .plain (text.reverse ++ acc)⟩ := by
  induction text generalizing acc with
  | nil =>
      rfl
  | cons c text ih =>
      rw [List.forall_mem_cons, needsCsvQuotes_eq_false] at plain
      obtain ⟨⟨notComma, notQuote, noBreak⟩, later⟩ := plain
      have here : (mk records fields (.plain acc)).step c =
          ⟨records, fields, .plain (c :: acc)⟩ := by
        simp [step, leaveOr, notComma, notQuote, noBreak]
      have rest := ih (c :: acc) later
      rw [← here] at rest
      rw [List.reverse_cons, List.append_assoc, List.singleton_append]
      exact rest

/-- Between quotation marks, doubled ones are read as one and nothing ends. -/
theorem read_doubled (records : List (List String)) (fields : List String)
    (acc text : List Char) :
    (mk records fields (.quoted acc)).read (doubled '\x22' text) =
      ⟨records, fields, .quoted (text.reverse ++ acc)⟩ := by
  induction text generalizing acc with
  | nil =>
      rfl
  | cons c text ih =>
      have later := ih (c :: acc)
      rw [List.reverse_cons, List.append_assoc, List.singleton_append, ← later]
      by_cases quotation : c = '\x22'
      · subst quotation
        have split : doubled '\x22' ('\x22' :: text) = '\x22' :: '\x22' :: doubled '\x22' text :=
          rfl
        rw [split]
        rfl
      · have split : doubled '\x22' (c :: text) = c :: doubled '\x22' text := by
          simp [doubled, quotation]
        simp [split, read, step, quotation]

/-- A field is read as its content. -/
theorem read_field (writes : WritesCsv written table) (records : List (List String))
    (fields : List String) (content : String) :
    ∃ place, (mk records fields .fieldStart).read (written content) = ⟨records, fields, place⟩ ∧
      place.HasRead content.toList.reverse := by
  by_cases plain : ∀ c ∈ content.toList, needsCsvQuotes c = false
  · rw [writes.plain content plain]
    cases chars : content.toList with
    | nil =>
        exact ⟨.fieldStart, rfl, .inr (.inr ⟨rfl, rfl⟩)⟩
    | cons c text =>
        rw [chars, List.forall_mem_cons, needsCsvQuotes_eq_false] at plain
        obtain ⟨⟨notComma, notQuote, noBreak⟩, later⟩ := plain
        have here : (mk records fields .fieldStart).step c = ⟨records, fields, .plain [c]⟩ := by
          simp [step, begin, leaveOr, notComma, notQuote, noBreak]
        have rest := read_plain records fields [c] later
        rw [← here, ← List.reverse_cons] at rest
        exact ⟨_, rest, .inl rfl⟩
  · have inside := read_doubled records fields [] content.toList
    have opening : (mk records fields .fieldStart).step '\x22' = ⟨records, fields, .quoted []⟩ :=
      rfl
    rw [List.append_nil, ← opening] at inside
    have whole : (mk records fields .fieldStart).read (written content) =
        (((mk records fields .fieldStart).step '\x22').read
          (doubled '\x22' content.toList)).step '\x22' := by
      rw [writes.quoted content plain]
      exact read_append _ _ _
    rw [whole, inside]
    exact ⟨_, rfl, .inr (.inl rfl)⟩

theorem read_field_comma (writes : WritesCsv written table) (records : List (List String))
    (fields : List String) (content : String) (text : List Char) :
    (mk records fields .fieldStart).read (written content ++ ',' :: text) =
      (mk records (content :: fields) .fieldStart).read text := by
  obtain ⟨place, reads, hasRead⟩ := read_field writes records fields content
  have ended : (mk records fields place).step ',' = mk records (content :: fields) .fieldStart :=
    (step_comma hasRead).trans (by simp [endField])
  rw [read_append, reads, ← ended]
  rfl

theorem read_field_lineFeed (writes : WritesCsv written table) (records : List (List String))
    (fields : List String) (content : String) :
    (mk records fields .fieldStart).read (written content ++ ['\n']) =
      ⟨(fields.reverse ++ [content]) :: records, [], .recordStart⟩ := by
  obtain ⟨place, reads, hasRead⟩ := read_field writes records fields content
  rw [read_append, reads]
  exact (step_lineFeed hasRead).trans (by simp [endRecord])

/-- The fields of a record are read up to the line feed behind them. -/
theorem read_fields (writes : WritesCsv written table) (records : List (List String))
    (fields : List String) (first : String) (rest : List String) :
    (mk records fields .fieldStart).read
        ([','].intercalate ((first :: rest).map written) ++ ['\n']) =
      ⟨(fields.reverse ++ first :: rest) :: records, [], .recordStart⟩ := by
  induction rest generalizing fields first with
  | nil =>
      rw [List.map_singleton, List.intercalate_singleton]
      exact read_field_lineFeed writes records fields first
  | cons second rest ih =>
      rw [intercalate_map_cons_cons, List.append_assoc, List.cons_append,
        read_field_comma writes, ih]
      simp

/-- In front of a record a reader stands as in front of its first field, unless the line is
    empty. -/
theorem read_of_recordStart (records : List (List String)) (fields : List String)
    (noBreak : isLineBreak c = false) (text : List Char) :
    (mk records fields .recordStart).read (c :: text) =
      (mk records fields .fieldStart).read (c :: text) := by
  have here : (mk records fields .recordStart).step c = (mk records fields .fieldStart).step c := by
    simp [step, begin, leaveOr, noBreak, endField]
  exact congrArg (fun scan => scan.read text) here

theorem exists_record_eq_cons (writes : WritesCsv written table) (first second : String)
    (rest : List String) :
    ∃ c text, [','].intercalate ((first :: second :: rest).map written) ++ ['\n'] = c :: text ∧
      isLineBreak c = false := by
  rw [intercalate_map_cons_cons]
  by_cases plain : ∀ c ∈ first.toList, needsCsvQuotes c = false
  · rw [writes.plain first plain]
    cases chars : first.toList with
    | nil =>
        exact ⟨',', _, rfl, rfl⟩
    | cons c text =>
        rw [chars] at plain
        exact ⟨c, _, rfl, (needsCsvQuotes_eq_false.mp (plain c List.mem_cons_self)).2.2⟩
  · rw [writes.quoted first plain]
    exact ⟨'\x22', _, rfl, rfl⟩

/-- A record of two fields or more is read as its fields. -/
theorem read_record (writes : WritesCsv written table) (records : List (List String))
    {record : List String} (wide : 2 ≤ record.length) :
    (mk records [] .recordStart).read ([','].intercalate (record.map written) ++ ['\n']) =
      ⟨record :: records, [], .recordStart⟩ := by
  match record with
  | first :: second :: rest =>
      obtain ⟨c, text, begins, noBreak⟩ := exists_record_eq_cons writes first second rest
      rw [begins, read_of_recordStart records [] noBreak, ← begins]
      exact read_fields writes records [] first (second :: rest)

theorem read_flatMap_record (writes : WritesCsv written table) (done records : List (List String))
    (wide : ∀ record ∈ records, 2 ≤ record.length) :
    (mk done [] .recordStart).read
        (records.flatMap fun record => [','].intercalate (record.map written) ++ ['\n']) =
      ⟨records.reverse ++ done, [], .recordStart⟩ := by
  induction records generalizing done with
  | nil =>
      rfl
  | cons record records ih =>
      rw [List.forall_mem_cons] at wide
      rw [List.flatMap_cons, read_append, read_record writes done wide.1, ih _ wide.2]
      simp

end CsvScan

/-- A table that is written as usual is read as its records, if each has two fields or more. -/
theorem WritesCsv.readCsv?_table (writes : WritesCsv written table) {records : List (List String)}
    (wide : ∀ record ∈ records, 2 ≤ record.length) :
    readCsv? (table records).toList = some records := by
  have read := CsvScan.read_flatMap_record writes [] records wide
  rw [List.append_nil] at read
  rw [writes.lines records wide, readCsv?, CsvScan.start, read]
  simp

end Tables

example :
    readCsv? (csvTable [["", "a,\"b\"\r\n", ""], ["", ""]]).toList =
      some [["", "a,\"b\"\r\n", ""], ["", ""]] := by
  decide

/-- The edge that a row of four fields gives: an empty first field stands for no target, and where
    the second one is empty a file is read, whose path is the third one. -/
def Edge.ofRow? : List String → Option Edge
  | [target, dataset, path, origin] =>
    some ⟨if target = "" then none else some target,
      if dataset = "" then .file path else .dataset dataset, origin⟩
  | _ => none

/-- Whether a text is read as the table of some edges: under the header there is one row of four
    fields for each edge, in order, and the row gives back the edge. -/
def ReadsAsEdges (text : String) (edges : List Edge) : Prop :=
  ∃ rows, readCsv? text.toList =
      some (["target", "source", "source_file", "origin_file"] :: rows) ∧
    (∀ row ∈ rows, row.length = 4) ∧ rows.map Edge.ofRow? = edges.map some

/-- Whether the datasets of an edge have names. A path may be empty. -/
structure Edge.IsNamed (edge : Edge) : Prop where
  target : edge.target ≠ some ""
  source : edge.source ≠ .dataset ""

/-- The row of an edge gives it back, if its datasets have names. -/
theorem Edge.ofRow?_row {edge : Edge} (named : edge.IsNamed) : ofRow? edge.row = some edge := by
  obtain ⟨target, source, origin⟩ := edge
  obtain ⟨hasTarget, hasSource⟩ := named
  have target_eq : (if target.getD "" = "" then none else some (target.getD "")) = target := by
    cases target with
    | none =>
        rfl
    | some name =>
        have nonempty : name ≠ "" := fun empty => hasTarget (congrArg some empty)
        simp [nonempty]
  cases source with
  | dataset name =>
      have nonempty : name ≠ "" := fun empty => hasSource (congrArg Node.dataset empty)
      simp [row, ofRow?, target_eq, sourceDataset?, sourceFile?, nonempty]
  | file path =>
      simp [row, ofRow?, target_eq, sourceDataset?, sourceFile?]

theorem Edge.length_row {edges : List Edge} : ∀ row ∈ edges.map Edge.row, row.length = 4 := by
  intro row member
  obtain ⟨edge, _, rfl⟩ := List.mem_map.mp member
  rfl

theorem wide_rows (edges : List Edge) :
    ∀ record ∈ ["target", "source", "source_file", "origin_file"] :: edges.map Edge.row,
      2 ≤ record.length := by
  rw [List.forall_mem_cons]
  exact ⟨by decide, fun row member => by rw [Edge.length_row row member]; decide⟩

/-- The table of edges whose datasets have names is read as these edges. -/
theorem readsAsEdges_of_isNamed {edges : List Edge} (named : ∀ edge ∈ edges, edge.IsNamed) :
    ReadsAsEdges (edgeTable edges) edges := by
  refine ⟨edges.map Edge.row, ?_, Edge.length_row, ?_⟩
  · exact writesCsv_csvTable.readCsv?_table (wide_rows edges)
  · rw [List.map_map]
    exact List.map_congr_left fun edge given => Edge.ofRow?_row (named edge given)

/-! ### Names of datasets -/

section Names

/-- Lower case leaves no text empty. -/
theorem lowercase_ne_empty {text : String} (nonempty : text ≠ "") : lowercase text ≠ "" := by
  have form : ∀ c, lowercaseForm c ≠ [] := by
    intro c
    unfold lowercaseForm
    split
    · exact List.cons_ne_nil _ _
    · split <;> exact List.cons_ne_nil _ _
  intro empty
  have chars : text.toList ≠ [] := fun none => nonempty (String.toList_eq_nil_iff.mp none)
  obtain ⟨c, rest, split⟩ := List.exists_cons_of_ne_nil chars
  rw [← String.toList_eq_nil_iff, lowercase, String.toList_ofList, split, lowercaseFrom,
    List.append_eq_nil_iff] at empty
  split at empty
  · exact List.cons_ne_nil _ _ empty.1
  · exact form c empty.1

/-- An identifier of a text has a name. -/
theorem NamedIn.ne_empty {text name : String} (named : NamedIn text name) : name ≠ "" := by
  obtain ⟨token, _, _, rfl, spelling, piece, isNamed, spelled, front, back, split, _⟩ := named
  have member : piece ∈ Piece.ofText text.toList := by
    rw [split]
    exact List.mem_append_cons_self
  have hasCharacters := Piece.spelling_ne_nil_of_mem member
  have same : piece.spelling = spelling := by
    rcases isNamed with rfl | rfl
    · rfl
    · rfl
  apply lowercase_ne_empty
  rw [spelled, Ne, ← String.toList_eq_nil_iff, String.toList_ofList, ← same]
  exact hasCharacters

end Names

namespace Extraction

variable {files : List SourceFile} {edge : Edge}

/-- The datasets of every edge of some files have names. -/
theorem isNamed_of_mem_edges (given : edge ∈ (ofFiles files).edges) : edge.IsNamed := by
  obtain ⟨file, _, ofFile⟩ := mem_edges_ofFiles.mp given
  have taken := FileLineage.takenFrom_of_mem_edges ofFile
  constructor
  · intro empty
    exact (namedIn_of_namedBy (taken.target "" empty)).ne_empty rfl
  · intro empty
    exact (namedIn_of_namedBy (taken.dataset "" empty)).ne_empty rfl

/-- The table of the edges of some files loses none of them and nothing in them. -/
theorem readsAsEdges_edgeTable (files : List SourceFile) :
    ReadsAsEdges (edgeTable (ofFiles files).edges) (ofFiles files).edges :=
  readsAsEdges_of_isNamed fun _ given => isNamed_of_mem_edges given

end Extraction

end DatasetLineage
