/-
Module: DatasetLineage.Proofs.PrintedReports
Purpose: What is left of a report when it is printed. Blanks at the end of a report are dropped and
  a line feed is put there. That keeps all of a report but its own line feed, with one exception:
  the last field of a table stands at the end of the report, and where it is not quoted the blanks
  at its end are lost. The printed text is then the table of the edges whose last one comes from a
  file without these blanks.
Main exports: PrintsWhole, Edge.LosesBlanks, Edge.trimmed, printedEdges, printedText_edgeTable,
  Request.LosesBlanks, Request.Prints, Request.prints_of_run
-/
import DatasetLineage.Proofs.TableReader
import Mathlib.Data.List.DropRight

namespace DatasetLineage

open Text

/-- A report without the line feed at its end, if it has one. -/
def withoutLineFeed (report : List Char) : List Char :=
  if report.getLast? = some '\n' then report.dropLast else report

/-- Whether a text is a report with exactly one line feed at its end.
    - `kept`: nothing of the report is missing but its own line feed.
    - `single`: in front of the line feed there is no other one. -/
structure PrintsWhole (report text : String) : Prop where
  kept : text.toList = withoutLineFeed report.toList ++ ['\n']
  single : '\n' ∉ (withoutLineFeed report.toList).getLast?

/-! ### Ends of printed texts -/

section Ends

variable {report : String} {front back : List Char} {c : Char}

theorem toList_trimEnd (text : String) :
    (trimEnd text).toList = text.toList.rdropWhile isBlank := String.toList_ofList

theorem toList_printedText (report : String) :
    (printedText report).toList = report.toList.rdropWhile isBlank ++ ['\n'] := by
  rw [printedText, String.toList_append, toList_trimEnd]
  rfl

/-- Blanks are not dropped across a character that is not blank. -/
theorem rdropWhile_isBlank_append (solid : isBlank c = false) (front back : List Char) :
    (front ++ c :: back).rdropWhile isBlank = front ++ c :: back.rdropWhile isBlank := by
  rw [List.rdropWhile, List.rdropWhile, List.reverse_append, List.reverse_cons, List.append_assoc,
    List.dropWhile_append]
  cases blank : back.reverse.dropWhile isBlank with
  | nil =>
      simp [solid]
  | cons d rest =>
      simp

/-- A report is printed whole if only its own line feed is dropped. -/
theorem printsWhole_iff :
    PrintsWhole report (printedText report) ↔
      withoutLineFeed report.toList = report.toList.rdropWhile isBlank := by
  constructor
  · rintro ⟨kept, _⟩
    rw [toList_printedText] at kept
    exact (List.append_cancel_right kept).symm
  · intro same
    refine ⟨by rw [toList_printedText, same], ?_⟩
    rw [same]
    intro isLast
    obtain ⟨nonempty, isLast⟩ := List.mem_getLast?_eq_getLast isLast
    exact List.rdropWhile_last_not isBlank _ nonempty (isLast ▸ rfl)

/-- A report with a line feed at its end is printed whole if printing does not change it. -/
theorem printsWhole_iff_of_lineFeed (ends : report.toList = front ++ ['\n']) :
    PrintsWhole report (printedText report) ↔ printedText report = report := by
  have front_eq : withoutLineFeed (front ++ ['\n']) = front := by simp [withoutLineFeed]
  rw [printsWhole_iff, ← String.toList_inj, toList_printedText, ends, front_eq,
    List.append_left_inj]
  exact eq_comm

/-- A report that ends in a character that is not blank is printed whole. -/
theorem printsWhole_of_solid (solid : isBlank c = false) (ends : report.toList = front ++ [c]) :
    PrintsWhole report (printedText report) := by
  have notLineFeed : c ≠ '\n' := by
    rintro rfl
    exact absurd solid (by decide)
  have noBlank : ¬ isBlank c = true := by simp [solid]
  rw [printsWhole_iff, ends, List.rdropWhile_concat_neg _ _ _ noBlank]
  simp [withoutLineFeed, notLineFeed]

/-- So is one with a line feed behind such a character. -/
theorem printsWhole_of_solid_lineFeed (solid : isBlank c = false)
    (ends : report.toList = front ++ [c] ++ ['\n']) : PrintsWhole report (printedText report) := by
  have noBlank : ¬ isBlank c = true := by simp [solid]
  rw [printsWhole_iff, ends, List.rdropWhile_concat_pos _ _ _ rfl,
    List.rdropWhile_concat_neg _ _ _ noBlank]
  simp [withoutLineFeed]

end Ends

/-! ### Reports without blanks at their end -/

section Layouts

/-- A record ends in a brace. -/
theorem WritesJson.exists_record {character : Char → List Char} {line : Nat → List Char}
    {colon : List Char} {write : Nat → JsonValue → List Char}
    (writes : WritesJson character line colon write) (level : Nat)
    (fields : List (String × JsonValue)) :
    ∃ front, write level (.record fields) = front ++ ['\x7d'] := by
  rw [writes.record]
  cases fields with
  | nil =>
      exact ⟨['\x7b'], rfl⟩
  | cons field rest =>
      exact ⟨_, rfl⟩

theorem JsonValue.exists_render_record (pretty : Bool) (fields : List (String × JsonValue)) :
    ∃ front, ((JsonValue.record fields).render pretty).toList = front ++ ['\x7d'] := by
  rw [render, String.toList_ofList]
  cases pretty with
  | false =>
      exact writesJson_compact.exists_record 0 fields
  | true =>
      exact writesJson_indented.exists_record 0 fields

theorem JsonValue.printsWhole_render {value : JsonValue} {fields : List (String × JsonValue)}
    (isRecord : value = .record fields) (pretty : Bool) :
    PrintsWhole (value.render pretty) (printedText (value.render pretty)) := by
  obtain ⟨front, ends⟩ := exists_render_record pretty fields
  rw [isRecord]
  exact printsWhole_of_solid (by decide) ends

theorem LineageGraph.printsWhole_dotText (graph : LineageGraph) :
    PrintsWhole graph.dotText (printedText graph.dotText) := by
  have text : graph.dotText.toList = "digraph lineage \x7b\n    rankdir=LR;\n".toList ++
      graph.drawing.flatMap DrawingLine.text ++ "\x7d\n".toList := String.toList_ofList
  have lastLine : "\x7d\n".toList = ['\x7d'] ++ ['\n'] := rfl
  rw [lastLine, ← List.append_assoc] at text
  exact printsWhole_of_solid_lineFeed (by decide) text

end Layouts

/-- Whether the file that an edge comes from has a name that ends in a blank and is not quoted in a
    table. -/
def Edge.LosesBlanks (edge : Edge) : Prop :=
  (∀ c ∈ edge.origin.toList, needsCsvQuotes c = false) ∧
    ∃ c ∈ edge.origin.toList.getLast?, isBlank c = true

/-- An edge as it is printed at the end of a table. -/
def Edge.trimmed (edge : Edge) : Edge :=
  if edge.origin.toList.any needsCsvQuotes then edge
  else { edge with origin := trimEnd edge.origin }

/-- The edges that a printed table shows. -/
def printedEdges (edges : List Edge) : List Edge :=
  edges.dropLast ++ edges.getLast?.toList.map Edge.trimmed

/-! ### Tables -/

section Tables

variable {edges front : List Edge} {edge last : Edge}

@[simp] theorem printedEdges_concat (front : List Edge) (last : Edge) :
    printedEdges (front ++ [last]) = front ++ [last.trimmed] := by
  simp [printedEdges]

theorem Edge.trimmed_of_plain (plain : ∀ c ∈ edge.origin.toList, needsCsvQuotes c = false) :
    edge.trimmed = ⟨edge.target, edge.source, trimEnd edge.origin⟩ :=
  if_neg (by simpa using plain)

theorem Edge.trimmed_of_not_plain
    (notPlain : ¬ ∀ c ∈ edge.origin.toList, needsCsvQuotes c = false) : edge.trimmed = edge :=
  if_pos (by simpa using notPlain)

theorem Edge.IsNamed.isNamed_trimmed (named : edge.IsNamed) : edge.trimmed.IsNamed := by
  unfold trimmed
  split
  · exact named
  · exact ⟨named.target, named.source⟩

theorem isNamed_of_mem_printedEdges (named : ∀ edge ∈ edges, edge.IsNamed)
    (given : edge ∈ printedEdges edges) : edge.IsNamed := by
  rcases List.mem_append.mp given with inFront | shown
  · exact named edge (List.dropLast_subset edges inFront)
  · obtain ⟨last, isLast, rfl⟩ := List.mem_map.mp shown
    exact (named last (List.mem_of_getLast? (Option.mem_toList.mp isLast))).isNamed_trimmed

theorem trimEnd_eq_self_iff {text : String} :
    trimEnd text = text ↔ ¬ ∃ c ∈ text.toList.getLast?, isBlank c = true := by
  rw [← String.toList_inj, toList_trimEnd, List.rdropWhile_eq_self_iff]
  constructor
  · rintro solid ⟨c, isLast, blank⟩
    obtain ⟨nonempty, rfl⟩ := List.mem_getLast?_eq_getLast isLast
    exact solid nonempty blank
  · intro solid nonempty blank
    exact solid ⟨_, List.getLast?_eq_some_getLast nonempty, blank⟩

/-- An edge is shown as it is unless it loses blanks. -/
theorem Edge.trimmed_eq_self_iff : edge.trimmed = edge ↔ ¬ edge.LosesBlanks := by
  by_cases plain : ∀ c ∈ edge.origin.toList, needsCsvQuotes c = false
  · have same : (⟨edge.target, edge.source, trimEnd edge.origin⟩ : Edge) = edge ↔
        trimEnd edge.origin = edge.origin := by
      obtain ⟨target, source, origin⟩ := edge
      simp
    rw [trimmed_of_plain plain, same, trimEnd_eq_self_iff]
    exact not_congr ⟨fun blank => ⟨plain, blank⟩, And.right⟩
  · exact iff_of_true (trimmed_of_not_plain plain) fun loses => plain loses.1

/-- The origin of the last edge is the last field of a table, and a comma stands in front of it. -/
theorem exists_toList_edgeTable_concat (front : List Edge) (target : Option String)
    (source : Node) :
    ∃ above, ∀ origin, (edgeTable (front ++ [⟨target, source, origin⟩])).toList =
      above ++ ',' :: csvField origin ++ ['\n'] := by
  have row (origin : String) : [','].intercalate ((Edge.mk target source origin).row.map csvField) =
      [','].intercalate ([target.getD "", (Edge.mk target source "").sourceDataset?.getD "",
          (Edge.mk target source "").sourceFile?.getD ""].map csvField) ++
        ',' :: csvField origin := by
    simp [Edge.row]
    rfl
  have header := writesCsv_csvTable.lines _ (wide_rows front)
  refine ⟨(edgeTable front).toList ++ [','].intercalate ([target.getD "",
    (Edge.mk target source "").sourceDataset?.getD "",
    (Edge.mk target source "").sourceFile?.getD ""].map csvField), fun origin => ?_⟩
  rw [edgeTable, edgeTable, writesCsv_csvTable.lines _ (wide_rows _), header, List.map_append,
    ← List.cons_append, List.flatMap_append, List.map_singleton, List.flatMap_singleton, row]
  simp only [List.append_assoc]

/-- What is printed of a table is a table: that of the same edges but for the blanks that the last
    one loses. -/
theorem printedText_edgeTable (edges : List Edge) :
    printedText (edgeTable edges) = edgeTable (printedEdges edges) := by
  rw [← String.toList_inj, toList_printedText]
  rcases List.eq_nil_or_concat edges with rfl | ⟨front, ⟨target, source, origin⟩, rfl⟩
  · decide +kernel
  · obtain ⟨above, field⟩ := exists_toList_edgeTable_concat front target source
    rw [List.concat_eq_append, printedEdges_concat, field, List.rdropWhile_concat_pos _ _ _ rfl]
    by_cases plain : ∀ c ∈ origin.toList, needsCsvQuotes c = false
    · have stillPlain : ∀ c ∈ (trimEnd origin).toList, needsCsvQuotes c = false := by
        rw [toList_trimEnd]
        exact fun c member => plain c ((List.rdropWhile_prefix _ _).subset member)
      rw [Edge.trimmed_of_plain plain, field, writesCsv_csvTable.plain _ plain,
        writesCsv_csvTable.plain _ stillPlain, toList_trimEnd, rdropWhile_isBlank_append rfl]
    · -- the field ends in a quotation mark
      have closed : above ++ ',' :: csvField origin =
          (above ++ ',' :: '\x22' :: doubled '\x22' origin.toList) ++ ['\x22'] := by
        simp [writesCsv_csvTable.quoted _ plain, doubled]
      rw [Edge.trimmed_of_not_plain plain, field, closed,
        List.rdropWhile_concat_neg _ _ _ (by decide)]

/-- A table shows all edges as they are unless the last one loses blanks. -/
theorem printedEdges_eq_self_iff :
    printedEdges edges = edges ↔ ¬ ∃ last ∈ edges.getLast?, last.LosesBlanks := by
  rcases List.eq_nil_or_concat edges with rfl | ⟨front, last, rfl⟩
  · simp [printedEdges]
  · rw [List.concat_eq_append, printedEdges_concat]
    simp [Edge.trimmed_eq_self_iff]

/-- Tables of edges tell the rows apart. -/
theorem map_row_eq_of_edgeTable_eq {others : List Edge}
    (same : edgeTable edges = edgeTable others) : edges.map Edge.row = others.map Edge.row := by
  have one := writesCsv_csvTable.readCsv?_table (wide_rows edges)
  have another := writesCsv_csvTable.readCsv?_table (wide_rows others)
  rw [← edgeTable] at one another
  rw [same, another] at one
  exact (List.cons.inj (Option.some.inj one)).2.symm

theorem Edge.trimmed_of_row_eq (same : edge.trimmed.row = edge.row) : edge.trimmed = edge := by
  have origin : edge.trimmed.origin = edge.origin :=
    Option.some.inj (congrArg (fun fields => fields[3]?) same)
  unfold trimmed at origin ⊢
  split
  · rfl
  · next plain =>
      rw [if_neg plain] at origin
      exact congrArg (Edge.mk edge.target edge.source) origin

/-- A table is printed whole if it shows all edges as they are, and only then. -/
theorem printsWhole_edgeTable_iff :
    PrintsWhole (edgeTable edges) (printedText (edgeTable edges)) ↔ printedEdges edges = edges := by
  have ends : ∃ above, (edgeTable edges).toList = above ++ ['\n'] := by
    rcases List.eq_nil_or_concat edges with rfl | ⟨front, ⟨target, source, origin⟩, rfl⟩
    · exact ⟨"target,source,source_file,origin_file".toList, by decide +kernel⟩
    · obtain ⟨above, field⟩ := exists_toList_edgeTable_concat front target source
      exact ⟨_, List.concat_eq_append ▸ field origin⟩
  obtain ⟨above, ends⟩ := ends
  rw [printsWhole_iff_of_lineFeed ends, printedText_edgeTable]
  constructor
  · intro same
    have rows := map_row_eq_of_edgeTable_eq same
    rcases List.eq_nil_or_concat edges with rfl | ⟨front, last, rfl⟩
    · rfl
    · rw [List.concat_eq_append, printedEdges_concat] at rows ⊢
      rw [Edge.trimmed_of_row_eq (by simpa using rows)]
  · exact congrArg edgeTable

end Tables

namespace Request

/-- Whether a request asks for a table. -/
def AsksForTable : Request → Prop
  | extract _ .csv _ => True
  | _ => False

/-- Whether the report for a request loses blanks when it is printed. -/
def LosesBlanks (request : Request) (extraction : Extraction) : Prop :=
  request.AsksForTable ∧ ∃ last ∈ extraction.edges.getLast?, last.LosesBlanks

/-- How the report for a request about the lineage of some files is printed.
    - `whole_iff`: nothing of it is lost unless it is a table that loses blanks.
    - `table`: the text of a table is read as the edges that the printed table shows.
    - `table_iff`: these are the edges of the files under the same condition. -/
structure Prints (request : Request) (extraction : Extraction) (report text : String) : Prop where
  whole_iff : PrintsWhole report text ↔ ¬ request.LosesBlanks extraction
  table : request.AsksForTable → ReadsAsEdges text (printedEdges extraction.edges)
  table_iff : request.AsksForTable →
    (ReadsAsEdges text extraction.edges ↔ ¬ request.LosesBlanks extraction)

/-! ### Runs of the program -/

section Runs

variable {request : Request} {settings : Settings} {extraction : Extraction}
  {report text : String} {lookup : Lookup} {arguments : List String}

/-- A text is read as one list of edges at most. -/
theorem edges_eq_of_readsAsEdges {edges others : List Edge} (one : ReadsAsEdges text edges)
    (another : ReadsAsEdges text others) : edges = others := by
  obtain ⟨rows, read, _, given⟩ := one
  obtain ⟨rows', read', _, given'⟩ := another
  rw [read] at read'
  rw [(List.cons.inj (Option.some.inj read')).2, given'] at given
  exact (List.map_injective_iff.mpr (Option.some_injective Edge) given).symm

theorem prints_table (input : Input) (pretty : Bool)
    (named : ∀ edge ∈ extraction.edges, edge.IsNamed) :
    (extract input .csv pretty).Prints extraction (edgeTable extraction.edges)
      (printedText (edgeTable extraction.edges)) := by
  have shows : printedEdges extraction.edges = extraction.edges ↔
      ¬ (extract input .csv pretty).LosesBlanks extraction := by
    rw [printedEdges_eq_self_iff]
    exact not_congr ⟨fun loses => ⟨trivial, loses⟩, And.right⟩
  have read : ReadsAsEdges (printedText (edgeTable extraction.edges))
      (printedEdges extraction.edges) := by
    rw [printedText_edgeTable]
    exact readsAsEdges_of_isNamed fun _ given => isNamed_of_mem_printedEdges named given
  refine ⟨printsWhole_edgeTable_iff.trans shows, fun _ => read, fun _ => ?_⟩
  rw [← shows]
  constructor
  · exact edges_eq_of_readsAsEdges read
  · intro same
    rwa [same] at read

/-- Reports other than tables are printed whole. -/
theorem prints_of_printsWhole (noTable : ¬ request.AsksForTable)
    (whole : PrintsWhole report (printedText report)) :
    request.Prints extraction report (printedText report) where
  whole_iff := iff_of_true whole fun loses => noTable loses.1
  table isTable := absurd isTable noTable
  table_iff isTable := absurd isTable noTable

/-- How every report is printed. -/
theorem prints_report (named : ∀ edge ∈ extraction.edges, edge.IsNamed)
    (reported : request.report settings extraction = .ok report) :
    request.Prints extraction report (printedText report) := by
  cases request with
  | extract input format pretty =>
      rw [← Except.ok.inj reported]
      cases format with
      | json =>
          exact prints_of_printsWhole id (JsonValue.printsWhole_render rfl pretty)
      | csv =>
          exact prints_table input pretty named
      | dot =>
          exact prints_of_printsWhole id extraction.graph.printsWhole_dotText
  | query input node direction maxDepth pretty =>
      rw [Request.report] at reported
      split at reported
      · rw [← Except.ok.inj reported]
        exact prints_of_printsWhole id (JsonValue.printsWhole_render rfl pretty)
      · cases reported

/-- A run that prints a text has read a request and its files, and prints the report on them. -/
theorem exists_of_run_eq_printed (printed : run lookup arguments = .printed text) :
    ∃ request settings files report, Request.ofArguments? arguments = some request ∧
      request.input.loadSettings lookup = .ok settings ∧
      request.input.loadSources settings lookup = .ok files ∧
      request.report settings (.ofFiles files) = .ok report ∧ text = printedText report := by
  unfold run at printed
  split at printed
  · cases printed
  · next request read =>
      split at printed
      · next report answered =>
          unfold Request.answer at answered
          cases loaded : request.input.loadSettings lookup with
          | error failure =>
              rw [loaded] at answered
              cases answered
          | ok settings =>
              rw [loaded] at answered
              cases given : request.input.loadSources settings lookup with
              | error failure =>
                  simp [bind, Except.bind, given] at answered
              | ok files =>
                  simp only [bind, Except.bind, given] at answered
                  exact ⟨request, settings, files, report, read, loaded, given, answered,
                    (Outcome.printed.inj printed).symm⟩
      · cases printed

/-- What a run prints is the whole report, but for the blanks that a table loses. -/
theorem prints_of_run (printed : run lookup arguments = .printed text) :
    ∃ request settings files report, Request.ofArguments? arguments = some request ∧
      request.input.loadSettings lookup = .ok settings ∧
      request.input.loadSources settings lookup = .ok files ∧
      request.report settings (.ofFiles files) = .ok report ∧
      request.Prints (.ofFiles files) report text := by
  obtain ⟨request, settings, files, report, read, loaded, given, reported, rfl⟩ :=
    exists_of_run_eq_printed printed
  exact ⟨request, settings, files, report, read, loaded, given, reported,
    prints_report (fun _ => Extraction.isNamed_of_mem_edges) reported⟩

end Runs

/-- The file system in which one program stands at a path. -/
def oneProgram (path : String) (program : List Char) : Lookup := fun given =>
  if given = path then some (.file (some (program.map fun c => c.toNat.toUInt8))) else none

/-- A table whose last field is quoted is printed with the blank at the end of that field. -/
theorem prints_of_run_quoted :
    let lookup := oneProgram "b, " "data a; set b;".toList
    let arguments := ["extract", "--format=csv", "b, "]
    let text := "target,source,source_file,origin_file\na,b,,\"b, \"\n"
    run lookup arguments = .printed text ∧
      ∃ request settings files report, Request.ofArguments? arguments = some request ∧
        request.input.loadSettings lookup = .ok settings ∧
        request.input.loadSources settings lookup = .ok files ∧
        request.report settings (.ofFiles files) = .ok report ∧
        request.Prints (.ofFiles files) report text := by
  intro lookup arguments text
  have printed : run lookup arguments = .printed text := by decide +kernel
  exact ⟨printed, prints_of_run printed⟩

/-- A program whose name ends in a blank comes back without it. -/
theorem not_printsWhole_of_blank :
    let lookup := oneProgram "b " "data a; set b;".toList
    let arguments := ["extract", "--format=csv", "b "]
    let extraction := Extraction.ofFiles [⟨"b ", "data a; set b;"⟩]
    let report := "target,source,source_file,origin_file\na,b,,b \n"
    let text := "target,source,source_file,origin_file\na,b,,b\n"
    (Request.ofArguments? arguments).map (fun request => (request.answer lookup).toOption) =
        some (some report) ∧
      run lookup arguments = .printed text ∧ ¬ PrintsWhole report text ∧
      ReadsAsEdges report extraction.edges ∧ ¬ ReadsAsEdges text extraction.edges := by
  intro lookup arguments extraction report text
  have edges : extraction.edges = [⟨some "a", .dataset "b", "b "⟩] := by decide +kernel
  have named : ∀ origin, ∀ edge ∈ [Edge.mk (some "a") (.dataset "b") origin], edge.IsNamed := by
    intro origin edge given
    rw [List.mem_singleton.mp given]
    exact ⟨by simp, by simp⟩
  have reportRead := readsAsEdges_of_isNamed (named "b ")
  have textRead := readsAsEdges_of_isNamed (named "b")
  refine ⟨by decide +kernel, by decide +kernel, fun whole => ?_, ?_, fun read => ?_⟩
  · exact absurd whole.kept (by decide)
  · exact edges ▸ reportRead
  · rw [edges] at read
    exact absurd (edges_eq_of_readsAsEdges read textRead) (by decide)

end Request

end DatasetLineage
