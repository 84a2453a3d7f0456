/-
Module: DatasetLineage.Program.Segment.Reading
Purpose: The statements of a program told from its segments. Each segment is a whole statement, and
  only the open procedure step crosses from one to the next, so the segments of a program can be
  divided and read apart. The statements are the ones that a cursor finds.
Main exports: Segment.readFresh, Segment.read, Reading.add, Parsed.ofSegments
-/
import DatasetLineage.Program.Parsed
import DatasetLineage.Program.Segment
import DatasetLineage.Program.Segment.Proc
import DatasetLineage.Program.Segment.Read

namespace DatasetLineage

/-- A segment that stands in no procedure step. -/
def Segment.readFresh (segment : Segment) : Contribution :=
  match segment.body with
  | [] => ⟨[], [], none⟩
  | first :: operands =>
    match first.keyword? with
    | some .data =>
      match operands with
      | name :: _ =>
        if name.name?.isSome then ⟨[.datasetDef name.mention], [], none⟩
        else ⟨[.other], [first.fault .missingDatasetName], none⟩
      | [] => ⟨[.other], [first.fault .missingDatasetName], none⟩
    | some .infile =>
      let (statement, diagnostics) := readExternalStatement first operands segment.stop
      ⟨[statement], diagnostics, none⟩
    | some .proc =>
      match operands with
      | name :: options =>
        if name.name?.isSome then
          let found := optionValues segment.stop options
          let step : ProcStep := ⟨name.mention, [], []⟩
          ⟨[.other], found.diagnostics, some (step.addOptions found.values)⟩
        else ⟨[.other], [first.fault .missingProcedureName], none⟩
      | [] => ⟨[.other], [first.fault .missingProcedureName], none⟩
    | some keyword =>
      if keyword.readsDatasets then
        let (statement, diagnostics) := readSourceStatement first operands
        ⟨[statement], diagnostics, none⟩
      else ⟨[.other], [], none⟩
    | none => ⟨[.other], [], none⟩

/-- A segment behind which a procedure step may be open. -/
def Segment.read (openStep : Option ProcStep) (segment : Segment) : Contribution :=
  match openStep with
  | none => segment.readFresh
  | some step =>
    let keyword? := segment.body.head?.bind Token.keyword?
    if keyword?.any Keyword.endsStep then ⟨[.procStep step, .other], [], none⟩
    else if keyword?.any Keyword.opensStep then
      { segment.readFresh with statements := .procStep step :: segment.readFresh.statements }
    else
      let found := optionValues segment.stop segment.body
      ⟨[.other], found.diagnostics, some (step.addOptions found.values)⟩

/-- One more segment. -/
def Reading.add (reading : Reading) (segment : Segment) : Reading :=
  reading.append (segment.read reading.openStep)

theorem Reading.add_eq (reading : Reading) (segment : Segment) :
    reading.add segment =
      ⟨(segment.read reading.openStep).statements.reverse ++ reading.statements,
        (segment.read reading.openStep).diagnostics.reverse ++ reading.diagnostics,
        (segment.read reading.openStep).openStep⟩ := rfl

/-- The statements of segments. -/
def Parsed.ofSegments (segments : List Segment) : Parsed :=
  (segments.foldl Reading.add ⟨[], [], none⟩).finished

end DatasetLineage
