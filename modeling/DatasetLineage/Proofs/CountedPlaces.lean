/-
Module: DatasetLineage.Proofs.CountedPlaces
Purpose: Lineage with lines and columns of 32 bits. Each token and each diagnostic is at the place
  that the counters tell behind the text in front of it. In a text of fewer than 2 ^ 32 - 1
  characters that is the place itself. In a longer one a counter starts anew, and warnings about
  reads without a target can come in another order than the reads; they are the same warnings, and
  still paired with the edges that have no target.
Main exports: Scanned.tokens_counted, Scanned.exists_after_of_mem_diagnostics_counted,
  Scanned.counted_eq_ofText, Extraction.orphans_paired_counted,
  FileLineage.not_warnsInOrder_readsApart
-/
import DatasetLineage.Lineage.Counted
import DatasetLineage.Proofs.LineageProvenance
import DatasetLineage.Proofs.PrintedTokens

namespace DatasetLineage

open Text

section Counting

variable {text : String}

theorem counted_placeAt (text : List Char) (offset : Nat) :
    (placeAt text offset).counted = (Counters.start.after (text.take offset)).place := by
  rw [← after_take_eq_placeAt, Position.counted, Position.counters_after, Position.counters_start]

/-- A token is at the place that the counters tell behind the characters in front of its span. -/
theorem Scanned.tokens_counted {spans : List Span}
    (spansOf : SpansOf text.toList (ofText text).tokens spans) :
    (counted text).tokens =
      spans.map (fun span => { span.token with
        position := (Counters.start.after (text.toList.take span.start)).place }) ++
        [Token.endAt (Counters.start.after text.toList).place] := by
  have last := counted_placeAt text.toList text.toList.length
  rw [List.take_length] at last
  have each : ∀ span ∈ spans, span.token.counted = { span.token with
      position := (Counters.start.after (text.toList.take span.start)).place } := by
    intro span member
    rw [Token.counted, (spansOf.inText span member).placed, counted_placeAt]
  rw [← last, ← List.map_congr_left each]
  dsimp only [counted]
  rw [spansOf.tokens, List.map_append, List.map_map]
  rfl

/-- A diagnostic is at the place that the counters tell behind some front of the text. -/
theorem Scanned.exists_after_of_mem_diagnostics_counted {diagnostic : Diagnostic}
    (member : diagnostic ∈ (counted text).diagnostics) :
    ∃ front, front <+: text.toList ∧
      diagnostic.position = (Counters.start.after front).place := by
  obtain ⟨original, given, rfl⟩ := List.mem_map.mp member
  obtain ⟨place, piece, placed, ofPiece⟩ := mem_diagnostics_ofText.mp given
  obtain ⟨front, back, cut, rfl⟩ := exists_front_of_mem_placedFrom placed
  have spelled := Piece.spelling_ofText text.toList
  rw [cut, spellingOf_append] at spelled
  refine ⟨spellingOf front, ⟨_, spelled⟩, ?_⟩
  rw [Diagnostic.counted, (Piece.mem_diagnostics ofPiece).1, Position.counted,
    Position.counters_after, Position.counters_start]

theorem Scanned.kind_eq_lex_counted {diagnostic : Diagnostic}
    (member : diagnostic ∈ (counted text).diagnostics) : diagnostic.problem.kind = .lex := by
  obtain ⟨original, given, rfl⟩ := List.mem_map.mp member
  have ofLex : original.problem.kind = .lex := kind_eq_lex given
  exact ofLex

theorem counted_placeAt_of_short {text : List Char} (short : text.length < UInt32.size - 1)
    (offset : Nat) : (placeAt text offset).counted = placeAt text offset :=
  have bounds := placeAt_lt short offset
  Position.counted_eq_self bounds.1 bounds.2

/-- In a text that is not too long, counting tells all places. -/
theorem Scanned.counted_eq_ofText (short : text.length < UInt32.size - 1) :
    counted text = ofText text := by
  have tokens : (ofText text).tokens.map Token.counted = (ofText text).tokens := by
    have spansOf := spansOf_ofText text
    rw [spansOf.tokens, List.map_append, List.map_map, List.map_singleton, Token.counted,
      Token.endAt, counted_placeAt_of_short short]
    congr 1
    refine List.map_congr_left fun span member => ?_
    rw [Function.comp_apply, Token.counted, (spansOf.inText span member).placed,
      counted_placeAt_of_short short, ← (spansOf.inText span member).placed]
  have diagnostics : (ofText text).diagnostics.map Diagnostic.counted =
      (ofText text).diagnostics := by
    refine (List.map_congr_left fun diagnostic member => ?_).trans (List.map_id _)
    obtain ⟨place, piece, placed, ofPiece⟩ := mem_diagnostics_ofText.mp member
    obtain ⟨_, _, _, _, stands⟩ := standsAt_of_mem_placedFrom placed
    rw [Diagnostic.counted, (Piece.mem_diagnostics ofPiece).1, stands,
      counted_placeAt_of_short short, ← stands, ← (Piece.mem_diagnostics ofPiece).1]
    rfl
  rw [counted, tokens, diagnostics]

end Counting

/-- A file with a text that is not too long has its lineage. -/
theorem FileLineage.counted_eq_ofFile {file : SourceFile}
    (short : file.content.length < UInt32.size - 1) : counted file = ofFile file := by
  rw [counted, Scanned.counted_eq_ofText short, ofFile]

/-- So have several such files. -/
theorem Extraction.counted_eq_ofFiles {files : List SourceFile}
    (short : ∀ file ∈ files, file.content.length < UInt32.size - 1) :
    counted files = ofFiles files :=
  congrArg ofLineages (List.map_congr_left fun file member =>
    FileLineage.counted_eq_ofFile (short file member))

/-- The edges without a target of a file are paired with the warnings about reads without a target,
    in a text that is not too long in the order of the program. So files of a name have such an edge
    if they are warned about such a read. -/
theorem Extraction.orphans_paired_counted :
    (∀ file : SourceFile, FileLineage.PairsOrphans file.name (.counted file.content)) ∧
      (∀ file : SourceFile, file.content.length < UInt32.size - 1 →
        FileLineage.WarnsInOrder file.name (.counted file.content)) ∧
      ∀ files name,
        (∃ edge ∈ (counted files).edges, edge.isOrphan = true ∧ edge.origin = name) ↔
          ∃ warning ∈ (counted files).warnings,
            warning.kind = .orphanReference ∧ warning.file = name := by
  have pairs (file : SourceFile) :
      FileLineage.PairsOrphans file.name (.counted file.content) :=
    FileLineage.pairsOrphans fun _ => Scanned.kind_eq_lex_counted
  refine ⟨pairs, fun file short => ?_, exists_isOrphan_iff_of_pairs pairs⟩
  rw [Scanned.counted_eq_ofText short]
  exact FileLineage.warnsInOrder (fun _ => Scanned.kind_eq_lex)
    (Scanned.spansOf_ofText file.content).pairwise_before

/-- Reads in front of a definition and behind it, over two lines. -/
theorem Extraction.orphans_paired_counted_two_lines :
    let text := "set a b;\n infile 'in.csv'; data d; merge e;"
    text.length < UInt32.size - 1 ∧ FileLineage.WarnsInOrder "job.sas" (.counted text) ∧
      (FileLineage.orphanWarnings "job.sas" (.counted text)).map Warning.position =
        [⟨1, 1⟩, ⟨2, 2⟩] := by
  intro text
  have short : text.length < UInt32.size - 1 := by decide
  refine ⟨short, orphans_paired_counted.2.1 ⟨"job.sas", text⟩ short, ?_⟩
  rw [Scanned.counted_eq_ofText short]
  decide +kernel

section LongLine

/-- A read, as many blanks as are told, and another read, on one line. -/
def readsApart (blanks : Nat) : String :=
  "     set a;" ++ (String.ofList (List.replicate blanks ' ') ++ "set b;")

theorem Piece.ofText_replicate_blank (count : Nat) (text : List Char) :
    ofText (List.replicate count ' ' ++ text) =
      List.replicate count (.blank ' ') ++ ofText text := by
  induction count with
  | zero =>
      rfl
  | succ count ih =>
      rw [List.replicate_succ, List.replicate_succ, List.cons_append, List.cons_append,
        ofText_blank, ih]

/-- Blanks move what stands behind them along the line. -/
theorem scannedFrom_replicate_blank (place : Position) (count : Nat) (pieces : List Piece) :
    scannedFrom place (List.replicate count (.blank ' ') ++ pieces) =
      scannedFrom ⟨place.line, place.column + count⟩ pieces := by
  induction count generalizing place with
  | zero =>
      rfl
  | succ count ih =>
      have first : scannedFrom place (.blank ' ' :: (List.replicate count (.blank ' ') ++ pieces)) =
          scannedFrom (place.next ' ') (List.replicate count (.blank ' ') ++ pieces) := rfl
      have next : place.next ' ' = ⟨place.line, place.column + 1⟩ := rfl
      rw [List.replicate_succ, List.cons_append, first, ih, next, Nat.add_assoc, Nat.add_comm 1]

/-- On a long line the second read is as far along the line as there are blanks in front of it. -/
theorem Scanned.ofText_readsApart (blanks : Nat) :
    ofText (readsApart blanks) =
      ⟨[⟨.keyword .set, "set", ⟨1, 6⟩⟩, ⟨.identifier "a", "a", ⟨1, 10⟩⟩,
        ⟨.mark ';', ";", ⟨1, 11⟩⟩, ⟨.keyword .set, "set", ⟨1, blanks + 12⟩⟩,
        ⟨.identifier "b", "b", ⟨1, blanks + 16⟩⟩, ⟨.mark ';', ";", ⟨1, blanks + 17⟩⟩,
        Token.endAt ⟨1, blanks + 18⟩], []⟩ := by
  have ends : EndsInSemicolon "     set a;" := by decide +kernel
  have front : ofText "     set a;" =
      ⟨[⟨.keyword .set, "set", ⟨1, 6⟩⟩, ⟨.identifier "a", "a", ⟨1, 10⟩⟩,
        ⟨.mark ';', ";", ⟨1, 11⟩⟩, Token.endAt ⟨1, 12⟩], []⟩ := by
    decide +kernel
  have pieces : Piece.ofText "set b;".toList =
      [.word ['s', 'e', 't'], .blank ' ', .word ['b'], .mark ';'] := by
    decide +kernel
  have behind : ofText (String.ofList (List.replicate blanks ' ') ++ "set b;") =
      ⟨[⟨.keyword .set, "set", ⟨1, blanks + 1⟩⟩, ⟨.identifier "b", "b", ⟨1, blanks + 5⟩⟩,
        ⟨.mark ';', ";", ⟨1, blanks + 6⟩⟩, Token.endAt ⟨1, blanks + 7⟩], []⟩ := by
    rw [ofText_eq, String.toList_append, String.toList_ofList, Piece.ofText_replicate_blank,
      scannedFrom_replicate_blank, Position.after_append, Position.after_replicate _ (by decide),
      pieces, Position.start, Nat.add_comm 1]
    rfl
  rw [readsApart, ofText_append_of_endsInSemicolon _ _ ends, front, behind]
  rfl

/-- Counted in 32 bits, the second read of a line can be in front of the first. -/
theorem Scanned.counted_readsApart :
    counted (readsApart (UInt32.size - 11)) =
      ⟨[⟨.keyword .set, "set", ⟨1, 6⟩⟩, ⟨.identifier "a", "a", ⟨1, 10⟩⟩,
        ⟨.mark ';', ";", ⟨1, 11⟩⟩, ⟨.keyword .set, "set", ⟨1, 1⟩⟩,
        ⟨.identifier "b", "b", ⟨1, 5⟩⟩, ⟨.mark ';', ";", ⟨1, 6⟩⟩, Token.endAt ⟨1, 7⟩], []⟩ := by
  rw [counted, ofText_readsApart]
  rfl

/-- Then it is reported first, and the warnings are not in the order of the program. -/
theorem FileLineage.not_warnsInOrder_readsApart :
    let scanned := Scanned.counted (readsApart (UInt32.size - 11))
    (orphanWarnings "job.sas" scanned).map Warning.position = [⟨1, 6⟩, ⟨1, 1⟩] ∧
      ¬ WarnsInOrder "job.sas" scanned := by
  intro scanned
  have found : scanned = _ := Scanned.counted_readsApart
  rw [found, WarnsInOrder]
  decide +kernel

end LongLine

end DatasetLineage
