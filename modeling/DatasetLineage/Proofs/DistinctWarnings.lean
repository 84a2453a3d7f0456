/-
Module: DatasetLineage.Proofs.DistinctWarnings
Purpose: No warning is lost and none comes twice. The warnings of a file are what is wrong with its
  characters, its statements and its reads, in the order of their places, and those at one place in
  this order. Warnings of one kind are at different places: each piece of a text and each token has
  at most one, and no read has two. So leaving out what comes again leaves out nothing, unless two
  files have one name.
Main exports: pairwise_places_placedFrom, Scanned.nodup_places_diagnostics,
  AreFaultsAt.nodup_places, FileLineage.reported, FileLineage.ReportsOnce,
  Extraction.warnings_ofFiles_of_distinct_names
-/
import DatasetLineage.Proofs.OrphanReads
import DatasetLineage.Proofs.ScanLocality

namespace DatasetLineage

/-! ### Warnings of the scanner -/

section Pieces

/-- Pieces that are not empty begin at later and later places. -/
theorem pairwise_places_placedFrom (place : Position) {pieces : List Piece}
    (nonempty : ∀ piece ∈ pieces, piece.spelling ≠ []) :
    ((placedFrom place pieces).map Prod.fst).Pairwise Position.Before ∧
      ∀ later ∈ (placedFrom place pieces).map Prod.fst, later = place ∨ place.Before later := by
  induction pieces generalizing place with
  | nil =>
      exact ⟨.nil, fun _ member => absurd member List.not_mem_nil⟩
  | cons piece rest ih =>
      obtain ⟨here, others⟩ := List.forall_mem_cons.mp nonempty
      obtain ⟨ordered, behind⟩ := ih (place.after piece.spelling) others
      have moved : place.Before (place.after piece.spelling) := Position.before_after here
      have later : ∀ other ∈ (placedFrom (place.after piece.spelling) rest).map Prod.fst,
          place.Before other := by
        intro other member
        rcases behind other member with rfl | before
        · exact moved
        · exact moved.trans before
      rw [placedFrom, List.map_cons, List.pairwise_cons]
      exact ⟨⟨later, ordered⟩, List.forall_mem_cons.mpr ⟨.inl rfl, fun other member =>
        .inr (later other member)⟩⟩

/-- A piece has at most one diagnostic, at the place where it begins. -/
theorem Piece.places_diagnostics_sublist (place : Position) (piece : Piece) :
    ((piece.diagnostics place).map Diagnostic.position).Sublist [place] := by
  unfold diagnostics
  split <;> simp

theorem places_scannedFrom_sublist (place : Position) (pieces : List Piece) :
    ((scannedFrom place pieces).2.map Diagnostic.position).Sublist
      ((placedFrom place pieces).map Prod.fst) := by
  rw [scannedFrom, List.map_flatMap, ← List.flatMap_singleton' ((placedFrom place pieces).map _),
    List.flatMap_map]
  exact List.Sublist.flatMap_right _ fun placed _ =>
    Piece.places_diagnostics_sublist placed.1 placed.2

/-- No two characters of a text are reported at one place. -/
theorem Scanned.nodup_places_diagnostics (text : String) :
    ((ofText text).diagnostics.map Diagnostic.position).Nodup := by
  have nonempty : ∀ piece ∈ Piece.ofText text.toList, piece.spelling ≠ [] :=
    fun _ => Piece.spelling_ne_nil_of_mem
  have ordered := (pairwise_places_placedFrom .start nonempty).1
  rw [ofText_eq]
  exact (nodup_of_pairwise_before ordered).sublist (places_scannedFrom_sublist .start _)

end Pieces

/-! ### Warnings of one kind -/

section Families

/-- No two faults are at one place if no two tokens are. -/
theorem AreFaultsAt.nodup_places {tokens : List Token} {diagnostics : List Diagnostic}
    (faulty : AreFaultsAt tokens diagnostics) (distinct : (tokens.map Token.position).Nodup) :
    (diagnostics.map Diagnostic.position).Nodup := by
  obtain ⟨faults, rfl, part, perm, sublist⟩ := faulty
  have places := (sublist.map Token.position).nodup distinct
  rw [(perm.map Token.position).nodup_iff, List.map_map] at places
  rw [List.map_map]
  exact places

/-- Diagnostics are told apart by their kinds and places if those of one family are told apart by
    their places. -/
theorem nodup_kinds_and_places {lex parse reads : List Diagnostic}
    (ofLex : ∀ diagnostic ∈ lex, diagnostic.problem.kind = .lex)
    (ofParse : ∀ diagnostic ∈ parse, diagnostic.problem.kind = .parse)
    (ofReads : ∀ diagnostic ∈ reads, diagnostic.problem.kind = .orphanReference)
    (lexPlaces : (lex.map Diagnostic.position).Nodup)
    (parsePlaces : (parse.map Diagnostic.position).Nodup)
    (readPlaces : (reads.map Diagnostic.position).Nodup) :
    ((lex ++ parse ++ reads).map fun diagnostic =>
      (diagnostic.problem.kind, diagnostic.position)).Nodup := by
  have ofFamily : ∀ {family : List Diagnostic}, (family.map Diagnostic.position).Nodup →
      (family.map fun diagnostic => (diagnostic.problem.kind, diagnostic.position)).Nodup := by
    intro family places
    refine List.Nodup.of_map Prod.snd ?_
    rw [List.map_map]
    exact places
  rw [List.map_append, List.map_append, List.nodup_append, List.nodup_append]
  refine ⟨⟨ofFamily lexPlaces, ofFamily parsePlaces, ?_⟩, ofFamily readPlaces, ?_⟩
  · intro key inLex other inParse same
    obtain ⟨a, memberA, rfl⟩ := List.mem_map.mp inLex
    obtain ⟨b, memberB, rfl⟩ := List.mem_map.mp inParse
    have kinds := congrArg Prod.fst same
    simp [ofLex a memberA, ofParse b memberB] at kinds
  · intro key inFront other inReads same
    obtain ⟨b, memberB, rfl⟩ := List.mem_map.mp inReads
    have kinds := congrArg Prod.fst same
    rcases List.mem_append.mp inFront with inLex | inParse
    · obtain ⟨a, memberA, rfl⟩ := List.mem_map.mp inLex
      simp [ofLex a memberA, ofReads b memberB] at kinds
    · obtain ⟨a, memberA, rfl⟩ := List.mem_map.mp inParse
      simp [ofParse a memberA, ofReads b memberB] at kinds

end Families

theorem Position.notAfter_self (place : Position) : place.notAfter place = true :=
  (place.notAfter_total place).elim id id

/-! ### Warnings of a file -/

namespace FileLineage

/-- What there is to report about a file: first its characters, then its statements, then its
    reads. -/
def reported (file : SourceFile) : List Warning :=
  ((Scanned.ofText file.content).diagnostics ++
    (Parsed.ofTokens (Scanned.ofText file.content).tokens).diagnostics ++
    (resolve file.name (Parsed.ofText file.content).statements).2).map
    (Diagnostic.warning file.name)

/-- The warnings of a file are what there is to report about it.
    - `complete`: each report is a warning as often as it is a report.
    - `ordered`: the warnings are in the order of their places.
    - `stable`: those at one place are in the order of the reports.
    - `distinct`: no warning comes twice. -/
structure ReportsOnce (file : SourceFile) : Prop where
  complete : (ofFile file).warnings.Perm (reported file)
  ordered : (ofFile file).warnings.Pairwise fun a b => a.position.notAfter b.position = true
  stable : ∀ place, (ofFile file).warnings.filter (·.position = place) =
    (reported file).filter (·.position = place)
  distinct : (ofFile file).warnings.Nodup

theorem warnings_eq_inOrder (file : SourceFile) :
    (ofFile file).warnings =
      inOrder (fun a b : Warning => a.position.notAfter b.position) (reported file) := by
  have mapped (diagnostics : List Diagnostic) :
      inOrder (fun a b : Warning => a.position.notAfter b.position)
          (diagnostics.map (Diagnostic.warning file.name)) =
        (inOrder (fun a b : Diagnostic => a.position.notAfter b.position) diagnostics).map
          (Diagnostic.warning file.name) :=
    inOrder_map (fun _ _ => rfl) diagnostics
  rw [warnings_ofFile, reported, diagnostics_resolve, mapped]

theorem nodup_reported (file : SourceFile) : (reported file).Nodup := by
  have ofLex : ∀ diagnostic ∈ (Scanned.ofText file.content).diagnostics,
      diagnostic.problem.kind = .lex :=
    fun _ => Scanned.kind_eq_lex
  have faults := Parsed.areFaultsAt_ofText file.content
  have ofParse : ∀ diagnostic ∈
      (Parsed.ofTokens (Scanned.ofText file.content).tokens).diagnostics,
      diagnostic.problem.kind = .parse :=
    fun _ => faults.kind_eq_parse
  have ofReads : ∀ diagnostic ∈
      (orphanReads (Parsed.ofText file.content).statements).map readWithoutTarget,
      diagnostic.problem.kind = .orphanReference := by
    intro diagnostic member
    obtain ⟨read, _, rfl⟩ := List.mem_map.mp member
    rfl
  have ordered := (Scanned.spansOf_ofText file.content).pairwise_before
  have keys := nodup_kinds_and_places ofLex ofParse ofReads
    (Scanned.nodup_places_diagnostics file.content)
    (faults.nodup_places (Scanned.nodup_positions_ofText file.content))
    (nodup_of_pairwise_before (List.pairwise_map.mpr (pairwise_orphanReads ordered)))
  refine List.Nodup.of_map (fun warning => (warning.kind, warning.position)) ?_
  rw [reported, diagnostics_resolve, List.map_map]
  exact keys

theorem reportsOnce (file : SourceFile) : ReportsOnce file := by
  have total := fun a b : Warning => Position.notAfter_total a.position b.position
  have trans := fun a b c : Warning => Position.notAfter_trans a.position b.position c.position
  have perm : (ofFile file).warnings.Perm (reported file) := by
    rw [warnings_eq_inOrder]
    exact inOrder_perm _ (reported file)
  refine ⟨perm, ?_, ?_, perm.nodup_iff.mpr (nodup_reported file)⟩
  · rw [warnings_eq_inOrder]
    exact pairwise_inOrder total trans (reported file)
  · intro place
    rw [warnings_eq_inOrder, filter_inOrder total trans]
    -- any of the reports at one place may precede any other
    refine inOrder_eq_self (List.pairwise_of_forall_mem_list ?_)
    intro a memberA b memberB
    have atA : a.position = place := of_decide_eq_true (List.mem_filter.mp memberA).2
    have atB : b.position = place := of_decide_eq_true (List.mem_filter.mp memberB).2
    rw [atA, atB]
    exact place.notAfter_self

end FileLineage

/-- Every file is warned about all that there is to report about it, and once; and the warnings of
    files that all have names of their own are those of the files, one file after the other. -/
theorem Extraction.warnings_ofFiles_of_distinct_names (files : List SourceFile)
    (distinct : (files.map SourceFile.name).Nodup) :
    (∀ file, FileLineage.ReportsOnce file) ∧
      (ofFiles files).warnings = files.flatMap fun file => (FileLineage.ofFile file).warnings := by
  refine ⟨FileLineage.reportsOnce, ?_⟩
  rw [ofFiles_eq]
  refine eraseDups_eq_self (List.nodup_flatMap.mpr ⟨?_, ?_⟩)
  · exact fun file _ => (FileLineage.reportsOnce file).distinct
  · rw [List.Nodup, List.pairwise_map] at distinct
    refine distinct.imp fun {a b} different warning inA inB => different ?_
    rw [← FileLineage.file_of_mem_warnings inA, FileLineage.file_of_mem_warnings inB]

/-- A read without a target, and an operand of it that is wrong as a character and as an operand, in
    two files with the same text. -/
theorem Extraction.warnings_ofFiles_of_distinct_names_same_text :
    let file (name : String) : SourceFile := ⟨name, "set a §;"⟩
    let report (file : String) : List (String × WarningKind × Position) :=
      [(file, .orphanReference, ⟨1, 1⟩), (file, .lex, ⟨1, 7⟩), (file, .parse, ⟨1, 7⟩)]
    (ofFiles [file "a.sas", file "b.sas"]).warnings.map
        (fun warning => (warning.file, warning.kind, warning.position)) =
      report "a.sas" ++ report "b.sas" := by
  intro file report
  rw [(warnings_ofFiles_of_distinct_names [file "a.sas", file "b.sas"] (by decide)).2]
  decide +kernel

end DatasetLineage
