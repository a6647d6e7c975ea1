import VersionMatch.Proofs.Messages
import VersionMatch.Proofs.Reporting
import VersionMatch.Proofs.Tabulation
import VersionMatch.Proofs.Tiling

/- The table of a summary as a reader finds it, cut at line feeds and at bars. It shows the results
   row by row exactly where no name, specification or candidate holds either. -/
namespace VersionMatch

def endedLines (t : Text) : List Text := (parts (· == .char '\n') t).dropLast

def padded (cell : Text) : Text := .char ' ' :: (cell ++ [.char ' '])

/-- Between its bars the line shows these cells, all of them and nothing else. -/
def Shows (line : Text) (cells : List Text) : Prop :=
  parts (· == .char '|') line = [] :: (cells.map padded ++ [[]])

def placeholderCells : List Text := "(nothing checked)".text :: List.replicate 3 "n/a".text

def shownTable (table : List (List Text)) : List (List Text) :=
  if table = [] then [placeholderCells] else table

/-- Behind its head of six lines the text has one line for each row of the table, in order. -/
def Intact (t : Text) (table : List (List Text)) : Prop :=
  List.Forall₂ Shows ((endedLines t).drop 6) (shownTable table)

def verdictText : Except Fault Bool → Text
  | .ok true => "yes".text
  | .ok false => "no".text
  | .error f => "error: ".text ++ f.message

def Inquiry.title (q : Inquiry) : Text :=
  (if q.name.truthy then q.name else .str q.specification.text).text

def Inquiry.cells (q : Inquiry) (candidate : Option Text) : List Text :=
  [q.title, Summary.code q.specification.text, Summary.code (Json.ofText? candidate).text,
    verdictText (q.specification.contains candidate)]

def Inquiry.table (q : Inquiry) : List (List Text) := q.candidates.map q.cells

theorem uncut_char_iff {c : CodePoint} {t : Text} : Uncut (· == c) t ↔ c ∉ t := by
  simp only [Uncut, beq_eq_false_iff_ne]
  exact ⟨fun apart mem => apart c mem rfl, fun absent d mem same => absent (same ▸ mem)⟩

variable {isCut : CodePoint → Bool}

theorem parts_ended {c : CodePoint} (cut : isCut c = true) (lines : List Text) :
    parts isCut (lines.flatMap fun line => line ++ [c]) = lines.flatMap (parts isCut) ++ [[]] := by
  induction lines with
  | nil => rfl
  | cons line lines ih =>
    rw [List.flatMap_cons, List.append_assoc, List.singleton_append, parts_join cut, ih,
      List.flatMap_cons, List.append_assoc]

theorem ended_lines (lines : List Text) :
    endedLines (lines.flatMap fun line => line ++ [.char '\n']) =
      lines.flatMap (parts (· == .char '\n')) := by
  rw [endedLines, parts_ended (by rfl), List.dropLast_concat]

theorem flatMap_uncut {lines : List Text} (uncut : ∀ line ∈ lines, Uncut isCut line) :
    lines.flatMap (parts isCut) = lines := by
  induction lines with
  | nil => rfl
  | cons line lines ih =>
    obtain ⟨first, others⟩ := List.forall_mem_cons.mp uncut
    rw [List.flatMap_cons, parts_uncut first, ih others, List.singleton_append]

theorem uncut_of_count {lines : List Text}
    (count : (lines.flatMap (parts isCut)).length = lines.length) :
    ∀ line ∈ lines, Uncut isCut line := by
  have least : ∀ ls : List Text, ls.length ≤ (ls.flatMap (parts isCut)).length := by
    intro ls
    induction ls with
    | nil => exact Nat.le_refl 0
    | cons l ls ih =>
      rw [List.flatMap_cons, List.length_append, parts_length, List.length_cons]
      omega
  induction lines with
  | nil => simp
  | cons line lines ih =>
    have others := least lines
    rw [List.flatMap_cons, List.length_append, parts_length, List.length_cons] at count
    have none : line.countP isCut = 0 := by omega
    refine List.forall_mem_cons.mpr ⟨?_, ih (by omega)⟩
    intro c mem
    simpa using List.countP_eq_zero.mp none c mem

/- Lines of a text stand in a relation to as many values as there were lines only if none of them
   was cut. -/
theorem forall₂_parts_iff {α : Type} {R : Text → α → Prop} {f : α → Text} {xs : List α} :
    List.Forall₂ R ((xs.map f).flatMap (parts isCut)) xs ↔
      ∀ x ∈ xs, Uncut isCut (f x) ∧ R (f x) x := by
  constructor
  · intro related
    have uncut := uncut_of_count (related.length_eq.trans (List.length_map f).symm)
    rw [flatMap_uncut uncut, List.forall₂_map_left_iff, List.forall₂_same] at related
    exact fun x mem => ⟨uncut (f x) (List.mem_map_of_mem mem), related x mem⟩
  · intro each
    have uncut : ∀ line ∈ xs.map f, Uncut isCut line := by
      intro line mem
      obtain ⟨x, given, rfl⟩ := List.mem_map.mp mem
      exact (each x given).1
    rw [flatMap_uncut uncut, List.forall₂_map_left_iff, List.forall₂_same]
    exact fun x mem => (each x mem).2

theorem row_ended {cells : List Text} (some : cells ≠ []) :
    Summary.row cells = .char '|' :: (cells.map padded).flatMap fun cell => cell ++ [.char '|'] := by
  have behind : CodePoint.char ' ' :: (" | ".text.intercalate cells ++ " |".text) =
      (cells.map padded).flatMap fun cell => cell ++ [.char '|'] := by
    induction cells with
    | nil => contradiction
    | cons cell cells ih =>
      cases cells with
      | nil => simp [padded, String.text, Text.ofCharacters]
      | cons next cells =>
        have later := ih (List.cons_ne_nil next cells)
        rw [List.map_cons, List.flatMap_cons, ← later, List.intercalate_cons_cons]
        simp [padded, String.text, Text.ofCharacters]
  rw [← behind]
  rfl

theorem shows_row_iff {cells : List Text} (some : cells ≠ []) :
    Shows (Summary.row cells) cells ↔ ∀ cell ∈ cells, .char '|' ∉ cell := by
  have cut : parts (· == .char '|') (Summary.row cells) =
      [] :: ((cells.map padded).flatMap (parts (· == .char '|')) ++ [[]]) := by
    rw [row_ended some, ← List.nil_append (CodePoint.char '|' :: _),
      parts_append_cut (by simp [Uncut]) (by rfl), parts_ended (by rfl)]
  have each : ∀ cell, Uncut (· == .char '|') (padded cell) ↔ .char '|' ∉ cell := by
    intro cell
    rw [uncut_char_iff]
    simp [padded]
  rw [Shows, cut, List.cons_inj_right, List.append_left_inj, ← List.forall₂_eq_eq_eq,
    List.forall₂_map_right_iff, forall₂_parts_iff]
  simp [each]

example : Shows "| a | b |".text ["a".text, "b".text] := by rfl

theorem line_row_iff {cells : List Text} (some : cells ≠ []) :
    .char '\n' ∉ Summary.row cells ↔ ∀ cell ∈ cells, .char '\n' ∉ cell := by
  rw [row_ended some]
  simp [padded]

theorem rows_shown_iff {table : List (List Text)} (filled : ∀ cells ∈ table, cells ≠ []) :
    List.Forall₂ Shows ((table.map Summary.row).flatMap (parts (· == .char '\n'))) table ↔
      ∀ cells ∈ table, ∀ cell ∈ cells, FitsCell cell := by
  rw [forall₂_parts_iff]
  refine forall₂_congr fun cells mem => ?_
  rw [uncut_char_iff, line_row_iff (filled cells mem), shows_row_iff (filled cells mem),
    ← forall₂_and]
  rfl

def headLines (t : Totals) : List Text :=
  ["# jnlp-version Summary".text, [], t.line, []] ++ Summary.heading

theorem number_text_fits (n : Nat) : FitsCell (Json.ofNat n).text := by
  rw [Json.ofNat, Json.text, Json.shown]
  · exact integer_fits n
  · simp

theorem head_uncut (t : Totals) : ∀ line ∈ headLines t, Uncut (· == .char '\n') line := by
  have number : ∀ n, .char '\n' ∉ (Json.ofNat n).text :=
    fun n => (number_text_fits n).1
  have numbers : .char '\n' ∉ t.line := by
    simp only [Totals.line, List.intercalate_cons_cons, List.intercalate_singleton,
      List.mem_append, number, or_false]
    decide
  have heading : ∀ line ∈ Summary.heading, .char '\n' ∉ line := by decide
  intro line mem
  rw [uncut_char_iff]
  rcases List.mem_append.mp mem with top | bottom
  · simp only [List.mem_cons, List.not_mem_nil, or_false] at top
    rcases top with rfl | rfl | rfl | rfl
    · decide
    · decide
    · exact numbers
    · decide
  · exact heading line bottom

theorem remark_of_answer {s : Specification} {c : Option Text} {r : Result}
    (answers : Answers s c r) : r.remark = verdictText (s.contains c) := by
  obtain ⟨candidate, verdict⟩ := r
  rw [answers.2]
  rcases verdict with refusal | _ | _ <;> rfl

theorem cells_of_answers {q : Inquiry} {e : Entry} (name : e.name.text = q.title)
    (text : e.specification = q.specification.text)
    (answers : List.Forall₂ (Answers q.specification) q.candidates e.results) :
    e.results.map e.cells = q.table := by
  rw [Inquiry.table, ← List.forall₂_eq_eq_eq, List.forall₂_map_left_iff,
    List.forall₂_map_right_iff]
  refine answers.flip.imp ?_
  intro r c answer
  rw [Entry.cells, Inquiry.cells, name, text, remark_of_answer answer, answer.1]

theorem rows_of_inquiry {q : Inquiry} {e : Traced Entry} (evaluated : q.entry = .ok e) :
    e.value.rows = q.table.map Summary.row := by
  obtain ⟨results, answered, answers⟩ := candidates_answered q.specification q.candidates
  rw [Inquiry.entry, evaluate_of_results answered] at evaluated
  have cells : e.value.results.map e.value.cells = q.table := by
    rw [← Except.ok.inj evaluated]
    exact cells_of_answers rfl rfl answers
  rw [← cells, List.map_map]
  rfl

theorem rows_of_inquiries {inquiries : List Inquiry} {entries : List (Traced Entry)}
    (evaluated : inquiries.mapM Inquiry.entry = .ok entries) :
    (entries.map Traced.value).flatMap Entry.rows =
      (inquiries.flatMap Inquiry.table).map Summary.row := by
  rw [mapM_ok_iff] at evaluated
  induction evaluated with
  | nil => rfl
  | cons first _ ih =>
    rw [List.map_cons, List.flatMap_cons, ih, rows_of_inquiry first, List.flatMap_cons,
      List.map_append]

def tableText (t : Totals) (table : List (List Text)) : Text :=
  (headLines t ++ (shownTable table).map Summary.row).flatMap fun line => line ++ [.char '\n']

theorem shown_rows (table : List (List Text)) : (shownTable table).map Summary.row =
    if (table.map Summary.row).isEmpty then [Summary.placeholder] else table.map Summary.row := by
  cases table <;> rfl

theorem report_rendered {r : Report} {entries : List Entry} {table : List (List Text)}
    (listed : r.entries = entries.map Entry.toJson)
    (rows : entries.flatMap Entry.rows = table.map Summary.row) :
    Summary.render r.toJson = .ok (tableText r.totals table) := by
  rw [Summary.render, lines_of_report listed, rows, ← shown_rows]
  rfl

theorem summary_written (inquiries : List Inquiry) : ∃ entries report,
    inquiries.mapM Inquiry.entry = .ok entries ∧
    Report.ofEntries (entries.map fun e => e.value.toJson) = .ok report ∧
    Summary.render report.toJson =
      .ok (tableText report.totals (inquiries.flatMap Inquiry.table)) := by
  have each := forall₂_exists_iff.mpr fun q (_ : q ∈ inquiries) => inquiry_answered q
  obtain ⟨entries, related⟩ := each
  have evaluated : inquiries.mapM Inquiry.entry = .ok entries :=
    mapM_ok_iff.mpr (related.imp fun _ _ both => both.1)
  have report := report_of_entries (entries.map Traced.value)
  have rendered := report_rendered (r := .ofOutcomes _ ((entries.map Traced.value).flatMap
    Entry.outcomes)) rfl (rows_of_inquiries evaluated)
  rw [List.map_map] at report rendered
  exact ⟨entries, _, evaluated, report, rendered⟩

theorem table_text_lines (t : Totals) (table : List (List Text)) :
    endedLines (tableText t table) =
      headLines t ++ ((shownTable table).map Summary.row).flatMap (parts (· == .char '\n')) := by
  rw [tableText, ended_lines, List.flatMap_append, flatMap_uncut (head_uncut t)]

theorem table_intact_iff (t : Totals) {table : List (List Text)}
    (filled : ∀ cells ∈ table, cells ≠ []) :
    Intact (tableText t table) table ↔ ∀ cells ∈ table, ∀ cell ∈ cells, FitsCell cell := by
  have rows : (endedLines (tableText t table)).drop 6 =
      ((shownTable table).map Summary.row).flatMap (parts (· == .char '\n')) := by
    rw [table_text_lines]
    exact List.drop_left' rfl
  rw [Intact, rows]
  by_cases empty : table = []
  · have fits : ∀ cells ∈ [placeholderCells], ∀ cell ∈ cells, FitsCell cell := by decide
    rw [shownTable, if_pos empty, rows_shown_iff (by decide), empty]
    exact iff_of_true fits (by simp)
  · rw [shownTable, if_neg empty, rows_shown_iff filled]

theorem verdict_fits {s : Specification} {candidate : Option Text}
    (fits : FitsCell (Json.ofText? candidate).text) :
    FitsCell (verdictText (s.contains candidate)) := by
  cases verdict : s.contains candidate with
  | ok contained => cases contained <;> decide
  | error f =>
    have refused : VersionId.parse candidate 0 = .error f :=
      map_error_iff.mp (s.contains_eq_check candidate ▸ verdict)
    have none : .char '|' ∉ candidate.getD [] := by
      cases candidate with
      | none => simp
      | some t => exact fits.2
    exact fits_cell_append.mpr
      ⟨by decide, fits_of_bars (refused_candidate_bars refused) none⟩

theorem cells_fit_iff (q : Inquiry) (candidate : Option Text) :
    (∀ cell ∈ q.cells candidate, FitsCell cell) ↔ FitsCell q.title ∧
      FitsCell q.specification.text ∧ FitsCell (Json.ofText? candidate).text := by
  have code : ∀ t, FitsCell (Summary.code t) ↔ FitsCell t := by
    intro t
    have mark : FitsCell "`".text := by decide
    simp only [Summary.code, fits_cell_append, mark, true_and, and_true]
  simp only [Inquiry.cells, List.forall_mem_cons, code, List.not_mem_nil, false_implies,
    implies_true, and_true]
  constructor
  · rintro ⟨title, specification, shown, _⟩
    exact ⟨title, specification, shown⟩
  · rintro ⟨title, specification, shown⟩
    exact ⟨title, specification, shown, verdict_fits shown⟩

theorem inquiry_rows_filled {inquiries : List Inquiry} :
    ∀ cells ∈ inquiries.flatMap Inquiry.table, cells ≠ [] := by
  intro cells mem
  obtain ⟨q, _, row⟩ := List.mem_flatMap.mp mem
  obtain ⟨candidate, _, rfl⟩ := List.mem_map.mp row
  exact List.cons_ne_nil _ _

/- The rows survive unless a name, a specification or a candidate holds a line feed or a bar. An
   error by itself never breaks a row. -/
theorem rows_intact_iff (inquiries : List Inquiry) :
    ∃ entries report t, inquiries.mapM Inquiry.entry = .ok entries ∧
      Report.ofEntries (entries.map fun e => e.value.toJson) = .ok report ∧
      Summary.render report.toJson = .ok t ∧
      (Intact t (inquiries.flatMap Inquiry.table) ↔
        ∀ q ∈ inquiries, ∀ candidate ∈ q.candidates, FitsCell q.title ∧
          FitsCell q.specification.text ∧ FitsCell (Json.ofText? candidate).text) := by
  obtain ⟨entries, report, evaluated, reported, rendered⟩ := summary_written inquiries
  refine ⟨entries, report, _, evaluated, reported, rendered, ?_⟩
  rw [table_intact_iff _ inquiry_rows_filled]
  simp only [List.forall_mem_flatMap, Inquiry.table, List.forall_mem_map, cells_fit_iff]

def twoLines : Text := "1.0\n2.0".text

theorem line_feed_tears_row : ∃ s entries report t,
    Specification.parse (some twoLines) = .ok s ∧
    [Inquiry.mk s .null [some "1.0".text]].mapM Inquiry.entry = .ok entries ∧
    Report.ofEntries (entries.map fun e => e.value.toJson) = .ok report ∧
    Summary.render report.toJson = .ok t ∧
    ¬ Intact t ([Inquiry.mk s .null [some "1.0".text]].flatMap Inquiry.table) := by
  have accepted : (Specification.parse (some twoLines)).map (·.text) = .ok twoLines := by
    decide +kernel
  obtain ⟨s, parsed, text⟩ := map_ok_iff.mp accepted
  obtain ⟨entries, report, evaluated, reported, rendered⟩ :=
    summary_written [Inquiry.mk s .null [some "1.0".text]]
  refine ⟨s, entries, report, _, parsed, evaluated, reported, rendered, ?_⟩
  rw [table_intact_iff _ inquiry_rows_filled]
  simp only [List.forall_mem_flatMap, Inquiry.table, List.forall_mem_map, cells_fit_iff,
    List.forall_mem_singleton, text]
  rintro ⟨_, torn, _⟩
  exact absurd torn (by decide)

end VersionMatch
