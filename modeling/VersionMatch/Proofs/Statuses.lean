import VersionMatch.Proofs.TableRows

/- What the rows of a summary say at their ends, and that it adds up to what the totals say. The end
   of a row cannot be mistaken, whatever its candidate imitates: the two verdicts end in letters in
   which no message ends. -/
namespace VersionMatch

def endsYes (row : Text) : Bool := "| yes |".text.isSuffixOf row

def endsNo (row : Text) : Bool := "| no |".text.isSuffixOf row

def endsOtherwise (row : Text) : Bool := !endsYes row && !endsNo row

/-- What is shown of an inquiry stays on one line, except for what is said of its candidates. -/
structure Inquiry.OneLine (q : Inquiry) : Prop where
  name : .char '\n' ∉ q.title
  specification : .char '\n' ∉ q.specification.text
  candidates : ∀ t, some t ∈ q.candidates → .char '\n' ∉ t

structure Speaks (row : Text) (r : Result) : Prop where
  contained : endsYes row = true ↔ r.verdict = .ok true
  excluded : endsNo row = true ↔ r.verdict = .ok false
  failed : endsOtherwise row = true → ∃ status, Summary.status r.toJson = .ok status ∧
    "error: ".text <+: status ∧ ("| ".text ++ status ++ " |".text) <:+ row

/-- Rows that speak of the results one by one, and in sum as the totals do. -/
structure Accord (rows : List Text) (results : List Result) (totals : Totals) : Prop where
  each : List.Forall₂ Speaks rows results
  contained : rows.countP endsYes = totals.contained
  notContained : (rows.countP endsNo : Int) = totals.notContained
  errors : rows.countP endsOtherwise = totals.errors

theorem ends_otherwise_iff {row : Text} :
    endsOtherwise row = true ↔ ¬endsYes row = true ∧ ¬endsNo row = true := by
  simp [endsOtherwise]

theorem row_cons (cell : Text) {cells : List Text} (some : cells ≠ []) :
    Summary.row (cell :: cells) = (.char '|' :: padded cell) ++ Summary.row cells := by
  rw [row_ended (List.cons_ne_nil cell cells), row_ended some, List.map_cons, List.flatMap_cons,
    List.append_assoc]
  rfl

theorem row_ends_in_last (front : List Text) (last : Text) :
    ("| ".text ++ last ++ " |".text) <:+ Summary.row (front ++ [last]) := by
  induction front with
  | nil =>
    have alone : Summary.row [last] = "| ".text ++ last ++ " |".text := by
      rw [Summary.row, List.intercalate_singleton]
    exact ⟨[], alone.symm⟩
  | cons cell front ih =>
    rw [List.cons_append, row_cons cell (by simp)]
    exact ih.trans (List.suffix_append _ _)

theorem last_cells_alike {row s t : Text} (someS : s ≠ []) (someT : t ≠ [])
    (endS : ("| ".text ++ s ++ " |".text) <:+ row)
    (endT : ("| ".text ++ t ++ " |".text) <:+ row) : s.getLast? = t.getLast? := by
  obtain ⟨beforeS, rfl⟩ := endS
  obtain ⟨beforeT, same⟩ := endT
  have whole : beforeT ++ ("| ".text ++ t) ++ " |".text =
      beforeS ++ ("| ".text ++ s) ++ " |".text := by
    simpa only [List.append_assoc] using same
  have letters := congrArg List.getLast? (List.append_cancel_right whole)
  rw [← List.append_assoc, ← List.append_assoc, List.getLast?_append_of_ne_nil _ someT,
    List.getLast?_append_of_ne_nil _ someS] at letters
  exact letters.symm

/- Whether a row ends in a word is told by the last letter of the word, if the last cell is the word
   itself wherever it has that letter. -/
theorem ends_in_word_iff {row cell word : Text} {c d : CodePoint}
    (ends : ("| ".text ++ cell ++ " |".text) <:+ row) (cellLast : cell.getLast? = some c)
    (wordLast : word.getLast? = some d) (telling : c = d → cell = word) :
    ("| ".text ++ word ++ " |".text).isSuffixOf row = true ↔ c = d := by
  rw [List.isSuffixOf_iff_suffix]
  constructor
  · intro other
    have someCell : cell ≠ [] := by
      rintro rfl
      cases cellLast
    have someWord : word ≠ [] := by
      rintro rfl
      cases wordLast
    have alike := last_cells_alike someCell someWord ends other
    rw [cellLast, wordLast] at alike
    exact Option.some.inj alike
  · intro same
    exact telling same ▸ ends

theorem quoted_last (t : Text) :
    t.quoted.getLast? = some (.char '"') ∨ t.quoted.getLast? = some (.char '\'') := by
  have last : t.quoted.getLast? = some (quoteMark t) := by
    rw [Text.quoted, ← List.cons_append, List.getLast?_concat]
  rcases quote_mark_cases t with mark | mark
  · exact .inl (by rw [last, mark])
  · exact .inr (by rw [last, mark])

theorem refusal_last (r : Refusal) : ∃ c, r.message.getLast? = some c ∧ c ≠ 's' ∧ c ≠ 'o' := by
  cases r with
  | absent => exact ⟨'e', by decide⟩
  | blank => exact ⟨'y', by decide⟩
  | malformed cause position fragment =>
    have some : fragment.quoted ≠ [] := List.cons_ne_nil _ _
    have last : (Refusal.malformed cause position fragment).message.getLast? =
        fragment.quoted.getLast? := List.getLast?_append_of_ne_nil _ some
    rcases quoted_last fragment with mark | mark
    · exact ⟨'"', by rw [last, mark], by decide⟩
    · exact ⟨'\'', by rw [last, mark], by decide⟩

theorem refusal_line (r : Refusal) : .char '\n' ∉ r.message := by
  cases r with
  | absent => decide
  | blank => decide
  | malformed cause position fragment =>
    exact fun mem => (malformed_bars cause position (List.Subset.refl fragment) _ mem).1 rfl

theorem remark_line (r : Result) : .char '\n' ∉ r.remark := by
  have words : .char '\n' ∉ "yes".text ∧ .char '\n' ∉ "no".text ∧
      .char '\n' ∉ "error: ".text := by decide
  obtain ⟨candidate, refusal | _ | _⟩ := r
  · intro mem
    rcases List.mem_append.mp mem with label | message
    · exact words.2.2 label
    · exact refusal_line refusal message
  · exact words.2.1
  · exact words.1

theorem remark_last (r : Result) : ∃ c, r.remark.getLast? = some c ∧
    (c = 's' ↔ r.verdict = .ok true) ∧ (c = 'o' ↔ r.verdict = .ok false) := by
  obtain ⟨candidate, refusal | _ | _⟩ := r
  · obtain ⟨c, last, notS, notO⟩ := refusal_last refusal
    have some : refusal.message ≠ [] := by
      intro none
      simp [none] at last
    exact ⟨c, (List.getLast?_append_of_ne_nil _ some).trans last, by simp [notS], by simp [notO]⟩
  · exact ⟨'o', rfl, by simp, by simp⟩
  · exact ⟨'s', rfl, by simp, by simp⟩

theorem row_speaks (e : Entry) (r : Result) : Speaks (Summary.row (e.cells r)) r := by
  have ends := row_ends_in_last [e.name.text, Summary.code e.specification,
    Summary.code (Json.ofText? r.candidate).text] r.remark
  obtain ⟨c, last, yes, no⟩ := remark_last r
  have sayYes : c = 's' → r.remark = "yes".text := fun same => by rw [Result.remark, yes.mp same]
  have sayNo : c = 'o' → r.remark = "no".text := fun same => by rw [Result.remark, no.mp same]
  have contained : endsYes (Summary.row (e.cells r)) = true ↔ r.verdict = .ok true :=
    (ends_in_word_iff ends last rfl sayYes).trans yes
  have excluded : endsNo (Summary.row (e.cells r)) = true ↔ r.verdict = .ok false :=
    (ends_in_word_iff ends last rfl sayNo).trans no
  refine ⟨contained, excluded, fun otherwise => ⟨r.remark, status_of_result r, ?_, ends⟩⟩
  rw [ends_otherwise_iff, contained, excluded] at otherwise
  cases verdict : r.verdict with
  | ok b => cases b <;> simp [verdict] at otherwise
  | error refusal =>
    rw [Result.remark, verdict]
    exact List.prefix_append _ _

theorem entries_speak (entries : List Entry) :
    List.Forall₂ Speaks (entries.flatMap Entry.rows) (entries.flatMap Entry.results) := by
  induction entries with
  | nil => exact .nil
  | cons e entries ih =>
    have first : List.Forall₂ Speaks e.rows e.results := by
      rw [Entry.rows, List.forall₂_map_left_iff, List.forall₂_same]
      exact fun r _ => row_speaks e r
    exact List.rel_append first ih

theorem countP_of_related {α β : Type} {R : α → β → Prop} {xs : List α} {ys : List β}
    (related : List.Forall₂ R xs ys) {p : α → Bool} {q : β → Bool}
    (agree : ∀ x y, R x y → (p x = true ↔ q y = true)) : xs.countP p = ys.countP q := by
  induction related with
  | nil => rfl
  | cons first _ ih => simp only [List.countP_cons, ih, agree _ _ first]

theorem outcome_ok_iff {r : Result} {b : Bool} : r.outcome = .ok b ↔ r.verdict = .ok b := by
  obtain ⟨candidate, refusal | _⟩ := r <;> simp [Result.outcome, Except.mapError]

theorem speaks_otherwise_iff {row : Text} {r : Result} (speaks : Speaks row r) :
    endsOtherwise row = true ↔ refuses r.outcome = true := by
  rw [ends_otherwise_iff, speaks.contained, speaks.excluded]
  obtain ⟨candidate, refusal | _ | _⟩ := r <;> simp [Result.outcome, Except.mapError, refuses]

theorem count_of_speaking {rows : List Text} {results : List Result}
    (each : List.Forall₂ Speaks rows results) :
    rows.countP endsYes = (results.map Result.outcome).count (.ok true) ∧
      rows.countP endsNo = (results.map Result.outcome).count (.ok false) ∧
        rows.countP endsOtherwise = (results.map Result.outcome).countP refuses := by
  simp only [List.count, List.countP_map]
  refine ⟨?_, ?_, ?_⟩
  · refine countP_of_related each fun row r speaks => ?_
    rw [speaks.contained, Function.comp_apply, beq_iff_eq, outcome_ok_iff]
  · refine countP_of_related each fun row r speaks => ?_
    rw [speaks.excluded, Function.comp_apply, beq_iff_eq, outcome_ok_iff]
  · exact countP_of_related each fun row r speaks => speaks_otherwise_iff speaks

theorem summary_lines (t : Totals) {table : List (List Text)}
    (filled : ∀ cells ∈ table, cells ≠ [])
    (unbroken : ∀ cells ∈ table, ∀ cell ∈ cells, .char '\n' ∉ cell) :
    endedLines (tableText t table) = headLines t ++
      if (table.map Summary.row).isEmpty then [Summary.placeholder] else table.map Summary.row := by
  have rows : ∀ line ∈ (shownTable table).map Summary.row, Uncut (· == .char '\n') line := by
    intro line mem
    rw [uncut_char_iff]
    rw [shown_rows] at mem
    split at mem
    · rw [List.mem_singleton.mp mem]
      decide
    · obtain ⟨cells, given, rfl⟩ := List.mem_map.mp mem
      exact (line_row_iff (filled cells given)).mpr (unbroken cells given)
  rw [table_text_lines, flatMap_uncut rows, shown_rows]

theorem verdict_line (s : Specification) (candidate : Option Text) :
    .char '\n' ∉ verdictText (s.contains candidate) := by
  obtain ⟨r, _, answers⟩ := result_answers s candidate
  exact remark_of_answer answers ▸ remark_line r.value

theorem cells_one_line {q : Inquiry} (line : q.OneLine) :
    ∀ cells ∈ q.table, ∀ cell ∈ cells, .char '\n' ∉ cell := by
  have code : ∀ {t}, .char '\n' ∉ t → .char '\n' ∉ Summary.code t := by
    intro t absent
    simpa [Summary.code, String.text, Text.ofCharacters] using absent
  have shown : ∀ candidate ∈ q.candidates, .char '\n' ∉ (Json.ofText? candidate).text := by
    intro candidate mem
    cases candidate with
    | none => decide
    | some t => exact line.candidates t mem
  intro cells row
  obtain ⟨candidate, mem, rfl⟩ := List.mem_map.mp row
  simp only [Inquiry.cells, List.forall_mem_cons]
  exact ⟨line.name, code line.specification, code (shown candidate mem),
    verdict_line q.specification candidate, List.forall_mem_nil _⟩

theorem statuses_agree_with_totals {inquiries : List Inquiry}
    (lines : ∀ q ∈ inquiries, q.OneLine) :
    ∃ entries report t rows, inquiries.mapM Inquiry.entry = .ok entries ∧
      Report.ofEntries (entries.map fun e => e.value.toJson) = .ok report ∧
      Summary.render report.toJson = .ok t ∧
      endedLines t = headLines report.totals ++
        (if rows.isEmpty then [Summary.placeholder] else rows) ∧
      Accord rows (entries.flatMap fun e => e.value.results) report.totals := by
  obtain ⟨entries, report, evaluated, reported, rendered⟩ := summary_written inquiries
  have unbroken : ∀ cells ∈ inquiries.flatMap Inquiry.table, ∀ cell ∈ cells, .char '\n' ∉ cell := by
    simp only [List.forall_mem_flatMap]
    exact fun q mem => cells_one_line (lines q mem)
  have counted := report_of_entries (entries.map Traced.value)
  rw [List.map_map] at counted
  have same := Except.ok.inj (reported.symm.trans counted)
  have results : (entries.map Traced.value).flatMap Entry.results =
      entries.flatMap fun e => e.value.results := by
    rw [List.flatMap_map]
  have outcomes : (entries.map Traced.value).flatMap Entry.outcomes =
      (entries.flatMap fun e => e.value.results).map Result.outcome := by
    rw [← results, List.map_flatMap]
    rfl
  have speak := entries_speak (entries.map Traced.value)
  rw [rows_of_inquiries evaluated, results] at speak
  refine ⟨entries, report, _, _, evaluated, reported, rendered,
    summary_lines report.totals inquiry_rows_filled unbroken, ?_⟩
  obtain ⟨contained, excluded, failed⟩ := count_of_speaking speak
  rw [same, outcomes]
  exact ⟨speak, contained, congrArg Int.ofNat excluded, failed⟩

def fourCandidates (s : Specification) : Inquiry :=
  ⟨s, .str "runtime".text,
    [some "2.0".text, some "0.9".text, some "1..0 | yes |".text, none]⟩

theorem four_candidates_accounted : ∃ s, Specification.parse (some "1.0+".text) = .ok s ∧
    (∀ q ∈ [fourCandidates s], q.OneLine) ∧
    ∃ entries report t rows, [fourCandidates s].mapM Inquiry.entry = .ok entries ∧
      Report.ofEntries (entries.map fun e => e.value.toJson) = .ok report ∧
      Summary.render report.toJson = .ok t ∧
      endedLines t = headLines report.totals ++
        (if rows.isEmpty then [Summary.placeholder] else rows) ∧
      Accord rows (entries.flatMap fun e => e.value.results) report.totals := by
  have accepted : (Specification.parse (some "1.0+".text)).map (·.text) = .ok "1.0+".text := by
    decide +kernel
  obtain ⟨s, parsed, text⟩ := map_ok_iff.mp accepted
  have title : (fourCandidates s).title = "runtime".text := rfl
  have candidates : ∀ t, some t ∈ (fourCandidates s).candidates → .char '\n' ∉ t := by
    intro t mem
    simp only [fourCandidates, List.mem_cons, Option.some.injEq, reduceCtorEq, List.not_mem_nil,
      or_false] at mem
    rcases mem with rfl | rfl | rfl <;> decide
  have line : ∀ q ∈ [fourCandidates s], q.OneLine := by
    refine List.forall_mem_singleton.mpr ⟨?_, ?_, candidates⟩
    · rw [title]
      decide
    · change .char '\n' ∉ s.text
      rw [text]
      decide
  exact ⟨s, parsed, line, statuses_agree_with_totals line⟩

end VersionMatch
