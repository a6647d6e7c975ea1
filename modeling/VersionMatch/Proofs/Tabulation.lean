import VersionMatch.Report
import VersionMatch.Report.Summary
import VersionMatch.Proofs.Outcome

/- The summary of a report on evaluated specifications: it can always be written, with one row for
   every result in order. -/
namespace VersionMatch

def Result.remark (r : Result) : Text :=
  match r.verdict with
  | .ok true => "yes".text
  | .ok false => "no".text
  | .error refusal => "error: ".text ++ refusal.message

def Entry.cells (e : Entry) (r : Result) : List Text :=
  [e.name.text, Summary.code e.specification, Summary.code (Json.ofText? r.candidate).text,
    r.remark]

def Entry.rows (e : Entry) : List Text := e.results.map fun r => Summary.row (e.cells r)

def Totals.line (t : Totals) : Text :=
  " | ".text.intercalate ["Specifications: ".text ++ (Json.ofNat t.specifications).text,
    "Candidates: ".text ++ (Json.ofNat t.candidates).text,
    "Contained: ".text ++ (Json.ofNat t.contained).text]

theorem status_of_result (r : Result) : Summary.status r.toJson = .ok r.remark := by
  obtain ⟨candidate, refusal | _ | _⟩ := r
  · have error : (Result.toJson ⟨candidate, .error refusal⟩).fieldOr "error" .null =
      .ok refusal.diagnosis.toJson := rfl
    have message : refusal.diagnosis.toJson.fieldOr "message" (.str []) =
      .ok (.str refusal.message) := rfl
    have present : refusal.diagnosis.toJson.truthy = true := rfl
    simp only [Summary.status, error, message, present, ok_bind, if_true]
    rfl
  · rfl
  · rfl

theorem row_of_result (e : Entry) (r : Result) :
    Summary.resultRow e.name (.str e.specification) r.toJson = .ok (Summary.row (e.cells r)) := by
  have candidate : r.toJson.fieldOr "candidate" (.str []) = .ok (Json.ofText? r.candidate) := rfl
  rw [Summary.resultRow, candidate, ok_bind, status_of_result, ok_bind]
  rfl

theorem rows_of_entry (e : Entry) : Summary.entryRows e.toJson = .ok e.rows := by
  have name : e.toJson.fieldOr "name" (.str []) = .ok e.name := rfl
  have specification : e.toJson.fieldOr "specification" (.str []) =
    .ok (.str e.specification) := rfl
  have results : e.toJson.fieldOr "results" .null = .ok (.list (e.results.map Result.toJson)) := rfl
  have parts : (Json.list (e.results.map Result.toJson)).parts =
      .ok (e.results.map Result.toJson) := rfl
  have rows : (e.results.map Result.toJson).mapM
      (Summary.resultRow e.name (.str e.specification)) = .ok e.rows :=
    mapM_map_ok fun r _ => row_of_result e r
  simp only [Summary.entryRows, name, specification, results, parts, rows, ok_bind]
  by_cases empty : e.results = []
  · rw [Entry.rows, empty]
    rfl
  · have full : (Json.list (e.results.map Result.toJson)).truthy = true := by
      simpa [Json.truthy] using empty
    rw [if_pos full]

theorem totals_line (t : Totals) : Summary.totalsLine t.toJson = .ok t.line := rfl

theorem lines_of_report {r : Report} {entries : List Entry}
    (listed : r.entries = entries.map Entry.toJson) : Summary.lines r.toJson =
      .ok (["# jnlp-version Summary".text, [], r.totals.line, []] ++ Summary.heading ++
        if (entries.flatMap Entry.rows).isEmpty then [Summary.placeholder]
        else entries.flatMap Entry.rows) := by
  have totals : r.toJson.fieldOr "totals" (.object []) = .ok r.totals.toJson := rfl
  have given : r.toJson.fieldOr "entries" (.list []) = .ok (.list (entries.map Entry.toJson)) := by
    rw [← listed]
    rfl
  have parts : (Json.list (entries.map Entry.toJson)).parts = .ok (entries.map Entry.toJson) := rfl
  have rows : (entries.map Entry.toJson).mapM Summary.entryRows = .ok (entries.map Entry.rows) :=
    mapM_map_ok fun e _ => rows_of_entry e
  rw [Summary.lines, totals, ok_bind, given, ok_bind, totals_line, ok_bind, parts, ok_bind, rows,
    ok_bind, ← List.flatMap_def]
  rfl

end VersionMatch
