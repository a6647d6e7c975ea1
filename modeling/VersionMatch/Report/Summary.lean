import VersionMatch.Json.Display

/- The Markdown summary of a report: a line of totals and a table with one row for every
   result. Values stand in their cells as they are; nothing in them is escaped. -/
namespace VersionMatch.Summary

def row (cells : List Text) : Text := "| ".text ++ " | ".text.intercalate cells ++ " |".text

def code (t : Text) : Text := "`".text ++ t ++ "`".text

def status (result : Json) : Except Misfit Text := do
  let error ← result.fieldOr "error" .null
  if error.truthy then
    return "error: ".text ++ (← error.fieldOr "message" (.str [])).text
  else
    return if (← result.fieldOr "contained" .null).truthy then "yes".text else "no".text

def resultRow (name specification : Json) (result : Json) : Except Misfit Text := do
  let candidate ← result.fieldOr "candidate" (.str [])
  return row [name.text, code specification.text, code candidate.text, ← status result]

def entryRows (entry : Json) : Except Misfit (List Text) := do
  let name ← entry.fieldOr "name" (.str [])
  let specification ← entry.fieldOr "specification" (.str [])
  let results ← entry.fieldOr "results" .null
  if results.truthy then (← results.parts).mapM (resultRow name specification) else return []

def heading : List Text :=
  [row (["Name", "Specification", "Candidate", "Contained"].map String.text),
    row (List.replicate 4 "---".text)]

def placeholder : Text := row ("(nothing checked)".text :: List.replicate 3 "n/a".text)

def totalsLine (totals : Json) : Except Misfit Text := do
  let shown (label key : String) : Except Misfit Text := do
    return label.text ++ (← totals.fieldOr key (.int 0)).text
  return " | ".text.intercalate [← shown "Specifications: " "specifications",
    ← shown "Candidates: " "candidates", ← shown "Contained: " "contained"]

def lines (report : Json) : Except Misfit (List Text) := do
  let totals ← report.fieldOr "totals" (.object [])
  let entries ← report.fieldOr "entries" (.list [])
  let totals ← totalsLine totals
  let rows := (← (← entries.parts).mapM entryRows).flatten
  return ["# jnlp-version Summary".text, [], totals, []] ++ heading ++
    if rows.isEmpty then [placeholder] else rows

def render (report : Json) : Except Misfit Text := do
  return (← lines report).flatMap fun line => line ++ [.char '\n']

end VersionMatch.Summary
