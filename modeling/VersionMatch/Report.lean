import VersionMatch.Specification

/- Specifications against lists of candidates. A candidate that is no version is reported with its
   error, and its verdict stays open. A report adds the results up, and the sums give its exit
   status. -/
namespace VersionMatch

structure Result where
  candidate : Option Text
  verdict : Except Refusal Bool
  deriving Repr

def Result.toJson (r : Result) : Json :=
  .object ([("candidate".text, Json.ofText? r.candidate)] ++
    match r.verdict with
    | .ok contained => [("contained".text, .bool contained)]
    | .error refusal =>
      [("contained".text, .null), ("error".text, refusal.diagnosis.toJson)])

structure Entry where
  name : Json
  specification : Text
  isSingle : Bool
  results : List Result
  deriving Repr

def Entry.toJson (e : Entry) : Json :=
  .object [("name".text, e.name), ("specification".text, .str e.specification),
    ("singleVersionId".text, .bool e.isSingle),
    ("results".text, .list (e.results.map Result.toJson))]

namespace Specification

def result (s : Specification) (candidate : Option Text) : Except Fault (Traced Result) :=
  let checked := s.checkText candidate
  match checked.value with
  | .ok contained => .ok ⟨⟨candidate, .ok contained⟩, checked.events⟩
  | .error (.refused r) => .ok ⟨⟨candidate, .error r⟩, checked.events⟩
  | .error f => .error f

/-- A name that is missing or empty gives way to the text of the specification. -/
def evaluate (s : Specification) (name : Json) (candidates : List (Option Text)) :
    Except Fault (Traced Entry) := do
  let results ← candidates.mapM s.result
  return ⟨⟨if name.truthy then name else .str s.text, s.text, s.isSingle,
    results.map Traced.value⟩, results.flatMap Traced.events⟩

end Specification

structure Report where
  allContained : Bool
  hasErrors : Bool
  entries : List Json
  totals : Totals
  deriving Repr

namespace Report

def isContained : Json → Bool
  | .bool true => true
  | _ => false

def resultsOf (entry : Json) : Except Misfit (List Json) := do
  (← entry.fieldOr "results" (.list [])).parts

def ofEntries (entries : List Json) : Except Misfit Report := do
  let results := (← entries.mapM resultsOf).flatten
  let verdicts ← results.mapM (·.fieldOr "contained" .null)
  let faults ← results.mapM (·.fieldOr "error" .null)
  let contained := verdicts.countP isContained
  let errors := faults.countP Json.truthy
  return {
    allContained := !results.isEmpty && contained == results.length
    hasErrors := decide (0 < errors)
    entries := entries
    totals := ⟨entries.length, results.length, contained,
      (results.length : Int) - contained - errors, errors⟩ }

def toJson (r : Report) : Json :=
  .object [("version".text, .str ['1']), ("allContained".text, .bool r.allContained),
    ("hasErrors".text, .bool r.hasErrors), ("entries".text, .list r.entries),
    ("totals".text, r.totals.toJson)]

end Report

def statusOk : Nat := 0
def statusError : Nat := 1
def statusNotContained : Nat := 10

def exitStatus (report : Json) : Except Misfit (Traced Nat) := do
  let totals ← report.fieldOr "totals" (.object [])
  if (← report.fieldOr "hasErrors" .null).truthy then return ⟨statusError, []⟩
  if ← (← totals.fieldOr "notContained" (.int 0)).isPositive then return ⟨statusNotContained, []⟩
  if (← totals.fieldOr "candidates" .null).truthy then return ⟨statusOk, []⟩
  return ⟨statusOk, [.nothingChecked]⟩

end VersionMatch
