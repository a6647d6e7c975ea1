import VersionMatch.Json.Schema

/- A validator. The violations of a value itself come before those of its parts. -/
namespace VersionMatch.Schema

def typeName : Schema → Text
  | .text _ => "string".text
  | .flag => "boolean".text
  | .list _ _ => "array".text
  | .record _ _ => "object".text

def ascendingKeys (keys : List Text) : List Text := keys.mergeSort fun a b => compare a b != .gt

def unknownKeys (fields : List (Text × Schema)) (given : List (Text × Json)) : List Text :=
  ascendingKeys ((given.map Prod.fst).filter fun k => (fields.lookup k).isNone)

def missingKeys (required : List Text) (given : List (Text × Json)) : List Text :=
  required.filter fun k => (given.lookup k).isNone

def ownFlaws : Schema → Json → List Flaw
  | .text nonempty, .str t => if nonempty && t.isEmpty then [.empty] else []
  | .flag, .bool _ => []
  | .list nonempty _, .list vs => if nonempty && vs.isEmpty then [.empty] else []
  | .record required fields, .object given =>
    (missingKeys required given).map .missing ++
      if (unknownKeys fields given).isEmpty then [] else [.unexpected]
  | _, _ => [.wrongType]

def unexpectedKeys : Schema → Json → List Text
  | .record _ fields, .object given => unknownKeys fields given
  | _, _ => []

def wording (s : Schema) (v : Json) : Flaw → Text
  | .wrongType => v.shown ++ " is not of type ".text ++ s.typeName.quoted
  | .missing key => key.quoted ++ " is a required property".text
  | .unexpected =>
    let keys := s.unexpectedKeys v
    "Additional properties are not allowed (".text ++
      ", ".text.intercalate (keys.map Text.quoted) ++
      (if keys.length = 1 then " was".text else " were".text) ++ " unexpected)".text
  | .empty => v.shown ++ " should be non-empty".text

def ownViolations (s : Schema) (path : List Step) (v : Json) : List Violation :=
  (s.ownFlaws v).map fun f => ⟨path, f, s.wording v f⟩

mutual

def violations (path : List Step) (s : Schema) (v : Json) : List Violation :=
  s.ownViolations path v ++
    match s, v with
    | .list _ items, .list vs =>
      vs.zipIdx.flatMap fun p => violations (path ++ [.index p.2]) items p.1
    | .record _ fields, .object given => fieldViolations path fields given
    | _, _ => []

def fieldViolations (path : List Step) :
    List (Text × Schema) → List (Text × Json) → List Violation
  | [], _ => []
  | (key, schema) :: rest, given =>
    (match given.lookup key with
      | some v => violations (path ++ [.name key]) schema v
      | none => []) ++ fieldViolations path rest given

end

def validator : Validator := violations []

end VersionMatch.Schema
