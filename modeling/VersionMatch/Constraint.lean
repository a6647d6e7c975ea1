import VersionMatch.Specification

/- Named specifications. The name, the switch and the description are kept as they were
   given; only the specification is read. -/
namespace VersionMatch

structure Constraint where
  id : Json
  specification : Specification
  enabled : Json
  description : Json
  deriving Repr

inductive ConstraintFault
  | missingKey (key : Text)
  | notText (kind : Json.Kind)
  | refused (id : Json) (r : Refusal)
  | defect (d : Defect)
  deriving Repr

def ConstraintFault.message : ConstraintFault → Text
  | .missingKey key => key.quoted
  | .notText kind => "'".text ++ kind.word ++ "' object has no attribute 'strip'".text
  | .refused id r =>
    "Constraint '".text ++ id.text ++ "' has an invalid specification: ".text ++ r.message
  | .defect d => d.message

namespace Constraint

def specificationText : Json → Except ConstraintFault (Option Text)
  | .str t => .ok (some t)
  | .null => .ok none
  | v => .error (.notText v.kind)

def build (id entry : Json) : Except Fault Specification → Except ConstraintFault Constraint
  | .ok s => .ok {
      id := id
      specification := s
      enabled := (entry.field? "enabled").getD (.bool true)
      description := (entry.field? "description").getD (.str []) }
  | .error (.refused r) => .error (.refused id r)
  | .error (.defect d) => .error (.defect d)

def ofJson (entry : Json) : Traced (Except ConstraintFault Constraint) :=
  match entry.field? "id", entry.field? "specification" with
  | none, _ => pure (.error (.missingKey "id".text))
  | _, none => pure (.error (.missingKey "specification".text))
  | some id, some specification =>
    match specificationText specification with
    | .error f => pure (.error f)
    | .ok t => do return build id entry (← Specification.read t)

def toJson (c : Constraint) : Json :=
  .object [("id".text, c.id), ("specification".text, .str c.specification.text),
    ("enabled".text, c.enabled), ("description".text, c.description)]

end Constraint

structure ConstraintSet where
  constraints : List Constraint
  deriving Repr

namespace ConstraintSet

def enabled (s : ConstraintSet) : List Constraint := s.constraints.filter (·.enabled.truthy)

def byId? (s : ConstraintSet) (id : Json) : Option Constraint :=
  s.constraints.find? (·.id.same id)

def toJson (s : ConstraintSet) : Json :=
  .object [("constraints".text, .list (s.constraints.map Constraint.toJson))]

end ConstraintSet
end VersionMatch
