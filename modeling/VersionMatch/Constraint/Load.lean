import VersionMatch.Constraint
import VersionMatch.Files
import VersionMatch.Json.Reader
import VersionMatch.Json.Schema
import VersionMatch.Text.Utf8

/- Loading a constraints file: which file, its octets, its text, its document, its shape, and
   last its entries in order. The first of these that fails ends the loading. -/
namespace VersionMatch

/-- What a run can see of the world, and what it leaves to others: how deep lists and objects may
    stand in each other before reading gives up, the validator of documents, and what standard
    output, as it was set up for the run, objects to in a text, if anything. -/
structure Surroundings where
  workingDirectory : Text
  constraintsVariable : Option Text
  read : Path → Reading
  nesting : Nat
  validator : Validator
  printFault? : Text → Option Text

def defaultFileName : Text := "constraints.json".text

structure ConstraintSource where
  path : Path
  shown : Text
  deriving DecidableEq, Repr

/-- The path asked for, else the one in the environment unless that is empty, else the
    default name in the working directory. -/
def Surroundings.source (w : Surroundings) (asked : Option Text) : ConstraintSource :=
  let named (t : Text) : ConstraintSource := ⟨Path.ofText t, (Path.ofText t).text⟩
  match asked, w.constraintsVariable with
  | some t, _ => named t
  | none, some (c :: t) => named (c :: t)
  | none, _ =>
    ⟨Path.ofText defaultFileName, ((Path.ofText w.workingDirectory).child defaultFileName).text⟩

inductive LoadFault
  | missing (source : Text)
  | directory (source : Text)
  | longName (source : Text)
  | undecodable (f : Utf8.Fault)
  | unreadable (f : Json.ReadFault) (content : Characters)
  | beyondLimit (problem : Json.Problem)
  | invalid (violations : List Violation)
  | entry (f : ConstraintFault)
  | repeatedId (id : Json)
  deriving Repr

namespace LoadFault

def message : LoadFault → Text
  | .missing source => "Constraints file not found: ".text ++ source
  | .directory source =>
    "Failed to read constraints file: [Errno 21] Is a directory: ".text ++ source.quoted
  | .longName source => "[Errno 36] File name too long: ".text ++ source.quoted
  | .undecodable f => f.message
  | .unreadable f content => "Invalid JSON in constraints file: ".text ++ f.message content
  | .beyondLimit problem => problem.wording
  | .invalid violations =>
    "Constraints file failed validation:\n".text ++
      [CodePoint.char '\n'].intercalate (violations.map Violation.line)
  | .entry f => f.message
  | .repeatedId id => "Duplicate constraint ID: '".text ++ id.text ++ "'".text

/-- Whether the fault is reported as one of the configuration. The others end the run. -/
def isConfiguration : LoadFault → Bool
  | .longName _ | .undecodable _ | .beyondLimit _ => false
  | .entry (.refused _ _) => true
  | .entry _ => false
  | _ => true

end LoadFault

def constraintsSchema : Schema :=
  .record ["constraints".text]
    [("constraints".text, .list true
      (.record ["id".text, "specification".text]
        [("id".text, .text true), ("specification".text, .text true),
          ("enabled".text, .flag), ("description".text, .text false)]))]

abbrev Loading := ExceptT LoadFault Traced

namespace ConstraintSet

def readText (source : Text) : Reading → Except LoadFault Characters
  | .missing => .error (.missing source)
  | .directory => .error (.directory source)
  | .longName => .error (.longName source)
  | .octets bytes => ((Utf8.decode bytes).mapError .undecodable).map Characters.withLineFeeds

def readDocument (nesting : Nat) (content : Characters) : Except LoadFault Json :=
  match Json.read nesting content with
  | .ok v => .ok v
  | .error f =>
    if f.problem.isLimit then .error (.beyondLimit f.problem) else .error (.unreadable f content)

def validate (validator : Validator) (document : Json) : Except LoadFault Unit :=
  match constraintsSchema.check validator document with
  | [] => .ok ()
  | violations => .error (.invalid violations)

def entriesOf (document : Json) : List Json :=
  match document.field? "constraints" with
  | some (.list entries) => entries
  | _ => []

/-- `seen` holds the names of the entries before. An entry is read before its name is
    looked up there. -/
def loadEntries : List Json → List Json → Loading (List Constraint)
  | _, [] => pure []
  | seen, entry :: rest => do
    let constraint ← ExceptT.mk ((fun r => r.mapError LoadFault.entry) <$> Constraint.ofJson entry)
    if seen.any constraint.id.same then throw (.repeatedId constraint.id)
    return constraint :: (← loadEntries (constraint.id :: seen) rest)

def load (w : Surroundings) (asked : Option Text) : Loading ConstraintSet := do
  let source := w.source asked
  let content ← liftExcept (readText source.shown (w.read source.path))
  let document ← liftExcept (readDocument w.nesting content)
  liftExcept (validate w.validator document)
  let constraints ← loadEntries [] (entriesOf document)
  ExceptT.lift (Traced.emit (.loaded constraints.length source.shown))
  return ⟨constraints⟩
where
  liftExcept {α : Type} (x : Except LoadFault α) : Loading α := ExceptT.mk (pure x)

end ConstraintSet
end VersionMatch
