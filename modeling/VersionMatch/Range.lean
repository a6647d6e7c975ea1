import VersionMatch.VersionId
import VersionMatch.Event

/- A range: a version with a modifier that decides which candidates match it. -/
namespace VersionMatch

inductive Modifier
  | exact
  | atLeast
  | startsWith
  deriving DecidableEq, Repr

namespace Modifier

def symbol : Modifier → Text
  | .exact => []
  | .atLeast => ['+']
  | .startsWith => ['*']

def name : Modifier → Text
  | .exact => "exact".text
  | .atLeast => "at_least".text
  | .startsWith => "prefix_wildcard".text

def ofSymbol (t : Text) : Except Fault Modifier :=
  if t = [] then .ok .exact
  else if t = [.char '+'] then .ok .atLeast
  else if t = [.char '*'] then .ok .startsWith
  else .error (.defect (.unknownModifier t))

def ofSuffix (t : Text) : Modifier :=
  if t.getLast? = some (.char '+') then .atLeast
  else if t.getLast? = some (.char '*') then .startsWith
  else .exact

end Modifier

structure Range where
  version : VersionId
  modifier : Modifier
  text : Text
  spelled : text = version.text ++ modifier.symbol
  deriving DecidableEq, Repr

namespace Range

def ofParts (version : VersionId) (modifier : Modifier) (text : Text) : Except Fault Range :=
  if h : text = version.text ++ modifier.symbol then .ok ⟨version, modifier, text, h⟩
  else .error (.defect (.rangeText text))

def parse (t : Text) (offset : Int) : Except Fault Range :=
  let modifier := Modifier.ofSuffix t
  let body := t.take (t.length - modifier.symbol.length)
  if body.isEmpty then .error (.malformed .bareModifier offset t)
  else do Range.ofParts (← VersionId.parse (some body) offset) modifier t

def admits (r : Range) (v : VersionId) : Bool :=
  match r.modifier with
  | .exact => r.version.same v
  | .atLeast => r.version.order v != .gt
  | .startsWith => r.version.isStartOf v

def check (r : Range) (v : VersionId) : Traced Bool := do
  Traced.emit (.compared r.text v.text (r.admits v))
  return r.admits v

def toJson (r : Range) : Json :=
  .object [("text".text, .str r.text), ("modifier".text, .str r.modifier.name),
    ("versionId".text, r.version.toJson)]

end Range
end VersionMatch
