import VersionMatch.Range

/- A version string: clauses with exactly one blank between neighbours. It contains the
   candidates that match a clause. A candidate that is no version is an error and never
   counts as not contained. -/
namespace VersionMatch

structure Clause where
  ranges : List Range
  text : Text
  nonempty : ranges ≠ []
  deriving DecidableEq, Repr

namespace Clause

/-- The text is not checked against the ranges. -/
def ofRanges (ranges : List Range) (text : Text) : Except Fault Clause :=
  if h : ranges ≠ [] then .ok ⟨ranges, text, h⟩ else .error (.defect .noRanges)

def parseMember (whole : Text) (p : Piece) : Except Fault Range :=
  if p.text.isEmpty then .error (.malformed .emptyMember p.start whole)
  else Range.parse p.text p.start

def parse (t : Text) (offset : Int) : Except Fault Clause := do
  Clause.ofRanges (← (pieces (· == .char '&') offset t).mapM (parseMember t)) t

def admits (c : Clause) (v : VersionId) : Bool := c.ranges.all (·.admits v)

def checkRanges (v : VersionId) : List Range → Traced Bool
  | [] => pure true
  | r :: rs => do if ← r.check v then checkRanges v rs else pure false

def check (c : Clause) (v : VersionId) : Traced Bool := checkRanges v c.ranges

def toJson (c : Clause) : Json :=
  .object [("text".text, .str c.text), ("ranges".text, .list (c.ranges.map Range.toJson))]

end Clause

structure Specification where
  clauses : List Clause
  text : Text
  nonempty : clauses ≠ []
  deriving DecidableEq, Repr

namespace Specification

def ofClauses (clauses : List Clause) (text : Text) : Except Fault Specification :=
  if h : clauses ≠ [] then .ok ⟨clauses, text, h⟩ else .error (.defect .noClauses)

def parseClause (whole : Text) (p : Piece) : Except Fault Clause :=
  if p.text.isEmpty then .error (.malformed .emptyClause p.start whole)
  else Clause.parse p.text p.start

def parse (t : Option Text) : Except Fault Specification :=
  match t with
  | none => .error (.refused .absent)
  | some t =>
    if t.all isBlank then .error (.refused .blank)
    else do Specification.ofClauses (← (pieces isBlank 0 t).mapM (parseClause t)) t

def read (t : Option Text) : Traced (Except Fault Specification) :=
  match parse t with
  | .ok s => ⟨.ok s, [.parsed s.text s.clauses.length]⟩
  | .error f => ⟨.error f, []⟩

def admits (s : Specification) (v : VersionId) : Bool := s.clauses.any (·.admits v)

def checkClauses (v : VersionId) : List Clause → Traced Bool
  | [] => pure false
  | c :: cs => do if ← c.check v then pure true else checkClauses v cs

def check (s : Specification) (v : VersionId) : Traced Bool := do
  let contained ← checkClauses v s.clauses
  Traced.emit (.decided s.text v.text contained)
  return contained

def checkText (s : Specification) (candidate : Option Text) : Traced (Except Fault Bool) :=
  match VersionId.parse candidate 0 with
  | .ok v => .ok <$> s.check v
  | .error f => pure (.error f)

theorem checkText_of_read (s : Specification) {candidate : Option Text} {v : VersionId}
    (read : VersionId.parse candidate 0 = .ok v) :
    s.checkText candidate = ⟨.ok (s.check v).value, (s.check v).events⟩ := by
  rw [checkText, read]
  exact Traced.ext rfl (Traced.events_map _ _)

theorem checkText_of_fault (s : Specification) {candidate : Option Text} {f : Fault}
    (failed : VersionId.parse candidate 0 = .error f) : s.checkText candidate = ⟨.error f, []⟩ := by
  rw [checkText, failed]
  rfl

def contains (s : Specification) (candidate : Option Text) : Except Fault Bool :=
  (s.checkText candidate).value

theorem contains_eq_check (s : Specification) (candidate : Option Text) :
    s.contains candidate = (VersionId.parse candidate 0).map fun v => (s.check v).value := by
  unfold contains checkText
  cases VersionId.parse candidate 0 <;> rfl

def isSingle (s : Specification) : Bool := s.clauses.length == 1

def toJson (s : Specification) : Json :=
  .object [("text".text, .str s.text), ("singleVersionId".text, .bool s.isSingle),
    ("groups".text, .list (s.clauses.map Clause.toJson))]

end Specification

structure Attempt where
  specification : Option Specification
  refusal : Option Refusal
  one : specification.isSome ≠ refusal.isSome
  deriving Repr

namespace Attempt

def ofParts (specification : Option Specification) (refusal : Option Refusal) :
    Except Fault Attempt :=
  if h : specification.isSome ≠ refusal.isSome then .ok ⟨specification, refusal, h⟩
  else .error (.defect .notOneOutcome)

def succeeded (a : Attempt) : Bool := a.refusal.isNone

def kind (a : Attempt) : Option RefusalKind := a.refusal.map (·.diagnosis.kind)

end Attempt

/-- A refusal becomes part of the outcome; a defect does not. -/
def Specification.attempt (t : Option Text) : Traced (Except Fault Attempt) := do
  match ← Specification.read t with
  | .ok s => return Attempt.ofParts (some s) none
  | .error (.refused r) =>
    Traced.emit (.refused t r.message)
    return Attempt.ofParts none (some r)
  | .error f => return .error f

end VersionMatch
