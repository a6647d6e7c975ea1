import VersionMatch.CommandLine.Invocation
import VersionMatch.Constraint.Load
import VersionMatch.Json.Writer
import VersionMatch.Report
import VersionMatch.Report.Summary

/- Running a command line: what it prints and its exit status, as a function of the arguments
   and the surroundings. Events go to the error output, debug events only when asked for. -/
namespace VersionMatch

structure Output where
  status : Nat
  standard : Text
  error : Text
  deriving DecidableEq, Repr

inductive Crash
  | namelessFile
  | load (f : LoadFault)
  | defect (d : Defect)
  | misfit (m : Misfit)
  | unprintable (message : Text)
  deriving Repr

inductive Failure
  | specification (r : Refusal)
  | constraints (f : LoadFault)
  | crash (c : Crash)
  deriving Repr

def Failure.ofFault : Fault → Failure
  | .refused r => .specification r
  | .defect d => .crash (.defect d)

def Failure.ofLoadFault (f : LoadFault) : Failure :=
  if f.isConfiguration then .constraints f else .crash (.load f)

def Invocation.source? (w : Surroundings) (i : Invocation) : Option ConstraintSource :=
  match i.task with
  | .constraints .usual _ => some (w.source none)
  | .constraints (.named name) _ => some (w.source (some name))
  | _ => none

namespace CommandLine

def usageStatus : Nat := 2

abbrev Running := ExceptT Failure Traced

def running {α : Type} (x : Except Fault (Traced α)) : Running α :=
  match x with
  | .ok traced => ExceptT.lift traced
  | .error f => throw (.ofFault f)

def parse (t : Text) : Running Specification :=
  ExceptT.mk ((fun r => r.mapError Failure.ofFault) <$> Specification.read (some t))

def checkEntries (specification : Text) (candidates : List Text) : Running (List Entry) := do
  let s ← parse specification
  return [← running (s.evaluate .null (candidates.map some))]

def loading (w : Surroundings) (asked : Option Text) : Running ConstraintSet :=
  ExceptT.mk ((fun r => r.mapError Failure.ofLoadFault) <$> (ConstraintSet.load w asked).run)

def loadChosen (w : Surroundings) : FileChoice → Running ConstraintSet
  | .usual => loading w none
  | .named name => loading w (some name)
  | .nameless => throw (.crash .namelessFile)

def constraintEntries (w : Surroundings) (file : FileChoice) (candidates : List Text) :
    Running (List Entry) := do
  let set ← loadChosen w file
  set.enabled.mapM fun c => running (c.specification.evaluate c.id (candidates.map some))

def printed (markdown : Bool) (report : Json) : Except Misfit Text :=
  if markdown then Summary.render report
  else .ok (Text.ofCharacters report.indented ++ [.char '\n'])

def publish (markdown : Bool) (entries : List Entry) : Except Misfit (Traced (Nat × Text)) := do
  let report ← Report.ofEntries (entries.map Entry.toJson)
  let text ← printed markdown report.toJson
  let status ← exitStatus report.toJson
  return ⟨(status.value, text), .totalled report.totals :: status.events⟩

def reported (markdown : Bool) (entries : List Entry) : Running (Nat × Text) :=
  match publish markdown entries with
  | .ok traced => ExceptT.lift traced
  | .error m => throw (.crash (.misfit m))

def perform (w : Surroundings) (i : Invocation) : Running (Nat × Text) :=
  match i.task with
  | .explain specification => do
    return (statusOk, Text.ofCharacters (← parse specification).toJson.indented ++ [.char '\n'])
  | .check specification candidates => do
    reported i.markdown (← checkEntries specification candidates)
  | .constraints file candidates => do
    reported i.markdown (← constraintEntries w file candidates)

def eventLine (e : Event) : Text :=
  '[' :: (e.level.name ++ "] ".text ++ e.source.name ++ ": ".text ++ e.message ++ [.char '\n'])

def eventLines (verbose : Bool) (events : List Event) : Text :=
  (events.filter fun e => verbose || e.level != .debug).flatMap eventLine

def errorLine (message : Text) : Text := "ERROR: ".text ++ message ++ [.char '\n']

/-- A text that cannot be printed ends the run, with nothing printed. -/
def printing (w : Surroundings) (status : Nat) (text error : Text) : Except Crash Output :=
  match w.printFault? text with
  | none => .ok ⟨status, text, error⟩
  | some message => .error (.unprintable message)

def output (w : Surroundings) (verbose : Bool) (run : Traced (Except Failure (Nat × Text))) :
    Except Crash Output :=
  let lines := eventLines verbose run.events
  match run.value with
  | .ok (status, text) => printing w status text lines
  | .error (.specification r) => .ok ⟨statusError, [],
      lines ++ errorLine ("Invalid version string: ".text ++ r.message)⟩
  | .error (.constraints f) => .ok ⟨statusError, [], lines ++ errorLine f.message⟩
  | .error (.crash c) => .error c

def run (w : Surroundings) (args : List Text) : Except Crash Output :=
  match Invocation.read args with
  | .ok i => output w i.verbose (perform w i).run
  | .error (.help page) => printing w statusOk page.help []
  | .error (.usage page message) => .ok ⟨usageStatus, [], page.error message⟩

def crashMessage : Crash → Text
  | .namelessFile => "expected str, bytes or os.PathLike object, not list".text
  | .load f => f.message
  | .defect d => d.message
  | .misfit m => m.message
  | .unprintable message => message

end CommandLine
end VersionMatch
