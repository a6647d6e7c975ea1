import VersionMatch.CommandLine.Arguments
import VersionMatch.CommandLine.Usage

/- What a command line asks for. The arguments of a command are read by its own grammar;
   arguments that neither grammar asks for are an error of the program as a whole. -/
namespace VersionMatch

inductive FileChoice
  | usual
  | named (name : Text)
  | nameless
  deriving DecidableEq, Repr

def FileChoice.ofSetting : Option (Option Text) → FileChoice
  | none => .usual
  | some (some name) => .named name
  | some none => .nameless

inductive Task
  | check (specification : Text) (candidates : List Text)
  | constraints (file : FileChoice) (candidates : List Text)
  | explain (specification : Text)
  deriving DecidableEq, Repr

structure Invocation where
  verbose : Bool
  markdown : Bool
  task : Task
  deriving DecidableEq, Repr

inductive Advice
  | help (page : Page)
  | usage (page : Page) (message : Text)
  deriving DecidableEq, Repr

namespace Invocation

def helpSwitch : Switch := ⟨["-h".text, "--help".text], .help⟩
def verboseSwitch : Switch := ⟨["--verbose".text, "-v".text], .flag⟩
def formatSwitch : Switch := ⟨["--format".text], .value ["json".text, "markdown".text]⟩
def fileSwitch : Switch := ⟨["--file".text], .value []⟩

def commandOperand : Operand := ⟨"command".text, .command⟩
def specificationOperand : Operand := ⟨"specification".text, .one⟩
def candidatesOperand : Operand := ⟨"candidates".text, .oneOrMore⟩

def commands : List (Text × Page) :=
  [("check".text, .check), ("constraints".text, .constraints), ("explain".text, .explain)]

def grammar : Page → ArgumentGrammar
  | .main => ⟨[helpSwitch, verboseSwitch, formatSwitch], [commandOperand]⟩
  | .check => ⟨[helpSwitch], [specificationOperand, candidatesOperand]⟩
  | .constraints => ⟨[helpSwitch, fileSwitch], [candidatesOperand]⟩
  | .explain => ⟨[helpSwitch], [specificationOperand]⟩

def gather (p : Page) (args : List Text) : Except Advice Gathered :=
  ((grammar p).read args).mapError fun
    | .help => .help p
    | .failure message => .usage p message

def taskOf (p : Page) (r : Gathered) : Task :=
  let specification := ((r.operand specificationOperand).head?).getD []
  let candidates := r.operand candidatesOperand
  match p with
  | .constraints => .constraints (.ofSetting (r.setting? fileSwitch)) candidates
  | .explain => .explain specification
  | _ => .check specification candidates

def page (name : Text) : Except Advice Page :=
  match commands.lookup name with
  | some p => .ok p
  | none => .error (.usage .main ("argument command: ".text ++
      invalidChoice name (commands.map Prod.fst)))

def read (args : List Text) : Except Advice Invocation := do
  let main ← gather .main args
  let words := main.operand commandOperand
  let p ← page (words.head?.getD [])
  let rest ← gather p words.tail
  match main.extras ++ rest.extras with
  | [] => return {
      verbose := main.has verboseSwitch
      markdown := main.setting? formatSwitch = some (some "markdown".text)
      task := taskOf p rest }
  | extras => throw (.usage .main ("unrecognized arguments: ".text ++ " ".text.intercalate extras))

end Invocation
end VersionMatch
