import VersionMatch.CommandLine.Run
import VersionMatch.Json.Validation

/- The program. It looks at the environment, reads the one file that a command may need, and
   prints what the run gives. -/
namespace VersionMatch.Program

def directoryCode : UInt32 := 21
def longNameCode : UInt32 := 36

/-- What the reader of documents can go down to on an ordinary stack. -/
def nesting : Nat := 990

def characters (t : Text) : String :=
  String.ofList (t.flatMap fun
    | .char c => [c]
    | .half n => '\\' :: 'u' :: Characters.hex 4 (0xd800 + n))

/-- Some calls give the code of an error with a minus sign. -/
def stands (code known : UInt32) : Bool := code = known || code = 0 - known

def readFile (p : Path) : IO Reading := do
  try
    return .octets (← IO.FS.readBinFile (characters p.text)).toList
  catch
    | .inappropriateType _ code _ =>
      return if stands code directoryCode then .directory else .missing
    | .invalidArgument _ code _ =>
      return if stands code longNameCode then .longName else .missing
    | _ => return .missing

def look (args : List Text) : IO Surroundings := do
  let directory := (← IO.currentDir).toString.text
  let asked := (← IO.getEnv "JNLP_VERSION_CONSTRAINTS").map String.text
  let bare : Surroundings :=
    ⟨directory, asked, fun _ => .missing, nesting, Schema.validator, Utf8.encodeFault?⟩
  match Invocation.read args with
  | .ok i =>
    match i.source? bare with
    | some source =>
      let reading ← readFile source.path
      return { bare with read := fun _ => reading }
    | none => return bare
  | .error _ => return bare

def run (args : List Text) : IO UInt32 := do
  match CommandLine.run (← look args) args with
  | .ok out =>
    (← IO.getStdout).putStr (characters out.standard)
    (← IO.getStderr).putStr (characters out.error)
    return UInt32.ofNat out.status
  | .error c =>
    (← IO.getStderr).putStr (characters (CommandLine.crashMessage c ++ "\n".text))
    return UInt32.ofNat statusError

end VersionMatch.Program

def main (args : List String) : IO UInt32 := VersionMatch.Program.run (args.map String.text)
