import VersionMatch.CommandLine.Run
import VersionMatch.Proofs.Loading
import VersionMatch.Proofs.Reporting
import VersionMatch.Proofs.Rereading
import VersionMatch.Proofs.Tabulation

/- What the commands that check candidates print and return: one report unless they fail before it,
   and the command over a file is the checks of its enabled constraints put together. -/
namespace VersionMatch

namespace CommandLine

/-- The text of a report. As a document it is ASCII and tells the report to a reader. -/
inductive ReportText (report : Report) : Bool → Text → Prop where
  | document (ascii : Json.IsAscii report.toJson.indented)
      (told : ∀ nesting, Json.Restorable nesting report.toJson →
        Json.read nesting (report.toJson.indented ++ ['\n']).withLineFeeds = .ok report.toJson) :
      ReportText report false (.ofCharacters (report.toJson.indented ++ ['\n']))
  | table {text : Text} (rendered : Summary.render report.toJson = .ok text) :
      ReportText report true text

/-- The end of a run that has a text to print. The run hands that text over once. How standard
    output is set up is not up to the run: where it refuses the text, the run ends there. -/
inductive Prints (w : Surroundings) (status : Nat) (text : Text) : Except Crash Output → Prop where
  | printed {lines : Text} (free : w.printFault? text = none) :
      Prints w status text (.ok ⟨status, text, lines⟩)
  | refused {message : Text} (fault : w.printFault? text = some message)
      (half : ∃ c ∈ text, c.isHalf = true) : Prints w status text (.error (.unprintable message))

/-- The run prints the report of these entries, and nothing else but messages. -/
def Publishes (w : Surroundings) (i : Invocation) (entries : List Entry) (status : Nat) : Prop :=
  ∃ report text events, Report.ofEntries (entries.map Entry.toJson) = .ok report ∧
    exitStatus report.toJson = .ok ⟨status, events⟩ ∧ ReportText report i.markdown text ∧
    Prints w status text (output w i.verbose (perform w i).run)

variable {w : Surroundings} {verbose markdown : Bool}

/- A document is ASCII, so that its printing always succeeds. A table may hold half of a pair that
   came from a file, and a stream that takes every text prints that too. -/
theorem report_printed {i : Invocation} {entries : List Entry} {status : Nat}
    (taken : i.markdown = false ∨ ∀ t, w.printFault? t = none)
    (publishes : Publishes w i entries status) : ∃ report text lines,
      Report.ofEntries (entries.map Entry.toJson) = .ok report ∧
        ReportText report i.markdown text ∧
        output w i.verbose (perform w i).run = .ok ⟨status, text, lines⟩ := by
  obtain ⟨report, text, _, made, _, stands, prints⟩ := publishes
  refine ⟨report, text, ?_⟩
  generalize output w i.verbose (perform w i).run = outcome at prints ⊢
  cases prints with
  | printed => exact ⟨_, made, stands, rfl⟩
  | refused fault half =>
    exfalso
    rcases taken with document | taken
    · rw [document] at stands
      cases stands
      obtain ⟨_, mem, half⟩ := half
      obtain ⟨c, _, rfl⟩ := List.mem_map.mp mem
      cases half
    · rw [taken text] at fault
      cases fault

variable {asked : Option Text} {candidates : List Text}

structure Checked where
  constraint : Constraint
  entry : Entry
  status : Nat

def Checked.named (k : Checked) : Entry := { k.entry with name := k.constraint.id }

end CommandLine
end VersionMatch
