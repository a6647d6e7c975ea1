import VersionMatch.Text.Quoted
import VersionMatch.Json.Basic

/- What can be wrong with a version string, and with the parts of a value that is put
   together by hand. A refusal is about a text someone wrote; a defect is about parts
   that do not fit each other, and no text leads to one. -/
namespace VersionMatch

inductive Cause
  | absentVersionId
  | emptyVersionId
  | strayCharacter
  | emptyToken
  | trailingSeparator
  | bareModifier
  | emptyMember
  | emptyClause
  deriving DecidableEq, Repr

def Cause.wording : Cause → Text
  | .absentVersionId => "version-id is absent".text
  | .emptyVersionId => "empty version-id".text
  | .strayCharacter => "unexpected character in version-id".text
  | .emptyToken => "empty token in version-id".text
  | .trailingSeparator => "version-id must not end with a separator".text
  | .bareModifier => "modifier without a version-id".text
  | .emptyMember => "empty member in '&' group".text
  | .emptyClause => "empty clause".text

/-- `fragment` is the piece that could not be accepted, `position` a place in the text. -/
inductive Refusal
  | absent
  | blank
  | malformed (cause : Cause) (position : Int) (fragment : Text)
  deriving DecidableEq, Repr

inductive Defect
  | notDigits (digits : Text)
  | leadingZeros (digits : Text)
  | emptyWord
  | digitsInWord (word : Text)
  | noTokens
  | unknownModifier (symbol : Text)
  | rangeText (text : Text)
  | noRanges
  | noClauses
  | notOneOutcome
  deriving DecidableEq, Repr

inductive Fault
  | refused (r : Refusal)
  | defect (d : Defect)
  deriving DecidableEq, Repr

def Fault.malformed (cause : Cause) (position : Int) (fragment : Text) : Fault :=
  .refused (.malformed cause position fragment)

def Defect.message : Defect → Text
  | .notDigits digits => "Numeric token must be ASCII digits: ".text ++ digits.quoted
  | .leadingZeros digits => "Numeric token must not have leading zeros: ".text ++ digits.quoted
  | .emptyWord => "Alpha token must be non-empty".text
  | .digitsInWord word => "Alpha token must not contain digits: ".text ++ word.quoted
  | .noTokens => "VersionId must contain at least one token".text
  | .unknownModifier symbol => symbol.quoted ++ " is not a valid Modifier".text
  | .rangeText text => "Range text ".text ++ text.quoted ++ " does not match its parts".text
  | .noRanges => "AndGroup must contain at least one range".text
  | .noClauses => "VersionSpecification must contain at least one clause".text
  | .notOneOutcome => "ParseResult needs exactly one of specification or error".text

inductive RefusalKind
  | nullInput
  | emptyInput
  | malformedGrammar
  deriving DecidableEq, Repr

def RefusalKind.name : RefusalKind → Text
  | .nullInput => "null-input".text
  | .emptyInput => "empty-input".text
  | .malformedGrammar => "malformed-grammar".text

structure Diagnosis where
  kind : RefusalKind
  message : Text
  place : Option (Int × Text)
  deriving DecidableEq, Repr

namespace Diagnosis

def absent (message : Option Text) : Diagnosis :=
  ⟨.nullInput, message.getD "version string must not be None".text, none⟩

def blank (message : Option Text) : Diagnosis :=
  ⟨.emptyInput, message.getD "version string must not be empty".text, none⟩

def general (message : Option Text) : Diagnosis := ⟨.malformedGrammar, message.getD [], none⟩

def malformed (wording : Text) (position : Int) (fragment : Text) : Diagnosis :=
  ⟨.malformedGrammar,
    wording ++ " at position ".text ++ Text.ofInt position ++ ": ".text ++ fragment.quoted,
    some (position, fragment)⟩

def toJson (d : Diagnosis) : Json :=
  .object ([("kind".text, .str d.kind.name), ("message".text, .str d.message)] ++
    match d.place with
    | none => []
    | some (position, fragment) =>
      [("position".text, .int position), ("fragment".text, .str fragment)])

end Diagnosis

def Refusal.diagnosis : Refusal → Diagnosis
  | .absent => .absent none
  | .blank => .blank none
  | .malformed cause position fragment => .malformed cause.wording position fragment

def Refusal.message (r : Refusal) : Text := r.diagnosis.message

def Fault.message : Fault → Text
  | .refused r => r.message
  | .defect d => d.message

end VersionMatch
