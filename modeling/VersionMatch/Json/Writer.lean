import VersionMatch.Json.Basic
import VersionMatch.Decimal.Shortest

/- Writing a document in ASCII, on one line or indented by two. Characters past U+FFFF
   become a pair of escapes; an empty list or object stays closed. -/
namespace VersionMatch.Json

structure Spread where
  lineBreak : Nat → Characters
  comma : Characters

def oneLine : Spread := ⟨fun _ => [], [',', ' ']⟩

def indentedByTwo : Spread := ⟨fun depth => '\n' :: List.replicate (2 * depth) ' ', [',']⟩

def unitEscape (n : Nat) : Characters := '\\' :: 'u' :: Characters.hex 4 n

def escapedChar (c : Char) : Characters :=
  if c = '"' ∨ c = '\\' then ['\\', c]
  else if c = '\n' then ['\\', 'n']
  else if c = '\r' then ['\\', 'r']
  else if c = '\t' then ['\\', 't']
  else if c = '\x0c' then ['\\', 'f']
  else if c = '\x08' then ['\\', 'b']
  else if 0x20 ≤ c.toNat ∧ c.toNat ≤ 0x7e then [c]
  else if c.toNat < 0x10000 then unitEscape c.toNat
  else
    let n := c.toNat - 0x10000
    unitEscape (0xd800 + n / 0x400) ++ unitEscape (0xdc00 + n % 0x400)

def escaped : CodePoint → Characters
  | .char c => escapedChar c
  | .half n => unitEscape (CodePoint.half n).toNat

def writtenText (t : Text) : Characters := '"' :: (t.flatMap escaped ++ ['"'])

def writtenFloat : Binary64 → Characters
  | .nan => "NaN".toList
  | .infinite negative => if negative then "-Infinity".toList else "Infinity".toList
  | x => x.text

def bracketed (s : Spread) (depth : Nat) (opening closing : Char) : List Characters → Characters
  | [] => [opening, closing]
  | parts =>
    opening :: (s.lineBreak (depth + 1) ++
      (s.comma ++ s.lineBreak (depth + 1)).intercalate parts ++ s.lineBreak depth ++ [closing])

mutual

def written (s : Spread) (depth : Nat) : Json → Characters
  | .null => "null".toList
  | .bool b => if b then "true".toList else "false".toList
  | .int i => Characters.ofInt i
  | .float x => writtenFloat x
  | .str t => writtenText t
  | .list items => bracketed s depth '[' ']' (writtenItems s (depth + 1) items)
  | .object fields =>
    bracketed s depth (Char.ofNat 0x7b) (Char.ofNat 0x7d) (writtenFields s (depth + 1) fields)

def writtenItems (s : Spread) (depth : Nat) : List Json → List Characters
  | [] => []
  | x :: xs => written s depth x :: writtenItems s depth xs

def writtenFields (s : Spread) (depth : Nat) : List (Text × Json) → List Characters
  | [] => []
  | (k, x) :: xs => (writtenText k ++ [':', ' '] ++ written s depth x) :: writtenFields s depth xs

end

def compact (v : Json) : Characters := written oneLine 0 v

def indented (v : Json) : Characters := written indentedByTwo 0 v

end VersionMatch.Json
