import VersionMatch.Json.Basic
import VersionMatch.Text.Quoted
import VersionMatch.Decimal.Shortest

/- How messages and tables show a value: a text stands as it is on its own and quoted
   inside another value. -/
namespace VersionMatch

def Text.ofBool (b : Bool) : Text := if b then "True".text else "False".text

namespace Json

mutual

def shown : Json → Text
  | .null => "None".text
  | .bool b => Text.ofBool b
  | .int i => Text.ofInt i
  | .float x => .ofCharacters x.text
  | .str t => t.quoted
  | .list items => '[' :: (", ".text.intercalate (shownItems items) ++ [.char ']'])
  | .object fields =>
    Char.ofNat 0x7b :: (", ".text.intercalate (shownFields fields) ++ [.char (Char.ofNat 0x7d)])

def shownItems : List Json → List Text
  | [] => []
  | x :: xs => shown x :: shownItems xs

def shownFields : List (Text × Json) → List Text
  | [] => []
  | (k, x) :: xs => (k.quoted ++ ": ".text ++ shown x) :: shownFields xs

end

def text : Json → Text
  | .str t => t
  | v => shown v

end Json
end VersionMatch
