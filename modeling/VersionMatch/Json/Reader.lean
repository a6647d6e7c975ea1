import VersionMatch.Json.Basic

/- Reading a document. A reader takes a text and returns a value with the text after it, or
   what is wrong with the text where it stopped; the position of a fault is how much shorter
   that text is than the whole. The readers of values spend one unit of fuel a call, and two
   units a character are enough. -/
namespace VersionMatch.Json

inductive Problem
  | expectingValue
  | expectingName
  | expectingColon
  | expectingComma
  | extraData
  | unterminatedText
  | controlCharacter
  | badEscape
  | badUnicodeEscape
  | byteOrderMark
  | longInteger (digits : Nat)
  | deepList
  | deepObject
  deriving DecidableEq, Repr

structure Stop where
  problem : Problem
  rest : Characters
  deriving DecidableEq, Repr

structure ReadFault where
  problem : Problem
  position : Nat
  deriving DecidableEq, Repr

def digitLimit : Nat := 4300

def isSpace (c : Char) : Bool := c == ' ' || c == '\t' || c == '\n' || c == '\r'

def skipSpace (t : Characters) : Characters := t.dropWhile isSpace

def after? (word : String) (t : Characters) : Option Characters :=
  if word.toList.isPrefixOf t then some (t.drop word.toList.length) else none

def hexValue? (c : Char) : Option Nat :=
  if c.isDigit then some (c.toNat - '0'.toNat)
  else if 'a' ≤ c ∧ c ≤ 'f' then some (c.toNat - 'a'.toNat + 10)
  else if 'A' ≤ c ∧ c ≤ 'F' then some (c.toNat - 'A'.toNat + 10)
  else none

def hexUnit? (a b c d : Char) : Option Nat := do
  return (((← hexValue? a) * 16 + (← hexValue? b)) * 16 + (← hexValue? c)) * 16 + (← hexValue? d)

def shortEscape? (c : Char) : Option Char :=
  match c with
  | '"' => some '"'
  | '\\' => some '\\'
  | '/' => some '/'
  | 'b' => some '\x08'
  | 'f' => some '\x0c'
  | 'n' => some '\n'
  | 'r' => some '\r'
  | 't' => some '\t'
  | _ => none

/-- The code units up to the closing quote. A character that is written out gives its code
    point, which is never half of a pair. -/
def readUnits (opening : Characters) : Characters → Except Stop (List Nat × Characters)
  | [] => .error ⟨.unterminatedText, opening⟩
  | '"' :: rest => .ok ([], rest)
  | ['\\'] => .error ⟨.unterminatedText, opening⟩
  | '\\' :: 'u' :: a :: b :: c :: d :: rest =>
    match if rest.isEmpty then none else hexUnit? a b c d with
    | some n => (readUnits opening rest).map fun (ns, t) => (n :: ns, t)
    | none => .error ⟨.badUnicodeEscape, 'u' :: a :: b :: c :: d :: rest⟩
  | '\\' :: 'u' :: rest => .error ⟨.badUnicodeEscape, 'u' :: rest⟩
  | '\\' :: c :: rest =>
    match shortEscape? c with
    | some e => (readUnits opening rest).map fun (ns, t) => (e.toNat :: ns, t)
    | none => .error ⟨.badEscape, '\\' :: c :: rest⟩
  | c :: rest =>
    if c.toNat < 0x20 then .error ⟨.controlCharacter, c :: rest⟩
    else (readUnits opening rest).map fun (ns, t) => (c.toNat :: ns, t)

def isHighHalf (n : Nat) : Bool := 0xd800 ≤ n && n < 0xdc00

def isLowHalf (n : Nat) : Bool := 0xdc00 ≤ n && n < 0xe000

/-- A high half before a low half makes one character. -/
def ofUnits : List Nat → Text
  | [] => []
  | [n] => [.ofNat n]
  | n :: k :: rest =>
    if isHighHalf n && isLowHalf k then
      .char (Char.ofNat (0x10000 + (n - 0xd800) * 0x400 + (k - 0xdc00))) :: ofUnits rest
    else .ofNat n :: ofUnits (k :: rest)

def readText (opening t : Characters) : Except Stop (Text × Characters) :=
  (readUnits opening t).map fun (ns, rest) => (ofUnits ns, rest)

def natOfDigits (digits : Characters) : Nat :=
  digits.foldl (fun n c => n * 10 + (c.toNat - '0'.toNat)) 0

def spanDigits (t : Characters) : Characters × Characters :=
  (t.takeWhile Char.isDigit, t.dropWhile Char.isDigit)

def readFraction (t : Characters) : Characters × Characters :=
  match t with
  | '.' :: rest =>
    match spanDigits rest with
    | ([], _) => ([], t)
    | found => found
  | _ => ([], t)

def readExponent (t : Characters) : Option Int × Characters :=
  match t with
  | [] => (none, t)
  | e :: rest =>
    let (negative, digits) := match rest with
      | '-' :: r => (true, r)
      | '+' :: r => (false, r)
      | r => (false, r)
    match if e == 'e' || e == 'E' then spanDigits digits else ([], []) with
    | ([], _) => (none, t)
    | (ds, after) => (some (if negative then -(natOfDigits ds : Int) else natOfDigits ds), after)

def readSign (t : Characters) : Bool × Characters :=
  match t with
  | '-' :: rest => (true, rest)
  | _ => (false, t)

def readWhole (t : Characters) : Characters × Characters :=
  match t with
  | '0' :: rest => (['0'], rest)
  | _ => spanDigits t

def readNumber (t : Characters) : Except Stop (Json × Characters) :=
  let (negative, unsigned) := readSign t
  let (whole, rest) := readWhole unsigned
  let (fraction, rest) := readFraction rest
  let (exponent, rest) := readExponent rest
  if whole.isEmpty then .error ⟨.expectingValue, t⟩
  else if fraction.isEmpty && exponent.isNone then
    if digitLimit < whole.length then .error ⟨.longInteger whole.length, t⟩
    else .ok (.int (if negative then -(natOfDigits whole : Int) else natOfDigits whole), rest)
  else
    .ok (.float (.ofDecimal negative (natOfDigits (whole ++ fraction))
      (exponent.getD 0 - fraction.length)), rest)

def literals : List (String × Json) :=
  [("null", .null), ("true", .bool true), ("false", .bool false), ("NaN", .float .nan),
    ("Infinity", .float (.infinite false)), ("-Infinity", .float (.infinite true))]

def readLiteral? (t : Characters) : Option (Json × Characters) :=
  literals.findSome? fun (word, v) => (after? word t).map fun rest => (v, rest)

def openBrace : Char := Char.ofNat 0x7b

def closeBrace : Char := Char.ofNat 0x7d

mutual

/-- A value that starts with the first character. `levels` counts how many more lists and objects
    may stand in each other. -/
def readValue (levels : Nat) : Nat → Characters → Except Stop (Json × Characters)
  | 0, t => .error ⟨.expectingValue, t⟩
  | fuel + 1, t =>
    match t with
    | [] => .error ⟨.expectingValue, t⟩
    | c :: rest =>
      if c = '"' then (readText t rest).map fun (s, rest) => (.str s, rest)
      else if c = '[' then
        if levels = 0 then .error ⟨.deepList, t⟩
        else
          match skipSpace rest with
          | ']' :: rest => .ok (.list [], rest)
          | first => (readItems (levels - 1) fuel first).map fun (vs, rest) => (.list vs, rest)
      else if c = openBrace then
        let first := skipSpace rest
        if levels = 0 then .error ⟨.deepObject, t⟩
        else if first.head? = some closeBrace then .ok (.object [], first.tail)
        else (readMembers (levels - 1) fuel first).map fun (ps, rest) => (ofPairs ps, rest)
      else
        match readLiteral? t with
        | some found => .ok found
        | none => readNumber t

def readItems (levels : Nat) : Nat → Characters → Except Stop (List Json × Characters)
  | 0, t => .error ⟨.expectingValue, t⟩
  | fuel + 1, t => do
    let (v, rest) ← readValue levels fuel t
    match skipSpace rest with
    | ']' :: rest => return ([v], rest)
    | ',' :: rest =>
      let (vs, rest) ← readItems levels fuel (skipSpace rest)
      return (v :: vs, rest)
    | rest => throw ⟨.expectingComma, rest⟩

def readMembers (levels : Nat) : Nat → Characters → Except Stop (List (Text × Json) × Characters)
  | 0, t => .error ⟨.expectingName, t⟩
  | fuel + 1, t => do
    let (key, rest) ← match t with
      | '"' :: rest => readText t rest
      | _ => throw ⟨.expectingName, t⟩
    let rest ← match skipSpace rest with
      | ':' :: rest => pure rest
      | rest => throw ⟨.expectingColon, rest⟩
    let (v, rest) ← readValue levels fuel (skipSpace rest)
    match skipSpace rest with
    | ',' :: rest =>
      let (ps, rest) ← readMembers levels fuel (skipSpace rest)
      return ((key, v) :: ps, rest)
    | rest =>
      if rest.head? = some closeBrace then return ([(key, v)], rest.tail)
      else throw ⟨.expectingComma, rest⟩

end

def readDocument (nesting : Nat) (t : Characters) : Except Stop Json := do
  if t.head? = some '\ufeff' then throw ⟨.byteOrderMark, t⟩
  let (v, rest) ← readValue nesting (2 * t.length + 2) (skipSpace t)
  match skipSpace rest with
  | [] => return v
  | rest => throw ⟨.extraData, rest⟩

/-- The reader gives up on lists and objects that stand in each other more than `nesting` deep. -/
def read (nesting : Nat) (t : Characters) : Except ReadFault Json :=
  (readDocument nesting t).mapError fun stop => ⟨stop.problem, t.length - stop.rest.length⟩

def Problem.isLimit : Problem → Bool
  | .longInteger _ | .deepList | .deepObject => true
  | _ => false

def deepWording (container : String) : Text :=
  ("maximum recursion depth exceeded while decoding a JSON " ++ container ++
    " from a unicode string").text

def Problem.wording : Problem → Text
  | .expectingValue => "Expecting value".text
  | .expectingName => "Expecting property name enclosed in double quotes".text
  | .expectingColon => "Expecting ':' delimiter".text
  | .expectingComma => "Expecting ',' delimiter".text
  | .extraData => "Extra data".text
  | .unterminatedText => "Unterminated string starting at".text
  | .controlCharacter => "Invalid control character at".text
  | .badEscape => "Invalid \\escape".text
  | .badUnicodeEscape => "Invalid \\uXXXX escape".text
  | .byteOrderMark => "Unexpected UTF-8 BOM (decode using utf-8-sig)".text
  | .longInteger digits =>
    "Exceeds the limit (".text ++ Text.ofNat digitLimit ++
      " digits) for integer string conversion: value has ".text ++ Text.ofNat digits ++
      " digits; use sys.set_int_max_str_digits() to increase the limit".text
  | .deepList => deepWording "array"
  | .deepObject => deepWording "object"

def ReadFault.message (f : ReadFault) (t : Characters) : Text :=
  let (line, column) := t.lineColumn f.position
  f.problem.wording ++ ": line ".text ++ Text.ofNat line ++ " column ".text ++
    Text.ofNat column ++ " (char ".text ++ Text.ofNat f.position ++ [.char ')']

end VersionMatch.Json
