/- Texts are sequences of Unicode code points, and lengths and positions count these. Half of a
   surrogate pair may stand alone in a text, though it is no character. -/
namespace VersionMatch

/-- A character, or the surrogate with the number `0xd800 + n`. -/
inductive CodePoint
  | char (c : Char)
  | half (n : Fin 0x800)
  deriving DecidableEq, Repr

instance : Coe Char CodePoint := ⟨.char⟩

namespace CodePoint

def toNat : CodePoint → Nat
  | .char c => c.toNat
  | .half n => 0xd800 + n

def ofNat (n : Nat) : CodePoint :=
  if h : n - 0xd800 < 0x800 ∧ 0xd800 ≤ n then .half ⟨n - 0xd800, h.1⟩ else .char (Char.ofNat n)

def isDigit : CodePoint → Bool
  | .char c => c.isDigit
  | .half _ => false

def isHalf : CodePoint → Bool
  | .char _ => false
  | .half _ => true

instance : Ord CodePoint := ⟨fun a b => compare a.toNat b.toNat⟩

end CodePoint

abbrev Text := List CodePoint

/-- A text without halves of pairs, as files hold them. -/
abbrev Characters := List Char

def Text.ofCharacters (cs : Characters) : Text := cs.map .char

def Characters.ofInt : Int → Characters
  | .ofNat n => Nat.toDigits 10 n
  | .negSucc n => '-' :: Nat.toDigits 10 (n + 1)

def Characters.hex (width n : Nat) : Characters := (Nat.toDigits 16 n).leftpad width '0'

def Text.ofInt (i : Int) : Text := .ofCharacters (.ofInt i)

def Text.ofNat (n : Nat) : Text := .ofCharacters (Nat.toDigits 10 n)

def Text.hex (width n : Nat) : Text := .ofCharacters (.hex width n)

def inRanges (table : List (Nat × Nat)) (c : CodePoint) : Bool :=
  table.any fun r => r.1 ≤ c.toNat && c.toNat ≤ r.2

/-- The separators and the controls that count as blank. Zero-width characters do not. -/
def blankRanges : List (Nat × Nat) :=
  [(0x9, 0xd), (0x1c, 0x20), (0x85, 0x85), (0xa0, 0xa0), (0x1680, 0x1680), (0x2000, 0x200a),
    (0x2028, 0x2029), (0x202f, 0x202f), (0x205f, 0x205f), (0x3000, 0x3000)]

def isBlank (c : CodePoint) : Bool := inRanges blankRanges c

/-- A carriage return, alone or before a line feed, reads as one line feed. -/
def Characters.withLineFeeds : Characters → Characters
  | [] => []
  | '\r' :: '\n' :: rest => '\n' :: Characters.withLineFeeds rest
  | c :: rest => (if c = '\r' then '\n' else c) :: Characters.withLineFeeds rest

def Characters.lineColumn (t : Characters) (position : Nat) : Nat × Nat :=
  let before := t.take position
  (before.count '\n' + 1, (before.reverse.takeWhile (· != '\n')).length + 1)

structure Piece where
  start : Int
  text : Text
  deriving DecidableEq, Repr

def cutAt (isCut : CodePoint → Bool) : Text → Text × List Text
  | [] => ([], [])
  | c :: rest =>
    let (first, others) := cutAt isCut rest
    if isCut c then ([], first :: others) else (c :: first, others)

def placed (start : Int) : List Text → List Piece
  | [] => []
  | part :: parts => ⟨start, part⟩ :: placed (start + part.length + 1) parts

def pieces (isCut : CodePoint → Bool) (start : Int) (t : Text) : List Piece :=
  placed start ((cutAt isCut t).1 :: (cutAt isCut t).2)

end VersionMatch

def String.text (s : String) : VersionMatch.Text := .ofCharacters s.toList
