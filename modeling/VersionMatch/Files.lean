import VersionMatch.Text.Basic

/- Files in memory, seen from a working directory. Above it and in places named from the
   root there are only empty directories. -/
namespace VersionMatch

/-- How many octets stand for a code point in a file name, if it can stand in one. A low half
    may stand for an octet that belongs to no character. -/
def CodePoint.octetCount? : CodePoint → Option Nat
  | .char c => if c = '\x00' then none else some c.utf8Size
  | .half n => if 0x480 ≤ n.val ∧ n.val < 0x500 then some 1 else none

def octetCount (t : Text) : Nat := (t.filterMap CodePoint.octetCount?).foldl (· + ·) 0

structure Path where
  root : Text
  parts : List Text
  deriving DecidableEq, Repr

namespace Path

def separator : CodePoint := '/'

def nameLimit : Nat := 255

def textLimit : Nat := 4095

/-- Exactly two slashes at the start are kept apart from one. -/
def rootOf (t : Text) : Text :=
  match (t.takeWhile (· == separator)).length with
  | 0 => []
  | 2 => [separator, separator]
  | _ => [separator]

def ofText (t : Text) : Path :=
  ⟨rootOf t, (let (first, others) := cutAt (· == separator) t
    first :: others).filter fun part => part != [] && part != [CodePoint.char '.']⟩

def text (p : Path) : Text :=
  match p.root ++ [separator].intercalate p.parts with
  | [] => ['.']
  | t => t

def child (p : Path) (name : Text) : Path := ⟨p.root, p.parts ++ [name]⟩

end Path

inductive Reading
  | missing
  | directory
  | longName
  | octets (bytes : List UInt8)
  deriving DecidableEq, Repr

inductive FileTree
  | file (bytes : List UInt8)
  | directory (entries : List (Text × FileTree))

namespace FileTree

def empty : FileTree := .directory []

def entries : FileTree → List (Text × FileTree)
  | .file _ => []
  | .directory entries => entries

/-- `above` holds the directories on the way down, the nearest first. -/
def walk : List FileTree → FileTree → List Text → Reading
  | _, .file bytes, [] => .octets bytes
  | _, .directory _, [] => .directory
  | _, .file _, _ :: _ => .missing
  | above, .directory es, name :: rest =>
    if name = [.char '.', .char '.'] then
      match above with
      | [] => walk [] empty rest
      | outer :: further => walk further outer rest
    else if Path.nameLimit < octetCount name then .longName
    else
      match es.lookup name with
      | none => .missing
      | some inner => walk (.directory es :: above) inner rest

def read (t : FileTree) (p : Path) : Reading :=
  if p.text.any fun c => c.octetCount?.isNone then .missing
  else if Path.textLimit < octetCount p.text then .longName
  else walk [] (if p.root.isEmpty then t else empty) p.parts

def setEntry (name : Text) (t : FileTree) : List (Text × FileTree) → List (Text × FileTree)
  | [] => [(name, t)]
  | (k, old) :: rest => if k = name then (k, t) :: rest else (k, old) :: setEntry name t rest

def insert (t : FileTree) : List Text → FileTree → FileTree
  | [], new => new
  | name :: rest, new =>
    .directory (setEntry name
      (((t.entries.lookup name).getD empty).insert rest new) t.entries)

def makeDirectory (t : FileTree) (parts : List Text) : FileTree :=
  match walk [] t parts with
  | .missing => t.insert parts empty
  | _ => t

end FileTree

end VersionMatch
