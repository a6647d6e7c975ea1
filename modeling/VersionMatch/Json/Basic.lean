import VersionMatch.Decimal.Binary64

/- Document values. Objects keep the order of their keys, and integers are apart from
   decimals and unbounded. A repeated key keeps its first place and takes its last value. -/
namespace VersionMatch

inductive Json
  | null
  | bool (b : Bool)
  | int (i : Int)
  | float (x : Binary64)
  | str (t : Text)
  | list (items : List Json)
  | object (fields : List (Text × Json))
  deriving Inhabited, Repr

namespace Json

inductive Kind
  | null
  | bool
  | int
  | float
  | str
  | list
  | object
  deriving DecidableEq, Repr

def kind : Json → Kind
  | .null => .null
  | .bool _ => .bool
  | .int _ => .int
  | .float _ => .float
  | .str _ => .str
  | .list _ => .list
  | .object _ => .object

def Kind.word : Kind → Text
  | .null => "NoneType".text
  | .bool => "bool".text
  | .int => "int".text
  | .float => "float".text
  | .str => "str".text
  | .list => "list".text
  | .object => "dict".text

def ofNat (n : Nat) : Json := .int n

def ofText? : Option Text → Json
  | none => .null
  | some t => .str t

def truthy : Json → Bool
  | .null => false
  | .bool b => b
  | .int i => i != 0
  | .float x => !x.isZero
  | .str t => !t.isEmpty
  | .list items => !items.isEmpty
  | .object fields => !fields.isEmpty

def put : List (Text × Json) → Text → Json → List (Text × Json)
  | [], key, v => [(key, v)]
  | (k, old) :: rest, key, v =>
    if k = key then (k, v) :: rest else (k, old) :: put rest key v

def ofPairs (pairs : List (Text × Json)) : Json :=
  .object (pairs.foldl (fun fields p => put fields p.1 p.2) [])

def field? : Json → String → Option Json
  | .object fields, key => fields.lookup key.text
  | _, _ => none

/-- Numbers and truth values by their exact magnitude; true is one and false is zero. -/
def magnitude? : Json → Option Magnitude
  | .bool b => some (.ratio (if b then 1 else 0) 1)
  | .int i => some (.ratio i 1)
  | .float x => some x.magnitude
  | _ => none

def numericOrder? (a b : Json) : Option Ordering := do
  let x ← a.magnitude?
  let y ← b.magnitude?
  x.compare? y

mutual

def same : Json → Json → Bool
  | .null, .null => true
  | .str t, .str u => t == u
  | .list xs, .list ys => sameItems xs ys
  | .object xs, .object ys => xs.length == ys.length && sameFields xs ys
  | a, b => numericOrder? a b == some .eq

def sameItems : List Json → List Json → Bool
  | [], [] => true
  | x :: xs, y :: ys => same x y && sameItems xs ys
  | _, _ => false

def sameFields : List (Text × Json) → List (Text × Json) → Bool
  | [], _ => true
  | (k, x) :: xs, ys =>
    (match ys.lookup k with
      | some y => same x y
      | none => false) && sameFields xs ys

end

end Json

inductive Misfit
  | noFields (kind : Json.Kind)
  | notIterable (kind : Json.Kind)
  | notComparable (kind : Json.Kind)
  deriving DecidableEq, Repr

def Misfit.message : Misfit → Text
  | .noFields kind => "'".text ++ kind.word ++ "' object has no attribute 'get'".text
  | .notIterable kind => "'".text ++ kind.word ++ "' object is not iterable".text
  | .notComparable kind =>
    "'>' not supported between instances of '".text ++ kind.word ++ "' and 'int'".text

namespace Json

def fieldOr (v : Json) (key : String) (missing : Json) : Except Misfit Json :=
  match v with
  | .object _ => .ok ((v.field? key).getD missing)
  | _ => .error (.noFields v.kind)

/-- The parts of a value: items of a list, characters of a text, keys of an object. -/
def parts : Json → Except Misfit (List Json)
  | .list items => .ok items
  | .str t => .ok (t.map fun c => .str [c])
  | .object fields => .ok (fields.map fun p => .str p.1)
  | v => .error (.notIterable v.kind)

def isPositive (v : Json) : Except Misfit Bool :=
  match v.magnitude? with
  | some m => .ok (m.compare? (.ratio 0 1) == some .gt)
  | none => .error (.notComparable v.kind)

end Json

end VersionMatch
