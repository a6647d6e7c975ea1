import VersionMatch.Token

/- Concrete versions: tokens with the text they were read from. Equality and order look at
   the tokens alone, so different spellings of one version are equal. -/
namespace VersionMatch

structure VersionId where
  tokens : List Token
  text : Text
  nonempty : tokens ≠ []
  deriving DecidableEq, Repr

namespace VersionId

def ofTokens (tokens : List Token) (text : Text) : Except Fault VersionId :=
  if h : tokens ≠ [] then .ok ⟨tokens, text, h⟩ else .error (.defect .noTokens)

/-- Every failure, that of an absent text included, is one of the grammar. -/
def parse (t : Option Text) (offset : Int) : Except Fault VersionId :=
  match t with
  | none => .error (.malformed .absentVersionId offset [])
  | some t => do VersionId.ofTokens (← tokenize t offset) t

def order (a b : VersionId) : Ordering := List.compareLex Token.order a.tokens b.tokens

def same (a b : VersionId) : Bool := a.tokens == b.tokens

def isStartOf (a b : VersionId) : Bool := a.tokens.isPrefixOf b.tokens

def toJson (v : VersionId) : Json :=
  .object [("text".text, .str v.text), ("tokens".text, .list (v.tokens.map Token.toJson))]

end VersionId

inductive Comparison
  | eq
  | ne
  | lt
  | le
  | gt
  | ge
  deriving DecidableEq, Repr

namespace Comparison

def symbol : Comparison → Text
  | .eq => "==".text
  | .ne => "!=".text
  | .lt => "<".text
  | .le => "<=".text
  | .gt => ">".text
  | .ge => ">=".text

def holds (a b : VersionId) : Comparison → Bool
  | .eq => a.same b
  | .ne => !a.same b
  | .lt => a.order b == .lt
  | .le => a.order b == .lt || a.same b
  | .gt => a.order b != .lt && !a.same b
  | .ge => a.order b != .lt

/-- A version differs from every value that is none and has no place in an order with it.
    An order is refused with the message. -/
def withOther (other : Json.Kind) : Comparison → Except Text Bool
  | .eq => .ok false
  | .ne => .ok true
  | op => .error ("'".text ++ op.symbol ++
      "' not supported between instances of 'VersionId' and '".text ++ other.word ++ "'".text)

end Comparison
end VersionMatch
