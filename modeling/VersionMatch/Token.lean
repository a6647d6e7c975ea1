import VersionMatch.Fault

/- The tokens of a version: numerals, compared as numbers of any size, and words, compared
   by code point. A numeral stands below every word. -/
namespace VersionMatch

def isSeparator (c : CodePoint) : Bool := c == '.' || c == '_' || c == '-'

def isReserved (c : CodePoint) : Bool := c == '&' || c == '+' || c == '*'

def DigitsOnly (t : Text) : Prop := t ≠ [] ∧ ∀ c ∈ t, c.isDigit = true

def HasLeadingZero (t : Text) : Prop := 1 < t.length ∧ t.head? = some (.char '0')

def NoDigits (t : Text) : Prop := ∀ c ∈ t, c.isDigit = false

-- Decided over the members of the text, not over all characters.
instance (t : Text) : Decidable (NoDigits t) := List.decidableBAll _ t
instance (t : Text) : Decidable (DigitsOnly t) :=
  @instDecidableAnd _ _ _ (List.decidableBAll _ t)
instance (t : Text) : Decidable (HasLeadingZero t) := inferInstanceAs (Decidable (_ ∧ _))

structure Numeral where
  digits : Text
  digitsOnly : DigitsOnly digits
  canonical : ¬ HasLeadingZero digits
  deriving DecidableEq, Repr

structure Word where
  value : Text
  nonempty : value ≠ []
  noDigits : NoDigits value
  deriving DecidableEq, Repr

inductive Token
  | numeral (n : Numeral)
  | word (w : Word)
  deriving DecidableEq, Repr

def Numeral.ofDigits (t : Text) : Except Fault Numeral :=
  if d : DigitsOnly t then
    if z : HasLeadingZero t then .error (.defect (.leadingZeros t)) else .ok ⟨t, d, z⟩
  else .error (.defect (.notDigits t))

/-- Leading zeros go; of zeros alone one stays. -/
def stripZeros (t : Text) : Text :=
  match t.dropWhile (· == .char '0') with
  | [] => ['0']
  | stripped => stripped

def Numeral.ofText (t : Text) : Except Fault Numeral := Numeral.ofDigits (stripZeros t)

def Word.ofText (t : Text) : Except Fault Word :=
  if e : t ≠ [] then
    if d : NoDigits t then .ok ⟨t, e, d⟩ else .error (.defect (.digitsInWord t))
  else .error (.defect .emptyWord)

def Token.ofRun (run : Text) : Except Fault Token :=
  if run.head?.any CodePoint.isDigit then (Numeral.ofText run).map .numeral
  else (Word.ofText run).map .word

/-- Without leading zeros the shorter numeral is the smaller number. -/
def Token.order : Token → Token → Ordering
  | .numeral a, .numeral b =>
    (compare a.digits.length b.digits.length).then (compare a.digits b.digits)
  | .numeral _, .word _ => .lt
  | .word _, .numeral _ => .gt
  | .word a, .word b => compare a.value b.value

def Token.toJson : Token → Json
  | .numeral n => .object [("kind".text, .str "numeric".text), ("value".text, .str n.digits)]
  | .word w => .object [("kind".text, .str "alpha".text), ("value".text, .str w.value)]

/-- Reads on at `position` of the surrounding text. `run` is the token being read, last
    character first; it is empty at the start and after a separator. -/
def scan (whole : Text) (position : Int) : Text → Text → Except Fault (List Token)
  | [], [] => .error (.malformed .trailingSeparator (position - 1) whole)
  | run, [] => do return [← Token.ofRun run.reverse]
  | run, c :: rest =>
    if isReserved c || isBlank c then .error (.malformed .strayCharacter position [c])
    else if isSeparator c then
      if run.isEmpty then .error (.malformed .emptyToken position whole)
      else do
        let token ← Token.ofRun run.reverse
        return token :: (← scan whole (position + 1) [] rest)
    else if run.head?.any fun p => p.isDigit != c.isDigit then do
      let token ← Token.ofRun run.reverse
      return token :: (← scan whole (position + 1) [c] rest)
    else scan whole (position + 1) (c :: run) rest

def tokenize (t : Text) (offset : Int) : Except Fault (List Token) :=
  if t.isEmpty then .error (.malformed .emptyVersionId offset t) else scan t offset [] t

end VersionMatch
