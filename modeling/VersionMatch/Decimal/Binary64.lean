import VersionMatch.Text.Basic

/- Double-precision numbers as exact integers, and the reading of a decimal into one.
   No machine floating point is used. -/
namespace VersionMatch

/-- A finite number is `significand * 2 ^ exponent` with its sign; the significand has at
    most 53 bits, and fewer than 53 only at the least exponent. -/
inductive Binary64
  | finite (negative : Bool) (significand : Nat) (exponent : Int)
  | infinite (negative : Bool)
  | nan
  deriving DecidableEq, Repr

namespace Binary64

def precision : Nat := 53
def leastExponent : Int := -1074
def greatestExponent : Int := 971

def scaled (n : Nat) (e : Int) : Nat × Nat := (n * Nat.pow 2 e.toNat, Nat.pow 2 (-e).toNat)

/-- The quotient rounded to an integer; a half goes to the even neighbour. -/
def roundQuotient (num den : Nat) : Nat :=
  let whole := num / den
  let double := 2 * (num % den)
  if double < den then whole else if den < double then whole + 1 else whole + whole % 2

def binaryExponent (num den : Nat) : Int :=
  let e : Int := (num.log2 : Int) - den.log2
  if den * Nat.pow 2 e.toNat ≤ num * Nat.pow 2 (-e).toNat then e else e - 1

def ofRatio (negative : Bool) (num den : Nat) : Binary64 :=
  if num = 0 then .finite negative 0 leastExponent
  else
    let e := max (binaryExponent num den - (precision - 1)) leastExponent
    let m := roundQuotient (num * Nat.pow 2 (-e).toNat) (den * Nat.pow 2 e.toNat)
    let (m, e) := if m = Nat.pow 2 precision then (Nat.pow 2 (precision - 1), e + 1) else (m, e)
    if greatestExponent < e then .infinite negative else .finite negative m e

/-- The double nearest to `digits * 10 ^ power`. Magnitudes far outside the range are
    settled by their order of magnitude alone. -/
def ofDecimal (negative : Bool) (digits : Nat) (power : Int) : Binary64 :=
  let order : Int := (Nat.toDigits 10 digits).length + power
  if digits = 0 || order < -400 then .finite negative 0 leastExponent
  else if 400 < order then .infinite negative
  else ofRatio negative (digits * Nat.pow 10 power.toNat) (Nat.pow 10 (-power).toNat)

def isZero : Binary64 → Bool
  | .finite _ m _ => m = 0
  | _ => false

end Binary64

inductive Magnitude
  | ratio (num : Int) (den : Nat)
  | infinite (negative : Bool)
  | nan
  deriving DecidableEq, Repr

def Binary64.magnitude : Binary64 → Magnitude
  | .finite negative m e =>
    let num : Int := (scaled m e).1
    .ratio (if negative then -num else num) (scaled m e).2
  | .infinite negative => .infinite negative
  | .nan => .nan

def Magnitude.compare? : Magnitude → Magnitude → Option Ordering
  | .nan, _ => none
  | _, .nan => none
  | .ratio a b, .ratio c d => some (compare (a * d) (c * b))
  | .infinite n, .ratio _ _ => some (if n then .lt else .gt)
  | .ratio _ _, .infinite n => some (if n then .gt else .lt)
  | .infinite n, .infinite k => some (compare k n)

end VersionMatch
