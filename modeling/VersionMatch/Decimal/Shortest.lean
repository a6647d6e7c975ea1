import VersionMatch.Decimal.Binary64

/- The decimal text of a double: the fewest digits that read back as the same number, of
   those the nearest to it, written positionally between 0.0001 and 10 to the sixteenth. -/
namespace VersionMatch

structure DecimalLayout where
  leastPositional : Int
  greatestPositional : Int
  fraction : Characters
  mark : Char
  exponentWidth : Nat

namespace Binary64

/-- Times the unit `2 ^ (exponent - 2)`, the numbers that round to the given one lie between
    these two bounds; the bounds themselves do when the significand is even. -/
def roundingInterval (m : Nat) (e : Int) : Nat × Nat :=
  let below := if m = Nat.pow 2 (precision - 1) ∧ leastExponent < e then 1 else 2
  (4 * m - below, 4 * m + 2)

def readsBack (m : Nat) (e : Int) (k : Nat) (p : Int) : Bool :=
  let (low, high) := roundingInterval m e
  let u := e - 2
  let value := k * Nat.pow 10 p.toNat * Nat.pow 2 (-u).toNat
  let unit := Nat.pow 10 (-p).toNat * Nat.pow 2 u.toNat
  if m % 2 = 0 then low * unit ≤ value && value ≤ high * unit
  else low * unit < value && value < high * unit

/-- Of the two neighbours of `m * 2 ^ e` among the multiples of `10 ^ p`, the ones that read
    back; the nearer stands first, and of two equally near ones the even. -/
def neighbours (m : Nat) (e p : Int) : List Nat :=
  let num := m * Nat.pow 2 e.toNat * Nat.pow 10 (-p).toNat
  let den := Nat.pow 2 (-e).toNat * Nat.pow 10 p.toNat
  let k := num / den
  let nearest := roundQuotient num den
  let other := if nearest = k then k + 1 else k
  [nearest, other].filter fun k => readsBack m e k p

def decimalExponent (m : Nat) (e : Int) : Int :=
  let guess := ((m.log2 : Int) + e) * 30103 / 100000
  let reaches (p : Int) : Bool :=
    Nat.pow 10 p.toNat * Nat.pow 2 (-e).toNat ≤ m * Nat.pow 2 e.toNat * Nat.pow 10 (-p).toNat
  if reaches (guess + 1) then guess + 1 else if reaches guess then guess else guess - 1

def shortest (m : Nat) (e : Int) : Nat × Int :=
  let top := decimalExponent m e
  let grids := (List.range 17).map fun (n : Nat) => top - n
  (grids.findSome? fun p => (neighbours m e p).head?.map fun k => (k, p)).getD (m, e)

end Binary64

def trimDigits (digits : Characters) : Characters :=
  match (digits.reverse.dropWhile (· == '0')).reverse with
  | [] => ['0']
  | trimmed => trimmed

/-- `digits * 10 ^ power`. The point stands after `point` of the digits. -/
def DecimalLayout.render (f : DecimalLayout) (digits : Characters) (power : Int) : Characters :=
  let point := (digits.length : Int) + power
  let shown := trimDigits digits
  let exponent := point - 1
  if f.leastPositional ≤ exponent ∧ exponent ≤ f.greatestPositional then
    if point ≤ 0 then ['0', '.'] ++ List.replicate (-point).toNat '0' ++ shown
    else if shown.length ≤ point.toNat then
      shown ++ List.replicate (point.toNat - shown.length) '0' ++ f.fraction
    else shown.take point.toNat ++ '.' :: shown.drop point.toNat
  else
    let head := match shown with
      | d :: rest@(_ :: _) => d :: '.' :: rest
      | short => short
    head ++ f.mark :: (if exponent < 0 then '-' else '+') ::
      (Nat.toDigits 10 exponent.natAbs).leftpad f.exponentWidth '0'

def Binary64.layout : DecimalLayout := ⟨-4, 15, ['.', '0'], 'e', 2⟩

def Binary64.text : Binary64 → Characters
  | .nan => "nan".toList
  | .infinite negative => if negative then "-inf".toList else "inf".toList
  | .finite negative m e =>
    let (k, p) := if m = 0 then (0, 0) else shortest m e
    (if negative then ['-'] else []) ++ layout.render (Nat.toDigits 10 k) p

end VersionMatch
