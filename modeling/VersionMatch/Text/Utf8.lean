import VersionMatch.Text.Basic

/- Strict UTF-8. The reader refuses overlong forms, surrogates and values past the last
   code point, and names the octets that rule the file out: the first one that cannot
   continue what stands before it is not among them, except when it cannot start anything. -/
namespace VersionMatch.Utf8

inductive Reason
  | badStart
  | badContinuation
  | cutShort
  deriving DecidableEq, Repr

/-- Octets `start` to `stop`, the second excluded, are no character; `octet` is the first. -/
structure Fault where
  octet : UInt8
  start : Nat
  stop : Nat
  reason : Reason
  deriving DecidableEq, Repr

def encode (t : Characters) : List UInt8 := t.flatMap String.utf8EncodeChar

def encodeFault? (t : Text) : Option Text :=
  let start := (t.takeWhile fun c => !c.isHalf).length
  match (t.drop start).takeWhile CodePoint.isHalf with
  | [] => none
  | [c] => some ("'utf-8' codec can't encode character '\\u".text ++ Text.hex 4 c.toNat ++
      "' in position ".text ++ Text.ofNat start ++ ": surrogates not allowed".text)
  | halves => some ("'utf-8' codec can't encode characters in position ".text ++
      Text.ofNat start ++ "-".text ++ Text.ofNat (start + halves.length - 1) ++
      ": surrogates not allowed".text)

def isContinuation (b : UInt8) : Bool := 0x80 ≤ b && b < 0xc0

def admitsSecond (lead b : UInt8) : Bool :=
  isContinuation b &&
    !(lead == 0xe0 && b < 0xa0) && !(lead == 0xed && 0xa0 ≤ b) &&
    !(lead == 0xf0 && b < 0x90) && !(lead == 0xf4 && 0x90 ≤ b)

def width (lead : UInt8) : Nat :=
  if lead < 0x80 then 1 else if lead < 0xc2 then 0 else if lead < 0xe0 then 2
  else if lead < 0xf0 then 3 else if lead < 0xf5 then 4 else 0

/-- How many of the octets after `lead` fit it, at most `need` of them. -/
def fitting (lead : UInt8) (need : Nat) (rest : List UInt8) : Nat :=
  match rest with
  | [] => 0
  | b :: more =>
    if need = 0 || !admitsSecond lead b then 0
    else 1 + ((more.take (need - 1)).takeWhile isContinuation).length

def assemble (lead : UInt8) (rest : List UInt8) (w : Nat) : Char :=
  let head := if w = 1 then lead.toNat else lead.toNat % Nat.pow 2 (7 - w)
  Char.ofNat ((rest.take (w - 1)).foldl (fun n b => n * 64 + b.toNat % 64) head)

/-- Reads on from octet number `position`; the next `skip` octets belong to a character
    already read. -/
def decodeFrom (position skip : Nat) : List UInt8 → Except Fault Characters
  | [] => .ok []
  | b :: rest =>
    match skip with
    | skip + 1 => decodeFrom (position + 1) skip rest
    | 0 =>
      let w := width b
      let fits := fitting b (w - 1) rest
      if w = 0 then .error ⟨b, position, position + 1, .badStart⟩
      else if fits = w - 1 then
        (decodeFrom (position + 1) (w - 1) rest).map (assemble b rest w :: ·)
      else .error ⟨b, position, position + 1 + fits,
        if fits = rest.length then .cutShort else .badContinuation⟩

def decode (octets : List UInt8) : Except Fault Characters := decodeFrom 0 0 octets

def Reason.wording : Reason → Text
  | .badStart => "invalid start byte".text
  | .badContinuation => "invalid continuation byte".text
  | .cutShort => "unexpected end of data".text

def Fault.message (f : Fault) : Text :=
  let octets :=
    if f.stop = f.start + 1 then
      "byte 0x".text ++ Text.hex 2 f.octet.toNat ++ " in position ".text ++ Text.ofNat f.start
    else "bytes in position ".text ++ Text.ofNat f.start ++ "-".text ++ Text.ofNat (f.stop - 1)
  "'utf-8' codec can't decode ".text ++ octets ++ ": ".text ++ f.reason.wording

end VersionMatch.Utf8
