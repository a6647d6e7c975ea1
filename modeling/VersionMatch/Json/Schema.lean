import VersionMatch.Json.Display

/- Schemas for documents, and what a validator is relied on to report. A path leads down the
   document and down the schema side by side, and nothing is looked for below a value of the wrong
   type. -/
namespace VersionMatch

inductive Schema
  | text (nonempty : Bool)
  | flag
  | list (nonempty : Bool) (items : Schema)
  | record (required : List Text) (fields : List (Text × Schema))

inductive Step
  | name (key : Text)
  | index (i : Nat)
  deriving DecidableEq, Repr

inductive Flaw
  | wrongType
  | missing (key : Text)
  | unexpected
  | empty
  deriving DecidableEq, Repr

structure Violation where
  path : List Step
  flaw : Flaw
  message : Text
  deriving DecidableEq, Repr

def Violation.finding (v : Violation) : List Step × Flaw := (v.path, v.flaw)

abbrev Validator := Schema → Json → List Violation

def Schema.kind : Schema → Json.Kind
  | .text _ => .str
  | .flag => .bool
  | .list _ _ => .list
  | .record _ _ => .object

def Json.part? : Json → Step → Option Json
  | .list vs, .index i => vs[i]?
  | .object given, .name key => given.lookup key
  | _, _ => none

def Schema.part? : Schema → Step → Option Schema
  | .list _ items, .index _ => some items
  | .record _ fields, .name key => fields.lookup key
  | _, _ => none

def Json.at? (v : Json) (path : List Step) : Option Json := path.foldlM Json.part? v

def Schema.at? (s : Schema) (path : List Step) : Option Schema := path.foldlM Schema.part? s

/-- A flaw of the value itself. One of the wrong kind has no other. -/
inductive Violates : Schema → Json → Flaw → Prop where
  | wrongType {s : Schema} {v : Json} (other : v.kind ≠ s.kind) : Violates s v .wrongType
  | emptyText : Violates (.text true) (.str []) .empty
  | emptyList (items : Schema) : Violates (.list true items) (.list []) .empty
  | missing {required : List Text} {fields : List (Text × Schema)} {given : List (Text × Json)}
      {key : Text} (needed : key ∈ required) (absent : given.lookup key = none) :
      Violates (.record required fields) (.object given) (.missing key)
  | unexpected {required : List Text} {fields : List (Text × Schema)} {given : List (Text × Json)}
      (unknown : ∃ p ∈ given, fields.lookup p.1 = none) :
      Violates (.record required fields) (.object given) .unexpected

/-- The order of the flaws of one value. Missing keys stand as the schema lists them, and unexpected
    ones come after. -/
inductive Precedes : Schema → Flaw → Flaw → Prop where
  | missing {required : List Text} {fields : List (Text × Schema)} {j k : Text}
      (before : [j, k].Sublist required) :
      Precedes (.record required fields) (.missing j) (.missing k)
  | unexpected {required : List Text} {fields : List (Text × Schema)} (k : Text) :
      Precedes (.record required fields) (.missing k) .unexpected

/-- Each flaw of each value is reported once, with the path to the value, and those of one value in
    the order of its schema. -/
structure Schema.Findings (s : Schema) (v : Json) (found : List Violation) : Prop where
  each : ∀ path flaw, (path, flaw) ∈ found.map Violation.finding ↔
    ∃ t w, s.at? path = some t ∧ v.at? path = some w ∧ Violates t w flaw
  once : (found.map Violation.finding).Nodup
  ordered : found.Pairwise fun x y => x.path = y.path →
    ∃ t, s.at? x.path = some t ∧ Precedes t x.flaw y.flaw

namespace Step

def text : Step → Text
  | .name key => key
  | .index i => Text.ofNat i

/-- Names by code point and numbers by size. The children of one value are all named or all
    numbered, so the order between the two is never asked for. -/
def order : Step → Step → Ordering
  | .name a, .name b => compare a b
  | .index a, .index b => compare a b
  | .name _, .index _ => .lt
  | .index _, .name _ => .gt

end Step

namespace Violation

def inOrder (a b : Violation) : Bool := List.compareLex Step.order a.path b.path != .gt

def pointer (v : Violation) : Text :=
  match "/".text.intercalate (v.path.map Step.text) with
  | [] => "<root>".text
  | pointer => pointer

def line (v : Violation) : Text := "- ".text ++ v.pointer ++ ": ".text ++ v.message

end Violation

def Schema.check (s : Schema) (validator : Validator) (v : Json) : List Violation :=
  (validator s v).mergeSort Violation.inOrder

end VersionMatch
