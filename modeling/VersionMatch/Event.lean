import VersionMatch.Json.Display

/- The events of a run, as data, and computations that record them. Only how an event is
   written depends on its level and source. -/
namespace VersionMatch

structure Totals where
  specifications : Nat
  candidates : Nat
  contained : Nat
  notContained : Int
  errors : Nat
  deriving DecidableEq, Repr

def Totals.toJson (t : Totals) : Json :=
  .object [("specifications".text, .ofNat t.specifications),
    ("candidates".text, .ofNat t.candidates), ("contained".text, .ofNat t.contained),
    ("notContained".text, .int t.notContained), ("errors".text, .ofNat t.errors)]

inductive Event
  | parsed (text : Text) (clauses : Nat)
  | refused (text : Option Text) (reason : Text)
  | compared (range candidate : Text) (matched : Bool)
  | decided (specification candidate : Text) (contained : Bool)
  | loaded (constraints : Nat) (path : Text)
  | totalled (totals : Totals)
  | nothingChecked
  deriving DecidableEq, Repr

inductive Level
  | debug
  | info
  | warning
  deriving DecidableEq, Repr

namespace Event

def level : Event → Level
  | .loaded _ _ => .info
  | .nothingChecked => .warning
  | _ => .debug

inductive Source
  | grammar
  | ranges
  | specification
  | constraints
  | commandLine
  deriving DecidableEq, Repr

def source : Event → Source
  | .parsed _ _ => .grammar
  | .compared _ _ _ => .ranges
  | .refused _ _ | .decided _ _ _ => .specification
  | .loaded _ _ => .constraints
  | .totalled _ | .nothingChecked => .commandLine

def Source.name : Source → Text
  | .grammar => "jnlp_version.parsers.version_string".text
  | .ranges => "jnlp_version.models.ranges".text
  | .specification => "jnlp_version.specification".text
  | .constraints => "jnlp_version.config".text
  | .commandLine => "jnlp_version.cli".text

def message : Event → Text
  | .parsed text clauses =>
    "parsed ".text ++ text.quoted ++ " into ".text ++ Text.ofNat clauses ++ " clause(s)".text
  | .refused text reason =>
    "rejected version string ".text ++ (Json.ofText? text).shown ++ ": ".text ++ reason
  | .compared range candidate matched =>
    "range ".text ++ range ++ " vs ".text ++ candidate ++ " -> ".text ++ Text.ofBool matched
  | .decided specification candidate contained =>
    specification.quoted ++ " contains ".text ++ candidate.quoted ++ " -> ".text ++
      Text.ofBool contained
  | .loaded constraints path =>
    "loaded ".text ++ Text.ofNat constraints ++ " constraint(s) from ".text ++ path
  | .totalled totals => "totals: ".text ++ totals.toJson.shown
  | .nothingChecked => "no enabled constraints; nothing was checked".text

end Event

def Level.name : Level → Text
  | .debug => "DEBUG".text
  | .info => "INFO".text
  | .warning => "WARNING".text

/-- A value with the events recorded on the way to it, the earliest first. -/
@[ext]
structure Traced (α : Type) where
  value : α
  events : List Event
  deriving Repr

namespace Traced

def bind {α β : Type} (x : Traced α) (f : α → Traced β) : Traced β :=
  ⟨(f x.value).value, x.events ++ (f x.value).events⟩

instance : Monad Traced where
  pure value := ⟨value, []⟩
  bind := Traced.bind

def emit (e : Event) : Traced Unit := ⟨(), [e]⟩

@[simp] theorem value_pure {α : Type} (a : α) : (pure a : Traced α).value = a := rfl

@[simp] theorem events_pure {α : Type} (a : α) : (pure a : Traced α).events = [] := rfl

@[simp] theorem value_bind {α β : Type} (x : Traced α) (f : α → Traced β) :
    (x >>= f).value = (f x.value).value := rfl

@[simp] theorem events_bind {α β : Type} (x : Traced α) (f : α → Traced β) :
    (x >>= f).events = x.events ++ (f x.value).events := rfl

@[simp] theorem value_map {α β : Type} (f : α → β) (x : Traced α) :
    (f <$> x).value = f x.value := rfl

@[simp] theorem events_map {α β : Type} (f : α → β) (x : Traced α) :
    (f <$> x).events = x.events :=
  List.append_nil x.events

instance : LawfulMonad Traced :=
  .mk' Traced (fun x => Traced.ext rfl (events_map id x)) (fun _ _ => rfl)
    (fun x f g => Traced.ext rfl (List.append_assoc x.events _ _))

theorem value_run_bind {ε α β : Type} (x : ExceptT ε Traced α) (f : α → ExceptT ε Traced β) :
    (x >>= f).run.value = x.run.value >>= fun a => (f a).run.value := by
  simp only [ExceptT.run_bind, value_bind]
  cases x.run.value <;> rfl

end Traced
end VersionMatch
