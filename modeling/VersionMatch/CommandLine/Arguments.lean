import VersionMatch.Text.Quoted

/- Command lines by a grammar of switches and operands. Switches may stand anywhere before a
   lone `--`, long ones may be shortened to any unique beginning, and short ones without a
   value may share one argument. Operands take as much as they can of the arguments up to the
   next switch. -/
namespace VersionMatch

def decimalDigitRanges : List (Nat × Nat) :=
  [(0x30, 0x39), (0x660, 0x669), (0x6f0, 0x6f9), (0x7c0, 0x7c9), (0x966, 0x96f), (0x9e6, 0x9ef),
    (0xa66, 0xa6f), (0xae6, 0xaef), (0xb66, 0xb6f), (0xbe6, 0xbef), (0xc66, 0xc6f), (0xce6, 0xcef),
    (0xd66, 0xd6f), (0xde6, 0xdef), (0xe50, 0xe59), (0xed0, 0xed9), (0xf20, 0xf29),
    (0x1040, 0x1049), (0x1090, 0x1099), (0x17e0, 0x17e9), (0x1810, 0x1819), (0x1946, 0x194f),
    (0x19d0, 0x19d9), (0x1a80, 0x1a89), (0x1a90, 0x1a99), (0x1b50, 0x1b59), (0x1bb0, 0x1bb9),
    (0x1c40, 0x1c49), (0x1c50, 0x1c59), (0xa620, 0xa629), (0xa8d0, 0xa8d9), (0xa900, 0xa909),
    (0xa9d0, 0xa9d9), (0xa9f0, 0xa9f9), (0xaa50, 0xaa59), (0xabf0, 0xabf9), (0xff10, 0xff19),
    (0x104a0, 0x104a9), (0x10d30, 0x10d39), (0x11066, 0x1106f), (0x110f0, 0x110f9),
    (0x11136, 0x1113f), (0x111d0, 0x111d9), (0x112f0, 0x112f9), (0x11450, 0x11459),
    (0x114d0, 0x114d9), (0x11650, 0x11659), (0x116c0, 0x116c9), (0x11730, 0x11739),
    (0x118e0, 0x118e9), (0x11950, 0x11959), (0x11c50, 0x11c59), (0x11d50, 0x11d59),
    (0x11da0, 0x11da9), (0x16a60, 0x16a69), (0x16ac0, 0x16ac9), (0x16b50, 0x16b59),
    (0x1d7ce, 0x1d7ff), (0x1e140, 0x1e149), (0x1e2f0, 0x1e2f9), (0x1e950, 0x1e959),
    (0x1fbf0, 0x1fbf9)]

def isDecimalDigit (c : CodePoint) : Bool := inRanges decimalDigitRanges c

inductive SwitchKind
  | help
  | flag
  /-- One value follows, one of the choices unless there are none to choose from. -/
  | value (choices : List Text)
  deriving DecidableEq, Repr

structure Switch where
  names : List Text
  kind : SwitchKind
  deriving DecidableEq, Repr

inductive Arity
  | one
  | oneOrMore
  | command
  deriving DecidableEq, Repr

structure Operand where
  name : Text
  arity : Arity
  deriving DecidableEq, Repr

structure ArgumentGrammar where
  switches : List Switch
  operands : List Operand
  deriving DecidableEq, Repr

inductive Halt
  | help
  | failure (message : Text)
  deriving DecidableEq, Repr

/-- How an argument reads on its own. The text attached to a switch stands after an equals
    sign or, for a short one, directly after its letter. -/
inductive Mark
  | operand
  | dashes
  | unknown
  | switch (s : Switch) (spelling : Text) (attached : Option Text)
  deriving DecidableEq, Repr

structure Argument where
  text : Text
  mark : Mark
  deriving DecidableEq, Repr

def Switch.title (s : Switch) : Text := "/".text.intercalate s.names

def Switch.fail {α : Type} (s : Switch) (reason : Text) : Except Halt α :=
  .error (.failure ("argument ".text ++ s.title ++ ": ".text ++ reason))

def Switch.ignored {α : Type} (s : Switch) (value : Text) : Except Halt α :=
  s.fail ("ignored explicit argument ".text ++ value.quoted)

def invalidChoice (value : Text) (choices : List Text) : Text :=
  "invalid choice: ".text ++ value.quoted ++ " (choose from ".text ++
    ", ".text.intercalate (choices.map Text.quoted) ++ ")".text

namespace ArgumentGrammar

def names (g : ArgumentGrammar) : List (Text × Switch) :=
  g.switches.flatMap fun s => s.names.map fun n => (n, s)

def lone : Text := ['-', '-']

def splitEquals (t : Text) : Text × Option Text :=
  match t.dropWhile (· != .char '=') with
  | [] => (t, none)
  | _ :: value => (t.takeWhile (· != .char '='), some value)

def isNegativeNumber (t : Text) : Bool :=
  match t with
  | .char '-' :: rest =>
    let body := if rest.getLast? = some (.char '\n') then rest.dropLast else rest
    match body.dropWhile isDecimalDigit with
    | [] => !body.isEmpty
    | .char '.' :: fraction => !fraction.isEmpty && fraction.all isDecimalDigit
    | _ => false
  | _ => false

def meant (g : ArgumentGrammar) (t : Text) : List (Text × Switch × Option Text) :=
  match t with
  | .char '-' :: .char '-' :: _ =>
    let (shown, attached) := splitEquals t
    (g.names.filter fun (n, _) => shown.isPrefixOf n).map fun (n, s) => (n, s, attached)
  | .char '-' :: c :: value =>
    g.names.filterMap fun (n, s) =>
      if n = [.char '-', c] then some (n, s, some value)
      else if t.isPrefixOf n then some (n, s, none)
      else none
  | _ => []

/-- Negative numbers and texts with a space are operands even though they start with a dash. -/
def mark (g : ArgumentGrammar) (t : Text) : Except Halt Mark :=
  if t.head? ≠ some (.char '-') ∨ t.length = 1 then .ok .operand
  else
    match g.names.lookup t with
    | some s => .ok (.switch s t none)
    | none =>
      let (shown, attached) := splitEquals t
      match attached.bind fun _ => g.names.lookup shown with
      | some s => .ok (.switch s shown attached)
      | none =>
        match g.meant t with
        | [(n, s, attached)] => .ok (.switch s n attached)
        | [] => .ok (if isNegativeNumber t || t.contains ' ' then .operand else .unknown)
        | several => .error (.failure ("ambiguous option: ".text ++ t ++ " could match ".text ++
            ", ".text.intercalate (several.map (·.1))))

/-- After a lone `--` everything is an operand. -/
def marked (g : ArgumentGrammar) : List Text → Except Halt (List Argument)
  | [] => .ok []
  | t :: rest =>
    if t = lone then .ok (⟨t, .dashes⟩ :: rest.map fun t => ⟨t, .operand⟩)
    else do
      let m ← g.mark t
      return ⟨t, m⟩ :: (← marked g rest)

end ArgumentGrammar

structure Gathered where
  settings : List (Switch × Option Text)
  operands : List (Operand × List Text)
  wanted : List Operand
  extras : List Text
  deriving DecidableEq, Repr

structure Cluster where
  settings : List (Switch × Option Text)
  usesNext : Bool
  deriving DecidableEq, Repr

namespace Switch

def takesValue (s : Switch) : Bool :=
  match s.kind with
  | .value _ => true
  | _ => false

/-- A lone `--` is no value, so a switch that is given one is left without. -/
def given (s : Switch) (value : Text) : Switch × Option Text :=
  (s, if value = ArgumentGrammar.lone then none else some value)

def detached (s : Switch) (next : Option Text) : Except Halt Cluster :=
  if s.takesValue then
    match next with
    | some value => .ok ⟨[s.given value], true⟩
    | none => s.fail "expected one argument".text
  else .ok ⟨[(s, none)], false⟩

def isShort (spelling : Text) : Bool := spelling.tail.head? != some (.char '-')

/-- A switch with an attached text: its value, or for a short switch without one the letters
    of further short switches. All of them have to be known before any takes effect. -/
def attached (g : ArgumentGrammar) (next : Option Text) (s : Switch) (spelling : Text) :
    Text → Except Halt Cluster
  | [] => if s.takesValue then .ok ⟨[s.given []], false⟩ else s.ignored []
  | c :: rest =>
    if s.takesValue then .ok ⟨[s.given (c :: rest)], false⟩
    else if !isShort spelling then s.ignored (c :: rest)
    else
      match g.names.lookup [.char '-', c] with
      | none => s.ignored (c :: rest)
      | some other => do
        let cluster ← match rest with
          | [] => other.detached next
          | rest => attached g next other [.char '-', c] rest
        return { cluster with settings := (s, none) :: cluster.settings }

def accept (s : Switch) (value : Option Text) : Except Halt Unit :=
  match s.kind, value with
  | .help, _ => .error .help
  | .value choices, some v =>
    if choices.isEmpty || choices.contains v then .ok () else s.fail (invalidChoice v choices)
  | _, _ => .ok ()

end Switch

def Argument.isDashes (a : Argument) : Bool := a.mark == .dashes

def Argument.isOperand (a : Argument) : Bool := a.mark == .operand

/-- The values of an operand: its arguments without the first lone `--`. A command keeps it
    for the grammar that reads the rest. -/
def Operand.values (o : Operand) (args : List Argument) : List Text :=
  match o.arity with
  | .command => args.map (·.text)
  | _ => (args.map (·.text)).erase ArgumentGrammar.lone

/-- The operands that the arguments up to the next switch fill, those still wanted, and how
    many arguments they take. -/
def takeOperands : List Operand → List Argument → List (Operand × List Text) × List Operand × Nat
  | [], _ => ([], [], 0)
  | o :: os, args =>
    let before := args.takeWhile Argument.isDashes
    match args.dropWhile Argument.isDashes with
    | [] => ([], o :: os, 0)
    | first :: rest =>
      if first.isOperand then
        let more := match o.arity with
          | .one => rest.takeWhile Argument.isDashes
          | .oneOrMore => rest.takeWhile fun a => a.isOperand || a.isDashes
          | .command => rest
        let taken := before ++ first :: more
        let (filled, wanted, n) := takeOperands os (args.drop taken.length)
        ((o, o.values taken) :: filled, wanted, taken.length + n)
      else ([], o :: os, 0)

namespace ArgumentGrammar

def nextValue : List Argument → Option Text
  | a :: _ => if a.isOperand then some a.text else none
  | [] => none

def gather (g : ArgumentGrammar) (sofar : Gathered) : List Argument → Except Halt Gathered
  | [] => .ok sofar
  | a :: rest =>
    match a.mark with
    | .unknown => gather g { sofar with extras := sofar.extras ++ [a.text] } rest
    | .switch s spelling attached => do
      let cluster ← match attached with
        | none => s.detached (nextValue rest)
        | some value => s.attached g (nextValue rest) spelling value
      cluster.settings.forM fun p => p.1.accept p.2
      gather g { sofar with settings := sofar.settings ++ cluster.settings }
        (rest.drop (if cluster.usesNext then 1 else 0))
    | _ =>
      match takeOperands sofar.wanted (a :: rest) with
      | ([], _, _) => gather g { sofar with extras := sofar.extras ++ [a.text] } rest
      | (filled, wanted, n) =>
        gather g { sofar with operands := sofar.operands ++ filled, wanted := wanted }
          (rest.drop (n - 1))
termination_by args => args.length
decreasing_by all_goals simp only [List.length_cons, List.length_drop]; omega

def read (g : ArgumentGrammar) (args : List Text) : Except Halt Gathered := do
  let gathered ← g.gather ⟨[], [], g.operands, []⟩ (← g.marked args)
  match gathered.wanted with
  | [] => return gathered
  | wanted => throw (.failure ("the following arguments are required: ".text ++
      ", ".text.intercalate (wanted.map (·.name))))

end ArgumentGrammar

namespace Gathered

def has (r : Gathered) (s : Switch) : Bool := r.settings.any (·.1 == s)

def setting? (r : Gathered) (s : Switch) : Option (Option Text) :=
  (r.settings.reverse.find? (·.1 == s)).map (·.2)

def operand (r : Gathered) (o : Operand) : List Text := (r.operands.lookup o).getD []

end Gathered
end VersionMatch
