import MemoryBus.Decimal

/-! Command lines of options, flags and positional arguments. A command line that does not fit its
grammar is refused as a whole. -/
namespace MemoryBus.Command

/-- An option, written `--name` or by its letter. It takes a value, or else it is a flag. -/
structure NamedOption where
  name : String
  letter : Option Char
  takesValue : Bool
  deriving DecidableEq, Repr

/-- Without a bound, any number of positional arguments is accepted. -/
structure Grammar where
  options : List NamedOption
  positionalBound : Option Nat

/-- No option and no flag occurs twice. -/
structure Arguments where
  values : List (String × String)
  flags : List String
  positionals : List String
  deriving DecidableEq, Repr

namespace Arguments

def empty : Arguments := ⟨[], [], []⟩

def addValue? (o : NamedOption) (value : String) (args : Arguments) : Option Arguments :=
  if (args.values.lookup o.name).isSome then none
  else some { args with values := (o.name, value) :: args.values }

def addFlag? (o : NamedOption) (args : Arguments) : Option Arguments :=
  if args.flags.contains o.name then none else some { args with flags := o.name :: args.flags }

def addPositional? (g : Grammar) (a : String) (args : Arguments) : Option Arguments :=
  if g.positionalBound.any (· ≤ args.positionals.length) then none
  else some { args with positionals := args.positionals ++ [a] }

def has (args : Arguments) (name : String) : Bool := args.flags.contains name

/-- The value of an option as `f` reads it; an option that is missing has the value `missing`. -/
def value? {α : Type} (args : Arguments) (name : String) (missing : α) (f : String → Option α) : Option α :=
  match args.values.lookup name with
  | none => some missing
  | some value => f value

end Arguments

/-- How the next argument is taken. -/
inductive Mode
  | any
  /-- As the value of an option that was named without one. -/
  | valueOf (o : NamedOption)
  /-- As positional, however it looks. -/
  | positional

namespace Grammar

/-- An argument that began with two hyphens, which have been removed. -/
def readName (g : Grammar) (args : Arguments) (s : List Char) : Option (Mode × Arguments) := do
  let (name, rest) := s.span (· != '=')
  let o ← g.options.find? (·.name.toList == name)
  match rest, o.takesValue with
  | [], true => return (.valueOf o, args)
  | [], false => return (.any, ← args.addFlag? o)
  | _ :: value, true => return (.any, ← args.addValue? o (String.ofList value))
  | _ :: _, false => none

/-- Letters that began with one hyphen, which has been removed. What follows the letter of an option
is its value, with or without an equals sign between them. -/
def readLetters (g : Grammar) (args : Arguments) : List Char → Option (Mode × Arguments)
  | [] => some (.any, args)
  | c :: s => do
    let o ← g.options.find? (·.letter == some c)
    match s, o.takesValue with
    | s, false => g.readLetters (← args.addFlag? o) s
    | [], true => return (.valueOf o, args)
    | '=' :: value, true => return (.any, ← args.addValue? o (String.ofList value))
    | value, true => return (.any, ← args.addValue? o (String.ofList value))

/-- One hyphen alone is an ordinary argument, two are the end of the options. -/
def readArgument (g : Grammar) (mode : Mode) (args : Arguments) (a : String) : Option (Mode × Arguments) :=
  let positional (mode : Mode) := (args.addPositional? g a).map (mode, ·)
  let valueOf (o : NamedOption) := (args.addValue? o a).map (.any, ·)
  match mode, a.toList with
  | .positional, _ => positional .positional
  | .valueOf o, ['-'] => valueOf o
  | .valueOf _, '-' :: _ => none
  | .valueOf o, _ => valueOf o
  | .any, ['-'] => positional .any
  | .any, ['-', '-'] => some (.positional, args)
  | .any, '-' :: '-' :: s => g.readName args s
  | .any, '-' :: s => g.readLetters args s
  | .any, _ => positional .any

def read? (g : Grammar) (line : List String) : Option Arguments := do
  let (mode, args) ← line.foldlM (fun (mode, args) a => g.readArgument mode args a) (.any, .empty)
  match mode with
  | .valueOf _ => none
  | _ => return args

end Grammar

/-- A number below `2 ^ 64`, which may have a plus sign. -/
def natural? (s : String) : Option Nat := do
  let n ← Decimal.read? (match s.toList with
    | '+' :: s => s
    | s => s)
  guard (n < UInt64.size)
  return n

/-- No path is empty. -/
def path? (s : String) : Option String := if s.isEmpty then none else some s

end MemoryBus.Command
