import LSystem.Command.Basic
import LSystem.Decimal.Count
set_option autoImplicit false

/-! # Options of the command line

An option is written with its long name behind two dashes or with its letter behind one. Its value is
the next argument, or is attached: behind an equals sign, and behind a letter also without one. An
argument that starts with a dash is never the value of the option in front of it, except a dash alone.
Each option may be given once. The first argument that is neither an option nor a value ends the
options, and the first fault from left to right is the one that counts. -/

namespace LSystem

/-- What an option takes. -/
inductive Switch.Kind where
  | text
  | path
  | count
  | nothing
  deriving DecidableEq

/-- An option that is known. -/
structure Switch where
  name : String
  letter : Option Char
  kind : Switch.Kind

namespace Switch

/-- Whether an option takes a text as its value. -/
def Kind.accepts : Kind → String → Bool
  | text, _ => true
  | path, value => !value.isEmpty
  | count, value => (Decimal.count? value).isSome
  | nothing, _ => true

/-- Whether an argument has the look of options: a dash with something behind it. -/
def isDashed (argument : String) : Bool :=
  match argument.toList with
  | '-' :: _ :: _ => true
  | _ => false

/-- What an argument is. -/
inductive Sign where
  | word
  | lastOption
  | help
  | option (s : Switch) (attached : Option String)
  | unknown

/-- What an argument is where some options are known. -/
def sign (known : List Switch) (argument : String) : Sign :=
  match argument.toList with
  | ['-', '-'] => .lastOption
  | '-' :: '-' :: cs =>
    let name := String.ofList (cs.takeWhile (· != '='))
    let attached := match cs.dropWhile (· != '=') with
      | [] => none
      | _ :: value => some (String.ofList value)
    match known.find? (·.name == name) with
    | some s => .option s attached
    | none => if name == "help" && attached.isNone then .help else .unknown
  | '-' :: c :: cs =>
    match known.find? (·.letter == some c) with
    | some s =>
      match cs with
      | [] => .option s none
      | '=' :: value => .option s (some (String.ofList value))
      | value => .option s (some (String.ofList value))
    | none => if c == 'h' then .help else .unknown
  | _ => .word

/-- The options given so far: names and values. -/
abbrev Given := List (String × String)

/-- Note an option with its value. -/
def note (given : Given) (s : Switch) (value : String) : Except Misuse Given :=
  if (given.lookup s.name).isSome then .error (.repeatedOption s.name)
  else if s.kind.accepts value then .ok ((s.name, value) :: given)
  else .error (.badValue s.name value)

/-- The options at the front of some arguments, and the arguments behind them. -/
def gather (known : List Switch) (given : Given) : List String → Except Misuse (Given × List String)
  | [] => .ok (given, [])
  | argument :: rest =>
    match sign known argument with
    | .word => .ok (given, argument :: rest)
    | .lastOption =>
      match rest with
      | [] => .ok (given, [])
      | next :: _ => .error (.unexpected next)
    | .help => .error .helpWanted
    | .unknown => .error (.unknownOption argument)
    | .option s attached =>
      match s.kind, attached with
      | .nothing, some _ => .error (.unexpected argument)
      | .nothing, none => do gather known (← note given s "") rest
      | _, some value => do gather known (← note given s value) rest
      | _, none =>
        match rest with
        | [] => .error (.missingValue s.name)
        | value :: rest =>
          if isDashed value then .error (.missingValue s.name)
          else do gather known (← note given s value) rest

/-- The options that some arguments consist of. -/
def gatherAll (known : List Switch) (arguments : List String) : Except Misuse Given := do
  match ← gather known [] arguments with
  | (given, []) => return given
  | (_, argument :: _) => .error (.unexpected argument)

/-- The count given for an option. -/
def Given.count? (given : Given) (name : String) : Option Nat :=
  (given.lookup name).bind Decimal.count?

/-- The text given for an option that has to be given. -/
def Given.required (given : Given) (name : String) : Except Misuse String :=
  match given.lookup name with
  | some value => .ok value
  | none => .error (.missingOption name)

end Switch

end LSystem
