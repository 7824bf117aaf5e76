import CellMachine.Settings.Value
import CellMachine.Text.Csv

/-!
# Flags

A flag is written `--name value` or `--name=value`, and some also with a single
letter, `-n value`, `-nvalue` or `-n=value`. A flag for a truth value can stand
alone. Everything else, and everything after `--`, is an argument.
-/

namespace CellMachine.Command

/-- What a flag's value is. -/
inductive FlagKind where
  | text
  | truth
  | count
  /-- A record of comma-separated values; repetition adds to it. -/
  | items
deriving DecidableEq, Inhabited

/-- A flag that a command knows. -/
structure Flag where
  name : String
  letter : Option Char
  kind : FlagKind
  /-- The value that stands where none is given. -/
  initial : String
deriving DecidableEq, Inhabited

/-- Why flags cannot be read. -/
inductive FlagError where
  | unknown (name : String)
  | unknownLetter (letter : Char) (group : String)
  | noValue (argument : String)
  | letterNoValue (letter : Char) (group : String)
  | malformed (argument : String)
  | badValue (value : String) (flag : Flag) (reason : String)
deriving DecidableEq, Inhabited

/-- How a flag is written in messages. -/
def Flag.title (f : Flag) : String :=
  (f.letter.elim "" fun c => "-" ++ String.singleton c ++ ", ") ++ "--" ++ f.name

/-- The wording of a flag error. -/
def FlagError.message : FlagError → String
  | unknown name => "unknown flag: --" ++ name
  | unknownLetter letter group =>
    "unknown shorthand flag: " ++ Quoted.quoteChar letter ++ " in -" ++ group
  | noValue argument => "flag needs an argument: " ++ argument
  | letterNoValue letter group =>
    "flag needs an argument: " ++ Quoted.quoteChar letter ++ " in -" ++ group
  | malformed argument => "bad flag syntax: " ++ argument
  | badValue value flag reason =>
    "invalid argument " ++ Quoted.quoteString value ++ " for " ++
      Quoted.quoteString flag.title ++ " flag: " ++ reason

/-- Flags and arguments that have been read: flags with their values, arguments
in order. -/
structure Given where
  values : List (String × ConfigValue)
  arguments : List String
deriving Inhabited

namespace Given

/-- The value given for a flag. -/
def value? (g : Given) (name : String) : Option ConfigValue :=
  (g.values.find? (·.1 == name)).map (·.2)

/-- Sets the value of a flag. -/
def set (g : Given) (name : String) (v : ConfigValue) : Given :=
  { g with values := (name, v) :: g.values.filter (·.1 != name) }

/-- Adds an argument. -/
def addArgument (g : Given) (s : String) : Given :=
  { g with arguments := g.arguments ++ [s] }

end Given

/-- The value of a flag read from a text, given its earlier value. -/
def Flag.read (f : Flag) (earlier : Option ConfigValue) (s : String) :
    Except FlagError ConfigValue :=
  let fail := fun (reading : Reading) (fault : NumeralFault) =>
    Except.error (FlagError.badValue s f (ReadingError.message ⟨reading, Text.ofString s, fault⟩))
  match f.kind with
  | .text => .ok (.text s)
  | .truth =>
    match truthOfWord? s with
    | some b => .ok (.truth b)
    | none => fail .truth .malformed
  | .count =>
    match Count.read s with
    | .ok n => .ok (.integer n)
    | .error fault => fail .cell fault
  | .items =>
    match Csv.read s with
    | .error e => .error (.badValue s f e.message)
    | .ok fields =>
      let before := match earlier with
        | some (.list items) => items
        | _ => []
      .ok (.list (before ++ fields.map .text))

/-- Gives a flag a value. -/
def Given.assign (g : Given) (f : Flag) (s : String) : Except FlagError Given :=
  (f.read (g.value? f.name) s).map (g.set f.name)

/-- A text cut at its first equals sign. -/
def cutEquals (s : String) : String × Option String :=
  let cs := s.toList
  let left := cs.takeWhile (· != '=')
  match cs.drop left.length with
  | _ :: right => (String.ofList left, some (String.ofList right))
  | [] => (s, none)

/-- Reads a flag written with its name. The result has the arguments left. -/
def readLong (flags : List Flag) (g : Given) (argument : String) (rest : List String) :
    Except FlagError (Given × List String) :=
  let body := (argument.drop 2).toString
  if body.startsWith "-" || body.startsWith "=" then .error (.malformed argument)
  else
    let (name, value) := cutEquals body
    match flags.find? (·.name == name) with
    | none => .error (.unknown name)
    | some f =>
      match value with
      | some v => (g.assign f v).map (·, rest)
      | none =>
        if f.kind = .truth then (g.assign f "true").map (·, rest)
        else
          match rest with
          | v :: rest => (g.assign f v).map (·, rest)
          | [] => .error (.noValue argument)

/-- Reads a group of flags written with their letters. What follows `test.` is not
for the command and is passed over. -/
def readGroup (flags : List Flag) :
    Nat → Given → List Char → List String → Except FlagError (Given × List String)
  | 0, g, _, rest => .ok (g, rest)
  | _ + 1, g, [], rest => .ok (g, rest)
  | _ + 1, g, 't' :: 'e' :: 's' :: 't' :: '.' :: _, rest => .ok (g, rest)
  | fuel + 1, g, c :: more, rest =>
    match flags.find? (·.letter == some c) with
    | none => .error (.unknownLetter (Glyph.leadByte c) (String.ofList (c :: more)))
    | some f =>
      match more with
      | '=' :: v :: vs => (g.assign f (String.ofList (v :: vs))).map (·, rest)
      | more =>
        if f.kind = .truth then
          match g.assign f "true" with
          | .error e => .error e
          | .ok g => readGroup flags fuel g more rest
        else if !more.isEmpty then (g.assign f (String.ofList more)).map (·, rest)
        else
          match rest with
          | v :: rest => (g.assign f v).map (·, rest)
          | [] => .error (.letterNoValue c (String.singleton c))

/-- Reads flags and arguments. Every turn uses up an argument. -/
def readFlags (flags : List Flag) : Nat → Given → List String → Except FlagError Given
  | 0, g, _ => .ok g
  | _ + 1, g, [] => .ok g
  | fuel + 1, g, s :: rest =>
    if s = "--" then .ok (rest.foldl Given.addArgument g)
    else if s.startsWith "--" then
      match readLong flags g s rest with
      | .error e => .error e
      | .ok (g, rest) => readFlags flags fuel g rest
    else if s.startsWith "-" && s ≠ "-" then
      match readGroup flags (s.length + 1) g (s.toList.drop 1) rest with
      | .error e => .error e
      | .ok (g, rest) => readFlags flags fuel g rest
    else readFlags flags fuel (g.addArgument s) rest

/-- Reads flags and arguments from the start. -/
def Given.ofArguments (flags : List Flag) (arguments : List String) : Except FlagError Given :=
  readFlags flags (arguments.length + 1) ⟨[], []⟩ arguments

end CellMachine.Command
