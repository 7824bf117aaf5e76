import CellMachine.Command.Flag
import CellMachine.Unicode.Lower

/-!
# Commands and their invocation

The commands, their flags, and how a list of arguments is taken apart: the first
argument that is neither a flag nor the value of one names the command, and the
others are its flags and arguments.
-/

namespace CellMachine.Command

/-- What can be asked for. -/
inductive Verb where
  | run
  | amp
  | disasm
  | asm
deriving DecidableEq, Inhabited

/-- The command with a name. -/
def Verb.ofName? : String → Option Verb
  | "run" => some .run
  | "amp" => some .amp
  | "disasm" => some .disasm
  | "asm" => some .asm
  | _ => none

/-- The flags of all commands. -/
def sharedFlags : List Flag :=
  [⟨"config", none, .text, ""⟩, ⟨"env-file", none, .text, ".env"⟩,
    ⟨"log-level", none, .text, "warn"⟩, ⟨"log-format", none, .text, "text"⟩,
    ⟨"log-file", none, .text, ""⟩]

/-- The flag that asks for help. -/
def helpFlag : Flag :=
  ⟨"help", some 'h', .truth, "false"⟩

/-- The flags of a command's own. -/
def Verb.ownFlags : Verb → List Flag
  | .run => [⟨"input", none, .text, ""⟩, ⟨"patch", none, .items, ""⟩, ⟨"dump", none, .truth, "false"⟩]
  | .amp =>
    [⟨"feedback", none, .truth, "false"⟩, ⟨"phases", none, .text, ""⟩,
      ⟨"format", none, .text, "text"⟩, ⟨"max-rounds", none, .count, "0"⟩]
  | .disasm => []
  | .asm => [⟨"output", some 'o', .text, ""⟩]

/-- All flags of a command that have a setting. -/
def Verb.flags (v : Verb) : List Flag :=
  v.ownFlags ++ sharedFlags

/-- Why an invocation is refused. -/
inductive UsageError where
  | flag (cause : FlagError)
  | unknownCommand (name : String) (similar : List String)
  | argumentCount (count : Nat)
deriving DecidableEq, Inhabited

/-- The wording of a usage error. -/
def UsageError.message : UsageError → String
  | flag cause => cause.message
  | unknownCommand name similar =>
    "unknown command " ++ Quoted.quoteString name ++ " for \"intcode\"" ++
      if similar.isEmpty then ""
      else "\n\nDid you mean this?\n" ++ String.join (similar.map fun s => "\t" ++ s ++ "\n")
  | argumentCount count => "accepts 1 arg(s), received " ++ Numeral.write count

/-! ## Similar names -/

/-- The row of distances after one more byte of the first text: `previous` is
the row before, `left` the distance just found and `diagonal` the one above it
to the left. -/
def distanceRow (a : UInt8) : List UInt8 → List Nat → Nat → Nat → List Nat
  | b :: bs, up :: ups, left, diagonal =>
    let d := if a = b then diagonal else 1 + min (min up left) diagonal
    d :: distanceRow a bs ups d up
  | _, _, _, _ => []

/-- The least number of bytes to insert, delete or replace to get from one text
to the other. -/
def distance (a b : String) : Nat :=
  let bs := b.toUTF8.toList
  let first := List.range (bs.length + 1)
  let last := a.toUTF8.toList.foldl
    (fun row x =>
      match row with
      | corner :: ups => (corner + 1) :: distanceRow x bs ups (corner + 1) corner
      | [] => [])
    first
  last.getLastD 0

/-- The names that a mistyped one can stand for. -/
def similarNames (name : String) : List String :=
  ["amp", "asm", "completion", "disasm", "run"].filter fun known =>
    distance (Unicode.lowerText name) known ≤ 2 || known.startsWith (Unicode.lowerText name)

/-! ## Finding the command -/

/-- Whether an argument is a flag whose value is the argument after it, as far
as the shared flags tell. -/
def takesNext (s : String) : Bool :=
  !s.contains '=' &&
    ((s.startsWith "--" && !sharedFlags.any fun f => f.name == (s.drop 2).toString && f.kind == .truth) ||
      (s.startsWith "-" && s.utf8ByteSize == 2))

/-- The first argument that is neither a flag nor the value of one. -/
def firstWord : List String → Option String
  | [] => none
  | s :: rest =>
    if s = "--" then none
    else if takesNext s then
      match rest with
      | _ :: rest@(_ :: _) => firstWord rest
      | _ => none
    else if s ≠ "" && !s.startsWith "-" then some s
    else firstWord rest

/-- The arguments without the one that names the command. -/
def withoutWord (word : String) : List String → List String
  | [] => []
  | s :: rest =>
    if s = "--" then s :: rest
    else if takesNext s then
      match rest with
      | v :: rest => s :: v :: withoutWord word rest
      | [] => [s]
    else if s = word then rest
    else s :: withoutWord word rest

/-- What an invocation asks for. -/
inductive Invocation where
  | help
  | command (verb : Verb) (given : Given) (file : String)
deriving Inhabited

/-- Whether help is asked for. -/
def asksHelp (g : Given) : Bool :=
  (g.value? "help").any ConfigValue.toTruth

/-- Takes the arguments of an invocation apart. -/
def Invocation.ofArguments (arguments : List String) : Except UsageError Invocation :=
  match firstWord arguments with
  | none =>
    match Given.ofArguments (helpFlag :: sharedFlags) arguments with
    | .error e => .error (.flag e)
    | .ok _ => .ok .help
  | some word =>
    match Verb.ofName? word with
    | none =>
      if word = "help" ∨ word = "completion" then .ok .help
      else .error (.unknownCommand word (similarNames word))
    | some verb =>
      match Given.ofArguments (helpFlag :: verb.flags) (withoutWord word arguments) with
      | .error e => .error (.flag e)
      | .ok g =>
        if asksHelp g then .ok .help
        else
          match g.arguments with
          | [file] => .ok (.command verb g file)
          | arguments => .error (.argumentCount arguments.length)

end CellMachine.Command
