import CellMachine.Journal.Record
import CellMachine.Sink.Buffered
import CellMachine.Text.Blank

/-!
# Console sessions

A session runs a machine against lines of text. Outputs are written one to a
line. Whenever the machine waits, a line is asked for and read as a number;
blank lines are passed over. With a prompt, a line that is no number is answered
and the question repeated; without one it ends the session.
-/

namespace CellMachine

/-- Why no value could be had. -/
inductive InputError where
  | exhausted
  /-- The lines could not be read to their end. -/
  | unreadable (reason : String)
  | notANumber (cause : ReadingError)
deriving DecidableEq, Inhabited

/-- The wording of an input error. -/
def InputError.message : InputError → String
  | exhausted => "input exhausted while machine is waiting"
  | unreadable reason => "read input: " ++ reason
  | notANumber cause => "read input: " ++ cause.message

/-- Why a session ended before the machine halted. -/
inductive SessionError where
  | machine (fault : MachineFault)
  | output (cause : WriteError)
  | input (pc : Int) (cause : InputError)
deriving DecidableEq, Inhabited

/-- The wording of a session error. -/
def SessionError.message : SessionError → String
  | machine fault => fault.message
  | output cause => cause.message
  | input pc cause => "pc=" ++ Numeral.write pc ++ ": " ++ cause.message

/-- Lines to be read, and what keeps more from being read, if anything but
their end does. -/
structure Lines where
  lines : List Text
  failure : Option String
deriving Inhabited

namespace Lines

/-- The least number of bytes of a line that is too long to be read. -/
def tooLong : Nat := 65536

/-- The number of bytes of a text. -/
def byteSize (t : Text) : Nat :=
  t.foldl (fun n g => n + g.width) 0

/-- The lines of a text. The last one need not be ended. A line that is too
long cannot be read, nor can those after it. -/
def ofText (t : Text) (failure : Option String) : Lines :=
  let parts := t.split (·.is '\n')
  let parts := if parts.getLast? = some [] then parts.dropLast else parts
  let readable := parts.takeWhile fun part => byteSize part < tooLong
  if readable.length = parts.length then ⟨parts, failure⟩
  else ⟨readable, some "bufio.Scanner: token too long"⟩

end Lines

/-- What a session does next. -/
inductive Stage where
  | run
  | ask
  | finished (error : Option SessionError)
deriving DecidableEq, Inhabited

/-- A machine with the texts written so far. -/
structure Session (σ : Type) where
  machine : Machine
  pipes : PipeTable
  output : Buffered σ
  /-- What has been written to the prompt, if there is one. -/
  prompt : Option String
  stage : Stage

namespace Session

variable {σ : Type} [Destination σ]

/-- A session about to run its machine. -/
def start (machine : Machine) (pipes : PipeTable) (output : Buffered σ) (prompting : Bool) :
    Session σ :=
  ⟨machine, pipes, output, if prompting then some "" else none, .run⟩

/-- Writes to the prompt if there is one. -/
def say (s : Session σ) (text : String) : Session σ :=
  { s with prompt := s.prompt.map (· ++ text) }

/-- Asks for a line. -/
def ask (s : Session σ) : Session σ :=
  { s.say "? " with stage := .ask }

/-- Writes the machine's outputs and takes them from its pipe. -/
def printOutputs (s : Session σ) : Session σ :=
  let (values, pipes) := s.pipes.popAll s.machine.output
  { s with
    output := values.foldl (fun out v => out.writeString (Numeral.writeCell v ++ "\n")) s.output
    pipes }

/-- Decides what comes after a run of the machine. -/
def settle (s : Session σ) : Session σ :=
  let s := s.printOutputs
  let s := { s with output := s.output.flush }
  match s.machine.error? with
  | some fault => { s with stage := .finished (some (.machine fault)) }
  | none =>
    match s.output.error with
    | some cause => { s with stage := .finished (some (.output (.failed cause))) }
    | none => if s.machine.status = .halted then { s with stage := .finished none } else s.ask

/-- Runs the machine. -/
def resume (fuel : Nat) (s : Session σ) : Option (Session σ) :=
  (s.machine.run fuel s.pipes).map fun (machine, pipes) => settle { s with machine, pipes }

/-- Ends the session for want of a value. -/
def refuse (s : Session σ) (cause : InputError) : Session σ :=
  { s with stage := .finished (some (.input s.machine.pc cause)) }

/-- Takes a line that has been asked for. -/
def accept (s : Session σ) (line : Text) : Session σ :=
  let word := line.trim
  if word.isEmpty then s.ask
  else
    match Numeral.read .index word with
    | .ok v => { s with pipes := s.pipes.push s.machine.input v, stage := .run }
    | .error cause =>
      if s.prompt.isSome then (s.say ("not a number: " ++ Quoted.quote word ++ "\n")).ask
      else s.refuse (.notANumber cause)

/-- Goes on with lines, each of which has been asked for. -/
def converse (fuel : Nat) : List Text → Session σ → Option (Session σ)
  | [], s => some s
  | line :: rest, s =>
    let s := s.accept line
    match s.stage with
    | .finished _ => some s
    | .ask => converse fuel rest s
    | .run =>
      match s.resume fuel with
      | none => none
      | some s =>
        match s.stage with
        | .finished _ => some s
        | _ => converse fuel rest s

/-- Ends a session that still asks when there are no more lines. -/
def close (s : Session σ) (failure : Option String) : Session σ :=
  match s.stage with
  | .finished _ => s
  | _ => s.refuse (failure.elim .exhausted .unreadable)

/-- A whole session. -/
def serve (fuel : Nat) (s : Session σ) (input : Lines) : Option (Session σ) :=
  match s.resume fuel with
  | none => none
  | some s =>
    match s.stage with
    | .finished _ => some s
    | _ => (s.converse fuel input.lines).map (·.close input.failure)

/-- What ended a session. -/
def error? (s : Session σ) : Option SessionError :=
  match s.stage with
  | .finished e => e
  | _ => none

/-! ## The journal of a session -/

/-- The entries of lines, added to earlier ones. -/
def converseEntries (fuel : Nat) : List Text → Session σ → Array Entry → Array Entry
  | [], _, entries => entries
  | line :: rest, s, entries =>
    let s := s.accept line
    match s.stage with
    | .finished _ => entries
    | .ask => converseEntries fuel rest s entries
    | .run =>
      let entries := s.machine.runEntries fuel s.pipes entries
      match s.resume fuel with
      | none => entries
      | some s =>
        match s.stage with
        | .finished _ => entries
        | _ => converseEntries fuel rest s entries

/-- The entries of a whole session. -/
def serveEntries (fuel : Nat) (s : Session σ) (input : Lines) : Array Entry :=
  let entries := s.machine.runEntries fuel s.pipes #[]
  match s.resume fuel with
  | none => entries
  | some s =>
    match s.stage with
    | .finished _ => entries
    | _ => s.converseEntries fuel input.lines entries

end Session

end CellMachine
