import CellMachine.Assembly.Assembler
import CellMachine.Command.Configuration
import CellMachine.Listing

/-!
# Jobs

What a command comes down to once its settings and files have been read: a
session with a machine, an amplifier search, a listing, or an assembled program.
`prepare` finds the job; `perform` does it, with standard input given as lines
and standard output as a sink.
-/

namespace CellMachine.Command

/-- A prepared command. -/
inductive Job where
  | session (machine : Machine) (pipes : PipeTable) (dump : Bool)
  | search (program : String) (memory : Memory) (phases : List Cell) (feedback : Bool)
      (limit : Int) (format : String)
  | listing (memory : Memory)
  /-- A program to be written to a file, or else to standard output. -/
  | program (memory : Memory) (file : Option String)
deriving Inhabited

variable {m : Type → Type} [Monad m] [Host m]

/-- The program in a file. -/
def loadProgram (path : String) : m (Except Failure Memory) := do
  match ← Host.readFile path with
  | .error e => return .error (.file "Load" e)
  | .ok content =>
    match Image.parse (Text.ofByteArray content) with
    | .ok memory => return .ok memory
    | .error e => return .error (.cells ("Load " ++ path) e)

/-- The job of running a patched program on given input. -/
def sessionJob (path : String) (memory : Memory) (input : List Cell) (patches : List Patch)
    (dump : Bool) : Except Failure Job :=
  match Patch.applyAll memory patches with
  | .error e => .error (.patchAddress e)
  | .ok memory =>
    let start : Rig := ⟨#[], ⟨#[.ofList input]⟩⟩
    match start.install memory [.input (some 0), .name path] false with
    | .error e => .error (.setup e)
    | .ok (rig, k) =>
      match rig.machine? k with
      | some machine => .ok (.session machine rig.pipes dump)
      | none => .error (.setup .emptyMemory)

/-- Prepares a run. -/
def prepareRun (s : Settings) (path : String) : m (Except Failure Job) := do
  match parseCells (Text.ofString (s.text "input")) with
  | .error e => return .error (.cells "--input" e)
  | .ok input =>
    match Patch.parse ((s.value "patch").toItems.map Text.ofString) with
    | .error e => return .error (.patch e)
    | .ok patches =>
      match ← loadProgram path with
      | .error e => return .error e
      | .ok memory => return sessionJob path memory input patches (s.value "dump").toTruth

/-- The phases that are tried if none are given. -/
def usualPhases (feedback : Bool) : List Cell :=
  if feedback then [5, 6, 7, 8, 9] else [0, 1, 2, 3, 4]

/-- Prepares a search. -/
def prepareSearch (s : Settings) (path : String) : m (Except Failure Job) := do
  let feedback := (s.value "feedback").toTruth
  let format := s.text "format"
  match parseCells (Text.ofString (s.text "phases")) with
  | .error e => return .error (.cells "--phases" e)
  | .ok phases =>
    let phases := if phases.isEmpty then usualPhases feedback else phases
    match Report.Format.ofName format with
    | .error e => return .error (.report e)
    | .ok _ =>
      match ← loadProgram path with
      | .error e => return .error e
      | .ok memory =>
        return .ok (.search path memory phases feedback (s.value "max-rounds").toCount format)

/-- Prepares a listing. -/
def prepareListing (path : String) : m (Except Failure Job) := do
  match ← loadProgram path with
  | .error e => return .error e
  | .ok memory => return .ok (.listing memory)

/-- Assembles a source file. A file that opens but cannot be read is an error of
the source. -/
def prepareProgram (s : Settings) (path : String) : m (Except Failure Job) := do
  let source ← Host.readFile path
  let assembled : Except Failure Memory := match source with
    | .error e =>
      if e.action = "open" then .error (.file "open source" e)
      else (Assembly.assemble path [] (some e.message)).mapError .refused
    | .ok content => (Assembly.assemble path (Text.ofByteArray content) none).mapError .refused
  let file := s.text "output"
  return assembled.map fun memory => .program memory (if file.isEmpty then none else some file)

/-- Finds the job of a command. -/
def prepare (verb : Verb) (s : Settings) (path : String) : m (Except Failure Job) :=
  match verb with
  | .run => prepareRun s path
  | .amp => prepareSearch s path
  | .disasm => prepareListing path
  | .asm => prepareProgram s path

/-! ## Doing a job -/

/-- What a job leaves behind: standard output, the journal, and the failure that
ended it. -/
structure Done where
  output : Sink
  entries : List Entry
  failure : Option Failure

/-- Ends a session: writes the memory if that is asked for, and what is left in
the buffer. -/
def finishSession (s : Session Sink) (dump : Bool) : Sink × Option Failure :=
  let (out, error) := if dump then s.machine.memory.dump s.output else (s.output, none)
  match error with
  | some e => (out.dest, some (.output e))
  | none =>
    let out := (if dump then out.writeString "\n" else out).flush
    (out.dest, out.error.map fun e => .output (.failed e))

/-- Runs a session on lines. -/
def performSession (fuel : Nat) (start : Session Sink) (dump : Bool) (input : Lines)
    (watched : Bool) : Done :=
  let entries := if watched then (start.serveEntries fuel input).toList else []
  match start.serve fuel input with
  | none => ⟨start.output.dest, entries, some .unfinished⟩
  | some s =>
    match s.error? with
    | some e =>
      let m := s.machine
      ⟨s.output.dest, entries ++ [⟨none, false, .state m.pc m.status m.count⟩], some (.session e)⟩
    | none =>
      let (out, failure) := finishSession s dump
      ⟨out, entries, failure⟩

/-- The journal of a search, added to earlier entries: that of each network up
to the first that fails. -/
def searchEntries (fuel : Nat) (memory : Memory) (feedback : Bool)
    (settings : List NetworkSetting) : List (List Cell) → Array Entry → Array Entry
  | [], entries => entries
  | phases :: rest, entries =>
    match Network.build .empty memory phases feedback settings with
    | .error _ => entries
    | .ok (rig, nw) =>
      let entries := entries ++ nw.runEntries fuel (nw.seed rig 0)
      match Amplifier.amplify fuel memory phases feedback settings with
      | some (.ok _) => searchEntries fuel memory feedback settings rest entries
      | _ => entries

/-- Reports what a search has found. -/
def finishSearch (program : String) (feedback : Bool) (format elapsed : String) (output : Sink) :
    Option (Except AmplifierError (List Cell × Cell)) → Sink × Option Failure
  | none => (output, some .unfinished)
  | some (.error e) => (output, some (.amplifier e))
  | some (.ok (best, signal)) =>
    let report : Report := ⟨program, feedback, best, signal, elapsed⟩
    let (output, error) := report.write format output
    (output, error.map .report)

/-- Writes a listing through a buffer. -/
def performListing (memory : Memory) (output : Sink) : Done :=
  let (out, error) := Listing.write memory 0 (Buffered.new output)
  match error with
  | some e => ⟨out.dest, [], some (.output e)⟩
  | none =>
    let out := out.flush
    ⟨out.dest, [], out.error.map .output⟩

/-- Writes a program and the end of its line. -/
def printProgram (memory : Memory) (output : Sink) : Done :=
  let (out, error) := memory.dump output
  match error with
  | some e => ⟨out, [], some (.output e)⟩
  | none =>
    let w := out.write "\n".toUTF8
    ⟨w.dest, [], w.error.map fun e => .output (.failed e)⟩

/-- Writes a program to a file through a buffer. -/
def saveProgram (memory : Memory) (file : Sink) : Sink × Option SaveError :=
  let (out, error) := memory.dump (Buffered.new file)
  match error with
  | some e => (out.flush.dest, some (.body e))
  | none =>
    let w := out.write "\n".toUTF8
    let out := w.dest.flush
    match w.error with
    | some e => (out.dest, some (.body e))
    | none => (out.dest, out.error.map .finish)

/-- Does a job other than saving a program. `elapsed` is the time that a search
reports, and the journal is made only if it is watched. -/
def perform (fuel : Nat) (job : Job) (input : Lines) (output : Sink) (elapsed : String)
    (watched : Bool) : Done :=
  match job with
  | .session machine pipes dump =>
    performSession fuel (Session.start machine pipes (Buffered.new output) false) dump input watched
  | .search program memory phases feedback limit format =>
    let settings := [NetworkSetting.limit limit]
    let entries := if watched then
        (searchEntries fuel memory feedback settings (Amplifier.permutations phases) #[]).toList
      else []
    let found := Amplifier.bestPhases fuel memory phases feedback settings
    let (output, failure) := finishSearch program feedback format elapsed output found
    ⟨output, entries, failure⟩
  | .listing memory => performListing memory output
  | .program memory _ => printProgram memory output

end CellMachine.Command
