import CellMachine.Command.Simulation

/-!
# The command line

Reads the arguments, does the job they ask for against the real files, input and
output, and tells a failure on standard error.
-/

namespace CellMachine.CommandLine

open CellMachine.Command

/-- A step count that no run reaches. -/
def fuel : Nat := 4611686018427387904

/-- The error of a file that cannot be had. -/
def fileError (path : String) : IO.Error → FileError
  | .noFileOrDirectory .. => ⟨"open", path, .absent⟩
  | .inappropriateType .. => ⟨"read", path, .isDirectory⟩
  | .resourceExhausted .. => ⟨"write", path, .noSpace⟩
  | e => ⟨"open", path, .other (toString e)⟩

instance : Host IO where
  environment? name := IO.getEnv name
  readFile path := do
    try
      return .ok (← IO.FS.readBinFile path)
    catch e => return .error (fileError path e)
  isFile path := do
    try
      let _ ← IO.FS.readBinFile path
      return true
    catch _ => return false

/-- The time shown with journal entries: that since the start of the system's
clock, in milliseconds. -/
def now : IO String := do
  return toString (← IO.monoMsNow)

/-- Adds text to the end of a file. Directories that lead to it are made. -/
def append (path text : String) : IO Unit := do
  IO.FS.createDirAll (pathOf (parentOf path))
  let h ← IO.FS.Handle.mk path .append
  h.putStr text

/-- Writes journal entries where the plan says. Each entry that a file does not take is
complained of. -/
def tell (plan : JournalPlan) (entries : List Entry) : IO Unit := do
  let told := Journal.told plan.level entries
  if told.isEmpty then return
  let text := Journal.render plan.format (← now) told
  match plan.file with
  | none => (← IO.getStderr).putStr text
  | some path =>
    try
      append path text
    catch e =>
      let complaint := "Failed to write to log, " ++ (fileError path e).message
      told.forM fun _ => IO.eprintln complaint

/-- Prints what a sink has collected and empties it. -/
def printSink (s : Sink) : IO Sink := do
  let out ← IO.getStdout
  out.write s.content
  out.flush
  return { s with content := .empty }

/-- Runs the machine of a session and prints its outputs. -/
def resume (plan : JournalPlan) (s : Session Sink) : IO (Session Sink) := do
  if plan.level.tells .debug then
    tell plan (s.machine.runEntries fuel s.pipes #[]).toList
  match s.resume fuel with
  | none => return s
  | some s => return { s with output := { s.output with dest := ← printSink s.output.dest } }

/-- Goes on with a session until it ends, reading a line whenever it asks. -/
partial def converse (plan : JournalPlan) (s : Session Sink) : IO (Session Sink) := do
  match s.stage with
  | .finished _ => return s
  | .run => converse plan (← resume plan s)
  | .ask =>
    let line ← (← IO.getStdin).getLine
    if line.isEmpty then return s.close none
    else converse plan (s.accept (Text.ofString line))

/-- Runs a session to its end. -/
def runSession (plan : JournalPlan) (s : Session Sink) (dump : Bool) : IO (Option Failure) := do
  let s ← converse plan s
  match s.error? with
  | some e =>
    let m := s.machine
    tell plan [⟨none, false, .state m.pc m.status m.count⟩]
    return some (.session e)
  | none =>
    let (out, failure) := finishSession s dump
    let _ ← printSink out
    return failure

/-- Saves a program. -/
def save (memory : Memory) (path : String) : IO (Option Failure) := do
  let (file, _) := saveProgram memory .unbounded
  try
    IO.FS.writeBinFile path file.content
    return none
  catch e => return some (.save (.create { fileError path e with action := "open" }))

/-- Does a search and reports the time it took. -/
def search (plan : JournalPlan) (program : String) (memory : Memory) (phases : List Cell)
    (feedback : Bool) (limit : Int) (format : String) : IO (Option Failure) := do
  let settings := [NetworkSetting.limit limit]
  if plan.level.tells .debug then
    let orders := Amplifier.permutations phases
    tell plan (searchEntries fuel memory feedback settings orders #[]).toList
  let start ← IO.monoMsNow
  let found := Amplifier.bestPhases fuel memory phases feedback settings
  let finish ← if found.isNone then pure start else IO.monoMsNow
  let elapsed := toString (finish - start) ++ "ms"
  let (out, failure) := finishSearch program feedback format elapsed .unbounded found
  let _ ← printSink out
  return failure

/-- Does a job. -/
def perform (plan : JournalPlan) : Job → IO (Option Failure)
  | .session machine pipes dump =>
    runSession plan (Session.start machine pipes (Buffered.new .unbounded) false) dump
  | .search program memory phases feedback limit format =>
    search plan program memory phases feedback limit format
  | .program memory (some path) => save memory path
  | job => do
    let done := Command.perform fuel job ⟨[], none⟩ .unbounded "" false
    let _ ← printSink done.output
    return done.failure

/-- A short account of the commands. -/
def usage : String :=
  "Usage:\n" ++
  "  intcode run FILE [--input VALUES] [--patch ADDR=VALUE] [--dump]\n" ++
  "  intcode amp FILE [--feedback] [--phases VALUES] [--format text|yaml] [--max-rounds N]\n" ++
  "  intcode asm FILE [-o FILE]\n" ++
  "  intcode disasm FILE\n"

/-- Does what the arguments ask for. -/
def command (arguments : List String) : IO (Option Failure) := do
  match ← (jobFor arguments : IO _) with
  | .error e => return some e
  | .ok none =>
    IO.print usage
    return none
  | .ok (some (job, journal)) => perform journal job

end CellMachine.CommandLine

/-- The program. -/
def main (arguments : List String) : IO UInt32 := do
  match ← CellMachine.CommandLine.command arguments with
  | none => return 0
  | some failure =>
    IO.eprintln ("intcode: " ++ failure.message)
    return 1
