import CellMachine.Assembly.Diagnostic
import CellMachine.Command.Invocation
import CellMachine.Console
import CellMachine.Host
import CellMachine.Patch
import CellMachine.Report
import CellMachine.Settings.Dotenv

/-!
# Failures of commands

Everything that can end a command, with the words in which it is told.
-/

namespace CellMachine.Command

/-- Why a program was not saved. -/
inductive SaveError where
  | create (cause : FileError)
  /-- The text of the program was not taken. -/
  | body (cause : WriteError)
  /-- The last part of the text was not passed on. -/
  | finish (cause : WriteError)
deriving DecidableEq, Inhabited

/-- The wording of a save error. -/
def SaveError.message : SaveError → String
  | create cause => "create failed: " ++ cause.message
  | body cause => "save failed: " ++ cause.message
  | finish cause => "write failed: " ++ cause.message

/-- Why a command ends early. -/
inductive Failure where
  | usage (cause : UsageError)
  /-- A file that is needed cannot be read; `context` says for what. -/
  | file (context : String) (cause : FileError)
  | environment (file : String) (cause : Dotenv.Error)
  | config (context text : String)
  | level (name : String)
  | format (name : String)
  | cells (context : String) (cause : ImageError)
  | patch (cause : PatchError)
  | patchAddress (cause : BadAddress)
  | setup (cause : SetupError)
  | session (cause : SessionError)
  | amplifier (cause : AmplifierError)
  | report (cause : ReportError)
  | refused (cause : Assembly.Refusal)
  | output (cause : WriteError)
  | save (cause : SaveError)
  /-- The program was not run to its end. -/
  | unfinished
deriving DecidableEq, Inhabited

/-- The wording of a failure. -/
def Failure.message : Failure → String
  | usage cause => cause.message
  | file context cause => context ++ ": " ++ cause.message
  | environment path cause => "load " ++ path ++ ": " ++ cause.message
  | config context text => context ++ ": " ++ text
  | level name => "log level: not a valid logrus Level: " ++ Quoted.quoteString name
  | format name => "unknown log format " ++ Quoted.quoteString name
  | cells context cause => context ++ ": " ++ cause.message
  | patch cause => cause.message
  | patchAddress cause => "patch: " ++ (Fault.address none cause).message
  | setup cause => cause.message
  | session cause => cause.message
  | amplifier cause => cause.message
  | report cause => cause.message
  | refused cause => cause.message
  | output cause => cause.message
  | save cause => cause.message
  | unfinished => "out of steps"

end CellMachine.Command
