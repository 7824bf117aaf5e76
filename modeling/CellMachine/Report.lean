import CellMachine.Amplifier
import CellMachine.Sink.Basic
import CellMachine.Yaml.Writer

/-!
# Reports of an amplifier search

The result of a search as a few lines of text, or as a document with one key for
each of its parts.
-/

namespace CellMachine

/-- The result of a search. -/
structure Report where
  program : String
  feedback : Bool
  phases : List Cell
  signal : Cell
  elapsed : String
deriving DecidableEq, Inhabited

/-- Why a report is not written. -/
inductive ReportError where
  | unknownFormat (name : String)
  | text (cause : WriteError)
  | document (cause : WriteError)
deriving DecidableEq, Inhabited

/-- The wording of a report error. -/
def ReportError.message : ReportError → String
  | unknownFormat name => "unknown report format " ++ Quoted.quoteString name
  | text cause => "write failed: " ++ cause.message
  | document cause => "encode report: yaml: write error: " ++ cause.message

namespace Report

/-- The forms of a report. -/
inductive Format where
  | text
  | document
deriving DecidableEq, Inhabited

/-- The form with a name. -/
def Format.ofName (name : String) : Except ReportError Format :=
  match name with
  | "text" => .ok .text
  | "yaml" => .ok .document
  | _ => .error (.unknownFormat name)

/-- A report as text. -/
def text (r : Report) : String :=
  "phases: " ++ bracketedCells r.phases ++ "\nsignal: " ++ Numeral.writeCell r.signal ++
    "\nelapsed: " ++ r.elapsed ++ "\n"

/-- The phases in a document: one line for each, or an empty list. -/
def phaseLines (phases : List Cell) : String :=
  if phases.isEmpty then "phases: []\n"
  else "phases:\n" ++ String.join (phases.map fun v => "  - " ++ Numeral.writeCell v ++ "\n")

/-- A report as a document. -/
def document (r : Report) : String :=
  Yaml.entry "program" (Yaml.writeText r.program) ++
    Yaml.entry "feedback" (if r.feedback then "true" else "false") ++
    phaseLines r.phases ++
    Yaml.entry "signal" (Numeral.writeCell r.signal) ++
    Yaml.entry "elapsed" (Yaml.writeText r.elapsed)

/-- Writes a report in the form with the given name. -/
def write {σ : Type} [Destination σ] (r : Report) (format : String) (dest : σ) :
    σ × Option ReportError :=
  match Format.ofName format with
  | .error e => (dest, some e)
  | .ok .text =>
    let w := Destination.write dest r.text.toUTF8
    (w.dest, w.error.map .text)
  | .ok .document =>
    let w := Destination.write dest r.document.toUTF8
    (w.dest, w.error.map .document)

end Report

end CellMachine
