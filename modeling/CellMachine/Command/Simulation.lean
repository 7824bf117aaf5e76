import CellMachine.Command.Job

/-!
# Commands in surroundings held in memory

A whole command as a function of its arguments, its surroundings and its
standard input.
-/

namespace CellMachine.Command

/-- What a command leaves behind. -/
structure Aftermath where
  output : Sink
  /-- The journal that is told at once. -/
  journal : String
  /-- Complaints about entries that the journal's file does not take. -/
  complaints : String
  folder : Folder
  failure : Option Failure

/-! ## The file of a journal -/

/-- The place of a new file for a journal, in the folder with the directories that
lead to it. These are made by the path as it is written, and the file by where it
leads. -/
def newJournal (folder : Folder) (path : String) : Folder × Except String (List String) :=
  match folder.makeDirectories (parentOf path) with
  | .error e => (folder, .error ("can't make directories for new logfile: " ++ e.message))
  | .ok folder =>
    match folder.create path with
    | .error e => (folder, .error ("can't open new logfile: " ++ e.message))
    | .ok (place, _) => (folder, .ok place)

/-- The place of the file for a journal, or why there is none. A directory in its
place is moved away. -/
def journalPlace (folder : Folder) (path : String) : Folder × Except String (List String) :=
  match folder.find path, folder.place path with
  | .error .absent, _ => newJournal folder path
  | .error cause, _ =>
    (folder, .error ("error getting log file info: " ++ FileError.message ⟨"stat", path, cause⟩))
  | .ok .fullDevice, _ => (folder, .error (FileError.message ⟨"write", path, .noSpace⟩))
  | .ok .directory, .ok place =>
    if Folder.endsWithName path then (folder.remove place, .ok place)
    else (folder, .error ("can't rename log file: " ++ FileError.message ⟨"rename", path, .invalid⟩))
  | _, .ok place => (folder, .ok place)
  | _, .error cause => (folder, .error cause.message)

/-- The folder after text is added to the end of a file. -/
def appendFile (folder : Folder) (place : List String) (text : String) : Folder :=
  let before := match folder.node? place with
    | some (.file content) => content
    | _ => .empty
  folder.put place (.file (before ++ text.toUTF8))

/-- Writes the journal where the plan says: what is told at once, the complaints and
the folder. -/
def keepJournal (plan : JournalPlan) (time : String) (entries : List Entry) (folder : Folder) :
    String × String × Folder :=
  let told := Journal.told plan.level entries
  let text := Journal.render plan.format time told
  match plan.file with
  | none => (text, "", folder)
  | some path =>
    if told.isEmpty then ("", "", folder)
    else
      match journalPlace folder path with
      | (folder, .ok place) => ("", "", appendFile folder place text)
      | (folder, .error e) =>
        ("", String.join (told.map fun _ => "Failed to write to log, " ++ e ++ "\n"), folder)

/-! ## Jobs -/

/-- Saves a program in a folder. A file that cannot be written is removed. -/
def saveInFolder (memory : Memory) (path : String) (folder : Folder) :
    Folder × Option SaveError :=
  match folder.create path with
  | .error e => (folder, some (.create e))
  | .ok (place, file) =>
    match saveProgram memory file with
    | (_, some e) => (folder.remove place, some e)
    | (file, none) => (folder.put place (.file file.content), none)

/-- Does a job in a folder. -/
def performInFolder (fuel : Nat) (job : Job) (plan : JournalPlan) (input : Lines) (output : Sink)
    (elapsed time : String) (folder : Folder) : Aftermath :=
  match job with
  | .program memory (some path) =>
    let (folder, error) := saveInFolder memory path folder
    ⟨output, "", "", folder, error.map .save⟩
  | job =>
    let watched := plan.level.tells .debug
    let done := perform fuel job input output elapsed watched
    let (journal, complaints, folder) := keepJournal plan time done.entries folder
    ⟨done.output, journal, complaints, folder, done.failure⟩

/-- Reads the arguments, the settings and the files of a command. -/
def jobFor {m : Type → Type} [Monad m] [Host m] (arguments : List String) :
    m (Except Failure (Option (Job × JournalPlan))) := do
  match Invocation.ofArguments arguments with
  | .error e => return .error (.usage e)
  | .ok .help => return .ok none
  | .ok (.command verb given file) =>
    match ← configure verb given with
    | .error e => return .error e
    | .ok (settings, journal) =>
      match ← prepare verb settings file with
      | .error e => return .error e
      | .ok job => return .ok (some (job, journal))

/-- A whole command. -/
def simulate (fuel : Nat) (arguments : List String) (around : Surroundings) (input : Lines)
    (output : Sink) (elapsed time : String) : Aftermath :=
  match (jobFor arguments : Surrounded _).run around with
  | .error e => ⟨output, "", "", around.folder, some e⟩
  | .ok none => ⟨output, "", "", around.folder, none⟩
  | .ok (some (job, journal)) =>
    performInFolder fuel job journal input output elapsed time around.folder

end CellMachine.Command
