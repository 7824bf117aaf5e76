import CellMachine.Command.Failure
import CellMachine.Journal.Render
import CellMachine.Settings.Assignments
import CellMachine.Settings.Json
import CellMachine.Settings.Toml
import CellMachine.Settings.Yaml
import CellMachine.Unicode.Lower

/-!
# Configuration of commands

A setting comes from its flag if that is given, else from the environment
variable named for it, else from the configuration file, else it has its initial
value. An environment file adds variables that are not set; an empty variable
counts as unset.
-/

namespace CellMachine.Command

/-- Where settings come from. -/
structure Settings where
  flags : List Flag
  given : Given
  environment : List (String × String)
  config : List (String × ConfigValue)
deriving Inhabited

namespace Settings

/-- The environment variable of a setting. -/
def variableName (setting : String) : String :=
  "INTCODE_" ++ (setting.map fun c => if c = '-' then '_' else c).toUpper

/-- A list given by flags, as it reads back from its written form. -/
def rereadItems : ConfigValue → ConfigValue
  | .list items =>
    match Csv.read (Csv.write (items.map ConfigValue.toText)) with
    | .ok fields => .list (fields.map .text)
    | .error _ => .list []
  | v => v

/-- The value of a setting in the configuration file. The case of names does not
count, but a name with capitals has precedence over the same name without. -/
def configured? (s : Settings) (name : String) : Option ConfigValue :=
  let named := s.config.filter fun (key, _) => Unicode.lowerText key == name
  match (named.find? (·.1 != name)).orElse fun _ => named.head? with
  | some (_, .null) | none => none
  | some (_, v) => some v

/-- The value that a setting has where none is given. -/
def initial (s : Settings) (name : String) : ConfigValue :=
  ((s.flags.find? (·.name == name)).map fun f => ConfigValue.text f.initial).getD .null

/-- The value of a setting. -/
def value (s : Settings) (name : String) : ConfigValue :=
  match s.given.value? name with
  | some v => rereadItems v
  | none =>
    match s.environment.find? (·.1 == name) with
    | some (_, v) => .text v
    | none => (s.configured? name).getD (s.initial name)

/-- The value of a setting as a text. -/
def text (s : Settings) (name : String) : String :=
  (s.value name).toText

end Settings

variable {m : Type → Type} [Monad m] [Host m]

/-- The assignments whose values an environment can hold: the character zero ends a
value. -/
def settable (bindings : Dotenv.Bindings) : Dotenv.Bindings :=
  bindings.filter fun (name, _) =>
    !((Dotenv.value? bindings name).getD "").any (· == Char.ofNat 0)

/-- The variables that an environment file adds. The file may be missing unless
it is asked for. -/
def environmentFile (given : Given) : m (Except Failure Dotenv.Bindings) := do
  let path := ((given.value? "env-file").map ConfigValue.toText).getD ".env"
  if path.isEmpty then return .ok []
  match ← Host.readFile path with
  | .error e =>
    if e.cause = .absent && (given.value? "env-file").isNone then return .ok []
    else return .error (.file ("load " ++ path) e)
  | .ok content =>
    match Dotenv.read (Text.ofByteArray content).toString with
    | .error e => return .error (.environment path e)
    | .ok bindings => return .ok (settable bindings)

/-- The variables of settings, by setting. -/
def settingVariables (added : Dotenv.Bindings) : List Flag → m (List (String × String))
  | [] => return []
  | f :: rest => do
    let name := Settings.variableName f.name
    let value ← Host.environment? name
    let more ← settingVariables added rest
    match value.orElse fun _ => Dotenv.value? added name with
    | some v => return if v.isEmpty then more else (f.name, v) :: more
    | none => return more

/-- The endings of names of configuration files, in the order in which files are
looked for. -/
def configEndings : List String :=
  ["json", "toml", "yaml", "yml", "properties", "props", "prop", "hcl", "tfvars", "dotenv", "env",
    "ini"]

/-- The ending of a file name: what stands behind its last point. -/
def endingOf (path : String) : String :=
  let base := (path.splitOn "/").getLastD ""
  match base.splitOn "." with
  | _ :: rest@(_ :: _) => rest.getLastD ""
  | _ => ""

/-- The variables with the given names, and their values. -/
def valuesOf (added : Dotenv.Bindings) : List String → m Dotenv.Bindings
  | [] => return []
  | name :: rest => do
    let value ← Host.environment? name
    let more ← valuesOf added rest
    match value.orElse fun _ => Dotenv.value? added name with
    | some v => return (name, v) :: more
    | none => return more

/-- The settings in the text of a configuration file with the given ending, which can
refer to variables of the environment. -/
def parseConfig (environment : Dotenv.Bindings) (ending text : String) :
    Except String (List (String × ConfigValue)) :=
  match ending with
  | "yaml" | "yml" => (YamlConfig.read text).mapError Yaml.Fault.message
  | "json" => (JsonConfig.read text).mapError JsonConfig.Error.message
  | "toml" => (Toml.read text).mapError Toml.Fault.message
  | "env" | "dotenv" =>
    match Assignments.read environment text with
    | .ok bindings => .ok (bindings.reverse.map fun (name, v) => (name, .text v))
    | .error e => .error e.message
  | _ => .error "decoder not found for this format"

/-- The settings in a configuration file, where an environment file has added
variables. -/
def configFile (added : Dotenv.Bindings) (context path : String) :
    m (Except Failure (List (String × ConfigValue))) := do
  let ending := endingOf path
  if !configEndings.contains ending then
    return .error (.config context ("Unsupported Config Type " ++ Quoted.quoteString ending))
  match ← Host.readFile path with
  | .error e => return .error (.file context e)
  | .ok content =>
    let text := (Text.ofByteArray content).toString
    let environment ← valuesOf added (Assignments.referenced text.toList)
    match parseConfig environment ending text with
    | .ok members => return .ok members
    | .error text => return .error (.config context ("While parsing config: " ++ text))

/-- The first path that leads to a file. -/
def firstFile : List String → m (Option String)
  | [] => return none
  | path :: rest => do if ← Host.isFile path then return some path else firstFile rest

/-- The places where a configuration file is looked for. -/
def configPaths (home : Option String) : List String :=
  let names := configEndings.map (".intcode." ++ ·)
  (home.toList.flatMap fun dir => names.map (dir ++ "/" ++ ·)) ++ names

/-- The settings in the configuration file, if there is one. -/
def configuration (added : Dotenv.Bindings) (path : String) :
    m (Except Failure (List (String × ConfigValue))) := do
  if !path.isEmpty then configFile added ("read config " ++ path) path
  else
    match ← firstFile (configPaths (← Host.environment? "HOME")) with
    | some path => configFile added "read config" path
    | none => return .ok []

/-- How a journal is kept. -/
structure JournalPlan where
  level : Level
  format : JournalFormat
  /-- The file it goes to, if it is not told at once. -/
  file : Option String
deriving DecidableEq, Inhabited

/-- How the settings say that a journal is kept. -/
def journalPlan (s : Settings) : Except Failure JournalPlan :=
  let name := s.text "log-level"
  match Level.ofName? (Unicode.lowerText name) with
  | none => .error (.level name)
  | some level =>
    let file := s.text "log-file"
    let file := if file.isEmpty then none else some file
    match s.text "log-format" with
    | "text" => .ok ⟨level, .pairs, file⟩
    | "json" => .ok ⟨level, .objects, file⟩
    | format => .error (.format format)

/-- The settings of a command, and how its journal is kept. -/
def configure (verb : Verb) (given : Given) : m (Except Failure (Settings × JournalPlan)) := do
  match ← environmentFile given with
  | .error e => return .error e
  | .ok added =>
    let environment ← settingVariables added verb.flags
    let settings : Settings := ⟨verb.flags, given, environment, []⟩
    match ← configuration added (settings.text "config") with
    | .error e => return .error e
    | .ok config =>
      let settings := { settings with config }
      return (journalPlan settings).map (settings, ·)

end CellMachine.Command
