import CellMachine.Network.Run

/-!
# Journal entries

What machines and networks do is told as a list of entries. An entry is an
event with the machine it happened to, if any; its level, its text and its named
fields are functions of the event.
-/

namespace CellMachine

/-- How much a journal tells: each level includes those before it. -/
inductive Level where
  | panic
  | fatal
  | error
  | warning
  | info
  | debug
  | trace
deriving DecidableEq, Inhabited

namespace Level

/-- The place of a level in the order. -/
def rank : Level → Nat
  | panic => 0
  | fatal => 1
  | error => 2
  | warning => 3
  | info => 4
  | debug => 5
  | trace => 6

/-- The name of a level. -/
def name : Level → String
  | panic => "panic"
  | fatal => "fatal"
  | error => "error"
  | warning => "warning"
  | info => "info"
  | debug => "debug"
  | trace => "trace"

/-- The level with a name in lower case. -/
def ofName? : String → Option Level
  | "panic" => some panic
  | "fatal" => some fatal
  | "error" => some error
  | "warn" => some warning
  | "warning" => some warning
  | "info" => some info
  | "debug" => some debug
  | "trace" => some trace
  | _ => none

/-- Whether a journal kept at this level tells events of another. -/
def tells (kept event : Level) : Bool :=
  event.rank ≤ kept.rank

end Level

/-- Something worth telling. -/
inductive Event where
  /-- The instruction at `pc` was executed, or tried. -/
  | step (pc : Int) (op : Opcode)
  | statusChange (pc : Int) (old new : Status)
  | fault (pc : Int) (old : Status) (cause : Fault)
  /-- The state of a machine after a run that failed. -/
  | state (pc : Int) (status : Status) (count : Nat)
  | round (number : Nat) (waiting : List Nat)
  /-- A fault ended the run of a network. -/
  | stopped (cause : RunError)
  | deadlock (round : Nat) (waiting : List Nat)
  | allHalted (rounds : Nat)
deriving DecidableEq, Inhabited

/-- A value told with an event. -/
inductive FieldValue where
  | number (n : Int)
  | status (s : Status)
  | opcode (op : Opcode)
  | text (s : String)
  | positions (ps : List Nat)
  /-- The identity of a network, which differs from run to run. -/
  | identity
deriving DecidableEq, Inhabited

/-- The text of a field value. -/
def FieldValue.shown : FieldValue → String
  | number n => Numeral.write n
  | status s => s.name
  | opcode op => op.name
  | text s => s
  | positions ps => bracketed (ps.map Int.ofNat)
  | identity => "*"

namespace Event

/-- The level of an event. -/
def level : Event → Level
  | step .. | round .. => .trace
  | _ => .debug

/-- The text of an event. -/
def title : Event → String
  | step .. => "step"
  | statusChange .. => "status change"
  | fault .. => "fault"
  | state .. => "machine state"
  | round .. => "round"
  | stopped _ => "machine fault"
  | deadlock number waiting => (RunError.deadlock number waiting).message
  | allHalted _ => "network halted"

/-- The fields of an event, in order of their names. -/
def fields : Event → List (String × FieldValue)
  | step pc op => [("op", .opcode op), ("pc", .number pc)]
  | statusChange pc old new => [("from", .status old), ("pc", .number pc), ("to", .status new)]
  | fault pc old cause =>
    [("error", .text cause.message), ("from", .status old), ("pc", .number pc)]
  | state pc status count =>
    [("count", .number count), ("pc", .number pc), ("status", .status status)]
  | round number waiting => [("round", .number number), ("waiting", .positions waiting)]
  | stopped cause => [("error", .text cause.message)]
  | deadlock number _ => [("round", .number number)]
  | allHalted rounds => [("rounds", .number rounds)]

end Event

/-- An event with where it happened. -/
structure Entry where
  /-- The label of the machine. -/
  machine : Option String
  /-- Whether it happened in a network. -/
  inNetwork : Bool
  event : Event
deriving DecidableEq, Inhabited

namespace Entry

/-- An entry of a machine. -/
def ofMachine (m : Machine) (event : Event) : Entry :=
  ⟨some m.label, m.member, event⟩

/-- An entry of a network. -/
def ofNetwork (event : Event) : Entry :=
  ⟨none, true, event⟩

/-- The fields of an entry, in order of their names. -/
def fields (e : Entry) : List (String × FieldValue) :=
  let whereabouts := (e.machine.map fun label => ("machine", FieldValue.text label)).toList ++
    if e.inNetwork then [("run", .identity)] else []
  (whereabouts ++ e.event.fields).mergeSort fun f f' => decide (f.1 ≤ f'.1)

end Entry

end CellMachine
