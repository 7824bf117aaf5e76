/-!
# Execution status
-/

namespace CellMachine

/-- The execution status of a machine. -/
inductive Status where
  /-- Ready for the next instruction. -/
  | running
  /-- Blocked on an input instruction with an empty pipe. -/
  | waiting
  /-- Stopped by a halt instruction. -/
  | halted
  /-- Stopped by a fault. -/
  | faulted
  /-- Set from outside to a number that names no status. The machine executes
  its next instruction as if it were running, but counts as started. -/
  | unknown
deriving DecidableEq, Inhabited

namespace Status

/-- The status with a given number. -/
def ofInt : Int → Status
  | 0 => running
  | 1 => waiting
  | 2 => halted
  | 3 => faulted
  | _ => unknown

/-- The number of a status, where it has one. -/
def code : Status → Int
  | running => 0
  | waiting => 1
  | halted => 2
  | faulted => 3
  | unknown => -1

/-- The name of a status. -/
def name : Status → String
  | running => "running"
  | waiting => "waiting"
  | halted => "halted"
  | faulted => "faulted"
  | unknown => "unknown"

end Status

end CellMachine
