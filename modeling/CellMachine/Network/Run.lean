import CellMachine.Network.Basic

/-!
# Running a network

In a round every machine runs once, in order, until it halts, waits or faults.
`Network.run` runs rounds until all machines have halted. It stops early at a
fault, at the round limit, and at a deadlock: a round after which some machine
has not halted although nothing has changed since the round before.
-/

namespace CellMachine

/-- Why a network stops before all its machines have halted. -/
inductive RunError where
  /-- The machine at a position of the schedule has faulted. -/
  | machine (position : Nat) (fault : MachineFault)
  /-- A round changed nothing; `waiting` are the positions not halted. -/
  | deadlock (round : Nat) (waiting : List Nat)
  | limit (rounds : Nat)
deriving DecidableEq, Inhabited

/-- A list of numbers in brackets. -/
def bracketed (numbers : List Int) : String :=
  "[" ++ " ".intercalate (numbers.map Numeral.write) ++ "]"

/-- The wording of a run error. -/
def RunError.message : RunError → String
  | machine position fault => "machine #" ++ Numeral.write position ++ ": " ++ fault.message
  | deadlock round waiting =>
    "deadlock in round " ++ Numeral.write round ++ ", waiting machines: " ++
      bracketed (waiting.map Int.ofNat)
  | limit rounds => "no result after " ++ Numeral.write rounds ++ " rounds"

/-- Everything a round without effect leaves as it was: status, program counter
and instruction count of each machine, and the number of values ever pushed. -/
structure Snapshot where
  marks : List (Status × Int × Nat)
  pushes : Nat
deriving DecidableEq, Inhabited

namespace Network

/-- The machines in order of their turns. -/
def machines (nw : Network) (rig : Rig) : List Machine :=
  nw.members.filterMap rig.machine?

/-- Whether all machines have halted. -/
def halted (nw : Network) (rig : Rig) : Bool :=
  (nw.machines rig).all (·.status == .halted)

/-- The positions of the machines that have not halted. -/
def waiting (nw : Network) (rig : Rig) : List Nat :=
  (nw.machines rig).zipIdx.filterMap fun (m, position) =>
    if m.status = .halted then none else some position

/-- The snapshot of a network. -/
def snapshot (nw : Network) (rig : Rig) : Snapshot :=
  ⟨(nw.machines rig).map fun m => (m.status, m.pc, m.count),
    nw.pipes.foldl (fun n i => n + (rig.pipes.get i).pushes) 0⟩

/-- The outcome of running machines in turn: the rig, and the error that
stopped the turns if there was one. -/
abbrev Outcome := Rig × Option RunError

/-- Runs machines in turn; the first has the given position. -/
def turns (fuel : Nat) : Nat → List Nat → Rig → Option Outcome
  | _, [], rig => some (rig, none)
  | position, k :: rest, rig =>
    match rig.run fuel k with
    | none => none
    | some rig =>
      match (rig.machine? k).bind Machine.error? with
      | some fault => some (rig, some (.machine position fault))
      | none => turns fuel (position + 1) rest rig

/-- The network with one more round counted. -/
def countRound (nw : Network) : Network :=
  { nw with rounds := nw.rounds + 1 }

/-- Runs every machine once. The round counts even if a machine faults. -/
def round (fuel : Nat) (nw : Network) (rig : Rig) : Option (Network × Outcome) :=
  (turns fuel 0 nw.members rig).map (nw.countRound, ·)

/-- Whether the round limit forbids another round. -/
def exhausted (nw : Network) : Bool :=
  0 < nw.limit && nw.limit ≤ nw.rounds

/-- Runs rounds, given the snapshot taken before the first. Neither the number
of rounds nor a machine's steps in a round go beyond `fuel`; the result is
`none` if that is not enough. -/
def runFrom (fuel : Nat) : Nat → Snapshot → Network → Rig → Option (Network × Outcome)
  | 0, _, _, _ => none
  | rounds + 1, before, nw, rig =>
    if nw.halted rig then some (nw, rig, none)
    else if nw.exhausted then some (nw, rig, some (.limit nw.rounds))
    else
      match nw.round fuel rig with
      | none => none
      | some (nw, rig, some e) => some (nw, rig, some e)
      | some (nw, rig, none) =>
        let after := nw.snapshot rig
        if !nw.halted rig && after = before then
          some (nw, rig, some (.deadlock nw.rounds (nw.waiting rig)))
        else runFrom fuel rounds after nw rig

/-- Runs rounds until all machines have halted. -/
def run (fuel : Nat) (nw : Network) (rig : Rig) : Option (Network × Outcome) :=
  nw.runFrom fuel fuel (nw.snapshot rig) rig

end Network

end CellMachine
