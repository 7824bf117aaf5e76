import CellMachine.Journal.Event

/-!
# Journals of runs

The entries that a step, a run, a round or the run of a network gives rise to.
They are functions of the state before it: what happens is defined without a
journal, and the journal looks on.
-/

namespace CellMachine

namespace Machine

/-- The entries of a step that leads from one machine to another. -/
def stepEntries (before after : Machine) : List Entry :=
  if before.status = .halted ∨ before.status = .faulted then []
  else
    match after.status, after.fault with
    | .faulted, some fault =>
      [.ofMachine before (.fault before.pc before.status fault.cause)]
    | _, _ =>
      let change :=
        if after.status = before.status then []
        else [.ofMachine before (.statusChange after.pc before.status after.status)]
      match Instruction.decode before.memory before.pc with
      | .ok ins => .ofMachine before (.step before.pc ins.op) :: change
      | .error _ => change

/-- The entries of a run, added to earlier ones. -/
def runEntries : Nat → Machine → PipeTable → Array Entry → Array Entry
  | 0, _, _, entries => entries
  | fuel + 1, m, pipes, entries =>
    if m.status = .halted then entries
    else
      let (after, pipes) := m.step pipes
      let entries := entries ++ m.stepEntries after
      if after.status = .running then runEntries fuel after pipes entries else entries

end Machine

namespace Rig

/-- The entries of a step of machine `k`. -/
def stepEntries (rig : Rig) (k : Nat) : List Entry :=
  match rig.machine? k with
  | some m => m.stepEntries (m.step rig.pipes).1
  | none => []

/-- The entries of a run of machine `k`, added to earlier ones. -/
def runEntries (fuel : Nat) (rig : Rig) (k : Nat) (entries : Array Entry) : Array Entry :=
  match rig.machine? k with
  | some m => m.runEntries fuel rig.pipes entries
  | none => entries

end Rig

namespace Network

/-- The entries of machines that run in turn, added to earlier ones. -/
def turnEntries (fuel : Nat) : List Nat → Rig → Array Entry → Array Entry
  | [], _, entries => entries
  | k :: rest, rig, entries =>
    let entries := rig.runEntries fuel k entries
    match rig.run fuel k with
    | none => entries
    | some rig =>
      match (rig.machine? k).bind Machine.error? with
      | some _ => entries
      | none => turnEntries fuel rest rig entries

/-- The entries of a round, added to earlier ones. A round that ends with a
fault has no entry of its own. -/
def roundEntries (fuel : Nat) (nw : Network) (rig : Rig) (entries : Array Entry) : Array Entry :=
  let entries := turnEntries fuel nw.members rig entries
  match nw.round fuel rig with
  | some (nw, rig, none) => entries.push (.ofNetwork (.round nw.rounds (nw.waiting rig)))
  | _ => entries

/-- The entries of rounds, added to earlier ones, given the snapshot taken
before the first. -/
def runFromEntries (fuel : Nat) :
    Nat → Snapshot → Network → Rig → Array Entry → Array Entry
  | 0, _, _, _, entries => entries
  | rounds + 1, before, nw, rig, entries =>
    if nw.halted rig then entries.push (.ofNetwork (.allHalted nw.rounds))
    else if nw.exhausted then entries
    else
      let entries := nw.roundEntries fuel rig entries
      match nw.round fuel rig with
      | none => entries
      | some (_, _, some e) => entries.push (.ofNetwork (.stopped e))
      | some (nw, rig, none) =>
        let after := nw.snapshot rig
        if !nw.halted rig && after = before then
          entries.push (.ofNetwork (.deadlock nw.rounds (nw.waiting rig)))
        else runFromEntries fuel rounds after nw rig entries

/-- The entries of the run of a network. -/
def runEntries (fuel : Nat) (nw : Network) (rig : Rig) : Array Entry :=
  nw.runFromEntries fuel fuel (nw.snapshot rig) rig #[]

end Network

end CellMachine
