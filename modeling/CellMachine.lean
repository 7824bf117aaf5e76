import CellMachine.Amplifier
import CellMachine.Assembly.Assembler
import CellMachine.Command.Simulation
import CellMachine.Console
import CellMachine.Image
import CellMachine.Journal.Record
import CellMachine.Journal.Render
import CellMachine.Listing
import CellMachine.Main
import CellMachine.Patch
import CellMachine.Proofs.Accesses
import CellMachine.Proofs.Arrangements
import CellMachine.Proofs.Assembly.Acceptance
import CellMachine.Proofs.Assembly.Blame
import CellMachine.Proofs.Assembly.Bounds
import CellMachine.Proofs.Assembly.Building
import CellMachine.Proofs.Assembly.InstructionCells
import CellMachine.Proofs.Assembly.Labels
import CellMachine.Proofs.Assembly.Language
import CellMachine.Proofs.Assembly.Order
import CellMachine.Proofs.Assembly.Places
import CellMachine.Proofs.Assembly.Reader
import CellMachine.Proofs.Assembly.Roundtrip
import CellMachine.Proofs.Assembly.Tokens
import CellMachine.Proofs.Assembly.Unlabelled
import CellMachine.Proofs.Atomicity
import CellMachine.Proofs.Buffering
import CellMachine.Proofs.Capacity
import CellMachine.Proofs.Cascade
import CellMachine.Proofs.Confluence
import CellMachine.Proofs.Conservation
import CellMachine.Proofs.Decoding
import CellMachine.Proofs.Effects
import CellMachine.Proofs.FullOutput
import CellMachine.Proofs.Independence
import CellMachine.Proofs.Interactive
import CellMachine.Proofs.LateInput
import CellMachine.Proofs.Lifecycle
import CellMachine.Proofs.Numerals
import CellMachine.Proofs.Partition
import CellMachine.Proofs.PatchLists
import CellMachine.Proofs.Permutations
import CellMachine.Proofs.Pipes
import CellMachine.Proofs.ProgramGrammar
import CellMachine.Proofs.ProgramText
import CellMachine.Proofs.Progress
import CellMachine.Proofs.Reachable
import CellMachine.Proofs.Reaction
import CellMachine.Proofs.Resumption
import CellMachine.Proofs.RoundLimit
import CellMachine.Proofs.Rounds
import CellMachine.Proofs.Schedule
import CellMachine.Proofs.Search
import CellMachine.Proofs.Seeding
import CellMachine.Proofs.Signal
import CellMachine.Proofs.Trace
import CellMachine.Proofs.Twins
import CellMachine.Proofs.Verdict
import CellMachine.Proofs.Wiring
import CellMachine.Report
import CellMachine.Sink.Buffered
