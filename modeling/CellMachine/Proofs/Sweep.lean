import CellMachine.Listing
import CellMachine.Proofs.Texts

/-!
# Sweeping through a memory

A sweep writes the statement at address 0, goes on at the address that this returns,
and so on to the end of the memory, with a line break behind each statement. It starts
its statements at the addresses of `Listing.statements`, and what it writes to a
destination that takes everything is `Listing.source` (`sweep_source`).

The addresses are within the memory (`bounds_of_mem`), and no statement reaches past
the end (`add_statementSize_le`).
-/

set_option autoImplicit false

namespace CellMachine

/-! ## Destinations that take everything -/

/-- A sink with some more text in it. -/
def Sink.andText (sink : Sink) (s : String) : Sink :=
  { sink with content := sink.content ++ s.toUTF8 }

@[simp] theorem Sink.andText_empty (sink : Sink) : sink.andText "" = sink := by
  simp [andText]

@[simp] theorem Sink.andText_andText (sink : Sink) (s s' : String) :
    (sink.andText s).andText s' = sink.andText (s ++ s') := by
  simp [andText, String.toByteArray_append, ByteArray.append_assoc]

@[simp] theorem Sink.content_andText_unbounded (s : String) :
    (Sink.unbounded.andText s).content = s.toUTF8 := by
  simp [andText, Sink.unbounded, Sink.new]

theorem Sink.write_of_unbounded {sink : Sink} (h : sink.capacity = none) (s : String) :
    sink.write s.toUTF8 = ⟨sink.andText s, s.toUTF8.size, none⟩ := by
  simp only [Sink.write, Sink.andText, h]

theorem Sticky.writeAll_of_unbounded {sink : Sink} (h : sink.capacity = none)
    (pieces : List String) :
    (Sticky.new sink).writeAll pieces = Sticky.new (sink.andText (String.join pieces)) := by
  induction pieces generalizing sink with
  | nil => rw [String.join_nil, Sink.andText_empty]; rfl
  | cons piece rest ih =>
    have hfirst : ((Sticky.new sink).write piece.toUTF8).dest = Sticky.new (sink.andText piece) := by
      have hwrite : Destination.write sink piece.toUTF8 = _ := Sink.write_of_unbounded h piece
      simp only [Sticky.write, Sticky.new, hwrite]
      rfl
    have hroom : (sink.andText piece).capacity = none := h
    have hrest := ih hroom
    rw [Sink.andText_andText, ← String.join_cons] at hrest
    rw [← hrest, ← hfirst]
    rfl

namespace Listing

variable {m : Memory} {pc : Nat}

/-! ## Statements -/

theorem get_of_lt (h : pc < m.size) : m.get pc = .ok (m.cells.getD pc 0) := by
  have hcells : pc < m.cells.size := h
  have hhas : m.Has pc := by
    simp only [Memory.Has]
    omega
  simp [Memory.get, Memory.index, hhas, hcells]

/-- An instruction is shown if the cell holds one and its parameters lie in memory. -/
theorem shown?_eq_some_iff (h : pc < m.size) {ins : Instruction} :
    shown? m pc = some ins ↔
      Instruction.ofCell? (m.cells.getD pc 0) = some ins ∧ pc + ins.op.arity < m.size := by
  simp only [shown?, Instruction.decode, get_of_lt h]
  cases hcell : Instruction.ofCell? (m.cells.getD pc 0) with
  | none => simp
  | some ins' =>
    by_cases hroom : pc + ins'.op.arity < m.size
    · simp only [hroom, if_true, Option.some.injEq]
      constructor
      · rintro rfl
        exact ⟨rfl, hroom⟩
      · exact fun h => h.1
    · simp only [hroom, if_false, Option.some.injEq]
      constructor
      · intro h
        cases h
      · rintro ⟨rfl, hroom'⟩
        exact absurd hroom' hroom

/-- A parameter as it is written behind the name of an operation. -/
def parameterText (immediate : Bool) (v : Cell) : String :=
  " " ++ (if immediate then "#" else "") ++ Numeral.writeCell v

theorem join_parameterPieces (m : Memory) (ins : Instruction) (pc : Nat) (ks : List Nat) :
    String.join (ks.flatMap (parameterPieces m ins pc)) =
      String.join (ks.map fun k =>
        parameterText (decide (ins.mode k = .immediate)) (m.cells.getD (pc + 1 + k) 0)) := by
  induction ks with
  | nil => rfl
  | cons k rest ih =>
    have hfirst : String.join (parameterPieces m ins pc k) =
        parameterText (decide (ins.mode k = .immediate)) (m.cells.getD (pc + 1 + k) 0) := by
      by_cases hmode : ins.mode k = .immediate
      · simp [parameterPieces, parameterText, hmode, String.join]
      · simp [parameterPieces, parameterText, hmode, String.join]
    rw [List.flatMap_cons, String.join_append, hfirst, ih, List.map_cons, String.join_cons]

theorem statementText_of_shown {ins : Instruction} (h : shown? m pc = some ins) :
    statementText m pc = ins.op.name ++ String.join ((List.range ins.op.arity).map fun k =>
      parameterText (decide (ins.mode k = .immediate)) (m.cells.getD (pc + 1 + k) 0)) := by
  simp only [statementText, statementPieces, h]
  rw [String.join_cons, join_parameterPieces]

theorem statementText_of_data (h : shown? m pc = none) :
    statementText m pc = ".dat " ++ Numeral.writeCell (m.cells.getD pc 0) := by
  simp only [statementText, statementPieces, h]
  rw [String.join_cons, String.join_cons, String.join_nil, String.append_empty]

/-- No statement reaches past the end. -/
theorem add_statementSize_le (h : pc < m.size) : pc + statementSize m pc ≤ m.size := by
  unfold statementSize
  split
  · next ins hins =>
    have hroom := ((shown?_eq_some_iff h).1 hins).2
    omega
  · omega

theorem bounds_of_mem {a : Nat} (h : a ∈ statementsFrom m pc) : pc ≤ a ∧ a < m.size := by
  fun_induction statementsFrom m pc with
  | case1 pc hlt ih =>
    have hpos := statementSize_pos m pc
    rcases List.mem_cons.1 h with rfl | h
    · exact ⟨Nat.le_refl a, hlt⟩
    · have hrest := ih h
      omega
  | case2 => cases h

/-- The statement at an address in range is written piece by piece. -/
theorem writeStatement_of_lt {σ : Type} [Destination σ] (h : pc < m.size) (dest : σ) :
    writeStatement m pc dest =
      (((Sticky.new dest).writeAll (statementPieces m pc)).dest,
        ((Sticky.new dest).writeAll (statementPieces m pc)).error.elim
          (.done (pc + statementSize m pc)) (.unwritten (pc + statementSize m pc))) := by
  rw [writeStatement, putStatement_of_lt h]

theorem next_writeStatement {σ : Type} [Destination σ] (h : pc < m.size) (dest : σ) :
    (writeStatement m pc dest).2.next = pc + statementSize m pc :=
  next_putStatement h (.new dest)

/-! ## Sweeps -/

/-- Statements written one after another from an address on, each followed by a line
break and each at the address that the one before returned, with the addresses and the
sink at the end. -/
inductive Sweep (m : Memory) : Nat → Sink → List Nat → Sink → Prop where
  | finish {pc : Nat} (sink : Sink) : m.size ≤ pc → Sweep m pc sink [] sink
  | statement {pc next : Nat} {sink sink₁ sink₂ : Sink} {addresses : List Nat} :
      writeStatement m pc sink = (sink₁, .done next) →
      Sweep m next (sink₁.write "\n".toUTF8).dest addresses sink₂ →
      Sweep m pc sink (pc :: addresses) sink₂

theorem writeStatement_of_unbounded {sink : Sink} (hs : sink.capacity = none) (h : pc < m.size) :
    writeStatement m pc sink =
      (sink.andText (statementText m pc), .done (pc + statementSize m pc : Nat)) := by
  rw [writeStatement_of_lt h, Sticky.writeAll_of_unbounded hs]
  rfl

theorem sweep_statementsFrom {sink : Sink} (hs : sink.capacity = none) (pc : Nat) :
    Sweep m pc sink (statementsFrom m pc)
      (sink.andText (String.join
        ((statementsFrom m pc).map fun pc => statementText m pc ++ "\n"))) := by
  fun_induction statementsFrom m pc generalizing sink with
  | case1 pc hlt ih =>
    refine .statement (writeStatement_of_unbounded hs hlt) ?_
    have hs' : (sink.andText (statementText m pc)).capacity = none := hs
    rw [Sink.write_of_unbounded hs', List.map_cons, String.join_cons, ← Sink.andText_andText,
      ← Sink.andText_andText]
    exact ih hs'
  | case2 pc hge =>
    rw [List.map_nil, String.join_nil, Sink.andText_empty]
    exact .finish sink (by omega)

/-- A sweep into an empty sink leaves the assembly text of the memory there. -/
theorem sweep_source (m : Memory) :
    Sweep m 0 .unbounded (statements m) (Sink.unbounded.andText (source m)) :=
  sweep_statementsFrom rfl 0

/-- The bytes that a sweep leaves are read as the text. -/
theorem ofByteArray_source (m : Memory) :
    Text.ofByteArray (Sink.unbounded.andText (source m)).content = Text.ofString (source m) := by
  rw [Sink.content_andText_unbounded, Text.ofByteArray_toUTF8]

end Listing

end CellMachine
